import PhaseExecutors.KeyedMap
import PhaseExecutors.Options

/-!
Providers of option groups.

A provider answers each id with a group or with nothing; nothing forces it to answer with a group
of that id. `StaticOptions` is a provider that keeps groups in a map. The map takes any group under
any id; it is the insertion that puts each group under its own.
-/

namespace PhaseExecutors

abbrev Provider := GroupId → Option OptionGroup

structure StaticOptions where
  groups : KeyedMap GroupId OptionGroup

namespace StaticOptions

def empty : StaticOptions := ⟨.empty⟩

def lookup (o : StaticOptions) : Provider := o.groups.get?

/-- Adds a group under its id, in place of an older one. -/
def insert (o : StaticOptions) (g : OptionGroup) : StaticOptions := ⟨o.groups.insert g.id g⟩

/-- Takes the group of an id out. -/
def remove (o : StaticOptions) (id : GroupId) : Option OptionGroup × StaticOptions :=
  ((o.groups.remove id).1, ⟨(o.groups.remove id).2⟩)

def isEmpty (o : StaticOptions) : Bool := o.groups.isEmpty

def ofList (gs : List OptionGroup) : StaticOptions := gs.foldl insert empty

theorem lookup_insert (o : StaticOptions) (g : OptionGroup) (id : GroupId) :
    (o.insert g).lookup id = if g.id = id then some g else o.lookup id :=
  o.groups.get?_insert g.id id g

theorem remove_fst (o : StaticOptions) (id : GroupId) : (o.remove id).1 = o.lookup id :=
  o.groups.remove_fst id

theorem lookup_remove (o : StaticOptions) (id other : GroupId) :
    (o.remove id).2.lookup other = if id = other then none else o.lookup other :=
  o.groups.get?_remove id other

theorem isEmpty_iff (o : StaticOptions) : o.isEmpty = true ↔ ∀ id, o.lookup id = none :=
  KeyedMap.isEmpty_iff

end StaticOptions

end PhaseExecutors
