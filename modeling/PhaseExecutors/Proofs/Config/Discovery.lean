import Mathlib.Data.List.Forall2
import PhaseExecutors.Config.Loader

/-!
The listing of configuration files, and the files that a load merges.

A file is listed as found if something stands at its path. A load asks for a regular file instead,
and looks for a relative path in the directories above too. So the listing tells the truth exactly
where both come to the same: what stands at a path is a regular file, and a file that is named but
is not there is in no directory above either.
-/

namespace PhaseExecutors

namespace Site

variable {s : Site} {named : Option String} {path : String} {paths : List String}

/-! ### Looking for a file -/

/-- What is relied on of a function that finds a regular file: its absolute path and its content. -/
structure IsFinder (find : Site → String → Option (String × String)) : Prop where
  /-- An absolute path leads to the file itself. -/
  absolute : ∀ s path, PathText.isAbsolute path = true → find s path = s.fileAt? path
  /-- A relative one is followed from the working directory and from those around it; the innermost
  that leads to a file counts. -/
  relative : ∀ s path, PathText.isAbsolute path = false → ∀ file, find s path = some file ↔
    ∃ inner directory outer, ancestors (PathText.names s.directory) = inner ++ directory :: outer ∧
      s.fileAt? (PathText.join (PathText.ofNames directory) path) = some file ∧
        ∀ d ∈ inner, s.fileAt? (PathText.join (PathText.ofNames d) path) = none

/-- **Files are found as is relied on.** -/
theorem isFinder_findFile? : IsFinder findFile? where
  absolute _ _ h := by rw [findFile?, if_pos h]
  relative _ _ h _ := by rw [findFile?, if_neg (by simp [h]), List.findSome?_eq_some_iff]

/-- The path from the root. -/
def place (s : Site) (path : String) : String :=
  if PathText.isAbsolute path then path
  else PathText.join (PathText.ofNames (PathText.names s.directory)) path

/-- The regular file at the path itself: its place and its content. -/
def fileHere? (s : Site) (path : String) : Option (String × String) := s.fileAt? (s.place path)

/-- A file in its place is found first. -/
lemma IsFinder.find_of_fileHere? {find : Site → String → Option (String × String)}
    (hfind : IsFinder find) {file : String × String} (h : s.fileHere? path = some file) :
    find s path = some file := by
  unfold fileHere? place at h
  split at h
  · next habsolute => rw [hfind.absolute s path habsolute, h]
  · next hrelative =>
    obtain ⟨outer, houter⟩ : ∃ outer, ancestors (PathText.names s.directory) =
        PathText.names s.directory :: outer := by
      rw [ancestors, List.range_succ_eq_map, List.map_cons, Nat.sub_zero, List.take_length]
      exact ⟨_, rfl⟩
    rw [hfind.relative s path (Bool.eq_false_iff.mpr hrelative) file]
    exact ⟨[], _, outer, houter, h, nofun⟩

/-! ### What a load merges -/

/-- The files that a load merges, the highest first. -/
def merged (s : Site) (named : Option String) : List (String × String) :=
  (s.loadPaths named).reverse.filterMap s.findFile?

/-- The layers of files by their places and contents. -/
def layersOf (s : Site) : List (String × String) → Except LoadError (List Layer)
  | [] => .ok []
  | (place, content) :: files =>
    match Toml.read? content with
    | some v => do
      let layers ← s.layersOf files
      return .ofValue (.file (PathText.shown s.directory place)) v :: layers
    | none => .error .syntaxError

lemma fileLayers_eq (s : Site) (paths : List String) :
    s.fileLayers paths = s.layersOf (paths.filterMap s.findFile?) := by
  induction paths with
  | nil => rfl
  | cons path paths ih =>
    rw [fileLayers, ih]
    cases hfind : s.findFile? path with
    | none =>
      rw [List.filterMap_cons_none hfind]
      simp only [fileLayer, hfind]
      cases s.layersOf (paths.filterMap s.findFile?) <;> rfl
    | some file =>
      obtain ⟨place, content⟩ := file
      rw [List.filterMap_cons_some hfind, layersOf]
      simp only [fileLayer, hfind]
      cases Toml.read? content with
      | none => rfl
      | some v => rfl

/-- Of the files a load sees no more than those that it merges. -/
lemma load_eq_merged (s : Site) (named : Option String) (o : Overrides) :
    Config.load s named o = Config.assemble ((s.layersOf (s.merged named).reverse).map fun layers =>
      layers ++ [EnvironmentLayer.ofVariables s.environment]) o := by
  rw [Config.load, fileLayers_eq, merged, ← List.filterMap_reverse, List.reverse_reverse]

/-! ### What is listed -/

/-- The listing tells the truth: the sources that it marks as found are, one by one, the files that
a load merges, the highest first. -/
def Honest (s : Site) (named : Option String) : Prop :=
  List.Forall₂ (fun (src : Source) file => s.fileHere? src.path = some file)
    ((s.sources named).filter (·.found)) (s.merged named)

/-- Files are where they are listed. -/
structure InPlace (s : Site) (named : Option String) : Prop where
  /-- What is found is a regular file in its place, -/
  regular : ∀ src ∈ s.sources named, src.found = true → (s.fileHere? src.path).isSome
  /-- and a file that is named but does not exist is not found in a directory above either. -/
  notAbove : ∀ path ∈ named, s.exists? path = false → s.findFile? path = none

/-- Below the file that is named, what is listed as found is what a load looks up. -/
def lowerPaths (s : Site) : List String :=
  s.projectPath?.toList ++ (s.globalPath?.filter s.exists?).toList

lemma loadPaths_reverse (s : Site) (named : Option String) :
    (s.loadPaths named).reverse = named.toList ++ s.lowerPaths := by
  have hreverse (o : Option String) : o.toList.reverse = o.toList := by cases o <;> rfl
  simp only [loadPaths, lowerPaths, List.reverse_append, hreverse, List.append_assoc]

lemma map_path_found (s : Site) (named : Option String) :
    ((s.sources named).filter (·.found)).map (·.path) =
      (named.filter s.exists?).toList ++ s.lowerPaths := by
  have hsource (label : String) (o : Option String) :
      (((o.map fun path => (⟨label, path, s.exists? path⟩ : Source)).toList).filter
        (·.found)).map (·.path) = (o.filter s.exists?).toList := by
    cases o with
    | none => rfl
    | some path => cases hexists : s.exists? path <;> simp [hexists, Option.filter]
  unfold sources lowerPaths
  cases s.projectPath? with
  | none => simp [hsource]
  | some path => simp [hsource]

/-- The files are at the paths themselves, one by one. -/
def AtPaths (s : Site) (paths : List String) (files : List (String × String)) : Prop :=
  List.Forall₂ (fun path file => s.fileHere? path = some file) paths files

lemma AtPaths.regular {files : List (String × String)} (h : s.AtPaths paths files) :
    ∀ path ∈ paths, (s.fileHere? path).isSome := by
  have hboth : List.Forall₂ (fun path file =>
      (s.fileHere? path).isSome ∧ s.fileHere? path = some file) paths files :=
    h.imp fun path file hfile => ⟨by rw [hfile]; rfl, hfile⟩
  exact (List.forall₂_and_left paths files).mp hboth |>.1

/-- Where files are in their places, a load finds them there. -/
lemma atPaths_filterMap (h : ∀ path ∈ paths, (s.fileHere? path).isSome) :
    s.AtPaths paths (paths.filterMap s.findFile?) := by
  induction paths with
  | nil => exact .nil
  | cons path paths ih =>
    obtain ⟨file, hfile⟩ := Option.isSome_iff_exists.mp (h path List.mem_cons_self)
    rw [List.filterMap_cons_some (isFinder_findFile?.find_of_fileHere? hfile)]
    exact .cons hfile (ih fun path' hpath' => h path' (.tail path hpath'))

lemma honest_iff_atPaths : s.Honest named ↔
    s.AtPaths ((named.filter s.exists?).toList ++ s.lowerPaths) (s.merged named) := by
  rw [← map_path_found, AtPaths, List.forall₂_map_left_iff]
  rfl

/-- A load looks up what is listed as found, and the file that is named in any case. -/
lemma merged_eq (s : Site) (named : Option String) :
    s.merged named = named.toList.filterMap s.findFile? ++ s.lowerPaths.filterMap s.findFile? := by
  rw [merged, loadPaths_reverse, List.filterMap_append]

lemma merged_eq_of_notAbove (h : ∀ path ∈ named, s.exists? path = false → s.findFile? path = none) :
    s.merged named = ((named.filter s.exists?).toList ++ s.lowerPaths).filterMap s.findFile? := by
  rw [merged_eq, List.filterMap_append]
  congr 1
  cases named with
  | none => rfl
  | some path =>
    cases hexists : s.exists? path with
    | true => rw [Option.filter_some_pos hexists]
    | false =>
      rw [Option.filter_some_neg (by simp [hexists])]
      exact List.filterMap_cons_none (h path rfl hexists)

/-- A file that is merged from a directory above is one more than what is listed. -/
lemma findFile?_eq_none_of_honest (h : s.Honest named) (hpath : path ∈ named)
    (hexists : s.exists? path = false) : s.findFile? path = none := by
  cases hpath
  rw [honest_iff_atPaths, Option.filter_some_neg (by simp [hexists])] at h
  have hlower := (atPaths_filterMap h.regular).length_eq
  have hlength := h.length_eq
  cases hfind : s.findFile? path with
  | none => rfl
  | some file =>
    simp only [merged_eq, Option.toList_some, Option.toList_none, List.nil_append,
      List.filterMap_cons_some hfind, List.filterMap_nil, List.length_append,
      List.length_singleton] at hlength hlower
    omega

/-- **The listing tells the truth exactly where files are in their places**, of a load that merges
the files which it is compared with. -/
theorem honest_iff_inPlace (s : Site) (named : Option String) :
    (∀ o, Config.load s named o =
      Config.assemble ((s.layersOf (s.merged named).reverse).map fun layers =>
        layers ++ [EnvironmentLayer.ofVariables s.environment]) o) ∧
      (s.Honest named ↔ s.InPlace named) := by
  refine ⟨load_eq_merged s named,
    fun h => ⟨fun src hsrc hfound => ?_, fun path hpath hexists => ?_⟩, fun h => ?_⟩
  · have hregular := (honest_iff_atPaths.mp h).regular
    rw [← map_path_found] at hregular
    exact hregular _ (List.mem_map_of_mem (List.mem_filter.mpr ⟨hsrc, hfound⟩))
  · exact findFile?_eq_none_of_honest h hpath hexists
  · rw [honest_iff_atPaths, merged_eq_of_notAbove h.notAbove]
    refine atPaths_filterMap fun path hpath => ?_
    rw [← map_path_found] at hpath
    obtain ⟨src, hsrc, rfl⟩ := List.mem_map.mp hpath
    obtain ⟨hsrc, hfound⟩ := List.mem_filter.mp hsrc
    exact h.regular src hsrc hfound

/-- The listing finds nothing where a load merges a file from the directory above. -/
theorem dishonest_below_file :
    let s : Site := {
      files := ⟨[(["work", "extra.toml"], "[build]\njobs = 4\n")], [["work", "sub"]]⟩
      directory := "/work/sub"
      environment := [("HOME", "/work/home")] }
    s.sources (some "extra.toml") =
        [⟨"Explicit", "extra.toml", false⟩, ⟨"Project", "phasepool.toml", false⟩,
          ⟨"Global", "/work/home/.config/phasepool/config.toml", false⟩] ∧
      Config.load s (some "extra.toml") {} = .ok { build := some ⟨.fixed 4⟩ } ∧
      ¬s.Honest (some "extra.toml") := by
  refine ⟨by decide +kernel, by decide +kernel, fun h => ?_⟩
  have hnone := findFile?_eq_none_of_honest h rfl (by decide +kernel)
  exact absurd hnone (by decide +kernel)

end Site

end PhaseExecutors
