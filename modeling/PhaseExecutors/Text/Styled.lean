/-!
Styled text for a terminal.

A styled text is a list of spans. With color each span stands between the codes of its style and a
reset. Without color the span is shown as a terminal would show it: the control sequences in it
take effect on nothing and are left out, with all controls but blanks. Every span is read by
itself, so a control sequence never reaches beyond the span that begins it.
-/

namespace PhaseExecutors.Text

/-! ### Control sequences -/

/-- Where a text stands in a control sequence. -/
inductive ControlMode
  /-- Outside of all control sequences. -/
  | ground
  /-- Behind an escape character. -/
  | escape
  /-- Behind the first characters of an escape that goes on. -/
  | escapeBody
  /-- In a sequence of parameters, which a letter ends. -/
  | parameters
  /-- At the beginning of a control string for a device. -/
  | deviceStart
  /-- In the parameters of a control string for a device. -/
  | deviceParameters
  /-- Behind the parameters of a control string for a device. -/
  | deviceBody
  /-- In the data of a control string. -/
  | data
  /-- In a control string for the terminal itself, which the bell ends. -/
  | command
deriving DecidableEq, Repr

/-- A control that moves on in the text; it is kept also inside a control sequence. -/
def isBlankControl (c : Char) : Bool := c = '\t' || c = '\n' || c = '\x0c' || c = '\r'

/-- A character that is shown outside of control sequences. -/
def isShown (c : Char) : Bool := isBlankControl c || (0x20 ≤ c.toNat && c.toNat ≠ 0x7F)

/-- The byte `9C`, which ends the data of a control string, is part of the character. -/
def endsData (c : Char) : Bool := (String.utf8EncodeChar c).contains 0x9C

namespace ControlMode

/-- What a visible character behind an escape character begins. -/
def opened (c : Char) : ControlMode :=
  if c = '[' then .parameters
  else if c = ']' then .command
  else if c = 'P' then .deviceStart
  else if c = 'X' || c = '^' || c = '_' then .data
  else if c.toNat < 0x30 then .escapeBody
  else .ground

/-- The mode behind a visible character of ASCII. -/
def nextVisible (m : ControlMode) (c : Char) : ControlMode :=
  match m with
  | .ground | .data | .command => m
  | .escape => opened c
  | .escapeBody => if c.toNat < 0x30 then .escapeBody else .ground
  | .parameters => if c.toNat < 0x40 then .parameters else .ground
  | .deviceStart =>
    if c.toNat < 0x30 then .deviceBody else if c.toNat < 0x40 then .deviceParameters else .data
  | .deviceParameters =>
    if c.toNat < 0x30 then .deviceBody else if c.toNat < 0x3C then .deviceParameters else .data
  | .deviceBody => if c.toNat < 0x30 then .deviceBody else .data

/-- The mode behind a character. -/
def next (m : ControlMode) (c : Char) : ControlMode :=
  if c = '\x1b' then .escape
  else if c = '\x18' || c = '\x1a' then .ground
  else if 0x20 ≤ c.toNat && c.toNat < 0x7F then m.nextVisible c
  else
    match m with
    | .command => if c = '\x07' then .ground else .command
    | .data => if endsData c then .ground else .data
    | m => m

/-- A character that is kept in a mode. -/
def keeps (m : ControlMode) (c : Char) : Bool :=
  match m with
  | .ground => isShown c
  | .escape | .escapeBody | .parameters => isBlankControl c
  | .deviceStart | .deviceParameters | .deviceBody | .data | .command => false

end ControlMode

/-- Where a text is shown without color. A blank control inside a control sequence shows them
apart. -/
inductive Medium
  /-- The blank control ends the sequence. -/
  | text
  /-- The sequence rests while characters are shown and goes on with the next control that is not;
  a character beyond ASCII ends it. -/
  | stream
deriving DecidableEq, Repr

/-- The mode behind a character that is kept. -/
def Medium.resting (medium : Medium) (m : ControlMode) (c : Char) : ControlMode :=
  match medium with
  | .text => .ground
  | .stream => if c.toNat < 0x80 then m else .ground

/-- What a medium shows of a text that begins in a mode; `running` tells that the character ahead
was kept. -/
def shownFrom (medium : Medium) (running : Bool) (m : ControlMode) : List Char → List Char
  | [] => []
  | c :: rest =>
    if (running && isShown c) || m.keeps c then
      c :: shownFrom medium true (medium.resting m c) rest
    else shownFrom medium false (m.next c) rest

/-- What a medium shows of a text. -/
def shown (medium : Medium) (s : String) : String :=
  String.ofList (shownFrom medium false .ground s.toList)

/-! ### Spans -/

/-- How a span stands out in a message. -/
inductive Style
  | plain
  | error
  | invalid
  | literal
deriving DecidableEq, Repr

/-- The codes that switch a style on. -/
def Style.codes : Style → String
  | .plain => ""
  | .error => "\x1b[1m\x1b[31m"
  | .invalid => "\x1b[33m"
  | .literal => "\x1b[1m"

structure Span where
  style : Style
  text : String
deriving DecidableEq, Repr

namespace Span

def plain (text : String) : Span := ⟨.plain, text⟩

/-- The text between the codes of its style and a reset. -/
def colored (s : Span) : String :=
  if s.style = .plain then s.text else s.style.codes ++ s.text ++ "\x1b[0m"

/-- The text of all spans with color. -/
def joinColored (spans : List Span) : String := String.join (spans.map colored)

/-- The text of all spans without color. -/
def join (medium : Medium) (spans : List Span) : String :=
  String.join (spans.map fun s => shown medium s.text)

end Span

end PhaseExecutors.Text
