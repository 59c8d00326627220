import PhaseExecutors.CommandLine.Transcript

/-!
The program: it looks at its surroundings, carries out its command line, and writes the transcript.
-/

namespace PhaseExecutors.CommandLine

/-- The text of a system file, or none of it. -/
def readText (path : String) : IO String := do
  try IO.FS.readFile path catch _ => pure ""

/-- The variables of the environment, in the order of its block. -/
def readVariables : IO (List (String × String)) := do
  let text ← readText "/proc/self/environ"
  return (Text.splitText '\x00' text).filterMap fun line =>
    let name := line.toList.takeWhile (· ≠ '=')
    match line.toList.dropWhile (· ≠ '=') with
    | [] => none
    | _ :: value => some (String.ofList name, String.ofList value)

/-- The home directory of the user with the number of this process, as the system has it. -/
def readHome : IO (Option String) := do
  let status ← readText "/proc/self/status"
  let users ← readText "/etc/passwd"
  let user? := (Text.splitText '\n' status).findSome? fun line =>
    match Text.splitText '\t' line with
    | "Uid:" :: user :: _ => some user
    | _ => none
  return (Text.splitText '\n' users).findSome? fun line =>
    match Text.splitText ':' line with
    | [_, _, user, _, _, home, _] => if some user = user? then some home else none
    | _ => none

/-- The number of processors. -/
def readHost : IO Size := do
  let text ← readText "/proc/cpuinfo"
  let processors := (Text.splitText '\n' text).countP fun line => line.startsWith "processor"
  return UInt64.ofNat (max 1 processors)

/-- Adds what stands at a place to the files that are known. -/
def probe (files : FileTree) (names : List String) : IO FileTree := do
  try
    let content ← IO.FS.readFile (PathText.ofNames names)
    return { files with files := (names, content) :: files.files }
  catch
    | .inappropriateType .. => return { files with directories := names :: files.directories }
    | _ => return files

/-- The surroundings, with the files that a run with this explicit file may look at. -/
def readSite (explicit : Option String) : IO Site := do
  let site : Site := {
    files := ⟨[], []⟩, directory := toString (← IO.currentDir), environment := ← readVariables
    home := ← readHome }
  let places := (site.candidates explicit).flatMap fun path =>
    FileTree.places [] (Text.splitText '/' path)
  let files ← places.eraseDups.foldlM probe site.files
  return { site with files := files }

def writePiece (p : Piece) : IO Unit :=
  match p with
  | .text s => IO.print s
  | .note l => IO.println l.toText

end PhaseExecutors.CommandLine

open PhaseExecutors CommandLine in
/-- Carries out a command line; the result is the exit code. -/
def main (words : List String) : IO UInt32 := do
  match Invocation.ofWords words with
  | .error halt =>
    let surroundings : Site := {
      files := ⟨[], []⟩, directory := "", environment := ← readVariables }
    let color := surroundings.wantsMessageColor (← (← IO.getStderr).isTty)
    if halt.isAnswer then IO.print (halt.toText false) else IO.eprint (halt.toText color)
    return UInt32.ofNat halt.code
  | .ok invocation =>
    let site ← readSite invocation.config
    let color := site.wantsColor (← (← IO.getStdout).isTty)
    let transcript := invocation.transcript site (← readHost) color
    transcript.output.forM writePiece
    if let some failure := transcript.failure then IO.eprint failure.toText
    return UInt32.ofNat transcript.code
