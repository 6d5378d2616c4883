import ServiceCatalog.CommandLine.Reach
import Std.Time.DateTime.Timestamp
/-!
The program. It takes a picture of the files that a command looks at, runs the command on the picture,
and brings the files in line with what came out.
-/
namespace ServiceCatalog.Program

open CommandLine

/-- The text of a place in a tree of files. -/
def placeText : Place → String
  | "/" :: names => "/" ++ "/".intercalate names
  | names => "/".intercalate names

/-- What stands at a place; whatever cannot be read counts as a directory. -/
def look (place : Place) : IO (Option Node) := do
  try
    return some (.file (.ofBytes (← IO.FS.readBinFile (placeText place)).data.toList))
  catch
    | .noFileOrDirectory .. => return none
    | _ => return some .directory

/-- Adds what stands along a path to a picture. -/
def addPath (t : FileTree) (path : String) : IO FileTree := do
  let p := Path.ofText path
  let mut t := t
  let mut here := FileTree.top p
  for name in p.names do
    here := if name == ".." then here.dropLast else here ++ [name]
    match ← look here with
    | some n => t := t.put here n
    | none => pure ()
  return t

def addPaths (t : FileTree) (paths : List String) : IO FileTree := paths.foldlM addPath t

/-- Writes bytes beside their place and moves them there. -/
def replaceFile (path : String) (bytes : List UInt8) : IO Unit := do
  let draft := path ++ ".new"
  IO.FS.writeBinFile draft bytes.toByteArray
  IO.FS.rename draft path

def appendFile (path : String) (bytes : List UInt8) : IO Unit := do
  let h ← IO.FS.Handle.mk path .append
  h.write bytes.toByteArray

def bringNode (before : FileTree) (place : Place) (n : Node) : IO Unit := do
  let path := placeText place
  match n, before.get? place with
  | .directory, some _ => pure ()
  | .directory, none => IO.FS.createDirAll path
  | .file contents, some (.file old) =>
    if contents == old then pure ()
    else if old.bytes.isPrefixOf contents.bytes then
      appendFile path (contents.bytes.drop old.bytes.length)
    else replaceFile path contents.bytes
  | .file contents, _ => replaceFile path contents.bytes

/-- Brings the files in line. -/
def bringAll (before after : FileTree) : IO Unit := do
  for e in after.nodes do
    bringNode before e.1 e.2
  for e in before.nodes do
    if (after.get? e.1).isNone then IO.FS.removeFile (placeText e.1)

/-- The variables of the process. -/
def environment : IO Environment := do
  let text ← try IO.FS.readFile "/proc/self/environ" catch _ => pure ""
  return (Path.splitOn (Char.ofNat 0) text.toList).filterMap fun cs =>
    match cs.dropWhile (· != '=') with
    | _ :: value => some (String.ofList (cs.takeWhile (· != '=')), String.ofList value)
    | [] => none

def now : IO Instant := do
  let n := (← Std.Time.Timestamp.now).toNanosecondsSinceUnixEpoch.val
  return ⟨n / billion, (n % billion).toNat⟩

def hexByte (b : UInt8) : List Char := Json.hexDigits 2 b.toNat

/-- A random token: 32 hexadecimal digits in five groups, with the marks of a random identifier. -/
def randomToken : IO Token := do
  let bytes := (← IO.getRandomBytes 16).toList
  let marked := bytes.zipIdx.map fun (b, i) =>
    if i == 6 then b % 16 + 64 else if i == 8 then b % 64 + 128 else b
  let group (first count : Nat) := ((marked.drop first).take count).flatMap hexByte
  let groups := [group 0 4, group 4 2, group 6 2, group 8 2, group 10 6]
  return ⟨"-".intercalate (groups.map String.ofList)⟩

/-- Holds a lock file that is there while something is done. -/
def withLock {α : Type} (path : Option String) (work : IO α) : IO α := do
  match path with
  | none => work
  | some path =>
    if (← look (Path.ofText path).names).isNone then work
    else
      let h ← IO.FS.Handle.mk path .append
      h.lock
      let r ← work
      h.unlock
      return r

def present (r : Result) : IO UInt32 := do
  IO.print r.output
  for n in r.notes do
    IO.eprintln n
  match r.failure with
  | none => return 0
  | some f =>
    IO.eprintln ("Error: " ++ f.message?.getD "the settings, the log filter or a file are unusable")
    return 1

def usage : String :=
  "usage: [--config FILE] COMMAND\n" ++
  "  apply MACHINE ACTION ID [--payload JSON | --payload-file FILE]\n" ++
  "  show MACHINE ID\n" ++
  "  topics\n" ++
  "  replay MACHINE FILE\n" ++
  "  init-config [--path FILE] [--force]"

def runInvocation (i : Invocation) : IO UInt32 := do
  let env ← environment
  let token ← randomToken
  let files ← addPaths {} (settingsPaths i.settingsFile)
  let before : Surroundings := ⟨files, env, ← now, fun _ => token⟩
  match prepare before i.settingsFile with
  | .error _ => present (run before i)
  | .ok settings =>
    withLock (lockPath? settings i.command) do
      let files ← addPaths files (commandPaths settings i.command)
      let r := run { before with files := files } i
      bringAll files r.files
      present r

end ServiceCatalog.Program

def main (args : List String) : IO UInt32 := do
  match ServiceCatalog.CommandLine.parse args with
  | some i => ServiceCatalog.Program.runInvocation i
  | none =>
    IO.eprintln ServiceCatalog.Program.usage
    return 2
