import ServiceCatalog.Files.Contents
import ServiceCatalog.Files.Path
/-!
A tree of files and directories below one working directory. Every operation that fails leaves the
tree as it was, but for the directories made on the way to one that cannot be made.
-/
namespace ServiceCatalog

inductive FileError where
  | notFound
  | alreadyExists
  | notDirectory
  | isDirectory
  | nameTooLong
  | nulByte
  deriving DecidableEq, Repr

def FileError.message : FileError → String
  | .notFound => "No such file or directory (os error 2)"
  | .alreadyExists => "File exists (os error 17)"
  | .notDirectory => "Not a directory (os error 20)"
  | .isDirectory => "Is a directory (os error 21)"
  | .nameTooLong => "File name too long (os error 36)"
  | .nulByte => "file name contained an unexpected NUL byte"

inductive Node where
  | file (contents : Contents)
  | directory
  deriving DecidableEq, Repr

/-- The place of a node: the names from the top down. -/
abbrev Place := List String

structure FileTree where
  nodes : List (Place × Node) := []
  deriving DecidableEq, Repr

namespace FileTree

def get? (t : FileTree) (p : Place) : Option Node :=
  if p = [] ∨ p = ["/"] then some .directory else (t.nodes.find? (·.1 == p)).map (·.2)

def putNode (p : Place) (n : Node) : List (Place × Node) → List (Place × Node)
  | [] => [(p, n)]
  | e :: rest => if e.1 == p then (p, n) :: rest else e :: putNode p n rest

def put (t : FileTree) (p : Place) (n : Node) : FileTree := ⟨putNode p n t.nodes⟩

def erase (t : FileTree) (p : Place) : FileTree := ⟨t.nodes.filter fun e => e.1 != p⟩

def checkName (s : String) : Except FileError Unit :=
  if s.utf8ByteSize > 255 then .error .nameTooLong else .ok ()

/-- The place at the end of a walk; every step but the last needs a directory to stand in. -/
def walk (t : FileTree) : Place → List String → Except FileError Place
  | here, [] => .ok here
  | here, s :: rest => do
    match t.get? here with
    | none => throw .notFound
    | some (.file _) => throw .notDirectory
    | some .directory =>
      if s = ".." then t.walk here.dropLast rest
      else do
        checkName s
        t.walk (here ++ [s]) rest

def top (p : Path) : Place := if p.absolute then ["/"] else []

def maxPathBytes : Nat := 4095

def checkText (p : Path) : Except FileError Unit :=
  if p.names.any fun s => s.toList.contains (Char.ofNat 0) then .error .nulByte
  else if p.bytes > maxPathBytes then .error .nameTooLong
  else .ok ()

def resolve (t : FileTree) (p : Path) : Except FileError Place := do
  checkText p
  if p.names.isEmpty && p.ending == .name && !p.absolute then throw .notFound
  t.walk (top p) p.names

def read (t : FileTree) (p : Path) : Except FileError Contents := do
  let place ← t.resolve p
  match t.get? place with
  | none => throw .notFound
  | some .directory => throw .isDirectory
  | some (.file contents) => if p.ending = .name then return contents else throw .notDirectory

/-- A file that is read as a text. -/
def readText? (t : FileTree) (p : Path) : Option String := (t.read p).toOption.bind Contents.text?

theorem readText?_of_read {t : FileTree} {p : Path} {s : String} (h : t.read p = .ok (.text s)) :
    t.readText? p = some s := by
  rw [readText?, h]
  rfl

/-- Opens a file for writing: it is created when absent and keeps its contents otherwise. -/
def touch (t : FileTree) (p : Path) : Except FileError (Place × FileTree) := do
  let place ← t.resolve p
  match p.ending, t.get? place with
  | .slash, _ => throw .isDirectory
  | _, some .directory => throw .isDirectory
  | .name, some (.file _) => return (place, t)
  | .name, none => return (place, t.put place (.file (.text "")))
  | .dot, some (.file _) => throw .notDirectory
  | .dot, none => throw .notFound

def write (t : FileTree) (p : Path) (text : String) : Except FileError FileTree := do
  let (place, t) ← t.touch p
  return t.put place (.file (.text text))

def append (t : FileTree) (p : Path) (text : String) : Except FileError FileTree := do
  let (place, t) ← t.touch p
  match t.get? place with
  | some (.file old) => return t.put place (.file (old.append text))
  | _ => throw .isDirectory

/-- Moves a file over another one. -/
def rename (t : FileTree) (source target : Path) : Except FileError FileTree := do
  let old ← t.resolve source
  let new ← t.resolve target
  match t.get? old with
  | some (.file contents) =>
    match t.get? new with
    | some .directory => throw .isDirectory
    | _ => return (t.erase old).put new (.file contents)
  | some .directory => throw .isDirectory
  | none => throw .notFound

def removeFile (t : FileTree) (p : Path) : Except FileError FileTree := do
  let place ← t.resolve p
  match t.get? place with
  | some (.file _) => if p.ending = .name then return t.erase place else throw .notDirectory
  | some .directory => throw .isDirectory
  | none => throw .notFound

def isDirectory (t : FileTree) (p : Path) : Bool :=
  match t.resolve p with
  | .ok place => t.get? place == some .directory
  | .error _ => false

def has (t : FileTree) (p : Path) : Bool :=
  match t.resolve p with
  | .ok place =>
    match t.get? place with
    | some (.file _) => p.ending == .name
    | some .directory => true
    | none => false
  | .error _ => false

/-- Makes the directories along a walk that are not there yet, up to the first that cannot be made. -/
def makeAlong : Place → List String → FileTree → Except FileError Unit × FileTree
  | _, [], t => (.ok (), t)
  | here, s :: rest, t =>
    if s = ".." then makeAlong here.dropLast rest t
    else
      let next := here ++ [s]
      match checkName s, t.get? next with
      | .error e, _ => (.error e, t)
      | _, some .directory => makeAlong next rest t
      | _, some (.file _) => (.error (if rest.isEmpty then .alreadyExists else .notDirectory), t)
      | _, none => makeAlong next rest (t.put next .directory)

/-- Makes a directory and those it stands in; the ones made before a failure stay. With a `.` at its
end the path names a directory that has to be there. -/
def createDirectories (t : FileTree) (p : Path) : Except FileError Unit × FileTree :=
  match checkText p with
  | .error e => (.error e, t)
  | .ok () =>
    if t.isDirectory p then (.ok (), t)
    else if p.ending = .dot then
      match makeAlong (top p) p.names.dropLast t with
      | (.error e, t) => (.error e, t)
      | (.ok (), t) => (.error (if t.has { p with ending := .name } then .notDirectory else .notFound), t)
    else makeAlong (top p) p.names t

/-- The tree with a directory and those it stands in. -/
def makeDirectories (t : FileTree) (p : Path) : Except FileError FileTree :=
  let (made, t) := t.createDirectories p
  made.map fun _ => t

def insertSorted (s : String) : List String → List String
  | [] => [s]
  | u :: rest => if s ≤ u then s :: u :: rest else u :: insertSorted s rest

/-- All files, in the order of their paths. -/
def files (t : FileTree) : List String :=
  (t.nodes.filterMap fun e =>
    match e.2 with
    | .file _ => some ("/".intercalate e.1)
    | .directory => none).foldr insertSorted []

end FileTree
end ServiceCatalog
