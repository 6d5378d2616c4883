import ServiceCatalog.Files.Tree
import ServiceCatalog.Json.Printer
import ServiceCatalog.Store.Feed
/-!
The store kept in a directory, one JSON file for each id. A save holds the lock file of the
directory while it compares and writes; the text goes to a file beside the record first and is then
moved over it. A record that cannot be decoded is never replaced.
-/
namespace ServiceCatalog

/-- What a record file holds. -/
structure Stored (D : Type) where
  version : Token
  modifiedAt : Instant
  document : D
  deriving DecidableEq, Repr

namespace Stored

variable {D : Type} [Document D]

def toJson (r : Stored D) : Json :=
  .obj [("version", .str r.version.text), ("modified_at", .str r.modifiedAt.text),
    ("document", Document.toJson r.document)]

def fields : Decode.Fields (Stored D) :=
  Stored.mk <$> .required "version" Token.ofJson <*> .required "modified_at" Decode.instant
    <*> .required "document" Document.ofJson

def ofJson : Json → Decoded (Stored D) := Decode.record false "struct StoredRecord" fields

def toText (r : Stored D) : String := r.toJson.toPrettyText

/-- Of the text only the three fields are read. -/
def outline (D : Type) [Document D] : Json.Outline :=
  .record false [("version", .whole), ("modified_at", .whole), ("document", Document.outline D)]

def ofText? (text : String) : Option (Stored D) := do
  let j ← Json.ofTextIn? (outline D) text
  match ofJson j with
  | .ok r => some r
  | .error _ => none

/-- A file may hold bytes that are no text where nothing is read. -/
def ofContents? (c : Contents) : Option (Stored D) := ofText? (c.markedText Json.brokenMark)

def versioned (id : String) (r : Stored D) : Versioned D := ⟨id, r.document, r.version, r.modifiedAt⟩

end Stored

structure Directory (D : Type) where
  path : String
  feed : Feed D := {}

namespace Directory

variable {D : Type}

def lockName : String := ".store.lock"

def recordName (id : String) : String := id ++ ".json"

def draftName (id : String) : String := id ++ ".json.tmp"

def place (s : Directory D) (file : String) : Path := .ofText (Path.join s.path file)

/-- After this many milliseconds a writer that found the lock taken may try again. -/
def retryAfter : Nat := 100

/-- Creates the directory. -/
def create (files : FileTree) (path : String) : Except FileError (Directory D × FileTree) := do
  return (⟨path, {}⟩, ← files.makeDirectories (.ofText path))

def ioError {α : Type} (e : FileError) : Except StoreError α := .error (.io e.message)

variable [Document D]

/-- The record file of an id, none when it is absent. -/
def readRecord (files : FileTree) (s : Directory D) (id : String) :
    Except StoreError (Option (Stored D)) :=
  match files.read (s.place (recordName id)) with
  | .ok contents =>
    match Stored.ofContents? contents with
    | some r => .ok (some r)
    | none => .error .serialization
  | .error .notFound => .ok none
  | .error e => ioError e

def fetch (files : FileTree) (s : Directory D) (id : String) :
    Except StoreError (Option (Versioned D)) := do
  validateId id
  return (← readRecord files s id).map (·.versioned id)

/-- Writes beside the record and moves the result over it. -/
def replace (files : FileTree) (s : Directory D) (id : String) (text : String) :
    Except FileError FileTree := do
  let files ← files.write (s.place (draftName id)) text
  files.rename (s.place (draftName id)) (s.place (recordName id))

/-- The part of a save that runs under the lock. -/
def saveLocked (files : FileTree) (s : Directory D) (now : Instant) (fresh : Token) (id : String)
    (document : D) (expected : Option Token) :
    Except StoreError (Versioned D × FileTree × Directory D) := do
  let actual := (← readRecord files s id).map (·.version)
  if actual = expected then
    let r : Stored D := ⟨fresh, now, document⟩
    match replace files s id r.toText with
    | .ok files =>
      let c := r.versioned id
      return (c, files, { s with feed := s.feed.publish c })
    | .error e => ioError e
  else throw (.conflict id expected actual)

/-- Commits under the token `fresh` if `expected` is the stored token and the lock is free. -/
def save (files : FileTree) (s : Directory D) (now : Instant) (fresh : Token) (lockFree : Bool)
    (id : String) (document : D) (expected : Option Token) :
    Except StoreError (Versioned D) × FileTree × Directory D :=
  match validateId id with
  | .error e => (.error e, files, s)
  | .ok () =>
    match files.touch (s.place lockName) with
    | .error e => (ioError e, files, s)
    | .ok (_, files) =>
      if lockFree then
        match saveLocked files s now fresh id document expected with
        | .ok (c, files, s) => (.ok c, files, s)
        | .error e => (.error e, files, s)
      else (.error (.throttled id (some retryAfter)), files, s)

end Directory
end ServiceCatalog
