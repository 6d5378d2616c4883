import ServiceCatalog.Settings.Basic
import ServiceCatalog.Toml.Printer
/-!
Writes the settings as a document of tables: one line for each setting, a table for each section and
one for each topic. A number has a form only below 63 bits.
-/
namespace ServiceCatalog

/-- A value in a document. -/
inductive Written where
  | text (s : String)
  | number (n : Nat)
  | flag (b : Bool)
  | emptyList
  deriving DecidableEq, Repr

/-- A table with its header, that of a list's next table when `item` is set. -/
structure WrittenTable where
  item : Bool := false
  name : String
  entries : List (String × Written)
  deriving DecidableEq, Repr

namespace Written

def chars : Written → List Char
  | .text s => Toml.printText s
  | .number n => Nat.toDigits 10 n
  | .flag b => Json.printBool b
  | .emptyList => ['[', ']']

def hasForm : Written → Bool
  | .number n => n ≤ Settings.maxSigned
  | _ => true

end Written

namespace WrittenTable

def header (t : WrittenTable) : List Char :=
  if t.item then '[' :: '[' :: t.name.toList ++ [']', ']', '\n']
  else '[' :: t.name.toList ++ [']', '\n']

def line (e : String × Written) : List Char := e.1.toList ++ ' ' :: '=' :: ' ' :: e.2.chars ++ ['\n']

def chars (t : WrittenTable) : List Char := t.header ++ t.entries.flatMap line

end WrittenTable

namespace Settings

def topicTable (t : Topic) : WrittenTable :=
  { item := true, name := "topics.list", entries := [("id", .number t.id), ("name", .text t.name)] }

def topicsEntries (t : TopicSettings) : List (String × Written) :=
  ("ttl_seconds", .number t.ttlSeconds) :: if t.list.isEmpty then [("list", .emptyList)] else []

def tables (s : Settings) : List WrittenTable :=
  [ { name := "store", entries := [("backend", .text s.store.storage.text),
        ("directory", .text s.store.directory), ("fetch_timeout_ms", .number s.store.fetchTimeout),
        ("save_timeout_ms", .number s.store.saveTimeout)] },
    { name := "sink", entries := [("path", .text s.sink.path),
        ("publish_timeout_ms", .number s.sink.publishTimeout)] },
    { name := "topics", entries := topicsEntries s.topics } ] ++
  s.topics.list.map topicTable ++
  [ { name := "observability", entries := [("log_level", .text s.log.level),
        ("json", .flag s.log.json)] } ]

/-- Tables with an empty line between them. -/
def printTables : List WrittenTable → List Char
  | [] => []
  | [t] => t.chars
  | t :: u :: rest => t.chars ++ '\n' :: printTables (u :: rest)

/-- None when a number is too large for a document. -/
def toText? (s : Settings) : Option String :=
  if s.tables.all fun t => t.entries.all fun e => e.2.hasForm then
    some (String.ofList (printTables s.tables))
  else none

end Settings
end ServiceCatalog
