import ServiceCatalog.Files.Tree
import ServiceCatalog.Json.Printer
import ServiceCatalog.Watch.WorkItem
/-!
The log of work items: a text file to which each published item adds one line of compact JSON. Lines
written before are never touched.
-/
namespace ServiceCatalog.ItemLog

def line (w : WorkItem) : String := w.toJson.toText ++ "\n"

/-- Creates the file and the directories it stands in, unless they are there. -/
def openAt (files : FileTree) (path : String) : Except FileError FileTree := do
  let p := Path.ofText path
  let files ← if p.parent.names.isEmpty then pure files else files.makeDirectories p.parent
  return (← files.touch p).2

def publish (files : FileTree) (path : String) (w : WorkItem) : Except FileError FileTree :=
  files.append (.ofText path) (line w)

def publishAll (path : String) : List WorkItem → FileTree → Except FileError FileTree
  | [], files => .ok files
  | w :: rest, files => do publishAll path rest (← publish files path w)

/-- Opens the log once for each batch and publishes its items. -/
def publishBatches (path : String) : List (List WorkItem) → FileTree → Except FileError FileTree
  | [], files => .ok files
  | batch :: rest, files => do
    publishBatches path rest (← publishAll path batch (← openAt files path))

end ServiceCatalog.ItemLog
