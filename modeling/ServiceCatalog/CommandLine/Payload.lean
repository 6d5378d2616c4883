import ServiceCatalog.Files.Tree
import ServiceCatalog.Json.Reader
/-! The payload of an action: given on the command line or in a file, `null` when there is none. -/
namespace ServiceCatalog.CommandLine

inductive PayloadError where
  | inlineText
  | reading (path : String)
  | fileText (path : String)
  deriving DecidableEq, Repr

def PayloadError.message : PayloadError → String
  | .inlineText => "parsing --payload as JSON"
  | .reading path => s!"reading payload file {path}"
  | .fileText path => s!"parsing payload file {path}"

def readPayload (files : FileTree) (text file : Option String) : Except PayloadError Json :=
  match text, file with
  | some text, _ =>
    match Json.document? text with
    | some j => .ok j
    | none => .error .inlineText
  | none, some path =>
    match files.readText? (.ofText path) with
    | none => .error (.reading path)
    | some text =>
      match Json.document? text with
      | some j => .ok j
      | none => .error (.fileText path)
  | none, none => .ok .null

end ServiceCatalog.CommandLine
