import ServiceCatalog.Files.Tree
import ServiceCatalog.Ini.Reader
import ServiceCatalog.Json5.Reader
import ServiceCatalog.Ron.Reader
import ServiceCatalog.Settings.Environment
import ServiceCatalog.Settings.Reader
import ServiceCatalog.Toml.Reader
import ServiceCatalog.Yaml.Reader
/-!
Loads the settings: the defaults, then a file, then the environment, setting by setting. The file is
the one that is named, or the default one when it is there.
-/
namespace ServiceCatalog

inductive LoadFailure where
  /-- A source that is missing, malformed or holds a value of the wrong kind. -/
  | unusable
  | notPositive (setting : PositiveSetting)
  deriving DecidableEq, Repr

namespace Setting

mutual
/-- Integers beyond 63 bits become fractions. -/
def ofJson : Json → Setting
  | .null => .nothing
  | .bool b => .flag b
  | .num (.nat n) => if n < 1 <<< 63 then .whole n else .fraction (.ofRatio false n 1)
  | .num (.neg n) => .whole (-(n : Int))
  | .num (.float x) => .fraction x
  | .str s => .text s
  | .arr js => .list (ofJsonItems js)
  | .obj fields => .table (ofJsonFields fields)
def ofJsonItems : List Json → List Setting
  | [] => []
  | j :: rest => ofJson j :: ofJsonItems rest
def ofJsonFields : List (String × Json) → List (String × Setting)
  | [] => []
  | (k, j) :: rest => (k, ofJson j) :: ofJsonFields rest
end

end Setting

/-- The form of a settings file, by the end of its name. -/
inductive FileForm where
  | toml
  | json
  | yaml
  | ini
  | ron
  | json5
  deriving DecidableEq, Repr

namespace FileForm

def all : List FileForm := [.toml, .json, .yaml, .ini, .ron, .json5]

def endings : FileForm → List String
  | .toml => ["toml"]
  | .json => ["json"]
  | .yaml => ["yaml", "yml"]
  | .ini => ["ini"]
  | .ron => ["ron"]
  | .json5 => ["json5"]

/-- What follows the last point of a name, unless the name starts with it. -/
def endingOf (name : String) : Option String :=
  let cs := name.toList
  let tail := (cs.reverse.takeWhile (· != '.')).reverse
  if cs.length ≤ tail.length + 1 then none else some (String.ofList tail)

def ofName (name : String) : Option FileForm :=
  (endingOf name).bind fun e => all.find? fun f => f.endings.contains e

/-- The value of a file as a whole. -/
def read (form : FileForm) (text : String) : Option Setting :=
  match form with
  | .toml => (Toml.ofText? text).map .table
  | .json => (Json.document? text).map Setting.ofJson
  | .yaml => Yaml.ofText? text
  | .ini => (Ini.ofText? text).map .table
  | .ron => Ron.ofText? text
  | .json5 => Json5.ofText? text

/-- The entries of a file, which has to be a table. -/
def readEntries (form : FileForm) (text : String) : Option (List (String × Setting)) :=
  match form.read text with
  | some (.table es) => some es
  | _ => none

end FileForm

namespace Settings

def defaultFile : String := "services-cms.toml"

/-- What is no text stands as the replacement character. -/
def fileText? (files : FileTree) (path : Path) : Option String :=
  match files.read path with
  | .ok contents =>
    some (String.ofList (Text.dropMark (contents.markedText [Char.ofNat 0xfffd]).toList))
  | .error _ => none

/-- The files that a name without an ending may mean, in the order of preference. -/
def candidates (path : Path) : List (FileForm × Path) :=
  FileForm.all.flatMap fun f => f.endings.filterMap fun e => (path.addEnding e).map (f, ·)

/-- The text of a settings file and its form; the name of a file may lack its ending. -/
def locate (files : FileTree) (path : String) : Option (FileForm × String) :=
  let path := Path.ofText path
  match fileText? files path with
  | some text => (path.names.getLast?.bind FileForm.ofName).map (·, text)
  | none =>
    (candidates path).findSome? fun (f, path) => (fileText? files path).map (f, ·)

def fileLayer (files : FileTree) (path : String) : Option (List (String × Setting)) := do
  let (form, text) ← locate files path
  form.readEntries text

def sourceLayer (files : FileTree) : Option String → Option (List (String × Setting))
  | some path => fileLayer files path
  | none => if files.has (.ofText defaultFile) then fileLayer files defaultFile else some []

/-- Settings from layers over the defaults. -/
def ofLayers (layers : List (List (String × Setting))) : Except LoadFailure Settings :=
  match ofSetting (layers.foldl Setting.addLayer (.table [])) with
  | none => .error .unusable
  | some s =>
    match s.nonPositive? with
    | some p => .error (.notPositive p)
    | none => .ok s

def load (files : FileTree) (env : Environment) (path : Option String) :
    Except LoadFailure Settings :=
  match sourceLayer files path with
  | none => .error .unusable
  | some layer => ofLayers [layer, env.layer]

end Settings
end ServiceCatalog
