import ServiceCatalog.Settings.Load
import ServiceCatalog.Watch.Watcher
/-!
The command line. Options may stand anywhere after their command, the settings file also before it;
each at most once on its side of the command. An option's value is the next argument, which may not
look like an option, or stands behind an equals sign. After `--` nothing is an option.
-/
namespace ServiceCatalog.CommandLine

inductive Command where
  | apply (machine : MachineName) (action id : String) (payload payloadFile : Option String)
  | lookUp (machine : MachineName) (id : String)
  | topics
  | replay (machine : MachineName) (file : String)
  | initConfig (path : String) (force : Bool)
  deriving DecidableEq, Repr

structure Invocation where
  settingsFile : Option String := none
  command : Command
  deriving DecidableEq, Repr

/-- Options with a value, those with a path, and switches. -/
inductive OptionKind where
  | text
  | path
  | switch
  deriving DecidableEq, Repr

abbrev Options := List (String × OptionKind)

/-- The arguments of a command, sorted out. -/
structure Parts where
  operands : List String := []
  values : List (String × String) := []
  deriving DecidableEq, Repr

def Parts.value? (p : Parts) (option : String) : Option String :=
  (p.values.find? (·.1 == option)).map (·.2)

def Parts.addOperand (p : Parts) (s : String) : Parts := { p with operands := p.operands ++ [s] }

/-- A value may be given once, and a path may not be empty. -/
def Parts.addValue (p : Parts) (option : String) (kind : OptionKind) (v : String) : Option Parts :=
  if (p.value? option).isSome || (kind == .path && v.isEmpty) then none
  else some { p with values := p.values ++ [(option, v)] }

/-- An argument that is taken for an option. -/
def looksLikeOption (s : String) : Bool :=
  match s.toList with
  | '-' :: _ :: _ => true
  | _ => false

/-- The name of a long option, and what stands behind its equals sign. -/
def splitOption (s : String) : Option (String × Option String) :=
  match s.toList with
  | '-' :: '-' :: rest =>
    let name := String.ofList (rest.takeWhile (· != '='))
    match rest.dropWhile (· != '=') with
    | _ :: v => some (name, some (String.ofList v))
    | [] => some (name, none)
  | _ => none

/-- Sorts out arguments; `many` tells how many operands there may be. -/
def sortOut (options : Options) (many : Nat) : List String → Parts → Option Parts
  | [], p => some p
  | "--" :: rest, p =>
    if p.operands.length + rest.length ≤ many then some { p with operands := p.operands ++ rest }
    else none
  | s :: rest, p =>
    if looksLikeOption s then
      match splitOption s with
      | none => none
      | some (name, given) =>
        match options.find? (·.1 == name), given, rest with
        | none, _, _ => none
        | some (_, .switch), none, rest => do
          sortOut options many rest (← p.addValue name .switch "")
        | some (_, .switch), some _, _ => none
        | some (_, kind), some v, rest => do sortOut options many rest (← p.addValue name kind v)
        | some (_, kind), none, v :: rest =>
          if looksLikeOption v then none
          else do sortOut options many rest (← p.addValue name kind v)
        | some _, none, [] => none
    else if p.operands.length < many then sortOut options many rest (p.addOperand s)
    else none

def settingsOption : Options := [("config", .path)]

/-- The command's name: the first argument that is no option or an option's value. Before it only the
settings file can be named. -/
def splitCommand : List String → Option String → Option (Option String × String × List String)
  | [], _ => none
  | s :: rest, file =>
    if looksLikeOption s then
      match splitOption s, file, rest with
      | some ("config", some v), none, rest => if v.isEmpty then none else splitCommand rest (some v)
      | some ("config", none), none, v :: rest =>
        if looksLikeOption v || v.isEmpty then none else splitCommand rest (some v)
      | _, _, _ => none
    else some (file, s, rest)

def applyOptions : Options := settingsOption ++ [("payload", .text), ("payload-file", .path)]

def initOptions : Options := settingsOption ++ [("path", .path), ("force", .switch)]

def commandOf (name : String) (args : List String) : Option (Parts × Command) := do
  match name with
  | "apply" =>
    let p ← sortOut applyOptions 3 args {}
    match p.operands with
    | [machine, action, id] => do
      let payload := p.value? "payload"
      let file := p.value? "payload-file"
      if payload.isSome && file.isSome then none
      else return (p, .apply (← MachineName.ofText? machine) action id payload file)
    | _ => none
  | "show" =>
    let p ← sortOut settingsOption 2 args {}
    match p.operands with
    | [machine, id] => return (p, .lookUp (← MachineName.ofText? machine) id)
    | _ => none
  | "topics" =>
    let p ← sortOut settingsOption 0 args {}
    return (p, .topics)
  | "replay" =>
    let p ← sortOut settingsOption 2 args {}
    match p.operands with
    | [machine, file] =>
      if file.isEmpty then none else return (p, .replay (← MachineName.ofText? machine) file)
    | _ => none
  | "init-config" =>
    let p ← sortOut initOptions 0 args {}
    return (p, .initConfig ((p.value? "path").getD Settings.defaultFile) (p.value? "force").isSome)
  | _ => none

/-- None when the arguments are not a command. The settings file named behind the command counts. -/
def parse (args : List String) : Option Invocation := do
  let (outer, name, rest) ← splitCommand args none
  let (p, command) ← commandOf name rest
  return { settingsFile := (p.value? "config").orElse fun _ => outer, command }

end ServiceCatalog.CommandLine
