import ServiceCatalog.App.Setup
import ServiceCatalog.CommandLine.Arguments
import ServiceCatalog.CommandLine.LogFilter
import ServiceCatalog.CommandLine.Payload
import ServiceCatalog.Settings.EnvFile
import ServiceCatalog.Settings.Printer
/-!
Runs one command on a tree of files. The order is fixed: variables from the file `.env`, settings, log
filter, and then the command itself. Commands that only read never open the log of work items.
-/
namespace ServiceCatalog.CommandLine

inductive Failure where
  | variables
  | settings (cause : LoadFailure)
  | logFilter
  | payload (cause : PayloadError)
  | setup (cause : SetupError)
  | readingRecord (path : String)
  | parsingRecord (path : String)
  | fileExists (path : String)
  | writing
  | status (code : Nat)
  deriving DecidableEq, Repr

/-- None where the wording is not ours. -/
def Failure.message? : Failure → Option String
  | .variables | .settings .unusable | .logFilter | .writing | .setup .timeToLive => none
  | .settings (.notPositive p) => some p.message
  | .payload e => some e.message
  | .setup (.sink path) => some s!"opening work item sink {path}"
  | .setup (.store path) => some s!"opening store at {path}"
  | .readingRecord path => some s!"reading record {path}"
  | .parsingRecord path => some s!"parsing record {path}"
  | .fileExists path => some s!"{path} already exists, use --force to overwrite it"
  | .status code => some s!"request failed with status {code}"

/-- What a command leaves behind: its output, its notes, and how it ended. -/
structure Result where
  output : String := ""
  notes : List String := []
  failure : Option Failure := none
  files : FileTree

/-- What the world outside a command is. -/
structure Surroundings where
  files : FileTree
  environment : Environment
  now : Instant
  mint : Nat → Token

def variablesFile : String := ".env"

/-- Adds the variables of the file, if there is one. -/
def loadVariables (files : FileTree) (env : Environment) : Except Failure Environment :=
  if files.has (.ofText variablesFile) then
    match files.readText? (.ofText variablesFile) with
    | none => .error .variables
    | some text =>
      match EnvFile.load text env with
      | some env => .ok env
      | none => .error .variables
  else .ok env

def filterVariable : String := "RUST_LOG"

/-- The filter of the environment when it is valid, otherwise the one of the settings. -/
def checkLogFilter (env : Environment) (level : String) : Except Failure Unit :=
  let valid := match env.get? filterVariable with
    | some filter => LogFilter.isValid filter || LogFilter.isValid level
    | none => LogFilter.isValid level
  if valid then .ok () else .error .logFilter

/-- Everything that comes before the command. -/
def prepare (s : Surroundings) (settingsFile : Option String) : Except Failure Settings := do
  let env ← loadVariables s.files s.environment
  let settings ← (Settings.load s.files env settingsFile).mapError .settings
  checkLogFilter env settings.log.level
  return settings

def noteOf (id : String) : Outcome → Option String
  | .delivered item => some s!"📬 {item.kind} queued for {id}"
  | .failed item => some s!"⚠️  {item.kind} could not be queued for {id}"
  | .skipped => none

/-- The body as the output, and a failure unless the status is a success. -/
def report (r : Response) : String × Option Failure :=
  ((r.body.map fun j => j.sorted.toPrettyText ++ "\n").getD "",
    if r.isSuccess then none else some (.status r.status))

def apply (s : Surroundings) (settings : Settings) (machine : MachineName) (action id : String)
    (payload : Json) : Result :=
  match ItemLog.openAt s.files settings.sink.path with
  | .error _ => { failure := some (.setup (.sink settings.sink.path)), files := s.files }
  | .ok files =>
    match World.openAll settings s.now s.mint (.log settings.sink.path) files with
    | (.error e, files) => { failure := some (.setup e), files }
    | (.ok world, _) =>
      let (subscription, world) := world.subscribe
      let (r, world) :=
        (World.controller settings.timeouts).dispatch machine action id payload world
      let (outcomes, world) := World.drain subscription world
      let (output, failure) := report r
      { output, notes := outcomes.filterMap (noteOf id), failure, files := world.files }

/-- Runs a request that only reads. -/
def query (s : Surroundings) (settings : Settings)
    (request : Controller World → StateM World Response) : Result :=
  match World.openAll settings s.now s.mint (.memory {}) s.files with
  | (.error e, files) => { failure := some (.setup e), files }
  | (.ok world, _) =>
    let (r, world) := request (World.controller settings.timeouts) world
    let (output, failure) := report r
    { output, failure, files := world.files }

def replayLine (r : String × WorkItem) : String :=
  (Json.obj [("watcher", .str r.1), ("work_item", r.2.toJson)]).sorted.toText ++ "\n"

def replayFile (s : Surroundings) (machine : MachineName) (path : String) : Result :=
  match s.files.readText? (.ofText path) with
  | none => { failure := some (.readingRecord path), files := s.files }
  | some text =>
    match Json.document? text with
    | none => { failure := some (.parsingRecord path), files := s.files }
    | some j => { output := String.join ((replay machine j).map replayLine), files := s.files }

/-- Why settings are not saved. -/
inductive SaveFailure where
  /-- A number is too large for a document. -/
  | noForm
  | file (e : FileError)
  deriving DecidableEq, Repr

/-- Writes settings to a file, once their text is made. -/
def writeSettings (files : FileTree) (settings : Settings) (path : String) :
    Except SaveFailure Unit × FileTree :=
  match settings.toText? with
  | none => (.error .noForm, files)
  | some text =>
    match files.write (.ofText path) text with
    | .ok files => (.ok (), files)
    | .error e => (.error (.file e), files)

/-- The files after settings were saved. -/
def saveSettings (files : FileTree) (settings : Settings) (path : String) : Option FileTree :=
  match writeSettings files settings path with
  | (.ok (), files) => some files
  | (.error _, _) => none

def initConfig (s : Surroundings) (path : String) (force : Bool) : Result :=
  if s.files.has (.ofText path) && !force then
    { failure := some (.fileExists path), files := s.files }
  else match writeSettings s.files {} path with
    | (.ok (), files) => { output := s!"✅ Wrote default configuration to {path}\n", files }
    | (.error _, files) => { failure := some .writing, files }

def runCommand (s : Surroundings) (settings : Settings) : Command → Result
  | .apply machine action id payload file =>
    match readPayload s.files payload file with
    | .error e => { failure := some (.payload e), files := s.files }
    | .ok payload => apply s settings machine action id payload
  | .lookUp machine id => query s settings fun c => c.lookUp machine id
  | .topics => query s settings fun c => c.listTopics
  | .replay machine file => replayFile s machine file
  | .initConfig path force => initConfig s path force

def run (s : Surroundings) (i : Invocation) : Result :=
  match prepare s i.settingsFile with
  | .error e => { failure := some e, files := s.files }
  | .ok settings => runCommand s settings i.command

end ServiceCatalog.CommandLine
