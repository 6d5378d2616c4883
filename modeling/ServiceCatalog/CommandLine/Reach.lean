import ServiceCatalog.CommandLine.Run
/-!
The paths that a run looks at. A tree of files that agrees with the real one on these gives the same
result, so no more of it is ever needed.
-/
namespace ServiceCatalog.CommandLine

/-- What is read before the settings are known. -/
def settingsPaths (settingsFile : Option String) : List String :=
  let path := settingsFile.getD Settings.defaultFile
  variablesFile :: path :: (Settings.candidates (.ofText path)).map (·.2.text)

def storePaths (s : StoreSettings) (id : String) (machine : String) : List String :=
  let directory := Path.join s.directory machine
  directory :: (if isValidId id then
    [Directory.lockName, Directory.recordName id, Directory.draftName id].map (Path.join directory)
    else [])

def bothStores (s : Settings) (id : String) : List String :=
  match s.store.storage with
  | .memory => []
  | .filesystem => [Lifecycle.machineName, Publication.machineName].flatMap (storePaths s.store id)

def commandPaths (s : Settings) : Command → List String
  | .apply _ _ id _ file => file.toList ++ s.sink.path :: bothStores s id
  | .lookUp _ id => bothStores s id
  | .topics => bothStores s ""
  | .replay _ file => [file]
  | .initConfig path _ => [path]

/-- The lock file of the store that a command writes to. -/
def lockPath? (s : Settings) : Command → Option String
  | .apply machine _ _ _ _ =>
    match s.store.storage with
    | .memory => none
    | .filesystem =>
      some (Path.join (Path.join s.store.directory machine.text) Directory.lockName)
  | _ => none

end ServiceCatalog.CommandLine
