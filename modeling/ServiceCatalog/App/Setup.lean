import ServiceCatalog.App.World
import ServiceCatalog.Settings.Basic
/-! Sets the application up from its settings: opens a store for each machine. -/
namespace ServiceCatalog

inductive SetupError where
  | sink (path : String)
  | store (path : String)
  /-- A time to live that no span can hold. -/
  | timeToLive
  deriving DecidableEq, Repr

namespace World

/-- The store of a machine below the configured directory. -/
def openShelf {D : Type} (s : StoreSettings) (machine : String) (files : FileTree) :
    Except SetupError (Shelf D × FileTree) :=
  match s.storage with
  | .memory => .ok (.memory {}, files)
  | .filesystem =>
    let path := Path.join s.directory machine
    match Directory.create files path with
    | .ok (d, files) => .ok (.directory d, files)
    | .error _ => .error (.store path)

/-- What the directory tree becomes on the way counts even when setting up fails. -/
def openAll (s : Settings) (now : Instant) (mint : Nat → Token) (sink : SinkState)
    (files : FileTree) : Except SetupError World × FileTree :=
  match openShelf s.store Lifecycle.machineName files with
  | .error e => (.error e, files)
  | .ok (lifecycle, files) =>
    match openShelf s.store Publication.machineName files with
    | .error e => (.error e, files)
    | .ok (publication, files) =>
      match s.topicsTtl? with
      | none => (.error .timeToLive, files)
      | some ttl =>
        (.ok { now, mint, files, lifecycle, publication, topicList := s.topics.list,
               topicCache := ⟨ttl, none⟩, sink }, files)

end World
end ServiceCatalog
