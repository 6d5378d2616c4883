import ServiceCatalog.Machines.Lifecycle
import ServiceCatalog.Machines.Publication
import ServiceCatalog.Watch.WorkItem
/-!
Watchers. Each decides from the state of a commit alone what is to be done about it; there is one
decision for every state.
-/
namespace ServiceCatalog

inductive Rule where
  | requestReview
  | requestDetail (kind : DetailKind)
  | requestHistory
  | noAction
  deriving DecidableEq, Repr

def Rule.apply {S : Type} [Named S] (r : Rule) (changed : Versioned (Item S)) : WorkItem :=
  match r with
  | .requestReview => .ofReview changed
  | .requestDetail kind => .ofDetail kind changed
  | .requestHistory => .ofHistory changed
  | .noAction => .noAction

structure Watcher (S : Type) where
  title : String
  ruleFor : S → Rule

namespace Watcher

variable {S : Type} [Named S]

def handle (w : Watcher S) (changed : Versioned (Item S)) : WorkItem :=
  (w.ruleFor changed.document.state).apply changed

/-- A record in JSON; one that does not decode calls for no action. -/
def handleJson (w : Watcher S) (record : Json) : WorkItem :=
  match Versioned.ofJson record with
  | .ok changed => w.handle changed
  | .error _ => .noAction

/-- Editorial follow-up: drafts are shown, submissions are reviewed. -/
def editorial : Watcher Lifecycle.State where
  title := "lifecycle"
  ruleFor
    | .draft => .requestDetail .lifecycle
    | .submitted => .requestReview
    | .approved => .noAction
    | .rejected => .noAction
    | .deleted => .noAction

/-- Keeps the public record in step with what is live. -/
def publicDetail : Watcher Publication.State where
  title := "publication_detail"
  ruleFor
    | .published => .requestDetail .publication
    | .unpublished => .noAction

/-- Every publication commit goes into the history. -/
def archive : Watcher Publication.State where
  title := "historicization"
  ruleFor
    | .published => .requestHistory
    | .unpublished => .requestHistory

end Watcher

/-- The two machines by name. -/
inductive MachineName where
  | lifecycle
  | publication
  deriving DecidableEq, Repr

namespace MachineName

def text : MachineName → String
  | .lifecycle => "lifecycle"
  | .publication => "publication"

def ofText? : String → Option MachineName
  | "lifecycle" => some .lifecycle
  | "publication" => some .publication
  | _ => none

def unknownMessage (s : String) : String :=
  "unknown machine " ++ Text.quoted s ++ ", expected lifecycle or publication"

/-- The states that a machine knows. -/
abbrev State : MachineName → Type
  | .lifecycle => Lifecycle.State
  | .publication => Publication.State

instance : (m : MachineName) → Named m.State
  | .lifecycle => inferInstanceAs (Named Lifecycle.State)
  | .publication => inferInstanceAs (Named Publication.State)

end MachineName

/-- What each watcher of a machine makes of a record in JSON. -/
def replay (machine : MachineName) (record : Json) : List (String × WorkItem) :=
  match machine with
  | .lifecycle => [(Watcher.editorial.title, Watcher.editorial.handleJson record)]
  | .publication =>
    [Watcher.publicDetail, Watcher.archive].map fun w => (w.title, w.handleJson record)

end ServiceCatalog
