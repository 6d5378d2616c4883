import ServiceCatalog.Store.Backend
import ServiceCatalog.Workflow.Error
import ServiceCatalog.Workflow.Item
/-!
Machines. To apply an action is to read the item, to find the row of the table, to run its effect,
and to save the result under the token that was read. The middle part is `resolve`; it touches no
store, so a lost race shows only in the save, as a conflict.
-/
namespace ServiceCatalog

/-- Why a request is not an action. -/
inductive RequestError where
  | unknownAction (name : String)
  | invalidPayload (action : String) (cause : DecodeError)
  deriving DecidableEq, Repr

def RequestError.message : RequestError → String
  | .unknownAction name => "unknown action " ++ Text.quoted name
  | .invalidPayload action cause => s!"invalid payload for {action}: {cause.message}"

structure Machine (S K A : Type) where
  table : Table S K A Service
  kindOf : A → K
  /-- The kind that a request names. -/
  kindNamed : String → Option K
  /-- The action of a kind with its payload. -/
  withPayload : K → Json → Decoded A
  /-- Whether a success answers with the record. -/
  answersWithRecord : K → Bool

/-- How long a store may take, in milliseconds. -/
structure Timeouts where
  fetch : Nat := 5000
  save : Nat := 5000
  deriving DecidableEq, Repr

/-- A store that does not answer in time is an internal failure. -/
def bounded {α : Type} (operation id : String) (limit : Nat) : Reply α → Except ApplyError α
  | .answer r => r.mapError .ofStore
  | .stalled => .error (.internal s!"{operation} of {id} timed out after {limit}ms")

namespace Machine

variable {S K A : Type}

/-- `null` stands for an empty payload. -/
def payload (j : Json) : Json := if j.isNull then .obj [] else j

/-- The action that a request asks for. -/
def parse [Named K] (m : Machine S K A) (action : String) (j : Json) : Except RequestError A :=
  match m.kindNamed action with
  | none => .error (.unknownAction action)
  | some k => (m.withPayload k (payload j)).mapError (.invalidPayload (name k))

variable [DecidableEq S] [DecidableEq K] [Named S] [Named K]

/-- The row for an action on what was read. -/
def row (m : Machine S K A) (id : String) (current : Option (Versioned (Item S))) (kind : K) :
    Except ApplyError (Transition S K A Service) :=
  match current with
  | some r =>
    match m.table.lookup (some r.document.state) kind with
    | some t => .ok t
    | none => .error (.illegalTransition m.table.machine (name r.document.state) (name kind))
  | none =>
    match m.table.lookup none kind with
    | some t => .ok t
    | none => .error (.notFound m.table.machine id)

/-- The next item, and the token that must still be stored. -/
def resolve (m : Machine S K A) (id : String) (current : Option (Versioned (Item S)))
    (action : A) : Except ApplyError (Item S × Option Token) := do
  let kind := m.kindOf action
  let t ← m.row id current kind
  match t.exec id (current.map (·.document.service)) action with
  | .error rejected => throw (.invalidPayload (name kind) rejected.reason)
  | .ok service => return (⟨service, t.target, some (name kind)⟩, current.map (·.version))

variable {σ : Type}

def get (limits : Timeouts) (store : Backend σ (Item S)) (id : String) :
    StateM σ (Except ApplyError (Option (Versioned (Item S)))) := do
  return bounded "fetch" id limits.fetch (← store.fetch id)

def apply (m : Machine S K A) (limits : Timeouts) (store : Backend σ (Item S)) (id : String)
    (action : A) : StateM σ (Except ApplyError (Versioned (Item S))) := do
  match ← get limits store id with
  | .error e => return .error e
  | .ok current =>
    match m.resolve id current action with
    | .error e => return .error e
    | .ok (next, expected) => return bounded "save" id limits.save (← store.save id next expected)

end Machine
end ServiceCatalog
