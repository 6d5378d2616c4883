import ServiceCatalog.App.Topic
import ServiceCatalog.Watch.Watcher
/-!
Requests and their responses. A request names a machine, an action, a service and a payload; the
response is a status with an optional body. A service that names a topic is admitted only when the
topic is in the list.
-/
namespace ServiceCatalog

structure Response where
  status : Nat
  body : Option Json

namespace Response

def ok (body : Json) : Response := ⟨200, some body⟩

def noContent : Response := ⟨204, none⟩

def isSuccess (r : Response) : Bool := 200 ≤ r.status && r.status < 300

/-- A failure that says nothing on trying again. -/
def failure (status : Nat) (kind message : String) : Response :=
  ⟨status, some (.obj [("error", .str kind), ("message", .str message)])⟩

def ofApplyError (e : ApplyError) : Response :=
  ⟨e.status, some (.obj [("error", .str e.kind), ("message", .str e.message),
    ("retryable", .bool e.isRetryable)])⟩

def ofRequestError (e : RequestError) : Response := failure 400 "bad_request" e.message

def ofLoadError (e : LoadError) : Response := failure 500 "internal" e.message

def ofRecord {D : Type} [Document D] (r : Versioned D) : Response := ok r.toJson.sorted

end Response

structure Controller (σ : Type) where
  lifecycle : Backend σ (Item Lifecycle.State)
  publication : Backend σ (Item Publication.State)
  topics : StateM σ (Except LoadError (List Topic))
  limits : Timeouts := {}

namespace Controller

variable {σ S K A : Type}

/-- The topic that an action files its service under. -/
def topicOf : Lifecycle.Action → Option Nat
  | .create data | .edit data => data.metadata.topicId
  | _ => none

/-- The refusal of an action whose topic is not in the list, or while there is no list. -/
def refusalOf (kind : Lifecycle.Kind) (topic : Nat) :
    Except LoadError (List Topic) → Option Response
  | .error e => some (.ofLoadError e)
  | .ok topics =>
    if topics.any fun t => t.id == topic then none
    else some (.ofApplyError (.invalidPayload (name kind) s!"unknown topic {topic}"))

/-- The refusal of an action that names an unknown topic. -/
def checkTopic (c : Controller σ) (a : Lifecycle.Action) : StateM σ (Option Response) := do
  match topicOf a with
  | none => return none
  | some topic => return refusalOf a.kind topic (← c.topics)

variable [DecidableEq S] [DecidableEq K] [Named S] [Named K]

/-- Applies an action and answers for it. -/
def applyTo (c : Controller σ) (m : Machine S K A) (store : Backend σ (Item S)) (id : String)
    (a : A) : StateM σ Response := do
  match ← m.apply c.limits store id a with
  | .ok r => return if m.answersWithRecord (m.kindOf a) then .ofRecord r else .noContent
  | .error e => return .ofApplyError e

def showFrom (c : Controller σ) (machine : String) (store : Backend σ (Item S)) (id : String) :
    StateM σ Response := do
  match ← Machine.get c.limits store id with
  | .ok (some r) => return .ofRecord r
  | .ok none => return .ofApplyError (.notFound machine id)
  | .error e => return .ofApplyError e

omit [DecidableEq S] [DecidableEq K] [Named S] [Named K]

def dispatch (c : Controller σ) (machine : MachineName) (action id : String) (payload : Json) :
    StateM σ Response := do
  match machine with
  | .lifecycle =>
    match Lifecycle.machine.parse action payload with
    | .error e => return .ofRequestError e
    | .ok a =>
      match ← c.checkTopic a with
      | some refusal => return refusal
      | none => c.applyTo Lifecycle.machine c.lifecycle id a
  | .publication =>
    match Publication.machine.parse action payload with
    | .error e => return .ofRequestError e
    | .ok a => c.applyTo Publication.machine c.publication id a

/-- The current record. -/
def lookUp (c : Controller σ) (machine : MachineName) (id : String) : StateM σ Response :=
  match machine with
  | .lifecycle => c.showFrom Lifecycle.machineName c.lifecycle id
  | .publication => c.showFrom Publication.machineName c.publication id

def listTopics (c : Controller σ) : StateM σ Response := do
  match ← c.topics with
  | .ok topics => return .ok (.arr (topics.map Topic.toJson))
  | .error e => return .ofLoadError e

end Controller
end ServiceCatalog
