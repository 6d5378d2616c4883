import ServiceCatalog.Store.Record
/-! Why an action was not applied, what the caller is told, and whether trying again may help. -/
namespace ServiceCatalog

inductive ApplyError where
  | notFound (machine id : String)
  | illegalTransition (machine state action : String)
  | invalidPayload (action reason : String)
  | conflict (id : String) (expected actual : Option Token)
  | throttled (id : String) (retryAfter : Option Nat)
  | internal (reason : String)
  deriving DecidableEq, Repr

namespace ApplyError

def message : ApplyError → String
  | .notFound machine id => s!"{machine} item {id} not found"
  | .illegalTransition machine state action =>
    s!"illegal action in current state: {action} is not allowed from {state} in {machine}"
  | .invalidPayload action reason => s!"invalid payload for {action}: {reason}"
  | .conflict id expected actual =>
    s!"conflicting update on {id}: read version {Token.describe expected}, stored version " ++
      Token.describe actual
  | .throttled id _ => s!"store throttled the request for {id}"
  | .internal reason => s!"internal error: {reason}"

def kind : ApplyError → String
  | .notFound _ _ => "not_found"
  | .illegalTransition _ _ _ | .invalidPayload _ _ => "validation"
  | .conflict _ _ _ => "conflict"
  | .throttled _ _ => "throttled"
  | .internal _ => "internal"

def status : ApplyError → Nat
  | .notFound _ _ => 404
  | .illegalTransition _ _ _ | .invalidPayload _ _ => 400
  | .conflict _ _ _ => 409
  | .throttled _ _ => 429
  | .internal _ => 500

/-- A conflict may be tried again only after a fresh read. -/
def isRetryable : ApplyError → Bool
  | .conflict _ _ _ | .throttled _ _ | .internal _ => true
  | _ => false

/-- A failure of the store, as seen by the caller of an action. -/
def ofStore : StoreError → ApplyError
  | .conflict id expected actual => .conflict id expected actual
  | .throttled id retryAfter => .throttled id retryAfter
  | .invalidId id => .invalidPayload "id" ("invalid document id " ++ Text.quoted id)
  | e => .internal e.message

theorem isRetryable_iff (e : ApplyError) :
    e.isRetryable = true ↔ e.status = 409 ∨ e.status = 429 ∨ e.status = 500 := by
  cases e <;> simp [isRetryable, status]

end ApplyError
end ServiceCatalog
