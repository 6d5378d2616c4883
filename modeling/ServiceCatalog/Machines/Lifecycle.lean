import ServiceCatalog.Service.Rules
import ServiceCatalog.Workflow.Machine
/-!
The editorial machine: a draft is submitted and then approved or rejected; drafts and reviewed
services can be edited, which makes them drafts again, and deleted for good.
-/
namespace ServiceCatalog.Lifecycle

inductive State where
  | draft
  | submitted
  | approved
  | rejected
  | deleted
  deriving DecidableEq, Repr

instance : Named State where
  all := [.draft, .submitted, .approved, .rejected, .deleted]
  name
    | .draft => "draft"
    | .submitted => "submitted"
    | .approved => "approved"
    | .rejected => "rejected"
    | .deleted => "deleted"
  identifier
    | .draft => "Draft"
    | .submitted => "Submitted"
    | .approved => "Approved"
    | .rejected => "Rejected"
    | .deleted => "Deleted"

inductive Kind where
  | create
  | edit
  | submit
  | approve
  | reject
  | delete
  deriving DecidableEq, Repr

instance : Named Kind where
  all := [.create, .edit, .submit, .approve, .reject, .delete]
  name
    | .create => "create"
    | .edit => "edit"
    | .submit => "submit"
    | .approve => "approve"
    | .reject => "reject"
    | .delete => "delete"
  identifier
    | .create => "Create"
    | .edit => "Edit"
    | .submit => "Submit"
    | .approve => "Approve"
    | .reject => "Reject"
    | .delete => "Delete"

inductive Action where
  | create (data : ServiceData)
  | edit (data : ServiceData)
  | submit
  | approve (date : Option Instant)
  | reject (reason : String)
  | delete
  deriving DecidableEq, Repr

def Action.kind : Action → Kind
  | .create _ => .create
  | .edit _ => .edit
  | .submit => .submit
  | .approve _ => .approve
  | .reject _ => .reject
  | .delete => .delete

/-- Reviews have a second name for each of their actions. -/
def kindNames : List (String × Kind) :=
  [("create", .create), ("edit", .edit), ("submit", .submit), ("request_review", .submit),
    ("approve", .approve), ("review_approve", .approve), ("reject", .reject),
    ("review_reject", .reject), ("delete", .delete)]

def kindNamed (s : String) : Option Kind := (kindNames.find? (·.1 == s)).map (·.2)

def approveFields : Decode.Fields Action := .approve <$> .optional "approval_date" Decode.instant

def rejectFields : Decode.Fields Action := .reject <$> .required "reason" Decode.string

def withPayload (k : Kind) (j : Json) : Decoded Action :=
  match k with
  | .create => (ServiceData.ofJson false j).map .create
  | .edit => (ServiceData.ofJson false j).map .edit
  | .submit => .ok .submit
  | .approve => Decode.record false "struct ApprovePayload" approveFields j
  | .reject => Decode.record false "struct RejectPayload" rejectFields j
  | .delete => .ok .delete

/-- The payload of another action. -/
def mismatched {α : Type} (a : Action) : Except Rejected α :=
  .error ⟨"unexpected payload " ++ identifier a.kind⟩

def createService (id : String) : Action → Except Rejected Service
  | .create data => do
    data.validate
    return { id, data }
  | other => mismatched other

def editService (current : Service) : Action → Except Rejected Service
  | .edit data => do
    data.validate
    return { id := current.id, data }
  | other => mismatched other

def submitService (current : Service) (_ : Action) : Except Rejected Service := do
  current.data.validate
  return { current with review := none }

def approveService (current : Service) : Action → Except Rejected Service
  | .approve date => return { current with review := some (.approved date) }
  | other => mismatched other

def rejectService (current : Service) : Action → Except Rejected Service
  | .reject reason =>
    if Text.isBlank reason then .error ⟨"a rejection needs a reason"⟩
    else return { current with review := some (.rejected reason) }
  | other => mismatched other

def deleteService (current : Service) (_ : Action) : Except Rejected Service := .ok current

/-- States that wait for nobody's decision. -/
def settled : List State := [.draft, .approved, .rejected]

def declarations : List (Declaration State Kind Action Service) :=
  [ .creation .create .draft createService,
    .moves settled .edit .draft editService,
    .moves [.draft] .submit .submitted submitService,
    .moves [.submitted] .approve .approved approveService,
    .moves [.submitted] .reject .rejected rejectService,
    .moves settled .delete .deleted deleteService ]

def machineName : String := "lifecycle"

def table : Table State Kind Action Service := ⟨machineName, Table.expand declarations⟩

theorem build_declarations : Table.build machineName declarations = .ok table := by
  rfl

def machine : Machine State Kind Action where
  table := table
  kindOf := Action.kind
  kindNamed := kindNamed
  withPayload := withPayload
  answersWithRecord k := k == .create || k == .edit

end ServiceCatalog.Lifecycle
