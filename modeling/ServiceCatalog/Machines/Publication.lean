import ServiceCatalog.Service.Rules
import ServiceCatalog.Workflow.Machine
/-!
The publication machine: whether the released data of a service is live. A release brings new data
and leaves the live status as it is.
-/
namespace ServiceCatalog.Publication

inductive State where
  | unpublished
  | published
  deriving DecidableEq, Repr

instance : Named State where
  all := [.unpublished, .published]
  name
    | .unpublished => "unpublished"
    | .published => "published"
  identifier
    | .unpublished => "Unpublished"
    | .published => "Published"

inductive Kind where
  | release
  | publish
  | unpublish
  deriving DecidableEq, Repr

instance : Named Kind where
  all := [.release, .publish, .unpublish]
  name
    | .release => "release"
    | .publish => "publish"
    | .unpublish => "unpublish"
  identifier
    | .release => "Release"
    | .publish => "Publish"
    | .unpublish => "Unpublish"

inductive Action where
  | release (service : Service)
  | publish
  | unpublish
  deriving DecidableEq, Repr

def Action.kind : Action → Kind
  | .release _ => .release
  | .publish => .publish
  | .unpublish => .unpublish

def kindNames : List (String × Kind) :=
  [("release", .release), ("publish", .publish), ("unpublish", .unpublish)]

def kindNamed (s : String) : Option Kind := (kindNames.find? (·.1 == s)).map (·.2)

def withPayload (k : Kind) (j : Json) : Decoded Action :=
  match k with
  | .release => (Service.ofJson false j).map .release
  | .publish => .ok .publish
  | .unpublish => .ok .unpublish

/-- The released service under its own id; review notes stay with the editorial record. -/
def released (id : String) : Action → Except Rejected Service
  | .release service =>
    if service.id ≠ id then
      .error ⟨s!"released service {service.id} does not match publication {id}"⟩
    else do
      service.data.validate
      return { service with review := none }
  | other => .error ⟨"unexpected payload " ++ identifier other.kind⟩

def releasedAgain (current : Service) (a : Action) : Except Rejected Service :=
  released current.id a

def keep (current : Service) (_ : Action) : Except Rejected Service := .ok current

def declarations : List (Declaration State Kind Action Service) :=
  [ .creation .release .unpublished released,
    .moves [.unpublished] .release .unpublished releasedAgain,
    .moves [.published] .release .published releasedAgain,
    .moves [.unpublished] .publish .published keep,
    .moves [.published] .unpublish .unpublished keep ]

def machineName : String := "publication"

def table : Table State Kind Action Service := ⟨machineName, Table.expand declarations⟩

theorem build_declarations : Table.build machineName declarations = .ok table := by
  rfl

def machine : Machine State Kind Action where
  table := table
  kindOf := Action.kind
  kindNamed := kindNamed
  withPayload := withPayload
  answersWithRecord k := k == .release

end ServiceCatalog.Publication
