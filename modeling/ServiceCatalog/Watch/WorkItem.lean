import ServiceCatalog.Workflow.Item
/-! What is handed to those who follow up a commit, and how it stands in JSON. -/
namespace ServiceCatalog

structure ReviewRequest where
  id : String
  version : Token
  data : ServiceData
  deriving DecidableEq, Repr

inductive DetailKind where
  | lifecycle
  | publication
  deriving DecidableEq, Repr

/-- The public part of a service, to be indexed again. -/
structure DetailRequest where
  id : String
  kind : DetailKind
  name : String
  description : String
  organization : Organization
  metadata : Metadata
  /-- Seconds since 1970 of the commit. -/
  lastUpdate : Int
  deriving DecidableEq, Repr

/-- A publication record as it was at one commit. -/
structure HistoryRequest where
  id : String
  state : String
  version : Token
  lastUpdate : String
  data : ServiceData
  deriving DecidableEq, Repr

inductive WorkItem where
  | review (request : ReviewRequest)
  | lifecycleDetail (request : DetailRequest)
  | publicationDetail (request : DetailRequest)
  | history (request : HistoryRequest)
  | noAction
  deriving DecidableEq, Repr

namespace DetailKind

def text : DetailKind → String
  | .lifecycle => "lifecycle"
  | .publication => "publication"

def names : List (String × DetailKind) :=
  [("lifecycle", .lifecycle), ("publication", .publication)]

end DetailKind

namespace ReviewRequest

def jsonFields (r : ReviewRequest) : List (String × Json) :=
  [("id", .str r.id), ("version", .str r.version.text), ("data", r.data.toJson)]

def fields : Decode.Fields ReviewRequest :=
  ReviewRequest.mk <$> .required "id" Decode.string <*> .required "version" Token.ofJson
    <*> .required "data" (ServiceData.ofJson true)

end ReviewRequest

namespace DetailRequest

def jsonFields (r : DetailRequest) : List (String × Json) :=
  [("id", .str r.id), ("kind", .str r.kind.text), ("name", .str r.name),
    ("description", .str r.description), ("organization", r.organization.toJson),
    ("metadata", r.metadata.toJson), ("cms_last_update_ts", .int r.lastUpdate)]

def fields : Decode.Fields DetailRequest :=
  DetailRequest.mk <$> .required "id" Decode.string
    <*> .required "kind" (Decode.variant true DetailKind.names)
    <*> .required "name" Decode.string <*> .required "description" Decode.string
    <*> .required "organization" (Organization.ofJson true)
    <*> .required "metadata" (Metadata.ofJson true) <*> .required "cms_last_update_ts" Decode.i64

end DetailRequest

namespace HistoryRequest

def jsonFields (r : HistoryRequest) : List (String × Json) :=
  [("id", .str r.id), ("state", .str r.state), ("version", .str r.version.text),
    ("last_update", .str r.lastUpdate), ("data", r.data.toJson)]

def fields : Decode.Fields HistoryRequest :=
  HistoryRequest.mk <$> .required "id" Decode.string <*> .required "state" Decode.string
    <*> .required "version" Token.ofJson <*> .required "last_update" Decode.string
    <*> .required "data" (ServiceData.ofJson true)

end HistoryRequest

namespace WorkItem

inductive Tag where
  | review
  | lifecycleDetail
  | publicationDetail
  | history
  | noAction
  deriving DecidableEq, Repr

def tags : List (String × Tag) :=
  [("request_review", .review), ("request_detail_lifecycle", .lifecycleDetail),
    ("request_detail_publication", .publicationDetail), ("request_historicization", .history),
    ("no_action", .noAction)]

/-- The tag in JSON. -/
def kind : WorkItem → String
  | .review _ => "request_review"
  | .lifecycleDetail _ => "request_detail_lifecycle"
  | .publicationDetail _ => "request_detail_publication"
  | .history _ => "request_historicization"
  | .noAction => "no_action"

def jsonFields : WorkItem → List (String × Json)
  | .review r => r.jsonFields
  | .lifecycleDetail r => r.jsonFields
  | .publicationDetail r => r.jsonFields
  | .history r => r.jsonFields
  | .noAction => []

def toJson (w : WorkItem) : Json := .obj (("type", .str w.kind) :: w.jsonFields)

/-- A variant without fields takes any object, but only an empty array. -/
def ignored : Json → Decoded WorkItem
  | .arr [] => .ok .noAction
  | .arr js => .error (.tooLongHeld js.length 0)
  | _ => .ok .noAction

def ofJson (j : Json) : Decoded WorkItem := do
  let (tag, rest) ← Decode.tagged false "type" "WorkItem" tags j
  match tag with
  | .review =>
    return .review (← Decode.record true "struct ReviewRequest" ReviewRequest.fields rest)
  | .lifecycleDetail =>
    return .lifecycleDetail (← Decode.record true "struct DetailRequest" DetailRequest.fields rest)
  | .publicationDetail =>
    return .publicationDetail (← Decode.record true "struct DetailRequest" DetailRequest.fields rest)
  | .history =>
    return .history (← Decode.record true "struct HistoricizationRequest" HistoryRequest.fields rest)
  | .noAction => ignored rest

def isActionable : WorkItem → Bool
  | .noAction => false
  | _ => true

def subjectId : WorkItem → Option String
  | .review r => some r.id
  | .lifecycleDetail r | .publicationDetail r => some r.id
  | .history r => some r.id
  | .noAction => none

variable {S : Type}

def ofReview (changed : Versioned (Item S)) : WorkItem :=
  .review ⟨changed.id, changed.version, changed.document.service.data⟩

def ofDetail (kind : DetailKind) (changed : Versioned (Item S)) : WorkItem :=
  let data := changed.document.service.data
  let request : DetailRequest :=
    ⟨changed.id, kind, data.name, data.description, data.organization, data.metadata,
      changed.modifiedAt.seconds⟩
  match kind with
  | .lifecycle => .lifecycleDetail request
  | .publication => .publicationDetail request

def ofHistory [Named S] (changed : Versioned (Item S)) : WorkItem :=
  .history ⟨changed.id, name changed.document.state, changed.version,
    changed.modifiedAt.offsetText, changed.document.service.data⟩

end WorkItem
end ServiceCatalog
