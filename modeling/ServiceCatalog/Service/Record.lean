import ServiceCatalog.Service.Data
import ServiceCatalog.Time.Printer
/-! A service under its id, with the outcome of its last review. -/
namespace ServiceCatalog

inductive Review where
  | approved (date : Option Instant)
  | rejected (reason : String)
  deriving DecidableEq, Repr

structure Service where
  id : String
  data : ServiceData
  /-- Cleared by an edit. -/
  review : Option Review := none
  deriving DecidableEq, Repr

namespace Review

inductive Outcome where
  | approved
  | rejected
  deriving DecidableEq, Repr

def outcomes : List (String × Outcome) := [("approved", .approved), ("rejected", .rejected)]

def toJson : Review → Json
  | .approved date =>
    .objSome [("outcome", some (.str "approved")), ("approval_date", date.map (.str ·.text))]
  | .rejected reason => .obj [("outcome", .str "rejected"), ("reason", .str reason)]

def approvedFields : Decode.Fields Review :=
  Review.approved <$> .optional "approval_date" Decode.instant

def rejectedFields : Decode.Fields Review :=
  Review.rejected <$> .required "reason" Decode.string

def ofJson (held : Bool) (j : Json) : Decoded Review := do
  let (outcome, rest) ← Decode.tagged held "outcome" "Review" outcomes j
  match outcome with
  | .approved => Decode.record true "struct variant Review::Approved" approvedFields rest
  | .rejected => Decode.record true "struct variant Review::Rejected" rejectedFields rest

end Review

namespace Service

def jsonFields (s : Service) : List (String × Option Json) :=
  [("id", some (.str s.id)), ("data", some s.data.toJson), ("review", s.review.map Review.toJson)]

def toJson (s : Service) : Json := .objSome s.jsonFields

def fields (held : Bool) : Decode.Fields Service :=
  Service.mk <$> .required "id" Decode.string <*> .required "data" (ServiceData.ofJson held)
    <*> .optional "review" (Review.ofJson held)

def ofJson (held : Bool) : Json → Decoded Service :=
  Decode.record held "struct Service" (fields held)

end Service
end ServiceCatalog
