import ServiceCatalog.Service.Record
import ServiceCatalog.Store.Record
import ServiceCatalog.Workflow.Table
/-!
A service together with its state in one machine. In JSON the fields of the service stand beside the
state, so the state is decoded while the object is read and the service from what is left.
-/
namespace ServiceCatalog

structure Item (S : Type) where
  service : Service
  state : S
  /-- The kind of action that led to the state. -/
  lastTransition : Option String := none
  deriving DecidableEq, Repr

namespace Item

variable {S : Type} [Named S]

/-- State and last transition, as read. -/
structure Mark (S : Type) where
  state : S
  lastTransition : Option String
  deriving DecidableEq, Repr

def stateNames : List (String × S) := (Named.all : List S).map fun s => (name s, s)

def markJson (i : Item S) : Json :=
  .objSome [("state", some (.str (name i.state))),
    ("lastTransition", optionalText i.lastTransition)]

def toJson (i : Item S) : Json := .objSome (i.service.jsonFields ++ [("fsm", some i.markJson)])

def markFields : Decode.Fields (Mark S) :=
  Mark.mk <$> .required "state" (Decode.variant false stateNames)
    <*> .optional "lastTransition" Decode.string

def markOfJson : Json → Decoded (Mark S) := Decode.record false "struct FsmMeta" markFields

/-- Splits the mark off the entries of an object. -/
def splitMark : Option (Mark S) → List (String × Json) →
    Decoded (Option (Mark S) × List (String × Json))
  | found, [] => .ok (found, [])
  | found, (k, j) :: rest =>
    if k = "fsm" then
      match found with
      | some _ => .error (.duplicateField "fsm")
      | none => do
        let mark ← markOfJson j
        splitMark (some mark) rest
    else do
      let (found, others) ← splitMark found rest
      return (found, (k, j) :: others)

def ofJson : Json → Decoded (Item S)
  | .obj entries => do
    match ← splitMark none entries with
    | (none, _) => throw (.missingField "fsm")
    | (some mark, others) =>
      let service ← Decode.fromEntries (Service.fields true) others
      return ⟨service, mark.state, mark.lastTransition⟩
  | j => Decode.wrongType "struct Stateful" j

/-- The mark is decoded from the text, the service from all the other entries. -/
instance : Document (Item S) :=
  ⟨toJson, ofJson,
    .record true [("fsm", .record false [("state", .whole), ("lastTransition", .whole)])]⟩

end Item
end ServiceCatalog
