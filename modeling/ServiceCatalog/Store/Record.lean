import ServiceCatalog.Decode.Record
import ServiceCatalog.Json.Outline
import ServiceCatalog.Time.Printer
/-!
Versioned records. Every commit gives a record a token of its own; a write names the token it has
read, or none when it means to insert, and is refused when the stored one differs.
-/
namespace ServiceCatalog

structure Token where
  text : String
  deriving DecidableEq, Repr

structure Versioned (D : Type) where
  id : String
  document : D
  version : Token
  modifiedAt : Instant
  deriving DecidableEq, Repr

/-- What can be kept in a store: it is written as JSON and read back from it. -/
class Document (D : Type) where
  toJson : D → Json
  ofJson : Json → Decoded D
  /-- What is read of a document's text. -/
  outline : Json.Outline

/-- Any JSON is a document. -/
instance : Document Json := ⟨id, fun j => .ok j.sorted, .whole⟩

inductive StoreError where
  | conflict (id : String) (expected actual : Option Token)
  | throttled (id : String) (retryAfter : Option Nat)
  | invalidId (id : String)
  | backend (text : String)
  | io (text : String)
  /-- A stored text that is not a record. -/
  | serialization
  deriving DecidableEq, Repr

namespace Token

/-- An optional token in a message. -/
def describe : Option Token → String
  | none => "None"
  | some t => "Some(VersionToken(" ++ Text.quoted t.text ++ "))"

def ofJson (j : Json) : Decoded Token := (Decode.string j).map Token.mk

end Token

def StoreError.message : StoreError → String
  | .conflict id expected actual =>
    s!"version conflict on {id}: expected {Token.describe expected}, found {Token.describe actual}"
  | .throttled id _ => s!"store throttled the request for {id}"
  | .invalidId id => "invalid document id: " ++ Text.quoted id
  | .backend text => s!"backend error: {text}"
  | .io text => s!"IO error: {text}"
  | .serialization => "Serialization error"

def StoreError.kind : StoreError → String
  | .conflict _ _ _ => "conflict"
  | .throttled _ _ => "throttled"
  | .invalidId _ => "invalid_id"
  | .backend _ => "backend"
  | .io _ => "io"
  | .serialization => "serialization"

/-- Ids name files, so they are kept plain. -/
def isIdChar (c : Char) : Bool := c.isAlphanum || c == '-' || c == '_'

def maxIdBytes : Nat := 128

def isValidId (id : String) : Bool :=
  !id.isEmpty && id.utf8ByteSize ≤ maxIdBytes && id.toList.all isIdChar

def validateId (id : String) : Except StoreError Unit :=
  if isValidId id then .ok () else .error (.invalidId id)

namespace Versioned

variable {D : Type} [Document D]

def toJson (r : Versioned D) : Json :=
  .obj [("id", .str r.id), ("document", Document.toJson r.document), ("version", .str r.version.text),
    ("modified_at", .str r.modifiedAt.text)]

def fields : Decode.Fields (Versioned D) :=
  Versioned.mk <$> .required "id" Decode.string <*> .required "document" Document.ofJson
    <*> .required "version" Token.ofJson <*> .required "modified_at" Decode.instant

def ofJson : Json → Decoded (Versioned D) := Decode.record false "struct Versioned" fields

end Versioned
end ServiceCatalog
