import ServiceCatalog.Decode.Record
/-! What is known of a service, and how it stands in JSON. -/
namespace ServiceCatalog

structure Organization where
  name : String
  fiscalCode : String
  deriving DecidableEq, Repr

inductive Scope where
  | local
  | national
  deriving DecidableEq, Repr

structure Metadata where
  topicId : Option Nat := none
  webUrl : Option String := none
  privacyUrl : Option String := none
  email : Option String := none
  phone : Option String := none
  scope : Scope := .local
  deriving DecidableEq, Repr

structure ServiceData where
  name : String
  description : String
  organization : Organization
  metadata : Metadata := {}
  requireSecureChannel : Bool := false
  /-- Fiscal codes of persons that may receive messages in test mode. -/
  authorizedRecipients : List String := []
  /-- In euro cents. -/
  maxAllowedPaymentAmount : Nat := 0
  deriving DecidableEq, Repr

/-- Optional text as a field value. -/
def optionalText (o : Option String) : Option Json := o.map .str

namespace Organization

def toJson (o : Organization) : Json :=
  .obj [("name", .str o.name), ("fiscal_code", .str o.fiscalCode)]

def fields : Decode.Fields Organization :=
  Organization.mk <$> .required "name" Decode.string <*> .required "fiscal_code" Decode.string

def ofJson (held : Bool) : Json → Decoded Organization :=
  Decode.record held "struct Organization" fields

end Organization

namespace Scope

def text : Scope → String
  | .local => "LOCAL"
  | .national => "NATIONAL"

def names : List (String × Scope) := [("LOCAL", .local), ("NATIONAL", .national)]

def ofJson (held : Bool) : Json → Decoded Scope := Decode.variant held names

end Scope

namespace Metadata

def toJson (m : Metadata) : Json :=
  .objSome [("topic_id", m.topicId.map .nat), ("web_url", optionalText m.webUrl),
    ("privacy_url", optionalText m.privacyUrl), ("email", optionalText m.email),
    ("phone", optionalText m.phone), ("scope", some (.str m.scope.text))]

def fields (held : Bool) : Decode.Fields Metadata :=
  Metadata.mk <$> .optional "topic_id" Decode.u32 <*> .optional "web_url" Decode.string
    <*> .optional "privacy_url" Decode.string <*> .optional "email" Decode.string
    <*> .optional "phone" Decode.string <*> .withDefault "scope" .local (Scope.ofJson held)

def ofJson (held : Bool) : Json → Decoded Metadata :=
  Decode.record held "struct ServiceMetadata" (fields held)

end Metadata

namespace ServiceData

def toJson (d : ServiceData) : Json :=
  .obj [("name", .str d.name), ("description", .str d.description),
    ("organization", d.organization.toJson), ("metadata", d.metadata.toJson),
    ("require_secure_channel", .bool d.requireSecureChannel),
    ("authorized_recipients", .arr (d.authorizedRecipients.map .str)),
    ("max_allowed_payment_amount", .nat d.maxAllowedPaymentAmount)]

def fields (held : Bool) : Decode.Fields ServiceData :=
  ServiceData.mk <$> .required "name" Decode.string <*> .required "description" Decode.string
    <*> .required "organization" (Organization.ofJson held)
    <*> .withDefault "metadata" {} (Metadata.ofJson held)
    <*> .withDefault "require_secure_channel" false Decode.bool
    <*> .withDefault "authorized_recipients" [] (Decode.list Decode.string)
    <*> .withDefault "max_allowed_payment_amount" 0 Decode.u64

def ofJson (held : Bool) : Json → Decoded ServiceData :=
  Decode.record held "struct ServiceData" (fields held)

end ServiceData
end ServiceCatalog
