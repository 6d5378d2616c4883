import ServiceCatalog.Service.Data
import ServiceCatalog.Text.Blank
import ServiceCatalog.Workflow.Table
/-!
The rules every stored service satisfies. They are tried in a fixed order and the first one that is
violated is the reason for a refusal.
-/
namespace ServiceCatalog

def maxDescriptionLength : Nat := 1000

def maxPaymentAmount : Nat := 9999999999

/-- Eleven digits. -/
def isOrganizationCode (code : String) : Bool :=
  code.utf8ByteSize == 11 && code.toList.all Char.isDigit

/-- Sixteen digits and capital letters. -/
def isPersonCode (code : String) : Bool :=
  code.utf8ByteSize == 16 && code.toList.all fun c => c.isDigit || c.isUpper

namespace Metadata

/-- A contact that is given and says something. -/
def saysSomething : Option String → Bool
  | some s => !Text.isBlank s
  | none => false

def hasContact (m : Metadata) : Bool :=
  saysSomething m.email || saysSomething m.phone || saysSomething m.webUrl

end Metadata

/-- A rule, by what violates it. -/
inductive Violation where
  | blankName
  | blankDescription
  | longDescription
  | blankOrganization
  | organizationCode (code : String)
  | noContact
  | email (address : String)
  | recipient (code : String)
  | paymentAmount
  deriving DecidableEq, Repr

def Violation.message : Violation → String
  | .blankName => "name must not be empty"
  | .blankDescription => "description must not be empty"
  | .longDescription => s!"description exceeds {maxDescriptionLength} characters"
  | .blankOrganization => "organization name must not be empty"
  | .organizationCode code => "invalid organization fiscal code " ++ Text.quoted code
  | .noContact => "at least one of email, phone or web_url is required"
  | .email address => "invalid email " ++ Text.quoted address
  | .recipient code => "invalid authorized recipient " ++ Text.quoted code
  | .paymentAmount => s!"max_allowed_payment_amount exceeds {maxPaymentAmount}"

namespace ServiceData

/-- What the email breaks: it may be absent, but not without an `@`. -/
def emailViolation (d : ServiceData) : Option Violation :=
  match d.metadata.email with
  | some e => if e.toList.contains '@' then none else some (.email e)
  | none => none

def recipientViolation (d : ServiceData) : Option Violation :=
  (d.authorizedRecipients.find? fun r => !isPersonCode r).map .recipient

/-- The outcome of each rule, in the order of precedence. -/
def violations (d : ServiceData) : List (Option Violation) :=
  [ if Text.isBlank d.name then some .blankName else none,
    if Text.isBlank d.description then some .blankDescription else none,
    if d.description.length > maxDescriptionLength then some .longDescription else none,
    if Text.isBlank d.organization.name then some .blankOrganization else none,
    if isOrganizationCode d.organization.fiscalCode then none
      else some (.organizationCode d.organization.fiscalCode),
    if d.metadata.hasContact then none else some .noContact,
    d.emailViolation,
    d.recipientViolation,
    if d.maxAllowedPaymentAmount > maxPaymentAmount then some .paymentAmount else none ]

/-- The first violated rule. -/
def violation? (d : ServiceData) : Option Violation :=
  d.violations.findSome? id

def validate (d : ServiceData) : Except Rejected Unit :=
  match d.violation? with
  | some v => .error ⟨v.message⟩
  | none => .ok ()

end ServiceData
end ServiceCatalog
