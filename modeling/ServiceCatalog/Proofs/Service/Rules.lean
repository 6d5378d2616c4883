import Mathlib.Data.String.Basic
import Mathlib.Tactic.IntervalCases
import ServiceCatalog.Service.Rules

/-!
The rules of a service, each said by what it asks for. Data are refused exactly if they break a rule,
for the first one in the order of precedence; further rules that they break make no difference.
-/
namespace ServiceCatalog

theorem isDigit_iff {c : Char} : c.isDigit = true ↔ '0' ≤ c ∧ c ≤ '9' := Char.isDigit_iff_toNat

theorem isUpper_iff {c : Char} : c.isUpper = true ↔ 'A' ≤ c ∧ c ≤ 'Z' := decide_eq_true_iff

/-- Plain characters take one byte each. -/
theorem utf8ByteSize_of_plain {s : String} (h : ∀ c ∈ s.toList, c ≤ '\x7f') :
    s.utf8ByteSize = s.length := by
  have hlen : ∀ cs : List Char, (∀ c ∈ cs, c ≤ '\x7f') → String.utf8Len cs = cs.length := by
    intro cs hcs
    induction cs with
    | nil => rfl
    | cons c cs ih =>
      have hc : c.utf8Size = 1 := Char.utf8Size_eq_one_iff.mpr (hcs c (List.mem_cons_self ..))
      rw [String.utf8Len_cons, ih fun d hd => hcs d (List.mem_cons_of_mem _ hd), hc, List.length_cons]
  rw [← String.length_toList, ← hlen s.toList h, ← String.utf8ByteSize_ofList, String.ofList_toList]

/-- The text has a character that is not white space. -/
def SaysSomething (s : String) : Prop := ∃ c ∈ s.toList, Text.isSpace c = false

theorem isBlank_iff {s : String} : Text.isBlank s = true ↔ ¬SaysSomething s := by
  rw [SaysSomething, ← Text.isBlank_eq_false_iff, Bool.not_eq_false]

def IsOrganizationCode (code : String) : Prop :=
  code.length = 11 ∧ ∀ c ∈ code.toList, '0' ≤ c ∧ c ≤ '9'

def IsPersonCode (code : String) : Prop :=
  code.length = 16 ∧ ∀ c ∈ code.toList, '0' ≤ c ∧ c ≤ '9' ∨ 'A' ≤ c ∧ c ≤ 'Z'

theorem isOrganizationCode_iff {code : String} :
    isOrganizationCode code = true ↔ IsOrganizationCode code := by
  simp only [isOrganizationCode, IsOrganizationCode, Bool.and_eq_true, beq_iff_eq,
    List.all_eq_true, isDigit_iff]
  refine and_congr_left fun h => ?_
  rw [utf8ByteSize_of_plain fun c hc => (h c hc).2.trans (by decide)]

theorem isPersonCode_iff {code : String} : isPersonCode code = true ↔ IsPersonCode code := by
  simp only [isPersonCode, IsPersonCode, Bool.and_eq_true, beq_iff_eq, List.all_eq_true,
    Bool.or_eq_true, isDigit_iff, isUpper_iff]
  refine and_congr_left fun h => ?_
  rw [utf8ByteSize_of_plain fun c hc => ?_]
  exact (h c hc).elim (fun h => h.2.trans (by decide)) fun h => h.2.trans (by decide)

namespace Metadata

/-- The ways to get in touch. -/
def contacts (m : Metadata) : List String :=
  m.email.toList ++ m.phone.toList ++ m.webUrl.toList

theorem hasContact_iff {m : Metadata} :
    m.hasContact = true ↔ ∃ s ∈ m.contacts, SaysSomething s := by
  have hsays : ∀ o : Option String, saysSomething o = true ↔ ∃ s ∈ o.toList, SaysSomething s := by
    intro o
    cases o with
    | none => simp [saysSomething]
    | some s => simp [saysSomething, SaysSomething, Text.isBlank_eq_false_iff]
  simp only [hasContact, Bool.or_eq_true, hsays, contacts, List.mem_append, or_and_right, exists_or]

end Metadata

/-- What the rules ask for. -/
structure ServiceData.Acceptable (d : ServiceData) : Prop where
  name : SaysSomething d.name
  description : SaysSomething d.description
  short : d.description.length ≤ 1000
  organization : SaysSomething d.organization.name
  organizationCode : IsOrganizationCode d.organization.fiscalCode
  contact : ∃ s ∈ d.metadata.contacts, SaysSomething s
  email : ∀ address, d.metadata.email = some address → '@' ∈ address.toList
  recipients : ∀ code ∈ d.authorizedRecipients, IsPersonCode code
  payment : d.maxAllowedPaymentAmount ≤ 9999999999

namespace Violation

/-- How the data break a rule. -/
def Of (d : ServiceData) : Violation → Prop
  | .blankName => ¬SaysSomething d.name
  | .blankDescription => ¬SaysSomething d.description
  | .longDescription => 1000 < d.description.length
  | .blankOrganization => ¬SaysSomething d.organization.name
  | .organizationCode code => code = d.organization.fiscalCode ∧ ¬IsOrganizationCode code
  | .noContact => ∀ s ∈ d.metadata.contacts, ¬SaysSomething s
  | .email address => d.metadata.email = some address ∧ '@' ∉ address.toList
  | .recipient code => ∃ before after, d.authorizedRecipients = before ++ code :: after ∧
      (∀ r ∈ before, IsPersonCode r) ∧ ¬IsPersonCode code
  | .paymentAmount => 9999999999 < d.maxAllowedPaymentAmount

/-- The place of the rule in the order of precedence. -/
def rank : Violation → Nat
  | .blankName => 0
  | .blankDescription => 1
  | .longDescription => 2
  | .blankOrganization => 3
  | .organizationCode _ => 4
  | .noContact => 5
  | .email _ => 6
  | .recipient _ => 7
  | .paymentAmount => 8

variable {d : ServiceData} {v : Violation}

theorem emailViolation_eq_some :
    d.emailViolation = some v ↔ ∃ address, v = .email address ∧ Of d (.email address) := by
  unfold ServiceData.emailViolation Of
  cases d.metadata.email with
  | none => simp
  | some e =>
    by_cases he : '@' ∈ e.toList
    · simp [he]
    · simp [he, eq_comm]

theorem recipientViolation_eq_some :
    d.recipientViolation = some v ↔ ∃ code, v = .recipient code ∧ Of d (.recipient code) := by
  have hbad : ∀ code, (!isPersonCode code) = true ↔ ¬IsPersonCode code := fun code => by
    rw [← isPersonCode_iff, Bool.not_eq_true', Bool.not_eq_true]
  have hgood : ∀ code, (!!isPersonCode code) = true ↔ IsPersonCode code := fun code => by
    rw [Bool.not_not, isPersonCode_iff]
  simp only [ServiceData.recipientViolation, Option.map_eq_some_iff, List.find?_eq_some_iff_append,
    hbad, hgood, Of]
  constructor
  · rintro ⟨code, ⟨hn, before, after, heq, hbefore⟩, rfl⟩
    exact ⟨code, rfl, before, after, heq, hbefore, hn⟩
  · rintro ⟨code, rfl, before, after, heq, hbefore, hn⟩
    exact ⟨code, ⟨hn, before, after, heq, hbefore⟩, rfl⟩

/-- The outcome of a rule is found at its place. -/
theorem of_iff : v.Of d ↔ d.violations[v.rank]? = some (some v) := by
  cases v with
  | blankName | blankDescription | blankOrganization =>
    simp [Of, rank, ServiceData.violations, isBlank_iff]
  | longDescription => simp [Of, rank, ServiceData.violations, maxDescriptionLength]
  | organizationCode code =>
    simp only [Of, rank, ServiceData.violations, List.getElem?_cons_succ, List.getElem?_cons_zero,
      Option.some.injEq, Option.ite_none_left_eq_some, organizationCode.injEq,
      isOrganizationCode_iff]
    constructor
    · rintro ⟨rfl, hn⟩
      exact ⟨hn, rfl⟩
    · rintro ⟨hn, rfl⟩
      exact ⟨rfl, hn⟩
  | noContact => simp [Of, rank, ServiceData.violations, Metadata.hasContact_iff]
  | email address =>
    simp only [rank, ServiceData.violations, List.getElem?_cons_succ, List.getElem?_cons_zero,
      Option.some.injEq, emailViolation_eq_some]
    simp
  | recipient code =>
    simp only [rank, ServiceData.violations, List.getElem?_cons_succ, List.getElem?_cons_zero,
      Option.some.injEq, recipientViolation_eq_some]
    simp
  | paymentAmount => simp [Of, rank, ServiceData.violations, maxPaymentAmount]

theorem rank_of_getElem {i : Nat} (h : d.violations[i]? = some (some v)) : v.rank = i := by
  have hi : i < 9 := (List.getElem?_eq_some_iff.mp h).1
  interval_cases i
  all_goals
    simp only [ServiceData.violations, List.getElem?_cons_succ, List.getElem?_cons_zero,
      Option.some.injEq, Option.ite_none_left_eq_some, Option.ite_none_right_eq_some,
      emailViolation_eq_some, recipientViolation_eq_some] at h
  case «6» =>
    obtain ⟨address, rfl, -⟩ := h
    rfl
  case «7» =>
    obtain ⟨code, rfl, -⟩ := h
    rfl
  all_goals
    obtain ⟨-, rfl⟩ := h
    rfl

/-- The first rule that is broken is found by going through all of them. -/
theorem violation?_eq_some :
    d.violation? = some v ↔ v.Of d ∧ ∀ u : Violation, u.Of d → v.rank ≤ u.rank := by
  rw [ServiceData.violation?, List.findSome?_eq_some_iff]
  constructor
  · rintro ⟨before, o, after, heq, hov, hbefore⟩
    obtain rfl : o = some v := hov
    have hat : d.violations[before.length]? = some (some v) := by simp [heq]
    have hrank := rank_of_getElem hat
    refine ⟨of_iff.mpr (hrank ▸ hat), fun u hu => ?_⟩
    by_contra hlt
    have hu := of_iff.mp hu
    rw [heq, List.getElem?_append_left (by omega)] at hu
    cases hbefore _ (List.mem_of_getElem? hu)
  · rintro ⟨hv, hfirst⟩
    obtain ⟨hlt, hget⟩ := List.getElem?_eq_some_iff.mp (of_iff.mp hv)
    refine ⟨d.violations.take v.rank, some v, d.violations.drop (v.rank + 1), ?_, rfl, ?_⟩
    · rw [← hget, ← List.drop_eq_getElem_cons, List.take_append_drop]
    · intro o ho
      obtain ⟨i, hi, rfl⟩ := List.mem_take_iff_getElem.mp ho
      cases hu : d.violations[i] with
      | none => rfl
      | some u =>
        have hat : d.violations[i]? = some (some u) := by
          rw [List.getElem?_eq_getElem (hi.trans_le (Nat.min_le_right ..)), hu]
        have hrank := rank_of_getElem hat
        have hle := hfirst u (of_iff.mpr (hrank ▸ hat))
        omega

theorem violation?_eq_none : d.violation? = none ↔ ∀ v : Violation, ¬v.Of d := by
  constructor
  · intro h v hv
    have hnone := List.findSome?_eq_none_iff.mp h _ (List.mem_of_getElem? (of_iff.mp hv))
    cases hnone
  · intro h
    cases hv : d.violation? with
    | none => rfl
    | some v => exact absurd (violation?_eq_some.mp hv).1 (h v)

theorem acceptable_iff : d.Acceptable ↔ ∀ v : Violation, ¬v.Of d := by
  constructor
  · rintro ⟨hname, hdescription, hshort, horganization, hcode, ⟨s, hs, hsays⟩, hemail, hrecipients,
      hpayment⟩ v hv
    cases v with
    | blankName => exact hv hname
    | blankDescription => exact hv hdescription
    | longDescription => exact Nat.not_lt.mpr hshort hv
    | blankOrganization => exact hv horganization
    | organizationCode code => exact hv.2 (hv.1 ▸ hcode)
    | noContact => exact hv s hs hsays
    | email address => exact hv.2 (hemail address hv.1)
    | recipient code =>
      obtain ⟨before, after, heq, -, hn⟩ := hv
      exact hn (hrecipients code (by simp [heq]))
    | paymentAmount => exact Nat.not_lt.mpr hpayment hv
  · intro h
    refine ⟨not_not.mp (h .blankName), not_not.mp (h .blankDescription),
      Nat.not_lt.mp (h .longDescription), not_not.mp (h .blankOrganization),
      not_not.mp fun hn => h (.organizationCode _) ⟨rfl, hn⟩, ?_,
      fun address ha => not_not.mp fun hn => h (.email address) ⟨ha, hn⟩, ?_,
      Nat.not_lt.mp (h .paymentAmount)⟩
    · by_contra hn
      exact h .noContact fun s hs hsays => hn ⟨s, hs, hsays⟩
    · -- With no violation there is no first recipient that is wrong.
      have hnone : d.recipientViolation = none := by
        cases hv : d.recipientViolation with
        | none => rfl
        | some v =>
          obtain ⟨code, -, hcode⟩ := recipientViolation_eq_some.mp hv
          exact absurd hcode (h (.recipient code))
      rw [ServiceData.recipientViolation, Option.map_eq_none_iff, List.find?_eq_none] at hnone
      intro code hcode
      exact isPersonCode_iff.mp (by simpa using hnone code hcode)

end Violation

/-- Data are accepted if they are acceptable, and else refused for the first rule that they break,
whatever other rules they break after it. -/
theorem ServiceData.validate_iff (d : ServiceData) :
    (d.validate = .ok () ↔ d.Acceptable) ∧
      ∀ e, d.validate = .error e ↔ ∃ v : Violation, v.Of d ∧
        (∀ u : Violation, u.Of d → v.rank ≤ u.rank) ∧ e = ⟨v.message⟩ := by
  have hok : d.validate = .ok () ↔ d.violation? = none := by
    unfold validate
    cases d.violation? <;> simp
  have herror : ∀ e, d.validate = .error e ↔ ∃ v, d.violation? = some v ∧ e = ⟨v.message⟩ := by
    intro e
    unfold validate
    cases d.violation? <;> simp [eq_comm]
  refine ⟨?_, fun e => ?_⟩
  · rw [hok, Violation.violation?_eq_none, Violation.acceptable_iff]
  · simp only [herror, Violation.violation?_eq_some, and_assoc]

/-- The length of the description is judged before the name of the organization. -/
theorem validate_longDescription :
    let d : ServiceData := {
      name := "a"
      description := String.ofList (List.replicate 1001 'a')
      organization := ⟨" ", "00000000000"⟩
      metadata := { email := some "a@b.it" } }
    ¬Violation.blankName.Of d ∧ ¬Violation.blankDescription.Of d ∧
      Violation.blankOrganization.Of d ∧
      d.validate ≠ .error ⟨Violation.blankOrganization.message⟩ ∧
      d.validate = .error ⟨Violation.longDescription.message⟩ := by
  intro d
  have hname : SaysSomething d.name := ⟨'a', by decide, by decide⟩
  have hdescription : SaysSomething d.description := by
    refine ⟨'a', ?_, by decide⟩
    show 'a' ∈ (String.ofList (List.replicate 1001 'a')).toList
    rw [String.toList_ofList]
    exact List.mem_replicate.mpr ⟨by omega, rfl⟩
  have hlong : Violation.longDescription.Of d := by
    show 1000 < (String.ofList (List.replicate 1001 'a')).length
    rw [String.length_ofList, List.length_replicate]
    omega
  have hviolation : d.violation? = some .longDescription := by
    refine Violation.violation?_eq_some.mpr ⟨hlong, fun u hu => ?_⟩
    cases u with
    | blankName => exact absurd hname hu
    | blankDescription => exact absurd hdescription hu
    | _ =>
      simp only [Violation.rank]
      omega
  have hvalidate : d.validate = .error ⟨Violation.longDescription.message⟩ := by
    rw [ServiceData.validate, hviolation]
  refine ⟨not_not.mpr hname, not_not.mpr hdescription, ?_, ?_, hvalidate⟩
  · rintro ⟨c, hc, hspace⟩
    obtain rfl : c = ' ' := by simpa [d] using hc
    cases hspace
  · rw [hvalidate]
    decide

end ServiceCatalog
