import ServiceCatalog.Proofs.Decode.Reads
import ServiceCatalog.Proofs.Json.RoundTrip
import ServiceCatalog.Proofs.Time.RoundTrip
import ServiceCatalog.Service.Record

/-! A service is decoded from its JSON form as it was, where its numbers fit their words. -/
namespace ServiceCatalog

open Decode Json

/-- The topic is a word of 32 bits and the amount one of 64. -/
structure ServiceData.Fits (d : ServiceData) : Prop where
  topicId : ∀ n ∈ d.metadata.topicId, n < 2 ^ 32
  amount : d.maxAllowedPaymentAmount < 2 ^ 64

def Review.Fits : Review → Prop
  | .approved date => ∀ t ∈ date, t.Valid
  | .rejected _ => True

structure Service.Fits (s : Service) : Prop where
  data : s.data.Fits
  review : ∀ r ∈ s.review, r.Fits

theorem Decode.natBelow_nat {bound n : Nat} (wanted : String) (h : n < bound) :
    natBelow bound wanted (.nat n) = .ok n := by
  simp [natBelow, Json.nat, h]

theorem Decode.instant_text {t : Instant} (h : t.Valid) : instant (.str t.text) = .ok t := by
  simp [instant, Instant.ofText_text h, Except.mapError]

theorem Decode.reads_optionalText {entries : List (String × Json)} {name : String}
    {o : Option String} (h : Fields.entry? name entries = optionalText o) :
    Reads (.optional name string) entries o :=
  .optional Json.str h (fun _ _ => rfl) (by simp)

theorem Organization.ofJson_toJson (held : Bool) (o : Organization) :
    ofJson held o.toJson = .ok o := by
  let entries : List (String × Json) := [("name", .str o.name), ("fiscal_code", .str o.fiscalCode)]
  have hname : Reads (.required "name" string) entries o.name :=
    .required (j := .str o.name) (by simp [entries, Fields.entry?]) rfl
  have hcode : Reads (.required "fiscal_code" string) entries o.fiscalCode :=
    .required (j := .str o.fiscalCode) (by simp [entries, Fields.entry?]) rfl
  have hr : Reads fields entries o := (hname.map Organization.mk).seq hcode
  exact hr.fromEntries (by simp [entries])

theorem Scope.ofJson_text (held : Bool) (s : Scope) : ofJson held (.str s.text) = .ok s := by
  cases s <;> rfl

theorem Metadata.ofJson_toJson (held : Bool) {m : Metadata} (h : ∀ n ∈ m.topicId, n < 2 ^ 32) :
    ofJson held m.toJson = .ok m := by
  let entries : List (String × Option Json) :=
    [("topic_id", m.topicId.map .nat), ("web_url", optionalText m.webUrl),
      ("privacy_url", optionalText m.privacyUrl), ("email", optionalText m.email),
      ("phone", optionalText m.phone), ("scope", some (.str m.scope.text))]
  have hn : (entries.map Prod.fst).Nodup := by simp [entries]
  have he : ∀ {name : String} {o : Option Json}, (name, o) ∈ entries →
      Fields.entry? name (given entries) = o := fun hm => entry?_given hn hm
  have htopic : Reads (.optional "topic_id" u32) (given entries) m.topicId :=
    .optional Json.nat (he (by simp [entries])) (fun n hm => natBelow_nat "u32" (h n hm))
      (by simp [Json.nat])
  have hweb : Reads (.optional "web_url" string) (given entries) m.webUrl :=
    reads_optionalText (he (by simp [entries]))
  have hprivacy : Reads (.optional "privacy_url" string) (given entries) m.privacyUrl :=
    reads_optionalText (he (by simp [entries]))
  have hemail : Reads (.optional "email" string) (given entries) m.email :=
    reads_optionalText (he (by simp [entries]))
  have hphone : Reads (.optional "phone" string) (given entries) m.phone :=
    reads_optionalText (he (by simp [entries]))
  have hscope : Reads (.withDefault "scope" .local (Scope.ofJson held)) (given entries) m.scope :=
    .present (he (o := some (.str m.scope.text)) (by simp [entries])) (Scope.ofJson_text held _)
  have hr : Reads (fields held) (given entries) m :=
    (((((htopic.map Metadata.mk).seq hweb).seq hprivacy).seq hemail).seq hphone).seq hscope
  exact hr.fromEntries (hn.sublist (given_names_sublist entries))

theorem ServiceData.ofJson_toJson (held : Bool) {d : ServiceData} (h : d.Fits) :
    ofJson held d.toJson = .ok d := by
  let entries : List (String × Json) :=
    [("name", .str d.name), ("description", .str d.description),
      ("organization", d.organization.toJson), ("metadata", d.metadata.toJson),
      ("require_secure_channel", .bool d.requireSecureChannel),
      ("authorized_recipients", .arr (d.authorizedRecipients.map .str)),
      ("max_allowed_payment_amount", .nat d.maxAllowedPaymentAmount)]
  have hn : (entries.map Prod.fst).Nodup := by simp [entries]
  have he : ∀ {name : String} {j : Json}, (name, j) ∈ entries →
      Fields.entry? name entries = some j := fun hm => entry?_eq_some hn hm
  have hname : Reads (.required "name" string) entries d.name :=
    .required (he (j := .str d.name) (by simp [entries])) rfl
  have hdescription : Reads (.required "description" string) entries d.description :=
    .required (he (j := .str d.description) (by simp [entries])) rfl
  have horganization :
      Reads (.required "organization" (Organization.ofJson held)) entries d.organization :=
    .required (he (by simp [entries])) (Organization.ofJson_toJson held _)
  have hmetadata :
      Reads (.withDefault "metadata" {} (Metadata.ofJson held)) entries d.metadata :=
    .present (he (by simp [entries])) (Metadata.ofJson_toJson held h.topicId)
  have hchannel : Reads (.withDefault "require_secure_channel" false Decode.bool) entries
      d.requireSecureChannel :=
    .present (he (j := .bool d.requireSecureChannel) (by simp [entries])) rfl
  have hrecipients : Reads (.withDefault "authorized_recipients" [] (list string)) entries
      d.authorizedRecipients :=
    .present (he (j := .arr (d.authorizedRecipients.map .str)) (by simp [entries]))
      (items_map _ fun _ _ => rfl)
  have hamount : Reads (.withDefault "max_allowed_payment_amount" 0 u64) entries
      d.maxAllowedPaymentAmount :=
    .present (he (by simp [entries])) (natBelow_nat "u64" h.amount)
  have hr : Reads (fields held) entries d :=
    ((((((hname.map ServiceData.mk).seq hdescription).seq horganization).seq hmetadata).seq
      hchannel).seq hrecipients).seq hamount
  exact hr.fromEntries hn

theorem Review.ofJson_toJson (held : Bool) {r : Review} (h : r.Fits) :
    ofJson held r.toJson = .ok r := by
  cases r with
  | rejected reason =>
    have hr : Reads rejectedFields [("reason", .str reason)] (.rejected reason) :=
      .map Review.rejected (.required (j := .str reason) (by simp [Fields.entry?]) rfl)
    exact hr.fromEntries (by simp)
  | approved date =>
    let entries : List (String × Option Json) := [("approval_date", date.map (.str ·.text))]
    have hn : (entries.map Prod.fst).Nodup := by simp [entries]
    have hdate : Reads (.optional "approval_date" instant) (given entries) date :=
      .optional (fun t => .str t.text) (entry?_given hn (by simp [entries]))
        (fun t ht => instant_text (h t ht)) (by simp)
    have hrecord : fromEntries approvedFields (given entries) = .ok (.approved date) :=
      (hdate.map Review.approved).fromEntries (hn.sublist (given_names_sublist entries))
    have htag : tagged held "outcome" "Review" outcomes (toJson (.approved date)) =
        .ok (.approved, .obj (given entries)) := by
      cases date <;> rfl
    rw [ofJson, htag, ok_bind]
    exact hrecord

theorem Service.reads_fields (held : Bool) {s : Service} (h : s.Fits) :
    Reads (fields held) (given s.jsonFields) s := by
  have hn : (s.jsonFields.map Prod.fst).Nodup := by simp [jsonFields]
  have he : ∀ {name : String} {o : Option Json}, (name, o) ∈ s.jsonFields →
      Fields.entry? name (given s.jsonFields) = o := fun hm => entry?_given hn hm
  have hid : Reads (.required "id" string) (given s.jsonFields) s.id :=
    .required (he (o := some (.str s.id)) (by simp [jsonFields])) rfl
  have hdata : Reads (.required "data" (ServiceData.ofJson held)) (given s.jsonFields) s.data :=
    .required (he (o := some s.data.toJson) (by simp [jsonFields]))
      (ServiceData.ofJson_toJson held h.data)
  have hreview : Reads (.optional "review" (Review.ofJson held)) (given s.jsonFields) s.review := by
    refine .optional Review.toJson (he (by simp [jsonFields])) ?_ ?_
    · intro r hr
      exact Review.ofJson_toJson held (h.review r hr)
    · intro r
      cases r <;> simp [Review.toJson, objSome]
  exact ((hid.map Service.mk).seq hdata).seq hreview

theorem Service.fromEntries_jsonFields (held : Bool) {s : Service} (h : s.Fits) :
    fromEntries (fields held) (given s.jsonFields) = .ok s :=
  (reads_fields held h).fromEntries
    ((show (s.jsonFields.map Prod.fst).Nodup by simp [jsonFields]).sublist
      (given_names_sublist _))

theorem Service.ofJson_toJson (held : Bool) {s : Service} (h : s.Fits) :
    ofJson held s.toJson = .ok s :=
  fromEntries_jsonFields held h

theorem within_optionalText (n : Nat) (o : Option String) :
    ∀ j ∈ optionalText o, Within n j := by
  intro j hj
  obtain ⟨s, -, rfl⟩ := Option.map_eq_some_iff.mp hj
  exact within_str n s

theorem Organization.within_toJson (o : Organization) : Within 1 o.toJson :=
  within_obj (by simp [within_str])

theorem Metadata.within_toJson {m : Metadata} (h : ∀ n ∈ m.topicId, n < 2 ^ 32) :
    Within 1 m.toJson := by
  have htopic : ∀ j ∈ m.topicId.map Json.nat, Within 0 j := by
    intro j hj
    obtain ⟨n, hn, rfl⟩ := Option.map_eq_some_iff.mp hj
    exact within_nat 0 ((h n hn).trans (by decide))
  refine within_objSome ?_
  simp only [List.forall_mem_cons]
  exact ⟨htopic, within_optionalText 0 _, within_optionalText 0 _, within_optionalText 0 _,
    within_optionalText 0 _, by simp [within_str], by simp⟩

theorem ServiceData.within_toJson {d : ServiceData} (h : d.Fits) : Within 2 d.toJson := by
  have hrecipients : Within 1 (.arr (d.authorizedRecipients.map .str)) :=
    within_arr (by simp [within_str])
  refine within_obj ?_
  simp only [List.forall_mem_cons]
  exact ⟨within_str 1 _, within_str 1 _, d.organization.within_toJson,
    Metadata.within_toJson h.topicId, within_bool 1 _, hrecipients, within_nat 1 h.amount, by simp⟩

theorem Review.within_toJson (r : Review) : Within 1 r.toJson := by
  cases r with
  | rejected reason => exact within_obj (by simp [within_str])
  | approved date => exact within_objSome (by cases date <;> simp [within_str])

theorem Service.within_jsonFields {s : Service} (h : s.Fits) :
    ∀ f ∈ s.jsonFields, ∀ j ∈ f.2, Within 2 j := by
  have hreview : ∀ j ∈ s.review.map Review.toJson, Within 2 j := by
    intro j hj
    obtain ⟨r, -, rfl⟩ := Option.map_eq_some_iff.mp hj
    exact r.within_toJson.mono (by decide)
  simp only [jsonFields, List.forall_mem_cons]
  exact ⟨by simp [within_str], by simp [ServiceData.within_toJson h.data], hreview, by simp⟩

end ServiceCatalog
