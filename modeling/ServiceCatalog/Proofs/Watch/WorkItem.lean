import ServiceCatalog.Proofs.Service.RoundTrip
import ServiceCatalog.Watch.Watcher

/-! A work item is decoded from its text as it was, where its numbers fit their words. -/
namespace ServiceCatalog

open Decode Json

/-- The topic is a word of 32 bits and the time a signed one of 64. -/
structure DetailRequest.Fits (r : DetailRequest) : Prop where
  topicId : ∀ n ∈ r.metadata.topicId, n < 2 ^ 32
  lower : -2 ^ 63 ≤ r.lastUpdate
  upper : r.lastUpdate < 2 ^ 63

def WorkItem.Fits : WorkItem → Prop
  | .review r => r.data.Fits
  | .lifecycleDetail r | .publicationDetail r => r.Fits
  | .history r => r.data.Fits
  | .noAction => True

/-- What a watcher makes of a record that fits does so too: no clock goes beyond a word of seconds. -/
theorem Watcher.fits_handle {S : Type} [Named S] (w : Watcher S) {r : Versioned (Item S)}
    (hr : r.document.service.Fits) (ht : r.modifiedAt.Valid) : (w.handle r).Fits := by
  have hdetail : ∀ kind, (WorkItem.ofDetail kind r).Fits := by
    have hseconds : -2 ^ 63 ≤ r.modifiedAt.seconds ∧ r.modifiedAt.seconds < 2 ^ 63 := by
      have hearliest : Instant.earliest ≤ r.modifiedAt.seconds := ht.1
      have hlatest : r.modifiedAt.seconds ≤ Instant.latest := ht.2.1
      unfold Instant.earliest at hearliest
      unfold Instant.latest at hlatest
      omega
    intro kind
    cases kind <;> exact ⟨hr.data.topicId, hseconds.1, hseconds.2⟩
  unfold handle
  cases w.ruleFor r.document.state with
  | requestReview => exact hr.data
  | requestDetail kind => exact hdetail kind
  | requestHistory => exact hr.data
  | noAction => trivial

theorem Decode.i64_int {i : Int} (hl : -2 ^ 63 ≤ i) (hu : i < 2 ^ 63) : i64 (.int i) = .ok i := by
  have hpow : 1 <<< 63 = 2 ^ 63 := by decide
  unfold Json.int
  by_cases hi : i < 0
  · rw [if_pos hi, i64, Int.ofNat_natAbs_of_nonpos (by omega), Int.neg_neg]
  · rw [if_neg hi, i64, hpow, if_pos (by omega), Int.natAbs_of_nonneg (by omega)]

theorem Json.within_int (n : Nat) {i : Int} (hl : -2 ^ 63 ≤ i) (hu : i < 2 ^ 63) :
    Within n (.int i) := by
  refine ⟨?_, ?_⟩
  · unfold Json.int
    split
    · exact ⟨by omega, by omega⟩
    · show i.natAbs ≤ maxWord
      unfold maxWord
      omega
  · unfold Json.int
    split <;> exact Nat.zero_le n

theorem Decode.splitTag_eq_none {α : Type} {held : Bool} {tag : String} {names : List (String × α)}
    {others : List (String × Json)} (h : tag ∉ others.map Prod.fst) :
    splitTag held tag names others = .ok (none, others) := by
  induction others with
  | nil => rfl
  | cons e others ih =>
    obtain ⟨k, j⟩ := e
    rw [List.map_cons, List.mem_cons, not_or] at h
    rw [splitTag, if_neg (Ne.symm h.1), ih h.2]
    rfl

/-- A tag in front of fields of other names. -/
theorem Decode.tagged_cons {α : Type} {held : Bool} {tag typeName : String}
    {names : List (String × α)} {j : Json} {a : α} {others : List (String × Json)}
    (hj : tagValue held names j = .ok a) (h : tag ∉ others.map Prod.fst) :
    tagged held tag typeName names (.obj ((tag, j) :: others)) = .ok (a, .obj others) := by
  rw [tagged, splitTag, if_pos rfl, hj, ok_bind, splitTag_eq_none h]
  rfl

theorem ReviewRequest.fromEntries_jsonFields {r : ReviewRequest} (h : r.data.Fits) :
    fromEntries fields r.jsonFields = .ok r := by
  have hn : (r.jsonFields.map Prod.fst).Nodup := by simp [jsonFields]
  have he : ∀ {name : String} {j : Json}, (name, j) ∈ r.jsonFields →
      Fields.entry? name r.jsonFields = some j := fun hm => entry?_eq_some hn hm
  have hid : Reads (.required "id" string) r.jsonFields r.id :=
    .required (he (j := .str r.id) (by simp [jsonFields])) rfl
  have hversion : Reads (.required "version" Token.ofJson) r.jsonFields r.version :=
    .required (he (j := .str r.version.text) (by simp [jsonFields])) rfl
  have hdata : Reads (.required "data" (ServiceData.ofJson true)) r.jsonFields r.data :=
    .required (he (by simp [jsonFields])) (ServiceData.ofJson_toJson true h)
  have hr : Reads fields r.jsonFields r := ((hid.map ReviewRequest.mk).seq hversion).seq hdata
  exact hr.fromEntries hn

theorem ReviewRequest.within_jsonFields {r : ReviewRequest} (h : r.data.Fits) :
    ∀ f ∈ r.jsonFields, Within 2 f.2 := by
  simp only [jsonFields, List.forall_mem_cons]
  exact ⟨within_str 2 _, within_str 2 _, ServiceData.within_toJson h, by simp⟩

theorem DetailKind.ofJson_text (kind : DetailKind) :
    variant true names (.str kind.text) = .ok kind := by
  cases kind <;> rfl

theorem DetailRequest.fromEntries_jsonFields {r : DetailRequest} (h : r.Fits) :
    fromEntries fields r.jsonFields = .ok r := by
  have hn : (r.jsonFields.map Prod.fst).Nodup := by simp [jsonFields]
  have he : ∀ {name : String} {j : Json}, (name, j) ∈ r.jsonFields →
      Fields.entry? name r.jsonFields = some j := fun hm => entry?_eq_some hn hm
  have hid : Reads (.required "id" string) r.jsonFields r.id :=
    .required (he (j := .str r.id) (by simp [jsonFields])) rfl
  have hkind : Reads (.required "kind" (variant true DetailKind.names)) r.jsonFields r.kind :=
    .required (he (j := .str r.kind.text) (by simp [jsonFields])) r.kind.ofJson_text
  have hname : Reads (.required "name" string) r.jsonFields r.name :=
    .required (he (j := .str r.name) (by simp [jsonFields])) rfl
  have hdescription : Reads (.required "description" string) r.jsonFields r.description :=
    .required (he (j := .str r.description) (by simp [jsonFields])) rfl
  have horganization :
      Reads (.required "organization" (Organization.ofJson true)) r.jsonFields r.organization :=
    .required (he (by simp [jsonFields])) (Organization.ofJson_toJson true _)
  have hmetadata : Reads (.required "metadata" (Metadata.ofJson true)) r.jsonFields r.metadata :=
    .required (he (by simp [jsonFields])) (Metadata.ofJson_toJson true h.topicId)
  have htime : Reads (.required "cms_last_update_ts" i64) r.jsonFields r.lastUpdate :=
    .required (he (by simp [jsonFields])) (i64_int h.lower h.upper)
  have hr : Reads fields r.jsonFields r :=
    ((((((hid.map DetailRequest.mk).seq hkind).seq hname).seq hdescription).seq horganization).seq
      hmetadata).seq htime
  exact hr.fromEntries hn

theorem DetailRequest.within_jsonFields {r : DetailRequest} (h : r.Fits) :
    ∀ f ∈ r.jsonFields, Within 2 f.2 := by
  simp only [jsonFields, List.forall_mem_cons]
  exact ⟨within_str 2 _, within_str 2 _, within_str 2 _, within_str 2 _,
    r.organization.within_toJson.mono (by decide),
    (Metadata.within_toJson h.topicId).mono (by decide), within_int 2 h.lower h.upper, by simp⟩

theorem HistoryRequest.fromEntries_jsonFields {r : HistoryRequest} (h : r.data.Fits) :
    fromEntries fields r.jsonFields = .ok r := by
  have hn : (r.jsonFields.map Prod.fst).Nodup := by simp [jsonFields]
  have he : ∀ {name : String} {j : Json}, (name, j) ∈ r.jsonFields →
      Fields.entry? name r.jsonFields = some j := fun hm => entry?_eq_some hn hm
  have hid : Reads (.required "id" string) r.jsonFields r.id :=
    .required (he (j := .str r.id) (by simp [jsonFields])) rfl
  have hstate : Reads (.required "state" string) r.jsonFields r.state :=
    .required (he (j := .str r.state) (by simp [jsonFields])) rfl
  have hversion : Reads (.required "version" Token.ofJson) r.jsonFields r.version :=
    .required (he (j := .str r.version.text) (by simp [jsonFields])) rfl
  have htime : Reads (.required "last_update" string) r.jsonFields r.lastUpdate :=
    .required (he (j := .str r.lastUpdate) (by simp [jsonFields])) rfl
  have hdata : Reads (.required "data" (ServiceData.ofJson true)) r.jsonFields r.data :=
    .required (he (by simp [jsonFields])) (ServiceData.ofJson_toJson true h)
  have hr : Reads fields r.jsonFields r :=
    ((((hid.map HistoryRequest.mk).seq hstate).seq hversion).seq htime).seq hdata
  exact hr.fromEntries hn

theorem HistoryRequest.within_jsonFields {r : HistoryRequest} (h : r.data.Fits) :
    ∀ f ∈ r.jsonFields, Within 2 f.2 := by
  simp only [jsonFields, List.forall_mem_cons]
  exact ⟨within_str 2 _, within_str 2 _, within_str 2 _, within_str 2 _,
    ServiceData.within_toJson h, by simp⟩

namespace WorkItem

/-- The tag of each variant. Two of them share their fields, so it alone tells them apart. -/
def tag : WorkItem → Tag
  | .review _ => .review
  | .lifecycleDetail _ => .lifecycleDetail
  | .publicationDetail _ => .publicationDetail
  | .history _ => .history
  | .noAction => .noAction

theorem tagged_toJson (w : WorkItem) :
    tagged false "type" "WorkItem" tags w.toJson = .ok (w.tag, .obj w.jsonFields) := by
  have hkind : tagValue false tags (.str w.kind) = .ok w.tag := by
    cases w <;> rfl
  refine tagged_cons hkind ?_
  cases w <;> simp [jsonFields, ReviewRequest.jsonFields, DetailRequest.jsonFields,
    HistoryRequest.jsonFields]

theorem ofJson_toJson {w : WorkItem} (h : w.Fits) : ofJson w.toJson = .ok w := by
  rw [ofJson, tagged_toJson, ok_bind]
  cases w with
  | review r => exact congrArg (·.map review) (ReviewRequest.fromEntries_jsonFields h)
  | lifecycleDetail r =>
    exact congrArg (·.map lifecycleDetail) (DetailRequest.fromEntries_jsonFields h)
  | publicationDetail r =>
    exact congrArg (·.map publicationDetail) (DetailRequest.fromEntries_jsonFields h)
  | history r => exact congrArg (·.map history) (HistoryRequest.fromEntries_jsonFields h)
  | noAction => rfl

theorem within_jsonFields {w : WorkItem} (h : w.Fits) : ∀ f ∈ w.jsonFields, Within 2 f.2 := by
  cases w with
  | review r => exact ReviewRequest.within_jsonFields h
  | lifecycleDetail r => exact DetailRequest.within_jsonFields h
  | publicationDetail r => exact DetailRequest.within_jsonFields h
  | history r => exact HistoryRequest.within_jsonFields h
  | noAction => simp [jsonFields]

theorem within_toJson {w : WorkItem} (h : w.Fits) : Within 3 w.toJson := by
  refine within_obj ?_
  rw [List.forall_mem_cons]
  exact ⟨within_str 2 _, within_jsonFields h⟩

/-- The item that a text is. -/
def ofText? (text : String) : Option WorkItem :=
  (Json.ofText? text).bind fun j => (ofJson j).toOption

theorem ofText?_toText {w : WorkItem} (h : w.Fits) : ofText? w.toJson.toText = some w := by
  have hw := within_toJson h
  unfold ofText?
  rw [Json.ofText?_toText hw.exact (hw.height.trans (by decide)), Option.bind_some,
    ofJson_toJson h]
  rfl

end WorkItem
end ServiceCatalog
