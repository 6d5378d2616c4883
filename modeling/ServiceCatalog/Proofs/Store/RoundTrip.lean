import ServiceCatalog.Proofs.Files.Contents
import ServiceCatalog.Proofs.Json.Outline
import ServiceCatalog.Proofs.Service.RoundTrip
import ServiceCatalog.Store.Directory
import ServiceCatalog.Workflow.Item

/-! What a record file holds is read back as it was written. -/
namespace ServiceCatalog

open Decode Json

/-- A document that the text of its record gives back. -/
structure Document.Readable {D : Type} [Document D] (d : D) : Prop where
  covers : Covers (outline D) (toJson d)
  within : Within (maxDepth - 1) (toJson d)
  decoded : ofJson (toJson d) = .ok d

namespace Stored

variable {D : Type} [Document D]

@[simp]
theorem ofContents?_text (s : String) : ofContents? (.text s) = ofText? (D := D) s := by
  rw [ofContents?, Contents.markedText_text]

theorem ofJson_toJson {r : Stored D} (hd : Document.ofJson (Document.toJson r.document) = .ok r.document)
    (ht : r.modifiedAt.Valid) : ofJson r.toJson = .ok r := by
  let entries : List (String × Json) :=
    [("version", .str r.version.text), ("modified_at", .str r.modifiedAt.text),
      ("document", Document.toJson r.document)]
  have hversion : Reads (.required "version" Token.ofJson) entries r.version :=
    .required (j := .str r.version.text) (by simp [entries, Fields.entry?]) rfl
  have htime : Reads (.required "modified_at" Decode.instant) entries r.modifiedAt :=
    .required (by simp [entries, Fields.entry?]) (instant_text ht)
  have hdocument : Reads (.required "document" Document.ofJson) entries r.document :=
    .required (by simp [entries, Fields.entry?]) hd
  have hr : Reads fields entries r := ((hversion.map Stored.mk).seq htime).seq hdocument
  exact hr.fromEntries (by simp [entries])

theorem exact_toJson {r : Stored D} (h : (Document.toJson r.document).Exact) : r.toJson.Exact :=
  exactFields_iff.mpr (by simp [Exact, h])

/-- The record is one container around its document. -/
theorem height_toJson (r : Stored D) :
    r.toJson.height = (Document.toJson r.document).height + 1 := by
  simp [toJson, height, heightFields]

theorem covers_toJson {r : Stored D}
    (h : Covers (Document.outline D) (Document.toJson r.document)) :
    Covers (outline D) r.toJson := by
  simp [outline, toJson, Covers, CoversFields, Outline.member?, h]

/-- A record is read back unless its document nests as deep as a whole text may. -/
theorem ofText?_toText_eq {r : Stored D}
    (hc : Covers (Document.outline D) (Document.toJson r.document))
    (he : (Document.toJson r.document).Exact)
    (hd : Document.ofJson (Document.toJson r.document) = .ok r.document) (ht : r.modifiedAt.Valid) :
    ofText? r.toText =
      if (Document.toJson r.document).height < maxDepth then some r else none := by
  have hread : ofTextIn? (outline D) r.toText =
      if (Document.toJson r.document).height < maxDepth then some r.toJson else none := by
    rw [toText, ofTextIn?_toPrettyText (covers_toJson hc) (exact_toJson he), height_toJson]
    rfl
  unfold ofText?
  rw [hread]
  split
  · simp [ofJson_toJson hd ht]
  · rfl

theorem ofText?_toText {r : Stored D} (hd : Document.Readable r.document)
    (ht : r.modifiedAt.Valid) : ofText? r.toText = some r := by
  have hheight : (Document.toJson r.document).height < maxDepth :=
    hd.within.height.trans_lt (by decide)
  rw [ofText?_toText_eq hd.covers hd.within.exact hd.decoded ht, if_pos hheight]

/-- The token of a record is read back even where its document is not. -/
theorem version_of_ofText? {r kept : Stored D} (h : ofText? r.toText = some kept) :
    kept.version = r.version := by
  rw [ofText?, outline, toText, toJson] at h
  obtain ⟨j, hj, hkept⟩ := Option.bind_eq_some_iff.mp h
  obtain ⟨more, rfl⟩ := ofTextIn?_text rfl hj
  cases hd : ofJson (D := D) (.obj (("version", .str r.version.text) :: more)) with
  | error e =>
    rw [hd] at hkept
    cases hkept
  | ok q =>
    rw [hd] at hkept
    cases hkept
    obtain ⟨-, -, hentries⟩ := bind_eq_ok.mp hd
    obtain ⟨withTime, document, htime, -, rfl⟩ := Fields.ofEntries_seq_iff.mp hentries
    obtain ⟨withToken, time, htoken, -, rfl⟩ := Fields.ofEntries_seq_iff.mp htime
    obtain ⟨token, hread, rfl⟩ := Fields.ofEntries_map_iff.mp htoken
    have hfound : Decode.Fields.entry? "version" (("version", .str r.version.text) :: more) =
        some (.str r.version.text) := by simp [Decode.Fields.entry?]
    simp only [Decode.Fields.required, hfound] at hread
    cases hread
    rfl

end Stored

/-- Every value is listed, and no two have one name. -/
class LawfulNamed (S : Type) [Named S] : Prop where
  mem_all : ∀ s : S, s ∈ (Named.all : List S)
  name_injective : Function.Injective (name : S → String)

namespace Item

variable {S : Type} [Named S]

theorem splitMark_append {others : List (String × Json)} {j : Json} {mark : Mark S}
    (hm : markOfJson j = .ok mark) (hn : "fsm" ∉ others.map Prod.fst) :
    splitMark none (others ++ [("fsm", j)]) = .ok (some mark, others) := by
  induction others with
  | nil => simp [splitMark, hm]
  | cons e others ih =>
    rw [List.map_cons, List.mem_cons, not_or] at hn
    obtain ⟨k, i⟩ := e
    rw [List.cons_append, splitMark, if_neg (Ne.symm hn.1), ih hn.2, ok_bind]
    rfl

variable [LawfulNamed S]

theorem named_stateNames (s : S) : named stateNames (name s) = .ok s := by
  refine named_eq_ok (List.mem_map.mpr ⟨s, LawfulNamed.mem_all s, rfl⟩) ?_
  intro v hv he
  obtain ⟨t, -, rfl⟩ := List.mem_map.mp hv
  exact LawfulNamed.name_injective he

theorem markOfJson_markJson (i : Item S) :
    markOfJson i.markJson = .ok (⟨i.state, i.lastTransition⟩ : Mark S) := by
  let entries : List (String × Option Json) :=
    [("state", some (.str (name i.state))), ("lastTransition", optionalText i.lastTransition)]
  have hn : (entries.map Prod.fst).Nodup := by simp [entries]
  have hstate : Reads (.required "state" (variant false stateNames)) (given entries) i.state :=
    .required (entry?_given (o := some (.str (name i.state))) hn (by simp [entries]))
      (named_stateNames i.state)
  have hlast : Reads (.optional "lastTransition" string) (given entries) i.lastTransition :=
    reads_optionalText (entry?_given hn (by simp [entries]))
  have hr : Reads markFields (given entries) ⟨i.state, i.lastTransition⟩ :=
    (hstate.map Mark.mk).seq hlast
  exact hr.fromEntries (hn.sublist (given_names_sublist entries))

omit [LawfulNamed S] in
theorem toJson_eq (i : Item S) :
    i.toJson = .obj (given i.service.jsonFields ++ [("fsm", i.markJson)]) := by
  simp [toJson, objSome, given]

theorem ofJson_toJson {i : Item S} (h : i.service.Fits) : ofJson i.toJson = .ok i := by
  have hn : "fsm" ∉ (given i.service.jsonFields).map Prod.fst := by
    intro hm
    have := (given_names_sublist _).subset hm
    simp [Service.jsonFields] at this
  rw [toJson_eq, ofJson, splitMark_append (markOfJson_markJson i) hn, ok_bind]
  show (do
    let service ← fromEntries (Service.fields true) (given i.service.jsonFields)
    return (⟨service, i.state, i.lastTransition⟩ : Item S)) = .ok i
  rw [Service.fromEntries_jsonFields true h, ok_bind]
  rfl

omit [LawfulNamed S] in
theorem covers_toJson (i : Item S) : Covers (Document.outline (Item S)) i.toJson := by
  have hmark : Covers (.record false [("state", .whole), ("lastTransition", .whole)]) i.markJson := by
    refine coversFields_iff.mpr fun f hf => ?_
    have hname := (given_names_sublist _).subset (List.mem_map_of_mem (f := Prod.fst) hf)
    simp only [List.map_cons, List.map_nil, List.mem_cons, List.not_mem_nil, or_false] at hname
    rcases hname with h | h <;> exact ⟨.whole, by simp [Outline.member?, h], covers_whole _⟩
  rw [toJson_eq]
  refine coversFields_iff.mpr fun f hf => ?_
  rcases List.mem_append.mp hf with hf | hf
  · have hname := (given_names_sublist _).subset (List.mem_map_of_mem (f := Prod.fst) hf)
    simp only [Service.jsonFields, List.map_cons, List.map_nil, List.mem_cons, List.not_mem_nil,
      or_false] at hname
    rcases hname with h | h | h <;> exact ⟨.whole, by simp [Outline.member?, h], covers_whole _⟩
  · obtain rfl := List.mem_singleton.mp hf
    exact ⟨_, by simp [Outline.member?], hmark⟩

omit [LawfulNamed S] in
theorem within_markJson (i : Item S) : Within 2 i.markJson := by
  refine (within_objSome ?_).mono (show 1 ≤ 2 by decide)
  simp only [List.forall_mem_cons]
  exact ⟨by simp [within_str], within_optionalText 0 _, by simp⟩

theorem readable {i : Item S} (h : i.service.Fits) : Document.Readable i where
  covers := covers_toJson i
  within := by
    refine (within_objSome (n := 2) ?_).mono (by decide)
    intro f hf j hj
    rcases List.mem_append.mp hf with hf | hf
    · exact Service.within_jsonFields h f hf j hj
    · obtain rfl := List.mem_singleton.mp hf
      obtain rfl := Option.some.inj hj
      exact within_markJson i
  decoded := ofJson_toJson h

end Item
end ServiceCatalog
