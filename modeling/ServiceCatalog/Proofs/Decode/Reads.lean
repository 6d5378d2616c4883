import Mathlib.Data.List.Nodup
import ServiceCatalog.Decode.Record
import ServiceCatalog.Proofs.Except

/-! What the declared fields of a record make of the entries of an object without repeated names. -/
namespace ServiceCatalog.Decode

variable {α β : Type}

theorem entry?_eq_some {entries : List (String × Json)} {name : String} {j : Json}
    (hn : (entries.map Prod.fst).Nodup) (h : (name, j) ∈ entries) :
    Fields.entry? name entries = some j := by
  induction entries with
  | nil => simp at h
  | cons e entries ih =>
    rw [List.map_cons, List.nodup_cons] at hn
    rcases List.mem_cons.mp h with rfl | h
    · simp [Fields.entry?]
    · have hne : e.1 ≠ name := by
        intro he
        exact hn.1 (List.mem_map.mpr ⟨_, h, he.symm⟩)
      simpa [Fields.entry?, hne] using ih hn.2 h

theorem entry?_eq_none {entries : List (String × Json)} {name : String}
    (h : name ∉ entries.map Prod.fst) : Fields.entry? name entries = none := by
  simp only [Fields.entry?, Option.map_eq_none_iff, List.find?_eq_none, beq_iff_eq]
  rintro e he rfl
  exact h (List.mem_map_of_mem he)

/-- The entries of an object whose fields may be left out. -/
def given (fields : List (String × Option Json)) : List (String × Json) :=
  fields.filterMap fun f => f.2.map (f.1, ·)

theorem given_names_sublist (fields : List (String × Option Json)) :
    ((given fields).map Prod.fst).Sublist (fields.map Prod.fst) := by
  induction fields with
  | nil => simp [given]
  | cons f fields ih =>
    obtain ⟨name, o⟩ := f
    cases o with
    | none => exact ih.cons _
    | some j => exact ih.cons_cons _

theorem entry?_given {fields : List (String × Option Json)} {name : String} {o : Option Json}
    (hn : (fields.map Prod.fst).Nodup) (h : (name, o) ∈ fields) :
    Fields.entry? name (given fields) = o := by
  cases o with
  | some j =>
    refine entry?_eq_some (hn.sublist (given_names_sublist fields)) ?_
    exact List.mem_filterMap.mpr ⟨_, h, rfl⟩
  | none =>
    refine entry?_eq_none fun hm => ?_
    obtain ⟨⟨k, j⟩, hk, rfl⟩ := List.mem_map.mp hm
    obtain ⟨⟨l, o⟩, hl, ho⟩ := List.mem_filterMap.mp hk
    simp only [Option.map_eq_some_iff, Prod.mk.injEq] at ho
    obtain ⟨i, hi, rfl, -⟩ := ho
    subst hi
    have := List.inj_on_of_nodup_map hn h hl rfl
    simp at this

/-- Entries that pass and do not repeat a name are visited to the end. -/
theorem visit_eq_ok {wants : List (String × (Json → Decoded Unit))} {seen : List String}
    {entries : List (String × Json)} (hn : (entries.map Prod.fst).Nodup)
    (hs : ∀ e ∈ entries, e.1 ∉ seen)
    (hw : ∀ e ∈ entries, ∀ w, wants.find? (·.1 == e.1) = some w → w.2 e.2 = .ok ()) :
    visit wants seen entries = .ok () := by
  induction entries generalizing seen with
  | nil => rfl
  | cons e entries ih =>
    obtain ⟨name, j⟩ := e
    rw [List.map_cons, List.nodup_cons] at hn
    have hrest := fun e he => hw e (List.mem_cons_of_mem _ he)
    unfold visit
    split
    · exact ih hn.2 (fun e he => hs e (List.mem_cons_of_mem _ he)) hrest
    · next w hfind =>
      rw [if_neg (hs _ List.mem_cons_self), hw _ List.mem_cons_self w hfind, ok_bind]
      refine ih hn.2 (fun e he => ?_) hrest
      rw [List.mem_cons, not_or]
      refine ⟨?_, hs e (List.mem_cons_of_mem _ he)⟩
      intro heq
      have hmem := List.mem_map_of_mem (f := Prod.fst) he
      rw [heq] at hmem
      exact hn.1 hmem

theorem Fields.ofEntries_seq_iff {f : Fields (α → β)} {x : Fields α} {entries : List (String × Json)}
    {b : β} : (f <*> x).ofEntries entries = .ok b ↔
      ∃ g a, f.ofEntries entries = .ok g ∧ x.ofEntries entries = .ok a ∧ g a = b := by
  change (f.ofEntries entries >>= fun g => x.ofEntries entries >>= fun a => pure (g a)) = _ ↔ _
  simp only [bind_eq_ok, pure_eq_ok, Except.ok.injEq, exists_and_left]

theorem Fields.ofEntries_map_iff {f : α → β} {x : Fields α} {entries : List (String × Json)} {b : β} :
    (f <$> x).ofEntries entries = .ok b ↔ ∃ a, x.ofEntries entries = .ok a ∧ f a = b := by
  change (Except.ok f >>= fun g => x.ofEntries entries >>= fun a => pure (g a)) = _ ↔ _
  simp only [ok_bind, bind_eq_ok, pure_eq_ok, Except.ok.injEq]

/-- The fields come to a value, and no entry is refused on the way. -/
structure Reads (fields : Fields α) (entries : List (String × Json)) (a : α) : Prop where
  value : fields.ofEntries entries = .ok a
  wanted : ∀ w ∈ fields.wants, ∀ j, Fields.entry? w.1 entries = some j → w.2 j = .ok ()

namespace Reads

variable {entries : List (String × Json)} {name : String} {decode : Json → Decoded α}

theorem seq {f : Fields (α → β)} {x : Fields α} {g : α → β} {a : α} (hf : Reads f entries g)
    (hx : Reads x entries a) : Reads (f <*> x) entries (g a) where
  value := by
    show (do let g ← f.ofEntries entries; return g (← x.ofEntries entries)) = _
    rw [hf.value, hx.value]
    rfl
  wanted w hw := by
    rcases List.mem_append.mp (show w ∈ f.wants ++ x.wants from hw) with hw | hw
    · exact hf.wanted w hw
    · exact hx.wanted w hw

theorem map (f : α → β) {x : Fields α} {a : α} (hx : Reads x entries a) :
    Reads (f <$> x) entries (f a) where
  value := by
    show (do let g ← (Except.ok f : Decoded (α → β)); return g (← x.ofEntries entries)) = _
    rw [hx.value]
    rfl
  wanted w hw := hx.wanted w hw

theorem required {j : Json} {a : α} (h : Fields.entry? name entries = some j)
    (hd : decode j = .ok a) : Reads (.required name decode) entries a where
  value := by simp [Fields.required, h, hd]
  wanted w hw i hi := by
    obtain rfl := List.mem_singleton.mp (show w ∈ [(name, Fields.test decode)] from hw)
    obtain rfl := Option.some.inj (h.symm.trans hi)
    simp [Fields.test, hd]

/-- A field that is there is read whatever its default. -/
theorem present {j : Json} {a default : α} (h : Fields.entry? name entries = some j)
    (hd : decode j = .ok a) : Reads (.withDefault name default decode) entries a where
  value := by simp [Fields.withDefault, h, hd]
  wanted := (required h hd).wanted

theorem absent {default : α} (h : Fields.entry? name entries = none) :
    Reads (.withDefault name default decode) entries default where
  value := by simp [Fields.withDefault, h]
  wanted w hw j hj := by
    obtain rfl := List.mem_singleton.mp (show w ∈ [(name, Fields.test decode)] from hw)
    simp [h] at hj

theorem optional {o : Option α} (encode : α → Json)
    (h : Fields.entry? name entries = o.map encode) (hd : ∀ a ∈ o, decode (encode a) = .ok a)
    (hn : ∀ a, encode a ≠ .null) : Reads (.optional name decode) entries o := by
  cases o with
  | none => exact absent h
  | some a =>
    refine present h ?_
    unfold nullable
    split
    · next he => exact absurd he (hn a)
    · rw [hd a rfl, map_ok]

theorem fromEntries {fields : Fields α} {a : α} (h : Reads fields entries a)
    (hn : (entries.map Prod.fst).Nodup) : fromEntries fields entries = .ok a := by
  have hv : visit fields.wants [] entries = .ok () := by
    refine visit_eq_ok hn (by simp) fun e he w hfind => ?_
    have hname : w.1 = e.1 := by simpa using List.find?_some hfind
    exact h.wanted w (List.mem_of_find?_eq_some hfind) e.2 (hname ▸ entry?_eq_some hn he)
  rw [Decode.fromEntries, hv, ok_bind, h.value]

end Reads

/-- A name that stands for one value only. -/
theorem named_eq_ok {names : List (String × α)} {name : String} {a : α}
    (h : (name, a) ∈ names) (hu : ∀ v ∈ names, v.1 = name → v.2 = a) :
    named names name = .ok a := by
  unfold named
  split
  · next v hv =>
    rw [hu v (List.mem_of_find?_eq_some hv) (by simpa using List.find?_some hv)]
  · next hv => simpa using List.find?_eq_none.mp hv _ h

theorem items_map {encode : α → Json} {decode : Json → Decoded α} (as : List α)
    (h : ∀ a ∈ as, decode (encode a) = .ok a) : items decode (as.map encode) = .ok as := by
  induction as with
  | nil => rfl
  | cons a as ih =>
    have ht := ih fun b hb => h b (List.mem_cons_of_mem a hb)
    rw [List.map_cons, items, h a (by simp), ok_bind, ht]
    rfl

end ServiceCatalog.Decode
