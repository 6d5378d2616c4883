import Mathlib.Data.String.Basic
import ServiceCatalog.Proofs.Decode.Reads
import ServiceCatalog.Proofs.Json.RoundTrip

/-!
The order of names in an object does not matter: what is decoded from a value as it was written is
decoded from the value with its names in order.
-/
namespace ServiceCatalog

namespace Json

variable {name k : String} {v : Json} {es fs : List (String × Json)}

theorem sortedItems_eq (items : List Json) : sortedItems items = items.map sorted := by
  induction items with
  | nil => rfl
  | cons j items ih => rw [sortedItems, ih, List.map_cons]

theorem mem_insertField {e : String × Json} (h : e ∈ insertField name v fs) :
    e = (name, v) ∨ e ∈ fs := by
  induction fs with
  | nil => exact .inl (List.mem_singleton.mp h)
  | cons f fs ih =>
    rw [insertField] at h
    split at h
    · exact List.mem_cons.mp h
    · split at h
      · exact (List.mem_cons.mp h).imp_right (List.mem_cons_of_mem f)
      · rcases List.mem_cons.mp h with rfl | h
        · exact .inr List.mem_cons_self
        · exact (ih h).imp_right (List.mem_cons_of_mem f)

theorem mem_sortedFields {e : String × Json} (h : e ∈ sortedFields es fs) :
    (∃ f ∈ es, e = (f.1, f.2.sorted)) ∨ e ∈ fs := by
  induction es generalizing fs with
  | nil => exact .inr h
  | cons f es ih =>
    rcases ih h with ⟨g, hg, rfl⟩ | h
    · exact .inl ⟨g, List.mem_cons_of_mem f hg, rfl⟩
    · exact (mem_insertField h).imp_left fun he => ⟨f, List.mem_cons_self, he⟩

theorem insertField_ne_nil (name : String) (v : Json) (fs : List (String × Json)) :
    insertField name v fs ≠ [] := by
  cases fs with
  | nil => simp [insertField]
  | cons f fs =>
    rw [insertField]
    split
    · simp
    · split <;> simp

theorem sortedFields_ne_nil (h : fs ≠ []) : sortedFields es fs ≠ [] := by
  induction es generalizing fs with
  | nil => exact h
  | cons e es ih => exact ih (insertField_ne_nil e.1 e.2.sorted fs)

/-- The names stand in order, so that none is repeated. -/
def Ordered (fs : List (String × Json)) : Prop := (fs.map Prod.fst).Pairwise (· < ·)

theorem Ordered.nodup (h : Ordered fs) : (fs.map Prod.fst).Nodup := h.imp fun hlt => hlt.ne

theorem ordered_insertField (h : Ordered fs) : Ordered (insertField name v fs) := by
  induction fs with
  | nil => simp [Ordered, insertField]
  | cons f fs ih =>
    obtain ⟨hfirst, hrest⟩ := List.pairwise_cons.mp h
    rw [insertField]
    split
    · next hlt =>
      refine List.pairwise_cons.mpr ⟨fun n hn => ?_, h⟩
      rcases List.mem_cons.mp hn with rfl | hn
      · exact hlt
      · exact hlt.trans (hfirst n hn)
    · next hnlt =>
      split
      · next heq => exact heq ▸ h
      · next hne =>
        refine List.pairwise_cons.mpr ⟨fun n hn => ?_, ih hrest⟩
        obtain ⟨e, he, rfl⟩ := List.mem_map.mp hn
        rcases mem_insertField he with rfl | he
        · exact lt_of_le_of_ne (not_lt.mp hnlt) (Ne.symm hne)
        · exact hfirst _ (List.mem_map_of_mem he)

theorem ordered_sortedFields (h : Ordered fs) : Ordered (sortedFields es fs) := by
  induction es generalizing fs with
  | nil => exact h
  | cons f es ih => exact ih (ordered_insertField h)

theorem Within.sorted {n : Nat} {j : Json} (h : Within n j) : Within n j.sorted := by
  induction n generalizing j with
  | zero =>
    cases j with
    | null | bool | num | str => exact h
    | arr items => exact absurd h.height (Nat.not_succ_le_zero _)
    | obj fields => exact absurd h.height (Nat.not_succ_le_zero _)
  | succ n ih =>
    cases j with
    | null | bool | num | str => exact h
    | arr items =>
      rw [Json.sorted, sortedItems_eq]
      refine within_arr fun j hj => ?_
      obtain ⟨i, hi, rfl⟩ := List.mem_map.mp hj
      exact ih ⟨exactItems_iff.mp h.exact i hi,
        heightItems_le_iff.mp (Nat.le_of_succ_le_succ h.height) i hi⟩
    | obj fields =>
      refine within_obj fun e he => ?_
      rcases mem_sortedFields he with ⟨f, hf, rfl⟩ | he
      · exact ih ⟨exactFields_iff.mp h.exact f hf,
          heightFields_le_iff.mp (Nat.le_of_succ_le_succ h.height) f hf⟩
      · cases he

end Json

namespace Decode

open Json

variable {α β : Type} {name k : String} {v : Json} {es fs : List (String × Json)}
  {wants : List (String × (Json → Decoded Unit))} {seen : List String}

section Lookup

theorem entry?_cons (k : String) (j : Json) (es : List (String × Json)) :
    Fields.entry? name ((k, j) :: es) = if k = name then some j else Fields.entry? name es := by
  by_cases h : k = name <;> simp [Fields.entry?, h]

theorem entry?_insertField : Fields.entry? name (insertField k v fs) =
    if k = name then some v else Fields.entry? name fs := by
  induction fs with
  | nil => exact entry?_cons k v []
  | cons f fs ih =>
    obtain ⟨l, w⟩ := f
    rw [insertField]
    split
    · exact entry?_cons k v _
    · split
      · next heq =>
        subst heq
        rw [entry?_cons, entry?_cons]
        split <;> rfl
      · next hne =>
        rw [entry?_cons, entry?_cons, ih]
        by_cases hl : l = name
        · have hk : k ≠ name := fun hk => hne (hk.trans hl.symm)
          rw [if_pos hl, if_neg hk, if_pos hl]
        · rw [if_neg hl, if_neg hl]

theorem entry?_of_count (h : (es.map Prod.fst).count name = 0) : Fields.entry? name es = none :=
  entry?_eq_none (List.count_eq_zero.mp h)

theorem entry?_sortedFields (h : (es.map Prod.fst).count name ≤ 1) :
    Fields.entry? name (sortedFields es fs) =
      (( Fields.entry? name es).map Json.sorted).or ( Fields.entry? name fs) := by
  induction es generalizing fs with
  | nil => rfl
  | cons e es ih =>
    obtain ⟨k, j⟩ := e
    rw [List.map_cons, List.count_cons] at h
    rw [sortedFields, ih (by omega), entry?_insertField, entry?_cons]
    by_cases hk : k = name
    · have hzero : (es.map Prod.fst).count name = 0 := by simpa [hk] using h
      rw [entry?_of_count hzero, if_pos hk, if_pos hk]
      rfl
    · rw [if_neg hk, if_neg hk]

theorem mem_of_entry_eq_some {j : Json} (h : Fields.entry? name es = some j) : (name, j) ∈ es := by
  obtain ⟨⟨k, i⟩, hfind, rfl⟩ := Option.map_eq_some_iff.mp h
  obtain rfl : k = name := by simpa using List.find?_some hfind
  exact List.mem_of_find?_eq_some hfind

end Lookup

section Visit

/-- The entries that are not refused: those of known names pass, and no known name is repeated. -/
theorem of_visit (h : visit wants seen es = .ok ()) :
    (∀ e ∈ es, ∀ w, wants.find? (·.1 == e.1) = some w → w.2 e.2 = .ok ()) ∧
      ∀ n ∈ wants.map Prod.fst, (es.map Prod.fst).count n + (if n ∈ seen then 1 else 0) ≤ 1 := by
  induction es generalizing seen with
  | nil => exact ⟨by simp, fun n _ => by simp; split <;> omega⟩
  | cons e es ih =>
    obtain ⟨k, j⟩ := e
    rw [visit] at h
    split at h
    · next hnone =>
      obtain ⟨hpass, hcount⟩ := ih h
      refine ⟨fun e he w hw => ?_, fun n hn => ?_⟩
      · rcases List.mem_cons.mp he with rfl | he
        · rw [hnone] at hw
          cases hw
        · exact hpass e he w hw
      · have hk : k ≠ n := by
          rintro rfl
          obtain ⟨w, hw, hwk⟩ := List.mem_map.mp hn
          exact List.find?_eq_none.mp hnone w hw (by simpa using hwk)
        simpa [hk] using hcount n hn
    · next w hw =>
      split at h
      · cases h
      · next hk =>
        obtain ⟨u, hu, h⟩ := bind_eq_ok.mp h
        obtain ⟨hpass, hcount⟩ := ih h
        refine ⟨fun e he x hx => ?_, fun n hn => ?_⟩
        · rcases List.mem_cons.mp he with rfl | he
          · rw [hw] at hx
            obtain rfl := Option.some.inj hx
            exact hu
          · exact hpass e he x hx
        · have := hcount n hn
          by_cases hkn : k = n
          · subst hkn
            simp at this
            simp [hk, this]
          · simpa [hkn, Ne.symm hkn] using this

end Visit

/-- The same items or the same entries, in order; of repeated names nothing is said. -/
inductive Rearranges : Json → Json → Prop
  | arr (items : List Json) : Rearranges (.arr items) (.arr (items.map Json.sorted))
  | obj {es fs : List (String × Json)} : (fs.map Prod.fst).Nodup →
      (∀ name, (es.map Prod.fst).count name ≤ 1 →
        Fields.entry? name fs = ( Fields.entry? name es).map Json.sorted) →
      Rearranges (.obj es) (.obj fs)

theorem rearranges_arr (items : List Json) : Rearranges (.arr items) (Json.sorted (.arr items)) := by
  rw [Json.sorted, sortedItems_eq]
  exact .arr items

theorem rearranges_obj (es : List (String × Json)) : Rearranges (.obj es) (Json.sorted (.obj es)) :=
  have hnil : Ordered [] := List.Pairwise.nil
  .obj (ordered_sortedFields hnil).nodup fun name h => by
    rw [entry?_sortedFields h]
    exact Option.or_none

/-- What is decoded is decoded just so from the value with its names in order. -/
def Steady (decode : Json → Decoded α) : Prop :=
  ∀ j a, decode j = .ok a → decode j.sorted = .ok a

/-- The same of the declared fields of a record. -/
structure Fields.Steady (fields : Fields α) : Prop where
  tests : ∀ w ∈ fields.wants, Decode.Steady w.2
  ofEntries : ∀ {es fs a}, (∀ name ∈ fields.wants.map Prod.fst,
      Fields.entry? name fs = ( Fields.entry? name es).map Json.sorted) →
    fields.ofEntries es = .ok a → fields.ofEntries fs = .ok a
  ofItems : ∀ {short taken js a n rest}, fields.ofItems short taken js = .ok (a, n, rest) →
    fields.ofItems short taken (js.map Json.sorted) = .ok (a, n, rest.map Json.sorted)

theorem isEmptyObject_of_ne (h : es ≠ []) : isEmptyObject (.obj es) = false := by
  cases es with
  | nil => exact absurd rfl h
  | cons e es => rfl

namespace Steady

variable {decode : Json → Decoded α}

/-- A decoder that accepts no arrays and no objects. -/
theorem scalar (h : ∀ j a, decode j = .ok a → j.sorted = j) : Steady decode := by
  intro j a hj
  rw [h j a hj, hj]

theorem nullable (h : Steady decode) : Steady (nullable decode) := by
  intro j o hj
  cases j with
  | null | bool | num | str => exact hj
  | arr items =>
    obtain ⟨a, ha, rfl⟩ := map_eq_ok.mp hj
    exact map_eq_ok.mpr ⟨a, h _ a ha, rfl⟩
  | obj fields =>
    obtain ⟨a, ha, rfl⟩ := map_eq_ok.mp hj
    exact map_eq_ok.mpr ⟨a, h _ a ha, rfl⟩

theorem items (h : Steady decode) {js : List Json} {as : List α} (hj : items decode js = .ok as) :
    Decode.items decode (js.map Json.sorted) = .ok as := by
  induction js generalizing as with
  | nil => exact hj
  | cons j js ih =>
    obtain ⟨a, ha, hj⟩ := bind_eq_ok.mp hj
    obtain ⟨rest, hrest, hj⟩ := bind_eq_ok.mp hj
    cases hj
    rw [List.map_cons, Decode.items, h j a ha, ok_bind, ih hrest]
    rfl

theorem list (h : Steady decode) : Steady (list decode) := by
  intro j as hj
  cases j with
  | null | bool | num | str | obj => cases hj
  | arr items =>
    rw [Json.sorted, sortedItems_eq]
    exact h.items hj

theorem variant (held : Bool) (names : List (String × α)) : Steady (variant held names) := by
  intro j a hj
  cases j with
  | null | bool | num | str => exact hj
  | arr items => cases hj
  | obj fields =>
    cases fields with
    | nil => cases hj
    | cons e rest =>
      cases rest with
      | cons f rest => cases hj
      | nil =>
        obtain ⟨name, i⟩ := e
        have hnull : i.sorted.isNull = i.isNull := by cases i <;> rfl
        have hempty : isEmptyObject i.sorted = isEmptyObject i := by
          cases i with
          | null | bool | num | str | arr => rfl
          | obj fields =>
            cases fields with
            | nil => rfl
            | cons e rest =>
              have hne : sortedFields rest (insertField e.1 e.2.sorted []) ≠ [] :=
                sortedFields_ne_nil (insertField_ne_nil _ _ _)
              exact isEmptyObject_of_ne hne
        obtain ⟨b, hb, hj⟩ := bind_eq_ok.mp hj
        show (named names name >>= fun v =>
          if i.sorted.isNull || (held && isEmptyObject i.sorted) then pure v
          else wrongType "unit" i.sorted) = _
        rw [hb, ok_bind, hnull, hempty]
        split at hj
        · rwa [if_pos ‹_›]
        · cases hj

end Steady

theorem steady_string : Steady string := .scalar fun j a h => by cases j <;> first | rfl | cases h

theorem steady_bool : Steady bool := .scalar fun j a h => by cases j <;> first | rfl | cases h

theorem steady_instant : Steady instant := .scalar fun j a h => by
  cases j <;> first | rfl | cases h

theorem steady_natBelow (bound : Nat) (wanted : String) : Steady (natBelow bound wanted) :=
  .scalar fun j a h => by cases j <;> first | rfl | cases h

theorem steady_tagValue (held : Bool) (names : List (String × α)) : Steady (tagValue held names) :=
  .scalar fun j a h => by cases j <;> first | rfl | cases h

namespace Fields.Steady

variable {decode : Json → Decoded α}

theorem test (h : Decode.Steady decode) : Decode.Steady (test decode) := by
  intro j u hj
  obtain ⟨a, ha, -⟩ := map_eq_ok.mp hj
  exact map_eq_ok.mpr ⟨a, h j a ha, rfl⟩

theorem required (name : String) (h : Decode.Steady decode) : (required name decode).Steady where
  tests w hw := by
    obtain rfl := List.mem_singleton.mp hw
    exact test h
  ofEntries {es fs a} hf he := by
    have hname := hf name List.mem_cons_self
    unfold Fields.required at he ⊢
    dsimp only at he ⊢
    rw [hname]
    cases hj : entry? name es with
    | none =>
      rw [hj] at he
      cases he
    | some j =>
      rw [hj] at he
      exact h j a he
  ofItems {short taken js a n rest} hi := by
    cases js with
    | nil => cases hi
    | cons j js =>
      obtain ⟨b, hb, heq⟩ := map_eq_ok.mp hi
      cases heq
      exact map_eq_ok.mpr ⟨_, h j _ hb, rfl⟩

theorem withDefault (name : String) (default : α) (h : Decode.Steady decode) :
    (withDefault name default decode).Steady where
  tests := (required name h).tests
  ofEntries {es fs a} hf he := by
    have hname := hf name List.mem_cons_self
    unfold Fields.withDefault at he ⊢
    dsimp only at he ⊢
    rw [hname]
    cases hj : entry? name es with
    | none =>
      rw [hj] at he
      exact he
    | some j =>
      rw [hj] at he
      exact h j a he
  ofItems {short taken js a n rest} hi := by
    cases js with
    | nil =>
      cases hi
      rfl
    | cons j js =>
      obtain ⟨b, hb, heq⟩ := map_eq_ok.mp hi
      cases heq
      exact map_eq_ok.mpr ⟨_, h j _ hb, rfl⟩

theorem optional (name : String) (h : Decode.Steady decode) : (optional name decode).Steady :=
  withDefault name none h.nullable

theorem seq {f : Fields (α → β)} {x : Fields α} (hf : f.Steady) (hx : x.Steady) :
    (f <*> x).Steady where
  tests w hw := (List.mem_append.mp hw).elim (hf.tests w) (hx.tests w)
  ofEntries {es fs b} hn he := by
    have hnames : ∀ {names : List String}, names ⊆ (f.wants ++ x.wants).map Prod.fst →
        ∀ name ∈ names, entry? name fs = ( entry? name es).map Json.sorted :=
      fun hsub name hname => hn name (hsub hname)
    change (f.ofEntries es >>= fun g => x.ofEntries es >>= fun a => pure (g a)) = _ at he
    change (f.ofEntries fs >>= fun g => x.ofEntries fs >>= fun a => pure (g a)) = _
    obtain ⟨g, hg, he⟩ := bind_eq_ok.mp he
    obtain ⟨a, ha, he⟩ := bind_eq_ok.mp he
    rw [hf.ofEntries (hnames (by simp)) hg, ok_bind, hx.ofEntries (hnames (by simp)) ha, ok_bind]
    exact he
  ofItems {short taken js b n rest} hi := by
    change (f.ofItems short taken js >>= fun g => x.ofItems short g.2.1 g.2.2 >>= fun a =>
      pure (g.1 a.1, a.2.1, a.2.2)) = _ at hi
    change (f.ofItems short taken (js.map Json.sorted) >>= fun g =>
      x.ofItems short g.2.1 g.2.2 >>= fun a => pure (g.1 a.1, a.2.1, a.2.2)) = _
    obtain ⟨⟨g, i, js⟩, hg, hi⟩ := bind_eq_ok.mp hi
    obtain ⟨⟨a, k, js⟩, ha, hi⟩ := bind_eq_ok.mp hi
    cases hi
    rw [hf.ofItems hg, ok_bind, hx.ofItems ha]
    rfl

theorem map (f : α → β) {x : Fields α} (hx : x.Steady) : (f <$> x).Steady := by
  refine seq (f := .const f) ⟨by simp [Fields.const], fun _ he => he, fun hi => ?_⟩ hx
  cases hi
  rfl

theorem fromEntries {fields : Fields α} (h : fields.Steady) {a : α}
    (hr : Rearranges (.obj es) (.obj fs)) (he : fromEntries fields es = .ok a) :
    Decode.fromEntries fields fs = .ok a := by
  obtain ⟨u, hvisit, he⟩ := bind_eq_ok.mp he
  obtain ⟨hpass, hcount⟩ := of_visit hvisit
  cases hr with
  | obj hn hentry =>
    have hone : ∀ name ∈ fields.wants.map Prod.fst, (es.map Prod.fst).count name ≤ 1 :=
      fun name hname => Nat.le_of_add_right_le (hcount name hname)
    have hvisit' : visit fields.wants [] fs = .ok () := by
      refine visit_eq_ok hn (by simp) fun e hmem w hw => ?_
      have hwmem := List.mem_of_find?_eq_some hw
      have hwname : w.1 = e.1 := by simpa using List.find?_some hw
      have hlook := hentry e.1 (hone e.1 (hwname ▸ List.mem_map_of_mem hwmem))
      rw [entry?_eq_some hn hmem] at hlook
      obtain ⟨j, hj, hsorted⟩ := Option.map_eq_some_iff.mp hlook.symm
      rw [← hsorted]
      exact h.tests w hwmem j () (hpass (e.1, j) (mem_of_entry_eq_some hj) w hw)
    rw [Decode.fromEntries, hvisit', ok_bind]
    exact h.ofEntries (fun name hname => hentry name (hone name hname)) he

theorem record {fields : Fields α} (h : fields.Steady) (held : Bool) (typeName : String) {a : α}
    {j j' : Json} (hr : Rearranges j j') (hj : record held typeName fields j = .ok a) :
    Decode.record held typeName fields j' = .ok a := by
  cases hr with
  | obj hn hentry => exact h.fromEntries (.obj hn hentry) hj
  | arr items =>
    obtain ⟨⟨b, n, rest⟩, hb, hj⟩ := bind_eq_ok.mp hj
    show (fields.ofItems _ 0 (items.map Json.sorted) >>= _) = _
    rw [h.ofItems hb, ok_bind]
    rw [List.length_map]
    cases rest with
    | nil => exact hj
    | cons i rest => cases held <;> cases hj

theorem ofJson {fields : Fields α} (h : fields.Steady) (held : Bool) (typeName : String) :
    Decode.Steady (Decode.record held typeName fields) := by
  intro j a hj
  cases j with
  | null | bool | num | str => cases hj
  | arr items => exact h.record held typeName (rearranges_arr items) hj
  | obj es => exact h.record held typeName (rearranges_obj es) hj

end Fields.Steady

section Split

/-- The entries of all other names. -/
def without (tag : String) (es : List (String × Json)) : List (String × Json) :=
  es.filter fun e => e.1 ≠ tag

theorem without_cons_self (tag : String) (j : Json) (es : List (String × Json)) :
    without tag ((tag, j) :: es) = without tag es :=
  List.filter_cons_of_neg (by simp)

theorem without_cons_of_ne {tag k : String} (h : k ≠ tag) (j : Json) (es : List (String × Json)) :
    without tag ((k, j) :: es) = (k, j) :: without tag es :=
  List.filter_cons_of_pos (by simpa using h)

theorem entry?_without {tag : String} (h : name ≠ tag) (es : List (String × Json)) :
    Fields.entry? name (without tag es) = Fields.entry? name es := by
  induction es with
  | nil => rfl
  | cons e es ih =>
    obtain ⟨k, j⟩ := e
    by_cases hk : k = tag
    · rw [hk, without_cons_self, entry?_cons, if_neg (Ne.symm h), ih]
    · rw [without_cons_of_ne hk, entry?_cons, entry?_cons, ih]

theorem entry?_without_self (tag : String) (es : List (String × Json)) :
    Fields.entry? tag (without tag es) = none :=
  entry?_eq_none (by simp [without])

theorem count_without {tag : String} (h : name ≠ tag) (es : List (String × Json)) :
    ((without tag es).map Prod.fst).count name = (es.map Prod.fst).count name := by
  induction es with
  | nil => rfl
  | cons e es ih =>
    obtain ⟨k, j⟩ := e
    by_cases hk : k = tag
    · rw [hk, without_cons_self, ih, List.map_cons, List.count_cons_of_ne (Ne.symm h)]
    · rw [without_cons_of_ne hk, List.map_cons, List.map_cons, List.count_cons, List.count_cons, ih]

theorem Rearranges.without (h : Rearranges (.obj es) (.obj fs)) (tag : String) :
    Rearranges (.obj (without tag es)) (.obj (without tag fs)) := by
  cases h with
  | obj hn hentry =>
    refine .obj (hn.sublist (List.filter_sublist.map _)) fun name hcount => ?_
    by_cases hname : name = tag
    · rw [hname, entry?_without_self, entry?_without_self]
      rfl
    · rw [count_without hname] at hcount
      rw [entry?_without hname, entry?_without hname, hentry name hcount]

/-- What stands under a name that is read off the entries: nothing, or one value that is read. -/
inductive Tagged (read : Json → Decoded α) (tag : String) (es : List (String × Json)) :
    Option α → Prop
  | absent : (es.map Prod.fst).count tag = 0 → Tagged read tag es none
  | present {j a} : (es.map Prod.fst).count tag = 1 → Fields.entry? tag es = some j →
      read j = .ok a → Tagged read tag es (some a)

variable {read : Json → Decoded α} {tag : String} {o : Option α}

theorem Tagged.cons_of_ne (h : k ≠ tag) {j : Json} :
    Tagged read tag ((k, j) :: es) o ↔ Tagged read tag es o := by
  have hcount : (((k, j) :: es).map Prod.fst).count tag = (es.map Prod.fst).count tag := by
    rw [List.map_cons, List.count_cons_of_ne h]
  have hentry : Fields.entry? tag ((k, j) :: es) = Fields.entry? tag es := by
    rw [entry?_cons, if_neg h]
  constructor
  · rintro (hc | ⟨hc, he, ha⟩)
    · exact .absent (hcount ▸ hc)
    · exact .present (hcount ▸ hc) (hentry ▸ he) ha
  · rintro (hc | ⟨hc, he, ha⟩)
    · exact .absent (hcount ▸ hc)
    · exact .present (hcount ▸ hc) (hentry ▸ he) ha

theorem Tagged.cons_self {j : Json} {a : α} (h : Tagged read tag es (none : Option α))
    (ha : read j = .ok a) : Tagged read tag ((tag, j) :: es) (some a) := by
  cases h with
  | absent hc =>
    refine .present ?_ ?_ ha
    · rw [List.map_cons, List.count_cons_self, hc]
    · rw [entry?_cons, if_pos rfl]

theorem Tagged.of_cons_self {j : Json} (h : Tagged read tag ((tag, j) :: es) o) :
    Tagged read tag es none ∧ ∃ a, read j = .ok a ∧ o = some a := by
  rcases h with hc | ⟨hc, he, ha⟩
  · rw [List.map_cons, List.count_cons_self] at hc
    cases hc
  · rw [List.map_cons, List.count_cons_self] at hc
    rw [entry?_cons, if_pos rfl] at he
    obtain rfl := Option.some.inj he
    exact ⟨.absent (Nat.succ.inj hc), _, ha, rfl⟩

theorem Tagged.rearranged (hread : Steady read) (h : Rearranges (.obj es) (.obj fs))
    (ht : Tagged read tag es o) : Tagged read tag fs o := by
  cases h with
  | obj hn hentry =>
    have hone : (fs.map Prod.fst).count tag ≤ 1 := List.nodup_iff_count_le_one.mp hn tag
    cases ht with
    | absent hc =>
      refine .absent (List.count_eq_zero.mpr fun hmem => ?_)
      obtain ⟨⟨k, i⟩, hi, rfl⟩ := List.mem_map.mp hmem
      have hlook := hentry k (hc ▸ Nat.zero_le 1)
      rw [entry?_of_count hc, entry?_eq_some hn hi] at hlook
      cases hlook
    | @present j a hc he ha =>
      have hlook := hentry tag hc.le
      rw [he] at hlook
      have hmem : tag ∈ fs.map Prod.fst := List.mem_map_of_mem (mem_of_entry_eq_some hlook)
      exact .present (Nat.le_antisymm hone (List.count_pos_iff.mpr hmem)) hlook (hread j a ha)

theorem splitTag_eq_ok {held : Bool} {names : List (String × α)}
    {others : List (String × Json)} :
    splitTag held tag names es = .ok (o, others) ↔
      Tagged (tagValue held names) tag es o ∧ others = without tag es := by
  induction es generalizing o others with
  | nil =>
    constructor
    · intro h
      cases h
      exact ⟨.absent rfl, rfl⟩
    · rintro ⟨h, rfl⟩
      cases h with
      | absent => rfl
      | present hc => cases hc
  | cons e es ih =>
    obtain ⟨k, j⟩ := e
    rw [splitTag]
    by_cases hk : k = tag
    · subst hk
      rw [if_pos rfl, without_cons_self]
      constructor
      · intro h
        obtain ⟨a, ha, h⟩ := bind_eq_ok.mp h
        obtain ⟨⟨again, rest⟩, hrest, h⟩ := bind_eq_ok.mp h
        cases again with
        | some b => cases h
        | none =>
          cases h
          obtain ⟨ht, rfl⟩ := ih.mp hrest
          exact ⟨ht.cons_self ha, rfl⟩
      · rintro ⟨ht, rfl⟩
        obtain ⟨hnone, a, ha, rfl⟩ := ht.of_cons_self
        rw [ha, ok_bind, ih.mpr ⟨hnone, rfl⟩]
        rfl
    · rw [if_neg hk, without_cons_of_ne hk, Tagged.cons_of_ne hk]
      constructor
      · intro h
        obtain ⟨⟨v, rest⟩, hrest, h⟩ := bind_eq_ok.mp h
        cases h
        obtain ⟨ht, rfl⟩ := ih.mp hrest
        exact ⟨ht, rfl⟩
      · rintro ⟨ht, rfl⟩
        rw [ih.mpr ⟨ht, rfl⟩]
        rfl

/-- The tag is found wherever it stands, and the rest is the same. -/
theorem tagged_sorted {held : Bool} {typeName : String} {names : List (String × α)} {j rest : Json}
    {a : α} (h : tagged held tag typeName names j = .ok (a, rest)) :
    ∃ rest', tagged held tag typeName names j.sorted = .ok (a, rest') ∧ Rearranges rest rest' := by
  cases j with
  | null | bool | num | str => cases h
  | arr items =>
    cases items with
    | nil => cases h
    | cons j items =>
      obtain ⟨b, hb, h⟩ := bind_eq_ok.mp h
      cases h
      refine ⟨.arr (items.map Json.sorted), ?_, .arr items⟩
      rw [Json.sorted, sortedItems_eq, List.map_cons, tagged, steady_tagValue held names j _ hb]
      rfl
  | obj es =>
    obtain ⟨⟨o, others⟩, hsplit, h⟩ := bind_eq_ok.mp h
    obtain ⟨ht, rfl⟩ := splitTag_eq_ok.mp hsplit
    cases o with
    | none => cases h
    | some b =>
      cases h
      have hr := rearranges_obj es
      refine ⟨.obj (without tag (sortedFields es [])), ?_, hr.without tag⟩
      have hsplit' := splitTag_eq_ok.mpr ⟨ht.rearranged (steady_tagValue held names) hr, rfl⟩
      rw [Json.sorted, tagged, hsplit']
      rfl

end Split

end Decode
end ServiceCatalog
