import ServiceCatalog.Decode.Record
import ServiceCatalog.Proofs.Except

/-! What is known of every value that a decoder comes to, whatever the JSON. -/
namespace ServiceCatalog.Decode

variable {α β : Type} {P : α → Prop} {Q : β → Prop}

theorem nullable_eq_ok {decode : Json → Decoded α} {j : Json} {o : Option α}
    (h : nullable decode j = .ok o) : ∀ a ∈ o, ∃ i, decode i = .ok a := by
  unfold nullable at h
  split at h
  · cases h
    simp
  · obtain ⟨a, ha, rfl⟩ := map_eq_ok.mp h
    intro b hb
    obtain rfl := Option.some.inj hb
    exact ⟨_, ha⟩

theorem lt_of_natBelow {bound n : Nat} {wanted : String} {j : Json}
    (h : natBelow bound wanted j = .ok n) : n < bound := by
  unfold natBelow at h
  split at h
  · split at h
    · next hlt =>
      cases h
      exact hlt
    · cases h
  · cases h
  · cases h

/-- The fields come to values with a property only, from an object and from an array. -/
structure Ensures (fields : Fields α) (P : α → Prop) : Prop where
  ofEntries : ∀ {entries a}, fields.ofEntries entries = .ok a → P a
  ofItems : ∀ {short taken js a n rest}, fields.ofItems short taken js = .ok (a, n, rest) → P a

namespace Ensures

theorem anything (fields : Fields α) : Ensures fields fun _ => True :=
  ⟨fun _ => trivial, fun _ => trivial⟩

theorem required {name : String} {decode : Json → Decoded α}
    (h : ∀ {j a}, decode j = .ok a → P a) : Ensures (.required name decode) P where
  ofEntries he := by
    unfold Fields.required at he
    dsimp only at he
    split at he
    · exact h he
    · cases he
  ofItems hi := by
    unfold Fields.required at hi
    dsimp only at hi
    split at hi
    · cases hi
    · obtain ⟨a, ha, heq⟩ := map_eq_ok.mp hi
      cases heq
      exact h ha

theorem withDefault {name : String} {default : α} {decode : Json → Decoded α} (hd : P default)
    (h : ∀ {j a}, decode j = .ok a → P a) : Ensures (.withDefault name default decode) P where
  ofEntries he := by
    unfold Fields.withDefault at he
    dsimp only at he
    split at he
    · exact h he
    · cases he
      exact hd
  ofItems hi := by
    unfold Fields.withDefault at hi
    dsimp only at hi
    split at hi
    · cases hi
      exact hd
    · obtain ⟨a, ha, heq⟩ := map_eq_ok.mp hi
      cases heq
      exact h ha

theorem optional {name : String} {decode : Json → Decoded α}
    (h : ∀ {j a}, decode j = .ok a → P a) :
    Ensures (.optional name decode) fun o => ∀ a ∈ o, P a := by
  refine withDefault (by simp) fun hj a ha => ?_
  obtain ⟨i, hi⟩ := nullable_eq_ok hj a ha
  exact h hi

/-- The last field first: what it ensures is known to the fields before it. -/
theorem seq {f : Fields (α → β)} {x : Fields α} (hx : Ensures x P)
    (hf : Ensures f fun g => ∀ a, P a → Q (g a)) : Ensures (f <*> x) Q where
  ofEntries {entries b} he := by
    change (f.ofEntries entries >>= fun g => x.ofEntries entries >>= fun a => pure (g a)) = _ at he
    obtain ⟨g, hg, he⟩ := bind_eq_ok.mp he
    obtain ⟨a, ha, he⟩ := bind_eq_ok.mp he
    cases he
    exact hf.ofEntries hg a (hx.ofEntries ha)
  ofItems {short taken js b n rest} hi := by
    change (f.ofItems short taken js >>= fun g => x.ofItems short g.2.1 g.2.2 >>= fun a =>
      pure (g.1 a.1, a.2.1, a.2.2)) = _ at hi
    obtain ⟨⟨g, i, js⟩, hg, hi⟩ := bind_eq_ok.mp hi
    obtain ⟨⟨a, k, js⟩, ha, hi⟩ := bind_eq_ok.mp hi
    cases hi
    exact hf.ofItems hg a (hx.ofItems ha)

theorem map {f : α → β} {x : Fields α} (hx : Ensures x P) (hf : ∀ a, P a → Q (f a)) :
    Ensures (f <$> x) Q := by
  refine seq (f := .const f) hx ⟨fun he => ?_, fun hi => ?_⟩
  · cases he
    exact hf
  · cases hi
    exact hf

theorem fromEntries {fields : Fields α} (h : Ensures fields P) {entries : List (String × Json)}
    {a : α} (he : fromEntries fields entries = .ok a) : P a := by
  obtain ⟨-, -, ha⟩ := bind_eq_ok.mp he
  exact h.ofEntries ha

theorem record {fields : Fields α} (h : Ensures fields P) {held : Bool} {typeName : String}
    {j : Json} {a : α} (hj : record held typeName fields j = .ok a) : P a := by
  unfold Decode.record at hj
  split at hj
  · exact h.fromEntries hj
  · obtain ⟨⟨b, n, rest⟩, hb, hj⟩ := bind_eq_ok.mp hj
    dsimp only at hj
    split at hj
    · cases hj
      exact h.ofItems hb
    · split at hj <;> cases hj
  · cases hj

end Ensures
end ServiceCatalog.Decode
