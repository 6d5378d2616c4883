import ServiceCatalog.Proofs.Decode.Ensures
import ServiceCatalog.Proofs.Store.RoundTrip

/-! Whatever is decoded fits: its numbers are words and its times are times. -/
namespace ServiceCatalog

open Decode

theorem Instant.valid_of_assemble {d : Date} {hour minute second nanos : Nat} {offset : Int}
    {t : Instant} (h : assemble d hour minute second nanos offset = .ok t) : t.Valid := by
  unfold assemble at h
  split at h
  · cases h
  · split at h
    · cases h
    · dsimp only at h
      split at h
      · next hof =>
        cases h
        exact valid_of_of? hof
      · cases h

theorem Instant.valid_of_read {cs : List Char} {t : Instant} (h : read cs = .ok t) : t.Valid := by
  unfold read at h
  obtain ⟨⟨year, _⟩, -, h⟩ := bind_eq_ok.mp h
  obtain ⟨_, -, h⟩ := bind_eq_ok.mp h
  obtain ⟨⟨month, _⟩, -, h⟩ := bind_eq_ok.mp h
  obtain ⟨_, -, h⟩ := bind_eq_ok.mp h
  obtain ⟨⟨day, _⟩, -, h⟩ := bind_eq_ok.mp h
  obtain ⟨_, -, h⟩ := bind_eq_ok.mp h
  obtain ⟨⟨hour, _⟩, -, h⟩ := bind_eq_ok.mp h
  obtain ⟨_, -, h⟩ := bind_eq_ok.mp h
  obtain ⟨⟨minute, _⟩, -, h⟩ := bind_eq_ok.mp h
  obtain ⟨_, -, h⟩ := bind_eq_ok.mp h
  obtain ⟨⟨second, _⟩, -, h⟩ := bind_eq_ok.mp h
  obtain ⟨⟨nanos, _⟩, -, h⟩ := bind_eq_ok.mp h
  obtain ⟨⟨offset, rest⟩, -, h⟩ := bind_eq_ok.mp h
  dsimp only at h
  split at h
  · cases h
  · exact valid_of_assemble h

theorem Decode.valid_of_instant {j : Json} {t : Instant} (h : instant j = .ok t) : t.Valid := by
  unfold instant at h
  split at h
  · next s =>
    unfold Instant.ofText at h
    cases hr : Instant.read s.toList with
    | error e => simp [hr, Except.mapError] at h
    | ok u =>
      rw [hr] at h
      cases h
      exact Instant.valid_of_read hr
  · cases h

theorem Metadata.topicId_lt {held : Bool} {j : Json} {m : Metadata} (h : ofJson held j = .ok m) :
    ∀ n ∈ m.topicId, n < 2 ^ 32 := by
  have hfields : Ensures (fields held) fun m => ∀ n ∈ m.topicId, n < 2 ^ 32 := by
    refine .seq (.anything _) (.seq (.anything _) (.seq (.anything _) (.seq (.anything _)
      (.seq (.anything _) (.map (.optional lt_of_natBelow) ?_)))))
    intro topicId ht _ _ _ _ _ _ _ _ _ _
    exact ht
  exact hfields.record h

theorem ServiceData.fits_of_ofJson {held : Bool} {j : Json} {d : ServiceData}
    (h : ofJson held j = .ok d) : d.Fits := by
  have hfields : Ensures (fields held) ServiceData.Fits := by
    refine .seq (.withDefault (by decide) lt_of_natBelow) (.seq (.anything _) (.seq (.anything _)
      (.seq (.withDefault (by simp) Metadata.topicId_lt) (.seq (.anything _)
        (.seq (.anything _) (.map (.anything _) ?_))))))
    intro _ _ _ _ _ _ m hm _ _ _ _ amount ha
    exact ⟨hm, ha⟩
  exact hfields.record h

theorem Review.fits_of_ofJson {held : Bool} {j : Json} {r : Review} (h : ofJson held j = .ok r) :
    r.Fits := by
  have happroved : Ensures approvedFields Review.Fits :=
    .map (.optional valid_of_instant) fun _ hdate => hdate
  have hrejected : Ensures rejectedFields Review.Fits := .map (.anything _) fun _ _ => trivial
  obtain ⟨⟨outcome, rest⟩, -, h⟩ := bind_eq_ok.mp h
  cases outcome with
  | approved => exact happroved.record h
  | rejected => exact hrejected.record h

theorem Service.ensures_fields (held : Bool) : Ensures (fields held) Service.Fits := by
  refine .seq (.optional Review.fits_of_ofJson) (.seq (.required ServiceData.fits_of_ofJson)
    (.map (.anything _) ?_))
  intro _ _ data hdata review hreview
  exact ⟨hdata, hreview⟩

theorem Item.fits_of_ofJson {S : Type} [Named S] {j : Json} {i : Item S} (h : ofJson j = .ok i) :
    i.service.Fits := by
  unfold ofJson at h
  split at h
  · obtain ⟨⟨mark, others⟩, -, h⟩ := bind_eq_ok.mp h
    cases mark with
    | none => cases h
    | some mark =>
      obtain ⟨service, hservice, h⟩ := bind_eq_ok.mp h
      cases h
      exact (Service.ensures_fields true).fromEntries hservice
  · cases h

/-- A record file gives documents that fit only. -/
theorem Stored.fits_of_ofText? {S : Type} [Named S] {text : String} {r : Stored (Item S)}
    (h : ofText? text = some r) : r.document.service.Fits := by
  have hfields : Ensures fields fun r : Stored (Item S) => r.document.service.Fits := by
    refine .seq (.required Item.fits_of_ofJson) (.seq (.anything _) (.map (.anything _) ?_))
    intro _ _ _ _ document hd
    exact hd
  obtain ⟨j, -, h⟩ := Option.bind_eq_some_iff.mp h
  split at h
  · next hj =>
    cases h
    exact hfields.record hj
  · cases h

end ServiceCatalog
