import ServiceCatalog.App.Setup

/-!
Which settings can be run. In settings that are accepted every number is positive. Each timeout can
then be waited for, and a time to live can be used up to the greatest that a span holds; the greater
ones are accepted too, and nothing can be set up with them.
-/
namespace ServiceCatalog

namespace Settings

variable {s s' : Settings} {ttl ttl' : Span}

theorem nonPositive?_eq_none_iff :
    s.nonPositive? = none ↔ ∀ p : PositiveSetting, 0 < p.value s := by
  constructor
  · intro h p
    have hp : p ∈ PositiveSetting.all := by cases p <;> decide
    simpa [Nat.pos_iff_ne_zero] using List.find?_eq_none.mp h p hp
  · intro h
    refine List.find?_eq_none.mpr fun p _ => ?_
    simpa [Nat.pos_iff_ne_zero] using h p

theorem maxSigned_eq : maxSigned = 9223372036854775807 := by decide

theorem maxSpanSeconds_eq : maxSpanSeconds = 9223372036854775 := by decide

/-- The seconds are cut to 63 bits, which leaves those alone that a span can hold. -/
theorem topicsTtl?_eq_some_iff : s.topicsTtl? = some ttl ↔
    s.topics.ttlSeconds ≤ 9223372036854775 ∧ ttl = .ofSeconds s.topics.ttlSeconds := by
  unfold topicsTtl?
  rw [maxSpanSeconds_eq, maxSigned_eq]
  by_cases hn : s.topics.ttlSeconds ≤ 9223372036854775
  · have hcut : min s.topics.ttlSeconds 9223372036854775807 = s.topics.ttlSeconds := by omega
    simp [hcut, hn, eq_comm]
  · have hcut : ¬ min s.topics.ttlSeconds 9223372036854775807 ≤ 9223372036854775 := by omega
    simp [hcut, hn]

theorem topicsTtl?_eq_none_iff :
    s.topicsTtl? = none ↔ 9223372036854775 < s.topics.ttlSeconds := by
  rw [Option.eq_none_iff_forall_not_mem]
  simp [Option.mem_def, topicsTtl?_eq_some_iff]

theorem topicsTtl?_pos (h : s.topicsTtl? = some ttl) (hs : s.nonPositive? = none) :
    (0 : Int) < ttl := by
  obtain ⟨-, rfl⟩ := topicsTtl?_eq_some_iff.mp h
  have hpos : 0 < s.topics.ttlSeconds := nonPositive?_eq_none_iff.mp hs .ttlSeconds
  have hpos' : (0 : Int) < s.topics.ttlSeconds := by exact_mod_cast hpos
  exact Int.mul_pos hpos' (by decide)

theorem topicsTtl?_mono (h : s.topicsTtl? = some ttl) (h' : s'.topicsTtl? = some ttl')
    (hle : s.topics.ttlSeconds ≤ s'.topics.ttlSeconds) : (ttl : Int) ≤ ttl' := by
  obtain ⟨-, rfl⟩ := topicsTtl?_eq_some_iff.mp h
  obtain ⟨-, rfl⟩ := topicsTtl?_eq_some_iff.mp h'
  have hle' : (s.topics.ttlSeconds : Int) ≤ s'.topics.ttlSeconds := by exact_mod_cast hle
  exact Int.mul_le_mul_of_nonneg_right hle' (by decide)

end Settings

namespace World

variable {s : Settings} {now : Instant} {mint : Nat → Token} {sink : SinkState} {files : FileTree}

theorem openShelf_error {D : Type} {machine : String} {e : SetupError}
    (h : openShelf (D := D) s.store machine files = .error e) :
    s.store.storage = .filesystem ∧ ∃ path, e = .store path := by
  unfold openShelf at h
  split at h
  · cases h
  · next hs =>
    dsimp only at h
    split at h
    · cases h
    · cases h
      exact ⟨hs, _, rfl⟩

/-- With a usable time to live only the directory of a store can be what fails. -/
theorem openAll_of_topicsTtl? {ttl : Span} (h : s.topicsTtl? = some ttl) :
    (∃ w, (openAll s now mint sink files).1 = .ok w ∧ w.topicCache = ⟨ttl, none⟩) ∨
      s.store.storage = .filesystem ∧
        ∃ path, (openAll s now mint sink files).1 = .error (.store path) := by
  unfold openAll
  split
  · next e hl =>
    obtain ⟨hs, path, rfl⟩ := openShelf_error hl
    exact .inr ⟨hs, path, rfl⟩
  · split
    · next e hp =>
      obtain ⟨hs, path, rfl⟩ := openShelf_error hp
      exact .inr ⟨hs, path, rfl⟩
    · rw [h]
      exact .inl ⟨_, rfl, rfl⟩

theorem openAll_ne_ok (h : s.topicsTtl? = none) (w : World) :
    (openAll s now mint sink files).1 ≠ .ok w := by
  unfold openAll
  split
  · simp
  · split
    · simp
    · simp [h]

end World

namespace Settings

/-- Milliseconds as whole seconds and the nanoseconds beyond them. -/
def waitParts (millis : Nat) : Nat × Nat := (millis / 1000, millis % 1000 * 1000000)

/-- The parts of a wait fit 64 and 32 bits, and nothing is lost. -/
def Waitable (millis : Nat) : Prop :=
  0 < millis ∧ (waitParts millis).1 < 1 <<< 64 ∧ (waitParts millis).2 < 1000000000 ∧
    (waitParts millis).1 * 1000000000 + (waitParts millis).2 = millis * 1000000

theorem waitable {millis : Nat} (hpos : 0 < millis) (hfits : millis < 1 <<< 64) :
    Waitable millis := by
  have hsplit := Nat.div_add_mod millis 1000
  have hrest : millis % 1000 < 1000 := Nat.mod_lt _ (by decide)
  refine ⟨hpos, Nat.lt_of_le_of_lt (Nat.div_le_self _ _) hfits, ?_, ?_⟩
  · unfold waitParts
    omega
  · unfold waitParts
    omega

/-- Settings that are accepted can be run exactly when their time to live is at most
9223372036854775 seconds: the timeouts never stand in the way, and with more seconds than that nothing
is ever set up. -/
theorem runs_iff_within_span (s : Settings) (hs : s.nonPositive? = none)
    (hbits : ∀ p : PositiveSetting, p.value s < 1 <<< 64) :
    Waitable s.timeouts.fetch ∧ Waitable s.timeouts.save ∧ Waitable s.sink.publishTimeout ∧
    (s.topics.ttlSeconds ≤ 9223372036854775 → ∃ ttl, s.topicsTtl? = some ttl ∧
      ttl = .ofSeconds s.topics.ttlSeconds ∧ (0 : Int) < ttl ∧
      (∀ (s' : Settings) (ttl' : Span), s.topics.ttlSeconds ≤ s'.topics.ttlSeconds →
        s'.topicsTtl? = some ttl' → (ttl : Int) ≤ ttl') ∧
      ∀ now mint sink files,
        (∃ w, (World.openAll s now mint sink files).1 = .ok w ∧ w.topicCache = ⟨ttl, none⟩) ∨
          s.store.storage = .filesystem ∧
            ∃ path, (World.openAll s now mint sink files).1 = .error (.store path)) ∧
    (9223372036854775 < s.topics.ttlSeconds → s.topicsTtl? = none ∧
      ∀ now mint sink files w, (World.openAll s now mint sink files).1 ≠ .ok w) := by
  have hpos := nonPositive?_eq_none_iff.mp hs
  refine ⟨waitable (hpos .fetchTimeout) (hbits .fetchTimeout),
    waitable (hpos .saveTimeout) (hbits .saveTimeout),
    waitable (hpos .publishTimeout) (hbits .publishTimeout), fun hle => ?_, fun hlt => ?_⟩
  · have httl := topicsTtl?_eq_some_iff.mpr ⟨hle, rfl⟩
    exact ⟨_, httl, rfl, topicsTtl?_pos httl hs, fun _ _ hle' httl' => topicsTtl?_mono httl httl' hle',
      fun _ _ _ _ => World.openAll_of_topicsTtl? httl⟩
  · have hnone := topicsTtl?_eq_none_iff.mpr hlt
    exact ⟨hnone, fun _ _ _ _ => World.openAll_ne_ok hnone⟩

/-- The greatest timeouts that can be set, and the greatest time to live that can be used. -/
def utmost : Settings where
  store := { storage := .memory, fetchTimeout := 18446744073709551615,
             saveTimeout := 18446744073709551615 }
  sink := { publishTimeout := 18446744073709551615 }
  topics := { ttlSeconds := 9223372036854775 }

theorem runs_iff_within_span_utmost : utmost.nonPositive? = none ∧
    (∀ p : PositiveSetting, p.value utmost < 1 <<< 64) ∧ Waitable utmost.timeouts.fetch ∧
    ∀ now mint sink files, ∃ w, (World.openAll utmost now mint sink files).1 = .ok w ∧
      w.topicCache.ttl = 9223372036854775000000000 := by
  have hs : utmost.nonPositive? = none := by decide
  have hbits : ∀ p : PositiveSetting, p.value utmost < 1 <<< 64 := by
    intro p
    cases p <;> decide
  obtain ⟨hfetch, -, -, hwithin, -⟩ := runs_iff_within_span utmost hs hbits
  obtain ⟨ttl, -, rfl, -, -, hopens⟩ := hwithin (by decide)
  refine ⟨hs, hbits, hfetch, fun now mint sink files => ?_⟩
  rcases hopens now mint sink files with ⟨w, hw, hcache⟩ | ⟨hstorage, -⟩
  · exact ⟨w, hw, by rw [hcache]; decide⟩
  · exact absurd hstorage (by decide)

/-- One second more is accepted as well, and no application comes of it. -/
def pastUtmost : Settings where
  topics := { ttlSeconds := 9223372036854776 }

theorem accepted_without_span : pastUtmost.nonPositive? = none ∧
    (∀ p : PositiveSetting, p.value pastUtmost < 1 <<< 64) ∧ pastUtmost.topicsTtl? = none ∧
    ∀ now mint sink files w, (World.openAll pastUtmost now mint sink files).1 ≠ .ok w := by
  have hnone : pastUtmost.topicsTtl? = none := by decide
  refine ⟨by decide, fun p => ?_, hnone, fun _ _ _ _ => World.openAll_ne_ok hnone⟩
  cases p <;> decide

end Settings
end ServiceCatalog
