import ServiceCatalog.Proofs.Cache
import ServiceCatalog.Proofs.Time.Elapsed

/-!
When a kept value expires. After a load the clock is moved on, in steps of any size: the next look-up
loads again as soon as the steps add up to the time to live, or up to a second later when the load was
made in a leap second.
-/
namespace ServiceCatalog.Cache.Run

variable {V : Type} {answer : List (Event V) → Except LoadError V} {ttl : Span} {r : Run V} {v : V}

/-- With its clock moved, a run stands on the load that it has just made. -/
theorem standing?_of_loaded (h : (r.get answer).2.past = .loaded r.now (.ok v) :: r.past)
    (now : Instant) : standing? ({ (r.get answer).2 with now } : Run V).past =
      some ⟨v, r.now, r.past.length⟩ := by
  rw [h]
  rfl

theorem young_iff_of_loaded (h : (r.get answer).2.past = .loaded r.now (.ok v) :: r.past)
    (now : Instant) : Young ttl { (r.get answer).2 with now } ↔ now.since r.now < ttl := by
  have hstands := standing?_of_loaded h now
  constructor
  · rintro ⟨load, hload, hage⟩
    cases hstands.symm.trans hload
    exact hage
  · exact fun hage => ⟨_, hstands, hage⟩

theorem Looks.eq_kept {outcome : Except LoadError V} {r' : Run V} {load : Load V}
    (hl : Looks answer ttl r outcome r') (hyoung : r.Young ttl) (hload : standing? r.past = some load) :
    outcome = .ok load.value := by
  cases hl with
  | kept other hother =>
    cases hload.symm.trans hother
    rfl
  | loaded hold | stale hold | failed hold => exact absurd hyoung hold

/-- After a load the next look-up loads again exactly when the clock was moved on by the time to live,
not counting what the difference of its readings leaves out; until then the value is kept. A second is
left out at most, and only if the load was made in a leap second and it is no later in the day now. -/
theorem expires_iff (answer : List (Event V) → Except LoadError V) (ttl : Span) (start : Instant)
    (before : List Call) (ds : List Span) (hds : ∀ d ∈ ds, (0 : Int) ≤ d) :
    let r := Run.after answer before ⟨{ ttl }, start, []⟩
    let first := (r.get answer).2
    ∀ v now, r.now.Valid → first.past = .loaded r.now (.ok v) :: r.past →
      r.now.advance? ds = some now →
      let s : Run V := { first with now }
      let second := s.get answer
      (ttl ≤ ds.sum - r.now.lag now ↔ second.2.past = .loaded now (answer s.past) :: s.past) ∧
      (ds.sum - r.now.lag now < ttl → second.1 = .ok v ∧ second.2.past = s.past) ∧
      (r.now.lag now = 0 ∨ 1000000000 ≤ r.now.nanos ∧ now.secondOfDay ≤ r.now.secondOfDay ∧
        r.now.lag now = .ofSeconds 1) := by
  intro r first v now hvalid hload hnow s second
  have hs : s.Faithful ttl := by
    have hr : r.Faithful ttl := (faithful_new ttl start).after before
    have hfirst : first.Faithful ttl := hr.step .get
    exact ⟨hfirst.ttl, hfirst.slot⟩
  have hlooks : Looks answer ttl s second.1 second.2 := hs.looks
  have howed := hlooks.owed
  have hyoung : s.Young ttl ↔ ds.sum - r.now.lag now < ttl := by
    rw [← Instant.since_of_advance? hvalid hds hnow]
    exact young_iff_of_loaded hload now
  refine ⟨⟨fun hage => ?_, fun hloads => ?_⟩, fun hage => ?_, r.now.lag_cases now⟩
  · exact howed.loads fun hy => absurd (hyoung.mp hy) (Int.not_lt.mpr hage)
  · refine Int.not_lt.mp fun hage => ?_
    have hlength := congrArg List.length (hloads.symm.trans (howed.spared (hyoung.mpr hage)))
    simp at hlength
  · have hy := hyoung.mpr hage
    exact ⟨hlooks.eq_kept hy (standing?_of_loaded hload now), howed.spared hy⟩

/-- Half way through the leap second at the end of 2016. -/
def newYear : Instant := ⟨1483228799, 1500000000⟩

/-- Every load succeeds, with the number of events before it. -/
def counting (past : List (Event Nat)) : Except LoadError Nat := .ok past.length

theorem expires_iff_newYear :
    let r : Run Nat := ⟨{ ttl := .ofSeconds 60 }, newYear, []⟩
    let first := (r.get counting).2
    let steps : List Span := [.ofMillis 400, .ofMillis 600, .ofSeconds 60]
    let now : Instant := ⟨1483228860, 500000000⟩
    r.now.Valid ∧ first.past = .loaded r.now (.ok 0) :: r.past ∧
      r.now.advance? steps = some now ∧ r.now.lag now = .ofSeconds 1 ∧
      (Run.get counting { first with now }).2.past = .loaded now (.ok 1) :: first.past := by
  intro r first steps now
  have hvalid : r.now.Valid := by decide
  have hload : first.past = .loaded r.now (.ok 0) :: r.past := rfl
  have hnow : r.now.advance? steps = some now := by decide +kernel
  have hsteps : ∀ d ∈ steps, (0 : Int) ≤ d := by decide
  exact ⟨hvalid, hload, hnow, by decide,
    (expires_iff counting (.ofSeconds 60) newYear [] steps hsteps 0 now hvalid hload hnow).1.mp
      (by decide)⟩

/-- A minute after a load in the leap second its value is still kept, for all that it should live for a
minute. -/
theorem kept_past_leap_second :
    let r : Run Nat := ⟨{ ttl := .ofSeconds 60 }, newYear, []⟩
    let first := (r.get counting).2
    ∃ now, r.now.Valid ∧ first.past = .loaded r.now (.ok 0) :: r.past ∧
      r.now.advance? [.ofSeconds 60] = some now ∧
      (Run.get counting { first with now }).1 = .ok 0 ∧
      (Run.get counting { first with now }).2.past = first.past :=
  ⟨⟨1483228859, 500000000⟩, by decide, rfl, by decide +kernel, rfl, rfl⟩

end ServiceCatalog.Cache.Run
