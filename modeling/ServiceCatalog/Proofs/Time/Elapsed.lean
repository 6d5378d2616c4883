import Mathlib.Algebra.Ring.Int.Defs
import Mathlib.Tactic.SplitIfs
import ServiceCatalog.Time.Instant

/-!
Time that passes on a clock. To move a clock on in steps is to move it on once by their sum. Between
two readings lies that sum, unless the first was taken in a leap second and the last shows no later
time of day: then the difference is one second short of it.
-/
namespace ServiceCatalog.Instant

variable {t u v now : Instant} {d e : Int} {ds : List Int}

/-- After the span `d` the clock that showed `t` shows `u`: still the same leap second, or a time that
counts from the second the leap second extends. -/
inductive Passes (t : Instant) (d : Int) (u : Instant) : Prop
  | within (hleap : 1000000000 ≤ t.nanos) (hs : u.seconds = t.seconds)
    (hn : (u.nanos : Int) = t.nanos + d) (hlt : u.nanos < 2000000000)
  | beyond (hleap : 1000000000 ≤ t.nanos → 2000000000 ≤ t.nanos + d) (hn : u.nanos < 1000000000)
    (h : u.seconds * 1000000000 + u.nanos = t.seconds * 1000000000 + t.nanos % 1000000000 + d)

theorem of?_eq_some_iff {s : Int} {n : Nat} : of? s n = some u ↔ u = ⟨s, n⟩ ∧ u.Valid := by
  unfold of?
  split
  · next h =>
    constructor
    · intro hu
      cases hu
      exact ⟨rfl, h⟩
    · rintro ⟨rfl, -⟩
      rfl
  · next h =>
    constructor
    · intro hu
      cases hu
    · rintro ⟨rfl, hu⟩
      exact absurd hu h

theorem add?_eq (t : Instant) (d : Int) : t.add? d = t.addParts (Int.tdiv d billion)
    (Int.tmod d billion) (t.leaveLeap (Int.tdiv d billion) (Int.tmod d billion)) := rfl

theorem add?_of_within (hd : 0 ≤ d) (hleap : 1000000000 ≤ t.nanos)
    (h : t.nanos + d < 2000000000) : t.add? d = of? t.seconds (t.nanos + d).toNat := by
  have hb : billion = 1000000000 := rfl
  have hwhole : Int.tdiv d billion = 0 := by
    rw [Int.tdiv_eq_ediv_of_nonneg hd, hb]
    omega
  have hrest : Int.tmod d billion = d := by
    rw [Int.tmod_eq_emod_of_nonneg hd, hb]
    omega
  have hstays : t.leaveLeap 0 d = none := by
    simp only [leaveLeap]
    rw [if_neg (by omega), if_neg (by omega), if_neg (by omega)]
  rw [add?_eq, hwhole, hrest, hstays, addParts]

theorem carry_eq {s n : Int} (h : 0 ≤ n) (hn : n < 2000000000) :
    carry s n = of? (s + n / 1000000000) (n % 1000000000).toNat := by
  have hb : billion = 1000000000 := rfl
  rw [carry, if_neg (by omega)]
  by_cases hcarry : billion ≤ n
  · obtain ⟨hdiv, hmod⟩ : n / 1000000000 = 1 ∧ n % 1000000000 = n - billion := by omega
    rw [if_pos hcarry, hdiv, hmod]
  · obtain ⟨hdiv, hmod⟩ : n / 1000000000 = 0 ∧ n % 1000000000 = n := by omega
    rw [if_neg hcarry, hdiv, hmod, Int.add_zero]

theorem add?_of_beyond (hd : 0 ≤ d) (ht : t.nanos < 2000000000)
    (hleap : 1000000000 ≤ t.nanos → 2000000000 ≤ t.nanos + d) :
    t.add? d = of? (t.seconds + (t.nanos % 1000000000 + d) / 1000000000)
      ((t.nanos % 1000000000 + d) % 1000000000).toNat := by
  have hb : billion = 1000000000 := rfl
  have hleaves : t.leaveLeap (d / billion) (d % billion) =
      some (t.seconds, (t.nanos : Int) % 1000000000) := by
    simp only [leaveLeap, hb]
    split_ifs
    · rw [Int.emod_eq_of_lt (by omega) (by omega)]
    · congr 2
      omega
    · omega
    · omega
  have hs : t.seconds + d / 1000000000 + ((t.nanos : Int) % 1000000000 + d % 1000000000) / 1000000000 =
      t.seconds + (t.nanos % 1000000000 + d) / 1000000000 := by omega
  have hn : ((t.nanos : Int) % 1000000000 + d % 1000000000) % 1000000000 =
      (t.nanos % 1000000000 + d) % 1000000000 := by omega
  rw [add?_eq, Int.tdiv_eq_ediv_of_nonneg hd, Int.tmod_eq_emod_of_nonneg hd, hleaves, addParts, hb,
    carry_eq (by omega) (by omega), hs, hn]

/-- A clock is moved on unless it leaves the calendar. -/
theorem add?_eq_some_iff (ht : t.Valid) (hd : 0 ≤ d) :
    t.add? d = some u ↔ Passes t d u ∧ u.seconds ≤ latest := by
  obtain ⟨hlo, hhi, hn, hsecond⟩ := ht
  by_cases hw : 1000000000 ≤ t.nanos ∧ t.nanos + d < 2000000000
  · rw [add?_of_within hd hw.1 hw.2, of?_eq_some_iff]
    constructor
    · rintro ⟨rfl, hu⟩
      exact ⟨.within hw.1 rfl (by dsimp only; omega) (by dsimp only; omega), hu.2.1⟩
    · rintro ⟨hp, hlast⟩
      cases hp with
      | within hleap hs hnanos hlt =>
        obtain ⟨s, n⟩ := u
        simp only at hs hnanos hlt hlast
        subst hs
        obtain rfl : n = (t.nanos + d).toNat := by omega
        exact ⟨rfl, hlo, hhi, hlt, fun _ => hsecond hw.1⟩
      | beyond hleap => exact absurd (hleap hw.1) (by omega)
  · rw [add?_of_beyond hd hn (by omega), of?_eq_some_iff]
    constructor
    · rintro ⟨rfl, hu⟩
      exact ⟨.beyond (by omega) (by dsimp only; omega) (by dsimp only; omega), hu.2.1⟩
    · rintro ⟨hp, hlast⟩
      cases hp with
      | within hleap hs hnanos hlt => exact absurd ⟨hleap, by omega⟩ hw
      | beyond hleap hnanos h =>
        obtain ⟨s, n⟩ := u
        simp only at hnanos h hlast
        obtain rfl : s = t.seconds + (t.nanos % 1000000000 + d) / 1000000000 := by omega
        obtain rfl : n = ((t.nanos % 1000000000 + d) % 1000000000).toNat := by omega
        refine ⟨rfl, ?_, hlast, by dsimp only; omega, fun hl => ?_⟩
        · exact Int.le_trans hlo (by dsimp only; omega)
        · dsimp only at hl
          omega

theorem valid_of_add? (h : t.add? d = some u) : u.Valid := by
  rw [add?_eq] at h
  cases hleap : t.leaveLeap (Int.tdiv d billion) (Int.tmod d billion) with
  | none =>
    rw [hleap, addParts] at h
    exact valid_of_of? h
  | some left =>
    rw [hleap, addParts, carry] at h
    split_ifs at h <;> exact valid_of_of? h

theorem Passes.trans (h : Passes t d u) (h' : Passes u e v) (hd : 0 ≤ d) (he : 0 ≤ e)
    (hn : t.nanos < 2000000000) : Passes t (d + e) v := by
  cases h with
  | within hleap hs hnanos hlt =>
    cases h' with
    | within hleap' hs' hnanos' hlt' => exact .within hleap (by omega) (by omega) hlt'
    | beyond hleap' hnanos' h' => exact .beyond (by omega) hnanos' (by omega)
  | beyond hleap hnanos h =>
    cases h' with
    | within hleap' hs' hnanos' hlt' => omega
    | beyond hleap' hnanos' h' => exact .beyond (by omega) hnanos' (by omega)

/-- What the clock shows after a part of the span. -/
theorem Passes.split (h : Passes t (d + e) v) (hd : 0 ≤ d) (he : 0 ≤ e) (hn : t.nanos < 2000000000) :
    ∃ u, Passes t d u ∧ Passes u e v ∧ u.seconds ≤ v.seconds := by
  by_cases hw : 1000000000 ≤ t.nanos ∧ t.nanos + d < 2000000000
  · have hnat : ((t.nanos + d).toNat : Int) = t.nanos + d := by omega
    refine ⟨⟨t.seconds, (t.nanos + d).toNat⟩, .within hw.1 rfl hnat (by dsimp only; omega), ?_⟩
    cases h with
    | within hleap hs hnanos hlt =>
      exact ⟨.within (by dsimp only; omega) hs (by dsimp only; omega) hlt, by dsimp only; omega⟩
    | beyond hleap hnanos h =>
      exact ⟨.beyond (by dsimp only; omega) hnanos (by dsimp only; omega), by dsimp only; omega⟩
  · cases h with
    | within hleap hs hnanos hlt => omega
    | beyond hleap hnanos h =>
      refine ⟨⟨t.seconds + (t.nanos % 1000000000 + d) / 1000000000,
          ((t.nanos % 1000000000 + d) % 1000000000).toNat⟩,
        .beyond (by omega) (by dsimp only; omega) (by dsimp only; omega),
        .beyond (by dsimp only; omega) hnanos (by dsimp only; omega), by dsimp only; omega⟩

/-- Moving a clock on twice. -/
theorem add?_add? (ht : t.Valid) (hd : 0 ≤ d) (he : 0 ≤ e) :
    (t.add? d).bind (·.add? e) = t.add? (d + e) := by
  have hn := ht.2.2.1
  ext v
  rw [Option.bind_eq_some_iff, add?_eq_some_iff ht (by omega)]
  constructor
  · rintro ⟨u, hu, hv⟩
    obtain ⟨hv, hlast⟩ := (add?_eq_some_iff (valid_of_add? hu) he).mp hv
    exact ⟨((add?_eq_some_iff ht hd).mp hu).1.trans hv hd he hn, hlast⟩
  · rintro ⟨h, hlast⟩
    obtain ⟨u, hu, hv, hle⟩ := h.split hd he hn
    have hadd : t.add? d = some u := (add?_eq_some_iff ht hd).mpr ⟨hu, Int.le_trans hle hlast⟩
    exact ⟨u, hadd, (add?_eq_some_iff (valid_of_add? hadd) he).mpr ⟨hv, hlast⟩⟩

/-- The clock after it was moved on step by step; none once it has left the calendar. -/
def advance? (t : Instant) : List Span → Option Instant
  | [] => some t
  | d :: ds => (t.add? d).bind (·.advance? ds)

theorem sum_nonneg (hds : ∀ d ∈ ds, 0 ≤ d) : 0 ≤ ds.sum := by
  induction ds with
  | nil => exact Int.le_refl _
  | cons d ds ih =>
    have hd := hds d (List.mem_cons_self ..)
    have hrest := ih fun e he => hds e (List.mem_cons_of_mem _ he)
    rw [List.sum_cons]
    omega

/-- In steps or at once. -/
theorem advance?_eq_add? (ht : t.Valid) (hds : ∀ d ∈ ds, 0 ≤ d) : t.advance? ds = t.add? ds.sum := by
  induction ds generalizing t with
  | nil =>
    have hstill : Passes t 0 t := by
      by_cases hleap : 1000000000 ≤ t.nanos
      · exact .within hleap rfl (by omega) ht.2.2.1
      · exact .beyond (by omega) (by omega) (by omega)
    exact ((add?_eq_some_iff ht (Int.le_refl 0)).mpr ⟨hstill, ht.2.1⟩).symm
  | cons d ds ih =>
    have hd := hds d (List.mem_cons_self ..)
    have hrest : ∀ e ∈ ds, 0 ≤ e := fun e he => hds e (List.mem_cons_of_mem _ he)
    rw [List.sum_cons, ← add?_add? ht hd (sum_nonneg hrest), advance?]
    cases hu : t.add? d with
    | none => rw [Option.bind_none, Option.bind_none]
    | some u =>
      rw [Option.bind_some, Option.bind_some]
      exact ih (valid_of_add? hu) hrest

/-- What the difference of two readings leaves out of the time between them. -/
def lag (t u : Instant) : Span :=
  if 1000000000 ≤ t.nanos ∧ u.nanos < 1000000000 ∧ u.secondOfDay ≤ t.secondOfDay then billion else 0

theorem lag_cases (t u : Instant) : t.lag u = 0 ∨
    1000000000 ≤ t.nanos ∧ u.secondOfDay ≤ t.secondOfDay ∧ t.lag u = .ofSeconds 1 := by
  unfold lag
  split
  · next h => exact .inr ⟨h.1, h.2.2, rfl⟩
  · exact .inl rfl

theorem Passes.since_eq (h : Passes t d u) (hd : 0 ≤ d) (hn : t.nanos < 2000000000) :
    u.since t = d - t.lag u := by
  have hb : billion = 1000000000 := rfl
  have hdays : ∀ w : Instant, w.seconds = w.day * 86400 + w.secondOfDay ∧ 0 ≤ w.secondOfDay ∧
      w.secondOfDay < 86400 := by
    intro w
    simp only [day, secondOfDay, dayLength]
    omega
  have ht := hdays t
  have hu := hdays u
  have hlength : dayLength = 86400 := rfl
  simp only [since, timeOfDaySeconds, lag, hb, hlength]
  change (_ : Int) = _
  cases h with
  | within hleap hs hnanos hlt => split_ifs <;> omega
  | beyond hleap hnanos h => split_ifs <;> omega

/-- The difference of two readings of a clock that was moved on in steps. -/
theorem since_of_advance? (ht : t.Valid) (hds : ∀ d ∈ ds, 0 ≤ d) (h : t.advance? ds = some now) :
    now.since t = ds.sum - t.lag now := by
  have hsum := sum_nonneg hds
  rw [advance?_eq_add? ht hds] at h
  exact ((add?_eq_some_iff ht hsum).mp h).1.since_eq hsum ht.2.2.1

end ServiceCatalog.Instant
