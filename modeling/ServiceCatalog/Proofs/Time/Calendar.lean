import Mathlib.Tactic.IntervalCases
import Mathlib.Tactic.SplitIfs
import ServiceCatalog.Time.Date

/-! Every day number is that of one valid date. -/
namespace ServiceCatalog.Date

theorem daysBeforeYear_split (e c q y : Int) (hc : 0 ≤ c ∧ c ≤ 3) (hq : 0 ≤ q ∧ q ≤ 24)
    (hy : 0 ≤ y ∧ y ≤ 3) :
    daysBeforeYear (400 * e + 100 * c + 4 * q + y) =
      146097 * e + 36524 * c + 1461 * q + 365 * y := by
  have h₄ : (400 * e + 100 * c + 4 * q + y) / 4 = 100 * e + 25 * c + q := by omega
  have h₁₀₀ : (400 * e + 100 * c + 4 * q + y) / 100 = 4 * e + c := by omega
  have h₄₀₀ : (400 * e + 100 * c + 4 * q + y) / 400 = e := by omega
  rw [daysBeforeYear, h₄, h₁₀₀, h₄₀₀]
  omega

/-- Cycles of 400, 100, 4 and 1 years. A year of 366 days closes a cycle of four, and when that
closes a century, the century closes a cycle of four as well. -/
structure Cycles (n e c q y d : Int) : Prop where
  century : 0 ≤ c ∧ c ≤ 3
  olympiad : 0 ≤ q ∧ q ≤ 24
  year : 0 ≤ y ∧ y ≤ 3
  day : 0 ≤ d ∧ d ≤ 365
  total : n = 146097 * e + 36524 * c + 1461 * q + 365 * y + d
  leap : d = 365 → y = 3 ∧ (q = 24 → c = 3)

theorem exists_cycles (n : Int) :
    ∃ e c q y d, Cycles n e c q y d ∧ yearAndDay n = (400 * e + 100 * c + 4 * q + y, d) := by
  obtain ⟨r, hr⟩ : ∃ r, r = n % 146097 := ⟨_, rfl⟩
  obtain ⟨c, hc⟩ : ∃ c, c = min (r / 36524) 3 := ⟨_, rfl⟩
  obtain ⟨s, hs⟩ : ∃ s, s = r - 36524 * c := ⟨_, rfl⟩
  obtain ⟨q, hq⟩ : ∃ q, q = s / 1461 := ⟨_, rfl⟩
  obtain ⟨t, ht⟩ : ∃ t, t = s - 1461 * q := ⟨_, rfl⟩
  obtain ⟨y, hy⟩ : ∃ y, y = min (t / 365) 3 := ⟨_, rfl⟩
  have hcb : 0 ≤ c ∧ c ≤ 3 := by omega
  have hsb : 0 ≤ s ∧ s ≤ 36524 ∧ (c ≠ 3 → s ≤ 36523) := by omega
  have hqb : 0 ≤ q ∧ q ≤ 24 := by omega
  have htb : 0 ≤ t ∧ t ≤ 1460 ∧ (q = 24 → c ≠ 3 → t ≤ 1459) := by omega
  have hyb : 0 ≤ y ∧ y ≤ 3 := by omega
  refine ⟨n / 146097, c, q, y, t - 365 * y, ⟨hcb, hqb, hyb, by omega, by omega, by omega⟩, ?_⟩
  simp only [yearAndDay, ← hr, ← hc, ← hs, ← hq, ← ht, ← hy]

/-- The parts of a day of the year that starts in March. -/
theorem month_split (d : Int) (hd : 0 ≤ d ∧ d ≤ 365) :
    ∃ m : Int, (5 * d + 2) / 153 = m ∧ 0 ≤ m ∧ m ≤ 11 ∧ daysBeforeMonth m ≤ d ∧
      d < daysBeforeMonth (m + 1) := by
  refine ⟨_, rfl, ?_⟩
  simp only [daysBeforeMonth]
  omega

theorem monthLength_march (y : Int) (m : Nat) (hm : m ≤ 9) :
    daysBeforeMonth (m + 1) - daysBeforeMonth m = monthLength y (m + 3) := by
  interval_cases m <;> rfl

theorem Cycles.isLeap {n e c q y : Int} (h : Cycles n e c q y 365) :
    isLeap (400 * e + 100 * c + 4 * q + y + 1) = true := by
  obtain ⟨rfl, hq⟩ := h.leap rfl
  have hc := h.century
  have ho := h.olympiad
  have h₄ : (400 * e + 100 * c + 4 * q + 3 + 1) % 4 = 0 := by omega
  have h₁₀₀ : (400 * e + 100 * c + 4 * q + 3 + 1) % 100 = 0 →
      (400 * e + 100 * c + 4 * q + 3 + 1) % 400 = 0 := by omega
  by_cases hz : (400 * e + 100 * c + 4 * q + 3 + 1) % 100 = 0
  · simp [Date.isLeap, h₄, h₁₀₀ hz]
  · simp [Date.isLeap, h₄, hz]

theorem le_monthLength_february (y : Int) (day : Nat) (h : day ≤ 29)
    (hl : day = 29 → isLeap y = true) : day ≤ monthLength y 2 := by
  simp only [monthLength, if_true]
  split
  · exact h
  · next hn => have : day ≠ 29 := fun he => hn (hl he); omega

theorem ofDayNumber_spec (n : Int) :
    (ofDayNumber n).Valid ∧ (ofDayNumber n).dayNumber = n := by
  obtain ⟨e, c, q, y, d, hc, hy⟩ := exists_cycles (n + epochShift)
  obtain ⟨m, hm, hm₀, hm₁, hlo, hhi⟩ := month_split d hc.day
  have hdays := daysBeforeYear_split e c q y hc.century hc.olympiad hc.year
  have htotal := hc.total
  have hleap : d = 365 → isLeap (400 * e + 100 * c + 4 * q + y + 1) = true := by
    rintro rfl
    exact hc.isLeap
  have hday := hc.day
  generalize 400 * e + 100 * c + 4 * q + y = Y at *
  simp only [ofDayNumber, hy, hm]
  by_cases h : m < 10
  · rw [if_pos h]
    obtain ⟨k, rfl⟩ : ∃ k : Nat, m = k := ⟨m.toNat, by omega⟩
    have hl := monthLength_march Y k (by omega)
    have hk : ((k : Int) + 3).toNat = k + 3 := by omega
    have hlt : ¬k + 3 ≤ 2 := by omega
    have hk' : ((k + 3 : Nat) : Int) - 3 = k := by omega
    rw [hk]
    refine ⟨⟨?_, ?_, ?_, ?_⟩, ?_⟩
    · show 1 ≤ k + 3; omega
    · show k + 3 ≤ 12; omega
    · show 1 ≤ (_ : Int).toNat; omega
    · show (_ : Int).toNat ≤ monthLength Y (k + 3); omega
    · simp only [dayNumber, if_neg hlt, hk', hdays]
      omega
  · rw [if_neg h]
    have hm' : m = 10 ∨ m = 11 := by omega
    rcases hm' with rfl | rfl <;> simp only [daysBeforeMonth] at hlo hhi ⊢
    · refine ⟨⟨?_, ?_, ?_, ?_⟩, ?_⟩
      · show 1 ≤ 1; omega
      · show 1 ≤ 12; omega
      · show 1 ≤ (_ : Int).toNat; omega
      · show (_ : Int).toNat ≤ 31; omega
      · show dayNumber ⟨Y + 1, 1, _⟩ = n
        simp only [dayNumber, daysBeforeMonth, if_pos (show 1 ≤ 2 by decide),
          Int.add_sub_cancel, hdays]
        omega
    · refine ⟨⟨?_, ?_, ?_, ?_⟩, ?_⟩
      · show 1 ≤ 2; omega
      · show 2 ≤ 12; omega
      · show 1 ≤ (_ : Int).toNat; omega
      · exact le_monthLength_february (Y + 1) (d - (153 * 11 + 2) / 5 + 1).toNat (by omega)
          fun he => hleap (by omega)
      · show dayNumber ⟨Y + 1, 2, _⟩ = n
        simp only [dayNumber, daysBeforeMonth, if_pos (show 2 ≤ 2 by decide),
          Int.add_sub_cancel, hdays]
        omega

theorem monthLength_le (y : Int) (m : Nat) : monthLength y m ≤ 31 := by
  unfold monthLength
  split_ifs <;> omega

/-- The days from 1 January of year -262143 to 31 December of year 262142. -/
theorem year_bounds {d : Date} (hv : d.Valid) (hlo : -96465292 ≤ d.dayNumber)
    (hhi : d.dayNumber ≤ 95026236) : -262143 ≤ d.year ∧ d.year ≤ 262142 := by
  obtain ⟨h₁, h₁₂, hd, hl⟩ := hv
  have hl := hl.trans (monthLength_le _ _)
  simp only [dayNumber, daysBeforeYear, daysBeforeMonth, epochShift] at hlo hhi
  -- the years next to the bounds miss them by less than the leap days that `omega` leaves open
  have hbefore : d.year ≠ -262144 := by
    intro h
    rw [h] at hlo
    split_ifs at hlo <;> omega
  have hafter : d.year ≠ 262143 := by
    intro h
    rw [h] at hhi
    split_ifs at hhi <;> omega
  split_ifs at hlo hhi <;> omega

end ServiceCatalog.Date
