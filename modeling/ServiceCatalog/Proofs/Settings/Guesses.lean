import ServiceCatalog.Proofs.Number.Numeral
import ServiceCatalog.Settings.Environment

/-!
What the text of a variable is taken for. A text with a character that no number has is kept, the two
truth values apart; the text of a number is that number.
-/
namespace ServiceCatalog

namespace Numeral

variable {c : Char}

theorem toLower_of_isDigit (h : c.isDigit = true) : c.toLower = c := by
  have hlt : ¬(c.val ≥ 'A'.val ∧ c.val ≤ 'Z'.val) := by
    simp only [Char.isDigit, Bool.and_eq_true, decide_eq_true_eq] at h
    grind
  exact dif_neg hlt

theorem eq_of_lowerChar {d : Char} (h : Setting.lowerChar c = d) (hd : d.isDigit = true) : c = d := by
  unfold Setting.lowerChar at h
  split at h
  · rw [← h] at hd
    exact absurd hd (by decide)
  · by_cases hc : c.val ≥ 'A'.val ∧ c.val ≤ 'Z'.val
    · obtain ⟨hvalid, hlower⟩ : ∃ hvalid, c.toLower = ⟨c.val + ('a'.val - 'A'.val), hvalid⟩ :=
        ⟨_, dif_pos hc⟩
      rw [← h, hlower] at hd
      simp only [Char.isDigit, Bool.and_eq_true, decide_eq_true_eq] at hd
      grind
    · exact (dif_neg hc).symm.trans h

/-- A small letter that no number has, in either case; the letter k has a third form. -/
def isForeign (d : Char) : Bool := d != 'k' && !d.isDigit && !"+-.aefinty".toList.contains d

theorem isNumeralChar_of_lowerChar {d : Char} (h : Setting.lowerChar c = d)
    (hd : isForeign d = true) : isNumeralChar c = false := by
  have hlower : c.toLower = d := by
    unfold Setting.lowerChar at h
    split at h
    · rw [← h] at hd
      exact absurd hd (by decide)
    · exact h
  simp only [isForeign, Bool.and_eq_true, Bool.not_eq_true'] at hd
  rw [isNumeralChar, Bool.or_eq_false_iff, hlower]
  refine ⟨Bool.eq_false_iff.mpr fun hc => ?_, hd.2⟩
  rw [← hlower, toLower_of_isDigit hc, hc] at hd
  exact absurd hd.1.2 (by decide)

end Numeral

namespace Environment

variable {s w : String} {c d : Char}

theorem exists_of_lower (h : Setting.lower s = w) (hd : d ∈ w.toList) :
    ∃ c ∈ s.toList, Setting.lowerChar c = d := by
  rw [← h, Setting.lower, String.toList_ofList, List.mem_map] at hd
  exact hd

/-- A word with a letter that no number has is no number. -/
theorem exists_foreign_of_lower (h : Setting.lower s = w)
    (hd : w.toList.any Numeral.isForeign = true) :
    ∃ c ∈ s.toList, Numeral.isNumeralChar c = false := by
  obtain ⟨d, hmem, hd⟩ := List.any_eq_true.mp hd
  obtain ⟨c, hc, hlower⟩ := exists_of_lower h hmem
  exact ⟨c, hc, Numeral.isNumeralChar_of_lowerChar hlower hd⟩

/-- A text that is written with another character than numbers are is none. -/
theorem numerals_of_foreign (h : ∃ c ∈ s.toList, Numeral.isNumeralChar c = false) :
    Numeral.signed64? s.toList = none ∧ Numeral.decimal? s.toList = none := by
  obtain ⟨c, hc, hno⟩ := h
  constructor
  · by_contra hne
    obtain ⟨i, hi⟩ := Option.ne_none_iff_exists'.mp hne
    exact absurd (Numeral.isNumeralChar_of_signed64? hi c hc) (by simp [hno])
  · by_contra hne
    obtain ⟨x, hx⟩ := Option.ne_none_iff_exists'.mp hne
    exact absurd (Numeral.isNumeralChar_of_decimal? hx c hc) (by simp [hno])

/-- It is kept, but for the truth values. -/
theorem value_of_foreign (h : ∃ c ∈ s.toList, Numeral.isNumeralChar c = false)
    (htrue : Setting.lower s ≠ "true") (hfalse : Setting.lower s ≠ "false") : value s = .text s := by
  obtain ⟨hsigned, hdecimal⟩ := numerals_of_foreign h
  simp only [value, htrue, hfalse, if_false, hsigned, hdecimal]

/-- A word with a letter that no number has is kept in any case, unless it is a truth value. -/
theorem value_of_lower (h : Setting.lower s = w)
    (hd : w.toList.any Numeral.isForeign = true)
    (htruth : w ≠ "true" ∧ w ≠ "false") : value s = .text s :=
  value_of_foreign (exists_foreign_of_lower h hd) (h ▸ htruth.1) (h ▸ htruth.2)

theorem lower_ne_of_numeral (hs : ∀ c ∈ s.toList, Numeral.isNumeralChar c = true)
    (hd : w.toList.any Numeral.isForeign = true) : Setting.lower s ≠ w := by
  intro h
  obtain ⟨c, hc, hno⟩ := exists_foreign_of_lower h hd
  exact absurd (hs c hc) (by simp [hno])

theorem value_of_signed64? {i : Int} (h : Numeral.signed64? s.toList = some i) : value s = .whole i := by
  have hs := Numeral.isNumeralChar_of_signed64? h
  have htrue : Setting.lower s ≠ "true" := lower_ne_of_numeral hs (by decide)
  have hfalse : Setting.lower s ≠ "false" := lower_ne_of_numeral hs (by decide)
  simp only [value, htrue, hfalse, if_false, h]

/-- A text that is a digit in small letters is that digit. -/
theorem eq_of_lower_digit (h : Setting.lower s = String.ofList [d]) (hd : d.isDigit = true) :
    s.toList = [d] := by
  obtain ⟨c, hc, hlower⟩ := List.map_eq_singleton_iff.mp (String.ofList_inj.mp h)
  rw [hc, Numeral.eq_of_lowerChar hlower hd]

theorem value_of_true (h : Setting.lower s = "true") : value s = .flag true := by
  rw [value, if_pos h]

theorem value_of_false (h : Setting.lower s = "false") : value s = .flag false := by
  have hne : Setting.lower s ≠ "true" := h ▸ by decide
  rw [value, if_neg hne, if_pos h]

/-- A word for a truth value is taken for something that is read as that truth value. -/
theorem bool?_value {b : Bool} (h : Setting.boolOfWord s = some b) : (value s).bool? = some b := by
  have hkept : value s = .text s → (value s).bool? = some b := fun hv => hv ▸ h
  have hword := h
  simp only [Setting.boolOfWord, List.mem_cons, List.not_mem_nil, or_false] at hword
  split at hword
  · next hw =>
    cases hword
    rcases hw with hw | hw | hw | hw
    · rw [value_of_signed64? (i := 1) (by rw [eq_of_lower_digit hw (by decide)]; rfl)]
      rfl
    · rw [value_of_true hw]
      rfl
    · exact hkept (value_of_lower hw (by decide) (by decide))
    · exact hkept (value_of_lower hw (by decide) (by decide))
  · split at hword
    · next hw =>
      cases hword
      rcases hw with hw | hw | hw | hw
      · rw [value_of_signed64? (i := 0) (by rw [eq_of_lower_digit hw (by decide)]; rfl)]
        rfl
      · rw [value_of_false hw]
        rfl
      · exact hkept (value_of_lower hw (by decide) (by decide))
      · exact hkept (value_of_lower hw (by decide) (by decide))
    · cases hword

end Environment
end ServiceCatalog
