import Mathlib.Data.List.Basic
import Mathlib.Tactic.IntervalCases
import Mathlib.Tactic.Linarith
import ServiceCatalog.Json.Printer
import ServiceCatalog.Json.Reader

/-! The words of JSON text: a string or a number that was printed is read back as it was. In either
there are no control characters. -/
namespace ServiceCatalog

/-- The numbers that documents hold: whole, and within 64 bits; zero has no sign. -/
def Number.IsWord : Number → Prop
  | .nat n => n ≤ Json.maxWord
  | .neg n => 0 < n ∧ n ≤ 2 ^ 63
  | .float _ => False

namespace Json

theorem readString_bare (c : Char) (rest : List Char)
    (hq : c ≠ '"') (hb : c ≠ '\\') (hn : 32 ≤ c.toNat) :
    readString (c :: rest) = (readString rest).map fun r => (c :: r.1, r.2) := by
  rw [readString.eq_def]
  split
  · next h => cases h
  · next h => cases h; exact absurd rfl hq
  · next h => cases h; exact absurd rfl hb
  · next h => cases h; exact absurd rfl hb
  · next h =>
    cases h
    rw [if_neg (by simp only [hb, or_false]; omega)]

/-- The characters without a short escape are written by their number. -/
theorem readString_control (n : Nat) (rest : List Char) (hn : n < 32) :
    readString ('\\' :: 'u' :: hexDigits 4 n ++ rest) =
      (readString rest).map fun r => (Char.ofNat n :: r.1, r.2) := by
  have hall : ∀ n < 32, ∃ a b c d, hexDigits 4 n = [a, b, c, d] ∧ hex4 a b c d = some n := by
    intro n hn
    interval_cases n <;> exact ⟨_, _, _, _, rfl, by decide⟩
  obtain ⟨a, b, c, d, hd, hx⟩ := hall n hn
  simp only [hd, List.cons_append, List.nil_append]
  rw [readString, hx]
  simp only
  rw [if_neg (by omega), if_neg (by omega)]

theorem readString_escaped (c : Char) (rest : List Char) :
    readString (escaped c ++ rest) = (readString rest).map fun r => (c :: r.1, r.2) := by
  unfold escaped
  split_ifs with h₁ h₂ h₃ h₄ h₅ h₆ h₇ h₈
  · subst h₁; simp [readString, simpleEscape]
  · subst h₂; simp [readString, simpleEscape]
  · subst h₃; simp [readString, simpleEscape]
  · subst h₄; simp [readString, simpleEscape]
  · subst h₅; simp [readString, simpleEscape]
  · have hc : c = Char.ofNat 8 := by rw [← h₆, Char.ofNat_toNat]
    subst hc; simp [readString, simpleEscape]
  · have hc : c = Char.ofNat 12 := by rw [← h₇, Char.ofNat_toNat]
    subst hc; simp [readString, simpleEscape]
  · rw [readString_control c.toNat rest h₈, Char.ofNat_toNat]
  · exact readString_bare c rest h₁ h₂ (by omega)

/-- What stands between the quotes is read up to the closing one. -/
theorem readString_flatMap (cs rest : List Char) :
    readString (cs.flatMap escaped ++ '"' :: rest) = some (cs, rest) := by
  induction cs with
  | nil => simp [readString]
  | cons c cs ih => simp [readString_escaped, ih]

/-- What follows a number must not be read as part of it. -/
def Stops (rest : List Char) : Prop :=
  ∀ c ∈ rest.head?, c.isDigit = false ∧ c ≠ '.' ∧ c ≠ 'e' ∧ c ≠ 'E'

theorem Stops.nil : Stops [] := by simp [Stops]

theorem Stops.cons {c : Char} {rest : List Char}
    (h : c.isDigit = false ∧ c ≠ '.' ∧ c ≠ 'e' ∧ c ≠ 'E') : Stops (c :: rest) := by
  simpa [Stops] using h

theorem isDigit_of_mem_digits {n : Nat} {c : Char} (h : c ∈ Nat.toDigits 10 n) :
    c.isDigit = true :=
  Nat.isDigit_of_mem_toDigits (by decide) (by decide) h

theorem takeWhile_digits (n : Nat) {rest : List Char} (h : Stops rest) :
    (Nat.toDigits 10 n ++ rest).takeWhile Char.isDigit = Nat.toDigits 10 n := by
  rw [List.takeWhile_append_of_pos fun c hc => isDigit_of_mem_digits hc]
  cases rest with
  | nil => simp
  | cons c rest => simp [(h c (by simp)).1]

theorem dropWhile_digits (n : Nat) {rest : List Char} (h : Stops rest) :
    (Nat.toDigits 10 n ++ rest).dropWhile Char.isDigit = rest := by
  rw [List.dropWhile_append_of_pos fun c hc => isDigit_of_mem_digits hc]
  cases rest with
  | nil => simp
  | cons c rest => simp [(h c (by simp)).1]

theorem le_ofDigitChars (ds : List Char) (s : Nat) : s ≤ Nat.ofDigitChars 10 ds s := by
  rw [Nat.ofDigitChars_eq_ofDigitChars_zero]
  have hp : 1 ≤ 10 ^ ds.length := Nat.one_le_pow _ _ (by decide)
  nlinarith

theorem wholeDigits_of_le (ds : List Char) (s : Nat) (h : Nat.ofDigitChars 10 ds s ≤ maxWord) :
    wholeDigits ds s = (Nat.ofDigitChars 10 ds s, 0) := by
  induction ds generalizing s with
  | nil => simp [wholeDigits]
  | cons c ds ih =>
    rw [Nat.ofDigitChars_cons, Nat.mul_comm] at h ⊢
    have hle := (le_ofDigitChars ds (s * 10 + digitValue c)).trans h
    simp only [wholeDigits, if_pos hle]
    exact ih _ h

/-- Only zero starts with the digit zero. -/
theorem head?_digits (n : Nat) (h : (Nat.toDigits 10 n).head? = some '0') :
    (Nat.toDigits 10 n).length = 1 := by
  induction n using Nat.strongRecOn with
  | ind n ih =>
    by_cases hn : n < 10
    · simp [Nat.toDigits_of_lt_base hn]
    · rw [Nat.toDigits_of_base_le (by decide) (by omega)] at h
      have hne : Nat.toDigits 10 (n / 10) ≠ [] := Nat.toDigits_ne_nil
      rw [List.head?_append_of_ne_nil _ hne] at h
      have hl := ih (n / 10) (by omega) h
      have hlt : n / 10 < 10 := by
        by_contra hge
        have := (Nat.length_toDigits_le_iff (by decide) (by decide)).mp hl.le
        omega
      rw [Nat.toDigits_of_lt_base hlt] at h
      have hz : n / 10 = 0 := by
        generalize n / 10 = m at h hlt
        interval_cases m <;> simp_all
      omega

theorem readMagnitude_digits (negative : Bool) (n : Nat) {rest : List Char}
    (hn : n ≤ maxWord) (h : Stops rest) (hneg : negative = true → 0 < n ∧ n ≤ 2 ^ 63) :
    readMagnitude negative (Nat.toDigits 10 n ++ rest) =
      some (if negative then .neg n else .nat n, rest) := by
  have hne : Nat.toDigits 10 n ≠ [] := Nat.toDigits_ne_nil
  have hd : ¬((Nat.toDigits 10 n).head? = some '0' ∧ (Nat.toDigits 10 n).length ≠ 1) :=
    fun hd => hd.2 (head?_digits n hd.1)
  have hw : wholeDigits (Nat.toDigits 10 n) 0 = (n, 0) := by
    rw [wholeDigits_of_le _ _ (by rwa [Nat.ofDigitChars_ten_toDigits]),
      Nat.ofDigitChars_ten_toDigits]
  unfold readMagnitude
  simp only [takeWhile_digits n h, dropWhile_digits n h, hw, List.isEmpty_iff, hne, hd, false_or,
    if_false]
  have he : rest.head? ≠ some 'e' ∧ rest.head? ≠ some 'E' :=
    ⟨fun hx => (h _ hx).2.2.1 rfl, fun hx => (h _ hx).2.2.2 rfl⟩
  split
  · next after => exact absurd rfl (h '.' (by simp)).2.1
  · cases negative with
    | false => simp [he]
    | true =>
      obtain ⟨hp, hm⟩ := hneg rfl
      have hz : n ≠ 0 := by omega
      simpa [he, hz] using hm

theorem readNumber_printNumber (x : Number) {rest : List Char} (hx : x.IsWord) (h : Stops rest) :
    readNumber (printNumber x ++ rest) = some (x, rest) := by
  cases x with
  | nat n =>
    have hr := readMagnitude_digits false n hx h (by simp)
    simp only [printNumber]
    rw [readNumber]
    · simpa using hr
    · intro cs hcs
      obtain ⟨c, ds, hds⟩ := List.exists_cons_of_ne_nil (Nat.toDigits_ne_nil (n := n) (b := 10))
      rw [hds] at hcs
      cases hcs
      have hdig := isDigit_of_mem_digits (n := n) (c := '-') (by simp [hds])
      exact absurd hdig (by decide)
  | neg n =>
    have hr := readMagnitude_digits true n (by have := hx.2; simp only [maxWord]; omega) h
      (fun _ => hx)
    simpa [printNumber, readNumber] using hr
  | float x => exact hx.elim

/-- No control character, so in particular no newline. -/
def Bare (cs : List Char) : Prop := ∀ c ∈ cs, 32 ≤ c.toNat

instance (cs : List Char) : Decidable (Bare cs) :=
  List.decidableBAll (fun c : Char => 32 ≤ c.toNat) cs

theorem Bare.append {cs ds : List Char} (h : Bare cs) (h' : Bare ds) : Bare (cs ++ ds) := by
  intro c hc
  rcases List.mem_append.mp hc with hc | hc
  · exact h c hc
  · exact h' c hc

theorem Bare.cons {c : Char} {cs : List Char} (hc : 32 ≤ c.toNat) (h : Bare cs) :
    Bare (c :: cs) := List.forall_mem_cons.mpr ⟨hc, h⟩

theorem Bare.notMem {cs : List Char} (h : Bare cs) {c : Char} (hc : c.toNat < 32) : c ∉ cs :=
  fun hmem => absurd (h c hmem) (by omega)

theorem bare_escaped (c : Char) : Bare (escaped c) := by
  have hcontrol : ∀ n < 32, Bare ('\\' :: 'u' :: hexDigits 4 n) := by
    decide
  unfold escaped
  split_ifs with h₁ h₂ h₃ h₄ h₅ h₆ h₇ h₈
  any_goals decide
  · exact hcontrol _ h₈
  · simpa [Bare] using h₈

theorem bare_printString (s : String) : Bare (printString s) := by
  have hflat : Bare (s.toList.flatMap escaped) := by
    intro c hc
    obtain ⟨d, -, hd⟩ := List.mem_flatMap.mp hc
    exact bare_escaped d c hd
  exact (hflat.cons (by decide)).append (by decide)

theorem bare_printNumber {x : Number} (hx : x.IsWord) : Bare (printNumber x) := by
  have hdigits : ∀ n, Bare (Nat.toDigits 10 n) := by
    intro n c hc
    have hr := Char.isDigit_iff_toNat.mp (isDigit_of_mem_digits hc)
    exact (show 32 ≤ '0'.toNat by decide).trans hr.1
  cases x with
  | nat n => exact hdigits n
  | neg n => exact (hdigits n).cons (by decide)
  | float x => exact hx.elim

end Json
end ServiceCatalog
