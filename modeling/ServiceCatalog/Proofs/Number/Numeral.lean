import Mathlib.Data.List.Basic
import ServiceCatalog.Number.Numeral
import ServiceCatalog.Proofs.Json.Lexeme

/-!
The texts of numbers. A number is written with few characters, infinite ones included; and the text of
an integer is the one it is written as unless there is a plus sign or a zero too much.
-/
namespace ServiceCatalog

namespace Numeral

variable {cs : List Char} {c : Char}

/-- The characters that numbers are written with, infinite ones included. -/
def isNumeralChar (c : Char) : Bool := c.isDigit || "+-.aefinty".toList.contains c.toLower

theorem isNumeralChar_of_isDigit (h : c.isDigit = true) : isNumeralChar c = true := by
  rw [isNumeralChar, h, Bool.true_or]

theorem natural?_eq_some {n : Nat} (h : natural? cs = some n) :
    cs ≠ [] ∧ (∀ c ∈ cs, c.isDigit = true) ∧ n = Nat.ofDigitChars 10 cs 0 := by
  unfold natural? at h
  split at h
  · cases h
  · next hd =>
    rw [Bool.or_eq_true, not_or, Bool.not_eq_true, Bool.not_eq_true, Bool.not_eq_false'] at hd
    exact ⟨fun he => by simp [he] at hd, List.all_eq_true.mp hd.2, (Option.some.inj h).symm⟩

theorem isDigit_of_natural? {n : Nat} (h : natural? cs = some n) : ∀ c ∈ cs, c.isDigit = true :=
  (natural?_eq_some h).2.1

theorem mem_splitSign (h : c ∈ cs) : isNumeralChar c = true ∨ c ∈ (splitSign cs).2 := by
  unfold splitSign
  split
  · rcases List.mem_cons.mp h with rfl | h
    · exact .inl (by decide)
    · exact .inr h
  · rcases List.mem_cons.mp h with rfl | h
    · exact .inl (by decide)
    · exact .inr h
  · exact .inr h

theorem isNumeralChar_of_signed64? {i : Int} (h : signed64? cs = some i) :
    ∀ c ∈ cs, isNumeralChar c = true := by
  obtain ⟨n, hn, -⟩ := Option.bind_eq_some_iff.mp h
  intro c hc
  rcases mem_splitSign hc with hc | hc
  · exact hc
  · exact isNumeralChar_of_isDigit (isDigit_of_natural? hn c hc)

theorem isNumeralChar_of_exponent? {e : Int} (hmark : (cs.head?.map isExponentMark).getD false = true)
    (h : exponent? cs = some e) : ∀ c ∈ cs, isNumeralChar c = true := by
  cases cs with
  | nil => simp
  | cons d cs =>
    obtain ⟨n, hn, -⟩ := Option.bind_eq_some_iff.mp h
    intro c hc
    rcases List.mem_cons.mp hc with rfl | hc
    · have hd : c = 'e' ∨ c = 'E' := by simpa [isExponentMark] using hmark
      rcases hd with rfl | rfl <;> decide
    · rcases mem_splitSign hc with hc | hc
      · exact hc
      · exact isNumeralChar_of_isDigit (isDigit_of_natural? hn c hc)

theorem isNumeralChar_of_mem_takeWhile {ds : List Char} (h : c ∈ ds.takeWhile Char.isDigit) :
    isNumeralChar c = true :=
  isNumeralChar_of_isDigit (List.all_eq_true.mp List.all_takeWhile c h)

theorem mem_dropWhile_digits {ds : List Char} (h : c ∈ ds) :
    isNumeralChar c = true ∨ c ∈ ds.dropWhile Char.isDigit := by
  rw [← List.takeWhile_append_dropWhile (p := Char.isDigit) (l := ds), List.mem_append] at h
  exact h.imp_left isNumeralChar_of_mem_takeWhile

theorem isNumeralChar_of_magnitude? {negative : Bool} {x : Binary64}
    (h : magnitude? negative cs = some x) : ∀ c ∈ cs, isNumeralChar c = true := by
  -- What is left of a number behind its digits is its exponent.
  have hexponent : ∀ {rest : List Char} {r : Int → Option Binary64},
      (if !(rest.isEmpty || (rest.head?.map isExponentMark).getD false) then none
        else exponent? rest >>= r) = some x → ∀ c ∈ rest, isNumeralChar c = true := by
    intro rest r hr
    split at hr
    · cases hr
    · next hmark =>
      obtain ⟨e, he, -⟩ := Option.bind_eq_some_iff.mp hr
      rw [Bool.not_eq_true', Bool.not_eq_false, Bool.or_eq_true, List.isEmpty_iff] at hmark
      rcases hmark with rfl | hmark
      · simp
      · exact isNumeralChar_of_exponent? hmark he
  intro c hc
  unfold magnitude? at h
  dsimp only at h
  rcases mem_dropWhile_digits hc with hc | hc
  · exact hc
  · split at h
    · next after hrest =>
      split at h
      · cases h
      · rw [hrest] at hc
        rcases List.mem_cons.mp hc with rfl | hc
        · decide
        · exact (mem_dropWhile_digits hc).elim id (hexponent h c)
    · split at h
      · cases h
      · exact hexponent h c hc

theorem isNumeralChar_of_decimal? {x : Binary64} (h : decimal? cs = some x) :
    ∀ c ∈ cs, isNumeralChar c = true := by
  have hword : ∀ {w : String}, w.toList.all "+-.aefinty".toList.contains = true →
      String.ofList ((splitSign cs).2.map Char.toLower) = w →
        ∀ c ∈ (splitSign cs).2, isNumeralChar c = true := by
    rintro w hw rfl c hc
    have hmem := List.all_eq_true.mp hw c.toLower (by simpa using ⟨c, hc, rfl⟩)
    rw [isNumeralChar, Bool.or_eq_true]
    exact .inr hmem
  intro c hc
  rcases mem_splitSign hc with hc | hc
  · exact hc
  unfold decimal? at h
  dsimp only at h
  split at h
  · next hw =>
    rcases hw with hw | hw
    · exact hword (by decide) hw c hc
    · exact hword (by decide) hw c hc
  · split at h
    · next hw => exact hword (by decide) hw c hc
    · exact isNumeralChar_of_magnitude? h c hc

theorem digit_lt (h : c.isDigit = true) : c.toNat - '0'.toNat < 10 := by
  have hc := Char.isDigit_iff_toNat.mp h
  have h9 : '9'.toNat = '0'.toNat + 9 := rfl
  omega

theorem digitChar_digit (h : c.isDigit = true) : (c.toNat - '0'.toNat).digitChar = c := by
  refine Char.toNat_inj.mp ?_
  have hc := (Char.isDigit_iff_toNat.mp h).1
  have h0 : '0'.toNat = 48 := rfl
  rw [Nat.toNat_digitChar_of_lt_ten (digit_lt h)]
  omega

/-- Digits behind those of a positive number are read as its next ones. -/
theorem toDigits_append {n : Nat} (hn : 0 < n) (h : ∀ c ∈ cs, c.isDigit = true) :
    Nat.toDigits 10 n ++ cs = Nat.toDigits 10 (Nat.ofDigitChars 10 cs n) := by
  induction cs generalizing n with
  | nil => rw [Nat.ofDigitChars_nil, List.append_nil]
  | cons c cs ih =>
    have hc := h c (List.mem_cons_self ..)
    have hstep := Nat.toDigits_append_toDigits (by decide) hn (digit_lt hc)
    rw [Nat.toDigits_of_lt_base (digit_lt hc), digitChar_digit hc] at hstep
    rw [Nat.ofDigitChars_cons, ← ih (by omega) fun d hd => h d (List.mem_cons_of_mem _ hd), ← hstep,
      List.append_assoc, List.singleton_append]

/-- Digits are those of the number that they stand for unless a zero stands in front of others. -/
theorem toDigits_ofDigitChars (h : ∀ c ∈ cs, c.isDigit = true) (hne : cs ≠ []) :
    Nat.toDigits 10 (Nat.ofDigitChars 10 cs 0) = cs ↔ (cs.head? = some '0' → cs.length = 1) := by
  refine ⟨fun heq => ?_, fun hzero => ?_⟩
  · have hhead := Json.head?_digits (Nat.ofDigitChars 10 cs 0)
    rwa [heq] at hhead
  · cases cs with
    | nil => exact absurd rfl hne
    | cons c cs =>
      have hc := h c (List.mem_cons_self ..)
      have hfirst : Nat.toDigits 10 (c.toNat - '0'.toNat) = [c] := by
        rw [Nat.toDigits_of_lt_base (digit_lt hc), digitChar_digit hc]
      rw [Nat.ofDigitChars_cons, Nat.mul_zero, Nat.zero_add]
      by_cases h0 : c = '0'
      · obtain rfl : cs = [] := by simpa [h0] using hzero
        rw [Nat.ofDigitChars_nil, hfirst]
      · have hpos : 0 < c.toNat - '0'.toNat := by
          have hle := (Char.isDigit_iff_toNat.mp hc).1
          have hne0 : c.toNat ≠ '0'.toNat := fun h => h0 (Char.toNat_inj.mp h)
          omega
        rw [← toDigits_append hpos fun d hd => h d (List.mem_cons_of_mem _ hd), hfirst,
          List.singleton_append]

/-- Without a zero in front digits stand for a positive number, and are its own. -/
theorem toDigits_ofDigitChars_pos (h : ∀ c ∈ cs, c.isDigit = true) (hne : cs ≠ []) :
    0 < Nat.ofDigitChars 10 cs 0 ∧ Nat.toDigits 10 (Nat.ofDigitChars 10 cs 0) = cs ↔
      cs.head? ≠ some '0' := by
  rw [toDigits_ofDigitChars h hne]
  constructor
  · rintro ⟨hpos, hlength⟩ hzero
    obtain ⟨c, rfl⟩ := List.length_eq_one_iff.mp (hlength hzero)
    cases hzero
    exact absurd hpos (by decide)
  · intro hzero
    refine ⟨Nat.pos_of_ne_zero fun h0 => hzero ?_, fun h0 => absurd h0 hzero⟩
    have hdigits := (toDigits_ofDigitChars h hne).mpr fun h0 => absurd h0 hzero
    rw [← hdigits, h0]
    rfl

theorem signed64?_eq_some {i : Int} (h : signed64? cs = some i) : ∃ n,
    natural? (splitSign cs).2 = some n ∧ i = if (splitSign cs).1 then -(n : Int) else n := by
  obtain ⟨n, hn, hi⟩ := Option.bind_eq_some_iff.mp h
  refine ⟨n, hn, ?_⟩
  have hi : (if (splitSign cs).1 then if n ≤ 1 <<< 63 then some (-(n : Int)) else none
      else if n < 1 <<< 63 then some (n : Int) else none) = some i := hi
  by_cases hneg : (splitSign cs).1 = true
  · rw [if_pos hneg, Option.ite_none_right_eq_some] at hi
    rw [if_pos hneg, Option.some.inj hi.2]
  · rw [if_neg hneg, Option.ite_none_right_eq_some] at hi
    rw [if_neg hneg, Option.some.inj hi.2]

theorem toList_toString_neg {n : Nat} (h : 0 < n) :
    (toString (-(n : Int))).toList = '-' :: Nat.toDigits 10 n := by
  obtain ⟨m, rfl⟩ := Nat.exists_eq_succ_of_ne_zero h.ne'
  rw [Int.toString_eq_repr]
  show ("-" ++ (m + 1).repr).toList = _
  rw [String.toList_append, Nat.toList_repr]
  rfl

theorem toList_toString_natCast (n : Nat) : (toString (n : Int)).toList = Nat.toDigits 10 n := by
  rw [Int.toString_eq_repr]
  exact Nat.toList_repr

/-- No plus sign, no zero in front of other digits, and no negative zero. -/
def IsPlain : List Char → Prop
  | '+' :: _ => False
  | '-' :: ds => ds.head? ≠ some '0'
  | ds => ds.head? = some '0' → ds.length = 1

theorem splitSign_cases (cs : List Char) : (∃ ds, cs = '-' :: ds) ∨ (∃ ds, cs = '+' :: ds) ∨
    splitSign cs = (false, cs) ∧ (IsPlain cs ↔ (cs.head? = some '0' → cs.length = 1)) := by
  unfold splitSign IsPlain
  split
  · exact .inl ⟨_, rfl⟩
  · exact .inr (.inl ⟨_, rfl⟩)
  · exact .inr (.inr ⟨rfl, by split <;> simp_all⟩)

/-- An integer is written as the text it was read from just when that text is plain. -/
theorem toString_signed64? {i : Int} (h : signed64? cs = some i) :
    (toString i).toList = cs ↔ IsPlain cs := by
  obtain ⟨n, hn, hi⟩ := signed64?_eq_some h
  obtain ⟨hne, hdigits, hvalue⟩ := natural?_eq_some hn
  rcases splitSign_cases cs with ⟨ds, rfl⟩ | ⟨ds, rfl⟩ | ⟨hsign, hplain⟩
  · have hi : i = -(n : Int) := hi
    have hround : 0 < n ∧ Nat.toDigits 10 n = ds ↔ ds.head? ≠ some '0' :=
      hvalue ▸ toDigits_ofDigitChars_pos hdigits hne
    show _ ↔ ds.head? ≠ some '0'
    rw [hi, ← hround]
    rcases Nat.eq_zero_or_pos n with rfl | hpos
    · have hzero : ['0'] ≠ '-' :: ds := by simp
      exact iff_of_false hzero fun h => absurd h.1 (Nat.lt_irrefl 0)
    · rw [toList_toString_neg hpos, List.cons_inj_right, and_iff_right hpos]
  · refine iff_of_false (fun heq => ?_) id
    have hi : i = (n : Int) := hi
    rw [hi, toList_toString_natCast] at heq
    have hplus : '+' ∈ Nat.toDigits 10 n := by rw [heq]; exact List.mem_cons_self ..
    exact absurd (Json.isDigit_of_mem_digits hplus) (by decide)
  · rw [hsign] at hi hne hdigits hvalue
    rw [show i = (n : Int) from hi, toList_toString_natCast, hplain, hvalue]
    exact toDigits_ofDigitChars hdigits hne

end Numeral
end ServiceCatalog
