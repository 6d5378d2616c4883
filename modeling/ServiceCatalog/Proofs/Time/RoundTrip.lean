import Mathlib.Data.List.Basic
import Mathlib.Tactic.SplitIfs
import ServiceCatalog.Proofs.Except
import ServiceCatalog.Proofs.Time.Calendar
import ServiceCatalog.Time.Printer
import ServiceCatalog.Time.Reader

/-! Either text of an instant is read back as that instant, leap seconds and far years included. -/
namespace ServiceCatalog.Instant

theorem isDigit_of_mem_padded {width n : Nat} {c : Char} (h : c ∈ padded width n) :
    c.isDigit = true := by
  simp only [padded, List.mem_append, List.mem_replicate] at h
  rcases h with ⟨-, rfl⟩ | h
  · decide
  · exact Nat.isDigit_of_mem_toDigits (by decide) (by decide) h

theorem ofDigitChars_padded (width n : Nat) : Nat.ofDigitChars 10 (padded width n) 0 = n := by
  simp only [padded]
  rw [Nat.ofDigitChars_append, Nat.ofDigitChars_replicate_zero, Nat.mul_zero,
    Nat.ofDigitChars_ten_toDigits]

theorem padded_length {width n : Nat} (hw : 0 < width) (h : n < 10 ^ width) :
    (padded width n).length = width := by
  have hl := (Nat.length_toDigits_le_iff (b := 10) (by decide) hw).mpr h
  simp only [padded, List.length_append, List.length_replicate]
  omega

theorem padded_head (width n : Nat) :
    ∃ c cs, padded width n = c :: cs ∧ c.isDigit = true := by
  have hne : padded width n ≠ [] := by simp [padded, Nat.toDigits_ne_nil]
  obtain ⟨c, cs, h⟩ := List.exists_cons_of_ne_nil hne
  have hc : c ∈ padded width n := by simp [h]
  exact ⟨c, cs, h, isDigit_of_mem_padded hc⟩

theorem not_isSpace_of_isDigit {c : Char} (h : c.isDigit = true) : Text.isSpace c = false := by
  have hr := Char.isDigit_iff_toNat.mp h
  have h0 : '0'.toNat = 48 := rfl
  have h9 : '9'.toNat = 57 := rfl
  rw [h0, h9] at hr
  simp only [Text.isSpace, Bool.or_eq_false_iff, Bool.and_eq_false_iff, beq_eq_false_iff_ne,
    decide_eq_false_iff_not]
  omega

theorem trimFront_padded (width n : Nat) (rest : List Char) :
    Text.trimFront (padded width n ++ rest) = padded width n ++ rest := by
  obtain ⟨c, cs, h, hc⟩ := padded_head width n
  simp [h, Text.trimFront, not_isSpace_of_isDigit hc]

/-- Digits are read up to the width, or up to the first character that is none. -/
theorem readDigits_padded {limit width n : Nat} {rest : List Char}
    (hl : (padded width n).length ≤ limit)
    (hr : (padded width n).length = limit ∨ ∀ c ∈ rest.head?, c.isDigit = false)
    (hn : n < 2 ^ 63) :
    readDigits limit (padded width n ++ rest) = .ok (n, rest) := by
  have hd : ((padded width n ++ rest).take limit).takeWhile Char.isDigit = padded width n := by
    rw [List.take_append, List.take_of_length_le hl,
      List.takeWhile_append_of_pos fun c hc => isDigit_of_mem_padded hc]
    rcases hr with hr | hr
    · simp [hr]
    · cases rest with
      | nil => simp
      | cons c rest =>
        have hc := hr c (by simp)
        cases h : limit - (padded width n).length <;> simp [hc]
  obtain ⟨c, cs, h, hc⟩ := padded_head width n
  unfold readDigits
  split
  · next hnil => simp [h] at hnil
  · next d ds hcons =>
    rw [h, List.cons_append] at hcons
    cases hcons
    simp only [if_pos hc, hd, ofDigitChars_padded, List.drop_left]
    exact if_pos hn

theorem readField_padded {low high n : Nat} (rest : List Char) (hlo : low ≤ n) (hhi : n ≤ high)
    (h : high < 100) :
    readField low high (padded 2 n ++ rest) = .ok (n, rest) := by
  have hl : (padded 2 n).length = 2 := padded_length (by decide) (by omega)
  unfold readField
  rw [trimFront_padded, readDigits_padded hl.le (.inl hl) (by omega), ok_bind]
  exact if_pos ⟨hlo, hhi⟩

theorem readMark_cons {mark : Char} (rest : List Char) (h : Text.isSpace mark = false) :
    readMark mark (mark :: rest) = .ok rest := by
  simp [readMark, Text.trimFront, h]

theorem readYear_bare {n : Nat} {rest : List Char} (hn : n ≤ 9999) :
    readYear (padded 4 n ++ rest) = .ok ((n : Int), rest) := by
  have hl : (padded 4 n).length = 4 := padded_length (by decide) (by omega)
  have hd : readDigits 4 (padded 4 n ++ rest) = .ok (n, rest) :=
    readDigits_padded hl.le (.inl hl) (by omega)
  obtain ⟨c, cs, hp, hc⟩ := padded_head 4 n
  unfold readYear
  rw [trimFront_padded]
  rw [hp, List.cons_append] at hd ⊢
  simp only
  split
  · next hm => cases hm; exact absurd hc (by decide)
  · next hm => cases hm; exact absurd hc (by decide)
  · rw [hd, ok_bind, pure_bind, if_pos ⟨by omega, by omega⟩]
    rfl

theorem readYear_signed {n : Nat} {rest : List Char} (negative : Bool) (hn : n ≤ 262143)
    (hr : ∀ c ∈ rest.head?, c.isDigit = false) :
    readYear ((if negative then '-' else '+') :: (padded 4 n ++ rest)) =
      .ok (if negative then -(n : Int) else n, rest) := by
  have hd : readDigits (padded 4 n ++ rest).length (padded 4 n ++ rest) = .ok (n, rest) :=
    readDigits_padded (by simp) (.inr hr) (by omega)
  have htrim : ∀ sign : Char, Text.isSpace sign = false →
      Text.trimFront (sign :: (padded 4 n ++ rest)) = sign :: (padded 4 n ++ rest) :=
    fun sign h => by simp [Text.trimFront, h]
  unfold readYear
  cases negative with
  | true =>
    simp only [if_true, htrim '-' (by decide)]
    rw [hd, ok_bind, pure_bind, if_pos ⟨by omega, by omega⟩]
    rfl
  | false =>
    simp only [Bool.false_eq_true, if_false, htrim '+' (by decide)]
    rw [hd, ok_bind, pure_bind, if_pos ⟨by omega, by omega⟩]
    rfl

theorem readYear_yearText {y : Int} {rest : List Char} (hy : -262143 ≤ y ∧ y ≤ 262142)
    (hr : ∀ c ∈ rest.head?, c.isDigit = false) :
    readYear (yearText y ++ rest) = .ok (y, rest) := by
  unfold yearText
  split_ifs with h hneg
  · have hd : readYear (padded 4 y.toNat ++ rest) = .ok ((y.toNat : Int), rest) :=
      readYear_bare (by omega)
    rwa [Int.toNat_of_nonneg h.1] at hd
  · have hd := readYear_signed (n := y.natAbs) true (by omega) hr
    have hc : -((y.natAbs : Nat) : Int) = y := by omega
    rwa [if_pos rfl, if_pos rfl, hc] at hd
  · have hd := readYear_signed (n := y.natAbs) false (by omega) hr
    have hc : ((y.natAbs : Nat) : Int) = y := by omega
    rwa [if_neg Bool.false_ne_true, if_neg Bool.false_ne_true, hc] at hd

theorem readFraction_digits {width k : Nat} {rest : List Char} (hw : 0 < width) (hw₉ : width ≤ 9)
    (hk : k < 10 ^ width) (hr : ∀ c ∈ rest.head?, c.isDigit = false) :
    readFraction ('.' :: padded width k ++ rest) = .ok (k * 10 ^ (9 - width), rest) := by
  have hl : (padded width k).length = width := padded_length hw hk
  have hlt : k < 2 ^ 63 := hk.trans_le ((Nat.pow_le_pow_right (by decide) hw₉).trans (by decide))
  have hd : readDigits 9 (padded width k ++ rest) = .ok (k, rest) :=
    readDigits_padded (hl.trans_le hw₉) (.inr hr) hlt
  have hdrop : rest.dropWhile Char.isDigit = rest := by
    cases rest with
    | nil => rfl
    | cons c rest => simp [hr c (by simp)]
  simp only [List.cons_append, readFraction, hd, ok_bind, List.length_append, hl,
    Nat.add_sub_cancel, hdrop]
  rfl

/-- Text that can end an instant and stands for the offset zero. -/
structure IsZone (zone : List Char) : Prop where
  read : readZone (Text.trimFront zone) = .ok (0, [])
  head : ∀ c ∈ zone.head?, c.isDigit = false ∧ c ≠ '.'

theorem isZone_cons {c : Char} {rest : List Char}
    (hr : readZone (Text.trimFront (c :: rest)) = .ok (0, [])) (hd : c.isDigit = false)
    (hp : c ≠ '.') : IsZone (c :: rest) where
  read := hr
  head := by
    intro d hd'
    obtain rfl := Option.some.inj hd'
    exact ⟨hd, hp⟩

theorem isZone_letter : IsZone ['Z'] := isZone_cons (by decide) (by decide) (by decide)

theorem isZone_figures : IsZone "+00:00".toList := isZone_cons (by decide) (by decide) (by decide)

variable {zone : List Char}

theorem IsZone.readFraction (hz : IsZone zone) : readFraction zone = .ok (0, zone) := by
  unfold Instant.readFraction
  split
  · exact absurd rfl (hz.head _ rfl).2
  · rfl

/-- Left out or in groups of three, the fraction is exact. -/
theorem readFraction_fractionText {n : Nat} (hn : n < 1000000000) (hz : IsZone zone) :
    readFraction (fractionText n ++ zone) = .ok (n, zone) := by
  have hhead : ∀ c ∈ zone.head?, c.isDigit = false := fun c hc => (hz.head c hc).1
  unfold fractionText
  split_ifs with h₀ h₃ h₆
  · subst h₀
    exact hz.readFraction
  · rw [readFraction_digits (by decide) (by decide) (by omega) hhead]
    congr 2
    omega
  · rw [readFraction_digits (by decide) (by decide) (by omega) hhead]
    congr 2
    omega
  · rw [readFraction_digits (by decide) (by decide) (by omega) hhead]
    congr 2
    omega

theorem read_parts (d : Date) (hour minute second nanos : Nat) (hd : d.Valid)
    (hy : -262143 ≤ d.year ∧ d.year ≤ 262142) (hh : hour < 24) (hm : minute < 60)
    (hs : second ≤ 60) (hn : nanos < 1000000000) (hz : IsZone zone) :
    read (dateText d ++ 'T' :: (padded 2 hour ++ ':' :: (padded 2 minute ++
      ':' :: (padded 2 second ++ (fractionText nanos ++ zone))))) =
      assemble d hour minute second nanos 0 := by
  obtain ⟨y, month, day⟩ := d
  obtain ⟨hm₁, hm₂, hd₁, hd₂⟩ := hd
  have hday := hd₂.trans (Date.monthLength_le _ _)
  simp only at hy hm₁ hm₂ hd₁ hday
  simp only [read, dateText, List.append_assoc, List.cons_append]
  rw [readYear_yearText hy (by simp), ok_bind]
  simp only
  rw [readMark_cons _ (by decide), ok_bind, readField_padded _ hm₁ hm₂ (by decide), ok_bind]
  simp only
  rw [readMark_cons _ (by decide), ok_bind, readField_padded _ hd₁ hday (by decide), ok_bind]
  simp only [readSeparator, or_true, true_or, if_true, ok_bind]
  rw [readField_padded _ (by omega) (by omega) (by decide), ok_bind]
  simp only
  rw [readMark_cons _ (by decide), ok_bind, readField_padded _ (by omega) (by omega) (by decide),
    ok_bind]
  simp only
  rw [readMark_cons _ (by decide), ok_bind, readField_padded _ (by omega) hs (by decide), ok_bind]
  simp only
  rw [readFraction_fractionText hn hz, ok_bind]
  simp only
  rw [hz.read, ok_bind]
  rfl

/-- Parts that add up to an instant, a second 60 reaching into the leap second before it. -/
theorem assemble_eq_ok {t : Instant} {d : Date} {hour minute second nanos : Nat} (ht : t.Valid)
    (hy : -262143 ≤ d.year ∧ d.year ≤ 262142) (hd : d.Valid)
    (hs : d.dayNumber * dayLength +
      (hour * 3600 + minute * 60 + (if second = 60 then 59 else second) : Nat) = t.seconds)
    (hn : (if second = 60 then nanos + 1000000000 else nanos) = t.nanos) :
    assemble d hour minute second nanos 0 = .ok t := by
  have hr : yearInRange d.year = true := by simp [yearInRange, hy]
  have hof : of? t.seconds t.nanos = some t := by
    simp only [of?]
    rw [if_pos ht]
  unfold assemble
  rw [if_neg (by simp [hr, hd]), if_neg (by decide)]
  by_cases h : second = 60
  · simp only [h, if_true] at hs hn ⊢
    simp only [hn, Int.sub_zero, hs, hof]
  · simp only [h, if_false] at hs hn ⊢
    simp only [hn, Int.sub_zero, hs, hof]

theorem ofText_localText {t : Instant} (ht : t.Valid) (hz : IsZone zone) :
    ofText (String.ofList (t.localText ++ zone)) = .ok t := by
  have hd := Date.ofDayNumber_spec t.day
  obtain ⟨hlo, hhi, hn, hleap⟩ := id ht
  have hday : -96465292 ≤ t.day ∧ t.day ≤ 95026236 := by
    simp only [earliest, latest, day, dayLength] at *
    omega
  have hy := Date.year_bounds hd.1 (by rw [hd.2]; exact hday.1) (by rw [hd.2]; exact hday.2)
  obtain ⟨s, hs, hs₁⟩ : ∃ s : Nat, t.secondOfDay.toNat = s ∧ t.seconds = t.day * 86400 + s ∧
      s < 86400 := by
    refine ⟨_, rfl, ?_⟩
    simp only [secondOfDay, day, dayLength]
    omega
  simp only [ofText, localText, clockText, hs, String.toList_ofList, List.append_assoc,
    List.cons_append]
  by_cases hl : 1000000000 ≤ t.nanos
  · have h60 : s % 60 + 1 = 60 := by
      have := hleap hl
      omega
    simp only [hl, if_true, h60]
    rw [read_parts _ _ _ 60 _ hd.1 hy (by omega) (by omega) (by omega) (by omega) hz]
    refine assemble_eq_ok ht hy hd.1 ?_ ?_
    · simp only [hd.2, dayLength, if_true]
      omega
    · simp only [if_true]
      omega
  · simp only [hl, if_false]
    rw [read_parts _ _ _ _ _ hd.1 hy (by omega) (by omega) (by omega) (by omega) hz]
    have h60 : s % 60 ≠ 60 := by omega
    refine assemble_eq_ok ht hy hd.1 ?_ ?_
    · simp only [hd.2, dayLength, if_neg h60]
      omega
    · simp only [if_neg h60]

theorem ofText_text {t : Instant} (ht : t.Valid) : ofText t.text = .ok t :=
  ofText_localText ht isZone_letter

theorem ofText_offsetText {t : Instant} (ht : t.Valid) : ofText t.offsetText = .ok t :=
  ofText_localText ht isZone_figures

end ServiceCatalog.Instant
