import ServiceCatalog.Json.Outline
import ServiceCatalog.Proofs.Json.Lexeme

/-!
Printed text is read back as the value that was printed, unless more containers stand inside each other
than the reader may open; then it is refused. The two forms of text differ in their blanks only, and
the compact one stands on one line.
-/
namespace ServiceCatalog.Json

mutual
/-- How many containers stand inside each other. -/
def height : Json → Nat
  | .arr items => heightItems items + 1
  | .obj fields => heightFields fields + 1
  | _ => 0
def heightItems : List Json → Nat
  | [] => 0
  | j :: rest => max j.height (heightItems rest)
def heightFields : List (String × Json) → Nat
  | [] => 0
  | (_, j) :: rest => max j.height (heightFields rest)
end

mutual
/-- All numbers are whole and fit a word. -/
def Exact : Json → Prop
  | .num x => x.IsWord
  | .arr items => ExactItems items
  | .obj fields => ExactFields fields
  | _ => True
def ExactItems : List Json → Prop
  | [] => True
  | j :: rest => j.Exact ∧ ExactItems rest
def ExactFields : List (String × Json) → Prop
  | [] => True
  | (_, j) :: rest => j.Exact ∧ ExactFields rest
end

/-- A character that can start a value. -/
def Opens (c : Char) : Prop := isBlankChar c = false ∧ c ≠ ']' ∧ c ≠ '}'

instance (c : Char) : Decidable (Opens c) := inferInstanceAs (Decidable (_ ∧ _))

theorem skipBlanks_cons {c : Char} (cs : List Char) (h : isBlankChar c = false) :
    skipBlanks (c :: cs) = c :: cs := by
  simp [skipBlanks, h]

theorem skipBlanks_append {blanks : List Char} (h : ∀ c ∈ blanks, isBlankChar c = true)
    (cs : List Char) : skipBlanks (blanks ++ cs) = skipBlanks cs :=
  List.dropWhile_append_of_pos h

theorem isBlankChar_of_mem_newLine {level : Nat} : ∀ c ∈ newLine level, isBlankChar c = true := by
  intro c hc
  simp only [newLine, List.mem_cons, List.mem_replicate] at hc
  rcases hc with rfl | ⟨-, rfl⟩ <;> decide

theorem skipBlanks_newLine (level : Nat) (cs : List Char) :
    skipBlanks (newLine level ++ cs) = skipBlanks cs :=
  skipBlanks_append isBlankChar_of_mem_newLine cs

theorem skipBlanks_idem (cs : List Char) : skipBlanks (skipBlanks cs) = skipBlanks cs := by
  unfold skipBlanks
  induction cs with
  | nil => rfl
  | cons c cs ih =>
    by_cases h : isBlankChar c = true
    · simpa [h] using ih
    · simp [h]

theorem opens_of_isDigit {c : Char} (h : c.isDigit = true) : Opens c := by
  have hr := Char.isDigit_iff_toNat.mp h
  have hne : ∀ d : Char, d.isDigit = false → c ≠ d := by
    rintro d hd rfl
    rw [h] at hd
    cases hd
  refine ⟨?_, hne _ (by decide), hne _ (by decide)⟩
  simp [isBlankChar, hne ' ' (by decide), hne '\n' (by decide), hne '\t' (by decide),
    hne '\r' (by decide)]

theorem printNumber_head (x : Number) (hx : x.IsWord) :
    ∃ c cs, printNumber x = c :: cs ∧ (c = '-' ∨ c.isDigit = true) := by
  cases x with
  | nat n =>
    obtain ⟨c, cs, h⟩ := List.exists_cons_of_ne_nil (Nat.toDigits_ne_nil (n := n) (b := 10))
    exact ⟨c, cs, h, .inr (isDigit_of_mem_digits (n := n) (by simp [h]))⟩
  | neg n => exact ⟨'-', _, rfl, .inl rfl⟩
  | float x => exact hx.elim

/-- Blanks in front of a value do not matter. -/
theorem readValue_skipBlanks (fuel depth : Nat) (cs : List Char) :
    readValue fuel depth (skipBlanks cs) = readValue fuel depth cs := by
  cases fuel with
  | zero => rfl
  | succ fuel => simp only [readValue, skipBlanks_idem]

theorem readItems_skipBlanks (fuel depth : Nat) (cs : List Char) :
    readItems fuel depth (skipBlanks cs) = readItems fuel depth cs := by
  cases fuel with
  | zero => rfl
  | succ fuel => simp only [readItems, readValue_skipBlanks]

theorem readFields_skipBlanks (fuel depth : Nat) (cs : List Char) :
    readFields fuel depth (skipBlanks cs) = readFields fuel depth cs := by
  cases fuel with
  | zero => rfl
  | succ fuel => simp only [readFields, skipBlanks_idem]

theorem readValue_append {blanks : List Char} (h : ∀ c ∈ blanks, isBlankChar c = true)
    (fuel depth : Nat) (cs : List Char) :
    readValue fuel depth (blanks ++ cs) = readValue fuel depth cs := by
  rw [← readValue_skipBlanks, skipBlanks_append h, readValue_skipBlanks]

theorem readValue_number (fuel depth : Nat) (x : Number) {rest : List Char} (hx : x.IsWord)
    (h : Stops rest) :
    readValue (fuel + 1) depth (printNumber x ++ rest) = some (.num x, rest) := by
  have hr := readNumber_printNumber x hx h
  obtain ⟨c, cs, hp, hc⟩ := printNumber_head x hx
  have ho : Opens c := by
    rcases hc with rfl | hc
    · decide
    · exact opens_of_isDigit hc
  have hne : ∀ d : Char, d ≠ '-' → d.isDigit = false → c ≠ d := by
    rintro d hm hd rfl
    rcases hc with rfl | hc
    · exact hm rfl
    · rw [hc] at hd
      cases hd
  rw [hp, List.cons_append] at hr ⊢
  rw [readValue, skipBlanks_cons _ ho.1]
  split
  · next h => cases h
  · next h => cases h; exact absurd rfl (hne '"' (by decide) (by decide))
  · next h => cases h; exact absurd rfl (hne '[' (by decide) (by decide))
  · next h => cases h; exact absurd rfl (hne '{' (by decide) (by decide))
  · next h =>
    cases h
    rw [if_pos hc, hr]
    rfl

theorem stops_append {blanks rest : List Char} (h : ∀ c ∈ blanks, isBlankChar c = true)
    (hr : Stops rest) : Stops (blanks ++ rest) := by
  cases blanks with
  | nil => exact hr
  | cons c blanks =>
    have hc := h c (List.mem_cons_self ..)
    simp only [isBlankChar, Bool.or_eq_true, beq_iff_eq] at hc
    rcases hc with ((rfl | rfl) | rfl) | rfl <;> exact .cons (by decide)

theorem Stops.newLine (level : Nat) (rest : List Char) : Stops (newLine level ++ rest) :=
  .cons (by decide)

theorem newLine_length (level : Nat) : (newLine level).length = 2 * level + 1 := by
  simp [newLine]

/-- The blanks that may stand in a text. -/
structure Spacing where
  /-- Before an item at some depth, and before the bracket that closes its container. -/
  gap : Nat → List Char
  /-- After a colon. -/
  space : List Char
  blank_gap : ∀ level, ∀ c ∈ gap level, isBlankChar c = true
  blank_space : ∀ c ∈ space, isBlankChar c = true

namespace Spacing

def airy : Spacing where
  gap := newLine
  space := [' ']
  blank_gap _ := isBlankChar_of_mem_newLine
  blank_space := by simp [isBlankChar]

def tight : Spacing where
  gap _ := []
  space := []
  blank_gap := by simp
  blank_space := by simp

variable (s : Spacing)

mutual
def text (level : Nat) : Json → List Char
  | .null => "null".toList
  | .bool b => printBool b
  | .num n => printNumber n
  | .str s => printString s
  | .arr [] => ['[', ']']
  | .obj [] => ['{', '}']
  | .arr (j :: rest) => '[' :: items (level + 1) (j :: rest) ++ s.gap level ++ [']']
  | .obj (f :: rest) => '{' :: fields (level + 1) (f :: rest) ++ s.gap level ++ ['}']
def items (level : Nat) : List Json → List Char
  | [] => []
  | [j] => s.gap level ++ text level j
  | j :: k :: rest => s.gap level ++ text level j ++ ',' :: items level (k :: rest)
def fields (level : Nat) : List (String × Json) → List Char
  | [] => []
  | [(name, j)] => s.gap level ++ printString name ++ ':' :: (s.space ++ text level j)
  | (name, j) :: f :: rest =>
    s.gap level ++ printString name ++ ':' :: (s.space ++ text level j) ++
      ',' :: fields level (f :: rest)
end

end Spacing

mutual
theorem prettyAt_eq (level : Nat) : (j : Json) → prettyAt level j = Spacing.airy.text level j
  | .null | .bool _ | .num _ | .str _ | .arr [] | .obj [] => by simp only [prettyAt, Spacing.text]
  | .arr (j :: rest) => by
    rw [prettyAt, Spacing.text, prettyItems_eq]
    rfl
  | .obj (f :: rest) => by
    rw [prettyAt, Spacing.text, prettyFields_eq]
    rfl
theorem prettyItems_eq (level : Nat) :
    (items : List Json) → prettyItems level items = Spacing.airy.items level items
  | [] => by simp only [prettyItems, Spacing.items]
  | [j] => by
    rw [prettyItems, Spacing.items, prettyAt_eq]
    rfl
  | j :: k :: rest => by
    rw [prettyItems, Spacing.items, prettyAt_eq, prettyItems_eq]
    rfl
theorem prettyFields_eq (level : Nat) :
    (fields : List (String × Json)) → prettyFields level fields = Spacing.airy.fields level fields
  | [] => by simp only [prettyFields, Spacing.fields]
  | [(name, j)] => by
    rw [prettyFields, Spacing.fields, prettyAt_eq]
    rfl
  | (name, j) :: f :: rest => by
    rw [prettyFields, Spacing.fields, prettyAt_eq, prettyFields_eq]
    rfl
end

mutual
theorem compact_eq (level : Nat) : (j : Json) → j.compact = Spacing.tight.text level j
  | .null | .bool _ | .num _ | .str _ => by simp only [compact, Spacing.text]
  | .arr [] | .obj [] => rfl
  | .arr (j :: rest) => by
    rw [compact, Spacing.text, compactItems_eq (level + 1), Spacing.tight, List.append_nil]
  | .obj (f :: rest) => by
    rw [compact, Spacing.text, compactFields_eq (level + 1), Spacing.tight, List.append_nil]
theorem compactItems_eq (level : Nat) :
    (items : List Json) → compactItems items = Spacing.tight.items level items
  | [] => by simp only [compactItems, Spacing.items]
  | [j] => by
    rw [compactItems, Spacing.items, compact_eq level]
    rfl
  | j :: k :: rest => by
    rw [compactItems, Spacing.items, compact_eq level, compactItems_eq level]
    rfl
theorem compactFields_eq (level : Nat) :
    (fields : List (String × Json)) → compactFields fields = Spacing.tight.fields level fields
  | [] => by simp only [compactFields, Spacing.fields]
  | [(name, j)] => by
    rw [compactFields, Spacing.fields, compact_eq level]
    rfl
  | (name, j) :: f :: rest => by
    rw [compactFields, Spacing.fields, compact_eq level, compactFields_eq level]
    rfl
end

section Spaced

variable {s : Spacing} {fuel : Nat}

theorem text_head (s : Spacing) (level : Nat) (j : Json) (hj : j.Exact) :
    ∃ c cs, s.text level j = c :: cs ∧ Opens c := by
  cases j with
  | null => exact ⟨'n', _, rfl, by decide⟩
  | bool b =>
    cases b with
    | false => exact ⟨'f', _, rfl, by decide⟩
    | true => exact ⟨'t', _, rfl, by decide⟩
  | num x =>
    obtain ⟨c, cs, h, hc⟩ := printNumber_head x (by simpa [Exact] using hj)
    refine ⟨c, cs, by simp [Spacing.text, h], ?_⟩
    rcases hc with rfl | hc
    · decide
    · exact opens_of_isDigit hc
  | str t => exact ⟨_, _, rfl, by decide⟩
  | arr items => cases items <;> exact ⟨_, _, rfl, by decide⟩
  | obj fields => cases fields <;> exact ⟨_, _, rfl, by decide⟩

theorem skipBlanks_gap (s : Spacing) (level : Nat) (cs : List Char) :
    skipBlanks (s.gap level ++ cs) = skipBlanks cs :=
  skipBlanks_append (s.blank_gap level) cs

theorem readValue_gap (s : Spacing) (fuel depth level : Nat) (cs : List Char) :
    readValue fuel depth (s.gap level ++ cs) = readValue fuel depth cs :=
  readValue_append (s.blank_gap level) fuel depth cs

theorem readValue_space (s : Spacing) (fuel depth : Nat) (cs : List Char) :
    readValue fuel depth (s.space ++ cs) = readValue fuel depth cs :=
  readValue_append s.blank_space fuel depth cs

theorem stops_gap (s : Spacing) (level : Nat) {rest : List Char} (h : Stops rest) :
    Stops (s.gap level ++ rest) :=
  stops_append (s.blank_gap level) h

/-- With so much fuel, the printed form of each kind is read as what was printed if it is not too
deep, and refused if it is. -/
structure ReadsBack (s : Spacing) (fuel : Nat) : Prop where
  value : ∀ (j : Json) (depth level : Nat) (rest : List Char), j.Exact →
    (s.text level j).length ≤ fuel → Stops rest →
    readValue fuel depth (s.text level j ++ rest) =
      if j.height ≤ depth then some (j, rest) else none
  items : ∀ (j : Json) (items : List Json) (depth level outer : Nat) (rest : List Char),
    ExactItems (j :: items) → (s.items level (j :: items)).length < fuel →
    readItems fuel depth (s.items level (j :: items) ++ (s.gap outer ++ ']' :: rest)) =
      if heightItems (j :: items) ≤ depth then some (j :: items, rest) else none
  fields : ∀ (f : String × Json) (fields : List (String × Json)) (depth level outer : Nat)
    (rest : List Char), ExactFields (f :: fields) →
    (s.fields level (f :: fields)).length < fuel →
    readFields fuel depth (s.fields level (f :: fields) ++ (s.gap outer ++ '}' :: rest)) =
      if heightFields (f :: fields) ≤ depth then some (f :: fields, rest) else none

/-- After a bracket the first item follows, not the closing bracket. -/
theorem skipBlanks_items (s : Spacing) (level : Nat) (j : Json) (items : List Json)
    (rest : List Char) (hj : j.Exact) :
    ∃ c cs, skipBlanks (s.items level (j :: items) ++ rest) = c :: cs ∧ c ≠ ']' := by
  obtain ⟨c, cs, hc, ho⟩ := text_head s level j hj
  cases items <;>
    simp only [Spacing.items, List.append_assoc, skipBlanks_gap, hc, List.cons_append,
      skipBlanks_cons _ ho.1] <;>
    exact ⟨c, _, rfl, ho.2.1⟩

theorem skipBlanks_fields (s : Spacing) (level : Nat) (f : String × Json)
    (fields : List (String × Json)) (rest : List Char) :
    ∃ cs, skipBlanks (s.fields level (f :: fields) ++ rest) = '"' :: cs := by
  obtain ⟨name, j⟩ := f
  cases fields <;>
    simp only [Spacing.fields, printString, List.append_assoc, skipBlanks_gap, List.cons_append,
      skipBlanks_cons _ (show isBlankChar '"' = false by decide)] <;>
    exact ⟨_, rfl⟩

/-- A container is read or refused with its content. -/
theorem map_ite_iff {α β : Type} {p q : Prop} [Decidable p] [Decidable q] (h : p ↔ q) (f : α → β)
    (a : α) (rest : List Char) :
    ((if p then some (a, rest) else none).map fun r => (f r.1, r.2)) =
      if q then some (f a, rest) else none := by
  by_cases hp : p
  · rw [if_pos hp, if_pos (h.mp hp), Option.map_some]
  · rw [if_neg hp, if_neg (mt h.mpr hp), Option.map_none]

theorem ReadsBack.value_succ (ih : ReadsBack s fuel) (j : Json) (depth level : Nat)
    (rest : List Char) (hj : j.Exact) (hf : (s.text level j).length ≤ fuel + 1) (hr : Stops rest) :
    readValue (fuel + 1) depth (s.text level j ++ rest) =
      if j.height ≤ depth then some (j, rest) else none := by
  cases j with
  | null => simp [Spacing.text, readValue, skipBlanks, isBlankChar, readLiteral, literals, height]
  | bool b =>
    cases b <;> simp [Spacing.text, printBool, readValue, skipBlanks, isBlankChar, readLiteral,
      literals, height]
  | num x =>
    have hz : height (.num x) = 0 := by simp [height]
    rw [hz, if_pos (Nat.zero_le depth)]
    exact readValue_number fuel depth x (by simpa [Exact] using hj) hr
  | str t =>
    simp [Spacing.text, printString, readValue, skipBlanks, isBlankChar, readString_flatMap, height]
  | arr items =>
    cases depth with
    | zero => cases items <;> simp [Spacing.text, readValue, skipBlanks, isBlankChar, height]
    | succ depth =>
      cases items with
      | nil => simp [Spacing.text, readValue, skipBlanks, isBlankChar, height, heightItems]
      | cons k items =>
        simp only [Exact] at hj
        have hl : (s.items (level + 1) (k :: items)).length < fuel := by
          simp only [Spacing.text, List.length_cons, List.length_append] at hf
          omega
        have hi := ih.items k items depth (level + 1) level rest hj hl
        obtain ⟨c, cs, hc, hne⟩ := skipBlanks_items s (level + 1) k items
          (s.gap level ++ ']' :: rest) hj.1
        rw [← readItems_skipBlanks, hc] at hi
        simp only [Spacing.text, List.cons_append, List.append_assoc, List.nil_append]
        rw [readValue, skipBlanks_cons _ (by decide)]
        simp only [hc]
        split
        · next h => cases h; exact absurd rfl hne
        · rw [hi, height]
          exact map_ite_iff Nat.succ_le_succ_iff.symm _ _ _
  | obj fields =>
    cases depth with
    | zero => cases fields <;> simp [Spacing.text, readValue, skipBlanks, isBlankChar, height]
    | succ depth =>
      cases fields with
      | nil => simp [Spacing.text, readValue, skipBlanks, isBlankChar, height, heightFields]
      | cons f fields =>
        simp only [Exact] at hj
        have hl : (s.fields (level + 1) (f :: fields)).length < fuel := by
          simp only [Spacing.text, List.length_cons, List.length_append] at hf
          omega
        have hi := ih.fields f fields depth (level + 1) level rest hj hl
        obtain ⟨cs, hc⟩ := skipBlanks_fields s (level + 1) f fields (s.gap level ++ '}' :: rest)
        rw [← readFields_skipBlanks, hc] at hi
        simp only [Spacing.text, List.cons_append, List.append_assoc, List.nil_append]
        rw [readValue, skipBlanks_cons _ (by decide)]
        simp only [hc]
        split
        · next h => cases h
        · rw [hi, height]
          exact map_ite_iff Nat.succ_le_succ_iff.symm _ _ _

theorem ReadsBack.items_succ (ih : ReadsBack s fuel) (j : Json) (items : List Json)
    (depth level outer : Nat) (rest : List Char) (hj : ExactItems (j :: items))
    (hf : (s.items level (j :: items)).length < fuel + 1) :
    readItems (fuel + 1) depth (s.items level (j :: items) ++ (s.gap outer ++ ']' :: rest)) =
      if heightItems (j :: items) ≤ depth then some (j :: items, rest) else none := by
  cases items with
  | nil =>
    simp only [Spacing.items, List.length_append] at hf
    simp only [Spacing.items, List.append_assoc, heightItems, Nat.max_zero]
    rw [readItems, readValue_gap, ih.value j depth level _ hj.1 (by omega)
      (stops_gap s outer (.cons (by decide)))]
    by_cases hd : j.height ≤ depth
    · simp only [if_pos hd, skipBlanks_gap,
        skipBlanks_cons _ (show isBlankChar ']' = false by decide)]
    · simp only [if_neg hd]
  | cons k items =>
    simp only [Spacing.items, List.length_append, List.length_cons] at hf
    have hi := ih.items k items depth level outer rest hj.2 (by omega)
    simp only [Spacing.items, List.append_assoc, List.cons_append]
    rw [readItems, readValue_gap, ih.value j depth level _ hj.1 (by omega) (.cons (by decide)),
      heightItems]
    by_cases hd : j.height ≤ depth
    · rw [if_pos hd]
      simp only [skipBlanks_cons _ (show isBlankChar ',' = false by decide), hi]
      exact map_ite_iff (Nat.max_le.trans (and_iff_right hd)).symm _ _ _
    · simp only [Nat.max_le, hd, false_and, if_false]

theorem ReadsBack.fields_succ (ih : ReadsBack s fuel) (f : String × Json)
    (fields : List (String × Json)) (depth level outer : Nat) (rest : List Char)
    (hj : ExactFields (f :: fields)) (hf : (s.fields level (f :: fields)).length < fuel + 1) :
    readFields (fuel + 1) depth (s.fields level (f :: fields) ++ (s.gap outer ++ '}' :: rest)) =
      if heightFields (f :: fields) ≤ depth then some (f :: fields, rest) else none := by
  obtain ⟨name, j⟩ := f
  cases fields with
  | nil =>
    simp only [Spacing.fields, List.length_append, List.length_cons] at hf
    simp only [Spacing.fields, printString, List.append_assoc, List.cons_append, List.nil_append,
      heightFields, Nat.max_zero]
    rw [readFields, skipBlanks_gap, skipBlanks_cons _ (by decide)]
    simp only [readString_flatMap, skipBlanks_cons _ (show isBlankChar ':' = false by decide)]
    rw [readValue_space, ih.value j depth level _ hj.1 (by omega)
      (stops_gap s outer (.cons (by decide)))]
    by_cases hd : j.height ≤ depth
    · simp only [if_pos hd, skipBlanks_gap,
        skipBlanks_cons _ (show isBlankChar '}' = false by decide), String.ofList_toList]
    · simp only [if_neg hd]
  | cons g fields =>
    simp only [Spacing.fields, List.length_append, List.length_cons] at hf
    have hi := ih.fields g fields depth level outer rest hj.2 (by omega)
    simp only [Spacing.fields, printString, List.append_assoc, List.cons_append, List.nil_append]
    rw [readFields, skipBlanks_gap, skipBlanks_cons _ (by decide)]
    simp only [readString_flatMap, skipBlanks_cons _ (show isBlankChar ':' = false by decide)]
    rw [readValue_space, ih.value j depth level _ hj.1 (by omega) (.cons (by decide)),
      heightFields]
    by_cases hd : j.height ≤ depth
    · rw [if_pos hd]
      simp only [skipBlanks_cons _ (show isBlankChar ',' = false by decide), hi,
        String.ofList_toList]
      exact map_ite_iff (Nat.max_le.trans (and_iff_right hd)).symm _ _ _
    · simp only [Nat.max_le, hd, false_and, if_false]

theorem readsBack (s : Spacing) (fuel : Nat) : ReadsBack s fuel := by
  induction fuel with
  | zero =>
    refine ⟨?_, fun _ _ _ _ _ _ _ hf => absurd hf (Nat.not_lt_zero _),
      fun _ _ _ _ _ _ _ hf => absurd hf (Nat.not_lt_zero _)⟩
    intro j depth level rest hj hf
    obtain ⟨c, cs, h, -⟩ := text_head s level j hj
    simp [h] at hf
  | succ fuel ih => exact ⟨ih.value_succ, ih.items_succ, ih.fields_succ⟩

/-- The text of a value is read as that value, whatever follows, if it is not too deep. -/
theorem readValue_text (s : Spacing) (depth level : Nat) {j : Json} {rest : List Char}
    (hj : j.Exact) (hf : (s.text level j).length ≤ fuel) (hr : Stops rest) :
    readValue fuel depth (s.text level j ++ rest) =
      if j.height ≤ depth then some (j, rest) else none :=
  (readsBack s fuel).value j depth level rest hj hf hr

/-- A text with blanks behind it is read whole. -/
theorem ofText?_text (s : Spacing) (level : Nat) {j : Json} {text blanks : String} (hj : j.Exact)
    (hd : j.height ≤ maxDepth) (ht : text.toList = s.text level j ++ blanks.toList)
    (hs : Stops blanks.toList) (hb : skipBlanks blanks.toList = []) : ofText? text = some j := by
  have hfuel : (s.text level j).length ≤ 2 * (s.text level j ++ blanks.toList).length + 2 := by
    rw [List.length_append]
    omega
  unfold ofText?
  rw [ht]
  dsimp only
  rw [readValue_text s maxDepth level hj hfuel hs, if_pos hd]
  simp [hb]

end Spaced

section Forms

theorem prettyAt_head (level : Nat) (j : Json) (hj : j.Exact) :
    ∃ c cs, prettyAt level j = c :: cs ∧ Opens c := by
  rw [prettyAt_eq]
  exact text_head _ level j hj

theorem skipBlanks_prettyFields (level : Nat) (f : String × Json) (fields : List (String × Json))
    (rest : List Char) :
    ∃ cs, skipBlanks (prettyFields level (f :: fields) ++ rest) = '"' :: cs := by
  rw [prettyFields_eq]
  exact skipBlanks_fields _ level f fields rest

theorem readValue_prettyAt {fuel : Nat} (depth level : Nat) {j : Json} {rest : List Char}
    (hj : j.Exact) (hf : (prettyAt level j).length ≤ fuel) (hr : Stops rest) :
    readValue fuel depth (prettyAt level j ++ rest) =
      if j.height ≤ depth then some (j, rest) else none := by
  rw [prettyAt_eq] at hf ⊢
  exact readValue_text _ depth level hj hf hr

theorem ofText?_toPrettyText {j : Json} {blanks : String} (hj : j.Exact) (hd : j.height ≤ maxDepth)
    (hs : Stops blanks.toList) (hb : skipBlanks blanks.toList = []) :
    ofText? (j.toPrettyText ++ blanks) = some j := by
  refine ofText?_text .airy 0 hj hd ?_ hs hb
  rw [String.toList_append, toPrettyText, String.toList_ofList, prettyAt_eq]

theorem ofText?_toText {j : Json} (hj : j.Exact) (hd : j.height ≤ maxDepth) :
    ofText? j.toText = some j := by
  have ht : j.toText.toList = Spacing.tight.text 0 j ++ "".toList := by
    rw [toText, String.toList_ofList, compact_eq 0]
    simp
  exact ofText?_text .tight 0 hj hd ht .nil rfl

mutual
/-- Compact text stands on one line. -/
theorem bare_compact : {j : Json} → j.Exact → Bare j.compact
  | .null, _ => by decide
  | .bool b, _ => by cases b <;> decide
  | .num x, h => bare_printNumber h
  | .str s, _ => bare_printString s
  | .arr items, h => ((bare_compactItems h).cons (by decide)).append (by decide)
  | .obj fields, h => ((bare_compactFields h).cons (by decide)).append (by decide)
theorem bare_compactItems : {items : List Json} → ExactItems items → Bare (compactItems items)
  | [], _ => by decide
  | [_], h => bare_compact h.1
  | _ :: _ :: _, h => (bare_compact h.1).append ((bare_compactItems h.2).cons (by decide))
theorem bare_compactFields :
    {fields : List (String × Json)} → ExactFields fields → Bare (compactFields fields)
  | [], _ => by decide
  | [(name, _)], h => (bare_printString name).append ((bare_compact h.1).cons (by decide))
  | (name, _) :: _ :: _, h =>
    ((bare_printString name).append ((bare_compact h.1).cons (by decide))).append
      ((bare_compactFields h.2).cons (by decide))
end

end Forms

theorem exactItems_iff {items : List Json} : ExactItems items ↔ ∀ j ∈ items, j.Exact := by
  induction items with
  | nil => simp [ExactItems]
  | cons j items ih => simp [ExactItems, ih]

theorem exactFields_iff {fields : List (String × Json)} :
    ExactFields fields ↔ ∀ f ∈ fields, f.2.Exact := by
  induction fields with
  | nil => simp [ExactFields]
  | cons f fields ih => obtain ⟨name, j⟩ := f; simp [ExactFields, ih]

theorem heightItems_le_iff {items : List Json} {n : Nat} :
    heightItems items ≤ n ↔ ∀ j ∈ items, j.height ≤ n := by
  induction items with
  | nil => simp [heightItems]
  | cons j items ih => simp [heightItems, ih]

theorem heightFields_le_iff {fields : List (String × Json)} {n : Nat} :
    heightFields fields ≤ n ↔ ∀ f ∈ fields, f.2.height ≤ n := by
  induction fields with
  | nil => simp [heightFields]
  | cons f fields ih => obtain ⟨name, j⟩ := f; simp [heightFields, ih]

/-- Exact, and at most so many containers deep. -/
structure Within (n : Nat) (j : Json) : Prop where
  exact : j.Exact
  height : j.height ≤ n

theorem Within.mono {m n : Nat} {j : Json} (h : Within m j) (hmn : m ≤ n) : Within n j :=
  ⟨h.exact, h.height.trans hmn⟩

theorem within_str (n : Nat) (s : String) : Within n (.str s) := ⟨trivial, Nat.zero_le _⟩

theorem within_bool (n : Nat) (b : Bool) : Within n (.bool b) := ⟨trivial, Nat.zero_le _⟩

theorem within_nat (n : Nat) {k : Nat} (h : k < 2 ^ 64) : Within n (.nat k) :=
  ⟨Nat.le_of_lt_succ h, Nat.zero_le _⟩

theorem within_arr {n : Nat} {items : List Json} (h : ∀ j ∈ items, Within n j) :
    Within (n + 1) (.arr items) where
  exact := exactItems_iff.mpr fun j hj => (h j hj).exact
  height := Nat.succ_le_succ (heightItems_le_iff.mpr fun j hj => (h j hj).height)

theorem within_obj {n : Nat} {fields : List (String × Json)} (h : ∀ f ∈ fields, Within n f.2) :
    Within (n + 1) (.obj fields) where
  exact := exactFields_iff.mpr fun f hf => (h f hf).exact
  height := Nat.succ_le_succ (heightFields_le_iff.mpr fun f hf => (h f hf).height)

theorem within_objSome {n : Nat} {fields : List (String × Option Json)}
    (h : ∀ f ∈ fields, ∀ j ∈ f.2, Within n j) : Within (n + 1) (objSome fields) := by
  refine within_obj fun f hf => ?_
  obtain ⟨g, hg, hj⟩ := List.mem_filterMap.mp hf
  obtain ⟨j, hgj, rfl⟩ := Option.map_eq_some_iff.mp hj
  exact h g hg j hgj

end ServiceCatalog.Json
