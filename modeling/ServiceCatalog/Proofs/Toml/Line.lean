import ServiceCatalog.Proofs.Json.Lexeme
import ServiceCatalog.Settings.Printer
import ServiceCatalog.Proofs.Toml.Text
import ServiceCatalog.Toml.Reader

/-!
Single lines of a document as they are printed: a bare key with its value, the header of a table, the
header of a list's next table. Each is read as the statement that it stands for, up to the end of its
line.
-/
namespace ServiceCatalog.Toml

variable {cs rest word : List Char} {c : Char} {n : Nat}

section Numbers

/-- A word of digits alone. -/
def IsDigits (cs : List Char) : Prop := ∀ c ∈ cs, c.isDigit = true

theorem isDigits_toDigits (n : Nat) : IsDigits (Nat.toDigits 10 n) :=
  fun _ hc => Json.isDigit_of_mem_digits hc

theorem IsDigits.notMem (h : IsDigits cs) (hc : c.isDigit = false) : c ∉ cs :=
  fun hmem => Bool.false_ne_true (hc ▸ h c hmem)

theorem splitSign_of_isDigits (h : IsDigits cs) : Numeral.splitSign cs = (false, cs) := by
  unfold Numeral.splitSign
  split
  · exact absurd (List.mem_cons_self ..) (h.notMem (c := '-') rfl)
  · exact absurd (List.mem_cons_self ..) (h.notMem (c := '+') rfl)
  · rfl

theorem isDate_of_isDigits (h : IsDigits cs) : isDate cs = false := by
  unfold isDate
  split
  · exact absurd (by simp) (h.notMem (c := '-') rfl)
  · rfl

theorem time?_of_isDigits (h : IsDigits cs) (lastHour : Nat) : time? lastHour cs = none := by
  unfold time?
  split
  · exact absurd (by simp) (h.notMem (c := ':') rfl)
  · rfl

theorem moment?_of_isDigits (h : IsDigits cs) : moment? cs = none := by
  have htake : IsDigits (cs.take 10) := fun c hc => h c (List.mem_of_mem_take hc)
  simp [moment?, isDate_of_isDigits h, isDate_of_isDigits htake, time?_of_isDigits h]

theorem isGrouped_of_isDigits (h : IsDigits cs) (hne : cs ≠ []) :
    isGrouped Char.isDigit cs = true := by
  induction cs with
  | nil => exact absurd rfl hne
  | cons c cs ih =>
    have hc := h c (List.mem_cons_self ..)
    have htail : IsDigits cs := fun d hd => h d (List.mem_cons_of_mem _ hd)
    cases cs with
    | nil => exact hc
    | cons d ds =>
      rw [isGrouped]
      · rw [hc, ih htail (List.cons_ne_nil d ds)]
        rfl
      · rintro e es rfl rfl
        exact htail.notMem (c := '_') rfl (List.mem_cons_self ..)

theorem ungrouped_of_isDigits (h : IsDigits cs) : ungrouped cs = cs := by
  rw [ungrouped, List.filter_eq_self]
  intro c hc
  rw [bne_iff_ne]
  rintro rfl
  exact h.notMem rfl hc

theorem signed64?_toDigits (hn : n ≤ Settings.maxSigned) :
    Numeral.signed64? (Nat.toDigits 10 n) = some (n : Int) := by
  have hdigits := isDigits_toDigits n
  have hnatural : Numeral.natural? (Nat.toDigits 10 n) = some n := by
    have hne : Nat.toDigits 10 n ≠ [] := Nat.toDigits_ne_nil
    rw [Numeral.natural?, if_neg, Nat.ofDigitChars_ten_toDigits]
    simpa [hne, IsDigits] using hdigits
  have hlt : n < 1 <<< 63 := by
    have hmax : Settings.maxSigned < 1 <<< 63 := by decide
    omega
  simp only [Numeral.signed64?, splitSign_of_isDigits hdigits, hnatural, Option.bind_eq_bind,
    Option.bind_some, Bool.false_eq_true, if_false, if_pos hlt]
  rfl

theorem integer?_toDigits (hn : n ≤ Settings.maxSigned) :
    integer? (Nat.toDigits 10 n) = some (n : Int) := by
  have hdigits := isDigits_toDigits n
  have hwhole : isWhole (Nat.toDigits 10 n) = true := by
    rw [isWhole, isGrouped_of_isDigits hdigits Nat.toDigits_ne_nil, Bool.true_and, Bool.or_eq_true,
      bne_iff_ne, beq_iff_eq, or_iff_not_imp_left, not_not]
    exact Json.head?_digits n
  unfold integer?
  split
  case h_4 =>
    rw [splitSign_of_isDigits hdigits, ungrouped_of_isDigits hdigits, if_pos hwhole,
      signed64?_toDigits hn]
  case h_1 h => exact absurd (by rw [h]; simp) (hdigits.notMem (c := 'x') rfl)
  case h_2 h => exact absurd (by rw [h]; simp) (hdigits.notMem (c := 'o') rfl)
  case h_3 h => exact absurd (by rw [h]; simp) (hdigits.notMem (c := 'b') rfl)

theorem scalar_toDigits (hn : n ≤ Settings.maxSigned) :
    scalar (Nat.toDigits 10 n) = some (.whole n) := by
  have hdigits := isDigits_toDigits n
  have hne : ∀ s : String, 'e' ∈ s.toList → Nat.toDigits 10 n ≠ s.toList := by
    intro s hs h
    exact hdigits.notMem (c := 'e') rfl (h ▸ hs)
  rw [scalar, if_neg (hne _ (by decide)), if_neg (hne _ (by decide)),
    moment?_of_isDigits hdigits]
  simp only [integer?_toDigits hn]

end Numbers

theorem splitWord_append (h : word.all isWordChar = true) (rest : List Char) :
    splitWord (word ++ '\n' :: rest) = (word, '\n' :: rest) := by
  rw [List.all_eq_true] at h
  have hline : isWordChar '\n' = false := by decide
  have htake : (word ++ '\n' :: rest).takeWhile isWordChar = word := by
    rw [List.takeWhile_append_of_pos h]
    simp [hline]
  have hdrop : (word ++ '\n' :: rest).dropWhile isWordChar = '\n' :: rest := by
    rw [List.dropWhile_append_of_pos h]
    simp [hline]
  simp [splitWord, htake, hdrop]

theorem readScalar_append {v : Setting} (h : word.all isWordChar = true)
    (hv : scalar word = some v) (rest : List Char) :
    readScalar (word ++ '\n' :: rest) = some (v, '\n' :: rest) := by
  simp [readScalar, splitWord_append h, hv]

theorem isWordChar_of_isDigit (h : c.isDigit = true) : isWordChar c = true := by
  simp [isWordChar, Char.isAlphanum, h]

theorem readScalar_toDigits (hn : n ≤ Settings.maxSigned) (rest : List Char) :
    readScalar (Nat.toDigits 10 n ++ '\n' :: rest) = some (.whole n, '\n' :: rest) :=
  readScalar_append
    (List.all_eq_true.mpr fun _ hc => isWordChar_of_isDigit (isDigits_toDigits n _ hc))
    (scalar_toDigits hn) rest

theorem readScalar_printBool (b : Bool) (rest : List Char) :
    readScalar (Json.printBool b ++ '\n' :: rest) = some (.flag b, '\n' :: rest) := by
  cases b
  · exact readScalar_append (by decide) rfl rest
  · exact readScalar_append (by decide) rfl rest

theorem isBlank_eq_false (hspace : c ≠ ' ') (htab : c ≠ '\t') : isBlank c = false := by
  rw [isBlank, Bool.or_eq_false_iff, beq_eq_false_iff_ne, beq_eq_false_iff_ne]
  exact ⟨hspace, htab⟩

end ServiceCatalog.Toml

namespace ServiceCatalog

open Toml

/-- What a value of a document is read as. -/
def Written.setting : Written → Setting
  | .text s => .text s
  | .number n => .whole n
  | .flag b => .flag b
  | .emptyList => .list []

namespace Written

variable {w : Written} {rest : List Char}

theorem readValue_bare {fuel depth : Nat} {c : Char} {cs : List Char}
    (hc : isWordChar c = true) : readValue (fuel + 1) depth (c :: cs) = readScalar (c :: cs) := by
  rw [readValue]
  all_goals exact fun _ h => by rw [(List.cons.inj h).1] at hc; cases hc

theorem exists_printText (s : String) :
    ∃ c cs, printText s = c :: cs ∧ (c = '"' ∨ c = '\'') := by
  dsimp only [printText]
  split
  · exact ⟨_, _, rfl, .inl rfl⟩
  · exact ⟨_, _, rfl, .inr rfl⟩
  · exact ⟨_, _, rfl, .inl rfl⟩
  · exact ⟨_, _, rfl, .inr rfl⟩

theorem exists_toDigits (n : Nat) : ∃ c cs, Nat.toDigits 10 n = c :: cs ∧ c.isDigit = true := by
  obtain ⟨c, cs, h⟩ := List.exists_cons_of_ne_nil (Nat.toDigits_ne_nil (b := 10) (n := n))
  exact ⟨c, cs, h, isDigits_toDigits n c (by simp [h])⟩

theorem readValue_chars (h : w.hasForm = true) (fuel depth : Nat) (rest : List Char) :
    readValue (fuel + 2) (depth + 1) (w.chars ++ '\n' :: rest) = some (w.setting, '\n' :: rest) := by
  cases w with
  | text s =>
    have hread := readText_printText s ('\n' :: rest) (by simp) (by simp)
    obtain ⟨c, cs, heq, hc⟩ := exists_printText s
    rw [heq] at hread
    rw [chars, heq]
    rcases hc with rfl | rfl
    · simp only [List.cons_append, readValue] at hread ⊢
      rw [hread]
      simp [setting]
    · simp only [List.cons_append, readValue] at hread ⊢
      rw [hread]
      simp [setting]
  | number n =>
    obtain ⟨c, cs, heq, hc⟩ := exists_toDigits n
    have hread := readScalar_toDigits (of_decide_eq_true h) rest
    rw [heq, List.cons_append] at hread
    rw [chars, heq, List.cons_append, readValue_bare (isWordChar_of_isDigit hc)]
    exact hread
  | flag b =>
    have hread := readScalar_printBool b rest
    cases b
    · exact (readValue_bare (c := 'f') (by decide)).trans hread
    · exact (readValue_bare (c := 't') (by decide)).trans hread
  | emptyList => simp [chars, readValue, readItems, skipGaps, setting, isBlank]

theorem skipBlanks_chars (w : Written) (rest : List Char) :
    skipBlanks (w.chars ++ rest) = w.chars ++ rest := by
  have hskip : ∀ (c : Char) cs, isBlank c = false → skipBlanks (c :: cs) = c :: cs := by
    intro c cs hc
    simp [skipBlanks, hc]
  cases w with
  | text s =>
    obtain ⟨c, cs, heq, hc⟩ := exists_printText s
    rw [chars, heq]
    exact hskip c _ (by rcases hc with rfl | rfl <;> rfl)
  | number n =>
    obtain ⟨c, cs, heq, hc⟩ := exists_toDigits n
    rw [chars, heq]
    exact hskip c _ (isBlank_eq_false (by rintro rfl; cases hc) (by rintro rfl; cases hc))
  | flag b => cases b <;> exact hskip _ _ rfl
  | emptyList => exact hskip _ _ rfl

end Written

section Keys

/-- A name that may stand bare. -/
def IsBare (name : String) : Prop :=
  name.toList ≠ [] ∧ name.toList.all isKeyChar = true

instance (name : String) : Decidable (IsBare name) := inferInstanceAs (Decidable (_ ∧ _))

variable {name : String} {c : Char} {cs rest : List Char}

theorem exists_of_isBare (h : IsBare name) :
    ∃ c cs, name.toList = c :: cs ∧ isKeyChar c = true := by
  obtain ⟨c, cs, heq⟩ := List.exists_cons_of_ne_nil h.1
  exact ⟨c, cs, heq, List.all_eq_true.mp h.2 c (by simp [heq])⟩

/-- A bare name starts with none of the characters that mean something. -/
theorem IsBare.ne_cons (h : IsBare name) (hc : isKeyChar c = false) (rest after : List Char) :
    name.toList ++ rest ≠ c :: after := by
  obtain ⟨d, ds, heq, hd⟩ := exists_of_isBare h
  rw [heq]
  rintro hn
  rw [(List.cons.inj hn).1, hc] at hd
  cases hd

theorem readSimpleKey_bare (h : IsBare name) (hc : isKeyChar c = false) (rest : List Char) :
    readSimpleKey (name.toList ++ c :: rest) = some (name, c :: rest) := by
  have htake : (name.toList ++ c :: rest).takeWhile isKeyChar = name.toList := by
    rw [List.takeWhile_append_of_pos (List.all_eq_true.mp h.2)]
    simp [hc]
  have hdrop : (name.toList ++ c :: rest).dropWhile isKeyChar = c :: rest := by
    rw [List.dropWhile_append_of_pos (List.all_eq_true.mp h.2)]
    simp [hc]
  rw [readSimpleKey]
  · simp [htake, hdrop, h.1]
  · exact h.ne_cons (by decide) _
  · exact h.ne_cons (by decide) _

theorem isBlank_of_isKeyChar (h : isKeyChar c = true) : isBlank c = false :=
  isBlank_eq_false (by rintro rfl; cases h) (by rintro rfl; cases h)

theorem skipBlanks_bare (h : IsBare name) (rest : List Char) :
    skipBlanks (name.toList ++ rest) = name.toList ++ rest := by
  obtain ⟨c, cs, heq, hc⟩ := exists_of_isBare h
  simp [heq, skipBlanks, isBlank_of_isKeyChar hc]

/-- A name up to a character that ends it, with blanks between them. -/
theorem readKey_bare (fuel : Nat) {d : Char} (h : IsBare name) (hc : isKeyChar c = false)
    (hd : d ≠ '.') (hskip : skipBlanks (c :: cs) = d :: rest) :
    readKey (fuel + 1) (name.toList ++ c :: cs) = some ([], name, d :: rest) := by
  simp only [readKey, skipBlanks_bare h, readSimpleKey_bare h hc, Option.bind_eq_bind,
    Option.bind_some, hskip]
  split
  · next heq => exact absurd (List.cons.inj heq).1 hd
  · rfl

theorem endOfLine_line (rest : List Char) : endOfLine ('\n' :: rest) = some rest := by
  simp [endOfLine, skipBlanks, isBlank]

theorem readStatement_line {e : String × Written} (h : IsBare e.1) (hw : e.2.hasForm = true)
    (rest : List Char) :
    readStatement (WrittenTable.line e ++ rest) = some (.entry [] e.1 e.2.setting, rest) := by
  have hline : WrittenTable.line e ++ rest =
      e.1.toList ++ ' ' :: '=' :: ' ' :: (e.2.chars ++ '\n' :: rest) := by
    simp [WrittenTable.line]
  have hkey : readKey maxDepth (e.1.toList ++ ' ' :: '=' :: ' ' :: (e.2.chars ++ '\n' :: rest)) =
      some ([], e.1, '=' :: ' ' :: (e.2.chars ++ '\n' :: rest)) :=
    readKey_bare 78 h (by decide) (by decide) rfl
  have hskip : skipBlanks (' ' :: (e.2.chars ++ '\n' :: rest)) = e.2.chars ++ '\n' :: rest := by
    rw [skipBlanks, List.dropWhile_cons_of_pos (by decide)]
    exact e.2.skipBlanks_chars _
  rw [hline, readStatement]
  · obtain ⟨fuel, hfuel⟩ : ∃ fuel, (e.1.toList ++ ' ' :: '=' :: ' ' ::
        (e.2.chars ++ '\n' :: rest)).length + 1 = fuel + 2 :=
      ⟨e.1.toList.length + (' ' :: ' ' :: (e.2.chars ++ '\n' :: rest)).length, by simp; omega⟩
    rw [hkey, hfuel]
    simp [hskip, Written.readValue_chars hw, maxDepth, endOfLine_line]
  · exact fun after => h.ne_cons (by decide) _ _
  · exact h.ne_cons (by decide) _

theorem readStatement_header (h : IsBare name) (rest : List Char) :
    readStatement ('[' :: (name.toList ++ ']' :: '\n' :: rest)) = some (.header [] name, rest) := by
  have hkey : readKey maxDepth (name.toList ++ ']' :: '\n' :: rest) =
      some ([], name, ']' :: '\n' :: rest) :=
    readKey_bare 78 h (by decide) (by decide) rfl
  rw [readStatement]
  · simp [hkey, endOfLine_line]
  · exact fun after hn => h.ne_cons (by decide) _ after hn

theorem readStatement_item (table list : String) (ht : IsBare table) (hl : IsBare list)
    (rest : List Char) :
    readStatement ('[' :: '[' :: (table.toList ++ '.' :: (list.toList ++ ']' :: ']' :: '\n' :: rest))) =
      some (.item [table] list, rest) := by
  have hlist : readKey 78 (list.toList ++ ']' :: ']' :: '\n' :: rest) =
      some ([], list, ']' :: ']' :: '\n' :: rest) :=
    readKey_bare 77 hl (by decide) (by decide) rfl
  have hkey : readKey maxDepth (table.toList ++ '.' :: (list.toList ++ ']' :: ']' :: '\n' :: rest)) =
      some ([table], list, ']' :: ']' :: '\n' :: rest) := by
    have hpoint : skipBlanks ('.' :: (list.toList ++ ']' :: ']' :: '\n' :: rest)) =
        '.' :: (list.toList ++ ']' :: ']' :: '\n' :: rest) := rfl
    show readKey (78 + 1) _ = _
    rw [readKey, skipBlanks_bare ht, readSimpleKey_bare ht (by decide)]
    simp only [Option.bind_eq_bind, Option.bind_some, hpoint, hlist]
    rfl
  simp [readStatement, hkey, endOfLine_line]

end Keys

section Documents

variable {ss : List Statement} {s : Statement} {front cs rest : List Char}

/-- The text is read as these statements. -/
def ReadAs (cs : List Char) (ss : List Statement) : Prop :=
  ss.length ≤ cs.length ∧ ∀ fuel, ss.length < fuel → readStatements fuel cs = some ss

theorem readAs_nil : ReadAs [] [] := by
  refine ⟨Nat.le_refl 0, fun fuel hfuel => ?_⟩
  obtain ⟨fuel, rfl⟩ := Nat.exists_eq_succ_of_ne_zero hfuel.ne'
  simp [readStatements, skipGaps]

/-- Empty lines do not count. -/
theorem ReadAs.newLine (h : ReadAs cs ss) : ReadAs ('\n' :: cs) ss := by
  refine ⟨h.1.trans (Nat.le_succ _), fun fuel hfuel => ?_⟩
  rw [← h.2 fuel hfuel]
  cases fuel with
  | zero => rfl
  | succ fuel => simp [readStatements, skipGaps]

theorem ReadAs.cons (h : ReadAs rest ss) (hne : front ≠ [])
    (hgap : skipGaps false (front ++ rest) = some (front ++ rest))
    (hs : readStatement (front ++ rest) = some (s, rest)) : ReadAs (front ++ rest) (s :: ss) := by
  obtain ⟨c, cs, rfl⟩ := List.exists_cons_of_ne_nil hne
  refine ⟨?_, fun fuel hfuel => ?_⟩
  · have := h.1
    simp only [List.length_append, List.length_cons]
    omega
  · obtain ⟨fuel, rfl⟩ := Nat.exists_eq_succ_of_ne_zero (Nat.ne_zero_of_lt hfuel)
    have hrest := h.2 fuel (by simpa using hfuel)
    simp only [List.cons_append] at hgap hs ⊢
    simp [readStatements, hgap, hs, hrest]

theorem skipGaps_of_isKeyChar {c : Char} (h : isKeyChar c = true ∨ c = '[') (cs : List Char) :
    skipGaps false (c :: cs) = some (c :: cs) := by
  have hne : ∀ d : Char, isKeyChar d = false → d ≠ '[' → c ≠ d := by
    rintro d hd hbracket rfl
    exact h.elim (fun h => by rw [hd] at h; cases h) hbracket
  have hblank : isBlank c = false :=
    isBlank_eq_false (hne _ (by decide) (by decide)) (hne _ (by decide) (by decide))
  rw [skipGaps]
  · simp [hblank]
  · exact hne _ (by decide) (by decide)
  · exact fun _ h => absurd h (hne _ (by decide) (by decide))
  · exact hne _ (by decide) (by decide)

theorem skipGaps_bare {name : String} (h : IsBare name) (rest : List Char) :
    skipGaps false (name.toList ++ rest) = some (name.toList ++ rest) := by
  obtain ⟨c, cs, heq, hc⟩ := exists_of_isBare h
  rw [heq]
  exact skipGaps_of_isKeyChar (.inl hc) _

theorem ReadAs.entry {e : String × Written} (h : ReadAs rest ss) (hk : IsBare e.1)
    (hw : e.2.hasForm = true) :
    ReadAs (WrittenTable.line e ++ rest) (.entry [] e.1 e.2.setting :: ss) := by
  refine h.cons (by simp [WrittenTable.line]) ?_ (readStatement_line hk hw rest)
  rw [WrittenTable.line, List.append_assoc, List.append_assoc]
  exact skipGaps_bare hk _

/-- What the lines of a table are read as. -/
def entryStatements (es : List (String × Written)) : List Statement :=
  es.map fun e => .entry [] e.1 e.2.setting

theorem ReadAs.entries {es : List (String × Written)} (h : ReadAs rest ss)
    (hes : ∀ e ∈ es, IsBare e.1 ∧ e.2.hasForm = true) :
    ReadAs (es.flatMap WrittenTable.line ++ rest) (entryStatements es ++ ss) := by
  induction es with
  | nil => exact h
  | cons e es ih =>
    have htail := ih fun d hd => hes d (List.mem_cons_of_mem _ hd)
    obtain ⟨hk, hw⟩ := hes e (List.mem_cons_self ..)
    simpa [entryStatements] using htail.entry hk hw

/-- What can be read: bare names, and values that have a form. -/
structure WrittenTable.Readable (t : WrittenTable) : Prop where
  header : t.item = false → IsBare t.name
  item : t.item = true → t.name = "topics.list"
  entries : ∀ e ∈ t.entries, IsBare e.1 ∧ e.2.hasForm = true

/-- What a table is read as. -/
def WrittenTable.statements (t : WrittenTable) : List Statement :=
  (if t.item then .item ["topics"] "list" else .header [] t.name) :: entryStatements t.entries

theorem ReadAs.table {t : WrittenTable} (h : ReadAs rest ss) (ht : t.Readable) :
    ReadAs (t.chars ++ rest) (t.statements ++ ss) := by
  have hentries := h.entries ht.entries
  rw [WrittenTable.chars, List.append_assoc, WrittenTable.statements, List.cons_append]
  cases hitem : t.item with
  | false =>
    have hheader : t.header = '[' :: (t.name.toList ++ [']', '\n']) := by
      simp [WrittenTable.header, hitem]
    rw [hheader]
    refine hentries.cons (by simp) (skipGaps_of_isKeyChar (.inr rfl) _) ?_
    simpa using readStatement_header (ht.header hitem) _
  | true =>
    have hheader : t.header = '[' :: '[' :: ("topics.list".toList ++ [']', ']', '\n']) := by
      simp [WrittenTable.header, hitem, ht.item hitem]
    rw [hheader]
    refine hentries.cons (by simp) (skipGaps_of_isKeyChar (.inr rfl) _) ?_
    exact readStatement_item "topics" "list" (by decide) (by decide) _

theorem readAs_printTables {ts : List WrittenTable} (h : ∀ t ∈ ts, t.Readable) :
    ReadAs (Settings.printTables ts) (ts.flatMap WrittenTable.statements) := by
  induction ts with
  | nil => exact readAs_nil
  | cons t ts ih =>
    have hts := ih fun u hu => h u (List.mem_cons_of_mem _ hu)
    have ht := h t (List.mem_cons_self ..)
    cases ts with
    | nil => simpa [Settings.printTables] using readAs_nil.table ht
    | cons u us => simpa [Settings.printTables] using hts.newLine.table ht

end Documents

end ServiceCatalog
