import Mathlib.Data.List.TakeWhile
import Mathlib.Tactic.IntervalCases
import Mathlib.Tactic.SplitIfs
import ServiceCatalog.Toml.Printer
import ServiceCatalog.Toml.Text

/-!
A text that was printed is read back as it was, whichever of the four forms it was given. Between
three quotes that is a matter of the quotes in the text: no three of them stand together, and those at
its end go to the text and not to the closing ones.
-/
namespace ServiceCatalog.Toml

variable {cs rest : List Char} {c : Char}

theorem isPlain_iff : isPlain c = true ↔ c = '\t' ∨ 32 ≤ c.toNat ∧ c.toNat ≠ 127 := by
  simp [isPlain]

/-- Characters without a form of their own can stand bare, but for line ends. -/
theorem isPlain_of_needsCode (h : needsCode c = false) : isPlain c = true ∨ c = '\n' := by
  simp only [needsCode, Bool.or_eq_false_iff, Bool.and_eq_false_iff, decide_eq_false_iff_not,
    bne_eq_false_iff_eq] at h
  rw [isPlain_iff]
  rcases h with ⟨(h | h) | h, h127⟩
  · exact .inl (.inr ⟨by omega, h127⟩)
  · exact .inl (.inl h)
  · exact .inr h

/-- What a reader between double quotes makes of single characters. -/
structure Unescapes (read : List Char → Option (List Char × List Char)) (multiline : Bool) : Prop where
  letter : ∀ c d rest, escape? c = some d → read ('\\' :: c :: rest) = cons d (read rest)
  number : ∀ a b c d x rest, short? a b c d = some x →
    read ('\\' :: 'u' :: a :: b :: c :: d :: rest) = cons x (read rest)
  bare : ∀ c rest, isPlain c = true → c ≠ '"' → c ≠ '\\' → read (c :: rest) = cons c (read rest)
  line : multiline = true → ∀ rest, read ('\n' :: rest) = cons '\n' (read rest)

theorem escape?_eq_some {c d : Char} (h : escape? c = some d) :
    c = '"' ∨ c = '\\' ∨ c = 'b' ∨ c = 't' ∨ c = 'n' ∨ c = 'f' ∨ c = 'r' := by
  unfold escape? at h
  split_ifs at h <;> grind

theorem unescapes_readBasic : Unescapes readBasic false where
  letter c d rest h := by
    rcases escape?_eq_some h with rfl | rfl | rfl | rfl | rfl | rfl | rfl <;>
      simp [readBasic, h]
  number a b c d x rest h := by simp [readBasic, h]
  bare c rest hplain hquote hslash := by
    rw [readBasic]
    · rw [if_pos ⟨hplain, hslash⟩]
    · exact hquote
    all_goals exact fun _ _ _ _ => by intros; exact hslash ‹_›
  line h := nomatch h

theorem unescapes_readBasicLines : Unescapes (readBasicLines false) true where
  letter c d rest h := by
    rcases escape?_eq_some h with rfl | rfl | rfl | rfl | rfl | rfl | rfl <;>
      simp [readBasicLines, h, endsLine, isBlank]
  number a b c d x rest h := by simp [readBasicLines, h]
  bare c rest hplain hquote hslash := by
    have hline : c ≠ '\n' ∧ c ≠ '\r' := by
      constructor <;> rintro rfl <;> cases hplain
    rw [readBasicLines]
    · simp [hplain, hslash]
    all_goals simp_all
  line _ rest := by simp [readBasicLines]

/-- Controls without a letter are written by their number. -/
theorem short?_hexDigits {n : Nat} (hn : n < 32 ∨ n = 127) :
    ∃ a b c d, (Json.hexDigits 4 n).map Char.toUpper = [a, b, c, d] ∧
      short? a b c d = some (Char.ofNat n) := by
  have hall : ∀ n < 32, ∃ a b c d, (Json.hexDigits 4 n).map Char.toUpper = [a, b, c, d] ∧
      short? a b c d = some (Char.ofNat n) := by
    intro n hn
    interval_cases n <;> exact ⟨_, _, _, _, rfl, by decide⟩
  rcases hn with hn | rfl
  · exact hall n hn
  · exact ⟨_, _, _, _, rfl, by decide⟩

theorem Unescapes.escaped {read : List Char → Option (List Char × List Char)} {multiline : Bool}
    (h : Unescapes read multiline) (hc : c ≠ '"') (rest : List Char) :
    read (escaped multiline c ++ rest) = cons c (read rest) := by
  unfold Toml.escaped
  split_ifs with hslash hline hm htab hreturn hback hfeed hcode
  · subst hslash
    exact h.letter _ _ rest rfl
  · subst hline
    exact h.line hm rest
  · subst hline
    exact h.letter _ _ rest rfl
  · subst htab
    exact h.letter _ _ rest rfl
  · subst hreturn
    exact h.letter _ _ rest rfl
  · have hc : c = Char.ofNat 8 := by rw [← hback, Char.ofNat_toNat]
    subst hc
    exact h.letter _ _ rest rfl
  · have hc : c = Char.ofNat 12 := by rw [← hfeed, Char.ofNat_toNat]
    subst hc
    exact h.letter _ _ rest rfl
  · obtain ⟨x, y, z, w, hdigits, hshort⟩ := short?_hexDigits hcode
    rw [hdigits]
    rw [Char.ofNat_toNat] at hshort
    exact h.number x y z w c rest hshort
  · refine h.bare c rest (isPlain_iff.mpr (.inr ?_)) hc hslash
    omega

/-- In one line all quotes are escaped. -/
theorem readBasic_printBasic (cs rest : List Char) :
    readBasic (printBasic false 0 cs ++ '"' :: rest) = some (cs, rest) := by
  induction cs with
  | nil => simp [printBasic, readBasic]
  | cons c cs ih =>
    by_cases hc : c = '"'
    · subst hc
      simp only [printBasic, if_true, Bool.false_eq_true, if_false, Nat.lt_irrefl, List.cons_append]
      rw [unescapes_readBasic.letter '"' '"' _ rfl, ih]
      rfl
    · simp only [printBasic, if_neg hc, List.append_assoc]
      rw [unescapes_readBasic.escaped hc, ih]
      rfl

/-- Without single quotes and line ends a text stands as it is. -/
theorem readLiteral_append (rest : List Char) (h : ∀ c ∈ cs, isPlain c = true ∧ c ≠ '\'') :
    readLiteral (cs ++ '\'' :: rest) = some (cs, rest) := by
  induction cs with
  | nil => simp [readLiteral]
  | cons c cs ih =>
    obtain ⟨hplain, hquote⟩ := h c (List.mem_cons_self ..)
    rw [List.cons_append, readLiteral]
    · rw [if_pos hplain, ih fun d hd => h d (List.mem_cons_of_mem _ hd)]
      rfl
    · exact hquote

section Runs

variable {q : Char}

theorem max_le_longestRun (q : Char) (run best : Nat) (cs : List Char) :
    max run best ≤ longestRun q run best cs := by
  induction cs generalizing run best with
  | nil => exact Nat.le_refl _
  | cons c cs ih =>
    rw [longestRun]
    split
    · exact (by omega : max run best ≤ max (run + 1) best).trans (ih ..)
    · exact (by omega : max run best ≤ max 0 (max run best)).trans (ih ..)

theorem longestRun_mono {run run' best best' : Nat} (hr : run ≤ run') (hb : best ≤ best') :
    longestRun q run best cs ≤ longestRun q run' best' cs := by
  induction cs generalizing run run' best best' with
  | nil => simp only [longestRun]; omega
  | cons c cs ih =>
    rw [longestRun, longestRun]
    split
    · exact ih (by omega) hb
    · exact ih (Nat.le_refl _) (by omega)

theorem longestRun_tail (c : Char) (cs : List Char) :
    longestRun q 0 0 cs ≤ longestRun q 0 0 (c :: cs) := by
  rw [longestRun.eq_2]
  split <;> exact longestRun_mono (Nat.zero_le _) (Nat.zero_le _)

theorem notMem_of_longestRun (h : longestRun q 0 0 cs = 0) : q ∉ cs := by
  induction cs with
  | nil => exact List.not_mem_nil
  | cons c cs ih =>
    rw [List.mem_cons, not_or]
    refine ⟨?_, ih (Nat.le_zero.mp ((longestRun_tail c cs).trans h.le))⟩
    rintro rfl
    have hmax := max_le_longestRun q (0 + 1) 0 cs
    rw [longestRun, if_pos rfl] at h
    omega

/-- The first run is no longer than the longest. -/
theorem takeWhile_le_longestRun (run best : Nat) (cs : List Char) :
    run + (cs.takeWhile (· == q)).length ≤ longestRun q run best cs := by
  induction cs generalizing run with
  | nil =>
    have := max_le_longestRun q run best []
    simp only [List.takeWhile_nil, List.length_nil]
    omega
  | cons c cs ih =>
    by_cases hc : c = q
    · have := ih (run + 1)
      simp only [longestRun, hc, if_true, List.takeWhile_cons, beq_self_eq_true, List.length_cons]
      omega
    · have := max_le_longestRun q run best (c :: cs)
      simp only [List.takeWhile_cons, beq_iff_eq, hc, if_false, List.length_nil]
      omega

/-- Three quotes close a text, after those that belong to it. -/
theorem closing?_append {n : Nat} (hn : n ≤ 2) (hrest : rest.head? ≠ some q) :
    closing? q (List.replicate n q ++ (tripled q ++ rest)) = some (List.replicate n q, rest) := by
  have hrun : List.replicate n q ++ (tripled q ++ rest) = List.replicate (n + 3) q ++ rest := by
    rw [← List.append_assoc, List.replicate_append_replicate.symm]
    rfl
  have htake : rest.takeWhile (· == q) = [] := by
    cases rest with
    | nil => rfl
    | cons c rest => simpa using hrest
  have hlength : ((List.replicate (n + 3) q ++ rest).takeWhile (· == q)).length = n + 3 := by
    rw [List.takeWhile_append_of_pos fun c hc => by simp [List.eq_of_mem_replicate hc], htake,
      List.append_nil, List.length_replicate]
  rw [closing?, hrun, hlength, if_pos (by omega)]
  simp

/-- A text is all quotes, or has something else after its first ones. -/
theorem quotes_or_more (q : Char) (cs : List Char) :
    ∃ more, cs = List.replicate (cs.takeWhile (· == q)).length q ++ more ∧ more.head? ≠ some q := by
  refine ⟨cs.dropWhile (· == q), ?_, ?_⟩
  · conv_lhs => rw [← List.takeWhile_append_dropWhile (p := (· == q)) (l := cs)]
    congr 1
    exact List.eq_replicate_iff.mpr ⟨rfl, fun c hc => by simpa using List.mem_takeWhile_imp hc⟩
  · intro h
    have := List.head?_dropWhile_not (· == q) cs
    simp [h] at this

/-- Where something else follows up to two quotes, three do not stand together. -/
theorem no_triple {n : Nat} {x : Char} {more : List Char} (hn : n ≤ 2) (hx : x ≠ q)
    (h : c :: cs = List.replicate n q ++ x :: more) (hc : c = q) (tail after : List Char) :
    cs ++ tail ≠ q :: q :: after := by
  intro htail
  interval_cases n <;> simp [List.replicate] at h <;> grind

end Runs

theorem readLiteralLines_closing {n : Nat} (hn : n ≤ 2) (hrest : rest.head? ≠ some '\'') :
    readLiteralLines (List.replicate n '\'' ++ (tripled '\'' ++ rest)) =
      some (List.replicate n '\'', rest) := by
  rw [← closing?_append hn hrest]
  interval_cases n <;> simp [readLiteralLines, tripled, List.replicate]

theorem readLiteralLines_append (h : ∀ c ∈ cs, isPlain c = true ∨ c = '\n')
    (hruns : longestRun '\'' 0 0 cs ≤ 2) (hrest : rest.head? ≠ some '\'') :
    readLiteralLines (cs ++ (tripled '\'' ++ rest)) = some (cs, rest) := by
  induction cs with
  | nil => exact readLiteralLines_closing (Nat.zero_le 2) hrest
  | cons c cs ih =>
    obtain ⟨more, hmore, hhead⟩ := quotes_or_more '\'' (c :: cs)
    have hfirst := takeWhile_le_longestRun (q := '\'') 0 0 (c :: cs)
    generalize ((c :: cs).takeWhile (· == '\'')).length = n at hmore hfirst
    cases more with
    | nil =>
      rw [List.append_nil] at hmore
      rw [hmore]
      exact readLiteralLines_closing (by omega) hrest
    | cons x more =>
      have hc := h c (List.mem_cons_self ..)
      have htail := ih (fun d hd => h d (List.mem_cons_of_mem _ hd))
        ((longestRun_tail c cs).trans hruns)
      rw [List.cons_append, readLiteralLines]
      · rw [if_pos hc, htail]
        rfl
      · rintro after rfl
        exact absurd hc (by decide)
      · exact fun after hc => no_triple (by omega) (by simpa using hhead) hmore hc _ after

theorem readBasicLines_closing {n : Nat} (hn : n ≤ 2) (hrest : rest.head? ≠ some '"') :
    readBasicLines false (List.replicate n '"' ++ (tripled '"' ++ rest)) =
      some (List.replicate n '"', rest) := by
  rw [← closing?_append hn hrest]
  interval_cases n <;> simp [readBasicLines, tripled, List.replicate]

theorem readBasicLines_quote (h : ∀ after, cs ≠ '"' :: '"' :: after) :
    readBasicLines false ('"' :: cs) = cons '"' (readBasicLines false cs) := by
  rw [readBasicLines]
  · simp [isPlain]
  · exact fun after _ => h after
  all_goals simp

theorem escaped_cases (multiline : Bool) (c : Char) :
    escaped multiline c = [c] ∧ c ≠ '\r' ∨ ∃ more, escaped multiline c = '\\' :: more := by
  unfold escaped
  split_ifs with hslash hline hm htab hreturn hback hfeed hcode
  · exact .inr ⟨_, rfl⟩
  · exact .inl ⟨by rw [hline], by rw [hline]; decide⟩
  all_goals first | exact .inr ⟨_, rfl⟩ | exact .inl ⟨rfl, hreturn⟩

theorem head?_escaped (multiline : Bool) (hc : c ≠ '"') :
    ∃ d more, escaped multiline c = d :: more ∧ d ≠ '"' ∧ (c ≠ '\n' → d ≠ '\n' ∧ d ≠ '\r') := by
  rcases escaped_cases multiline c with ⟨heq, hreturn⟩ | ⟨more, heq⟩
  · exact ⟨c, [], heq, hc, fun hline => ⟨hline, hreturn⟩⟩
  · exact ⟨_, more, heq, by decide, fun _ => by decide⟩

/-- Over several lines at most two quotes stand together unless the first is escaped. -/
theorem printBasic_quotes (run : Nat) (hrun : run ≤ 2) (cs : List Char) :
    ∃ n more, printBasic true run cs = List.replicate n '"' ++ more ∧ run + n ≤ 2 ∧
      more.head? ≠ some '"' ∧ (more = [] → cs = List.replicate n '"') := by
  induction cs generalizing run with
  | nil => exact ⟨0, [], rfl, hrun, by simp, fun _ => rfl⟩
  | cons c cs ih =>
    by_cases hc : c = '"'
    · by_cases hlt : run < 2
      · obtain ⟨n, more, heq, hn, hhead, hend⟩ := ih (run + 1) hlt
        refine ⟨n + 1, more, ?_, by omega, hhead, fun h => ?_⟩
        · rw [printBasic, if_pos hc, if_pos rfl, if_pos hlt, heq]
          rfl
        · rw [hc, hend h]
          rfl
      · refine ⟨0, '\\' :: '"' :: printBasic true 0 cs, ?_, hrun, by simp, fun h => nomatch h⟩
        rw [printBasic, if_pos hc, if_pos rfl, if_neg hlt]
        rfl
    · obtain ⟨d, more, heq, hd, -⟩ := head?_escaped true hc
      refine ⟨0, d :: more ++ printBasic true 0 cs, ?_, hrun, by simpa using hd, fun h => nomatch h⟩
      rw [printBasic, if_neg hc, heq]
      rfl

theorem readBasicLines_printBasic {run : Nat} (hrun : run ≤ 2) (cs : List Char)
    (hrest : rest.head? ≠ some '"') :
    readBasicLines false (printBasic true run cs ++ (tripled '"' ++ rest)) = some (cs, rest) := by
  induction cs generalizing run with
  | nil => exact readBasicLines_closing (Nat.zero_le 2) hrest
  | cons c cs ih =>
    by_cases hc : c = '"'
    · subst hc
      by_cases hlt : run < 2
      · obtain ⟨n, more, heq, hn, hhead, hend⟩ := printBasic_quotes (run + 1) hlt cs
        rw [printBasic, if_pos rfl, if_pos rfl, if_pos hlt]
        cases more with
        | nil =>
          rw [heq, hend rfl, List.append_nil]
          exact readBasicLines_closing (n := n + 1) (by omega) hrest
        | cons x more =>
          rw [List.cons_append, readBasicLines_quote, ih hlt]
          · rfl
          · exact fun after => no_triple (n := n + 1) (by omega) (by simpa using hhead)
              (congrArg ('"' :: ·) heq) rfl _ after
      · rw [printBasic, if_pos rfl, if_pos rfl, if_neg hlt]
        simp only [List.cons_append]
        rw [unescapes_readBasicLines.letter '"' '"' _ rfl, ih (Nat.zero_le 2)]
        rfl
    · rw [printBasic, if_neg hc, List.append_assoc, unescapes_readBasicLines.escaped hc,
        ih (Nat.zero_le 2)]
      rfl

/-- A line end behind the opening quotes is passed over; a text that has one gets one more there. -/
theorem dropFirstLineEnd_lead {body : List Char}
    (h : '\n' ∉ cs → ∀ c ∈ body.head?, c ≠ '\n' ∧ c ≠ '\r') :
    dropFirstLineEnd (lead cs ++ body) = body := by
  unfold lead
  by_cases hline : '\n' ∈ cs
  · simp [hline, dropFirstLineEnd]
  · rw [if_neg (by simpa using hline), List.nil_append]
    cases body with
    | nil => rfl
    | cons c body =>
      obtain ⟨hn, hr⟩ := h hline c rfl
      rw [dropFirstLineEnd]
      · exact fun _ h => hn (by simp_all)
      · exact fun _ h => hr (by simp_all)

theorem readText_basic (cs : List Char) (hrest : rest.head? ≠ some '"') :
    readText ('"' :: (printBasic false 0 cs ++ '"' :: rest)) = some (cs, rest) := by
  have hquotes : ∀ after, printBasic false 0 cs ++ '"' :: rest ≠ '"' :: '"' :: after := by
    cases cs with
    | nil => exact fun after h => hrest (by simp [(List.cons.inj h).2])
    | cons c cs =>
      by_cases hc : c = '"'
      · simp [printBasic, hc]
      · obtain ⟨d, more, heq, hd, -⟩ := head?_escaped false hc
        simp [printBasic, hc, heq, hd]
  rw [readText]
  · exact readBasic_printBasic cs rest
  · exact fun after => hquotes after

theorem readText_literal (h : ∀ c ∈ cs, isPlain c = true ∧ c ≠ '\'') (hne : cs ≠ []) :
    readText ('\'' :: (cs ++ '\'' :: rest)) = some (cs, rest) := by
  rw [readText]
  · exact readLiteral_append rest h
  · intro after heq
    cases cs with
    | nil => exact hne rfl
    | cons c cs =>
      exact (h c (List.mem_cons_self ..)).2 (List.cons.inj heq).1

theorem readText_basicLines (cs : List Char) (hrest : rest.head? ≠ some '"') :
    readText (tripled '"' ++ (lead cs ++ (printBasic true 0 cs ++ (tripled '"' ++ rest)))) =
      some (cs, rest) := by
  have hhead : '\n' ∉ cs → ∀ c ∈ (printBasic true 0 cs ++ (tripled '"' ++ rest)).head?,
      c ≠ '\n' ∧ c ≠ '\r' := by
    intro hline
    cases cs with
    | nil => simp [printBasic, tripled]
    | cons c cs =>
      by_cases hc : c = '"'
      · simp [printBasic, hc]
      · obtain ⟨d, more, heq, -, hd⟩ := head?_escaped true hc
        have hd := hd fun h => hline (by simp [h])
        simpa [printBasic, hc, heq] using hd
  have hread : readText (tripled '"' ++ (lead cs ++ (printBasic true 0 cs ++ (tripled '"' ++ rest)))) =
      readBasicLines false
        (dropFirstLineEnd (lead cs ++ (printBasic true 0 cs ++ (tripled '"' ++ rest)))) := rfl
  rw [hread, dropFirstLineEnd_lead hhead]
  exact readBasicLines_printBasic (Nat.zero_le 2) cs hrest

theorem readText_literalLines (h : ∀ c ∈ cs, isPlain c = true ∨ c = '\n')
    (hruns : longestRun '\'' 0 0 cs ≤ 2) (hrest : rest.head? ≠ some '\'') :
    readText (tripled '\'' ++ (lead cs ++ (cs ++ (tripled '\'' ++ rest)))) = some (cs, rest) := by
  have hhead : '\n' ∉ cs → ∀ c ∈ (cs ++ (tripled '\'' ++ rest)).head?, c ≠ '\n' ∧ c ≠ '\r' := by
    intro hline
    cases cs with
    | nil => simp [tripled]
    | cons c cs =>
      rintro d ⟨⟩
      refine ⟨fun hd => hline (by simp [hd]), fun hd => ?_⟩
      exact absurd (hd ▸ h _ (List.mem_cons_self ..)) (by decide)
  have hread : readText (tripled '\'' ++ (lead cs ++ (cs ++ (tripled '\'' ++ rest)))) =
      readLiteralLines (dropFirstLineEnd (lead cs ++ (cs ++ (tripled '\'' ++ rest)))) := rfl
  rw [hread, dropFirstLineEnd_lead hhead]
  exact readLiteralLines_append h hruns hrest

/-- The form that is taken can hold the text. -/
structure Form.Holds (form : Form) (cs : List Char) : Prop where
  literal : form = .literal → cs ≠ [] ∧ ∀ c ∈ cs, isPlain c = true ∧ c ≠ '\''
  literalLines : form = .literalLines →
    (∀ c ∈ cs, isPlain c = true ∨ c = '\n') ∧ longestRun '\'' 0 0 cs ≤ 2

theorem Form.holds_ofText (cs : List Char) : (ofText cs).Holds cs := by
  have hplain : cs.any needsCode ≠ true → ∀ c ∈ cs, isPlain c = true ∨ c = '\n' := by
    intro h c hc
    refine isPlain_of_needsCode (Bool.not_eq_true _ ▸ fun hn => h ?_)
    exact List.any_eq_true.mpr ⟨c, hc, hn⟩
  dsimp only [ofText]
  split_ifs with hcode hlines hbasic hliteral hdoubles hsingles hlines
  all_goals refine ⟨fun h => ?_, fun h => ?_⟩
  all_goals cases h
  · simp only [Bool.and_eq_true, decide_eq_true_eq, Bool.not_eq_true', List.contains_eq_mem,
      decide_eq_false_iff_not] at hliteral
    obtain ⟨hsingles, hlines⟩ := hliteral
    refine ⟨?_, fun c hc => ⟨?_, ?_⟩⟩
    · rintro rfl
      exact hbasic (by decide)
    · exact (hplain hcode c hc).resolve_right fun h => hlines (h ▸ hc)
    · exact fun h => notMem_of_longestRun hsingles (h ▸ hc)
  · exact ⟨hplain hcode, hsingles⟩

theorem readText_printText (s : String) (rest : List Char) (hd : rest.head? ≠ some '"')
    (hs : rest.head? ≠ some '\'') :
    readText (printText s ++ rest) = some (s.toList, rest) := by
  have hform := Form.holds_ofText s.toList
  unfold printText
  cases hf : Form.ofText s.toList with
  | basic => simpa [hf] using readText_basic s.toList hd
  | literal =>
    obtain ⟨hne, hplain⟩ := hform.literal hf
    simpa [hf] using readText_literal hplain hne
  | basicLines => simpa [hf] using readText_basicLines s.toList hd
  | literalLines =>
    obtain ⟨hplain, hruns⟩ := hform.literalLines hf
    simpa [hf] using readText_literalLines hplain hruns hs

end ServiceCatalog.Toml
