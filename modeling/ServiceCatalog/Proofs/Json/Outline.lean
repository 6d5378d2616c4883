import ServiceCatalog.Proofs.Json.RoundTrip

/-!
An outline that asks for every member of a value reads the same from its text as the whole does, and
refuses the same.
-/
namespace ServiceCatalog.Json

mutual
/-- No member of the value is passed over. -/
def Covers : Outline → Json → Prop
  | .record others members, .obj fields => CoversFields others members fields
  | _, _ => True
def CoversFields (others : Bool) (members : List (String × Outline)) :
    List (String × Json) → Prop
  | [] => True
  | (name, j) :: rest =>
    (match Outline.member? others members name with
      | some outline => Covers outline j
      | none => False) ∧
    CoversFields others members rest
end

theorem covers_whole (j : Json) : Covers .whole j := by
  simp [Covers]

theorem coversFields_iff {others : Bool} {members : List (String × Outline)}
    {fields : List (String × Json)} :
    CoversFields others members fields ↔
      ∀ f ∈ fields, ∃ o, Outline.member? others members f.1 = some o ∧ Covers o f.2 := by
  induction fields with
  | nil => simp [CoversFields]
  | cons f fields ih =>
    obtain ⟨name, j⟩ := f
    rw [CoversFields, ih, List.forall_mem_cons]
    cases Outline.member? others members name <;> simp

theorem readMembers_skipBlanks (fuel depth : Nat) (others : Bool)
    (members : List (String × Outline)) (cs : List Char) :
    readMembers fuel depth others members (skipBlanks cs) =
      readMembers fuel depth others members cs := by
  cases fuel with
  | zero => rfl
  | succ fuel => simp only [readMembers, skipBlanks_idem]

theorem readOutline_skipBlanks (fuel depth : Nat) (o : Outline) (cs : List Char) :
    readOutline fuel depth o (skipBlanks cs) = readOutline fuel depth o cs := by
  cases fuel with
  | zero => rfl
  | succ fuel =>
    cases o with
    | whole => simp only [readOutline, readValue_skipBlanks]
    | record others members => simp only [readOutline, skipBlanks_idem]

/-- As `ReadsBack`, in outline. -/
structure OutlineBack (fuel : Nat) : Prop where
  value : ∀ (o : Outline) (j : Json) (depth level : Nat) (rest : List Char), Covers o j →
    j.Exact → (prettyAt level j).length ≤ fuel → Stops rest →
    readOutline fuel depth o (prettyAt level j ++ rest) =
      if j.height ≤ depth then some (j, rest) else none
  members : ∀ (others : Bool) (members : List (String × Outline)) (f : String × Json)
    (fields : List (String × Json)) (depth level outer : Nat) (rest : List Char),
    CoversFields others members (f :: fields) → ExactFields (f :: fields) →
    (prettyFields level (f :: fields)).length ≤ fuel →
    readMembers fuel depth others members
      (prettyFields level (f :: fields) ++ (newLine outer ++ '}' :: rest)) =
      if heightFields (f :: fields) ≤ depth then some (f :: fields, rest) else none

/-- Anything but an object is read whole. -/
theorem readOutline_of_head (fuel depth : Nat) (o : Outline) {c : Char} (cs : List Char)
    (hb : isBlankChar c = false) (hc : c ≠ '{') :
    readOutline (fuel + 1) depth o (c :: cs) = readValue (fuel + 1) depth (c :: cs) := by
  cases o with
  | whole => rw [readOutline]
  | record others members =>
    rw [readOutline, skipBlanks_cons _ hb]
    split
    · next h => cases h; exact absurd rfl hc
    · rfl

theorem OutlineBack.value_succ {fuel : Nat} (ih : OutlineBack fuel) (o : Outline) (j : Json)
    (depth level : Nat) (rest : List Char) (ho : Covers o j) (hj : j.Exact)
    (hf : (prettyAt level j).length ≤ fuel + 1) (hr : Stops rest) :
    readOutline (fuel + 1) depth o (prettyAt level j ++ rest) =
      if j.height ≤ depth then some (j, rest) else none := by
  have hv := readValue_prettyAt depth level hj hf hr
  have hother : ∀ c cs, prettyAt level j = c :: cs → isBlankChar c = false → c ≠ '{' →
      readOutline (fuel + 1) depth o (prettyAt level j ++ rest) =
        if j.height ≤ depth then some (j, rest) else none := by
    intro c cs h hb hc
    rw [h, List.cons_append] at hv ⊢
    rw [readOutline_of_head fuel depth o _ hb hc, hv]
  cases j with
  | null => exact hother 'n' _ rfl (by decide) (by decide)
  | bool b =>
    cases b with
    | false => exact hother 'f' _ rfl (by decide) (by decide)
    | true => exact hother 't' _ rfl (by decide) (by decide)
  | num x =>
    obtain ⟨c, cs, h, hc⟩ := printNumber_head x (by simpa [Exact] using hj)
    have hopens : Opens c := by
      rcases hc with rfl | hc
      · decide
      · exact opens_of_isDigit hc
    refine hother c cs (by simp [prettyAt, h]) hopens.1 ?_
    rintro rfl
    rcases hc with hc | hc <;> exact absurd hc (by decide)
  | str s => exact hother '"' _ rfl (by decide) (by decide)
  | arr items => cases items <;> exact hother '[' _ rfl (by decide) (by decide)
  | obj fields =>
    cases o with
    | whole => rw [readOutline, hv]
    | record others members =>
      cases depth with
      | zero => cases fields <;> simp [prettyAt, readOutline, skipBlanks, isBlankChar, height]
      | succ depth =>
        cases fields with
        | nil => simp [prettyAt, readOutline, skipBlanks, isBlankChar, height, heightFields]
        | cons f fields =>
          simp only [Exact] at hj
          simp only [Covers] at ho
          have hl : (prettyFields (level + 1) (f :: fields)).length ≤ fuel := by
            simp only [prettyAt, List.length_cons, List.length_append] at hf
            omega
          have hi := ih.members others members f fields depth (level + 1) level rest ho hj hl
          obtain ⟨cs, hc⟩ :=
            skipBlanks_prettyFields (level + 1) f fields (newLine level ++ '}' :: rest)
          rw [← readMembers_skipBlanks, hc] at hi
          simp only [prettyAt, List.cons_append, List.append_assoc, List.nil_append]
          rw [readOutline, skipBlanks_cons _ (by decide)]
          simp only [hc]
          split
          · next h => cases h
          · rw [hi, height]
            exact map_ite_iff Nat.succ_le_succ_iff.symm _ _ _

theorem OutlineBack.members_succ {fuel : Nat} (ih : OutlineBack fuel) (others : Bool)
    (members : List (String × Outline)) (f : String × Json) (fields : List (String × Json))
    (depth level outer : Nat) (rest : List Char)
    (ho : CoversFields others members (f :: fields)) (hj : ExactFields (f :: fields))
    (hf : (prettyFields level (f :: fields)).length ≤ fuel + 1) :
    readMembers (fuel + 1) depth others members
      (prettyFields level (f :: fields) ++ (newLine outer ++ '}' :: rest)) =
      if heightFields (f :: fields) ≤ depth then some (f :: fields, rest) else none := by
  obtain ⟨name, j⟩ := f
  rw [coversFields_iff, List.forall_mem_cons, ← coversFields_iff] at ho
  obtain ⟨⟨outline, hm, ho⟩, hos⟩ := ho
  have hblank : ∀ cs, skipBlanks (' ' :: cs) = skipBlanks cs := fun cs => by
    simp [skipBlanks, isBlankChar]
  cases fields with
  | nil =>
    simp only [prettyFields, List.length_append, List.length_cons, newLine_length] at hf
    have hv := ih.value outline j depth level (newLine outer ++ '}' :: rest) ho hj.1 (by omega)
      (.newLine outer _)
    simp only [prettyFields, printString, List.append_assoc, List.cons_append, List.nil_append,
      heightFields, Nat.max_zero]
    rw [readMembers, skipBlanks_newLine, skipBlanks_cons _ (by decide)]
    rw [← readOutline_skipBlanks, ← hblank, readOutline_skipBlanks] at hv
    by_cases hd : j.height ≤ depth
    · rw [if_pos hd] at hv ⊢
      simp [readString_flatMap, skipBlanks_cons _ (show isBlankChar ':' = false by decide), hm, hv,
        skipBlanks_newLine, skipBlanks_cons _ (show isBlankChar '}' = false by decide)]
    · rw [if_neg hd] at hv ⊢
      simp [readString_flatMap, skipBlanks_cons _ (show isBlankChar ':' = false by decide), hm, hv]
  | cons g fields =>
    simp only [prettyFields, List.length_append, List.length_cons, newLine_length] at hf
    have hi := ih.members others members g fields depth level outer rest hos hj.2 (by omega)
    have hv := ih.value outline j depth level
      (',' :: (prettyFields level (g :: fields) ++ (newLine outer ++ '}' :: rest))) ho hj.1
      (by omega) (.cons (by decide))
    simp only [prettyFields, printString, List.append_assoc, List.cons_append, List.nil_append]
    rw [readMembers, skipBlanks_newLine, skipBlanks_cons _ (by decide), heightFields]
    rw [← readOutline_skipBlanks, ← hblank, readOutline_skipBlanks] at hv
    by_cases hd : j.height ≤ depth
    · rw [if_pos hd] at hv
      by_cases hds : heightFields (g :: fields) ≤ depth <;>
        simp [readString_flatMap, skipBlanks_cons _ (show isBlankChar ':' = false by decide), hm, hv,
          skipBlanks_cons _ (show isBlankChar ',' = false by decide), hi, hd, hds]
    · rw [if_neg hd] at hv
      simp [readString_flatMap, skipBlanks_cons _ (show isBlankChar ':' = false by decide), hm, hv,
        hd]

theorem outlineBack (fuel : Nat) : OutlineBack fuel := by
  induction fuel with
  | zero =>
    refine ⟨?_, ?_⟩
    · intro o j depth level rest _ hj hf
      obtain ⟨c, cs, h, -⟩ := prettyAt_head level j hj
      simp [h] at hf
    · rintro others members ⟨name, j⟩ fields depth level outer rest _ _ hf
      cases fields <;> simp [prettyFields, newLine] at hf
  | succ fuel ih => exact ⟨ih.value_succ, ih.members_succ⟩

/-- The text of a value that is covered is read in outline as the value, if it is not too deep. -/
theorem ofTextIn?_toPrettyText {o : Outline} {j : Json} (ho : Covers o j) (hj : j.Exact) :
    ofTextIn? o j.toPrettyText = if j.height ≤ maxDepth then some j else none := by
  have h := (outlineBack (2 * (prettyAt 0 j).length + 2)).value o j maxDepth 0 [] ho hj (by omega)
    .nil
  rw [List.append_nil] at h
  have htext : j.toPrettyText.toList = prettyAt 0 j := String.toList_ofList
  unfold ofTextIn?
  rw [htext]
  dsimp only
  rw [h]
  by_cases hd : j.height ≤ maxDepth
  · rw [if_pos hd, if_pos hd]
    rfl
  · rw [if_neg hd, if_neg hd]
    rfl

/-- A text in front is read before the other members, whatever stands in them. -/
theorem readMembers_text {fuel depth level : Nat} {others : Bool} {members : List (String × Outline)}
    {name s : String} {f : String × Json} {fields read : List (String × Json)} {cs rest : List Char}
    (hm : Outline.member? others members name = some .whole)
    (h : readMembers fuel depth others members
      (prettyFields level ((name, .str s) :: f :: fields) ++ cs) = some (read, rest)) :
    ∃ more, read = (name, .str s) :: more := by
  have hcolon : ∀ cs, skipBlanks (':' :: cs) = ':' :: cs := fun cs => skipBlanks_cons cs (by decide)
  have hcomma : ∀ cs, skipBlanks (',' :: cs) = ',' :: cs := fun cs => skipBlanks_cons cs (by decide)
  have hvalue : ∀ cs, skipBlanks (' ' :: '"' :: cs) = '"' :: cs := fun cs => by
    simp [skipBlanks, isBlankChar]
  cases fuel with
  | zero => cases h
  | succ fuel =>
    simp only [prettyFields, printString, prettyAt, List.append_assoc, List.cons_append,
      List.nil_append] at h
    rw [readMembers, skipBlanks_newLine, skipBlanks_cons _ (by decide)] at h
    simp only [readString_flatMap, Option.bind_eq_bind, Option.bind_some, String.ofList_toList, hcolon, hm] at h
    cases fuel with
    | zero => cases h
    | succ fuel =>
      simp only [readOutline, readValue, hvalue, readString_flatMap, Option.map_some,
        Option.bind_some, String.ofList_toList, hcomma] at h
      obtain ⟨r, -, hr⟩ := Option.bind_eq_some_iff.mp h
      cases hr
      exact ⟨_, rfl⟩

/-- A record whose first member is a text is read with that member in front. -/
theorem ofTextIn?_text {others : Bool} {members : List (String × Outline)} {name s : String}
    {f : String × Json} {fields : List (String × Json)} {j : Json}
    (hm : Outline.member? others members name = some .whole)
    (h : ofTextIn? (.record others members) (toPrettyText (.obj ((name, .str s) :: f :: fields))) =
      some j) : ∃ more, j = .obj ((name, .str s) :: more) := by
  have htext : (toPrettyText (.obj ((name, .str s) :: f :: fields))).toList =
      '{' :: (prettyFields 1 ((name, .str s) :: f :: fields) ++ (newLine 0 ++ ['}'])) := by
    simp [toPrettyText, prettyAt]
  unfold ofTextIn? at h
  obtain ⟨⟨read, rest⟩, hread, hj⟩ := Option.bind_eq_some_iff.mp h
  dsimp only at hread hj
  rw [htext] at hread
  obtain ⟨cs, hcs⟩ := skipBlanks_prettyFields 1 (name, .str s) (f :: fields) (newLine 0 ++ ['}'])
  rw [maxDepth, readOutline, skipBlanks_cons _ (by decide)] at hread
  simp only [hcs] at hread
  obtain ⟨⟨entries, after⟩, hentries, hread⟩ := Option.map_eq_some_iff.mp hread
  rw [← hcs, readMembers_skipBlanks] at hentries
  obtain ⟨more, rfl⟩ := readMembers_text hm hentries
  cases hread
  split at hj
  · cases hj
    exact ⟨more, rfl⟩
  · cases hj

end ServiceCatalog.Json
