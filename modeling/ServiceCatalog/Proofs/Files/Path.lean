import Mathlib.Data.List.Basic
import ServiceCatalog.Files.Path

/-! A name joined to the path of a directory is the last name of the path. -/
namespace ServiceCatalog

/-- The name of a file of its own, short enough for any suffix an id is given. -/
structure IsFileName (f : String) : Prop where
  notDot : f ≠ "."
  notParent : f ≠ ".."
  notEmpty : f ≠ ""
  noSlash : '/' ∉ f.toList
  noNul : Char.ofNat 0 ∉ f.toList
  short : f.utf8ByteSize ≤ 137

namespace Path

theorem splitOn_ne_nil (sep : Char) (cs : List Char) : splitOn sep cs ≠ [] := by
  induction cs with
  | nil => simp [splitOn]
  | cons c cs ih =>
    rw [splitOn]
    split
    · simp
    · split <;> simp

theorem splitOn_append (sep : Char) (as bs : List Char) :
    splitOn sep (as ++ sep :: bs) = splitOn sep as ++ splitOn sep bs := by
  induction as with
  | nil => simp [splitOn]
  | cons a as ih =>
    rw [List.cons_append, splitOn, splitOn, ih]
    by_cases h : a = sep
    · simp [h]
    · obtain ⟨w, ws, hw⟩ := List.exists_cons_of_ne_nil (splitOn_ne_nil sep as)
      simp [h, hw]

theorem splitOn_of_notMem {sep : Char} {cs : List Char} (h : sep ∉ cs) :
    splitOn sep cs = [cs] := by
  induction cs with
  | nil => rfl
  | cons c cs ih =>
    rw [List.mem_cons, not_or] at h
    rw [splitOn, if_neg (Ne.symm h.1), ih h.2]

/-- Only the words of the directory stand in front of the name. -/
theorem splitOn_join (d : String) {f : String} (hf : '/' ∉ f.toList) :
    ∃ ws, splitOn '/' (join d f).toList = ws ++ [f.toList] ∧
      ws.filter isPlain = (splitOn '/' d.toList).filter isPlain := by
  have hword : splitOn '/' f.toList = [f.toList] := splitOn_of_notMem hf
  unfold join
  split
  · next h =>
    rw [Bool.or_eq_true, String.isEmpty_iff, beq_iff_eq] at h
    rcases h with rfl | h
    · exact ⟨[], by simpa using hword, by simp [splitOn, isPlain]⟩
    · obtain ⟨cs, hcs⟩ := List.getLast?_eq_some_iff.mp h
      refine ⟨splitOn '/' cs, ?_, ?_⟩
      · rw [String.toList_append, hcs, List.append_assoc, List.singleton_append, splitOn_append,
          hword]
      · rw [hcs, splitOn_append]
        simp [splitOn, isPlain]
  · refine ⟨splitOn '/' d.toList, ?_, rfl⟩
    have htext : (d ++ "/" ++ f).toList = d.toList ++ '/' :: f.toList := by simp
    rw [htext, splitOn_append, hword]

theorem head?_join (d : String) {f : String} (hf : '/' ∉ f.toList) :
    ((join d f).toList.head? == some '/') = (d.toList.head? == some '/') := by
  have hhead : f.toList.head? ≠ some '/' := fun h => hf (List.mem_of_head? h)
  unfold join
  cases hd : d.toList with
  | nil =>
    have hempty : d.isEmpty = true := by simpa [String.isEmpty_iff] using hd
    simp [hempty, hd, hhead]
  | cons c cs => split <;> simp [hd]

theorem bytes_join (d f : String) :
    (join d f).utf8ByteSize ≤ d.utf8ByteSize + f.utf8ByteSize + 1 := by
  unfold join
  split
  · simp
  · have hslash : "/".utf8ByteSize = 1 := by decide
    simp only [String.utf8ByteSize_append, hslash]
    omega

/-- A name below a name. -/
theorem bytes_join_join (d : String) {f : String} (hf : IsFileName f) (g : String) :
    (join (join d f) g).utf8ByteSize = (join d f).utf8ByteSize + g.utf8ByteSize + 1 := by
  have hlast : ∃ x, join d f = x ++ f := by
    unfold join
    split
    · exact ⟨d, rfl⟩
    · exact ⟨d ++ "/", rfl⟩
  obtain ⟨x, hx⟩ := hlast
  have hempty : (join d f).isEmpty = false := by
    rw [hx]
    simp [hf.notEmpty]
  have hslash : ((join d f).toList.getLast? == some '/') = false := by
    rw [hx, String.toList_append, List.getLast?_append_of_ne_nil _ (by simpa using hf.notEmpty)]
    refine beq_eq_false_iff_ne.mpr fun h => hf.noSlash (List.mem_of_getLast? h)
  have hbytes : "/".utf8ByteSize = 1 := by decide
  rw [join, hempty, hslash]
  simp only [Bool.or_false, Bool.false_eq_true, if_false, String.utf8ByteSize_append, hbytes]
  omega

theorem isPlain_of_isFileName {f : String} (hf : IsFileName f) : isPlain f.toList = true := by
  have hempty : f.toList ≠ [] := by simpa using hf.notEmpty
  have hdot : f.toList ≠ ['.'] := fun h => hf.notDot (String.toList_inj.mp h)
  simp [isPlain, hempty, hdot]

theorem names_join (d : String) {f : String} (hf : IsFileName f) :
    (ofText (join d f)).names = (ofText d).names ++ [f] := by
  obtain ⟨ws, hws, hplain⟩ := splitOn_join d hf.noSlash
  simp [ofText, hws, hplain, isPlain_of_isFileName hf]

theorem absolute_join (d : String) {f : String} (hf : IsFileName f) :
    (ofText (join d f)).absolute = (ofText d).absolute :=
  head?_join d hf.noSlash

theorem ending_join (d : String) {f : String} (hf : IsFileName f) :
    (ofText (join d f)).ending = .name := by
  obtain ⟨ws, hws, -⟩ := splitOn_join d hf.noSlash
  have hempty : f.toList ≠ [] := by simpa using hf.notEmpty
  have hdot : f.toList ≠ ['.'] := fun h => hf.notDot (String.toList_inj.mp h)
  simp [ofText, hws, List.filter_append, hempty, hdot]

end Path
end ServiceCatalog
