/-!
White space: the characters of the Unicode property White_Space, and the texts that hold nothing
else.
-/
namespace ServiceCatalog.Text

/-- The twenty-five characters of White_Space. -/
def isSpace (c : Char) : Bool :=
  let n := c.toNat
  (9 ≤ n && n ≤ 13) || n == 0x20 || n == 0x85 || n == 0xa0 || n == 0x1680 ||
    (0x2000 ≤ n && n ≤ 0x200a) || n == 0x2028 || n == 0x2029 || n == 0x202f || n == 0x205f ||
    n == 0x3000

/-- Drops the white space in front. -/
def trimFront (cs : List Char) : List Char :=
  cs.dropWhile isSpace

/-- A mark of the byte order in front does not count. -/
def dropMark : List Char → List Char
  | c :: rest => if c.toNat = 0xfeff then rest else c :: rest
  | [] => []

/-- No character but white space. -/
def isBlank (s : String) : Bool :=
  s.toList.all isSpace

theorem isBlank_eq_false_iff {s : String} :
    isBlank s = false ↔ ∃ c ∈ s.toList, isSpace c = false := by
  simp [isBlank]

end ServiceCatalog.Text
