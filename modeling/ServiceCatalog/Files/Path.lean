/-! Paths as text: names between slashes. Empty names and `.` only count at the end. -/
namespace ServiceCatalog

/-- How the text of a path ends: a slash or a `.` can only follow a directory. -/
inductive PathEnd where
  | name
  | slash
  | dot
  deriving DecidableEq, Repr

structure Path where
  absolute : Bool
  names : List String
  ending : PathEnd
  /-- The length of the text. -/
  bytes : Nat
  deriving DecidableEq, Repr

namespace Path

/-- The parts of a text between the occurrences of a character. -/
def splitOn (sep : Char) : List Char → List (List Char)
  | [] => [[]]
  | c :: rest =>
    if c = sep then [] :: splitOn sep rest
    else match splitOn sep rest with
      | [] => [[c]]
      | w :: ws => (c :: w) :: ws

def isPlain (w : List Char) : Bool := !(w.isEmpty || w == ['.'])

def ofText (s : String) : Path :=
  let words := splitOn '/' s.toList
  { absolute := s.toList.head? == some '/',
    names := (words.filter isPlain).map String.ofList,
    ending :=
      if (words.filter (!·.isEmpty)).getLast? = some ['.'] then .dot
      else if words.getLast? = some [] ∧ !s.isEmpty then .slash
      else .name,
    bytes := s.utf8ByteSize }

/-- The names with slashes between them. -/
def text (p : Path) : String := (if p.absolute then "/" else "") ++ "/".intercalate p.names

/-- The directory a path stands in. -/
def parent (p : Path) : Path := { p with names := p.names.dropLast, ending := .name }

/-- The path with an ending added to its last name; none when that is no name of its own. -/
def addEnding (p : Path) (ending : String) : Option Path :=
  match p.names.getLast? with
  | none => none
  | some name =>
    if name = ".." then none
    else some { p with names := p.names.dropLast ++ [name ++ "." ++ ending], ending := .name }

/-- Appends a name to the text of a directory. -/
def join (directory name : String) : String :=
  if directory.isEmpty || directory.toList.getLast? == some '/' then directory ++ name
  else directory ++ "/" ++ name

end Path
end ServiceCatalog
