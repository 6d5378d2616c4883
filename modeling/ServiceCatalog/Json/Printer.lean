import ServiceCatalog.Json.Value
/-!
JSON text. The compact form has no blanks; the pretty form puts each item on a line of its own,
two spaces deeper than its container. Both escape the quote, the backslash and the characters below
the space, and nothing else, so one text line holds one compact value.
-/
namespace ServiceCatalog.Json

def hexDigits (width n : Nat) : List Char :=
  let ds := Nat.toDigits 16 n
  List.replicate (width - ds.length) '0' ++ ds

/-- One character inside a string. -/
def escaped (c : Char) : List Char :=
  if c = '"' then ['\\', '"']
  else if c = '\\' then ['\\', '\\']
  else if c = '\n' then ['\\', 'n']
  else if c = '\r' then ['\\', 'r']
  else if c = '\t' then ['\\', 't']
  else if c.toNat = 8 then ['\\', 'b']
  else if c.toNat = 12 then ['\\', 'f']
  else if c.toNat < 32 then '\\' :: 'u' :: hexDigits 4 c.toNat
  else [c]

def printString (s : String) : List Char :=
  '"' :: s.toList.flatMap escaped ++ ['"']

def printNumber : Number → List Char
  | .nat n => Nat.toDigits 10 n
  | .neg n => '-' :: Nat.toDigits 10 n
  | .float x => x.text.toList

def printBool (b : Bool) : List Char := if b then "true".toList else "false".toList

mutual
def compact : Json → List Char
  | .null => "null".toList
  | .bool b => printBool b
  | .num n => printNumber n
  | .str s => printString s
  | .arr items => '[' :: compactItems items ++ [']']
  | .obj fields => '{' :: compactFields fields ++ ['}']
def compactItems : List Json → List Char
  | [] => []
  | [j] => j.compact
  | j :: k :: rest => j.compact ++ ',' :: compactItems (k :: rest)
def compactFields : List (String × Json) → List Char
  | [] => []
  | [(name, j)] => printString name ++ ':' :: j.compact
  | (name, j) :: f :: rest =>
    printString name ++ ':' :: j.compact ++ ',' :: compactFields (f :: rest)
end

/-- The start of a line at some depth. -/
def newLine (depth : Nat) : List Char := '\n' :: List.replicate (2 * depth) ' '

mutual
def prettyAt (depth : Nat) : Json → List Char
  | .null => "null".toList
  | .bool b => printBool b
  | .num n => printNumber n
  | .str s => printString s
  | .arr [] => ['[', ']']
  | .obj [] => ['{', '}']
  | .arr (j :: rest) => '[' :: prettyItems (depth + 1) (j :: rest) ++ newLine depth ++ [']']
  | .obj (f :: rest) => '{' :: prettyFields (depth + 1) (f :: rest) ++ newLine depth ++ ['}']
def prettyItems (depth : Nat) : List Json → List Char
  | [] => []
  | [j] => newLine depth ++ prettyAt depth j
  | j :: k :: rest => newLine depth ++ prettyAt depth j ++ ',' :: prettyItems depth (k :: rest)
def prettyFields (depth : Nat) : List (String × Json) → List Char
  | [] => []
  | [(name, j)] => newLine depth ++ printString name ++ ':' :: ' ' :: prettyAt depth j
  | (name, j) :: f :: rest =>
    newLine depth ++ printString name ++ ':' :: ' ' :: prettyAt depth j ++
      ',' :: prettyFields depth (f :: rest)
end

def toText (j : Json) : String := String.ofList j.compact

def toPrettyText (j : Json) : String := String.ofList (prettyAt 0 j)

end ServiceCatalog.Json
