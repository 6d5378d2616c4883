import ServiceCatalog.Text.Blank
import ServiceCatalog.Toml.Scalar
import ServiceCatalog.Toml.Text
import ServiceCatalog.Toml.Tree
/-!
Reads a document of tables. A line is a header, a header of the next table of a list, or a key with
its value; blanks, comments and empty lines do not count. Arrays may run over several lines, tables
in braces may not.
-/
namespace ServiceCatalog.Toml

def skipBlanks (cs : List Char) : List Char := cs.dropWhile isBlank

/-- Passes over blanks, line ends and comments; `comment` is set inside one. -/
def skipGaps : Bool → List Char → Option (List Char)
  | _, [] => some []
  | _, '\n' :: rest => skipGaps false rest
  | _, '\r' :: '\n' :: rest => skipGaps false rest
  | true, c :: rest => if isPlain c then skipGaps true rest else none
  | false, '#' :: rest => skipGaps true rest
  | false, c :: rest => if isBlank c then skipGaps false rest else some (c :: rest)

/-- The end of a line: blanks, maybe a comment, and the line end. -/
def endOfLine (cs : List Char) : Option (List Char) :=
  let rest := skipBlanks cs
  let rest := if rest.head? = some '#' then rest.dropWhile isPlain else rest
  match rest with
  | [] => some []
  | '\n' :: rest => some rest
  | '\r' :: '\n' :: rest => some rest
  | _ => none

def isKeyChar (c : Char) : Bool := c.isAlphanum || c == '_' || c == '-'

/-- A key without points: bare or between quotes. -/
def readSimpleKey (cs : List Char) : Option (String × List Char) :=
  match cs with
  | '"' :: rest => (readBasic rest).map fun r => (String.ofList r.1, r.2)
  | '\'' :: rest => (readLiteral rest).map fun r => (String.ofList r.1, r.2)
  | _ =>
    let name := cs.takeWhile isKeyChar
    if name.isEmpty then none else some (String.ofList name, cs.dropWhile isKeyChar)

/-- How many names a key may have, and how deep values may nest. -/
def maxDepth : Nat := 79

/-- A key as a path and its last name, with the blanks around it. -/
def readKey : Nat → List Char → Option (List String × String × List Char)
  | 0, _ => none
  | fuel + 1, cs => do
    let (name, rest) ← readSimpleKey (skipBlanks cs)
    match skipBlanks rest with
    | '.' :: rest => do
      let (path, last, rest) ← readKey fuel rest
      return (name :: path, last, rest)
    | rest => return ([], name, rest)

mutual
/-- One value; `depth` containers may still be opened. -/
def readValue : Nat → Nat → List Char → Option (Setting × List Char)
  | 0, _, _ => none
  | fuel + 1, depth, cs =>
    match cs with
    | '[' :: rest =>
      match depth with
      | 0 => none
      | depth + 1 => do
        let (vs, rest) ← readItems fuel depth rest
        return (.list vs, rest)
    | '\x7b' :: rest =>
      match depth with
      | 0 => none
      | depth + 1 =>
        match skipBlanks rest with
        | '\x7d' :: rest => some (.table [], rest)
        | rest => do
          let (es, rest) ← readEntries fuel depth rest
          return (← inlineTable es, rest)
    | '"' :: _ | '\'' :: _ => (readText cs).map fun r => (.text (String.ofList r.1), r.2)
    | _ => readScalar cs
/-- The items of an array after its bracket; a comma may follow the last. -/
def readItems : Nat → Nat → List Char → Option (List Setting × List Char)
  | 0, _, _ => none
  | fuel + 1, depth, cs => do
    match ← skipGaps false cs with
    | ']' :: rest => return ([], rest)
    | rest => do
      let (v, rest) ← readValue fuel depth rest
      match ← skipGaps false rest with
      | ']' :: rest => return ([v], rest)
      | ',' :: rest => do
        let (vs, rest) ← readItems fuel depth rest
        return (v :: vs, rest)
      | _ => none
/-- The entries of a table in braces, at least one. -/
def readEntries : Nat → Nat → List Char → Option (List (List String × String × Setting) × List Char)
  | 0, _, _ => none
  | fuel + 1, depth, cs => do
    let (path, k, rest) ← readKey maxDepth cs
    match rest with
    | '=' :: rest => do
      let (v, rest) ← readValue fuel depth (skipBlanks rest)
      match skipBlanks rest with
      | '\x7d' :: rest => return ([(path, k, v)], rest)
      | ',' :: rest => do
        let (es, rest) ← readEntries fuel depth rest
        return ((path, k, v) :: es, rest)
      | _ => none
    | _ => none
end

/-- One line that is not empty. -/
def readStatement (cs : List Char) : Option (Statement × List Char) :=
  match cs with
  | '[' :: '[' :: rest => do
    match ← readKey maxDepth rest with
    | (path, k, ']' :: ']' :: rest) => return (.item path k, ← endOfLine rest)
    | _ => none
  | '[' :: rest => do
    match ← readKey maxDepth rest with
    | (path, k, ']' :: rest) => return (.header path k, ← endOfLine rest)
    | _ => none
  | _ => do
    match ← readKey maxDepth cs with
    | (path, k, '=' :: rest) => do
      let (v, rest) ← readValue (cs.length + 1) maxDepth (skipBlanks rest)
      return (.entry path k v, ← endOfLine rest)
    | _ => none

def readStatements : Nat → List Char → Option (List Statement)
  | 0, _ => none
  | fuel + 1, cs => do
    match ← skipGaps false cs with
    | [] => return []
    | rest => do
      let (s, rest) ← readStatement rest
      return s :: (← readStatements fuel rest)

/-- The entries of a document. -/
def ofText? (text : String) : Option (List (String × Setting)) := do
  let cs := Text.dropMark text.toList
  ofStatements (← readStatements (cs.length + 1) cs)

end ServiceCatalog.Toml
