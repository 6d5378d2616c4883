import ServiceCatalog.Json.Reader
import ServiceCatalog.Settings.Value
import ServiceCatalog.Text.Blank
/-!
Reads a document of sections. A section starts with its name in brackets; its keys have their values
behind an equals sign or a colon, up to the end of the line. A comment is a line of its own, from its
very first character. All values are texts.
-/
namespace ServiceCatalog.Ini

/-- Passes over white space; `fresh` says whether a line starts here. -/
def skipSpace : Bool → List Char → Bool × List Char
  | fresh, [] => (fresh, [])
  | fresh, c :: rest => if Text.isSpace c then skipSpace (c == '\n') rest else (fresh, c :: rest)

/-- The character that a letter behind a backslash stands for. -/
def escaped (c : Char) : Char :=
  if c = '0' then Char.ofNat 0
  else if c = 'a' then Char.ofNat 7
  else if c = 'b' then Char.ofNat 8
  else if c = 't' then '\t'
  else if c = 'r' then '\r'
  else if c = 'n' then '\n'
  else c

/-- The text up to one of the `stops`, which stays; the end of the document is one if `open` is set. -/
def readUntil (stops : List Char) (mayEnd : Bool) : List Char → Option (List Char × List Char)
  | [] => if mayEnd then some ([], []) else none
  | '\\' :: '\n' :: rest => readUntil stops mayEnd rest
  | '\\' :: 'x' :: a :: b :: c :: d :: rest => do
    let n ← Json.hex4 a b c d
    if 0xd800 ≤ n ∧ n < 0xe000 then none
    else do
      let (text, rest) ← readUntil stops mayEnd rest
      return (Char.ofNat n :: text, rest)
  | '\\' :: c :: rest =>
    if c = 'x' then none
    else do
      let (text, rest) ← readUntil stops mayEnd rest
      return (escaped c :: text, rest)
  | c :: rest =>
    if stops.contains c then some ([], c :: rest)
    else if c = '\\' then none
    else do
      let (text, rest) ← readUntil stops mayEnd rest
      return (c :: text, rest)

def trimBack (cs : List Char) : List Char := (Text.trimFront cs.reverse).reverse

def trim (cs : List Char) : List Char := trimBack (Text.trimFront cs)

/-- The rest of a line as a value: parts between quotes as they stand, then the bare part without
the white space at its end and, when it comes first, in front. -/
def readParts : Nat → Bool → List Char → Option (List Char × List Char)
  | 0, _, _ => none
  | fuel + 1, first, cs =>
    match cs with
    | [] => some ([], [])
    | c :: rest =>
      if c = '"' ∨ c = '\'' then do
        let (part, rest) ← readUntil [c] false rest
        let (more, rest) ← readParts fuel false (rest.drop 1)
        return (part ++ more, rest)
      else do
        let (part, rest) ← readUntil ['\n', '\r'] true (c :: rest)
        return (if first then trim part else trimBack part, rest)

def readValue (cs : List Char) : Option (String × List Char) := do
  let cs := cs.dropWhile fun c => Text.isSpace c && c != '\n' && c != '\r'
  let (text, rest) ← readParts (cs.length + 1) true cs
  return (String.ofList text, rest)

/-- One piece of a document. -/
inductive Piece where
  | comment
  | section (name : String)
  | entry (key value : String)

def readPiece (fresh : Bool) : List Char → Option (Piece × Bool × List Char)
  | ';' :: rest => if fresh then some (.comment, true, (rest.dropWhile (· != '\n')).drop 1) else none
  | '#' :: rest => if fresh then some (.comment, true, (rest.dropWhile (· != '\n')).drop 1) else none
  | '[' :: rest => do
    let (name, rest) ← readUntil [']'] false rest
    return (.section (String.ofList (trim name)), false, rest.drop 1)
  | cs => do
    let (key, rest) ← readUntil ['=', ':'] false cs
    let key := trim key
    if key.isEmpty then none
    else do
      let (value, rest) ← readValue (rest.drop 1)
      return (.entry (String.ofList key) value, false, rest)

def readPieces : Nat → Bool → List Char → Option (List Piece)
  | 0, _, _ => none
  | fuel + 1, fresh, cs =>
    match skipSpace fresh cs with
    | (_, []) => some []
    | (fresh, cs) => do
      let (p, fresh, rest) ← readPiece fresh cs
      return p :: (← readPieces fuel fresh rest)

/-- Entries up to here, and the section that is open. A section that comes again replaces the one
before. -/
structure Draft where
  entries : List (String × Setting) := []
  opened : Option (String × List (String × Setting)) := none

def Draft.close (d : Draft) : List (String × Setting) :=
  match d.opened with
  | none => d.entries
  | some (name, es) => Setting.putEntry name (.table es) d.entries

def Draft.add (d : Draft) : Piece → Draft
  | .comment => d
  | .section name => { entries := d.close, opened := some (name, []) }
  | .entry k v =>
    match d.opened with
    | none => { d with entries := Setting.putEntry k (.text v) d.entries }
    | some (name, es) => { d with opened := some (name, Setting.putEntry k (.text v) es) }

/-- The entries of a document; those before the first section stand beside the sections. -/
def ofText? (text : String) : Option (List (String × Setting)) := do
  let cs := text.toList
  let pieces ← readPieces (cs.length + 1) true cs
  return (pieces.foldl Draft.add {}).close

end ServiceCatalog.Ini
