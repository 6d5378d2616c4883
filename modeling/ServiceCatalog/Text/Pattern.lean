import ServiceCatalog.Text.Alphanumeric
/-!
Whether a text is a pattern: alternatives between bars, groups, sets of characters in brackets,
escapes, and repetitions behind what they repeat. Counted repetitions, references to groups, word
boundaries and looking around have no place in it. Every reader returns what follows.
-/
namespace ServiceCatalog.Text.Pattern

def isHex (c : Char) : Bool := c.isDigit || ('a' ≤ c && c ≤ 'f') || ('A' ≤ c && c ≤ 'F')

def hexDigit (c : Char) : Nat :=
  if c.isDigit then c.toNat - 48 else if c.isLower then c.toNat - 87 else c.toNat - 55

/-- What an escape stands for: one character, a class of them, or a place. -/
inductive Escape where
  | char (c : Char)
  | set
  | place
  deriving DecidableEq, Repr

/-- A character by its number in so many digits. -/
def readCode (width : Nat) (cs : List Char) : Option (Escape × List Char) :=
  let ds := cs.take width
  let n := ds.foldl (fun n c => n * 16 + hexDigit c) 0
  if ds.length = width ∧ ds.all isHex ∧ (n < 0xd800 ∨ (0xe000 ≤ n ∧ n < 0x110000)) then
    some (.char (Char.ofNat n), cs.drop width)
  else none

def simpleEscape? (c : Char) : Option Escape :=
  if c ∈ ['d', 's', 'w', 'D', 'S', 'W'] then some .set
  else if c = 'A' ∨ c = 'z' then some .place
  else if c = 'a' then some (.char (Char.ofNat 7))
  else if c = 'f' then some (.char (Char.ofNat 12))
  else if c = 't' then some (.char '\t')
  else if c = 'n' then some (.char '\n')
  else if c = 'r' then some (.char '\r')
  else if c = 'v' then some (.char (Char.ofNat 11))
  else if c.toNat < 128 ∧ !c.isAlphanum ∧ c ≠ '<' ∧ c ≠ '>' then some (.char c)
  else none

/-- An escape behind its backslash. -/
def readEscape : List Char → Option (Escape × List Char)
  | 'x' :: rest => readCode 2 rest
  | 'u' :: rest => readCode 4 rest
  | 'U' :: rest => readCode 8 rest
  | 'p' :: c :: rest => if c.toUpper ∈ "CLMNPSZ".toList then some (.set, rest) else none
  | 'P' :: c :: rest => if c.toUpper ∈ "CLMNPSZ".toList then some (.set, rest) else none
  | c :: rest => (simpleEscape? c).map (·, rest)
  | [] => none

/-- One member of a set. -/
def readMember : List Char → Option (Escape × List Char)
  | '\\' :: rest => do
    match ← readEscape rest with
    | (.place, _) => none
    | r => some r
  | c :: rest => some (.char c, rest)
  | [] => none

/-- A member of a set, or a range of characters in order. -/
def readRange (cs : List Char) : Option (List Char) := do
  let (low, rest) ← readMember cs
  match rest with
  | '-' :: ']' :: _ => some rest
  | '-' :: '-' :: _ => some rest
  | '-' :: rest => do
    match low, ← readMember rest with
    | .char a, (.char b, rest) => if a ≤ b then some rest else none
    | _, _ => none
  | _ => some rest

def className (cs : List Char) : List Char := cs.takeWhile fun c => c.isLower

def classNames : List String :=
  ["alnum", "alpha", "ascii", "blank", "cntrl", "digit", "graph", "lower", "print", "punct", "space",
    "upper", "word", "xdigit"]

/-- A class by its name between colons and brackets, behind the first bracket. -/
def readNamedClass : List Char → Option (List Char)
  | ':' :: rest =>
    let rest := match rest with
      | '^' :: rest => rest
      | _ => rest
    match classNames.contains (String.ofList (className rest)), rest.drop (className rest).length with
    | true, ':' :: ']' :: rest => some rest
    | _, _ => none
  | _ => none

/-- Behind an opening bracket: what may only stand first. -/
def openSet (cs : List Char) : List Char :=
  let cs := match cs with
    | '^' :: rest => rest
    | _ => cs
  match cs, cs.dropWhile (· == '-') with
  | ']' :: rest, _ => rest
  | _, rest => rest

/-- To the bracket that closes the outermost of `depth + 1` sets. -/
def readSet : Nat → Nat → List Char → Option (List Char)
  | 0, _, _ => none
  | _, _, [] => none
  | fuel + 1, depth, '[' :: rest =>
    match readNamedClass rest with
    | some rest => readSet fuel depth rest
    | none => readSet fuel (depth + 1) (openSet rest)
  | fuel + 1, depth, ']' :: rest =>
    match depth with
    | 0 => some rest
    | depth + 1 => readSet fuel depth rest
  | fuel + 1, depth, '&' :: '&' :: rest => readSet fuel depth rest
  | fuel + 1, depth, '-' :: '-' :: rest => readSet fuel depth rest
  | fuel + 1, depth, '~' :: '~' :: rest => readSet fuel depth rest
  | fuel + 1, depth, cs => do readSet fuel depth (← readRange cs)

def isNameChar (c : Char) : Bool :=
  isAlphanumeric c || c == '_' || c == '.' || c == '[' || c == ']'

/-- The name of a group up to its closing angle. -/
def readName (cs : List Char) : Option (List Char) :=
  let name := cs.takeWhile isNameChar
  match name, cs.drop name.length with
  | c :: _, '>' :: rest =>
    if c = '_' ∨ (isAlphanumeric c ∧ !c.isDigit) then some rest else none
  | _, _ => none

def flags : List Char := ['i', 'm', 's', 'U', 'u', 'R', 'x']

/-- Flags, each at most once, some behind one minus sign. -/
def isFlags (cs : List Char) : Bool :=
  cs.all (fun c => c == '-' || flags.contains c) && cs.length == cs.eraseDups.length &&
    cs.getLast? != some '-'

/-- How a group starts, behind its parenthesis. -/
inductive Opening where
  | group
  /-- Flags for what follows, no group at all. -/
  | flags

def readOpening : List Char → Option (Opening × List Char)
  | '?' :: 'P' :: '<' :: rest => (readName rest).map (.group, ·)
  | '?' :: '<' :: rest => (readName rest).map (.group, ·)
  | '?' :: rest =>
    let fs := rest.takeWhile fun c => c != ':' && c != ')'
    if !isFlags fs then none
    else match rest.drop fs.length with
      | ':' :: rest => some (.group, rest)
      | ')' :: rest => if fs.isEmpty then none else some (.flags, rest)
      | _ => none
  | cs => some (.group, cs)

/-- Reads on in `depth` open groups; `repeatable` says that something stands just before that can be
repeated. -/
def reads : Nat → Nat → Bool → List Char → Bool
  | 0, _, _, _ => false
  | _, depth, _, [] => depth == 0
  | fuel + 1, depth, repeatable, c :: rest =>
    if c = '(' then
      match readOpening rest with
      | some (.group, rest) => reads fuel (depth + 1) false rest
      | some (.flags, rest) => reads fuel depth false rest
      | none => false
    else if c = ')' then
      match depth with
      | 0 => false
      | depth + 1 => reads fuel depth true rest
    else if c = '|' then reads fuel depth false rest
    else if c = '[' then
      match readSet fuel 0 (openSet rest) with
      | some rest => reads fuel depth true rest
      | none => false
    else if c = '\\' then
      match readEscape rest with
      | some (_, rest) => reads fuel depth true rest
      | none => false
    else if c = '*' ∨ c = '+' ∨ c = '?' then repeatable && reads fuel depth true rest
    else if c = '\x7b' then false
    else reads fuel depth true rest

def isValid (cs : List Char) : Bool := reads (2 * cs.length + 2) 0 false cs

end ServiceCatalog.Text.Pattern
