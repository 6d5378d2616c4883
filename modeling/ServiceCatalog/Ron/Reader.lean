import ServiceCatalog.Json.Reader
import ServiceCatalog.Settings.Value
/-!
Reads a value in the notation of records: fields in parentheses, maps in braces, lists in brackets,
with names in front of records that say nothing about the value.
-/
namespace ServiceCatalog.Ron

def isBlank (c : Char) : Bool := c == ' ' || c == '\t' || c == '\n' || c == '\r'

/-- Behind the end of a comment between stars that has `inner` more open ones in it. -/
def skipBlock : Nat → List Char → Option (List Char)
  | _, [] => none
  | inner, '/' :: '*' :: rest => skipBlock (inner + 1) rest
  | 0, '*' :: '/' :: rest => some rest
  | inner + 1, '*' :: '/' :: rest => skipBlock inner rest
  | inner, _ :: rest => skipBlock inner rest

def skipWith : Nat → List Char → Option (List Char)
  | 0, _ => none
  | fuel + 1, cs =>
    match cs with
    | '/' :: '/' :: rest => skipWith fuel (rest.dropWhile (· != '\n'))
    | '/' :: '*' :: rest => (skipBlock 0 rest).bind (skipWith fuel)
    | '/' :: _ => none
    | c :: rest => if isBlank c then skipWith fuel rest else some cs
    | [] => some []

/-- Passes over blanks and comments. -/
def skip (cs : List Char) : Option (List Char) := skipWith (cs.length + 1) cs

def isNameStart (c : Char) : Bool := c.isAlpha || c == '_'

def isNamePart (c : Char) : Bool := c.isAlphanum || c == '_'

/-- A name with a mark in front may hold these too. -/
def isMarkedPart (c : Char) : Bool := isNamePart c || c == '.' || c == '+' || c == '-'

def readName : List Char → Option (List Char × List Char)
  | ['r'] => none
  | 'r' :: '"' :: _ => none
  | 'r' :: '#' :: rest =>
    let name := rest.takeWhile isMarkedPart
    if name.isEmpty then none else some (name, rest.drop name.length)
  | c :: rest =>
    let name := (c :: rest).takeWhile isNamePart
    let after := (c :: rest).drop name.length
    if isNameStart c && !after.head?.any isMarkedPart then some (name, after) else none
  | [] => none

/-- What follows a word, when it stands at the front as a name of its own. -/
def afterWord? (word : String) (cs : List Char) : Option (List Char) :=
  let rest := cs.drop word.length
  if word.toList.isPrefixOf cs && !rest.head?.any isNamePart then some rest else none

def words : List (String × Setting) :=
  [("true", .flag true), ("false", .flag false), ("None", .nothing),
    ("inf", .fraction (.infinity false)), ("-inf", .fraction (.infinity true)),
    ("NaN", .fraction .nan)]

def readWord (words : List (String × Setting)) (cs : List Char) : Option (Setting × List Char) :=
  words.findSome? fun w => (afterWord? w.1 cs).map (w.2, ·)

def isIntegerChar (c : Char) : Bool := (Json.hexValue c).isSome || c == '_'

def isDecimalChar (c : Char) : Bool := c.isDigit || "eE.+-_".toList.contains c

def signedWords : List (String × Setting) :=
  [("+inf", .fraction (.infinity false)), ("-inf", .fraction (.infinity true)),
    ("+NaN", .fraction .nan), ("-NaN", .fraction .nan)]

/-- Underscores may stand in integers only. -/
def readDecimal (cs : List Char) : Option (Setting × List Char) :=
  (readWord signedWords cs).orElse fun _ =>
    let number := cs.takeWhile isDecimalChar
    (Numeral.decimal? number).map (.fraction ·, cs.drop number.length)

def baseOf : List Char → Nat
  | '0' :: 'x' :: _ => 16
  | '0' :: 'o' :: _ => 8
  | '0' :: 'b' :: _ => 2
  | _ => 10

def natural? (base : Nat) (cs : List Char) : Option Nat :=
  if cs.isEmpty ∨ cs.head? = some '_' then none
  else (cs.filter (· != '_')).foldlM
    (fun n c => (Json.hexValue c).bind fun d => if d < base then some (n * base + d) else none) 0

/-- An integer of 64 bits; without a sign it may have the last bit as well. -/
def ofNatural? (sign : Option Char) (n : Nat) : Option Setting :=
  if sign = some '-' then if n ≤ 1 <<< 63 then some (.whole (-(n : Int))) else none
  else if n < 1 <<< 63 then some (.whole n)
  else if sign.isNone ∧ n < 1 <<< 64 then some (.fraction (.ofRatio false n 1))
  else none

def isSign (c : Char) : Bool := c == '+' || c == '-'

def readInteger (cs : List Char) : Option (Setting × List Char) := do
  let sign := cs.head?.filter isSign
  let rest := cs.drop sign.toList.length
  let base := baseOf rest
  let rest := if base = 10 then rest else rest.drop 2
  let digits := rest.takeWhile isIntegerChar
  let v ← ofNatural? sign (← natural? base digits)
  return (v, rest.drop digits.length)

/-- An integer unless more characters go on as a decimal; what is no integer may be a decimal. -/
def readNumber (cs : List Char) : Option (Setting × List Char) :=
  let rest := if cs.head?.any isSign then cs.drop 1 else cs
  if (rest.takeWhile isIntegerChar).length < (rest.takeWhile isDecimalChar).length then
    readDecimal cs
  else (readInteger cs).orElse fun _ => readDecimal cs

/-- A character by up to six digits, and a brace. -/
def readCode : Nat → Nat → List Char → Option (Nat × List Char)
  | _, n, '\x7d' :: rest => some (n, rest)
  | 0, _, _ => none
  | digits + 1, n, c :: rest => (Json.hexValue c).bind fun d => readCode digits (n * 16 + d) rest
  | _, _, [] => none

/-- A character behind a backslash. -/
def readEscape : List Char → Option (Char × List Char)
  | 'x' :: a :: b :: rest => (Json.hex4 '0' '0' a b).map (Char.ofNat ·, rest)
  | 'u' :: '\x7b' :: '\x7d' :: _ => none
  | 'u' :: '\x7b' :: rest => do
    let (n, rest) ← readCode 6 0 rest
    if n.isValidChar then return (Char.ofNat n, rest) else none
  | 'n' :: rest => some ('\n', rest)
  | 'r' :: rest => some ('\r', rest)
  | 't' :: rest => some ('\t', rest)
  | '0' :: rest => some (Char.ofNat 0, rest)
  | c :: rest => if c = '\'' ∨ c = '"' ∨ c = '\\' then some (c, rest) else none
  | [] => none

/-- To the closing quote. -/
def readQuoted : Nat → List Char → Option (List Char × List Char)
  | 0, _ => none
  | fuel + 1, cs =>
    match cs with
    | '"' :: rest => some ([], rest)
    | '\\' :: rest => do
      let (c, rest) ← readEscape rest
      let (text, rest) ← readQuoted fuel rest
      return (c :: text, rest)
    | c :: rest => (readQuoted fuel rest).map fun r => (c :: r.1, r.2)
    | [] => none

/-- As it stands, to a quote with the marks behind it. -/
def readRaw (close : List Char) : List Char → Option (List Char × List Char)
  | [] => none
  | c :: rest =>
    if close.isPrefixOf (c :: rest) then some ([], (c :: rest).drop close.length)
    else (readRaw close rest).map fun r => (c :: r.1, r.2)

/-- A text between quotes, a raw one or a single character. -/
def readText : List Char → Option (List Char × List Char)
  | '"' :: rest => readQuoted (rest.length + 1) rest
  | 'r' :: rest =>
    let marks := rest.takeWhile (· == '#')
    match rest.drop marks.length with
    | '"' :: rest => readRaw ('"' :: marks) rest
    | _ => none
  | '\'' :: '\\' :: rest =>
    match readEscape rest with
    | some (c, '\'' :: rest) => some ([c], rest)
    | _ => none
  | '\'' :: c :: '\'' :: rest => if c = '\'' then none else some ([c], rest)
  | _ => none

/-- Whether fields with names follow an opening parenthesis. -/
def hasFields (cs : List Char) : Bool :=
  match readName cs with
  | some (_, rest) => (skip rest).any fun rest => rest.head? == some ':'
  | none => false

/-- A key is a name in a record and a text in a map. -/
def readKey (close : Char) (cs : List Char) : Option (String × List Char) :=
  (if close = ')' then readName cs else readText cs).map fun r => (String.ofList r.1, r.2)

mutual
/-- One value; `depth` steps may still be taken inwards. -/
def readValue : Nat → Nat → List Char → Option (Setting × List Char)
  | 0, _, _ => none
  | fuel + 1, depth, cs =>
    match readWord words cs, afterWord? "Some" cs, readName cs, cs with
    | some r, _, _, _ => some r
    | _, some rest, _, _ => do readSome fuel depth (← skip rest)
    | _, _, some (_, rest), _ => do
      match ← skip rest with
      | '(' :: rest => readParentheses fuel depth rest
      | rest => return (.nothing, rest)
    | _, _, _, '(' :: ')' :: rest => some (.nothing, rest)
    | _, _, _, '(' :: rest => readParentheses fuel depth rest
    | _, _, _, '[' :: rest => readList fuel depth ']' rest
    | _, _, _, '\x7b' :: rest => readTable fuel depth '\x7d' rest
    | _, _, _, c :: _ =>
      if c = '.' then readDecimal cs
      else if c.isDigit || isSign c then readNumber cs
      else (readText cs).map fun r => (.text (String.ofList r.1), r.2)
    | _, _, _, [] => none
/-- A value that may be absent and is not, behind the word that says so. -/
def readSome : Nat → Nat → List Char → Option (Setting × List Char)
  | fuel + 1, depth + 1, '(' :: rest => do
    let (v, rest) ← readValue fuel depth (← skip rest)
    match ← skip rest with
    | ')' :: rest => return (v, rest)
    | ',' :: rest =>
      match ← skip rest with
      | ')' :: rest => return (v, rest)
      | _ => none
    | _ => none
  | _, _, _ => none
def readParentheses : Nat → Nat → List Char → Option (Setting × List Char)
  | 0, _, _ => none
  | fuel + 1, depth, cs => do
    let cs ← skip cs
    if hasFields cs then readTable fuel depth ')' cs else readList fuel depth ')' cs
def readList : Nat → Nat → Char → List Char → Option (Setting × List Char)
  | fuel + 1, depth + 1, close, cs =>
    (readItems fuel depth close cs).map fun r => (.list r.1, r.2)
  | _, _, _, _ => none
def readTable : Nat → Nat → Char → List Char → Option (Setting × List Char)
  | fuel + 1, depth + 1, close, cs =>
    (readEntries fuel depth close [] cs).map fun r => (.table r.1, r.2)
  | _, _, _, _ => none
/-- Items up to the closing character; a comma may follow the last. -/
def readItems : Nat → Nat → Char → List Char → Option (List Setting × List Char)
  | 0, _, _, _ => none
  | fuel + 1, depth, close, cs => do
    let cs ← skip cs
    if cs.head? = some close then return ([], cs.drop 1)
    else match depth with
      | 0 => none
      | depth + 1 => do
        let (v, rest) ← readValue fuel depth cs
        match ← skip rest with
        | ',' :: rest => do
          let (vs, rest) ← readItems fuel (depth + 1) close rest
          return (v :: vs, rest)
        | rest => if rest.head? = some close then return ([v], rest.drop 1) else none
/-- Entries up to the closing character, after those before; the last of equal keys stays. -/
def readEntries : Nat → Nat → Char → List (String × Setting) → List Char →
    Option (List (String × Setting) × List Char)
  | 0, _, _, _, _ => none
  | fuel + 1, depth, close, es, cs => do
    let cs ← skip cs
    if cs.head? = some close then return (es, cs.drop 1)
    else match depth with
      | 0 => none
      | depth + 1 => do
        let (k, rest) ← readKey close cs
        match ← skip rest with
        | ':' :: rest => do
          let (v, rest) ← readValue fuel depth (← skip rest)
          let es := Setting.putEntry k v es
          match ← skip rest with
          | ',' :: rest => readEntries fuel (depth + 1) close es rest
          | rest => if rest.head? = some close then return (es, rest.drop 1) else none
        | _ => none
end

/-- The ways of writing that a document may ask for in front. -/
def extensions : List String := ["unwrap_newtypes", "implicit_some", "unwrap_variant_newtypes"]

def readExtensions : Nat → List Char → Option (List Char)
  | 0, _ => none
  | fuel + 1, cs => do
    let (name, rest) ← readName cs
    if !extensions.contains (String.ofList name) then none
    else match ← skip rest with
      | ',' :: rest => do
        let rest ← skip rest
        if rest.head?.any isNamePart then readExtensions fuel rest else return rest
      | rest => return rest

/-- Passes over a text and the blanks behind it. -/
def expect (text : String) (cs : List Char) : Option (List Char) :=
  if text.toList.isPrefixOf cs then skip (cs.drop text.length) else none

def readHeader : Nat → List Char → Option (List Char)
  | 0, cs => some cs
  | fuel + 1, cs =>
    if "#!".toList.isPrefixOf cs then do
      let rest ← ["#!", "[", "enable", "("].foldlM (fun cs s => expect s cs) cs
      let rest ← readExtensions (rest.length + 1) rest
      let rest ← [")", "]"].foldlM (fun cs s => expect s cs) rest
      readHeader fuel rest
    else some cs

def maxDepth : Nat := 128

/-- The whole text as one value. -/
def ofText? (text : String) : Option Setting := do
  let cs ← readHeader (text.length + 1) (← skip text.toList)
  let (v, rest) ← readValue (3 * cs.length + 3) maxDepth cs
  if (← skip rest).isEmpty then return v else none

end ServiceCatalog.Ron
