import ServiceCatalog.Json.Reader
import ServiceCatalog.Settings.Value
import ServiceCatalog.Text.Alphanumeric
import ServiceCatalog.Text.Blank
/-!
Reads JSON in its relaxed form: comments, names without quotes, single quotes, a comma behind the
last item, lines continued by a backslash, signs in front of numbers, hexadecimal integers, and
fractions that lack digits on one side or are no numbers at all.
-/
namespace ServiceCatalog.Json5

def isLineEnd (c : Char) : Bool := c == '\n' || c == '\r' || c.toNat = 0x2028 || c.toNat = 0x2029

def isSpace (c : Char) : Bool := (Text.isSpace c && c.toNat != 0x85) || c.toNat = 0xfeff

/-- Behind the end of a comment between stars. -/
def skipBlock : List Char → Option (List Char)
  | [] => none
  | '*' :: '/' :: rest => some rest
  | _ :: rest => skipBlock rest

/-- Passes over white space and comments; a comment without end stays. -/
def skip : Nat → List Char → List Char
  | 0, cs => cs
  | fuel + 1, cs =>
    match cs with
    | '/' :: '/' :: rest => skip fuel (rest.dropWhile (!isLineEnd ·))
    | '/' :: '*' :: rest =>
      match skipBlock rest with
      | some rest => skip fuel rest
      | none => cs
    | c :: rest => if isSpace c then skip fuel rest else cs
    | [] => []

def skipAll (cs : List Char) : List Char := skip (cs.length + 1) cs

def escapeLetters : List (Char × Char) :=
  [('b', Char.ofNat 8), ('f', Char.ofNat 12), ('n', '\n'), ('r', '\r'), ('t', '\t'),
    ('v', Char.ofNat 11)]

/-- The character behind a backslash, when it is no digit, no mark of a number and no line end. -/
def escape? (c : Char) : Option Char :=
  match escapeLetters.find? (·.1 == c) with
  | some e => some e.2
  | none =>
    if c = '0' then some (Char.ofNat 0)
    else if c.isDigit ∨ c = 'x' ∨ c = 'u' ∨ isLineEnd c then none
    else some c

/-- A character by four digits behind `\u`, as a pair when it is the first half of one. -/
def readUnicode : List Char → Option (Char × List Char)
  | a :: b :: c :: d :: rest => do
    let n ← Json.hex4 a b c d
    if 0xdc00 ≤ n ∧ n < 0xe000 then none
    else if 0xd800 ≤ n ∧ n < 0xdc00 then
      match rest with
      | '\\' :: 'u' :: e :: f :: g :: h :: rest => do
        let m ← Json.hex4 e f g h
        if 0xdc00 ≤ m ∧ m < 0xe000 then
          return (Char.ofNat (0x10000 + (n - 0xd800) * 0x400 + (m - 0xdc00)), rest)
        else none
      | _ => none
    else return (Char.ofNat n, rest)
  | _ => none

/-- To the closing quote. -/
def readString (quote : Char) : Nat → List Char → Option (List Char × List Char)
  | 0, _ => none
  | _, [] => none
  | fuel + 1, '\\' :: 'u' :: rest => do
    let (c, rest) ← readUnicode rest
    let (text, rest) ← readString quote fuel rest
    return (c :: text, rest)
  | fuel + 1, '\\' :: 'x' :: a :: b :: rest => do
    let n ← Json.hex4 '0' '0' a b
    let (text, rest) ← readString quote fuel rest
    return (Char.ofNat n :: text, rest)
  | fuel + 1, '\\' :: '\r' :: '\n' :: rest => readString quote fuel rest
  | fuel + 1, '\\' :: c :: rest =>
    if isLineEnd c then readString quote fuel rest
    else do
      let x ← escape? c
      let (text, rest) ← readString quote fuel rest
      return (x :: text, rest)
  | fuel + 1, c :: rest =>
    if c = quote then some ([], rest)
    else if c = '\\' ∨ isLineEnd c then none
    else do
      let (text, rest) ← readString quote fuel rest
      return (c :: text, rest)

def isNameStart (c : Char) : Bool :=
  c == '$' || c == '_' || (Text.isAlphanumeric c && !c.isDigit)

def isNamePart (c : Char) : Bool :=
  isNameStart c || c.isDigit || c.toNat = 0x200c || c.toNat = 0x200d

/-- A name without quotes, with what may stand first in it and after that. -/
def readName (isPart : Char → Bool) : Nat → List Char → Option (List Char × List Char)
  | 0, _ => none
  | fuel + 1, '\\' :: 'u' :: rest => do
    let (c, rest) ← readUnicode rest
    let (text, rest) ← (readName isNamePart fuel rest).orElse fun _ => some ([], rest)
    return (c :: text, rest)
  | fuel + 1, c :: rest =>
    if isPart c then do
      let (text, rest) ← (readName isNamePart fuel rest).orElse fun _ => some ([], rest)
      return (c :: text, rest)
    else none
  | _, [] => none

def readKey : List Char → Option (String × List Char)
  | c :: rest =>
    if c = '"' ∨ c = '\'' then
      (readString c (rest.length + 1) rest).map fun r => (String.ofList r.1, r.2)
    else (readName isNameStart (rest.length + 2) (c :: rest)).map fun r => (String.ofList r.1, r.2)
  | [] => none

/-- The exponent at the front, when there is one with digits. -/
def takeExponent (cs : List Char) : List Char :=
  match cs with
  | m :: rest =>
    if Numeral.isExponentMark m then
      let sign := (rest.take 1).filter fun c => c == '+' || c == '-'
      let ds := (rest.drop sign.length).takeWhile Char.isDigit
      if ds.isEmpty then [] else m :: sign ++ ds
    else []
  | [] => []

/-- The digits of a decimal at the front: no zero before others, digits on one side of the point. -/
def takeDecimal (cs : List Char) : List Char :=
  let whole := match cs with
    | '0' :: _ => ['0']
    | _ => cs.takeWhile Char.isDigit
  match cs.drop whole.length with
  | '.' :: rest =>
    let ds := rest.takeWhile Char.isDigit
    if whole.isEmpty && ds.isEmpty then []
    else
      let number := whole ++ '.' :: ds
      number ++ takeExponent (cs.drop number.length)
  | rest => if whole.isEmpty then [] else whole ++ takeExponent rest

def hexInteger? (cs : List Char) : Option Setting := do
  let ds ← cs.mapM Json.hexValue
  let n := ds.foldl (fun (n d : Nat) => n * 16 + d) 0
  if n < 1 <<< 32 then return .whole n else none

/-- A decimal as it is written: an integer of 64 bits, or a fraction within range. -/
def decimal? (cs : List Char) : Option Setting :=
  if cs.any fun c => c == '.' || Numeral.isExponentMark c then
    match Numeral.decimal? cs with
    | some (.finite s m e) => some (.fraction (.finite s m e))
    | _ => none
  else (Numeral.signed64? cs).map .whole

def isHexMark (c : Char) : Bool := c == 'x' || c == 'X'

def readNumber (cs : List Char) : Option (Setting × List Char) :=
  let sign := (cs.take 1).filter fun c => c == '+' || c == '-'
  let rest := cs.drop sign.length
  let hex := match rest with
    | '0' :: x :: ds => if isHexMark x then ds.takeWhile fun c => (Json.hexValue c).isSome else []
    | _ => []
  if !hex.isEmpty then
    if sign.isEmpty then (hexInteger? hex).map (·, rest.drop (hex.length + 2)) else none
  else if "Infinity".toList.isPrefixOf rest then
    if sign = ['+'] then none else some (.fraction (.infinity (sign = ['-'])), rest.drop 8)
  else if "NaN".toList.isPrefixOf rest then
    if sign = ['+'] then none else some (.fraction .nan, rest.drop 3)
  else
    let number := takeDecimal rest
    if number.isEmpty then none else (decimal? (sign ++ number)).map (·, rest.drop number.length)

def words : List (List Char × Setting) :=
  [("null".toList, .nothing), ("true".toList, .flag true), ("false".toList, .flag false)]

mutual
def readValue : Nat → List Char → Option (Setting × List Char)
  | 0, _ => none
  | fuel + 1, cs =>
    match cs with
    | [] => none
    | '[' :: rest => (readItems fuel (skipAll rest)).map fun r => (.list r.1, r.2)
    | '\x7b' :: rest => (readEntries fuel [] (skipAll rest)).map fun r => (.table r.1, r.2)
    | c :: rest =>
      if c = '"' ∨ c = '\'' then
        (readString c (rest.length + 1) rest).map fun r => (.text (String.ofList r.1), r.2)
      else match words.find? fun w => w.1.isPrefixOf cs with
        | some w => some (w.2, cs.drop w.1.length)
        | none => readNumber cs
/-- The items of an array behind its bracket; a comma may follow the last. -/
def readItems : Nat → List Char → Option (List Setting × List Char)
  | 0, _ => none
  | fuel + 1, cs =>
    match cs with
    | ']' :: rest => some ([], rest)
    | _ => do
      let (v, rest) ← readValue fuel cs
      match skipAll rest with
      | ']' :: rest => return ([v], rest)
      | ',' :: rest => do
        let (vs, rest) ← readItems fuel (skipAll rest)
        return (v :: vs, rest)
      | _ => none
/-- The entries of an object behind its brace, after those before; the last of equal names stays. -/
def readEntries : Nat → List (String × Setting) → List Char →
    Option (List (String × Setting) × List Char)
  | 0, _, _ => none
  | fuel + 1, es, cs =>
    match cs with
    | '\x7d' :: rest => some (es, rest)
    | _ => do
      let (k, rest) ← readKey cs
      match skipAll rest with
      | ':' :: rest => do
        let (v, rest) ← readValue fuel (skipAll rest)
        let es := Setting.putEntry k v es
        match skipAll rest with
        | '\x7d' :: rest => return (es, rest)
        | ',' :: rest => readEntries fuel es (skipAll rest)
        | _ => none
      | _ => none
end

/-- The whole text as one value. -/
def ofText? (text : String) : Option Setting := do
  let cs := text.toList
  let (v, rest) ← readValue (2 * cs.length + 2) (skipAll cs)
  if (skipAll rest).isEmpty then return v else none

end ServiceCatalog.Json5
