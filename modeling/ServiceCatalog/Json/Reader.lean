import ServiceCatalog.Json.Value
/-!
Reads JSON text. The grammar is the strict one: no leading zeros, no bare control characters in
strings, surrogates only in pairs, nothing after the value but blanks. At most 127 arrays and
objects may stand inside each other.
-/
namespace ServiceCatalog.Json

def isBlankChar (c : Char) : Bool := c == ' ' || c == '\n' || c == '\t' || c == '\r'

def skipBlanks (cs : List Char) : List Char := cs.dropWhile isBlankChar

def hexValue (c : Char) : Option Nat :=
  if '0' ≤ c ∧ c ≤ '9' then some (c.toNat - 48)
  else if 'a' ≤ c ∧ c ≤ 'f' then some (c.toNat - 87)
  else if 'A' ≤ c ∧ c ≤ 'F' then some (c.toNat - 55)
  else none

def hex4 (a b c d : Char) : Option Nat := do
  return (((← hexValue a) * 16 + (← hexValue b)) * 16 + (← hexValue c)) * 16 + (← hexValue d)

def simpleEscape (c : Char) : Option Char :=
  if c = '"' ∨ c = '\\' ∨ c = '/' then some c
  else if c = 'b' then some (Char.ofNat 8)
  else if c = 'f' then some (Char.ofNat 12)
  else if c = 'n' then some '\n'
  else if c = 'r' then some '\r'
  else if c = 't' then some '\t'
  else none

/-- The characters up to the closing quote, and what follows it. -/
def readString : List Char → Option (List Char × List Char)
  | [] => none
  | '"' :: rest => some ([], rest)
  | '\\' :: 'u' :: a :: b :: c :: d :: rest =>
    match hex4 a b c d with
    | none => none
    | some n =>
      if 0xd800 ≤ n ∧ n < 0xdc00 then
        match rest with
        | '\\' :: 'u' :: e :: f :: g :: h :: rest =>
          match hex4 e f g h with
          | none => none
          | some m =>
            if 0xdc00 ≤ m ∧ m < 0xe000 then
              (readString rest).map fun r =>
                (Char.ofNat (0x10000 + (n - 0xd800) * 0x400 + (m - 0xdc00)) :: r.1, r.2)
            else none
        | _ => none
      else if 0xdc00 ≤ n ∧ n < 0xe000 then none
      else (readString rest).map fun r => (Char.ofNat n :: r.1, r.2)
  | '\\' :: c :: rest =>
    match simpleEscape c with
    | none => none
    | some x => (readString rest).map fun r => (x :: r.1, r.2)
  | c :: rest =>
    if c.toNat < 32 ∨ c = '\\' then none
    else (readString rest).map fun r => (c :: r.1, r.2)

def digitValue (c : Char) : Nat := c.toNat - 48

def maxWord : Nat := 18446744073709551615

/-- Whole digits into a 64 bit significand; once one does not fit, the rest only shift the
exponent. -/
def wholeDigits : List Char → Nat → Nat × Int
  | [], s => (s, 0)
  | c :: rest, s =>
    let t := s * 10 + digitValue c
    if t ≤ maxWord then wholeDigits rest t else (s, rest.length + 1)

/-- Digits behind the point; once one does not fit, the rest are dropped. -/
def fractionDigits : List Char → Nat → Int → Nat × Int
  | [], s, e => (s, e)
  | c :: rest, s, e =>
    let t := s * 10 + digitValue c
    if t ≤ maxWord then fractionDigits rest t (e - 1) else (s, e)

/-- A significand times a power of ten, rounded once per step; out of range is an error. -/
def scaled : Nat → Binary64 → Int → Option Binary64
  | 0, _, _ => some (.zero false)
  | steps + 1, f, e =>
    if 0 ≤ e then
      if e ≤ 308 then
        match f.mulAbs (.ofDecimal false 1 e) with
        | .infinity _ => none
        | r => some r
      else if f = .zero false then some f else none
    else if -308 ≤ e then some (f.divAbs (.ofDecimal false 1 (-e)))
    else if f = .zero false then some f
    else scaled steps (f.divAbs (.ofDecimal false 1 308)) (e + 308)

def withSign (negative : Bool) : Binary64 → Binary64
  | .finite _ m e => .finite negative m e
  | x => x

def floatOf (negative : Bool) (significand : Nat) (e : Int) : Option Number :=
  (scaled 4 (.ofRatio false significand 1) e).map (.float ∘ withSign negative)

/-- The part of a number from the exponent mark on. -/
def readExponent (negative : Bool) (s : Nat) (e : Int) : List Char → Option (Number × List Char)
  | m :: rest =>
    if m = 'e' ∨ m = 'E' then
      let (down, rest) := match rest with
        | '+' :: r => (false, r)
        | '-' :: r => (true, r)
        | r => (false, r)
      let ds := rest.takeWhile Char.isDigit
      if ds.isEmpty then none
      else
        let x : Int := Nat.ofDigitChars 10 ds 0
        (floatOf negative s (if down then e - x else e + x)).map (·, rest.dropWhile Char.isDigit)
    else (floatOf negative s e).map (·, m :: rest)
  | [] => (floatOf negative s e).map (·, [])

/-- A number after its sign. -/
def readMagnitude (negative : Bool) (cs : List Char) : Option (Number × List Char) :=
  let ds := cs.takeWhile Char.isDigit
  let rest := cs.dropWhile Char.isDigit
  if ds.isEmpty ∨ (ds.head? = some '0' ∧ ds.length ≠ 1) then none
  else
    let (s, e) := wholeDigits ds 0
    match rest with
    | '.' :: after =>
      let fs := after.takeWhile Char.isDigit
      if fs.isEmpty then none
      else
        let (s, e) := fractionDigits fs s e
        readExponent negative s e (after.dropWhile Char.isDigit)
    | _ =>
      if e ≠ 0 ∨ rest.head? = some 'e' ∨ rest.head? = some 'E' then readExponent negative s e rest
      else if !negative then some (.nat s, rest)
      else if s = 0 ∨ 1 <<< 63 < s then some (.float (withSign true (.ofRatio false s 1)), rest)
      else some (.neg s, rest)

def readNumber : List Char → Option (Number × List Char)
  | '-' :: cs => readMagnitude true cs
  | cs => readMagnitude false cs

def literals : List (List Char × Json) :=
  [("null".toList, .null), ("true".toList, .bool true), ("false".toList, .bool false)]

/-- A word with a fixed meaning. -/
def readLiteral (cs : List Char) : Option (Json × List Char) :=
  (literals.find? fun w => w.1.isPrefixOf cs).map fun w => (w.2, cs.drop w.1.length)

mutual
/-- One value; `depth` containers may still be opened. -/
def readValue : Nat → Nat → List Char → Option (Json × List Char)
  | 0, _, _ => none
  | fuel + 1, depth, cs =>
    match skipBlanks cs with
    | [] => none
    | '"' :: rest => (readString rest).map fun r => (.str (String.ofList r.1), r.2)
    | '[' :: rest =>
      match depth with
      | 0 => none
      | depth + 1 =>
        match skipBlanks rest with
        | ']' :: rest => some (.arr [], rest)
        | rest => (readItems fuel depth rest).map fun r => (.arr r.1, r.2)
    | '{' :: rest =>
      match depth with
      | 0 => none
      | depth + 1 =>
        match skipBlanks rest with
        | '}' :: rest => some (.obj [], rest)
        | rest => (readFields fuel depth rest).map fun r => (.obj r.1, r.2)
    | c :: rest =>
      if c = '-' ∨ c.isDigit then (readNumber (c :: rest)).map fun r => (.num r.1, r.2)
      else readLiteral (c :: rest)
/-- The values of an array after its bracket, at least one. -/
def readItems : Nat → Nat → List Char → Option (List Json × List Char)
  | 0, _, _ => none
  | fuel + 1, depth, cs =>
    match readValue fuel depth cs with
    | none => none
    | some (j, rest) =>
      match skipBlanks rest with
      | ']' :: rest => some ([j], rest)
      | ',' :: rest => (readItems fuel depth rest).map fun r => (j :: r.1, r.2)
      | _ => none
/-- The fields of an object after its brace, at least one. -/
def readFields : Nat → Nat → List Char → Option (List (String × Json) × List Char)
  | 0, _, _ => none
  | fuel + 1, depth, cs =>
    match skipBlanks cs with
    | '"' :: rest =>
      match readString rest with
      | none => none
      | some (name, rest) =>
        match skipBlanks rest with
        | ':' :: rest =>
          match readValue fuel depth rest with
          | none => none
          | some (j, rest) =>
            match skipBlanks rest with
            | '}' :: rest => some ([(String.ofList name, j)], rest)
            | ',' :: rest =>
              (readFields fuel depth rest).map fun r => ((String.ofList name, j) :: r.1, r.2)
            | _ => none
        | _ => none
    | _ => none
end

/-- How many containers may stand inside each other. -/
def maxDepth : Nat := 127

/-- The whole text as one value, its objects as written. -/
def ofText? (text : String) : Option Json :=
  let cs := text.toList
  match readValue (2 * cs.length + 2) maxDepth cs with
  | some (j, rest) => if (skipBlanks rest).isEmpty then some j else none
  | none => none

/-- The whole text as a document. -/
def document? (text : String) : Option Json := (ofText? text).map sorted

end ServiceCatalog.Json
