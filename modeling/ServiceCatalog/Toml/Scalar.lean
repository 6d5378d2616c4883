import ServiceCatalog.Settings.Value
import ServiceCatalog.Time.Printer
/-!
Bare values of a document: truth values, integers in four bases, fractions, dates and times. Each is
judged as one word. A date stands in the settings as its text.
-/
namespace ServiceCatalog.Toml

/-- Digits that may be parted by single underscores, each with a digit on both sides. -/
def isGrouped (isDigit : Char → Bool) : List Char → Bool
  | [] => false
  | [c] => isDigit c
  | c :: '_' :: d :: rest => isDigit c && isGrouped isDigit (d :: rest)
  | c :: d :: rest => isDigit c && isGrouped isDigit (d :: rest)

def ungrouped (cs : List Char) : List Char := cs.filter (· != '_')

/-- No leading zero but zero itself. -/
def isWhole (cs : List Char) : Bool :=
  isGrouped Char.isDigit cs && (cs.head? != some '0' || cs.length == 1)

def digitOf (c : Char) : Nat :=
  if c.isDigit then c.toNat - 48 else if c.isLower then c.toNat - 87 else c.toNat - 55

def isHex (c : Char) : Bool := c.isDigit || ('a' ≤ c && c ≤ 'f') || ('A' ≤ c && c ≤ 'F')

def isBelow (base : Nat) (c : Char) : Bool := isHex c && digitOf c < base

def based? (base : Nat) (cs : List Char) : Option Int :=
  if isGrouped (isBelow base) cs then
    let n := (ungrouped cs).foldl (fun n c => n * base + digitOf c) 0
    if n < 1 <<< 63 then some n else none
  else none

def integer? : List Char → Option Int
  | '0' :: 'x' :: cs => based? 16 cs
  | '0' :: 'o' :: cs => based? 8 cs
  | '0' :: 'b' :: cs => based? 2 cs
  | cs =>
    if isWhole (Numeral.splitSign cs).2 then Numeral.signed64? (ungrouped cs) else none

/-- After the whole part: a fraction, an exponent, or both. -/
def isFractionTail (cs : List Char) : Bool :=
  let isExponent (cs : List Char) : Bool :=
    isGrouped Char.isDigit (Numeral.splitSign cs).2
  let isMember (c : Char) : Bool := c.isDigit || c == '_'
  match cs with
  | '.' :: rest =>
    isGrouped Char.isDigit (rest.takeWhile isMember) &&
      match rest.dropWhile isMember with
      | [] => true
      | c :: rest => Numeral.isExponentMark c && isExponent rest
  | c :: rest => Numeral.isExponentMark c && isExponent rest
  | [] => false

/-- A word for a number without end; too large a positive fraction is no number. -/
def fraction? (cs : List Char) : Option Binary64 :=
  let (negative, rest) := Numeral.splitSign cs
  if rest = "inf".toList then some (.infinity negative)
  else if rest = "nan".toList then some .nan
  else
    let isMember (c : Char) : Bool := c.isDigit || c == '_'
    if isWhole (rest.takeWhile isMember) && isFractionTail (rest.dropWhile isMember) then
      match Numeral.decimal? (ungrouped cs) with
      | some (.infinity false) => none
      | x => x
    else none

/-- A number of two digits up to a bound. -/
def upTo (high : Nat) (a b : Char) : Bool :=
  a.isDigit && b.isDigit && (a.toNat - 48) * 10 + (b.toNat - 48) ≤ high

def isDate : List Char → Bool
  | [y1, y2, y3, y4, '-', m1, m2, '-', d1, d2] =>
    [y1, y2, y3, y4, m1, m2, d1, d2].all Char.isDigit &&
      decide (Date.Valid ⟨(Nat.ofDigitChars 10 [y1, y2, y3, y4] 0 : Nat),
        Nat.ofDigitChars 10 [m1, m2] 0, Nat.ofDigitChars 10 [d1, d2] 0⟩)
  | _ => false

def dropLastZeros (cs : List Char) : List Char := (cs.reverse.dropWhile (· == '0')).reverse

/-- A time of day with at most nine places kept and no zeros at the end, and what follows it. -/
def time? (lastHour : Nat) : List Char → Option (List Char × List Char)
  | h1 :: h2 :: ':' :: m1 :: m2 :: ':' :: s1 :: s2 :: rest =>
    if upTo lastHour h1 h2 && upTo 59 m1 m2 && upTo 60 s1 s2 then
      let clock := [h1, h2, ':', m1, m2, ':', s1, s2]
      match rest with
      | '.' :: after =>
        let ds := after.takeWhile Char.isDigit
        if ds.isEmpty then none
        else
          let kept := dropLastZeros (ds.take 9)
          some (clock ++ (if kept.isEmpty then [] else '.' :: kept), after.dropWhile Char.isDigit)
      | _ => some (clock, rest)
    else none
  | _ => none

/-- An offset; zero has a plus sign. -/
def offset? : List Char → Option (List Char)
  | [] => some []
  | ['Z'] => some ['Z']
  | ['z'] => some ['Z']
  | [s, h1, h2, ':', m1, m2] =>
    if (s == '+' || s == '-') && upTo 23 h1 h2 && upTo 59 m1 m2 then
      let sign := if [h1, h2, m1, m2].all (· == '0') then '+' else s
      some [sign, h1, h2, ':', m1, m2]
    else none
  | _ => none

/-- A date, a time, or both. -/
def moment? (cs : List Char) : Option (List Char) :=
  if isDate cs then some cs
  else if isDate (cs.take 10) then
    match cs.drop 10 with
    | c :: rest =>
      if c == 'T' || c == 't' || c == ' ' then do
        let (clock, rest) ← time? 23 rest
        return cs.take 10 ++ 'T' :: clock ++ (← offset? rest)
      else none
    | [] => none
  else match time? 23 cs with
    | some (clock, []) => some clock
    | _ => none

/-- An offset of up to a day whose minutes may run on. -/
def wideOffset? : List Char → Option (List Char)
  | [s, h1, h2, ':', m1, m2] =>
    let n := Nat.ofDigitChars 10 [h1, h2] 0 * 60 + Nat.ofDigitChars 10 [m1, m2] 0
    if (s == '+' || s == '-') && [h1, h2, m1, m2].all Char.isDigit && n ≤ 1440 then
      some ((if n = 0 then '+' else s) :: Instant.padded 2 (n / 60) ++ ':' :: Instant.padded 2 (n % 60))
    else none
  | cs => offset? cs

/-- A date, a time, or both, from a text: midnight may be written as the hour 24. -/
def wideMoment? (cs : List Char) : Option (List Char) :=
  if cs[2]? = some ':' then
    match time? 24 cs with
    | some (clock, []) => some clock
    | _ => none
  else if isDate (cs.take 10) then
    match cs.drop 10 with
    | [] => some cs
    | c :: rest =>
      if c == 'T' || c == 't' || c == ' ' then do
        let (clock, rest) ← time? 24 rest
        return cs.take 10 ++ 'T' :: clock ++ (← wideOffset? rest)
      else none
  else none

def scalar (word : List Char) : Option Setting :=
  if word = "true".toList then some (.flag true)
  else if word = "false".toList then some (.flag false)
  else match moment? word with
    | some t => some (.text (String.ofList t))
    | none =>
      match integer? word with
      | some i => some (.whole i)
      | none => (fraction? word).map .fraction

def isWordChar (c : Char) : Bool :=
  c.isAlphanum || c == '_' || c == '+' || c == '-' || c == '.' || c == ':'

/-- The word at the front; a date and a time may have a blank between them. -/
def splitWord (cs : List Char) : List Char × List Char :=
  let word := cs.takeWhile isWordChar
  let rest := cs.dropWhile isWordChar
  match rest with
  | ' ' :: after =>
    let next := after.takeWhile isWordChar
    if isDate word && (time? 23 next).isSome then
      (word ++ ' ' :: next, after.dropWhile isWordChar)
    else (word, rest)
  | _ => (word, rest)

def readScalar (cs : List Char) : Option (Setting × List Char) :=
  let (word, rest) := splitWord cs
  (scalar word).map (·, rest)

end ServiceCatalog.Toml
