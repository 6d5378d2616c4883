import ServiceCatalog.Number.Binary64
/-!
Numbers written in text. Integers of 64 bits may have leading zeros and a plus sign; decimals may lack
the digits on one side of the point and may be infinite.
-/
namespace ServiceCatalog.Numeral

/-- A run of digits. -/
def natural? (cs : List Char) : Option Nat :=
  if cs.isEmpty || !cs.all Char.isDigit then none else some (Nat.ofDigitChars 10 cs 0)

/-- Whether a minus sign stands in front, and what follows the sign. -/
def splitSign : List Char → Bool × List Char
  | '-' :: rest => (true, rest)
  | '+' :: rest => (false, rest)
  | cs => (false, cs)

def signed64? (cs : List Char) : Option Int := do
  let (negative, digits) := splitSign cs
  let n ← natural? digits
  if negative then
    if n ≤ 1 <<< 63 then return -(n : Int) else none
  else if n < 1 <<< 63 then return n
  else none

def unsigned64? (cs : List Char) : Option Nat := do
  let n ← natural? (match cs with
    | '+' :: rest => rest
    | _ => cs)
  if n < 1 <<< 64 then return n else none

/-- The exponent of a decimal, zero when there is none. -/
def exponent? : List Char → Option Int
  | [] => some 0
  | _ :: cs => do
    let (negative, digits) := splitSign cs
    let n ← natural? digits
    return if negative then -(n : Int) else n

def isExponentMark (c : Char) : Bool := c == 'e' || c == 'E'

/-- A decimal without its sign. -/
def magnitude? (negative : Bool) (cs : List Char) : Option Binary64 := do
  let whole := cs.takeWhile Char.isDigit
  let rest := cs.dropWhile Char.isDigit
  let (fraction, rest) := match rest with
    | '.' :: after => (after.takeWhile Char.isDigit, after.dropWhile Char.isDigit)
    | _ => ([], rest)
  if whole.isEmpty && fraction.isEmpty then none
  else if !(rest.isEmpty || (rest.head?.map isExponentMark).getD false) then none
  else
    let e ← exponent? rest
    return .ofDecimal negative (Nat.ofDigitChars 10 (whole ++ fraction) 0) (e - fraction.length)

def decimal? (cs : List Char) : Option Binary64 :=
  let (negative, rest) := splitSign cs
  let word := String.ofList (rest.map Char.toLower)
  if word = "inf" ∨ word = "infinity" then some (.infinity negative)
  else if word = "nan" then some .nan
  else magnitude? negative rest

end ServiceCatalog.Numeral
