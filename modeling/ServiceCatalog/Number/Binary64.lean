/-!
Binary floating point with 53 bits, in exact arithmetic. A finite value is an integer times a power
of two; reading rounds a ratio to the nearest such value, a tie to the even one. Writing takes the
fewest decimal digits that read back, and of those the nearest to the value.
-/
namespace ServiceCatalog

/-- A finite value is `± mantissa * 2 ^ exponent` with `mantissa < 2 ^ 53`. -/
inductive Binary64 where
  | nan
  | infinity (negative : Bool)
  | finite (negative : Bool) (mantissa : Nat) (exponent : Int)
  deriving DecidableEq, Repr

namespace Binary64

def zero (negative : Bool) : Binary64 := .finite negative 0 (-1074)

/-- `n / d` rounded to the nearest integer, a half to the even neighbour. -/
def roundDiv (n d : Nat) : Nat :=
  let q := n / d
  let r := n % d
  if 2 * r < d then q else if d < 2 * r then q + 1 else q + q % 2

/-- The ratio `num * 2 ^ (-e) / den` as a pair of integers. -/
def scale (num den : Nat) (e : Int) : Nat × Nat :=
  if e < 0 then (num <<< (-e).toNat, den) else (num, den <<< e.toNat)

/-- The value nearest to `num / den`. -/
def ofRatio (negative : Bool) (num den : Nat) : Binary64 :=
  if num = 0 then zero negative
  else
    let guess : Int := max ((num.log2 : Int) - den.log2 - 53) (-1074)
    let first := scale num den guess
    let e := if 1 <<< 53 ≤ first.1 / first.2 then guess + 1 else guess
    let at_e := scale num den e
    let m := roundDiv at_e.1 at_e.2
    let (m, e) := if m = 1 <<< 53 then (1 <<< 52, e + 1) else (m, e)
    if e > 971 then .infinity negative else .finite negative m e

/-- The magnitude of a finite value as a ratio. -/
def ratio (m : Nat) (e : Int) : Nat × Nat :=
  if e < 0 then (m, 1 <<< (-e).toNat) else (m <<< e.toNat, 1)

/-- The value nearest to `± digits * 10 ^ e`; exponents far outside the range are cut short. -/
def ofDecimal (negative : Bool) (digits : Nat) (e : Int) : Binary64 :=
  if digits = 0 then zero negative
  else if e > 400 then .infinity negative
  else if e + digits.log2 < -1200 then zero negative
  else if e < 0 then ofRatio negative digits (Nat.pow 10 (-e).toNat)
  else ofRatio negative (digits * Nat.pow 10 e.toNat) 1

/-- Product of two magnitudes, rounded once. -/
def mulAbs : Binary64 → Binary64 → Binary64
  | .finite _ m e, .finite _ n f =>
    let a := ratio m e
    let b := ratio n f
    ofRatio false (a.1 * b.1) (a.2 * b.2)
  | .nan, _ | _, .nan => .nan
  | _, _ => .infinity false

/-- Quotient of two finite magnitudes, rounded once. -/
def divAbs : Binary64 → Binary64 → Binary64
  | .finite _ m e, .finite _ n f =>
    if n = 0 then .infinity false
    else
      let a := ratio m e
      let b := ratio n f
      ofRatio false (a.1 * b.2) (a.2 * b.1)
  | .infinity _, _ => .infinity false
  | _, _ => .nan

/-- The half-open gap to a neighbour counts only when the mantissa is even. -/
structure Interval where
  low : Nat
  value : Nat
  high : Nat
  den : Nat
  closed : Bool

/-- The ratios that read back as `m * 2 ^ e`, over one denominator. -/
def interval (m : Nat) (e : Int) : Interval :=
  let step := ratio 1 e
  let below := if m = 1 <<< 52 ∧ e > -1074 then 1 else 2
  { low := (4 * m - below) * step.1, value := 4 * m * step.1, high := (4 * m + 2) * step.1,
    den := 4 * step.2, closed := m % 2 == 0 }

def Interval.holds (i : Interval) (num den : Nat) : Bool :=
  let lo := compare (i.low * den) (num * i.den)
  let hi := compare (num * i.den) (i.high * den)
  (lo == .lt || (i.closed && lo == .eq)) && (hi == .lt || (i.closed && hi == .eq))

/-- Ten to a power, as a ratio. -/
def tenPow (e : Int) : Nat × Nat :=
  if e < 0 then (1, Nat.pow 10 (-e).toNat) else (Nat.pow 10 e.toNat, 1)

/-- On the grid of multiples of `10 ^ g`: the point in the interval nearest to the value. -/
def Interval.onGrid (i : Interval) (g : Int) : Option Nat :=
  let unit := tenPow g
  let d := i.value * unit.2 / (i.den * unit.1)
  let down := i.holds (d * unit.1) unit.2
  let up := i.holds ((d + 1) * unit.1) unit.2
  let twice := 2 * i.value * unit.2
  let mid := (2 * d + 1) * unit.1 * i.den
  if down && up then
    some (if twice < mid then d else if mid < twice then d + 1 else d + d % 2)
  else if down then some d
  else if up then some (d + 1)
  else none

/-- Tries the grids from coarse to fine; the finest one always holds a point. -/
def Interval.firstGrid (i : Interval) : Nat → Int → Nat × Int
  | 0, g => (i.value / i.den, g)
  | n + 1, g =>
    match i.onGrid g with
    | some 0 | none => i.firstGrid n (g - 1)
    | some d => (d, g)

/-- The decimal exponent at which the first grid is tried, at or above the leading digit. -/
def topGrid (i : Interval) : Int :=
  let digits := ((Nat.toDigits 10 (i.value / i.den)).length : Int)
  if i.value < i.den then
    -(((Nat.toDigits 10 (i.den / i.value)).length : Int)) + 1
  else digits

/-- Fewest digits: `(d, g)` stands for `d * 10 ^ g`. -/
def shortest (m : Nat) (e : Int) : Nat × Int :=
  if m = 0 then (0, 0)
  else
    let i := interval m e
    i.firstGrid 20 (topGrid i)

def zeros (n : Nat) : List Char := List.replicate n '0'

/-- Digits with the point after the first `point` of them, padded with zeros. -/
def positional (ds : List Char) (point : Int) : List Char × List Char :=
  if point ≤ 0 then (['0'], zeros (-point).toNat ++ ds)
  else if ds.length ≤ point.toNat then (ds ++ zeros (point.toNat - ds.length), [])
  else (ds.take point.toNat, ds.drop point.toNat)

def sign (negative : Bool) : List Char := if negative then ['-'] else []

/-- Digits and the position of the point behind them. -/
def digitsAndPoint (m : Nat) (e : Int) : List Char × Int :=
  let (d, g) := shortest m e
  let ds := Nat.toDigits 10 d
  (ds, ds.length + g)

/-- Never an exponent; a fraction only where there is one. -/
def plain : Binary64 → String
  | .nan => "NaN"
  | .infinity s => String.ofList (sign s ++ "inf".toList)
  | .finite s m e =>
    let (ds, point) := digitsAndPoint m e
    let (whole, frac) := positional ds point
    String.ofList (sign s ++ whole ++ if frac.isEmpty then [] else '.' :: frac)

/-- Positional with at least one decimal from `1e-5` up to `1e16`, an exponent with its sign outside. -/
def decimalText (s : Bool) (m : Nat) (e : Int) : List Char :=
  let (ds, point) := digitsAndPoint m e
  if m = 0 then sign s ++ ['0', '.', '0']
  else if -5 < point ∧ point ≤ 16 then
    let (whole, frac) := positional ds point
    sign s ++ whole ++ '.' :: (if frac.isEmpty then ['0'] else frac)
  else
    let x := point - 1
    let tail := ds.drop 1
    sign s ++ ds.take 1 ++ (if tail.isEmpty then [] else '.' :: tail) ++
      'e' :: (if x < 0 then '-' else '+') :: Nat.toDigits 10 x.natAbs

def text : Binary64 → String
  | .finite s m e => String.ofList (decimalText s m e)
  | _ => "null"

end Binary64
end ServiceCatalog
