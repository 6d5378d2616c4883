import ServiceCatalog.Time.Instant
/-!
Instants as text: date, `T`, time of day and offset zero. The fraction has as few groups of three
digits as are exact. A leap second is written `:60`. Years of four digits stand bare, all others
carry a sign.
-/
namespace ServiceCatalog.Instant

def padded (width n : Nat) : List Char :=
  let ds := Nat.toDigits 10 n
  List.replicate (width - ds.length) '0' ++ ds

def yearText (y : Int) : List Char :=
  if 0 ≤ y ∧ y ≤ 9999 then padded 4 y.toNat
  else (if y < 0 then '-' else '+') :: padded 4 y.natAbs

/-- Digits behind the point for nanoseconds below a second. -/
def fractionText (n : Nat) : List Char :=
  if n = 0 then []
  else if n % 1000000 = 0 then '.' :: padded 3 (n / 1000000)
  else if n % 1000 = 0 then '.' :: padded 6 (n / 1000)
  else '.' :: padded 9 n

def dateText (d : Date) : List Char :=
  yearText d.year ++ '-' :: padded 2 d.month ++ '-' :: padded 2 d.day

/-- Time of day for a second of the day and nanoseconds that may reach into a leap second. -/
def clockText (s n : Nat) : List Char :=
  let leap := 1000000000 ≤ n
  padded 2 (s / 3600) ++ ':' :: padded 2 (s / 60 % 60) ++
    ':' :: padded 2 (if leap then s % 60 + 1 else s % 60) ++
    fractionText (if leap then n - 1000000000 else n)

def localText (t : Instant) : List Char :=
  dateText (Date.ofDayNumber t.day) ++ 'T' :: clockText t.secondOfDay.toNat t.nanos

/-- With the offset as `Z`. -/
def text (t : Instant) : String := String.ofList (t.localText ++ ['Z'])

/-- With the offset in figures. -/
def offsetText (t : Instant) : String := String.ofList (t.localText ++ "+00:00".toList)

end ServiceCatalog.Instant
