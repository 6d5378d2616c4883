/-!
Days of the Gregorian calendar, counted from 1 January 1970. Years start in March here, so that a
leap day is the last of its year and every month's length is the same in all years.
-/
namespace ServiceCatalog

structure Date where
  year : Int
  month : Nat
  day : Nat
  deriving DecidableEq, Repr

namespace Date

def isLeap (y : Int) : Bool := y % 4 == 0 && (y % 100 != 0 || y % 400 == 0)

def monthLength (y : Int) (m : Nat) : Nat :=
  if m = 2 then (if isLeap y then 29 else 28)
  else if m = 4 ∨ m = 6 ∨ m = 9 ∨ m = 11 then 30
  else 31

/-- A day that is in the calendar. -/
def Valid (d : Date) : Prop :=
  1 ≤ d.month ∧ d.month ≤ 12 ∧ 1 ≤ d.day ∧ d.day ≤ monthLength d.year d.month

instance (d : Date) : Decidable d.Valid := inferInstanceAs (Decidable (_ ∧ _))

/-- Days of the years before the year that starts in March of year `y`. -/
def daysBeforeYear (y : Int) : Int := 365 * y + y / 4 - y / 100 + y / 400

/-- Days of the months before the `m`-th, March being the first. -/
def daysBeforeMonth (m : Int) : Int := (153 * m + 2) / 5

/-- 1 March of year 0 to 1 January 1970. -/
def epochShift : Int := 719468

def dayNumber (d : Date) : Int :=
  let y := if d.month ≤ 2 then d.year - 1 else d.year
  let m : Int := if d.month ≤ 2 then d.month + 9 else d.month - 3
  daysBeforeYear y + daysBeforeMonth m + d.day - 1 - epochShift

/-- Year and day of the year of a day counted from 1 March of year 0. -/
def yearAndDay (n : Int) : Int × Int :=
  let era := n / 146097
  let r := n % 146097
  let c := min (r / 36524) 3
  let r := r - 36524 * c
  let q := r / 1461
  let r := r - 1461 * q
  let y := min (r / 365) 3
  (400 * era + 100 * c + 4 * q + y, r - 365 * y)

def ofDayNumber (n : Int) : Date :=
  let (y, doy) := yearAndDay (n + epochShift)
  let m := (5 * doy + 2) / 153
  let day := (doy - daysBeforeMonth m + 1).toNat
  if m < 10 then ⟨y, (m + 3).toNat, day⟩ else ⟨y + 1, (m - 9).toNat, day⟩

end Date
end ServiceCatalog
