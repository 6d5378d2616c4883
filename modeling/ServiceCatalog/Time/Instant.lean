import ServiceCatalog.Time.Date
/-!
Instants of UTC with leap seconds. The nanoseconds run past one second only in a leap second, which
belongs to the second `:59` it extends. Adding a span and taking the difference follow the time of
day: a span that leaves a leap second steps over it as over no time at all.
-/
namespace ServiceCatalog

/-- A length of time in nanoseconds. -/
abbrev Span := Int

def Span.ofMillis (n : Int) : Span := n * 1000000

def Span.ofSeconds (n : Int) : Span := n * 1000000000

def billion : Int := 1000000000

structure Instant where
  /-- Since 1970, leap seconds not counted. -/
  seconds : Int
  nanos : Nat
  deriving DecidableEq, Repr

namespace Instant

/-- Start of year -262143 and end of year 262142. -/
def earliest : Int := -8334601228800
def latest : Int := 8210266876799

/-- What a clock can show. -/
def Valid (t : Instant) : Prop :=
  earliest ≤ t.seconds ∧ t.seconds ≤ latest ∧ t.nanos < 2000000000 ∧
    (1000000000 ≤ t.nanos → t.seconds % 60 = 59)

instance (t : Instant) : Decidable t.Valid := inferInstanceAs (Decidable (_ ∧ _))

def of? (seconds : Int) (nanos : Nat) : Option Instant :=
  if Valid ⟨seconds, nanos⟩ then some ⟨seconds, nanos⟩ else none

def dayLength : Int := 86400

def secondOfDay (t : Instant) : Int := t.seconds % dayLength

def day (t : Instant) : Int := t.seconds / dayLength

/-- Whole seconds and the rest of a span, both with its sign. -/
def spanParts (d : Span) : Int × Int := (Int.tdiv d billion, Int.tmod d billion)

/-- Takes an instant out of its leap second before a span is added, unless it stays inside. -/
def leaveLeap (t : Instant) (wholeSeconds rest : Int) : Option (Int × Int) :=
  let frac : Int := t.nanos
  if frac < billion then some (t.seconds, frac)
  else if 0 < wholeSeconds ∨ (0 < rest ∧ 2 * billion ≤ frac + rest) then some (t.seconds, frac - billion)
  else if wholeSeconds < 0 then some (t.seconds + 1, frac - billion)
  else none

/-- Carries nanoseconds over into the seconds. -/
def carry (s n : Int) : Option Instant :=
  if n < 0 then of? (s - 1) (n + billion).toNat
  else if billion ≤ n then of? (s + 1) (n - billion).toNat
  else of? s n.toNat

/-- Adds the parts of a span, given where the leap second is left. -/
def addParts (t : Instant) (wholeSeconds rest : Int) : Option (Int × Int) → Option Instant
  | none => of? t.seconds (t.nanos + rest).toNat
  | some (s, frac) => carry (s + wholeSeconds) (frac + rest)

/-- The instant a span later; none outside the calendar. -/
def add? (t : Instant) (d : Span) : Option Instant :=
  let (whole, rest) := spanParts d
  t.addParts whole rest (t.leaveLeap whole rest)

/-- Seconds between two times of day; a leap second in between counts. -/
def timeOfDaySeconds (a b : Instant) : Int :=
  let d := a.secondOfDay - b.secondOfDay
  if b.secondOfDay < a.secondOfDay ∧ 1000000000 ≤ b.nanos then d + 1
  else if a.secondOfDay < b.secondOfDay ∧ 1000000000 ≤ a.nanos then d - 1
  else d

/-- `a - b`. -/
def since (a b : Instant) : Span :=
  ((a.day - b.day) * dayLength + timeOfDaySeconds a b) * billion + ((a.nanos : Int) - b.nanos)

theorem valid_of_of? {s : Int} {n : Nat} {t : Instant} (h : of? s n = some t) : t.Valid := by
  unfold of? at h
  split at h
  · cases h; assumption
  · cases h

end Instant
end ServiceCatalog
