import ServiceCatalog.Text.Blank
import ServiceCatalog.Time.Instant
/-!
Reads an instant with its offset. Looser than what is written: blanks before a number and around the
offset, one-digit fields, a blank for `T`, an offset without colon or as `UTC`. A number outside its
range is an error at once; the day is checked against the calendar once the text has been read.
-/
namespace ServiceCatalog.Instant

inductive ReadError where
  | invalid
  | outOfRange
  | tooShort
  | trailing
  /-- The offset moves the instant out of the calendar. -/
  | impossible
  deriving DecidableEq, Repr

def ReadError.message : ReadError → String
  | .invalid => "input contains invalid characters"
  | .outOfRange => "input is out of range"
  | .tooShort => "premature end of input"
  | .trailing => "trailing input"
  | .impossible => "no possible date and time matching input"

abbrev ReadM := Except ReadError

/-- At least one and at most `width` digits. -/
def readDigits (width : Nat) (cs : List Char) : ReadM (Nat × List Char) :=
  match cs with
  | [] => .error .tooShort
  | c :: _ =>
    if c.isDigit then
      let ds := (cs.take width).takeWhile Char.isDigit
      let n := Nat.ofDigitChars 10 ds 0
      if n < 1 <<< 63 then .ok (n, cs.drop ds.length) else .error .outOfRange
    else .error .invalid

/-- A number of at most two digits within bounds. -/
def readField (low high : Nat) (cs : List Char) : ReadM (Nat × List Char) := do
  let (n, rest) ← readDigits 2 (Text.trimFront cs)
  if low ≤ n ∧ n ≤ high then return (n, rest) else throw .outOfRange

def readYear (cs : List Char) : ReadM (Int × List Char) := do
  let cs := Text.trimFront cs
  let (y, rest) ← match cs with
    | '-' :: r => do
      let (n, rest) ← readDigits r.length r
      pure (-(n : Int), rest)
    | '+' :: r => do
      let (n, rest) ← readDigits r.length r
      pure ((n : Int), rest)
    | _ => do
      let (n, rest) ← readDigits 4 cs
      pure ((n : Int), rest)
  if -2147483648 ≤ y ∧ y < 2147483648 then return (y, rest) else throw .outOfRange

/-- A mark with blanks allowed before it. -/
def readMark (mark : Char) (cs : List Char) : ReadM (List Char) :=
  match Text.trimFront cs with
  | [] => .error .tooShort
  | c :: rest => if c = mark then .ok rest else .error .invalid

/-- Nanoseconds; digits past the ninth are dropped. -/
def readFraction (cs : List Char) : ReadM (Nat × List Char) :=
  match cs with
  | '.' :: rest => do
    let (n, after) ← readDigits 9 rest
    let used := rest.length - after.length
    return (n * Nat.pow 10 (9 - used), after.dropWhile Char.isDigit)
  | _ => .ok (0, cs)

def twoDigits (cs : List Char) : ReadM (Nat × Nat × List Char) :=
  match cs with
  | a :: b :: rest =>
    if a.isDigit ∧ b.isDigit then .ok (a.toNat - 48, b.toNat - 48, rest) else .error .invalid
  | [_] =>
    .error .tooShort
  | [] => .error .tooShort

/-- Too few bytes for two digits; one character beyond ASCII is more than one byte. -/
def tooFew (cs : List Char) : Bool :=
  match cs with
  | [] => true
  | [c] => c.utf8Size < 2
  | _ => false

def readTwo (cs : List Char) : ReadM (Nat × Nat × List Char) :=
  if tooFew cs then .error .tooShort
  else match twoDigits cs with
    | .ok r => .ok r
    | .error _ => .error .invalid

def isOffsetGap (c : Char) : Bool := c == ':' || Text.isSpace c

/-- Offset in seconds east of UTC. -/
def readOffset (cs : List Char) : ReadM (Int × List Char) :=
  match cs with
  | [] => .error .tooShort
  | c :: rest =>
    if c = 'Z' ∨ c = 'z' then .ok (0, rest)
    else if c = '+' ∨ c = '-' ∨ c.toNat = 0x2212 then do
      let (h1, h2, rest) ← readTwo rest
      let (m1, m2, rest) ← readTwo (rest.dropWhile isOffsetGap)
      if 6 ≤ m1 then throw .outOfRange
      let s : Int := (h1 * 10 + h2) * 3600 + (m1 * 10 + m2) * 60
      return (if c = '+' then s else -s, rest)
    else .error .invalid

def readZone (cs : List Char) : ReadM (Int × List Char) :=
  match cs with
  | u :: t :: c :: rest =>
    if u.toUpper = 'U' ∧ t.toUpper = 'T' ∧ c.toUpper = 'C' then .ok (0, rest) else readOffset cs
  | _ => readOffset cs

def readSeparator (cs : List Char) : ReadM (List Char) :=
  match cs with
  | [] => .error .tooShort
  | c :: rest => if c = 't' ∨ c = 'T' ∨ c = ' ' then .ok rest else .error .invalid

/-- Years that the calendar covers. -/
def yearInRange (y : Int) : Bool := -262143 ≤ y && y ≤ 262142

/-- Puts the parts together; second 60 is a leap second. -/
def assemble (d : Date) (hour minute second nanos : Nat) (offset : Int) : ReadM Instant :=
  if ¬(yearInRange d.year = true ∧ d.Valid) then .error .outOfRange
  else if ¬(-86400 < offset ∧ offset < 86400) then .error .outOfRange
  else
    let (s, n) := if second = 60 then (59, nanos + 1000000000) else (second, nanos)
    let seconds := d.dayNumber * dayLength + (hour * 3600 + minute * 60 + s : Nat) - offset
    match of? seconds n with
    | some t => .ok t
    | none => .error .impossible

def read (cs : List Char) : ReadM Instant := do
  let (year, cs) ← readYear cs
  let cs ← readMark '-' cs
  let (month, cs) ← readField 1 12 cs
  let cs ← readMark '-' cs
  let (day, cs) ← readField 1 31 cs
  let cs ← readSeparator cs
  let (hour, cs) ← readField 0 23 cs
  let cs ← readMark ':' cs
  let (minute, cs) ← readField 0 59 cs
  let cs ← readMark ':' cs
  let (second, cs) ← readField 0 60 cs
  let (nanos, cs) ← readFraction cs
  let (offset, cs) ← readZone (Text.trimFront cs)
  if ¬(Text.trimFront cs).isEmpty then throw .trailing
  assemble ⟨year, month, day⟩ hour minute second nanos offset

def ofText (s : String) : ReadM Instant := read s.toList

end ServiceCatalog.Instant
