/-!
Text in bytes. Bytes that are no text are read as well: a stray byte and the start of a letter that is
cut off each become one mark.
-/
namespace ServiceCatalog.Utf8

/-- The bytes of characters. -/
def encode (cs : List Char) : List UInt8 := cs.flatMap String.utf8EncodeChar

/-- A letter under way: its value so far, how many bytes are missing, and the bounds of the next. -/
structure Begun where
  value : Nat
  missing : Nat
  low : Nat := 0x80
  high : Nat := 0xbf

/-- What a first byte begins. -/
def begun? (b : Nat) : Option Begun :=
  if b < 0x80 then some { value := b, missing := 0 }
  else if b < 0xc2 then none
  else if b < 0xe0 then some { value := b - 0xc0, missing := 1 }
  else if b < 0xf0 then
    some { value := b - 0xe0, missing := 2, low := if b = 0xe0 then 0xa0 else 0x80,
           high := if b = 0xed then 0x9f else 0xbf }
  else if b < 0xf5 then
    some { value := b - 0xf0, missing := 3, low := if b = 0xf0 then 0x90 else 0x80,
           high := if b = 0xf4 then 0x8f else 0xbf }
  else none

/-- The characters that end with a byte, and the letter under way behind it. -/
def start (mark : List Char) (b : Nat) : List Char × Option Begun :=
  match begun? b with
  | none => (mark, none)
  | some o => if o.missing = 0 then ([Char.ofNat o.value], none) else ([], some o)

def step (mark : List Char) : Option Begun → Nat → List Char × Option Begun
  | none, b => start mark b
  | some o, b =>
    if o.low ≤ b ∧ b ≤ o.high then
      let value := o.value * 64 + (b - 0x80)
      if o.missing = 1 then ([Char.ofNat value], none)
      else ([], some { value, missing := o.missing - 1 })
    else
      let (cs, o) := start mark b
      (mark ++ cs, o)

def decodeFrom (mark : List Char) : Option Begun → List UInt8 → List Char
  | none, [] => []
  | some _, [] => mark
  | o, b :: rest =>
    let (cs, o) := step mark o b.toNat
    cs ++ decodeFrom mark o rest

/-- The characters of bytes, with a mark for each part that is no text. -/
def decode (mark : List Char) (bytes : List UInt8) : List Char := decodeFrom mark none bytes

end ServiceCatalog.Utf8
