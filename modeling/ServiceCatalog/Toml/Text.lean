import ServiceCatalog.Json.Reader
/-!
Texts in a document: between double quotes with escapes, or between single quotes as they stand; each
also over several lines between three quotes. Every reader starts behind the opening quotes and
returns the text and what follows the closing ones.
-/
namespace ServiceCatalog.Toml

def isBlank (c : Char) : Bool := c == ' ' || c == '\t'

/-- Characters that may stand bare: everything but controls. -/
def isPlain (c : Char) : Bool := c == '\t' || (32 ≤ c.toNat && c.toNat != 127)

def cons (c : Char) (r : Option (List Char × List Char)) : Option (List Char × List Char) :=
  r.map fun r => (c :: r.1, r.2)

/-- A character by its number, unless that is half of a pair or too large. -/
def scalar? (n : Nat) : Option Char :=
  if n < 0xd800 ∨ (0xe000 ≤ n ∧ n < 0x110000) then some (Char.ofNat n) else none

def short? (a b c d : Char) : Option Char := do scalar? (← Json.hex4 a b c d)

def long? (a b c d e f g h : Char) : Option Char := do
  scalar? ((← Json.hex4 a b c d) * 0x10000 + (← Json.hex4 e f g h))

/-- The character that a letter after a backslash stands for. -/
def escape? (c : Char) : Option Char :=
  if c = '"' ∨ c = '\\' then some c
  else if c = 'b' then some (Char.ofNat 8)
  else if c = 't' then some '\t'
  else if c = 'n' then some '\n'
  else if c = 'f' then some (Char.ofNat 12)
  else if c = 'r' then some '\r'
  else none

/-- To the closing double quote. -/
def readBasic : List Char → Option (List Char × List Char)
  | [] => none
  | '"' :: rest => some ([], rest)
  | '\\' :: 'u' :: a :: b :: c :: d :: rest => do
    let x ← short? a b c d
    cons x (readBasic rest)
  | '\\' :: 'U' :: a :: b :: c :: d :: e :: f :: g :: h :: rest => do
    let x ← long? a b c d e f g h
    cons x (readBasic rest)
  | '\\' :: c :: rest => do
    let x ← escape? c
    cons x (readBasic rest)
  | c :: rest => if isPlain c ∧ c ≠ '\\' then cons c (readBasic rest) else none

/-- To the closing single quote. -/
def readLiteral : List Char → Option (List Char × List Char)
  | [] => none
  | '\'' :: rest => some ([], rest)
  | c :: rest => if isPlain c then cons c (readLiteral rest) else none

/-- A run of quotes that closes a text over several lines: three, after up to two that belong to the
text. -/
def closing? (quote : Char) (cs : List Char) : Option (List Char × List Char) :=
  let run := (cs.takeWhile (· == quote)).length
  if 3 ≤ run ∧ run ≤ 5 then some (List.replicate (run - 3) quote, cs.drop run) else none

/-- Whether the line holds nothing more. -/
def endsLine (cs : List Char) : Bool :=
  match cs.dropWhile isBlank with
  | '\n' :: _ => true
  | '\r' :: '\n' :: _ => true
  | _ => false

/-- To three closing double quotes; `skipping` follows a backslash at the end of a line, up to the
next character that is neither blank nor a line end. -/
def readBasicLines : Bool → List Char → Option (List Char × List Char)
  | _, [] => none
  | true, '\r' :: '\n' :: rest => readBasicLines true rest
  | false, '\r' :: '\n' :: rest => cons '\n' (readBasicLines false rest)
  | true, '\n' :: rest => readBasicLines true rest
  | false, '\n' :: rest => cons '\n' (readBasicLines false rest)
  | _, '"' :: '"' :: '"' :: rest => closing? '"' ('"' :: '"' :: '"' :: rest)
  | _, '\\' :: 'u' :: a :: b :: c :: d :: rest => do
    let x ← short? a b c d
    cons x (readBasicLines false rest)
  | _, '\\' :: 'U' :: a :: b :: c :: d :: e :: f :: g :: h :: rest => do
    let x ← long? a b c d e f g h
    cons x (readBasicLines false rest)
  | _, '\\' :: c :: rest =>
    if endsLine (c :: rest) then readBasicLines true (c :: rest)
    else do
      let x ← escape? c
      cons x (readBasicLines false rest)
  | skipping, c :: rest =>
    if skipping && isBlank c then readBasicLines true rest
    else if isPlain c ∧ c ≠ '\\' then cons c (readBasicLines false rest)
    else none

/-- To three closing single quotes. -/
def readLiteralLines : List Char → Option (List Char × List Char)
  | [] => none
  | '\r' :: '\n' :: rest => cons '\n' (readLiteralLines rest)
  | '\'' :: '\'' :: '\'' :: rest => closing? '\'' ('\'' :: '\'' :: '\'' :: rest)
  | c :: rest => if isPlain c ∨ c = '\n' then cons c (readLiteralLines rest) else none

/-- A line end right behind opening quotes does not count. -/
def dropFirstLineEnd : List Char → List Char
  | '\n' :: rest => rest
  | '\r' :: '\n' :: rest => rest
  | cs => cs

/-- A text with its quotes. -/
def readText (cs : List Char) : Option (List Char × List Char) :=
  match cs with
  | '"' :: '"' :: '"' :: rest => readBasicLines false (dropFirstLineEnd rest)
  | '"' :: rest => readBasic rest
  | '\'' :: '\'' :: '\'' :: rest => readLiteralLines (dropFirstLineEnd rest)
  | '\'' :: rest => readLiteral rest
  | _ => none

end ServiceCatalog.Toml
