import ServiceCatalog.Number.Numeral
/-!
Settings before their types are known: a tree of values. A text may stand for a number or a truth
value, a number for a text, and so on; each reading says what it takes.
-/
namespace ServiceCatalog

inductive Setting where
  | nothing
  | flag (b : Bool)
  /-- Within 64 bits. -/
  | whole (i : Int)
  | fraction (x : Binary64)
  | text (s : String)
  | list (items : List Setting)
  | table (entries : List (String × Setting))

namespace Setting

def lookUp (name : String) (entries : List (String × Setting)) : Option Setting :=
  (entries.find? (·.1 == name)).map (·.2)

/-- Replaces the entry of that name, or adds it. -/
def putEntry (name : String) (v : Setting) : List (String × Setting) → List (String × Setting)
  | [] => [(name, v)]
  | e :: rest => if e.1 == name then (name, v) :: rest else e :: putEntry name v rest

/-- No other character than these has an ASCII letter as its small form. -/
def lowerChar (c : Char) : Char := if c.toNat = 0x212a then 'k' else c.toLower

def lower (s : String) : String := String.ofList (s.toList.map lowerChar)

/-- The number nearest to a fraction's magnitude, a half upwards, cut to 64 bits. -/
def rounded : Binary64 → Nat
  | .nan => 0
  | .infinity negative => if negative then 0 else 1 <<< 64 - 1
  | .finite negative m e =>
    if negative then 0
    else
      let (num, den) := Binary64.ratio m e
      min ((2 * num + den) / (2 * den)) (1 <<< 64 - 1)

def natOfWord (s : String) : Option Nat :=
  let w := lower s
  if w ∈ ["true", "on", "yes"] then some 1
  else if w ∈ ["false", "off", "no"] then some 0
  else Numeral.unsigned64? s.toList

/-- As a number of 64 bits without sign. -/
def nat? : Setting → Option Nat
  | .flag b => some (if b then 1 else 0)
  | .whole i => if 0 ≤ i then some i.toNat else none
  | .fraction x => some (rounded x)
  | .text s => natOfWord s
  | _ => none

def boolOfWord (s : String) : Option Bool :=
  let w := lower s
  if w ∈ ["1", "true", "on", "yes"] then some true
  else if w ∈ ["0", "false", "off", "no"] then some false
  else none

def isZero : Binary64 → Bool
  | .finite _ m _ => m == 0
  | _ => false

def bool? : Setting → Option Bool
  | .flag b => some b
  | .whole i => some (i != 0)
  | .fraction x => some (!isZero x)
  | .text s => boolOfWord s
  | _ => none

def text? : Setting → Option String
  | .text s => some s
  | .flag b => some (if b then "true" else "false")
  | .whole i => some (toString i)
  | .fraction x => some x.plain
  | _ => none

/-- One of some names in any case: a text, or a table with this one entry. -/
def variant? {α : Type} (names : List (String × α)) : Setting → Option α
  | .text s => (names.find? fun n => n.1 == lower s).map (·.2)
  | .table [(k, _)] => (names.find? fun n => n.1 == lower k).map (·.2)
  | _ => none

/-- A record stands in a table by names or in a list by positions. -/
def isRecord : Setting → Bool
  | .list _ | .table _ => true
  | _ => false

def member? (position : Nat) (name : String) : Setting → Option Setting
  | .list items => items[position]?
  | .table entries => lookUp name entries
  | _ => none

/-- A member of a record, or the default when it is absent. -/
def member {α : Type} (position : Nat) (name : String) (decode : Setting → Option α) (default : α)
    (v : Setting) : Option α :=
  match v.member? position name with
  | some w => decode w
  | none => some default

end Setting
end ServiceCatalog
