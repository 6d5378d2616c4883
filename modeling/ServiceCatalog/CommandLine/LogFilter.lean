import ServiceCatalog.Number.Numeral
import ServiceCatalog.Text.Blank
import ServiceCatalog.Text.Pattern
/-!
Log filters: directives between commas. A directive is a level, or a target, or a span in brackets
with or without a target before it, maybe with a level after an equals sign; a span may name a field
in braces, and what the field equals. White space around a directive is passed over, yet the level
and the field are cut from the text with it, at the offsets they have without.
-/
namespace ServiceCatalog.LogFilter

/-- What is left behind so many bytes, none when they end inside a character. -/
def dropBytes : List Char → Nat → Option (List Char)
  | cs, 0 => some cs
  | [], _ => none
  | c :: rest, n => if c.utf8Size ≤ n then dropBytes rest (n - c.utf8Size) else none

def takeBytes : List Char → Nat → Option (List Char)
  | _, 0 => some []
  | [], _ => none
  | c :: rest, n => do
    if c.utf8Size ≤ n then return c :: (← takeBytes rest (n - c.utf8Size)) else none

/-- The part between two offsets. -/
def slice (cs : List Char) (start stop : Nat) : Option (List Char) := do
  takeBytes (← dropBytes cs start) (stop - start)

def levelNames : List String := ["", "error", "warn", "info", "debug", "trace", "off"]

/-- A level by name in any case or by number; nothing at all stands for one too. -/
def isLevel (cs : List Char) : Bool :=
  levelNames.contains (String.ofList (cs.map Char.toLower)) ||
    ((Numeral.unsigned64? cs).map fun n => decide (n ≤ 5)).getD false

/-- A field's name, maybe with a number, a truth value or a pattern after an equals sign. -/
def isField (cs : List Char) : Bool :=
  !cs.isEmpty &&
    match cs.dropWhile (· != '=') with
    | [] => true
    | _ :: rest =>
      let value := rest.takeWhile (· != '=')
      (Numeral.decimal? value).isSome || Text.Pattern.isValid value

/-- Where a reading of a directive stands. -/
inductive Place where
  | start
  | target
  | span
  | field (start : Nat)
  | fields
  | behindSpan
  | level (start : Nat)
  deriving DecidableEq, Repr

def isTargetStart (c : Char) : Bool :=
  Text.isAlphanumeric c || c == '-' || c == ':' || c == '_'

/-- The place behind the character at offset `i`. -/
def Place.step (text : List Char) (i : Nat) (c : Char) : Place → Option Place
  | .start => if c = '[' then some .span else if isTargetStart c then some .target else none
  | .target => do
    if c = '=' ∨ c = '[' then
      let _ ← slice text 0 i
      return if c = '=' then .level (i + 1) else .span
    else return .target
  | .span => some (if c = ']' then .behindSpan else if c = '\x7b' then .field (i + 1) else .span)
  | .field first => do
    if c = '\x7d' then if isField (← slice text first i) then return .fields else none
    else return .field first
  | .fields => if c = ']' then some .behindSpan else none
  | .behindSpan => if c = '=' then some (.level (i + 1)) else none
  | .level first => some (.level first)

/-- Whether a directive may end at a place. -/
def Place.isEnd (text : List Char) : Place → Bool
  | .target | .behindSpan => true
  | .level first => ((dropBytes text first).map isLevel).getD false
  | _ => false

def reads (text : List Char) : Nat → Place → List Char → Bool
  | _, p, [] => p.isEnd text
  | i, p, c :: rest =>
    match p.step text i c with
    | some p => reads text (i + c.utf8Size) p rest
    | none => false

def isDirective (text : List Char) : Bool :=
  reads text 0 .start (Text.trimFront (Text.trimFront text).reverse).reverse

/-- The parts between commas. -/
def directives : List Char → List (List Char)
  | [] => [[]]
  | c :: rest =>
    if c = ',' then [] :: directives rest
    else match directives rest with
      | [] => [[c]]
      | d :: ds => (c :: d) :: ds

/-- Empty directives are passed over. -/
def isValid (s : String) : Bool := (directives s.toList).all fun d => d.isEmpty || isDirective d

end ServiceCatalog.LogFilter
