import ServiceCatalog.Json.Reader
import ServiceCatalog.Settings.Value
/-!
What a document says: lists, tables and scalars. A plain scalar is the first of a truth value, an
integer, a fraction or a text that its characters can be read as.
-/
namespace ServiceCatalog.Yaml

/-- A fraction keeps its characters, which may be words for no number that can be loaded. -/
inductive Scalar where
  | flag (b : Bool)
  | whole (i : Int)
  | fraction (s : String)
  | text (s : String)
  deriving DecidableEq, Repr

/-- The text of a scalar as a key. -/
def Scalar.name : Scalar → String
  | .flag b => if b then "true" else "false"
  | .whole i => toString i
  | .fraction s | .text s => s

inductive Node where
  /-- Its tag does not fit, or it stands inside of what it refers to. -/
  | unusable
  | null
  | scalar (s : Scalar)
  | list (items : List Node)
  | table (entries : List (Scalar × Node))

namespace Node

def integerOfBase? (base : Nat) (cs : List Char) : Option Int := do
  let (negative, ds) := Numeral.splitSign cs
  if ds.isEmpty then none
  else
    let n ← ds.foldlM
      (fun n c => (Json.hexValue c).bind fun d => if d < base then some (n * base + d) else none) 0
    if negative then if n ≤ 1 <<< 63 then return -(n : Int) else none
    else if n < 1 <<< 63 then return n
    else none

/-- Integers with a mark in front: hexadecimal, octal, or one more sign. -/
def markedInteger? : List Char → Option Int
  | '0' :: 'x' :: ds => integerOfBase? 16 ds
  | '0' :: 'o' :: ds => integerOfBase? 8 ds
  | '+' :: cs => Numeral.signed64? cs
  | _ => none

/-- The words for fractions without digits. -/
def isFractionWord (s : String) : Bool :=
  [".inf", ".Inf", ".INF", "+.inf", "+.Inf", "+.INF", "-.inf", "-.Inf", "-.INF", ".nan", ".NaN",
    ".NAN"].contains s

def isFraction (s : String) : Bool :=
  isFractionWord s || (s.toList.any Char.isDigit && (Numeral.decimal? s.toList).isSome)

def flag? (s : String) : Option Bool :=
  if s = "true" then some true else if s = "false" then some false else none

def ofPlain (s : String) : Node :=
  match markedInteger? s.toList with
  | some i => .scalar (.whole i)
  | none =>
    if s = "" ∨ s = "~" ∨ s = "null" then .null
    else match flag? s, Numeral.signed64? s.toList with
      | some b, _ => .scalar (.flag b)
      | none, some i => .scalar (.whole i)
      | none, none => .scalar (if isFraction s then .fraction s else .text s)

/-- A plain scalar whose tag is one of the common ones. -/
def ofTagged (suffix s : String) : Node :=
  if suffix = "bool" then ((flag? s).map fun b => .scalar (.flag b)).getD .unusable
  else if suffix = "int" then
    ((Numeral.signed64? s.toList).map fun i => .scalar (.whole i)).getD .unusable
  else if suffix = "float" then if isFraction s then .scalar (.fraction s) else .unusable
  else if suffix = "null" then if s = "~" ∨ s = "null" then .null else .unusable
  else .scalar (.text s)

/-- Keys and values by turns. An unusable node is no key, so that what follows it is. A key that is
no scalar, and one that comes again, is an error. -/
def entriesOf? : List (Scalar × Node) → List Node → Option (List (Scalar × Node))
  | es, [] | es, [_] => some es
  | es, .unusable :: rest => entriesOf? es rest
  | es, .scalar k :: v :: rest =>
    if es.any (·.1 == k) then none else entriesOf? (es ++ [(k, v)]) rest
  | _, _ :: _ :: _ => none

mutual
/-- Fractions have to be numbers. -/
def toSetting? : Node → Option Setting
  | .unusable | .null => some .nothing
  | .scalar (.flag b) => some (.flag b)
  | .scalar (.whole i) => some (.whole i)
  | .scalar (.fraction s) => (Numeral.decimal? s.toList).map .fraction
  | .scalar (.text s) => some (.text s)
  | .list ns => (listToSettings? ns).map .list
  | .table es => (tableToSettings? es).map .table
def listToSettings? : List Node → Option (List Setting)
  | [] => some []
  | n :: rest => do return (← toSetting? n) :: (← listToSettings? rest)
/-- The last of the entries with equal names stays. -/
def tableToSettings? : List (Scalar × Node) → Option (List (String × Setting))
  | [] => some []
  | (k, n) :: rest => do
    let v ← toSetting? n
    let es ← tableToSettings? rest
    return if es.any (·.1 == k.name) then es else (k.name, v) :: es
end

end Node
end ServiceCatalog.Yaml
