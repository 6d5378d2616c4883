import ServiceCatalog.Json.Value
import ServiceCatalog.Text.Quoted
import ServiceCatalog.Time.Reader
/-! Why a JSON value is not the record that was asked for, and how that is worded. -/
namespace ServiceCatalog

/-- What stood where something else was wanted. -/
inductive Found where
  | nothing
  | bool (b : Bool)
  | number (n : Number)
  | text (s : String)
  | sequence
  | map
  deriving DecidableEq, Repr

def Found.ofJson : Json → Found
  | .null => .nothing
  | .bool b => .bool b
  | .num n => .number n
  | .str s => .text s
  | .arr _ => .sequence
  | .obj _ => .map

/-- A number in back quotes, after its kind. -/
def Number.describe : Number → String
  | .nat n => s!"integer `{n}`"
  | .neg n => s!"integer `-{n}`"
  | .float x => s!"floating point `{x.text}`"

def Found.describe : Found → String
  | .nothing => "null"
  | .bool true => "boolean `true`"
  | .bool false => "boolean `false`"
  | .number n => n.describe
  | .text s => "string " ++ Text.quoted s
  | .sequence => "sequence"
  | .map => "map"

inductive DecodeError where
  | wrongType (found : Found) (wanted : String)
  | outOfRange (n : Number) (wanted : String)
  /-- An object stands for a plain variant only with exactly one key. -/
  | notSingleKey
  | variantIndex (n count : Nat)
  | unknownVariant (name : String) (known : List String)
  | missingField (name : String)
  | duplicateField (name : String)
  | tooShort (found : Nat) (typeName : String) (fields : Nat)
  | tooLong (found : Nat)
  /-- As `tooLong`, for an array that was set aside before it was decoded. -/
  | tooLongHeld (found taken : Nat)
  | time (e : Instant.ReadError)
  deriving DecidableEq, Repr

namespace DecodeError

def backquoted (s : String) : String := s!"`{s}`"

def elements (n : Nat) : String := if n = 1 then "1 element" else s!"{n} elements"

/-- The names that would have been right. -/
def oneOf : List String → String
  | [] => "there are no variants"
  | [a] => "expected " ++ backquoted a
  | [a, b] => "expected " ++ backquoted a ++ " or " ++ backquoted b
  | names => "expected one of " ++ ", ".intercalate (names.map backquoted)

def message : DecodeError → String
  | .wrongType found wanted => s!"invalid type: {found.describe}, expected {wanted}"
  | .outOfRange n wanted => s!"invalid value: {n.describe}, expected {wanted}"
  | .notSingleKey => "invalid value: map, expected map with a single key"
  | .variantIndex n count => s!"invalid value: integer `{n}`, expected variant index 0 <= i < {count}"
  | .unknownVariant name known => s!"unknown variant `{name}`, {oneOf known}"
  | .missingField name => s!"missing field `{name}`"
  | .duplicateField name => s!"duplicate field `{name}`"
  | .tooShort found typeName fields =>
    s!"invalid length {found}, expected {typeName} with {elements fields}"
  | .tooLong found => s!"invalid length {found}, expected fewer elements in array"
  | .tooLongHeld found taken =>
    s!"invalid length {found}, expected {elements taken} in sequence"
  | .time e => e.message

end DecodeError

abbrev Decoded := Except DecodeError

end ServiceCatalog
