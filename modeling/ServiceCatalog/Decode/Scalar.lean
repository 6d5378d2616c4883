import ServiceCatalog.Decode.Error
/-!
Decoding of single values. `held` tells that a value was set aside before its type was known, as
happens inside tagged and flattened records; it allows `{}` for the value of a plain variant and an
index for a tag.
-/
namespace ServiceCatalog.Decode

def wrongType {α : Type} (wanted : String) (j : Json) : Decoded α :=
  .error (.wrongType (.ofJson j) wanted)

def string : Json → Decoded String
  | .str s => .ok s
  | j => wrongType "a string" j

def bool : Json → Decoded Bool
  | .bool b => .ok b
  | j => wrongType "a boolean" j

/-- Natural numbers below a bound. -/
def natBelow (bound : Nat) (wanted : String) : Json → Decoded Nat
  | .num (.nat n) => if n < bound then .ok n else .error (.outOfRange (.nat n) wanted)
  | .num (.neg n) => .error (.outOfRange (.neg n) wanted)
  | j => wrongType wanted j

def u32 : Json → Decoded Nat := natBelow (1 <<< 32) "u32"

def u64 : Json → Decoded Nat := natBelow (1 <<< 64) "u64"

def i64 : Json → Decoded Int
  | .num (.nat n) => if n < 1 <<< 63 then .ok n else .error (.outOfRange (.nat n) "i64")
  | .num (.neg n) => .ok (-(n : Int))
  | j => wrongType "i64" j

def instant : Json → Decoded Instant
  | .str s => (Instant.ofText s).mapError .time
  | j => wrongType "an RFC 3339 formatted date and time string" j

/-- `null` is none. -/
def nullable {α : Type} (decode : Json → Decoded α) : Json → Decoded (Option α)
  | .null => .ok none
  | j => (decode j).map some

/-- The items from the front; the first wrong one decides. -/
def items {α : Type} (decode : Json → Decoded α) : List Json → Decoded (List α)
  | [] => .ok []
  | j :: rest => do
    let a ← decode j
    return a :: (← items decode rest)

def list {α : Type} (decode : Json → Decoded α) : Json → Decoded (List α)
  | .arr js => items decode js
  | j => wrongType "a sequence" j

def named {α : Type} (names : List (String × α)) (name : String) : Decoded α :=
  match names.find? (·.1 == name) with
  | some v => .ok v.2
  | none => .error (.unknownVariant name (names.map (·.1)))

def isEmptyObject : Json → Bool
  | .obj [] => true
  | _ => false

/-- A variant without fields: its name, or an object of its name and `null`. -/
def variant {α : Type} (held : Bool) (names : List (String × α)) : Json → Decoded α
  | .str name => named names name
  | .obj [(name, j)] => do
    let v ← named names name
    if j.isNull || (held && isEmptyObject j) then return v else wrongType "unit" j
  | .obj _ => .error .notSingleKey
  | j => wrongType "string or map" j

/-- The value of a tag. -/
def tagValue {α : Type} (held : Bool) (names : List (String × α)) : Json → Decoded α
  | .str name => named names name
  | .num (.nat n) =>
    if held then
      match names[n]? with
      | some v => .ok v.2
      | none => .error (.variantIndex n names.length)
    else wrongType "variant identifier" (.num (.nat n))
  | j => wrongType "variant identifier" j

/-- Splits the tag off an object's fields; a second tag is an error. -/
def splitTag {α : Type} (held : Bool) (tag : String) (names : List (String × α)) :
    List (String × Json) → Decoded (Option α × List (String × Json))
  | [] => .ok (none, [])
  | (k, j) :: rest => do
    if k = tag then
      let v ← tagValue held names j
      let (again, others) ← splitTag held tag names rest
      match again with
      | some _ => throw (.duplicateField tag)
      | none => return (some v, others)
    else
      let (v, others) ← splitTag held tag names rest
      return (v, (k, j) :: others)

/-- A tagged record: the variant that the tag names, and what is left for its fields. -/
def tagged {α : Type} (held : Bool) (tag typeName : String) (names : List (String × α)) :
    Json → Decoded (α × Json)
  | .obj fields => do
    match ← splitTag held tag names fields with
    | (some v, rest) => return (v, .obj rest)
    | (none, _) => throw (.missingField tag)
  | .arr [] => .error (.missingField tag)
  | .arr (j :: rest) => return (← tagValue held names j, .arr rest)
  | j => wrongType s!"internally tagged enum {typeName}" j

end ServiceCatalog.Decode
