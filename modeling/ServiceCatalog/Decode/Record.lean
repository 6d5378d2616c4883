import ServiceCatalog.Decode.Scalar
/-!
Records are decoded from an object or, in declaration order, from an array. The fields of a record
are declared once, as a value of `Fields`; both forms and all their errors follow from it. In an
object the entries are visited as they stand: an unknown name is passed over, the first wrong value
or repeated name decides, and only then is the first missing field an error.
-/
namespace ServiceCatalog.Decode

structure Fields (α : Type) where
  /-- Names in declaration order, each with the test of its value. -/
  wants : List (String × (Json → Decoded Unit))
  /-- From the entries of an object. -/
  ofEntries : List (String × Json) → Decoded α
  /-- From the items of an array: how many are taken already and the error for too few. -/
  ofItems : (Nat → DecodeError) → Nat → List Json → Decoded (α × Nat × List Json)

namespace Fields

def entry? (name : String) (entries : List (String × Json)) : Option Json :=
  (entries.find? (·.1 == name)).map (·.2)

def test {α : Type} (decode : Json → Decoded α) (j : Json) : Decoded Unit :=
  (decode j).map fun _ => ()

def required {α : Type} (name : String) (decode : Json → Decoded α) : Fields α where
  wants := [(name, test decode)]
  ofEntries entries :=
    match entry? name entries with
    | some j => decode j
    | none => .error (.missingField name)
  ofItems short taken
    | [] => .error (short taken)
    | j :: rest => (decode j).map (·, taken + 1, rest)

/-- A field that may be absent, though not `null`. -/
def withDefault {α : Type} (name : String) (default : α) (decode : Json → Decoded α) : Fields α where
  wants := [(name, test decode)]
  ofEntries entries :=
    match entry? name entries with
    | some j => decode j
    | none => .ok default
  ofItems _ taken
    | [] => .ok (default, taken, [])
    | j :: rest => (decode j).map (·, taken + 1, rest)

/-- A field that may be absent or `null`. -/
def optional {α : Type} (name : String) (decode : Json → Decoded α) : Fields (Option α) :=
  withDefault name none (nullable decode)

def const {α : Type} (a : α) : Fields α where
  wants := []
  ofEntries _ := .ok a
  ofItems _ taken items := .ok (a, taken, items)

/-- The fields of the first, then those of the second. -/
def ap {α β : Type} (f : Fields (α → β)) (x : Fields α) : Fields β where
  wants := f.wants ++ x.wants
  ofEntries entries := do
    let g ← f.ofEntries entries
    return g (← x.ofEntries entries)
  ofItems short taken items := do
    let (g, taken, items) ← f.ofItems short taken items
    let (a, taken, items) ← x.ofItems short taken items
    return (g a, taken, items)

instance : Applicative Fields where
  pure := const
  seq f x := ap f (x ())
  map f x := ap (const f) x

end Fields

/-- Visits the entries of an object; `seen` holds the known names met so far. -/
def visit (wants : List (String × (Json → Decoded Unit))) :
    List String → List (String × Json) → Decoded Unit
  | _, [] => .ok ()
  | seen, (name, j) :: rest =>
    match wants.find? (·.1 == name) with
    | none => visit wants seen rest
    | some w =>
      if name ∈ seen then .error (.duplicateField name)
      else do
        w.2 j
        visit wants (name :: seen) rest

/-- A record from the entries of an object. -/
def fromEntries {α : Type} (fields : Fields α) (entries : List (String × Json)) : Decoded α := do
  visit fields.wants [] entries
  fields.ofEntries entries

/-- A record from the items of an array. -/
def fromItems {α : Type} (held : Bool) (typeName : String) (fields : Fields α) (js : List Json) :
    Decoded α := do
  let (a, taken, rest) ←
    fields.ofItems (fun n => .tooShort n typeName fields.wants.length) 0 js
  if rest.isEmpty then return a
  else if held then throw (.tooLongHeld js.length taken)
  else throw (.tooLong js.length)

def record {α : Type} (held : Bool) (typeName : String) (fields : Fields α) : Json → Decoded α
  | .obj entries => fromEntries fields entries
  | .arr js => fromItems held typeName fields js
  | j => wrongType typeName j

end ServiceCatalog.Decode
