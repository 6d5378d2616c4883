import ServiceCatalog.Number.Binary64
/-!
JSON values. An object keeps its fields as a list, so that a text read back still shows repeated
names; `sorted` is the form a document takes in memory: names in order, the last of equals kept.
-/
namespace ServiceCatalog

/-- A number is an integer where its text is one and fits 64 bits, a binary fraction otherwise. -/
inductive Number where
  | nat (n : Nat)
  /-- Stands for `-n`. -/
  | neg (n : Nat)
  | float (x : Binary64)
  deriving DecidableEq, Repr

inductive Json where
  | null
  | bool (b : Bool)
  | num (n : Number)
  | str (s : String)
  | arr (items : List Json)
  | obj (fields : List (String × Json))

namespace Json

instance : Inhabited Json := ⟨.null⟩

def nat (n : Nat) : Json := .num (.nat n)

def int (i : Int) : Json := if i < 0 then .num (.neg i.natAbs) else .num (.nat i.natAbs)

/-- The first field of that name. -/
def field? (name : String) : Json → Option Json
  | .obj fields => (fields.find? (·.1 == name)).map (·.2)
  | _ => none

/-- Absent and `null` are the same. -/
def given? (name : String) (j : Json) : Option Json :=
  match j.field? name with
  | some .null | none => none
  | some v => some v

def isNull : Json → Bool
  | .null => true
  | _ => false

/-- Puts a field into a list in name order; an equal name is replaced. -/
def insertField (name : String) (v : Json) : List (String × Json) → List (String × Json)
  | [] => [(name, v)]
  | (k, w) :: rest =>
    if name < k then (name, v) :: (k, w) :: rest
    else if name = k then (name, v) :: rest
    else (k, w) :: insertField name v rest

mutual
/-- Names in order at every level, the last of equal names kept. -/
def sorted : Json → Json
  | .arr items => .arr (sortedItems items)
  | .obj fields => .obj (sortedFields fields [])
  | j => j
def sortedItems : List Json → List Json
  | [] => []
  | j :: rest => j.sorted :: sortedItems rest
def sortedFields : List (String × Json) → List (String × Json) → List (String × Json)
  | [], done => done
  | (k, j) :: rest, done => sortedFields rest (insertField k j.sorted done)
end

/-- An object without the fields that have no value. -/
def objSome (fields : List (String × Option Json)) : Json :=
  .obj (fields.filterMap fun f => f.2.map (f.1, ·))

end Json
end ServiceCatalog
