import ServiceCatalog.Settings.Value
/-!
Layers of settings. A layer is a list of entries whose names are paths: names with points between
them and positions of lists in brackets. Layers are put on top of each other entry by entry, tables
being joined and everything else replaced. A name is kept in small letters, save inside of lists and
on the way along a path.
-/
namespace ServiceCatalog

/-- One step into a tree. -/
inductive Step where
  | child (name : String)
  | item (position : Int)
  deriving DecidableEq, Repr

namespace Step

def isNameChar (c : Char) : Bool := c.isAlphanum || c == ' ' || c == '_' || c == '-'

def isBlank (c : Char) : Bool := c == ' ' || c == '\t'

/-- A position with blanks around it; a plus sign may not stand in front. -/
def position? (cs : List Char) : Option Int :=
  match ((cs.dropWhile isBlank).reverse.dropWhile isBlank).reverse with
  | '+' :: _ => none
  | digits => Numeral.signed64? digits

/-- The steps after the first name, one for each unit of `fuel`. -/
def rest? : Nat → List Char → Option (List Step)
  | _, [] => some []
  | 0, _ => none
  | fuel + 1, '.' :: cs =>
    let name := cs.takeWhile isNameChar
    if name.isEmpty then none
    else (rest? fuel (cs.dropWhile isNameChar)).map (.child (String.ofList name) :: ·)
  | fuel + 1, '[' :: cs =>
    match position? (cs.takeWhile (· != ']')), cs.dropWhile (· != ']') with
    | some i, _ :: after => (rest? fuel after).map (.item i :: ·)
    | _, _ => none
  | _, _ => none

/-- The steps of a path; a text that is no path is a name of its own. -/
def path (s : String) : List Step :=
  let cs := s.toList
  let name := cs.takeWhile isNameChar
  if name.isEmpty then [.child s]
  else match rest? cs.length (cs.dropWhile isNameChar) with
    | some steps => .child (String.ofList name) :: steps
    | none => [.child s]

end Step

namespace Setting

/-- The entries of a table; anything else gives way to a new one. -/
def entries : Setting → List (String × Setting)
  | .table es => es
  | _ => []

def items : Setting → List Setting
  | .list vs => vs
  | _ => []

mutual
/-- What stands after a value is put over an old one. -/
def onTop : Setting → Option Setting → Setting
  | .table es, old => onTopEntries es (old.getD (.table []))
  | v, _ => v
def onTopEntries : List (String × Setting) → Setting → Setting
  | [], t => t
  | (k, v) :: rest, t =>
    onTopEntries rest (.table (putEntry (lower k) (v.onTop (lookUp (lower k) t.entries)) t.entries))
end

/-- A position counted from the end when it is negative. -/
def index (i : Int) (size : Nat) : Nat := if 0 ≤ i then i.toNat else size - i.natAbs

/-- Replaces an item; a list that is too short is filled up. -/
def putItem (n : Nat) (v : Setting) (vs : List Setting) : List Setting :=
  (vs ++ List.replicate (n + 1 - vs.length) Setting.nothing).set n v

/-- Puts a value at the end of a path. -/
def put (v : Setting) : List Step → Setting → Setting
  | [], _ => v
  | [.child k], t => .table (putEntry (lower k) (v.onTop (lookUp (lower k) t.entries)) t.entries)
  | [.item i], t => .list (putItem (index i t.items.length) v t.items)
  | .child k :: rest, t =>
    .table (putEntry k (put v rest ((lookUp k t.entries).getD .nothing)) t.entries)
  | .item i :: rest, t =>
    let n := index i t.items.length
    .list (putItem n (put v rest ((t.items[n]?).getD .nothing)) t.items)

/-- Puts a layer on top. -/
def addLayer (t : Setting) (layer : List (String × Setting)) : Setting :=
  layer.foldl (fun t e => put e.2 (Step.path e.1) t) t

end Setting
end ServiceCatalog
