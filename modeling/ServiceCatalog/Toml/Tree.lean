import ServiceCatalog.Toml.Scalar
/-!
The tables of a document while it is read. A table is made by a header of its own, by the header of a
table inside it, or by the points in a key; what may still be added to it depends on that. Nothing is
ever defined twice.
-/
namespace ServiceCatalog.Toml

inductive Origin where
  | header
  /-- A header named something inside. -/
  | implied
  /-- A key with points named something inside. -/
  | dotted
  deriving DecidableEq, Repr

inductive Node where
  | leaf (v : Setting)
  | table (origin : Origin) (entries : List (String × Node))
  | tables (items : List (List (String × Node)))

abbrev Entries := List (String × Node)

def Node.find? (k : String) (es : Entries) : Option Node := (es.find? (·.1 == k)).map (·.2)

def Node.replace (k : String) (n : Node) : Entries → Entries
  | [] => [(k, n)]
  | e :: rest => if e.1 == k then (k, n) :: rest else e :: replace k n rest

/-- Changes the table at the end of a path, making those on the way that are not there yet. A list of
tables is entered at its last one; keys may not enter a table that has a header. -/
def Node.update (keys : Bool) (f : Origin → Entries → Option Entries) :
    List String → Origin → Entries → Option Entries
  | [], o, es => f o es
  | k :: rest, _, es =>
    match find? k es with
    | none => do
      let o : Origin := if keys then .dotted else .implied
      return replace k (.table o (← update keys f rest o [])) es
    | some (.leaf _) => none
    | some (.table o sub) =>
      if keys && o == .header then none
      else do return replace k (.table o (← update keys f rest o sub)) es
    | some (.tables items) =>
      match items.getLast? with
      | none => none
      | some last => do
        return replace k (.tables (items.dropLast ++ [← update keys f rest .header last])) es

/-- Adds a value under a key with points: only to tables that keys have made. -/
def Node.putKey (path : List String) (k : String) (v : Setting) : Origin → Entries → Option Entries :=
  update true (fun o es =>
    if (o == .dotted) == path.isEmpty then none
    else match find? k es with
      | some _ => none
      | none => some (es ++ [(k, .leaf v)])) path

/-- Starts the table of a header. -/
def Node.openTable (path : List String) (k : String) : Origin → Entries → Option Entries :=
  update false (fun _ es =>
    match find? k es with
    | none => some (es ++ [(k, .table .header [])])
    | some (.table .implied sub) => some (replace k (.table .header sub) es)
    | some _ => none) path

/-- Starts the next table of a list. -/
def Node.openItem (path : List String) (k : String) : Origin → Entries → Option Entries :=
  update false (fun _ es =>
    match find? k es with
    | none => some (es ++ [(k, .tables [[]])])
    | some (.tables items) => some (replace k (.tables (items ++ [[]])) es)
    | some _ => none) path

/-- A table that starts with an entry of this name stands for the date in its text. -/
def dateMarker : String := "$__toml_private_datetime"

def tableValue : List (String × Setting) → Option Setting
  | (k, v) :: rest =>
    if k = dateMarker then
      match v with
      | .text s => (wideMoment? s.toList).map fun t => .text (String.ofList t)
      | _ => none
    else some (.table ((k, v) :: rest))
  | [] => some (.table [])

mutual
def Node.toSetting : Node → Option Setting
  | .leaf v => some v
  | .table _ es => do tableValue (← entriesToSettings es)
  | .tables items => do return .list (← itemsToSettings items)
def Node.entriesToSettings : List (String × Node) → Option (List (String × Setting))
  | [] => some []
  | (k, n) :: rest => do return (k, ← n.toSetting) :: (← entriesToSettings rest)
def Node.itemsToSettings : List (List (String × Node)) → Option (List Setting)
  | [] => some []
  | es :: rest => do
    let v ← tableValue (← entriesToSettings es)
    return v :: (← itemsToSettings rest)
end

/-- One line of a document. -/
inductive Statement where
  | header (path : List String) (key : String)
  | item (path : List String) (key : String)
  | entry (path : List String) (key : String) (value : Setting)

/-- The tables so far, with the path to the one that entries go to. -/
structure Draft where
  entries : Entries := []
  current : List String := []

def Draft.add (d : Draft) : Statement → Option Draft
  | .header path k => do
    return ⟨← Node.openTable path k .header d.entries, path ++ [k]⟩
  | .item path k => do
    return ⟨← Node.openItem path k .header d.entries, path ++ [k]⟩
  | .entry path k v => do
    return { d with
      entries := ← Node.update false (Node.putKey path k v) d.current .header d.entries }

/-- The document's entries; none when something is defined twice. -/
def ofStatements (statements : List Statement) : Option (List (String × Setting)) := do
  let d ← statements.foldlM Draft.add {}
  match ← tableValue (← Node.entriesToSettings d.entries) with
  | .table es => return es
  | _ => none

/-- The value of a table in one line. -/
def inlineTable (entries : List (List String × String × Setting)) : Option Setting := do
  let es ← entries.foldlM (fun es e => Node.putKey e.1 e.2.1 e.2.2 .header es) ([] : Entries)
  tableValue (← Node.entriesToSettings es)

end ServiceCatalog.Toml
