import ServiceCatalog.Yaml.Node
import ServiceCatalog.Yaml.Token
/-!
Reads a text of indented blocks. Its tokens make up at most one document; nodes in it may have names,
under which they may stand again later on.
-/
namespace ServiceCatalog.Yaml

/-- The tokens ahead, and what the nodes so far have been named. -/
structure Reading where
  tokens : List Token
  tagHandles : List (String × String) := []
  /-- A name may be given again; the number says to which node it belongs. -/
  names : List (String × Nat) := []
  /-- The nodes that are complete. -/
  nodes : List (Nat × Node) := []
  count : Nat := 0

abbrev Read := StateT Reading Option

def peek : Read (Option Token) := return (← get).tokens.head?

def skip : Read Unit := modify fun r => { r with tokens := r.tokens.drop 1 }

/-- The next token is one of these. -/
def isNext (ts : List Token) : Read Bool := return (← peek).any ts.contains

def lookUpTag (handle : String) : Read (Option String) :=
  return ((← get).tagHandles.find? (·.1 == handle)).map (·.2)

def commonTags : String := "tag:yaml.org,2002:"

/-- What a handle stands for; one with a name has to be declared. -/
def resolveTag (handle suffix : String) : Read String := do
  if handle = "!!" then return (← lookUpTag handle).getD commonTags
  else if handle = "" ∧ suffix = "!" then return (← lookUpTag handle).getD ""
  else match ← lookUpTag handle with
    | some lead => return lead
    | none => if 1 < handle.length then failure else return handle

def nameNode (name : String) : Read Nat := do
  let n := (← get).count
  modify fun r => { r with count := n + 1, names := (name, n) :: r.names }
  return n

def completeNode (number : Option Nat) (n : Node) : Read Node := do
  match number with
  | some k => modify fun r => { r with nodes := (k, n) :: r.nodes }
  | none => pure ()
  return n

/-- The node of that name; while it is not complete it cannot be used. -/
def namedNode (name : String) : Read Node := do
  let r ← get
  match r.names.find? (·.1 == name) with
  | none => failure
  | some (_, k) => return ((r.nodes.find? (·.1 == k)).map (·.2)).getD .unusable

abbrev Tag := String × String

/-- The name and the tag of a node, in either order. -/
def properties : Read (Option Nat × Option Tag) := do
  match ← peek with
  | some (.anchor name) => do
    skip
    let k ← nameNode name
    match ← peek with
    | some (.tag handle suffix) => skip; return (some k, some (← resolveTag handle suffix, suffix))
    | _ => return (some k, none)
  | some (.tag handle suffix) => do
    skip
    let t : Tag := (← resolveTag handle suffix, suffix)
    match ← peek with
    | some (.anchor name) => skip; return (some (← nameNode name), some t)
    | _ => return (none, some t)
  | _ => return (none, none)

def scalarNode (plain : Bool) (tag : Option Tag) (s : String) : Node :=
  if plain then
    match tag with
    | some (lead, suffix) => if lead = commonTags then .ofTagged suffix s else .scalar (.text s)
    | none => .ofPlain s
  else .scalar (.text s)

def tableOf (ns : List Node) : Read Node := do
  match Node.entriesOf? [] ns with
  | some es => return .table es
  | none => failure

mutual
/-- A node; blocks may start in it, and a list without indentation may be one. -/
def readNode (blocks bare : Bool) : Nat → Read Node
  | 0 => failure
  | fuel + 1 => do
    match ← peek with
    | some (.alias name) => skip; namedNode name
    | _ => do
      let (number, tag) ← properties
      match ← peek, blocks, bare with
      | some .item, _, true => completeNode number (.list (← readBareItems fuel))
      | some (.scalar plain s), _, _ => skip; completeNode number (scalarNode plain tag s)
      | some .flowListStart, _, _ => skip; completeNode number (.list (← readFlowItems true fuel))
      | some .flowTableStart, _, _ =>
        skip; completeNode number (← tableOf (← readFlowEntries true fuel))
      | some .listStart, true, _ => skip; completeNode number (.list (← readItems fuel))
      | some .tableStart, true, _ => skip; completeNode number (← tableOf (← readEntries fuel))
      | _, _, _ =>
        if number.isSome || tag.isSome then completeNode number (scalarNode true tag "")
        else failure
/-- Nothing before one of these tokens, and a node before others. -/
def readUnless (ts : List Token) (blocks bare : Bool) : Nat → Read Node
  | 0 => failure
  | fuel + 1 => do if ← isNext ts then return .null else readNode blocks bare fuel
def readItems : Nat → Read (List Node)
  | 0 => failure
  | fuel + 1 => do
    match ← peek with
    | some .blockEnd => skip; return []
    | some .item => do
      skip
      let n ← readUnless [.item, .blockEnd] true false fuel
      return n :: (← readItems fuel)
    | _ => failure
def readBareItems : Nat → Read (List Node)
  | 0 => failure
  | fuel + 1 => do
    match ← peek with
    | some .item => do
      skip
      let n ← readUnless [.item, .key, .value, .blockEnd] true false fuel
      return n :: (← readBareItems fuel)
    | _ => return []
/-- Keys and values by turns. -/
def readEntries : Nat → Read (List Node)
  | 0 => failure
  | fuel + 1 => do
    match ← peek with
    | some .blockEnd => skip; return []
    | some .key => do
      skip
      let k ← readUnless [.key, .value, .blockEnd] true true fuel
      let v ← readEntryValue fuel
      return k :: v :: (← readEntries fuel)
    | some .value => do
      let v ← readEntryValue fuel
      return .null :: v :: (← readEntries fuel)
    | _ => failure
def readEntryValue : Nat → Read Node
  | 0 => failure
  | fuel + 1 => do
    if ← isNext [.value] then skip; readUnless [.key, .value, .blockEnd] true true fuel
    else return .null
/-- Items between brackets; a key with its value may stand alone as one. -/
def readFlowItems (first : Bool) : Nat → Read (List Node)
  | 0 => failure
  | fuel + 1 => do
    if ← isNext [.flowListEnd] then skip; return []
    else if first || (← isNext [.comma]) then
      if !first then skip
      match ← peek with
      | some .flowListEnd => skip; return []
      | some .key => do
        skip
        let k ← readUnless [.value, .comma, .flowListEnd] false false fuel
        let v ← readFlowValue .flowListEnd fuel
        let n ← tableOf [k, v]
        return n :: (← readFlowItems false fuel)
      | _ => do
        let n ← readNode false false fuel
        return n :: (← readFlowItems false fuel)
    else failure
/-- Keys and values by turns, between braces; a key may lack its value. -/
def readFlowEntries (first : Bool) : Nat → Read (List Node)
  | 0 => failure
  | fuel + 1 => do
    if ← isNext [.flowTableEnd] then skip; return []
    else if first || (← isNext [.comma]) then
      if !first then skip
      match ← peek with
      | some .flowTableEnd => skip; return []
      | some .key => do
        skip
        let k ← readUnless [.value, .comma, .flowTableEnd] false false fuel
        let v ← readFlowValue .flowTableEnd fuel
        return k :: v :: (← readFlowEntries false fuel)
      | some .value => do
        let v ← readFlowValue .flowTableEnd fuel
        return .null :: v :: (← readFlowEntries false fuel)
      | _ => do
        let k ← readNode false false fuel
        return k :: .null :: (← readFlowEntries false fuel)
    else failure
def readFlowValue (close : Token) : Nat → Read Node
  | 0 => failure
  | fuel + 1 => do
    if ← isNext [.value] then skip; readUnless [.comma, close] false false fuel
    else return .null
end

/-- Past the directives in front of a document; the last of them says what a handle stands for. -/
def readDirectives : Bool → List (String × String) → List Token →
    Option (List (String × String) × List Token)
  | versioned, _, .version :: rest => if versioned then none else readDirectives true [] rest
  | versioned, _, .tagHandle handle lead :: rest => readDirectives versioned [(handle, lead)] rest
  | _, handles, ts => some (handles, ts)

def isBetweenDocuments : Token → Bool
  | .version | .tagHandle _ _ | .documentStart | .documentEnd => true
  | _ => false

/-- The only document, when there is one. -/
def ofTokens? (ts : List Token) : Option (Option Node) := do
  let ts := ts.dropWhile (· == .documentEnd)
  if ts.isEmpty then return none
  else
    let (handles, rest) ← readDirectives false [] ts
    let started := rest.head? == some .documentStart
    if !started && rest.length != ts.length then none
    else
      let rest := if started then rest.drop 1 else rest
      let r : Reading := { tokens := rest, tagHandles := handles }
      let (n, r) ←
        if started && rest.head?.all isBetweenDocuments then some (.null, r)
        else (readNode true false (4 * rest.length + 4)).run r
      if r.tokens.all (· == .documentEnd) then return some n else none

/-- The whole text as one value; a text without a document is an empty table. -/
def ofText? (text : String) : Option Setting := do
  match ← ofTokens? (← tokens? text) with
  | some n => n.toSetting?
  | none => return .table []

end ServiceCatalog.Yaml
