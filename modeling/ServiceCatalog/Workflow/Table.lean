import ServiceCatalog.Text.Quoted
/-!
Transition tables. A table holds one row for each pair of a source state and a kind of action; a row
without a source creates the item. Building a table refuses a second row for a pair and a table
without rows, and otherwise keeps the rows in the order of their declaration.
-/
namespace ServiceCatalog

/-- Why an effect refused its payload. -/
structure Rejected where
  reason : String
  deriving DecidableEq, Repr

/-- Values with a name for records and messages, and an identifier for diagnostics. -/
class Named (α : Type) where
  all : List α
  name : α → String
  identifier : α → String

export Named (name identifier)

/-- What a row does to the item. -/
inductive Effect (A T : Type) where
  | create (run : String → A → Except Rejected T)
  | update (run : T → A → Except Rejected T)

structure Transition (S K A T : Type) where
  /-- None for the creation of an item. -/
  source : Option S
  kind : K
  target : S
  effect : Effect A T

/-- One declaration of rows: a creation, or one action from each of several states. -/
inductive Declaration (S K A T : Type) where
  | creation (kind : K) (target : S) (run : String → A → Except Rejected T)
  | moves (sources : List S) (kind : K) (target : S) (run : T → A → Except Rejected T)

structure Table (S K A T : Type) where
  machine : String
  rows : List (Transition S K A T)

inductive TableError where
  | duplicate (machine source action : String)
  | empty (machine : String)
  deriving DecidableEq, Repr

def TableError.message : TableError → String
  | .duplicate machine source action =>
    s!"{machine}: transition ({source}, {action}) is declared more than once"
  | .empty machine => s!"{machine}: transition table has no transitions"

variable {S K A T : Type}

def Declaration.rows : Declaration S K A T → List (Transition S K A T)
  | .creation kind target run => [⟨none, kind, target, .create run⟩]
  | .moves sources kind target run =>
    sources.map fun s => ⟨some s, kind, target, .update run⟩

namespace Transition

def key (t : Transition S K A T) : Option S × K := (t.source, t.kind)

def isCreation (t : Transition S K A T) : Bool := t.source.isNone

/-- The next item; `id` is used by a creation only. -/
def exec [Named K] (t : Transition S K A T) (id : String) (current : Option T) (action : A) :
    Except Rejected T :=
  match t.effect, current with
  | .create run, _ => run id action
  | .update run, some item => run item action
  | .update _, none => .error ⟨name t.kind ++ " requires an existing item"⟩

def sourceText [Named S] : Option S → String
  | none => "None"
  | some s => "Some(" ++ identifier s ++ ")"

def describe [Named S] [Named K] (t : Transition S K A T) : String :=
  "Transition \x7b from: " ++ sourceText t.source ++ ", action: " ++ identifier t.kind ++
    ", to: " ++ identifier t.target ++ " \x7d"

end Transition

namespace Table

/-- The first row whose pair is among those before it. -/
def firstRepeat [DecidableEq S] [DecidableEq K] :
    List (Option S × K) → List (Transition S K A T) → Option (Transition S K A T)
  | _, [] => none
  | seen, t :: rest => if t.key ∈ seen then some t else firstRepeat (t.key :: seen) rest

/-- All rows in the order of their declaration. -/
def expand (declarations : List (Declaration S K A T)) : List (Transition S K A T) :=
  declarations.flatMap Declaration.rows

def build [DecidableEq S] [DecidableEq K] [Named S] [Named K] (machine : String)
    (declarations : List (Declaration S K A T)) : Except TableError (Table S K A T) :=
  match expand declarations with
  | [] => .error (.empty machine)
  | rows =>
    match firstRepeat [] rows with
    | some t =>
      .error (.duplicate machine ((t.source.map name).getD "*") (name t.kind))
    | none => .ok ⟨machine, rows⟩

def lookup [DecidableEq S] [DecidableEq K] (t : Table S K A T) (source : Option S) (kind : K) :
    Option (Transition S K A T) :=
  t.rows.find? fun row => row.key == (source, kind)

/-- The kinds of action that are legal in a state. -/
def actionsFrom [DecidableEq S] (t : Table S K A T) (source : Option S) : List K :=
  (t.rows.filter fun row => row.source == source).map (·.kind)

def size (t : Table S K A T) : Nat := t.rows.length

def describe (t : Table S K A T) : String :=
  "TransitionTable \x7b machine: " ++ Text.quoted t.machine ++ ", transitions: " ++
    toString t.size ++ " \x7d"

end Table
end ServiceCatalog
