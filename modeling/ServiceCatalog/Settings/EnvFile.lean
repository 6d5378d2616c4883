import ServiceCatalog.Settings.Environment
import ServiceCatalog.Text.Alphanumeric
import ServiceCatalog.Text.Blank
/-!
Files of variables: one `NAME=value` a line, maybe after `export`. Values may be quoted, also over
several lines; outside single quotes a backslash escapes and a dollar sign brings in a variable. A
variable that is set already keeps its value.
-/
namespace ServiceCatalog.EnvFile

/-- Where in a value a line ends, as far as it matters to joining lines. -/
inductive Quote where
  | plain
  | blank
  | escape
  | weak
  | weakEscape
  | strong
  | strongEscape
  | comment
  deriving DecidableEq, Repr

def Quote.next (c : Char) : Quote → Quote
  | .plain =>
    if c = '\\' then .escape else if c = '"' then .weak else if c = '\'' then .strong
    else if Text.isSpace c ∧ c ≠ '\n' ∧ c ≠ '\r' then .blank else .plain
  | .blank =>
    if c = '#' then .comment
    else if c = '\\' then .escape else if c = '"' then .weak else if c = '\'' then .strong
    else .plain
  | .escape => .plain
  | .weak => if c = '\\' then .weakEscape else if c = '"' then .plain else .weak
  | .weakEscape => .weak
  | .strong => if c = '\\' then .strongEscape else if c = '\'' then .plain else .strong
  | .strongEscape => .strong
  | .comment => .comment

/-- One line of text up to its end, what stands of it before a comment, and the state there. -/
def scan : Quote → List Char → List Char × Quote
  | q, [] => ([], q)
  | q, c :: rest =>
    let q := q.next c
    if q = .comment then ([], .comment)
    else
      let (kept, q) := scan q rest
      (c :: kept, q)

/-- The lines of a text with their ends. -/
def lines : List Char → List (List Char)
  | [] => []
  | c :: rest =>
    if c = '\n' then ['\n'] :: lines rest
    else match lines rest with
      | [] => [[c]]
      | l :: ls => (c :: l) :: ls

def withoutEnd (cs : List Char) : List Char :=
  match cs.reverse with
  | '\n' :: '\r' :: rest => rest.reverse
  | '\n' :: rest => rest.reverse
  | _ => cs

/-- Joins lines while quotes are open; none when the text ends inside them. `done` is what was read of
the line before. -/
def join : List Char → Quote → List (List Char) → Option (List (List Char))
  | _, q, [] => if q = .plain then some [] else none
  | done, q, l :: ls =>
    if ((done ++ l).dropWhile Text.isSpace).head? = some '#' then
      (join [] .plain ls).map ([] :: ·)
    else
      let (kept, q) := scan q l
      if q = .comment then (join [] .plain ls).map ((done ++ kept) :: ·)
      else if q = .plain then (join [] .plain ls).map (withoutEnd (done ++ l) :: ·)
      else join (done ++ l) q ls

def isNameStart (c : Char) : Bool := c.isAlpha || c == '_'

def isNameChar (c : Char) : Bool := c.isAlphanum || c == '_' || c == '.'

def readName (cs : List Char) : Option (String × List Char) :=
  match cs with
  | c :: _ =>
    if isNameStart c then some (String.ofList (cs.takeWhile isNameChar), cs.dropWhile isNameChar)
    else none
  | [] => none

/-- What a character of a value means. -/
inductive Mode where
  | bare
  | ending
  | strong
  /-- Inside or outside double quotes. -/
  | escaped (weak : Bool)
  | weak
  | variable (weak : Bool) (name : List Char)
  | braced (weak : Bool) (name : List Char)
  deriving DecidableEq, Repr

def inQuotes (weak : Bool) : Mode := if weak then .weak else .bare

def unescape? (c : Char) : Option Char :=
  if c = '\\' ∨ c = '\'' ∨ c = '"' ∨ c = '$' ∨ c = ' ' then some c
  else if c = 'n' then some '\n'
  else none

/-- The value of a variable, empty when there is none. -/
def substitute (env : Environment) (name : List Char) : List Char :=
  ((env.get? (String.ofList name)).getD "").toList

/-- One character of a value: what it adds and the mode after it; none is the end. -/
def Mode.step (env : Environment) (c : Char) : Mode → Option (List Char × Mode)
  | .ending => if c = ' ' ∨ c = '\t' then some ([], .ending) else none
  | .escaped w => (unescape? c).map fun x => ([x], inQuotes w)
  | .strong => some (if c = '\'' then ([], .bare) else ([c], .strong))
  | .variable w name =>
    if Text.isAlphanumeric c then some ([], .variable w (name ++ [c]))
    else if c = '\x7b' ∧ name.isEmpty then some ([], .braced w [])
    else if c = '$' then some (substitute env name, .variable w [])
    else some (substitute env name ++ [c], inQuotes w)
  | .braced w name =>
    if c = '\x7d' then some (substitute env name, inQuotes w)
    else some ([], .braced w (name ++ [c]))
  | .weak =>
    some (if c = '$' then ([], .variable true []) else if c = '"' then ([], .bare)
      else if c = '\\' then ([], .escaped true) else ([c], .weak))
  | .bare =>
    some (if c = '$' then ([], .variable false []) else if c = '\'' then ([], .strong)
      else if c = '"' then ([], .weak) else if c = '\\' then ([], .escaped false)
      else if c = ' ' ∨ c = '\t' then ([], .ending) else ([c], .bare))

/-- The rest of a value. -/
def readValue (env : Environment) : Mode → List Char → Option (List Char)
  | .variable false name, [] => some (substitute env name)
  | .bare, [] | .ending, [] | .escaped false, [] => some []
  | _, [] => none
  | m, c :: rest =>
    if m = .ending ∧ c = '#' then some []
    else do
      let (added, m) ← m.step env c
      return added ++ (← readValue env m rest)

def dropSpace (cs : List Char) : List Char := cs.dropWhile Text.isSpace

def expectEqual : List Char → Option (List Char)
  | '=' :: rest => some rest
  | _ => none

/-- A line: no variable, or one with its value. -/
def readLine (env : Environment) (line : List Char) : Option (Option (String × String)) := do
  let cs := dropSpace (dropSpace line.reverse).reverse
  if cs.isEmpty || cs.head? = some '#' then return none
  let (name, rest) ← readName cs
  let rest := dropSpace rest
  let (name, rest) ←
    if name = "export" ∧ (expectEqual rest).isNone then do
      let (name, rest) ← readName rest
      pure (name, ← expectEqual (dropSpace rest))
    else do pure (name, ← expectEqual rest)
  let rest := dropSpace rest
  if rest.isEmpty || rest.head? = some '#' then return some (name, "")
  return some (name, String.ofList (← readValue env .bare rest))

def addLines : List (List Char) → Environment → Option Environment
  | [], env => some env
  | l :: ls, env => do
    match ← readLine env l with
    | none => addLines ls env
    | some (name, value) => addLines ls (env.addNew name value)

/-- The environment with a file's variables added. -/
def load (text : String) (env : Environment) : Option Environment := do
  let cs := match text.toList with
    | c :: rest => if c.toNat = 0xfeff then rest else c :: rest
    | [] => []
  addLines (← join [] .plain (lines cs)) env

end ServiceCatalog.EnvFile
