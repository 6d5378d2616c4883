import ServiceCatalog.Json.Printer
/-!
Writes texts of a document. The plainest of four forms is taken: between double quotes where nothing
but tabs has to be escaped, between single quotes as it stands, over several lines between three
double quotes, between three single quotes. Where none of them does, double quotes with escapes are
used, three of them when there are line ends.
-/
namespace ServiceCatalog.Toml

/-- The longest run of one character. -/
def longestRun (c : Char) : Nat → Nat → List Char → Nat
  | run, best, [] => max run best
  | run, best, d :: rest =>
    if d = c then longestRun c (run + 1) best rest else longestRun c 0 (max run best) rest

/-- Controls other than tabs and line ends have to be escaped in every form. -/
def needsCode (c : Char) : Bool := (c.toNat < 32 && c != '\t' && c != '\n') || c.toNat = 127

inductive Form where
  | basic
  | literal
  | basicLines
  | literalLines
  deriving DecidableEq, Repr

def Form.ofText (cs : List Char) : Form :=
  let hasLines := cs.contains '\n'
  let doubles := longestRun '"' 0 0 cs
  let singles := longestRun '\'' 0 0 cs
  if cs.any needsCode then (if hasLines then .basicLines else .basic)
  else if !cs.contains '\\' && doubles = 0 && !hasLines then .basic
  else if singles = 0 && !hasLines then .literal
  else if !cs.contains '\\' && doubles ≤ 2 then .basicLines
  else if singles ≤ 2 then .literalLines
  else if hasLines then .basicLines
  else .basic

def escaped (multiline : Bool) (c : Char) : List Char :=
  if c = '\\' then ['\\', '\\']
  else if c = '\n' then (if multiline then ['\n'] else ['\\', 'n'])
  else if c = '\t' then ['\\', 't']
  else if c = '\r' then ['\\', 'r']
  else if c.toNat = 8 then ['\\', 'b']
  else if c.toNat = 12 then ['\\', 'f']
  else if c.toNat < 32 ∨ c.toNat = 127 then
    '\\' :: 'u' :: (Json.hexDigits 4 c.toNat).map Char.toUpper
  else [c]

/-- Between double quotes. Of quotes in a row the third is escaped over several lines and the first
in one line; `run` counts those before. -/
def printBasic (multiline : Bool) : Nat → List Char → List Char
  | _, [] => []
  | run, c :: rest =>
    if c = '"' then
      if run < (if multiline then 2 else 0) then '"' :: printBasic multiline (run + 1) rest
      else '\\' :: '"' :: printBasic multiline 0 rest
    else escaped multiline c ++ printBasic multiline 0 rest

def tripled (quote : Char) : List Char := [quote, quote, quote]

/-- Texts with line ends start on a line of their own. -/
def lead (cs : List Char) : List Char := if cs.contains '\n' then ['\n'] else []

def printText (s : String) : List Char :=
  let cs := s.toList
  match Form.ofText cs with
  | .basic => '"' :: printBasic false 0 cs ++ ['"']
  | .literal => '\'' :: cs ++ ['\'']
  | .basicLines => tripled '"' ++ lead cs ++ printBasic true 0 cs ++ tripled '"'
  | .literalLines => tripled '\'' ++ lead cs ++ cs ++ tripled '\''

end ServiceCatalog.Toml
