import ServiceCatalog.Json.Reader
import ServiceCatalog.Yaml.Cursor
/-!
Scalars as they are written: plain words, texts between quotes, and blocks of lines. A single break
between two lines of the first two is a space; of more breaks the first one does not count.
-/
namespace ServiceCatalog.Yaml

/-- The characters of a scalar up to here, backwards, and the gap behind them. -/
structure Draft where
  cursor : Cursor
  text : List Char := []
  blanks : List Char := []
  broken : Bool := false
  emptyLines : Nat := 0

namespace Draft

def push (d : Draft) (cs : List Char) : Draft := { d with text := cs.reverse ++ d.text }

def breaks (n : Nat) : List Char := List.replicate n '\n'

/-- The gap becomes a part of the text; `leading` says that the gap goes over lines. -/
def closeGap (d : Draft) (leading : Bool) : Draft :=
  let gap :=
    if leading then if d.broken && d.emptyLines == 0 then [' '] else breaks d.emptyLines
    else d.blanks
  { cursor := d.cursor, text := gap ++ d.text }

end Draft

/-! Plain scalars -/

/-- Whether a plain scalar goes on with this character before those. -/
def isPlainChar (flow : Bool) (c : Char) (rest : List Char) : Bool :=
  !isGap c && !(flow && isFlow c) &&
    !(c == ':' && (endsWord rest || (flow && rest.head?.any isFlow)))

def takeWord (flow : Bool) : List Char → List Char
  | [] => []
  | c :: rest => if isPlainChar flow c rest then c :: takeWord flow rest else []

/-- The blanks and breaks behind a word; a tab may not stand in for the indentation. -/
def plainGap (indent : Int) : Nat → Draft → Option Draft
  | 0, d => some d
  | fuel + 1, d =>
    match d.cursor.rest with
    | [] => some d
    | c :: _ =>
      if isBlank c then
        if !d.cursor.leading then
          plainGap indent fuel { d with cursor := d.cursor.skipBlank, blanks := c :: d.blanks }
        else if c = '\t' ∧ d.cursor.column < indent then do
          let cursor ← d.cursor.skipBlanks
          if endsLine cursor.rest then plainGap indent fuel { d with cursor := cursor } else none
        else plainGap indent fuel { d with cursor := d.cursor.skipBlank }
      else if isBreak c then
        plainGap indent fuel
          (if d.cursor.leading then
            { d with cursor := d.cursor.skipBreak, emptyLines := d.emptyLines + 1 }
          else { d with cursor := d.cursor.skipBreak, blanks := [], broken := true })
      else some d

def plainWords (flow : Bool) (indent : Int) : Nat → Draft → Option Draft
  | 0, d => some d
  | fuel + 1, d =>
    if d.cursor.atMark || d.cursor.rest.head? == some '#' then some d
    else if flow && d.cursor.rest.head? == some '-' && (d.cursor.rest.drop 1).head?.any isFlow then none
    else
      let word := takeWord flow d.cursor.rest
      let d :=
        if word.isEmpty then d
        else
          let d := d.closeGap d.cursor.leading
          { d.push word with cursor := d.cursor.forward word.length }
      if !d.cursor.rest.head?.any isGap then some d
      else do
        let d ← plainGap indent (d.cursor.rest.length + 1) d
        if !flow && d.cursor.column < indent then return d else plainWords flow indent fuel d

/-- A plain scalar, and the place behind it. -/
def plain? (flow : Bool) (indent : Int) (c : Cursor) : Option (List Char × Cursor) := do
  let d ← plainWords flow indent (c.rest.length + 1) { cursor := c }
  if d.text.isEmpty then none else return (d.text.reverse, d.cursor)

/-! Scalars between quotes -/

def escapes : List (Char × Nat) :=
  [('0', 0), ('a', 7), ('b', 8), ('t', 9), ('\t', 9), ('n', 10), ('v', 11), ('f', 12), ('r', 13),
    ('e', 27), (' ', 32), ('"', 34), ('/', 47), ('\\', 92), ('N', 0x85), ('_', 0xa0), ('L', 0x2028),
    ('P', 0x2029)]

def codeLength (c : Char) : Nat :=
  if c = 'x' then 2 else if c = 'u' then 4 else if c = 'U' then 8 else 0

/-- What stands behind a backslash, and how many characters it takes. -/
def escape? : List Char → Option (Char × Nat)
  | [] => none
  | c :: rest =>
    match escapes.find? (·.1 == c), codeLength c with
    | some e, _ => some (Char.ofNat e.2, 1)
    | none, 0 => none
    | none, n =>
      if rest.length < n then none
      else do
        let ds ← (rest.take n).mapM Json.hexValue
        let code := ds.foldl (fun (n d : Nat) => n * 16 + d) 0
        if code.isValidChar then return (Char.ofNat code, n + 1) else none

/-- The characters up to a gap or the closing quote. The flag says that a backslash took away a
break. -/
def quotedWord (quote : Char) : Nat → Draft → Option (Draft × Bool)
  | 0, d => some (d, false)
  | fuel + 1, d =>
    let go (n : Nat) (c : Char) := quotedWord quote fuel { d.push [c] with cursor := d.cursor.forward n }
    match d.cursor.rest with
    | [] => some (d, false)
    | c :: rest =>
      if isGap c then some (d, false)
      else if c = quote then
        if quote = '\'' ∧ rest.head? = some quote then go 2 quote else some (d, false)
      else if quote = '"' ∧ c = '\\' then
        if rest.head?.any isBreak then
          some ({ d with cursor := (d.cursor.forward 1).skipBreak }, true)
        else do
          let (x, n) ← escape? rest
          go (n + 1) x
      else go 1 c

/-- The gap behind a word; `lined` says that it goes over lines. -/
def quotedGap (indent : Int) : Nat → Bool → Draft → Option (Draft × Bool)
  | 0, lined, d => some (d, lined)
  | fuel + 1, lined, d =>
    match d.cursor.rest with
    | [] => some (d, lined)
    | c :: _ =>
      if isBlank c then
        if !lined then
          quotedGap indent fuel lined { d with cursor := d.cursor.skipBlank, blanks := c :: d.blanks }
        else if c = '\t' ∧ d.cursor.column < indent then none
        else quotedGap indent fuel lined { d with cursor := d.cursor.skipBlank }
      else if isBreak c then
        if lined then
          quotedGap indent fuel lined
            { d with cursor := d.cursor.skipBreak, emptyLines := d.emptyLines + 1 }
        else quotedGap indent fuel true { d with cursor := d.cursor.skipBreak, broken := true }
      else some (d, lined)

def quotedWords (quote : Char) (indent : Int) : Nat → Draft → Option Draft
  | 0, _ => none
  | fuel + 1, d => do
    if d.cursor.atMark || d.cursor.rest.isEmpty || decide (d.cursor.column < indent) then none
    else
      let (d, lined) ← quotedWord quote (d.cursor.rest.length + 1) d
      if d.cursor.rest.head? = some quote then return d
      else
        let (d, lined) ← quotedGap indent (d.cursor.rest.length + 1) lined d
        quotedWords quote indent fuel (d.closeGap lined)

/-- Whether a scalar between quotes may end before this; a key stands on one line. -/
def mayFollowQuote (flow sameLine : Bool) (cs : List Char) : Bool :=
  endsLine cs || (cs.head? == some ':' && (flow || sameLine)) ||
    (flow && ",]\x7d".toList.any fun c => cs.head? == some c)

/-- A scalar between quotes, and the place behind it and the blanks there. -/
def quoted? (flow : Bool) (indent : Int) (quote : Char) (c : Cursor) : Option (List Char × Cursor) := do
  let d ← quotedWords quote indent (c.rest.length + 1) { cursor := c.forward 1 }
  let cursor ← (d.cursor.forward 1).skipBlanks
  if mayFollowQuote flow (c.line == cursor.line) cursor.rest then return (d.text.reverse, cursor)
  else none

/-! Blocks of lines -/

/-- What is kept of the breaks at the end of a block: none, one or all. -/
inductive Chomping where
  | strip
  | clip
  | keep
  deriving DecidableEq, Repr

def chomping? : List Char → Option Chomping
  | '-' :: _ => some .strip
  | '+' :: _ => some .keep
  | _ => none

/-- The digit for the indentation, zero when there is none; it may not be zero itself. -/
def increment? : List Char → Option Nat
  | '0' :: _ => none
  | c :: _ => some (if c.isDigit then c.toNat - 48 else 0)
  | [] => some 0

/-- The marks behind the character that starts a block, in either order. -/
def blockMarks (c : Cursor) : Option (Chomping × Nat × Cursor) :=
  match chomping? c.rest with
  | some k => do
    let c := c.forward 1
    let n ← increment? c.rest
    return (k, n, if n = 0 then c else c.forward 1)
  | none => do
    let n ← increment? c.rest
    if n = 0 then return (.clip, 0, c)
    else
      let c := c.forward 1
      match chomping? c.rest with
      | some k => return (k, n, c.forward 1)
      | none => return (.clip, n, c)

/-- Past the indentation of a line and the empty lines before; counts those. -/
def skipIndent (indent : Nat) : Nat → Cursor → Nat → Cursor × Nat
  | 0, c, n => (c, n)
  | fuel + 1, c, n =>
    let c := c.skipSpaces (indent - c.column)
    if c.rest.head?.any isBreak then skipIndent indent fuel c.skipBreak (n + 1) else (c, n)

/-- The same where the first line that is not empty sets the indentation; `widest` is the most that
any line had. -/
def findIndent : Nat → Cursor → Nat → Nat → Cursor × Nat × Nat
  | 0, c, n, widest => (c, n, widest)
  | fuel + 1, c, n, widest =>
    let c := c.skipSpaces c.rest.length
    let widest := max widest c.column
    if c.rest.head?.any isBreak then findIndent fuel c.skipBreak (n + 1) widest else (c, n, widest)

/-- The lines of a block up to here, backwards, with the break behind them and the empty lines after
it. -/
structure Lines where
  cursor : Cursor
  text : List Char := []
  broken : Bool := false
  emptyLines : Nat := 0
  /-- The last line starts with a blank. -/
  indented : Bool := false

/-- The breaks between two lines. A fold makes one break a space and drops the first of more, except
beside a line that starts with a blank. -/
def Lines.gap (ls : Lines) (literal indented : Bool) : List Char :=
  if !literal && ls.broken && !ls.indented && !indented then
    if ls.emptyLines = 0 then [' '] else Draft.breaks ls.emptyLines
  else Draft.breaks ((if ls.broken then 1 else 0) + ls.emptyLines)

def blockLines (literal : Bool) (indent : Nat) : Nat → Lines → Lines
  | 0, ls => ls
  | fuel + 1, ls =>
    let c := ls.cursor
    if c.column ≠ indent ∨ c.rest.isEmpty ∨ (indent = 0 ∧ isMark '.' c.rest) then ls
    else
      let indented := c.rest.head?.any isBlank
      let line := c.rest.takeWhile (!isBreak ·)
      let text := line.reverse ++ (ls.gap literal indented ++ ls.text)
      let c := c.forward line.length
      if c.rest.isEmpty then { cursor := c, text := text, indented := indented }
      else
        let (c, n) := skipIndent indent c.rest.length c.skipBreak 0
        blockLines literal indent fuel
          { cursor := c, text := text, broken := true, emptyLines := n, indented := indented }

/-- The end of a block. A last line that no break ends counts as if one did. -/
def Lines.chomp (ls : Lines) (chomping : Chomping) (indent : Nat) : List Char :=
  let text := ls.text.reverse
  match chomping with
  | .strip => text
  | _ =>
    let text := if ls.broken then text ++ ['\n'] else text
    let text :=
      if ls.cursor.rest.isEmpty && decide (max indent 1 ≤ ls.cursor.column) then text ++ ['\n']
      else text
    if chomping = .keep then text ++ Draft.breaks ls.emptyLines else text

/-- A block without lines in it; `broken` says that its first line ends with a break. -/
def emptyBlock (chomping : Chomping) (broken : Bool) (sameLine : Bool) (emptyLines : Nat) : List Char :=
  if chomping = .strip ∨ sameLine then []
  else if chomping = .clip ∨ emptyLines = 0 then Draft.breaks (if broken then 1 else 0)
  else Draft.breaks emptyLines

/-- A block inside of something that is indented so far, and the place behind it. -/
def block? (literal : Bool) (outer : Int) (start : Cursor) : Option (List Char × Cursor) := do
  let (chomping, increment, c) ← blockMarks (start.forward 1)
  let c ← c.skipBlanks
  if !endsLine c.rest then none
  else
    let broken := !c.rest.isEmpty
    let c := if broken then c.skipBreak else c
    if c.rest.head? = some '\t' then none
    else
      let (c, n, indent) :=
        if increment = 0 then
          let (c, n, widest) := findIndent (c.rest.length + 1) c 0 0
          let indent := max widest (outer + 1).toNat
          (c, n, if 0 < outer then max indent 1 else indent)
        else
          let indent := outer.toNat + increment
          let (c, n) := skipIndent indent (c.rest.length + 1) c 0
          (c, n, indent)
      if c.rest.isEmpty then return (emptyBlock chomping broken (c.line == start.line) n, c)
      else if c.column < indent ∧ outer < c.column then none
      else
        let ls := blockLines literal indent (c.rest.length + 1) { cursor := c, emptyLines := n }
        return (ls.chomp chomping indent, ls.cursor)

end ServiceCatalog.Yaml
