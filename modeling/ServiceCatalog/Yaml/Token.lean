import ServiceCatalog.Yaml.Scalar
import ServiceCatalog.Yaml.Tag
/-!
The tokens of a document. Blocks are marked by their indentation, so that tokens for their starts and
ends are put in; a key is known by the colon behind it, so that the token for it is put in front of
what has been read already.
-/
namespace ServiceCatalog.Yaml

inductive Token where
  | version
  | tagHandle (handle lead : String)
  | documentStart
  | documentEnd
  | listStart
  | tableStart
  | blockEnd
  | item
  | flowListStart
  | flowListEnd
  | flowTableStart
  | flowTableEnd
  | comma
  | key
  | value
  | alias (name : String)
  | anchor (name : String)
  | tag (handle suffix : String)
  | scalar (plain : Bool) (text : String)
  deriving DecidableEq, Repr

/-- What may turn out to be a key: its place, and the number of tokens in front of it. -/
structure KeyStart where
  line : Nat
  column : Nat
  index : Nat
  number : Nat
  /-- Nothing but a key may stand here. -/
  required : Bool

/-- An indentation to come back to, and whether a block ends on the way. -/
structure Indent where
  column : Int
  isBlock : Bool

inductive Flow where
  | list
  | table
  deriving DecidableEq, Repr

structure Scanner where
  cursor : Cursor
  tokens : Array Token := #[]
  /-- One for every flow collection that is open, and one for the block around them. -/
  keys : List (Option KeyStart) := [none]
  keyAllowed : Bool := true
  indent : Int := -1
  indents : List Indent := []
  flow : List Flow := []
  /-- A colon may stand here right in front of its value. -/
  adjacentAt : Nat := 0

namespace Scanner

def inFlow (s : Scanner) : Bool := !s.flow.isEmpty

def push (s : Scanner) (t : Token) : Scanner := { s with tokens := s.tokens.push t }

def insert (s : Scanner) (n : Nat) (t : Token) : Scanner :=
  { s with tokens := s.tokens.extract 0 n ++ #[t] ++ s.tokens.extract n s.tokens.size }

def setKey (s : Scanner) (k : Option KeyStart) : Scanner := { s with keys := k :: s.keys.drop 1 }

def key? (s : Scanner) : Option KeyStart := s.keys.head?.join

/-- A key may start here, if keys may stand here at all. -/
def markKey (s : Scanner) : Scanner :=
  if s.keyAllowed then
    s.setKey (some {
      line := s.cursor.line, column := s.cursor.column, index := s.cursor.index,
      number := s.tokens.size,
      required := !s.inFlow && s.indent == s.cursor.column && s.indents.head?.any (·.isBlock) })
  else s

/-- What has been read is no key. -/
def dropKey (s : Scanner) : Option Scanner :=
  if s.key?.any (·.required) then none else some (s.setKey none)

/-- How far behind its start the colon of a key may be. -/
def maxKeyLength : Nat := 1024

/-- Outside of flow collections a key stands on one line. -/
def dropStaleKeys (s : Scanner) : Option Scanner := do
  let isStale (k : KeyStart) : Bool :=
    !s.inFlow && (k.line < s.cursor.line || k.index + maxKeyLength < s.cursor.index)
  let keys ← s.keys.mapM fun k =>
    match k with
    | some k => if isStale k then if k.required then none else some none else some (some k)
    | none => some none
  return { s with keys := keys }

/-- Ends the blocks that are indented more than this. -/
def unrollWith : List Indent → Int → Scanner → Scanner
  | [], _, s => { s with indents := [] }
  | i :: rest, column, s =>
    if s.indent ≤ column then { s with indents := i :: rest }
    else
      let s := { s with indent := i.column }
      unrollWith rest column (if i.isBlock then s.push .blockEnd else s)

def unroll (s : Scanner) (column : Int) : Scanner :=
  if s.inFlow then s else unrollWith s.indents column s

/-- Leaves the indentation that no block has been started at. -/
def unrollPlain (s : Scanner) : Scanner :=
  match s.indents with
  | i :: rest => if i.isBlock then s else { s with indent := i.column, indents := rest }
  | [] => s

/-- Starts a block if the column is behind the indentation so far; its token goes before the `n`th. -/
def roll (s : Scanner) (column : Nat) (n : Nat) (t : Token) : Scanner :=
  if s.inFlow then s
  else
    let s := if s.indent ≤ column then s.unrollPlain else s
    if s.indent < column then
      { s.insert n t with indent := column, indents := ⟨s.indent, true⟩ :: s.indents }
    else s

/-- What follows within a block has to stand one column behind it at least. -/
def rollPlain (s : Scanner) : Scanner :=
  if !s.inFlow && s.indents.head?.any (·.isBlock) then
    { s with indent := s.indent + 1, indents := ⟨s.indent, false⟩ :: s.indents }
  else s

/-- To the next token; a tab may not stand in for the indentation of a block. -/
def skipGapsWith : Nat → Scanner → Option Scanner
  | 0, s => some s
  | fuel + 1, s =>
    let c := s.cursor
    match c.rest with
    | [] => some s
    | x :: _ =>
      if x = '\t' ∧ !s.indents.isEmpty ∧ c.leading ∧ c.column < s.indent then do
        let c ← c.skipBlanks
        if endsLine c.rest then skipGapsWith fuel { s with cursor := c } else none
      else if isBlank x then skipGapsWith fuel { s with cursor := c.skipBlank }
      else if isBreak x then
        skipGapsWith fuel { s with cursor := c.skipBreak, keyAllowed := s.keyAllowed || !s.inFlow }
      else if x = '#' then skipGapsWith fuel { s with cursor := c.skipComment }
      else some s

def skipGaps (s : Scanner) : Option Scanner := skipGapsWith (s.cursor.rest.length + 1) s

/-- Past `n` characters, and the blanks behind them. -/
def skipWithBlanks (s : Scanner) (n : Nat) : Option Scanner := do
  return { s with cursor := ← (s.cursor.forward n).skipBlanks }

/-! Directives and documents -/

/-- A number of one to nine digits. -/
def versionPart (c : Cursor) : Option Cursor :=
  let n := (c.rest.takeWhile Char.isDigit).length
  if n = 0 ∨ 9 < n then none else some (c.forward n)

def skipSpace (c : Cursor) : Cursor :=
  let n := (c.rest.takeWhile isBlank).length
  { c with rest := c.rest.drop n, index := c.index + n, column := c.column + n }

/-- Past everything that is not in `rest`, which ends the text. -/
def toRest (c : Cursor) (rest : List Char) : Cursor := c.forward (c.rest.length - rest.length)

def tagDirective (c : Cursor) : Option (Token × Cursor) := do
  let (handle, lead, rest) ← tagDirective? c.rest
  return (.tagHandle (String.ofList handle) (String.ofList lead), toRest c rest)

def versionDirective (c : Cursor) : Option (Token × Cursor) := do
  let c ← versionPart (skipSpace c)
  if c.rest.head? = some '.' then return (.version, ← versionPart (c.forward 1)) else none

/-- A line that starts with a percent sign. -/
def directive (s : Scanner) : Option Scanner := do
  let s ← (s.unroll (-1)).dropKey
  let c := s.cursor.forward 1
  let name := c.rest.takeWhile isWordChar
  let c := c.forward name.length
  if name.isEmpty || !endsWord c.rest then none
  else
    let (t, c) ←
      if name = "YAML".toList then versionDirective c
      else if name = "TAG".toList then tagDirective (skipSpace c)
      else some (.tagHandle "" "", c.skipComment)
    let c ← c.skipBlanks
    if endsLine c.rest then
      return { s.push t with keyAllowed := false, cursor := if c.rest.isEmpty then c else c.skipBreak }
    else none

def documentMark (s : Scanner) (t : Token) : Option Scanner := do
  let s ← (s.unroll (-1)).dropKey
  let s := { s.push t with keyAllowed := false, cursor := s.cursor.forward 3 }
  if t = .documentEnd then
    let s ← s.skipWithBlanks 0
    if endsLine s.cursor.rest then return s else none
  else return s

/-! Collections -/

/-- How many flow collections may be open. -/
def maxFlow : Nat := 255

def openFlow (s : Scanner) (f : Flow) (t : Token) : Option Scanner :=
  if maxFlow ≤ s.flow.length then none
  else do
    let s := s.markKey.rollPlain
    let s := { s with flow := f :: s.flow, keys := none :: s.keys, keyAllowed := true }
    return (← s.skipWithBlanks 1).push t

def closeFlow (s : Scanner) (t : Token) : Option Scanner := do
  let s ← s.dropKey
  let s := if s.inFlow then { s with flow := s.flow.drop 1, keys := s.keys.drop 1 } else s
  let s ← { s with keyAllowed := false }.skipWithBlanks 1
  let s := if s.inFlow then { s with adjacentAt := s.cursor.index } else s
  return s.push t

def flowComma (s : Scanner) : Option Scanner := do
  let s ← s.dropKey
  return (← { s with keyAllowed := true }.skipWithBlanks 1).push .comma

/-- A dash. -/
def blockItem (s : Scanner) : Option Scanner :=
  if s.inFlow || !s.keyAllowed then none
  else do
    let s := { s with cursor := s.cursor.forward 1 }.roll s.cursor.column s.tokens.size .listStart
    let b ← s.cursor.blanks true
    if b.tabs && b.cursor.rest.head? == some '-' && endsWord (b.cursor.rest.drop 1) then none
    else
      let s := { s with cursor := b.cursor }
      let s := if b.cursor.rest.head?.any fun c => isBreak c || isFlow c then s.rollPlain else s
      let s ← s.dropKey
      return { s.push .item with keyAllowed := true }

/-- The white space behind a question mark, at least one. -/
def keyGap : Nat → Bool → Scanner → Option Scanner
  | 0, _, _ => none
  | fuel + 1, seen, s =>
    let c := s.cursor
    match c.rest with
    | x :: _ =>
      if x = ' ' then keyGap fuel true { s with cursor := c.skipBlank }
      else if isBreak x then
        keyGap fuel true { s with cursor := c.skipBreak, keyAllowed := s.keyAllowed || !s.inFlow }
      else if x = '#' then keyGap fuel seen { s with cursor := c.skipComment }
      else if x = '\t' ∨ !seen then none
      else some s
    | [] => if seen then some s else none

/-- A question mark. -/
def explicitKey (s : Scanner) : Option Scanner :=
  if !s.inFlow && !s.keyAllowed then none
  else do
    let s := s.roll s.cursor.column s.tokens.size .tableStart
    let s ← s.dropKey
    let s := { s with keyAllowed := !s.inFlow, cursor := s.cursor.forward 1 }
    return (← keyGap (s.cursor.rest.length + 1) false s).push .key

/-- A colon. After a tab alone no word and no dash may follow it. -/
def valueMark (s : Scanner) : Option Scanner := do
  let start := s.cursor
  let s := { s with cursor := s.cursor.forward 1 }
  let s ←
    if s.cursor.rest.head? = some '\t' then do
      let b ← s.cursor.blanks true
      if !b.spaces && b.cursor.rest.head?.any isWordChar then none
      else some { s with cursor := b.cursor }
    else some s
  match s.key? with
  | some k =>
    if s.flow.head? = some .list ∧ k.line < start.line then none
    else
      let s := (s.insert k.number .key).roll k.column k.number .tableStart
      return { s.rollPlain.setKey none with keyAllowed := false }.push .value
  | none =>
    if !s.inFlow && !s.keyAllowed then none
    else
      let s := s.roll start.column s.tokens.size .tableStart
      return { s.rollPlain with keyAllowed := !s.inFlow }.push .value

/-! Anchors, tags and scalars -/

def isNameChar (c : Char) : Bool := !isGap c && !isFlow c && c.toNat != 0xfeff

def anchorOrAlias (s : Scanner) (f : String → Token) : Option Scanner :=
  let s := { s.markKey with keyAllowed := false }
  let name := (s.cursor.rest.drop 1).takeWhile isNameChar
  if name.isEmpty then none
  else some { s.push (f (String.ofList name)) with cursor := s.cursor.forward (name.length + 1) }

def tag (s : Scanner) : Option Scanner := do
  let s := { s.markKey with keyAllowed := false }
  let (handle, suffix, rest) ← tag? s.cursor.rest
  if endsWord rest || (s.inFlow && rest.head?.any isFlow) then
    return { s.push (.tag (String.ofList handle) (String.ofList suffix)) with
      cursor := toRest s.cursor rest }
  else none

def quoted (s : Scanner) (quote : Char) : Option Scanner := do
  let s := { s.markKey with keyAllowed := false }
  let (text, c) ← quoted? s.inFlow s.indent quote s.cursor
  let s ← { s with cursor := c }.skipGaps
  return { s with adjacentAt := s.cursor.index }.push (.scalar false (String.ofList text))

def block (s : Scanner) (literal : Bool) : Option Scanner := do
  let s := { s.markKey with keyAllowed := true }.unrollPlain
  let (text, c) ← block? literal s.indent s.cursor
  return { s with cursor := c }.push (.scalar false (String.ofList text))

def plain (s : Scanner) : Option Scanner := do
  let s := { s.markKey with keyAllowed := false }.unrollPlain
  if s.inFlow ∧ (s.cursor.column : Int) ≤ s.indent then none
  else
    let (text, c) ← plain? s.inFlow (s.indent + 1) s.cursor
    return { s with cursor := c, keyAllowed := c.leading }.push (.scalar true (String.ofList text))

/-- One token or a few that belong together. -/
def step (s : Scanner) : Option Scanner :=
  let cs := s.cursor.rest
  let next := cs.drop 1
  let first := s.cursor.column == 0
  if first && cs.head? == some '%' then s.directive
  else if first && isMark '-' cs then s.documentMark .documentStart
  else if first && isMark '.' cs then s.documentMark .documentEnd
  else if (s.cursor.column : Int) < s.indent then none
  else match cs with
    | '[' :: _ => s.openFlow .list .flowListStart
    | '\x7b' :: _ => s.openFlow .table .flowTableStart
    | ']' :: _ => s.closeFlow .flowListEnd
    | '\x7d' :: _ => s.closeFlow .flowTableEnd
    | ',' :: _ => s.flowComma
    | '*' :: _ => s.anchorOrAlias .alias
    | '&' :: _ => s.anchorOrAlias .anchor
    | '!' :: _ => s.tag
    | '\'' :: _ => s.quoted '\''
    | '"' :: _ => s.quoted '"'
    | '%' :: _ | '@' :: _ => none
    | c :: _ =>
      if c = '-' ∧ endsWord next then s.blockItem
      else if c = '?' ∧ endsWord next then s.explicitKey
      else if c = ':' ∧ (endsWord next ∨ (s.inFlow ∧
          (next.head?.any isFlow ∨ s.cursor.index = s.adjacentAt))) then s.valueMark
      else if c = '|' ∧ !s.inFlow then s.block true
      else if c = '>' ∧ !s.inFlow then s.block false
      else if c.toNat = 0x60 then none
      else s.plain
    | [] => none

/-- The end of the text ends all blocks. -/
def finish (s : Scanner) : Option (List Token) :=
  if s.keys.any fun k => k.any (·.required) then none else some (s.unroll (-1)).tokens.toList

def run : Nat → Scanner → Option (List Token)
  | 0, _ => none
  | fuel + 1, s => do
    let s ← (← s.skipGaps).dropStaleKeys
    let s := s.unroll s.cursor.column
    if s.cursor.rest.isEmpty then s.finish else run fuel (← s.step)

end Scanner

/-- A zero character ends a text. -/
def tokens? (text : String) : Option (List Token) :=
  let cs := text.toList.takeWhile (·.toNat != 0)
  Scanner.run (cs.length + 1) { cursor := { rest := cs } }

end ServiceCatalog.Yaml
