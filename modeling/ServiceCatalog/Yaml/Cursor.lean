/-!
A place in a text of lines: what follows, and where it stands. Only blanks before it on its line make
the place a leading one.
-/
namespace ServiceCatalog.Yaml

structure Cursor where
  rest : List Char
  index : Nat := 0
  line : Nat := 0
  column : Nat := 0
  leading : Bool := true

def isBreak (c : Char) : Bool := c == '\n' || c == '\r'

def isBlank (c : Char) : Bool := c == ' ' || c == '\t'

def isGap (c : Char) : Bool := isBlank c || isBreak c

/-- The characters that make up lists and tables within a line. -/
def isFlow (c : Char) : Bool := ",[]\x7b\x7d".toList.contains c

def isWordChar (c : Char) : Bool := c.isAlphanum || c == '_' || c == '-'

/-- Whether a text ends or breaks off here. -/
def endsWord (cs : List Char) : Bool := cs.head?.all isGap

def endsLine (cs : List Char) : Bool := cs.head?.all isBreak

/-- Three equal characters that stand alone. -/
def isMark (c : Char) (cs : List Char) : Bool :=
  [c, c, c].isPrefixOf cs && endsWord (cs.drop 3)

/-- Where a document starts or ends, if this is the first column. -/
def isDocumentMark (cs : List Char) : Bool := isMark '-' cs || isMark '.' cs

namespace Cursor

/-- Past `n` characters that are neither blanks nor breaks. -/
def forward (c : Cursor) (n : Nat) : Cursor :=
  { c with rest := c.rest.drop n, index := c.index + n, column := c.column + n, leading := false }

def skipBlank (c : Cursor) : Cursor :=
  { c with rest := c.rest.drop 1, index := c.index + 1, column := c.column + 1 }

/-- Past the break of a line, which may be of two characters. -/
def skipBreak (c : Cursor) : Cursor :=
  let n := if "\r\n".toList.isPrefixOf c.rest then 2 else 1
  { rest := c.rest.drop n, index := c.index + n, line := c.line + 1 }

def atMark (c : Cursor) : Bool := c.column == 0 && isDocumentMark c.rest

/-- To the end of the line. -/
def skipComment (c : Cursor) : Cursor :=
  c.forward (c.rest.takeWhile (!isBreak ·)).length

/-- Past spaces. -/
def skipSpaces : Nat → Cursor → Cursor
  | 0, c => c
  | n + 1, c => if c.rest.head? = some ' ' then skipSpaces n c.skipBlank else c

/-- Past the blanks on a line and a comment behind them. -/
structure Blanks where
  cursor : Cursor
  tabs : Bool
  spaces : Bool

def blanksWith (tabs : Bool) : Nat → Blanks → Option Blanks
  | 0, b => some b
  | fuel + 1, b =>
    match b.cursor.rest with
    | ' ' :: _ => blanksWith tabs fuel { b with cursor := b.cursor.skipBlank, spaces := true }
    | '\t' :: _ =>
      if tabs then blanksWith tabs fuel { b with cursor := b.cursor.skipBlank, tabs := true }
      else some b
    | '#' :: _ =>
      if b.tabs || b.spaces then some { b with cursor := b.cursor.skipComment } else none
    | _ => some b

/-- A comment needs a blank in front; tabs are blanks where `tabs` says so. -/
def blanks (tabs : Bool) (c : Cursor) : Option Blanks :=
  blanksWith tabs (c.rest.length + 1) ⟨c, false, false⟩

/-- Past the blanks and the comment that may end a line. -/
def skipBlanks (c : Cursor) : Option Cursor := (c.blanks true).map Blanks.cursor

end Cursor
end ServiceCatalog.Yaml
