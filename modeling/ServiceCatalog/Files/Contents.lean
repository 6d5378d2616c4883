import ServiceCatalog.Text.Utf8
/-!
What a file holds. Any bytes may stand in a file; those that are a text are kept as the text, the
others as they are.
-/
namespace ServiceCatalog

inductive Contents where
  | text (s : String)
  | broken (bytes : List UInt8) (noText : ¬bytes.toByteArray.IsValidUTF8)
  deriving DecidableEq, Repr

namespace Contents

def bytes : Contents → List UInt8
  | .text s => Utf8.encode s.toList
  | .broken bytes _ => bytes

def ofBytes (bytes : List UInt8) : Contents :=
  if h : bytes.toByteArray.IsValidUTF8 then .text (.fromUTF8 bytes.toByteArray h) else .broken bytes h

def text? : Contents → Option String
  | .text s => some s
  | .broken .. => none

/-- The text, with a mark for each part that is none. -/
def markedText (mark : List Char) (c : Contents) : String := .ofList (Utf8.decode mark c.bytes)

/-- The bytes of a text behind those that are there. -/
def append (c : Contents) (s : String) : Contents := .ofBytes (c.bytes ++ Utf8.encode s.toList)

end Contents
end ServiceCatalog
