import ServiceCatalog.Json.Reader
import ServiceCatalog.Yaml.Cursor
/-!
Tags: a handle with exclamation marks and a suffix, or a whole name between angles. Characters may be
written by their bytes behind percent signs.
-/
namespace ServiceCatalog.Yaml

/-- The exclamation marks at the front of a tag with the name between them, and the rest. -/
def tagHandle? (cs : List Char) : Option (List Char × List Char) :=
  match cs with
  | '!' :: rest =>
    let name := rest.takeWhile isWordChar
    match rest.drop name.length with
    | '!' :: rest => some ('!' :: name ++ ['!'], rest)
    | rest => some ('!' :: name, rest)
  | _ => none

def isUriChar (c : Char) : Bool :=
  (isWordChar c && c != '_') || "#;/?:@&=+$,_.!~*'()[]%".toList.contains c

def isTagChar (c : Char) : Bool := isUriChar c && !isFlow c && c != '!'

/-- One byte by two digits. -/
def uriByte? : List Char → Option (Nat × List Char)
  | '%' :: a :: b :: rest => (Json.hex4 '0' '0' a b).map (·, rest)
  | _ => none

def uriBytes : Nat → Nat → List Char → Option (Nat × List Char)
  | 0, code, cs => some (code, cs)
  | n + 1, code, cs => do
    let (b, rest) ← uriByte? cs
    if 0x80 ≤ b ∧ b < 0xc0 then uriBytes n (code * 64 + (b - 0x80)) rest else none

/-- A character by its bytes behind percent signs. -/
def uriEscape? (cs : List Char) : Option (Char × List Char) := do
  let (b, rest) ← uriByte? cs
  let (code, rest) ←
    if b < 0x80 then some (b, rest)
    else if 0xc0 ≤ b ∧ b < 0xe0 then uriBytes 1 (b - 0xc0) rest
    else if 0xe0 ≤ b ∧ b < 0xf0 then uriBytes 2 (b - 0xe0) rest
    else if 0xf0 ≤ b ∧ b < 0xf8 then uriBytes 3 (b - 0xf0) rest
    else none
  if code.isValidChar then return (Char.ofNat code, rest) else none

/-- Characters of a tag, with escapes in them. -/
def tagChars (isPart : Char → Bool) : Nat → List Char → Option (List Char × List Char)
  | 0, cs => some ([], cs)
  | fuel + 1, cs =>
    match cs with
    | [] => some ([], [])
    | c :: rest =>
      if !isPart c then some ([], cs)
      else do
        let (x, rest) ← if c = '%' then uriEscape? cs else some (c, rest)
        let (more, rest) ← tagChars isPart fuel rest
        return (x :: more, rest)

/-- A handle, blanks, what it stands for, and the rest. -/
def tagDirective? (cs : List Char) : Option (List Char × List Char × List Char) := do
  let (handle, rest) ← tagHandle? cs
  if handle.getLast? != some '!' then none
  else
    let rest := rest.dropWhile isBlank
    let (lead, rest) ←
      match rest with
      | '!' :: rest => (tagChars isUriChar rest.length rest).map fun r => ('!' :: r.1, r.2)
      | c :: _ => if isTagChar c then tagChars isUriChar rest.length rest else none
      | [] => none
    if endsWord rest then return (handle, lead, rest) else none

/-- A tag: its handle and what follows, and the rest. -/
def tag? (cs : List Char) : Option (List Char × List Char × List Char) :=
  match cs with
  | '!' :: '<' :: rest => do
    let (suffix, rest) ← tagChars isUriChar rest.length rest
    if rest.head? = some '>' then return ([], suffix, rest.drop 1) else none
  | _ => do
    let (handle, rest) ← tagHandle? cs
    let (suffix, rest) ← tagChars isTagChar rest.length rest
    if handle.length ≠ 1 ∧ handle.getLast? = some '!' then
      if suffix.isEmpty then none else return (handle, suffix, rest)
    else
      let suffix := handle.drop 1 ++ suffix
      if suffix.isEmpty then return ([], ['!'], rest) else return (['!'], suffix, rest)

end ServiceCatalog.Yaml
