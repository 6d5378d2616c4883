import ServiceCatalog.Json.Reader
/-!
Reads JSON text in outline: of an object only the members that are asked for are read, the others are
passed over. What is passed over has to be JSON in form alone: its numbers may be of any size, its
strings may hold single surrogates and bytes that are no text, and it may nest without bound.
-/
namespace ServiceCatalog.Json

/-- What is asked of a value. -/
inductive Outline where
  | whole
  /-- Of an object these members; the others are passed over unless `others` is set. -/
  | record (others : Bool) (members : List (String × Outline))

/-- Passes over the rest of a string. -/
def skipString : List Char → Option (List Char)
  | [] => none
  | '"' :: rest => some rest
  | '\\' :: 'u' :: a :: b :: c :: d :: rest => if (hex4 a b c d).isSome then skipString rest else none
  | '\\' :: c :: rest => if (simpleEscape c).isSome then skipString rest else none
  | c :: rest => if c.toNat < 32 ∨ c = '\\' then none else skipString rest

def skipDigits (cs : List Char) : Option (List Char) :=
  if (cs.head?.map Char.isDigit).getD false then some (cs.dropWhile Char.isDigit) else none

/-- Passes over an exponent, if there is one. -/
def skipExponent : List Char → Option (List Char)
  | m :: rest =>
    if m = 'e' ∨ m = 'E' then
      match rest with
      | '+' :: rest => skipDigits rest
      | '-' :: rest => skipDigits rest
      | rest => skipDigits rest
    else some (m :: rest)
  | [] => some []

/-- Passes over a number without its sign. -/
def skipMagnitude (cs : List Char) : Option (List Char) := do
  let rest ← match cs with
    | '0' :: rest => if (rest.head?.map Char.isDigit).getD false then none else some rest
    | cs => skipDigits cs
  match rest with
  | '.' :: rest => skipExponent (← skipDigits rest)
  | rest => skipExponent rest

mutual
def skipValue : Nat → List Char → Option (List Char)
  | 0, _ => none
  | fuel + 1, cs =>
    match skipBlanks cs with
    | [] => none
    | '"' :: rest => skipString rest
    | '-' :: rest => skipMagnitude rest
    | '[' :: rest =>
      match skipBlanks rest with
      | ']' :: rest => some rest
      | rest => skipItems fuel rest
    | '{' :: rest =>
      match skipBlanks rest with
      | '}' :: rest => some rest
      | rest => skipFields fuel rest
    | c :: rest => if c.isDigit then skipMagnitude (c :: rest) else (readLiteral (c :: rest)).map (·.2)
/-- Passes over the values of an array, at least one. -/
def skipItems : Nat → List Char → Option (List Char)
  | 0, _ => none
  | fuel + 1, cs => do
    match skipBlanks (← skipValue fuel cs) with
    | ']' :: rest => return rest
    | ',' :: rest => skipItems fuel rest
    | _ => none
/-- Passes over the fields of an object, at least one. -/
def skipFields : Nat → List Char → Option (List Char)
  | 0, _ => none
  | fuel + 1, cs => do
    match skipBlanks cs with
    | '"' :: rest => do
      match skipBlanks (← skipString rest) with
      | ':' :: rest => do
        match skipBlanks (← skipValue fuel rest) with
        | '}' :: rest => return rest
        | ',' :: rest => skipFields fuel rest
        | _ => none
      | _ => none
    | _ => none
end

/-- What is asked of a member; none when it is passed over. -/
def Outline.member? (others : Bool) (members : List (String × Outline)) (name : String) :
    Option Outline :=
  match members.find? (·.1 == name) with
  | some m => some m.2
  | none => if others then some .whole else none

mutual
/-- One value in outline; `null` stands for what is passed over. -/
def readOutline : Nat → Nat → Outline → List Char → Option (Json × List Char)
  | 0, _, _, _ => none
  | fuel + 1, depth, .whole, cs => readValue (fuel + 1) depth cs
  | fuel + 1, depth, .record others members, cs =>
    match skipBlanks cs with
    | '{' :: rest =>
      match depth with
      | 0 => none
      | depth + 1 =>
        match skipBlanks rest with
        | '}' :: rest => some (.obj [], rest)
        | rest => (readMembers fuel depth others members rest).map fun r => (.obj r.1, r.2)
    | rest => readValue (fuel + 1) depth rest
/-- The fields of an object in outline, at least one. -/
def readMembers : Nat → Nat → Bool → List (String × Outline) → List Char →
    Option (List (String × Json) × List Char)
  | 0, _, _, _, _ => none
  | fuel + 1, depth, others, members, cs => do
    match skipBlanks cs with
    | '"' :: rest => do
      let (name, rest) ← readString rest
      let name := String.ofList name
      match skipBlanks rest with
      | ':' :: rest => do
        let (j, rest) ← match Outline.member? others members name with
          | some outline => readOutline fuel depth outline rest
          | none => (skipValue fuel rest).map (Json.null, ·)
        match skipBlanks rest with
        | '}' :: rest => return ([(name, j)], rest)
        | ',' :: rest => do
          let (fields, rest) ← readMembers fuel depth others members rest
          return ((name, j) :: fields, rest)
        | _ => none
      | _ => none
    | _ => none
end

/-- The whole text as one value in outline, its objects as written. -/
def ofTextIn? (outline : Outline) (text : String) : Option Json := do
  let cs := text.toList
  let (j, rest) ← readOutline (2 * cs.length + 2) maxDepth outline cs
  if (skipBlanks rest).isEmpty then return j else none

/-- Stands for bytes that are no text. A string that is passed over may hold it and one that is read
may not, whatever is in front of it; and it is found nowhere else. -/
def brokenMark : List Char := "x\\udc00\\udc00".toList

end ServiceCatalog.Json
