import ServiceCatalog.Settings.Layer
/-!
Settings from the environment. A variable counts when its name starts with the prefix in any case;
two underscores in the rest part a section from a key. A value that reads as a truth value, an integer
or a decimal is one.
-/
namespace ServiceCatalog

/-- Variables by name. -/
abbrev Environment := List (String × String)

namespace Environment

def namePrefix : List Char := "services_cms_".toList

/-- Two underscores become a point. -/
def pointed : List Char → List Char
  | '_' :: '_' :: rest => '.' :: pointed rest
  | c :: rest => c :: pointed rest
  | [] => []

/-- The path of a variable that counts. -/
def path? (name : String) : Option String :=
  let cs := name.toList.map Setting.lowerChar
  if namePrefix.isPrefixOf cs then some (String.ofList (pointed (cs.drop namePrefix.length))) else none

def value (s : String) : Setting :=
  let w := Setting.lower s
  if w = "true" then .flag true
  else if w = "false" then .flag false
  else match Numeral.signed64? s.toList with
    | some i => .whole i
    | none =>
      match Numeral.decimal? s.toList with
      | some x => .fraction x
      | none => .text s

def layer (env : Environment) : List (String × Setting) :=
  env.filterMap fun v => (path? v.1).map (·, value v.2)

def get? (env : Environment) (name : String) : Option String :=
  (env.find? (·.1 == name)).map (·.2)

/-- Adds a variable unless there is one of that name. -/
def addNew (env : Environment) (name value : String) : Environment :=
  if (env.get? name).isSome then env else env ++ [(name, value)]

end Environment
end ServiceCatalog
