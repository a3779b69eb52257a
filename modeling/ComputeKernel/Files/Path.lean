import ComputeKernel.Text.Split

/-!
# Paths

A path is a text. What it means is told by its components (`components`): repeated separators,
separators at the end and `.` anywhere but in front do not count. Operations that cut a path keep
the text of what is left as it was written, without separators and `.` at the new ends.
-/

namespace ComputeKernel.Path

variable (path : String)

/-- A component of a path. -/
inductive Component where
  | root
  | current
  | parent
  | normal (name : String)
deriving DecidableEq, Repr, Inhabited

/-- The parts of a path between separators. -/
def segments : List String := (Text.split '/' path.toList).map String.ofList

/-- Parts put together with separators between them. -/
def ofSegments (parts : List String) : String := "/".intercalate parts

/-- Parts that stand for no component. -/
def isIdle (part : String) : Bool := part == "" || part == "."

/-- Whether a path starts at the root. -/
def isAbsolute : Bool := path.startsWith "/"

/-- Whether a path has the character with the number zero, which no file name can have. -/
def hasZero : Bool := path.toList.contains (Char.ofNat 0)

/-- A name in a directory has at most this many bytes. -/
def maxNameSize : Nat := 255

/-- A path that is looked up has at most this many bytes. -/
def maxSize : Nat := 4095

/-- What a part other than the first one stands for. -/
def component? (part : String) : Option Component :=
  if isIdle part then none else if part = ".." then some .parent else some (.normal part)

/-- The components of a path. -/
def components : List Component :=
  match segments path with
  | "." :: rest => .current :: rest.filterMap component?
  | first :: rest =>
    if isAbsolute path then .root :: rest.filterMap component?
    else (first :: rest).filterMap component?
  | [] => []

/-- Drop the parts at the end that stand for no component. -/
def dropIdleEnd (parts : List String) : List String := (parts.reverse.dropWhile isIdle).reverse

/-- Drop parts up to and with the first `n` components of a path whose first part is gone. -/
def dropComponents : Nat → List String → List String
  | 0, parts => parts
  | n + 1, parts => dropComponents n ((parts.dropWhile isIdle).drop 1)

/-- The parts of a path after its first `n` components. -/
def partsAfter (n : Nat) (path : String) : List String :=
  match n, segments path with
  | 0, parts => parts
  | n + 1, "." :: rest => dropComponents n rest
  | n + 1, parts =>
    if isAbsolute path then dropComponents n (parts.drop 1) else dropComponents (n + 1) parts

/-- A path without separators and `.` at its end. -/
def trimmed : String :=
  match segments path with
  | "." :: rest => ofSegments ("." :: dropIdleEnd rest)
  | first :: rest =>
    if isAbsolute path then "/" ++ ofSegments (dropIdleEnd rest)
    else ofSegments (dropIdleEnd (first :: rest))
  | [] => ""

/-- What is left of a path below another one. -/
def relativeTo? (base path : String) : Option String :=
  let bs := components base
  if bs.isPrefixOf (components path) then
    if bs.isEmpty then some (trimmed path)
    else some (ofSegments (dropIdleEnd ((partsAfter bs.length path).dropWhile isIdle)))
  else none

/-- A path seen from another one: an absolute path stands for itself, and anything else is written
after the first one, with a separator unless there is one. -/
def join (base path : String) : String :=
  if isAbsolute path then path
  else if base.isEmpty || base.endsWith "/" then base ++ path
  else base ++ "/" ++ path

/-- The path without its last component. The root and the empty path have none. -/
def parent? : Option String :=
  match segments path with
  | "." :: rest =>
    match dropIdleEnd rest with
    | [] => some ""
    | parts => some (ofSegments ("." :: dropIdleEnd parts.dropLast))
  | first :: rest =>
    if isAbsolute path then
      match dropIdleEnd rest with
      | [] => none
      | parts => some ("/" ++ ofSegments (dropIdleEnd parts.dropLast))
    else
      match dropIdleEnd (first :: rest) with
      | [] => none
      | parts => some (ofSegments (dropIdleEnd parts.dropLast))
  | [] => none

/-- The last component, if it is a name. -/
def fileName? : Option String :=
  match (components path).getLast? with
  | some (.normal name) => some name
  | _ => none

/-- What follows the last point of a name, unless that is in front. -/
def extensionOfName? (name : String) : Option String :=
  let cs := name.toList.reverse
  match cs.span (· != '.') with
  | (_, []) | (_, [_]) => none
  | (after, _) => some (String.ofList after.reverse)

/-- The extension of the last component. -/
def extension? : Option String := fileName? path >>= extensionOfName?

/-- The place of a kind of component in the order of paths. -/
def Component.rank : Component → Nat
  | .root => 0
  | .current => 1
  | .parent => 2
  | .normal _ => 3

/-- The order of components; names are in the order of their texts. -/
def Component.le : Component → Component → Bool
  | .normal a, .normal b => a ≤ b
  | a, b => a.rank ≤ b.rank

/-- The order of lists of components: item by item, and a shorter list before its extensions. -/
def componentsLe : List Component → List Component → Bool
  | [], _ => true
  | _ :: _, [] => false
  | a :: as, b :: bs => if a = b then componentsLe as bs else a.le b

/-- The order of paths. -/
def le (p q : String) : Bool := componentsLe (components p) (components q)

/-- Paths in order. -/
def sort (paths : List String) : List String := Text.sortBy le paths

end ComputeKernel.Path
