/-!
# Paths

A path is written with slashes. Its components are what stands between them; empty components and
those that name the current directory count for nothing, except at the front of a relative path.
-/

namespace TextHarvest.Path

/-- Cuts a list at every occurrence of a character. -/
def splitChars (mark : Char) : List Char → List (List Char)
  | [] => [[]]
  | c :: cs =>
    if c == mark then [] :: splitChars mark cs
    else
      match splitChars mark cs with
      | piece :: pieces => (c :: piece) :: pieces
      | [] => [[c]]

/-- Cuts a text at every occurrence of a character. -/
def splitText (mark : Char) (s : String) : List String :=
  (splitChars mark s.toList).map String.ofList

/-- A part of a path. -/
inductive Component where
  | root
  | current
  | parent
  | name (text : String)
  deriving DecidableEq, Repr

/-- The component that a piece between slashes names; `first` when it begins a relative path. -/
def componentOf? (piece : String) (first : Bool) : Option Component :=
  if piece == "" then none
  else if piece == "." then if first then some .current else none
  else if piece == ".." then some .parent
  else some (.name piece)

/-- The components of a path. -/
def components (path : String) : List Component :=
  match splitText '/' path with
  | [] => []
  | piece :: pieces =>
    let rest := pieces.filterMap (componentOf? · false)
    if piece == "" then (if pieces.isEmpty then [] else .root :: rest)
    else (componentOf? piece true).toList ++ rest

def isAbsolute (path : String) : Bool :=
  path.toList.head? == some '/'

/-- The name of the file that a path leads to. -/
def fileName? (path : String) : Option String :=
  match (components path).getLast? with
  | some (.name n) => some n
  | _ => none

/-- The part of a file name behind its last point; a name that starts with its only point has
none. -/
def extensionOf? (name : String) : Option String :=
  let cs := name.toList.reverse
  let ext := cs.takeWhile (· != '.')
  if cs.length ≤ ext.length + 1 then none else some (String.ofList ext.reverse)

/-- The extension of the file that a path leads to. -/
def extension? (path : String) : Option String :=
  (fileName? path).bind extensionOf?

/-- Puts a path behind another one; an absolute path stands alone. -/
def join (base path : String) : String :=
  if isAbsolute path || base == "" then path
  else if base.toList.getLast? == some '/' then base ++ path
  else base ++ "/" ++ path

/-- Whether a path lies at or below another one, component by component. -/
def startsWith (path base : String) : Bool :=
  (components base).isPrefixOf (components path)

/-! ## Cutting paths -/

/-- A piece between slashes that counts for nothing after the front of a path. -/
def isVoid (piece : String) : Bool :=
  piece == "" || piece == "."

/-- Pieces without the void ones at their end. -/
def dropVoidEnd (pieces : List String) : List String :=
  (pieces.reverse.dropWhile isVoid).reverse

/-- Drops pieces until a number of components is passed. -/
def dropComponents : Nat → List String → List String
  | 0, pieces => pieces
  | _ + 1, [] => []
  | n + 1, piece :: pieces =>
    if isVoid piece then dropComponents (n + 1) pieces else dropComponents n pieces

/-- A path without the void pieces at its end; what it begins with stays. -/
def trimmed (path : String) : String :=
  match splitText '/' path with
  | [] => path
  | first :: pieces =>
    match dropVoidEnd pieces with
    | [] => if first == "" && !pieces.isEmpty then "/" else first
    | kept => "/".intercalate (first :: kept)

/-- The part of a path below another one. The first piece of a path is always a component. -/
def relativeTo? (path base : String) : Option String :=
  if startsWith path base then
    match components base with
    | [] => some (trimmed path)
    | _ :: skipped =>
      let rest := dropComponents skipped.length ((splitText '/' path).drop 1)
      some ("/".intercalate (dropVoidEnd (rest.dropWhile isVoid)))
  else none

/-- The path below a base, or the path itself when it lies elsewhere. -/
def relativeOrSelf (path base : String) : String :=
  (relativeTo? path base).getD path

/-- The path without its last component; the root and the empty path have none. -/
def parent? (path : String) : Option String :=
  match (components path).getLast? with
  | none => none
  | some .root => none
  | some _ =>
    match dropVoidEnd (dropVoidEnd (splitText '/' path)).dropLast with
    | [] => some (if isAbsolute path then "/" else "")
    | pieces => some ("/".intercalate pieces)

/-! ## Order -/

/-- The rank of the kinds of components. -/
def Component.rank : Component → Nat
  | .root => 0
  | .current => 1
  | .parent => 2
  | .name _ => 3

/-- Whether a component comes before another: by kind, names by their text. -/
def Component.before : Component → Component → Bool
  | .name a, .name b => a < b
  | a, b => a.rank < b.rank

/-- Whether a list of components comes before another. -/
def componentsBefore : List Component → List Component → Bool
  | [], [] => false
  | [], _ :: _ => true
  | _ :: _, [] => false
  | a :: as, b :: bs => a.before b || (a == b && componentsBefore as bs)

/-- Puts a path into an ordered list, unless the same path is there. -/
def insertSorted (path : String) : List String → List String
  | [] => [path]
  | p :: ps =>
    let a := components path
    let b := components p
    if a == b then p :: ps
    else if componentsBefore a b then path :: p :: ps
    else p :: insertSorted path ps

end TextHarvest.Path
