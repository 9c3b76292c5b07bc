import TextHarvest.Script.Tree

/-!
# Names that a script declares

The functions, classes and variables that are declared anywhere in a script, in the order in which
a walk meets them.
-/

namespace TextHarvest.Harvest

open Script

/-- What a name is declared as. -/
inductive Declaration where
  | function
  | type
  | variable
  deriving DecidableEq, Repr

def Declaration.name : Declaration → String
  | .function => "function"
  | .type => "class"
  | .variable => "variable"

mutual

/-- The names that a pattern binds. -/
def boundNames : Tree → List String
  | .node (.ident n) _ _ => [n]
  | .node (.shorthand n) _ _ => [n]
  | .node (.shorthandInit n) _ _ => [n]
  | .node .property _ [_, value] => boundNames value
  | .node .defaulted _ (target :: _) => boundNames target
  | .node .annotated _ (target :: _) => boundNames target
  | .node .rest _ (target :: _) => boundNames target
  | .node .arrayPattern _ elements => boundNamesAll elements
  | .node .objectPattern _ entries => boundNamesAll entries
  | _ => []

/-- The names that some patterns bind. -/
def boundNamesAll : List Tree → List String
  | [] => []
  | t :: ts => boundNames t ++ boundNamesAll ts

end

mutual

/-- The names that are declared in a tree. -/
def declared : Tree → List (String × Declaration)
  | .node (.funcDecl n) _ children => (n, .function) :: declaredAll children
  | .node (.classDecl n) _ children => (n, .type) :: declaredAll children
  | .node .declarator _ (target :: init) =>
    (boundNames target).map (·, .variable) ++ declaredAll init
  | .node _ _ children => declaredAll children

/-- The names that are declared in some trees. -/
def declaredAll : List Tree → List (String × Declaration)
  | [] => []
  | t :: ts => declared t ++ declaredAll ts

end

end TextHarvest.Harvest
