import TextHarvest.Harvest.Site

/-!
# Walking over a script

A walk goes over a syntax tree once and lists the actions to be taken. What happens at a node
depends on the node, on its site and on the role that its parent gives it. A parent never looks at
what its children do, so the walk is a plain recursion over the tree: the actions on entering a
node, those of its children, and those on leaving it.
-/

namespace TextHarvest.Harvest

open Script

/-- What a node is to its parent. -/
inductive Role where
  /-- An ordinary part; a literal stands in the given slot. -/
  | part (slot : Slot)
  /-- The properties of a node of compiled render code. -/
  | props
  /-- One of those properties. -/
  | prop
  /-- The first of `count` arguments of the lookup function. -/
  | lookup (count : Nat)
  deriving DecidableEq, Repr

/-- An ordinary part. -/
def Role.plain : Role := .part .plain

/-- A child to be visited: its site and its role; `none` for a child that is left out. -/
abbrev Visit := Option (Site × Role)

/-- Visits a child as an ordinary part. -/
def Site.visit (site : Site) : Visit := some (site, .plain)

/-- The names of the properties whose texts are replaced by calls. -/
def dynamicNames (site : Site) (props : Tree) : List String :=
  match props with
  | .node .object _ entries => entries.filterMap fun
    | .node .property _ [key, .node (.strLit (some value)) _ _] =>
      if site.takesLiteral value then propertyName? key else none
    | _ => none
  | _ => []

/-- How the arguments of a call are visited. -/
def visitArguments (site : Site) (name : Option String) (args : List Tree) : List Visit :=
  let inner := site.within name
  let plain := args.map fun _ => inner.visit
  match name with
  | none => plain
  | some n =>
    if site.harvester.exclusion.isLookupCall n then
      some (inner, .lookup args.length) :: plain.drop 1
    else
      -- the makers of nodes are known by the last segment of their name
      let callee := Exclusion.terminalSegment n
      if nodeMakers.contains callee then plain.take 1 ++ some (inner, .props) :: plain.drop 2
      else if callee == textMaker then
        some (inner, .part (.text (args.length == 1))) :: plain.drop 1
      else plain

/-- How the children of a node are visited. -/
def visits (site : Site) (role : Role) (kind : Kind) (children : List Tree) : List Visit :=
  let plain := children.map fun _ => site.visit
  match kind with
  | .call _ =>
    match children with
    | callee :: args => site.visit :: visitArguments site callee.path? args
    | [] => []
  | .construct _ =>
    match children with
    | callee :: args => site.visit :: visitArguments site callee.path? args
    | [] => []
  | .func .. => children.map fun _ => (site.within none).visit
  | .arrow _ => children.map fun _ => (site.within none).visit
  | .classExpr _ => children.map fun _ => (site.within none).visit
  | .classDecl _ => children.map fun _ => (site.within none).visit
  | .strLit _ => []
  | .template _ =>
    match role with
    | .lookup _ => if children.isEmpty then [] else plain
    | _ => plain
  | .keyComputed => children.map fun e => if e.isStaticKey then none else site.visit
  | .member _ .computed =>
    match children with
    | [_, e] => [site.visit, if e.isStaticKey then none else site.visit]
    | _ => plain
  | .spread =>
    match role with
    | .props => children.map fun _ => some (site, .props)
    | .part (.text sole) => children.map fun _ => some (site, .part (.text sole))
    | _ => plain
  | .object =>
    match role with
    | .props => children.map fun _ => some (site, .prop)
    | _ => plain
  | .property =>
    match role with
    | .prop => [none, some (site, .part .property)]
    | _ => plain
  | .element (.plain name _) =>
    if name == site.options.jsxElement then
      children.map fun
        | .node (.attribute (.plain n)) _ _ => if n == "id" || n == "msg" then none else site.visit
        | _ => site.visit
    else plain
  -- Imports and exports of names, and what there is on the level of types, hold no display texts.
  | .importDecl _ => []
  | .exportNamed => []
  | .exportAll => []
  | .importEquals _ => []
  | .moduleDecl _ => []
  | .enumDecl _ => []
  | .typeText _ => []
  | _ => plain

/-- The actions on entering a node. -/
def enter (site : Site) (role : Role) (kind : Kind) (span : Span) (children : List Tree) :
    List Action :=
  match kind with
  | .strLit value =>
    match role with
    | .lookup count => site.constantArgument span value count
    | .part slot => site.literal span value slot
    | _ => site.literal span value .plain
  | .template chunks =>
    match role with
    | .lookup count =>
      -- a template with substitutions is no constant key
      if children.isEmpty then site.constantArgument span (chunks.head?.bind Chunk.cooked) count
      else site.dynamicArgument span
    | _ => []
  | .markupString value => site.literal span (some value) .attribute
  | .markupText => site.elementText span
  | .element (.plain name place) =>
    if name == site.options.jsxElement then site.wrapperElement place.stop children else []
  | _ => []

/-- The actions on leaving a node. -/
def leave (site : Site) (role : Role) (kind : Kind) (children : List Tree) : List Action :=
  let mark (callee : Tree) (args : List Tree) : List Action :=
    match callee.path? with
    | some n =>
      if !site.harvester.exclusion.isLookupCall n &&
          nodeMakers.contains (Exclusion.terminalSegment n) then
        match args with
        | _ :: props :: _ =>
          -- the props are looked at again to see which of their properties were replaced
          let names := dynamicNames (site.within (some n)) props.unspread
          if names.isEmpty then [] else markDynamic args names site.quote
        | _ => []
      else []
    | none => []
  match kind, children with
  | .call _, callee :: args => mark callee args
  | .construct _, callee :: args => mark callee args
  | .template chunks, substitutions =>
    match role with
    | .lookup _ => if substitutions.isEmpty then [] else site.chunks chunks
    | _ => site.chunks chunks
  | _, _ => []

mutual

/-- The actions to be taken for a tree. -/
def walk (site : Site) (role : Role) : Tree → List Action
  | .node kind span children =>
    enter site role kind span children ++ walkAll (visits site role kind children) children ++
      leave site role kind children

/-- The actions to be taken for some trees, each visited as the list says. -/
def walkAll : List Visit → List Tree → List Action
  | visit :: vs, t :: ts =>
    (match visit with
      | some (site, role) => walk site role t
      | none => []) ++ walkAll vs ts
  | _, _ => []

end

/-! ## Where the program stops -/

/-- Whether the program stops on entering a node, at the message of a wrapper element. -/
def stopsOnEntering (site : Site) (kind : Kind) (children : List Tree) : Bool :=
  match kind with
  | .element (.plain name _) => name == site.options.jsxElement && site.stopsAt children
  | _ => false

mutual

/-- Whether the program stops on its walk over a tree. -/
def stops (site : Site) (role : Role) : Tree → Bool
  | .node kind _ children =>
    stopsOnEntering site kind children || stopsAll (visits site role kind children) children

/-- Whether the program stops in one of some trees, each visited as the list says. -/
def stopsAll : List Visit → List Tree → Bool
  | visit :: vs, t :: ts =>
    (match visit with
      | some (site, role) => stops site role t
      | none => false) || stopsAll vs ts
  | _, _ => false

end

end TextHarvest.Harvest
