import TextHarvest.Script.Tree

/-!
# Names of callees

A call goes by the dotted path of what it calls, such as `console.log` or `this.$t`.
-/

namespace TextHarvest.Script.Tree

/-- The value of a string literal, when the tree is one and its value is a text. -/
def literal? : Tree → Option String
  | .node (.strLit value) _ _ => value
  | _ => none

/-- The name of the member that an access names, given the tree of a computed name. -/
def memberName? (name : MemberName) (computed : List Tree) : Option String :=
  match name, computed with
  | .named n, _ => some n
  | .hidden n, _ => some ("#" ++ n)
  | .computed, e :: _ => e.literal?
  | .computed, [] => none

/-- The dotted path of an expression. An access to a member of something without a path goes by
the member alone. -/
def path? : Tree → Option String
  | .node (.ident n) _ _ => some n
  | .node .thisRef _ _ => some "this"
  | .node .importRef _ _ => some "import"
  | .node .paren _ (e :: _) => path? e
  | .node (.ascribed .nonNull) _ (e :: _) => path? e
  | .node (.ascribed .asType) _ (e :: _) => path? e
  | .node (.member _ name) _ (object :: computed) =>
    (memberName? name computed).map fun n =>
      match path? object with
      | some p => p ++ "." ++ n
      | none => n
  | _ => none

/-- A key that is a constant text although it is written as a computed one. -/
def isStaticKey : Tree → Bool
  | .node (.strLit _) _ _ => true
  | .node (.template _) _ substitutions => substitutions.isEmpty
  | _ => false

/-- The value of a literal or of a template without substitutions. -/
def constant? : Tree → Option String
  | .node (.strLit value) _ _ => value
  | .node (.template (chunk :: _)) _ [] => chunk.cooked
  | _ => none

/-- An argument of a call without the mark that spreads it. -/
def unspread : Tree → Tree
  | .node .spread _ (e :: _) => e
  | t => t

end TextHarvest.Script.Tree
