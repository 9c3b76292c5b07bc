import TextHarvest.Finding
import TextHarvest.Harvest.Binding

/-!
# Importing the lookup function

When calls are put into a script, the script has to import what they call. The names are added to
an import that is there already, or a new import is written after the last one. Nothing is imported
under a name that is bound to something else.
-/

namespace TextHarvest.Harvest

open Script

/-- A name that cannot be imported because it is bound to something else. -/
structure Conflict where
  name : String
  binding : String
  deriving DecidableEq, Repr

/-- An import of a script with its span. -/
structure ImportSite where
  clause : ImportClause
  span : Span

/-- The imports of a script. -/
def importsOf (script : Tree) : List ImportSite :=
  script.children.filterMap fun
    | .node (.importDecl clause) span _ => some ⟨clause, span⟩
    | _ => none

/-- Receivers that are always in scope. -/
def unimportable : List String := ["this", "_ctx"]

/-- The first segment of a dotted name, which is what is imported for it. -/
def headSegment (name : String) : String :=
  String.ofList (name.toList.takeWhile (· != '.'))

/-- The names to import for some dotted names, each once. -/
def importNames (names : List String) : List String :=
  (names.map headSegment).foldl (fun heads n =>
    if n == "" || unimportable.contains n || heads.contains n then heads else heads ++ [n]) []

/-- Whether a name has yet to be imported from a path. -/
def needsImport (imports : List ImportSite) (declarations : List (String × Declaration))
    (path name : String) : Except Conflict Bool :=
  match imports.find? fun i => i.clause.specifiers.any (·.name == name) with
  | some i =>
    let source := i.clause.source.getD ""
    if source == path then .ok false
    else .error ⟨name, "imported from \x22" ++ source ++ "\x22"⟩
  | none =>
    match declarations.lookup name with
    | some d => .error ⟨name, d.name ++ " declaration"⟩
    | none => .ok true

/-- An import to which names can be added. -/
def isExtensible (path : String) (i : ImportSite) : Bool :=
  i.clause.source == some path && !i.clause.typeOnly && !i.clause.specifiers.isEmpty &&
    !i.clause.specifiers.any (·.form == .whole)

/-- The edit that adds names to an import. -/
def extendImport (i : ImportSite) (names : String) : Edit :=
  match (i.clause.specifiers.filter (·.form == .named)).getLast? with
  | some s => ⟨Span.point s.span.stop, ", " ++ names⟩
  | none =>
    let stop := (i.clause.specifiers.map (·.span.stop)).foldl max 0
    ⟨Span.point stop, ", \x7b " ++ names ++ " \x7d"⟩

/-- The edit that writes a new import: after the last one, or else at the top of the script but
below a line that names an interpreter. -/
def newImport (imports : List ImportSite) (source : List Char) (statement : String) : Edit :=
  match imports.getLast? with
  | some i => ⟨Span.point i.span.stop, "\n" ++ statement⟩
  | none =>
    match source with
    | '#' :: '!' :: _ =>
      let line := source.takeWhile (· != '\n')
      if line.length < source.length then ⟨Span.point (Chars.size line + 1), statement ++ "\n"⟩
      else ⟨Span.point (Chars.size source), "\n" ++ statement⟩
    | _ => ⟨Span.point (Chars.size (source.takeWhile Chars.isBlank)), statement ++ "\n"⟩

/-- The edit that imports some dotted names from a path, if any of them is missing. -/
def planImport (script : Tree) (source : List Char) (names : List String) (path : String) :
    Except Conflict (Option Edit) := do
  let imports := importsOf script
  let declarations := declared script
  let missing ← (importNames names).filterM (needsImport imports declarations path)
  if missing.isEmpty then return none
  let listed := ", ".intercalate missing
  match imports.find? (isExtensible path) with
  | some i => return some (extendImport i listed)
  | none =>
    return some (newImport imports source
      ("import \x7b " ++ listed ++ " \x7d from \x22" ++ path ++ "\x22;"))

end TextHarvest.Harvest
