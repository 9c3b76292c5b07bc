/-!
# Exclusion

Which positions and calls keep their literals from being harvested, and which calls ask for the
lookup of a text by its key.
-/

namespace TextHarvest

/-- Where a literal stands. -/
inductive LiteralPosition where
  | moduleSpecifier
  | propertyKey
  | memberName
  | value
  deriving DecidableEq, Repr

/-- The calls that are left alone, and the name of the lookup function. -/
structure Exclusion where
  extraCalls : List String
  translateKey : String
  deriving DecidableEq, Repr

namespace Exclusion

/-- The calls that are always left alone. -/
def defaultCalls : List String :=
  ["$deepScan", "console.log", "console.info", "console.warn", "console.error", "$i8n", "$t",
    "require", "$$i8n", "$$t", "$emit", "$emits", "emits", "_createCommentVNode", "import"]

/-- The directives of templates that carry control flow or bindings and no display text. -/
def structuralDirectives : List String :=
  ["model", "slot", "if", "show", "for", "on", "once", "memo"]

def isStructuralDirective (name : String) : Bool :=
  structuralDirectives.contains name

/-- The last segment of a dotted name. -/
def terminalSegment (name : String) : String :=
  String.ofList (name.toList.reverse.takeWhile (· != '.')).reverse

/-- Whether a name itself is in the list of calls that are left alone. -/
def lists (e : Exclusion) (name : String) : Bool :=
  defaultCalls.contains name || e.extraCalls.contains name || e.translateKey == name

/-- A call is excluded by its full name or by its last segment. -/
def isExcludedCall (e : Exclusion) (name : String) : Bool :=
  e.lists name || e.lists (terminalSegment name)

/-- Whether a literal is left alone, given the innermost call around it. -/
def isExcluded (e : Exclusion) (position : LiteralPosition) (call : Option String) : Bool :=
  match position with
  | .value => call.any e.isExcludedCall
  | _ => true

/-- Whether a call looks a text up. A dotted lookup function has to be named in full;
any other is recognised by the last segment. -/
def isLookupCall (e : Exclusion) (name : String) : Bool :=
  if e.translateKey.toList.contains '.' then name == e.translateKey
  else terminalSegment name == e.translateKey

end Exclusion

end TextHarvest
