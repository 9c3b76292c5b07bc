import TextHarvest.Catalog
import TextHarvest.Patch

/-!
# Findings

What a harvest of one text comes to: the edits of the source, the catalog of the texts that were
found, and a record of each finding. A harvest is put together from actions, in the order in which
a walk over the source takes them.
-/

namespace TextHarvest

/-- The kind of place where a text was found. -/
inductive Surface where
  | stringLiteral
  | templateSegment
  | markupText
  | markupInterpolation
  | markupAttribute
  | lookupArgument
  | elementText
  | wrapperElement
  deriving DecidableEq, Repr

/-- A text about which a decision was made. A dynamic one has substitutions and stays as it is. -/
structure Finding where
  text : String
  surface : Surface
  dynamic : Bool := false
  deriving DecidableEq, Repr

/-- One thing done on the way. -/
inductive Action where
  /-- Replaces a range of the source. -/
  | edit (e : Edit)
  /-- Files a text under a key. -/
  | file (key text : String)
  /-- Records a finding. -/
  | record (finding : Finding)
  /-- Notes that the wrapper element is used. -/
  | useWrapper
  deriving DecidableEq, Repr

namespace Action

/-- The replacement of a range. -/
def replace (span : Span) (text : String) : Action :=
  .edit ⟨span, text⟩

/-- An insertion. -/
def insert (offset : Nat) (text : String) : Action :=
  .edit ⟨Span.point offset, text⟩

end Action

/-- Edits, texts and findings of a source. -/
structure Harvest where
  patch : Patch := .empty
  catalog : Catalog := .empty
  findings : List Finding := []
  usesWrapper : Bool := false
  deriving Inhabited

namespace Harvest

/-- The edits among some actions. -/
def edits (actions : List Action) : List Edit :=
  actions.filterMap fun
    | .edit e => some e
    | _ => none

/-- The entries that some actions file. -/
def entries (actions : List Action) : List (String × String) :=
  actions.filterMap fun
    | .file key text => some (key, text)
    | _ => none

/-- The findings that some actions record. -/
def records (actions : List Action) : List Finding :=
  actions.filterMap fun
    | .record f => some f
    | _ => none

/-- What a list of actions comes to. -/
def ofActions (actions : List Action) : Harvest where
  patch := ⟨edits actions⟩
  catalog := .ofList (entries actions)
  findings := records actions
  usesWrapper := actions.contains .useWrapper

end Harvest

end TextHarvest
