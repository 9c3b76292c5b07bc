import TextHarvest.Harvest.Import
import TextHarvest.Harvest.Walk
import TextHarvest.Issue
import TextHarvest.Script.Program

/-!
# Harvesting scripts

A script is parsed and walked over, and gets the import that its new calls need. An expression of a
template is harvested the same way without an import.
-/

namespace TextHarvest

/-- The harvest of a script, with the name that could not be imported, if there is one. -/
structure ScriptHarvest where
  harvest : Harvest
  conflict : Option Harvest.Conflict := none

namespace Harvester

open Harvest

/-- The names that the calls put into a script need. -/
def neededNames (h : Harvester) (usesWrapper : Bool) : List String :=
  h.options.translateKey :: if usesWrapper then [h.options.jsxElement] else []

/-- Whether an import is to be added for a harvest. -/
def wantsImport (h : Harvester) (harvest : Harvest) : Bool :=
  h.options.replaceTexts && h.options.autoImport && !harvest.catalog.isEmpty

/-- Adds the import that a harvested script needs. -/
def addImport (h : Harvester) (script : Script.Tree) (source : List Char) (harvest : Harvest) :
    ScriptHarvest :=
  match planImport script source (h.neededNames harvest.usesWrapper) h.options.importPath with
  | .ok (some e) => { harvest := { harvest with patch := harvest.patch.replace e.span e.text } }
  | .ok none => { harvest }
  | .error c => { harvest, conflict := some c }

/-- Harvests a script; an import is added only when asked for. -/
def harvestScript (h : Harvester) (code : String) (dialect : Script.Dialect) (inject : Bool) :
    Except Script.ParseError ScriptHarvest :=
  (Script.parseModule code dialect).map fun script =>
    let source := code.toList
    let harvest := Harvest.ofActions (walk { harvester := h, source, quote := .double } .plain script)
    if inject && h.wantsImport harvest then h.addImport script source harvest else { harvest }

/-- Harvests an expression. -/
def harvestExpr (h : Harvester) (code : String) (quote : Quote) :
    Except Script.ParseError Harvest :=
  (Script.parseExpr code).map fun e =>
    Harvest.ofActions (walk { harvester := h, source := code.toList, quote } .plain e)

/-! ## Where the program stops -/

/-- The harvest of a script, unless the program stops in it. -/
def harvestScript? (h : Harvester) (code : String) (dialect : Script.Dialect) (inject : Bool) :
    Option (Except Script.ParseError ScriptHarvest) :=
  match Script.parseModule code dialect with
  | .error e => some (.error e)
  | .ok script =>
    if stops { harvester := h, source := code.toList, quote := .double } .plain script then none
    else some (h.harvestScript code dialect inject)

/-- The harvest of an expression, unless the program stops in it. -/
def harvestExpr? (h : Harvester) (code : String) (quote : Quote) :
    Option (Except Script.ParseError Harvest) :=
  match Script.parseExpr code with
  | .error e => some (.error e)
  | .ok e =>
    if stops { harvester := h, source := code.toList, quote } .plain e then none
    else some (h.harvestExpr code quote)

end Harvester

namespace ScriptHarvest

/-- The issues of a harvested script. -/
def issues (s : ScriptHarvest) (file : String) : List Issue :=
  match s.conflict with
  | some c => [.conflict file c.name c.binding]
  | none => []

end ScriptHarvest

end TextHarvest
