import TextHarvest.Proofs.Except
import TextHarvest.Proofs.FileOutcome
import TextHarvest.Proofs.Harvest.Moved

/-!
# A byte-order mark in front of a script

A script is parsed without the byte-order mark that may stand in front of it, so the ranges of its
tree do not count the mark; but they are looked up and edited in the text with the mark. Had the
ranges been moved by the three bytes of the mark, the mark would make no difference.

Main results:

* `Harvester.rewritingBy_shift` — with a moved tree, a script is rewritten as without the mark.
* `Harvester.keepsMark_iff` — a mark makes no difference just when it makes none whether the tree is
  moved or not.
-/

namespace TextHarvest

namespace Harvest

/-! ## What moved actions come to -/

/-- The edits of moved actions are moved. -/
theorem edits_shift (k : Nat) (actions : List Action) :
    edits (actions.map (Action.shift k)) = (edits actions).map (·.shift k) := by
  rw [edits, edits, List.filterMap_map, List.map_filterMap]
  congr 1
  funext a
  cases a <;> rfl

/-- Their entries are the same. -/
theorem entries_shift (k : Nat) (actions : List Action) :
    entries (actions.map (Action.shift k)) = entries actions := by
  rw [entries, entries, List.filterMap_map]
  congr 1
  funext a
  cases a <;> rfl

/-- And so are their findings. -/
theorem records_shift (k : Nat) (actions : List Action) :
    records (actions.map (Action.shift k)) = records actions := by
  rw [records, records, List.filterMap_map]
  congr 1
  funext a
  cases a <;> rfl

end Harvest

/-- A text with a mark in front. -/
def withMark (code : String) : String :=
  String.ofList [mark] ++ code

@[simp] theorem toList_withMark (code : String) : (withMark code).toList = mark :: code.toList := by
  rw [withMark, String.toList_append, String.toList_ofList]
  rfl

namespace Patch

/-- Moved edits do the same to a text that starts later. -/
theorem splice_shift (k : Nat) (es : List Edit) (cursor : Nat) (rest : List Char) :
    splice (es.map (·.shift k)) (cursor + k) rest = splice es cursor rest := by
  induction es generalizing cursor rest with
  | nil => rfl
  | cons e es ih =>
    have hstart : (e.shift k).span.start = e.span.start + k := rfl
    have hstop : (e.shift k).span.stop = e.span.stop + k := rfl
    have htext : (e.shift k).text = e.text := rfl
    have hfront : e.span.start + k - (cursor + k) = e.span.start - cursor := by omega
    have hlength : e.span.stop + k - (e.span.start + k) = e.span.stop - e.span.start := by omega
    rw [List.map_cons, splice, splice, hstart, hstop, htext, hfront, hlength]
    simp only [ih, Nat.add_le_add_iff_right]

/-- Moved edits leave a mark alone. -/
theorem apply_withMark (es : List Edit) (code : String) :
    (Patch.mk (es.map (·.shift 3))).apply (withMark code) =
      withMark ((Patch.mk es).apply code) := by
  have hskip : splice ((Edit.sort es).map (·.shift 3)) 0 ([mark] ++ code.toList) =
      [mark] ++ splice ((Edit.sort es).map (·.shift 3)) (0 + Chars.size [mark]) code.toList := by
    apply splice_skip
    intro e he
    obtain ⟨e', -, rfl⟩ := List.mem_map.mp he
    exact Nat.le_add_left 3 e'.span.start
  apply String.toList_inj.mp
  rw [toList_withMark, apply, apply, String.toList_ofList, String.toList_ofList, toList_withMark,
    Edit.sort_shift]
  exact hskip.trans (congrArg (mark :: ·) (splice_shift 3 (Edit.sort es) 0 code.toList))

end Patch

/-! ## Scripts with a mark -/

open Harvest

/-- What a script is rewritten to. -/
structure Rewriting where
  catalog : Catalog
  findings : List Finding
  text : String

namespace Rewriting

/-- The same with a mark in front of the new text. -/
def marked (r : Rewriting) : Rewriting :=
  { r with text := withMark r.text }

/-- Two outcomes are equal when their entries, findings and texts are. -/
theorem ext_iff_entries {r s : Rewriting} : r = s ↔ r.catalog.entries = s.catalog.entries ∧
    r.findings = s.findings ∧ r.text = s.text := by
  constructor
  · rintro rfl
    exact ⟨rfl, rfl, rfl⟩
  · obtain ⟨c, fs, text⟩ := r
    obtain ⟨d, gs, text'⟩ := s
    rintro ⟨hcatalog, hfindings, htext⟩
    cases Catalog.ext_entries hcatalog
    cases hfindings
    cases htext
    rfl

instance : DecidableEq Rewriting :=
  fun _ _ => decidable_of_iff _ ext_iff_entries.symm

end Rewriting

namespace Harvester

/-- What a script is rewritten to when the given tree is taken for its own. -/
def rewritingBy (h : Harvester) (code : String) (t : Script.Tree) : Rewriting :=
  let actions := walk { harvester := h, source := code.toList, quote := .double } .plain t
  ⟨.ofList (entries actions), records actions, (Patch.mk (edits actions)).apply code⟩

/-- What a file is rewritten to. -/
def rewriting (h : Harvester) (code path : String) : Rewriting :=
  let out := h.harvestFile code path
  ⟨out.catalog, out.findings, out.code.getD code⟩

/-- With its tree moved by the size of the mark, a script with a mark is rewritten as without. -/
theorem rewritingBy_shift (h : Harvester) (code : String) (t : Script.Tree) :
    h.rewritingBy (withMark code) (t.shift 3) = (h.rewritingBy code t).marked := by
  have hwalk : walk { harvester := h, source := (withMark code).toList, quote := .double } .plain
      (t.shift 3) = (walk { harvester := h, source := code.toList, quote := .double } .plain
        t).map (Action.shift 3) := by
    rw [toList_withMark]
    exact walk_shift { harvester := h, source := code.toList, quote := .double } .plain t
  simp only [rewritingBy, hwalk, entries_shift, records_shift, edits_shift,
    Patch.apply_withMark]
  rfl

/-- What is written is the patched text. -/
theorem getD_changedCode {h : Harvester} (hemits : h.emitsCode = true) (code : String)
    (patch : Patch) : (h.changedCode code patch).getD code = patch.apply code := by
  cases hchanged : h.changedCode code patch with
  | some c => exact (changedCode_eq_some hchanged).2.symm
  | none =>
    rcases (changedCode_eq_none_iff hemits).mp hchanged with hnil | hsame
    · rw [Patch.apply, hnil]
      exact String.ofList_toList.symm
    · exact hsame.symm

/-- Without an import, the tree of a script says all about what it is rewritten to. -/
theorem rewriting_eq {h : Harvester} {code path : String} {t : Script.Tree}
    (hemits : h.emitsCode = true) (hauto : h.options.autoImport = false)
    (hpath : isComponentPath path = false)
    (hparse : Script.parseModule code (.ofName (Path.extension? path)) = .ok t) :
    h.rewriting code path = h.rewritingBy code t := by
  have hnone (harvest : Harvest) : h.wantsImport harvest = false := by
    simp [wantsImport, hauto]
  simp only [rewriting, harvestFile, hpath, harvestScript, hparse, Except.map, hnone,
    Bool.and_false, Bool.false_eq_true, if_false, finish, getD_changedCode hemits]
  rfl

end Harvester

namespace Script

/-- A script is parsed without the mark in front of it. -/
theorem parseModule_withMark {code : String} (hcode : code.toList.head? ≠ some mark)
    (dialect : Dialect) : parseModule (withMark code) dialect = parseModule code dialect := by
  have hdrop : dropMark code.toList = code.toList := dropMark_of_head?_ne hcode
  have hmark : dropMark (withMark code).toList = code.toList := by
    rw [toList_withMark]
    rfl
  unfold parseModule
  rw [hdrop, hmark]

end Script

namespace Harvester

/-- A mark in front of a script makes no difference to what is rewritten. -/
def KeepsMark (h : Harvester) (code path : String) : Prop :=
  h.rewriting (withMark code) path = (h.rewriting code path).marked

instance (h : Harvester) (code path : String) : Decidable (h.KeepsMark code path) :=
  inferInstanceAs (Decidable (_ = _))

/-- A mark makes no difference just when it makes none whether the tree of the script is moved by
its three bytes, as it should be, or not. -/
theorem keepsMark_iff {h : Harvester} {code path : String} {t : Script.Tree}
    (hemits : h.emitsCode = true) (hauto : h.options.autoImport = false)
    (hpath : isComponentPath path = false) (hcode : code.toList.head? ≠ some mark)
    (hparse : Script.parseModule code (.ofName (Path.extension? path)) = .ok t) :
    h.KeepsMark code path ↔
      h.rewritingBy (withMark code) t = h.rewritingBy (withMark code) (t.shift 3) := by
  have hmarked : Script.parseModule (withMark code) (.ofName (Path.extension? path)) = .ok t := by
    rw [Script.parseModule_withMark hcode, hparse]
  rw [KeepsMark, rewriting_eq hemits hauto hpath hmarked, rewriting_eq hemits hauto hpath hparse,
    rewritingBy_shift]

/-- The call is put three bytes too early, over the end of the declaration and half of the text. -/
theorem keepsMark_iff_literal : ∃ h t,
    ofOptions { replaceTexts := true, autoImport := false } = .ok h ∧
      Script.parseModule "const a = \"你ab\";" (.ofName (Path.extension? "a.js")) = .ok t ∧
        (h.KeepsMark "const a = \"你ab\";" "a.js" ↔
          h.rewritingBy (withMark "const a = \"你ab\";") t =
            h.rewritingBy (withMark "const a = \"你ab\";") (t.shift 3)) ∧
        (h.rewritingBy (withMark "const a = \"你ab\";") t).text =
          withMark "const a$t(\"3ilpt2\")ab\";" ∧
        (h.rewritingBy (withMark "const a = \"你ab\";") (t.shift 3)).text =
          withMark "const a = $t(\"3ilpt2\");" := by
  -- cut at the positions of the text without the mark, the call lands three bytes too early
  have heval : (ofOptions { replaceTexts := true, autoImport := false }).toOption.map (fun h =>
      (Script.parseModule "const a = \"你ab\";" (.ofName (Path.extension? "a.js"))).toOption.map
        fun t => decide (h.emitsCode = true ∧ h.options.autoImport = false ∧
          (h.rewritingBy (withMark "const a = \"你ab\";") t).text =
            withMark "const a$t(\"3ilpt2\")ab\";" ∧
          (h.rewritingBy (withMark "const a = \"你ab\";") (t.shift 3)).text =
            withMark "const a = $t(\"3ilpt2\");")) = some (some true) := by
    decide +kernel
  obtain ⟨h, hh, hparsed⟩ := exists_ok_of_toOption_map heval
  obtain ⟨t, hparse, htexts⟩ := exists_ok_of_toOption_map hparsed
  obtain ⟨hemits, hauto, hwrong, hright⟩ := of_decide_eq_true htexts
  exact ⟨h, t, hh, hparse,
    keepsMark_iff hemits hauto (by decide +kernel) (by decide +kernel) hparse, hwrong, hright⟩

/-- The mark moves the change of a literal away from the literal. -/
theorem not_keepsMark_literal : ∃ h,
    ofOptions { replaceTexts := true, autoImport := false } = .ok h ∧
      ¬h.KeepsMark "const a = \"你ab\";" "a.js" := by
  have heval : (ofOptions { replaceTexts := true, autoImport := false }).toOption.map (fun h =>
      decide (h.KeepsMark "const a = \"你ab\";" "a.js")) = some false := by
    decide +kernel
  obtain ⟨h, hh, hfalse⟩ := exists_ok_of_toOption_map heval
  exact ⟨h, hh, of_decide_eq_false hfalse⟩

end Harvester

end TextHarvest
