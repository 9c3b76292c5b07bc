import TextHarvest.FileOutcome

/-!
# The new text of a file

The text that the harvest of a file hands out is what the changes to the file make of it, and it is
handed out just when code is asked for and the changes come to something.

Main results:

* `Harvester.made_of_ofOptions` — what the options of a project give its harvester.
* `Harvester.code_harvestFile` — the new text of a file comes from its patch.
* `Harvester.changedCode_eq_none_iff` — when there is no new text.
-/

namespace TextHarvest.Harvester

variable {h : Harvester}

/-! ## The harvester of a project -/

/-- What a harvester has from the options of a project: the calls that it leaves alone and the name
that it writes are those of the options, and it knows no catalog yet. -/
structure Made (o : Options) (h : Harvester) : Prop where
  options : h.options = o
  exclusion : h.exclusion = ⟨o.excludedCalls, o.translateKey⟩
  makeKey : h.makeKey = fun text => Key.ofText text o.keyLength
  known : h.known = .empty
  emitsCode : h.emitsCode = o.replaceTexts

theorem made_of_ofOptions {o : Options} (hh : ofOptions o = .ok h) : Made o h := by
  rw [ofOptions] at hh
  cases hpatterns : Classifier.withPatterns o.langPatterns with
  | error bad =>
    rw [hpatterns] at hh
    cases hh
  | ok classifier =>
    rw [hpatterns] at hh
    cases hh
    exact ⟨rfl, rfl, rfl, rfl, rfl⟩

/-- Options without patterns of their own have a harvester. -/
theorem exists_ofOptions {o : Options} (hnone : o.langPatterns = []) : ∃ h, ofOptions o = .ok h := by
  rw [ofOptions, hnone]
  exact ⟨_, rfl⟩

/-- The name that a harvester looks out for is the one that it writes. -/
theorem Made.translateKey {o : Options} (hmade : Made o h) :
    h.exclusion.translateKey = h.options.translateKey := by
  rw [hmade.exclusion, hmade.options]

/-! ## What is handed out -/

/-- The changes to the file at a path. -/
def filePatch (h : Harvester) (code path : String) : Patch :=
  if isComponentPath path then
    match h.harvestComponent code path with
    | .ok out => out.harvest.patch
    | .error _ => .empty
  else
    match h.harvestScript code (.ofName (Path.extension? path)) true with
    | .ok script => script.harvest.patch
    | .error _ => .empty

/-- The new text of a file is what its changes make of it. -/
theorem code_harvestFile (h : Harvester) (code path : String) :
    (h.harvestFile code path).code = h.changedCode code (h.filePatch code path) := by
  have hempty : h.changedCode code .empty = none := by
    simp [changedCode, Patch.isEmpty, Patch.empty]
  rw [harvestFile, filePatch]
  split
  · cases h.harvestComponent code path with
    | ok out => rfl
    | error e => exact hempty.symm
  · cases h.harvestScript code (.ofName (Path.extension? path)) true with
    | ok script => rfl
    | error e => exact hempty.symm

/-- A new text is handed out only on demand, and it is the patched one. -/
theorem changedCode_eq_some {code c : String} {patch : Patch}
    (hcode : h.changedCode code patch = some c) : h.emitsCode = true ∧ patch.apply code = c := by
  rw [changedCode] at hcode
  split at hcode
  · rename_i hemits
    refine ⟨(Bool.and_eq_true_iff.mp hemits).1, ?_⟩
    dsimp only at hcode
    split at hcode
    · cases hcode
    · exact Option.some.inj hcode
  · cases hcode

theorem changedCode_eq_none_iff (hemits : h.emitsCode = true) {code : String} {patch : Patch} :
    h.changedCode code patch = none ↔ patch.edits = [] ∨ patch.apply code = code := by
  rw [changedCode, hemits, Bool.true_and, Patch.isEmpty]
  cases patch.edits with
  | nil => simp
  | cons e es =>
    rw [List.isEmpty_cons, Bool.not_false, if_pos rfl]
    by_cases hsame : patch.apply code = code
    · simp [hsame]
    · simp [hsame]

end TextHarvest.Harvester
