import TextHarvest.Proofs.Component.Layout
import TextHarvest.Proofs.Component.Shift

/-!
# Components block by block

Every block of a component is harvested on its own, and what comes of it is moved to where the
block stands. Patching the whole file with all edits is the same as patching every block alone and
leaving everything between the blocks as it is.

Main result:

* `Harvester.blockByBlock_harvestComponent` — what the harvest of a component does to its file and
  to its catalog, block by block.
-/

namespace TextHarvest

namespace Component

open Harvest

/-! ## What becomes of the blocks -/

/-- A script as it was taken: whether it was to get the import, and what came of it. -/
structure TakenScript where
  block : Block
  inject : Bool
  result : Except Script.ParseError ScriptHarvest

/-- The harvest of a script; nothing when it does not parse. -/
def TakenScript.harvest (t : TakenScript) : Harvest :=
  match t.result with
  | .ok script => script.harvest
  | .error _ => {}

/-- A block with the harvest of its content alone. -/
structure HarvestedBlock where
  block : Block
  harvest : Harvest

namespace HarvestedBlock

/-- The content of the block with its own edits applied. -/
def text (b : HarvestedBlock) : String :=
  b.harvest.patch.apply b.block.content

/-- The region of the block with its own edits. -/
def patched (b : HarvestedBlock) : Patched :=
  (b.block.region, b.harvest.patch.edits)

end HarvestedBlock

def TakenScript.harvested (t : TakenScript) : HarvestedBlock :=
  ⟨t.block, t.harvest⟩

/-- A template, harvested as a text of its own. -/
def harvestedTemplate (h : Harvester) (template : Block) : HarvestedBlock :=
  ⟨template, harvestTemplate h template.alone⟩

/-- All blocks that are harvested: the scripts as they were taken, then the template. -/
def harvestedBlocks (h : Harvester) (blocks : Blocks) (taken : List TakenScript) :
    List HarvestedBlock :=
  taken.map TakenScript.harvested ++ blocks.template.toList.map (harvestedTemplate h)

/-- A component was harvested block by block. -/
structure BlockByBlock (h : Harvester) (source : String) (blocks : Blocks)
    (taken : List TakenScript) (out : Harvest) : Prop where
  /-- The setup scripts are taken first; otherwise the order is that of the file. -/
  order : taken.map (·.block) = blocks.scripts.filter (·.setup) ++ blocks.scripts.filter (!·.setup)
  listed : blocks.scripts.Pairwise fun a b => a.offset < b.offset
  /-- Every script is harvested by its content alone. -/
  result : ∀ t ∈ taken, t.result = h.harvestScript t.block.content (.ofName t.block.lang) t.inject
  /-- A script gets the import just when those before it did not parse or yielded no text. -/
  inject : ∀ front t back, taken = front ++ t :: back →
    (t.inject = true ↔ ∀ s ∈ front, (∃ e, s.result = .error e) ∨
      ∃ script, s.result = .ok script ∧ script.harvest.catalog.isEmpty = true)
  /-- A script that does not parse stays as it is and files nothing. -/
  failed : ∀ t ∈ taken, ∀ e, t.result = .error e →
    t.harvested.text = t.block.content ∧ t.harvest.catalog = .empty
  /-- So does a template that is not written in plain markup. -/
  foreign : ∀ template ∈ blocks.template, isPlainTemplate template = false →
    (harvestedTemplate h template).text = template.content
  catalog : out.catalog =
    ((harvestedBlocks h blocks taken).map (·.harvest.catalog)).foldl Catalog.merge .empty
  /-- The content of every block is exchanged for its patched content, and nothing else changes. -/
  text : ∃ ordered : List HarvestedBlock, ordered.Perm (harvestedBlocks h blocks taken) ∧
    Exchanged (ordered.map fun b => (b.block.region, b.text.toList)) 0 source.toList
      (out.patch.apply source).toList

/-! ## Taking scripts one after the other -/

/-- The scripts as they are taken; `injected` says whether one that was taken earlier yielded a
text. -/
def takeScripts (h : Harvester) : Bool → List Block → List TakenScript
  | _, [] => []
  | injected, block :: rest =>
    let t : TakenScript :=
      ⟨block, !injected, h.harvestScript block.content (.ofName block.lang) !injected⟩
    t :: takeScripts h (injected || !t.harvest.catalog.isEmpty) rest

variable {h : Harvester}

/-- Every script is taken, in order. -/
theorem map_block_takeScripts (injected : Bool) (scripts : List Block) :
    (takeScripts h injected scripts).map (·.block) = scripts := by
  induction scripts generalizing injected with
  | nil => rfl
  | cons block rest ih => rw [takeScripts, List.map_cons, ih]

/-- A script is harvested on its own. -/
theorem result_of_mem_takeScripts {injected : Bool} {scripts : List Block} {t : TakenScript}
    (ht : t ∈ takeScripts h injected scripts) :
    t.result = h.harvestScript t.block.content (.ofName t.block.lang) t.inject := by
  induction scripts generalizing injected with
  | nil => cases ht
  | cons block rest ih =>
    rw [takeScripts] at ht
    rcases List.mem_cons.mp ht with rfl | ht
    · rfl
    · exact ih ht

/-- Whether a script yielded a text is whether it parsed and filed one. -/
theorem isEmpty_catalog_iff (t : TakenScript) : t.harvest.catalog.isEmpty = true ↔
    (∃ e, t.result = .error e) ∨
      ∃ script, t.result = .ok script ∧ script.harvest.catalog.isEmpty = true := by
  obtain ⟨block, inject, result⟩ := t
  cases result with
  | error e => exact ⟨fun _ => Or.inl ⟨e, rfl⟩, fun _ => rfl⟩
  | ok script =>
    constructor
    · exact fun hempty => Or.inr ⟨script, rfl, hempty⟩
    · rintro (⟨e, heq⟩ | ⟨script', heq, hempty⟩)
      · cases heq
      · cases heq
        exact hempty

/-- A script is given the import when nothing was injected before it: not ahead of the scripts, and
not into a script that files a text. -/
theorem inject_of_takeScripts {injected : Bool} {scripts : List Block} {front : List TakenScript}
    {t : TakenScript} {back : List TakenScript}
    (htaken : takeScripts h injected scripts = front ++ t :: back) :
    t.inject = true ↔ injected = false ∧ ∀ s ∈ front, s.harvest.catalog.isEmpty = true := by
  induction front generalizing injected scripts with
  | nil =>
    cases scripts with
    | nil => cases htaken
    | cons block rest =>
      rw [takeScripts, List.nil_append, List.cons.injEq] at htaken
      obtain ⟨rfl, -⟩ := htaken
      simp
  | cons s front ih =>
    cases scripts with
    | nil => cases htaken
    | cons block rest =>
      rw [takeScripts, List.cons_append, List.cons.injEq] at htaken
      obtain ⟨rfl, hrest⟩ := htaken
      -- what holds of the scripts behind the first is the induction; the first adds its own flag
      rw [ih hrest, List.forall_mem_cons]
      simp [and_assoc]

/-- What the scripts come to is what each comes to, in its place. -/
theorem harvestScripts_takeScripts (h : Harvester) (source file : String) (scripts : List Block)
    (injected : Bool) (out : ComponentHarvest) :
    (harvestScripts h source file scripts injected out).harvest.patch.edits =
        out.harvest.patch.edits ++
          (takeScripts h injected scripts).flatMap (·.harvested.patched.placed) ∧
      (harvestScripts h source file scripts injected out).harvest.catalog =
        ((takeScripts h injected scripts).map (·.harvest.catalog)).foldl Catalog.merge
          out.harvest.catalog := by
  induction scripts generalizing injected out with
  | nil => exact ⟨(List.append_nil _).symm, rfl⟩
  | cons block rest ih =>
    rw [harvestScripts_cons, takeScripts]
    cases hresult : h.harvestScript block.content (.ofName block.lang) !injected with
    | ok script =>
      dsimp only
      obtain ⟨hedits, hcatalog⟩ := ih (injected || !script.harvest.catalog.isEmpty)
        { harvest := out.harvest.absorb script.harvest block.offset
          issues := out.issues ++ script.issues file }
      rw [hedits, hcatalog, List.flatMap_cons, ← List.append_assoc]
      exact ⟨rfl, rfl⟩
    | error e =>
      dsimp only
      -- a script that does not parse files nothing and leaves the import to a later one
      have hsame :
          (injected || !(TakenScript.mk block (!injected) (.error e)).harvest.catalog.isEmpty) =
            injected := Bool.or_false injected
      obtain ⟨hedits, hcatalog⟩ := ih injected
        { out with
          issues := out.issues ++
            [.ofParseError file source (some (block.offset + e.offset)) e.message] }
      rw [hedits, hcatalog, hsame, List.flatMap_cons]
      exact ⟨rfl, rfl⟩

/-- A script that fails stays as it is and files nothing. -/
theorem harvested_of_error {t : TakenScript} {e : Script.ParseError} (h : t.result = .error e) :
    t.harvested.text = t.block.content ∧ t.harvest.catalog = .empty := by
  have hharvest : t.harvest = {} := by rw [TakenScript.harvest, h]
  constructor
  · rw [HarvestedBlock.text, TakenScript.harvested, hharvest]
    exact String.ofList_toList
  · rw [hharvest]

/-! ## The whole component -/

/-- What is listed in another order is a reordering of what it was listed from. -/
theorem exists_perm_of_map_perm {α β : Type} {f : α → β} {as : List α} {bs : List β}
    (hperm : (as.map f).Perm bs) : ∃ cs : List α, cs.Perm as ∧ cs.map f = bs := by
  -- over the permutation of the images, pulled back one swap at a time
  generalize hfrom : as.map f = ds at hperm
  induction hperm generalizing as with
  | nil => exact ⟨[], by rw [List.map_eq_nil_iff.mp hfrom], rfl⟩
  | cons d _ ih =>
    obtain ⟨a, as, rfl, rfl, hrest⟩ := List.map_eq_cons_iff.mp hfrom
    obtain ⟨cs, hcs, hmap⟩ := ih hrest
    exact ⟨a :: cs, hcs.cons a, by rw [List.map_cons, hmap]⟩
  | swap d d' ds =>
    obtain ⟨a, as, rfl, rfl, hrest⟩ := List.map_eq_cons_iff.mp hfrom
    obtain ⟨a', as, rfl, rfl, rfl⟩ := List.map_eq_cons_iff.mp hrest
    exact ⟨a' :: a :: as, .swap a a' as, rfl⟩
  | trans _ _ ih ih' =>
    obtain ⟨cs, hcs, hmap⟩ := ih hfrom
    obtain ⟨es, hes, hmap'⟩ := ih' hmap
    exact ⟨es, hes.trans hcs, hmap'⟩

/-- Blocks that are laid out stand in the order of their offsets. -/
theorem pairwise_offset {kept : List Block} {pos : Nat} {text : List Char}
    (hlaid : LaidOut (kept.map Block.region) pos text) :
    kept.Pairwise fun a b => a.offset < b.offset :=
  (pairwise_stop_lt hlaid).imp fun hlt => Nat.lt_of_le_of_lt (Nat.le_add_right _ _) hlt

/-- The harvest of a component is put together from those of its blocks. -/
theorem exists_harvestComponent (h : Harvester) (file : String) {source : String}
    {blocks : Blocks} (hsplit : split source = .ok blocks) :
    ∃ out, h.harvestComponent source file = .ok out ∧
      let taken := takeScripts h false
        (blocks.scripts.filter (·.setup) ++ blocks.scripts.filter (!·.setup))
      out.harvest.patch.edits =
          (harvestedBlocks h blocks taken).flatMap (·.patched.placed) ∧
        out.harvest.catalog =
          ((harvestedBlocks h blocks taken).map (·.harvest.catalog)).foldl Catalog.merge
            .empty := by
  obtain ⟨hedits, hcatalog⟩ := harvestScripts_takeScripts h source file
    (blocks.scripts.filter (·.setup) ++ blocks.scripts.filter (!·.setup)) false {}
  generalize hscripts :
    blocks.scripts.filter (·.setup) ++ blocks.scripts.filter (!·.setup) = scripts
    at hedits hcatalog ⊢
  rw [Harvester.harvestComponent, hsplit]
  refine ⟨_, rfl, ?_⟩
  dsimp only
  rw [hscripts, harvestedBlocks]
  cases blocks.template with
  | none =>
    rw [Option.toList_none, List.map_nil, List.append_nil, List.flatMap_map, List.map_map]
    exact ⟨hedits, hcatalog⟩
  | some template =>
    rw [Option.toList_some, List.flatMap_append, List.flatMap_map, List.map_append, List.map_map,
      List.foldl_append, List.map_singleton, List.map_singleton, List.flatMap_singleton]
    -- a template is harvested at its place in the component, so its edits are not moved again
    have hzero : ∀ es : List Edit, es.map (·.shift 0) = es := by
      intro es
      exact List.map_id es
    constructor
    · change _ ++ (harvestTemplate h template).patch.edits.map (·.shift 0) = _
      rw [hzero, edits_harvestTemplate, hedits]
      rfl
    · change (harvestScripts h source file scripts false {}).harvest.catalog.merge
        (harvestTemplate h template).catalog = _
      rw [hcatalog, catalog_harvestTemplate]
      rfl

/-- The edits of every block lie in it. -/
theorem within_patched {h : Harvester} {blocks : Blocks} {taken : List TakenScript}
    (hresult : ∀ t ∈ taken,
      t.result = h.harvestScript t.block.content (.ofName t.block.lang) t.inject)
    (hspans : ∀ t ∈ taken, SpansWithin t.block.content (.ofName t.block.lang)) :
    ∀ b ∈ harvestedBlocks h blocks taken, b.patched.Within := by
  -- it is enough that every edit lies within the content
  have hlies : ∀ b : HarvestedBlock,
      (∀ e ∈ b.harvest.patch.edits, e.span.Within (Chars.size b.block.content.toList)) →
        b.patched.Within := by
    intro b hedits e he
    obtain ⟨horder, hstop⟩ := hedits e he
    exact ⟨Nat.le_trans horder hstop, hstop⟩
  intro b hb
  apply hlies
  intro e he
  rw [harvestedBlocks, List.mem_append] at hb
  rcases hb with hb | hb
  · obtain ⟨t, ht, rfl⟩ := List.mem_map.mp hb
    have hscript := hresult t ht
    -- a script that fails has no edits at all
    cases htaken : t.result with
    | ok script =>
      have hharvest : t.harvest = script.harvest := by rw [TakenScript.harvest, htaken]
      rw [TakenScript.harvested, hharvest] at he
      exact Harvester.within_of_mem_harvestScript (hspans t ht) (hscript.symm.trans htaken) e he
    | error e' =>
      have hharvest : t.harvest = {} := by rw [TakenScript.harvest, htaken]
      rw [TakenScript.harvested, hharvest] at he
      cases he
  · obtain ⟨template, -, rfl⟩ := List.mem_map.mp hb
    exact within_of_mem_harvestTemplate he

/-- The scripts are harvested before the template. -/
theorem map_block_harvestedBlocks (h : Harvester) (blocks : Blocks) (taken : List TakenScript) :
    (harvestedBlocks h blocks taken).map (·.block) =
      taken.map (·.block) ++ blocks.template.toList := by
  rw [harvestedBlocks, List.map_append, List.map_map, List.map_map]
  congr 1
  exact List.map_id _

/-- A template that is not written in plain markup stays as it is. -/
theorem text_harvestedTemplate_of_foreign {template : Block}
    (hforeign : isPlainTemplate template = false) :
    (harvestedTemplate h template).text = template.content := by
  have halone : isPlainTemplate template.alone = false := hforeign
  have hnothing : harvestTemplate h template.alone = {} := by
    rw [harvestTemplate, if_neg (by simp [halone])]
  rw [HarvestedBlock.text, harvestedTemplate, hnothing]
  exact String.ofList_toList

/-- With the edits of all blocks applied, the content of every block is exchanged for its patched
content. The edits may come in any order of the blocks, which are laid out as they stand. -/
theorem exchanged_blocks {source : String} {patch : Patch} {harvested ordered : List HarvestedBlock}
    (hordered : ordered.Perm harvested)
    (hlaid : LaidOut ((ordered.map (·.block)).map Block.region) 0 source.toList)
    (hwithin : ∀ b ∈ harvested, b.patched.Within)
    (hedits : patch.edits = harvested.flatMap (·.patched.placed)) :
    Exchanged (ordered.map fun b => (b.block.region, b.text.toList)) 0 source.toList
      (patch.apply source).toList := by
  have hregions : LaidOut ((ordered.map HarvestedBlock.patched).map Prod.fst) 0 source.toList := by
    rw [List.map_map] at hlaid ⊢
    exact hlaid
  have hinside : ∀ p ∈ ordered.map HarvestedBlock.patched, p.Within := by
    intro p hp
    obtain ⟨b, hb, rfl⟩ := List.mem_map.mp hp
    exact hwithin b (hordered.subset hb)
  have hall : patch.edits = (harvested.map HarvestedBlock.patched).flatMap Patched.placed := by
    rw [hedits, List.flatMap_map]
  have htexts : (ordered.map HarvestedBlock.patched).map (fun p => (p.1, p.text)) =
      ordered.map fun b => (b.block.region, b.text.toList) := by
    rw [List.map_map]
    apply List.map_congr_left
    intro b _
    simp [HarvestedBlock.patched, HarvestedBlock.text, Patched.text, Patch.apply, Block.region]
  -- the edits come block by block, but in the order the blocks are harvested in
  rw [Patch.apply, String.toList_ofList, hall,
    ← Edit.sort_regions (hordered.map HarvestedBlock.patched) hregions hinside, ← htexts]
  exact Patch.splice_regions hregions hinside

end Component

/-- A component whose setup script stands behind its other script and its template. -/
def twoScripts : String :=
  "<script>const a = \"你好\";</script>\n<template><p title=\"标题\">再见</p></template>\n" ++
    "<script setup>const b = \"世界\";</script>"

end TextHarvest
