import Mathlib.Data.List.Induction
import TextHarvest.Proofs.Harvest.Bounds
import TextHarvest.Proofs.Harvest.Rereading

/-!
# Where the entries of a file come from

Texts are filed from many places of a file, and a later text of a key takes the place of an earlier
one. Whatever is left in the end has one of three origins: it was filed under the key that is made
for it, its key was known before, or an author gave it a key by hand, on a wrapper element. The other
way round, no text is recorded as taken without its key being filed.

Main results:

* `lastAttribute_eq_written?` — the attribute that counts is the last one of its name.
* `Harvester.entries_have_origin` — the origin of every entry, and the key of every finding.
-/

namespace TextHarvest

namespace Script.Tree

/-- Whether a part of an element is an attribute with a name. -/
def isAttributeNamed (name : String) : Tree → Bool
  | .node (.attribute (.plain n)) _ _ => n == name
  | _ => false

/-- The constant text of the last attribute with a name, as it is written on an element. -/
def written? (name : String) (parts : List Tree) : Option String :=
  (parts.filter (isAttributeNamed name)).getLast?.bind fun t => Harvest.Site.attributeText? t.children

end Script.Tree

namespace Harvest

open Script

/-- One more attribute behind the others counts when it has the name. -/
theorem lastAttribute_concat (name : String) (parts : List Tree) (t : Tree) :
    Site.lastAttribute name (parts ++ [t]) =
      if t.isAttributeNamed name then (Site.attributeText? t.children).map fun text => (text, t.span)
      else Site.lastAttribute name parts := by
  rw [Site.lastAttribute, List.foldl_append, List.foldl_cons, List.foldl_nil, ← Site.lastAttribute]
  obtain ⟨kind, span, children⟩ := t
  cases kind with
  | «attribute» attr =>
    cases attr with
    | plain n => rfl
    | _ => rfl
  | _ => rfl

/-- The attribute that counts is the last one of its name. -/
theorem lastAttribute_eq_written? (name : String) (parts : List Tree) :
    (Site.lastAttribute name parts).map Prod.fst = Tree.written? name parts := by
  -- attributes are read from left to right, so the induction adds them at the end
  induction parts using List.reverseRecOn with
  | nil => rfl
  | append_singleton parts t ih =>
    rw [lastAttribute_concat, Tree.written?, List.filter_append]
    by_cases hnamed : t.isAttributeNamed name = true
    · rw [if_pos hnamed, List.filter_cons_of_pos hnamed, List.filter_nil, List.getLast?_concat,
        Option.map_map]
      exact Option.map_id'
    · rw [if_neg hnamed, List.filter_cons_of_neg hnamed, List.filter_nil, List.append_nil]
      exact ih

/-- An element is the wrapper, and its author wrote an identifier and a message on it. -/
def IsLabelled (element : String) (t : Tree) (id message : String) : Prop :=
  ∃ place span parts, t = .node (.element (.plain element place)) span parts ∧
    Tree.written? "id" parts = some id ∧
    (Tree.written? "msg" parts).map Text.trim = some message

/-- What a place files is filed under its own key, under a key that is known, or under the
identifier that its author wrote on it. -/
theorem Files.origin {site : Site} {role : Role} {t : Tree} {k v : String}
    (hfiles : Files site role t k v) :
    k = site.harvester.keyFor v ∨ site.harvester.knownText k = some v ∨
      IsLabelled site.options.jsxElement t k v := by
  -- a key made from the text, a key that was known, or the message of a wrapper
  cases hfiles with
  | taken _ => exact Or.inl rfl
  | known _ _ hknown => exact Or.inr (Or.inl hknown)
  | @message _ place span parts _ hmessage =>
    obtain ⟨m, mspan, hmsg, rfl, -⟩ := message?_eq_some_iff.mp hmessage
    have hmsg' : Tree.written? "msg" parts = some m := by
      rw [← lastAttribute_eq_written?, hmsg]
      rfl
    rw [messageKey, lastAttribute_eq_written?]
    cases hid : Tree.written? "id" parts with
    | none => exact Or.inl rfl
    | some id => exact Or.inr (Or.inr ⟨place, span, parts, rfl, hid, by rw [hmsg']; rfl⟩)

end Harvest

open Harvest

namespace Harvester

/-- The author of a file wrote a key on a wrapper element with a message. -/
def HasLabelled (h : Harvester) (code path id message : String) : Prop :=
  ∃ s r p, PlaceOf h code path s r p ∧ IsLabelled h.options.jsxElement p id message

theorem harvester_of_placeOf {h : Harvester} {code path : String} {s : Site} {r : Role}
    {p : Script.Tree} (hplace : PlaceOf h code path s r p) : s.harvester = h := by
  obtain ⟨part, -, t, -, hreach⟩ := hplace
  rw [(sameGround_of_reaches hreach).harvester, Part.site_harvester]

/-- Every entry of a file is filed under the key of its text, or its key was known with this text,
or an author wrote the key on a wrapper element whose message is the text; and the key of every
finding that is no dynamic text is filed. -/
theorem entries_have_origin (h : Harvester) (code path : String) :
    (∀ k v, (k, v) ∈ (h.harvestFile code path).catalog.entries →
      k = h.keyFor v ∨ h.knownText k = some v ∨ h.HasLabelled code path k v) ∧
    ∀ f ∈ (h.harvestFile code path).findings, f.dynamic = false →
      h.keyFor f.text ∈ (h.harvestFile code path).catalog.keys := by
  constructor
  · intro k v hmem
    obtain ⟨⟨s, r, p, hplace, hfiles⟩, -⟩ :=
      get?_harvestFile_iff.mp (Catalog.get?_eq_some_iff_mem.mpr hmem)
    have horigin := hfiles.origin
    rw [Site.options, harvester_of_placeOf hplace] at horigin
    rcases horigin with hkey | hknown | hlabelled
    · exact Or.inl hkey
    · exact Or.inr (Or.inl hknown)
    · exact Or.inr (Or.inr ⟨s, r, p, hplace, hlabelled⟩)
  · intro f hf hstatic
    have hlists := h.lists_harvestFile code path
    obtain ⟨-, hmem⟩ := hlists.findings f hf hstatic
    -- a later text may have taken the place of this one, but its key is there
    obtain ⟨w, hw⟩ := Catalog.exists_get?_ofList hmem
    rw [← hlists.answers] at hw
    exact List.mem_map_of_mem (Catalog.get?_eq_some_iff_mem.mp hw)

/-- The identifier that an author wrote on a wrapper element is neither made nor known. -/
theorem entries_have_origin_labelled : ∃ h, ofOptions {} = .ok h ∧
    ("greeting", "你好") ∈ (h.harvestFile
      "const a = <Trans id=\"greeting\" msg=\" 你好 \" />;" "a.tsx").catalog.entries ∧
    h.HasLabelled "const a = <Trans id=\"greeting\" msg=\" 你好 \" />;" "a.tsx" "greeting"
      "你好" := by
  have heval : (ofOptions {}).toOption.map (fun h =>
      (decide (("greeting", "你好") ∈ (h.harvestFile
        "const a = <Trans id=\"greeting\" msg=\" 你好 \" />;" "a.tsx").catalog.entries),
        h.keyFor "你好", h.knownText "greeting")) = some (true, "03tpnc", none) := by
    decide +kernel
  obtain ⟨h, hh, hviews⟩ := exists_ok_of_toOption_map heval
  obtain ⟨hentry, hkey, hknown⟩ := Prod.mk.inj hviews |>.imp_right Prod.mk.inj
  have hmem := of_decide_eq_true hentry
  refine ⟨h, hh, hmem, ?_⟩
  -- neither a generated key nor a known text, so it is the id of a wrapper
  rcases (h.entries_have_origin _ _).1 _ _ hmem with hmade | hold | hlabelled
  · rw [hkey] at hmade
    exact absurd hmade (by decide)
  · rw [hknown] at hold
    cases hold
  · exact hlabelled

end Harvester

end TextHarvest
