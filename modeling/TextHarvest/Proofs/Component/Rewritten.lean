import TextHarvest.Proofs.Component.Shift
import TextHarvest.Proofs.Patch.Regions
import TextHarvest.Proofs.Text.Blank

/-!
# A template as it is rewritten

Every edit of a template is made in one piece of it: in a text, in an interpolation or in one
attribute of a tag. So a template is rewritten piece by piece, and what it becomes can be written
down as pieces again.

Main results:

* `Patch.apply_placed` — a text is patched segment by segment.
* `edits_harvestNode` — the edit of a node.
* `apply_pieces` — the pieces of a rewritten template.
-/

namespace TextHarvest

/-! ## Edits segment by segment -/

/-- A part of a text with the edit that is made in it, as if the part stood alone. -/
abbrev Segment := List Char × Option Edit

namespace Segment

/-- What a segment becomes. -/
def text (s : Segment) : List Char :=
  Patch.splice s.2.toList 0 s.1

/-- The edit lies within its segment. -/
def Within (s : Segment) : Prop :=
  ∀ e ∈ s.2, e.span.Within (Chars.size s.1)

/-- The text of some segments. -/
def chars (ss : List Segment) : List Char :=
  ss.flatMap Prod.fst

/-- The edits of a sequence of segments that starts at an offset. -/
def placed : Nat → List Segment → List Edit
  | _, [] => []
  | offset, s :: ss =>
    (s.2.map (·.shift offset)).toList ++ placed (offset + Chars.size s.1) ss

/-- The edits of later segments are placed behind the earlier ones. -/
theorem placed_append (offset : Nat) (ss ts : List Segment) : placed offset (ss ++ ts) =
    placed offset ss ++ placed (offset + Chars.size (chars ss)) ts := by
  induction ss generalizing offset with
  | nil => rfl
  | cons s ss ih =>
    have hchars : chars (s :: ss) = s.1 ++ chars ss := rfl
    rw [List.cons_append, placed, placed, ih, List.append_assoc, hchars, Chars.size_append,
      Nat.add_assoc]

/-- The edit of a segment lies in the segment. -/
theorem order_of_mem_placed {ss : List Segment} (hwithin : ∀ s ∈ ss, s.Within) {offset : Nat}
    {e : Edit} (he : e ∈ placed offset ss) :
    offset ≤ e.span.start ∧ e.span.start ≤ e.span.stop := by
  induction ss generalizing offset with
  | nil => cases he
  | cons s ss ih =>
    obtain ⟨hs, hss⟩ := List.forall_mem_cons.mp hwithin
    -- an edit of this segment, or one further on
    rcases List.mem_append.mp he with he | he
    · obtain ⟨f, hf, rfl⟩ := Option.map_eq_some_iff.mp (Option.mem_toList.mp he)
      have horder := (hs f hf).1
      dsimp only [Edit.shift, Span.shift]
      omega
    · have horder := ih hss he
      omega

/-- The edits of segments come by position. -/
theorem pairwise_placed {ss : List Segment} (hwithin : ∀ s ∈ ss, s.Within) (offset : Nat) :
    (placed offset ss).Pairwise fun a b => Edit.before a b = true := by
  induction ss generalizing offset with
  | nil => exact .nil
  | cons s ss ih =>
    obtain ⟨hs, hss⟩ := List.forall_mem_cons.mp hwithin
    rw [placed]
    cases hedit : s.2 with
    | none => exact ih hss _
    | some e =>
      obtain ⟨horder, hstop⟩ := hs e hedit
      refine List.pairwise_cons.mpr ⟨?_, ih hss _⟩
      intro b hb
      -- the edits of the later segments begin where this one is over
      have hlater := order_of_mem_placed hss hb
      rw [Edit.before_iff]
      dsimp only [Edit.shift, Span.shift]
      omega

end Segment

namespace Patch

open Segment in
/-- Edits in segments of their own are spliced segment by segment. -/
theorem splice_placed {ss : List Segment} (hwithin : ∀ s ∈ ss, s.Within) (offset : Nat) :
    splice (placed offset ss) offset (chars ss) = ss.flatMap Segment.text := by
  -- by induction on the segments; a segment without an edit is copied
  induction ss generalizing offset with
  | nil => rfl
  | cons s ss ih =>
    obtain ⟨hs, hss⟩ := List.forall_mem_cons.mp hwithin
    have hinside : ∀ e ∈ s.2.toList, e.span.start ≤ 0 + Chars.size s.1 ∧
        e.span.stop ≤ 0 + Chars.size s.1 := by
      intro e he
      obtain ⟨horder, hstop⟩ := hs e (Option.mem_toList.mp he)
      omega
    have hlater : ∀ f ∈ placed (offset + Chars.size s.1) ss,
        offset + (0 + Chars.size s.1) ≤ f.span.start := by
      intro f hf
      rw [Nat.zero_add]
      exact (order_of_mem_placed hss hf).1
    have hfront := splice_front hinside hlater (chars ss)
    rw [Nat.zero_add, Nat.add_zero, ih hss, ← Option.toList_map] at hfront
    exact hfront

/-- A text is patched segment by segment. -/
theorem apply_placed {ss : List Segment} (hwithin : ∀ s ∈ ss, s.Within) {source : String}
    (hsource : source.toList = Segment.chars ss) :
    ((Patch.mk (Segment.placed 0 ss)).apply source).toList = ss.flatMap Segment.text := by
  rw [apply, String.toList_ofList, Edit.sort_of_pairwise (Segment.pairwise_placed hwithin 0),
    hsource, splice_placed hwithin]

end Patch

/-- A segment with an edit has the new text in the place of the old one. -/
theorem Segment.text_some {e : Edit} {front old back : List Char}
    (hstart : e.span.start = Chars.size front)
    (hstop : e.span.stop = e.span.start + Chars.size old) :
    Segment.text (front ++ (old ++ back), some e) = front ++ (e.text.toList ++ back) := by
  have hsplice : Patch.splice [e] 0 (front ++ (old ++ back)) =
      front ++ e.text.toList ++ Patch.splice [] e.span.stop back :=
    Patch.splice_cons_append (by omega) hstop
  rw [List.append_assoc] at hsplice
  exact hsplice

/-- A segment without an edit is as it was. -/
theorem Segment.text_none (cs : List Char) : Segment.text (cs, none) = cs := rfl

namespace Component

open Harvest

variable {h : Harvester}

/-! ## The edit of a node -/

/-- What an expression of a template becomes, if it changes. -/
def changedExpr? (h : Harvester) (code : String) (quote : Quote) : Option String :=
  (harvestExpr h code quote .markupText).2

/-- An expression is changed to what its edits make of it. -/
theorem harvestExpr_snd (code : String) (quote : Quote) (surface : Surface) :
    (harvestExpr h code quote surface).2 = changedExpr? h code quote := by
  rw [changedExpr?]
  delta harvestExpr
  cases h.harvestExpr code quote with
  | error e => rfl
  | ok harvest =>
    dsimp only
    split <;> rfl

/-- The new expression of a node that is changed. -/
def newExpr? (h : Harvester) (node : Node) : Option String :=
  (part? h node).bind fun
    | .expr code quote => changedExpr? h code quote
    | .script _ _ => none

/-- The edit that puts a new expression into a directive. -/
def directiveEdit (value : AttributeValue) (new : String) : Edit :=
  if value.quote.isSome then
    let start := value.span.start + Chars.size (value.text.toList.takeWhile Chars.isBlank)
    ⟨⟨start, start + (Text.trim value.text).utf8ByteSize⟩, new⟩
  else ⟨value.span, "\x22" ++ new ++ "\x22"⟩

/-- The edit that puts a new expression into a node. -/
def nodeEdit (node : Node) (new : String) : Edit :=
  match node with
  | .text text span =>
    ⟨((Text.trimmedSpan? text).getD (Span.point 0)).shift span.start, interpolated new⟩
  | .interpolation _ span _ => ⟨span, interpolated new⟩
  | .attribute attr =>
    match attr.value, Directive.ofName? attr.name with
    | some value, some _ => directiveEdit value new
    | _, _ => ⟨attr.span, ":" ++ attr.name ++ "=\x22" ++ new ++ "\x22"⟩

/-- The edit of a node that is changed. -/
def nodeEdit? (h : Harvester) (node : Node) : Option Edit :=
  (newExpr? h node).map (nodeEdit node)

/-- An expression that is changed has the edit of its node. -/
theorem edits_withEdit_eq {node : Node} {code : String} {quote : Quote} {surface : Surface}
    {edit : String → Edit} (hpart : part? h node = some (.expr code quote))
    (hedit : edit = nodeEdit node) :
    edits (withEdit (harvestExpr h code quote surface) edit) = (nodeEdit? h node).toList := by
  rw [edits_withEdit, harvestExpr_snd, nodeEdit?, newExpr?, hpart, hedit]
  rfl

/-- A node without an expression has no edit. -/
theorem toList_nodeEdit?_of_part?_eq_none {node : Node} (hpart : part? h node = none) :
    (nodeEdit? h node).toList = [] := by
  rw [nodeEdit?, newExpr?, hpart]
  rfl

/-- The edits of a text are the one of its node. -/
theorem edits_harvestText_eq (h : Harvester) (text : String) (span : Span) :
    edits (harvestText h text span) = (nodeEdit? h (.text text span)).toList := by
  rw [harvestText]
  by_cases htaken : (h.options.extractFromText &&
      h.accepts (Text.decodeEntities (Text.collapse text))) = true
  · cases hspan : Text.trimmedSpan? text with
    | none =>
      rw [toList_nodeEdit?_of_part?_eq_none (by simp [part?, hspan])]
      split <;> rfl
    | some inner =>
      simp only [htaken, if_true]
      apply edits_withEdit_eq
      · simp [part?, htaken, hspan]
      · funext new
        simp only [nodeEdit, hspan, Option.getD_some]
  · rw [toList_nodeEdit?_of_part?_eq_none (by simp [part?, htaken])]
    simp only [htaken, Bool.false_eq_true, if_false]
    rfl

/-- The edits of an interpolation are the one of its node. -/
theorem edits_harvestInterpolation_eq (h : Harvester) (expr : String) (span exprSpan : Span) :
    edits (harvestInterpolation h expr span) =
      (nodeEdit? h (.interpolation expr span exprSpan)).toList := by
  rw [harvestInterpolation]
  by_cases hempty : (onOneLine expr == "") = true
  · rw [toList_nodeEdit?_of_part?_eq_none (by rw [part?, if_pos hempty])]
    simp only [hempty, if_true]
    rfl
  · simp only [hempty, Bool.false_eq_true, if_false]
    exact edits_withEdit_eq (by rw [part?, if_neg hempty]) rfl

/-- The edits of a directive are the one of its node. -/
theorem edits_harvestDirective_eq (h : Harvester) {name : String} {value : AttributeValue}
    {span : Span} {d : Directive} (hname : Directive.ofName? name = some d) :
    edits (harvestDirective h d value) =
      (nodeEdit? h (.attribute ⟨name, some value, span⟩)).toList := by
  rw [harvestDirective]
  by_cases hskip : (isSkipped d || Text.trim value.text == "") = true
  · rw [toList_nodeEdit?_of_part?_eq_none
      (by simp only [part?, Option.bind_some, hname, hskip, if_true])]
    simp only [hskip, if_true]
    rfl
  · simp only [hskip, Bool.false_eq_true, if_false]
    apply edits_withEdit_eq
    · simp only [part?, Option.bind_some, hname, hskip, Bool.false_eq_true, if_false]
    · funext new
      simp only [nodeEdit, hname, directiveEdit]

/-- The edits of a plain attribute are the one of its node. -/
theorem edits_harvestPlainAttribute_eq (h : Harvester) {name : String} {value : AttributeValue}
    {span : Span} (hname : Directive.ofName? name = none) :
    edits (harvestPlainAttribute h name value.text span) =
      (nodeEdit? h (.attribute ⟨name, some value, span⟩)).toList := by
  rw [harvestPlainAttribute]
  by_cases htaken : (h.options.extractFromText && h.accepts (Text.trim value.text)) = true
  · simp only [htaken, if_true]
    apply edits_withEdit_eq
    · simp only [part?, Option.bind_some, hname, htaken, if_true]
    · funext new
      simp only [nodeEdit, hname]
  · rw [toList_nodeEdit?_of_part?_eq_none
      (by simp only [part?, Option.bind_some, hname, htaken, Bool.false_eq_true, if_false])]
    simp only [htaken, Bool.false_eq_true, if_false]
    rfl

/-- What is done to a node of a template is one edit, if it is changed. -/
theorem edits_harvestNode (h : Harvester) (node : Node) :
    edits (harvestNode h node) = (nodeEdit? h node).toList := by
  cases node with
  | text text span => exact edits_harvestText_eq h text span
  | interpolation expr span exprSpan => exact edits_harvestInterpolation_eq h expr span exprSpan
  | «attribute» attr =>
    obtain ⟨name, value, span⟩ := attr
    rw [harvestNode]
    cases value with
    | none => rfl
    | some value =>
      dsimp only
      cases hname : Directive.ofName? name with
      | some d => exact edits_harvestDirective_eq h hname
      | none => exact edits_harvestPlainAttribute_eq h hname

/-- A node that stands further behind has its edit there. -/
theorem toList_nodeEdit?_shift (node : Node) (k : Nat) :
    (nodeEdit? h (node.shift k)).toList = ((nodeEdit? h node).map (·.shift k)).toList := by
  rw [← edits_harvestNode, edits_harvestNode_shift, edits_harvestNode, Option.toList_map]

/-- The edit of a node lies within the node. -/
theorem within_nodeEdit? {node : Node} {n : Nat} (hnode : node.Within n) {e : Edit}
    (he : nodeEdit? h node = some e) : e.span.Within n := by
  apply within_edits_harvestNode hnode (h := h)
  rw [edits_harvestNode, Option.mem_toList]
  exact he

/-! ## The segments of a template -/

/-- An item of a tag with its edit. -/
def Item.segment (h : Harvester) (item : Item) : Segment :=
  (item.chars, (item.attribute? 0).bind fun attr => nodeEdit? h (.attribute attr))

/-- A piece of a template with its edits. -/
def Piece.segments (h : Harvester) : Piece → List Segment
  | .tag name items close raw =>
    ('<' :: name, none) :: (items.map (Item.segment h) ++ [(close ++ raw, none)])
  | p => [(p.chars, (p.nodes 0).head?.bind (nodeEdit? h))]

/-- The segments of attributes spell what is written for them. -/
theorem Item.chars_segments (items : List Item) :
    Segment.chars (items.map (Item.segment h)) = Item.written items := by
  rw [Segment.chars, List.flatMap_map]
  rfl

/-- The edits of attributes are those of their nodes. -/
theorem Item.placed_segments (items : List Item) (offset : Nat) :
    Segment.placed offset (items.map (Item.segment h)) =
      (Item.attributes offset items).flatMap fun attr =>
        (nodeEdit? h (.attribute attr)).toList := by
  induction items generalizing offset with
  | nil => rfl
  | cons item items ih =>
    rw [List.map_cons, Segment.placed, ih, Item.attributes, List.flatMap_append]
    congr 1
    -- each item is read at the beginning and moved to its place
    have hmoved := Item.attributes_add [item] 0 offset
    simp only [Nat.zero_add, Item.attributes, List.append_nil] at hmoved
    rw [hmoved, Item.segment]
    cases item.attribute? 0 with
    | none => rfl
    | some attr =>
      have hshift := toList_nodeEdit?_shift (h := h) (.attribute attr) offset
      simpa [Node.shift] using hshift.symm

/-- The edit of an attribute lies in its segment. -/
theorem Item.within_segment (item : Item) : (item.segment h).Within := by
  intro e he
  obtain ⟨attr, hattr, hedit⟩ := Option.bind_eq_some_iff.mp he
  have hmem : attr ∈ Item.attributes 0 [item] := by
    rw [Item.attributes, hattr]
    exact List.mem_cons_self
  have hwithin := Item.within_attributes hmem
  rw [Nat.zero_add, Item.written_cons, Item.written_nil, List.append_nil] at hwithin
  exact within_nodeEdit? hwithin hedit

/-- The segments of a piece spell the piece. -/
theorem Piece.chars_segments (p : Piece) : Segment.chars (p.segments h) = p.chars := by
  cases p with
  | tag name items close raw =>
    have hitems := Item.chars_segments (h := h) items
    rw [Segment.chars] at hitems
    rw [Piece.segments, Segment.chars, List.flatMap_cons, List.flatMap_append, hitems]
    simp [Piece.chars]
  | _ => exact List.append_nil _

/-- A piece that is no tag has one node at most. -/
theorem Piece.placed_single (p : Piece) (offset : Nat) (hsingle : (p.nodes 0).length ≤ 1) :
    Segment.placed offset [(p.chars, (p.nodes 0).head?.bind (nodeEdit? h))] =
      (p.nodes offset).flatMap fun node => (nodeEdit? h node).toList := by
  have hmoved := Piece.nodesAll_add [p] 0 offset
  simp only [Nat.zero_add, Piece.nodesAll, List.append_nil] at hmoved
  rw [hmoved]
  generalize p.nodes 0 = nodes at hsingle ⊢
  rcases nodes with _ | ⟨node, _ | ⟨_, _⟩⟩
  · rfl
  · have hshift := toList_nodeEdit?_shift (h := h) node offset
    simpa [Segment.placed] using hshift.symm
  · simp at hsingle

/-- The edits of a piece are those of its nodes. -/
theorem Piece.placed_segments (p : Piece) (offset : Nat) :
    Segment.placed offset (p.segments h) =
      (p.nodes offset).flatMap fun node => (nodeEdit? h node).toList := by
  -- a tag has a segment for each attribute, any other piece has one
  cases p with
  | tag name items close raw =>
    have hplace : offset + Chars.size ('<' :: name) = offset + 1 + Chars.size name := by
      rw [Chars.size_cons, show '<'.utf8Size = 1 from rfl, Nat.add_assoc]
    rw [Piece.segments, Segment.placed, Segment.placed_append, Item.placed_segments, hplace,
      Piece.nodes, List.flatMap_map]
    exact List.append_nil _
  | passed => exact Piece.placed_single _ offset (Nat.zero_le 1)
  | brace => exact Piece.placed_single _ offset (Nat.zero_le 1)
  | text cs =>
    apply Piece.placed_single
    rw [Piece.nodes]
    split <;> simp
  | interpolation => exact Piece.placed_single _ offset (Nat.le_refl 1)

/-- The edits of a piece lie in its segments. -/
theorem Piece.within_segments (p : Piece) : ∀ s ∈ p.segments h, s.Within := by
  have hnone (cs : List Char) : Segment.Within (cs, none) := by
    intro e he
    cases he
  have hsingle : Segment.Within (p.chars, (p.nodes 0).head?.bind (nodeEdit? h)) := by
    intro e he
    obtain ⟨node, hnode, hedit⟩ := Option.bind_eq_some_iff.mp he
    have hwithin := Piece.within_nodes (List.mem_of_head? hnode)
    rw [Nat.zero_add] at hwithin
    exact within_nodeEdit? hwithin hedit
  intro s hs
  -- only a tag has more than one segment
  cases p with
  | tag name items close raw =>
    rcases List.mem_cons.mp hs with rfl | hs
    · exact hnone _
    · rcases List.mem_append.mp hs with hs | hs
      · obtain ⟨item, -, rfl⟩ := List.mem_map.mp hs
        exact Item.within_segment item
      · obtain rfl := List.mem_singleton.mp hs
        exact hnone _
  | _ =>
    obtain rfl := List.mem_singleton.mp hs
    exact hsingle

/-- The segments of a template spell the template. -/
theorem chars_pieces (ps : List Piece) :
    Segment.chars (ps.flatMap (Piece.segments h)) = Piece.written ps := by
  induction ps with
  | nil => rfl
  | cons p ps ih =>
    rw [Segment.chars] at ih
    have hp := Piece.chars_segments (h := h) p
    rw [Segment.chars] at hp
    rw [Segment.chars, List.flatMap_cons, List.flatMap_append, hp, ih, Piece.written_cons]

/-- The edits of a template are those of its nodes. -/
theorem placed_pieces (ps : List Piece) (offset : Nat) :
    Segment.placed offset (ps.flatMap (Piece.segments h)) =
      (Piece.nodesAll offset ps).flatMap fun node => (nodeEdit? h node).toList := by
  induction ps generalizing offset with
  | nil => rfl
  | cons p ps ih =>
    rw [List.flatMap_cons, Segment.placed_append, Piece.placed_segments, Piece.chars_segments, ih,
      Piece.nodesAll, List.flatMap_append]

/-! ## The pieces of a rewritten template -/

/-- The new expression of the attribute that an item is. -/
def Item.new? (h : Harvester) (item : Item) : Option String :=
  (item.attribute? 0).bind fun attr => newExpr? h (.attribute attr)

/-- The value of a directive with a new expression. -/
def Assigned.renewed (new : List Char) : Assigned → Assigned
  | .quoted sign mark text closed => .quoted sign mark (Chars.around text new) closed
  | .bare sign _ => .quoted sign '\x22' new true
  | value => value

/-- An item as it is rewritten: a directive gets a new expression, a plain attribute becomes a bound
one. -/
def Item.rewritten (h : Harvester) : Item → Item
  | .attr name value =>
    match (Item.attr name value).new? h with
    | some new =>
      if (Directive.ofName? (String.ofList name)).isSome then .attr name (value.renewed new.toList)
      else .attr (':' :: name) (.quoted ['='] '\x22' new.toList true)
    | none => .attr name value
  | item => item

/-- The new expression of a text or of an interpolation. -/
def Piece.new? (h : Harvester) (p : Piece) : Option String :=
  (p.nodes 0).head?.bind (newExpr? h)

/-- Blanks as a text, if there are any. -/
def blankPieces (cs : List Char) : List Piece :=
  if cs.isEmpty then [] else [.text cs]

/-- An expression with a blank on each side. -/
def spaced (new : String) : List Char :=
  ' ' :: (new.toList ++ [' '])

/-- A piece as it is rewritten: a text becomes an interpolation between its blanks. -/
def Piece.rewritten (h : Harvester) : Piece → List Piece
  | .text cs =>
    match (Piece.text cs).new? h with
    | some new =>
      blankPieces (cs.takeWhile Chars.isBlank) ++
        (.interpolation (spaced new) :: blankPieces (Chars.blankEnd cs))
    | none => [.text cs]
  | .interpolation inner =>
    match (Piece.interpolation inner).new? h with
    | some new => [.interpolation (spaced new)]
    | none => [.interpolation inner]
  | .tag name items close raw => [.tag name (items.map (Item.rewritten h)) close raw]
  | p => [p]

/-- An attribute that is changed has a value, and a directive one that is not blank. -/
theorem exists_value_of_newExpr? {attr : Attribute} {new : String}
    (hnew : newExpr? h (.attribute attr) = some new) :
    ∃ value, attr.value = some value ∧
      ((Directive.ofName? attr.name).isSome = true → Chars.trim value.text.toList ≠ []) := by
  obtain ⟨part, hpart, -⟩ := Option.bind_eq_some_iff.mp hnew
  obtain ⟨value, hvalue, hpart⟩ := Option.bind_eq_some_iff.mp hpart
  refine ⟨value, hvalue, ?_⟩
  intro hsome hnil
  obtain ⟨d, hd⟩ := Option.isSome_iff_exists.mp hsome
  -- an empty value would have been skipped, and then there were no new text
  have hempty : (Text.trim value.text == "") = true := by
    rw [Text.trim, hnil]
    rfl
  rw [hd] at hpart
  dsimp only at hpart
  rw [hempty, Bool.or_true, if_pos rfl] at hpart
  cases hpart

/-- The directive in quotes gets its new expression between its blanks. -/
theorem text_directive_quoted {name sign text : List Char} {mark : Char} {closed : Bool}
    {value : AttributeValue} (new : String) (htrim : Chars.trim text ≠ [])
    (hvalue : (Assigned.quoted sign mark text closed).value? (0 + Chars.size name) = some value) :
    Segment.text (name ++ (Assigned.quoted sign mark text closed).chars,
        some (directiveEdit value new)) =
      name ++ (Assigned.renewed new.toList (.quoted sign mark text closed)).chars := by
  obtain rfl := Option.some.inj hvalue
  -- the quote and the blanks stand in front of what is replaced
  have hcut : name ++ (Assigned.quoted sign mark text closed).chars =
      (name ++ (sign ++ mark :: text.takeWhile Chars.isBlank)) ++
        (Chars.trim text ++ (Chars.blankEnd text ++ if closed then [mark] else [])) := by
    have htext := (Chars.around_trim htrim).symm
    rw [Chars.around] at htext
    rw [Assigned.chars]
    conv => lhs; rw [htext]
    simp
  rw [hcut, Segment.text_some]
  · simp [directiveEdit, Assigned.renewed, Assigned.chars, Chars.around]
  · simp only [directiveEdit, Option.isSome_some, if_true, String.toList_ofList,
      Chars.size_append, Chars.size_cons]
    omega
  · simp only [directiveEdit, Option.isSome_some, if_true, String.utf8ByteSize_eq, Text.trim,
      String.toList_ofList]

/-- A directive without quotes gets its new value without quotes. -/
theorem text_directive_bare {name sign text : List Char} {value : AttributeValue} (new : String)
    (hvalue : (Assigned.bare sign text).value? (0 + Chars.size name) = some value) :
    Segment.text (name ++ (Assigned.bare sign text).chars, some (directiveEdit value new)) =
      name ++ (Assigned.renewed new.toList (.bare sign text)).chars := by
  obtain rfl := Option.some.inj hvalue
  have hcut : name ++ (Assigned.bare sign text).chars = (name ++ sign) ++ (text ++ []) := by
    simp [Assigned.chars]
  rw [hcut, Segment.text_some]
  · simp [directiveEdit, Assigned.renewed, Assigned.chars]
  · simp [directiveEdit]
  · simp [directiveEdit]

/-- The value of a directive is replaced where it stands. -/
theorem text_directive {name : List Char} {value : Assigned} {v : AttributeValue} (new : String)
    (hvalue : value.value? (0 + Chars.size name) = some v)
    (htrim : v.quote.isSome = true → Chars.trim v.text.toList ≠ []) :
    Segment.text (name ++ value.chars, some (directiveEdit v new)) =
      name ++ (value.renewed new.toList).chars := by
  cases value with
  | nothing => cases hvalue
  | dangling => cases hvalue
  | quoted sign mark text closed =>
    have hv := Option.some.inj hvalue
    rw [← hv, String.toList_ofList] at htrim
    exact text_directive_quoted new (htrim rfl) hvalue
  | bare sign text => exact text_directive_bare new hvalue

/-- An item is rewritten by its edit. -/
theorem Item.text_segment (item : Item) :
    (item.segment h).text = (item.rewritten h).chars := by
  cases item with
  | gap => rfl
  | stray => rfl
  | attr name value =>
    have hedit : ((Item.attr name value).segment h).2 =
        ((Item.attr name value).new? h).map (nodeEdit (.attribute ⟨String.ofList name,
          value.value? (0 + Chars.size name), ⟨0, 0 + Chars.size (name ++ value.chars)⟩⟩)) := rfl
    have hsegment : (Item.attr name value).segment h =
        (name ++ value.chars, ((Item.attr name value).segment h).2) := rfl
    rw [hsegment, hedit, Item.rewritten]
    cases hnew : (Item.attr name value).new? h with
    | none => rfl
    | some new =>
      obtain ⟨v, hvalue, htrim⟩ := exists_value_of_newExpr? hnew
      dsimp only at hvalue htrim
      dsimp only [Option.map_some, nodeEdit]
      rw [hvalue]
      cases hname : Directive.ofName? (String.ofList name) with
      | some d =>
        rw [hname] at htrim
        exact text_directive new hvalue fun _ => htrim rfl
      | none =>
        -- the whole attribute is exchanged
        have hcut : name ++ value.chars = [] ++ ((name ++ value.chars) ++ []) := by simp
        dsimp only [Option.isSome_none]
        rw [if_neg Bool.false_ne_true, hcut, Segment.text_some]
        · simp [Item.chars, Assigned.chars]
        · rfl
        · simp

/-- The pieces of blanks spell the blanks. -/
theorem written_blankPieces (cs : List Char) : Piece.written (blankPieces cs) = cs := by
  rw [blankPieces]
  split
  · rename_i hempty
    rw [List.isEmpty_iff.mp hempty]
    rfl
  · simp [Piece.written, Piece.chars]

/-- An expression between braces. -/
theorem toList_interpolated (new : String) :
    (interpolated new).toList = bracesOpen ++ (spaced new ++ bracesClose) := by
  have hopen : "\x7b\x7b ".toList = bracesOpen ++ [' '] := by decide
  have hclose : " \x7d\x7d".toList = ' ' :: bracesClose := by decide
  rw [interpolated, String.toList_append, String.toList_append, hopen, hclose, spaced]
  simp

/-- A text that is changed is not blank. -/
theorem exists_trimmedSpan?_of_newExpr? {text new : String} {span : Span}
    (hnew : newExpr? h (.text text span) = some new) :
    ∃ inner, Text.trimmedSpan? text = some inner := by
  obtain ⟨part, hpart, -⟩ := Option.bind_eq_some_iff.mp hnew
  rw [part?] at hpart
  split at hpart
  · rename_i htaken
    exact Option.isSome_iff_exists.mp (Bool.and_eq_true_iff.mp htaken).2
  · cases hpart

/-- A text is replaced between its blanks. -/
theorem text_run {cs : List Char} {new : String} {span : Span} (hspan : span.start = 0)
    (hnew : newExpr? h (.text (String.ofList cs) span) = some new) :
    Segment.text (cs, some (nodeEdit (.text (String.ofList cs) span) new)) =
      Chars.around cs (bracesOpen ++ (spaced new ++ bracesClose)) := by
  obtain ⟨inner, hinner⟩ := exists_trimmedSpan?_of_newExpr? hnew
  have htrimmed : Chars.trimmedSpan? cs = some inner := by
    rw [Text.trimmedSpan?, String.toList_ofList] at hinner
    exact hinner
  obtain ⟨hne, heq⟩ := Chars.trimmedSpan?_eq_some_iff.mp htrimmed
  have hedit : nodeEdit (.text (String.ofList cs) span) new = ⟨inner, interpolated new⟩ := by
    simp only [nodeEdit, hinner, Option.getD_some, Span.shift, hspan, Nat.add_zero]
  -- the new text stands where the text without its blanks stood
  have hcut : cs = cs.takeWhile Chars.isBlank ++ (Chars.trim cs ++ Chars.blankEnd cs) :=
    (Chars.around_trim hne).symm
  have htext : Segment.text (cs.takeWhile Chars.isBlank ++ (Chars.trim cs ++ Chars.blankEnd cs),
        some ⟨inner, interpolated new⟩) =
      cs.takeWhile Chars.isBlank ++ ((interpolated new).toList ++ Chars.blankEnd cs) := by
    rw [heq]
    exact Segment.text_some rfl rfl
  rw [← hcut, toList_interpolated] at htext
  rw [hedit, htext, Chars.around]

/-- A piece that is not changed has no edit. -/
theorem Piece.edit_eq_none {p : Piece} (hnew : p.new? h = none) :
    (p.nodes 0).head?.bind (nodeEdit? h) = none := by
  rw [Piece.new?] at hnew
  cases hhead : (p.nodes 0).head? with
  | none => rfl
  | some node =>
    rw [hhead, Option.bind_some] at hnew
    rw [Option.bind_some, nodeEdit?, hnew, Option.map_none]

/-- A piece that is changed has the edit of its only node. -/
theorem Piece.edit_eq_some {p : Piece} {node : Node} {new : String} (hnodes : p.nodes 0 = [node])
    (hnew : p.new? h = some new) :
    (p.nodes 0).head?.bind (nodeEdit? h) = some (nodeEdit node new) := by
  rw [Piece.new?, hnodes, List.head?_cons, Option.bind_some] at hnew
  rw [hnodes, List.head?_cons, Option.bind_some, nodeEdit?, hnew, Option.map_some]

/-- A text that gets a new expression is not blank. -/
theorem Piece.nodes_text_of_new? {cs : List Char} {new : String}
    (hnew : (Piece.text cs).new? h = some new) :
    (Piece.text cs).nodes 0 = [.text (String.ofList cs) ⟨0, 0 + Chars.size cs⟩] := by
  rw [Piece.nodes]
  split
  · rename_i hblank
    have hnodes : (Piece.text cs).nodes 0 = [] := if_pos hblank
    rw [Piece.new?, hnodes] at hnew
    cases hnew
  · rfl

/-- A piece is rewritten by its edits. -/
theorem Piece.text_segments (p : Piece) :
    (p.segments h).flatMap Segment.text = Piece.written (p.rewritten h) := by
  have hsingle (q : Piece) : Piece.written [q] = q.chars := List.append_nil _
  cases p with
  | passed => rfl
  | brace => rfl
  | tag name items close raw =>
    have hitems : (items.map (Item.segment h)).flatMap Segment.text =
        Item.written (items.map (Item.rewritten h)) := by
      rw [List.flatMap_map, Item.written, List.flatMap_map]
      simp only [Item.text_segment]
    rw [Piece.segments, Piece.rewritten, hsingle, List.flatMap_cons, List.flatMap_append, hitems]
    simp [Piece.chars, Segment.text_none]
  | interpolation inner =>
    have hsegments : (Piece.interpolation inner).segments h = [((Piece.interpolation inner).chars,
      ((Piece.interpolation inner).nodes 0).head?.bind (nodeEdit? h))] := rfl
    rw [hsegments, List.flatMap_singleton, Piece.rewritten]
    cases hnew : (Piece.interpolation inner).new? h with
    | none =>
      rw [Piece.edit_eq_none hnew]
      exact (hsingle (.interpolation inner)).symm
    | some new =>
      -- the interpolation is replaced as a whole
      have hcut : (Piece.interpolation inner).chars =
          [] ++ ((Piece.interpolation inner).chars ++ []) := by simp
      rw [Piece.edit_eq_some rfl hnew, hcut, Segment.text_some, hsingle]
      · simp [nodeEdit, toList_interpolated, Piece.chars]
      · rfl
      · rw [nodeEdit, Piece.size_interpolation, Nat.add_assoc]
  | text cs =>
    have hsegments : (Piece.text cs).segments h = [((Piece.text cs).chars,
      ((Piece.text cs).nodes 0).head?.bind (nodeEdit? h))] := rfl
    rw [hsegments, List.flatMap_singleton, Piece.rewritten]
    cases hnew : (Piece.text cs).new? h with
    | none =>
      rw [Piece.edit_eq_none hnew]
      exact (hsingle (.text cs)).symm
    | some new =>
      -- of a text the blanks around it stay
      have hnodes := Piece.nodes_text_of_new? hnew
      have hexpr := hnew
      rw [Piece.new?, hnodes] at hexpr
      rw [Piece.edit_eq_some hnodes hnew, Piece.chars, text_run rfl hexpr, Piece.written_append,
        Piece.written_cons, written_blankPieces, written_blankPieces, Chars.around,
        Piece.chars, List.append_assoc, List.append_assoc]

/-- A template is rewritten piece by piece. -/
theorem apply_pieces {ps : List Piece} (hfit : PiecesFit ps) {source : String}
    (hsource : source.toList = Piece.written ps) :
    ((Patch.mk (edits ((nodes source 0).flatMap (harvestNode h)))).apply source).toList =
      Piece.written (ps.flatMap (Piece.rewritten h)) := by
  have hedits : edits ((nodes source 0).flatMap (harvestNode h)) =
      Segment.placed 0 (ps.flatMap (Piece.segments h)) := by
    rw [edits_flatMap, nodes_of_pieces hfit hsource, placed_pieces]
    simp only [edits_harvestNode]
  -- each edit lies in its own piece, so the patch can be put on piece by piece
  have hwithin : ∀ s ∈ ps.flatMap (Piece.segments h), s.Within := by
    intro s hs
    obtain ⟨p, -, hmem⟩ := List.mem_flatMap.mp hs
    exact p.within_segments s hmem
  have htext : (ps.flatMap (Piece.segments h)).flatMap Segment.text =
      Piece.written (ps.flatMap (Piece.rewritten h)) := by
    rw [List.flatMap_assoc, Piece.written, List.flatMap_assoc]
    simp only [Piece.text_segments]
    rfl
  rw [hedits, Patch.apply_placed hwithin (by rw [hsource, chars_pieces]), htext]

end Component

end TextHarvest
