import TextHarvest.Proofs.Component.Pieces
import TextHarvest.Proofs.Harvest.Bounds
import TextHarvest.Proofs.Harvest.Rereading

/-!
# A template on its own

A template is read from its own first character on, and only the ranges of its nodes know where it
stands in its file. Its edits are therefore those of the template alone, moved to its place, and
they stay within it.

Main results:

* `edits_harvestTemplate` — the edits of a template, moved from a text of its own to its place.
* `within_of_mem_harvestTemplate` — the edits of a template lie in it.
-/

namespace TextHarvest

namespace Component

open Harvest

/-! ## Moving nodes -/

def AttributeValue.shift (v : AttributeValue) (offset : Nat) : AttributeValue :=
  { v with span := v.span.shift offset }

def Attribute.shift (a : Attribute) (offset : Nat) : Attribute :=
  { a with value := a.value.map (·.shift offset), span := a.span.shift offset }

/-- The same node of a text that starts `offset` bytes earlier. -/
def Node.shift (offset : Nat) : Node → Node
  | .text content span => .text content (span.shift offset)
  | .interpolation expr span exprSpan =>
    .interpolation expr (span.shift offset) (exprSpan.shift offset)
  | .attribute attr => .attribute (attr.shift offset)

/-- A value that starts further behind. -/
theorem Assigned.value?_add (value : Assigned) (offset k : Nat) :
    value.value? (offset + k) = (value.value? offset).map (·.shift k) := by
  cases value with
  | nothing => rfl
  | dangling => rfl
  | quoted sign mark text closed =>
    simp only [Assigned.value?, Option.map_some, AttributeValue.shift, Span.shift,
      Option.some.injEq, AttributeValue.mk.injEq, Span.mk.injEq, true_and, and_true]
    omega
  | bare sign text =>
    simp only [Assigned.value?, Option.map_some, AttributeValue.shift, Span.shift,
      Option.some.injEq, AttributeValue.mk.injEq, Span.mk.injEq, true_and, and_true]
    omega

/-- Attributes that start further behind. -/
theorem Item.attributes_add (items : List Item) (offset k : Nat) :
    Item.attributes (offset + k) items = (Item.attributes offset items).map (·.shift k) := by
  induction items generalizing offset with
  | nil => rfl
  | cons item items ih =>
    have hitem : item.attribute? (offset + k) = (item.attribute? offset).map (·.shift k) := by
      cases item with
      | attr name value =>
        simp only [Item.attribute?, Option.map_some, Attribute.shift, Span.shift]
        rw [Nat.add_right_comm, Assigned.value?_add, Nat.add_right_comm offset k]
      | _ => rfl
    rw [Item.attributes, Item.attributes, hitem, Nat.add_right_comm, ih, List.map_append,
      Option.toList_map]

/-- Pieces that start further behind have their nodes there. -/
theorem Piece.nodesAll_add (ps : List Piece) (offset k : Nat) :
    Piece.nodesAll (offset + k) ps = (Piece.nodesAll offset ps).map (Node.shift k) := by
  induction ps generalizing offset with
  | nil => rfl
  | cons p ps ih =>
    -- the nodes of one piece move with it
    have hpiece : p.nodes (offset + k) = (p.nodes offset).map (Node.shift k) := by
      cases p with
      | passed => rfl
      | brace => rfl
      | text cs =>
        rw [Piece.nodes, Piece.nodes]
        split
        · rfl
        · simp only [List.map_cons, List.map_nil, Node.shift, Span.shift, Nat.add_right_comm]
      | interpolation inner =>
        simp only [Piece.nodes, List.map_cons, List.map_nil, Node.shift, Span.shift,
          Nat.add_right_comm]
      | tag name items close raw =>
        have hoffset : offset + k + 1 + Chars.size name = offset + 1 + Chars.size name + k := by
          omega
        rw [Piece.nodes, Piece.nodes, hoffset, Item.attributes_add, List.map_map, List.map_map]
        rfl
    rw [Piece.nodesAll, Piece.nodesAll, hpiece, Nat.add_right_comm, ih, List.map_append]

/-- Where a template stands only moves its nodes. -/
theorem nodes_eq_map_shift (source : String) (base : Nat) :
    nodes source base = (nodes source 0).map (Node.shift base) := by
  obtain ⟨ps, hsource, hfit⟩ := exists_pieces source.toList
  rw [nodes_of_pieces hfit hsource, nodes_of_pieces hfit hsource, ← Piece.nodesAll_add,
    Nat.zero_add]

variable {h : Harvester}

/-- The edits of an expression in its surroundings. -/
theorem edits_withEdit (h : Harvester) (code : String) (quote : Quote) (surface : Surface)
    (edit : String → Edit) : edits (withEdit (harvestExpr h code quote surface) edit) =
      ((harvestExpr h code quote surface).2.map edit).toList := by
  have hnone := edits_harvestExpr h code quote surface
  generalize harvestExpr h code quote surface = result at hnone ⊢
  obtain ⟨actions, changed⟩ := result
  cases changed with
  | none => exact hnone
  | some code =>
    rw [withEdit, edits, List.filterMap_append]
    exact congrArg (· ++ _) hnone

/-- Where an expression stands only moves its edit. -/
theorem edits_withEdit_shift {code : String} {quote : Quote} {surface : Surface}
    {edit edit' : String → Edit} {k : Nat} (hedit : ∀ new, edit' new = (edit new).shift k) :
    edits (withEdit (harvestExpr h code quote surface) edit') =
      (edits (withEdit (harvestExpr h code quote surface) edit)).map (·.shift k) := by
  rw [edits_withEdit, edits_withEdit]
  cases (harvestExpr h code quote surface).2 with
  | none => rfl
  | some new =>
    rw [Option.map_some, Option.map_some, hedit]
    rfl

/-- A text that stands further behind is changed there. -/
theorem edits_harvestText_shift (text : String) (span : Span) (k : Nat) :
    edits (harvestText h text (span.shift k)) =
      (edits (harvestText h text span)).map (·.shift k) := by
  rw [harvestText, harvestText]
  split
  · split
    · apply edits_withEdit_shift
      intro new
      simp only [Edit.shift, Span.shift, Nat.add_assoc]
    · rfl
  · rfl

/-- So is a directive. -/
theorem edits_harvestDirective_shift (d : Directive) (value : AttributeValue) (k : Nat) :
    edits (harvestDirective h d (value.shift k)) =
      (edits (harvestDirective h d value)).map (·.shift k) := by
  by_cases hskip : (isSkipped d || Text.trim value.text == "") = true
  · simp only [harvestDirective, AttributeValue.shift, hskip, if_true]
    rfl
  · simp only [harvestDirective, AttributeValue.shift, hskip, Bool.false_eq_true, if_false]
    apply edits_withEdit_shift
    intro new
    by_cases hquote : value.quote.isSome = true
    · simp only [hquote, if_true, Edit.shift, Span.shift, Edit.mk.injEq, Span.mk.injEq, and_true]
      omega
    · simp only [hquote, Bool.false_eq_true, if_false, Edit.shift]

/-- So is a plain attribute. -/
theorem edits_harvestPlainAttribute_shift (name text : String) (span : Span) (k : Nat) :
    edits (harvestPlainAttribute h name text (span.shift k)) =
      (edits (harvestPlainAttribute h name text span)).map (·.shift k) := by
  rw [harvestPlainAttribute, harvestPlainAttribute]
  by_cases htaken : (h.options.extractFromText && h.accepts (Text.trim text)) = true
  · simp only [htaken, if_true]
    exact edits_withEdit_shift fun _ => rfl
  · simp only [htaken, Bool.false_eq_true, if_false]
    rfl

/-- A node that is moved gets the same edits, moved. -/
theorem edits_harvestNode_shift (node : Node) (k : Nat) :
    edits (harvestNode h (node.shift k)) = (edits (harvestNode h node)).map (·.shift k) := by
  -- the kinds of nodes differ in what they replace; each moves along with its span
  rcases node with ⟨text, span⟩ | ⟨expr, span, exprSpan⟩ | ⟨name, value, span⟩
  · exact edits_harvestText_shift text span k
  · rw [Node.shift, harvestNode, harvestNode, harvestInterpolation, harvestInterpolation]
    by_cases hempty : (onOneLine expr == "") = true
    · simp only [hempty, if_true]
      rfl
    · simp only [hempty, Bool.false_eq_true, if_false]
      exact edits_withEdit_shift fun _ => rfl
  · rw [Node.shift, harvestNode, harvestNode, Attribute.shift]
    cases value with
    | none => rfl
    | some value =>
      dsimp only [Option.map_some]
      cases Directive.ofName? name with
      | some d => exact edits_harvestDirective_shift d value k
      | none => exact edits_harvestPlainAttribute_shift name value.text span k

/-! ## Nodes in their text -/

/-- The ranges of a node lie in a text of `n` bytes, and hold its texts. -/
def Node.Within (n : Nat) : Node → Prop
  | .text content span => span.stop = span.start + Chars.size content.toList ∧ span.stop ≤ n
  | .interpolation _ span _ => Span.Within span n
  | .attribute attr => Span.Within attr.span n ∧ ∀ value ∈ attr.value,
      value.span.stop = value.span.start + Chars.size value.text.toList ∧ value.span.stop ≤ n

/-- The range of a value has as many bytes as the value, within the attribute. -/
theorem Assigned.within_value? {value : Assigned} {offset : Nat} {v : AttributeValue}
    (h : value.value? offset = some v) :
    v.span.stop = v.span.start + Chars.size v.text.toList ∧
      v.span.stop ≤ offset + Chars.size value.chars := by
  cases value with
  | nothing => cases h
  | dangling => cases h
  | quoted sign mark text closed =>
    obtain rfl := Option.some.inj h
    refine ⟨by rw [String.toList_ofList], ?_⟩
    simp only [Assigned.chars, Chars.size_append, Chars.size_cons]
    omega
  | bare sign text =>
    obtain rfl := Option.some.inj h
    refine ⟨by rw [String.toList_ofList], ?_⟩
    simp only [Assigned.chars, Chars.size_append]
    omega

/-- A node in a text is in a longer one. -/
theorem Node.Within.mono {n m : Nat} {node : Node} (h : node.Within n) (hle : n ≤ m) :
    node.Within m := by
  rcases node with _ | _ | _
  · exact ⟨h.1, Nat.le_trans h.2 hle⟩
  · exact ⟨h.1, Nat.le_trans h.2 hle⟩
  · refine ⟨⟨h.1.1, Nat.le_trans h.1.2 hle⟩, ?_⟩
    intro value hvalue
    exact ⟨(h.2 value hvalue).1, Nat.le_trans (h.2 value hvalue).2 hle⟩

/-- An attribute lies in its tag. -/
theorem Item.within_attributes {items : List Item} {offset : Nat} {attr : Attribute}
    (h : attr ∈ Item.attributes offset items) :
    (Node.attribute attr).Within (offset + Chars.size (Item.written items)) := by
  obtain ⟨before, item, after, rfl, hmem⟩ := Item.exists_of_mem_attributes h
  cases item with
  | gap => cases hmem
  | stray => cases hmem
  | attr name value =>
    obtain rfl := Option.some.inj hmem
    -- the attribute ends where what is written behind it begins
    have hsize : Chars.size (Item.written (before ++ .attr name value :: after)) =
        Chars.size (Item.written before) + (Chars.size (name ++ value.chars) +
          Chars.size (Item.written after)) := by
      rw [Item.written_append, Item.written_cons, Chars.size_append, Chars.size_append]
      rfl
    rw [hsize]
    refine ⟨⟨by dsimp only; omega, by dsimp only; omega⟩, ?_⟩
    intro v hv
    obtain ⟨hvalue, hstop⟩ := Assigned.within_value? hv
    rw [Chars.size_append]
    exact ⟨hvalue, by omega⟩

/-- A node lies in its piece. -/
theorem Piece.within_nodes {p : Piece} {offset : Nat} {node : Node} (h : node ∈ p.nodes offset) :
    node.Within (offset + Chars.size p.chars) := by
  cases p with
  | passed => cases h
  | brace => cases h
  | text cs =>
    rw [Piece.nodes] at h
    split at h
    · cases h
    · obtain rfl := List.mem_singleton.mp h
      exact ⟨by rw [String.toList_ofList], Nat.le_refl _⟩
  | interpolation inner =>
    obtain rfl := List.mem_singleton.mp h
    refine ⟨by dsimp only; omega, ?_⟩
    rw [Piece.size_interpolation]
    exact Nat.le_refl _
  | tag name items close raw =>
    obtain ⟨attr, hattr, rfl⟩ := List.mem_map.mp h
    apply (Item.within_attributes hattr).mono
    rw [Piece.size_tag]
    omega

/-- The nodes of some pieces lie in them. -/
theorem Piece.within_nodesAll {ps : List Piece} {offset : Nat} {node : Node}
    (h : node ∈ Piece.nodesAll offset ps) :
    node.Within (offset + Chars.size (Piece.written ps)) := by
  obtain ⟨before, p, after, rfl, hmem⟩ := Piece.exists_of_mem_nodesAll h
  apply (Piece.within_nodes hmem).mono
  rw [Piece.written_append, Piece.written_cons, Chars.size_append, Chars.size_append]
  omega

/-- A node lies in its template. -/
theorem within_of_mem_nodes {source : String} {node : Node} (h : node ∈ nodes source 0) :
    node.Within (Chars.size source.toList) := by
  obtain ⟨ps, hsource, hfit⟩ := exists_pieces source.toList
  rw [nodes_of_pieces hfit hsource] at h
  rw [hsource, ← Nat.zero_add (Chars.size _)]
  exact Piece.within_nodesAll h

/-- The edit of an expression lies where its node says. -/
theorem within_edits_withEdit {code : String} {quote : Quote} {surface : Surface}
    {edit : String → Edit} {n : Nat} (hedit : ∀ new, (edit new).span.Within n) {e : Edit}
    (he : e ∈ edits (withEdit (harvestExpr h code quote surface) edit)) : e.span.Within n := by
  rw [edits_withEdit, Option.mem_toList] at he
  obtain ⟨new, -, rfl⟩ := Option.map_eq_some_iff.mp he
  exact hedit new

/-- The blanks in front of a text, and what is left of it without them. -/
theorem size_takeWhile_add_trim (text : String) :
    Chars.size (text.toList.takeWhile Chars.isBlank) + (Text.trim text).utf8ByteSize ≤
      Chars.size text.toList := by
  have htrim := Chars.size_le_of_prefix (Chars.prefix_trimEnd (Chars.trimStart text.toList))
  have hcut : text.toList.takeWhile Chars.isBlank ++ Chars.trimStart text.toList = text.toList :=
    List.takeWhile_append_dropWhile
  have hsize := congrArg Chars.size hcut
  rw [Chars.size_append] at hsize
  rw [String.utf8ByteSize_eq, Text.trim, String.toList_ofList, Chars.trim]
  omega

/-- The edits of a node lie in its text. -/
theorem within_edits_harvestNode {node : Node} {n : Nat} (hnode : node.Within n) {e : Edit}
    (he : e ∈ edits (harvestNode h node)) : e.span.Within n := by
  rcases node with ⟨text, span⟩ | ⟨expr, span, exprSpan⟩ | ⟨name, value, span⟩
  · -- of a text, what is left without the blanks around it
    rw [harvestNode, harvestText] at he
    split at he
    · split at he
      · rename_i inner hinner
        refine within_edits_withEdit ?_ he
        intro new
        exact within_shift (Chars.trimmedSpan?_within hinner) hnode.1 hnode.2
      · cases he
    · cases he
  · rw [harvestNode, harvestInterpolation] at he
    split at he
    · cases he
    · refine within_edits_withEdit ?_ he
      exact fun _ => hnode
  · obtain ⟨hspan, hvalues⟩ := hnode
    rw [harvestNode] at he
    dsimp only at he hspan hvalues
    cases value with
    | none => cases he
    | some value =>
      obtain ⟨hsize, hstop⟩ := hvalues value rfl
      dsimp only at he
      split at he
      · rw [harvestDirective] at he
        dsimp only at he
        split at he
        · cases he
        · refine within_edits_withEdit ?_ he
          intro new
          split
          · -- between quotes the blanks around the expression stay
            have htrim := size_takeWhile_add_trim value.text
            exact ⟨by dsimp only; omega, by dsimp only; omega⟩
          · exact ⟨by dsimp only; omega, hstop⟩
      · rw [harvestPlainAttribute] at he
        split at he
        · exact within_edits_withEdit (fun _ => hspan) he
        · cases he

/-! ## Templates -/

/-- A template as a text of its own. -/
def Block.alone (b : Block) : Block :=
  { b with offset := 0 }

/-- Edits of many actions. -/
theorem edits_flatMap {α : Type} (f : α → List Action) (l : List α) :
    edits (l.flatMap f) = l.flatMap fun a => edits (f a) :=
  List.filterMap_flatMap

/-- The edits of a template, moved from a text of its own to its place. -/
theorem edits_harvestTemplate (h : Harvester) (template : Block) :
    (harvestTemplate h template).patch.edits =
      (harvestTemplate h template.alone).patch.edits.map (·.shift template.offset) := by
  have hplain : isPlainTemplate template.alone = isPlainTemplate template := rfl
  rw [harvestTemplate, harvestTemplate, hplain]
  split
  · have hmove := nodes_eq_map_shift template.content template.offset
    have hactions : ∀ ns : List Node, (ofActions (ns.flatMap (harvestNode h))).patch.edits =
        ns.flatMap fun node => edits (harvestNode h node) := edits_flatMap (harvestNode h)
    rw [hactions, hactions, hmove, List.flatMap_map, List.map_flatMap]
    simp only [edits_harvestNode_shift]
    rfl
  · rfl

/-- Where a node stands does not matter for what is looked for in it. -/
theorem part?_shift (node : Node) (k : Nat) : part? h (node.shift k) = part? h node := by
  rcases node with ⟨text, span⟩ | ⟨expr, span, exprSpan⟩ | ⟨name, value, span⟩
  · rfl
  · rfl
  · cases value with
    | none => rfl
    | some value => rfl

/-- What a template files does not depend on where it stands. -/
theorem catalog_harvestTemplate (h : Harvester) (template : Block) :
    (harvestTemplate h template).catalog = (harvestTemplate h template.alone).catalog := by
  have hplain : isPlainTemplate template.alone = isPlainTemplate template := rfl
  rw [harvestTemplate, harvestTemplate, hplain]
  split
  · have hmove := nodes_eq_map_shift template.content template.offset
    -- the catalog of nodes is filed from their entries in order, and those do not move
    have hcatalog : ∀ ns : List Node, (ofActions (ns.flatMap (harvestNode h))).catalog =
        .ofList (ns.flatMap fun node => entries (harvestNode h node)) := by
      intro ns
      rw [ofActions, entries_flatMap]
    rw [hcatalog, hcatalog, hmove, List.flatMap_map]
    simp only [entries_harvestNode, nodeTexts, part?_shift]
    rfl
  · rfl

/-- The edits of a template lie in it. -/
theorem within_of_mem_harvestTemplate {template : Block} {e : Edit}
    (he : e ∈ (harvestTemplate h template.alone).patch.edits) :
    e.span.Within (Chars.size template.content.toList) := by
  rw [harvestTemplate] at he
  split at he
  · have hactions : e ∈ edits ((nodes template.content 0).flatMap (harvestNode h)) := he
    rw [edits_flatMap, List.mem_flatMap] at hactions
    obtain ⟨node, hnode, hmem⟩ := hactions
    exact within_edits_harvestNode (within_of_mem_nodes hnode) hmem
  · cases he

end Component

end TextHarvest
