import TextHarvest.Proofs.Component.Layout
import TextHarvest.Proofs.Component.Refit

/-!
# Reading a rewritten template back

A rewritten template should read as what was meant: the nodes of the template as it was, each of
those that were changed with its new expression in place. That is so when no new expression holds
the delimiter that ends it and all double braces of the template are closed. It need not be so
otherwise: the chunk of a template literal is always written in single quotes, and in an attribute
in single quotes the call ends the value.

Main results:

* `Harvester.readsBack_of_safe` — when a rewritten template reads as what was meant.
* `Harvester.not_readsBack_chunk` — a template literal in an attribute in single quotes.
-/

namespace TextHarvest

namespace Component

variable {h : Harvester}

/-! ## What is meant -/

/-- What a node says, apart from where it stands. -/
inductive Content where
  | text (content : String)
  | interpolation (expr : String)
  /-- An attribute, with the text and the quote of its value. -/
  | attribute (name : String) (value : Option (String × Option Char))
  deriving DecidableEq

def Node.content : Node → Content
  | .text content _ => .text content
  | .interpolation expr _ _ => .interpolation expr
  | .attribute attr => .attribute attr.name (attr.value.map fun value => (value.text, value.quote))

/-- What a new expression makes of a node: texts and interpolations become interpolations,
directives get a new value, and plain attributes become bound ones. -/
def Node.withExpr (new : String) : Node → Content
  | .attribute attr =>
    match attr.value, Directive.ofName? attr.name with
    | some value, some _ =>
      .attribute attr.name <| some <|
        if value.quote.isSome then
          (String.ofList (Chars.around value.text.toList new.toList), value.quote)
        else (new, some '\x22')
    | _, _ => .attribute (":" ++ attr.name) (some (new, some '\x22'))
  | _ => .interpolation (" " ++ new ++ " ")

/-- What a node of a template is meant to become. -/
def meant (h : Harvester) (node : Node) : Content :=
  match newExpr? h node with
  | some new => node.withExpr new
  | none => node.content

/-- Moving a node keeps what it holds. -/
theorem content_shift (node : Node) (k : Nat) : (node.shift k).content = node.content := by
  rcases node with _ | _ | ⟨name, value, span⟩
  · rfl
  · rfl
  · cases value <;> rfl

/-- Nor does it matter to the expression it is given. -/
theorem newExpr?_shift (node : Node) (k : Nat) : newExpr? h (node.shift k) = newExpr? h node := by
  rw [newExpr?, part?_shift, newExpr?]

theorem withExpr_shift (node : Node) (k : Nat) (new : String) :
    (node.shift k).withExpr new = node.withExpr new := by
  rcases node with _ | _ | ⟨name, value, span⟩
  · rfl
  · rfl
  · cases value with
    | none => rfl
    | some value =>
      simp only [Node.shift, Attribute.shift, Option.map_some, Node.withExpr]
      cases Directive.ofName? name <;> rfl

theorem meant_shift (node : Node) (k : Nat) : meant h (node.shift k) = meant h node := by
  simp only [meant, newExpr?_shift, content_shift, withExpr_shift]

/-- What a moved node can hold it can hold in place. -/
theorem holds_shift {node : Node} {k : Nat} {new : List Char} (hholds : (node.shift k).Holds new) :
    node.Holds new := by
  rcases node with _ | _ | ⟨name, value, span⟩
  · exact hholds
  · exact hholds
  · cases value with
    | none => exact ⟨hholds.1, by simp⟩
    | some value =>
      refine ⟨hholds.1, ?_⟩
      intro v hv
      cases hv
      exact hholds.2 (value.shift k) rfl

/-! ## The nodes of a rewritten template -/

theorem Item.attribute?_eq_shift (item : Item) (offset : Nat) :
    item.attribute? offset = (item.attribute? 0).map (·.shift offset) := by
  have hmoved := Item.attributes_add [item] 0 offset
  simp only [Nat.zero_add, Item.attributes, List.append_nil] at hmoved
  cases h0 : item.attribute? 0 with
  | none => simpa [h0] using hmoved
  | some attr => simpa [h0] using hmoved

theorem Piece.nodes_eq_shift (p : Piece) (offset : Nat) :
    p.nodes offset = (p.nodes 0).map (Node.shift offset) := by
  have hmoved := Piece.nodesAll_add [p] 0 offset
  simpa only [Nat.zero_add, Piece.nodesAll, List.append_nil] using hmoved

/-- A directive with a new expression reads as one. -/
theorem Assigned.content_renewed {value : Assigned} {offset : Nat} {v : AttributeValue}
    (hv : value.value? offset = some v) (offset' : Nat) (new : String) :
    ((value.renewed new.toList).value? offset').map (fun value => (value.text, value.quote)) =
      some (if v.quote.isSome then
        (String.ofList (Chars.around v.text.toList new.toList), v.quote)
      else (new, some '\x22')) := by
  cases value with
  | nothing => cases hv
  | dangling => cases hv
  | quoted sign mark text closed =>
    obtain rfl := Option.some.inj hv
    simp [Assigned.renewed, Assigned.value?]
  | bare sign text =>
    obtain rfl := Option.some.inj hv
    simp [Assigned.renewed, Assigned.value?]

/-- A rewritten item reads as what was meant. -/
theorem Item.content_rewritten (item : Item) :
    ((item.rewritten h).attribute? 0).map (fun attr => (Node.attribute attr).content) =
      (item.attribute? 0).map fun attr => meant h (.attribute attr) := by
  cases item with
  | gap => rfl
  | stray => rfl
  | attr name value =>
    have hattr : (Item.attr name value).attribute? 0 = some ⟨String.ofList name,
      value.value? (0 + Chars.size name), ⟨0, 0 + Chars.size (name ++ value.chars)⟩⟩ := rfl
    rw [Item.rewritten]
    cases hnew : (Item.attr name value).new? h with
    | none =>
      rw [Item.new?, hattr, Option.bind_some] at hnew
      rw [hattr, Option.map_some, Option.map_some, meant, hnew]
    | some new =>
      obtain ⟨v, hv, -⟩ := exists_value_of_newExpr? hnew
      dsimp only at hv
      rw [Item.new?, hattr, Option.bind_some] at hnew
      rw [hattr, Option.map_some, meant, hnew]
      dsimp only [Node.withExpr]
      rw [hv]
      -- a directive keeps its name and gets a new value, any other attribute becomes a binding
      cases hname : Directive.ofName? (String.ofList name) with
      | some d =>
        have hcontent := Assigned.content_renewed hv (0 + Chars.size name) new
        dsimp only [Option.isSome_some]
        rw [if_pos rfl, Item.attribute?, Option.map_some, Node.content, hcontent]
      | none =>
        dsimp only [Option.isSome_none]
        rw [if_neg Bool.false_ne_true, Item.attribute?, Option.map_some, Node.content]
        simp [Assigned.value?]

/-- The attributes of a rewritten tag hold what was meant for them. -/
theorem Item.content_attributes (items : List Item) (offset offset' : Nat) :
    (Item.attributes offset' (items.map (Item.rewritten h))).map
        (fun attr => (Node.attribute attr).content) =
      (Item.attributes offset items).map fun attr => meant h (.attribute attr) := by
  induction items generalizing offset offset' with
  | nil => rfl
  | cons item items ih =>
    have hcontent : ((item.rewritten h).attribute? offset').map
          (fun attr => (Node.attribute attr).content) =
        (item.attribute? offset).map fun attr => meant h (.attribute attr) := by
      -- what a node says does not depend on where it stands, so each is compared at the beginning
      have hzero := Item.content_rewritten (h := h) item
      have hshift (attr : Attribute) : (Node.attribute (attr.shift offset')).content =
          (Node.attribute attr).content := content_shift (.attribute attr) offset'
      have hmeant (attr : Attribute) : meant h (.attribute (attr.shift offset)) =
          meant h (.attribute attr) := meant_shift (.attribute attr) offset
      rw [Item.attribute?_eq_shift _ offset', Item.attribute?_eq_shift _ offset, Option.map_map,
        Option.map_map]
      simp only [Function.comp_def, hshift, hmeant]
      exact hzero
    rw [List.map_cons, Item.attributes, Item.attributes, List.map_append, List.map_append, ih,
      ← Option.toList_map, ← Option.toList_map, hcontent]

/-- Blanks between pieces are no nodes. -/
theorem nodesAll_blankPieces {cs : List Char} (hblank : ∀ ch ∈ cs, Chars.isBlank ch = true)
    (offset : Nat) : Piece.nodesAll offset (blankPieces cs) = [] := by
  rw [blankPieces]
  split
  · rfl
  · have hall : Chars.allBlank cs = true := List.all_eq_true.mpr hblank
    simp [Piece.nodesAll, Piece.nodes, hall]

theorem ofList_spaced (new : String) : String.ofList (spaced new) = " " ++ new ++ " " := by
  apply String.toList_inj.mp
  simp [spaced]

/-- A piece whose node is kept, or that has none, reads as before. -/
theorem Piece.content_kept {p : Piece} (hnew : p.new? h = none) (hlength : (p.nodes 0).length ≤ 1)
    (offset offset' : Nat) :
    (Piece.nodesAll offset' [p]).map Node.content = (p.nodes offset).map (meant h) := by
  have hsingle : Piece.nodesAll offset' [p] = p.nodes offset' := List.append_nil _
  rw [hsingle, Piece.nodes_eq_shift p offset', Piece.nodes_eq_shift p offset, List.map_map,
    List.map_map]
  rw [Piece.new?] at hnew
  generalize p.nodes 0 = nodes at hnew hlength ⊢
  -- a piece that is no tag has one node at most
  rcases nodes with _ | ⟨node, _ | ⟨_, _⟩⟩
  · rfl
  · rw [List.head?_cons, Option.bind_some] at hnew
    have hmeant : meant h node = node.content := by rw [meant, hnew]
    simp [content_shift, meant_shift, hmeant]
  · simp at hlength

/-- What is meant by a piece whose node gets a new expression. -/
theorem Piece.meant_changed {p : Piece} {node : Node} {new : String} (hnodes : p.nodes 0 = [node])
    (hnew : p.new? h = some new) (offset : Nat) :
    (p.nodes offset).map (meant h) = [node.withExpr new] := by
  rw [Piece.new?, hnodes, List.head?_cons, Option.bind_some] at hnew
  have hmeant : meant h node = node.withExpr new := by rw [meant, hnew]
  rw [Piece.nodes_eq_shift, hnodes, List.map_map]
  simp [meant_shift, hmeant]

/-- A rewritten text reads as what was meant. -/
theorem Piece.content_text (cs : List Char) (offset offset' : Nat) :
    (Piece.nodesAll offset' ((Piece.text cs).rewritten h)).map Node.content =
      ((Piece.text cs).nodes offset).map (meant h) := by
  rw [Piece.rewritten]
  cases hnew : (Piece.text cs).new? h with
  | none =>
    refine Piece.content_kept hnew ?_ offset offset'
    rw [Piece.nodes]
    split <;> simp
  | some new =>
    rw [Piece.meant_changed (Piece.nodes_text_of_new? hnew) hnew]
    dsimp only
    -- the blanks around the new text are pieces without a node
    rw [Piece.nodesAll_append, nodesAll_blankPieces fun _ => Chars.isBlank_of_mem_takeWhile,
      Piece.nodesAll, nodesAll_blankPieces fun _ => Chars.isBlank_of_mem_blankEnd]
    simp [Piece.nodes, Node.content, Node.withExpr, ofList_spaced]

/-- A rewritten piece reads as what was meant. -/
theorem Piece.content_rewritten (p : Piece) (offset offset' : Nat) :
    (Piece.nodesAll offset' (p.rewritten h)).map Node.content =
      (p.nodes offset).map (meant h) := by
  have hsingle (q : Piece) : Piece.nodesAll offset' [q] = q.nodes offset' := List.append_nil _
  cases p with
  | passed => rfl
  | brace => rfl
  | tag name items close raw =>
    rw [Piece.rewritten, hsingle, Piece.nodes, Piece.nodes, List.map_map, List.map_map]
    exact Item.content_attributes items _ _
  | interpolation inner =>
    rw [Piece.rewritten]
    cases hnew : (Piece.interpolation inner).new? h with
    | none => exact Piece.content_kept hnew (Nat.le_refl 1) offset offset'
    | some new =>
      rw [Piece.meant_changed rfl hnew, hsingle]
      simp [Piece.nodes, Node.content, Node.withExpr, ofList_spaced]
  | text cs => exact Piece.content_text cs offset offset'

/-- The nodes of a rewritten template hold what was meant for them. -/
theorem content_pieces (ps : List Piece) (offset offset' : Nat) :
    (Piece.nodesAll offset' (ps.flatMap (Piece.rewritten h))).map Node.content =
      (Piece.nodesAll offset ps).map (meant h) := by
  induction ps generalizing offset offset' with
  | nil => rfl
  | cons p ps ih =>
    rw [List.flatMap_cons, Piece.nodesAll_append, Piece.nodesAll, List.map_append, List.map_append,
      Piece.content_rewritten p offset, ih]

/-! ## Safe templates -/

/-- An attribute of an item, wherever the tag stands. -/
theorem Item.exists_shift_mem {items : List Item} {item : Item} (hmem : item ∈ items)
    {attr : Attribute} (hattr : item.attribute? 0 = some attr) (offset : Nat) :
    ∃ k, attr.shift k ∈ Item.attributes offset items := by
  induction items generalizing offset with
  | nil => cases hmem
  | cons other items ih =>
    rw [Item.attributes]
    rcases List.mem_cons.mp hmem with rfl | hmem
    · refine ⟨offset, List.mem_append_left _ ?_⟩
      rw [Item.attribute?_eq_shift, hattr]
      exact List.mem_cons_self
    · obtain ⟨k, hk⟩ := ih hmem (offset + Chars.size other.chars)
      exact ⟨k, List.mem_append_right _ hk⟩

/-- What can be put into the nodes of a template can be put into its pieces. -/
theorem Piece.safe_of_nodes {ps : List Piece} {offset : Nat}
    (hholds : ∀ node ∈ Piece.nodesAll offset ps, ∀ new, newExpr? h node = some new →
      node.Holds new.toList) : ∀ p ∈ ps, p.Safe h := by
  induction ps generalizing offset with
  | nil => simp
  | cons p ps ih =>
    rw [Piece.nodesAll] at hholds
    obtain ⟨hp, hps⟩ := List.forall_mem_append.mp hholds
    refine List.forall_mem_cons.mpr ⟨?_, ih hps⟩
    -- the nodes stand at an offset, but what they hold does not depend on it
    have hsafe : ∀ node ∈ p.nodes 0, ∀ new, newExpr? h node = some new →
        node.Holds new.toList := by
      intro node hnode new hnew
      apply holds_shift (k := offset)
      rw [Piece.nodes_eq_shift p offset] at hp
      exact hp _ (List.mem_map_of_mem hnode) new (by rw [newExpr?_shift, hnew])
    cases p with
    | tag name items close raw =>
      intro item hitem attr new hattr hnew
      obtain ⟨k, hk⟩ := Item.exists_shift_mem hitem hattr (0 + 1 + Chars.size name)
      have hmoved : newExpr? h (.attribute (attr.shift k)) = some new :=
        (newExpr?_shift (.attribute attr) k).trans hnew
      have hholds : ((Node.attribute attr).shift k).Holds new.toList :=
        hsafe _ (List.mem_map_of_mem hk) new hmoved
      exact holds_shift hholds
    | _ => exact hsafe

/-- Double braces that are left open are a piece of their own. -/
theorem brace_not_mem {ps : List Piece} (hfit : PiecesFit ps) {source : List Char}
    (hsource : source = Piece.written ps)
    (hclosed : ∀ front back, source = front ++ (bracesOpen ++ back) → bracesClose <:+: back) :
    Piece.brace ∉ ps := by
  intro hmem
  obtain ⟨before, after, rfl⟩ := List.append_of_mem hmem
  obtain ⟨hbrace, -⟩ := hfit.of_append before
  rw [Piece.written_append, Piece.written_cons] at hsource
  generalize Piece.written after = rest at hbrace hsource
  cases hbrace with
  | brace hopen => exact hopen (hclosed _ _ hsource)

end Component

namespace Harvester

open Component

/-- Whatever is put into a template can be put where it stands, and all double braces of the
template are closed. -/
structure WritesSafely (h : Harvester) (source : String) : Prop where
  holds : ∀ node ∈ nodes source 0, ∀ new, newExpr? h node = some new → node.Holds new.toList
  closed : ∀ front back, source.toList = front ++ (bracesOpen ++ back) → bracesClose <:+: back

/-- A rewritten template reads as what was meant. -/
def ReadsBack (h : Harvester) (template : Block) : Prop :=
  (nodes ((harvestTemplate h template.alone).patch.apply template.content) 0).map Node.content =
    (nodes template.content 0).map (meant h)

instance (h : Harvester) (template : Block) : Decidable (h.ReadsBack template) :=
  inferInstanceAs (Decidable (_ = _))

/-- A rewritten template reads as what was meant, when nothing that is put into it is cut. -/
theorem readsBack_of_safe {h : Harvester} {template : Block}
    (hplain : isPlainTemplate template = true) (hsafe : h.WritesSafely template.content) :
    h.ReadsBack template := by
  obtain ⟨ps, hsource, hfit⟩ := exists_pieces template.content.toList
  have hnodes := nodes_of_pieces hfit hsource 0
  have hholds := hsafe.holds
  rw [hnodes] at hholds
  -- an open brace that nothing closes could pair with one that is put in behind it
  have hbrace : Piece.brace ∉ ps := brace_not_mem hfit hsource hsafe.closed
  obtain ⟨hfit', -⟩ := hfit.rewritten (Piece.safe_of_nodes hholds) hbrace
  have hpatched : ((harvestTemplate h template.alone).patch.apply template.content).toList =
      Piece.written (ps.flatMap (Piece.rewritten h)) := by
    have hplain' : isPlainTemplate template.alone = true := hplain
    rw [harvestTemplate, if_pos hplain']
    exact apply_pieces hfit hsource
  -- both texts are cut into pieces, which are compared one by one
  rw [ReadsBack, nodes_of_pieces hfit' hpatched, hnodes]
  exact content_pieces ps 0 0

/-- A template with a text, a plain attribute and a directive in double quotes. -/
def safeTemplate : String :=
  "<template><p title='你好' :alt=\"`再见`\">世界</p></template>"

/-- The text and the attributes of the template are all read back as they were meant. -/
theorem readsBack_of_safe_quotes : ∃ h blocks template,
    ofOptions { replaceTexts := true } = .ok h ∧ Component.split safeTemplate = .ok blocks ∧
      blocks.template = some template ∧ h.WritesSafely template.content ∧ h.ReadsBack template ∧
      (harvestTemplate h template.alone).patch.apply template.content =
        "<p :title=\"$t('03tpnc')\" :alt=\"`$\x7b$t('03qodl')\x7d`\">" ++
          "\x7b\x7b $t('03tp3z') \x7d\x7d</p>" := by
  -- one evaluation for the reading, the conditions and the text that is written
  have heval : (ofOptions { replaceTexts := true }).toOption.map (fun h =>
      (Component.split safeTemplate).toOption.map fun blocks =>
        blocks.template.map fun template =>
          decide (isPlainTemplate template = true ∧ '\x7b' ∉ template.content.toList ∧
            ((nodes template.content 0).all fun node => (newExpr? h node).all fun new =>
              decide (node.Holds new.toList)) = true ∧
            (harvestTemplate h template.alone).patch.apply template.content =
              "<p :title=\"$t('03tpnc')\" :alt=\"`$\x7b$t('03qodl')\x7d`\">" ++
                "\x7b\x7b $t('03tp3z') \x7d\x7d</p>")) = some (some (some true)) := by
    rewrite [show safeTemplate = String.ofList _ from rfl, Component.split_ofList]
    decide +kernel
  obtain ⟨h, hh, hsplit⟩ := exists_ok_of_toOption_map heval
  obtain ⟨blocks, hblocks, htemplate⟩ := exists_ok_of_toOption_map hsplit
  obtain ⟨template, hsome, hall⟩ := Option.map_eq_some_iff.mp htemplate
  obtain ⟨hplain, hbrace, hholds, htext⟩ := of_decide_eq_true hall
  have hsafe : h.WritesSafely template.content := by
    constructor
    · intro node hnode new hnew
      have hnode := List.all_eq_true.mp hholds node hnode
      rw [hnew] at hnode
      exact of_decide_eq_true hnode
    · intro front back heq
      refine absurd ?_ hbrace
      rw [heq]
      exact List.mem_append_right front List.mem_cons_self
  exact ⟨h, blocks, template, hh, hblocks, hsome, hsafe, readsBack_of_safe hplain hsafe, htext⟩

/-- The chunk of a template literal is written in single quotes, whatever quotes are around it. -/
theorem not_readsBack_chunk : ∃ h blocks template,
    ofOptions { replaceTexts := true } = .ok h ∧
      Component.split "<template><a :title='`你好`'></a></template>" = .ok blocks ∧
      blocks.template = some template ∧ isPlainTemplate template = true ∧
      ¬h.ReadsBack template := by
  have heval : (ofOptions { replaceTexts := true }).toOption.map (fun h =>
      (Component.split "<template><a :title='`你好`'></a></template>").toOption.map fun blocks =>
        blocks.template.map fun template =>
          decide (isPlainTemplate template = true ∧ ¬h.ReadsBack template)) =
      some (some (some true)) := by
    rewrite [Component.split_ofList]
    decide +kernel
  obtain ⟨h, hh, hsplit⟩ := exists_ok_of_toOption_map heval
  obtain ⟨blocks, hblocks, htemplate⟩ := exists_ok_of_toOption_map hsplit
  obtain ⟨template, hsome, hboth⟩ := Option.map_eq_some_iff.mp htemplate
  obtain ⟨hplain, hnot⟩ := of_decide_eq_true hboth
  exact ⟨h, blocks, template, hh, hblocks, hsome, hplain, hnot⟩

end Harvester

end TextHarvest
