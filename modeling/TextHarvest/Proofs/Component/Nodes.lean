import TextHarvest.Proofs.Component.Rewritten
import TextHarvest.Proofs.Component.WholeCharacters
import TextHarvest.Proofs.Harvest.Fitting
import TextHarvest.Proofs.Patch.Kept

/-!
# The nodes of a template are where they say

A template is read as pieces that stand one behind the other, and a node is read from one piece.
So the ranges of the nodes hold the texts that the nodes carry, they come in the order of the nodes
and none reaches into the next one. Every edit is made inside the range of one node: edits of a
template can not get in each other's way, whatever is written there.

* `SpansInOrder` — ranges that come one behind the other between two places.
* `Node.Stands` — what the ranges of a node hold.
* `inOrder_nodesAll`, `stands_of_mem_nodesAll` — the nodes of a sequence of pieces.
* `Node.Stands.edit` — an edit replaces a part of its node.

Main result: `nodes_stand`.
-/

namespace TextHarvest

/-! ## Ranges in order -/

/-- Ranges that hold something and come one behind the other between two places. -/
structure SpansInOrder (start stop : Nat) (ss : List Span) : Prop where
  filled : ∀ s ∈ ss, start ≤ s.start ∧ s.start < s.stop ∧ s.stop ≤ stop
  apart : ss.Pairwise fun s t => s.stop ≤ t.start

namespace SpansInOrder

/-- No spans are in order anywhere. -/
theorem nil (start stop : Nat) : SpansInOrder start stop [] where
  filled := fun _ hs => absurd hs List.not_mem_nil
  apart := .nil

/-- A span that is not empty. -/
theorem single {start stop : Nat} {s : Span} (hstart : start ≤ s.start) (hlt : s.start < s.stop)
    (hstop : s.stop ≤ stop) : SpansInOrder start stop [s] where
  filled := by
    intro t ht
    obtain rfl := List.mem_singleton.mp ht
    exact ⟨hstart, hlt, hstop⟩
  apart := List.pairwise_singleton _ _

/-- Spans in a range are in a wider one. -/
theorem mono {start stop start' stop' : Nat} {ss : List Span} (h : SpansInOrder start stop ss)
    (hstart : start' ≤ start) (hstop : stop ≤ stop') : SpansInOrder start' stop' ss where
  filled := by
    intro s hs
    obtain ⟨hs₁, hlt, hs₂⟩ := h.filled s hs
    exact ⟨Nat.le_trans hstart hs₁, hlt, Nat.le_trans hs₂ hstop⟩
  apart := h.apart

/-- Spans of two ranges one after the other. -/
theorem append {start mid stop : Nat} {ss ts : List Span} (hss : SpansInOrder start mid ss)
    (hts : SpansInOrder mid stop ts) (hstart : start ≤ mid) (hstop : mid ≤ stop) :
    SpansInOrder start stop (ss ++ ts) where
  filled := by
    intro s hs
    -- both halves lie between the outer places
    rcases List.mem_append.mp hs with hs | hs
    · exact (hss.mono (Nat.le_refl _) hstop).filled s hs
    · exact (hts.mono hstart (Nat.le_refl _)).filled s hs
  apart := by
    refine List.pairwise_append.mpr ⟨hss.apart, hts.apart, ?_⟩
    -- the place in the middle is between them
    intro s hs t ht
    exact Nat.le_trans (hss.filled s hs).2.2 (hts.filled t ht).1

end SpansInOrder

namespace Component

open Harvest

variable {source : String} {base : Nat} {h : Harvester}

/-! ## Parts of what a range holds -/

/-- A range ends behind what it holds. -/
theorem Reads.stop_eq {s : Span} {text : String} (hreads : Reads source base s text) :
    s.stop = s.start + Chars.size text.toList := by
  obtain ⟨t, rfl, hslice⟩ := hreads
  obtain ⟨cs, hcs, rfl⟩ := Option.map_eq_some_iff.mp hslice
  obtain ⟨front, back, -, -, hstop⟩ := Chars.slice?_eq_some hcs
  rw [String.toList_ofList, Span.shift]
  dsimp only
  omega

/-- A range is within itself. -/
theorem Reads.inside_self {s : Span} {text : String} (hreads : Reads source base s text) :
    s.Inside s :=
  ⟨Nat.le_refl _, by rw [hreads.stop_eq]; exact Nat.le_add_right _ _, Nat.le_refl _⟩

/-- A part of what a range holds stands inside the range. -/
theorem Reads.part {s : Span} {text : String} (hreads : Reads source base s text)
    {front xs back : List Char} (htext : text.toList = front ++ (xs ++ back)) {t : Span}
    (hstart : t.start = s.start + Chars.size front) (hstop : t.stop = t.start + Chars.size xs) :
    t.Inside s ∧ Reads source base t (String.ofList xs) := by
  have hsize := hreads.stop_eq
  rw [htext, Chars.size_append, Chars.size_append] at hsize
  refine ⟨⟨by omega, by omega, by omega⟩, ?_⟩
  -- cut the source around the part instead of around the whole text
  obtain ⟨r, rfl, hslice⟩ := hreads
  obtain ⟨cs, hcs, rfl⟩ := Option.map_eq_some_iff.mp hslice
  rw [String.toList_ofList] at htext
  subst htext
  obtain ⟨before, after, hsource, hr, -⟩ := Chars.slice?_eq_some hcs
  have hcut : source.toList = (before ++ front) ++ (xs ++ (back ++ after)) := by
    rw [hsource]
    simp
  have ht : t = ⟨Chars.size (before ++ front) + base,
      Chars.size (before ++ front) + base + Chars.size xs⟩ := by
    rw [Span.eq_iff, hstop, hstart, Span.shift, Chars.size_append]
    dsimp only
    omega
  rw [ht]
  exact reads_of_append hcut base

/-- What stands in a source stands in a file around it. -/
theorem Reads.cuts {file : String} {s : Span} {text : String} (hreads : Reads source base s text)
    (hfile : Text.slice? file ⟨base, base + source.utf8ByteSize⟩ = some source) :
    s.Cuts file.toList := by
  obtain ⟨t, rfl, hslice⟩ := hreads
  obtain ⟨cs, hcs, -⟩ := Option.map_eq_some_iff.mp hslice
  obtain ⟨front, back, hsource, hstart, hstop⟩ := Chars.slice?_eq_some hcs
  -- the source is what the file holds from `base` on, so the range is a piece of that
  obtain ⟨ds, hds, hsource'⟩ := Option.map_eq_some_iff.mp hfile
  have hrange : Chars.slice? file.toList ⟨base, base + source.utf8ByteSize⟩ =
      some (front ++ (cs ++ back)) := by
    rw [hds, ← hsource, ← hsource', String.toList_ofList]
  have hplace : t = ⟨Chars.size front, Chars.size front + Chars.size cs⟩ := by
    rw [Span.eq_iff, hstop, hstart]
    exact ⟨rfl, rfl⟩
  exact (piece_of_slice? hrange hplace).2

/-! ## What a node says -/

/-- The range of a node. -/
def Node.span : Node → Span
  | .text _ span => span
  | .interpolation _ span _ => span
  | .attribute attr => attr.span

/-- The ranges of a node hold what it carries. A text is not blank, an interpolation is its
expression between double braces that closes with the first pair of them, and the value of an
attribute comes after its name. -/
inductive Node.Stands (source : String) (base : Nat) : Node → Prop
  | text {text : String} {span : Span} (hreads : Reads source base span text)
      (hfilled : Text.isBlank text = false) : Stands source base (.text text span)
  | interpolation {expr : String} {span exprSpan : Span}
      (hreads : Reads source base exprSpan expr) (hclose : ¬bracesClose <:+: expr.toList)
      (hbraces : Reads source base span ("\x7b\x7b" ++ expr ++ "\x7d\x7d"))
      (hstart : exprSpan.start = span.start + 2) (hstop : span.stop = exprSpan.stop + 2) :
      Stands source base (.interpolation expr span exprSpan)
  | attr {attr : Attribute} (hwhole : attr.IsWhole source base) (hname : attr.name ≠ "")
      (hvalue : ∀ v ∈ attr.value, attr.span.start + Chars.size attr.name.toList < v.span.start ∧
        v.span.stop ≤ attr.span.stop) : Stands source base (.attribute attr)

/-- The value of an attribute stands behind an equals sign. -/
theorem Assigned.Fits.behind_sign {value : Assigned} {rest : List Char} (hfits : value.Fits rest)
    {offset : Nat} {v : AttributeValue} (hv : v ∈ value.value? offset) :
    offset < v.span.start ∧ v.span.stop ≤ offset + Chars.size value.chars := by
  -- the sign is never empty, which is what makes the order strict
  have hsize {sign : List Char} (hsign : IsSign sign) : 0 < Chars.size sign := by
    obtain ⟨before, after, rfl, -⟩ := hsign
    exact Chars.size_pos (List.append_ne_nil_of_right_ne_nil _ (List.cons_ne_nil _ _))
  refine ⟨?_, (Assigned.within_value? hv).2⟩
  cases hfits with
  | nothing => cases hv
  | dangling => cases hv
  | quoted hsign =>
    obtain rfl := Option.some.inj hv
    have hpos := hsize hsign
    dsimp only
    omega
  | bare hsign =>
    obtain rfl := Option.some.inj hv
    have hpos := hsize hsign
    dsimp only
    omega

/-- An attribute says what stands in its range. -/
theorem Item.Fits.stands {item : Item} {front after rest : List Char} (hfits : item.Fits rest)
    (hsource : source.toList = front ++ (item.chars ++ after)) {a : Attribute}
    (ha : a ∈ item.attribute? (Chars.size front + base)) :
    (Node.attribute a).Stands source base := by
  have hwhole := isWhole_of_mem_attribute? hsource base ha
  cases hfits with
  | blank => cases ha
  | slash => cases ha
  | stray => cases ha
  | @attr name value _ hname hvalue =>
    obtain rfl := Option.some.inj ha
    refine .attr hwhole ?_ ?_
    · -- a name that fits is not empty
      intro hempty
      have hnil := congrArg String.toList hempty
      rw [String.toList_ofList] at hnil
      exact hname.1 hnil
    · intro v hv
      obtain ⟨hstart, hstop⟩ := hvalue.behind_sign hv
      rw [String.toList_ofList]
      refine ⟨hstart, ?_⟩
      dsimp only
      rwa [Chars.size_append, ← Nat.add_assoc]

/-- So do all attributes of a tag. -/
theorem stands_of_mem_attributes {items : List Item} {front after rest : List Char}
    (hfit : ItemsFit rest items) (hsource : source.toList = front ++ (Item.written items ++ after))
    {a : Attribute} (ha : a ∈ Item.attributes (Chars.size front + base) items) :
    (Node.attribute a).Stands source base := by
  obtain ⟨before, item, more, rfl, hmem⟩ := Item.exists_of_mem_attributes ha
  have hcut : source.toList = (front ++ Item.written before) ++
      (item.chars ++ (Item.written more ++ after)) := by
    rw [hsource, Item.written_append, Item.written_cons]
    simp
  rw [Nat.add_right_comm, ← Chars.size_append] at hmem
  exact (hfit.of_append before).1.stands hcut hmem

/-- An interpolation says what stands between its braces. -/
theorem stands_interpolation {inner front rest : List Char}
    (hfirst : ¬bracesClose <:+: inner ++ bracesClose.dropLast)
    (hsource : source.toList = front ++ ((Piece.interpolation inner).chars ++ rest)) :
    (Node.interpolation (String.ofList inner)
      ⟨Chars.size front + base, Chars.size front + base + Chars.size inner + 4⟩
      ⟨Chars.size front + base + 2, Chars.size front + base + 2 + Chars.size inner⟩).Stands
        source base := by
  -- the expression stands two bytes further on than its piece
  have hinner : source.toList = (front ++ bracesOpen) ++ (inner ++ (bracesClose ++ rest)) := by
    rw [hsource]
    simp [Piece.chars]
  refine .interpolation ?_ ?_ ?_ rfl ?_
  · have hreads := reads_of_append hinner base
    rwa [Chars.size_append, show Chars.size bracesOpen = 2 from rfl, Nat.add_right_comm] at hreads
  · -- the closing braces were the first ones
    rw [String.toList_ofList]
    intro hholds
    exact hfirst (hholds.trans (List.prefix_append _ _).isInfix)
  · -- the whole piece, braces included
    have hreads := reads_of_append hsource base
    have hwritten : String.ofList (Piece.interpolation inner).chars =
        "\x7b\x7b" ++ String.ofList inner ++ "\x7d\x7d" := by
      rw [Piece.chars, String.ofList_append, String.ofList_append, ← String.append_assoc]
      rfl
    rwa [hwritten, Piece.size_interpolation, ← Nat.add_assoc] at hreads
  · dsimp only
    omega

/-- The nodes of a piece say what stands in their ranges. -/
theorem Piece.Fits.stands {p : Piece} {front rest : List Char} (hfits : p.Fits rest)
    (hsource : source.toList = front ++ (p.chars ++ rest)) {n : Node}
    (hn : n ∈ p.nodes (Chars.size front + base)) : n.Stands source base := by
  cases hfits with
  | comment => cases hn
  | openComment => cases hn
  | closing => cases hn
  | openClosing => cases hn
  | brace => cases hn
  | @text cs =>
    rw [Piece.nodes] at hn
    split at hn
    · cases hn
    · rename_i hblank
      obtain rfl := List.mem_singleton.mp hn
      refine .text (reads_of_append hsource base) ?_
      rw [Text.isBlank, String.toList_ofList]
      exact Bool.eq_false_iff.mpr hblank
  | interpolation hfirst =>
    obtain rfl := List.mem_singleton.mp hn
    exact stands_interpolation hfirst hsource
  | @tag name close raw _ items _ _ hitems =>
    obtain ⟨a, ha, rfl⟩ := List.mem_map.mp hn
    -- the items stand behind the name of the tag
    have hcut : source.toList = (front ++ '<' :: name) ++
        (Item.written items ++ (close ++ (raw ++ rest))) := by
      rw [hsource]
      simp [Piece.chars]
    have hoffset : Chars.size (front ++ '<' :: name) + base =
        Chars.size front + base + 1 + Chars.size name := by
      rw [Chars.size_append, Chars.size_cons, show '<'.utf8Size = 1 from rfl]
      omega
    rw [← hoffset] at ha
    exact stands_of_mem_attributes hitems hcut ha

/-- So do all nodes of a template. -/
theorem stands_of_mem_nodesAll {ps : List Piece} (hfit : PiecesFit ps)
    (hsource : source.toList = Piece.written ps) {n : Node} (hn : n ∈ Piece.nodesAll base ps) :
    n.Stands source base := by
  obtain ⟨before, p, after, rfl, hmem⟩ := Piece.exists_of_mem_nodesAll hn
  rw [Piece.written_append, Piece.written_cons] at hsource
  rw [Nat.add_comm] at hmem
  exact (hfit.of_append before).1.stands hsource hmem

/-! ## The order of the nodes -/

/-- The attributes of a tag stand one behind the other. -/
theorem inOrder_attributes {items : List Item} {rest : List Char} (hfit : ItemsFit rest items)
    (offset : Nat) : SpansInOrder offset (offset + Chars.size (Item.written items))
      ((Item.attributes offset items).map Attribute.span) := by
  induction items generalizing offset with
  | nil => exact .nil _ _
  | cons item items ih =>
    obtain ⟨hitem, hitems⟩ := hfit
    -- one range at most in this item, the others behind it
    have hlater := ih hitems (offset + Chars.size item.chars)
    have hfirst : SpansInOrder offset (offset + Chars.size item.chars)
        ((item.attribute? offset).toList.map Attribute.span) := by
      cases hitem with
      | blank => exact .nil _ _
      | slash => exact .nil _ _
      | stray => exact .nil _ _
      | attr hname hvalue =>
        have hpos := Chars.size_pos (Item.Fits.attr hname hvalue).chars_ne_nil
        refine .single (Nat.le_refl _) ?_ (Nat.le_refl _)
        dsimp only
        rw [Item.chars] at hpos
        omega
    rw [Item.attributes, List.map_append, Item.written_cons, Chars.size_append, ← Nat.add_assoc]
    exact hfirst.append hlater (Nat.le_add_right _ _) (Nat.le_add_right _ _)

/-- The nodes of a piece stand one behind the other. -/
theorem Piece.Fits.inOrder_nodes {p : Piece} {rest : List Char} (hfits : p.Fits rest)
    (offset : Nat) :
    SpansInOrder offset (offset + Chars.size p.chars) ((p.nodes offset).map Node.span) := by
  cases hfits with
  | comment => exact .nil _ _
  | openComment => exact .nil _ _
  | closing => exact .nil _ _
  | openClosing => exact .nil _ _
  | brace => exact .nil _ _
  | text hne =>
    rw [Piece.nodes]
    split
    · exact .nil _ _
    · have hpos := Chars.size_pos hne
      exact .single (Nat.le_refl _) (Nat.lt_add_of_pos_right hpos) (Nat.le_refl _)
  | @interpolation inner =>
    rw [Piece.size_interpolation]
    refine .single (Nat.le_refl _) ?_ (Nat.le_refl _)
    dsimp only [Node.span]
    omega
  | @tag name close raw _ items _ _ hitems =>
    -- all the ranges of a tag stand between its name and its end
    have hattributes := inOrder_attributes hitems (offset + 1 + Chars.size name)
    rw [Piece.nodes, List.map_map]
    refine hattributes.mono (by omega) ?_
    rw [Piece.size_tag]
    omega

/-- The nodes of a template stand one behind the other. -/
theorem inOrder_nodesAll {ps : List Piece} (hfit : PiecesFit ps) (offset : Nat) :
    SpansInOrder offset (offset + Chars.size (Piece.written ps))
      ((Piece.nodesAll offset ps).map Node.span) := by
  induction ps generalizing offset with
  | nil => exact .nil _ _
  | cons p ps ih =>
    have hfirst := hfit.1.inOrder_nodes offset
    have hlater := ih hfit.2 (offset + Chars.size p.chars)
    rw [Piece.nodesAll, List.map_append, Piece.written_cons, Chars.size_append, ← Nat.add_assoc]
    exact hfirst.append hlater (Nat.le_add_right _ _) (Nat.le_add_right _ _)

/-! ## The edits of the nodes -/

/-- The edit of a directive replaces its expression, or the whole value where that has no quotes. -/
theorem reads_directiveEdit {v : AttributeValue} (hreads : Reads source base v.span v.text)
    (htrim : Chars.trim v.text.toList ≠ []) (new : String) :
    (directiveEdit v new).span.Inside v.span ∧
      ∃ old, Reads source base (directiveEdit v new).span old := by
  by_cases hquote : v.quote.isSome = true
  · -- between quotes the blanks around the expression stay
    obtain ⟨hinside, hpart⟩ :=
      hreads.part (Chars.around_trim htrim).symm (t := (directiveEdit v new).span)
        (by rw [directiveEdit, if_pos hquote])
        (by rw [directiveEdit, if_pos hquote, String.utf8ByteSize_eq, Text.trim,
          String.toList_ofList])
    exact ⟨hinside, _, hpart⟩
  · rw [directiveEdit, if_neg hquote]
    exact ⟨hreads.inside_self, _, hreads⟩

/-- The edit of a node replaces a part of it. -/
theorem Node.Stands.edit {n : Node} (hstands : n.Stands source base) {e : Edit}
    (he : nodeEdit? h n = some e) :
    e.span.Inside n.span ∧ ∃ old, Reads source base e.span old := by
  obtain ⟨new, hnew, rfl⟩ := Option.map_eq_some_iff.mp he
  cases hstands with
  | @text text span hreads =>
    obtain ⟨inner, hinner⟩ := exists_trimmedSpan?_of_newExpr? hnew
    obtain ⟨htrim, hplace⟩ := Chars.trimmedSpan?_eq_some_iff.mp hinner
    -- the blanks around the text stay
    rw [nodeEdit, hinner, Option.getD_some]
    obtain ⟨hinside, hpart⟩ :=
      hreads.part (Chars.around_trim htrim).symm (t := inner.shift span.start)
        (by rw [hplace, Span.shift, Nat.add_comm])
        (by rw [hplace, Span.shift]; exact Nat.add_right_comm _ _ _)
    exact ⟨hinside, _, hpart⟩
  | interpolation _ _ hbraces => exact ⟨hbraces.inside_self, _, hbraces⟩
  | @attr attr hwhole _ hvalue =>
    obtain ⟨v, hv, htrim⟩ := exists_value_of_newExpr? hnew
    obtain ⟨text, hreads⟩ := hwhole.span
    rw [nodeEdit, hv]
    cases hdirective : Directive.ofName? attr.name with
    | none =>
      -- a plain attribute is replaced as a whole
      exact ⟨hreads.inside_self, text, hreads⟩
    | some d =>
      -- of a directive only the value is touched
      rw [hdirective] at htrim
      obtain ⟨hinside, hpart⟩ := reads_directiveEdit (hwhole.value v hv) (htrim rfl) new
      obtain ⟨hstart, hstop⟩ := hvalue v hv
      have hvalue : v.span.Inside attr.span :=
        ⟨by omega, (hwhole.value v hv).inside_self.order, hstop⟩
      exact ⟨hinside.trans hvalue, hpart⟩

/-- Edits that are made inside ranges in order are in order. -/
theorem pairwise_edits {ns : List Node} {f : Node → List Edit}
    (hnodes : ns.Pairwise fun m n => m.span.stop ≤ n.span.start)
    (hsole : ∀ n ∈ ns, f n = [] ∨ ∃ e, f n = [e] ∧ e.span.Inside n.span) :
    (ns.flatMap f).Pairwise fun d e => d.span.stop ≤ e.span.start := by
  rw [List.pairwise_flatMap]
  have hinside : ∀ n ∈ ns, ∀ e ∈ f n, e.span.Inside n.span := by
    intro n hn e he
    rcases hsole n hn with hnone | ⟨d, hsome, hd⟩
    · rw [hnone] at he
      cases he
    · rw [hsome] at he
      obtain rfl := List.mem_singleton.mp he
      exact hd
  constructor
  · -- one node has one edit at most
    intro n hn
    rcases hsole n hn with hnone | ⟨d, hsome, -⟩
    · rw [hnone]
      exact .nil
    · rw [hsome]
      exact List.pairwise_singleton _ _
  · -- and what is inside of two ranges is as far apart as they are
    refine hnodes.imp_of_mem ?_
    intro m n hm hn hle d hd e he
    exact Nat.le_trans (hinside m hm d hd).stop (Nat.le_trans hle (hinside n hn e he).start)

/-! ## What reading a template comes to -/

/-- The nodes that are read from a template at `base`: they hold what stands there, they come in
order, and the edits that are made in them are all applied. -/
structure NodesStand (source : String) (base : Nat) (ns : List Node) : Prop where
  inside : ∀ n ∈ ns, n.span.Inside ⟨base, base + source.utf8ByteSize⟩
  stands : ∀ n ∈ ns, n.Stands source base
  filled : ∀ n ∈ ns, n.span.start < n.span.stop
  apart : ns.Pairwise fun m n => m.span.stop ≤ n.span.start
  edited : ∀ (h : Harvester), ∀ n ∈ ns, edits (harvestNode h n) = [] ∨
    ∃ e, edits (harvestNode h n) = [e] ∧ e.span.Inside n.span
  harvested : ∀ (h : Harvester) (template : Block), isPlainTemplate template = true →
    template.content = source → template.offset = base →
    (harvestTemplate h template).patch.edits = ns.flatMap fun n => edits (harvestNode h n)
  editsApart : ∀ h : Harvester, (ns.flatMap fun n => edits (harvestNode h n)).Pairwise
    fun d e => d.span.stop ≤ e.span.start
  applied : ∀ (h : Harvester) (file : String),
    Text.slice? file ⟨base, base + source.utf8ByteSize⟩ = some source →
    (Patch.mk (ns.flatMap fun n => edits (harvestNode h n))).AppliesAll file

/-- A node has at most one edit, within its range. -/
theorem sole_edit {ns : List Node} (hstands : ∀ n ∈ ns, n.Stands source base) :
    ∀ n ∈ ns, edits (harvestNode h n) = [] ∨
      ∃ e, edits (harvestNode h n) = [e] ∧ e.span.Inside n.span := by
  intro n hn
  rw [edits_harvestNode]
  cases he : nodeEdit? h n with
  | none => exact Or.inl rfl
  | some e => exact Or.inr ⟨e, rfl, ((hstands n hn).edit he).1⟩

/-- The nodes of a template hold what stands there and come in order, so that the edits of a
template are all applied. -/
theorem nodes_stand {source : String} {base : Nat} {ns : List Node}
    (hread : Bytes.nodes source base = some ns) : NodesStand source base ns := by
  obtain ⟨ps, hsource, hfit⟩ := exists_pieces source.toList
  have hpieces : Piece.nodesAll base ps = ns := by
    rw [bytes_nodes hsource hfit] at hread
    split at hread
    · cases hread
    · exact Option.some.inj hread
  -- reading by bytes and reading by characters come to the same nodes
  have hnodes : nodes source base = ns := (nodes_of_pieces hfit hsource base).trans hpieces
  have hstands : ∀ n ∈ ns, n.Stands source base := by
    intro n hn
    rw [← hpieces] at hn
    exact stands_of_mem_nodesAll hfit hsource hn
  have horder : SpansInOrder base (base + source.utf8ByteSize) (ns.map Node.span) := by
    rw [← hpieces, String.utf8ByteSize_eq, hsource]
    exact inOrder_nodesAll hfit base
  have hfilled : ∀ n ∈ ns, base ≤ n.span.start ∧ n.span.start < n.span.stop ∧
      n.span.stop ≤ base + source.utf8ByteSize :=
    fun n hn => horder.filled n.span (List.mem_map_of_mem hn)
  have hapart : ns.Pairwise fun m n => m.span.stop ≤ n.span.start :=
    List.pairwise_map.mp horder.apart
  have hedits (h : Harvester) := pairwise_edits hapart (sole_edit hstands (h := h))
  constructor
  case inside =>
    intro n hn
    obtain ⟨hstart, hlt, hstop⟩ := hfilled n hn
    exact ⟨hstart, Nat.le_of_lt hlt, hstop⟩
  case stands => exact hstands
  case filled => exact fun n hn => (hfilled n hn).2.1
  case apart => exact hapart
  case edited => exact fun h => sole_edit hstands
  case harvested =>
    intro h template hplain hcontent hoffset
    rw [harvestTemplate, if_pos hplain, hcontent, hoffset, hnodes]
    exact edits_flatMap (harvestNode h) ns
  case editsApart => exact hedits
  case applied =>
    intro h file hfile
    apply Patch.appliesAll_of_apart
    · -- what an edit replaces stands in the source, and the source in the file
      intro e he
      obtain ⟨n, hn, hmem⟩ := List.mem_flatMap.mp he
      rw [edits_harvestNode, Option.mem_toList] at hmem
      obtain ⟨old, hreads⟩ := ((hstands n hn).edit hmem).2
      exact hreads.cuts hfile
    · exact (hedits h).imp Or.inl

/-- A template with an attribute, a text and an interpolation. -/
theorem nodes_stand_paragraph :
    Bytes.nodes "<p a='b'>c \x7b\x7b d \x7d\x7d</p>" 10 =
      some [.attribute ⟨"a", some ⟨"b", ⟨16, 17⟩, some '\x27'⟩, ⟨13, 18⟩⟩, .text "c " ⟨19, 21⟩,
        .interpolation " d " ⟨21, 28⟩ ⟨23, 26⟩] ∧
      NodesStand "<p a='b'>c \x7b\x7b d \x7d\x7d</p>" 10
        [.attribute ⟨"a", some ⟨"b", ⟨16, 17⟩, some '\x27'⟩, ⟨13, 18⟩⟩, .text "c " ⟨19, 21⟩,
          .interpolation " d " ⟨21, 28⟩ ⟨23, 26⟩] := by
  have hread : Bytes.nodes "<p a='b'>c \x7b\x7b d \x7d\x7d</p>" 10 =
      some [.attribute ⟨"a", some ⟨"b", ⟨16, 17⟩, some '\x27'⟩, ⟨13, 18⟩⟩, .text "c " ⟨19, 21⟩,
        .interpolation " d " ⟨21, 28⟩ ⟨23, 26⟩] := by
    decide +kernel
  exact ⟨hread, nodes_stand hread⟩

end Component

end TextHarvest
