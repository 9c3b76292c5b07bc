import TextHarvest.Proofs.Harvest.Walk
import TextHarvest.Proofs.Patch.Regions

/-!
# Walks over moved trees

A byte-order mark in front of a script moves everything in it by three bytes. A walk over the tree
of the script, moved by as much, takes the same actions at the moved places: it reads the same
texts from the source, and whatever it decides by kinds, names and values stays the same.

Main results:

* `visits_shift` — the children of a moved node are visited as before.
* `enter_shift` and `leave_shift` — the same is done at a moved node.
* `walk_shift` — a walk over a moved tree takes the same actions, moved.
-/

namespace TextHarvest

/-! ## Moving trees -/

namespace Script

def Chunk.shift (k : Nat) (c : Chunk) : Chunk :=
  { c with span := c.span.shift k }

def Specifier.shift (k : Nat) (s : Specifier) : Specifier :=
  { s with span := s.span.shift k }

def ImportClause.shift (k : Nat) (c : ImportClause) : ImportClause :=
  { c with specifiers := c.specifiers.map (Specifier.shift k) }

def TagName.shift (k : Nat) : TagName → TagName
  | .plain name span => .plain name (span.shift k)
  | n => n

/-- The same kind of node in a text that starts `k` bytes earlier. -/
def Kind.shift (k : Nat) : Kind → Kind
  | .template chunks => .template (chunks.map (Chunk.shift k))
  | .tagged chunks => .tagged (chunks.map (Chunk.shift k))
  | .element name => .element (name.shift k)
  | .importDecl clause => .importDecl (clause.shift k)
  | kind => kind

mutual

/-- The same tree in a text that starts `k` bytes earlier. -/
def Tree.shift (k : Nat) : Tree → Tree
  | .node kind span children => .node (kind.shift k) (span.shift k) (Tree.shiftAll k children)

def Tree.shiftAll (k : Nat) : List Tree → List Tree
  | [] => []
  | t :: ts => t.shift k :: Tree.shiftAll k ts

end

namespace Tree

/-- Moving some trees is moving each. -/
theorem shiftAll_eq_map (k : Nat) (ts : List Tree) : shiftAll k ts = ts.map (shift k) := by
  induction ts with
  | nil => rfl
  | cons t ts ih => rw [shiftAll, ih, List.map_cons]

/-- A node moves with its kind, its span and its children. -/
theorem shift_node (k : Nat) (kind : Kind) (span : Span) (children : List Tree) :
    (Tree.node kind span children).shift k =
      .node (kind.shift k) (span.shift k) (children.map (shift k)) := by
  rw [shift, shiftAll_eq_map]

@[simp] theorem span_shift (k : Nat) (t : Tree) : (t.shift k).span = t.span.shift k := by
  cases t
  rfl

/-- A moved literal has the same value. -/
@[simp] theorem literal?_shift (k : Nat) (t : Tree) : (t.shift k).literal? = t.literal? := by
  obtain ⟨kind, span, children⟩ := t
  rw [shift_node]
  cases kind <;> rfl

/-- A moved hole is a hole. -/
theorem kind_shift_ne_hole (k : Nat) (t : Tree) :
    ((t.shift k).kind != .hole) = (t.kind != .hole) := by
  obtain ⟨kind, span, children⟩ := t
  rw [shift_node]
  cases kind <;> rfl

/-- A moved key is as static as before. -/
@[simp] theorem isStaticKey_shift (k : Nat) (t : Tree) :
    (t.shift k).isStaticKey = t.isStaticKey := by
  obtain ⟨kind, span, children⟩ := t
  rw [shift_node]
  cases kind <;> first | rfl | simp [Kind.shift, isStaticKey]

/-- A moved constant has the same text. -/
@[simp] theorem constant?_shift (k : Nat) (t : Tree) : (t.shift k).constant? = t.constant? := by
  obtain ⟨kind, span, children⟩ := t
  rw [shift_node]
  cases kind with
  | template chunks => cases chunks <;> cases children <;> rfl
  | _ => rfl

/-- What is spread moves with the spread. -/
@[simp] theorem unspread_shift (k : Nat) (t : Tree) :
    (t.shift k).unspread = t.unspread.shift k := by
  obtain ⟨kind, span, children⟩ := t
  rw [shift_node]
  cases kind with
  | spread =>
    cases children with
    | nil => rfl
    | cons c cs => rfl
  | _ => exact (shift_node ..).symm

/-- The name of a member does not depend on where it stands. -/
@[simp] theorem memberName?_shift (k : Nat) (name : MemberName) (computed : List Tree) :
    memberName? name (computed.map (shift k)) = memberName? name computed := by
  cases name with
  | computed =>
    cases computed with
    | nil => rfl
    | cons e es => exact literal?_shift k e
  | _ => rfl

/-- The path of a callee does not depend on where it stands. -/
@[simp] theorem path?_shift (k : Nat) (t : Tree) : (t.shift k).path? = t.path? := by
  fun_induction path? t with
  | case8 t hident hthis himport hparen hnonNull hasType hmember =>
    -- what has no path keeps having none: only the number of children could give it one
    obtain ⟨kind, span, children⟩ := t
    rw [shift_node]
    cases children with
    | nil =>
      cases kind with
      | ident n => exact absurd rfl (hident n span [])
      | thisRef => exact absurd rfl (hthis span [])
      | importRef => exact absurd rfl (himport span [])
      | ascribed form => cases form <;> rfl
      | _ => rfl
    | cons c cs =>
      cases kind with
      | ident n => exact absurd rfl (hident n span _)
      | thisRef => exact absurd rfl (hthis span _)
      | importRef => exact absurd rfl (himport span _)
      | paren => exact absurd rfl (hparen span c cs)
      | ascribed form =>
        cases form with
        | nonNull => exact absurd rfl (hnonNull span c cs)
        | asType => exact absurd rfl (hasType span c cs)
        | _ => rfl
      | member chained name => exact absurd rfl (hmember chained name span c cs)
      | _ => rfl
  | _ => simp_all [shift_node, Kind.shift, path?]

end Tree

end Script

/-- The same action in a text that starts `k` bytes earlier. -/
def Action.shift (k : Nat) : Action → Action
  | .edit e => .edit (e.shift k)
  | a => a

namespace Action

@[simp] theorem shift_edit (k : Nat) (e : Edit) : (Action.edit e).shift k = .edit (e.shift k) := rfl

@[simp] theorem shift_file (k : Nat) (key text : String) :
    (Action.file key text).shift k = .file key text := rfl

@[simp] theorem shift_record (k : Nat) (f : Finding) : (Action.record f).shift k = .record f := rfl

@[simp] theorem shift_useWrapper (k : Nat) : Action.useWrapper.shift k = .useWrapper := rfl

@[simp] theorem shift_replace (k : Nat) (span : Span) (text : String) :
    (Action.replace span text).shift k = .replace (span.shift k) text := rfl

@[simp] theorem shift_insert (k offset : Nat) (text : String) :
    (Action.insert offset text).shift k = .insert (offset + k) text := rfl

end Action

/-! ## A text with a mark -/

/-- The byte-order mark. -/
def mark : Char := '\ufeff'

theorem utf8Size_mark : mark.utf8Size = 3 := rfl

namespace Chars

/-- A range behind the mark has the characters that it has without the mark. -/
theorem slice?_mark (cs : List Char) (span : Span) :
    slice? (mark :: cs) (span.shift 3) = slice? cs span := by
  have hdrop : drop? (mark :: cs) (span.start + 3) = drop? cs span.start := by
    rw [drop?, utf8Size_mark, if_pos (by omega)]
    rfl
  have hlength : span.stop + 3 - (span.start + 3) = span.stop - span.start := by omega
  simp only [slice?, Span.shift, hdrop, hlength, Nat.add_le_add_iff_right]

/-- A cut behind the mark is one of the text, with the mark in its front. -/
theorem splitAt?_mark (cs : List Char) (n : Nat) :
    splitAt? (mark :: cs) (n + 3) = (splitAt? cs n).map fun cut => (mark :: cut.1, cut.2) := by
  rw [Nat.add_comm]
  exact splitAt?_append_add [mark] cs n

/-- The mark is no blank, so it stays when a text is trimmed at its end. -/
theorem trimEnd_mark (cs : List Char) : trimEnd (mark :: cs) = mark :: trimEnd cs := by
  have hdrop : ∀ ds : List Char,
      (ds ++ [mark]).dropWhile isBlank = ds.dropWhile isBlank ++ [mark] := by
    intro ds
    induction ds with
    | nil => decide
    | cons d ds ih =>
      rw [List.cons_append, List.dropWhile_cons, List.dropWhile_cons, ih]
      split <;> rfl
  rw [trimEnd, List.reverse_cons, hdrop, List.reverse_append]
  rfl

end Chars

namespace Harvest

open Script

/-- The same place of a script with a mark in front. -/
def Site.marked (site : Site) : Site :=
  { site with source := mark :: site.source }

/-- The same visit in a script with a mark in front. -/
def Visit.marked : Visit → Visit :=
  Option.map fun v => (v.1.marked, v.2)

section

variable (site : Site)

/-- The call around a place has nothing to do with the mark. -/
theorem Site.within_marked (call : Option String) :
    site.marked.within call = (site.within call).marked := rfl

@[simp] theorem Visit.marked_visit : Visit.marked site.visit = site.marked.visit := rfl

@[simp] theorem Visit.marked_none : Visit.marked none = none := rfl

@[simp] theorem Visit.marked_some (role : Role) :
    Visit.marked (some (site, role)) = some (site.marked, role) := rfl

/-- At a literal the same is done, behind the mark. -/
theorem literal_shift (span : Span) (value : Option String) (slot : Slot) :
    site.marked.literal (span.shift 3) value slot =
      (site.literal span value slot).map (Action.shift 3) := by
  cases value with
  | none => rfl
  | some v =>
    have htakes : site.marked.takesLiteral v = site.takesLiteral v := rfl
    rw [Site.literal, Site.literal, htakes]
    split
    · cases slot <;> rfl
    · rfl

/-- At a constant argument the same is done, behind the mark. -/
theorem constantArgument_shift (span : Span) (value : Option String) (count : Nat) :
    site.marked.constantArgument (span.shift 3) value count =
      (site.constantArgument span value count).map (Action.shift 3) := by
  have hharvester : site.marked.harvester = site.harvester := rfl
  have hoptions : site.marked.options = site.options := rfl
  have hquote : site.marked.quote = site.quote := rfl
  rw [Site.constantArgument, Site.constantArgument, hharvester, hoptions, hquote]
  -- what is done depends on the text alone, where on the range
  cases value.map Text.trim with
  | none => rfl
  | some text =>
    dsimp only
    by_cases hempty : (text == "") = true
    · rw [if_pos hempty, if_pos hempty]
      rfl
    · rw [if_neg hempty, if_neg hempty]
      cases site.harvester.knownText text with
      | some known => rfl
      | none =>
        dsimp only
        by_cases haccepts : site.harvester.accepts text = true
        · rw [if_pos haccepts, if_pos haccepts]
          rfl
        · rw [if_neg haccepts, if_neg haccepts]
          rfl

/-- At a chunk of a template the same is done, behind the mark. -/
theorem chunk_shift (c : Chunk) :
    site.marked.chunk (c.shift 3) = (site.chunk c).map (Action.shift 3) := by
  have hcooked : (c.shift 3).cooked = c.cooked := rfl
  have hraw : (c.shift 3).raw = c.raw := rfl
  have hslice : Chars.slice? site.marked.source (c.shift 3).span =
      Chars.slice? site.source c.span := Chars.slice?_mark site.source c.span
  have hharvester : site.marked.harvester = site.harvester := rfl
  rw [Site.chunk, Site.chunk, hcooked, hraw, hslice, hharvester]
  cases c.cooked with
  | none => rfl
  | some cooked =>
    dsimp only
    by_cases htaken : (site.harvester.accepts (Text.trim cooked) &&
        Chars.slice? site.source c.span == some c.raw.toList) = true
    · rw [if_pos htaken, if_pos htaken]
      cases writtenSpan? c.raw.toList cooked.toList with
      | none => rfl
      | some inner =>
        -- the written text of a chunk moves with the chunk
        have hplace : inner.shift (c.shift 3).span.start = (inner.shift c.span.start).shift 3 := by
          simp only [Chunk.shift, Span.shift, Nat.add_assoc]
        dsimp only
        rw [hplace]
        rfl
    · rw [if_neg htaken, if_neg htaken]
      rfl

/-- At the chunks of a template the same is done, behind the mark. -/
theorem chunks_shift (cs : List Chunk) : site.marked.chunks (cs.map (Chunk.shift 3)) =
    (site.chunks cs).map (Action.shift 3) := by
  have htakes : site.marked.takesTexts = site.takesTexts := rfl
  rw [Site.chunks, Site.chunks, htakes]
  by_cases htexts : site.takesTexts = true
  · rw [if_pos htexts, if_pos htexts, List.flatMap_map, List.map_flatMap]
    simp only [chunk_shift]
  · rw [if_neg htexts, if_neg htexts]
    rfl

/-- A template with substitutions has the same wording behind the mark. -/
theorem dynamicArgument_shift (span : Span) : site.marked.dynamicArgument (span.shift 3) =
    (site.dynamicArgument span).map (Action.shift 3) := by
  have hslice : Chars.slice? site.marked.source (span.shift 3) = Chars.slice? site.source span :=
    Chars.slice?_mark site.source span
  rw [Site.dynamicArgument, Site.dynamicArgument, hslice]
  rfl

/-- At the text of an element the same is done, behind the mark. -/
theorem elementText_shift (span : Span) : site.marked.elementText (span.shift 3) =
    (site.elementText span).map (Action.shift 3) := by
  have htakes : site.marked.takesTexts = site.takesTexts := rfl
  have hslice : Chars.slice? site.marked.source (span.shift 3) = Chars.slice? site.source span :=
    Chars.slice?_mark site.source span
  have hharvester : site.marked.harvester = site.harvester := rfl
  have hoptions : site.marked.options = site.options := rfl
  rw [Site.elementText, Site.elementText, htakes, hslice, hharvester, hoptions]
  by_cases htexts : site.takesTexts = true
  · rw [if_pos htexts, if_pos htexts]
    cases Chars.slice? site.source span with
    | none => rfl
    | some raw =>
      dsimp only
      cases Chars.trimmedSpan? raw with
      | none => rfl
      | some inner =>
        -- moving the place of the element moves the place of its text
        have hplace : inner.shift (span.shift 3).start = (inner.shift span.start).shift 3 := by
          simp only [Span.shift, Nat.add_assoc]
        dsimp only
        rw [hplace]
        by_cases haccepts : site.harvester.accepts
            (Text.decodeEntities (Text.collapse (String.ofList raw))) = true
        · rw [if_pos haccepts, if_pos haccepts, List.map_append]
          by_cases hjsx : site.options.jsx = true
          · rw [if_pos hjsx, if_pos hjsx]
            rfl
          · rw [if_neg hjsx, if_neg hjsx]
            rfl
        · rw [if_neg haccepts, if_neg haccepts]
          rfl
  · rw [if_neg htexts, if_neg htexts]
    rfl

/-- The constant text of an attribute does not depend on where it stands. -/
theorem attributeText?_shift (k : Nat) (value : List Tree) :
    Site.attributeText? (value.map (Tree.shift k)) = Site.attributeText? value := by
  cases value with
  | nil => rfl
  | cons v vs =>
    cases vs with
    | nil =>
      obtain ⟨kind, span, children⟩ := v
      rw [List.map_singleton, Tree.shift_node]
      cases kind with
      | container =>
        cases children with
        | nil => rfl
        | cons e es =>
          cases es with
          | nil => exact Tree.constant?_shift k e
          | cons => rfl
      | _ => rfl
    | cons w ws => simp [Site.attributeText?]

/-- One attribute after the other, the last of a name has the last word. -/
def laterAttribute (name : String) (found : Option (String × Span)) (t : Tree) :
    Option (String × Span) :=
  match t with
  | .node (.attribute (.plain n)) span value =>
    if n == name then (Site.attributeText? value).map fun text => (text, span) else found
  | _ => found

/-- A later attribute of a name is still the later one. -/
theorem laterAttribute_shift (name : String) (found : Option (String × Span)) (t : Tree) (k : Nat) :
    laterAttribute name (found.map fun f => (f.1, f.2.shift k)) (t.shift k) =
      (laterAttribute name found t).map fun f => (f.1, f.2.shift k) := by
  obtain ⟨kind, span, children⟩ := t
  rw [Tree.shift_node]
  cases kind with
  | «attribute» attr =>
    cases attr with
    | plain n =>
      dsimp only [Kind.shift, laterAttribute]
      rw [attributeText?_shift]
      split
      · cases Site.attributeText? children <;> rfl
      · rfl
    | _ => rfl
  | _ => rfl

/-- The last attribute of a name has the same text, at its new place. -/
theorem lastAttribute_shift (name : String) (attributes : List Tree) (k : Nat) :
    Site.lastAttribute name (attributes.map (Tree.shift k)) =
      (Site.lastAttribute name attributes).map fun found => (found.1, found.2.shift k) := by
  -- by induction on the attributes, for any one that was found before
  have hfold : ∀ (ts : List Tree) (found : Option (String × Span)),
      (ts.map (Tree.shift k)).foldl (laterAttribute name)
          (found.map fun f => (f.1, f.2.shift k)) =
        (ts.foldl (laterAttribute name) found).map fun f => (f.1, f.2.shift k) := by
    intro ts
    induction ts with
    | nil => exact fun _ => rfl
    | cons t ts ih =>
      intro found
      rw [List.map_cons, List.foldl_cons, List.foldl_cons, laterAttribute_shift, ih]
  exact hfold attributes none

/-- A message is removed with the same blanks, behind the mark. -/
theorem removal_shift (span : Span) :
    removal site.marked (span.shift 3) = (removal site span).map (Action.shift 3) := by
  have hoptions : site.marked.options = site.options := rfl
  have hcut : Chars.splitAt? site.marked.source (span.shift 3).start =
      (Chars.splitAt? site.source span.start).map fun cut => (mark :: cut.1, cut.2) :=
    Chars.splitAt?_mark site.source span.start
  rw [removal_eq, removal_eq, hoptions, hcut]
  -- the blanks in front of the message do not reach back to the mark
  by_cases hkeep : site.options.keepDefaultMsg = true
  · rw [if_pos hkeep, if_pos hkeep]
    rfl
  · rw [if_neg hkeep, if_neg hkeep]
    cases Chars.splitAt? site.source span.start with
    | none => rfl
    | some cut =>
      obtain ⟨before, after⟩ := cut
      have hsize : Chars.size (Chars.trimEnd (mark :: before)) =
          Chars.size (Chars.trimEnd before) + 3 := by
        rw [Chars.trimEnd_mark, Chars.size_cons, utf8Size_mark, Nat.add_comm]
      dsimp only [Option.map_some]
      rw [hsize]
      rfl

/-- At a wrapper element the same is done, behind the mark. -/
theorem wrapperElement_shift (nameEnd : Nat) (attributes : List Tree) :
    site.marked.wrapperElement (nameEnd + 3) (attributes.map (Tree.shift 3)) =
      (site.wrapperElement nameEnd attributes).map (Action.shift 3) := by
  by_cases hsome : ∃ message span,
      Site.lastAttribute "msg" attributes = some (message, span) ∧ Text.trim message ≠ ""
  · obtain ⟨message, span, hmessage, hne⟩ := hsome
    -- a message has its text kept and its range moved
    have hmoved : Site.lastAttribute "msg" (attributes.map (Tree.shift 3)) =
        some (message, span.shift 3) := by
      rw [lastAttribute_shift, hmessage]
      rfl
    rw [wrapperElement_of_message hmoved hne, wrapperElement_of_message hmessage hne,
      removal_shift, lastAttribute_shift]
    cases Site.lastAttribute "id" attributes with
    | none => rfl
    | some id => rfl
  · have hnone : ∀ message span, Site.lastAttribute "msg" attributes = some (message, span) →
        Text.trim message = "" := by
      intro message span hmessage
      exact Classical.byContradiction fun hne => hsome ⟨message, span, hmessage, hne⟩
    rw [wrapperElement_of_no_message hnone, wrapperElement_of_no_message]
    · rfl
    · intro message span hmoved
      rw [lastAttribute_shift] at hmoved
      obtain ⟨found, hfound, heq⟩ := Option.map_eq_some_iff.mp hmoved
      obtain ⟨rfl, -⟩ := Prod.mk.inj heq
      exact hnone _ _ hfound

/-! ## A moved tree -/

/-- The name of a property does not depend on where it stands. -/
theorem propertyName?_shift (k : Nat) (t : Tree) : propertyName? (t.shift k) = propertyName? t := by
  obtain ⟨kind, span, children⟩ := t
  rw [Tree.shift_node]
  cases kind <;> rfl

/-- The name of a property whose text is replaced by a call. -/
def dynamicName? (t : Tree) : Option String :=
  match t with
  | .node .property _ [key, .node (.strLit (some value)) _ _] =>
    if site.takesLiteral value then propertyName? key else none
  | _ => none

/-- Nor does the question whether its text is replaced by a call. -/
theorem dynamicName?_shift (k : Nat) (t : Tree) :
    dynamicName? site.marked (t.shift k) = dynamicName? site t := by
  have htakes : site.marked.takesLiteral = site.takesLiteral := rfl
  obtain ⟨kind, span, children⟩ := t
  rw [Tree.shift_node]
  cases kind with
  | property =>
    -- only a property with a key and a literal has a dynamic name
    match children with
    | [] => rfl
    | [_] => rfl
    | [key, .node kind' span' children'] =>
      rw [List.map_cons, List.map_singleton, Tree.shift_node]
      cases kind' with
      | strLit value =>
        cases value with
        | none => rfl
        | some value =>
          dsimp only [Kind.shift, dynamicName?]
          rw [propertyName?_shift, htakes]
      | _ => rfl
    | _ :: _ :: _ :: _ => simp [Kind.shift, dynamicName?]
  | _ => rfl

/-- The names of dynamic properties are the same ones. -/
theorem dynamicNames_shift (k : Nat) (props : Tree) :
    dynamicNames site.marked (props.shift k) = dynamicNames site props := by
  obtain ⟨kind, span, children⟩ := props
  rw [Tree.shift_node]
  cases kind with
  | object =>
    calc (children.map (Tree.shift k)).filterMap (dynamicName? site.marked)
      _ = children.filterMap (dynamicName? site.marked ∘ Tree.shift k) := List.filterMap_map ..
      _ = children.filterMap (dynamicName? site) := by
        congr 1
        exact funext (dynamicName?_shift site k)
  | _ => rfl

/-- The arguments of a call are visited in the same roles. -/
theorem visitArguments_shift (k : Nat) (name : Option String) (args : List Tree) :
    visitArguments site.marked name (args.map (Tree.shift k)) =
      (visitArguments site name args).map Visit.marked := by
  have hplain : (args.map (Tree.shift k)).map (fun _ => (site.marked.within name).visit) =
      (args.map fun _ => (site.within name).visit).map Visit.marked := by
    rw [List.map_map, List.map_map]
    rfl
  have hharvester : site.marked.harvester = site.harvester := rfl
  have hlength : (args.map (Tree.shift k)).length = args.length := List.length_map ..
  -- which arguments are visited depends on the name and the number of the arguments only
  rw [visitArguments.eq_def, visitArguments.eq_def]
  dsimp only
  rw [hplain, hharvester, hlength]
  generalize (args.map fun _ => (site.within name).visit) = plain
  cases name with
  | none => rfl
  | some n =>
    dsimp only
    split
    · rw [List.map_cons, List.map_drop]
      rfl
    · split
      · rw [List.map_append, List.map_take, List.map_cons, List.map_drop]
        rfl
      · split
        · rw [List.map_cons, List.map_drop]
          rfl
        · rfl

/-- Children that are all visited alike. -/
theorem map_visit_shift (k : Nat) (s : Site) (role : Role) (children : List Tree) :
    (children.map (Tree.shift k)).map (fun _ => (some (s.marked, role) : Visit)) =
      (children.map fun _ => (some (s, role) : Visit)).map Visit.marked := by
  rw [List.map_map, List.map_map]
  rfl

/-- The attributes of a wrapper element that are not read as its message. -/
def attributeVisit (t : Tree) : Visit :=
  match t with
  | .node (.attribute (.plain n)) _ _ => if n == "id" || n == "msg" then none else site.visit
  | _ => site.visit

/-- An attribute is visited, or left out, as before. -/
theorem attributeVisit_shift (k : Nat) (t : Tree) :
    attributeVisit site.marked (t.shift k) = Visit.marked (attributeVisit site t) := by
  obtain ⟨kind, span, children⟩ := t
  rw [Tree.shift_node]
  cases kind with
  | «attribute» name =>
    cases name with
    | plain n =>
      dsimp only [Kind.shift, attributeVisit]
      split <;> rfl
    | _ => rfl
  | _ => rfl

/-- A key is visited, or left out, as before. -/
theorem keyVisit_shift (k : Nat) (e : Tree) :
    (if (e.shift k).isStaticKey then none else site.marked.visit) =
      Visit.marked (if e.isStaticKey then none else site.visit) := by
  rw [Tree.isStaticKey_shift]
  split <;> rfl

/-- The children of a node are visited in the same roles. -/
theorem visits_shift (k : Nat) (role : Role) (kind : Kind) (children : List Tree) :
    visits site.marked role (kind.shift k) (children.map (Tree.shift k)) =
      (visits site role kind children).map Visit.marked := by
  have hplain (role : Role) := map_visit_shift k site role children
  have hcall (callee : Tree) (args : List Tree) :
      site.marked.visit :: visitArguments site.marked (callee.shift k).path?
          (args.map (Tree.shift k)) =
        (site.visit :: visitArguments site callee.path? args).map Visit.marked := by
    rw [List.map_cons, Tree.path?_shift, visitArguments_shift, Visit.marked_visit]
  cases kind with
  | call =>
    cases children with
    | nil => rfl
    | cons callee args => exact hcall callee args
  | construct =>
    cases children with
    | nil => rfl
    | cons callee args => exact hcall callee args
  | template chunks =>
    cases role with
    | lookup =>
      dsimp only [visits, Kind.shift]
      rw [List.isEmpty_map]
      split
      · rfl
      · exact hplain .plain
    | _ => exact hplain .plain
  | keyComputed =>
    dsimp only [visits, Kind.shift]
    rw [List.map_map, List.map_map]
    exact List.map_congr_left fun e _ => keyVisit_shift site k e
  | member chained name =>
    cases name with
    | computed =>
      -- only of two children is the second a name
      rcases children with _ | ⟨_, _ | ⟨e, _ | ⟨_, _⟩⟩⟩
      · rfl
      · rfl
      · exact congrArg ([site.marked.visit, ·]) (keyVisit_shift site k e)
      · exact hplain .plain
    | _ => exact hplain .plain
  | spread =>
    cases role with
    | props => exact hplain .props
    | part slot =>
      cases slot with
      | text sole => exact hplain (.part (.text sole))
      | _ => exact hplain .plain
    | _ => exact hplain .plain
  | object =>
    cases role with
    | props => exact hplain .prop
    | _ => exact hplain .plain
  | property =>
    cases role with
    | prop => rfl
    | _ => exact hplain .plain
  | element tag =>
    cases tag with
    | plain name place =>
      have hoptions : site.marked.options = site.options := rfl
      dsimp only [visits, Kind.shift, TagName.shift]
      rw [hoptions]
      split
      · calc (children.map (Tree.shift k)).map (attributeVisit site.marked)
          _ = (children.map (attributeVisit site)).map Visit.marked := by
            rw [List.map_map, List.map_map]
            exact List.map_congr_left fun t _ => attributeVisit_shift site k t
      · exact hplain .plain
    | _ => exact hplain .plain
  -- a body starts a frame of its own
  | func => exact map_visit_shift k (site.within none) .plain children
  | arrow => exact map_visit_shift k (site.within none) .plain children
  | classExpr => exact map_visit_shift k (site.within none) .plain children
  | classDecl => exact map_visit_shift k (site.within none) .plain children
  -- no children of these are visited
  | strLit => rfl
  | importDecl => rfl
  | exportNamed => rfl
  | exportAll => rfl
  | importEquals => rfl
  | moduleDecl => rfl
  | enumDecl => rfl
  | typeText => rfl
  | _ => exact hplain .plain

/-! ## The actions of a walk -/

/-- On entering a node the same is done, behind the mark. -/
theorem enter_shift (role : Role) (kind : Kind) (span : Span) (children : List Tree) :
    enter site.marked role (kind.shift 3) (span.shift 3) (children.map (Tree.shift 3)) =
      (enter site role kind span children).map (Action.shift 3) := by
  -- one case for each kind of node that is acted on
  cases kind with
  | strLit value =>
    cases role with
    | lookup count => exact constantArgument_shift site span value count
    | _ => exact literal_shift site span value _
  | template chunks =>
    cases role with
    | lookup count =>
      have hcooked : (chunks.map (Chunk.shift 3)).head?.bind Chunk.cooked =
          chunks.head?.bind Chunk.cooked := by
        cases chunks <;> rfl
      dsimp only [enter, Kind.shift]
      rw [List.isEmpty_map, hcooked]
      split
      · exact constantArgument_shift site span _ count
      · exact dynamicArgument_shift site span
    | _ => rfl
  | markupString value => exact literal_shift site span (some value) .attribute
  | markupText => exact elementText_shift site span
  | element tag =>
    cases tag with
    | plain name place =>
      have hoptions : site.marked.options = site.options := rfl
      dsimp only [enter, Kind.shift, TagName.shift]
      rw [hoptions]
      split
      · exact wrapperElement_shift site place.stop children
      · rfl
    | _ => rfl
  | _ => rfl

/-- A list of names is extended by the same names. -/
theorem extendNames_shift (k : Nat) (t : Tree) (names : List String) (quote : Quote) :
    extendNames (t.shift k) names quote = (extendNames t names quote).map (Action.shift k) := by
  obtain ⟨kind, span, elements⟩ := t
  rw [Tree.shift_node]
  cases kind with
  | array =>
    -- the names that are there do not move, the last element does
    have hpresent : (elements.map (Tree.shift k)).filterMap (fun e => e.unspread.literal?) =
        elements.filterMap fun e => e.unspread.literal? := by
      simp only [List.filterMap_map, Function.comp_def, Tree.unspread_shift, Tree.literal?_shift]
    have hlast : ((elements.map (Tree.shift k)).filter fun e => e.kind != .hole).getLast? =
        ((elements.filter fun e => e.kind != .hole).getLast?).map (Tree.shift k) := by
      simp only [List.filter_map, Function.comp_def, Tree.kind_shift_ne_hole, List.getLast?_map]
    dsimp only [Kind.shift, extendNames]
    rw [hpresent, hlast]
    split
    · rfl
    · cases (elements.filter fun e => e.kind != .hole).getLast? with
      | none => rfl
      | some last =>
        dsimp only [Option.map_some]
        rw [Tree.span_shift]
        rfl
  | _ => rfl

/-- The flag of dynamic properties does not depend on where it stands. -/
theorem withPropsFlag_shift (k : Nat) (t : Tree) : withPropsFlag (t.shift k) = withPropsFlag t := by
  obtain ⟨kind, span, children⟩ := t
  rw [Tree.shift_node]
  cases kind <;> rfl

/-- The same arguments of a call say which properties are dynamic. -/
theorem markDynamic_shift (k : Nat) (args : List Tree) (names : List String) (quote : Quote) :
    markDynamic (args.map (Tree.shift k)) names quote =
      (markDynamic args names quote).map (Action.shift k) := by
  -- what is added depends on how many arguments the call has
  match args with
  | [] => rfl
  | [_] => rfl
  | [_, props] =>
    simp only [List.map_cons, List.map_nil, markDynamic, Tree.span_shift, Action.shift_insert]
    rfl
  | [_, _, children] =>
    simp only [List.map_cons, List.map_nil, markDynamic, Tree.span_shift, Action.shift_insert]
    rfl
  | [_, _, _, flag] =>
    simp only [List.map_cons, List.map_nil, markDynamic, Tree.unspread_shift, Tree.span_shift,
      withPropsFlag_shift, Action.shift_replace, Action.shift_insert]
    rfl
  | _ :: _ :: _ :: flag :: existing :: _ =>
    simp only [List.map_cons, markDynamic, Tree.unspread_shift, Tree.span_shift,
      withPropsFlag_shift, extendNames_shift, Action.shift_replace]

/-- Behind a call the same is done, behind the mark. -/
theorem marks_shift (callee : Tree) (args : List Tree) :
    marks site.marked (callee.shift 3) (args.map (Tree.shift 3)) =
      (marks site callee args).map (Action.shift 3) := by
  have hharvester : site.marked.harvester = site.harvester := rfl
  have hquote : site.marked.quote = site.quote := rfl
  rw [marks, marks, Tree.path?_shift, hharvester, hquote]
  cases callee.path? with
  | none => rfl
  | some n =>
    dsimp only
    by_cases hmaker : (!site.harvester.exclusion.isLookupCall n &&
        nodeMakers.contains (Exclusion.terminalSegment n)) = true
    · rw [if_pos hmaker, if_pos hmaker]
      rcases args with _ | ⟨tag, _ | ⟨props, rest⟩⟩
      · rfl
      · rfl
      · -- the names are read off the texts of the properties, which do not move
        have hnames : dynamicNames (site.marked.within (some n)) (props.shift 3).unspread =
            dynamicNames (site.within (some n)) props.unspread := by
          rw [Site.within_marked, Tree.unspread_shift, dynamicNames_shift]
        rw [List.map_cons, List.map_cons]
        dsimp only
        rw [hnames]
        split
        · rfl
        · exact markDynamic_shift 3 (tag :: props :: rest) _ site.quote
    · rw [if_neg hmaker, if_neg hmaker]
      rfl

/-- On leaving a node the same is done, behind the mark. -/
theorem leave_shift (role : Role) (kind : Kind) (children : List Tree) :
    leave site.marked role (kind.shift 3) (children.map (Tree.shift 3)) =
      (leave site role kind children).map (Action.shift 3) := by
  -- calls are marked and templates have their chunks taken
  cases kind with
  | call =>
    cases children with
    | nil => rfl
    | cons callee args => exact marks_shift site callee args
  | construct =>
    cases children with
    | nil => rfl
    | cons callee args => exact marks_shift site callee args
  | template chunks =>
    cases role with
    | lookup count =>
      cases children with
      | nil => rfl
      | cons => exact chunks_shift site chunks
    | _ => exact chunks_shift site chunks
  | _ => rfl

end

mutual

/-- A walk over a moved tree of a text with a mark takes the same actions, moved. -/
theorem walk_shift (site : Site) (role : Role) :
    ∀ t : Tree, walk site.marked role (t.shift 3) = (walk site role t).map (Action.shift 3)
  | .node kind span children => by
    rw [Tree.shift_node, walk, walk, enter_shift, visits_shift, leave_shift, walkAll_shift,
      List.map_append, List.map_append]

theorem walkAll_shift : ∀ (vs : List Visit) (ts : List Tree),
    walkAll (vs.map Visit.marked) (ts.map (Tree.shift 3)) =
      (walkAll vs ts).map (Action.shift 3)
  | [], _ => by simp
  | _ :: _, [] => by simp [walkAll]
  | none :: vs, t :: ts => by
    rw [List.map_cons, List.map_cons, Visit.marked_none, walkAll, walkAll, walkAll_shift vs ts]
    rfl
  | some (site, role) :: vs, t :: ts => by
    rw [List.map_cons, List.map_cons, Visit.marked_some, walkAll, walkAll, walk_shift site role t,
      walkAll_shift vs ts, List.map_append]

end

end Harvest

end TextHarvest
