import TextHarvest.Component.Template
import TextHarvest.Proofs.Component.Attributes

/-!
# A template as it is written

A template is a sequence of pieces: comments and closing tags, start tags, runs of text and
interpolations. A piece reads as what it is whatever stands around it, as long as it fits in front
of the text after it. The nodes of a template are those of its pieces, each placed behind the text
of the pieces before it.

Main results:

* `exists_pieces` — every text is a sequence of pieces that fit.
* `nodesFrom_pieces` — the nodes of a text are those of its pieces.
-/

namespace TextHarvest.Component

open Cursor (behind StopsAt)

/-- A piece of a template. -/
inductive Piece where
  /-- A comment or a closing tag, which is passed over. -/
  | passed (cs : List Char)
  /-- The first of two braces that are not closed, which is passed over too. -/
  | brace
  | text (cs : List Char)
  | interpolation (inner : List Char)
  /-- A start tag: its name, its items, what closes it, and the content of an element that is no
  markup together with its closing tag. -/
  | tag (name : List Char) (items : List Item) (close raw : List Char)
  deriving DecidableEq

/-- What opens an interpolation, and what closes it. -/
def bracesOpen : List Char := ['\x7b', '\x7b']

def bracesClose : List Char := ['\x7d', '\x7d']

namespace Piece

def chars : Piece → List Char
  | .passed cs => cs
  | .brace => ['\x7b']
  | .text cs => cs
  | .interpolation inner => bracesOpen ++ (inner ++ bracesClose)
  | .tag name items close raw => '<' :: (name ++ (Item.written items ++ (close ++ raw)))

/-- The nodes of a piece that starts at an offset. -/
def nodes (offset : Nat) : Piece → List Node
  | .text cs =>
    if Chars.allBlank cs then []
    else [.text (String.ofList cs) ⟨offset, offset + Chars.size cs⟩]
  | .interpolation inner =>
    [.interpolation (String.ofList inner) ⟨offset, offset + Chars.size inner + 4⟩
      ⟨offset + 2, offset + 2 + Chars.size inner⟩]
  | .tag name items _ _ =>
    (Item.attributes (offset + 1 + Chars.size name) items).map Node.attribute
  | _ => []

/-- The text of a sequence of pieces. -/
def written (ps : List Piece) : List Char :=
  ps.flatMap chars

/-- The nodes of a sequence of pieces that starts at an offset. -/
def nodesAll (offset : Nat) : List Piece → List Node
  | [] => []
  | p :: ps => p.nodes offset ++ nodesAll (offset + Chars.size p.chars) ps

/-- An interpolation has two braces on each side. -/
theorem size_interpolation (inner : List Char) :
    Chars.size (interpolation inner).chars = Chars.size inner + 4 := by
  rw [chars, Chars.size_append, Chars.size_append, show Chars.size bracesOpen = 2 from rfl,
    show Chars.size bracesClose = 2 from rfl]
  omega

/-- The bytes of a tag are those of its parts. -/
theorem size_tag (name : List Char) (items : List Item) (close raw : List Char) :
    Chars.size (tag name items close raw).chars = 1 + Chars.size name +
      Chars.size (Item.written items) + Chars.size close + Chars.size raw := by
  rw [chars, Chars.size_cons, show '<'.utf8Size = 1 from rfl]
  simp only [Chars.size_append, Nat.add_assoc]

@[simp] theorem written_nil : written [] = [] := rfl

@[simp] theorem written_cons (p : Piece) (ps : List Piece) :
    written (p :: ps) = p.chars ++ written ps := rfl

/-- Pieces are written one after the other. -/
theorem written_append (ps qs : List Piece) : written (ps ++ qs) = written ps ++ written qs :=
  List.flatMap_append

/-- What is left of some pieces is the end of what is written for all. -/
theorem written_dropWhile_suffix (p : Piece → Bool) (ps : List Piece) :
    written (ps.dropWhile p) <:+ written ps := by
  refine ⟨written (ps.takeWhile p), ?_⟩
  rw [← written_append, List.takeWhile_append_dropWhile]

/-- The nodes of later pieces stand behind those of earlier ones. -/
theorem nodesAll_append (offset : Nat) (ps qs : List Piece) :
    nodesAll offset (ps ++ qs) =
      nodesAll offset ps ++ nodesAll (offset + Chars.size (written ps)) qs := by
  induction ps generalizing offset with
  | nil => rfl
  | cons p ps ih =>
    rw [List.cons_append, nodesAll, nodesAll, ih, written_cons, Chars.size_append,
      List.append_assoc, Nat.add_assoc]

/-- A node of a sequence is that of one piece, behind the text of the pieces before it. -/
theorem exists_of_mem_nodesAll {ps : List Piece} {offset : Nat} {n : Node}
    (hn : n ∈ nodesAll offset ps) : ∃ before p after, ps = before ++ p :: after ∧
      n ∈ p.nodes (offset + Chars.size (written before)) := by
  induction ps generalizing offset with
  | nil => cases hn
  | cons p ps ih =>
    rcases List.mem_append.mp hn with hn | hn
    · exact ⟨[], p, ps, rfl, hn⟩
    · obtain ⟨before, p', after, rfl, hn'⟩ := ih hn
      refine ⟨p :: before, p', after, rfl, ?_⟩
      rwa [written_cons, Chars.size_append, ← Nat.add_assoc]

end Piece

/-! ## Which texts read as pieces -/

/-- A text that ends a tag with its last character and not earlier. -/
def closesTag : List Char → Option Char → Bool
  | [], _ => false
  | ch :: cs, some q => closesTag cs (if ch == q then none else some q)
  | ch :: cs, none =>
    if ch == '\x22' || ch == '\x27' then closesTag cs (some ch)
    else if ch == '>' then cs.isEmpty
    else closesTag cs none

/-- A text that does not end a tag. -/
def leavesTagOpen : List Char → Option Char → Bool
  | [], _ => true
  | ch :: cs, some q => leavesTagOpen cs (if ch == q then none else some q)
  | ch :: cs, none =>
    if ch == '\x22' || ch == '\x27' then leavesTagOpen cs (some ch)
    else if ch == '>' then false
    else leavesTagOpen cs none

/-- A run of text ends in front of `rest`. -/
def endsRun (rest : List Char) : Bool :=
  match rest with
  | [] => true
  | ch :: cs => (ch == '\x7b' && cs.head? == some '\x7b') || opensTag (ch :: cs)

/-- The second character of tags that are passed over. -/
def opensPassed (ch : Char) : Bool :=
  ch == '/' || ch == '!' || ch == '?'

/-- The characters of the name of a tag. -/
def isTagNameChar (ch : Char) : Bool :=
  !(isSpace ch || ch == '>' || ch == '/')

/-- The name of a tag. -/
def IsTagName (name : List Char) : Prop :=
  (∃ ch cs, name = ch :: cs ∧ isAsciiLetter ch = true) ∧ ∀ ch ∈ name, isTagNameChar ch = true

/-- Whether the content of an element is no markup. -/
def isRawName (name : List Char) : Bool :=
  rawElements.contains (String.ofList (name.map Char.toLower))

/-- What opens the closing tag of an element. -/
def closingMark (name : List Char) : List Char :=
  '<' :: '/' :: name

/-- The content of an element that is no markup, with its closing tag, ends where `rest` starts. -/
inductive RawFits (name : List Char) : List Char → List Char → Prop
  | closed {body more rest : List Char}
      (hfirst : ¬closingMark name <:+: body ++ (closingMark name).dropLast)
      (hclosed : closesTag (closingMark name ++ more) none = true) :
      RawFits name (body ++ (closingMark name ++ more)) rest
  | unclosed {body more : List Char}
      (hfirst : ¬closingMark name <:+: body ++ (closingMark name).dropLast)
      (hopen : leavesTagOpen (closingMark name ++ more) none = true) :
      RawFits name (body ++ (closingMark name ++ more)) []
  | missing {cs : List Char} (hnone : ¬closingMark name <:+: cs) : RawFits name cs []

/-- Whether a tag is its own closing tag: a slash stands right before its end. -/
def isSelfClosed (name : List Char) (items : List Item) (close : List Char) : Bool :=
  behind none ('<' :: (name ++ (Item.written items ++ close.dropLast))) == some '/'

/-- How a start tag ends in front of `rest`. -/
inductive CloseFits (name : List Char) (items : List Item) :
    List Char → List Char → List Char → Prop
  | eof : CloseFits name items [] [] []
  | markup {close rest : List Char} (hclose : close = ['>'] ∨ close = ['/', '>'])
      (hmarkup : isSelfClosed name items close = true ∨ isRawName name = false) :
      CloseFits name items close [] rest
  | raw {close raw rest : List Char} (hclose : close = ['>'] ∨ close = ['/', '>'])
      (hself : isSelfClosed name items close = false) (hname : isRawName name = true)
      (hraw : RawFits name raw rest) : CloseFits name items close raw rest

/-- A piece ends where `rest` starts. -/
inductive Piece.Fits : Piece → List Char → Prop
  | comment {body rest : List Char}
      (hfirst : ¬commentClose <:+: body ++ commentClose.dropLast) :
      Fits (.passed (commentOpen ++ (body ++ commentClose))) rest
  | openComment {body : List Char} (hnone : ¬commentClose <:+: body) :
      Fits (.passed (commentOpen ++ body)) []
  | closing {ch : Char} {cs rest : List Char} (hch : opensPassed ch = true)
      (hcomment : ¬commentOpen <+: '<' :: ch :: cs) (hclosed : closesTag (ch :: cs) none = true) :
      Fits (.passed ('<' :: ch :: cs)) rest
  | openClosing {ch : Char} {cs : List Char} (hch : opensPassed ch = true)
      (hcomment : ¬commentOpen <+: '<' :: ch :: cs)
      (hopen : leavesTagOpen (ch :: cs) none = true) : Fits (.passed ('<' :: ch :: cs)) []
  | brace {cs : List Char} (hopen : ¬bracesClose <:+: cs) : Fits .brace ('\x7b' :: cs)
  | text {cs rest : List Char} (hne : cs ≠ [])
      (hinner : ∀ a b, cs = a ++ b → b ≠ [] → endsRun (b ++ rest) = false)
      (hrest : endsRun rest = true) : Fits (.text cs) rest
  | interpolation {inner rest : List Char}
      (hfirst : ¬bracesClose <:+: inner ++ bracesClose.dropLast) : Fits (.interpolation inner) rest
  | tag {name close raw rest : List Char} {items : List Item} (hname : IsTagName name)
      (hend : StopsAt isTagNameChar (Item.written items ++ (close ++ (raw ++ rest))))
      (hitems : ItemsFit (close ++ (raw ++ rest)) items)
      (hclose : CloseFits name items close raw rest) : Fits (.tag name items close raw) rest

/-- Every piece of a sequence fits in front of those after it. -/
def PiecesFit : List Piece → Prop
  | [] => True
  | p :: ps => p.Fits (Piece.written ps) ∧ PiecesFit ps

/-- The end of pieces that fit fits. -/
theorem PiecesFit.of_append (ps : List Piece) {qs : List Piece} (h : PiecesFit (ps ++ qs)) :
    PiecesFit qs := by
  induction ps with
  | nil => exact h
  | cons p ps ih => exact ih h.2

/-! ## Tags that are passed over -/

/-- A tag that is closed is left behind its closing sign. -/
theorem tagEndFrom_append {cs : List Char} {quote : Option Char}
    (hclosed : closesTag cs quote = true) (rest : List Char) (pos : Nat) (prev : Option Char) :
    ∃ pos' prev', tagEndFrom (cs ++ rest) pos prev quote = some ⟨'>' :: rest, pos', prev'⟩ ∧
      pos' + 1 = pos + Chars.size cs := by
  -- by induction on the tag: a sign that is open in a quote closes nothing
  induction cs generalizing pos prev quote with
  | nil => cases hclosed
  | cons ch cs ih =>
    -- whatever quote is open behind the character
    have hgo (q : Option Char) (hq : closesTag cs q = true) :
        ∃ pos' prev', tagEndFrom (cs ++ rest) (pos + ch.utf8Size) (some ch) q =
          some ⟨'>' :: rest, pos', prev'⟩ ∧ pos' + 1 = pos + Chars.size (ch :: cs) := by
      obtain ⟨pos', prev', heq, hpos⟩ := ih hq (pos + ch.utf8Size) (some ch)
      exact ⟨pos', prev', heq, by rw [hpos, Chars.size_cons, Nat.add_assoc]⟩
    cases quote with
    | some q => exact hgo _ hclosed
    | none =>
      rw [closesTag] at hclosed
      rw [List.cons_append, tagEndFrom]
      split at hclosed
      · rename_i hquote
        simp only [hquote, if_true]
        exact hgo _ hclosed
      · rename_i hquote
        simp only [hquote, Bool.false_eq_true, if_false]
        split at hclosed
        · rename_i hgt
          obtain rfl := List.isEmpty_iff.mp hclosed
          rw [beq_iff_eq] at hgt
          subst hgt
          exact ⟨pos, prev, rfl, rfl⟩
        · rename_i hgt
          simp only [hgt, Bool.false_eq_true, if_false]
          exact hgo _ hclosed

/-- A tag that is left open has no end. -/
theorem tagEndFrom_eq_none {cs : List Char} {quote : Option Char}
    (hopen : leavesTagOpen cs quote = true) (pos : Nat) (prev : Option Char) :
    tagEndFrom cs pos prev quote = none := by
  -- by induction on the tag: a sign that is open in a quote closes nothing
  induction cs generalizing pos prev quote with
  | nil => rfl
  | cons ch cs ih =>
    cases quote with
    | some q => exact ih hopen _ _
    | none =>
      rw [leavesTagOpen] at hopen
      rw [tagEndFrom]
      split at hopen
      · rename_i hquote
        simp only [hquote, if_true]
        exact ih hopen _ _
      · rename_i hquote
        simp only [hquote, Bool.false_eq_true, if_false]
        split at hopen
        · cases hopen
        · rename_i hgt
          simp only [hgt, Bool.false_eq_true, if_false]
          exact ih hopen _ _

/-- A tag that is closed ends with its closing mark. -/
theorem behind_of_closesTag {cs : List Char} {quote : Option Char}
    (hclosed : closesTag cs quote = true) (prev : Option Char) : behind prev cs = some '>' := by
  induction cs generalizing quote prev with
  | nil => cases hclosed
  | cons ch cs ih =>
    rw [Cursor.behind_cons]
    cases quote with
    | some q => exact ih hclosed _
    | none =>
      rw [closesTag] at hclosed
      split at hclosed
      · exact ih hclosed _
      · split at hclosed
        · rename_i hgt
          rw [List.isEmpty_iff.mp hclosed, beq_iff_eq.mp hgt]
          rfl
        · exact ih hclosed _

/-- The place after a tag that is closed. -/
theorem afterTag_append {cs : List Char} (hclosed : closesTag cs none = true) (rest : List Char)
    (pos : Nat) (prev : Option Char) :
    afterTag ⟨cs ++ rest, pos, prev⟩ = ⟨rest, pos + Chars.size cs, behind prev cs⟩ := by
  obtain ⟨pos', prev', heq, hpos⟩ := tagEndFrom_append hclosed rest pos prev
  rw [afterTag, tagEnd?, heq, behind_of_closesTag hclosed]
  dsimp only
  rw [Cursor.next_mk, ← hpos]
  rfl

/-- A tag that is left open takes up the rest of the text. -/
theorem afterTag_open {cs : List Char} (hopen : leavesTagOpen cs none = true) (pos : Nat)
    (prev : Option Char) :
    afterTag ⟨cs, pos, prev⟩ = ⟨[], pos + Chars.size cs, behind prev cs⟩ := by
  rw [afterTag, tagEnd?, tagEndFrom_eq_none hopen]
  dsimp only
  rw [Cursor.toEnd_mk]

/-- A text leaves a tag open or closes it somewhere. -/
theorem exists_closesTag (cs : List Char) (quote : Option Char) :
    leavesTagOpen cs quote = true ∨ ∃ a b, cs = a ++ b ∧ closesTag a quote = true := by
  induction cs generalizing quote with
  | nil => exact Or.inl rfl
  | cons ch cs ih =>
    -- a character that does not close the tag leaves the question to the rest
    have hgo (q : Option Char) (hleaves : leavesTagOpen (ch :: cs) quote = leavesTagOpen cs q)
        (hcloses : ∀ a, closesTag (ch :: a) quote = closesTag a q) :
        leavesTagOpen (ch :: cs) quote = true ∨
          ∃ a b, ch :: cs = a ++ b ∧ closesTag a quote = true := by
      rcases ih q with hopen | ⟨a, b, rfl, hclosed⟩
      · exact Or.inl (hleaves.trans hopen)
      · exact Or.inr ⟨ch :: a, b, rfl, (hcloses a).trans hclosed⟩
    cases quote with
    | some q => exact hgo _ rfl fun _ => rfl
    | none =>
      by_cases hquote : (ch == '\x22' || ch == '\x27') = true
      · exact hgo (some ch) (by rw [leavesTagOpen, if_pos hquote])
          fun a => by rw [closesTag, if_pos hquote]
      · by_cases hgt : (ch == '>') = true
        · refine Or.inr ⟨[ch], cs, rfl, ?_⟩
          rw [closesTag, if_neg hquote, if_pos hgt]
          rfl
        · exact hgo none (by rw [leavesTagOpen, if_neg hquote, if_neg hgt])
            fun a => by rw [closesTag, if_neg hquote, if_neg hgt]

/-- A tag that is closed holds a mark that no opening of a comment has. -/
theorem mem_of_closesTag {cs : List Char} {quote : Option Char}
    (hclosed : closesTag cs quote = true) : '>' ∈ cs := by
  have hlast := behind_of_closesTag hclosed none
  rw [behind, Option.or_none] at hlast
  exact List.mem_of_getLast? hlast

/-- A closed tag that is no comment does not become one by what follows. -/
theorem not_commentOpen_append {cs : List Char} (hgt : '>' ∈ cs) (hcomment : ¬commentOpen <+: cs)
    (rest : List Char) : ¬commentOpen <+: cs ++ rest := by
  intro hstarts
  rcases Nat.le_total commentOpen.length cs.length with hle | hle
  · exact hcomment (List.prefix_of_prefix_length_le hstarts (List.prefix_append cs rest) hle)
  · have hinside := List.prefix_of_prefix_length_le (List.prefix_append cs rest) hstarts hle
    have hmem : '>' ∈ commentOpen := hinside.subset hgt
    exact absurd hmem (by decide)

/-- A comment is left behind the first sign that closes it. -/
theorem afterComment_append {body : List Char}
    (hfirst : ¬commentClose <:+: body ++ commentClose.dropLast) (rest : List Char) (pos : Nat)
    (prev : Option Char) :
    afterComment ⟨commentOpen ++ (body ++ (commentClose ++ rest)), pos, prev⟩ =
      ⟨rest, pos + Chars.size (commentOpen ++ (body ++ commentClose)),
        behind prev (commentOpen ++ (body ++ commentClose))⟩ := by
  have hskip := Cursor.skip_append commentOpen pos prev (body ++ (commentClose ++ rest))
  -- the end of the comment is the first one in its body
  have hseek : (Cursor.mk (body ++ (commentClose ++ rest)) (pos + Chars.size commentOpen)
        (behind prev commentOpen)).seek? commentClose =
      some ⟨commentClose ++ rest, pos + Chars.size commentOpen + Chars.size body,
        behind (behind prev commentOpen) body⟩ :=
    Cursor.seek?_append _ _ (by decide) hfirst
  have hclose := Cursor.skip_append commentClose
    (pos + Chars.size commentOpen + Chars.size body) (behind (behind prev commentOpen) body) rest
  rw [afterComment, show (4 : Nat) = commentOpen.length from rfl, hskip, hseek]
  dsimp only
  rw [show (3 : Nat) = commentClose.length from rfl, hclose]
  simp only [Chars.size_append, Cursor.behind_append, Nat.add_assoc]

/-- A comment that nothing closes takes up the rest of the text. -/
theorem afterComment_open {body : List Char} (hnone : ¬commentClose <:+: body) (pos : Nat)
    (prev : Option Char) :
    afterComment ⟨commentOpen ++ body, pos, prev⟩ =
      ⟨[], pos + Chars.size (commentOpen ++ body), behind prev (commentOpen ++ body)⟩ := by
  have hskip := Cursor.skip_append commentOpen pos prev body
  have hseek : (Cursor.mk body (pos + Chars.size commentOpen) (behind prev commentOpen)).seek?
      commentClose = none := (Cursor.seek?_eq_none_iff (by decide)).mpr hnone
  rw [afterComment, show (4 : Nat) = commentOpen.length from rfl, hskip, hseek]
  dsimp only
  rw [Cursor.toEnd_mk]

/-- A comment is passed over. -/
theorem nodesFrom_comment (base fuel pos : Nat) (prev : Option Char) (cs : List Char)
    (acc : List Node) :
    nodesFrom base (fuel + 1) ⟨commentOpen ++ cs, pos, prev⟩ acc =
      nodesFrom base fuel (afterComment ⟨commentOpen ++ cs, pos, prev⟩) acc := by
  have hsees : (Cursor.mk (commentOpen ++ cs) pos prev).sees commentOpen = true :=
    List.isPrefixOf_iff_prefix.mpr (List.prefix_append commentOpen cs)
  rw [nodesFrom]
  simp only [hsees, if_true]
  rfl

/-- A closing tag is passed over. -/
theorem nodesFrom_closing {ch : Char} {cs : List Char} (hch : opensPassed ch = true)
    (hcomment : ¬commentOpen <+: '<' :: ch :: cs) (base fuel pos : Nat) (prev : Option Char)
    (acc : List Node) :
    nodesFrom base (fuel + 1) ⟨'<' :: ch :: cs, pos, prev⟩ acc =
      nodesFrom base fuel (afterTag ⟨ch :: cs, pos + 1, some '<'⟩) acc := by
  have hsees : (Cursor.mk ('<' :: ch :: cs) pos prev).sees commentOpen = false := by
    rw [Bool.eq_false_iff]
    exact fun h => hcomment (List.isPrefixOf_iff_prefix.mp h)
  rw [opensPassed] at hch
  rw [nodesFrom]
  simp only [hsees, Bool.false_eq_true, if_false, hch, if_true]
  rfl

/-! ## Start tags -/

/-- The place after a start tag, given the place where it ends. The content of an element that is no
markup is passed over; `c` is where the tag starts. -/
def afterStartTag (name : List Char) (c : Cursor) : Option Cursor → Cursor
  | none => c.toEnd
  | some stop =>
    if !isSelfClosing stop && isRawName name then
      match stop.next.seek? (closingMark name) with
      | some close => afterTag close
      | none => c.toEnd
    else stop.next

/-- A start tag is read from its name on. -/
theorem readStartTag_name {name rest : List Char} (hname : ∀ ch ∈ name, isTagNameChar ch = true)
    (hrest : StopsAt isTagNameChar rest) (base fuel pos : Nat) (prev : Option Char) :
    readStartTag base fuel ⟨'<' :: (name ++ rest), pos, prev⟩ =
      let read := readAttributes base fuel
        ⟨rest, pos + 1 + Chars.size name, behind (some '<') name⟩ []
      (read.1.map Node.attribute,
        afterStartTag name ⟨'<' :: (name ++ rest), pos, prev⟩ read.2) := by
  have hskip := Cursor.skipWhile_append name (pos + 1) (some '<') hname hrest
  have htext := Cursor.textTo_append name (pos + 1) (some '<') rest
  unfold isTagNameChar at hskip
  rw [readStartTag]
  simp only [Cursor.next_mk, show '<'.utf8Size = 1 from rfl, hskip, htext, String.toList_ofList]
  generalize readAttributes base fuel ⟨rest, pos + 1 + Chars.size name, behind (some '<') name⟩ [] =
    read
  -- what follows depends on the end of the tag and on whether its content is raw
  obtain ⟨attrs, stop⟩ := read
  cases stop with
  | none => rfl
  | some stop =>
    rw [afterStartTag]
    dsimp only
    split
    · rename_i hraw
      rw [isRawName, if_pos hraw, closingMark]
      cases stop.next.seek? ('<' :: '/' :: name) with
      | none => rfl
      | some closing => rfl
    · rename_i hraw
      rw [isRawName, if_neg hraw]

/-- What closes a tag ends its attributes. -/
theorem CloseFits.endsTag {name close raw rest : List Char} {items : List Item}
    (hclose : CloseFits name items close raw rest) : EndsTag (close ++ (raw ++ rest)) := by
  cases hclose with
  | eof => exact .eof
  | markup hclose => rcases hclose with rfl | rfl <;> constructor
  | raw hclose => rcases hclose with rfl | rfl <;> constructor

/-- The tag ends where its closing mark says, and knows whether a slash stands before it. -/
theorem tagStop?_close (name : List Char) (items : List Item) {close : List Char}
    (hclose : close = ['>'] ∨ close = ['/', '>']) (more : List Char) (pos : Nat)
    (prev : Option Char) :
    ∃ stop, tagStop? (close ++ more) pos (behind (some '<') (name ++ Item.written items)) =
        some stop ∧
      isSelfClosing stop = isSelfClosed name items close ∧
      stop.next = ⟨more, pos + Chars.size close,
        behind prev ('<' :: (name ++ (Item.written items ++ close)))⟩ := by
  rcases hclose with rfl | rfl
  · exact ⟨_, rfl, by simp [isSelfClosing, isSelfClosed], by simp [Cursor.next]⟩
  · exact ⟨_, rfl, by simp [isSelfClosing, isSelfClosed], by simp [Cursor.next]; rfl⟩

/-- The content of an element that is no markup is passed over up to the end of its closing tag. -/
theorem afterStartTag_raw {name raw rest : List Char} (hraw : RawFits name raw rest)
    {c stop : Cursor} {pos : Nat} {prev : Option Char} (hself : isSelfClosing stop = false)
    (hname : isRawName name = true) (hnext : stop.next = ⟨raw ++ rest, pos, prev⟩)
    (hend : rest = [] → c.toEnd = ⟨[], pos + Chars.size raw, behind prev raw⟩) :
    afterStartTag name c (some stop) = ⟨rest, pos + Chars.size raw, behind prev raw⟩ := by
  have hmark : closingMark name ≠ [] := List.cons_ne_nil _ _
  rw [afterStartTag, hself, hname, hnext]
  cases hraw with
  | @closed body more _ hfirst hclosed =>
    -- the closing tag is the first one of its name
    have hseek : (Cursor.mk (body ++ (closingMark name ++ (more ++ rest))) pos prev).seek?
          (closingMark name) =
        some ⟨closingMark name ++ (more ++ rest), pos + Chars.size body, behind prev body⟩ :=
      Cursor.seek?_append pos prev hmark hfirst
    have hafter := afterTag_append hclosed rest (pos + Chars.size body) (behind prev body)
    rw [List.append_assoc] at hafter
    rw [List.append_assoc, List.append_assoc, hseek]
    simp only [Bool.not_false, Bool.and_self, if_true, hafter, Cursor.behind_append,
      Chars.size_append, Nat.add_assoc]
  | @unclosed body more hfirst hopen =>
    have hseek : (Cursor.mk (body ++ (closingMark name ++ more)) pos prev).seek?
          (closingMark name) =
        some ⟨closingMark name ++ more, pos + Chars.size body, behind prev body⟩ :=
      Cursor.seek?_append pos prev hmark hfirst
    have hafter := afterTag_open hopen (pos + Chars.size body) (behind prev body)
    rw [List.append_nil, hseek]
    simp only [Bool.not_false, Bool.and_self, if_true, hafter, Cursor.behind_append,
      Chars.size_append, Nat.add_assoc]
  | missing hnone =>
    have hseek : (Cursor.mk raw pos prev).seek? (closingMark name) = none :=
      (Cursor.seek?_eq_none_iff hmark).mpr hnone
    rw [List.append_nil, hseek]
    simp only [Bool.not_false, Bool.and_self, if_true]
    exact hend rfl

/-- Reading goes on behind a start tag and the text of a raw element. -/
theorem afterStartTag_close {name close raw rest : List Char} {items : List Item}
    (hclose : CloseFits name items close raw rest) (pos : Nat) (prev : Option Char) :
    afterStartTag name
        ⟨'<' :: (name ++ (Item.written items ++ (close ++ (raw ++ rest)))), pos, prev⟩
        (tagStop? (close ++ (raw ++ rest))
          (pos + 1 + Chars.size name + Chars.size (Item.written items))
          (behind (some '<') (name ++ Item.written items))) =
      ⟨rest, pos + Chars.size (Piece.tag name items close raw).chars,
        behind prev (Piece.tag name items close raw).chars⟩ := by
  have hsize : Chars.size (Piece.tag name items close raw).chars =
      1 + Chars.size name + Chars.size (Item.written items) + Chars.size close +
        Chars.size raw := by
    simp only [Piece.chars, Chars.size_cons, Chars.size_append, Nat.add_assoc]
    rfl
  rw [hsize]
  cases hclose with
  | eof =>
    have hstop : tagStop? [] (pos + 1 + Chars.size name + Chars.size (Item.written items))
        (behind (some '<') (name ++ Item.written items)) = none := rfl
    rw [List.append_nil, List.append_nil, hstop, afterStartTag, Cursor.toEnd_mk, Cursor.mk.injEq]
    refine ⟨rfl, ?_, by simp [Piece.chars]⟩
    simp only [Chars.size_cons, Chars.size_append, Chars.size_nil, show '<'.utf8Size = 1 from rfl]
    omega
  | markup hclose hmarkup =>
    obtain ⟨stop, hstop, hself, hnext⟩ := tagStop?_close name items hclose
      ([] ++ rest) (pos + 1 + Chars.size name + Chars.size (Item.written items)) prev
    -- the tag closes itself or its content is markup, so reading goes on behind it
    have hno : (!isSelfClosing stop && isRawName name) = false := by
      rcases hmarkup with h | h <;> simp [hself, h]
    rw [hstop, afterStartTag, hno, hnext]
    simp only [Bool.false_eq_true, if_false, Cursor.mk.injEq]
    refine ⟨rfl, ?_, by simp [Piece.chars]⟩
    rw [Chars.size_nil]
    omega
  | raw hclose hself' hraw hfits =>
    obtain ⟨stop, hstop, hself, hnext⟩ := tagStop?_close name items hclose
      (raw ++ rest) (pos + 1 + Chars.size name + Chars.size (Item.written items)) prev
    rw [hstop, afterStartTag_raw hfits (hself.trans hself') hraw hnext, Cursor.mk.injEq]
    · refine ⟨rfl, ?_, by simp [Piece.chars]⟩
      omega
    · intro hrest
      subst hrest
      rw [List.append_nil, Cursor.toEnd_mk, Cursor.mk.injEq]
      refine ⟨rfl, ?_, by simp⟩
      simp only [Chars.size_cons, Chars.size_append, show '<'.utf8Size = 1 from rfl]
      omega

/-- A start tag is read as its attributes. -/
theorem readStartTag_tag {name close raw rest : List Char} {items : List Item}
    (hname : IsTagName name)
    (hend : StopsAt isTagNameChar (Item.written items ++ (close ++ (raw ++ rest))))
    (hitems : ItemsFit (close ++ (raw ++ rest)) items)
    (hclose : CloseFits name items close raw rest) (base pos : Nat) (prev : Option Char)
    {fuel : Nat} (hfuel : ((Piece.tag name items close raw).chars ++ rest).length < fuel) :
    readStartTag base fuel ⟨(Piece.tag name items close raw).chars ++ rest, pos, prev⟩ =
      ((Piece.tag name items close raw).nodes (pos + base),
        ⟨rest, pos + Chars.size (Piece.tag name items close raw).chars,
          behind prev (Piece.tag name items close raw).chars⟩) := by
  have hchars : (Piece.tag name items close raw).chars ++ rest =
      '<' :: (name ++ (Item.written items ++ (close ++ (raw ++ rest)))) := by
    simp [Piece.chars]
  -- the attributes take up no more rounds than they have characters
  have hattrs : readAttributes base fuel
        ⟨Item.written items ++ (close ++ (raw ++ rest)), pos + 1 + Chars.size name,
          behind (some '<') name⟩ [] =
      (Item.attributes (pos + 1 + Chars.size name + base) items,
        tagStop? (close ++ (raw ++ rest))
          (pos + 1 + Chars.size name + Chars.size (Item.written items))
          (behind (behind (some '<') name) (Item.written items))) := by
    apply readAttributes_items hclose.endsTag hitems
    rw [hchars] at hfuel
    simp only [List.length_cons, List.length_append] at hfuel ⊢
    omega
  have hoffset : pos + 1 + Chars.size name + base = pos + base + 1 + Chars.size name := by omega
  rw [hchars, readStartTag_name hname.2 hend, hattrs, Piece.nodes, hoffset]
  dsimp only
  rw [← Cursor.behind_append, afterStartTag_close hclose]

/-! ## Runs of text -/

/-- A run of text ends at two braces and where a tag opens. -/
theorem endsRun_cons (ch : Char) (cs : List Char) : endsRun (ch :: cs) =
    ((ch == '\x7b' && cs.head? == some '\x7b') || opensTag (ch :: cs)) := rfl

/-- A run ends where the first of its ends is. -/
theorem runEndFrom_append {cs rest : List Char} (pos : Nat) (prev : Option Char)
    (hinner : ∀ a b, cs = a ++ b → b ≠ [] → endsRun (b ++ rest) = false)
    (hrest : endsRun rest = true) :
    runEndFrom (cs ++ rest) pos prev = ⟨rest, pos + Chars.size cs, behind prev cs⟩ := by
  -- by induction on the run, which no character before its end may end
  induction cs generalizing pos prev with
  | nil =>
    cases rest with
    | nil => rfl
    | cons ch rest =>
      rw [endsRun_cons] at hrest
      rw [List.nil_append, runEndFrom, if_pos hrest]
      rfl
  | cons ch cs ih =>
    have hch := hinner [] (ch :: cs) rfl (List.cons_ne_nil _ _)
    have hmore : ∀ a b, cs = a ++ b → b ≠ [] → endsRun (b ++ rest) = false := by
      intro a b heq hne
      exact hinner (ch :: a) b (by rw [heq]; rfl) hne
    rw [List.cons_append, endsRun_cons] at hch
    rw [List.cons_append, runEndFrom, if_neg (by simp only [hch]; exact Bool.false_ne_true),
      ih _ _ hmore, Cursor.behind_cons, Chars.size_cons, Nat.add_assoc]

/-- At its end a run is over. -/
theorem runEndFrom_of_endsRun {rest : List Char} (pos : Nat) (prev : Option Char)
    (hrest : endsRun rest = true) : runEndFrom rest pos prev = ⟨rest, pos, prev⟩ := by
  have hnothing : ∀ a b : List Char, [] = a ++ b → b ≠ [] → endsRun (b ++ rest) = false := by
    simp
  exact runEndFrom_append pos prev hnothing hrest

/-- The node of a run is the node of a piece of text. -/
theorem textNode_append (base : Nat) (cs rest : List Char) (pos : Nat) (prev prev' : Option Char) :
    textNode base ⟨cs ++ rest, pos, prev⟩ ⟨rest, pos + Chars.size cs, prev'⟩ =
      (Piece.text cs).nodes (pos + base) := by
  rw [textNode, Cursor.textTo_append, Piece.nodes, Text.isBlank, String.toList_ofList]
  dsimp only [Span.shift]
  rw [Nat.add_right_comm]

section Run

variable {rest : List Char} (base fuel pos : Nat) (prev : Option Char) (acc : List Node)

/-- Reading on behind a run of text. -/
theorem readRun_text {cs : List Char}
    (hinner : ∀ a b, cs = a ++ b → b ≠ [] → endsRun (b ++ rest) = false)
    (hrest : endsRun rest = true) :
    readRun base (fuel + 1) ⟨cs ++ rest, pos, prev⟩ ⟨cs ++ rest, pos, prev⟩ acc =
      readRun base (fuel + 1) ⟨rest, pos + Chars.size cs, behind prev cs⟩
        ⟨rest, pos + Chars.size cs, behind prev cs⟩
        (acc ++ (Piece.text cs).nodes (pos + base)) := by
  have hstay : runEndFrom rest (pos + Chars.size cs) (behind prev cs) =
      ⟨rest, pos + Chars.size cs, behind prev cs⟩ :=
    runEndFrom_of_endsRun _ _ hrest
  -- the second round starts at the end of the run and finds nothing more
  have hnothing : textNode base ⟨rest, pos + Chars.size cs, behind prev cs⟩
      ⟨rest, pos + Chars.size cs, behind prev cs⟩ = [] :=
    textNode_append base [] rest _ _ _
  rw [readRun, readRun]
  simp only [runEndFrom_append pos prev hinner hrest, hstay, textNode_append, hnothing,
    List.append_nil]

/-- An interpolation is read as one. -/
theorem readRun_interpolation {inner : List Char}
    (hfirst : ¬bracesClose <:+: inner ++ bracesClose.dropLast) :
    readRun base (fuel + 1) ⟨(Piece.interpolation inner).chars ++ rest, pos, prev⟩
        ⟨(Piece.interpolation inner).chars ++ rest, pos, prev⟩ acc =
      readRun base fuel
        ⟨rest, pos + Chars.size (Piece.interpolation inner).chars,
          behind prev (Piece.interpolation inner).chars⟩
        ⟨rest, pos + Chars.size (Piece.interpolation inner).chars,
          behind prev (Piece.interpolation inner).chars⟩
        (acc ++ (Piece.interpolation inner).nodes (pos + base)) := by
  have hchars : (Piece.interpolation inner).chars ++ rest =
      bracesOpen ++ (inner ++ (bracesClose ++ rest)) := by
    simp [Piece.chars]
  -- a run stops at the opening braces at once, so no text comes before them
  have hstay : runEndFrom (bracesOpen ++ (inner ++ (bracesClose ++ rest))) pos prev =
      ⟨bracesOpen ++ (inner ++ (bracesClose ++ rest)), pos, prev⟩ :=
    runEndFrom_of_endsRun pos prev rfl
  have hnothing : textNode base ⟨bracesOpen ++ (inner ++ (bracesClose ++ rest)), pos, prev⟩
      ⟨bracesOpen ++ (inner ++ (bracesClose ++ rest)), pos, prev⟩ = [] :=
    textNode_append base [] _ _ _ _
  have hsees : (Cursor.mk (bracesOpen ++ (inner ++ (bracesClose ++ rest))) pos prev).sees
      ['\x7b', '\x7b'] = true := rfl
  have hopen := Cursor.skip_append bracesOpen pos prev (inner ++ (bracesClose ++ rest))
  have hseek : (Cursor.mk (inner ++ (bracesClose ++ rest)) (pos + Chars.size bracesOpen)
        (behind prev bracesOpen)).seek? ['\x7d', '\x7d'] =
      some ⟨bracesClose ++ rest, pos + Chars.size bracesOpen + Chars.size inner,
        behind (behind prev bracesOpen) inner⟩ :=
    Cursor.seek?_append _ _ (by decide) hfirst
  have hclose := Cursor.skip_append bracesClose
    (pos + Chars.size bracesOpen + Chars.size inner) (behind (behind prev bracesOpen) inner) rest
  have htext := Cursor.textTo_append inner (pos + Chars.size bracesOpen) (behind prev bracesOpen)
    (bracesClose ++ rest)
  rw [show bracesOpen.length = 2 from rfl] at hopen
  rw [show bracesClose.length = 2 from rfl] at hclose
  rw [hchars, readRun]
  simp only [hstay, hnothing, hsees, if_true, hopen, hseek, hclose, htext, List.append_nil]
  have hstop : pos + Chars.size bracesOpen + Chars.size inner + Chars.size bracesClose =
      pos + Chars.size (Piece.interpolation inner).chars := by
    rw [Piece.chars, Chars.size_append, Chars.size_append]
    omega
  have hnode : Node.interpolation (String.ofList inner)
        ((Span.mk pos (pos + Chars.size bracesOpen + Chars.size inner +
          Chars.size bracesClose)).shift base)
        ((Span.mk (pos + Chars.size bracesOpen)
          (pos + Chars.size bracesOpen + Chars.size inner)).shift base) =
      .interpolation (String.ofList inner) ⟨pos + base, pos + base + Chars.size inner + 4⟩
        ⟨pos + base + 2, pos + base + 2 + Chars.size inner⟩ := by
    simp only [Span.shift, show Chars.size bracesOpen = 2 from rfl,
      show Chars.size bracesClose = 2 from rfl, Node.interpolation.injEq, Span.mk.injEq, true_and]
    omega
  rw [hnode, hstop, ← Cursor.behind_append, ← Cursor.behind_append, Piece.nodes, Piece.chars]

/-- A run ends at a tag, and at braces that are not closed. -/
theorem readRun_end (rest : List Char) (hrest : endsRun rest = true)
    (hopen : bracesOpen <+: rest → ¬bracesClose <:+: rest.drop 2) :
    readRun base (fuel + 1) ⟨rest, pos, prev⟩ ⟨rest, pos, prev⟩ acc = (acc, ⟨rest, pos, prev⟩) := by
  have hstay : runEndFrom rest pos prev = ⟨rest, pos, prev⟩ :=
    runEndFrom_of_endsRun pos prev hrest
  have hnothing : textNode base ⟨rest, pos, prev⟩ ⟨rest, pos, prev⟩ = [] :=
    textNode_append base [] rest _ _ _
  rw [readRun]
  simp only [hstay, hnothing, List.append_nil]
  split
  · rename_i hsees
    obtain ⟨more, rfl⟩ : bracesOpen <+: rest := List.isPrefixOf_iff_prefix.mp hsees
    -- the two braces open nothing when they are not closed behind
    have hskip := Cursor.skip_append bracesOpen pos prev more
    rw [show bracesOpen.length = 2 from rfl] at hskip
    have hseek : (Cursor.mk more (pos + Chars.size bracesOpen) (behind prev bracesOpen)).seek?
        ['\x7d', '\x7d'] = none :=
      (Cursor.seek?_eq_none_iff (by decide)).mpr (hopen (List.prefix_append _ _))
    rw [hskip, hseek]
  · rfl

end Run

/-! ## Sequences of pieces -/

namespace Piece

/-- Whether a piece is read as part of a run of text. -/
def isRun : Piece → Bool
  | .text _ => true
  | .interpolation _ => true
  | _ => false

/-- A piece that fits is not empty. -/
theorem Fits.chars_ne_nil {p : Piece} {rest : List Char} (h : p.Fits rest) : p.chars ≠ [] := by
  cases h with
  | text hne => exact hne
  | _ => exact List.cons_ne_nil _ _

end Piece

/-- A letter behind the sign opens a tag. -/
theorem opensTag_of_isAsciiLetter {ch : Char} (hch : isAsciiLetter ch = true) (cs : List Char) :
    opensTag ('<' :: ch :: cs) = true := by
  simp [opensTag, hch]

/-- So does a sign that opens what is passed over. -/
theorem opensTag_of_opensPassed {ch : Char} (hch : opensPassed ch = true) (cs : List Char) :
    opensTag ('<' :: ch :: cs) = true := by
  simp only [opensPassed, Bool.or_eq_true] at hch
  simp only [opensTag, Bool.or_eq_true]
  rcases hch with (hch | hch) | hch
  · exact Or.inl (Or.inl (Or.inr hch))
  · exact Or.inl (Or.inr hch)
  · exact Or.inr hch

/-- A run ends in front of whatever is no part of one. -/
theorem endsRun_of_not_isRun {p : Piece} {rest : List Char} (hfits : p.Fits rest)
    (hrun : p.isRun = false) : endsRun (p.chars ++ rest) = true ∧
      (bracesOpen <+: p.chars ++ rest → ¬bracesClose <:+: (p.chars ++ rest).drop 2) := by
  -- what begins with a tag ends a run, and no interpolation begins there
  have htag {cs : List Char} (hcs : opensTag ('<' :: cs) = true) : endsRun ('<' :: cs) = true ∧
      (bracesOpen <+: '<' :: cs → ¬bracesClose <:+: ('<' :: cs).drop 2) := by
    refine ⟨by rw [endsRun_cons, hcs, Bool.or_true], ?_⟩
    intro hopen
    have hhead := (List.cons_prefix_cons.mp hopen).1
    exact absurd hhead (by decide)
  cases hfits with
  | comment => exact htag rfl
  | openComment => exact htag rfl
  | closing hch => exact htag (opensTag_of_opensPassed hch _)
  | openClosing hch => exact htag (opensTag_of_opensPassed hch _)
  | brace hopen => exact ⟨rfl, fun _ => hopen⟩
  | text => cases hrun
  | interpolation => cases hrun
  | tag hname =>
    obtain ⟨⟨ch, cs, rfl, hch⟩, -⟩ := hname
    exact htag (opensTag_of_isAsciiLetter hch _)

/-- A run of text does not open a tag. -/
theorem opensTag_of_isRun {p : Piece} {rest : List Char} (hfits : p.Fits rest)
    (hrun : p.isRun = true) : opensTag (p.chars ++ rest) = false := by
  cases hfits with
  | @text cs _ hne hinner =>
    have hends := hinner [] cs rfl hne
    obtain ⟨ch, cs, rfl⟩ := List.exists_cons_of_ne_nil hne
    rw [List.cons_append, endsRun_cons, Bool.or_eq_false_iff] at hends
    exact hends.2
  | interpolation => rfl
  | _ => cases hrun

/-- A part of a run is read as what it is. -/
theorem readRun_part {p : Piece} {rest : List Char} (hfits : p.Fits rest) (hrun : p.isRun = true)
    (base fuel pos : Nat) (prev : Option Char) (acc : List Node) :
    ∃ n, fuel ≤ n ∧
      readRun base (fuel + 1) ⟨p.chars ++ rest, pos, prev⟩ ⟨p.chars ++ rest, pos, prev⟩ acc =
        readRun base n ⟨rest, pos + Chars.size p.chars, behind prev p.chars⟩
          ⟨rest, pos + Chars.size p.chars, behind prev p.chars⟩ (acc ++ p.nodes (pos + base)) := by
  cases hfits with
  | text hne hinner hrest =>
    exact ⟨fuel + 1, Nat.le_succ fuel, readRun_text base fuel pos prev acc hinner hrest⟩
  | interpolation hfirst =>
    exact ⟨fuel, Nat.le_refl fuel, readRun_interpolation base fuel pos prev acc hfirst⟩
  | _ => cases hrun

/-- A run of text is read as the pieces at the front that are parts of one. -/
theorem readRun_pieces {ps : List Piece} (hfit : PiecesFit ps) (base : Nat) {fuel : Nat}
    (pos : Nat) (prev : Option Char) (acc : List Node)
    (hfuel : (Piece.written ps).length < fuel) :
    readRun base fuel ⟨Piece.written ps, pos, prev⟩ ⟨Piece.written ps, pos, prev⟩ acc =
      (acc ++ Piece.nodesAll (pos + base) (ps.takeWhile Piece.isRun),
        ⟨Piece.written (ps.dropWhile Piece.isRun),
          pos + Chars.size (Piece.written (ps.takeWhile Piece.isRun)),
          behind prev (Piece.written (ps.takeWhile Piece.isRun))⟩) := by
  induction ps generalizing fuel pos prev acc with
  | nil =>
    obtain ⟨fuel, rfl⟩ := Nat.exists_eq_add_one_of_ne_zero (Nat.ne_of_gt (Nat.zero_lt_of_lt hfuel))
    have hend : ¬bracesOpen <+: [] := by decide
    have hread := readRun_end base fuel pos prev acc [] rfl (fun h => absurd h hend)
    simpa [Piece.nodesAll] using hread
  | cons p ps ih =>
    obtain ⟨hp, hps⟩ := hfit
    obtain ⟨fuel, rfl⟩ := Nat.exists_eq_add_one_of_ne_zero (Nat.ne_of_gt (Nat.zero_lt_of_lt hfuel))
    have hlen := List.length_pos_iff.mpr hp.chars_ne_nil
    rw [Piece.written_cons, List.length_append] at hfuel
    -- the run goes on with a part of it and ends at any other piece
    by_cases hrun : p.isRun = true
    · rw [List.takeWhile_cons_of_pos hrun, List.dropWhile_cons_of_pos hrun, Piece.nodesAll,
        Piece.written_cons, Piece.written_cons, Chars.size_append, Cursor.behind_append,
        ← List.append_assoc, ← Nat.add_assoc, Nat.add_right_comm pos]
      obtain ⟨n, hn, hread⟩ := readRun_part hp hrun base fuel pos prev acc
      rw [hread, ih hps _ _ _ (by omega)]
    · rw [Bool.not_eq_true] at hrun
      obtain ⟨hend, hopen⟩ := endsRun_of_not_isRun hp hrun
      have hno : ¬p.isRun = true := by rw [hrun]; exact Bool.false_ne_true
      rw [List.takeWhile_cons_of_neg hno, List.dropWhile_cons_of_neg hno, Piece.written_cons,
        readRun_end base fuel pos prev acc _ hend hopen]
      simp [Piece.nodesAll]

/-- Without an exclamation mark there is no comment. -/
theorem sees_commentOpen_of_ne {ch : Char} (hch : ch ≠ '!') (cs : List Char) (pos : Nat)
    (prev : Option Char) : (Cursor.mk ('<' :: ch :: cs) pos prev).sees commentOpen = false := by
  rw [Bool.eq_false_iff]
  intro hsees
  have hprefix : commentOpen <+: '<' :: ch :: cs := List.isPrefixOf_iff_prefix.mp hsees
  obtain ⟨-, hprefix⟩ := List.cons_prefix_cons.mp hprefix
  exact hch (List.cons_prefix_cons.mp hprefix).1.symm

/-- Where no tag opens, a run of text is read. -/
theorem nodesFrom_run {cs : List Char} (hne : cs ≠ []) (htag : opensTag cs = false)
    (base fuel pos : Nat) (prev : Option Char) (acc : List Node) :
    nodesFrom base (fuel + 1) ⟨cs, pos, prev⟩ acc =
      let read := readRun base (fuel + 1) ⟨cs, pos, prev⟩ ⟨cs, pos, prev⟩ []
      nodesFrom base fuel
        (if read.2.pos == pos then (Cursor.mk cs pos prev).next else read.2)
        (read.1.reverse ++ acc) := by
  rw [nodesFrom]
  dsimp only
  split
  · exact absurd rfl hne
  · rename_i ch more
    simp only [opensTag, Bool.or_eq_false_iff] at htag
    obtain ⟨⟨⟨hletter, hslash⟩, hbang⟩, hquery⟩ := htag
    have hsees : (Cursor.mk ('<' :: ch :: more) pos prev).sees commentOpen = false :=
      sees_commentOpen_of_ne (ne_of_beq_false hbang) more pos prev
    simp only [hsees, Bool.false_eq_true, if_false, hletter, hslash, hbang, hquery, Bool.or_self]
  · rfl

/-- Where a tag starts, it is read. -/
theorem nodesFrom_startTag {ch : Char} (hch : isAsciiLetter ch = true) (cs : List Char)
    (base fuel pos : Nat) (prev : Option Char) (acc : List Node) :
    nodesFrom base (fuel + 1) ⟨'<' :: ch :: cs, pos, prev⟩ acc =
      let read := readStartTag base (fuel + 1) ⟨'<' :: ch :: cs, pos, prev⟩
      nodesFrom base fuel read.2 (read.1.reverse ++ acc) := by
  -- a letter is none of the signs that are passed over
  have hpassed : (ch == '/' || ch == '!' || ch == '?') = false := by
    rw [Bool.eq_false_iff]
    intro hpassed
    simp only [Bool.or_eq_true, beq_iff_eq] at hpassed
    rcases hpassed with (rfl | rfl) | rfl <;> exact absurd hch (by decide)
  have hsees : (Cursor.mk ('<' :: ch :: cs) pos prev).sees commentOpen = false := by
    refine sees_commentOpen_of_ne ?_ cs pos prev
    rintro rfl
    exact absurd hch (by decide)
  rw [nodesFrom]
  simp only [hsees, Bool.false_eq_true, if_false, hpassed, hch, if_true]

/-- A piece that is no part of a run is read as what it is. -/
theorem nodesFrom_piece {p : Piece} {rest : List Char} (hfits : p.Fits rest)
    (hrun : p.isRun = false) (base pos : Nat) (prev : Option Char) (acc : List Node) {fuel : Nat}
    (hfuel : (p.chars ++ rest).length < fuel + 1) :
    nodesFrom base (fuel + 1) ⟨p.chars ++ rest, pos, prev⟩ acc =
      nodesFrom base fuel ⟨rest, pos + Chars.size p.chars, behind prev p.chars⟩
        ((p.nodes (pos + base)).reverse ++ acc) := by
  cases hfits with
  | @comment body _ hfirst =>
    have hafter := afterComment_append hfirst rest pos prev
    rw [Piece.chars, List.append_assoc, List.append_assoc, nodesFrom_comment, hafter]
    rfl
  | openComment hnone =>
    rw [Piece.chars, List.append_nil, nodesFrom_comment, afterComment_open hnone]
    rfl
  | @closing ch cs _ hch hcomment hclosed =>
    -- a closing tag is no comment
    have hno : ¬commentOpen <+: '<' :: ch :: (cs ++ rest) :=
      not_commentOpen_append (List.mem_cons_of_mem _ (mem_of_closesTag hclosed)) hcomment rest
    have hafter := afterTag_append hclosed rest (pos + 1) (some '<')
    rw [List.cons_append] at hafter
    rw [Piece.chars, List.cons_append, List.cons_append, nodesFrom_closing hch hno, hafter,
      Chars.size_cons '<', ← Nat.add_assoc, Cursor.behind_cons prev]
    rfl
  | @openClosing ch cs hch hcomment hopen =>
    rw [Piece.chars, List.append_nil, nodesFrom_closing hch hcomment, afterTag_open hopen,
      Chars.size_cons '<', ← Nat.add_assoc, Cursor.behind_cons prev]
    rfl
  | @brace cs hopen =>
    have hread := readRun_end base fuel pos prev [] ('\x7b' :: '\x7b' :: cs) rfl
      (fun _ => hopen)
    rw [Piece.chars, List.singleton_append, nodesFrom_run (List.cons_ne_nil _ _) rfl, hread]
    simp
    rfl
  | text => cases hrun
  | interpolation => cases hrun
  | @tag name close raw _ items hname hend hitems hclose =>
    have hread := readStartTag_tag hname hend hitems hclose base pos prev hfuel
    obtain ⟨⟨ch, cs, rfl, hch⟩, -⟩ := hname
    have hcons : ∃ more, (Piece.tag (ch :: cs) items close raw).chars ++ rest =
        '<' :: ch :: more := ⟨_, rfl⟩
    obtain ⟨more, hmore⟩ := hcons
    rw [hmore] at hread
    rw [hmore, nodesFrom_startTag hch, hread]

/-- The pieces at the front that are parts of a run are read at once. -/
theorem nodesFrom_parts {p : Piece} {ps : List Piece} (hfit : PiecesFit (p :: ps))
    (hrun : p.isRun = true) (base pos : Nat) (prev : Option Char) (acc : List Node) {fuel : Nat}
    (hfuel : (Piece.written (p :: ps)).length < fuel + 1) :
    nodesFrom base (fuel + 1) ⟨Piece.written (p :: ps), pos, prev⟩ acc =
      nodesFrom base fuel
        ⟨Piece.written ((p :: ps).dropWhile Piece.isRun),
          pos + Chars.size (Piece.written ((p :: ps).takeWhile Piece.isRun)),
          behind prev (Piece.written ((p :: ps).takeWhile Piece.isRun))⟩
        ((Piece.nodesAll (pos + base) ((p :: ps).takeWhile Piece.isRun)).reverse ++ acc) := by
  have hne : Piece.written (p :: ps) ≠ [] := by
    rw [Piece.written_cons]
    exact List.append_ne_nil_of_left_ne_nil hfit.1.chars_ne_nil _
  -- the run has a character, so the reader moves on
  have hmoved : ¬(pos + Chars.size (Piece.written ((p :: ps).takeWhile Piece.isRun)) == pos) =
      true := by
    rw [List.takeWhile_cons_of_pos hrun, Piece.written_cons, Chars.size_append, beq_iff_eq]
    have hsize := mt Chars.eq_nil_of_size_eq_zero hfit.1.chars_ne_nil
    omega
  have hread := readRun_pieces hfit base pos prev [] hfuel
  rw [List.nil_append] at hread
  rw [nodesFrom_run hne (opensTag_of_isRun hfit.1 hrun), hread]
  dsimp only
  rw [if_neg hmoved]

/-- The nodes of a text are those of its pieces. -/
theorem nodesFrom_pieces {ps : List Piece} (hfit : PiecesFit ps) (base : Nat) {fuel : Nat}
    (pos : Nat) (prev : Option Char) (acc : List Node)
    (hfuel : (Piece.written ps).length < fuel) :
    nodesFrom base fuel ⟨Piece.written ps, pos, prev⟩ acc =
      (Piece.nodesAll (pos + base) ps).reverse ++ acc := by
  -- on the fuel and not on the pieces: a run takes several of them in one step
  induction fuel generalizing ps pos prev acc with
  | zero => cases hfuel
  | succ fuel ih =>
    cases ps with
    | nil => rfl
    | cons p ps =>
      obtain ⟨hp, hps⟩ := id hfit
      have hlen := List.length_pos_iff.mpr hp.chars_ne_nil
      have hlen' := hfuel
      rw [Piece.written_cons, List.length_append] at hlen'
      by_cases hrun : p.isRun = true
      · have hcut : (p :: ps).takeWhile Piece.isRun ++ (p :: ps).dropWhile Piece.isRun = p :: ps :=
          List.takeWhile_append_dropWhile
        have hrest : PiecesFit ((p :: ps).dropWhile Piece.isRun) := by
          apply PiecesFit.of_append ((p :: ps).takeWhile Piece.isRun)
          rwa [hcut]
        have hshort : (Piece.written ((p :: ps).dropWhile Piece.isRun)).length < fuel := by
          rw [List.dropWhile_cons_of_pos hrun]
          have hle := (Piece.written_dropWhile_suffix Piece.isRun ps).length_le
          omega
        rw [nodesFrom_parts hfit hrun base pos prev acc hfuel, ih hrest _ _ _ hshort]
        conv => rhs; rw [← hcut]
        rw [Piece.nodesAll_append, List.reverse_append, List.append_assoc, Nat.add_right_comm pos]
      · rw [Bool.not_eq_true] at hrun
        rw [Piece.written_cons, nodesFrom_piece hp hrun base pos prev acc hfuel,
          ih hps _ _ _ (by omega), Piece.nodesAll, List.reverse_append, List.append_assoc,
          Nat.add_right_comm pos]

/-- The nodes of a text that is written in pieces are those of the pieces. -/
theorem nodes_of_pieces {ps : List Piece} (hfit : PiecesFit ps) {source : String}
    (hsource : source.toList = Piece.written ps) (base : Nat) :
    nodes source base = Piece.nodesAll base ps := by
  have hfuel : (Piece.written ps).length < source.length + 1 := by
    rw [← hsource, String.length_toList]
    exact Nat.lt_succ_self _
  rw [nodes, hsource, nodesFrom_pieces hfit base 0 none [] hfuel, Nat.zero_add, List.append_nil,
    List.reverse_reverse]

/-! ## Whatever is written -/

/-- A comment at the front of a text. -/
theorem exists_comment (cs : List Char) : ∃ p rest, commentOpen ++ cs = Piece.chars p ++ rest ∧
    p.Fits rest := by
  by_cases hclose : commentClose <:+: cs
  · obtain ⟨body, rest, rfl, hfirst⟩ := Cursor.exists_first (by decide) hclose
    exact ⟨_, rest, by simp [Piece.chars], .comment hfirst⟩
  · exact ⟨_, [], by simp [Piece.chars], .openComment hclose⟩

/-- A closing tag at the front of a text. -/
theorem exists_closing {ch : Char} {cs : List Char} (hch : opensPassed ch = true)
    (hcomment : ¬commentOpen <+: '<' :: ch :: cs) :
    ∃ p rest, '<' :: ch :: cs = Piece.chars p ++ rest ∧ p.Fits rest := by
  -- the tag ends at its first angle outside of quotes, or not at all
  rcases exists_closesTag (ch :: cs) none with hopen | ⟨a, b, heq, hclosed⟩
  · exact ⟨_, [], by simp [Piece.chars], .openClosing hch hcomment hopen⟩
  · cases a with
    | nil => cases hclosed
    | cons d a =>
      rw [List.cons_append, List.cons.injEq] at heq
      obtain ⟨rfl, rfl⟩ := heq
      refine ⟨.passed ('<' :: ch :: a), b, rfl, .closing hch ?_ hclosed⟩
      intro hstarts
      apply hcomment
      rw [← List.cons_append, ← List.cons_append]
      exact hstarts.trans (List.prefix_append _ _)

/-- The name of a raw element has no characters that mean anything in a tag. -/
theorem plain_of_mem_closingMark {name : List Char} (hname : isRawName name = true) {ch : Char}
    (hch : ch ∈ closingMark name) :
    (ch == '\x22' || ch == '\x27') = false ∧ (ch == '>') = false := by
  rw [closingMark, List.mem_cons, List.mem_cons] at hch
  rcases hch with rfl | rfl | hch
  · decide
  · decide
  · -- names are compared in lower case, and a mark is its own lower case
    have hlower := List.mem_map_of_mem (f := Char.toLower) hch
    have hraw : name.map Char.toLower = "script".toList ∨
        name.map Char.toLower = "style".toList := by
      simpa [isRawName, rawElements, String.ext_iff] using hname
    have hno : ∀ mark : Char, mark.toLower ∉ "script".toList → mark.toLower ∉ "style".toList →
        (ch == mark) = false := by
      intro mark hscript hstyle
      rw [beq_eq_false_iff_ne]
      rintro rfl
      rcases hraw with h | h <;> rw [h] at hlower
      · exact hscript hlower
      · exact hstyle hlower
    rw [hno '\x22' (by decide) (by decide), hno '\x27' (by decide) (by decide),
      hno '>' (by decide) (by decide)]
    decide

/-- The name in a closing mark neither closes nor quotes anything. -/
theorem closesTag_append_of_isRawName {name : List Char} (hname : isRawName name = true)
    (cs : List Char) : closesTag (closingMark name ++ cs) none = closesTag cs none ∧
      leavesTagOpen (closingMark name ++ cs) none = leavesTagOpen cs none := by
  have hplain := fun ch => @plain_of_mem_closingMark name hname ch
  generalize closingMark name = mark at hplain ⊢
  induction mark with
  | nil => exact ⟨rfl, rfl⟩
  | cons ch mark ih =>
    obtain ⟨⟨hquote, hgt⟩, hmark⟩ := List.forall_mem_cons.mp hplain
    simp only [List.cons_append, closesTag, leavesTagOpen, hquote, hgt, Bool.false_eq_true,
      if_false]
    exact ih hmark

/-- The content of an element that is no markup, up to the end of its closing tag. -/
theorem exists_raw {name : List Char} (hname : isRawName name = true) (cs : List Char) :
    ∃ raw rest, cs = raw ++ rest ∧ RawFits name raw rest := by
  by_cases hmark : closingMark name <:+: cs
  · obtain ⟨body, after, rfl, hfirst⟩ := Cursor.exists_first (List.cons_ne_nil _ _) hmark
    rcases exists_closesTag after none with hopen | ⟨a, b, rfl, hclosed⟩
    · rw [← (closesTag_append_of_isRawName hname after).2] at hopen
      exact ⟨_, [], (List.append_nil _).symm, .unclosed hfirst hopen⟩
    · rw [← (closesTag_append_of_isRawName hname a).1] at hclosed
      refine ⟨_, b, ?_, .closed hfirst hclosed⟩
      rw [List.append_assoc, List.append_assoc]
      rfl
  · exact ⟨cs, [], by simp, .missing hmark⟩

/-- A tag at the end of its items: what closes it, and what is passed over behind it. -/
theorem exists_close (name : List Char) (items : List Item) {last : List Char}
    (hend : EndsTag last) :
    ∃ close raw rest, last = close ++ (raw ++ rest) ∧ CloseFits name items close raw rest := by
  -- behind either way of closing the tag stands its raw text, if the name asks for one
  have hclosed : ∀ close more, close = ['>'] ∨ close = ['/', '>'] → last = close ++ more →
      ∃ close raw rest, last = close ++ (raw ++ rest) ∧ CloseFits name items close raw rest := by
    intro close more hclose hlast
    by_cases hraw : isSelfClosed name items close = false ∧ isRawName name = true
    · obtain ⟨raw, rest, rfl, hfits⟩ := exists_raw hraw.2 more
      exact ⟨close, raw, rest, hlast, .raw hclose hraw.1 hraw.2 hfits⟩
    · refine ⟨close, [], more, hlast, .markup hclose ?_⟩
      by_cases hself : isSelfClosed name items close = true
      · exact Or.inl hself
      · rw [Bool.not_eq_true] at hself
        right
        rw [← Bool.not_eq_true]
        exact fun hname => hraw ⟨hself, hname⟩
  cases hend with
  | eof => exact ⟨[], [], [], rfl, .eof⟩
  | mark cs => exact hclosed ['>'] cs (Or.inl rfl) rfl
  | slash cs => exact hclosed ['/', '>'] cs (Or.inr rfl) rfl

/-- Letters may stand in the names of tags. -/
theorem isTagNameChar_of_isAsciiLetter {ch : Char} (hch : isAsciiLetter ch = true) :
    isTagNameChar ch = true := by
  refine Classical.byContradiction fun hno => ?_
  simp only [isTagNameChar, isSpace, Bool.not_eq_true', Bool.not_eq_false, Bool.or_eq_true,
    beq_iff_eq] at hno
  rcases hno with ((((((rfl | rfl) | rfl) | rfl) | rfl) | rfl) | rfl) <;>
    exact absurd hch (by decide)

/-- A start tag at the front of a text. -/
theorem exists_tag {ch : Char} (hch : isAsciiLetter ch = true) (cs : List Char) :
    ∃ p rest, '<' :: ch :: cs = Piece.chars p ++ rest ∧ p.Fits rest := by
  obtain ⟨name, after, heq, hname, hstop⟩ := Cursor.exists_takeWhile isTagNameChar (ch :: cs)
  -- the name has its letter: otherwise the letter itself would end it
  have hisName : IsTagName name := by
    cases name with
    | nil =>
      rw [List.nil_append] at heq
      rw [← heq, Cursor.stopsAt_cons, isTagNameChar_of_isAsciiLetter hch] at hstop
      cases hstop
    | cons d name =>
      rw [List.cons_append, List.cons.injEq] at heq
      exact ⟨⟨d, name, rfl, heq.1 ▸ hch⟩, hname⟩
  obtain ⟨items, last, rfl, hitems, hend⟩ := exists_items after
  obtain ⟨close, raw, rest, rfl, hclose⟩ := exists_close name items hend
  refine ⟨.tag name items close raw, rest, ?_, .tag hisName hstop hitems hclose⟩
  rw [heq, Piece.chars]
  simp

/-- A run of text, or what it starts with, at the front of a text. -/
theorem exists_run {ch : Char} {cs : List Char} (htag : opensTag (ch :: cs) = false) :
    ∃ p rest, ch :: cs = Piece.chars p ++ rest ∧ p.Fits rest := by
  by_cases hbraces : bracesOpen <+: ch :: cs
  · obtain ⟨more, hmore⟩ := hbraces
    rw [← hmore]
    -- braces that are never closed stand for themselves
    by_cases hclose : bracesClose <:+: more
    · obtain ⟨inner, rest, rfl, hfirst⟩ := Cursor.exists_first (by decide) hclose
      exact ⟨.interpolation inner, rest, by simp [Piece.chars], .interpolation hfirst⟩
    · exact ⟨.brace, '\x7b' :: more, rfl, .brace hclose⟩
  · obtain ⟨front, rest, heq, hrest, hinner⟩ := Cursor.exists_first_end endsRun rfl (ch :: cs)
    refine ⟨.text front, rest, heq, .text ?_ hinner hrest⟩
    rintro rfl
    rw [List.nil_append] at heq
    rw [← heq, endsRun_cons, htag, Bool.or_false, Bool.and_eq_true, beq_iff_eq, beq_iff_eq] at hrest
    obtain ⟨rfl, hhead⟩ := hrest
    apply hbraces
    cases cs with
    | nil => cases hhead
    | cons d cs =>
      rw [List.head?_cons, Option.some.injEq] at hhead
      rw [hhead]
      exact List.prefix_append bracesOpen cs

/-- What opens a tag is a letter or a sign behind the opening one. -/
theorem exists_of_opensTag {cs : List Char} (htag : opensTag cs = true) :
    ∃ ch more, cs = '<' :: ch :: more ∧ (isAsciiLetter ch = true ∨ opensPassed ch = true) := by
  unfold opensTag at htag
  split at htag
  · rename_i ch more
    refine ⟨ch, more, rfl, ?_⟩
    simpa [opensPassed, or_assoc] using htag
  · cases htag

/-- Every text is a sequence of pieces. -/
theorem exists_pieces (cs : List Char) : ∃ ps, cs = Piece.written ps ∧ PiecesFit ps := by
  -- on the length: a piece takes at least one character
  induction hlen : cs.length using Nat.strongRecOn generalizing cs with
  | ind n ih =>
    have hstep : (∃ p rest, cs = Piece.chars p ++ rest ∧ p.Fits rest) →
        ∃ ps, cs = Piece.written ps ∧ PiecesFit ps := by
      rintro ⟨p, rest, rfl, hfits⟩
      have hpos := List.length_pos_iff.mpr hfits.chars_ne_nil
      rw [List.length_append] at hlen
      obtain ⟨ps, rfl, hps⟩ := ih rest.length (by omega) rest rfl
      exact ⟨p :: ps, rfl, hfits, hps⟩
    cases cs with
    | nil => exact ⟨[], rfl, trivial⟩
    | cons ch cs =>
      apply hstep
      -- a tag, a comment or a closing tag; else a run up to the next of them
      by_cases htag : opensTag (ch :: cs) = true
      · obtain ⟨d, more, heq, hd⟩ := exists_of_opensTag htag
        rw [heq]
        by_cases hcomment : commentOpen <+: '<' :: d :: more
        · obtain ⟨body, hbody⟩ := hcomment
          rw [← hbody]
          exact exists_comment body
        rcases hd with hletter | hpassed
        · exact exists_tag hletter more
        · exact exists_closing hpassed hcomment
      · rw [Bool.not_eq_true] at htag
        exact exists_run htag

end TextHarvest.Component
