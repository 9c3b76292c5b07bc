import TextHarvest.Component.Tag
import TextHarvest.Proofs.Text.Cursor

/-!
# The inside of a start tag as it is written

What stands between the name of a tag and its end is a sequence of items: blanks and slashes,
attributes, and values without a name. Here the items are told apart without regard to where they
stand, so that one can say what a tag reads as after some of its attributes were exchanged.

Main results:

* `readAttributes_items` — a written sequence of items is read as its attributes.
* `exists_items` — whatever follows the name of a tag is such a sequence.
-/

namespace TextHarvest.Component

open Cursor (behind StopsAt)

/-- What is written behind the name of an attribute. -/
inductive Assigned where
  /-- The attribute has no value. -/
  | nothing
  /-- The text ends behind the equals sign. -/
  | dangling (sign : List Char)
  /-- A value in quotes. The closing quote is missing only at the end of the text. -/
  | quoted (sign : List Char) (mark : Char) (text : List Char) (closed : Bool)
  | bare (sign text : List Char)
  deriving DecidableEq

/-- An item of a start tag. -/
inductive Item where
  /-- A blank, or a slash that does not end the tag. -/
  | gap (ch : Char)
  /-- A value without a name, which is passed over together with the character after it. -/
  | stray (value : Assigned) (after : Option Char)
  | attr (name : List Char) (value : Assigned)
  deriving DecidableEq

namespace Assigned

def chars : Assigned → List Char
  | .nothing => []
  | .dangling sign => sign
  | .quoted sign mark text closed => sign ++ (mark :: text ++ if closed then [mark] else [])
  | .bare sign text => sign ++ text

/-- The value that is read, when what is written behind the name starts at an offset. -/
def value? (offset : Nat) : Assigned → Option AttributeValue
  | .quoted sign mark text _ =>
    let start := offset + Chars.size sign + mark.utf8Size
    some ⟨String.ofList text, ⟨start, start + Chars.size text⟩, some mark⟩
  | .bare sign text =>
    let start := offset + Chars.size sign
    some ⟨String.ofList text, ⟨start, start + Chars.size text⟩, none⟩
  | _ => none

end Assigned

namespace Item

def chars : Item → List Char
  | .gap ch => [ch]
  | .stray value after => value.chars ++ after.toList
  | .attr name value => name ++ value.chars

/-- The attribute that an item at an offset is. -/
def attribute? (offset : Nat) : Item → Option Attribute
  | .attr name value =>
    some ⟨String.ofList name, value.value? (offset + Chars.size name),
      ⟨offset, offset + Chars.size (name ++ value.chars)⟩⟩
  | _ => none

/-- The text of a sequence of items. -/
def written (items : List Item) : List Char :=
  items.flatMap chars

/-- The attributes of a sequence of items that starts at an offset. -/
def attributes (offset : Nat) : List Item → List Attribute
  | [] => []
  | item :: items =>
    (item.attribute? offset).toList ++ attributes (offset + Chars.size item.chars) items

@[simp] theorem written_nil : written [] = [] := rfl

@[simp] theorem written_cons (item : Item) (items : List Item) :
    written (item :: items) = item.chars ++ written items := rfl

end Item

/-! ## Which texts read as items -/

/-- An equals sign with the blanks around it. -/
def IsSign (sign : List Char) : Prop :=
  ∃ before after, sign = before ++ '=' :: after ∧ (∀ ch ∈ before, isSpace ch = true) ∧
    ∀ ch ∈ after, isSpace ch = true

/-- The quotes of attributes. -/
def IsQuote (ch : Char) : Prop :=
  ch = '\x22' ∨ ch = '\x27'

instance (ch : Char) : Decidable (IsQuote ch) :=
  inferInstanceAs (Decidable (_ ∨ _))

/-- The characters of a value without quotes. -/
def isBare (ch : Char) : Bool :=
  !(isSpace ch || ch == '>')

/-- What is written behind a name ends where `rest` starts. -/
inductive Assigned.Fits : Assigned → List Char → Prop
  | nothing {rest : List Char} (hrest : (rest.dropWhile isSpace).head? ≠ some '=') :
      Fits .nothing rest
  | dangling {sign : List Char} (hsign : IsSign sign) : Fits (.dangling sign) []
  | quoted {sign text rest : List Char} {mark : Char} {closed : Bool} (hsign : IsSign sign)
      (hmark : IsQuote mark) (htext : mark ∉ text) (hclosed : closed = false → rest = []) :
      Fits (.quoted sign mark text closed) rest
  | bare {sign text rest : List Char} {ch : Char} (hsign : IsSign sign)
      (htext : ∀ c ∈ text, isBare c = true) (hrest : StopsAt isBare rest)
      (hhead : (text ++ rest).head? = some ch) (hspace : isSpace ch = false) (hmark : ¬IsQuote ch) :
      Fits (.bare sign text) rest

/-- The name of an attribute ends in front of `rest`. -/
def endsAttributeName (rest : List Char) : Bool :=
  match rest with
  | [] => true
  | ch :: cs => isSpace ch || ch == '=' || ch == '>' || (ch == '/' && cs.head? == some '>')

/-- The name of an attribute, in front of `rest`. -/
def IsAttributeName (name rest : List Char) : Prop :=
  name ≠ [] ∧ name.head? ≠ some '/' ∧ endsAttributeName rest = true ∧
    ∀ a b, name = a ++ b → b ≠ [] → endsAttributeName (b ++ rest) = false

/-- An item ends where `rest` starts. -/
inductive Item.Fits : Item → List Char → Prop
  | blank {ch : Char} {rest : List Char} (hspace : isSpace ch = true) : Fits (.gap ch) rest
  | slash {rest : List Char} (hrest : rest.head? ≠ some '>') : Fits (.gap '/') rest
  | stray {value : Assigned} {after : Option Char} {rest : List Char}
      (hsign : value.chars.head? = some '=') (hvalue : value.Fits (after.toList ++ rest))
      (hafter : after = none → rest = []) : Fits (.stray value after) rest
  | attr {name : List Char} {value : Assigned} {rest : List Char}
      (hname : IsAttributeName name (value.chars ++ rest)) (hvalue : value.Fits rest) :
      Fits (.attr name value) rest

/-- An item has a character. -/
theorem Item.Fits.chars_ne_nil {item : Item} {rest : List Char} (hfits : item.Fits rest) :
    item.chars ≠ [] := by
  cases hfits with
  | blank => simp [Item.chars]
  | slash => simp [Item.chars]
  | @stray value after _ hsign =>
    intro hnil
    rw [Item.chars, List.append_eq_nil_iff] at hnil
    rw [hnil.1] at hsign
    cases hsign
  | attr hname => exact List.append_ne_nil_of_left_ne_nil hname.1 _

/-- The items of a tag, the text after which is `rest`. -/
def ItemsFit (rest : List Char) : List Item → Prop
  | [] => True
  | item :: items => item.Fits (Item.written items ++ rest) ∧ ItemsFit rest items

/-- The last items of a tag fit as well. -/
theorem ItemsFit.of_append (before : List Item) {items : List Item} {rest : List Char}
    (h : ItemsFit rest (before ++ items)) : ItemsFit rest items := by
  induction before with
  | nil => exact h
  | cons item before ih => exact ih h.2

/-- An attribute of a tag is that of one of its items, behind the text of the items before it. -/
theorem Item.exists_of_mem_attributes {items : List Item} {offset : Nat} {a : Attribute}
    (ha : a ∈ Item.attributes offset items) : ∃ before item after,
      items = before ++ item :: after ∧
      a ∈ item.attribute? (offset + Chars.size (Item.written before)) := by
  induction items generalizing offset with
  | nil => cases ha
  | cons item items ih =>
    rcases List.mem_append.mp ha with ha | ha
    · exact ⟨[], item, items, rfl, Option.mem_toList.mp ha⟩
    · obtain ⟨before, item', after, rfl, ha'⟩ := ih ha
      refine ⟨item :: before, item', after, rfl, ?_⟩
      rwa [Item.written_cons, Chars.size_append, ← Nat.add_assoc]

theorem Item.written_append (items items' : List Item) :
    Item.written (items ++ items') = Item.written items ++ Item.written items' :=
  List.flatMap_append

/-! ## Reading what is written -/

/-- A quote is no space. -/
theorem isSpace_eq_false_of_isQuote {ch : Char} (h : IsQuote ch) : isSpace ch = false := by
  rcases h with rfl | rfl <;> decide

/-- What is read behind the name of an attribute. -/
def readAssigned (base : Nat) (c : Cursor) : Option AttributeValue × Cursor :=
  let look := c.skipWhile isSpace
  if look.head? == some '=' then readValue base look.next else (none, c)

/-- Behind an equals sign and its blanks stands the value. -/
theorem readAssigned_sign {sign rest : List Char} (base pos : Nat) (prev : Option Char)
    (hsign : IsSign sign) (hrest : StopsAt isSpace rest) :
    ∃ before, readAssigned base ⟨sign ++ rest, pos, prev⟩ = readValue base before ∧
      before.skipWhile isSpace = ⟨rest, pos + Chars.size sign, behind prev sign⟩ := by
  obtain ⟨front, after, rfl, hfront, hafter⟩ := hsign
  refine ⟨⟨after ++ rest, pos + Chars.size front + 1, some '='⟩, ?_, ?_⟩
  · have hlook : (Cursor.mk (front ++ ('=' :: (after ++ rest))) pos prev).skipWhile isSpace =
        ⟨'=' :: (after ++ rest), pos + Chars.size front, behind prev front⟩ :=
      Cursor.skipWhile_append front pos prev hfront (Cursor.stopsAt_cons.mpr (by decide))
    rw [readAssigned, List.append_assoc, List.cons_append, hlook]
    rfl
  · rw [Cursor.skipWhile_append after _ _ hafter hrest, Chars.size_append, Chars.size_cons,
      Cursor.behind_append, Cursor.behind_cons]
    -- both sides count the blanks and the sign, only grouped differently
    have hsize : pos + Chars.size front + 1 + Chars.size after =
        pos + (Chars.size front + (('='.utf8Size) + Chars.size after)) := by
      rw [show '='.utf8Size = 1 from rfl]
      omega
    rw [hsize]

/-- A value in quotes ends at its closing quote, or at the end of the text. -/
theorem readAssigned_quoted {sign text rest : List Char} {mark : Char} {closed : Bool}
    (base pos : Nat) (prev : Option Char) (hsign : IsSign sign) (hmark : IsQuote mark)
    (htext : mark ∉ text) (hclosed : closed = false → rest = []) :
    readAssigned base ⟨(Assigned.quoted sign mark text closed).chars ++ rest, pos, prev⟩ =
      ((Assigned.quoted sign mark text closed).value? (pos + base),
        ⟨rest, pos + Chars.size (Assigned.quoted sign mark text closed).chars,
          behind prev (Assigned.quoted sign mark text closed).chars⟩) := by
  have hstops : StopsAt isSpace (mark :: (text ++ ((if closed then [mark] else []) ++ rest))) :=
    Cursor.stopsAt_cons.mpr (isSpace_eq_false_of_isQuote hmark)
  obtain ⟨before, hread, hskip⟩ := readAssigned_sign base pos prev hsign hstops
  have hquote : (mark == '\x22' || mark == '\x27') = true := by
    simpa [IsQuote] using hmark
  have hinside : ∀ ch ∈ text, (ch != mark) = true := by
    intro ch hch
    rw [bne_iff_ne]
    rintro rfl
    exact htext hch
  have hend : StopsAt (· != mark) ((if closed then [mark] else []) ++ rest) := by
    cases closed with
    | true => exact Cursor.stopsAt_cons.mpr (by simp)
    | false =>
      rw [hclosed rfl]
      exact Cursor.stopsAt_nil _
  -- with a quote the text stops there, without one it stops at the end of everything
  have hstop := Cursor.skipWhile_append text (pos + Chars.size sign + mark.utf8Size)
    (some mark) hinside hend
  have hbody := Cursor.textTo_append text (pos + Chars.size sign + mark.utf8Size) (some mark)
    ((if closed then [mark] else []) ++ rest)
  have hassoc : (Assigned.quoted sign mark text closed).chars ++ rest =
      sign ++ (mark :: (text ++ ((if closed then [mark] else []) ++ rest))) := by
    simp [Assigned.chars]
  rw [hassoc, hread, readValue, hskip]
  simp only [Cursor.head?, List.head?_cons, hquote, if_true, Cursor.next_mk, hstop, hbody,
    Prod.mk.injEq, Assigned.value?, Span.shift, Option.some.injEq, AttributeValue.mk.injEq,
    Span.mk.injEq, true_and, and_true]
  refine ⟨⟨by omega, by omega⟩, ?_⟩
  cases closed with
  | true =>
    simp [Assigned.chars]
    omega
  | false =>
    rw [hclosed rfl]
    simp [Assigned.chars, Cursor.next]
    omega

/-- A value without quotes ends at a blank or at the end of the tag. -/
theorem readAssigned_bare {sign text rest : List Char} {ch : Char} (base pos : Nat)
    (prev : Option Char) (hsign : IsSign sign) (htext : ∀ c ∈ text, isBare c = true)
    (hrest : StopsAt isBare rest) (hhead : (text ++ rest).head? = some ch)
    (hspace : isSpace ch = false) (hmark : ¬IsQuote ch) :
    readAssigned base ⟨(Assigned.bare sign text).chars ++ rest, pos, prev⟩ =
      ((Assigned.bare sign text).value? (pos + base),
        ⟨rest, pos + Chars.size (Assigned.bare sign text).chars,
          behind prev (Assigned.bare sign text).chars⟩) := by
  -- the sign ends at the first character of the value, which is no space
  have hstops : StopsAt isSpace (text ++ rest) := by
    intro d hd
    rw [hhead, Option.mem_some] at hd
    rw [← hd, hspace]
  obtain ⟨before, hread, hskip⟩ := readAssigned_sign base pos prev hsign hstops
  have hquote : (ch == '\x22' || ch == '\x27') = false := by
    simpa [IsQuote] using hmark
  have hstop := Cursor.skipWhile_append text (pos + Chars.size sign) (behind prev sign) htext hrest
  have hbody := Cursor.textTo_append text (pos + Chars.size sign) (behind prev sign) rest
  unfold isBare at hstop
  rw [Assigned.chars, List.append_assoc, hread, readValue, hskip]
  simp only [Cursor.head?, hhead, hquote, Bool.false_eq_true, if_false, hstop, hbody,
    Prod.mk.injEq, Assigned.value?, Span.shift, Option.some.injEq, AttributeValue.mk.injEq,
    Span.mk.injEq, true_and, and_true, Cursor.behind_append, Chars.size_append, Cursor.mk.injEq]
  exact ⟨⟨by omega, by omega⟩, by omega⟩

/-- What is written behind a name is read as its value. -/
theorem readAssigned_fits {value : Assigned} {rest : List Char} (base pos : Nat)
    (prev : Option Char) (hfits : value.Fits rest) :
    readAssigned base ⟨value.chars ++ rest, pos, prev⟩ =
      (value.value? (pos + base),
        ⟨rest, pos + Chars.size value.chars, behind prev value.chars⟩) := by
  cases hfits with
  | nothing hrest =>
    -- no equals sign may hide behind the spaces
    have hhead : ((Cursor.mk rest pos prev).skipWhile isSpace).head? =
        (rest.dropWhile isSpace).head? := by
      have hmove := Cursor.skipWhile_append (rest.takeWhile isSpace) pos prev
        (List.all_eq_true.mp List.all_takeWhile) (Cursor.stopsAt_dropWhile isSpace rest)
      rw [List.takeWhile_append_dropWhile] at hmove
      rw [hmove]
      rfl
    rw [Assigned.chars, List.nil_append, readAssigned, hhead, if_neg (by simpa using hrest)]
    rfl
  | dangling hsign =>
    obtain ⟨before, hread, hskip⟩ :=
      readAssigned_sign base pos prev hsign (Cursor.stopsAt_nil isSpace)
    rw [Assigned.chars, hread, readValue, hskip]
    rfl
  | quoted hsign hmark htext hclosed =>
    exact readAssigned_quoted base pos prev hsign hmark htext hclosed
  | bare hsign htext hrest hhead hspace hmark =>
    exact readAssigned_bare base pos prev hsign htext hrest hhead hspace hmark

/-- The name of an attribute is read as far as it goes. -/
theorem skipNameFrom_append {name rest : List Char} (pos : Nat) (prev : Option Char)
    (hname : ∀ a b, name = a ++ b → b ≠ [] → endsAttributeName (b ++ rest) = false)
    (hrest : endsAttributeName rest = true) :
    skipNameFrom (name ++ rest) pos prev = ⟨rest, pos + Chars.size name, behind prev name⟩ := by
  induction name generalizing pos prev with
  | nil =>
    cases rest with
    | nil => rfl
    | cons ch cs =>
      rw [endsAttributeName] at hrest
      rw [List.nil_append, skipNameFrom, if_pos hrest]
      rfl
  | cons ch name ih =>
    have hch := hname [] (ch :: name) rfl (List.cons_ne_nil _ _)
    -- that the name goes on is known for every rest of it, so also behind its first character
    have hmore : ∀ a b, name = a ++ b → b ≠ [] → endsAttributeName (b ++ rest) = false := by
      intro a b heq hne
      exact hname (ch :: a) b (by rw [heq]; rfl) hne
    rw [List.cons_append, endsAttributeName] at hch
    rw [List.cons_append, skipNameFrom, if_neg (by simp only [hch]; exact Bool.false_ne_true),
      ih _ _ hmore, Cursor.behind_cons, Chars.size_cons, Nat.add_assoc]

/-- Where the attributes of a tag end. -/
inductive EndsTag : List Char → Prop
  | eof : EndsTag []
  | mark (cs : List Char) : EndsTag ('>' :: cs)
  | slash (cs : List Char) : EndsTag ('/' :: '>' :: cs)

/-- The place of the `>` that ends a tag, given what follows its attributes. -/
def tagStop? (rest : List Char) (pos : Nat) (prev : Option Char) : Option Cursor :=
  match rest with
  | '>' :: cs => some ⟨'>' :: cs, pos, prev⟩
  | '/' :: '>' :: cs => some ⟨'>' :: cs, pos + 1, some '/'⟩
  | _ => none

/-- At the end of a tag reading stops. -/
theorem readAttributes_end {rest : List Char} (hend : EndsTag rest) (base fuel pos : Nat)
    (prev : Option Char) (acc : List Attribute) :
    readAttributes base (fuel + 1) ⟨rest, pos, prev⟩ acc =
      (acc.reverse, tagStop? rest pos prev) := by
  cases hend with
  | eof => rfl
  | mark cs => rfl
  | slash cs => rfl

/-- A blank in a tag is passed over. -/
theorem readAttributes_blank {ch : Char} (hspace : isSpace ch = true) (base fuel pos : Nat)
    (prev : Option Char) (cs : List Char) (acc : List Attribute) :
    readAttributes base (fuel + 1) ⟨ch :: cs, pos, prev⟩ acc =
      readAttributes base (fuel + 1) ⟨cs, pos + ch.utf8Size, some ch⟩ acc := by
  have hskip : (Cursor.mk (ch :: cs) pos prev).skipWhile isSpace =
      (Cursor.mk cs (pos + ch.utf8Size) (some ch)).skipWhile isSpace := by
    rw [Cursor.skipWhile, Cursor.skipWhile, Cursor.skipWhileFrom, if_pos hspace]
  rw [readAttributes, readAttributes, hskip]

/-- A slash inside of a tag is passed. -/
theorem readAttributes_slash {cs : List Char} (hcs : cs.head? ≠ some '>') (base fuel pos : Nat)
    (prev : Option Char) (acc : List Attribute) :
    readAttributes base (fuel + 1) ⟨'/' :: cs, pos, prev⟩ acc =
      readAttributes base fuel ⟨cs, pos + 1, some '/'⟩ acc := by
  have hskip : (Cursor.mk ('/' :: cs) pos prev).skipWhile isSpace = ⟨'/' :: cs, pos, prev⟩ :=
    Cursor.skipWhile_of_stopsAt pos prev (Cursor.stopsAt_cons.mpr (by decide))
  rw [readAttributes, hskip]
  dsimp only
  split
  · rename_i heq
    cases heq
  · rename_i heq
    cases heq
  · rename_i heq
    cases heq
    exact absurd rfl hcs
  · rfl
  · rename_i hslash
    exact absurd rfl (hslash cs)

/-- The characters at which an attribute starts. -/
def startsAttribute (ch : Char) : Bool :=
  !(isSpace ch || ch == '>' || ch == '/')

/-- Reading goes on with an attribute, or with a value that has no name. -/
theorem readAttributes_name {ch : Char} (hch : startsAttribute ch = true) (cs : List Char)
    (base fuel pos : Nat) (prev : Option Char) (acc : List Attribute) :
    readAttributes base (fuel + 1) ⟨ch :: cs, pos, prev⟩ acc =
      let nameEnd := skipNameFrom (ch :: cs) pos prev
      let (value, stop) := readAssigned base nameEnd
      if pos < nameEnd.pos then
        let attr : Attribute := ⟨(Cursor.mk (ch :: cs) pos prev).textTo nameEnd.pos, value,
          (Span.mk pos stop.pos).shift base⟩
        readAttributes base fuel stop (attr :: acc)
      else readAttributes base fuel stop.next acc := by
  -- a character that starts an attribute is no blank and ends no tag, so the last branch is taken
  simp only [startsAttribute, Bool.not_eq_true', Bool.or_eq_false_iff, beq_eq_false_iff_ne] at hch
  obtain ⟨⟨hspace, hgt⟩, hslash⟩ := hch
  have hskip : (Cursor.mk (ch :: cs) pos prev).skipWhile isSpace = ⟨ch :: cs, pos, prev⟩ :=
    Cursor.skipWhile_of_stopsAt pos prev (Cursor.stopsAt_cons.mpr hspace)
  rw [readAttributes, hskip]
  dsimp only
  split
  · rename_i heq
    cases heq
  · rename_i heq
    cases heq
    exact absurd rfl hgt
  · rename_i heq
    cases heq
    exact absurd rfl hslash
  · rename_i heq
    cases heq
    exact absurd rfl hslash
  · rfl

/-- The first character of the name of an attribute. -/
theorem IsAttributeName.exists_cons {name rest : List Char} (h : IsAttributeName name rest) :
    ∃ ch cs, name = ch :: cs ∧ startsAttribute ch = true ∧ ch ≠ '=' := by
  obtain ⟨hne, hslash, -, hinner⟩ := h
  obtain ⟨ch, cs, rfl⟩ := List.exists_cons_of_ne_nil hne
  have hch := hinner [] (ch :: cs) rfl (List.cons_ne_nil _ _)
  rw [List.cons_append, endsAttributeName] at hch
  simp only [Bool.or_eq_false_iff, beq_eq_false_iff_ne] at hch
  obtain ⟨⟨⟨hspace, hsign⟩, hgt⟩, -⟩ := hch
  have hslash' : ch ≠ '/' := by simpa using hslash
  exact ⟨ch, cs, rfl, by simp [startsAttribute, hspace, hgt, hslash'], hsign⟩

/-- An attribute is read as it is written. -/
theorem readAttributes_attr {name : List Char} {value : Assigned} {rest : List Char}
    (hname : IsAttributeName name (value.chars ++ rest)) (hvalue : value.Fits rest)
    (base fuel pos : Nat) (prev : Option Char) (acc : List Attribute) :
    readAttributes base (fuel + 1) ⟨(Item.attr name value).chars ++ rest, pos, prev⟩ acc =
      readAttributes base fuel
        ⟨rest, pos + Chars.size (name ++ value.chars), behind prev (name ++ value.chars)⟩
        (⟨String.ofList name, value.value? (pos + base + Chars.size name),
          ⟨pos + base, pos + base + Chars.size (name ++ value.chars)⟩⟩ :: acc) := by
  obtain ⟨ch, cs, hcons, hstart, -⟩ := hname.exists_cons
  obtain ⟨hne, -, hends, hinner⟩ := hname
  have hskip := skipNameFrom_append pos prev hinner hends
  have hread := readAssigned_fits base (pos + Chars.size name) (behind prev name) hvalue
  have htext := Cursor.textTo_append name pos prev (value.chars ++ rest)
  have hsize : 0 < Chars.size name := by
    refine Nat.pos_of_ne_zero ?_
    intro hzero
    exact hne (Chars.eq_nil_of_size_eq_zero hzero)
  have hhead := readAttributes_name hstart (cs ++ (value.chars ++ rest)) base fuel pos prev acc
  rw [← List.cons_append, ← hcons, hskip] at hhead
  rw [Item.chars, List.append_assoc, hhead]
  dsimp only
  rw [hread, if_pos (by omega), htext, Chars.size_append, Cursor.behind_append]
  -- the reader adds the base last, the range of the attribute has it first
  have hvalue : pos + Chars.size name + base = pos + base + Chars.size name := by omega
  have hstop : pos + Chars.size name + Chars.size value.chars + base =
      pos + base + (Chars.size name + Chars.size value.chars) := by omega
  dsimp only [Span.shift]
  rw [hvalue, hstop, Nat.add_assoc pos]

/-- A value without a name is passed over together with the character after it. -/
theorem readAttributes_stray {value : Assigned} {after : Option Char} {rest : List Char}
    (hsign : value.chars.head? = some '=') (hvalue : value.Fits (after.toList ++ rest))
    (hafter : after = none → rest = []) (base fuel pos : Nat) (prev : Option Char)
    (acc : List Attribute) :
    readAttributes base (fuel + 1) ⟨(Item.stray value after).chars ++ rest, pos, prev⟩ acc =
      readAttributes base fuel
        ⟨rest, pos + Chars.size (Item.stray value after).chars,
          behind prev (Item.stray value after).chars⟩ acc := by
  obtain ⟨cs, hcons⟩ : ∃ cs, value.chars = '=' :: cs := by
    cases hchars : value.chars with
    | nil => simp [hchars] at hsign
    | cons ch cs =>
      rw [hchars, List.head?_cons, Option.some.injEq] at hsign
      rw [hsign]
      exact ⟨cs, rfl⟩
  have hread := readAssigned_fits base pos prev hvalue
  have hstart : startsAttribute '=' = true := by decide
  have hhead := readAttributes_name hstart (cs ++ (after.toList ++ rest)) base fuel pos prev acc
  rw [← List.cons_append, ← hcons] at hhead
  -- no name stands before the sign, so nothing is taken and reading goes on behind the value
  have hskip : skipNameFrom (value.chars ++ (after.toList ++ rest)) pos prev =
      ⟨value.chars ++ (after.toList ++ rest), pos, prev⟩ := by
    rw [hcons]
    rfl
  rw [Item.chars, List.append_assoc, hhead, hskip]
  dsimp only
  rw [hread, if_neg (Nat.lt_irrefl pos)]
  cases after with
  | none =>
    rw [hafter rfl]
    simp [Cursor.next]
  | some ch => simp [Nat.add_assoc]

/-- One item is read as what it is. A blank costs nothing of the fuel. -/
theorem readAttributes_item {item : Item} {rest : List Char} (hfits : item.Fits rest)
    (base fuel pos : Nat) (prev : Option Char) (acc : List Attribute) :
    ∃ n, fuel ≤ n ∧
      readAttributes base (fuel + 1) ⟨item.chars ++ rest, pos, prev⟩ acc =
        readAttributes base n ⟨rest, pos + Chars.size item.chars, behind prev item.chars⟩
          ((item.attribute? (pos + base)).toList ++ acc) := by
  cases hfits with
  | blank hspace =>
    exact ⟨fuel + 1, Nat.le_succ fuel, readAttributes_blank hspace base fuel pos prev rest acc⟩
  | slash hslash =>
    exact ⟨fuel, Nat.le_refl fuel, readAttributes_slash hslash base fuel pos prev acc⟩
  | stray hsign hvalue hafter =>
    exact ⟨fuel, Nat.le_refl fuel,
      readAttributes_stray hsign hvalue hafter base fuel pos prev acc⟩
  | attr hname hvalue =>
    exact ⟨fuel, Nat.le_refl fuel, readAttributes_attr hname hvalue base fuel pos prev acc⟩

/-- A written sequence of items is read as its attributes. -/
theorem readAttributes_items {items : List Item} {rest : List Char} (hend : EndsTag rest)
    (hfit : ItemsFit rest items) {base fuel : Nat} (pos : Nat) (prev : Option Char)
    (acc : List Attribute) (hfuel : (Item.written items ++ rest).length < fuel) :
    readAttributes base fuel ⟨Item.written items ++ rest, pos, prev⟩ acc =
      (acc.reverse ++ Item.attributes (pos + base) items,
        tagStop? rest (pos + Chars.size (Item.written items))
          (behind prev (Item.written items))) := by
  induction items generalizing fuel pos prev acc with
  | nil =>
    obtain ⟨fuel, rfl⟩ := Nat.exists_eq_add_one_of_ne_zero (Nat.ne_of_gt (Nat.zero_lt_of_lt hfuel))
    rw [Item.written_nil, List.nil_append, readAttributes_end hend, Item.attributes,
      List.append_nil]
    rfl
  | cons item items ih =>
    obtain ⟨hitem, hitems⟩ := hfit
    obtain ⟨fuel, rfl⟩ := Nat.exists_eq_add_one_of_ne_zero (Nat.ne_of_gt (Nat.zero_lt_of_lt hfuel))
    obtain ⟨n, hn, hstep⟩ := readAttributes_item hitem base fuel pos prev acc
    -- each item takes up at least one round and one character
    have hlen := List.length_pos_iff.mpr hitem.chars_ne_nil
    rw [Item.written_cons, List.append_assoc, List.length_append] at hfuel
    rw [Item.written_cons, List.append_assoc, hstep, ih hitems _ _ _ (by omega), Chars.size_append,
      Cursor.behind_append, Item.attributes, ← Nat.add_assoc, Nat.add_right_comm pos]
    cases item.attribute? (pos + base) <;> simp

/-! ## Whatever is written -/

/-- An attribute starts with a name, as far as it goes. -/
theorem exists_attributeName {ch : Char} (hstart : startsAttribute ch = true) (hsign : ch ≠ '=')
    (cs : List Char) :
    ∃ name rest, ch :: cs = name ++ rest ∧ IsAttributeName name rest := by
  -- the name goes on until the rest ends it
  obtain ⟨name, rest, heq, hrest, hinner⟩ :=
    Cursor.exists_first_end endsAttributeName rfl (ch :: cs)
  simp only [startsAttribute, Bool.not_eq_true', Bool.or_eq_false_iff, beq_eq_false_iff_ne]
    at hstart
  obtain ⟨⟨hspace, hgt⟩, hslash⟩ := hstart
  cases name with
  | nil =>
    rw [List.nil_append] at heq
    rw [← heq, endsAttributeName] at hrest
    simp [hspace, hgt, hslash, hsign] at hrest
  | cons d name =>
    rw [List.cons_append, List.cons.injEq] at heq
    refine ⟨d :: name, rest, by rw [heq.1, heq.2]; rfl, List.cons_ne_nil _ _, ?_, hrest, hinner⟩
    rw [List.head?_cons, ← heq.1]
    simpa using hslash

/-- Whatever follows an equals sign is a value. -/
theorem exists_assigned_sign {sign : List Char} (hsign : IsSign sign) {cs : List Char}
    (hcs : StopsAt isSpace cs) :
    ∃ value rest, sign ++ cs = Assigned.chars value ++ rest ∧ value.Fits rest ∧
      sign <+: value.chars := by
  cases cs with
  | nil => exact ⟨.dangling sign, [], by simp [Assigned.chars], .dangling hsign, List.prefix_rfl⟩
  | cons ch cs =>
    have hspace := Cursor.stopsAt_cons.mp hcs
    -- a quote takes all up to the next one of its kind, any other character starts a bare value
    by_cases hquote : IsQuote ch
    · obtain ⟨text, rest, rfl, htext, hstop⟩ := Cursor.exists_takeWhile (· != ch) cs
      have htext' : ch ∉ text := by
        intro hmem
        simpa using htext ch hmem
      cases rest with
      | nil =>
        exact ⟨.quoted sign ch text false, [], by simp [Assigned.chars],
          .quoted hsign hquote htext' (fun _ => rfl), List.prefix_append _ _⟩
      | cons d rest =>
        have hd : d = ch := by simpa using Cursor.stopsAt_cons.mp hstop
        refine ⟨.quoted sign ch text true, rest, ?_, .quoted hsign hquote htext' (by simp),
          List.prefix_append _ _⟩
        simp [Assigned.chars, hd]
    · obtain ⟨text, rest, heq, htext, hstop⟩ := Cursor.exists_takeWhile isBare (ch :: cs)
      refine ⟨.bare sign text, rest, ?_, ?_, List.prefix_append _ _⟩
      · rw [heq, Assigned.chars, List.append_assoc]
      · have hhead : (text ++ rest).head? = some ch := by
          rw [← heq]
          rfl
        exact .bare hsign htext hstop hhead hspace hquote

/-- Behind a name stands a value or none. -/
theorem exists_assigned (cs : List Char) :
    ∃ value rest, cs = Assigned.chars value ++ rest ∧ value.Fits rest := by
  -- without a sign there is no value, and nothing but the blanks is looked at
  by_cases hhead : (cs.dropWhile isSpace).head? = some '='
  · obtain ⟨after, hafter⟩ : ∃ after, cs.dropWhile isSpace = '=' :: after := by
      cases hdrop : cs.dropWhile isSpace with
      | nil => simp [hdrop] at hhead
      | cons ch after =>
        rw [hdrop, List.head?_cons, Option.some.injEq] at hhead
        rw [hhead]
        exact ⟨after, rfl⟩
    obtain ⟨blanks, rest, rfl, hblanks, hstop⟩ := Cursor.exists_takeWhile isSpace after
    have hsign : IsSign (cs.takeWhile isSpace ++ '=' :: blanks) :=
      ⟨cs.takeWhile isSpace, blanks, rfl, List.all_eq_true.mp List.all_takeWhile, hblanks⟩
    obtain ⟨value, rest', heq, hfits, -⟩ := exists_assigned_sign hsign hstop
    refine ⟨value, rest', ?_, hfits⟩
    rw [← heq, List.append_assoc, List.cons_append, ← hafter, List.takeWhile_append_dropWhile]
  · exact ⟨.nothing, cs, rfl, .nothing hhead⟩

/-- A value without a name is an item. -/
theorem exists_stray (cs : List Char) : ∃ item rest, '=' :: cs = Item.chars item ++ rest ∧
    rest.length < ('=' :: cs).length ∧ item.Fits rest := by
  obtain ⟨blanks, after, rfl, hblanks, hstop⟩ := Cursor.exists_takeWhile isSpace cs
  have hsign : IsSign ('=' :: blanks) := ⟨[], blanks, rfl, by simp, hblanks⟩
  obtain ⟨value, rest, heq, hfits, more, hmore⟩ := exists_assigned_sign hsign hstop
  have hhead : value.chars.head? = some '=' := by
    rw [← hmore]
    rfl
  rw [List.cons_append] at heq
  have hlt : rest.length < ('=' :: (blanks ++ after)).length := by
    rw [heq, ← hmore]
    simp
    omega
  -- the character behind the value belongs to the stray item, too
  cases rest with
  | nil =>
    refine ⟨.stray value none, [], ?_, hlt, .stray hhead hfits fun _ => rfl⟩
    rw [heq]
    simp [Item.chars]
  | cons d rest =>
    refine ⟨.stray value (some d), rest, ?_, Nat.lt_trans (Nat.lt_succ_self _) hlt,
      .stray hhead hfits (by simp)⟩
    rw [heq]
    simp [Item.chars]

/-- Behind the name of a tag there is an item, or the tag ends. -/
theorem exists_item (cs : List Char) : EndsTag cs ∨ ∃ item rest, cs = Item.chars item ++ rest ∧
    rest.length < cs.length ∧ item.Fits rest := by
  cases cs with
  | nil => exact Or.inl .eof
  | cons ch cs =>
    by_cases hspace : isSpace ch = true
    · exact Or.inr ⟨.gap ch, cs, rfl, by simp, .blank hspace⟩
    by_cases hgt : ch = '>'
    · subst hgt
      exact Or.inl (.mark cs)
    by_cases hslash : ch = '/'
    · subst hslash
      by_cases hend : cs.head? = some '>'
      · obtain ⟨more, rfl⟩ := List.head?_eq_some_iff.mp hend
        exact Or.inl (.slash more)
      · exact Or.inr ⟨.gap '/', cs, rfl, by simp, .slash hend⟩
    by_cases hsign : ch = '='
    · subst hsign
      exact Or.inr (exists_stray cs)
    -- neither blank nor mark: a name starts here
    have hstart : startsAttribute ch = true := by simp [startsAttribute, hspace, hgt, hslash]
    obtain ⟨name, rest, heq, hname⟩ := exists_attributeName hstart hsign cs
    obtain ⟨value, rest, rfl, hvalue⟩ := exists_assigned rest
    refine Or.inr ⟨.attr name value, rest, ?_, ?_, .attr hname hvalue⟩
    · rw [heq, Item.chars, List.append_assoc]
    · have hpos := List.length_pos_iff.mpr hname.1
      rw [heq, List.length_append, List.length_append]
      omega

/-- Whatever follows the name of a tag is a sequence of items and the end of the tag. -/
theorem exists_items (cs : List Char) :
    ∃ items rest, cs = Item.written items ++ rest ∧ ItemsFit rest items ∧ EndsTag rest := by
  induction hlen : cs.length using Nat.strongRecOn generalizing cs with
  | ind n ih =>
    rcases exists_item cs with hend | ⟨item, rest, rfl, hlt, hfits⟩
    · exact ⟨[], cs, rfl, trivial, hend⟩
    · obtain ⟨items, last, rfl, hitems, hend⟩ := ih rest.length (hlen ▸ hlt) rest rfl
      refine ⟨item :: items, last, ?_, ⟨hfits, hitems⟩, hend⟩
      rw [Item.written_cons, List.append_assoc]

end TextHarvest.Component
