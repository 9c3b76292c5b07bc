import TextHarvest.Proofs.Component.Rewritten

/-!
# What is rewritten still fits

A new expression is put between delimiters: double braces, or the quotes of an attribute. As long
as it does not hold the delimiter that ends it, the pieces of the rewritten template fit in front
of each other as the old ones did.

Main results:

* `ItemsFit.rewritten` — the items of a rewritten tag fit.
* `Piece.Fits.tag_rewritten` — a rewritten tag fits.
* `PiecesFit.rewritten` — the pieces of a rewritten template fit.
-/

namespace TextHarvest.Component

open Cursor (behind StopsAt)
open Harvest

variable {h : Harvester}

/-! ## Delimiters -/

/-- The quote that ends the new value of an attribute: a directive keeps the quote it has. -/
def Attribute.closing (attr : Attribute) : Char :=
  match attr.value.bind AttributeValue.quote, Directive.ofName? attr.name with
  | some quote, some _ => quote
  | _, _ => '\x22'

/-- A directive is closed by the quote that it has. -/
theorem Attribute.closing_directive {attr : Attribute} {v : AttributeValue} {d : Directive}
    (hvalue : attr.value = some v) (hname : Directive.ofName? attr.name = some d) :
    attr.closing = v.quote.getD '\x22' := by
  rw [Attribute.closing, hvalue, hname, Option.bind_some]
  cases v.quote <;> rfl

/-- A plain attribute is written anew with double quotes. -/
theorem Attribute.closing_plain {attr : Attribute} (hname : Directive.ofName? attr.name = none) :
    attr.closing = '\x22' := by
  rw [Attribute.closing, hname]
  cases attr.value.bind AttributeValue.quote <;> rfl

/-- A new expression can be put into a node: it does not hold what ends it there, and the value it
replaces is not taken for the slash at the end of a tag. -/
def Node.Holds (new : List Char) : Node → Prop
  | .attribute attr => attr.closing ∉ new ∧
      ∀ value ∈ attr.value, value.quote = none → value.text.toList.getLast? ≠ some '/'
  | _ => ¬bracesClose <:+: new

instance (new : List Char) (node : Node) : Decidable (node.Holds new) :=
  match node with
  | .attribute attr =>
    decidable_of_iff (attr.closing ∉ new ∧ attr.value.all fun value =>
      decide (value.quote = none → value.text.toList.getLast? ≠ some '/')) <| by
        simp only [Node.Holds, Option.all_eq_true, decide_eq_true_eq, Option.mem_def]
  | .text .. => inferInstanceAs (Decidable (¬_))
  | .interpolation .. => inferInstanceAs (Decidable (¬_))

/-- Whatever is put into an item can be put there. -/
def Item.Safe (h : Harvester) (item : Item) : Prop :=
  ∀ attr new, item.attribute? 0 = some attr → newExpr? h (.attribute attr) = some new →
    (Node.attribute attr).Holds new.toList

/-! ## Items -/

/-- A text can stand for another behind an item of a tag. -/
structure SameFront (rest rest' : List Char) : Prop where
  nil : rest = [] → rest' = []
  ends : endsAttributeName rest' = endsAttributeName rest
  stops : StopsAt isTagNameChar rest → rest'.head? = rest.head?
  gt : rest'.head? = some '>' → rest.head? = some '>'
  sign : (rest'.dropWhile isSpace).head? = some '=' → (rest.dropWhile isSpace).head? = some '='

/-- What follows is the same. -/
theorem SameFront.refl (rest : List Char) : SameFront rest rest :=
  ⟨id, rfl, fun _ => rfl, id, id⟩

/-- What ends a bare value ends a name. -/
theorem stopsAt_isTagNameChar {rest : List Char} (hrest : StopsAt isBare rest) :
    StopsAt isTagNameChar rest := by
  intro ch hch
  have hbare := hrest ch hch
  rw [isBare, Bool.not_eq_false', Bool.or_eq_true] at hbare
  rw [isTagNameChar, Bool.not_eq_false', Bool.or_eq_true, Bool.or_eq_true]
  exact Or.inl hbare

/-- The end of a name is decided by the character after it, unless that is a slash. -/
theorem endsAttributeName_append {b rest rest' : List Char} (hb : b ≠ [])
    (hgt : rest'.head? = some '>' → rest.head? = some '>')
    (hends : endsAttributeName (b ++ rest) = false) : endsAttributeName (b ++ rest') = false := by
  obtain ⟨ch, cs, rfl⟩ := List.exists_cons_of_ne_nil hb
  rw [List.cons_append, endsAttributeName, Bool.or_eq_false_iff] at hends ⊢
  refine ⟨hends.1, ?_⟩
  cases cs with
  | cons d cs => exact hends.2
  | nil =>
    rw [Bool.and_eq_false_iff] at hends ⊢
    refine hends.2.imp_right ?_
    intro hhead
    rw [List.nil_append, beq_eq_false_iff_ne] at hhead ⊢
    exact fun heq => hhead (hgt heq)

/-- A name stays one when what follows starts alike. -/
theorem IsAttributeName.of_front {name rest rest' : List Char} (hname : IsAttributeName name rest)
    (hends : endsAttributeName rest' = true)
    (hgt : rest'.head? = some '>' → rest.head? = some '>') : IsAttributeName name rest' := by
  obtain ⟨hne, hslash, -, hinner⟩ := hname
  refine ⟨hne, hslash, hends, ?_⟩
  intro a b heq hb
  exact endsAttributeName_append hb hgt (hinner a b heq hb)

/-- The name of an attribute stops before its equals sign. -/
theorem IsSign.exists_cons {sign : List Char} (hsign : IsSign sign) :
    ∃ ch cs, sign = ch :: cs ∧ (isSpace ch = true ∨ ch = '=') := by
  obtain ⟨before, after, rfl, hbefore, -⟩ := hsign
  cases before with
  | nil => exact ⟨'=', after, rfl, Or.inr rfl⟩
  | cons ch before => exact ⟨ch, _, rfl, Or.inl (hbefore ch List.mem_cons_self)⟩

/-- An equals sign ends a name and closes no tag. -/
theorem IsSign.endsAttributeName {sign : List Char} (hsign : IsSign sign) (rest : List Char) :
    endsAttributeName (sign ++ rest) = true ∧ (sign ++ rest).head? ≠ some '>' := by
  obtain ⟨ch, cs, rfl, hch⟩ := hsign.exists_cons
  rcases hch with hspace | rfl
  · refine ⟨by simp [Component.endsAttributeName, hspace], ?_⟩
    rw [List.cons_append, List.head?_cons, Ne, Option.some.injEq]
    rintro rfl
    exact absurd hspace (by decide)
  · exact ⟨by simp [Component.endsAttributeName], by simp⟩

/-- What is written behind a name, unless nothing is, starts with a sign. -/
theorem Assigned.Fits.signed {value : Assigned} {rest : List Char} (hvalue : value.Fits rest) :
    value.chars = [] ∨ ∃ sign more, IsSign sign ∧ value.chars = sign ++ more := by
  cases hvalue with
  | nothing => exact Or.inl rfl
  | @dangling sign hsign => exact Or.inr ⟨sign, [], hsign, (List.append_nil sign).symm⟩
  | quoted hsign => exact Or.inr ⟨_, _, hsign, rfl⟩
  | bare hsign => exact Or.inr ⟨_, _, hsign, rfl⟩

/-- A value stays one when what follows starts alike. -/
theorem Assigned.Fits.of_front {value : Assigned} {rest rest' : List Char}
    (hvalue : value.Fits rest) (hfront : SameFront rest rest') : value.Fits rest' := by
  cases hvalue with
  | nothing hrest => exact .nothing fun hsign => hrest (hfront.sign hsign)
  | dangling hsign =>
    rw [hfront.nil rfl]
    exact .dangling hsign
  | quoted hsign hmark htext hclosed =>
    exact .quoted hsign hmark htext fun hopen => hfront.nil (hclosed hopen)
  | @bare sign text _ ch hsign htext hrest hhead hspace hmark =>
    -- only what stands right behind a bare value can make it longer
    have hsame := hfront.stops (stopsAt_isTagNameChar hrest)
    refine @Assigned.Fits.bare sign text rest' ch hsign htext ?_ ?_ hspace hmark
    · intro d hd
      rw [hsame] at hd
      exact hrest d hd
    · cases text with
      | nil =>
        rw [List.nil_append] at hhead ⊢
        rw [hsame, hhead]
      | cons d text => exact hhead

/-- An attribute starts alike for what stands before it. -/
theorem SameFront.of_names {name name' rest rest' : List Char} (hname : IsAttributeName name rest)
    (hname' : IsAttributeName name' rest') : SameFront (name ++ rest) (name' ++ rest') := by
  have hends : endsAttributeName (name ++ rest) = false := hname.2.2.2 [] name rfl hname.1
  have hends' : endsAttributeName (name' ++ rest') = false := hname'.2.2.2 [] name' rfl hname'.1
  obtain ⟨ch, cs, rfl, hstart, hsign⟩ := hname.exists_cons
  obtain ⟨ch', cs', rfl, hstart', hsign'⟩ := hname'.exists_cons
  have hspace' : isSpace ch' = false ∧ ch' ≠ '>' := by
    simp only [startsAttribute, Bool.not_eq_true', Bool.or_eq_false_iff, beq_eq_false_iff_ne]
      at hstart'
    exact hstart'.1
  refine ⟨by simp, hends'.trans hends.symm, ?_, ?_, ?_⟩
  · -- an attribute does not start where a tag name stops
    intro hstops
    have hch := Cursor.stopsAt_cons.mp hstops
    rw [isTagNameChar] at hch
    rw [startsAttribute, hch] at hstart
    cases hstart
  · intro hgt
    rw [List.cons_append, List.head?_cons, Option.some.injEq] at hgt
    exact absurd hgt hspace'.2
  · intro heq
    rw [List.cons_append, List.dropWhile_cons, if_neg (by simp [hspace'.1]), List.head?_cons,
      Option.some.injEq] at heq
    exact absurd heq hsign'

/-- A name with a colon in front is one, with a value behind it. -/
theorem IsAttributeName.bound {name rest : List Char} (hname : IsAttributeName name rest)
    (rest' : List Char) : IsAttributeName (':' :: name) ('=' :: rest') := by
  obtain ⟨hne, -, -, hinner⟩ := hname
  refine ⟨List.cons_ne_nil _ _, by simp, rfl, ?_⟩
  intro a b heq hb
  cases a with
  | nil =>
    rw [List.nil_append] at heq
    rw [← heq]
    rfl
  | cons d a =>
    rw [List.cons_append, List.cons.injEq] at heq
    exact endsAttributeName_append hb (by simp) (hinner a b heq.2 hb)

/-- A text between blanks has the characters of both. -/
theorem not_mem_around {mark : Char} {text new : List Char} (htext : mark ∉ text)
    (hnew : mark ∉ new) : mark ∉ Chars.around text new := by
  rw [Chars.around, List.mem_append, List.mem_append, not_or, not_or]
  refine ⟨?_, hnew, ?_⟩
  · intro hmem
    exact htext ((List.takeWhile_prefix _).subset hmem)
  · intro hmem
    rw [Chars.blankEnd, List.mem_reverse] at hmem
    exact htext (List.mem_reverse.mp ((List.takeWhile_prefix _).subset hmem))

/-- A directive with a new expression fits. -/
theorem Assigned.Fits.renewed {value : Assigned} {rest rest' : List Char} {name : List Char}
    {new : List Char} {v : AttributeValue} (hvalue : value.Fits rest)
    (hname : IsAttributeName name (value.chars ++ rest)) (hfront : SameFront rest rest')
    (hv : value.value? (0 + Chars.size name) = some v) (hnew : (v.quote.getD '\x22') ∉ new) :
    IsAttributeName name ((value.renewed new).chars ++ rest') ∧ (value.renewed new).Fits rest' := by
  -- the sign stays, and with it the end of the name
  have hsigned : ∀ (sign more : List Char), IsSign sign → IsAttributeName name (sign ++ more) := by
    intro sign more hsign
    obtain ⟨hends, hgt⟩ := hsign.endsAttributeName more
    exact hname.of_front hends fun heq => absurd heq hgt
  cases hvalue with
  | nothing => cases hv
  | dangling => cases hv
  | @quoted sign text _ mark closed hsign hmark htext hclosed =>
    obtain rfl := Option.some.inj hv
    refine ⟨?_, .quoted hsign hmark (not_mem_around htext hnew) fun hopen =>
      hfront.nil (hclosed hopen)⟩
    rw [Assigned.renewed, Assigned.chars, List.append_assoc]
    exact hsigned sign _ hsign
  | @bare sign text _ ch hsign htext hrest hhead hspace hmark =>
    obtain rfl := Option.some.inj hv
    refine ⟨?_, .quoted hsign (Or.inl rfl) hnew (by simp)⟩
    rw [Assigned.renewed, Assigned.chars, List.append_assoc]
    exact hsigned sign _ hsign

/-- A blank stands alike in front of what starts alike. -/
theorem SameFront.blank {ch : Char} {rest rest' : List Char} (hspace : isSpace ch = true)
    (hfront : SameFront rest rest') : SameFront (ch :: rest) (ch :: rest') := by
  refine ⟨by simp, ?_, fun _ => rfl, id, ?_⟩
  · simp [endsAttributeName, hspace]
  · rw [List.dropWhile_cons, if_pos hspace, List.dropWhile_cons, if_pos hspace]
    exact hfront.sign

/-- A slash in front, unless it would close the tag. -/
theorem SameFront.slash {rest rest' : List Char} (hrest : rest.head? ≠ some '>')
    (hfront : SameFront rest rest') : SameFront ('/' :: rest) ('/' :: rest') := by
  have hrest' : rest'.head? ≠ some '>' := fun heq => hrest (hfront.gt heq)
  refine ⟨by simp, ?_, fun _ => rfl, id, ?_⟩
  · simp only [endsAttributeName, beq_false_of_ne hrest, beq_false_of_ne hrest']
  · intro heq
    rw [List.dropWhile_cons, if_neg (by decide)] at heq
    cases heq

/-- A value without a name stays what it is. -/
theorem Item.Fits.stray_front {value : Assigned} {after : Option Char} {rest rest' : List Char}
    (hstarts : value.chars.head? = some '=') (hvalue : value.Fits (after.toList ++ rest))
    (hafter : after = none → rest = []) (hfront : SameFront rest rest') :
    (Item.stray value after).Fits rest' := by
  -- without a character behind it the value was the last thing of the text
  cases after with
  | none =>
    rw [hfront.nil (hafter rfl)]
    rw [hafter rfl] at hvalue
    exact .stray hstarts hvalue fun _ => rfl
  | some ch =>
    refine .stray hstarts ?_ (by simp)
    cases hvalue with
    | nothing => cases hstarts
    | quoted hsign hmark htext hclosed =>
      refine .quoted hsign hmark htext ?_
      intro hopen
      cases hclosed hopen
    | @bare sign text _ d hsign htext hrest hhead hspace hmark =>
      refine @Assigned.Fits.bare sign text _ d hsign htext ?_ ?_ hspace hmark
      · exact Cursor.stopsAt_cons.mpr (Cursor.stopsAt_cons.mp hrest)
      · cases text with
        | nil => exact hhead
        | cons => exact hhead

/-- In front of an equals sign it does not matter what follows. -/
theorem SameFront.sign_append {cs rest rest' : List Char} (hcs : cs.head? = some '=') :
    SameFront (cs ++ rest) (cs ++ rest') := by
  cases cs with
  | nil => cases hcs
  | cons ch cs =>
    rw [List.head?_cons, Option.some.injEq] at hcs
    subst hcs
    exact ⟨by simp, rfl, fun _ => rfl, id, fun _ => rfl⟩

/-- A rewritten item fits, and starts as it did for what stands before it. -/
theorem Item.Fits.rewritten {item : Item} {rest rest' : List Char} (hfits : item.Fits rest)
    (hsafe : item.Safe h) (hfront : SameFront rest rest') :
    (item.rewritten h).Fits rest' ∧
      SameFront (item.chars ++ rest) ((item.rewritten h).chars ++ rest') := by
  cases hfits with
  | blank hspace => exact ⟨.blank hspace, .blank hspace hfront⟩
  | slash hrest =>
    exact ⟨.slash fun heq => hrest (hfront.gt heq), .slash hrest hfront⟩
  | @stray value after _ hsign hvalue hafter =>
    refine ⟨Item.Fits.stray_front hsign hvalue hafter hfront, ?_⟩
    have hhead : (Item.stray value after).chars.head? = some '=' := by
      rw [Item.chars, List.head?_append, hsign]
      rfl
    exact SameFront.sign_append hhead
  | @attr name value _ hname hvalue =>
    -- it is enough that the new item is an attribute
    have hattr : ∀ name' value', (Item.attr name value).rewritten h = .attr name' value' →
        IsAttributeName name' (value'.chars ++ rest') → value'.Fits rest' →
        ((Item.attr name value).rewritten h).Fits rest' ∧
          SameFront ((Item.attr name value).chars ++ rest)
            (((Item.attr name value).rewritten h).chars ++ rest') := by
      intro name' value' heq hname' hvalue'
      rw [heq, Item.chars, Item.chars, List.append_assoc, List.append_assoc]
      exact ⟨.attr hname' hvalue', .of_names hname hname'⟩
    cases hnew : (Item.attr name value).new? h with
    | none =>
      refine hattr name value (by rw [Item.rewritten, hnew]) ?_ (hvalue.of_front hfront)
      rcases hvalue.signed with hchars | ⟨sign, more, hsign, hchars⟩
      · rw [hchars, List.nil_append] at hname ⊢
        exact hname.of_front (hfront.ends.trans hname.2.2.1) hfront.gt
      · rw [hchars, List.append_assoc] at hname ⊢
        obtain ⟨hends, hgt⟩ := hsign.endsAttributeName (more ++ rest')
        exact hname.of_front hends fun heq => absurd heq hgt
    | some new =>
      have hclosing := (hsafe _ new rfl hnew).1
      obtain ⟨v, hv, -⟩ := exists_value_of_newExpr? hnew
      cases hdirective : Directive.ofName? (String.ofList name) with
      | some d =>
        rw [Attribute.closing_directive hv hdirective] at hclosing
        obtain ⟨hname', hvalue'⟩ := hvalue.renewed hname hfront hv hclosing
        exact hattr name _ (by rw [Item.rewritten, hnew, hdirective]; rfl) hname' hvalue'
      | none =>
        rw [Attribute.closing_plain] at hclosing
        · refine hattr (':' :: name) (.quoted ['='] '\x22' new.toList true)
            (by rw [Item.rewritten, hnew, hdirective]; rfl) (hname.bound _) ?_
          exact .quoted ⟨[], [], rfl, by simp, by simp⟩ (Or.inl rfl) hclosing (by simp)
        · exact hdirective

/-- Attributes that are written anew fit where they stood. -/
theorem ItemsFit.rewritten {items : List Item} {rest rest' : List Char}
    (hfit : ItemsFit rest items) (hsafe : ∀ item ∈ items, item.Safe h)
    (hfront : SameFront rest rest') :
    ItemsFit rest' (items.map (Item.rewritten h)) ∧
      SameFront (Item.written items ++ rest)
        (Item.written (items.map (Item.rewritten h)) ++ rest') := by
  -- by induction from the last attribute: what follows each one starts as before
  induction items with
  | nil => exact ⟨trivial, hfront⟩
  | cons item items ih =>
    obtain ⟨hitem, hitems⟩ := hfit
    obtain ⟨hsafe, hsafes⟩ := List.forall_mem_cons.mp hsafe
    obtain ⟨hmore, hfront'⟩ := ih hitems hsafes
    obtain ⟨hnew, hstart⟩ := hitem.rewritten hsafe hfront'
    rw [List.map_cons, Item.written_cons, Item.written_cons, List.append_assoc, List.append_assoc]
    exact ⟨⟨hnew, hmore⟩, hstart⟩

/-! ## Tags -/

/-- The slash of a tag that closes itself is looked for behind its items. -/
def endsSlash (prev : Option Char) : Bool :=
  prev == some '/'

/-- Whether a tag ends in a slash is told by its last character. -/
theorem endsSlash_behind {prev prev' : Option Char} (hprev : endsSlash prev = endsSlash prev')
    (cs : List Char) : endsSlash (behind prev cs) = endsSlash (behind prev' cs) := by
  cases cs with
  | nil => exact hprev
  | cons ch cs => rw [Cursor.behind_cons, Cursor.behind_cons]

/-- Behind anything else it does not. -/
theorem endsSlash_concat (prev : Option Char) (cs : List Char) {ch : Char} (hch : ch ≠ '/') :
    endsSlash (behind prev (cs ++ [ch])) = false := by
  rw [Cursor.behind_append, Cursor.behind_cons, Cursor.behind_nil, endsSlash]
  simpa using hch

/-- Neither a sign nor a value that ends otherwise leaves a slash. -/
theorem IsSign.endsSlash_append {sign text : List Char} (hsign : IsSign sign)
    (htext : text.getLast? ≠ some '/') (prev : Option Char) :
    endsSlash (behind prev (sign ++ text)) = false := by
  -- neither the blanks around the sign nor the sign itself is a slash
  have hspaces : ∀ cs : List Char, (∀ ch ∈ cs, isSpace ch = true) → cs.getLast? ≠ some '/' := by
    intro cs hcs hlast
    exact absurd (hcs '/' (List.mem_of_getLast? hlast)) (by decide)
  have hstep : ∀ (p : Option Char) (cs : List Char), endsSlash p = false →
      cs.getLast? ≠ some '/' → endsSlash (behind p cs) = false := by
    intro p cs hp hcs
    rw [behind]
    cases hlast : cs.getLast? with
    | none => exact hp
    | some ch =>
      rw [hlast] at hcs
      simpa [endsSlash] using hcs
  obtain ⟨before, after, rfl, -, hafter⟩ := hsign
  rw [Cursor.behind_append, Cursor.behind_append, Cursor.behind_cons]
  exact hstep _ _ (hstep _ _ rfl (hspaces after hafter)) htext

/-- A quote is no slash. -/
theorem isQuote_ne_slash {mark : Char} (hmark : IsQuote mark) : mark ≠ '/' := by
  rcases hmark with rfl | rfl <;> decide

/-- A value that is read does not end with the slash of its tag. -/
theorem Assigned.Fits.endsSlash_chars {value : Assigned} {rest : List Char} {offset : Nat}
    {v : AttributeValue} (hvalue : value.Fits rest) (hrest : rest ≠ [])
    (hv : value.value? offset = some v)
    (hbare : v.quote = none → v.text.toList.getLast? ≠ some '/') (prev : Option Char) :
    endsSlash (behind prev value.chars) = false := by
  cases hvalue with
  | nothing => cases hv
  | dangling => cases hv
  -- a closed value ends with its quote
  | @quoted sign text _ mark closed hsign hmark htext hclosed =>
    cases closed with
    | false => exact absurd (hclosed rfl) hrest
    | true =>
      have hchars : (Assigned.quoted sign mark text true).chars =
          (sign ++ mark :: text) ++ [mark] := by
        simp [Assigned.chars]
      rw [hchars]
      exact endsSlash_concat prev _ (isQuote_ne_slash hmark)
  | bare hsign =>
    obtain rfl := Option.some.inj hv
    have hlast := hbare rfl
    rw [String.toList_ofList] at hlast
    exact hsign.endsSlash_append hlast prev

/-- A directive with a new expression does not either. -/
theorem Assigned.Fits.endsSlash_renewed {value : Assigned} {rest : List Char} {offset : Nat}
    {v : AttributeValue} (hvalue : value.Fits rest) (hrest : rest ≠ [])
    (hv : value.value? offset = some v) (new : List Char) (prev : Option Char) :
    endsSlash (behind prev (value.renewed new).chars) = false := by
  cases hvalue with
  | nothing => cases hv
  | dangling => cases hv
  | @quoted sign text _ mark closed hsign hmark htext hclosed =>
    cases closed with
    | false => exact absurd (hclosed rfl) hrest
    | true =>
      have hchars : (Assigned.renewed new (.quoted sign mark text true)).chars =
          (sign ++ mark :: Chars.around text new) ++ [mark] := by
        simp [Assigned.renewed, Assigned.chars]
      rw [hchars]
      exact endsSlash_concat prev _ (isQuote_ne_slash hmark)
  | @bare sign text _ _ _ _ _ _ _ _ =>
    have hchars : (Assigned.renewed new (.bare sign text)).chars =
        (sign ++ '\x22' :: new) ++ ['\x22'] := by
      simp [Assigned.renewed, Assigned.chars]
    rw [hchars]
    exact endsSlash_concat prev _ (by decide)

/-- A rewritten item leaves a slash at its end just when it did before. -/
theorem Item.Fits.endsSlash_rewritten {item : Item} {rest : List Char} (hfits : item.Fits rest)
    (hrest : rest ≠ []) (hsafe : item.Safe h) (prev prev' : Option Char) :
    endsSlash (behind prev item.chars) = endsSlash (behind prev' (item.rewritten h).chars) := by
  have hsame : (item.rewritten h).chars = item.chars →
      endsSlash (behind prev item.chars) = endsSlash (behind prev' (item.rewritten h).chars) := by
    intro heq
    rw [heq, Cursor.behind_eq_of_ne_nil hfits.chars_ne_nil prev prev']
  cases hfits with
  | blank => exact hsame rfl
  | slash => exact hsame rfl
  | stray => exact hsame rfl
  | @attr name value _ hname hvalue =>
    cases hnew : (Item.attr name value).new? h with
    | none => exact hsame (by rw [Item.rewritten, hnew])
    | some new =>
      obtain ⟨v, hv, -⟩ := exists_value_of_newExpr? hnew
      dsimp only at hv
      have hbare := (hsafe _ new rfl hnew).2 v hv
      -- the last character of an attribute is that of its value
      rw [Item.chars, Cursor.behind_append, hvalue.endsSlash_chars hrest hv hbare, Item.rewritten,
        hnew]
      dsimp only
      split
      · rw [Item.chars, Cursor.behind_append, hvalue.endsSlash_renewed hrest hv]
      · have hchars : (Item.attr (':' :: name) (.quoted ['='] '\x22' new.toList true)).chars =
            (':' :: name ++ '=' :: '\x22' :: new.toList) ++ ['\x22'] := by
          simp [Item.chars, Assigned.chars]
        rw [hchars, endsSlash_concat _ _ (by decide)]

/-- Attributes that are written anew leave the end of a tag as it was. -/
theorem endsSlash_written {items : List Item} {rest : List Char} (hfit : ItemsFit rest items)
    (hrest : rest ≠ []) (hsafe : ∀ item ∈ items, item.Safe h) {prev prev' : Option Char}
    (hprev : endsSlash prev = endsSlash prev') :
    endsSlash (behind prev (Item.written items)) =
      endsSlash (behind prev' (Item.written (items.map (Item.rewritten h)))) := by
  induction items generalizing prev prev' with
  | nil => exact hprev
  | cons item items ih =>
    obtain ⟨hitem, hitems⟩ := hfit
    obtain ⟨hsafe, hsafes⟩ := List.forall_mem_cons.mp hsafe
    have hmore : Item.written items ++ rest ≠ [] := List.append_ne_nil_of_right_ne_nil _ hrest
    rw [List.map_cons, Item.written_cons, Item.written_cons, Cursor.behind_append,
      Cursor.behind_append]
    exact ih hitems hsafes (hitem.endsSlash_rewritten hmore hsafe prev prev')

/-- A rewritten tag closes itself just when it did before. -/
theorem isSelfClosed_rewritten {name close rest : List Char} {items : List Item}
    (hfit : ItemsFit rest items) (hrest : rest ≠ []) (hsafe : ∀ item ∈ items, item.Safe h) :
    isSelfClosed name (items.map (Item.rewritten h)) close = isSelfClosed name items close := by
  have hbehind (items : List Item) : isSelfClosed name items close =
      endsSlash (behind (behind (behind none ('<' :: name)) (Item.written items))
        close.dropLast) := by
    rw [← Cursor.behind_append, ← Cursor.behind_append]
    rfl
  rw [hbehind, hbehind]
  exact (endsSlash_behind (endsSlash_written hfit hrest hsafe rfl) _).symm

/-- The content of a raw element only asks whether something follows. -/
theorem RawFits.of_nil {name raw rest rest' : List Char} (hraw : RawFits name raw rest)
    (hnil : rest = [] → rest' = []) : RawFits name raw rest' := by
  cases hraw with
  | closed hfirst hclosed => exact .closed hfirst hclosed
  | unclosed hfirst hopen =>
    rw [hnil rfl]
    exact .unclosed hfirst hopen
  | missing hnone =>
    rw [hnil rfl]
    exact .missing hnone

/-- What ends a tag starts alike, whatever follows the tag. -/
theorem CloseFits.sameFront {name close raw rest rest' : List Char} {items : List Item}
    (hclose : CloseFits name items close raw rest) (hnil : rest = [] → rest' = []) :
    SameFront (close ++ (raw ++ rest)) (close ++ (raw ++ rest')) := by
  -- the ways of closing a tag show the same front, whatever comes behind
  have hmarked : ∀ more more' : List Char, close = ['>'] ∨ close = ['/', '>'] →
      SameFront (close ++ more) (close ++ more') := by
    rintro more more' (rfl | rfl)
    · exact ⟨by simp, rfl, fun _ => rfl, fun _ => rfl, by simp [isSpace]⟩
    · exact ⟨by simp, rfl, fun _ => rfl, by simp, by simp [isSpace]⟩
  cases hclose with
  | eof =>
    rw [hnil rfl]
    exact .refl _
  | markup hclose => exact hmarked _ _ hclose
  | raw hclose => exact hmarked _ _ hclose

/-- A rewritten tag fits. -/
theorem Piece.Fits.tag_rewritten {name close raw rest rest' : List Char} {items : List Item}
    (hfits : (Piece.tag name items close raw).Fits rest) (hsafe : ∀ item ∈ items, item.Safe h)
    (hnil : rest = [] → rest' = []) :
    (Piece.tag name (items.map (Item.rewritten h)) close raw).Fits rest' := by
  cases hfits with
  | tag hname hend hitems hclose =>
    obtain ⟨hitems', hfront⟩ := hitems.rewritten hsafe (hclose.sameFront hnil)
    refine .tag hname ?_ hitems' ?_
    · intro ch hch
      rw [hfront.stops hend] at hch
      exact hend ch hch
    · -- the end of the tag is the same, so only whether the tag closes itself is to be checked
      cases hclose with
      | eof =>
        rw [hnil rfl]
        exact .eof
      | markup hclose hmarkup =>
        have hne : close ++ ([] ++ rest) ≠ [] := by
          rcases hclose with rfl | rfl <;> simp
        refine .markup hclose ?_
        rw [isSelfClosed_rewritten hitems hne hsafe]
        exact hmarkup
      | raw hclose hself hraw hfits =>
        have hne : close ++ (raw ++ rest) ≠ [] := by
          rcases hclose with rfl | rfl <;> simp
        refine .raw hclose ?_ hraw (hfits.of_nil hnil)
        rw [isSelfClosed_rewritten hitems hne hsafe]
        exact hself

/-! ## Pieces -/

/-- Whatever is put into a piece can be put there. -/
def Piece.Safe (h : Harvester) : Piece → Prop
  | .tag _ items _ _ => ∀ item ∈ items, item.Safe h
  | p => ∀ node ∈ p.nodes 0, ∀ new, newExpr? h node = some new → node.Holds new.toList

/-- A text can stand for another behind a run of text. -/
structure SameRun (rest rest' : List Char) : Prop where
  nil : rest = [] → rest' = []
  ends : endsRun rest = true → endsRun rest' = true ∧ rest'.head? = rest.head?

/-- Two characters decide whether a run of text ends. -/
theorem endsRun_congr {ch : Char} {cs ds : List Char} (hhead : cs.head? = ds.head?) :
    endsRun (ch :: cs) = endsRun (ch :: ds) := by
  have hopens : opensTag (ch :: cs) = opensTag (ch :: ds) := by
    cases cs with
    | nil =>
      cases ds with
      | nil => rfl
      | cons => cases hhead
    | cons c cs =>
      cases ds with
      | nil => cases hhead
      | cons d ds =>
        rw [List.head?_cons, List.head?_cons, Option.some.injEq] at hhead
        subst hhead
        -- only the character behind the bracket matters
        unfold opensTag
        split
        · rename_i heq
          cases heq
          rfl
        · rename_i hne
          split
          · rename_i heq
            cases heq
            exact absurd rfl (hne c cs)
          · rfl
  rw [endsRun_cons, endsRun_cons, hhead, hopens]

/-- Where a run of text does not end, it does not end for what starts alike either. -/
theorem endsRun_append {b rest rest' : List Char} (hb : b ≠ [])
    (hhead : rest'.head? = rest.head?) : endsRun (b ++ rest') = endsRun (b ++ rest) := by
  obtain ⟨ch, cs, rfl⟩ := List.exists_cons_of_ne_nil hb
  have hheads : (cs ++ rest').head? = (cs ++ rest).head? := by
    rw [List.head?_append, List.head?_append, hhead]
  exact endsRun_congr hheads

/-- Blanks end no run of text. -/
theorem endsRun_blank {cs rest : List Char} (hne : cs ≠ [])
    (hblank : ∀ ch ∈ cs, Chars.isBlank ch = true) : endsRun (cs ++ rest) = false := by
  obtain ⟨ch, cs, rfl⟩ := List.exists_cons_of_ne_nil hne
  have hch := hblank ch List.mem_cons_self
  -- a blank opens neither braces nor a tag
  have hbrace : (ch == '\x7b') = false := by
    rw [beq_eq_false_iff_ne]
    rintro rfl
    exact absurd hch (by decide)
  have hopens : opensTag (ch :: (cs ++ rest)) = false := by
    unfold opensTag
    split
    · rename_i heq
      rw [(List.cons.inj heq).1] at hch
      exact absurd hch (by decide)
    · rfl
  rw [List.cons_append, endsRun_cons, hbrace, hopens]
  rfl

/-- Blanks are a text of their own in front of whatever ends a run. -/
theorem Piece.Fits.blank {cs rest : List Char} (hne : cs ≠ [])
    (hblank : ∀ ch ∈ cs, Chars.isBlank ch = true) (hrest : endsRun rest = true) :
    (Piece.text cs).Fits rest := by
  refine .text hne ?_ hrest
  rintro a b rfl hb
  exact endsRun_blank hb fun ch hch => hblank ch (List.mem_append_right a hch)

/-- Braces do not reach over a blank. -/
theorem not_bracesClose_append {cs ds : List Char} (hcs : ¬bracesClose <:+: cs)
    (hds : ¬bracesClose <:+: ds) : ¬bracesClose <:+: cs ++ ' ' :: ds := by
  induction cs with
  | nil =>
    rw [List.nil_append, List.infix_cons_iff, not_or]
    refine ⟨?_, hds⟩
    intro hstarts
    have hbrace := (List.cons_prefix_cons.mp hstarts).1
    exact absurd hbrace (by decide)
  | cons c cs ih =>
    rw [List.infix_cons_iff, not_or] at hcs
    rw [List.cons_append, List.infix_cons_iff, not_or]
    refine ⟨?_, ih hcs.2⟩
    intro hstarts
    obtain ⟨hc, hmore⟩ := List.cons_prefix_cons.mp hstarts
    -- a pair of braces would have to stand across the blank
    cases cs with
    | nil =>
      have hbrace := (List.cons_prefix_cons.mp hmore).1
      exact absurd hbrace (by decide)
    | cons d cs =>
      have hd := (List.cons_prefix_cons.mp hmore).1
      apply hcs.1
      rw [← hc, ← hd]
      exact List.prefix_append bracesClose cs

/-- An expression that does not hold the closing braces fits between braces. -/
theorem Piece.Fits.spaced {new : String} (hnew : ¬bracesClose <:+: new.toList) (rest : List Char) :
    (Piece.interpolation (Component.spaced new)).Fits rest := by
  have hlast : ¬bracesClose <:+: ['\x7d'] := fun hholds => absurd hholds.length_le (by decide)
  have hinner : ¬bracesClose <:+: [] ++ ' ' :: (new.toList ++ ' ' :: ['\x7d']) :=
    not_bracesClose_append (by simp [bracesClose]) (not_bracesClose_append hnew hlast)
  refine .interpolation ?_
  have hshape : Component.spaced new ++ bracesClose.dropLast =
      [] ++ ' ' :: (new.toList ++ ' ' :: ['\x7d']) := by
    simp [Component.spaced, bracesClose]
  rw [hshape]
  exact hinner

/-- Blanks fit in front of what ends a run. -/
theorem piecesFit_blankPieces {cs : List Char} (hblank : ∀ ch ∈ cs, Chars.isBlank ch = true)
    {qs : List Piece} (hqs : PiecesFit qs) (hends : endsRun (Piece.written qs) = true) :
    PiecesFit (blankPieces cs ++ qs) := by
  rw [blankPieces]
  split
  · exact hqs
  · rename_i hne
    rw [List.isEmpty_iff] at hne
    exact ⟨.blank hne hblank hends, hqs⟩

/-- A text becomes an interpolation between its blanks. -/
theorem Piece.Fits.text_rewritten {cs : List Char} {new : String} {qs : List Piece}
    (hnew : ¬bracesClose <:+: new.toList) (hqs : PiecesFit qs)
    (hends : endsRun (Piece.written qs) = true) :
    PiecesFit (blankPieces (cs.takeWhile Chars.isBlank) ++
      (.interpolation (Component.spaced new) :: (blankPieces (Chars.blankEnd cs) ++ qs))) := by
  apply piecesFit_blankPieces
  · intro ch
    exact Chars.isBlank_of_mem_takeWhile
  · refine ⟨.spaced hnew _, piecesFit_blankPieces ?_ hqs hends⟩
    intro ch
    exact Chars.isBlank_of_mem_blankEnd
  · rfl

/-- What is passed over stays what it is. -/
theorem Piece.Fits.passed_rest {cs rest rest' : List Char} (hfits : (Piece.passed cs).Fits rest)
    (hnil : rest = [] → rest' = []) : (Piece.passed cs).Fits rest' := by
  cases hfits with
  | comment hfirst => exact .comment hfirst
  | openComment hnone =>
    rw [hnil rfl]
    exact .openComment hnone
  | closing hch hcomment hclosed => exact .closing hch hcomment hclosed
  | openClosing hch hcomment hopen =>
    rw [hnil rfl]
    exact .openClosing hch hcomment hopen

/-- What is passed over has two characters at least. -/
theorem Piece.Fits.two_le_passed {cs rest : List Char} (hfits : (Piece.passed cs).Fits rest) :
    2 ≤ cs.length := by
  cases hfits with
  | comment => simp [commentOpen]
  | openComment => simp [commentOpen]
  | closing => simp
  | openClosing => simp

/-- A piece that is written safely holds its new text. -/
theorem Piece.holds_of_safe {p : Piece} {node : Node} {new : String} (hnodes : p.nodes 0 = [node])
    (hsafe : ∀ node ∈ p.nodes 0, ∀ new, newExpr? h node = some new → node.Holds new.toList)
    (hnew : p.new? h = some new) : node.Holds new.toList := by
  rw [Piece.new?, hnodes] at hnew
  rw [hnodes] at hsafe
  exact hsafe node List.mem_cons_self new hnew

/-- Pieces that start with the same two characters end a run alike. -/
theorem SameRun.of_front (front : List Char) {rest rest' : List Char} (hfront : 2 ≤ front.length) :
    SameRun (front ++ rest) (front ++ rest') := by
  rcases front with _ | ⟨a, _ | ⟨b, cs⟩⟩
  · cases hfront
  · simp at hfront
  · refine ⟨by simp, ?_⟩
    intro hends
    refine ⟨?_, rfl⟩
    rw [← hends]
    exact endsRun_congr rfl

/-- A text and what follows it, both rewritten. -/
theorem Piece.Fits.plain_rewritten {cs : List Char} {ps qs : List Piece}
    (hfits : (Piece.text cs).Fits (Piece.written ps)) (hsafe : (Piece.text cs).Safe h)
    (hqs : PiecesFit qs) (hrun : SameRun (Piece.written ps) (Piece.written qs)) :
    PiecesFit ((Piece.text cs).rewritten h ++ qs) := by
  cases hfits with
  | text hne hinner hends =>
    obtain ⟨hends', hhead⟩ := hrun.ends hends
    rw [Piece.rewritten]
    -- a text is kept, or new text stands between its blanks
    cases hnew : (Piece.text cs).new? h with
    | none =>
      refine ⟨.text hne ?_ hends', hqs⟩
      intro a b heq hb
      exact (endsRun_append hb hhead).trans (hinner a b heq hb)
    | some new =>
      have hholds := Piece.holds_of_safe (Piece.nodes_text_of_new? hnew) hsafe hnew
      dsimp only
      rw [List.append_assoc]
      exact Piece.Fits.text_rewritten hholds hqs hends'

/-- A piece and what follows it, both rewritten. -/
theorem Piece.Fits.rewritten {p : Piece} {ps : List Piece} (hfits : p.Fits (Piece.written ps))
    (hsafe : p.Safe h) (hbrace : p ≠ .brace) {qs : List Piece} (hqs : PiecesFit qs)
    (hrun : SameRun (Piece.written ps) (Piece.written qs)) :
    PiecesFit (p.rewritten h ++ qs) ∧
      SameRun (Piece.written (p :: ps)) (Piece.written (p.rewritten h ++ qs)) := by
  cases p with
  | brace => exact absurd rfl hbrace
  | passed cs =>
    exact ⟨⟨hfits.passed_rest hrun.nil, hqs⟩, SameRun.of_front cs hfits.two_le_passed⟩
  | tag name items close raw =>
    refine ⟨⟨hfits.tag_rewritten hsafe hrun.nil, hqs⟩, ?_⟩
    cases hfits with
    | tag hname =>
      obtain ⟨⟨ch, cs, rfl, hch⟩, -⟩ := hname
      exact SameRun.of_front ['<', ch] (Nat.le_refl 2)
  | interpolation inner =>
    rw [Piece.rewritten]
    cases hnew : (Piece.interpolation inner).new? h with
    | none =>
      cases hfits with
      | interpolation hfirst =>
        exact ⟨⟨.interpolation hfirst, hqs⟩, SameRun.of_front bracesOpen (Nat.le_refl 2)⟩
    | some new =>
      have hholds := Piece.holds_of_safe rfl hsafe hnew
      exact ⟨⟨.spaced hholds _, hqs⟩, SameRun.of_front bracesOpen (Nat.le_refl 2)⟩
  | text cs =>
    refine ⟨hfits.plain_rewritten hsafe hqs hrun, ?_⟩
    -- no run ends at a text, so nothing is asked of what starts there
    cases hfits with
    | text hne hinner hends =>
      have hopen : endsRun (cs ++ Piece.written ps) = false := hinner [] cs rfl hne
      refine ⟨?_, ?_⟩
      · intro hnil
        exact absurd (List.append_eq_nil_iff.mp hnil).1 hne
      · intro hends
        exact absurd (hends.symm.trans hopen) (by simp)

/-- Pieces that are written anew fit where they stood. -/
theorem PiecesFit.rewritten {ps : List Piece} (hfit : PiecesFit ps) (hsafe : ∀ p ∈ ps, p.Safe h)
    (hbrace : Piece.brace ∉ ps) :
    PiecesFit (ps.flatMap (Piece.rewritten h)) ∧
      SameRun (Piece.written ps) (Piece.written (ps.flatMap (Piece.rewritten h))) := by
  -- by induction from the last piece: what follows each one still ends its run
  induction ps with
  | nil => exact ⟨trivial, id, fun hends => ⟨hends, rfl⟩⟩
  | cons p ps ih =>
    obtain ⟨hp, hps⟩ := hfit
    obtain ⟨hsafe, hsafes⟩ := List.forall_mem_cons.mp hsafe
    rw [List.mem_cons, not_or] at hbrace
    obtain ⟨hqs, hrun⟩ := ih hps hsafes hbrace.2
    rw [List.flatMap_cons]
    exact hp.rewritten hsafe (Ne.symm hbrace.1) hqs hrun

end TextHarvest.Component
