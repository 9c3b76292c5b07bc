import TextHarvest.Proofs.Component.WholeCharacters
import TextHarvest.Proofs.Harvest.Bounds

/-!
# Where a tag ends

There are two ways to find the end of a tag. One reads its attributes; the other only keeps count
of quotes and takes the first `>` outside of them. They differ where a quote is read as part of a
name or of a value without quotes, and where a value has no name, since the character behind it is
passed over unread. Otherwise both stop at the same place.

* `Bytes.readMet` — every attribute that reading a tag comes to, those without a name included.
* `Bytes.readAttributes_eq_readMet` — those with a name are what reading the tag answers.
* `passes_name`, `passes_assigned` — each part of a tag leaves the count of quotes as it was.

Main result: `tagEnd?_of_attributes`.
-/

namespace TextHarvest.Component

open Cursor (behind StopsAt)

/-! ## Every attribute of a tag -/

namespace Bytes

section Source

variable (source : String) (base : Nat)

/-- Reads a tag like `readAttributes`, and keeps the attributes without a name as well. -/
def readMet : Nat → BytePlace → Option (List Attribute × Option BytePlace)
  | 0, _ => none
  | fuel + 1, c =>
    let c := c.skipWhile isSpace
    match c.rest with
    | [] => some ([], none)
    | b :: bs =>
      if charOfByte b == '>' then some ([], some c)
      else if charOfByte b == '/' then
        if bs.head?.map charOfByte == some '>' then some ([], some c.next)
        else readMet fuel c.next
      else
        let nameEnd := skipNameFrom c.rest c.pos c.prev
        match readAssigned source base nameEnd with
        | none => none
        | some (value, stop) =>
          let keep (name : String) (read : List Attribute × Option BytePlace) :=
            (Attribute.mk name value (spanBetween base c stop) :: read.1, read.2)
          if c.pos < nameEnd.pos then
            match textBetween source c nameEnd with
            | none => none
            | some name => (readMet fuel stop).map (keep name)
          else (readMet fuel stop.next).map (keep "")

/-- The attributes that reading a tag from an offset on comes to. -/
def attributesMet (start : Nat) : Option (List Attribute) :=
  let c := (BytePlace.ofText source).skip start
  (readMet source base (c.rest.length + 1) c).map Prod.fst

end Source

variable {source : String} {base : Nat}

/-- Between two places that differ stands some text. -/
theorem ne_empty_of_textBetween {start stop : BytePlace} {text : String}
    (htext : textBetween source start stop = some text) (hlt : start.pos < stop.pos) :
    text ≠ "" := by
  rintro rfl
  obtain ⟨cs, hslice, hcs⟩ := Option.map_eq_some_iff.mp htext
  obtain ⟨-, -, -, -, hstop⟩ := Chars.slice?_eq_some hslice
  have hnil : cs = [] := String.ofList_eq_empty_iff.mp hcs
  rw [hnil, Chars.size_nil] at hstop
  dsimp only at hstop
  omega

/-- What reading a tag answers are the attributes that it comes to and that have a name. -/
theorem readAttributes_eq_readMet (fuel : Nat) (c : BytePlace) (acc : List Attribute) :
    readAttributes source base fuel c acc = (readMet source base fuel c).map fun read =>
      (acc.reverse ++ read.1.filter (·.name != ""), read.2) := by
  induction fuel generalizing c acc with
  | zero => rfl
  | succ fuel ih =>
    rw [readAttributes, readMet]
    generalize c.skipWhile isSpace = c
    cases c.rest with
    | nil => simp
    | cons b bs =>
      dsimp only
      split
      · -- the tag ends here
        simp
      split
      · -- a slash ends the tag with the mark behind it, or is passed over
        split
        · simp
        · exact ih _ _
      cases readAssigned source base (skipNameFrom (b :: bs) c.pos c.prev) with
      | none => rfl
      | some read =>
        obtain ⟨value, stop⟩ := read
        dsimp only
        split
        · rename_i hnamed
          cases htext : textBetween source c (skipNameFrom (b :: bs) c.pos c.prev) with
          | none => rfl
          | some name =>
            have hname : (name != "") = true :=
              bne_iff_ne.mpr (ne_empty_of_textBetween htext hnamed)
            dsimp only
            rw [ih, Option.map_map]
            congr 1
            funext read
            simp [hname]
        · -- met without a name, and not answered
          rw [ih, Option.map_map]
          congr 1

end Bytes

section Source

variable {source : String} (base fuel pos : Nat) (prev : Option Char)

/-- At the end of a tag reading byte by byte stops too. -/
theorem bytes_readMet_end {rest : List Char} (hend : EndsTag rest) :
    Bytes.readMet source base (fuel + 1) (Cursor.mk rest pos prev).bytes =
      some ([], (tagStop? rest pos prev).map Cursor.bytes) := by
  have hstops : StopsAt isSpace rest := by
    cases hend with
    | eof => exact Cursor.stopsAt_nil _
    | mark cs => exact Cursor.stopsAt_cons.mpr (by decide)
    | slash cs => exact Cursor.stopsAt_cons.mpr (by decide)
  rw [Bytes.readMet, Cursor.bytes_skipWhile blind_isSpace,
    Cursor.skipWhile_of_stopsAt pos prev hstops]
  cases hend with
  | eof => rfl
  | mark cs => rfl
  | slash cs => rfl

/-- And a slash is passed byte by byte. -/
theorem bytes_readMet_slash {cs : List Char} (hcs : cs.head? ≠ some '>') :
    Bytes.readMet source base (fuel + 1) (Cursor.mk ('/' :: cs) pos prev).bytes =
      Bytes.readMet source base fuel (Cursor.mk cs (pos + 1) (some '/')).bytes := by
  have hskip : (Cursor.mk ('/' :: cs) pos prev).skipWhile isSpace = ⟨'/' :: cs, pos, prev⟩ :=
    Cursor.skipWhile_of_stopsAt pos prev (Cursor.stopsAt_cons.mpr (by decide))
  -- the byte behind the slash is looked at like the character behind it
  have hhead : ((Chars.bytes cs).head?.map charOfByte == some '>') = false := by
    rw [Cursor.head?_bytes_beq cs (by decide)]
    simpa using hcs
  have hnext := Cursor.bytes_next (c := ⟨'/' :: cs, pos, prev⟩)
    fun d hd => (Option.some.inj hd) ▸ (by decide : IsAscii '/')
  obtain ⟨b, hchar, -, hcons⟩ := exists_bytes_cons (by decide : IsAscii '/')
  rw [Bytes.readMet, Cursor.bytes_skipWhile blind_isSpace, hskip, hnext]
  simp only [Cursor.bytes_mk, hcons, hchar, hhead]
  rfl

/-- The blanks in front of a part of a tag are passed over. -/
theorem bytes_readMet_blanks {c : Cursor} {rest : List Char} {pos : Nat} {prev : Option Char}
    (hskip : c.skipWhile isSpace = ⟨rest, pos, prev⟩) (hstop : StopsAt isSpace rest) :
    Bytes.readMet source base (fuel + 1) c.bytes =
      Bytes.readMet source base (fuel + 1) (Cursor.mk rest pos prev).bytes := by
  rw [Bytes.readMet, Bytes.readMet, Cursor.bytes_skipWhile blind_isSpace,
    Cursor.bytes_skipWhile blind_isSpace, hskip, Cursor.skipWhile_of_stopsAt pos prev hstop]

/-- Reading comes to an attribute, whose name may be missing. -/
theorem bytes_readMet_name {ch : Char} (hch : startsAttribute ch = true) {cs : List Char}
    (hc : (Cursor.mk (ch :: cs) pos prev).StandsIn source)
    (hname : (Cursor.mk (ch :: cs) pos prev).Ahead (skipNameFrom (ch :: cs) pos prev)) :
    Bytes.readMet source base (fuel + 1) (Cursor.mk (ch :: cs) pos prev).bytes =
      let nameEnd := skipNameFrom (ch :: cs) pos prev
      let (value, stop) := readAssigned base nameEnd
      let keep (name : String) (read : List Attribute × Option BytePlace) :=
        (Attribute.mk name value ((Span.mk pos stop.pos).shift base) :: read.1, read.2)
      if pos < nameEnd.pos then
        (Bytes.readMet source base fuel stop.bytes).map
          (keep ((Cursor.mk (ch :: cs) pos prev).textTo nameEnd.pos))
      else (Bytes.readMet source base fuel stop.bytes.next).map (keep "") := by
  simp only [startsAttribute, Bool.not_eq_true', Bool.or_eq_false_iff] at hch
  obtain ⟨⟨hspace, hgt⟩, hslash⟩ := hch
  have hskip : (Cursor.mk (ch :: cs) pos prev).skipWhile isSpace = ⟨ch :: cs, pos, prev⟩ :=
    Cursor.skipWhile_of_stopsAt pos prev (Cursor.stopsAt_cons.mpr hspace)
  -- what the first byte is tested for, the character is tested for
  obtain ⟨b, bs, -, hb, hcons⟩ := exists_first_byte ch
  have hgt' : (charOfByte b == '>') = false :=
    ((blind_beq (by decide)).test_byte hb).trans hgt
  have hslash' : (charOfByte b == '/') = false :=
    ((blind_beq (by decide)).test_byte hb).trans hslash
  have hend := bytes_skipNameFrom (ch :: cs) pos prev
  have hread := bytes_readAssigned base (hc.ahead hname)
  have htext := bytes_textBetween hc hname
  generalize skipNameFrom (ch :: cs) pos prev = nameEnd at hend hread htext
  rw [Bytes.readMet, Cursor.bytes_skipWhile blind_isSpace, hskip]
  rw [Cursor.bytes_mk, hcons] at htext
  rw [hcons] at hend
  simp only [Cursor.bytes_mk, hcons, hgt', hslash', Bool.false_eq_true, if_false, hend, hread,
    htext, Cursor.bytes_pos]
  rfl

/-- An attribute is met as it is written. -/
theorem bytes_readMet_attr {name : List Char} {value : Assigned} {rest : List Char}
    (hname : IsAttributeName name (value.chars ++ rest)) (hvalue : value.Fits rest)
    (hc : (Cursor.mk (name ++ (value.chars ++ rest)) pos prev).StandsIn source) :
    Bytes.readMet source base (fuel + 1)
        (Cursor.mk (name ++ (value.chars ++ rest)) pos prev).bytes =
      (Bytes.readMet source base fuel
        (Cursor.mk rest (pos + Chars.size name + Chars.size value.chars)
          (behind (behind prev name) value.chars)).bytes).map fun read =>
        (⟨String.ofList name, value.value? (pos + Chars.size name + base),
          (Span.mk pos (pos + Chars.size name + Chars.size value.chars)).shift base⟩ :: read.1,
          read.2) := by
  obtain ⟨ch, cs, hcons, hstart, -⟩ := hname.exists_cons
  obtain ⟨hne, -, hends, hinner⟩ := hname
  have hskip := skipNameFrom_append pos prev hinner hends
  have hread := readAssigned_fits base (pos + Chars.size name) (behind prev name) hvalue
  have htext := Cursor.textTo_append name pos prev (value.chars ++ rest)
  have hsize : 0 < Chars.size name := Chars.size_pos hne
  have hahead : (Cursor.mk (name ++ (value.chars ++ rest)) pos prev).Ahead
      (skipNameFrom (name ++ (value.chars ++ rest)) pos prev) := by
    rw [hskip]
    exact Cursor.ahead_mk _ _ _ _ _
  -- a name starts with a character that starts an attribute
  rw [hcons, List.cons_append] at hc hahead
  have hhead := bytes_readMet_name base fuel pos prev hstart hc hahead
  rw [← List.cons_append, ← hcons, hskip] at hhead
  rw [hhead]
  dsimp only
  rw [hread, if_pos (by omega), htext]

/-- A value without a name is met as an attribute whose name is empty. -/
theorem exists_bytes_readMet_stray {value : Assigned} {rest : List Char}
    (hsign : value.chars.head? = some '=')
    (hc : (Cursor.mk (value.chars ++ rest) pos prev).StandsIn source) :
    ∃ a next, Attribute.name a = "" ∧
      Bytes.readMet source base (fuel + 1) (Cursor.mk (value.chars ++ rest) pos prev).bytes =
        (Bytes.readMet source base fuel next).map fun read => (a :: read.1, read.2) := by
  obtain ⟨cs, hcons⟩ := List.head?_eq_some_iff.mp hsign
  -- the name ends where it starts
  have hskip : skipNameFrom ('=' :: (cs ++ rest)) pos prev = ⟨'=' :: (cs ++ rest), pos, prev⟩ :=
    rfl
  rw [hcons, List.cons_append] at hc ⊢
  have hahead : (Cursor.mk ('=' :: (cs ++ rest)) pos prev).Ahead
      (skipNameFrom ('=' :: (cs ++ rest)) pos prev) := Cursor.Ahead.refl _
  have hhead := bytes_readMet_name base fuel pos prev (by decide) hc hahead
  rw [hskip] at hhead
  dsimp only at hhead
  rw [if_neg (Nat.lt_irrefl pos)] at hhead
  exact ⟨⟨"", _, _⟩, _, rfl, hhead⟩

end Source

/-! ## Counting quotes -/

/-- A character that opens no quoted text and does not end a tag. -/
def IsInert (ch : Char) : Prop :=
  ¬IsQuote ch ∧ ch ≠ '>'

instance (ch : Char) : Decidable (IsInert ch) :=
  inferInstanceAs (Decidable (_ ∧ _))

/-- Looking for the end of a tag goes on behind `cs` as if it had started there. -/
def Passes (cs rest : List Char) : Prop :=
  ∀ pos prev, tagEnd? ⟨cs ++ rest, pos, prev⟩ =
    tagEnd? ⟨rest, pos + Chars.size cs, behind prev cs⟩

/-- Two stretches that are passed are passed one after the other. -/
theorem Passes.append {cs ds rest : List Char} (hcs : Passes cs (ds ++ rest))
    (hds : Passes ds rest) : Passes (cs ++ ds) rest := by
  intro pos prev
  rw [List.append_assoc, hcs, hds, Chars.size_append, Cursor.behind_append, Nat.add_assoc]

/-- Inert characters are passed. -/
theorem passes_inert {cs : List Char} (hcs : ∀ ch ∈ cs, IsInert ch) (rest : List Char) :
    Passes cs rest := by
  induction cs with
  | nil => exact fun _ _ => rfl
  | cons ch cs ih =>
    -- the last of the three branches, outside of quotes
    obtain ⟨⟨hquote, hgt⟩, hcs⟩ := List.forall_mem_cons.mp hcs
    have hmark : (ch == '\x22' || ch == '\x27') = false := by simpa [IsQuote] using hquote
    have hend : (ch == '>') = false := by simpa using hgt
    intro pos prev
    have hgo := ih hcs (pos + ch.utf8Size) (some ch)
    rw [tagEnd?] at hgo ⊢
    rw [List.cons_append, tagEndFrom, hmark, hend, Chars.size_cons, Cursor.behind_cons,
      ← Nat.add_assoc]
    exact hgo

/-- Inside of quotes nothing but the quote itself is looked at. -/
theorem tagEndFrom_inside {mark : Char} {text : List Char} (htext : mark ∉ text)
    (rest : List Char) (pos : Nat) (prev : Option Char) :
    tagEndFrom (text ++ rest) pos prev (some mark) =
      tagEndFrom rest (pos + Chars.size text) (behind prev text) (some mark) := by
  induction text generalizing pos prev with
  | nil => rfl
  | cons ch text ih =>
    rw [List.mem_cons, not_or] at htext
    obtain ⟨hch, htext⟩ := htext
    have hother : (ch == mark) = false := beq_eq_false_iff_ne.mpr (Ne.symm hch)
    rw [List.cons_append, tagEndFrom, hother, Chars.size_cons, Cursor.behind_cons, ← Nat.add_assoc]
    exact ih htext _ _

/-- A quoted value is passed, up to its closing mark. -/
theorem passes_quoted {mark : Char} {text rest : List Char} {closed : Bool} (hmark : IsQuote mark)
    (htext : mark ∉ text) (hclosed : closed = false → rest = []) :
    Passes (mark :: text ++ if closed then [mark] else []) rest := by
  have hquote : (mark == '\x22' || mark == '\x27') = true := by simpa [IsQuote] using hmark
  intro pos prev
  have hassoc : mark :: text ++ (if closed then [mark] else []) ++ rest =
      mark :: (text ++ ((if closed then [mark] else []) ++ rest)) := by
    simp
  rw [hassoc, tagEnd?, tagEndFrom, hquote]
  dsimp only
  rw [if_pos rfl, tagEndFrom_inside htext]
  cases closed with
  | true =>
    -- the closing quote puts the count back
    show tagEndFrom (mark :: rest) _ _ (some mark) = _
    rw [tagEndFrom, tagEnd?]
    simp [Nat.add_assoc]
  | false =>
    -- an open quote is met at the end of the text only, where there is no end of the tag
    rw [hclosed rfl]
    rfl

theorem isInert_of_isSpace {ch : Char} (h : isSpace ch = true) : IsInert ch := by
  constructor
  · intro hquote
    rw [isSpace_eq_false_of_isQuote hquote] at h
    cases h
  · -- nor is the mark a blank
    rintro rfl
    exact absurd h (by decide)

/-- The equals sign and the blanks around it are inert. -/
theorem IsSign.isInert {sign : List Char} (h : IsSign sign) : ∀ ch ∈ sign, IsInert ch := by
  obtain ⟨before, after, rfl, hbefore, hafter⟩ := h
  intro ch hch
  rw [List.mem_append, List.mem_cons] at hch
  rcases hch with hch | rfl | hch
  · exact isInert_of_isSpace (hbefore ch hch)
  · decide
  · exact isInert_of_isSpace (hafter ch hch)

/-- The value of an attribute leaves the count of quotes as it was, unless a quote stands in a
value that has none around it. -/
theorem passes_assigned {value : Assigned} {rest : List Char} {offset : Nat}
    (hfits : value.Fits rest)
    (hbare : ∀ v ∈ value.value? offset, v.quote = none → ∀ ch ∈ v.text.toList, ¬IsQuote ch) :
    Passes value.chars rest := by
  cases hfits with
  | nothing => exact passes_inert (by simp [Assigned.chars]) rest
  | dangling hsign => exact passes_inert hsign.isInert []
  | quoted hsign hmark htext hclosed =>
    exact (passes_inert hsign.isInert _).append (passes_quoted hmark htext hclosed)
  | @bare sign text _ _ hsign htext =>
    refine (passes_inert hsign.isInert _).append (passes_inert ?_ rest)
    intro ch hch
    -- free of quotes by assumption, and of the mark since it ends there
    have hfree := hbare _ rfl rfl ch (by simpa using hch)
    have hgt := htext ch hch
    rw [isBare, Bool.not_eq_true', Bool.or_eq_false_iff, beq_eq_false_iff_ne] at hgt
    exact ⟨hfree, hgt.2⟩

/-- A name without quotes is passed. -/
theorem passes_name {name rest : List Char} (hname : IsAttributeName name rest)
    (hfree : ∀ ch ∈ name, ¬IsQuote ch) : Passes name rest := by
  refine passes_inert ?_ rest
  intro ch hch
  refine ⟨hfree ch hch, ?_⟩
  rintro rfl
  -- a name ends in front of the first such mark
  obtain ⟨before, after, rfl⟩ := List.append_of_mem hch
  have hinner := hname.2.2.2 before ('>' :: after) rfl (List.cons_ne_nil _ _)
  simp [endsAttributeName] at hinner

/-! ## Both ways -/

/-- No quote stands in the name of an attribute, nor in its value when that has no quotes around
it. -/
def Attribute.QuoteFree (a : Attribute) : Prop :=
  (∀ ch ∈ a.name.toList, ¬IsQuote ch) ∧
    ∀ v ∈ a.value, v.quote = none → ∀ ch ∈ v.text.toList, ¬IsQuote ch

/-- Where a tag ends its end is found. -/
theorem tagEnd?_of_endsTag {rest : List Char} (hend : EndsTag rest) (pos : Nat)
    (prev : Option Char) : tagEnd? ⟨rest, pos, prev⟩ = tagStop? rest pos prev := by
  cases hend with
  | eof => rfl
  | mark cs => rfl
  | slash cs => rfl

variable {source : String} {base : Nat}

/-- From any place of a tag on, both ways come to the same end. -/
theorem tagEnd?_of_readMet {fuel : Nat} {c : Cursor} (hc : c.StandsIn source)
    {met : List Attribute} {stop : Option BytePlace}
    (hread : Bytes.readMet source base fuel c.bytes = some (met, stop))
    (hmet : ∀ a ∈ met, a.name ≠ "" ∧ a.QuoteFree) : (tagEnd? c).map Cursor.bytes = stop := by
  induction fuel generalizing c met with
  | zero => cases hread
  | succ fuel ih =>
    obtain ⟨cs, pos, prev⟩ := c
    -- both go over the blanks first
    obtain ⟨blanks, rest, rfl, hblanks, hstop⟩ := Cursor.exists_takeWhile isSpace cs
    have hskip := Cursor.skipWhile_append blanks pos prev hblanks hstop
    have hrest := hc.ahead (Cursor.ahead_mk blanks rest pos prev (behind prev blanks))
    have hpass := passes_inert (fun ch hch => isInert_of_isSpace (hblanks ch hch)) rest pos prev
    rw [bytes_readMet_blanks base fuel hskip hstop] at hread
    rw [hpass]
    generalize pos + Chars.size blanks = pos at hread hrest
    generalize behind prev blanks = prev at hread hrest
    -- then comes the end of the tag or one more item of it
    rcases exists_item rest with hend | ⟨item, rest, rfl, -, hfits⟩
    · rw [bytes_readMet_end base fuel pos prev hend] at hread
      obtain ⟨-, rfl⟩ := Prod.mk.inj (Option.some.inj hread)
      rw [tagEnd?_of_endsTag hend]
    cases hfits with
    | blank hspace =>
      -- the blanks are over
      have hnone := Cursor.stopsAt_cons.mp hstop
      rw [hspace] at hnone
      cases hnone
    | slash hslash =>
      rw [Item.chars, List.singleton_append] at hread hrest
      rw [bytes_readMet_slash base fuel pos prev hslash] at hread
      -- a slash is no quote and no mark
      have hinert : ∀ ch ∈ ['/'], IsInert ch := List.forall_mem_singleton.mpr (by decide)
      have hgo := passes_inert hinert rest pos prev
      show (tagEnd? ⟨['/'] ++ rest, pos, prev⟩).map Cursor.bytes = stop
      rw [hgo]
      exact ih (hrest.ahead (Cursor.ahead_mk ['/'] rest pos prev _)) hread hmet
    | stray hsign =>
      -- it would have been met with an empty name
      rw [Item.chars, List.append_assoc] at hread hrest
      obtain ⟨a, next, hname, hmeets⟩ :=
        exists_bytes_readMet_stray base fuel pos prev hsign hrest
      rw [hmeets] at hread
      obtain ⟨⟨more, _⟩, -, hmore⟩ := Option.map_eq_some_iff.mp hread
      obtain ⟨rfl, rfl⟩ := Prod.mk.inj hmore
      exact absurd hname (hmet a List.mem_cons_self).1
    | @attr name value _ hname hvalue =>
      rw [Item.chars, List.append_assoc] at hread hrest ⊢
      rw [bytes_readMet_attr base fuel pos prev hname hvalue hrest] at hread
      obtain ⟨⟨more, _⟩, hmeets, hmore⟩ := Option.map_eq_some_iff.mp hread
      obtain ⟨rfl, rfl⟩ := Prod.mk.inj hmore
      -- the name and then the value leave the count as it was
      obtain ⟨⟨-, hfree, hbare⟩, hmet⟩ := List.forall_mem_cons.mp hmet
      rw [passes_name hname (by simpa using hfree), passes_assigned hvalue hbare]
      refine ih (hrest.ahead ?_) hmeets hmet
      exact (Cursor.ahead_mk name _ pos prev (behind prev name)).trans
        (Cursor.ahead_mk value.chars rest _ _ _)

/-- When reading a tag meets no attribute without a name, and reads no quote as part of a name or
of a value without quotes, then the tag ends where counting quotes finds its end. Where one of the
two finds no end, the other finds none either. -/
theorem tagEnd?_of_attributes {front cs : List Char} (hsource : source.toList = front ++ cs)
    {attrs met : List Attribute} {stop : Option Nat}
    (hread : Bytes.attributes source base (Chars.size front) = some (attrs, stop))
    (hmet : Bytes.attributesMet source base (Chars.size front) = some met)
    (hnamed : ∀ a ∈ met, a.name ≠ "") (hfree : ∀ a ∈ attrs, a.QuoteFree) :
    (Bytes.tagEnd? ((BytePlace.ofText source).skip (Chars.size front))).map BytePlace.pos =
      stop := by
  rw [Bytes.attributes, Bytes.attributesFrom, skip_ofText hsource,
    Bytes.readAttributes_eq_readMet] at hread
  rw [Bytes.attributesMet, skip_ofText hsource] at hmet
  obtain ⟨⟨met', place⟩, hmeets, rfl⟩ := Option.map_eq_some_iff.mp hmet
  rw [hmeets] at hread
  obtain ⟨hattrs, hstop⟩ := Prod.mk.inj (Option.some.inj hread)
  dsimp only at hattrs hstop hnamed
  -- with no name missing, all that is met is answered
  have hall : met'.filter (·.name != "") = met' :=
    List.filter_eq_self.mpr fun a ha => bne_iff_ne.mpr (hnamed a ha)
  rw [List.reverse_nil, List.nil_append, hall] at hattrs
  have hends := tagEnd?_of_readMet (standsIn_of_append hsource) hmeets fun a ha =>
    ⟨hnamed a ha, hfree a (hattrs ▸ ha)⟩
  rw [skip_ofText hsource, bytes_tagEnd?, hends, hstop]

/-- Neither a `>` between quotes nor a slash inside of a tag is its end. -/
theorem tagEnd?_quoted_mark :
    let attrs : List Attribute :=
      [⟨"b", some ⟨">", ⟨6, 7⟩, some '\x27'⟩, ⟨3, 8⟩⟩,
        ⟨"c", some ⟨"d", ⟨13, 14⟩, none⟩, ⟨11, 14⟩⟩]
    Bytes.attributes "<a b='>' / c=d>" 0 2 = some (attrs, some 14) ∧
      Bytes.attributesMet "<a b='>' / c=d>" 0 2 = some attrs ∧
      (Bytes.tagEnd? ((BytePlace.ofText "<a b='>' / c=d>").skip 2)).map BytePlace.pos =
        some 14 := by
  intro attrs
  have hsource : "<a b='>' / c=d>".toList = "<a".toList ++ " b='>' / c=d>".toList := by decide
  have hread : Bytes.attributes "<a b='>' / c=d>" 0 (Chars.size "<a".toList) =
      some (attrs, some 14) := by decide +kernel
  have hmet : Bytes.attributesMet "<a b='>' / c=d>" 0 (Chars.size "<a".toList) = some attrs := by
    decide +kernel
  have hfree : ∀ a ∈ attrs, a.QuoteFree := by simp [attrs, Attribute.QuoteFree, IsQuote]
  exact ⟨hread, hmet, tagEnd?_of_attributes hsource hread hmet (by decide) hfree⟩

end TextHarvest.Component
