import TextHarvest.Proofs.Harvest.Fitting
import TextHarvest.Proofs.Harvest.Origin
import TextHarvest.Proofs.Key
import TextHarvest.Proofs.Patch
import TextHarvest.Proofs.Script.Grammar.Attributes
import TextHarvest.Proofs.Script.Grammar.Module
import TextHarvest.Proofs.Text.Blank

/-!
# Reading wrapper elements back

The identifier of a wrapper element is written as a literal of a script, but it is read as an
attribute string, which knows no escapes and decodes character references. So a key comes back only
when it stands for itself in both. A message is written as an attribute string where it needs no
escape and as a literal in braces otherwise, and always comes back.

Main results:

* `readsAsWrapper_iff` — when an opening tag with a generated identifier reads back.
* `walk_writtenParts` — what a generated element comes to when it is read again.
* `exists_messageAt` — where the message of an authored element stands.
* `wrapperReading` — generated elements, and authored ones that got an identifier.
* `not_readsBack_quotes` — a key with quotes in it that does not.
-/

namespace TextHarvest.Harvest

open Script Grammar Parse Text

/-! ## Attributes by their name -/

/-- The constant texts of the attributes with a name; `none` for one that is not constant. -/
def textsNamed (name : String) (parts : List Tree) : List (Option String) :=
  (parts.filter (Tree.isAttributeNamed name)).map fun t => Site.attributeText? t.children

/-- The texts of a name are those of the first attribute and the others. -/
theorem textsNamed_cons {name n text : String} {t : Tree} (ht : IsAttribute n text t)
    (ts : List Tree) : textsNamed name (t :: ts) =
      if n = name then some text :: textsNamed name ts else textsNamed name ts := by
  obtain ⟨span, value, rfl, hvalue⟩ := ht
  have hnamed : Tree.isAttributeNamed name (.node (.attribute (.plain n)) span value) =
      (n == name) := rfl
  rw [textsNamed, List.filter_cons, hnamed]
  by_cases hn : n = name
  · rw [if_pos (by simpa using hn), if_pos hn, List.map_cons]
    exact congrArg (· :: _) hvalue
  · rw [if_neg (by simpa using hn), if_neg hn]
    rfl

/-- Parts of an element with a key for their only identifier, and with a message if there is one. -/
structure Identifies (key : String) (message : Option String) (parts : List Tree) : Prop where
  identifier : textsNamed "id" parts = [some key]
  message : ∀ text ∈ message, some text ∈ textsNamed "msg" parts

/-- The parts of a generated element: its identifier, and its message if it keeps one. -/
inductive WrittenParts (key : String) : Option String → List Tree → Prop
  | bare {t : Tree} : IsAttribute "id" key t → WrittenParts key none [t]
  | kept {text : String} {t t' : Tree} : IsAttribute "id" key t → IsAttribute "msg" text t' →
      WrittenParts key (some text) [t, t']

/-- A written element has its identifier, and its message if it keeps one. -/
theorem WrittenParts.identifies {key : String} {message : Option String} {parts : List Tree}
    (h : WrittenParts key message parts) : Identifies key message parts := by
  cases h with
  | bare ht => exact ⟨textsNamed_cons ht [], by simp⟩
  | kept ht ht' =>
    constructor
    · rw [textsNamed_cons ht, textsNamed_cons ht']
      rfl
    · rintro text hmessage
      obtain rfl := Option.mem_some.mp hmessage
      rw [textsNamed_cons ht, textsNamed_cons ht']
      exact List.mem_cons_self

/-! ## The identifier -/

/-- An identifier as it is written behind the name of an element. -/
def identifierText (key : String) : List Char :=
  (" id=" ++ Text.quoted key .double).toList

theorem identifierText_append (key : String) (left : List Char) : identifierText key ++ left =
    ' ' :: 'i' :: 'd' :: '=' :: '\x22' :: writtenBefore key.toList left := by
  simp [identifierText, Text.quoted, writtenBefore, Quote.mark]

theorem isTagWord_id : IsTagWord ['i', 'd'] := by
  decide

theorem isTagWord_msg : IsTagWord ['m', 's', 'g'] := by
  decide

/-- A literal ends at the latest with the quote that is written behind it. -/
theorem exists_inside (text left : List Char) : ∃ inside rest,
    writtenBefore text left = inside ++ '\x22' :: rest ∧ '\x22' ∉ inside ∧
      attributeString (writtenBefore text left) = decodeNamedFrom inside 0 ∧
      (Verbatim text → inside = text ∧ rest = left) := by
  -- cut what is written at its first quote, which is at the latest the closing one
  have hsolid : '\x22' ∉ (writtenBefore text left).takeWhile (· != '\x22') := by
    intro hmem
    simpa using List.all_eq_true.mp List.all_takeWhile _ hmem
  have hcut := List.takeWhile_append_dropWhile (p := (· != '\x22')) (l := writtenBefore text left)
  cases hdrop : (writtenBefore text left).dropWhile (· != '\x22') with
  | nil =>
    rw [hdrop, List.append_nil] at hcut
    rw [hcut] at hsolid
    simp [writtenBefore] at hsolid
  | cons ch rest =>
    have hquote : ch = '\x22' := by
      have hhead := List.head?_dropWhile_not (· != '\x22') (writtenBefore text left)
      simpa [hdrop] using hhead
    rw [hdrop, hquote] at hcut
    refine ⟨_, rest, hcut.symm, hsolid, rfl, ?_⟩
    intro hverbatim
    have htake : (writtenBefore text left).takeWhile (· != '\x22') = text := by
      rw [writtenBefore, flatMap_escapeChar_of_written hverbatim.written,
        takeWhile_of_written hverbatim.written, List.takeWhile_cons_of_neg (by simp),
        List.append_nil]
    rw [htake, writtenBefore, flatMap_escapeChar_of_written hverbatim.written,
      List.append_cancel_left_eq, List.cons.injEq] at hcut
    exact ⟨htake, hcut.2⟩

variable {self : Parser} {c : Context}

/-- What a generated identifier is read as; only one that stands for itself ends where it should. -/
theorem markupAttribute_identifier (self : Parser) (c : Context) (key : String) (left : List Char)
    (pos : Nat) : ∃ t s₁,
      markupAttribute self c (startState (identifierText key ++ left) pos) = .ok t s₁ ∧
      IsAttribute "id" (String.ofList (attributeString (writtenBefore key.toList left))) t ∧
      (Verbatim key.toList → s₁ = startState left (pos + Chars.size (identifierText key))) := by
  obtain ⟨inside, rest, hwritten, hsolid, hread, hverbatim⟩ := exists_inside key.toList left
  obtain ⟨t, hattribute, ht⟩ := markupAttribute_string (c := c) self isTagWord_id hsolid rest pos
  rw [identifierText_append, hwritten]
  refine ⟨t, _, hattribute, ?_, ?_⟩
  · rw [← hwritten, hread]
    exact ht
  · intro hkey
    obtain ⟨rfl, rfl⟩ := hverbatim hkey
    -- a verbatim identifier ends where it was written to end
    have hsize : Chars.size (identifierText key) = 4 + 1 + Chars.size key.toList + 1 := by
      have hparts := identifierText_append key []
      rw [List.append_nil, writtenBefore, flatMap_escapeChar_of_written hkey.written] at hparts
      rw [hparts]
      simp only [Chars.size_cons, Chars.size_append, Chars.size_nil]
      have hunits : ' '.utf8Size = 1 ∧ 'i'.utf8Size = 1 ∧ 'd'.utf8Size = 1 ∧ '='.utf8Size = 1 ∧
          '\x22'.utf8Size = 1 := by decide
      omega
    have hid : Chars.size ['i', 'd'] = 2 := rfl
    have hstop : pos + 1 + 2 + 1 + Chars.size key.toList + 2 =
        pos + (4 + 1 + Chars.size key.toList + 1) := by omega
    rw [hsize, hid, hstop]

/-- A tag with an identifier starts with a word. -/
theorem isWordToken_identifier (key : String) (left : List Char) (pos : Nat) :
    isWordToken (startState (identifierText key ++ left) pos).cur.token := by
  rw [identifierText_append]
  exact (nameAt_blank isTagWord_id (by decide) (by decide) _ pos).word

/-! ## Opening tags with an identifier -/

/-- An opening tag is read as that of a wrapper with a key, and with a message if there is one. -/
def ReadsAsWrapper (self : Parser) (c : Context) (cs : List Char) (pos : Nat) (element key : String)
    (message : Option String) : Prop :=
  ∃ place attrs s', openingTag self c (startState cs pos) = .ok (.plain element place, attrs) s' ∧
    Identifies key message attrs

/-- What is left of an opening tag behind its identifier is read: there is no other identifier, and
there is the message if there is one. -/
def ReadsOn (self : Parser) (c : Context) (left : List Char) (pos : Nat)
    (message : Option String) : Prop :=
  ∃ more s', Attributes self c (startState left pos) more s' ∧ more.length + 1 < c.bound ∧
    textsNamed "id" more = [] ∧ ∀ text ∈ message, some text ∈ textsNamed "msg" more

/-- What an identifier and the attributes behind it come to. -/
theorem identifies_cons_iff {key read : String} {t : Tree} (ht : IsAttribute "id" read t)
    {message : Option String} {more : List Tree} : Identifies key message (t :: more) ↔
      read = key ∧ textsNamed "id" more = [] ∧
        ∀ text ∈ message, some text ∈ textsNamed "msg" more := by
  have hid : textsNamed "id" (t :: more) = some read :: textsNamed "id" more :=
    textsNamed_cons ht more
  have hmsg : textsNamed "msg" (t :: more) = textsNamed "msg" more := textsNamed_cons ht more
  constructor
  · rintro ⟨hidentifier, hmessage⟩
    rw [hid, List.cons.injEq, Option.some_inj] at hidentifier
    rw [hmsg] at hmessage
    exact ⟨hidentifier.1, hidentifier.2, hmessage⟩
  · rintro ⟨rfl, hidentifier, hmessage⟩
    exact ⟨by rw [hid, hidentifier], by rw [hmsg]; exact hmessage⟩

/-- With a key that stands for itself, an opening tag is read up to its end. -/
theorem exists_openingTag {gap : List Char} {pos : Nat} (hgap : IsTagGap gap pos)
    {element key : String} (htag : IsTagWord element.toList) (hkey : Verbatim key.toList)
    {left : List Char} {more : List Tree} {s' : State}
    (hmore : Attributes self c (startState left (pos + 1 + Chars.size gap +
      Chars.size element.toList + Chars.size (identifierText key))) more s')
    (hlength : more.length + 1 < c.bound) : ∃ place t,
      openingTag self c (startState
        ('<' :: (gap ++ (element.toList ++ (identifierText key ++ left)))) pos) =
          .ok (.plain element place, t :: more) s' ∧ IsAttribute "id" key t := by
  obtain ⟨t, s₁, hattribute, ht, hbehind⟩ := markupAttribute_identifier self c key left
    (pos + 1 + Chars.size gap + Chars.size element.toList)
  have hword := isWordToken_identifier key left
    (pos + 1 + Chars.size gap + Chars.size element.toList)
  rw [← hbehind hkey] at hmore
  -- the id is the first attribute, and the others are read from behind it
  have hattributes := (markupAttributes_cons_iff (endsTag_of_word hword) hattribute).mpr
    ⟨more, rfl, hmore, hlength⟩
  rw [identifierText_append] at hword hattributes ⊢
  obtain ⟨place, hopening⟩ := (openingTag_iff hgap htag hword).mpr hattributes
  rw [String.ofList_toList] at hopening
  rw [(attributeString_written_iff key.toList left).mpr hkey, String.ofList_toList] at ht
  exact ⟨place, t, hopening, ht⟩

/-- An opening tag with a generated identifier has it for its first attribute, which is read as an
attribute string. -/
theorem openingTag_identifier_inv {gap : List Char} {pos : Nat} (hgap : IsTagGap gap pos)
    {element key : String} {left : List Char} {place : Span} {attrs : List Tree} {s' : State}
    (h : openingTag self c (startState
      ('<' :: (gap ++ (element.toList ++ (identifierText key ++ left)))) pos) =
        .ok (.plain element place, attrs) s') :
    IsTagWord element.toList ∧ ∃ t more, attrs = t :: more ∧
      IsAttribute "id" (String.ofList (attributeString (writtenBefore key.toList left))) t ∧
      (Verbatim key.toList → Attributes self c (startState left (pos + 1 + Chars.size gap +
        Chars.size element.toList + Chars.size (identifierText key))) more s' ∧
        more.length + 1 < c.bound) := by
  obtain ⟨w, rfl⟩ : ∃ w, element = String.ofList w := ⟨_, String.ofList_toList.symm⟩
  rw [String.toList_ofList] at h ⊢
  obtain ⟨t, s₁, hattribute, ht, hbehind⟩ := markupAttribute_identifier self c key left
    (pos + 1 + Chars.size gap + Chars.size w)
  have hword := isWordToken_identifier key left (pos + 1 + Chars.size gap + Chars.size w)
  -- the identifier is the first attribute
  have hgoes := endsTag_of_word hword
  rw [identifierText_append] at h hword hattribute hgoes
  have htag := isTagWord_of_openingTag hgap h
  obtain ⟨more, rfl, hmore, hlength⟩ := (markupAttributes_cons_iff hgoes hattribute).mp
    ((openingTag_iff hgap htag hword).mp ⟨place, h⟩)
  refine ⟨htag, t, more, rfl, ht, ?_⟩
  intro hkey
  rw [hbehind hkey] at hmore
  exact ⟨hmore, hlength⟩

/-- A generated identifier is read as its key just when the key stands for itself. -/
theorem ofList_attributeString_iff {key : String} {left : List Char} :
    String.ofList (attributeString (writtenBefore key.toList left)) = key ↔
      Verbatim key.toList := by
  rw [← attributeString_written_iff key.toList left, ← String.toList_inj, String.toList_ofList]

/-- A generated identifier reads back just when the key stands for itself and the tag goes on as a
tag without any other identifier. -/
theorem readsAsWrapper_iff {gap : List Char} {pos : Nat} (hgap : IsTagGap gap pos)
    (element key : String) (left : List Char) (message : Option String) :
    ReadsAsWrapper self c ('<' :: (gap ++ (element.toList ++ (identifierText key ++ left)))) pos
        element key message ↔
      IsTagWord element.toList ∧ Verbatim key.toList ∧
        ReadsOn self c left (pos + 1 + Chars.size gap + Chars.size element.toList +
          Chars.size (identifierText key)) message := by
  constructor
  · rintro ⟨place, attrs, s', hopening, hidentifies⟩
    obtain ⟨htag, t, more, rfl, ht, hbehind⟩ := openingTag_identifier_inv hgap hopening
    obtain ⟨hidentifier, hnone, hmessage⟩ := (identifies_cons_iff ht).mp hidentifies
    -- the key is read back as it was written, or the element has another id
    have hkey := ofList_attributeString_iff.mp hidentifier
    obtain ⟨hmore, hlength⟩ := hbehind hkey
    exact ⟨htag, hkey, more, s', hmore, hlength, hnone, hmessage⟩
  · rintro ⟨htag, hkey, more, s', hmore, hlength, hnone, hmessage⟩
    obtain ⟨place, t, hopening, ht⟩ := exists_openingTag hgap htag hkey hmore hlength
    exact ⟨place, t :: more, s', hopening, (identifies_cons_iff ht).mpr ⟨rfl, hnone, hmessage⟩⟩

/-! ## The message -/

/-- The message that a wrapper element keeps of a text. -/
def Site.keptMessage (site : Site) (text : String) : Option String :=
  if site.options.keepDefaultMsg then some text else none

/-- A message as it is written behind an identifier. -/
def messageText (text : String) : List Char :=
  (" msg=" ++ Site.attributeValue text).toList

/-- A message reads back, whichever way it is written. -/
theorem markupAttribute_message (c : Context) (fuel : Nat) (text : String) (rest : List Char)
    (pos : Nat) (hbound : 0 < c.bound) : ∃ t,
      markupAttribute (parser (fuel + 3)) c (startState (messageText text ++ rest) pos) =
        .ok t (startState rest (pos + Chars.size (messageText text))) ∧
      IsAttribute "msg" text t := by
  have hunits : ' '.utf8Size = 1 ∧ '='.utf8Size = 1 ∧ '\x22'.utf8Size = 1 ∧
      '\x7b'.utf8Size = 1 ∧ '\x7d'.utf8Size = 1 := by decide
  rw [messageText, Site.attributeValue]
  split
  · -- a literal in braces
    obtain ⟨t, hattribute, ht⟩ :=
      markupAttribute_literal (c := c) isTagWord_msg fuel text rest pos hbound
    refine ⟨t, ?_, ht⟩
    have hchars : (" msg=" ++ ("\x7b" ++ Text.quoted text .double ++ "\x7d")).toList =
        ' ' :: (['m', 's', 'g'] ++ '=' :: '\x7b' ::
          ((Text.quoted text .double).toList ++ ['\x7d'])) := by simp
    have hsize : pos +
        Chars.size (" msg=" ++ ("\x7b" ++ Text.quoted text .double ++ "\x7d")).toList =
        pos + 1 + Chars.size ['m', 's', 'g'] + 1 + 1 +
          Chars.size (Text.quoted text .double).toList + 1 := by
      rw [hchars]
      simp only [Chars.size_cons, Chars.size_append, Chars.size_nil]
      omega
    rw [hsize, ← hattribute, hchars]
    simp
  · -- an attribute string, in which nothing is decoded
    rename_i hplain
    simp only [List.any_eq_true, Bool.or_eq_true, beq_iff_eq, not_exists, not_and, not_or] at hplain
    have hquote : '\x22' ∉ text.toList := by
      intro hmem
      simpa using hplain _ hmem
    have hampersand : '&' ∉ text.toList := by
      intro hmem
      simpa using hplain _ hmem
    obtain ⟨t, hattribute, ht⟩ :=
      markupAttribute_string (c := c) (parser (fuel + 3)) isTagWord_msg hquote rest pos
    rw [decodeNamedFrom_of_not_mem hampersand, String.ofList_toList] at ht
    refine ⟨t, ?_, ht⟩
    have hchars : (" msg=" ++ ("\x22" ++ text ++ "\x22")).toList =
        ' ' :: (['m', 's', 'g'] ++ '=' :: '\x22' :: (text.toList ++ ['\x22'])) := by simp
    have hsize : pos + Chars.size (" msg=" ++ ("\x22" ++ text ++ "\x22")).toList =
        pos + 1 + Chars.size ['m', 's', 'g'] + 1 + Chars.size text.toList + 2 := by
      rw [hchars]
      simp only [Chars.size_cons, Chars.size_append, Chars.size_nil]
      omega
    rw [hsize, ← hattribute, hchars]
    simp

/-! ## Generated elements -/

/-- What a generated element has behind its identifier. -/
def Site.keptText (site : Site) (text : String) : List Char :=
  if site.options.keepDefaultMsg then messageText text else []

/-- The wrapper element, character by character. -/
theorem wrapper_append (site : Site) (text : String) (rest : List Char) :
    (site.wrapper text).toList ++ rest =
      '<' :: ([] ++ (site.options.jsxElement.toList ++
        (identifierText (site.harvester.keyFor text) ++
          (site.keptText text ++ ' ' :: '/' :: '>' :: rest)))) := by
  rw [Site.wrapper, Site.keptText, identifierText, messageText]
  split <;> simp

/-- The size of the wrapper element. -/
theorem size_wrapper (site : Site) (text : String) : Chars.size (site.wrapper text).toList =
    1 + Chars.size site.options.jsxElement.toList +
      Chars.size (identifierText (site.harvester.keyFor text)) +
        Chars.size (site.keptText text) + 3 := by
  have hchars := wrapper_append site text []
  have hunits : '<'.utf8Size = 1 ∧ ' '.utf8Size = 1 ∧ '/'.utf8Size = 1 ∧ '>'.utf8Size = 1 := by
    decide
  rw [List.append_nil] at hchars
  rw [hchars]
  simp only [Chars.size_cons, Chars.size_append, Chars.size_nil]
  omega

/-- Behind its identifier a generated element has its message, or nothing, and then it ends. -/
theorem attributes_generated (c : Context) (site : Site) (fuel : Nat) (text : String)
    (rest : List Char) (pos : Nat) (hbound : 0 < c.bound) : ∃ more,
      Attributes (parser (fuel + 3)) c
        (startState (site.keptText text ++ ' ' :: '/' :: '>' :: rest) pos) more
        (startState (' ' :: '/' :: '>' :: rest) (pos + Chars.size (site.keptText text))) ∧
      more.length ≤ 1 ∧ ∀ key t, IsAttribute "id" key t →
        WrittenParts key (site.keptMessage text) (t :: more) := by
  rw [Site.keptText, Site.keptMessage]
  split
  · obtain ⟨t, hattribute, ht⟩ :=
      markupAttribute_message c fuel text (' ' :: '/' :: '>' :: rest) pos hbound
    -- the message goes on the tag, the slash ends it
    have hgoes :
        (startState (messageText text ++ ' ' :: '/' :: '>' :: rest) pos).endsTag = false := by
      have hname := nameAt_blank isTagWord_msg (d := '=') (by decide) (by decide)
        ((Site.attributeValue text).toList ++ ' ' :: '/' :: '>' :: rest) pos
      have hchars : messageText text ++ ' ' :: '/' :: '>' :: rest =
          ' ' :: (['m', 's', 'g'] ++ '=' ::
            ((Site.attributeValue text).toList ++ ' ' :: '/' :: '>' :: rest)) := by
        simp [messageText]
      rw [hchars]
      exact endsTag_of_word hname.word
    exact ⟨[t], .next hgoes hattribute (.done (endsTag_slash _ _)), Nat.le_refl 1,
      fun _ _ hid => .kept hid ht⟩
  · exact ⟨[], .done (endsTag_slash _ _), Nat.zero_le 1, fun _ _ hid => .bare hid⟩

/-- A generated element is read as the wrapper with its key and its message, and nothing more is
taken, when the name of wrappers is one and the key stands for itself. -/
theorem element_wrapper (c : Context) (site : Site) (fuel : Nat) (text : String) (rest : List Char)
    (pos : Nat) (hbound : 2 < c.bound) (htag : IsTagWord site.options.jsxElement.toList)
    (hkey : Verbatim (site.harvester.keyFor text).toList) : ∃ place parts,
      element (parser (fuel + 3)) c (startState ((site.wrapper text).toList ++ rest) pos) =
        .ok (.node (.element (.plain site.options.jsxElement place))
            ⟨pos, pos + Chars.size (site.wrapper text).toList⟩ parts)
          (startState rest (pos + Chars.size (site.wrapper text).toList)) ∧
      WrittenParts (site.harvester.keyFor text) (site.keptMessage text) parts := by
  obtain ⟨more, hmore, hlength, hparts⟩ := attributes_generated c site fuel text rest
    (pos + 1 + Chars.size ([] : List Char) + Chars.size site.options.jsxElement.toList +
      Chars.size (identifierText (site.harvester.keyFor text))) (by omega)
  obtain ⟨place, t, hopening, ht⟩ := exists_openingTag (isTagGap_nil pos) htag hkey hmore (by omega)
  refine ⟨place, t :: more, ?_, hparts _ t ht⟩
  have helement := element_eq (c := c) (parser (fuel + 3)) (isTagGap_nil pos) htag
    ('i' :: 'd' :: '=' :: '\x22' :: writtenBefore (site.harvester.keyFor text).toList
      (site.keptText text ++ ' ' :: '/' :: '>' :: rest))
  rw [← identifierText_append, hopening] at helement
  -- the element ends with its slash and bracket
  have hsize : pos + 1 + Chars.size ([] : List Char) + Chars.size site.options.jsxElement.toList +
      Chars.size (identifierText (site.harvester.keyFor text)) +
        Chars.size (site.keptText text) + 3 = pos + Chars.size (site.wrapper text).toList := by
    rw [size_wrapper, Chars.size_nil]
    omega
  rw [wrapper_append, helement]
  dsimp only
  rw [elementRest_slash, hsize]

/-- **A generated element is never changed again.** It files its entry once more just when it keeps
its message; without one nothing says which text its identifier has. -/
theorem walk_writtenParts {site : Site} {key text : String} {parts : List Tree}
    (hparts : WrittenParts key (site.keptMessage text) parts) (role : Role) (place span : Span) :
    walk site role (.node (.element (.plain site.options.jsxElement place)) span parts) =
      if site.options.keepDefaultMsg && trim text != "" then [.file key (trim text)] else [] := by
  rw [Site.keptMessage] at hparts
  cases hkeep : site.options.keepDefaultMsg with
  | false =>
    rw [hkeep] at hparts
    obtain ⟨⟨span', value, rfl, hvalue⟩⟩ := hparts
    rw [walk]
    simp [enter, visits, leave, walkAll, Site.wrapperElement, Site.lastAttribute]
  | true =>
    rw [hkeep] at hparts
    obtain _ | ⟨⟨span', value, rfl, hvalue⟩, ⟨span'', value', rfl, hvalue'⟩⟩ := hparts
    rw [walk]
    -- a message that is kept is there beside the id, and does nothing more
    by_cases hblank : trim text = ""
    · simp [enter, visits, leave, walkAll, Site.wrapperElement, Site.lastAttribute, hvalue', hblank]
    · simp [enter, visits, leave, walkAll, Site.wrapperElement, Site.lastAttribute, hvalue,
        hvalue', hblank, Site.removal?, hkeep]

/-- Only a key that stands for itself comes back from a generated element. -/
theorem verbatim_of_element (site : Site) (text : String) {rest : List Char} {pos : Nat}
    {place span : Span} {parts : List Tree} {s' : State} {message : Option String}
    (h : element self c (startState ((site.wrapper text).toList ++ rest) pos) =
      .ok (.node (.element (.plain site.options.jsxElement place)) span parts) s')
    (hparts : Identifies (site.harvester.keyFor text) message parts) :
    IsTagWord site.options.jsxElement.toList ∧ Verbatim (site.harvester.keyFor text).toList := by
  obtain ⟨attrs, children, s₁, hopening, rfl⟩ := element_inv h
  rw [wrapper_append] at hopening
  obtain ⟨htag, t, more, rfl, ht, -⟩ := openingTag_identifier_inv (isTagGap_nil pos) hopening
  exact ⟨htag, ofList_attributeString_iff.mp ((identifies_cons_iff ht).mp hparts).1⟩

/-! ## Authored elements -/

/-- No blank may stand in a name. -/
theorem not_isBlank_of_isTagPart {ch : Char} (h : isTagPart ch = true) :
    Chars.isBlank ch = false := by
  -- all blanks but one may stand in a gap
  have hout : ch.toNat ∉ 0x85 :: gapCodes := by
    intro hmem
    rcases List.mem_cons.mp hmem with hnext | hgap
    · have hnot : isTagPart (Char.ofNat 0x85) = false := by decide
      rw [← hnext, Char.ofNat_toNat, h] at hnot
      cases hnot
    · exact not_mem_gapCodes_of_isTagPart h hgap
  have hlow : ∀ k < 5, 9 + k ∈ 0x85 :: gapCodes := by decide
  have hrow : ∀ k < 11, 0x2000 + k ∈ 0x85 :: gapCodes := by decide
  have hsingle : ∀ n ∈ [0x20, 0x85, 0xa0, 0x1680, 0x2028, 0x2029, 0x202f, 0x205f, 0x3000],
      n ∈ 0x85 :: gapCodes := by decide
  rw [Bool.eq_false_iff]
  intro hblank
  apply hout
  simp only [Chars.isBlank, Bool.or_eq_true, Bool.and_eq_true, decide_eq_true_eq, beq_iff_eq]
    at hblank
  obtain ⟨hstart, hstop⟩ | ⟨hstart, hstop⟩ | hmem :
      (9 ≤ ch.toNat ∧ ch.toNat ≤ 13) ∨ (0x2000 ≤ ch.toNat ∧ ch.toNat ≤ 0x200a) ∨
        ch.toNat ∈ [0x20, 0x85, 0xa0, 0x1680, 0x2028, 0x2029, 0x202f, 0x205f, 0x3000] := by
    simp only [List.mem_cons, List.not_mem_nil, or_false]
    omega
  · obtain ⟨k, hk⟩ := Nat.exists_eq_add_of_le hstart
    rw [hk]
    exact hlow k (by omega)
  · obtain ⟨k, hk⟩ := Nat.exists_eq_add_of_le hstart
    rw [hk]
    exact hrow k (by omega)
  · exact hsingle _ hmem

/-- Blanks at the end are dropped behind what ends in no blank. -/
theorem trimEnd_behind {ch : Char} (hch : Chars.isBlank ch = false) (front a : List Char) :
    Chars.trimEnd (front ++ ch :: a) = front ++ ch :: Chars.trimEnd a := by
  have hreverse : (front ++ ch :: a).reverse = a.reverse ++ ch :: front.reverse := by simp
  rw [Chars.trimEnd, Chars.trimEnd, hreverse, List.dropWhile_append]
  split
  · rename_i hnil
    rw [List.isEmpty_iff.mp hnil, List.dropWhile_cons_of_neg (by simp [hch])]
    simp
  · simp

/-- Behind the name of an authored element its message stands in the source. -/
structure MessageAt (site : Site) (nameEnd : Nat) (span : Span) (front a m b : List Char) :
    Prop where
  source : site.source = front ++ (a ++ (m ++ b))
  name : Chars.size front = nameEnd
  start : span.start = nameEnd + Chars.size a
  stop : span.stop = nameEnd + Chars.size a + Chars.size m

/-- A range between characters behind a place between characters, as pieces of the source. -/
theorem messageAt_of_cuts {site : Site} {nameEnd : Nat} {span : Span}
    (hname : Chars.Between site.source nameEnd) (hcuts : span.Cuts site.source)
    (hle : nameEnd ≤ span.start) : ∃ front a m b, MessageAt site nameEnd span front a m b := by
  have hblank : (Span.mk nameEnd span.start).Cuts site.source := ⟨hle, hname, hcuts.start⟩
  obtain ⟨front, a, back, hfront, hnameEnd, hstart, -⟩ := hblank.exists_piece
  obtain ⟨before, m, b, hsource, hbefore, hstop, -⟩ := hcuts.exists_piece
  dsimp only at hnameEnd hstart
  have hcut := Chars.splitAt?_append (front ++ a) back
  rw [Chars.size_append, hnameEnd, ← hstart, List.append_assoc, ← hfront, hsource, ← hbefore,
    Chars.splitAt?_append, Option.some_inj, Prod.mk.injEq] at hcut
  obtain ⟨-, rfl⟩ := hcut
  exact ⟨front, a, m, b, hfront, hnameEnd, hstart, by rw [hstop, hstart]⟩

/-- The message of an element that the grammar reads stands behind its name. -/
theorem exists_messageAt {site : Site} {before body : List Char} {name : String} {place : Span}
    {attributes : List Tree} {s' : State} {message : String} {span : Span}
    (hself : ∀ goal, Steady site.source (self goal)) (hsource : site.source = before ++ '<' :: body)
    (hopening : openingTag self c (startState ('<' :: body) (Chars.size before)) =
      .ok (.plain name place, attributes) s')
    (hmessage : Site.lastAttribute "msg" attributes = some (message, span)) :
    ∃ front a m b, MessageAt site place.stop span front a m b := by
  have hstart : (startState ('<' :: body) (Chars.size before)).StandsIn site.source :=
    standsIn_startState ⟨before, hsource, rfl⟩
  -- the grammar keeps to the source, so the message lies behind the name and between characters
  have hkept := kept_openingTag (c := c) hself hstart
  rw [hopening] at hkept
  obtain ⟨-, hfits, hbehind⟩ := hkept
  obtain ⟨hname, hbehind⟩ := hbehind name place rfl
  obtain ⟨value, hmem⟩ := exists_attribute_of_lastAttribute hmessage
  obtain ⟨hle, horder⟩ := hbehind _ hmem
  have hattribute := fits_of_mem hfits hmem
  exact messageAt_of_cuts hname ⟨horder, fits_start hattribute, fits_stop hattribute⟩ hle

/-- What an authored element has behind its identifier: its message goes, with the blanks in front
of it, unless messages are kept. -/
def Site.remainder (site : Site) (a m b : List Char) : List Char :=
  if site.options.keepDefaultMsg then a ++ (m ++ b) else Chars.trimEnd a ++ b

/-- An insertion into a source. -/
theorem apply_insertion (text : String) (front rest : List Char) :
    (Patch.apply ⟨[⟨.point (Chars.size front), text⟩]⟩ (String.ofList (front ++ rest))).toList =
      front ++ (text.toList ++ rest) := by
  have hsplice : Patch.splice [⟨.point (Chars.size front), text⟩] 0 (front ++ ([] ++ rest)) =
      front ++ text.toList ++ rest :=
    Patch.splice_cons_append (Nat.zero_add _).symm rfl
  have hsort : Edit.sort [⟨.point (Chars.size front), text⟩] =
      [⟨.point (Chars.size front), text⟩] := rfl
  rw [Patch.apply, hsort, String.toList_ofList, String.toList_ofList]
  exact hsplice.trans (List.append_assoc _ _ _)

/-- An insertion into a source and a removal behind it. -/
theorem apply_insertion_removal (text : String) (front kept gone rest : List Char) :
    (Patch.apply ⟨[⟨.point (Chars.size front), text⟩,
        ⟨⟨Chars.size front + Chars.size kept,
          Chars.size front + Chars.size kept + Chars.size gone⟩, ""⟩]⟩
        (String.ofList (front ++ (kept ++ (gone ++ rest))))).toList =
      front ++ (text.toList ++ (kept ++ rest)) := by
  generalize hremoval : (⟨⟨Chars.size front + Chars.size kept,
    Chars.size front + Chars.size kept + Chars.size gone⟩, ""⟩ : Edit) = removed
  -- the identifier is put in before the message is taken out
  have hsort : Edit.sort [⟨.point (Chars.size front), text⟩, removed] =
      [⟨.point (Chars.size front), text⟩, removed] := by
    refine Edit.sort_of_pairwise (List.pairwise_pair.mpr (Edit.before_iff.mpr ?_))
    rw [← hremoval]
    dsimp only [Span.point]
    omega
  have hinsert : Patch.splice [⟨.point (Chars.size front), text⟩, removed] 0
      (front ++ ([] ++ (kept ++ (gone ++ rest)))) =
        front ++ text.toList ++
          Patch.splice [removed] (Chars.size front) (kept ++ (gone ++ rest)) :=
    Patch.splice_cons_append (Nat.zero_add _).symm rfl
  have hremove : Patch.splice [removed] (Chars.size front) (kept ++ (gone ++ rest)) =
      kept ++ rest := by
    rw [← hremoval, Patch.splice_cons_append rfl rfl]
    simp [Patch.splice]
  rw [Patch.apply, hsort, String.toList_ofList, String.toList_ofList]
  refine hinsert.trans ?_
  rw [hremove, List.append_assoc]

/-- An authored element with a message and without a constant identifier gets one. -/
theorem edits_of_message {site : Site} {nameEnd : Nat} {attributes : List Tree}
    {message : String} {span : Span}
    (hmessage : Site.lastAttribute "msg" attributes = some (message, span))
    (hne : Text.trim message ≠ "") (hid : Site.lastAttribute "id" attributes = none) :
    edits (site.wrapperElement nameEnd attributes) =
      ⟨.point nameEnd, " id=" ++ Text.quoted (site.harvester.keyFor (Text.trim message)) .double⟩ ::
        edits (removal site span) := by
  rw [wrapperElement_of_message hmessage hne, hid]
  rfl

/-- The changes of an authored element put its identifier behind its name. -/
theorem apply_wrapperElement {site : Site} {nameEnd : Nat} {attributes : List Tree}
    {message : String} {span : Span}
    (hmessage : Site.lastAttribute "msg" attributes = some (message, span))
    (hne : Text.trim message ≠ "") (hid : Site.lastAttribute "id" attributes = none)
    {front a m b : List Char} (hat : MessageAt site nameEnd span front a m b)
    (hfront : ∀ cs, Chars.trimEnd (front ++ cs) = front ++ Chars.trimEnd cs) :
    ((ofActions (site.wrapperElement nameEnd attributes)).patch.apply
        (String.ofList site.source)).toList =
      front ++ (identifierText (site.harvester.keyFor (Text.trim message)) ++
        site.remainder a m b) := by
  obtain ⟨hsource, rfl, hstart, hstop⟩ := hat
  have hpatch (as : List Action) : (ofActions as).patch = ⟨edits as⟩ := rfl
  rw [hpatch, edits_of_message hmessage hne hid, removal_eq, Site.remainder, identifierText]
  split
  · rw [hsource, show edits [] = [] from rfl, apply_insertion]
  · -- the message is removed with the blanks before it, behind the place of the insertion
    have hcut : Chars.splitAt? site.source span.start = some (front ++ a, m ++ b) := by
      rw [hsource, hstart, ← Chars.size_append, ← List.append_assoc, Chars.splitAt?_append]
    have hkept : Chars.size (Chars.trimEnd (front ++ a)) =
        Chars.size front + Chars.size (Chars.trimEnd a) := by
      rw [hfront, Chars.size_append]
    have hgone : span.stop = Chars.size front + Chars.size (Chars.trimEnd a) +
        Chars.size (Chars.blankEnd a ++ m) := by
      have hsize := congrArg Chars.size (Chars.trimEnd_append_blankEnd a)
      rw [Chars.size_append] at hsize
      rw [hstop, Chars.size_append (Chars.blankEnd a)]
      omega
    have hpieces : a ++ (m ++ b) = Chars.trimEnd a ++ ((Chars.blankEnd a ++ m) ++ b) := by
      rw [List.append_assoc, ← List.append_assoc (Chars.trimEnd a), Chars.trimEnd_append_blankEnd]
    have hedits (s : Span) : edits [.replace s ""] = [⟨s, ""⟩] := rfl
    rw [hcut]
    dsimp only
    rw [hedits, hkept, hgone, hsource, hpieces, apply_insertion_removal]

/-- The opening tag of an authored element, with the identifier that it gets, reads back just when
the key stands for itself and what is left of the tag has no other identifier. -/
theorem identified_iff {site : Site} {before body : List Char} {place : Span}
    {attributes : List Tree} {s' : State} {message : String} {span : Span} {front a m b : List Char}
    (hsource : site.source = before ++ '<' :: body) (hbody : body.head? ≠ some '!')
    (hname : site.options.jsxElement ≠ "")
    (hopening : openingTag self c (startState ('<' :: body) (Chars.size before)) =
      .ok (.plain site.options.jsxElement place, attributes) s')
    (hmessage : Site.lastAttribute "msg" attributes = some (message, span))
    (hne : Text.trim message ≠ "") (hid : Site.lastAttribute "id" attributes = none)
    (hat : MessageAt site place.stop span front a m b) : ∃ tag,
      ((ofActions (site.wrapperElement place.stop attributes)).patch.apply
        (String.ofList site.source)).toList = before ++ '<' :: tag ∧
      (ReadsAsWrapper self c ('<' :: tag) (Chars.size before) site.options.jsxElement
          (site.harvester.keyFor (Text.trim message)) (site.keptMessage message) ↔
        Verbatim (site.harvester.keyFor (Text.trim message)).toList ∧
          ReadsOn self c (site.remainder a m b)
            (place.stop + Chars.size (identifierText (site.harvester.keyFor (Text.trim message))))
            (site.keptMessage message)) := by
  obtain ⟨gap, tail, rfl, hgap, htag, hstop⟩ := exists_isTagGap hbody hname hopening
  have hfront : front = before ++ '<' :: (gap ++ site.options.jsxElement.toList) := by
    have hpieces : front ++ (a ++ (m ++ b)) =
        (before ++ '<' :: (gap ++ site.options.jsxElement.toList)) ++ tail := by
      rw [← hat.source, hsource]
      simp
    have hsize : Chars.size front =
        Chars.size (before ++ '<' :: (gap ++ site.options.jsxElement.toList)) := by
      have hless : '<'.utf8Size = 1 := by decide
      rw [hat.name, hstop]
      simp only [Chars.size_append, Chars.size_cons]
      omega
    -- both cuts are at the end of the name, so the texts in front are the same
    have hcut := Chars.splitAt?_append front (a ++ (m ++ b))
    rw [hpieces, hsize, Chars.splitAt?_append, Option.some_inj, Prod.mk.injEq] at hcut
    exact hcut.1.symm
  -- the name ends in a character that is no blank, so the blanks to be removed are behind it
  have hsolid (cs : List Char) : Chars.trimEnd (front ++ cs) = front ++ Chars.trimEnd cs := by
    obtain ⟨name, ch, hlast⟩ :=
      (List.eq_nil_or_concat site.options.jsxElement.toList).resolve_left htag.ne_nil
    have hch : isTagPart ch = true := htag.parts ch (by simp [hlast])
    have hconcat (out : List Char) :
        front ++ out = (before ++ '<' :: (gap ++ name)) ++ ch :: out := by
      simp [hfront, hlast]
    rw [hconcat, hconcat, trimEnd_behind (not_isBlank_of_isTagPart hch)]
  refine ⟨gap ++ (site.options.jsxElement.toList ++
    (identifierText (site.harvester.keyFor (Text.trim message)) ++ site.remainder a m b)), ?_, ?_⟩
  · rw [apply_wrapperElement hmessage hne hid hat hsolid, hfront]
    simp
  · rw [readsAsWrapper_iff hgap, hstop]
    exact ⟨fun h => h.2, fun h => ⟨htag, h⟩⟩

/-- The grammar itself finds the message where it stands, so nothing is to be assumed of its place:
what is left behind the identifier is cut out of the source. -/
theorem exists_identified {site : Site} {fuel : Nat} {before body : List Char} {place : Span}
    {attributes : List Tree} {s' : State} {message : String} {span : Span}
    (hsource : site.source = before ++ '<' :: body) (hbody : body.head? ≠ some '!')
    (hname : site.options.jsxElement ≠ "")
    (hopening : openingTag (parser fuel) c (startState ('<' :: body) (Chars.size before)) =
      .ok (.plain site.options.jsxElement place, attributes) s')
    (hmessage : Site.lastAttribute "msg" attributes = some (message, span))
    (hne : Text.trim message ≠ "") (hid : Site.lastAttribute "id" attributes = none) :
    ∃ front a m b tag, MessageAt site place.stop span front a m b ∧
      ((ofActions (site.wrapperElement place.stop attributes)).patch.apply
        (String.ofList site.source)).toList = before ++ '<' :: tag ∧
      (ReadsAsWrapper (parser fuel) c ('<' :: tag) (Chars.size before) site.options.jsxElement
          (site.harvester.keyFor (Text.trim message)) (site.keptMessage message) ↔
        Verbatim (site.harvester.keyFor (Text.trim message)).toList ∧
          ReadsOn (parser fuel) c (site.remainder a m b)
            (place.stop + Chars.size (identifierText (site.harvester.keyFor (Text.trim message))))
            (site.keptMessage message)) := by
  obtain ⟨front, a, m, b, hat⟩ := exists_messageAt (steady_goals fuel) hsource hopening hmessage
  obtain ⟨tag, happly, hreads⟩ :=
    identified_iff hsource hbody hname hopening hmessage hne hid hat
  exact ⟨front, a, m, b, tag, hat, happly, hreads⟩

/-! ## Reading back -/

/-- Keys made of digits stand for themselves. -/
theorem verbatim_ofText (text : String) (n : Nat) : Verbatim (Key.ofText text n).toList := by
  have hall : Key.alphabet.all (fun ch => escapeChar .double ch == [ch] && ch != '&') = true := by
    decide
  have hdigits : ∀ ch ∈ Key.alphabet, escapeChar .double ch = [ch] ∧ ch ≠ '&' := by
    simpa using hall
  constructor
  · intro ch hch
    exact (hdigits ch (Key.mem_alphabet_of_mem_ofText hch)).1
  · apply decodeNamedFrom_of_not_mem
    intro hampersand
    exact (hdigits '&' (Key.mem_alphabet_of_mem_ofText hampersand)).2 rfl

/-- How wrapper elements read back, whatever keys are made. -/
structure WrapperReading (site : Site) : Prop where
  /-- A generated element is the wrapper with its key for the only identifier, and with the text for
  its message when messages are kept, and nothing behind it is taken. -/
  generated : ∀ (c : Context) (fuel : Nat) (text : String) (rest : List Char) (pos : Nat),
    2 < c.bound → IsTagWord site.options.jsxElement.toList →
    Verbatim (site.harvester.keyFor text).toList → ∃ place parts,
      element (parser (fuel + 3)) c (startState ((site.wrapper text).toList ++ rest) pos) =
        .ok (.node (.element (.plain site.options.jsxElement place))
            ⟨pos, pos + Chars.size (site.wrapper text).toList⟩ parts)
          (startState rest (pos + Chars.size (site.wrapper text).toList)) ∧
      Identifies (site.harvester.keyFor text) (site.keptMessage text) parts
  /-- No other key ever comes back. -/
  only : ∀ (self : Parser) (c : Context) (text : String) (rest : List Char) (pos : Nat)
    (place span : Span) (parts : List Tree) (s' : State),
    element self c (startState ((site.wrapper text).toList ++ rest) pos) =
      .ok (.node (.element (.plain site.options.jsxElement place)) span parts) s' →
    Identifies (site.harvester.keyFor text) (site.keptMessage text) parts →
      IsTagWord site.options.jsxElement.toList ∧ Verbatim (site.harvester.keyFor text).toList
  /-- A key that is made of the text's hash comes back. -/
  hashed : ∀ (text : String) (n : Nat), site.harvester.keyFor text = Key.ofText text n →
    Verbatim (site.harvester.keyFor text).toList
  /-- An authored element with a message and without a constant identifier gets one, which comes
  back just when the key does and the rest of the tag, as it stands then, is read without any other
  identifier, and with its message when messages are kept. -/
  identified : ∀ (self : Parser) (c : Context) (before body : List Char) (place : Span)
    (attributes : List Tree) (s' : State) (message : String) (span : Span)
    (front a m b : List Char),
    site.source = before ++ '<' :: body → body.head? ≠ some '!' → site.options.jsxElement ≠ "" →
    openingTag self c (startState ('<' :: body) (Chars.size before)) =
      .ok (.plain site.options.jsxElement place, attributes) s' →
    Site.lastAttribute "msg" attributes = some (message, span) → Text.trim message ≠ "" →
    Site.lastAttribute "id" attributes = none → MessageAt site place.stop span front a m b →
    ∃ tag, ((ofActions (site.wrapperElement place.stop attributes)).patch.apply
        (String.ofList site.source)).toList = before ++ '<' :: tag ∧
      (ReadsAsWrapper self c ('<' :: tag) (Chars.size before) site.options.jsxElement
          (site.harvester.keyFor (Text.trim message)) (site.keptMessage message) ↔
        Verbatim (site.harvester.keyFor (Text.trim message)).toList ∧
          ReadsOn self c (site.remainder a m b)
            (place.stop + Chars.size (identifierText (site.harvester.keyFor (Text.trim message))))
            (site.keptMessage message))

/-- A wrapper element reads back just when its key stands for itself both in a literal and in an
attribute string. -/
theorem wrapperReading (site : Site) : WrapperReading site where
  generated c fuel text rest pos hbound htag hkey := by
    obtain ⟨place, parts, helement, hparts⟩ :=
      element_wrapper c site fuel text rest pos hbound htag hkey
    exact ⟨place, parts, helement, hparts.identifies⟩
  only _ _ text _ _ _ _ _ _ helement hparts := verbatim_of_element site text helement hparts
  hashed text n hmade := by
    rw [hmade]
    exact verbatim_ofText text n
  identified _ _ _ _ _ _ _ _ _ _ _ _ _ hsource hbody hname hopening hmessage hne hid hat :=
    identified_iff hsource hbody hname hopening hmessage hne hid hat

/-- An element that an author wrote with nothing but a message, from behind its opening sign on. -/
def authoredBody : List Char :=
  "Trans".toList ++ ([' '] ++ ("msg=\x22你好\x22".toList ++ [' ', '/', '>']))

theorem exists_of_run' {α : Type} {p : EStateM Nat State α} {s : State} {a : α}
    (h : p.run' s = some a) : ∃ s', p s = .ok a s' := by
  delta EStateM.run' EStateM.run at h
  cases hp : p s with
  | error e s' =>
    rw [hp] at h
    cases h
  | ok a' s' =>
    rw [hp] at h
    cases h
    exact ⟨s', rfl⟩

/-- The identifier that takes the place of a message reads back. -/
theorem wrapperReading_authored : ∃ h place attributes s' tag,
    Harvester.ofOptions { replaceTexts := true } = .ok h ∧
    openingTag (parser 8) { dialect := .tsx, bound := 8 } (startState ('<' :: authoredBody) 0) =
      .ok (.plain "Trans" place, attributes) s' ∧
    ((ofActions (Site.wrapperElement ⟨h, '<' :: authoredBody, .double, none⟩ place.stop
      attributes)).patch.apply (String.ofList ('<' :: authoredBody))).toList = '<' :: tag ∧
    ReadsAsWrapper (parser 8) { dialect := .tsx, bound := 8 } ('<' :: tag) 0 "Trans" "03tpnc"
      none := by
  have hview : (Harvester.ofOptions { replaceTexts := true }).toOption.map
      (fun h => (h.keyFor "你好", h.options.jsxElement, h.options.keepDefaultMsg)) =
        some ("03tpnc", "Trans", false) := by
    decide +kernel
  obtain ⟨h, hh, hview⟩ := exists_ok_of_toOption_map hview
  obtain ⟨hkey, hview⟩ := Prod.mk.inj hview
  obtain ⟨hname, hkeep⟩ := Prod.mk.inj hview
  -- the tag is read by evaluation; what follows is the general reading of what is written
  have hread : ((openingTag (parser 8) { dialect := .tsx, bound := 8 }).run'
      (startState ('<' :: authoredBody) 0)).map (fun result =>
        (result.1, Site.lastAttribute "msg" result.2, Site.lastAttribute "id" result.2)) =
      some (.plain "Trans" ⟨1, 6⟩, some ("你好", ⟨7, 19⟩), none) := by
    decide +kernel
  obtain ⟨⟨tag, attributes⟩, hopening, hread⟩ := Option.map_eq_some_iff.mp hread
  obtain ⟨s', hopening⟩ := exists_of_run' hopening
  obtain ⟨rfl, hread⟩ := Prod.mk.inj hread
  obtain ⟨hmessage, hid⟩ := Prod.mk.inj hread
  have hat : MessageAt ⟨h, '<' :: authoredBody, .double, none⟩ 6 ⟨7, 19⟩
      ('<' :: "Trans".toList) [' '] "msg=\x22你好\x22".toList [' ', '/', '>'] :=
    ⟨rfl, by decide, by decide, by decide⟩
  have hplain : (Site.options ⟨h, '<' :: authoredBody, .double, none⟩).jsxElement = "Trans" :=
    hname
  have hmade : h.keyFor (trim "你好") = "03tpnc" := hkey
  have hnone : Site.keptMessage ⟨h, '<' :: authoredBody, .double, none⟩ "你好" = none := by
    rw [Site.keptMessage, Site.options, hkeep]
    rfl
  have hleft : Site.remainder ⟨h, '<' :: authoredBody, .double, none⟩ [' ']
      "msg=\x22你好\x22".toList [' ', '/', '>'] = [' ', '/', '>'] := by
    rw [Site.remainder, Site.options, hkeep]
    rfl
  obtain ⟨tag, htag, hreads⟩ :=
    (wrapperReading ⟨h, '<' :: authoredBody, .double, none⟩).identified (parser 8)
      { dialect := .tsx, bound := 8 } [] authoredBody ⟨1, 6⟩ attributes s' "你好" ⟨7, 19⟩ _ _ _ _
      rfl (by decide) (by rw [hplain]; decide) (by rw [hplain]; exact hopening) hmessage
      (by decide) hid hat
  dsimp only at hreads
  rw [hplain, hmade, hnone, hleft] at hreads
  refine ⟨h, ⟨1, 6⟩, attributes, s', tag, hh, hopening, htag, hreads.mpr ⟨by decide, ?_⟩⟩
  exact ⟨[], _, .done (endsTag_slash [] _), by decide, rfl, by simp⟩

/-- A text between the tags of an element, with quotes in it. -/
def quotesScript : String :=
  "const a = <p>说\x22你好\x22</p>;"

/-- With texts for keys, a text with quotes in it does not come back as the identifier of the
element that is written for it. -/
theorem not_readsBack_quotes : ∃ h,
    Harvester.ofOptions
      { replaceTexts := true, jsx := true, keepRaw := true, autoImport := false } = .ok h ∧
    (h.harvestFile quotesScript "a.tsx").code =
      some ("const a = <p>" ++ Site.wrapper ⟨h, [], .double, none⟩ "说\x22你好\x22" ++ "</p>;") ∧
    ∀ (self : Parser) (c : Context) (rest : List Char) (pos : Nat) (place span : Span)
      (parts : List Tree) (s' : State),
      element self c (startState
        ((Site.wrapper ⟨h, [], .double, none⟩ "说\x22你好\x22").toList ++ rest) pos) =
          .ok (.node (.element (.plain "Trans" place)) span parts) s' →
      textsNamed "id" parts ≠ [some "说\x22你好\x22"] := by
  have heval : (Harvester.ofOptions
      { replaceTexts := true, jsx := true, keepRaw := true, autoImport := false }).toOption.map
      (fun h => decide ((h.harvestFile quotesScript "a.tsx").code =
          some ("const a = <p>" ++ Site.wrapper ⟨h, [], .double, none⟩ "说\x22你好\x22" ++ "</p>;") ∧
        h.options.jsxElement = "Trans" ∧
        h.keyFor "说\x22你好\x22" = "说\x22你好\x22")) = some true := by
    decide +kernel
  obtain ⟨h, hh, hall⟩ := exists_ok_of_toOption_map heval
  obtain ⟨hcode, hname, hkey⟩ := of_decide_eq_true hall
  refine ⟨h, hh, hcode, ?_⟩
  intro self c rest pos place span parts s' helement hidentifier
  -- a quote in the identifier ends it too early
  have hquotes : ¬Verbatim ("说\x22你好\x22" : String).toList := by decide
  have hparts : Identifies (h.keyFor "说\x22你好\x22") none parts :=
    ⟨by rw [hkey, hidentifier], by simp⟩
  rw [← hname] at helement
  have hverbatim := (verbatim_of_element ⟨h, [], .double, none⟩ _ helement hparts).2
  rw [hkey] at hverbatim
  exact hquotes hverbatim

end TextHarvest.Harvest
