import TextHarvest.Proofs.Component.Bytes.Blocks

/-!
# Markup is read in whole characters

Markup is scanned byte by byte. Every step stops in front of an ASCII character or at the end, so
that what is cut out of the source are whole characters, with one exception: a value without a name
is passed over together with the byte after it. When a character of several bytes follows such a
value at once, the scan goes on inside that character, finds a name there and cannot cut it out.

* `Reads`, `Attribute.IsWhole` — ranges that lie between characters.
* `TemplateStumbles`, `FileStumbles` — the exception, in a template and in a file.
* `bytes_attributes`, `bytes_nodes`, `bytes_split` — the answers, with and without it.

Main result: `in_whole_characters`. The exception exists: `stops_inside_character`.
-/

namespace TextHarvest.Component

open Cursor (behind StopsAt)

variable {source : String}

/-! ## Ranges between characters -/

/-- A text stands in a range of a source. Ranges are those of a text in which the source starts at
`base`. -/
def Reads (source : String) (base : Nat) (s : Span) (text : String) : Prop :=
  ∃ t : Span, s = t.shift base ∧ Text.slice? source t = some text

/-- A stretch of the source is read back from its own range. -/
theorem reads_of_append {front cs rest : List Char}
    (hsource : source.toList = front ++ (cs ++ rest)) (base : Nat) :
    Reads source base ⟨Chars.size front + base, Chars.size front + base + Chars.size cs⟩
      (String.ofList cs) := by
  refine ⟨⟨Chars.size front, Chars.size front + Chars.size cs⟩, ?_, ?_⟩
  · rw [Span.shift, Nat.add_right_comm]
  · rw [Text.slice?, hsource, Chars.slice?_append]
    rfl

/-- An attribute whose name, value and range lie between characters of a source. -/
structure Attribute.IsWhole (a : Attribute) (source : String) (base : Nat) : Prop where
  span : ∃ text, Reads source base a.span text
  name : Reads source base ⟨a.span.start, a.span.start + Chars.size a.name.toList⟩ a.name
  value : ∀ v ∈ a.value, Reads source base v.span v.text

/-- The text of a value stands at its range. -/
theorem Assigned.reads_value {value : Assigned} {front rest : List Char}
    (hsource : source.toList = front ++ (value.chars ++ rest)) (base : Nat) :
    ∀ v ∈ value.value? (Chars.size front + base), Reads source base v.span v.text := by
  intro v hv
  cases value with
  | nothing => cases hv
  | dangling sign => cases hv
  | quoted sign mark text closed =>
    obtain rfl := Option.some.inj hv
    -- the value stands behind its sign and its quote
    have hcut : source.toList = (front ++ (sign ++ [mark])) ++
        (text ++ ((if closed then [mark] else []) ++ rest)) := by
      rw [hsource]
      simp [Assigned.chars]
    have hreads := reads_of_append hcut base
    have hstart : Chars.size (front ++ (sign ++ [mark])) + base =
        Chars.size front + base + Chars.size sign + mark.utf8Size := by
      simp only [Chars.size_append, Chars.size_cons, Chars.size_nil]
      omega
    rwa [hstart] at hreads
  | bare sign text =>
    obtain rfl := Option.some.inj hv
    have hcut : source.toList = (front ++ sign) ++ (text ++ rest) := by
      rw [hsource]
      simp [Assigned.chars]
    have hreads := reads_of_append hcut base
    have hstart : Chars.size (front ++ sign) + base =
        Chars.size front + base + Chars.size sign := by
      rw [Chars.size_append]
      omega
    rwa [hstart] at hreads

/-- The ranges of an attribute lie between characters. -/
theorem isWhole_of_mem_attribute? {item : Item} {front rest : List Char} {a : Attribute}
    (hsource : source.toList = front ++ (item.chars ++ rest)) (base : Nat)
    (ha : a ∈ item.attribute? (Chars.size front + base)) : a.IsWhole source base := by
  cases item with
  | gap ch => cases ha
  | stray value after => cases ha
  | attr name value =>
    obtain rfl := Option.some.inj ha
    rw [Item.chars] at hsource
    have hvalue : source.toList = (front ++ name) ++ (value.chars ++ rest) := by
      rw [hsource]
      simp
    have hoffset : Chars.size (front ++ name) + base =
        Chars.size front + base + Chars.size name := by
      rw [Chars.size_append]
      omega
    -- the attribute as a whole, its name and its value
    refine ⟨⟨_, reads_of_append hsource base⟩, ?_, ?_⟩
    · rw [List.append_assoc] at hsource
      have hname := reads_of_append hsource base
      simpa using hname
    · have hreads := Assigned.reads_value hvalue base
      rwa [hoffset] at hreads

/-- So do those of all attributes of a tag. -/
theorem isWhole_of_mem_attributes {items : List Item} {front rest : List Char}
    (hsource : source.toList = front ++ (Item.written items ++ rest)) (base : Nat) {a : Attribute}
    (ha : a ∈ Item.attributes (Chars.size front + base) items) : a.IsWhole source base := by
  obtain ⟨before, item, after, rfl, hmem⟩ := Item.exists_of_mem_attributes ha
  have hcut : source.toList = (front ++ Item.written before) ++
      (item.chars ++ (Item.written after ++ rest)) := by
    rw [hsource, Item.written_append, Item.written_cons]
    simp
  apply isWhole_of_mem_attribute? hcut base
  rwa [Chars.size_append, Nat.add_right_comm]

/-- And those of all attributes of a template. -/
theorem isWhole_of_mem_nodesAll {ps : List Piece} {front : List Char}
    (hsource : source.toList = front ++ Piece.written ps) (base : Nat) {a : Attribute}
    (ha : Node.attribute a ∈ Piece.nodesAll (Chars.size front + base) ps) :
    a.IsWhole source base := by
  obtain ⟨before, p, after, rfl, hmem⟩ := Piece.exists_of_mem_nodesAll ha
  rw [Piece.written_append, Piece.written_cons] at hsource
  cases p with
  | tag name items close raw =>
    obtain ⟨a', ha', heq⟩ := List.mem_map.mp hmem
    obtain rfl := Node.attribute.inj heq
    -- the items of the tag stand behind its name
    have hcut : source.toList = (front ++ Piece.written before ++ '<' :: name) ++
        (Item.written items ++ (close ++ (raw ++ Piece.written after))) := by
      rw [hsource]
      simp [Piece.chars]
    apply isWhole_of_mem_attributes hcut base
    have hoffset : Chars.size (front ++ Piece.written before ++ '<' :: name) + base =
        Chars.size front + base + Chars.size (Piece.written before) + 1 + Chars.size name := by
      simp only [Chars.size_append, Chars.size_cons, show '<'.utf8Size = 1 from rfl]
      omega
    rwa [hoffset]
  | text cs =>
    rw [Piece.nodes] at hmem
    split at hmem
    · cases hmem
    · cases List.mem_singleton.mp hmem
  | interpolation inner => cases List.mem_singleton.mp hmem
  | passed cs => cases hmem
  | brace => cases hmem

/-! ## Places between characters -/

/-- Moving over the bytes of a character. -/
theorem bytes_skip_char (ch : Char) (cs : List Char) (pos : Nat) (prev : Option Char) (n : Nat) :
    (Cursor.mk (ch :: cs) pos prev).bytes.skip (ch.utf8Size + n) =
      (Cursor.mk cs (pos + ch.utf8Size) (some ch)).bytes.skip n := by
  -- stated over any bytes, since the encoding of a character is no closed list
  have hskip : ∀ (l bs : List UInt8) (pos : Nat) (prev : Option UInt8),
      (BytePlace.mk (l ++ bs) pos prev).skip (l.length + n) =
        (BytePlace.mk bs (pos + l.length) (l.getLast?.or prev)).skip n := by
    intro l
    induction l with
    | nil => intro bs pos prev; rw [List.length_nil, Nat.zero_add]; rfl
    | cons b l ih =>
      intro bs pos prev
      rw [List.length_cons, Nat.succ_add, BytePlace.skip, List.cons_append]
      refine (ih bs (pos + 1) (some b)).trans ?_
      rw [Nat.add_assoc, Nat.add_comm 1, List.getLast?_cons]
      cases l.getLast? <;> rfl
  have hchar := hskip (String.utf8EncodeChar ch) (Chars.bytes cs) pos (prev.bind lastByte?)
  rw [String.length_utf8EncodeChar, ← lastByte?] at hchar
  obtain ⟨b, hb⟩ := Option.isSome_iff_exists.mp (lastByte?_isSome ch)
  rw [hb, Option.some_or] at hchar
  rw [Cursor.bytes_mk, Cursor.bytes_mk, Chars.bytes_cons, hchar, Option.bind_some, hb]

/-- A place between characters, reached byte by byte. -/
theorem bytes_skip_size (front cs : List Char) (pos : Nat) (prev : Option Char) :
    (Cursor.mk (front ++ cs) pos prev).bytes.skip (Chars.size front) =
      (Cursor.mk cs (pos + Chars.size front) (behind prev front)).bytes := by
  induction front generalizing pos prev with
  | nil => rfl
  | cons ch front ih =>
    rw [List.cons_append, Chars.size_cons, bytes_skip_char, ih, Cursor.behind_cons, Nat.add_assoc]

/-- A place between characters, reached character by character. -/
theorem advanceTo_append (front cs : List Char) (pos : Nat) (prev : Option Char) :
    Cursor.advanceTo (pos + Chars.size front) (front ++ cs) pos prev =
      ⟨cs, pos + Chars.size front, behind prev front⟩ := by
  induction front generalizing pos prev with
  | nil =>
    cases cs with
    | nil => rfl
    | cons ch cs =>
      rw [List.nil_append, Chars.size_nil, Nat.add_zero, Cursor.advanceTo,
        if_neg (Nat.lt_irrefl _)]
      rfl
  | cons ch front ih =>
    have hpos := ch.utf8Size_pos
    have hsize : pos + Chars.size (ch :: front) = pos + ch.utf8Size + Chars.size front := by
      rw [Chars.size_cons, Nat.add_assoc]
    rw [List.cons_append, Cursor.advanceTo, if_pos (by rw [hsize]; omega), hsize, ih,
      Cursor.behind_cons]

/-! ## The answers -/

/-- A template holds a start tag with a value without a name that a character of several bytes
follows at once. -/
def TemplateStumbles (source : String) : Prop :=
  ∃ ps, source.toList = Piece.written ps ∧ PiecesFit ps ∧ ∃ p ∈ ps, p.cuts = true

/-- Splitting a file comes to such a tag. -/
def FileStumbles (source : String) : Prop :=
  source.utf8ByteSize ≤ maxFileSize ∧ ComesToStumble (⟨source.toList, 0, none⟩, {})

/-- Markup is read in whole characters, and reading it ends, up to the first value without a name
that a character of several bytes follows at once. There it stops. -/
structure InWholeCharacters (source : String) (base : Nat) : Prop where
  attributes_stop : ∀ front cs, source.toList = front ++ cs →
    (Bytes.attributes source base (Chars.size front) = none ↔ Stumbles cs)
  attributes_read : ∀ front cs, source.toList = front ++ cs → ∀ attrs stop,
    Bytes.attributes source base (Chars.size front) = some (attrs, stop) →
      (∀ a ∈ attrs, a.IsWhole source base) ∧
      ∃ c, attributes base (Cursor.ofOffset source (Chars.size front)) = (attrs, c) ∧
        c.map Cursor.pos = stop
  nodes_stop : Bytes.nodes source base = none ↔ TemplateStumbles source
  nodes_read : ∀ ns, Bytes.nodes source base = some ns →
    (∀ a, Node.attribute a ∈ ns → a.IsWhole source base) ∧ nodes source base = ns
  split_stop : Bytes.split source = none ↔ FileStumbles source
  split_read : ∀ blocks, Bytes.split source = some blocks → split source = blocks

theorem standsIn_ofText (source : String) : (Cursor.mk source.toList 0 none).StandsIn source :=
  Cursor.Ahead.refl _

theorem standsIn_of_append {front cs : List Char} (hsource : source.toList = front ++ cs) :
    (Cursor.mk cs (Chars.size front) (behind none front)).StandsIn source :=
  ⟨front, hsource, (Nat.zero_add _).symm⟩

/-- Skipping whole characters leads to the place behind them. -/
theorem skip_ofText {front cs : List Char} (hsource : source.toList = front ++ cs) :
    (BytePlace.ofText source).skip (Chars.size front) =
      (Cursor.mk cs (Chars.size front) (behind none front)).bytes := by
  have hskip := bytes_skip_size front cs 0 none
  rwa [← hsource, Nat.zero_add] at hskip

/-- Reading attributes byte by byte agrees with reading them by characters, unless it stumbles. -/
theorem bytes_attributes {front cs : List Char} (hsource : source.toList = front ++ cs)
    (base : Nat) :
    (Stumbles cs → Bytes.attributes source base (Chars.size front) = none) ∧
      (¬Stumbles cs → Bytes.attributes source base (Chars.size front) =
        some ((attributes base (Cursor.ofOffset source (Chars.size front))).1,
          (attributes base (Cursor.ofOffset source (Chars.size front))).2.map Cursor.pos)) := by
  -- the characters start where the bytes do
  have hcursor : Cursor.ofOffset source (Chars.size front) =
      ⟨cs, Chars.size front, behind none front⟩ := by
    have hadvance := advanceTo_append front cs 0 none
    rwa [← hsource, Nat.zero_add] at hadvance
  have hstands := standsIn_of_append hsource
  rw [Bytes.attributes, skip_ofText hsource, hcursor]
  constructor
  · intro hstumbles
    have hread : Bytes.attributesFrom source base _ = none :=
      bytes_readAttributes_of_stumbles base hstands hstumbles [] (length_lt_bytes _)
    rw [hread]
    rfl
  · intro hstumbles
    rw [bytes_attributesFrom_of_not_stumbles base hstands hstumbles, Option.map_some,
      Option.map_map]
    rfl

/-- Attributes that are read have ranges between characters. -/
theorem isWhole_of_mem_read {front cs : List Char} (hsource : source.toList = front ++ cs)
    (base : Nat) {a : Attribute}
    (ha : a ∈ (attributes base (Cursor.ofOffset source (Chars.size front))).1) :
    a.IsWhole source base := by
  obtain ⟨items, rest, rfl, hfit, hend⟩ := exists_items cs
  have hcursor : Cursor.ofOffset source (Chars.size front) =
      ⟨Item.written items ++ rest, Chars.size front, behind none front⟩ := by
    have hadvance := advanceTo_append front (Item.written items ++ rest) 0 none
    rwa [← hsource, Nat.zero_add] at hadvance
  rw [hcursor, attributes, readAttributes_items hend hfit _ _ [] (Nat.lt_succ_self _)] at ha
  exact isWhole_of_mem_attributes hsource base ha

/-- Reading nodes byte by byte agrees with reading them by characters, unless a tag cuts one in
two. -/
theorem bytes_nodes {ps : List Piece} (hsource : source.toList = Piece.written ps)
    (hfit : PiecesFit ps) (base : Nat) :
    Bytes.nodes source base =
      if ps.any Piece.cuts then none else some (Piece.nodesAll base ps) := by
  have hstands := standsIn_ofText source
  have hfuel := length_lt_bytes ⟨source.toList, 0, none⟩
  rw [hsource] at hstands hfuel
  have hread := bytes_nodesFrom_pieces base hfit 0 none [] hstands hfuel
  rw [← hsource, Nat.zero_add, List.append_nil] at hread
  -- both readings start at the beginning of the text
  have hplace : BytePlace.ofText source = (Cursor.mk source.toList 0 none).bytes := rfl
  rw [Bytes.nodes, hplace, hread]
  split
  · rfl
  · rw [Option.map_some, List.reverse_reverse]

/-- Splitting a file byte by byte agrees with splitting it by characters, unless it stumbles. -/
theorem bytes_split (source : String) :
    (FileStumbles source → Bytes.split source = none) ∧
      (¬FileStumbles source → Bytes.split source = some (split source)) := by
  have hstands := standsIn_ofText source
  have hplace : BytePlace.ofText source = (Cursor.mk source.toList 0 none).bytes := rfl
  rw [Bytes.split, split]
  -- a file that is too large is not looked at by either reading
  by_cases hsize : maxFileSize < source.utf8ByteSize
  · refine ⟨fun h => absurd h.1 (Nat.not_le.mpr hsize), fun _ => ?_⟩
    rw [if_pos hsize, if_pos hsize]
  · rw [if_neg hsize, if_neg hsize, hplace]
    refine ⟨fun h => bytes_splitFrom_of_comesToStumble hstands h.2 _, fun h => ?_⟩
    have hno : ¬ComesToStumble (⟨source.toList, 0, none⟩, {}) :=
      fun hcomes => h ⟨Nat.not_lt.mp hsize, hcomes⟩
    -- the fuel of either reading is more than it needs
    have hlen : source.toList.length < source.length + 1 := by
      rw [String.length_toList]
      exact Nat.lt_succ_self _
    exact bytes_splitFrom_of_not_comesToStumble hstands hno (length_lt_bytes _) hlen

/-- Markup is read in whole characters, and reading it ends, up to a value without a name that a
character of several bytes follows at once. -/
theorem in_whole_characters (source : String) (base : Nat) : InWholeCharacters source base := by
  obtain ⟨ps, hps, hfit⟩ := exists_pieces source.toList
  -- either reading stumbles or it agrees with the reading by characters
  constructor
  case attributes_stop =>
    intro front cs hsource
    obtain ⟨hstop, hread⟩ := bytes_attributes hsource base
    refine ⟨fun hnone => Classical.byContradiction fun hno => ?_, hstop⟩
    rw [hread hno] at hnone
    cases hnone
  case attributes_read =>
    intro front cs hsource attrs stop hsome
    obtain ⟨hstop, hread⟩ := bytes_attributes hsource base
    have hno : ¬Stumbles cs := by
      intro hstumbles
      rw [hstop hstumbles] at hsome
      cases hsome
    rw [hread hno] at hsome
    obtain ⟨rfl, rfl⟩ := Prod.mk.inj (Option.some.inj hsome)
    exact ⟨fun a ha => isWhole_of_mem_read hsource base ha, _, rfl, rfl⟩
  case nodes_stop =>
    constructor
    · intro hnone
      rw [bytes_nodes hps hfit] at hnone
      refine ⟨ps, hps, hfit, List.any_eq_true.mp ?_⟩
      refine Classical.byContradiction fun hno => ?_
      rw [if_neg hno] at hnone
      cases hnone
    · rintro ⟨qs, hqs, hfits, hcuts⟩
      rw [bytes_nodes hqs hfits, if_pos (List.any_eq_true.mpr hcuts)]
  case nodes_read =>
    intro ns hsome
    rw [bytes_nodes hps hfit] at hsome
    split at hsome
    · cases hsome
    · obtain rfl := Option.some.inj hsome
      refine ⟨fun a ha => ?_, nodes_of_pieces hfit hps base⟩
      have hps' : source.toList = [] ++ Piece.written ps := hps
      exact isWhole_of_mem_nodesAll hps' base (by rwa [Chars.size_nil, Nat.zero_add])
  case split_stop =>
    obtain ⟨hstop, hread⟩ := bytes_split source
    refine ⟨fun hnone => Classical.byContradiction fun hno => ?_, hstop⟩
    rw [hread hno] at hnone
    cases hnone
  case split_read =>
    intro blocks hsome
    obtain ⟨hstop, hread⟩ := bytes_split source
    have hno : ¬FileStumbles source := by
      intro hstumbles
      rw [hstop hstumbles] at hsome
      cases hsome
    rw [hread hno] at hsome
    exact Option.some.inj hsome

/-- There is no answer when a character of several bytes follows a value without a name at once. -/
theorem stops_inside_character :
    (Bytes.attributes "=\"x\"你>" 0 0).isNone = true ∧
      (Bytes.nodes "<a =\"x\"你>" 0).isNone = true ∧
      (Bytes.split "<a =\"x\"你>").isNone = true := by
  decide +kernel

end TextHarvest.Component
