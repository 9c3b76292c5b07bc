import TextHarvest.Proofs.FileOutcome
import TextHarvest.Proofs.Harvest.Walk
import TextHarvest.Proofs.Script.Call

/-!
# Generated calls are recognised

A text is replaced by a call of the lookup function, and the next harvest has to take this call for
one: its key is then a key, and the message behind the key is no new text. The call is written in
one place and recognised in another. Both agree for every name that is a dotted path of identifiers
and in every slot, but for one combination: in compiled render code the function is a member of the
context, and a name that has a dot itself is only recognised in full.

Main results:

* `Harvester.parseExpr_callText` — a generated call is a call expression with a path for its callee.
* `walk_isCall` — of a call that is recognised only the key is looked at.
* `walk_isCall_of_knows` — with a known key the call stays as it is and files its key again.
* `recognises_calls_iff` — which generated calls are recognised, for every slot.
-/

namespace TextHarvest

open Script Harvest

/-! ## Names of the lookup function -/

/-- A dotted path of identifiers: words without escapes, of which the first can name a variable. -/
def IsIdentifierPath (name : String) : Prop :=
  ∃ first more, name = joinDots first more ∧ (∀ w ∈ first :: more, IsWord w.toList) ∧
    first ∉ Parse.reserved ∧ first ≠ "await"

/-- A path is its segments with dots between them. -/
theorem toList_joinDots (first : String) (more : List String) :
    (joinDots first more).toList = first.toList ++ segmentText more := by
  unfold joinDots
  induction more generalizing first with
  | nil => simp [segmentText]
  | cons w more ih =>
    rw [List.foldl_cons, ih]
    simp [segmentText]

/-- The path of a member of the context. -/
theorem joinDots_context (first : String) (more : List String) :
    joinDots "_ctx" (first :: more) = "_ctx." ++ joinDots first more := by
  apply String.toList_inj.mp
  rw [String.toList_append, toList_joinDots, toList_joinDots]
  simp [segmentText]

/-- The name of the context. -/
theorem isWord_context : IsWord "_ctx".toList where
  start := ⟨'_', "ctx".toList, rfl, by decide⟩
  parts := List.all_eq_true.mp (by decide)

/-! ## The call that is written -/

/-- The texts of a call behind its key. -/
def Harvester.messages (h : Harvester) (text : String) : List String :=
  if h.options.keepDefaultMsg then [text] else []

/-- A call as it is written outside of compiled render code. -/
theorem Harvester.callText_plain (h : Harvester) {first : String} {more : List String}
    (hname : h.options.translateKey = joinDots first more) (key text : String) (quote : Quote) :
    (h.callText key text quote false).toList =
      callChars quote first more key (h.messages text) ++ [')'] := by
  unfold Harvester.callText Harvester.messages
  cases h.options.keepDefaultMsg <;>
    simp [hname, toList_joinDots, callChars, furtherText]

/-- And inside, where the function is a member of the context. -/
theorem Harvester.callText_render (h : Harvester) {first : String} {more : List String}
    (hname : h.options.translateKey = joinDots first more) (key text : String) (quote : Quote) :
    (h.callText key text quote true).toList =
      callChars quote "_ctx" (first :: more) key (h.messages text) ++ [')'] := by
  have hsegments : segmentText (first :: more) = '.' :: (first.toList ++ segmentText more) := rfl
  unfold Harvester.callText Harvester.messages
  cases h.options.keepDefaultMsg <;>
    simp [hname, hsegments, toList_joinDots, callChars, furtherText]

/-- The path by which a generated call goes. -/
def Harvester.callPath (h : Harvester) (inRender : Bool) : String :=
  if inRender then "_ctx." ++ h.options.translateKey else h.options.translateKey

/-- A generated call is a call expression, with the key and the message for its arguments. -/
theorem Harvester.parseExpr_callText (h : Harvester)
    (hpath : IsIdentifierPath h.options.translateKey) (key text : String) (quote : Quote)
    (inRender : Bool) :
    ∃ t, parseExpr (h.callText key text quote inRender) = .ok t ∧
      IsCall t (h.callPath inRender) (some key :: (h.messages text).map some)
        (Chars.size (h.callText key text quote inRender).toList) := by
  obtain ⟨first, more, hname, hwords, hfirst, hawait⟩ := hpath
  cases inRender with
  | false =>
    have hcall := parseExpr_call hwords hfirst hawait quote key (h.messages text)
      (h.callText_plain hname key text quote)
    rw [← hname] at hcall
    exact hcall
  | true =>
    -- in a render function the context is the first segment
    have hwords' : ∀ w ∈ "_ctx" :: first :: more, IsWord w.toList := by
      intro w hw
      rcases List.mem_cons.mp hw with rfl | hw
      · exact isWord_context
      · exact hwords w hw
    have hcall := parseExpr_call hwords' (by decide) (by decide) quote key (h.messages text)
      (h.callText_render hname key text quote)
    rw [joinDots_context, ← hname] at hcall
    exact hcall

/-! ## Recognising the call -/

namespace Exclusion

/-- The last segment begins behind the last dot. -/
theorem takeWhile_reverse_append {name : String} (hname : '.' ∉ name.toList) (front : List Char) :
    (name.toList.reverse ++ front).takeWhile (· != '.') =
      name.toList.reverse ++ front.takeWhile (· != '.') := by
  apply List.takeWhile_append_of_pos
  intro c hc
  have hne : c ≠ '.' := by
    rintro rfl
    exact hname (List.mem_reverse.mp hc)
  simpa using hne

/-- A name without dots is its own last segment. -/
theorem terminalSegment_of_no_dot {name : String} (hname : '.' ∉ name.toList) :
    terminalSegment name = name := by
  have hall := takeWhile_reverse_append hname []
  unfold terminalSegment
  rw [List.append_nil] at hall
  rw [hall]
  simp

/-- A member of the context has its own name for the last segment. -/
theorem terminalSegment_context {name : String} (hname : '.' ∉ name.toList) :
    terminalSegment ("_ctx." ++ name) = name := by
  have hall := takeWhile_reverse_append hname ("_ctx.".toList.reverse)
  have hcontext : "_ctx.".toList.reverse.takeWhile (· != '.') = [] := by decide
  unfold terminalSegment
  rw [String.toList_append, List.reverse_append, hall, hcontext]
  simp

/-- A call by the full name of the lookup function is recognised. -/
theorem isLookupCall_self (e : Exclusion) : e.isLookupCall e.translateKey = true := by
  unfold isLookupCall
  split
  · exact beq_self_eq_true _
  · next hdot =>
    rw [terminalSegment_of_no_dot (by simpa using hdot)]
    exact beq_self_eq_true _

/-- A call of the lookup function is left alone. -/
theorem isExcludedCall_of_terminal {e : Exclusion} {name : String}
    (h : terminalSegment name = e.translateKey ∨ name = e.translateKey) :
    e.isExcludedCall name = true := by
  unfold isExcludedCall lists
  rcases h with h | h <;> simp [h]

/-- A lookup function that is a member of the context is recognised by its last segment, so just
when its own name has no dot. -/
theorem isLookupCall_context (e : Exclusion) :
    e.isLookupCall ("_ctx." ++ e.translateKey) = true ↔ '.' ∉ e.translateKey.toList := by
  unfold isLookupCall
  by_cases hdot : '.' ∈ e.translateKey.toList
  · have hne : "_ctx." ++ e.translateKey ≠ e.translateKey := by
      intro heq
      have hlength := congrArg String.length heq
      rw [String.length_append] at hlength
      have hcontext : "_ctx.".length = 5 := rfl
      omega
    simp [hdot, hne]
  · simp [hdot, terminalSegment_context hdot]

end Exclusion

/-- A generated text is read as a call of the lookup function: its callee goes by a path, and by
this path the call asks for a lookup and is left alone otherwise. -/
def Harvester.Recognises (h : Harvester) (call : String) : Prop :=
  ∃ span callee args path, parseExpr call = .ok (.node (.call false) span (callee :: args)) ∧
    callee.path? = some path ∧ h.exclusion.isLookupCall path = true ∧
      h.exclusion.isExcludedCall path = true

/-- The next harvest looks at the key of a call and at nothing else of it. -/
def Harvester.LooksAtKey (h : Harvester) (call key : String) : Prop :=
  ∀ quote, ∃ span count, h.harvestExpr call quote = .ok (Harvest.ofActions
    (Site.constantArgument { harvester := h, source := call.toList, quote } span (some key) count))

/-- A call is recognised just when its path is. -/
theorem recognises_iff {h : Harvester} {call path : String} {t : Tree}
    {values : List (Option String)} {stop : Nat} (hparse : parseExpr call = .ok t)
    (ht : IsCall t path values stop) : h.Recognises call ↔
      h.exclusion.isLookupCall path = true ∧ h.exclusion.isExcludedCall path = true := by
  obtain ⟨start, stop, hcallee, hargs⟩ := ht
  constructor
  · rintro ⟨span, callee', args', path', hparse', hpath', hlookup, hexcluded⟩
    rw [hparse] at hparse'
    -- the module has one call only, so it is the one that was read
    obtain ⟨-, rfl, -⟩ : _ ∧ _ = callee' ∧ _ := by simpa using hparse'
    rw [hcallee.path?] at hpath'
    obtain rfl := Option.some.inj hpath'
    exact ⟨hlookup, hexcluded⟩
  · rintro ⟨hlookup, hexcluded⟩
    exact ⟨_, _, _, path, hparse, hcallee.path?, hlookup, hexcluded⟩

/-! ## Harvesting the call -/

/-- A path holds no texts. -/
theorem walk_isDotted {e : Tree} {p : String} (he : IsDotted e p) (site : Site) :
    walk site .plain e = [] := by
  induction he with
  | head n span => rfl
  | member n span _ ih =>
    unfold walk
    simp only [enter, visits, List.map_cons, List.map_nil, walkAll, Site.visit, leave]
    rw [ih]
    rfl

/-- In a call that is left alone a literal is left alone. -/
theorem walk_isLiteral {t : Tree} {value : Option String} (ht : IsLiteral t value) {site : Site}
    (hcall : site.call.any site.harvester.exclusion.isExcludedCall = true) :
    walk site .plain t = [] := by
  obtain ⟨span, rfl⟩ := ht
  unfold walk
  have htexts : site.takesTexts = false := by
    simp [Site.takesTexts, Exclusion.isExcluded, hcall]
  cases value with
  | none => rfl
  | some v =>
    simp [enter, visits, leave, Role.plain, Site.literal, Site.takesLiteral, htexts]

/-- The messages of such a call are left alone. -/
theorem walkAll_isLiteral {ts : List Tree} {values : List (Option String)}
    (hts : List.Forall₂ IsLiteral ts values) {site : Site}
    (hcall : site.call.any site.harvester.exclusion.isExcludedCall = true) :
    walkAll (ts.map fun _ => site.visit) ts = [] := by
  induction hts with
  | nil => rfl
  | cons ht _ ih =>
    simp only [List.map_cons, walkAll, Site.visit] at ih ⊢
    rw [walk_isLiteral ht hcall, ih]
    rfl

/-- Of a call that is recognised only the key is looked at. -/
theorem walk_isCall {t : Tree} {path : String} {key : Option String} {values : List (Option String)}
    {stop : Nat} (ht : IsCall t path (key :: values) stop) (site : Site)
    (hlookup : site.harvester.exclusion.isLookupCall path = true)
    (hexcluded : site.harvester.exclusion.isExcludedCall path = true) :
    ∃ span count, walk site .plain t = site.constantArgument span key count := by
  obtain ⟨start, stop, hcallee, hargs⟩ := ht
  obtain _ | ⟨⟨span, rfl⟩, hmessages⟩ := hargs
  rename_i callee messages
  refine ⟨span, (Script.Tree.node (.strLit key) span [] :: messages).length, ?_⟩
  have hinner : (site.within (some path)).call.any
      (site.within (some path)).harvester.exclusion.isExcludedCall = true := hexcluded
  unfold walk
  simp only [enter, visits, visitArguments, hcallee.path?, hlookup, if_true, leave, walkAll,
    Site.visit, List.nil_append, List.map_cons, List.drop_succ_cons, List.drop_zero]
  rw [walk_isDotted hcallee]
  -- the messages behind the key stand inside an excluded call, so nothing in them is touched
  have hrest := walkAll_isLiteral hmessages hinner
  simp only [Site.visit] at hrest
  rw [hrest]
  simp [walk, enter, visits, leave]
  rfl

/-- A key that a later harvest finds as it is: it is not blank at its ends, and its text is
known. -/
structure Harvester.Knows (h : Harvester) (key text : String) : Prop where
  trimmed : Text.trim key = key
  nonempty : key ≠ ""
  text : h.knownText key = some text

/-- A key that is known is filed again and left as it is. -/
theorem constantArgument_of_knows {site : Site} {key text : String}
    (hknows : site.harvester.Knows key text) (span : Span) (count : Nat) :
    site.constantArgument span (some key) count = [.file key text] := by
  have hsome : (key == "") = false := beq_eq_false_iff_ne.mpr hknows.nonempty
  rw [Site.constantArgument]
  simp [hknows.trimmed, hsome, hknows.text]

/-- Of a call that is recognised and has a known key nothing is changed, and the key is filed
again. -/
theorem walk_isCall_of_knows {t : Tree} {path key text : String} {values : List (Option String)}
    {stop : Nat} (ht : IsCall t path (some key :: values) stop) {site : Site}
    (hlookup : site.harvester.exclusion.isLookupCall path = true)
    (hexcluded : site.harvester.exclusion.isExcludedCall path = true)
    (hknows : site.harvester.Knows key text) : walk site .plain t = [.file key text] := by
  obtain ⟨span, count, hwalk⟩ := walk_isCall ht site hlookup hexcluded
  rw [hwalk, constantArgument_of_knows hknows]

/-- An expression that is a recognised call has its key looked at and nothing else. -/
theorem looksAtKey {h : Harvester} {call path key : String} {values : List (Option String)}
    {t : Tree} {stop : Nat} (hparse : parseExpr call = .ok t)
    (ht : IsCall t path (some key :: values) stop)
    (hlookup : h.exclusion.isLookupCall path = true)
    (hexcluded : h.exclusion.isExcludedCall path = true) : h.LooksAtKey call key := by
  intro quote
  obtain ⟨span, count, hwalk⟩ := walk_isCall ht
    { harvester := h, source := call.toList, quote } hlookup hexcluded
  refine ⟨span, count, ?_⟩
  rw [Harvester.harvestExpr, hparse, Except.map, hwalk]

/-! ## The calls of all slots -/

namespace Harvest

/-- Whether what stands in a slot is compiled render code. -/
def Slot.inRender : Slot → Bool
  | .plain => false
  | .attribute => false
  | .property => true
  | .text _ => true

/-- What stands before and behind a call in a slot. -/
def Slot.around : Slot → String × String
  | .plain => ("", "")
  | .attribute => ("\x7b", "\x7d")
  | .property => ("", "")
  | .text false => ("", "")
  | .text true => ("", ", " ++ Nat.repr textFlag)

/-- What replaces a text is a call with what the slot has around it. -/
theorem replacement_eq (site : Site) (text : String) (slot : Slot) :
    site.replacement text slot =
      slot.around.1 ++ site.callOf text site.quote slot.inRender ++ slot.around.2 := by
  cases slot with
  | text sole =>
    cases sole <;> simp [Site.replacement, Slot.around, Slot.inRender, String.append_assoc]
  | _ => simp [Site.replacement, Slot.around, Slot.inRender]

/-- A chunk of a template is replaced by a call outside of compiled render code. -/
theorem replace_chunk {site : Site} {c : Script.Chunk} {span : Span} {new : String}
    (h : .replace span new ∈ site.chunk c) :
    ∃ text, new = "$\x7b" ++ site.callOf text .single false ++ "\x7d" := by
  rw [Site.chunk.eq_def] at h
  cases hcooked : c.cooked with
  | none => simp [hcooked] at h
  | some cooked =>
    simp only [hcooked] at h
    split at h
    · split at h
      · simp only [Site.file, List.mem_append, List.mem_cons, List.not_mem_nil, or_false] at h
        -- filing a text and replacing it are different actions; only the last of them writes
        rcases h with (h | h) | h
        · exact Action.noConfusion h
        · exact Action.noConfusion h
        · cases h
          exact ⟨_, rfl⟩
      · simp at h
    · simp at h

end Harvest

/-- How the call that is written for a text is read again: it is recognised under a condition, and
what is recognised has its key looked at and nothing else. -/
structure Harvester.ReadAgain (h : Harvester) (call key : String) (condition : Prop) : Prop where
  recognised : h.Recognises call ↔ condition
  keyOnly : h.Recognises call → ∀ known, (h.withKnown known).LooksAtKey call key

/-- The path of a generated call is that of a lookup just when the name of the function has no dot
or the call is outside of compiled render code. -/
theorem isLookupCall_callPath_iff {h : Harvester}
    (hname : h.exclusion.translateKey = h.options.translateKey) (inRender : Bool) :
    (h.exclusion.isLookupCall (h.callPath inRender) = true ∧
        h.exclusion.isExcludedCall (h.callPath inRender) = true) ↔
      ('.' ∈ h.options.translateKey.toList → inRender = false) := by
  unfold Harvester.callPath
  rw [← hname]
  -- behind `_ctx.` the name is looked up only when it has no dot of its own
  cases inRender with
  | false =>
    have hlookup := h.exclusion.isLookupCall_self
    have hexcluded : h.exclusion.isExcludedCall h.exclusion.translateKey = true :=
      Exclusion.isExcludedCall_of_terminal (Or.inr rfl)
    simp [hlookup, hexcluded]
  | true =>
    have hlookup := h.exclusion.isLookupCall_context
    simp only [if_true, hlookup]
    constructor
    · rintro ⟨hdot, -⟩ hmem
      exact absurd hmem hdot
    · intro hdot
      have hno : '.' ∉ h.exclusion.translateKey.toList := fun hmem => Bool.noConfusion (hdot hmem)
      exact ⟨hno, Exclusion.isExcludedCall_of_terminal
        (Or.inl (Exclusion.terminalSegment_context hno))⟩

/-- How a generated call is read again, in render code and outside of it. -/
theorem readAgain_callText {h : Harvester} (hpath : IsIdentifierPath h.options.translateKey)
    (hname : h.exclusion.translateKey = h.options.translateKey) (key text : String) (quote : Quote)
    (inRender : Bool) : h.ReadAgain (h.callText key text quote inRender) key
      ('.' ∈ h.options.translateKey.toList → inRender = false) := by
  obtain ⟨t, hparse, ht⟩ := h.parseExpr_callText hpath key text quote inRender
  refine ⟨?_, ?_⟩
  · rw [recognises_iff hparse ht, isLookupCall_callPath_iff hname]
  · intro hrecognised known
    obtain ⟨hlookup, hexcluded⟩ := (recognises_iff hparse ht).mp hrecognised
    exact looksAtKey hparse ht hlookup hexcluded

/-- **Generated calls are recognised, but for dotted names in render code.** The call that is
written for a text, in whatever slot, is an expression whose callee goes by a path. By this path it
is taken for a call of the lookup function just when the name of the function has no dot or the slot
is outside of compiled render code, and then a later harvest looks at its key and at nothing else.
A call in a template chunk is always recognised. -/
theorem recognises_calls_iff {site : Site} (hpath : IsIdentifierPath site.options.translateKey)
    (hname : site.harvester.exclusion.translateKey = site.options.translateKey) :
    (∀ text slot, ∃ call, site.replacement text slot = slot.around.1 ++ call ++ slot.around.2 ∧
      site.harvester.ReadAgain call (site.harvester.keyFor text)
        ('.' ∈ site.options.translateKey.toList → slot.inRender = false)) ∧
    ∀ c span new, .replace span new ∈ site.chunk c → ∃ text call,
      new = "$\x7b" ++ call ++ "\x7d" ∧
        site.harvester.ReadAgain call (site.harvester.keyFor text) True := by
  constructor
  · intro text slot
    exact ⟨_, replacement_eq site text slot,
      readAgain_callText hpath hname (site.harvester.keyFor text) text site.quote slot.inRender⟩
  · intro c span new hnew
    obtain ⟨text, hnew⟩ := replace_chunk hnew
    -- a chunk is replaced by a plain call with single quotes, whatever the quotes around it
    have hread := readAgain_callText hpath hname (site.harvester.keyFor text) text .single false
    refine ⟨text, _, hnew, ?_, hread.keyOnly⟩
    exact iff_true_intro (hread.recognised.mpr fun _ => rfl)

/-- A name with a dot, at the place of a property of render code and at that of a plain literal. -/
theorem recognises_calls_iff_dotted : ∃ h,
    Harvester.ofOptions { translateKey := "i18n.t" } = .ok h ∧
    IsIdentifierPath h.options.translateKey ∧ h.exclusion.translateKey = h.options.translateKey ∧
    h.Recognises (Site.replacement { harvester := h, source := [], quote := .double } "标题" .plain) ∧
    ¬h.Recognises
      (Site.replacement { harvester := h, source := [], quote := .double } "标题" .property) := by
  obtain ⟨h, hh⟩ := Harvester.exists_ofOptions (o := { translateKey := "i18n.t" }) rfl
  have hmade := Harvester.made_of_ofOptions hh
  have hkey : h.options.translateKey = "i18n.t" := by
    rw [hmade.options]
  have hpath : IsIdentifierPath h.options.translateKey := by
    rw [hkey]
    refine ⟨"i18n", ["t"], rfl, ?_, by decide, by decide⟩
    intro w hw
    simp only [List.mem_cons, List.not_mem_nil, or_false] at hw
    rcases hw with rfl | rfl
    · exact ⟨⟨'i', "18n".toList, rfl, by decide⟩, List.all_eq_true.mp (by decide)⟩
    · exact ⟨⟨'t', [], rfl, by decide⟩, List.all_eq_true.mp (by decide)⟩
  -- the plain call is found again; behind the name of an object the dotted one is not
  have hcalls := (@recognises_calls_iff { harvester := h, source := [], quote := .double }
    hpath hmade.translateKey).1 "标题"
  have hdot : '.' ∈ h.options.translateKey.toList := by
    rw [hkey]
    decide
  obtain ⟨plain, hplain, hread⟩ := hcalls .plain
  obtain ⟨property, hproperty, hread'⟩ := hcalls .property
  refine ⟨h, hh, hpath, hmade.translateKey, ?_, ?_⟩
  · have hsame : Site.replacement { harvester := h, source := [], quote := .double } "标题" .plain =
        plain := by simpa [Slot.around] using hplain
    rw [hsame]
    exact hread.recognised.mpr fun _ => rfl
  · have hsame :
        Site.replacement { harvester := h, source := [], quote := .double } "标题" .property =
        property := by simpa [Slot.around] using hproperty
    rw [hsame]
    intro hrecognised
    exact Bool.noConfusion (hread'.recognised.mp hrecognised hdot)

/-! ## A call that is not recognised -/

/-- Every generated call is recognised. -/
def Harvester.RecognisesCalls (h : Harvester) : Prop :=
  ∀ (key text : String) (quote : Quote) (inRender : Bool),
    h.Recognises (h.callText key text quote inRender)

/-- The path that is called. -/
def calleePath? (code : String) : Option String :=
  match parseExpr code with
  | .ok (.node _ _ (callee :: _)) => callee.path?
  | _ => none

/-- The function is a member of the context in render code, and the name of the member is not the
dotted name that is looked for. -/
theorem not_recognisesCalls_dotted : ∃ h,
    Harvester.ofOptions { translateKey := "i18n.t" } = .ok h ∧ ¬h.RecognisesCalls := by
  have heval : (Harvester.ofOptions { translateKey := "i18n.t" }).toOption.map (fun h =>
      (calleePath? (h.callText "03o396" "标题" .double true)).map h.exclusion.isLookupCall) =
        some (some false) := by
    decide +kernel
  obtain ⟨h, hh, hlookup⟩ := exists_ok_of_toOption_map heval
  refine ⟨h, hh, ?_⟩
  intro hall
  obtain ⟨span, callee, args, path, hparse, hpath, htrue, -⟩ := hall "03o396" "标题" .double true
  simp [calleePath?, hparse, hpath, htrue] at hlookup

end TextHarvest
