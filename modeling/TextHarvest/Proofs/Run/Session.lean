import Mathlib.Algebra.GroupWithZero.Nat
import TextHarvest.Proofs.Except
import TextHarvest.Proofs.Locale.Spelled
import TextHarvest.Run.Session

/-!
# Sessions keep what they collect

Modules are handed to a session, time passes and the session is flushed, in any order. As long as
every writing succeeds, the record of the sources only grows, each writing brings it up to date with
all that was collected so far, and a session that watches leaves nothing unwritten for longer than
its delay.

* `Debouncer.Waits.sleep` — a call that waits takes effect or waits on, for so much less time.
* `gathered_step`, `record_step` — what one event does to the collected texts and to the record.
* `gathered_run`, `record_run` — the same for a course of events.
* `prompt_step`, `prompt_run` — while a session watches, everything is on record or about to be.

Main result: `keeps_collected`.
-/

namespace TextHarvest

/-! ## Calls that wait -/

namespace Debouncer

variable {α : Type} {d : Debouncer α} {spent : Nat}

/-- A call waits, was made at least some time ago and is not overdue. -/
def Waits (d : Debouncer α) (spent : Nat) : Prop :=
  ∃ due a, d.pending = some (due, a) ∧ d.now ≤ due ∧ due + spent ≤ d.now + d.delay

/-- A call starts to wait when it is made. -/
theorem waits_call (d : Debouncer α) (a : α) : (d.call a).Waits 0 :=
  ⟨d.now + d.delay, a, rfl, Nat.le_add_right _ _, Nat.le_refl _⟩

/-- No call waits for longer than the delay. -/
theorem Waits.spent_le (h : d.Waits spent) : spent ≤ d.delay := by
  obtain ⟨due, a, -, hnow, hdue⟩ := h
  omega

/-- What has waited longer has waited that long. -/
theorem Waits.mono {less : Nat} (h : d.Waits spent) (hle : less ≤ spent) : d.Waits less := by
  obtain ⟨due, a, hpending, hnow, hdue⟩ := h
  exact ⟨due, a, hpending, hnow, by omega⟩

/-- Time leaves the delay alone. -/
@[simp] theorem delay_sleep (d : Debouncer α) (span : Nat) : (d.sleep span).1.delay = d.delay := by
  simp only [sleep]
  split
  · split <;> rfl
  · rfl

/-- A call that waits takes effect when time passes, or it waits on. -/
theorem Waits.sleep (h : d.Waits spent) (span : Nat) :
    (d.sleep span).2.isSome = true ∨ (d.sleep span).1.Waits (spent + span) := by
  obtain ⟨due, a, hpending, hnow, hdue⟩ := h
  simp only [Debouncer.sleep, hpending]
  by_cases hover : due < d.now + span
  · rw [if_pos hover]
    exact Or.inl rfl
  · rw [if_neg hover]
    refine Or.inr ⟨due, a, rfl, ?_, ?_⟩
    · show d.now + span ≤ due
      omega
    · show due + (spent + span) ≤ d.now + span + d.delay
      omega

end Debouncer

namespace Run

open TextHarvest.Locale

/-! ## Courses of events -/

/-- One thing that happens to a session. -/
inductive SessionEvent where
  | transform (code path : String)
  | sleep (span : Nat)
  | flush

namespace SessionEvent

def isTransform : SessionEvent → Bool
  | .transform _ _ => true
  | .sleep _ => false
  | .flush => false

/-- The time that passes. -/
def span : SessionEvent → Nat
  | .transform _ _ => 0
  | .sleep span => span
  | .flush => 0

end SessionEvent

namespace Session

/-- The texts that a session collects from an event: those of a module that it takes in. -/
def collects (s : Session) : SessionEvent → Catalog
  | .transform code path =>
    if s.options.enabled && Scan.isSource s.root path s.options && !s.isOutput path then
      (s.harvester.harvestFile code (Path.relativeOrSelf path s.root)).catalog
    else .empty
  | .sleep _ => .empty
  | .flush => .empty

/-- The text that was collected last for a key. -/
def lastText? (s : Session) (events : List SessionEvent) (k : String) : Option String :=
  events.reverse.findSome? fun e => (s.collects e).get? k

end Session

/-- A session under way, with the files that it sees. -/
structure Course where
  session : Session
  tree : FileTree

namespace Course

def step (c : Course) : SessionEvent → Course
  | .transform code path => { c with session := (c.session.transform code path).1 }
  | .sleep span => ⟨(c.session.sleep span c.tree).1, (c.session.sleep span c.tree).2⟩
  | .flush => ⟨(c.session.flush c.tree).1, (c.session.flush c.tree).2.1⟩

def run (c : Course) (events : List SessionEvent) : Course :=
  events.foldl step c

/-- What came of the writing that an event leads to, if it leads to one. -/
def writing? (c : Course) : SessionEvent → Option (Except StoreError (Option Written))
  | .transform _ _ => none
  | .sleep span => (c.session.debouncer.bind fun d => (d.sleep span).2).map fun _ =>
      (c.session.writeGathered c.tree).2
  | .flush => some (c.session.flush c.tree).2.2

/-- Whether every writing in a course of events succeeds. -/
def allWritten : Course → List SessionEvent → Bool
  | _, [] => true
  | c, e :: events => (c.writing? e).all (·.isOk) && (c.step e).allWritten events

/-- The record of the sources as it stands. -/
def record (c : Course) : Catalog :=
  readOrEmpty c.tree c.session.sourcePath

/-- What the path of the record shows is missing or an object of texts. -/
def InOrder (c : Course) : Prop :=
  Spells (c.tree.lookup? c.session.sourcePath) c.record

/-- The record has the text that was collected last for each key. -/
def Has (c : Course) (s : Session) (events : List SessionEvent) : Prop :=
  ∀ k v, s.lastText? events k = some v → c.record.get? k = some v

variable {c : Course} {e : SessionEvent} {events : List SessionEvent}

/-- A record that spells a catalog is in order. -/
theorem inOrder_of_spells {old : Catalog}
    (h : Spells (c.tree.lookup? c.session.sourcePath) old) : c.InOrder := by
  unfold InOrder record
  rw [h.readOrEmpty_eq]
  exact h

/-! ## One event -/

/-- A session keeps what it was started with. -/
theorem setup_step (c : Course) (e : SessionEvent) :
    (c.step e).session.options = c.session.options ∧ (c.step e).session.root = c.session.root ∧
      (c.step e).session.harvester = c.session.harvester := by
  cases e with
  | transform code path =>
    simp only [step, Session.transform]
    split <;> exact ⟨rfl, rfl, rfl⟩
  | sleep span =>
    simp only [step, Session.sleep]
    split
    · exact ⟨rfl, rfl, rfl⟩
    · split <;> exact ⟨rfl, rfl, rfl⟩
  | flush => exact ⟨rfl, rfl, rfl⟩

/-- No event moves the record. -/
@[simp] theorem sourcePath_step (c : Course) (e : SessionEvent) :
    (c.step e).session.sourcePath = c.session.sourcePath := by
  obtain ⟨hoptions, hroot, -⟩ := setup_step c e
  rw [Session.sourcePath, Session.sourcePath, hoptions, hroot]

/-- Nor changes what is collected from a file. -/
@[simp] theorem collects_step (c : Course) (e : SessionEvent) :
    (c.step e).session.collects = c.session.collects := by
  obtain ⟨hoptions, hroot, hharvester⟩ := setup_step c e
  funext later
  cases later with
  | transform code path =>
    have houtput : (c.step e).session.isOutput path = c.session.isOutput path := by
      rw [Session.isOutput, Session.isOutput, hoptions, hroot]
    simp only [Session.collects, houtput, hoptions, hroot, hharvester]
  | sleep span => rfl
  | flush => rfl

/-- What an event collects is added to what was gathered. -/
theorem gathered_step (c : Course) (e : SessionEvent) :
    (c.step e).session.collector.gathered =
      c.session.collector.gathered.merge (c.session.collects e) := by
  -- only a transform gathers anything, and a flush hands out without forgetting
  cases e with
  | transform code path =>
    simp only [step, Session.transform, Session.collects]
    generalize c.session.harvester.harvestFile code _ = harvest
    split <;> rfl
  | sleep span =>
    simp only [step, Session.sleep]
    split
    · rfl
    · split <;> rfl
  | flush => rfl

/-- Only a file that is handed in brings texts. -/
theorem collects_of_not_isTransform (s : Session) (h : e.isTransform = false) :
    s.collects e = .empty := by
  cases e with
  | transform code path => cases h
  | sleep span => rfl
  | flush => rfl

/-- The files change by what is written, and by nothing else. -/
theorem tree_step (c : Course) (e : SessionEvent) :
    (c.writing? e = none ∧ (c.step e).tree = c.tree) ∨
      (c.writing? e = some (c.session.writeGathered c.tree).2 ∧
        (c.step e).tree = (c.session.writeGathered c.tree).1) := by
  cases e with
  | transform code path => exact Or.inl ⟨rfl, rfl⟩
  | sleep span =>
    simp only [writing?, step, Session.sleep]
    cases c.session.debouncer with
    | none => exact Or.inl ⟨rfl, rfl⟩
    | some d =>
      simp only [Option.bind_some]
      -- only a call that takes effect writes
      generalize d.sleep span = slept
      obtain ⟨d', _ | ⟨⟩⟩ := slept
      · exact Or.inl ⟨rfl, rfl⟩
      · exact Or.inr ⟨rfl, rfl⟩
  | flush => exact Or.inr ⟨rfl, rfl⟩

/-- A record that was in order stays so when the collected texts are written. It has these and,
where nothing was collected, what it had. -/
theorem spells_writeGathered {s : Session} {t u : FileTree} {old : Catalog} {w : Option Written}
    (hspells : Spells (t.lookup? s.sourcePath) old) (h : s.writeGathered t = (u, .ok w)) :
    ∃ new, Spells (u.lookup? s.sourcePath) new ∧
      ∀ k, new.get? k = (s.collector.gathered.get? k).or (old.get? k) := by
  unfold Session.writeGathered at h
  split at h
  · -- nothing was collected and nothing is written
    rename_i hempty
    cases h
    refine ⟨old, hspells, fun k => ?_⟩
    cases hget : s.collector.gathered.get? k with
    | none => rfl
    | some v =>
      have hsome := Catalog.isEmpty_eq_false_iff.mpr ⟨k, v, hget⟩
      rw [hempty] at hsome
      cases hsome
  · split at h
    · rename_i hwrite
      cases h
      exact hspells.writeSource hwrite
    · cases h

/-- What an event makes of the record: it takes in all that was collected, or it stays. -/
theorem record_step (horder : c.InOrder) (hok : (c.writing? e).all (·.isOk) = true) :
    (c.step e).InOrder ∧ ∀ k, (c.step e).record.get? k =
      if (c.writing? e).isSome then
        (c.session.collector.gathered.get? k).or (c.record.get? k)
      else c.record.get? k := by
  -- either the event writes nothing, or it writes what the session has gathered
  rcases tree_step c e with ⟨hnone, htree⟩ | ⟨hwriting, htree⟩
  · rw [hnone]
    unfold InOrder record
    rw [htree, sourcePath_step]
    exact ⟨horder, fun _ => rfl⟩
  · generalize hresult : c.session.writeGathered c.tree = result at hwriting htree
    obtain ⟨u, failure | w⟩ := result
    · rw [hwriting] at hok
      cases hok
    · obtain ⟨new, hspells, hget⟩ := spells_writeGathered horder hresult
      have htree' : (c.step e).tree = u := htree
      rw [← sourcePath_step c e, ← htree'] at hspells
      refine ⟨inOrder_of_spells hspells, fun k => ?_⟩
      rw [hwriting, record, hspells.readOrEmpty_eq, hget k]
      rfl

/-! ## The course of a session -/

@[simp] theorem run_nil (c : Course) : c.run [] = c := rfl

@[simp] theorem run_cons (c : Course) (e : SessionEvent) (events : List SessionEvent) :
    c.run (e :: events) = (c.step e).run events := rfl

/-- Events one after the other. -/
theorem run_append (c : Course) (before after : List SessionEvent) :
    c.run (before ++ after) = (c.run before).run after :=
  List.foldl_append

/-- Every writing succeeds: that of the first event and those of the others. -/
theorem allWritten_cons : c.allWritten (e :: events) = true ↔
    (c.writing? e).all (·.isOk) = true ∧ (c.step e).allWritten events = true := by
  rw [allWritten, Bool.and_eq_true]

/-- Every writing succeeds in both parts of a course. -/
theorem allWritten_append {before after : List SessionEvent} :
    c.allWritten (before ++ after) = true ↔
      c.allWritten before = true ∧ (c.run before).allWritten after = true := by
  induction before generalizing c with
  | nil => simp [allWritten]
  | cons e before ih =>
    rw [List.cons_append, allWritten_cons, allWritten_cons, ih, run_cons, and_assoc]

/-- A session has gathered what was collected last for each key. -/
theorem gathered_run (c : Course) (events : List SessionEvent) (k : String) :
    (c.run events).session.collector.gathered.get? k =
      (c.session.lastText? events k).or (c.session.collector.gathered.get? k) := by
  induction events generalizing c with
  | nil => rfl
  | cons e events ih =>
    -- the session collects after the event as it did before, so that `lastText?` can be compared
    have hlater : (c.step e).session.lastText? events k = c.session.lastText? events k := by
      unfold Session.lastText?
      rw [collects_step]
    have hlast : c.session.lastText? (e :: events) k =
        (c.session.lastText? events k).or ((c.session.collects e).get? k) := by
      unfold Session.lastText?
      rw [List.reverse_cons, List.findSome?_append, List.findSome?_singleton]
    rw [run_cons, ih, gathered_step, Catalog.get?_merge, hlater, hlast, Option.or_assoc]

/-- The record stays in order and loses no key. -/
theorem record_run (horder : c.InOrder) (hwritten : c.allWritten events = true) :
    (c.run events).InOrder ∧ ∀ k ∈ c.record.keys, k ∈ (c.run events).record.keys := by
  induction events generalizing c with
  | nil => exact ⟨horder, fun _ hk => hk⟩
  | cons e events ih =>
    rw [allWritten_cons] at hwritten
    obtain ⟨hstep, hget⟩ := record_step horder hwritten.1
    obtain ⟨hrun, hkeys⟩ := ih hstep hwritten.2
    refine ⟨hrun, fun k hk => hkeys k ?_⟩
    rw [Catalog.mem_keys_iff] at hk ⊢
    obtain ⟨v, hv⟩ := hk
    rw [hget k, hv]
    split
    · -- a text that was collected takes the place of the one on record
      cases c.session.collector.gathered.get? k with
      | none => exact ⟨v, rfl⟩
      | some w => exact ⟨w, rfl⟩
    · exact ⟨v, rfl⟩

/-! ## Nothing is left waiting -/

/-- All that was gathered is on record. -/
def Saved (c : Course) : Prop :=
  ∀ k v, c.session.collector.gathered.get? k = some v → c.record.get? k = some v

/-- Without a file nothing is added. -/
theorem gathered_of_not_isTransform (c : Course) (h : e.isTransform = false) :
    (c.step e).session.collector.gathered = c.session.collector.gathered := by
  rw [gathered_step, collects_of_not_isTransform _ h]
  rfl

/-- A file that is handed in is not followed by a writing at once. -/
theorem not_isTransform_of_writing (h : (c.writing? e).isSome = true) :
    e.isTransform = false := by
  cases e with
  | transform code path => cases h
  | sleep span => rfl
  | flush => rfl

/-- A writing that succeeds leaves nothing unsaved. -/
theorem saved_of_writing (horder : c.InOrder) (hok : (c.writing? e).all (·.isOk) = true)
    (hwriting : (c.writing? e).isSome = true) : (c.step e).Saved := by
  intro k v hv
  rw [gathered_of_not_isTransform c (not_isTransform_of_writing hwriting)] at hv
  rw [(record_step horder hok).2 k, if_pos hwriting, hv]
  rfl

/-- What is on record stays there until something new is collected. -/
theorem Saved.step (h : c.Saved) (horder : c.InOrder)
    (hok : (c.writing? e).all (·.isOk) = true) (hquiet : e.isTransform = false) :
    (c.step e).Saved := by
  by_cases hwriting : (c.writing? e).isSome = true
  · exact saved_of_writing horder hok hwriting
  · intro k v hv
    rw [gathered_of_not_isTransform c hquiet] at hv
    rw [(record_step horder hok).2 k, if_neg hwriting]
    exact h k v hv

/-- A session that watches has everything on record, or a writing waits. -/
def Prompt (c : Course) (delay spent : Nat) : Prop :=
  ∃ d, c.session.debouncer = some d ∧ d.delay = delay ∧ (c.Saved ∨ d.Waits spent)

/-- What waits no longer than that waits no longer than more. -/
theorem Prompt.mono {delay spent less : Nat} (h : c.Prompt delay spent) (hle : less ≤ spent) :
    c.Prompt delay less := by
  obtain ⟨d, hd, hdelay, hsaved | hwaits⟩ := h
  · exact ⟨d, hd, hdelay, Or.inl hsaved⟩
  · exact ⟨d, hd, hdelay, Or.inr (hwaits.mono hle)⟩

/-- When something is collected a writing is scheduled. -/
theorem Prompt.transform {delay spent : Nat} (h : c.Prompt delay spent) (code path : String) :
    (c.step (.transform code path)).Prompt delay 0 := by
  obtain ⟨d, hd, hdelay, hstate⟩ := h
  simp only [Course.step, Session.transform]
  split
  · refine ⟨d.call (), ?_, hdelay, Or.inr (d.waits_call ())⟩
    rw [hd]
    rfl
  · -- the module is passed over, and nothing changes
    exact Prompt.mono ⟨d, hd, hdelay, hstate⟩ (Nat.zero_le _)

/-- While nothing is collected, what waits comes nearer. -/
theorem prompt_step {delay spent : Nat} (h : c.Prompt delay spent) (horder : c.InOrder)
    (hok : (c.writing? e).all (·.isOk) = true) (hquiet : e.isTransform = false) :
    (c.step e).Prompt delay (spent + e.span) := by
  obtain ⟨d, hd, hdelay, hstate⟩ := h
  cases e with
  | transform code path => cases hquiet
  | flush =>
    -- the call that waits is dropped, but its writing has taken place
    refine ⟨d.cancel, ?_, hdelay, Or.inl (saved_of_writing horder hok rfl)⟩
    simp only [step, Session.flush, hd]
    rfl
  | sleep span =>
    refine ⟨(d.sleep span).1, ?_, by rw [Debouncer.delay_sleep, hdelay], ?_⟩
    · simp only [step, Session.sleep, hd]
      generalize d.sleep span = slept
      obtain ⟨d', _ | ⟨⟩⟩ := slept <;> rfl
    · rcases hstate with hsaved | hwaits
      · exact Or.inl (hsaved.step horder hok rfl)
      · rcases hwaits.sleep span with hfires | hwaits'
        · refine Or.inl (saved_of_writing horder hok ?_)
          simp only [writing?, hd, Option.bind_some, Option.isSome_map, hfires]
        · exact Or.inr hwaits'

/-- Over a whole course nothing waits longer than the delay. -/
theorem prompt_run {delay : Nat} (h : c.Prompt delay 0) (horder : c.InOrder)
    (hwritten : c.allWritten events = true) : (c.run events).Prompt delay 0 := by
  induction events generalizing c with
  | nil => exact h
  | cons e events ih =>
    rw [allWritten_cons] at hwritten
    -- a transform starts the waiting again; with any other event it goes on
    have hstep : (c.step e).Prompt delay 0 := by
      cases hquiet : e.isTransform with
      | false => exact (prompt_step h horder hwritten.1 hquiet).mono (Nat.zero_le _)
      | true =>
        cases e with
        | transform code path => exact h.transform code path
        | sleep span => cases hquiet
        | flush => cases hquiet
    exact ih hstep (record_step horder hwritten.1).1 hwritten.2

/-- The time without modules adds up to what a call has waited. -/
theorem prompt_of_quiet {delay spent : Nat} (h : c.Prompt delay spent) (horder : c.InOrder)
    (hwritten : c.allWritten events = true) (hquiet : ∀ e ∈ events, e.isTransform = false) :
    (c.run events).Prompt delay (spent + (events.map (·.span)).sum) := by
  induction events generalizing c spent with
  | nil => exact h
  | cons e events ih =>
    rw [allWritten_cons] at hwritten
    have hstep := prompt_step h horder hwritten.1 (hquiet e List.mem_cons_self)
    have hrun := ih hstep (record_step horder hwritten.1).1 hwritten.2
      fun e he => hquiet e (List.mem_cons_of_mem _ he)
    rw [List.map_cons, List.sum_cons, ← Nat.add_assoc]
    exact hrun

/-- After a time without modules that is longer than the delay, everything is on record. -/
theorem saved_of_quiet {delay : Nat} (h : c.Prompt delay 0) (horder : c.InOrder)
    (hwritten : c.allWritten events = true) (hquiet : ∀ e ∈ events, e.isTransform = false)
    (hlong : delay < (events.map (·.span)).sum) : (c.run events).Saved := by
  obtain ⟨d, -, hdelay, hsaved | hwaits⟩ := prompt_of_quiet h horder hwritten hquiet
  · exact hsaved
  · -- a call that waits still was made no longer than the delay ago
    have hspent := hwaits.spent_le
    omega

/-- What was saved is what was collected. -/
theorem Saved.has {first : Course} (h : c.Saved)
    (hgathered : c.session.collector.gathered = (first.run events).session.collector.gathered) :
    c.Has first.session events := by
  intro k v hv
  apply h k v
  rw [hgathered, gathered_run, hv]
  rfl

/-- In a quiet course nothing is added. -/
theorem gathered_of_quiet (hquiet : ∀ e ∈ events, e.isTransform = false) :
    (c.run events).session.collector.gathered = c.session.collector.gathered := by
  induction events generalizing c with
  | nil => rfl
  | cons e events ih =>
    rw [run_cons, ih fun e he => hquiet e (List.mem_cons_of_mem _ he),
      gathered_of_not_isTransform c (hquiet e List.mem_cons_self)]

/-! ## From the start -/

section Start

variable {o : Options} {root : String} {mode : SessionMode} {first : Course}

/-- What a session starts with. -/
theorem exists_of_start (h : Session.start o root mode first.tree = .ok first.session) :
    ∃ harvester, first.session =
      { options := o
        root
        harvester
        debouncer := if mode = .watch && o.outputInSession then some { delay := o.outputDelay }
          else none } := by
  unfold Session.start at h
  cases hharvester : Harvester.ofOptions o with
  | error e =>
    rw [hharvester] at h
    cases h
  | ok harvester =>
    rw [hharvester] at h
    exact ⟨_, (Except.ok.inj h).symm⟩

/-- When a session starts there is nothing to be written. -/
theorem prompt_of_start (h : Session.start o root .watch first.tree = .ok first.session)
    (houtput : o.outputInSession = true) : first.Prompt o.outputDelay 0 := by
  obtain ⟨harvester, hsession⟩ := exists_of_start h
  refine ⟨{ delay := o.outputDelay }, ?_, rfl, Or.inl ?_⟩
  · simp [hsession, houtput]
  · intro k v hv
    rw [hsession] at hv
    cases hv

/-- A session that starts on a record that is missing or an object of texts, at any two points of
its course, if every writing succeeds. The record is of this kind still and has every key that it
had. After an event with a writing, a flush or a call that waited, it has the text collected last
for each key. While watching it does so, too, after any time without modules that is longer than the
delay. -/
theorem keeps_collected {old : Catalog} {before after : List SessionEvent}
    (hstart : Session.start o root mode first.tree = .ok first.session)
    (hfile : Spells (first.tree.lookup? (o.localePath root o.fromLang)) old)
    (hwritten : first.allWritten (before ++ after) = true) :
    (first.run (before ++ after)).InOrder ∧
    (∀ k ∈ (first.run before).record.keys, k ∈ (first.run (before ++ after)).record.keys) ∧
    (∀ e, after = [e] → ((first.run before).writing? e).isSome = true →
      (first.run (before ++ after)).Has first.session before) ∧
    (mode = .watch → o.outputInSession = true → (∀ e ∈ after, e.isTransform = false) →
      o.outputDelay < (after.map (·.span)).sum →
      (first.run (before ++ after)).Has first.session before) := by
  have hspells : Spells (first.tree.lookup? first.session.sourcePath) old := by
    obtain ⟨harvester, hsession⟩ := exists_of_start hstart
    rw [hsession]
    exact hfile
  have hfirst : first.InOrder := inOrder_of_spells hspells
  obtain ⟨hbefore, hafter⟩ := allWritten_append.mp hwritten
  -- each claim is about the second part of the events, from where the first part leads
  have horder : (first.run before).InOrder := (record_run hfirst hbefore).1
  rw [run_append]
  obtain ⟨horder', hkeys⟩ := record_run horder hafter
  refine ⟨horder', hkeys, ?_, ?_⟩
  · rintro e rfl hwriting
    rw [allWritten_cons] at hafter
    exact (saved_of_writing horder hafter.1 hwriting).has
      (gathered_of_not_isTransform _ (not_isTransform_of_writing hwriting))
  · rintro rfl houtput hquiet hlong
    have hprompt := prompt_run (prompt_of_start hstart houtput) hfirst hbefore
    exact (saved_of_quiet hprompt horder hafter hquiet hlong).has (gathered_of_quiet hquiet)

end Start

/-- A project with a record of one text. -/
def recordedProject : FileTree :=
  ⟨[(["p"], .directory), (["p", "src"], .directory), (["p", "src", "i18n"], .directory),
    (["p", "src", "i18n", "zh-cn.json"], .file (.text (encode (.ofList [("k", "再见")]))))]⟩

/-- A module with another text. -/
def greeting : SessionEvent :=
  .transform "const a = \"你好\";" "/p/src/a.ts"

/-- A text that was collected is in the record when the delay is over. -/
theorem keeps_collected_watching :
    ∃ s, Session.start {} "/p" .watch recordedProject = .ok s ∧
      "k" ∈ ((Course.mk s recordedProject).run [greeting, .sleep 1500, .sleep 501]).record.keys ∧
      ((Course.mk s recordedProject).run [greeting, .sleep 1500, .sleep 501]).record.get?
        "03tpnc" = some "你好" := by
  have hview : (Session.start {} "/p" .watch recordedProject).toOption.map (fun s =>
      ((Course.mk s recordedProject).allWritten [greeting, .sleep 1500, .sleep 501],
        decide ("k" ∈ ((Course.mk s recordedProject).run [greeting]).record.keys),
        s.lastText? [greeting] "03tpnc")) = some (true, true, some "你好") := by
    decide +kernel
  have hfile : Spells (recordedProject.lookup? (Options.localePath {} "/p" "zh-cn"))
      (.ofList [("k", "再见")]) := by
    have hlookup : recordedProject.lookup? (Options.localePath {} "/p" "zh-cn") =
        some (.file (.text (encode (.ofList [("k", "再见")])))) := by
      decide +kernel
    rw [hlookup]
    exact spells_encode _
  obtain ⟨s, hstart, heq⟩ := exists_ok_of_toOption_map hview
  rw [Prod.mk.injEq, Prod.mk.injEq] at heq
  obtain ⟨hwritten, hkey, hlast⟩ := heq
  obtain ⟨-, hkeys, -, hsettled⟩ := @keeps_collected {} "/p" .watch ⟨s, recordedProject⟩ _
    [greeting] [.sleep 1500, .sleep 501] hstart hfile hwritten
  have hquiet : ∀ e ∈ [SessionEvent.sleep 1500, .sleep 501], e.isTransform = false := by
    simp [SessionEvent.isTransform]
  have hlong : 2000 < ([SessionEvent.sleep 1500, .sleep 501].map (·.span)).sum := by
    decide
  refine ⟨s, hstart, hkeys "k" (of_decide_eq_true hkey), ?_⟩
  exact hsettled rfl rfl hquiet hlong "03tpnc" "你好" hlast

end Course

end Run

end TextHarvest
