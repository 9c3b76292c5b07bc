import Mathlib.Data.List.Basic
import Mathlib.Data.List.Induction
import TextHarvest.Collector
import TextHarvest.Proofs.Catalog

/-!
# What a collector hands out

Many workers share a collector. Each operation takes effect at once, so what happens to a collector
is a history of operations, whichever workers they come from. Between two operations that empty the
collector nothing is lost: a flush hands out each key that was merged since, in the order in which
the keys first came in and with the text that came in last.

* `getElem?_answers` — an operation answers what the collector says after those before it.
* `get?_after`, `keys_after` — texts and keys after operations that do not empty the collector.
* `exists_since` — a history is cut at the last operation that emptied the collector.
* `Agree.lastText?_perm` — merges that agree may come in any order.

Main result: `neither_loses_nor_duplicates`.
-/

namespace TextHarvest

namespace CollectorStep

/-- Whether nothing is left in a collector after an operation. -/
def clears : CollectorStep → Bool
  | .merge _ => false
  | .snapshot => false
  | .flush => true
  | .reset => true

/-- The catalog that an operation brings in. -/
def brings : CollectorStep → Catalog
  | .merge m => m
  | .snapshot => .empty
  | .flush => .empty
  | .reset => .empty

end CollectorStep

namespace Collector

/-! ## Histories -/

/-- The collector after some operations. -/
def after (c : Collector) (history : List CollectorStep) : Collector :=
  history.foldl (fun c s => (c.step s).1) c

/-- What each operation of a history answers. -/
def answers (c : Collector) : List CollectorStep → List (Option Catalog)
  | [] => []
  | s :: history => (c.step s).2 :: (c.step s).1.answers history

/-- The text of a key in the last merge that had one. -/
def lastText? (history : List CollectorStep) (k : String) : Option String :=
  history.reverse.findSome? fun s => s.brings.get? k

/-- The keys of all merges, in order and as often as they came in. -/
def mergedKeys (history : List CollectorStep) : List String :=
  history.flatMap fun s => s.brings.keys

@[simp] theorem after_nil (c : Collector) : c.after [] = c := rfl

/-- One operation and those behind it. -/
theorem after_cons (c : Collector) (s : CollectorStep) (history : List CollectorStep) :
    c.after (s :: history) = (c.step s).1.after history := rfl

/-- Operations one after the other. -/
theorem after_append (c : Collector) (h h' : List CollectorStep) :
    c.after (h ++ h') = (c.after h).after h' :=
  List.foldl_append

/-- An operation answers what the collector says after those before it. -/
theorem getElem?_answers (c : Collector) (before : List CollectorStep) (s : CollectorStep)
    (rest : List CollectorStep) :
    (c.answers (before ++ s :: rest))[before.length]? = some ((c.after before).step s).2 := by
  induction before generalizing c with
  | nil => rfl
  | cons s' before ih =>
    rw [List.cons_append, answers, List.length_cons, List.getElem?_cons_succ, ih, after_cons]

/-! ## One operation -/

/-- An operation that empties the collector leaves nothing. -/
theorem step_of_clears {s : CollectorStep} (h : s.clears = true) (c : Collector) :
    (c.step s).1 = empty := by
  cases s with
  | merge m => cases h
  | snapshot => cases h
  | flush => rfl
  | reset => rfl

/-- Any other adds what it brings. -/
theorem gathered_of_not_clears {s : CollectorStep} (h : s.clears = false) (c : Collector) :
    (c.step s).1.gathered = c.gathered.merge s.brings := by
  cases s with
  | merge m => rfl
  | snapshot => rfl
  | flush => cases h
  | reset => cases h

/-! ## Operations that do not empty the collector -/

/-- A later text counts before an earlier one. -/
theorem lastText?_cons (s : CollectorStep) (history : List CollectorStep) (k : String) :
    lastText? (s :: history) k = (lastText? history k).or (s.brings.get? k) := by
  simp [lastText?, List.findSome?_append]

/-- So does a later history. -/
theorem lastText?_append (h h' : List CollectorStep) (k : String) :
    lastText? (h ++ h') k = (lastText? h' k).or (lastText? h k) := by
  rw [lastText?, List.reverse_append, List.findSome?_append, lastText?, lastText?]

/-- A key has the text that came in last, or the one that was there. -/
theorem get?_after {since : List CollectorStep} (hsince : ∀ s ∈ since, s.clears = false)
    (c : Collector) (k : String) :
    (c.after since).gathered.get? k = (lastText? since k).or (c.gathered.get? k) := by
  induction since generalizing c with
  | nil => rfl
  | cons s since ih =>
    obtain ⟨hs, hsince⟩ := List.forall_mem_cons.mp hsince
    rw [after_cons, ih hsince, gathered_of_not_clears hs, Catalog.get?_merge, lastText?_cons,
      Option.or_assoc]

/-- New keys go behind the known ones. -/
theorem keys_merge (c d : Catalog) : (c.merge d).keys = c.keys ++ d.keys.filter (· ∉ c.keys) :=
  Catalog.keys_insertAll d.nodup_keys

/-- Without doubles nothing is erased. -/
theorem eraseDups_of_nodup {l : List String} (h : l.Nodup) : l.eraseDups = l := by
  induction l with
  | nil => rfl
  | cons a l ih =>
    obtain ⟨ha, hl⟩ := List.nodup_cons.mp h
    have hkept : l.filter (fun b => !b == a) = l := by
      rw [List.filter_eq_self]
      intro b hb
      have hne : b ≠ a := fun heq => ha (heq ▸ hb)
      simp [hne]
    rw [List.eraseDups_cons, hkept, ih hl]

/-- Distinct elements behind others add those that are new. -/
theorem eraseDups_append_of_nodup (l : List String) {m : List String} (h : m.Nodup) :
    (l ++ m).eraseDups = l.eraseDups ++ m.filter (· ∉ l.eraseDups) := by
  have hfilter : m.removeAll l = m.filter (· ∉ l.eraseDups) := by
    apply List.filter_congr
    intro k _
    simp [List.mem_eraseDups]
  rw [List.eraseDups_append, hfilter, eraseDups_of_nodup (List.filter_sublist.nodup h)]

/-- Keys keep the places in which they first came in. -/
theorem keys_after {since : List CollectorStep} (hsince : ∀ s ∈ since, s.clears = false)
    (c : Collector) :
    (c.after since).gathered.keys = (c.gathered.keys ++ mergedKeys since).eraseDups := by
  -- from the back: only the last merge is compared with what was gathered before it
  induction since using List.reverseRecOn with
  | nil =>
    have hkeys : c.gathered.keys.eraseDups = c.gathered.keys :=
      eraseDups_of_nodup c.gathered.nodup_keys
    rw [mergedKeys, List.flatMap_nil, List.append_nil, hkeys, after_nil]
  | append_singleton since s ih =>
    obtain ⟨hsince, hs⟩ := List.forall_mem_append.mp hsince
    have hmerged : mergedKeys (since ++ [s]) = mergedKeys since ++ s.brings.keys := by
      simp [mergedKeys]
    have hlast : (c.after (since ++ [s])).gathered =
        (c.after since).gathered.merge s.brings := by
      rw [after_append, after_cons, after_nil, gathered_of_not_clears (hs s List.mem_cons_self)]
    have hnodup : s.brings.keys.Nodup := s.brings.nodup_keys
    rw [hlast, keys_merge, ih hsince, hmerged, ← List.append_assoc,
      eraseDups_append_of_nodup _ hnodup]

/-! ## Whole histories -/

/-- A history is cut at the last operation that emptied the collector. -/
theorem exists_since (history : List CollectorStep) :
    ∃ earlier since, history = earlier ++ since ∧ (∀ s ∈ since, s.clears = false) ∧
      empty.after earlier = empty := by
  induction history using List.reverseRecOn with
  | nil => exact ⟨[], [], rfl, by simp, rfl⟩
  | append_singleton history s ih =>
    obtain ⟨earlier, since, rfl, hsince, hearlier⟩ := ih
    -- a flush moves everything before it to the part that is done with
    cases hs : s.clears with
    | true =>
      refine ⟨earlier ++ since ++ [s], [], by simp, by simp, ?_⟩
      rw [after_append, after_cons, after_nil, step_of_clears hs]
    | false =>
      refine ⟨earlier, since ++ [s], by simp, ?_, hearlier⟩
      exact List.forall_mem_append.mpr ⟨hsince, by simpa using hs⟩

/-- What is in a collector that was emptied by the last of some operations. -/
theorem after_of_cleared {earlier : List CollectorStep}
    (h : ∀ s ∈ earlier.getLast?, s.clears = true) : empty.after earlier = empty := by
  rcases List.eq_nil_or_concat' earlier with rfl | ⟨front, s, rfl⟩
  · rfl
  · have hs : s.clears = true := h s (by simp)
    rw [after_append, after_cons, after_nil, step_of_clears hs]

/-- A key that was brought has a last text. -/
theorem lastText?_of_merged {history : List CollectorStep} {s : CollectorStep} {k : String}
    (hs : s ∈ history) (hk : k ∈ s.brings.keys) : ∃ v, lastText? history k = some v := by
  obtain ⟨v, hv⟩ := Catalog.mem_keys_iff.mp hk
  rw [← Option.isSome_iff_exists, lastText?, List.findSome?_isSome_iff]
  exact ⟨s, List.mem_reverse.mpr hs, by rw [hv]; rfl⟩

/-- A last text was brought by a merge. -/
theorem exists_merge_of_lastText? {history : List CollectorStep} {k v : String}
    (h : lastText? history k = some v) :
    ∃ before m between, history = before ++ .merge m :: between ∧ m.get? k = some v := by
  obtain ⟨back, s, front, hsplit, hv, -⟩ := List.findSome?_eq_some_iff.mp h
  have hhistory : history = front.reverse ++ s :: back.reverse := by
    rw [← List.reverse_reverse history, hsplit]
    simp
  cases s with
  | merge m => exact ⟨_, m, _, hhistory, hv⟩
  | snapshot => cases hv
  | flush => cases hv
  | reset => cases hv

/-- The merges of a history agree on the texts of the keys that they share. -/
def Agree (history : List CollectorStep) : Prop :=
  ∀ s ∈ history, ∀ s' ∈ history, ∀ k v v', s.brings.get? k = some v → s'.brings.get? k = some v' →
    v = v'

/-- If all agree, a last text is any that was brought. -/
theorem Agree.lastText?_eq_some_iff {history : List CollectorStep} (h : Agree history)
    {k v : String} : lastText? history k = some v ↔ ∃ s ∈ history, s.brings.get? k = some v := by
  constructor
  · intro hlast
    obtain ⟨s, hs, hv⟩ := List.exists_of_findSome?_eq_some hlast
    exact ⟨s, List.mem_reverse.mp hs, hv⟩
  · rintro ⟨s, hs, hv⟩
    obtain ⟨w, hw⟩ := lastText?_of_merged hs (Catalog.mem_keys_iff.mpr ⟨v, hv⟩)
    obtain ⟨s', hs', hw'⟩ := List.exists_of_findSome?_eq_some hw
    rw [hw, h s hs s' (List.mem_reverse.mp hs') k v w hv hw']

/-- Merges that agree may come in any order. -/
theorem Agree.lastText?_perm {history other : List CollectorStep} (h : Agree history)
    (hperm : history.Perm other) (k : String) : lastText? history k = lastText? other k := by
  have hother : Agree other := fun s hs s' hs' =>
    h s (hperm.mem_iff.mpr hs) s' (hperm.mem_iff.mpr hs')
  ext v
  rw [h.lastText?_eq_some_iff, hother.lastText?_eq_some_iff]
  simp only [hperm.mem_iff]

/-- What the flushes of a history hand out. -/
structure Accounts (history : List CollectorStep) : Prop where
  /-- The first flush behind the merge of a key hands the key out, unless a reset comes between,
  with the text of the last merge of the key before the flush. -/
  returned : ∀ before m between rest k,
    history = before ++ .merge m :: between ++ .flush :: rest →
    (∀ s ∈ between, s.clears = false) → k ∈ m.keys →
    ∃ out v, (empty.answers history)[(before ++ .merge m :: between).length]? = some (some out) ∧
      out.get? k = some v ∧ lastText? (before ++ .merge m :: between) k = some v
  /-- A flush hands out no other key: it is the first one behind a merge of the key. -/
  merged : ∀ before rest out k, history = before ++ .flush :: rest →
    (empty.answers history)[before.length]? = some (some out) → k ∈ out.keys →
    ∃ earlier m between, before = earlier ++ .merge m :: between ∧
      (∀ s ∈ between, s.clears = false) ∧ k ∈ m.keys
  /-- Keys are handed out in the order in which they first came in since the last flush or
  reset. -/
  ordered : ∀ earlier since rest out, history = earlier ++ since ++ .flush :: rest →
    (∀ s ∈ earlier.getLast?, s.clears = true) → (∀ s ∈ since, s.clears = false) →
    (empty.answers history)[(earlier ++ since).length]? = some (some out) →
    out.keys = (mergedKeys since).eraseDups
  /-- Merges that agree on the texts of the keys that they share give the same texts in any
  order. -/
  unordered : (∀ s ∈ history, s.clears = false) → Agree history → ∀ other, history.Perm other →
    ∀ k, (empty.after history).gathered.get? k = (empty.after other).gathered.get? k

/-- The answer of a flush is what was gathered before it. -/
theorem eq_gathered_of_flush {before rest : List CollectorStep} {out : Catalog}
    (h : (empty.answers (before ++ .flush :: rest))[before.length]? = some (some out)) :
    out = (empty.after before).gathered := by
  rw [getElem?_answers] at h
  cases h
  rfl

/-- Texts after operations of which the last ones did not empty the collector. -/
theorem get?_after_of_mem (before : List CollectorStep) {between : List CollectorStep}
    {m : Catalog} {k : String} (hbetween : ∀ s ∈ between, s.clears = false) (hk : k ∈ m.keys) :
    ∃ v, (empty.after (before ++ .merge m :: between)).gathered.get? k = some v ∧
      lastText? (before ++ .merge m :: between) k = some v := by
  have hkept : ∀ s ∈ CollectorStep.merge m :: between, s.clears = false :=
    List.forall_mem_cons.mpr ⟨rfl, hbetween⟩
  have hmem : CollectorStep.merge m ∈ CollectorStep.merge m :: between := List.mem_cons_self
  obtain ⟨v, hv⟩ := lastText?_of_merged hmem hk
  refine ⟨v, ?_, ?_⟩
  · rw [after_append, get?_after hkept, hv, Option.some_or]
  · rw [lastText?_append, hv, Option.some_or]

/-- Every key that is in a collector was merged and not taken out since. -/
theorem exists_merge_of_mem_keys {before : List CollectorStep} {k : String}
    (h : k ∈ (empty.after before).gathered.keys) :
    ∃ earlier m between, before = earlier ++ .merge m :: between ∧
      (∀ s ∈ between, s.clears = false) ∧ k ∈ m.keys := by
  obtain ⟨earlier, since, rfl, hsince, hearlier⟩ := exists_since before
  obtain ⟨v, hv⟩ := Catalog.mem_keys_iff.mp h
  rw [after_append, hearlier, get?_after hsince] at hv
  have hlast : lastText? since k = some v := by
    rwa [show empty.gathered.get? k = none from rfl, Option.or_none] at hv
  obtain ⟨front, m, between, rfl, hm⟩ := exists_merge_of_lastText? hlast
  refine ⟨earlier ++ front, m, between, by simp, ?_, Catalog.mem_keys_iff.mpr ⟨v, hm⟩⟩
  intro s hs
  exact hsince s (List.mem_append_right _ (List.mem_cons_of_mem _ hs))

/-- Whatever the workers do and in whatever order, each key that is merged is handed out once, by
the first flush behind it. -/
theorem neither_loses_nor_duplicates (history : List CollectorStep) : Accounts history where
  returned := by
    rintro before m between rest k rfl hbetween hk
    obtain ⟨v, hget, hlast⟩ := get?_after_of_mem before hbetween hk
    exact ⟨_, v, getElem?_answers _ _ _ _, hget, hlast⟩
  merged := by
    rintro before rest out k rfl hout hk
    rw [eq_gathered_of_flush hout] at hk
    exact exists_merge_of_mem_keys hk
  ordered := by
    rintro earlier since rest out rfl hearlier hsince hout
    rw [eq_gathered_of_flush hout, after_append, after_of_cleared hearlier, keys_after hsince]
    rfl
  unordered := by
    intro hkept hagree other hperm k
    -- the order of the merges does not matter for the last text when all agree on it
    have hother : ∀ s ∈ other, s.clears = false := fun s hs => hkept s (hperm.mem_iff.mpr hs)
    rw [get?_after hkept, get?_after hother, hagree.lastText?_perm hperm]

end Collector

end TextHarvest
