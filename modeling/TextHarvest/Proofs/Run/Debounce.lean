import Mathlib.Data.List.Chain
import Mathlib.Data.List.Nodup
import TextHarvest.Run.Tasks

/-!
# Debouncing runs the calls that are followed by quiet

Calls and cancels come in the order of time, none of them at the very moment at which an action is
due. The tasks that a debouncer has spawned and aborted then take exactly the actions of the calls
with no other event before their deadline: each once, at its deadline, and in the order of the calls.

The handle that is kept is that of the only task that may still wake, since every other one has been
aborted by the event right after its call. When that event comes too late, so do all others.

* `Handles.task_cons` — what becomes of a task: it is spawned by an event and aborted by the next
  one, or all of this happens later.
* `undisturbed` — the calls that are followed by quiet, at their deadlines; `mem_undisturbed_iff`
  says which they are.
* `mem_undisturbed_of_mayWake`, `wakes_of_mem_undisturbed` — these are the tasks that wake.
* `honours_undisturbed`, `eq_undisturbed` — this is what a runtime may do, and all it may do.
* `taken_play`, `isPending_play` — a `Debouncer` does the same.

Main result: `debounces_of_honours`.
-/

namespace TextHarvest.Debouncer

variable {α : Type} {delay : Nat} {h : Handles} {e : Timed (Event α)}
  {events later : List (Timed (Event α))}

/-! ## Handles and orders -/

namespace Handles

/-- The handles when an event has been told. -/
def after (h : Handles) (e : Timed (Event α)) : Handles :=
  match e.what with
  | .call _ => { spawned := h.spawned + 1, kept := some h.spawned }
  | .cancel => { h with kept := none }

/-- An event adds its orders in front of those of later ones. -/
theorem orders_cons (delay : Nat) (h : Handles) (e : Timed (Event α))
    (later : List (Timed (Event α))) :
    orders delay h (e :: later) =
      (h.tell delay e.what).2.map (Timed.mk e.time) ++ orders delay (h.after e) later := by
  rw [orders]
  unfold after
  cases e.what <;> rfl

/-- A call spawns a task under the next number. -/
theorem mem_orders_spawn {t task sleep : Nat} {action : α} :
    ⟨t, .spawn task sleep action⟩ ∈ orders delay h (e :: later) ↔
      (e = ⟨t, .call action⟩ ∧ task = h.spawned ∧ sleep = delay) ∨
        ⟨t, .spawn task sleep action⟩ ∈ orders delay (h.after e) later := by
  rw [orders_cons, List.mem_append]
  refine or_congr_left ?_
  obtain ⟨time, what⟩ := e
  cases what with
  | call a => grind [tell, call, abortKept]
  | cancel => grind [tell, cancel, abortKept]

/-- Every event aborts the task whose handle is kept. -/
theorem mem_orders_abort {s task : Nat} :
    ⟨s, .abort task⟩ ∈ orders delay h (e :: later) ↔
      (s = e.time ∧ h.kept = some task) ∨
        ⟨s, .abort task⟩ ∈ orders delay (h.after e) later := by
  rw [orders_cons, List.mem_append]
  refine or_congr_left ?_
  obtain ⟨time, what⟩ := e
  cases what with
  | call a => grind [tell, call, abortKept]
  | cancel => grind [tell, cancel, abortKept]

/-- A handle that is kept belongs to a task that was spawned. -/
def Sound (h : Handles) : Prop :=
  ∀ task, h.kept = some task → task < h.spawned

/-- There is no handle at the start. -/
theorem sound_start : Sound {} := by
  rintro task ⟨⟩

/-- An event leaves the handle of its own task or none. -/
theorem eq_of_kept_after {task : Nat} (hkept : (h.after e).kept = some task) :
    task = h.spawned ∧ task < (h.after e).spawned := by
  unfold after at hkept ⊢
  cases hwhat : e.what with
  | call action =>
    rw [hwhat] at hkept
    obtain rfl : h.spawned = task := Option.some.inj hkept
    exact ⟨rfl, Nat.lt_succ_self _⟩
  | cancel =>
    rw [hwhat] at hkept
    cases hkept

/-- A handle is that of a task that was spawned. -/
theorem sound_after (h : Handles) (e : Timed (Event α)) : (h.after e).Sound :=
  fun _ hkept => (eq_of_kept_after hkept).2

/-- No event takes a task back. -/
theorem spawned_le_after (h : Handles) (e : Timed (Event α)) : h.spawned ≤ (h.after e).spawned := by
  unfold after
  cases e.what with
  | call action => exact Nat.le_succ _
  | cancel => exact Nat.le_refl _

/-- No number is given twice. -/
theorem spawned_le_of_spawn {t task sleep : Nat} {action : α}
    (hspawn : ⟨t, .spawn task sleep action⟩ ∈ orders delay h events) : h.spawned ≤ task := by
  induction events generalizing h with
  | nil => cases hspawn
  | cons e later ih =>
    rcases mem_orders_spawn.mp hspawn with ⟨-, rfl, -⟩ | hlater
    · exact Nat.le_refl _
    · exact (spawned_le_after h e).trans (ih hlater)

/-- Of the tasks spawned before, only the one whose handle is kept is aborted any more. -/
theorem kept_or_spawned_le_of_abort {s task : Nat}
    (habort : ⟨s, .abort task⟩ ∈ orders delay h events) :
    h.kept = some task ∨ h.spawned ≤ task := by
  induction events generalizing h with
  | nil => cases habort
  | cons e later ih =>
    rcases mem_orders_abort.mp habort with ⟨-, hkept⟩ | hlater
    · exact Or.inl hkept
    · right
      rcases ih hlater with hkept | hle
      · exact Nat.le_of_eq (eq_of_kept_after hkept).1.symm
      · exact (spawned_le_after h e).trans hle

/-- The task whose handle is kept is aborted by the next event, whatever that is, and by no other
one. -/
theorem abort_kept_iff {s task : Nat} (hkept : h.kept = some task) (hsound : h.Sound) :
    ⟨s, .abort task⟩ ∈ orders delay h events ↔ ∃ e ∈ events.head?, e.time = s := by
  cases events with
  | nil => simp [orders]
  | cons e later =>
    have hlt : task < h.spawned := hsound task hkept
    -- later on, only handles of later tasks are kept
    have hgone : ⟨s, .abort task⟩ ∉ orders delay (h.after e) later := by
      intro habort
      have hle := spawned_le_after h e
      rcases kept_or_spawned_le_of_abort habort with hagain | hfresh
      · have hnew := (eq_of_kept_after hagain).1
        omega
      · omega
    rw [mem_orders_abort, or_iff_left hgone, List.head?_cons]
    simp [hkept, eq_comm]

/-- What becomes of a task. It is spawned by the first event, and then aborted by the second one if
there is one, or the first event has nothing to do with it. -/
theorem task_cons (hsound : h.Sound) {t task sleep : Nat} {action : α} {aborted : Nat → Prop} :
    (⟨t, .spawn task sleep action⟩ ∈ orders delay h (e :: later) ∧
        ∀ s, ⟨s, .abort task⟩ ∈ orders delay h (e :: later) → aborted s) ↔
      (e = ⟨t, .call action⟩ ∧ task = h.spawned ∧ sleep = delay ∧
        ∀ next ∈ later.head?, aborted next.time) ∨
      (⟨t, .spawn task sleep action⟩ ∈ orders delay (h.after e) later ∧
        ∀ s, ⟨s, .abort task⟩ ∈ orders delay (h.after e) later → aborted s) := by
  -- a task that is spawned by now or later is not the one whose handle was kept
  have hfresh : h.spawned ≤ task → ∀ s, ⟨s, .abort task⟩ ∈ orders delay h (e :: later) ↔
      ⟨s, .abort task⟩ ∈ orders delay (h.after e) later := by
    intro hle s
    rw [mem_orders_abort, or_iff_right]
    rintro ⟨-, hkept⟩
    have hlt := hsound task hkept
    omega
  rw [mem_orders_spawn, or_and_right]
  refine or_congr ?_ ?_
  · rw [and_assoc, and_assoc]
    refine and_congr_right ?_
    rintro rfl
    refine and_congr_right ?_
    rintro rfl
    have hkept : (h.after ⟨t, Event.call action⟩).kept = some h.spawned := rfl
    simp only [hfresh (Nat.le_refl _), abort_kept_iff hkept (sound_after h _)]
    grind
  · refine and_congr_right ?_
    intro hspawn
    have hle := (spawned_le_after h e).trans (spawned_le_of_spawn hspawn)
    simp only [hfresh hle]

end Handles

open Handles

/-! ## Calls that are followed by quiet -/

/-- Events in the order of time, none of them at the deadline of a call that waits. A call waits
until the next event, so this can only be the call right before. -/
structure WellTimed (delay : Nat) (events : List (Timed (Event α))) : Prop where
  inOrder : events.Pairwise (·.time ≤ ·.time)
  noTie : events.IsChain fun e next => ∀ action, e.what = .call action →
    next.time ≠ e.time + delay

namespace WellTimed

/-- Later events are as far apart as all of them. -/
theorem tail (hwell : WellTimed delay (e :: later)) : WellTimed delay later :=
  ⟨hwell.inOrder.of_cons, hwell.noTie.of_cons⟩

/-- The first event is the earliest. -/
theorem le_of_mem (hwell : WellTimed delay (e :: later)) {e' : Timed (Event α)} (he' : e' ∈ later) :
    e.time ≤ e'.time :=
  List.rel_of_pairwise_cons hwell.inOrder he'

/-- The next event is the one that comes first. -/
theorem forall_iff_head? (hwell : WellTimed delay events) {due : Nat} :
    (∀ e ∈ events, due ≤ e.time) ↔ ∀ next ∈ events.head?, due ≤ next.time := by
  cases events with
  | nil => simp
  | cons e later =>
    rw [List.forall_mem_cons, List.head?_cons]
    constructor
    · rintro ⟨he, -⟩ next hnext
      obtain rfl : e = next := Option.some.inj hnext
      exact he
    · intro hhead
      have he : due ≤ e.time := hhead e rfl
      exact ⟨he, fun e' he' => he.trans (hwell.le_of_mem he')⟩

/-- An event that does not come before a deadline comes behind it. -/
theorem lt_of_le {t : Nat} {action : α} (hwell : WellTimed delay (⟨t, .call action⟩ :: later))
    (hquiet : ∀ e ∈ later, t + delay ≤ e.time) : ∀ e ∈ later, t + delay < e.time := by
  cases later with
  | nil => simp
  | cons next later =>
    have hnext : t + delay < next.time := by
      have hle := hquiet next List.mem_cons_self
      have hne := (List.isChain_cons_cons.mp hwell.noTie).1 action rfl
      simp only at hne
      omega
    rw [List.forall_mem_cons]
    exact ⟨hnext, fun e he => hnext.trans_le (hwell.tail.le_of_mem he)⟩

end WellTimed

namespace Event

def isCall : Event α → Bool
  | .call _ => true
  | .cancel => false

end Event

/-- How many calls there are among events. -/
def calls (events : List (Timed (Event α))) : Nat :=
  events.countP (·.what.isCall)

/-- A call is counted. -/
theorem calls_cons_call (t : Nat) (action : α) (later : List (Timed (Event α))) :
    calls (⟨t, .call action⟩ :: later) = calls later + 1 :=
  List.countP_cons_of_pos rfl

/-- A cancel is not. -/
theorem calls_cons_cancel (t : Nat) (later : List (Timed (Event α))) :
    calls (⟨t, .cancel⟩ :: later) = calls later :=
  List.countP_cons_of_neg (by simp [Event.isCall])

/-- The calls without another event before their deadline, each with its number and at its
deadline. -/
def undisturbed (delay : Nat) : Nat → List (Timed (Event α)) → List (Timed (Nat × α))
  | _, [] => []
  | n, ⟨t, .call action⟩ :: later =>
    if ∀ e ∈ later, t + delay ≤ e.time then
      ⟨t + delay, n, action⟩ :: undisturbed delay (n + 1) later
    else undisturbed delay (n + 1) later
  | n, ⟨_, .cancel⟩ :: later => undisturbed delay n later

/-- An undisturbed call is a call of an event, with the number of calls before it. -/
theorem exists_of_mem_undisturbed {n : Nat} {x : Timed (Nat × α)}
    (hx : x ∈ undisturbed delay n events) :
    ∃ before t action later, events = before ++ ⟨t, .call action⟩ :: later ∧
      x = ⟨t + delay, n + calls before, action⟩ := by
  -- as the calls are numbered: a cancellation does not count
  fun_induction undisturbed delay n events with
  | case1 n => cases hx
  | case2 n t action later hquiet ih =>
    rcases List.mem_cons.mp hx with rfl | hlater
    · exact ⟨[], t, action, later, rfl, rfl⟩
    · obtain ⟨before, t', action', later', rfl, rfl⟩ := ih hlater
      refine ⟨⟨t, .call action⟩ :: before, t', action', later', rfl, ?_⟩
      rw [calls_cons_call, Nat.add_right_comm, Nat.add_assoc]
  | case3 n t action later hloud ih =>
    obtain ⟨before, t', action', later', rfl, rfl⟩ := ih hx
    refine ⟨⟨t, .call action⟩ :: before, t', action', later', rfl, ?_⟩
    rw [calls_cons_call, Nat.add_right_comm, Nat.add_assoc]
  | case4 n t later ih =>
    obtain ⟨before, t', action', later', rfl, rfl⟩ := ih hx
    exact ⟨⟨t, .cancel⟩ :: before, t', action', later', rfl, by rw [calls_cons_cancel]⟩

/-- A call is found by how many calls come before it. -/
theorem mem_undisturbed_iff {n t time : Nat} {action b : α} (before : List (Timed (Event α))) :
    ⟨time, n + calls before, b⟩ ∈ undisturbed delay n (before ++ ⟨t, .call action⟩ :: later) ↔
      time = t + delay ∧ b = action ∧ ∀ e ∈ later, ¬e.time < t + delay := by
  induction before generalizing n with
  | nil =>
    -- the calls behind this one have greater numbers
    have hlater : ⟨time, n, b⟩ ∉ undisturbed delay (n + 1) later := by
      intro hmem
      obtain ⟨between, _, _, _, -, heq⟩ := exists_of_mem_undisturbed hmem
      have hsame : n = n + 1 + calls between := congrArg (·.what.1) heq
      omega
    show ⟨time, n, b⟩ ∈ undisturbed delay n (⟨t, .call action⟩ :: later) ↔ _
    simp only [Nat.not_lt]
    rw [undisturbed]
    split
    · rename_i hquiet
      rw [List.mem_cons, or_iff_left hlater]
      constructor
      · intro heq
        cases heq
        exact ⟨rfl, rfl, hquiet⟩
      · rintro ⟨rfl, rfl, -⟩
        rfl
    · rename_i hloud
      exact iff_of_false hlater fun hcall => hloud hcall.2.2
  | cons e before ih =>
    obtain ⟨t', what⟩ := e
    cases what with
    | call action' =>
      have hnumber : n + calls (⟨t', .call action'⟩ :: before) = n + 1 + calls before := by
        rw [calls_cons_call]
        omega
      rw [hnumber, ← ih, List.cons_append, undisturbed]
      split
      · rw [List.mem_cons]
        refine or_iff_right ?_
        intro heq
        have hsame : n + 1 + calls before = n := congrArg (·.what.1) heq
        omega
      · exact Iff.rfl
    | cancel =>
      rw [calls_cons_cancel]
      exact ih

/-- Undisturbed calls are due one after the other, in the order in which they were made. -/
theorem pairwise_undisturbed (hwell : WellTimed delay events) (n : Nat) :
    (undisturbed delay n events).Pairwise fun x y => x.what.1 < y.what.1 ∧ x.time < y.time := by
  fun_induction undisturbed delay n events with
  | case1 n => exact .nil
  | case2 n t action later hquiet ih =>
    refine .cons ?_ (ih hwell.tail)
    intro x hx
    obtain ⟨before, t', action', later', rfl, rfl⟩ := exists_of_mem_undisturbed hx
    -- nothing follows within the delay, so the next call comes later than that
    have hlt : t + delay < t' := hwell.lt_of_le hquiet ⟨t', .call action'⟩ (by simp)
    constructor
    · show n < n + 1 + calls before
      omega
    · show t + delay < t' + delay
      omega
  | case3 n t action later hloud ih => exact ih hwell.tail
  | case4 n t later ih => exact ih hwell.tail

/-- An undisturbed call is that of the first event, or it comes later. The calls are numbered like
the tasks. -/
theorem mem_undisturbed_cons {x : Timed (Nat × α)} :
    x ∈ undisturbed delay h.spawned (e :: later) ↔
      (∃ t action, e = ⟨t, .call action⟩ ∧ (∀ e' ∈ later, t + delay ≤ e'.time) ∧
        x = ⟨t + delay, h.spawned, action⟩) ∨
      x ∈ undisturbed delay (h.after e).spawned later := by
  obtain ⟨t, what⟩ := e
  -- a call is undisturbed when nothing follows within the delay, a cancellation never is
  cases what with
  | call action =>
    rw [undisturbed]
    split
    · rename_i hquiet
      rw [List.mem_cons]
      refine or_congr_left ?_
      grind
    · rename_i hloud
      refine (or_iff_right ?_).symm
      rintro ⟨t', action', heq, hquiet, -⟩
      cases heq
      exact hloud hquiet
  | cancel =>
    rw [undisturbed]
    refine (or_iff_right ?_).symm
    rintro ⟨t', action', heq, -⟩
    cases heq

/-! ## Tasks that wake -/

/-- A task that wakes is one that may. -/
theorem Wakes.mayWake {orders : List (Timed (Order α))} {time task : Nat} {action : α}
    (hwakes : Wakes orders time task action) : MayWake orders time task action := by
  obtain ⟨t, sleep, hspawn, htime, habort⟩ := hwakes
  exact ⟨t, sleep, hspawn, htime, fun s hs => (habort s hs).le⟩

/-- Only tasks of undisturbed calls may wake. -/
theorem mem_undisturbed_of_mayWake {time task : Nat} {action : α} (hsound : h.Sound)
    (hwell : WellTimed delay events) (hwake : MayWake (orders delay h events) time task action) :
    ⟨time, task, action⟩ ∈ undisturbed delay h.spawned events := by
  obtain ⟨t, sleep, hspawn, rfl, habort⟩ := hwake
  -- on the events, for any handles that earlier ones may have left
  induction events generalizing h with
  | nil => cases hspawn
  | cons e later ih =>
    rw [mem_undisturbed_cons]
    rcases (task_cons hsound).mp ⟨hspawn, habort⟩ with ⟨rfl, rfl, rfl, hnext⟩ | ⟨hspawn', habort'⟩
    · exact Or.inl ⟨t, action, rfl, hwell.tail.forall_iff_head?.mpr hnext, rfl⟩
    · exact Or.inr (ih (sound_after h e) hwell.tail hspawn' habort')

/-- The tasks of all undisturbed calls wake. -/
theorem wakes_of_mem_undisturbed {x : Timed (Nat × α)} (hsound : h.Sound)
    (hwell : WellTimed delay events) (hx : x ∈ undisturbed delay h.spawned events) :
    Wakes (orders delay h events) x.time x.what.1 x.what.2 := by
  induction events generalizing h with
  | nil => cases hx
  | cons e later ih =>
    rcases mem_undisturbed_cons.mp hx with ⟨t, action, rfl, hquiet, rfl⟩ | hlater
    · -- the event that aborts this task comes behind its deadline
      have hnext : ∀ next ∈ later.head?, t + delay < next.time := by
        intro next hnext
        exact hwell.lt_of_le hquiet next (List.mem_of_mem_head? hnext)
      obtain ⟨hspawn, habort⟩ := (task_cons hsound).mpr (Or.inl ⟨rfl, rfl, rfl, hnext⟩)
      exact ⟨t, delay, hspawn, rfl, habort⟩
    · obtain ⟨t, sleep, hspawn, htime, habort⟩ := ih (sound_after h e) hwell.tail hlater
      obtain ⟨hspawn', habort'⟩ := (task_cons hsound).mpr (Or.inr ⟨hspawn, habort⟩)
      exact ⟨t, sleep, hspawn', htime, habort'⟩

/-! ## What a runtime does -/

/-- A runtime may take the actions of the undisturbed calls. -/
theorem honours_undisturbed (hwell : WellTimed delay events) :
    Honours (orders delay {} events) (undisturbed delay 0 events) := by
  have hpairwise := pairwise_undisturbed hwell 0
  constructor
  case inOrder => exact hpairwise.imp fun hxy => hxy.2.le
  case once => exact List.pairwise_map.mpr (hpairwise.imp fun hxy => hxy.1.ne)
  case wakes =>
    intro time task action hwakes
    exact mem_undisturbed_of_mayWake sound_start hwell hwakes.mayWake
  case mayWake =>
    intro x hx
    exact (wakes_of_mem_undisturbed sound_start hwell hx).mayWake

/-- There is nothing else that it may do. -/
theorem eq_undisturbed (hwell : WellTimed delay events) {taken : List (Timed (Nat × α))}
    (hruntime : Honours (orders delay {} events) taken) : taken = undisturbed delay 0 events := by
  have hdue := honours_undisturbed hwell
  have hperm : taken.Perm (undisturbed delay 0 events) := by
    rw [List.perm_ext_iff_of_nodup (List.Nodup.of_map _ hruntime.once)
      (List.Nodup.of_map _ hdue.once)]
    intro x
    constructor
    · intro hx
      exact mem_undisturbed_of_mayWake sound_start hwell (hruntime.mayWake x hx)
    · intro hx
      exact hruntime.wakes _ _ _ (wakes_of_mem_undisturbed sound_start hwell hx)
  -- both are in the order of time, and no two undisturbed calls are due at one time
  have htimes : ((undisturbed delay 0 events).map (·.time)).Nodup :=
    List.pairwise_map.mpr ((pairwise_undisturbed hwell 0).imp fun hxy => hxy.2.ne)
  refine List.Perm.eq_of_pairwise ?_ hruntime.inOrder hdue.inOrder hperm
  intro x y hx hy hxy hyx
  exact List.inj_on_of_nodup_map htimes (hperm.subset hx) hy (Nat.le_antisymm hxy hyx)

/-! ## At most one task waits -/

/-- Only a call spawns a task. -/
theorem Handles.mem_of_spawn {t task sleep : Nat} {action : α}
    (hspawn : ⟨t, .spawn task sleep action⟩ ∈ orders delay h events) :
    ⟨t, .call action⟩ ∈ events := by
  induction events generalizing h with
  | nil => cases hspawn
  | cons e later ih =>
    rcases mem_orders_spawn.mp hspawn with ⟨rfl, -, -⟩ | hlater
    · exact List.mem_cons_self
    · exact List.mem_cons_of_mem _ (ih hlater)

/-- Of two tasks, the one spawned first is aborted by the time at which the other one is spawned. -/
theorem exists_abort_of_lt {t t' task task' sleep sleep' : Nat} {action action' : α}
    (hwell : WellTimed delay events)
    (hspawn : ⟨t, .spawn task sleep action⟩ ∈ orders delay h events)
    (hspawn' : ⟨t', .spawn task' sleep' action'⟩ ∈ orders delay h events) (hlt : task < task') :
    ∃ s ≤ t', ⟨s, .abort task⟩ ∈ orders delay h events := by
  induction events generalizing h with
  | nil => cases hspawn
  | cons e later ih =>
    rcases mem_orders_spawn.mp hspawn with ⟨rfl, rfl, -⟩ | hlater
    · -- spawned by this event, and so aborted by the next one
      have hlater' : ⟨t', .spawn task' sleep' action'⟩ ∈
          orders delay (h.after ⟨t, .call action⟩) later := by
        rcases mem_orders_spawn.mp hspawn' with ⟨-, rfl, -⟩ | hlater'
        · exact absurd hlt (Nat.lt_irrefl _)
        · exact hlater'
      have hcall := mem_of_spawn hlater'
      cases later with
      | nil => cases hcall
      | cons next later =>
        have hkept : (h.after ⟨t, Event.call action⟩).kept = some h.spawned := rfl
        have hle : next.time ≤ t' := by
          rcases List.mem_cons.mp hcall with rfl | hmem
          · exact Nat.le_refl _
          · exact hwell.tail.le_of_mem hmem
        have habort : ⟨next.time, .abort h.spawned⟩ ∈
            orders delay (h.after ⟨t, .call action⟩) (next :: later) :=
          (abort_kept_iff hkept (sound_after h _)).mpr ⟨next, rfl, rfl⟩
        exact ⟨next.time, hle, mem_orders_abort.mpr (Or.inr habort)⟩
    · have hlater' : ⟨t', .spawn task' sleep' action'⟩ ∈ orders delay (h.after e) later := by
        rcases mem_orders_spawn.mp hspawn' with ⟨-, rfl, -⟩ | hlater'
        · have hle := (spawned_le_after h e).trans (spawned_le_of_spawn hlater)
          omega
        · exact hlater'
      obtain ⟨s, hs, habort⟩ := ih hwell.tail hlater hlater'
      exact ⟨s, hs, mem_orders_abort.mpr (Or.inr habort)⟩

/-- The task of an event waits until its sleep is over or the next event happens. -/
theorem waiting_cons (hsound : h.Sound) {time task : Nat} :
    Waiting (orders delay h (e :: later)) time task ↔
      (∃ t action, e = ⟨t, .call action⟩ ∧ task = h.spawned ∧ t ≤ time ∧ time ≤ t + delay ∧
        ∀ next ∈ later.head?, time < next.time) ∨
      Waiting (orders delay (h.after e) later) time task := by
  constructor
  · rintro ⟨t, sleep, action, hspawn, ht, hsleep, habort⟩
    -- the task of this event, or one of a later event
    rcases (task_cons hsound).mp ⟨hspawn, habort⟩ with ⟨rfl, rfl, rfl, hnext⟩ | ⟨hspawn', habort'⟩
    · exact Or.inl ⟨t, action, rfl, rfl, ht, hsleep, hnext⟩
    · exact Or.inr ⟨t, sleep, action, hspawn', ht, hsleep, habort'⟩
  · rintro (⟨t, action, rfl, rfl, ht, hsleep, hnext⟩ | ⟨t, sleep, action, hspawn, ht, hsleep, habort⟩)
    · obtain ⟨hspawn, habort⟩ := (task_cons hsound).mpr (Or.inl ⟨rfl, rfl, rfl, hnext⟩)
      exact ⟨t, delay, action, hspawn, ht, hsleep, habort⟩
    · obtain ⟨hspawn', habort'⟩ := (task_cons hsound).mpr (Or.inr ⟨hspawn, habort⟩)
      exact ⟨t, sleep, action, hspawn', ht, hsleep, habort'⟩

/-- Without events no task waits. -/
theorem not_waiting_nil {time task : Nat} :
    ¬Waiting (orders delay h ([] : List (Timed (Event α)))) time task := by
  rintro ⟨_, _, _, hspawn, -⟩
  cases hspawn

/-- No two tasks wait at one time. -/
theorem eq_of_waiting (hwell : WellTimed delay events) {time task task' : Nat}
    (hwaits : Waiting (orders delay h events) time task)
    (hwaits' : Waiting (orders delay h events) time task') : task = task' := by
  obtain ⟨t, sleep, action, hspawn, ht, -, habort⟩ := hwaits
  obtain ⟨t', sleep', action', hspawn', ht', -, habort'⟩ := hwaits'
  rcases Nat.lt_trichotomy task task' with hlt | heq | hgt
  · obtain ⟨s, hs, hmem⟩ := exists_abort_of_lt hwell hspawn hspawn' hlt
    have := habort s hmem
    omega
  · exact heq
  · obtain ⟨s, hs, hmem⟩ := exists_abort_of_lt hwell hspawn' hspawn hgt
    have := habort' s hmem
    omega

/-! ## The same without tasks -/

/-- Tells a debouncer of an event. -/
def tell (d : Debouncer α) : Event α → Debouncer α
  | .call action => d.call action
  | .cancel => d.cancel

/-- Lets events happen, each at its time, and time pass until an end: what becomes of a debouncer,
and the actions that took effect. -/
def play (d : Debouncer α) (stop : Nat) : List (Timed (Event α)) → Debouncer α × List α
  | [] => ((d.sleep (stop - d.now)).1, (d.sleep (stop - d.now)).2.toList)
  | e :: later =>
    let (slept, taken) := d.sleep (e.time - d.now)
    let (ended, more) := (slept.tell e.what).play stop later
    (ended, taken.toList ++ more)

/-- When the next event happens, or the end is reached. -/
def nextTime (stop : Nat) (events : List (Timed (Event α))) : Nat :=
  (events.head?.map (·.time)).getD stop

/-- What an event leaves, whatever was waiting before. -/
def told (delay : Nat) (e : Timed (Event α)) : Debouncer α where
  delay
  now := e.time
  pending :=
    match e.what with
    | .call action => some (e.time + delay, action)
    | .cancel => none

/-- To sleep up to an event and then be told of it. -/
theorem tell_sleep (d : Debouncer α) (hle : d.now ≤ e.time) :
    (d.sleep (e.time - d.now)).1.tell e.what = told d.delay e := by
  have hnow : d.now + (e.time - d.now) = e.time := by omega
  unfold sleep told
  dsimp only
  rw [hnow]
  split
  · split <;> cases e.what <;> rfl
  · cases e.what <;> rfl

/-- The first event, and what happens from there. -/
theorem play_cons (d : Debouncer α) (stop : Nat) (hle : d.now ≤ e.time) :
    d.play stop (e :: later) = (((told d.delay e).play stop later).1,
      (d.sleep (e.time - d.now)).2.toList ++ ((told d.delay e).play stop later).2) := by
  rw [play]
  dsimp only
  rw [tell_sleep d hle]

/-- A call that was made just now takes effect when more than its delay passes, and waits until
then. -/
theorem sleep_told_call (delay : Nat) {t time : Nat} (action : α) (hle : t ≤ time) :
    ((told delay ⟨t, .call action⟩).sleep (time - t)).2 =
        (if t + delay < time then some action else none) ∧
      (((told delay ⟨t, .call action⟩).sleep (time - t)).1.isPending = true ↔
        time ≤ t + delay) := by
  have hnow : t + (time - t) = time := by omega
  simp only [told, sleep, hnow]
  split
  · rename_i hover
    exact ⟨rfl, by simp [cancel, isPending, hover]⟩
  · rename_i hwaits
    exact ⟨rfl, by simpa [isPending] using hwaits⟩

/-- What is not after the later events is not after the next. -/
theorem le_nextTime {t stop : Nat} (hle : t ≤ stop) (hlater : ∀ e ∈ later, t ≤ e.time) :
    t ≤ nextTime stop later := by
  cases later with
  | nil => exact hle
  | cons next later => exact hlater next List.mem_cons_self

/-- A call is due before anything else happens just when it is undisturbed and due before the
end. -/
theorem lt_nextTime_iff {t stop : Nat} {action : α}
    (hwell : WellTimed delay (⟨t, .call action⟩ :: later)) (hstop : ∀ e ∈ later, e.time ≤ stop) :
    t + delay < nextTime stop later ↔ (∀ e ∈ later, t + delay ≤ e.time) ∧ t + delay < stop := by
  cases later with
  | nil => simp [nextTime]
  | cons next later =>
    show t + delay < next.time ↔ _
    have hend : next.time ≤ stop := hstop next List.mem_cons_self
    constructor
    · intro hlt
      -- the events are in the order of time, so what holds of the next one holds of all
      refine ⟨?_, hlt.trans_le hend⟩
      rw [List.forall_mem_cons]
      exact ⟨hlt.le, fun e he => hlt.le.trans (hwell.tail.le_of_mem he)⟩
    · rintro ⟨hquiet, -⟩
      exact hwell.lt_of_le hquiet next List.mem_cons_self

/-- A debouncer takes the action that waits, if it is due before the first event, and those of the
undisturbed calls that are due before the end. -/
theorem taken_play {d : Debouncer α} {stop : Nat} (hwell : WellTimed d.delay events)
    (hnow : ∀ e ∈ events, d.now ≤ e.time) (hstop : ∀ e ∈ events, e.time ≤ stop) (n : Nat) :
    (d.play stop events).2 = (d.sleep (nextTime stop events - d.now)).2.toList ++
      ((undisturbed d.delay n events).filter (·.time < stop)).map (·.what.2) := by
  induction events generalizing d n with
  | nil =>
    rw [play, undisturbed, List.filter_nil, List.map_nil, List.append_nil]
    rfl
  | cons e later ih =>
    obtain ⟨hend, hends⟩ := List.forall_mem_cons.mp hstop
    have hlater : ∀ e' ∈ later, e.time ≤ e'.time := fun e' he' => hwell.le_of_mem he'
    rw [play_cons d stop (hnow e List.mem_cons_self)]
    -- what remains is to tell whether the call of this event takes effect
    refine congrArg ((d.sleep (e.time - d.now)).2.toList ++ ·) ?_
    obtain ⟨t, what⟩ := e
    cases what with
    | call action =>
      have hrest := @ih (told d.delay ⟨t, .call action⟩) hwell.tail hlater hends (n + 1)
      have hcall := (sleep_told_call d.delay action (le_nextTime hend hlater)).1
      have hdue := lt_nextTime_iff hwell hends
      rw [hrest, undisturbed]
      show ((told d.delay ⟨t, .call action⟩).sleep (nextTime stop later - t)).2.toList ++ _ = _
      rw [hcall]
      by_cases hquiet : ∀ e ∈ later, t + d.delay ≤ e.time
      · have hiff := hdue.trans (and_iff_right hquiet)
        rw [if_pos hquiet, List.filter_cons]
        simp only [hiff, decide_eq_true_eq]
        split <;> rfl
      · rw [if_neg hquiet, if_neg fun hlt => hquiet (hdue.mp hlt).1]
        rfl
    | cancel => exact @ih (told d.delay ⟨t, .cancel⟩) hwell.tail hlater hends n

/-- When events have happened, an action waits in the end just when a task does. -/
theorem isPending_play {d : Debouncer α} {stop : Nat} (hsound : h.Sound) (hne : events ≠ [])
    (hwell : WellTimed d.delay events) (hnow : ∀ e ∈ events, d.now ≤ e.time)
    (hstop : ∀ e ∈ events, e.time ≤ stop) :
    (d.play stop events).1.isPending = true ↔
      ∃ task, Waiting (orders d.delay h events) stop task := by
  induction events generalizing d h with
  | nil => exact absurd rfl hne
  | cons e later ih =>
    obtain ⟨hend, hends⟩ := List.forall_mem_cons.mp hstop
    rw [play_cons d stop (hnow e List.mem_cons_self)]
    simp only [waiting_cons hsound]
    cases later with
    | nil =>
      simp only [not_waiting_nil, or_false]
      obtain ⟨t, what⟩ := e
      cases what with
      | call action =>
        refine (sleep_told_call d.delay action hend).2.trans ?_
        constructor
        · intro hle
          exact ⟨_, t, action, rfl, rfl, hend, hle, by simp⟩
        · rintro ⟨_, _, _, heq, -, -, hle, -⟩
          cases heq
          exact hle
      | cancel =>
        constructor
        · intro hpending
          cases hpending
        · rintro ⟨_, _, _, heq, -⟩
          cases heq
    | cons next later =>
      -- the task of an event does not outlive the next one
      have hover : ∀ task, ¬∃ t action, e = ⟨t, .call action⟩ ∧ task = h.spawned ∧ t ≤ stop ∧
          stop ≤ t + d.delay ∧ ∀ n ∈ (next :: later).head?, stop < n.time := by
        rintro task ⟨t, action, -, -, -, -, hlt⟩
        have hbehind := hlt next rfl
        have := hends next List.mem_cons_self
        omega
      simp only [hover, false_or]
      exact @ih _ (told d.delay e) (sound_after h e) (by simp) hwell.tail
        (fun e' he' => hwell.le_of_mem he') hends

/-! ## Main result -/

/-- What a debouncer with a delay has to make of events, by the actions that were taken for it. -/
structure Debounces (delay : Nat) (events : List (Timed (Event α)))
    (taken : List (Timed (Nat × α))) : Prop where
  /-- The action of a call is taken just when no later event happens before its deadline, and then
  at its deadline. -/
  taken_iff : ∀ before t action later, events = before ++ ⟨t, .call action⟩ :: later →
    ∀ time b, ⟨time, calls before, b⟩ ∈ taken ↔
      time = t + delay ∧ b = action ∧ ∀ e ∈ later, ¬e.time < t + delay
  /-- Only actions of calls are taken. -/
  lt_calls : ∀ x ∈ taken, x.what.1 < calls events
  /-- They are taken one after the other, in the order of the calls. -/
  inOrder : taken.Pairwise fun x y => x.what.1 < y.what.1 ∧ x.time < y.time
  /-- No two tasks wait at one time. -/
  one_waits : ∀ time task task', Waiting (orders delay {} events) time task →
    Waiting (orders delay {} events) time task' → task = task'
  /-- When time has passed, a `Debouncer` has taken those that were due before. -/
  played : ∀ stop, (∀ e ∈ events, e.time ≤ stop) →
    (({ delay } : Debouncer α).play stop events).2 =
      (taken.filter (·.time < stop)).map (·.what.2)
  /-- It has an action waiting just when a task waits. -/
  pending : ∀ stop, (∀ e ∈ events, e.time ≤ stop) →
    ((({ delay } : Debouncer α).play stop events).1.isPending = true ↔
      ∃ task, Waiting (orders delay {} events) stop task)

/-- On every runtime that keeps its promises, a debouncer takes the actions of the calls that are
followed by quiet. -/
theorem debounces_of_honours {taken : List (Timed (Nat × α))} (hwell : WellTimed delay events)
    (hruntime : Honours (orders delay {} events) taken) : Debounces delay events taken := by
  obtain rfl := eq_undisturbed hwell hruntime
  constructor
  case taken_iff =>
    rintro before t action later rfl time b
    have hiff := @mem_undisturbed_iff α delay later 0 t time action b before
    rwa [Nat.zero_add] at hiff
  case lt_calls =>
    intro x hx
    obtain ⟨before, t, action, later, rfl, rfl⟩ := exists_of_mem_undisturbed hx
    show 0 + calls before < calls (before ++ ⟨t, .call action⟩ :: later)
    rw [calls, calls, List.countP_append, List.countP_cons_of_pos rfl]
    omega
  case inOrder => exact pairwise_undisturbed hwell 0
  case one_waits => exact fun time task task' => eq_of_waiting hwell
  case played =>
    intro stop hstop
    have hplay := @taken_play α events { delay } stop hwell (fun e _ => Nat.zero_le e.time) hstop 0
    -- nothing waits in the beginning
    rwa [show (({ delay } : Debouncer α).sleep (nextTime stop events - 0)).2 = none from rfl]
      at hplay
  case pending =>
    intro stop hstop
    cases events with
    | nil =>
      simp only [not_waiting_nil, exists_false, iff_false]
      rintro ⟨⟩
    | cons e later =>
      exact @isPending_play α {} (e :: later) { delay } stop sound_start (by simp) hwell
        (fun e' _ => Nat.zero_le e'.time) hstop

/-- A burst of calls, a call that is cancelled, and one after which nothing happens. -/
def burst : List (Timed (Event String)) :=
  [⟨0, .call "a"⟩, ⟨50, .call "b"⟩, ⟨50, .call "c"⟩, ⟨300, .cancel⟩, ⟨300, .call "d"⟩,
    ⟨499, .cancel⟩, ⟨500, .cancel⟩, ⟨600, .call "e"⟩]

/-- A burst of calls of which two are run. -/
theorem debounces_of_honours_burst :
    WellTimed 200 burst ∧ Honours (orders 200 {} burst) [⟨250, 2, "c"⟩, ⟨800, 4, "e"⟩] ∧
      Debounces 200 burst [⟨250, 2, "c"⟩, ⟨800, 4, "e"⟩] := by
  have hwell : WellTimed 200 burst := by
    constructor
    · decide
    · simp [burst]
  have htaken : undisturbed 200 0 burst = [⟨250, 2, "c"⟩, ⟨800, 4, "e"⟩] := by
    decide
  have hruntime := honours_undisturbed hwell
  rw [htaken] at hruntime
  exact ⟨hwell, hruntime, debounces_of_honours hwell hruntime⟩

end TextHarvest.Debouncer
