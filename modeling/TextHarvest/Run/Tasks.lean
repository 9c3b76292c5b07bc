import TextHarvest.Run.Debounce

/-!
# Debouncing with tasks

A debouncer leaves the waiting to a runtime. For each call it has a task spawned, which sleeps for
the delay and then takes the action, and it keeps the handle of the task of the last call, to abort
it at the next call or cancel. It is not told when a task ends: the handle of a finished task is kept
and aborted like any other, to no effect.

Here is what a debouncer asks of the runtime, and what a runtime promises about tasks that sleep.
-/

namespace TextHarvest

/-- Something that happens at a time. -/
structure Timed (α : Type) where
  time : Nat
  what : α
  deriving DecidableEq, Repr

namespace Debouncer

variable {α : Type}

/-- What a debouncer is told. -/
inductive Event (α : Type) where
  | call (action : α)
  | cancel
  deriving DecidableEq, Repr

/-- What a runtime is told: to spawn a task that sleeps and then takes an action, or to abort one. -/
inductive Order (α : Type) where
  | spawn (task delay : Nat) (action : α)
  | abort (task : Nat)
  deriving DecidableEq, Repr

/-! ## What a debouncer asks -/

/-- How many tasks were spawned, which makes the handle of the next one, and the handle that is
kept. -/
structure Handles where
  spawned : Nat := 0
  kept : Option Nat := none
  deriving DecidableEq, Repr

namespace Handles

/-- Aborts the task whose handle is kept. -/
def abortKept (h : Handles) : List (Order α) :=
  h.kept.toList.map .abort

/-- The task of a call is spawned before the one of the last call is aborted. -/
def call (h : Handles) (delay : Nat) (action : α) : Handles × List (Order α) :=
  ({ spawned := h.spawned + 1, kept := some h.spawned },
    .spawn h.spawned delay action :: h.abortKept)

def cancel (h : Handles) : Handles × List (Order α) :=
  ({ h with kept := none }, h.abortKept)

def tell (h : Handles) (delay : Nat) : Event α → Handles × List (Order α)
  | .call action => h.call delay action
  | .cancel => h.cancel

/-- The orders that events lead to, each at the time of its event. -/
def orders (delay : Nat) : Handles → List (Timed (Event α)) → List (Timed (Order α))
  | _, [] => []
  | h, e :: later =>
    (h.tell delay e.what).2.map (Timed.mk e.time) ++ orders delay (h.tell delay e.what).1 later

end Handles

/-! ## What a runtime promises -/

/-- A task ends its sleep at a time, unless it is aborted before. -/
def MayWake (orders : List (Timed (Order α))) (time task : Nat) (action : α) : Prop :=
  ∃ t delay, ⟨t, .spawn task delay action⟩ ∈ orders ∧ time = t + delay ∧
    ∀ s, ⟨s, .abort task⟩ ∈ orders → time ≤ s

/-- A task ends its sleep at a time, and is not aborted until then. -/
def Wakes (orders : List (Timed (Order α))) (time task : Nat) (action : α) : Prop :=
  ∃ t delay, ⟨t, .spawn task delay action⟩ ∈ orders ∧ time = t + delay ∧
    ∀ s, ⟨s, .abort task⟩ ∈ orders → time < s

/-- A task waits at a time: it was spawned and not aborted, and its sleep is not over. -/
def Waiting (orders : List (Timed (Order α))) (time task : Nat) : Prop :=
  ∃ t delay action, ⟨t, .spawn task delay action⟩ ∈ orders ∧ t ≤ time ∧ time ≤ t + delay ∧
    ∀ s, ⟨s, .abort task⟩ ∈ orders → time < s

/-- The actions that a runtime takes, each with its task. A sleep ends when it is over, and a task
that is aborted before then takes no action. What becomes of a task that is aborted at the very end
of its sleep is left open. -/
structure Honours (orders : List (Timed (Order α))) (taken : List (Timed (Nat × α))) : Prop where
  inOrder : taken.Pairwise (·.time ≤ ·.time)
  once : (taken.map (·.what.1)).Nodup
  wakes : ∀ time task action, Wakes orders time task action → ⟨time, task, action⟩ ∈ taken
  mayWake : ∀ x ∈ taken, MayWake orders x.time x.what.1 x.what.2

end Debouncer

end TextHarvest
