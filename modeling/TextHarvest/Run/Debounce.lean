/-!
# Debouncing

Of a burst of calls only the last one takes effect, some time after it was made.
-/

namespace TextHarvest

/-- A clock with the call that waits, if there is one, and the time from which it is due. -/
structure Debouncer (α : Type) where
  delay : Nat
  now : Nat := 0
  pending : Option (Nat × α) := none

namespace Debouncer

variable {α : Type}

/-- Makes a call, which takes the place of the one that waits. -/
def call (d : Debouncer α) (a : α) : Debouncer α :=
  { d with pending := some (d.now + d.delay, a) }

/-- Drops the call that waits. -/
def cancel (d : Debouncer α) : Debouncer α :=
  { d with pending := none }

def isPending (d : Debouncer α) : Bool :=
  d.pending.isSome

/-- Lets time pass. The call that waits takes effect once its time is over. -/
def sleep (d : Debouncer α) (span : Nat) : Debouncer α × Option α :=
  let d := { d with now := d.now + span }
  match d.pending with
  | some (due, a) => if due < d.now then (d.cancel, some a) else (d, none)
  | none => (d, none)

end Debouncer

end TextHarvest
