import TextHarvest.Translator.Batch

/-!
# Translators

A translator answers requests. Requests are sent at given times; a translator may ask for a pause
between two of them, and then they go out one after the other. Without a pause they all go out at
once. Time is counted in milliseconds.
-/

namespace TextHarvest

/-- A text to be translated from a language into another one. -/
structure Request where
  text : String
  fromLang : String
  toLang : String
  deriving DecidableEq, Repr

/-- A translator. Its answer, and how long it takes, may depend on how many requests it has had
before. -/
structure Translator where
  name : String
  /-- The largest batch, in characters. -/
  maxBatch : Nat := 4500
  /-- The pause between an answer and the next request. -/
  interval : Nat := 0
  /-- How long the answer to a request takes. -/
  latency : Nat → Request → Nat := fun _ _ => 0
  /-- The answer to a request, or why there is none. -/
  answer : Nat → Request → Except String String

/-- A request with the time at which it was sent. -/
structure Call where
  time : Nat
  request : Request
  deriving DecidableEq, Repr

/-- The clock, the end of the last answer, and the requests sent so far. -/
structure Dispatch where
  now : Nat := 0
  last : Option Nat := none
  calls : List Call := []
  deriving Repr

namespace Dispatch

/-- Lets time pass. -/
def wait (d : Dispatch) (span : Nat) : Dispatch :=
  { d with now := d.now + span }

/-- Sends a request now, without waiting for the answer. -/
def sendNow (tr : Translator) (d : Dispatch) (r : Request) : Dispatch × Except String String :=
  ({ d with calls := d.calls ++ [⟨d.now, r⟩] }, tr.answer d.calls.length r)

/-- Sends a request after the pause that the translator asks for, and waits for the answer. -/
def sendPaced (tr : Translator) (d : Dispatch) (r : Request) : Dispatch × Except String String :=
  let start := match d.last with
    | some last => max d.now (last + tr.interval)
    | none => d.now
  let (sent, answer) := sendNow tr { d with now := start } r
  let answered := sent.wait (tr.latency d.calls.length r)
  ({ answered with last := some answered.now }, answer)

/-- Sends requests in order, each by `send`. -/
def sendEach (send : Dispatch → Request → Dispatch × Except String String) (d : Dispatch)
    (rs : List Request) : Dispatch × List (Except String String) :=
  rs.foldl (fun (d, out) r => let (d, answer) := send d r; (d, out ++ [answer])) (d, [])

/-- How long the answers to requests take that are sent at once, the first of them after a number
of others. -/
def longest (tr : Translator) (before : Nat) (rs : List Request) : Nat :=
  (rs.mapIdx fun i r => tr.latency (before + i) r).foldl max 0

/-- Sends requests together and waits for all answers. -/
def sendAll (tr : Translator) (d : Dispatch) (rs : List Request) :
    Dispatch × List (Except String String) :=
  if tr.interval = 0 then
    let (sent, out) := sendEach (sendNow tr) d rs
    (sent.wait (longest tr d.calls.length rs), out)
  else sendEach (sendPaced tr) d rs

end Dispatch

end TextHarvest
