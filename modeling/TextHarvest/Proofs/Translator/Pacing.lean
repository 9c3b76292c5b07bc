import Mathlib.Data.List.Basic
import Mathlib.Logic.Relation
import TextHarvest.Translator.Locales

/-!
# Requests take turns

A translator that asks for a pause has a lock before it. Dispatches queue for the lock in the order
in which they are issued. The one that holds it waits until the pause behind the last answer is
over, sends its request, waits for the answer, however long that takes, notes when it came and lets
go of the lock. Time passes in between as it likes, and dispatches are issued at any time.

* `Orderly` — what the lock is for: requests go out one at a time, in order and spaced.
* `Invariant.step`, `invariant_of_runs` — what one step keeps, and so every run.
* `exists_run_to_rest` — no run gets stuck: every dispatch can be answered.
* `serve_sendPaced`, `serve_sendEach` — to send requests one after the other is to serve the queue.
* `exists_run_of_sendAll`, `exists_run_of_fillOne` — sending requests together, and filling locales,
  are runs.

Main result: `serialized_of_interval`.
-/

namespace TextHarvest

namespace Pacing

/-- A request that was answered: the dispatch it comes from (its request and its number in the order
of issue), when it was sent, when its answer came, and the answer. -/
structure Fetch where
  ticket : Request × Nat
  start : Nat
  stop : Nat
  result : Except String String

/-- The request as it stands in the log of a dispatch. -/
def Fetch.call (f : Fetch) : Call :=
  ⟨f.start, f.ticket.1⟩

/-- Who holds the lock, and what for. -/
inductive Turn where
  | free
  | pausing (ticket : Request × Nat)
  | fetching (ticket : Request × Nat) (start : Nat)

/-- The dispatch that holds the lock. -/
def Turn.tickets : Turn → List (Request × Nat)
  | .free => []
  | .pausing k => [k]
  | .fetching k _ => [k]

/-- The lock with all that happens before it. -/
structure Desk where
  now : Nat := 0
  /-- When the last answer came. -/
  last : Option Nat := none
  /-- The requests of all dispatches so far. -/
  issued : List Request := []
  /-- The dispatches that wait for the lock, the first one first. -/
  queue : List (Request × Nat) := []
  turn : Turn := .free
  done : List Fetch := []

/-- One thing that happens. -/
inductive Step (tr : Translator) : Desk → Desk → Prop
  /-- Time passes. -/
  | tick (s : Desk) (span : Nat) : Step tr s { s with now := s.now + span }
  /-- A dispatch is issued and queues for the lock. -/
  | issue (s : Desk) (r : Request) :
      Step tr s { s with
        issued := s.issued ++ [r]
        queue := s.queue ++ [(r, s.issued.length)] }
  /-- The lock is free and goes to the first dispatch of the queue. -/
  | acquire {s : Desk} {k : Request × Nat} {queue : List (Request × Nat)}
      (hturn : s.turn = .free) (hqueue : s.queue = k :: queue) :
      Step tr s { s with turn := .pausing k, queue }
  /-- The pause is over and the request goes out. -/
  | send {s : Desk} {k : Request × Nat} (hturn : s.turn = .pausing k)
      (hpause : ∀ last ∈ s.last, last + tr.interval ≤ s.now) :
      Step tr s { s with turn := .fetching k s.now }
  /-- The answer comes; its time is noted and the lock is free again. -/
  | answer {s : Desk} {k : Request × Nat} {start : Nat} (hturn : s.turn = .fetching k start) :
      Step tr s { s with
        turn := .free
        last := some s.now
        done := s.done ++ [⟨k, start, s.now, tr.answer s.done.length k.1⟩] }

/-- One desk comes of another by some steps. -/
abbrev Runs (tr : Translator) : Desk → Desk → Prop :=
  Relation.ReflTransGen (Step tr)

variable {tr : Translator} {s s' : Desk}

/-! ## Runs keep order and distance -/

/-- Requests go out one at a time, in the order of issue, with a pause between an answer and the
next request, and each dispatch gets the answer to its own request. -/
structure Orderly (tr : Translator) (s : Desk) : Prop where
  in_order : s.done.map Fetch.ticket ++ s.turn.tickets ++ s.queue = s.issued.zipIdx
  forward : ∀ f ∈ s.done, f.start ≤ f.stop
  spaced : s.done.Pairwise fun f g => f.stop + tr.interval ≤ g.start
  alone : ∀ k start, s.turn = .fetching k start → ∀ f ∈ s.done, f.stop + tr.interval ≤ start
  own : ∀ f ∈ s.done, f.result = tr.answer f.ticket.2 f.ticket.1

/-- What a run keeps: order, and that the time of the last answer is known. -/
structure Invariant (tr : Translator) (s : Desk) : Prop extends Orderly tr s where
  noted : ∀ f ∈ s.done, ∃ last ∈ s.last, f.stop ≤ last
  past : ∀ last ∈ s.last, last ≤ s.now
  begun : ∀ k start, s.turn = .fetching k start → start ≤ s.now

/-- Nothing has been sent at the start. -/
theorem invariant_start : Invariant tr {} where
  in_order := rfl
  forward := by simp
  spaced := List.Pairwise.nil
  alone := by simp
  own := by simp
  noted := by simp
  past := by simp
  begun := by simp

/-- A dispatch that is due has as many before it as were answered. -/
theorem snd_eq_length {done queue : List (Request × Nat)} {k : Request × Nat}
    {issued : List Request} (h : done ++ k :: queue = issued.zipIdx) : k.2 = done.length := by
  have hk : issued.zipIdx[done.length]? = some k := by
    rw [← h]
    simp
  rw [List.getElem?_zipIdx, Option.map_eq_some_iff] at hk
  obtain ⟨r, -, rfl⟩ := hk
  simp

/-- One step of the system keeps the invariant. -/
theorem Invariant.step (h : Invariant tr s) (hstep : Step tr s s') : Invariant tr s' := by
  cases hstep with
  | tick span =>
    refine ⟨⟨h.in_order, h.forward, h.spaced, h.alone, h.own⟩, h.noted, ?_, ?_⟩
    · exact fun last hlast => Nat.le_add_right_of_le (h.past last hlast)
    · exact fun k start hturn => Nat.le_add_right_of_le (h.begun k start hturn)
  | issue r =>
    refine ⟨⟨?_, h.forward, h.spaced, h.alone, h.own⟩, h.noted, h.past, h.begun⟩
    dsimp only
    rw [← List.append_assoc, h.in_order, List.zipIdx_append]
    simp
  | acquire hturn hqueue =>
    have horder := h.in_order
    rw [hturn, hqueue] at horder
    refine ⟨⟨?_, h.forward, h.spaced, ?_, h.own⟩, h.noted, h.past, ?_⟩
    · simpa [Turn.tickets] using horder
    · exact fun k start hfetching => by cases hfetching
    · exact fun k start hfetching => by cases hfetching
  | send hturn hpause =>
    have horder := h.in_order
    rw [hturn] at horder
    refine ⟨⟨horder, h.forward, h.spaced, ?_, h.own⟩, h.noted, h.past, ?_⟩
    · intro k start hfetching f hf
      cases hfetching
      -- every answer came before the last one, and the pause behind that is over
      obtain ⟨last, hlast, hle⟩ := h.noted f hf
      have hover := hpause last hlast
      omega
    · intro k start hfetching
      cases hfetching
      exact Nat.le_refl _
  | @answer k start hturn =>
    have horder := h.in_order
    rw [hturn, Turn.tickets] at horder
    have hnumber : k.2 = s.done.length := by
      rw [List.append_assoc, List.singleton_append] at horder
      simpa using snd_eq_length horder
    have hbegun := h.begun k start hturn
    refine ⟨⟨?_, ?_, ?_, ?_, ?_⟩, ?_, ?_, ?_⟩
    · simpa [Turn.tickets] using horder
    · exact List.forall_mem_append.mpr ⟨h.forward, by simpa using hbegun⟩
    · rw [List.pairwise_append]
      refine ⟨h.spaced, List.pairwise_singleton _ _, ?_⟩
      intro f hf g hg
      rw [List.mem_singleton.mp hg]
      exact h.alone k start hturn f hf
    · exact fun k start hfetching => by cases hfetching
    · exact List.forall_mem_append.mpr ⟨h.own, by simp [hnumber]⟩
    · refine List.forall_mem_append.mpr ⟨?_, by simp⟩
      intro f hf
      obtain ⟨last, hlast, hle⟩ := h.noted f hf
      exact ⟨s.now, rfl, Nat.le_trans hle (h.past last hlast)⟩
    · intro last hlast
      cases hlast
      exact Nat.le_refl _
    · exact fun k start hfetching => by cases hfetching

/-- So does a run. -/
theorem Invariant.runs (h : Invariant tr s) (hruns : Runs tr s s') : Invariant tr s' := by
  induction hruns with
  | refl => exact h
  | tail _ hstep ih => exact ih.step hstep

theorem invariant_of_runs (h : Runs tr {} s) : Invariant tr s :=
  invariant_start.runs h

/-! ## Serving the queue -/

/-- A free desk with some dispatches before it is where a clock, a last answer and a log say. -/
structure Serves (s : Desk) (d : Dispatch) (waiting : List (Request × Nat)) : Prop where
  turn : s.turn = .free
  queue : s.queue = waiting
  now : s.now = d.now
  last : s.last = d.last
  calls : s.done.map Fetch.call = d.calls

/-- When a request goes out that is sent after a pause. -/
def startOf (tr : Translator) (d : Dispatch) : Nat :=
  match d.last with
  | some last => max d.now (last + tr.interval)
  | none => d.now

theorem sendPaced_eq (tr : Translator) (d : Dispatch) (r : Request) :
    d.sendPaced tr r =
      (⟨startOf tr d + tr.latency d.calls.length r,
        some (startOf tr d + tr.latency d.calls.length r), d.calls ++ [⟨startOf tr d, r⟩]⟩,
        tr.answer d.calls.length r) := rfl

/-- A request does not start before it is made. -/
theorem now_le_startOf (tr : Translator) (d : Dispatch) : d.now ≤ startOf tr d := by
  unfold startOf
  split
  · exact Nat.le_max_left _ _
  · exact Nat.le_refl _

/-- Nor before the interval behind the one before it has passed. -/
theorem pause_le_startOf {tr : Translator} {d : Dispatch} {last : Nat} (h : d.last = some last) :
    last + tr.interval ≤ startOf tr d := by
  rw [startOf, h]
  exact Nat.le_max_right _ _

/-- The first dispatch of the queue gets the lock, waits for the pause, sends its request and waits
for the answer. -/
theorem runs_serve {k : Request × Nat} {waiting : List (Request × Nat)} (hturn : s.turn = .free)
    (hqueue : s.queue = k :: waiting) {start : Nat} (hnow : s.now ≤ start)
    (hpause : ∀ last ∈ s.last, last + tr.interval ≤ start) (span : Nat) :
    Runs tr s { s with
      turn := .free
      queue := waiting
      now := start + span
      last := some (start + span)
      done := s.done ++ [⟨k, start, start + span, tr.answer s.done.length k.1⟩] } := by
  obtain ⟨pause, rfl⟩ := Nat.exists_eq_add_of_le hnow
  have hacquire : Runs tr s { s with turn := .pausing k, queue := waiting } :=
    .single (.acquire hturn hqueue)
  have hready := hacquire.tail (.tick _ pause)
  have hsent := hready.tail (.send rfl hpause)
  exact (hsent.tail (.tick _ span)).tail (.answer rfl)

/-- The first dispatch of the queue is served as its request is sent after a pause. -/
theorem serve_sendPaced (tr : Translator) {d : Dispatch} {k : Request × Nat}
    {waiting : List (Request × Nat)} (h : Serves s d (k :: waiting)) :
    ∃ s' f, Runs tr s s' ∧ Serves s' (d.sendPaced tr k.1).1 waiting ∧ s'.issued = s.issued ∧
      s'.done = s.done ++ [f] ∧ f.ticket = k ∧ f.result = (d.sendPaced tr k.1).2 ∧
      f.stop = f.start + tr.latency s.done.length k.1 := by
  have hlength : d.calls.length = s.done.length := by
    rw [← h.calls, List.length_map]
  have hnow : s.now ≤ startOf tr d := h.now ▸ now_le_startOf tr d
  -- the request starts when the lock is free and the pause is over, whichever is later
  have hpause : ∀ last ∈ s.last, last + tr.interval ≤ startOf tr d :=
    fun last hlast => pause_le_startOf (h.last ▸ hlast)
  have hruns := runs_serve h.turn h.queue hnow hpause (tr.latency s.done.length k.1)
  refine ⟨_, _, hruns, ?_, rfl, rfl, rfl, ?_, rfl⟩
  · rw [sendPaced_eq, hlength]
    exact ⟨rfl, rfl, rfl, rfl, by simp [h.calls, Fetch.call]⟩
  · rw [sendPaced_eq, hlength]

/-- The answers so far stay in front of those that are still to come. -/
theorem foldl_sendEach (send : Dispatch → Request → Dispatch × Except String String)
    (rs : List Request) (d : Dispatch) (out : List (Except String String)) :
    rs.foldl (fun (x : Dispatch × List (Except String String)) r =>
        ((send x.1 r).1, x.2 ++ [(send x.1 r).2])) (d, out) =
      ((Dispatch.sendEach send d rs).1, out ++ (Dispatch.sendEach send d rs).2) := by
  induction rs generalizing d out with
  | nil => simp [Dispatch.sendEach]
  | cons r rs ih =>
    have hcons : Dispatch.sendEach send d (r :: rs) =
        ((Dispatch.sendEach send (send d r).1 rs).1,
          [(send d r).2] ++ (Dispatch.sendEach send (send d r).1 rs).2) :=
      ih (send d r).1 [(send d r).2]
    rw [List.foldl_cons, ih, hcons, List.append_assoc]

theorem sendEach_cons (send : Dispatch → Request → Dispatch × Except String String) (d : Dispatch)
    (r : Request) (rs : List Request) :
    Dispatch.sendEach send d (r :: rs) =
      ((Dispatch.sendEach send (send d r).1 rs).1,
        (send d r).2 :: (Dispatch.sendEach send (send d r).1 rs).2) :=
  foldl_sendEach send rs (send d r).1 [(send d r).2]

/-- How long a request took is what the translator says. -/
def Timed (tr : Translator) (f : Fetch) : Prop :=
  f.stop = f.start + tr.latency f.ticket.2 f.ticket.1

/-- The whole queue is served as its requests are sent one after the other. -/
theorem serve_sendEach (hs : Invariant tr s) {d : Dispatch} {waiting : List (Request × Nat)}
    (h : Serves s d waiting) :
    ∃ s' new, Runs tr s s' ∧
      Serves s' (Dispatch.sendEach (Dispatch.sendPaced tr) d (waiting.map Prod.fst)).1 [] ∧
      s'.issued = s.issued ∧ s'.done = s.done ++ new ∧ new.map Fetch.ticket = waiting ∧
      new.map Fetch.result =
        (Dispatch.sendEach (Dispatch.sendPaced tr) d (waiting.map Prod.fst)).2 ∧
      ∀ f ∈ new, Timed tr f := by
  induction waiting generalizing s d with
  | nil => exact ⟨s, [], .refl, h, rfl, by simp, rfl, rfl, by simp⟩
  | cons k waiting ih =>
    -- tickets are served in the order they were drawn in
    have hnumber : k.2 = s.done.length := by
      have horder := hs.in_order
      rw [h.turn, h.queue, Turn.tickets, List.append_nil] at horder
      simpa using snd_eq_length horder
    obtain ⟨s₁, f, hruns, hserves, hissued, hdone, hticket, hresult, hstop⟩ :=
      serve_sendPaced tr h
    obtain ⟨s₂, new, hruns', hserves', hissued', hdone', hticket', hresult', htimed⟩ :=
      ih (hs.runs hruns) hserves
    have htimed' : Timed tr f := by
      rw [Timed, hstop, hticket, hnumber]
    rw [List.map_cons, sendEach_cons]
    exact ⟨s₂, f :: new, hruns.trans hruns', hserves', hissued'.trans hissued,
      by rw [hdone', hdone]; simp, by rw [List.map_cons, hticket, hticket'],
      by rw [List.map_cons, hresult, hresult'], List.forall_mem_cons.mpr ⟨htimed', htimed⟩⟩

/-! ## Sending is a run -/

/-- Dispatches may be issued together. -/
theorem runs_issue (tr : Translator) (s : Desk) (rs : List Request) :
    Runs tr s { s with
      issued := s.issued ++ rs
      queue := s.queue ++ rs.zipIdx s.issued.length } := by
  induction rs generalizing s with
  | nil => simpa using Relation.ReflTransGen.refl
  | cons r rs ih =>
    have hrest := ih { s with
      issued := s.issued ++ [r]
      queue := s.queue ++ [(r, s.issued.length)] }
    simpa using Relation.ReflTransGen.head (Step.issue s r) hrest

/-- A desk at which nobody waits, where a clock, a last answer and a log say. -/
structure Rests (tr : Translator) (s : Desk) (d : Dispatch) : Prop where
  serves : Serves s d []
  timed : ∀ f ∈ s.done, Timed tr f

/-- At the start nobody holds the lock. -/
theorem rests_start : Rests tr {} {} :=
  ⟨⟨rfl, rfl, rfl, rfl, rfl⟩, by simp⟩

/-- To send requests together is to issue them together and to serve them. -/
theorem exists_run_of_sendAll (hinterval : tr.interval ≠ 0) (hs : Invariant tr s) {d : Dispatch}
    (h : Rests tr s d) (rs : List Request) :
    ∃ s' new, Runs tr s s' ∧ Rests tr s' (d.sendAll tr rs).1 ∧ s'.issued = s.issued ++ rs ∧
      s'.done = s.done ++ new ∧ new.map Fetch.ticket = rs.zipIdx s.issued.length ∧
      new.map Fetch.result = (d.sendAll tr rs).2 := by
  have hissue := runs_issue tr s rs
  -- the requests are issued at once and then wait in their order
  have hqueued : Serves { s with
      issued := s.issued ++ rs
      queue := s.queue ++ rs.zipIdx s.issued.length } d (rs.zipIdx s.issued.length) :=
    ⟨h.serves.turn, by simp [h.serves.queue], h.serves.now, h.serves.last, h.serves.calls⟩
  obtain ⟨s', new, hruns, hserves, hissued, hdone, hticket, hresult, htimed⟩ :=
    serve_sendEach (hs.runs hissue) hqueued
  have hrequests : (rs.zipIdx s.issued.length).map Prod.fst = rs := by simp
  have hsendAll : d.sendAll tr rs = Dispatch.sendEach (Dispatch.sendPaced tr) d rs := by
    rw [Dispatch.sendAll, if_neg hinterval]
  rw [hrequests] at hserves hresult
  rw [hsendAll]
  refine ⟨s', new, hissue.trans hruns, ⟨hserves, ?_⟩, hissued, hdone, hticket, hresult⟩
  rw [hdone]
  exact List.forall_mem_append.mpr ⟨h.timed, htimed⟩

/-- Time may pass while nobody holds the lock. -/
theorem exists_run_of_wait {d : Dispatch} (h : Rests tr s d) (span : Nat) :
    ∃ s', Runs tr s s' ∧ Rests tr s' (d.wait span) := by
  refine ⟨_, .single (.tick s span), ⟨h.serves.turn, h.serves.queue, ?_, h.serves.last,
    h.serves.calls⟩, h.timed⟩
  rw [h.serves.now]
  rfl

/-- A language is left alone, or its batches are sent together, perhaps after some time. -/
theorem dispatch_fillOne (o : Orchestra) (options : Options) (root : String) (source : Catalog)
    (st : Orchestra.State) (lang : String) :
    (o.fillOne options root source st lang).dispatch = st.dispatch ∨
      ∃ span rs, (o.fillOne options root source st lang).dispatch =
        ((st.dispatch.wait span).sendAll o.translator rs).1 := by
  simp only [Orchestra.fillOne]
  split
  · exact Or.inl rfl
  · right
    -- not to wait is to wait for no time
    have hwait : (if st.busy then st.dispatch.wait o.localeInterval else st.dispatch) =
        st.dispatch.wait (if st.busy then o.localeInterval else 0) := by
      split <;> rfl
    rw [hwait]
    refine ⟨if st.busy then o.localeInterval else 0, ?_⟩
    split <;> exact ⟨_, rfl⟩

/-- Filling the locale files of some languages is a run. -/
theorem exists_run_of_fillOne {o : Orchestra} (hinterval : o.translator.interval ≠ 0)
    (options : Options) (root : String) (source : Catalog) (langs : List String)
    (st : Orchestra.State) (hs : Invariant o.translator s) (h : Rests o.translator s st.dispatch) :
    ∃ s', Runs o.translator s s' ∧
      Rests o.translator s' (langs.foldl (o.fillOne options root source) st).dispatch := by
  induction langs generalizing s st with
  | nil => exact ⟨s, .refl, h⟩
  | cons lang langs ih =>
    -- a language sends nothing, or it waits and then sends its requests
    rcases dispatch_fillOne o options root source st lang with hsame | ⟨span, rs, hsent⟩
    · exact ih _ hs (hsame ▸ h)
    · obtain ⟨s₁, hruns₁, hrests₁⟩ := exists_run_of_wait h span
      obtain ⟨s₂, _, hruns₂, hrests₂, -⟩ :=
        exists_run_of_sendAll hinterval (hs.runs hruns₁) hrests₁ rs
      have hruns := hruns₁.trans hruns₂
      obtain ⟨s₃, hruns₃, hrests₃⟩ := ih _ (hs.runs hruns) (hsent ▸ hrests₂)
      exact ⟨s₃, hruns.trans hruns₃, hrests₃⟩

/-! ## Every dispatch can be answered -/

/-- The holder of the lock can be answered, after which the lock is free. -/
theorem exists_run_to_free (tr : Translator) (s : Desk) :
    ∃ s', Runs tr s s' ∧ s'.turn = .free ∧ s'.issued = s.issued := by
  cases hturn : s.turn with
  | free => exact ⟨s, .refl, hturn, rfl⟩
  | fetching k start => exact ⟨_, .single (.answer hturn), rfl, rfl⟩
  | pausing k =>
    have hpause : ∀ last ∈ s.last, last + tr.interval ≤ s.now + (s.last.getD 0 + tr.interval) := by
      intro last hlast
      rw [Option.mem_def.mp hlast, Option.getD_some]
      omega
    have hready : Runs tr s { s with now := s.now + (s.last.getD 0 + tr.interval) } :=
      .single (.tick s _)
    exact ⟨_, (hready.tail (.send hturn hpause)).tail (.answer rfl), rfl, rfl⟩

/-- No run gets stuck: it can go on until every dispatch that was issued is answered. -/
theorem exists_run_to_rest (hs : Invariant tr s) :
    ∃ s', Runs tr s s' ∧ s'.issued = s.issued ∧ s'.done.map Fetch.ticket = s'.issued.zipIdx := by
  obtain ⟨s₁, hruns₁, hfree, hissued₁⟩ := exists_run_to_free tr s
  have hserves : Serves s₁ ⟨s₁.now, s₁.last, s₁.done.map Fetch.call⟩ s₁.queue :=
    ⟨hfree, rfl, rfl, rfl, rfl⟩
  obtain ⟨s₂, _, hruns₂, hserves₂, hissued₂, -⟩ := serve_sendEach (hs.runs hruns₁) hserves
  have hruns := hruns₁.trans hruns₂
  refine ⟨s₂, hruns, hissued₂.trans hissued₁, ?_⟩
  have horder := (hs.runs hruns).in_order
  rwa [hserves₂.turn, hserves₂.queue, Turn.tickets, List.append_nil, List.append_nil] at horder

/-! ## What is promised -/

/-- In the log of a dispatch each request starts no earlier than the end of the one before it and
the pause of the translator. -/
def SpacedLog (tr : Translator) (calls : List Call) : Prop :=
  ∀ i c c', calls[i]? = some c → calls[i + 1]? = some c' →
    c.time + tr.latency i c.request + tr.interval ≤ c'.time

/-- The requests of a desk at rest are numbered by their places. -/
theorem Rests.ticket_eq {d : Dispatch} (h : Rests tr s d) (hs : Orderly tr s) {i : Nat} {f : Fetch}
    (hf : s.done[i]? = some f) : f.ticket.2 = i := by
  have horder := hs.in_order
  rw [h.serves.turn, h.serves.queue, Turn.tickets, List.append_nil, List.append_nil] at horder
  have hticket : s.issued.zipIdx[i]? = some f.ticket := by
    rw [← horder, List.getElem?_map, hf, Option.map_some]
  rw [List.getElem?_zipIdx, Option.map_eq_some_iff] at hticket
  obtain ⟨r, -, hr⟩ := hticket
  rw [← hr, Nat.zero_add]

/-- The log of a desk at rest is spaced. -/
theorem Rests.spacedLog {d : Dispatch} (h : Rests tr s d) (hs : Orderly tr s) :
    SpacedLog tr d.calls := by
  intro i c c' hc hc'
  rw [← h.serves.calls, List.getElem?_map, Option.map_eq_some_iff] at hc hc'
  obtain ⟨f, hf, rfl⟩ := hc
  obtain ⟨g, hg, rfl⟩ := hc'
  obtain ⟨hi, rfl⟩ := List.getElem?_eq_some_iff.mp hf
  obtain ⟨hj, rfl⟩ := List.getElem?_eq_some_iff.mp hg
  have hspaced := List.pairwise_iff_getElem.mp hs.spaced i (i + 1) hi hj (Nat.lt_succ_self i)
  have htimed : Timed tr s.done[i] := h.timed _ (List.getElem_mem hi)
  rw [Timed, h.ticket_eq hs hf] at htimed
  rw [htimed] at hspaced
  exact hspaced

/-- What holds of the requests to a translator that asks for a pause. -/
structure Serialized (tr : Translator) : Prop where
  /-- Whenever dispatches are issued and however long answers take, requests go out one at a time,
  in order and spaced, and each dispatch gets the answer to its own request. -/
  orderly : ∀ s, Runs tr {} s → Orderly tr s
  /-- Every dispatch can be answered. -/
  answered : ∀ s, Runs tr {} s →
    ∃ s', Runs tr s s' ∧ s'.issued = s.issued ∧ s'.done.map Fetch.ticket = s'.issued.zipIdx
  /-- Requests that are sent together are issued together, and their answers are returned. -/
  sent : ∀ s d rs, Runs tr {} s → Rests tr s d →
    ∃ s' new, Runs tr s s' ∧ Rests tr s' (d.sendAll tr rs).1 ∧ s'.issued = s.issued ++ rs ∧
      s'.done = s.done ++ new ∧ new.map Fetch.ticket = rs.zipIdx s.issued.length ∧
      new.map Fetch.result = (d.sendAll tr rs).2
  /-- Filling locale files, one language after the other, is such a run. -/
  filled : ∀ (o : Orchestra) t options root source, o.translator = tr →
    ∃ s, Runs tr {} s ∧ Rests tr s (o.fill {} t options root source).dispatch ∧
      SpacedLog tr (o.fill {} t options root source).dispatch.calls

/-- Requests to a translator that asks for a pause take turns. -/
theorem serialized_of_interval (tr : Translator) (h : tr.interval ≠ 0) : Serialized tr where
  orderly := fun _ hruns => (invariant_of_runs hruns).toOrderly
  answered := fun _ hruns => exists_run_to_rest (invariant_of_runs hruns)
  sent := fun _ _ rs hruns hrests => exists_run_of_sendAll h (invariant_of_runs hruns) hrests rs
  filled := by
    rintro o t options root source rfl
    obtain ⟨s, hruns, hrests⟩ := exists_run_of_fillOne h options root source options.targetLangs
      { dispatch := {}, tree := t } invariant_start rests_start
    exact ⟨s, hruns, hrests, hrests.spacedLog (invariant_of_runs hruns).toOrderly⟩

/-- A translator that takes its time with the first request and fails on the second. -/
def slowStarter : Translator where
  name := "slow"
  interval := 1000
  latency := fun n _ => if n = 0 then 3000 else 200
  answer := fun n r => if n = 1 then .error "timed out" else .ok r.text

theorem serialized_of_interval_slowStarter :
    slowStarter.interval ≠ 0 ∧ Serialized slowStarter ∧
      ((Dispatch.sendAll slowStarter {} [⟨"a", "zh", "en"⟩, ⟨"b", "zh", "en"⟩,
        ⟨"c", "zh", "en"⟩]).1.calls.map Call.time) = [0, 4000, 5200] :=
  ⟨by decide, serialized_of_interval slowStarter (by decide), by decide⟩

end Pacing

end TextHarvest
