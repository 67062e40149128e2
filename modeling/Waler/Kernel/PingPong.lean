/-
The round-trip benchmark over kernel sockets: ping.cpp against pong.cpp.

The two programs and the network between them take steps in any order.  The
network may lose, copy and reorder datagrams.  Every ping carries the same
payload and no request is ever sent twice, so a program cannot tell which
request a reply answers; the model keeps the number of the request beside each
datagram.
-/

import Waler.Common.Stats
import Waler.Foundation.Run

namespace Waler

namespace PingPong

/-- `N_WARMUP`. -/
def nWarmup : ℕ :=
  1000

/-- `N_SAMPLES`. -/
def nSamples : ℕ :=
  100000

/-- `PAYLOAD`. -/
def payload : List UInt8 :=
  [112, 105, 110, 103]

structure Datagram where
  bytes : List UInt8
  /-- The request that it is, or answers.  No program reads it. -/
  request : ℕ
  deriving DecidableEq, Repr

/-- A turn of either loop of ping that has ended. -/
structure Turn where
  /-- The request whose reply ended it, none for a failing `recv`. -/
  answer : Option ℕ
  span : UInt64
  deriving DecidableEq, Repr

structure World where
  turns : ℕ
  /-- `t0` while ping is in `recv`.  Nothing reads it in the warm-up. -/
  waiting : Option UInt64
  rtt : Stats
  ended : List Turn
  requests : List Datagram
  replies : List Datagram
  /-- How many datagrams the network has lost. -/
  lost : ℕ

inductive Event
  | send (t0 : UInt64)
  -- Pong takes a request from the network and returns its bytes.
  | echo (index : ℕ)
  | recv (index : ℕ) (t1 : UInt64)
  -- `recv` returns -1, which ping does not look at.
  | recvFails (t1 : UInt64)
  | loseRequest (index : ℕ)
  | loseReply (index : ℕ)
  | copyRequest (index : ℕ)
  | copyReply (index : ℕ)
  deriving DecidableEq, Repr

namespace World

def initial : World :=
  { turns := 0
    waiting := none
    rtt := Stats.init nSamples
    ended := []
    requests := []
    replies := []
    lost := 0 }

/-- The end of a turn of either loop; the first does not record. -/
def finish (world : World) (t0 t1 : UInt64) (answer : Option ℕ) : World :=
  { world with
    turns := world.turns + 1
    waiting := none
    rtt :=
      if world.turns < nWarmup then world.rtt
      else world.rtt.record (t1 - t0)
    ended := world.ended ++ [{ answer := answer, span := t1 - t0 }] }

def step (world : World) : Event → World
  | .send t0 =>
      if world.waiting = none ∧ world.turns < nWarmup + nSamples then
        { world with
          waiting := some t0
          requests := world.requests ++
            [{ bytes := payload, request := world.turns }] }
      else world
  | .echo index =>
      match world.requests[index]? with
      | some datagram =>
          { world with
            requests := world.requests.eraseIdx index
            -- The buffer of pong has 1024 bytes.
            replies := world.replies ++
              [{ datagram with bytes := datagram.bytes.take 1024 }] }
      | none => world
  | .recv index t1 =>
      match world.waiting, world.replies[index]? with
      | some t0, some datagram =>
          finish { world with replies := world.replies.eraseIdx index } t0 t1
            (some datagram.request)
      | _, _ => world
  | .recvFails t1 =>
      match world.waiting with
      | some t0 => finish world t0 t1 none
      | none => world
  | .loseRequest index =>
      if index < world.requests.length then
        { world with
          requests := world.requests.eraseIdx index
          lost := world.lost + 1 }
      else world
  | .loseReply index =>
      if index < world.replies.length then
        { world with
          replies := world.replies.eraseIdx index
          lost := world.lost + 1 }
      else world
  | .copyRequest index =>
      match world.requests[index]? with
      | some datagram =>
          { world with requests := world.requests ++ [datagram] }
      | none => world
  | .copyReply index =>
      match world.replies[index]? with
      | some datagram => { world with replies := world.replies ++ [datagram] }
      | none => world

def inFlight (world : World) : List Datagram :=
  world.requests ++ world.replies

/-- Every turn so far was ended by the reply to its own request. -/
def Own (world : World) : Prop :=
  world.ended.map Turn.answer = (List.range world.turns).map some

/-- The turns have their own replies, the collector holds the spans of the
turns after the warm-up, and at most one datagram is on its way. -/
structure Genuine (world : World) : Prop where
  own : world.Own
  measured :
    world.rtt.samples = (world.ended.map Turn.span).drop nWarmup
  single : world.inFlight.length ≤ 1

/-- The network makes no copy, and `recv` does not fail. -/
def Faithful (world : World) : Event → Prop
  | .recvFails _ => world.waiting = none
  | .copyRequest index => world.requests.length ≤ index
  | .copyReply index => world.replies.length ≤ index
  | _ => True

/-! ### The loops of ping -/

/-- What the two loops keep by themselves. -/
structure Counted (world : World) : Prop where
  ended : world.ended.length = world.turns
  bounded : world.turns ≤ nWarmup + nSamples
  sending : world.waiting ≠ none → world.turns < nWarmup + nSamples
  capacity : world.rtt.capacity = nSamples
  measured :
    world.rtt.samples = (world.ended.map Turn.span).drop nWarmup

theorem initial_counted : initial.Counted where
  ended := rfl
  bounded := Nat.zero_le _
  sending := fun waits => absurd rfl waits
  capacity := rfl
  measured := rfl

theorem Counted.finish {world : World} (counted : world.Counted)
    (waits : world.waiting ≠ none) (t0 t1 : UInt64) (answer : Option ℕ) :
    (world.finish t0 t1 answer).Counted := by
  have before := counted.sending waits
  have spans : (world.ended.map Turn.span).length = world.turns := by
    simp [counted.ended]
  refine ⟨?_, ?_, ?_, ?_, ?_⟩
  · simp [World.finish, counted.ended]
  · exact before
  · intro still
    exact absurd rfl still
  · by_cases warming : world.turns < nWarmup
    · simpa [World.finish, warming] using counted.capacity
    · simp [World.finish, warming, counted.capacity]
  · by_cases warming : world.turns < nWarmup
    · -- Nothing is past the warm-up yet, before and after.
      have short : (world.ended.map Turn.span).length ≤ nWarmup := by omega
      have grown : ((world.ended.map Turn.span) ++ [t1 - t0]).length ≤
          nWarmup := by
        simp only [List.length_append, List.length_singleton]
        omega
      have none_yet : world.rtt.samples = [] := by
        rw [counted.measured, List.drop_eq_nil_of_le short]
      simp only [World.finish, warming, if_true, List.map_append,
        List.map_cons, List.map_nil]
      rw [none_yet, List.drop_eq_nil_of_le grown]
    · have room : world.rtt.samples.length < world.rtt.capacity := by
        rw [counted.measured, counted.capacity, List.length_drop, spans]
        omega
      simp only [World.finish, warming, if_false, List.map_append,
        List.map_cons, List.map_nil]
      rw [Stats.record_samples _ room, counted.measured,
        List.drop_append_of_le_length (by omega)]

theorem step_counted {world : World} (counted : world.Counted)
    (event : Event) : (step world event).Counted := by
  obtain ⟨ended, bounded, sending, capacity, measured⟩ := counted
  cases event with
  | send t0 =>
      simp only [step]
      split
      · next ready =>
        exact ⟨ended, bounded, fun _ => ready.2, capacity, measured⟩
      · exact ⟨ended, bounded, sending, capacity, measured⟩
  | recv index t1 =>
      simp only [step]
      split
      · next t0 datagram waits found =>
        have taken : Counted
            { world with replies := world.replies.eraseIdx index } :=
          ⟨ended, bounded, sending, capacity, measured⟩
        exact taken.finish (by simp [waits]) t0 t1 _
      · exact ⟨ended, bounded, sending, capacity, measured⟩
  | recvFails t1 =>
      simp only [step]
      split
      · next t0 waits =>
        exact Counted.finish ⟨ended, bounded, sending, capacity, measured⟩
          (by simp [waits]) t0 t1 none
      · exact ⟨ended, bounded, sending, capacity, measured⟩
  | echo | loseRequest | loseReply | copyRequest | copyReply =>
      -- Pong and the network leave ping alone.
      simp only [step]
      split <;> exact ⟨ended, bounded, sending, capacity, measured⟩

/-! ### The network -/

/-- What stands while the network is faithful. -/
structure InStep (world : World) : Prop where
  own : world.Own
  current : ∀ datagram ∈ world.inFlight, datagram.request = world.turns
  /-- The request of the turn that ping waits in is on its way, answered or
  not, or lost; there is no other. -/
  whereabouts : world.requests.length + world.replies.length + world.lost =
    world.waiting.toList.length

theorem initial_inStep : initial.InStep where
  own := rfl
  current := by
    intro datagram member
    cases member
  whereabouts := rfl

theorem length_eraseIdx_found {items : List Datagram} {index : ℕ}
    {datagram : Datagram} (found : items[index]? = some datagram) :
    (items.eraseIdx index).length + 1 = items.length := by
  obtain ⟨within, _⟩ := List.getElem?_eq_some_iff.mp found
  rw [List.length_eraseIdx_of_lt within]
  omega

theorem InStep.alone {world : World} (inStep : world.InStep) :
    world.inFlight.length ≤ 1 := by
  have sum := inStep.whereabouts
  have one : world.waiting.toList.length ≤ 1 := by
    cases world.waiting <;> simp
  simp only [inFlight, List.length_append]
  omega

theorem InStep.send {world : World} (inStep : world.InStep) (t0 : UInt64) :
    (step world (.send t0)).InStep := by
  obtain ⟨own, current, whereabouts⟩ := inStep
  simp only [step]
  split
  · next ready =>
    have empty : world.requests.length + world.replies.length +
        world.lost = 0 := by simpa [ready.1] using whereabouts
    have noReplies : world.replies = [] :=
      List.length_eq_zero_iff.mp (by omega)
    have noRequests : world.requests = [] :=
      List.length_eq_zero_iff.mp (by omega)
    refine ⟨own, ?_, ?_⟩
    · simp [inFlight, noReplies, noRequests]
    · simp only [noReplies, noRequests, List.nil_append,
        List.length_singleton, List.length_nil, Option.toList_some]
      omega
  · exact ⟨own, current, whereabouts⟩

theorem InStep.echo {world : World} (inStep : world.InStep) (index : ℕ) :
    (step world (.echo index)).InStep := by
  obtain ⟨own, current, whereabouts⟩ := inStep
  simp only [step]
  split
  · next datagram found =>
    have shorter := length_eraseIdx_found found
    simp only [inFlight, List.mem_append] at current
    refine ⟨own, ?_, ?_⟩
    · intro other member
      simp only [inFlight, List.mem_append, List.mem_singleton] at member
      rcases member with request | reply | rfl
      · exact current other (Or.inl (List.mem_of_mem_eraseIdx request))
      · exact current other (Or.inr reply)
      · exact current datagram (Or.inl (List.mem_of_getElem? found))
    · simp only [List.length_append, List.length_singleton]
      omega
  · exact ⟨own, current, whereabouts⟩

theorem InStep.recv {world : World} (inStep : world.InStep) (index : ℕ)
    (t1 : UInt64) : (step world (.recv index t1)).InStep := by
  obtain ⟨own, current, whereabouts⟩ := inStep
  simp only [step]
  split
  · next t0 datagram waits found =>
    have shorter := length_eraseIdx_found found
    have one : world.requests.length + world.replies.length +
        world.lost = 1 := by simpa [waits] using whereabouts
    have noReplies : world.replies.eraseIdx index = [] :=
      List.length_eq_zero_iff.mp (by omega)
    have noRequests : world.requests = [] :=
      List.length_eq_zero_iff.mp (by omega)
    have answered : datagram.request = world.turns :=
      current datagram
        (List.mem_append_right _ (List.mem_of_getElem? found))
    refine ⟨?_, ?_, ?_⟩
    · simp only [Own] at own
      simp [Own, finish, own, answered, List.range_succ]
    · simp [finish, inFlight, noReplies, noRequests]
    · simp only [finish, noReplies, noRequests, List.length_nil,
        Option.toList_none]
      omega
  · exact ⟨own, current, whereabouts⟩

theorem InStep.lose {world : World} (inStep : world.InStep)
    {requests replies : List Datagram}
    (left : ∀ datagram ∈ requests ++ replies, datagram ∈ world.inFlight)
    (fewer : requests.length + replies.length + 1 =
      world.requests.length + world.replies.length) :
    InStep { world with
      requests := requests
      replies := replies
      lost := world.lost + 1 } where
  own := inStep.own
  current := fun datagram member =>
    inStep.current datagram (left datagram member)
  whereabouts := by
    have sum := inStep.whereabouts
    dsimp only
    omega

theorem step_inStep {world : World} (inStep : world.InStep) (event : Event)
    (faithful : world.Faithful event) : (step world event).InStep := by
  cases event with
  | send t0 => exact inStep.send t0
  | echo index => exact inStep.echo index
  | recv index t1 => exact inStep.recv index t1
  | recvFails t1 =>
      simp only [step, show world.waiting = none from faithful]
      exact inStep
  | loseRequest index =>
      simp only [step]
      split
      · next within =>
        refine inStep.lose ?_ ?_
        · intro datagram member
          simp only [inFlight, List.mem_append] at member ⊢
          exact member.imp_left List.mem_of_mem_eraseIdx
        · rw [List.length_eraseIdx_of_lt within]
          omega
      · exact inStep
  | loseReply index =>
      simp only [step]
      split
      · next within =>
        refine inStep.lose ?_ ?_
        · intro datagram member
          simp only [inFlight, List.mem_append] at member ⊢
          exact member.imp_right List.mem_of_mem_eraseIdx
        · rw [List.length_eraseIdx_of_lt within]
          omega
      · exact inStep
  | copyRequest index =>
      simp only [step, List.getElem?_eq_none (show _ ≤ index from faithful)]
      exact inStep
  | copyReply index =>
      simp only [step, List.getElem?_eq_none (show _ ≤ index from faithful)]
      exact inStep

theorem Own.waiting_of_recvFails {world : World} {t1 : UInt64}
    (own : world.Own) (next : (step world (.recvFails t1)).Own) :
    world.waiting = none := by
  cases waits : world.waiting with
  | none => rfl
  | some t0 =>
      simp only [Own, step, waits, finish, List.map_append, List.map_cons,
        List.map_nil, List.range_succ] at own next
      rw [own, List.append_cancel_left_eq] at next
      cases next

/-- A copy puts a second datagram on its way, and a failing `recv` ends a turn
that no reply answers. -/
theorem faithful_of_genuine {world : World} (inStep : world.InStep)
    (event : Event)
    (genuine : (step world event).Genuine) : world.Faithful event := by
  have alone := genuine.single
  have sum := inStep.whereabouts
  cases event with
  | send | echo | recv | loseRequest | loseReply => trivial
  | recvFails t1 =>
      change world.waiting = none
      exact inStep.own.waiting_of_recvFails genuine.own
  | copyRequest index =>
      change world.requests.length ≤ index
      by_contra within
      have found := List.getElem?_eq_getElem (Nat.lt_of_not_le within)
      simp only [step, found, inFlight, List.length_append,
        List.length_singleton] at alone
      omega
  | copyReply index =>
      change world.replies.length ≤ index
      by_contra within
      have found := List.getElem?_eq_getElem (Nat.lt_of_not_le within)
      simp only [step, found, inFlight, List.length_append,
        List.length_singleton] at alone
      omega

theorem genuine_exact : Run.Exact step Faithful Genuine
    (fun world => world.InStep ∧ world.Counted) where
  preserved := by
    rintro world event faithful ⟨inStep, counted⟩
    exact ⟨step_inStep inStep event faithful, step_counted counted event⟩
  sound := by
    rintro world ⟨inStep, counted⟩
    exact ⟨inStep.own, counted.measured, inStep.alone⟩
  exposed := by
    rintro world event ⟨inStep, counted⟩ genuine
    exact faithful_of_genuine inStep event genuine

/-- Through a whole run every turn is measured against its own request, with
one datagram on its way at most, exactly when the network makes no copy and no
`recv` of ping fails. -/
theorem genuine_throughout_iff (events : List Event) :
    Run.Throughout step Genuine initial events ↔
      Run.Along step Faithful initial events :=
  genuine_exact.throughout_iff initial events
    ⟨initial_inStep, initial_counted⟩

theorem run_invariant {world : World} (inStep : world.InStep)
    (counted : world.Counted) (events : List Event)
    (faithful : Run.Along step Faithful world events) :
    (Run.final step world events).InStep ∧
      (Run.final step world events).Counted :=
  Run.final_invariant_of_along (fun next => next.InStep ∧ next.Counted)
    genuine_exact.preserved world events ⟨inStep, counted⟩ faithful

/-! ### A stale reply -/

theorem InStep.lone {world : World} (inStep : world.InStep)
    (some_inFlight : 0 < world.requests.length + world.replies.length) :
    (∃ t0, world.waiting = some t0) ∧
      world.requests.length + world.replies.length = 1 ∧
      world.lost = 0 := by
  have sum := inStep.whereabouts
  cases waits : world.waiting with
  | none =>
      simp only [waits, Option.toList_none, List.length_nil] at sum
      omega
  | some t0 =>
      simp only [waits, Option.toList_some, List.length_singleton] at sum
      exact ⟨⟨t0, rfl⟩, by omega, by omega⟩

theorem InStep.only_request {world : World} (inStep : world.InStep)
    (present : 0 < world.requests.length) :
    ∃ t0 datagram, world.waiting = some t0 ∧ world.requests = [datagram] ∧
      world.replies = [] ∧ datagram.request = world.turns := by
  obtain ⟨⟨t0, waits⟩, one, _⟩ := inStep.lone (Nat.add_pos_left present _)
  obtain ⟨datagram, single⟩ := List.length_eq_one_iff.mp
    (show world.requests.length = 1 by omega)
  have noReplies : world.replies = [] :=
    List.length_eq_zero_iff.mp (by omega)
  refine ⟨t0, datagram, waits, single, noReplies, ?_⟩
  exact inStep.current datagram (by simp [inFlight, single])

theorem InStep.only_reply {world : World} (inStep : world.InStep)
    (present : 0 < world.replies.length) :
    ∃ t0 datagram, world.waiting = some t0 ∧ world.requests = [] ∧
      world.replies = [datagram] ∧ datagram.request = world.turns := by
  obtain ⟨⟨t0, waits⟩, one, _⟩ := inStep.lone (Nat.add_pos_right _ present)
  obtain ⟨datagram, single⟩ := List.length_eq_one_iff.mp
    (show world.replies.length = 1 by omega)
  have noRequests : world.requests = [] :=
    List.length_eq_zero_iff.mp (by omega)
  refine ⟨t0, datagram, waits, noRequests, single, ?_⟩
  exact inStep.current datagram (by simp [inFlight, single])

/-- Of two replies to one request, the second ends the next turn. -/
theorem stale_reply (world : World) (t0 : UInt64) (reply : Datagram)
    (own : world.Own) (waits : world.waiting = some t0)
    (twice : world.replies = [reply, reply])
    (answers : reply.request = world.turns)
    (early : world.turns + 1 < nWarmup + nSamples) :
    ∃ more, Run.Along step Faithful world more ∧
      ¬(Run.final step world more).Own := by
  refine ⟨[.recv 0 0, .send 0, .recv 0 0],
    ⟨trivial, trivial, trivial, trivial⟩, ?_⟩
  have ends : (Run.final step world
      [.recv 0 0, .send 0, .recv 0 0]).ended.map Turn.answer =
        (List.range world.turns).map some ++
          [some world.turns, some world.turns] ∧
      (Run.final step world [.recv 0 0, .send 0, .recv 0 0]).turns =
        world.turns + 2 := by
    simp only [Own] at own
    simp [step, finish, waits, twice, answers, early, own]
  simp only [Own, ends.1, ends.2, List.range_succ]
  simp

theorem InStep.stale_request {world : World} (inStep : world.InStep)
    {index : ℕ} (within : index < world.requests.length)
    (early : world.turns + 1 < nWarmup + nSamples) :
    ∃ more, Run.Along step Faithful (step world (.copyRequest index)) more ∧
      ¬(Run.final step (step world (.copyRequest index)) more).Own := by
  obtain ⟨t0, request, waits, single, noReplies, asks⟩ :=
    inStep.only_request (Nat.zero_lt_of_lt within)
  have first : index = 0 := by simpa [single] using within
  subst first
  -- Pong answers both.
  obtain ⟨more, along, wrong⟩ := stale_reply
    (Run.final step (step world (.copyRequest 0)) [.echo 0, .echo 0])
    t0 { request with bytes := request.bytes.take 1024 }
    (by simpa [step, single, Own] using inStep.own)
    (by simp [step, single, waits])
    (by simp [step, single, noReplies])
    (by simp [step, single, asks])
    (by simpa [step, single] using early)
  exact ⟨.echo 0 :: .echo 0 :: more, ⟨trivial, trivial, along⟩, wrong⟩

theorem InStep.stale_copy {world : World} (inStep : world.InStep)
    {index : ℕ} (within : index < world.replies.length)
    (early : world.turns + 1 < nWarmup + nSamples) :
    ∃ more, Run.Along step Faithful (step world (.copyReply index)) more ∧
      ¬(Run.final step (step world (.copyReply index)) more).Own := by
  obtain ⟨t0, reply, waits, _, single, answers⟩ :=
    inStep.only_reply (Nat.zero_lt_of_lt within)
  have first : index = 0 := by simpa [single] using within
  subst first
  exact stale_reply (step world (.copyReply 0)) t0 reply
    (by simpa [step, single, Own] using inStep.own)
    (by simp [step, single, waits])
    (by simp [step, single])
    (by simp [step, single, answers])
    (by simpa [step, single] using early)

/-- While another turn is to come, the faithful steps are exactly those after
which no faithful network can make ping take a reply for that to a different
request. -/
theorem own_kept_iff (events : List Event) (event : Event)
    (faithful : Run.Along step Faithful initial events)
    (early : (Run.final step initial events).turns + 1 <
      nWarmup + nSamples) :
    (∀ more,
      Run.Along step Faithful
        (step (Run.final step initial events) event) more →
      (Run.final step
        (step (Run.final step initial events) event) more).Own) ↔
    (Run.final step initial events).Faithful event := by
  obtain ⟨inStep, counted⟩ :=
    run_invariant initial_inStep initial_counted events faithful
  generalize Run.final step initial events = world at *
  constructor
  · intro kept
    cases event with
    | send | echo | recv | loseRequest | loseReply => trivial
    | recvFails t1 =>
        change world.waiting = none
        exact inStep.own.waiting_of_recvFails (kept [] trivial)
    | copyRequest index =>
        change world.requests.length ≤ index
        by_contra beyond
        obtain ⟨more, along, wrong⟩ :=
          inStep.stale_request (Nat.lt_of_not_le beyond) early
        exact wrong (kept more along)
    | copyReply index =>
        change world.replies.length ≤ index
        by_contra beyond
        obtain ⟨more, along, wrong⟩ :=
          inStep.stale_copy (Nat.lt_of_not_le beyond) early
        exact wrong (kept more along)
  · intro now more along
    exact (run_invariant (step_inStep inStep event now)
      (step_counted counted event) more along).1.own

theorem own_kept_after_turn :
    (∀ more,
      Run.Along step Faithful
        (step (Run.final step initial [.send 5, .echo 0, .recv 0 9])
          (.send 12)) more →
      (Run.final step
        (step (Run.final step initial [.send 5, .echo 0, .recv 0 9])
          (.send 12)) more).Own) ↔
    (Run.final step initial [.send 5, .echo 0, .recv 0 9]).Faithful
      (.send 12) :=
  own_kept_iff [.send 5, .echo 0, .recv 0 9] (.send 12)
    ⟨trivial, trivial, trivial, trivial⟩ (by decide)

/-! ### A lost datagram -/

/-- Ping waits for a reply that will not come, or has made all its turns. -/
structure Stuck (turns : ℕ) (world : World) : Prop where
  turns : world.turns = turns
  noRequests : world.requests = []
  noReplies : world.replies = []
  silent : world.waiting = none → nWarmup + nSamples ≤ world.turns

theorem Stuck.step {turns : ℕ} {world : World} (stuck : world.Stuck turns)
    (event : Event) (faithful : world.Faithful event) :
    World.step world event = world := by
  obtain ⟨same, noRequests, noReplies, silent⟩ := stuck
  cases event with
  | send t0 =>
      refine if_neg ?_
      rintro ⟨waits, before⟩
      have after := silent waits
      omega
  | recvFails t1 =>
      simp only [World.step, show world.waiting = none from faithful]
  | recv index t1 =>
      cases waits : world.waiting <;> simp [World.step, waits, noReplies]
  | echo | loseRequest | copyRequest => simp [World.step, noRequests]
  | loseReply | copyReply => simp [World.step, noReplies]

theorem Stuck.final {turns : ℕ} {world : World} (stuck : world.Stuck turns)
    (events : List Event) (faithful : Run.Along World.step Faithful world events) :
    (Run.final World.step world events).Stuck turns := by
  refine Run.final_invariant_of_along (Stuck turns) ?_ world events stuck
    faithful
  intro next event now still
  rwa [still.step event now]

theorem next_turn {world : World} (inStep : world.InStep)
    (kept : world.lost = 0) (before : world.turns < nWarmup + nSamples) :
    ∃ more, Run.Along step Faithful world more ∧
      (Run.final step world more).turns = world.turns + 1 ∧
      (Run.final step world more).lost = 0 := by
  have sum := inStep.whereabouts
  cases waits : world.waiting with
  | none =>
      simp only [waits, Option.toList_none, List.length_nil] at sum
      have noRequests : world.requests = [] :=
        List.length_eq_zero_iff.mp (by omega)
      have noReplies : world.replies = [] :=
        List.length_eq_zero_iff.mp (by omega)
      refine ⟨[.send 0, .echo 0, .recv 0 0],
        ⟨trivial, trivial, trivial, trivial⟩, ?_, ?_⟩ <;>
      simp [step, finish, waits, before, noRequests, noReplies, kept]
  | some t0 =>
      simp only [waits, Option.toList_some, List.length_singleton] at sum
      rcases Nat.eq_zero_or_pos world.replies.length with absent | present
      · obtain ⟨_, datagram, _, single, noReplies, _⟩ :=
          inStep.only_request (by omega)
        refine ⟨[.echo 0, .recv 0 0], ⟨trivial, trivial, trivial⟩, ?_, ?_⟩ <;>
        simp [step, finish, waits, single, noReplies, kept]
      · obtain ⟨_, datagram, _, _, single, _⟩ := inStep.only_reply present
        refine ⟨[.recv 0 0], ⟨trivial, trivial⟩, ?_, ?_⟩ <;>
        simp [step, finish, waits, single, kept]

theorem remaining_turns (left : ℕ) {world : World} (inStep : world.InStep)
    (counted : world.Counted) (kept : world.lost = 0)
    (total : world.turns + left = nWarmup + nSamples) :
    ∃ more, Run.Along step Faithful world more ∧
      (Run.final step world more).turns = nWarmup + nSamples := by
  induction left generalizing world with
  | zero => exact ⟨[], trivial, total⟩
  | succ left ih =>
      obtain ⟨turn, along, ended, still⟩ :=
        next_turn inStep kept (by omega)
      obtain ⟨inStep', counted'⟩ :=
        run_invariant inStep counted turn along
      obtain ⟨more, rest, all⟩ := ih inStep' counted' still (by omega)
      refine ⟨turn ++ more, ?_, ?_⟩
      · exact (Run.along_append world turn more).mpr ⟨along, rest⟩
      · rwa [Run.final_append]

theorem Counted.samples_length {world : World} (counted : world.Counted) :
    world.rtt.samples.length = world.turns - nWarmup := by
  simp [counted.measured, counted.ended]

/-- Neither program sends a datagram again: without copies and failing recvs
ping can still come to its last sample exactly when the network has lost
nothing so far. -/
theorem finishes_iff (events : List Event)
    (faithful : Run.Along step Faithful initial events) :
    (∃ more,
      Run.Along step Faithful (Run.final step initial events) more ∧
      (Run.final step (Run.final step initial events)
        more).rtt.samples.length = nSamples) ↔
    (Run.final step initial events).lost = 0 := by
  obtain ⟨inStep, counted⟩ :=
    run_invariant initial_inStep initial_counted events faithful
  generalize Run.final step initial events = world at *
  constructor
  · rintro ⟨more, along, full⟩
    by_contra lossy
    have sum := inStep.whereabouts
    obtain ⟨t0, waits⟩ : ∃ t0, world.waiting = some t0 := by
      cases waits : world.waiting with
      | none =>
          simp only [waits, Option.toList_none, List.length_nil] at sum
          omega
      | some t0 => exact ⟨t0, rfl⟩
    simp only [waits, Option.toList_some, List.length_singleton] at sum
    have stuck : world.Stuck world.turns :=
      ⟨rfl, List.length_eq_zero_iff.mp (by omega),
        List.length_eq_zero_iff.mp (by omega), by simp [waits]⟩
    have last := (stuck.final more along).turns
    have before := counted.sending (by simp [waits])
    have counted' := (run_invariant inStep counted more along).2
    have some_samples : 0 < nSamples := by decide
    rw [counted'.samples_length, last] at full
    omega
  · intro kept
    obtain ⟨more, along, all⟩ := remaining_turns
      (nWarmup + nSamples - world.turns) inStep counted kept
      (Nat.add_sub_cancel' counted.bounded)
    refine ⟨more, along, ?_⟩
    have counted' := (run_invariant inStep counted more along).2
    rw [counted'.samples_length, all, Nat.add_sub_cancel_left]

theorem finishes_after_turn :
    (∃ more,
      Run.Along step Faithful
        (Run.final step initial [.send 5, .echo 0, .recv 0 9]) more ∧
      (Run.final step (Run.final step initial [.send 5, .echo 0, .recv 0 9])
        more).rtt.samples.length = nSamples) ↔
    (Run.final step initial [.send 5, .echo 0, .recv 0 9]).lost = 0 :=
  finishes_iff [.send 5, .echo 0, .recv 0 9]
    ⟨trivial, trivial, trivial, trivial⟩

end World

end PingPong

end Waler
