/-
How discarded packets wear the receive ring out.

`poll` reposts the buffer of a good packet only.  A buffer that the device has
used for a packet it discards never comes back, so each discarded packet leaves
the ring one buffer smaller, and after as many of them as there are slots
nothing is received any more.
-/

import Mathlib.Data.List.Flatten
import Waler.Efvi.BufferPool
import Waler.Foundation.Simulation

namespace Waler

namespace EfviInterface

/-- The buffers that the device has or will have again. -/
def circulating (interface : EfviInterface) : List ℕ :=
  interface.queue.posted ++ interface.queue.events.flatMap repostedOf

/-- The buffer that a step of the device spends on a packet it discards. -/
def discarded (interface : EfviInterface) : RxStep → List ℕ
  | .discard rqId => if rqId ∈ interface.queue.posted then [rqId] else []
  | _ => []

def delivered (interface : EfviInterface) : RxStep → List EfviFrame
  | .poll ready tsc => (interface.poll ready tsc).2
  | _ => []

/-- Buffers in circulation and buffers spent make up the pool, and each spent
one is counted or about to be. -/
structure Circulates (spent : List ℕ) (interface : EfviInterface) :
    Prop where
  room : interface.held.length ≤ interface.queue.capacity
  all : (interface.circulating ++ spent).Perm (List.range interface.nSlots)
  counted : interface.nDiscards +
      UInt64.ofNat (interface.queue.events.flatMap discardedOf).length =
    UInt64.ofNat spent.length

/-! ### Steps of the device -/

theorem consume_of_posted {interface : EfviInterface} {rqId : ℕ}
    (posted : rqId ∈ interface.queue.posted) (event : EfEvent) :
    (interface.consume rqId event).queue.posted =
        interface.queue.posted.erase rqId ∧
      (interface.consume rqId event).queue.events =
        interface.queue.events ++ [event] ∧
      (interface.consume rqId event).nDiscards = interface.nDiscards := by
  unfold consume
  rw [if_pos posted]
  exact ⟨rfl, rfl, rfl⟩

theorem consume_of_not_posted {interface : EfviInterface} {rqId : ℕ}
    (missing : rqId ∉ interface.queue.posted) (event : EfEvent) :
    interface.consume rqId event = interface :=
  if_neg missing

theorem Circulates.consume_room {spent : List ℕ} {interface : EfviInterface}
    (circulates : interface.Circulates spent) {rqId : ℕ} {event : EfEvent}
    (names : bufferOf event = [rqId]) :
    (interface.consume rqId event).held.length ≤
      (interface.consume rqId event).queue.capacity := by
  rw [(interface.consume_held_perm names).length_eq,
    (interface.consume_slots rqId event).2]
  exact circulates.room

theorem Circulates.receive {spent : List ℕ} {interface : EfviInterface}
    (circulates : interface.Circulates spent) (rqId : ℕ) (bytes : UInt16)
    (timestamp : Option PreciseTime) :
    (interface.consume rqId (.rx rqId bytes timestamp)).Circulates spent := by
  by_cases posted : rqId ∈ interface.queue.posted
  · obtain ⟨postedEq, eventsEq, countEq⟩ :=
      consume_of_posted posted (.rx rqId bytes timestamp)
    refine ⟨circulates.consume_room rfl, ?_, ?_⟩
    · rw [(interface.consume_slots rqId _).1]
      refine List.Perm.trans (List.Perm.append_right spent ?_) circulates.all
      unfold circulating
      rw [postedEq, eventsEq, List.flatMap_append, ← List.append_assoc]
      refine (List.perm_append_singleton rqId _).trans ?_
      rw [← List.cons_append]
      exact List.Perm.append_right _ (List.perm_cons_erase posted).symm
    · rw [countEq, eventsEq, List.flatMap_append]
      change _ + UInt64.ofNat (_ ++ []).length = _
      rw [List.append_nil]
      exact circulates.counted
  · rw [consume_of_not_posted posted]
    exact circulates

theorem Circulates.discard {spent : List ℕ} {interface : EfviInterface}
    (circulates : interface.Circulates spent) (rqId : ℕ) :
    (interface.consume rqId (.rxDiscard rqId)).Circulates
      (spent ++ interface.discarded (.discard rqId)) := by
  by_cases posted : rqId ∈ interface.queue.posted
  · obtain ⟨postedEq, eventsEq, countEq⟩ :=
      consume_of_posted posted (.rxDiscard rqId)
    have gone : interface.discarded (.discard rqId) = [rqId] := if_pos posted
    rw [gone]
    refine ⟨circulates.consume_room rfl, ?_, ?_⟩
    · rw [(interface.consume_slots rqId _).1]
      refine List.Perm.trans ?_ circulates.all
      unfold circulating
      rw [postedEq, eventsEq, List.flatMap_append]
      change ((_ ++ (_ ++ [])) ++ _).Perm _
      rw [List.append_nil, ← List.append_assoc]
      refine (List.perm_append_singleton rqId _).trans ?_
      rw [← List.cons_append, ← List.cons_append]
      exact List.Perm.append_right _ (List.Perm.append_right _
        (List.perm_cons_erase posted).symm)
    · rw [countEq, eventsEq, List.flatMap_append, List.length_append,
        List.length_append]
      change _ + UInt64.ofNat (_ + 1) = UInt64.ofNat (_ + 1)
      rw [UInt64.ofNat_add, UInt64.ofNat_add, ← UInt64.add_assoc, circulates.counted]
  · have none : interface.discarded (.discard rqId) = [] := if_neg posted
    rw [none, List.append_nil, consume_of_not_posted posted]
    exact circulates

/-! ### Polls -/

theorem handleEvents_nDiscards (tsc : UInt64) (interface : EfviInterface)
    (events : List EfEvent) :
    (handleEvents tsc interface events).1.nDiscards =
      interface.nDiscards +
        UInt64.ofNat (events.flatMap discardedOf).length := by
  induction events generalizing interface with
  | nil => exact (UInt64.add_zero _).symm
  | cons event rest ih =>
      refine (ih (interface.handleEvent tsc event).1).trans ?_
      rw [List.flatMap_cons, List.length_append]
      cases event with
      | rx rqId bytes timestamp =>
          rw [show (discardedOf (.rx rqId bytes timestamp)).length = 0 from rfl,
            Nat.zero_add]
          rfl
      | rxDiscard rqId =>
          rw [show (discardedOf (.rxDiscard rqId)).length = 1 from rfl,
            UInt64.ofNat_add, ← UInt64.add_assoc]
          rfl
      | other =>
          rw [show (discardedOf .other).length = 0 from rfl, Nat.zero_add]
          rfl

/-- A poll delivers a frame for each good packet of its batch. -/
theorem handleEvents_delivered (tsc : UInt64) (interface : EfviInterface)
    (events : List EfEvent) :
    (handleEvents tsc interface events).2.length =
      (events.flatMap repostedOf).length := by
  induction events generalizing interface with
  | nil => rfl
  | cons event rest ih =>
      change ((interface.handleEvent tsc event).2.toList ++
        (handleEvents tsc (interface.handleEvent tsc event).1 rest).2).length =
          _
      rw [List.length_append, ih, List.flatMap_cons, List.length_append]
      cases event <;> rfl

theorem poll_delivered (interface : EfviInterface) (ready : ℕ)
    (tsc : UInt64) :
    (interface.delivered (.poll ready tsc)).length =
      ((interface.batch ready).flatMap repostedOf).length :=
  handleEvents_delivered tsc _ _

theorem reposted_sublist (events : List EfEvent) :
    (events.flatMap repostedOf).Sublist (events.flatMap bufferOf) := by
  refine List.Sublist.flatMap_right events (fun event _ => ?_)
  cases event with
  | rx rqId bytes timestamp => exact List.Sublist.refl _
  | rxDiscard rqId => exact List.nil_sublist _
  | other => exact List.Sublist.refl _

/-- A poll moves buffers, but takes none out of circulation. -/
theorem poll_circulating {interface : EfviInterface}
    (room : interface.held.length ≤ interface.queue.capacity)
    (ready : ℕ) (tsc : UInt64) :
    (interface.poll ready tsc).1.circulating = interface.circulating := by
  have split := interface.batch_append_drop ready
  unfold circulating
  rw [poll_queue_of_room room]
  dsimp only
  rw [List.append_assoc, ← List.flatMap_append, split]

theorem Circulates.poll {spent : List ℕ} {interface : EfviInterface}
    (circulates : interface.Circulates spent) (ready : ℕ) (tsc : UInt64) :
    (interface.poll ready tsc).1.Circulates spent := by
  have split := interface.batch_append_drop ready
  have queueEq := poll_queue_of_room circulates.room ready tsc
  refine ⟨?_, ?_, ?_⟩
  · have fewer := (reposted_sublist (interface.batch ready)).length_le
    have room := circulates.room
    unfold held at room ⊢
    rw [← split, List.flatMap_append] at room
    rw [queueEq]
    simp only [List.length_append] at room ⊢
    omega
  · rw [poll_circulating circulates.room]
    have slotsEq : (interface.poll ready tsc).1.nSlots = interface.nSlots :=
      handleEvents_nSlots tsc _ _
    rw [slotsEq]
    exact circulates.all
  · have countEq : (interface.poll ready tsc).1.nDiscards =
        interface.nDiscards + UInt64.ofNat
          ((interface.batch ready).flatMap discardedOf).length :=
      handleEvents_nDiscards tsc _ _
    rw [countEq, queueEq]
    dsimp only
    rw [UInt64.add_assoc, ← UInt64.ofNat_add, ← List.length_append,
      ← List.flatMap_append, split]
    exact circulates.counted

/-! ### Runs -/

theorem initial_circulates (rxqCapacity maxFrameLen prefixLen ringCap : ℕ) :
    (initial rxqCapacity maxFrameLen prefixLen ringCap).Circulates [] := by
  have kept := initial_kept rxqCapacity maxFrameLen prefixLen ringCap
  have quiet : (initial rxqCapacity maxFrameLen prefixLen
      ringCap).queue.events = [] := by
    unfold initial
    dsimp only
    rw [foldl_receivePost _ _ (by
      rw [List.length_range]
      dsimp only
      split <;> exact (Nat.zero_add _).le.trans (by omega))]
  have same : (initial rxqCapacity maxFrameLen prefixLen
      ringCap).circulating = (initial rxqCapacity maxFrameLen prefixLen
        ringCap).held := by
    unfold circulating held
    rw [quiet]
    rfl
  refine ⟨?_, ?_, ?_⟩
  · rw [kept.all.length_eq, List.length_range]
    exact kept.slots
  · rw [List.append_nil, same]
    exact kept.all
  · rw [quiet]
    rfl

theorem Circulates.step {spent : List ℕ} {interface : EfviInterface}
    (circulates : interface.Circulates spent) (input : RxStep) :
    (interface.step input).Circulates (spent ++ interface.discarded input) := by
  cases input with
  | receive rqId bytes timestamp =>
      rw [show interface.discarded (.receive rqId bytes timestamp) = [] from
        rfl, List.append_nil]
      exact circulates.receive rqId bytes timestamp
  | discard rqId => exact circulates.discard rqId
  | poll ready tsc =>
      rw [show interface.discarded (.poll ready tsc) = [] from rfl,
        List.append_nil]
      exact circulates.poll ready tsc

theorem Circulates.final {spent : List ℕ} {interface : EfviInterface}
    (circulates : interface.Circulates spent) (inputs : List RxStep) :
    (Run.final EfviInterface.step interface inputs).Circulates
      (spent ++ Run.emitted EfviInterface.step discarded interface inputs) := by
  induction inputs generalizing spent interface with
  | nil =>
      rw [Run.emitted_nil, List.append_nil]
      exact circulates
  | cons input rest ih =>
      rw [Run.emitted_cons, ← List.append_assoc]
      exact ih (circulates.step input)

/-- Without a buffer in circulation no step delivers a frame, nor brings a
buffer back. -/
theorem Circulates.deaf {spent : List ℕ} {interface : EfviInterface}
    (circulates : interface.Circulates spent)
    (dry : interface.circulating = []) (inputs : List RxStep) :
    Run.emitted EfviInterface.step delivered interface inputs = [] := by
  induction inputs generalizing spent interface with
  | nil => rfl
  | cons input rest ih =>
      obtain ⟨notPosted, notQueued⟩ := List.append_eq_nil_iff.mp dry
      have missing : ∀ rqId, rqId ∉ interface.queue.posted := by
        intro rqId listed
        rw [notPosted] at listed
        cases listed
      rw [Run.emitted_cons]
      have later := ih (circulates.step input)
      cases input with
      | receive rqId bytes timestamp =>
          exact later (by
            change (interface.consume rqId _).circulating = []
            rw [consume_of_not_posted (missing rqId)]
            exact dry)
      | discard rqId =>
          exact later (by
            change (interface.consume rqId _).circulating = []
            rw [consume_of_not_posted (missing rqId)]
            exact dry)
      | poll ready tsc =>
          have none : interface.delivered (.poll ready tsc) = [] := by
            rw [← List.length_eq_zero_iff, poll_delivered,
              List.length_eq_zero_iff]
            rw [← interface.batch_append_drop ready, List.flatMap_append]
              at notQueued
            exact (List.append_eq_nil_iff.mp notQueued).1
          rw [none, List.nil_append]
          exact later ((poll_circulating circulates.room ready tsc).trans dry)

/-- Polling reaches a good packet that the device has reported. -/
theorem Circulates.polled {spent : List ℕ} {interface : EfviInterface}
    (circulates : interface.Circulates spent)
    (reported : interface.queue.events.flatMap repostedOf ≠ []) :
    ∃ inputs, Run.emitted EfviInterface.step delivered interface inputs ≠
      [] := by
  induction waiting : interface.queue.events.length
    using Nat.strong_induction_on generalizing interface with
  | _ size ih =>
      by_cases now : (interface.batch maxEvents).flatMap repostedOf = []
      · have split := interface.batch_append_drop maxEvents
        have queueEq := poll_queue_of_room circulates.room maxEvents 0
        have remain : (interface.poll maxEvents 0).1.queue.events =
            interface.queue.events.drop maxEvents := by
          rw [queueEq]
          rfl
        have shorter : (interface.poll maxEvents 0).1.queue.events.length <
            interface.queue.events.length := by
          have some : interface.queue.events ≠ [] := by
            intro empty
            rw [empty] at reported
            exact reported rfl
          have positive := List.length_pos_iff.mpr some
          rw [remain, List.length_drop]
          unfold maxEvents
          omega
        obtain ⟨inputs, heard⟩ := ih _ (waiting ▸ shorter)
          (circulates.poll maxEvents 0) (by
            rw [← split, List.flatMap_append, now, List.nil_append]
              at reported
            rw [remain]
            exact reported) rfl
        refine ⟨.poll maxEvents 0 :: inputs, fun silent => heard ?_⟩
        exact (List.append_eq_nil_iff.mp silent).2
      · refine ⟨[.poll maxEvents 0], fun silent => now ?_⟩
        have none := (List.append_eq_nil_iff.mp silent).1
        rw [← List.length_eq_zero_iff, ← poll_delivered interface maxEvents 0,
          none]
        rfl

theorem Circulates.hears {spent : List ℕ} {interface : EfviInterface}
    (circulates : interface.Circulates spent)
    (some : interface.circulating ≠ []) :
    ∃ inputs, Run.emitted EfviInterface.step delivered interface inputs ≠
      [] := by
  by_cases reported : interface.queue.events.flatMap repostedOf = []
  · unfold circulating at some
    rw [reported, List.append_nil] at some
    obtain ⟨rqId, posted⟩ := List.exists_mem_of_ne_nil _ some
    obtain ⟨inputs, heard⟩ := (circulates.receive rqId 0 none).polled (by
      rw [(consume_of_posted posted _).2.1, List.flatMap_append]
      exact List.append_ne_nil_of_right_ne_nil _ (List.cons_ne_nil rqId []))
    exact ⟨.receive rqId 0 none :: inputs, heard⟩
  · exact circulates.polled reported

/-- For every interface and every sequence of receptions, discarded packets
and polls: the interface can still deliver a packet exactly when the device
has discarded fewer packets than there are slots.  `discard_count` is the
number discarded, less those whose events wait. -/
theorem delivers_again_iff (rxqCapacity maxFrameLen prefixLen ringCap : ℕ)
    (inputs : List RxStep) :
    let start := initial rxqCapacity maxFrameLen prefixLen ringCap
    let interface := Run.final step start inputs
    let spent := Run.emitted step discarded start inputs
    ((∃ later, Run.emitted step delivered interface later ≠ []) ↔
        spent.length < start.nSlots) ∧
      interface.nDiscards + UInt64.ofNat
          (interface.queue.events.flatMap discardedOf).length =
        UInt64.ofNat spent.length := by
  intro start interface spent
  have circulates : interface.Circulates spent :=
    (initial_circulates rxqCapacity maxFrameLen prefixLen ringCap).final inputs
  have slotsEq : interface.nSlots = start.nSlots := by
    refine Run.final_invariant (fun state => state.nSlots = start.nSlots)
      ?_ start inputs rfl
    intro state input same
    rw [← same]
    cases input with
    | receive rqId bytes timestamp => exact (state.consume_slots rqId _).1
    | discard rqId => exact (state.consume_slots rqId _).1
    | poll ready tsc => exact handleEvents_nSlots tsc _ _
  have total := circulates.all.length_eq
  rw [List.length_append, List.length_range, slotsEq] at total
  refine ⟨⟨?_, fun fewer => ?_⟩, circulates.counted⟩
  · rintro ⟨later, heard⟩
    have some : interface.circulating ≠ [] :=
      fun dry => heard (circulates.deaf dry later)
    have positive := List.length_pos_iff.mpr some
    omega
  · apply circulates.hears
    intro dry
    rw [dry, List.length_nil] at total
    omega

end EfviInterface

end Waler
