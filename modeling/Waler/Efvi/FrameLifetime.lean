/-
How long a delivered frame keeps its bytes.

`poll` is taken apart into the steps between which the device can act: the
event-queue poll, one call of `fn`, one `repost`, the return.  The device may
write into any buffer that is posted, at any time until the event that
consumes it, and never outside that buffer.
-/

import Waler.Efvi.BufferPool

namespace Waler

namespace EfviInterface

/-! ### Polling step by step -/

inductive PollPhase
  -- Not inside `poll`.
  | returned
  -- In the loop, in front of these events.
  | looping (tsc : UInt64) (evs : List EfEvent)
  -- `fn` has returned for this buffer; `repost` comes next.
  | reposting (tsc : UInt64) (rqId : ℕ) (evs : List EfEvent)
  deriving DecidableEq

def PollPhase.evs : PollPhase → List EfEvent
  | .returned => []
  | .looping _ evs => evs
  | .reposting _ _ evs => evs

/-- The buffers a running `poll` still has to give back. -/
def PollPhase.buffers : PollPhase → List ℕ
  | .returned => []
  | .looping _ evs => evs.flatMap bufferOf
  | .reposting _ rqId evs => rqId :: evs.flatMap bufferOf

/-- A frame that was passed to `fn`, with the bytes `fn` found in it. -/
structure DeliveredFrame where
  rqId : ℕ
  frame : EfviFrame
  bytes : List UInt8
  deriving DecidableEq

/-- `delivered` lists the frames delivered since the last `poll` started,
which are the ones the caller may still look at. -/
structure PollState where
  interface : EfviInterface
  phase : PollPhase
  delivered : List DeliveredFrame

inductive LifetimeStep
  -- The device writes into a posted buffer.
  | write (rqId offset : ℕ) (bytes : List UInt8)
  -- The device reports a good packet of as many bytes as the buffer can hold.
  | receive (rqId : ℕ) (bytes : UInt16) (timestamp : Option PreciseTime)
  | discard (rqId : ℕ)
  -- The caller calls `poll`.
  | poll (ready : ℕ) (tsc : UInt64)
  -- The next step of the `poll` that is running.
  | advance

def deliver (interface : EfviInterface) (tsc : UInt64) (rqId : ℕ)
    (bytes : UInt16) (timestamp : Option PreciseTime) : DeliveredFrame :=
  let frame := interface.frame tsc rqId bytes timestamp
  { rqId := rqId
    frame := frame
    bytes := interface.pool.read frame.data frame.len }

def MayWrite (interface : EfviInterface) (rqId offset : ℕ)
    (bytes : List UInt8) : Prop :=
  rqId ∈ interface.queue.posted ∧ offset + bytes.length ≤ interface.slotLen

instance (interface : EfviInterface) (rqId offset : ℕ) (bytes : List UInt8) :
    Decidable (interface.MayWrite rqId offset bytes) :=
  inferInstanceAs (Decidable (_ ∧ _))

def written (interface : EfviInterface) (rqId offset : ℕ)
    (bytes : List UInt8) : EfviInterface :=
  { interface with
    pool := interface.pool.write (interface.slot rqId + offset) bytes }

namespace PollState

def initial (rxqCapacity maxFrameLen prefixLen ringCap : ℕ) : PollState :=
  { interface :=
      EfviInterface.initial rxqCapacity maxFrameLen prefixLen ringCap
    phase := .returned
    delivered := [] }

def start (state : PollState) (ready : ℕ) (tsc : UInt64) : PollState :=
  match state.phase with
  | .returned =>
      let (evs, queue) :=
        state.interface.queue.eventqPoll (min ready maxEvents)
      { interface := { state.interface with queue := queue }
        phase := .looping tsc evs
        delivered := [] }
  | _ => state

def advance (state : PollState) : PollState :=
  match state.phase with
  | .returned => state
  | .looping _ [] => { state with phase := .returned }
  | .looping tsc (.rx rqId bytes timestamp :: evs) =>
      { state with
        phase := .reposting tsc rqId evs
        delivered := state.delivered ++
          [state.interface.deliver tsc rqId bytes timestamp] }
  | .looping tsc (.rxDiscard _ :: evs) =>
      { state with
        interface :=
          { state.interface with nDiscards := state.interface.nDiscards + 1 }
        phase := .looping tsc evs }
  | .looping tsc (.other :: evs) => { state with phase := .looping tsc evs }
  | .reposting tsc rqId evs =>
      { state with
        interface := state.interface.repost rqId
        phase := .looping tsc evs }

def step (state : PollState) : LifetimeStep → PollState
  | .write rqId offset bytes =>
      if state.interface.MayWrite rqId offset bytes then
        { state with interface := state.interface.written rqId offset bytes }
      else state
  | .receive rqId bytes timestamp =>
      if bytes.toNat ≤ state.interface.slotLen then
        { state with
          interface :=
            state.interface.consume rqId (.rx rqId bytes timestamp) }
      else state
  | .discard rqId =>
      { state with
        interface := state.interface.consume rqId (.rxDiscard rqId) }
  | .poll ready tsc => state.start ready tsc
  | .advance => state.advance

/-! ### The whole of a poll -/

/-- The steps of a poll that no device action interrupts are the event loop of
`poll`. -/
theorem advance_handleEvents (tsc : UInt64) (evs : List EfEvent)
    (interface : EfviInterface) (delivered : List DeliveredFrame) :
    ∃ count finished,
      Run.final step
          { interface := interface
            phase := .looping tsc evs
            delivered := delivered }
          (List.replicate count .advance) =
        { interface := (handleEvents tsc interface evs).1
          phase := .returned
          delivered := finished } ∧
      finished.map DeliveredFrame.frame =
        delivered.map DeliveredFrame.frame ++
          (handleEvents tsc interface evs).2 := by
  induction evs generalizing interface delivered with
  | nil => exact ⟨1, delivered, rfl, (List.append_nil _).symm⟩
  | cons event rest ih =>
      cases event with
      | rx rqId bytes timestamp =>
          obtain ⟨count, finished, reached, frames⟩ :=
            ih (interface.repost rqId)
              (delivered ++ [interface.deliver tsc rqId bytes timestamp])
          refine ⟨count + 2, finished, reached, ?_⟩
          rw [frames, List.map_append, List.append_assoc]
          rfl
      | rxDiscard rqId =>
          obtain ⟨count, finished, reached, frames⟩ :=
            ih { interface with nDiscards := interface.nDiscards + 1 }
              delivered
          exact ⟨count + 1, finished, reached, frames⟩
      | other =>
          obtain ⟨count, finished, reached, frames⟩ := ih interface delivered
          exact ⟨count + 1, finished, reached, frames⟩

theorem advance_poll (interface : EfviInterface) (ready : ℕ) (tsc : UInt64)
    (delivered : List DeliveredFrame) :
    ∃ count finished,
      Run.final step
          { interface := interface
            phase := .returned
            delivered := delivered }
          (.poll ready tsc :: List.replicate count .advance) =
        { interface := (interface.poll ready tsc).1
          phase := .returned
          delivered := finished } ∧
      finished.map DeliveredFrame.frame = (interface.poll ready tsc).2 :=
  advance_handleEvents tsc (interface.batch ready) _ []

/-! ### What the caller may rely on -/

/-- Every frame delivered since the last `poll` started still has the bytes
`fn` found in it. -/
def FramesIntact (state : PollState) : Prop :=
  ∀ delivered ∈ state.delivered,
    state.interface.pool.read delivered.frame.data delivered.frame.len =
      delivered.bytes

/-- The buffers reposted since the last `poll` started: that of the frame just
passed to `fn` is still to come. -/
def givenBack (state : PollState) : List ℕ :=
  match state.phase with
  | .reposting _ _ _ => state.delivered.dropLast.map DeliveredFrame.rqId
  | _ => state.delivered.map DeliveredFrame.rqId

/-- The device writes nothing into a buffer between its own `repost` and the
next `poll`. -/
def LeavesGivenBack (state : PollState) : LifetimeStep → Prop
  | .write rqId _ _ => rqId ∉ state.givenBack
  | _ => True

instance (state : PollState) (input : LifetimeStep) :
    Decidable (state.LeavesGivenBack input) :=
  match input with
  | .write rqId _ _ => inferInstanceAs (Decidable (rqId ∉ _))
  | .receive _ _ _ => isTrue trivial
  | .discard _ => isTrue trivial
  | .poll _ _ => isTrue trivial
  | .advance => isTrue trivial

/-- Where the buffer of a delivered frame is posted again, the device may
change the frame. -/
def Exposed (state : PollState) : Prop :=
  ∀ delivered ∈ state.delivered, 0 < delivered.frame.len →
    delivered.rqId ∈ state.interface.queue.posted →
      ∃ offset bytes,
        state.interface.MayWrite delivered.rqId offset bytes ∧
          ¬ (state.step (.write delivered.rqId offset bytes)).FramesIntact

/-! ### Where frames lie -/

def EventFits (slotLen : ℕ) : EfEvent → Prop
  | .rx _ bytes _ => bytes.toNat ≤ slotLen
  | _ => True

/-- The bytes of the frame lie in its own buffer. -/
def Inside (slotLen : ℕ) (delivered : DeliveredFrame) : Prop :=
  ∀ location, delivered.frame.data ≤ location →
    location < delivered.frame.data + delivered.frame.len →
      delivered.rqId * slotLen ≤ location ∧
        location < delivered.rqId * slotLen + slotLen

structure Placed (state : PollState) : Prop where
  queued : ∀ event ∈ state.interface.queue.events,
    EventFits state.interface.slotLen event
  pending : ∀ event ∈ state.phase.evs,
    EventFits state.interface.slotLen event
  inside : ∀ delivered ∈ state.delivered,
    Inside state.interface.slotLen delivered

theorem deliver_inside (interface : EfviInterface) (tsc : UInt64)
    (rqId : ℕ) {bytes : UInt16} (timestamp : Option PreciseTime)
    (fits : bytes.toNat ≤ interface.slotLen) :
    Inside interface.slotLen
      (interface.deliver tsc rqId bytes timestamp) := by
  intro location above below
  unfold deliver EfviInterface.frame slot at above below ⊢
  dsimp only at above below ⊢
  split at below <;> omega

theorem slots_apart (slotLen : ℕ) {first second : ℕ}
    (different : first ≠ second) :
    first * slotLen + slotLen ≤ second * slotLen ∨
      second * slotLen + slotLen ≤ first * slotLen := by
  rcases Nat.lt_or_gt_of_ne different with before | after
  · left
    rw [← Nat.succ_mul]
    exact Nat.mul_le_mul_right slotLen before
  · right
    rw [← Nat.succ_mul]
    exact Nat.mul_le_mul_right slotLen after

/-- A write into one buffer does not reach a frame in another. -/
theorem written_read_of_ne {interface : EfviInterface} {rqId offset : ℕ}
    {bytes : List UInt8} (fits : offset + bytes.length ≤ interface.slotLen)
    {delivered : DeliveredFrame}
    (inside : Inside interface.slotLen delivered)
    (different : delivered.rqId ≠ rqId) :
    (interface.written rqId offset bytes).pool.read delivered.frame.data
        delivered.frame.len =
      interface.pool.read delivered.frame.data delivered.frame.len := by
  have apart := slots_apart interface.slotLen different
  apply ByteMemory.read_congr
  intro location above below
  obtain ⟨low, high⟩ := inside location above below
  apply ByteMemory.write_outside
  unfold slot
  omega

/-! ### One step -/

theorem consume_memory (interface : EfviInterface) (rqId : ℕ)
    (event : EfEvent) :
    (interface.consume rqId event).pool = interface.pool ∧
      (interface.consume rqId event).slotLen = interface.slotLen := by
  unfold consume
  split <;> exact ⟨rfl, rfl⟩

theorem mem_consume_events {interface : EfviInterface} {rqId : ℕ}
    {new event : EfEvent}
    (queued : event ∈ (interface.consume rqId new).queue.events) :
    event ∈ interface.queue.events ∨ event = new := by
  unfold consume at queued
  split at queued
  · exact (List.mem_append.mp queued).imp_right List.mem_singleton.mp
  · exact Or.inl queued

theorem Placed.consume {state : PollState} (placed : state.Placed)
    (rqId : ℕ) {new : EfEvent}
    (fits : EventFits state.interface.slotLen new) :
    Placed { state with interface := state.interface.consume rqId new } := by
  have slotLen := (consume_memory state.interface rqId new).2
  refine ⟨?_, ?_, ?_⟩
  · intro event queued
    dsimp only at queued ⊢
    rw [slotLen]
    rcases mem_consume_events queued with old | same
    · exact placed.queued event old
    · exact same ▸ fits
  · dsimp only
    rw [slotLen]
    exact placed.pending
  · dsimp only
    rw [slotLen]
    exact placed.inside

theorem Placed.start {state : PollState} (placed : state.Placed) (ready : ℕ)
    (tsc : UInt64) : (state.start ready tsc).Placed := by
  obtain ⟨interface, phase, delivered⟩ := state
  cases phase with
  | returned =>
      refine ⟨?_, ?_, ?_⟩
      · intro event queued
        exact placed.queued event (List.mem_of_mem_drop queued)
      · intro event pending
        exact placed.queued event (List.mem_of_mem_take pending)
      · intro listed impossible
        cases impossible
  | looping tsc' evs => exact placed
  | reposting tsc' rqId evs => exact placed

theorem receivePost_events (queue : RxQueue) (dmaId : ℕ) :
    (queue.receivePost dmaId).events = queue.events := by
  unfold RxQueue.receivePost
  split <;> rfl

theorem Placed.advance {state : PollState} (placed : state.Placed) :
    state.advance.Placed := by
  obtain ⟨interface, phase, delivered⟩ := state
  cases phase with
  | returned => exact placed
  | looping tsc evs =>
      cases evs with
      | nil => exact ⟨placed.queued, placed.pending, placed.inside⟩
      | cons event rest =>
          have later : ∀ next ∈ rest, EventFits interface.slotLen next :=
            fun next listed =>
              placed.pending next (List.mem_cons_of_mem event listed)
          cases event with
          | rx rqId bytes timestamp =>
              refine ⟨placed.queued, later, ?_⟩
              intro frame listed
              rcases List.mem_append.mp listed with old | new
              · exact placed.inside frame old
              · rw [List.mem_singleton.mp new]
                exact deliver_inside interface tsc rqId timestamp
                  (placed.pending _ List.mem_cons_self)
          | rxDiscard rqId => exact ⟨placed.queued, later, placed.inside⟩
          | other => exact ⟨placed.queued, later, placed.inside⟩
  | reposting tsc rqId evs =>
      refine ⟨?_, placed.pending, placed.inside⟩
      intro event queued
      have unchanged := receivePost_events interface.queue rqId
      exact placed.queued event (unchanged ▸ queued)

theorem step_placed {state : PollState} (placed : state.Placed)
    (input : LifetimeStep) : (state.step input).Placed := by
  cases input with
  | write rqId offset bytes =>
      unfold step
      dsimp only
      split
      · exact ⟨placed.queued, placed.pending, placed.inside⟩
      · exact placed
  | receive rqId bytes timestamp =>
      unfold step
      dsimp only
      split
      · rename_i fits
        exact placed.consume rqId fits
      · exact placed
  | discard rqId => exact placed.consume rqId trivial
  | poll ready tsc => exact placed.start ready tsc
  | advance => exact placed.advance

theorem FramesIntact.advance {state : PollState}
    (intact : state.FramesIntact) : state.advance.FramesIntact := by
  obtain ⟨interface, phase, delivered⟩ := state
  cases phase with
  | returned => exact intact
  | looping tsc evs =>
      cases evs with
      | nil => exact intact
      | cons event rest =>
          cases event with
          | rx rqId bytes timestamp =>
              intro frame listed
              rcases List.mem_append.mp listed with old | new
              · exact intact frame old
              · rw [List.mem_singleton.mp new]
                rfl
          | rxDiscard rqId => exact intact
          | other => exact intact
  | reposting tsc rqId evs => exact intact

/-! ### Runs -/

theorem initial_placed (rxqCapacity maxFrameLen prefixLen ringCap : ℕ) :
    (initial rxqCapacity maxFrameLen prefixLen ringCap).Placed := by
  have posted : ∀ (ids : List ℕ) (queue : RxQueue),
      (ids.foldl RxQueue.receivePost queue).events = queue.events := by
    intro ids
    induction ids with
    | nil => exact fun _ => rfl
    | cons id rest ih =>
        intro queue
        rw [List.foldl_cons, ih, receivePost_events]
  refine ⟨?_, ?_, ?_⟩
  · intro event queued
    unfold initial EfviInterface.initial at queued
    dsimp only at queued
    rw [posted] at queued
    cases queued
  · intro event impossible
    cases impossible
  · intro delivered impossible
    cases impossible

/-! ### Until the repost -/

/-- No buffer is in two places, and while `repost` is still to come the frame
just passed to `fn` has its bytes. -/
structure Lent (state : PollState) : Prop where
  distinct : (state.interface.held ++ state.phase.buffers).Nodup
  current : ∀ tsc rqId evs delivered,
    state.phase = .reposting tsc rqId evs →
      state.delivered.getLast? = some delivered →
        delivered.rqId = rqId ∧
          state.interface.pool.read delivered.frame.data
            delivered.frame.len = delivered.bytes

theorem Lent.consume {state : PollState} (lent : state.Lent) {rqId : ℕ}
    {event : EfEvent} (names : bufferOf event = [rqId]) :
    Lent
      { state with interface := state.interface.consume rqId event } where
  distinct := by
    have moved := state.interface.consume_held_perm names
    exact (moved.append_right _).nodup_iff.mpr lent.distinct
  current := by
    intro tsc id evs delivered phase last
    dsimp only
    rw [(consume_memory state.interface rqId event).1]
    exact lent.current tsc id evs delivered phase last

theorem Lent.start {state : PollState} (lent : state.Lent) (ready : ℕ)
    (tsc : UInt64) : (state.start ready tsc).Lent := by
  obtain ⟨interface, phase, delivered⟩ := state
  cases phase with
  | returned =>
      refine ⟨?_, fun _ _ _ _ impossible => by cases impossible⟩
      have distinct : (interface.held ++ []).Nodup := lent.distinct
      rw [List.append_nil] at distinct
      unfold held at distinct
      rw [← interface.batch_append_drop ready, List.flatMap_append]
        at distinct
      refine List.Perm.nodup ?_ distinct
      change (interface.queue.posted ++ _).Perm
        ((interface.queue.posted ++ _) ++ _)
      rw [List.append_assoc]
      exact List.Perm.append_left _ List.perm_append_comm
  | looping tsc' evs => exact lent
  | reposting tsc' rqId evs => exact lent

theorem repost_held (interface : EfviInterface) (rqId : ℕ) :
    (interface.repost rqId).held.Perm (rqId :: interface.held) ∨
      (interface.repost rqId).held = interface.held := by
  unfold repost RxQueue.receivePost held
  dsimp only
  split
  · left
    dsimp only
    rw [List.append_assoc]
    exact List.perm_middle
  · exact Or.inr rfl

theorem Lent.advance {state : PollState} (lent : state.Lent) :
    state.advance.Lent := by
  obtain ⟨interface, phase, delivered⟩ := state
  cases phase with
  | returned => exact lent
  | looping tsc evs =>
      cases evs with
      | nil => exact ⟨lent.distinct, fun _ _ _ _ impossible => by
          cases impossible⟩
      | cons event rest =>
          cases event with
          | rx rqId bytes timestamp =>
              refine ⟨lent.distinct, ?_⟩
              intro tsc' id evs frame phase last
              change (delivered ++ [_]).getLast? = some frame at last
              rw [List.getLast?_concat] at last
              cases last
              cases phase
              exact ⟨rfl, rfl⟩
          | rxDiscard rqId =>
              refine ⟨?_, fun _ _ _ _ impossible => by cases impossible⟩
              exact lent.distinct.sublist
                (List.Sublist.append_left (List.sublist_cons_self rqId _) _)
          | other =>
              exact ⟨lent.distinct, fun _ _ _ _ impossible => by
                cases impossible⟩
  | reposting tsc rqId evs =>
      refine ⟨?_, fun _ _ _ _ impossible => by cases impossible⟩
      have distinct : (interface.held ++ rqId :: evs.flatMap bufferOf).Nodup :=
        lent.distinct
      rw [List.perm_middle.nodup_iff] at distinct
      change ((interface.repost rqId).held ++ evs.flatMap bufferOf).Nodup
      rcases repost_held interface rqId with given | lost
      · exact (given.append_right _).nodup_iff.mpr distinct
      · rw [lost]
        exact (List.nodup_cons.mp distinct).2

/-- The device has no way into a buffer that was not given back yet. -/
theorem Lent.step {state : PollState} (placed : state.Placed)
    (lent : state.Lent) (input : LifetimeStep) :
    (state.step input).Lent := by
  cases input with
  | write target offset bytes =>
      unfold PollState.step
      dsimp only
      split
      · rename_i may
        refine ⟨lent.distinct, ?_⟩
        intro tsc rqId evs delivered phase last
        obtain ⟨same, bytesEq⟩ :=
          lent.current tsc rqId evs delivered phase last
        have different : delivered.rqId ≠ target := by
          intro isTarget
          have inHeld : target ∈ state.interface.held :=
            List.mem_append_left _ may.1
          have lentOut : target ∈ state.phase.buffers := by
            rw [show state.phase = _ from phase, ← isTarget, same]
            exact List.mem_cons_self
          exact (List.nodup_append.mp lent.distinct).2.2 target inHeld
            target lentOut rfl
        refine ⟨same, Eq.trans ?_ bytesEq⟩
        exact written_read_of_ne may.2
          (placed.inside delivered (List.mem_of_getLast? last)) different
      · exact lent
  | receive rqId bytes timestamp =>
      unfold PollState.step
      dsimp only
      split
      · exact lent.consume rfl
      · exact lent
  | discard rqId => exact lent.consume rfl
  | poll ready tsc => exact lent.start ready tsc
  | advance => exact lent.advance

theorem initial_lent (rxqCapacity maxFrameLen prefixLen ringCap : ℕ) :
    (initial rxqCapacity maxFrameLen prefixLen ringCap).Lent := by
  refine ⟨?_, fun _ _ _ _ impossible => by cases impossible⟩
  have all := (initial_kept rxqCapacity maxFrameLen prefixLen ringCap).all
  change (EfviInterface.held _ ++ []).Nodup
  rw [List.append_nil]
  exact all.nodup_iff.mpr List.nodup_range

/-! ### Until the next poll -/

/-- The buffer of a delivered frame is with the device only when it has been
given back. -/
theorem Lent.givenBack_of_posted {state : PollState} (lent : state.Lent)
    {delivered : DeliveredFrame} (listed : delivered ∈ state.delivered)
    (posted : delivered.rqId ∈ state.interface.queue.posted) :
    delivered.rqId ∈ state.givenBack := by
  unfold givenBack
  cases phase : state.phase with
  | returned => exact List.mem_map_of_mem listed
  | looping tsc evs => exact List.mem_map_of_mem listed
  | reposting tsc rqId evs =>
      dsimp only
      have some : state.delivered ≠ [] := List.ne_nil_of_mem listed
      have split := List.dropLast_append_getLast some
      rw [← split] at listed
      rcases List.mem_append.mp listed with earlier | last
      · exact List.mem_map_of_mem earlier
      · have current := (lent.current tsc rqId evs delivered phase (by
          rw [List.getLast?_eq_some_getLast some, List.mem_singleton.mp last])).1
        have lentOut : delivered.rqId ∈ state.phase.buffers := by
          rw [phase, current]
          exact List.mem_cons_self
        exact absurd rfl ((List.nodup_append.mp lent.distinct).2.2 _
          (List.mem_append_left _ posted) _ lentOut)

/-- The host never writes into a frame, and neither does an event. -/
theorem step_intact {state : PollState} {input : LifetimeStep}
    (leaves : state.LeavesGivenBack input) (placed : state.Placed)
    (lent : state.Lent) (intact : state.FramesIntact) :
    (state.step input).FramesIntact := by
  have consumed : ∀ rqId event, FramesIntact
      { state with interface := state.interface.consume rqId event } := by
    intro rqId event delivered listed
    dsimp only
    rw [(consume_memory state.interface rqId event).1]
    exact intact delivered listed
  cases input with
  | write rqId offset bytes =>
      unfold step
      dsimp only
      split
      · rename_i may
        intro delivered listed
        refine Eq.trans ?_ (intact delivered listed)
        apply written_read_of_ne may.2 (placed.inside delivered listed)
        rintro rfl
        exact leaves (lent.givenBack_of_posted listed may.1)
      · exact intact
  | receive rqId bytes timestamp =>
      unfold step
      dsimp only
      split
      · exact consumed rqId _
      · exact intact
  | discard rqId => exact consumed rqId _
  | poll ready tsc =>
      obtain ⟨interface, phase, delivered⟩ := state
      cases phase with
      | returned =>
          intro frame impossible
          cases impossible
      | looping tsc' evs => exact intact
      | reposting tsc' rqId evs => exact intact
  | advance => exact intact.advance

/-- Another byte at the start of a frame. -/
theorem written_ne {interface : EfviInterface} {rqId offset : ℕ}
    {delivered : DeliveredFrame} (long : 0 < delivered.frame.len)
    (starts : interface.slot rqId + offset = delivered.frame.data) :
    (interface.written rqId offset
        [delivered.bytes.headD 0 + 1]).pool.read delivered.frame.data
          delivered.frame.len ≠ delivered.bytes := by
  intro same
  have first := congrArg List.head? same
  unfold written at first
  dsimp only at first
  rw [starts, ByteMemory.head?_read_write _ _ long] at first
  have unchanged : delivered.bytes.headD 0 + 1 = delivered.bytes.headD 0 :=
    (congrArg (Option.getD · 0) first).trans List.headD_eq_head?_getD.symm
  exact absurd (UInt8.add_eq_left.mp unchanged) (by decide)

theorem Placed.exposed {state : PollState} (placed : state.Placed) :
    state.Exposed := by
  intro delivered listed long posted
  obtain ⟨low, high⟩ := placed.inside delivered listed delivered.frame.data
    (Nat.le_refl _) (Nat.lt_add_of_pos_right long)
  have starts : state.interface.slot delivered.rqId +
      (delivered.frame.data - delivered.rqId * state.interface.slotLen) =
        delivered.frame.data := by
    unfold slot
    omega
  have may : state.interface.MayWrite delivered.rqId
      (delivered.frame.data - delivered.rqId * state.interface.slotLen)
      [delivered.bytes.headD 0 + 1] := by
    refine ⟨posted, ?_⟩
    change _ + 1 ≤ _
    omega
  refine ⟨_, _, may, ?_⟩
  intro intact
  unfold step at intact
  dsimp only at intact
  rw [if_pos may] at intact
  exact written_ne long starts (intact delivered listed)

/-- What holds of every state of a run, whatever the device writes. -/
theorem lent_throughout (rxqCapacity maxFrameLen prefixLen ringCap : ℕ)
    (inputs : List LifetimeStep) :
    Run.Throughout step (fun state => state.Lent ∧ state.Exposed)
      (initial rxqCapacity maxFrameLen prefixLen ringCap) inputs := by
  have free : Run.Along step (fun _ _ => True)
      (initial rxqCapacity maxFrameLen prefixLen ringCap) inputs :=
    Run.along_of_forall _ inputs (fun _ _ _ => trivial)
  refine Run.throughout_of_along
    (fun state => state.Placed ∧ state.Lent) ?_ ?_ _ inputs
      ⟨initial_placed rxqCapacity maxFrameLen prefixLen ringCap,
        initial_lent rxqCapacity maxFrameLen prefixLen ringCap⟩ free
  · intro state input _ kept
    exact ⟨step_placed kept.1 input, kept.2.step kept.1 input⟩
  · intro state kept
    exact ⟨kept.2, kept.1.exposed⟩

/-- For every interface, every sequence of events and every interleaving of
device writes with the steps of `poll`: the frames delivered since the last
`poll` started keep their bytes in every state, if the device writes nothing
into a buffer between its own `repost` and the next `poll`.  Whatever the
device writes, a frame keeps its bytes until its own `repost`, and can lose
them as soon as its buffer is posted again. -/
theorem framesIntact_throughout (rxqCapacity maxFrameLen prefixLen ringCap : ℕ)
    (inputs : List LifetimeStep) :
    (Run.Along step LeavesGivenBack
        (initial rxqCapacity maxFrameLen prefixLen ringCap) inputs →
      Run.Throughout step FramesIntact
        (initial rxqCapacity maxFrameLen prefixLen ringCap) inputs) ∧
    Run.Throughout step (fun state => state.Lent ∧ state.Exposed)
      (initial rxqCapacity maxFrameLen prefixLen ringCap) inputs := by
  refine ⟨?_, lent_throughout rxqCapacity maxFrameLen prefixLen ringCap inputs⟩
  refine Run.throughout_of_along
    (fun state : PollState =>
      (state.Placed ∧ state.Lent) ∧ state.FramesIntact) ?_
    (fun _ kept => kept.2) _ inputs ?_
  · rintro state input leaves ⟨⟨placed, lent⟩, intact⟩
    exact ⟨⟨step_placed placed input, lent.step placed input⟩,
      step_intact leaves placed lent intact⟩
  · refine ⟨⟨initial_placed rxqCapacity maxFrameLen prefixLen ringCap,
      initial_lent rxqCapacity maxFrameLen prefixLen ringCap⟩, ?_⟩
    intro delivered impossible
    cases impossible

/-- Two packets in one batch; while `fn` looks at the second, the first one's
buffer is back with the device, which fills it again. -/
def refilledBatch : List LifetimeStep :=
  [.write 0 0 [1], .receive 0 1 none, .write 1 0 [2], .receive 1 1 none,
    .poll 2 0, .advance, .advance, .advance, .write 0 0 [3]]

theorem not_framesIntact_refilled :
    ¬ Run.Throughout step FramesIntact (initial 2 4 0 2) refilledBatch := by
  intro intact
  have last : (Run.final step (initial 2 4 0 2) refilledBatch).FramesIntact :=
    intact.2.2.2.2.2.2.2.2.2
  have first := last
    { rqId := 0
      frame :=
        { data := 0
          len := 1
          nicTs := { tvSec := 0, tvNsec := 0, tvNsecFrac := 0 }
          nicTsValid := false
          tsc := 0 }
      bytes := [1] } (by decide +kernel)
  revert first
  decide +kernel

/-- The same batch with the refill held back until the next `poll`. -/
theorem framesIntact_throughout_held_back :
    Run.Throughout step FramesIntact (initial 2 4 0 2)
      [.write 0 0 [1], .receive 0 1 none, .write 1 0 [2], .receive 1 1 none,
        .poll 2 0, .advance, .advance, .advance, .advance, .advance,
        .poll 2 0, .write 0 0 [3]] :=
  (framesIntact_throughout 2 4 0 2 _).1 (by decide +kernel)

end PollState

end EfviInterface

end Waler
