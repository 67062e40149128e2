/-
The receive path as a queue of frames.

What the device has reported and `fn` has not seen yet is a queue: the frames
behind the events of the running `poll`, then those behind the queued events.
The device's writes do not reach into it, a report goes to its end, and `fn`
gets its front.
-/

import Waler.Efvi.FrameLifetime
import Waler.Foundation.Simulation

namespace Waler

namespace EfviInterface

/-- The frame an event reports, as its buffer has it now. -/
def received (interface : EfviInterface) : EfEvent → Option (List UInt8)
  | .rx rqId bytes _ =>
      some (interface.pool.read (interface.slot rqId + interface.prefixLen)
        (bytes.toNat - interface.prefixLen))
  | _ => none

theorem frame_read (interface : EfviInterface) (tsc : UInt64) (rqId : ℕ)
    (bytes : UInt16) (timestamp : Option PreciseTime) :
    interface.received (.rx rqId bytes timestamp) =
      some (interface.pool.read
        (interface.frame tsc rqId bytes timestamp).data
        (interface.frame tsc rqId bytes timestamp).len) := by
  have lenEq : (interface.frame tsc rqId bytes timestamp).len =
      bytes.toNat - interface.prefixLen := by
    unfold EfviInterface.frame
    dsimp only
    split <;> omega
  rw [lenEq]
  rfl

theorem received_congr {interface other : EfviInterface}
    (pool : other.pool = interface.pool)
    (slotLen : other.slotLen = interface.slotLen)
    (prefixLen : other.prefixLen = interface.prefixLen) :
    other.received = interface.received := by
  funext event
  cases event with
  | rx rqId bytes timestamp =>
      unfold received slot
      rw [pool, slotLen, prefixLen]
  | rxDiscard rqId => rfl
  | other => rfl

namespace PollState

def frames (state : PollState) (events : List EfEvent) :
    List (List UInt8) :=
  events.filterMap state.interface.received

/-- The frames reported and not passed to `fn` yet, in order. -/
def stream (state : PollState) : List (List UInt8) :=
  state.frames state.phase.evs ++ state.frames state.interface.queue.events

/-- The frame that a step of the device reports. -/
def reported (state : PollState) : LifetimeStep → List (List UInt8)
  | .receive rqId bytes timestamp =>
      if bytes.toNat ≤ state.interface.slotLen ∧
          rqId ∈ state.interface.queue.posted then
        state.frames [.rx rqId bytes timestamp]
      else []
  | _ => []

/-- The frame that a step of `poll` passes to `fn`. -/
def passed (state : PollState) : LifetimeStep → List (List UInt8)
  | .advance =>
      match state.phase with
      | .looping _ evs => state.frames (evs.take 1)
      | _ => []
  | _ => []

/-! ### One step -/

theorem frames_append (state : PollState) (first second : List EfEvent) :
    state.frames (first ++ second) =
      state.frames first ++ state.frames second :=
  List.filterMap_append

theorem stream_congr {state other : PollState}
    (received : other.interface.received = state.interface.received)
    (events : other.phase.evs ++ other.interface.queue.events =
      state.phase.evs ++ state.interface.queue.events) :
    other.stream = state.stream := by
  unfold stream
  rw [← frames_append, ← frames_append, events]
  unfold frames
  rw [received]

/-- A posted buffer is named by no event of the stream. -/
theorem Lent.not_named {state : PollState} (lent : state.Lent) {rqId : ℕ}
    (posted : rqId ∈ state.interface.queue.posted) {event : EfEvent}
    (listed : event ∈ state.phase.evs ++ state.interface.queue.events) :
    rqId ∉ bufferOf event := by
  intro names
  obtain ⟨heldNodup, _, apart⟩ := List.nodup_append.mp lent.distinct
  rcases List.mem_append.mp listed with pending | queued
  · have inBuffers : rqId ∈ state.phase.buffers := by
      have named := List.mem_flatMap.mpr ⟨event, pending, names⟩
      cases phase : state.phase with
      | returned =>
          rw [phase] at pending
          cases pending
      | looping tsc evs =>
          rw [phase] at named
          exact named
      | reposting tsc id evs =>
          rw [phase] at named
          exact List.mem_cons_of_mem id named
    exact apart rqId (List.mem_append_left _ posted) rqId inBuffers rfl
  · unfold held at heldNodup
    have queuedNames := List.mem_flatMap.mpr ⟨event, queued, names⟩
    exact (List.nodup_append.mp heldNodup).2.2 rqId posted rqId queuedNames rfl

theorem written_received {interface : EfviInterface} {rqId offset : ℕ}
    {bytes : List UInt8} (fits : offset + bytes.length ≤ interface.slotLen)
    {event : EfEvent} (eventFits : EventFits interface.slotLen event)
    (apart : rqId ∉ bufferOf event) :
    (interface.written rqId offset bytes).received event =
      interface.received event := by
  cases event with
  | rx id count timestamp =>
      have unchanged := written_read_of_ne fits
        (deliver_inside interface 0 id timestamp eventFits)
        (fun same => apart (List.mem_singleton.mpr same.symm))
      have after := (interface.written rqId offset bytes).frame_read 0 id
        count timestamp
      exact after.trans ((congrArg some unchanged).trans
        (interface.frame_read 0 id count timestamp).symm)
  | rxDiscard id => rfl
  | other => rfl

/-- A write into a posted buffer leaves every frame of the stream alone. -/
theorem stream_write {state : PollState} (placed : state.Placed)
    (lent : state.Lent) (rqId offset : ℕ) (bytes : List UInt8) :
    (state.step (.write rqId offset bytes)).stream = state.stream := by
  unfold PollState.step
  dsimp only
  split
  · rename_i may
    unfold stream
    rw [← frames_append, ← frames_append]
    apply List.filterMap_congr
    intro event listed
    have eventFits : EventFits state.interface.slotLen event := by
      rcases List.mem_append.mp listed with pending | queued
      · exact placed.pending event pending
      · exact placed.queued event queued
    exact written_received may.2 eventFits (lent.not_named may.1 listed)
  · rfl

theorem stream_consume {state : PollState} {rqId : ℕ} (event : EfEvent)
    (posted : rqId ∈ state.interface.queue.posted) :
    stream { state with interface := state.interface.consume rqId event } =
      state.stream ++ state.frames [event] := by
  unfold consume
  rw [if_pos posted]
  unfold stream
  rw [List.append_assoc, ← state.frames_append]
  rfl

theorem stream_consume_missing {state : PollState} {rqId : ℕ}
    (event : EfEvent) (missing : rqId ∉ state.interface.queue.posted) :
    stream { state with interface := state.interface.consume rqId event } =
      state.stream := by
  unfold consume
  rw [if_neg missing]

theorem stream_discard (state : PollState) (rqId : ℕ) :
    (state.step (.discard rqId)).stream = state.stream := by
  by_cases posted : rqId ∈ state.interface.queue.posted
  · exact (stream_consume (.rxDiscard rqId) posted).trans (List.append_nil _)
  · exact stream_consume_missing _ posted

theorem stream_start (state : PollState) (ready : ℕ) (tsc : UInt64) :
    (state.start ready tsc).stream = state.stream := by
  obtain ⟨interface, phase, delivered⟩ := state
  cases phase with
  | returned =>
      refine stream_congr (received_congr rfl rfl rfl) ?_
      exact List.take_append_drop _ _
  | looping tsc' evs => rfl
  | reposting tsc' rqId evs => rfl

/-- A step of `poll` takes from the front what it passes to `fn`. -/
theorem passed_advance (state : PollState) :
    state.passed .advance ++ state.advance.stream = state.stream := by
  obtain ⟨interface, phase, delivered⟩ := state
  cases phase with
  | returned => rfl
  | looping tsc evs =>
      cases evs with
      | nil => rfl
      | cons event rest => cases event <;> rfl
  | reposting tsc rqId evs =>
      refine stream_congr (received_congr rfl rfl rfl) ?_
      change evs ++ (interface.queue.receivePost rqId).events = _
      rw [receivePost_events]
      rfl

/-- What `fn` gets comes off the front, and what the device reports goes to
the end. -/
theorem passed_step {state : PollState} (placed : state.Placed)
    (lent : state.Lent) (input : LifetimeStep) :
    state.passed input ++ (state.step input).stream =
      state.stream ++ state.reported input := by
  cases input with
  | write rqId offset bytes =>
      rw [stream_write placed lent]
      exact (List.append_nil _).symm
  | receive rqId bytes timestamp =>
      unfold reported PollState.step
      dsimp only
      by_cases fits : bytes.toNat ≤ state.interface.slotLen
      · rw [if_pos fits]
        by_cases posted : rqId ∈ state.interface.queue.posted
        · rw [if_pos ⟨fits, posted⟩]
          exact stream_consume _ posted
        · rw [if_neg (fun both => posted both.2), List.append_nil]
          exact stream_consume_missing _ posted
      · rw [if_neg fits, if_neg (fun both => fits both.1), List.append_nil]
        rfl
  | discard rqId =>
      rw [stream_discard]
      exact (List.append_nil _).symm
  | poll ready tsc =>
      rw [show state.step (.poll ready tsc) = state.start ready tsc from rfl,
        stream_start]
      exact (List.append_nil _).symm
  | advance =>
      rw [show state.step .advance = state.advance from rfl, passed_advance]
      exact (List.append_nil _).symm

/-- A frame written behind the prefix of a posted buffer and reported with its
length is what comes to the end of the stream. -/
theorem stream_store {state : PollState} (placed : state.Placed)
    (lent : state.Lent) {rqId : ℕ} {frame : List UInt8}
    (posted : rqId ∈ state.interface.queue.posted)
    (fits : state.interface.prefixLen + frame.length ≤
      state.interface.slotLen)
    (counted : state.interface.prefixLen + frame.length < 2 ^ 16)
    (timestamp : Option PreciseTime) :
    ((state.step (.write rqId state.interface.prefixLen frame)).step
        (.receive rqId
          (UInt16.ofNat (state.interface.prefixLen + frame.length))
          timestamp)).stream = state.stream ++ [frame] := by
  let prefixLen := state.interface.prefixLen
  have countEq : (UInt16.ofNat (prefixLen + frame.length)).toNat =
      prefixLen + frame.length := by
    rw [UInt16.toNat_ofNat']
    exact Nat.mod_eq_of_lt counted
  have writtenEq : state.step (.write rqId prefixLen frame) =
      { state with
        interface := state.interface.written rqId prefixLen frame } :=
    if_pos ⟨posted, fits⟩
  have before := stream_write placed lent rqId prefixLen frame
  have added := passed_step (step_placed placed (.write rqId prefixLen frame))
    (lent.step placed (.write rqId prefixLen frame))
    (.receive rqId (UInt16.ofNat (prefixLen + frame.length)) timestamp)
  have reportedEq : (state.step (.write rqId prefixLen frame)).reported
      (.receive rqId (UInt16.ofNat (prefixLen + frame.length)) timestamp) =
        [frame] := by
    rw [writtenEq]
    have inside : (UInt16.ofNat (prefixLen + frame.length)).toNat ≤
        state.interface.slotLen := by
      rw [countEq]
      exact fits
    have stored := state.interface.pool.read_write_self
      (state.interface.slot rqId + prefixLen) frame
    refine (if_pos ⟨inside, posted⟩).trans ?_
    change [(state.interface.pool.write
      (state.interface.slot rqId + prefixLen) frame).read
        (state.interface.slot rqId + prefixLen)
        ((UInt16.ofNat (prefixLen + frame.length)).toNat - prefixLen)] = _
    rw [countEq, Nat.add_sub_cancel_left]
    exact congrArg (fun bytes => [bytes]) stored
  rw [reportedEq, before] at added
  exact added

/-! ### Runs -/

theorem foldl_receivePost_events (queue : RxQueue) (ids : List ℕ) :
    (ids.foldl RxQueue.receivePost queue).events = queue.events := by
  induction ids generalizing queue with
  | nil => rfl
  | cons id rest ih => rw [List.foldl_cons, ih, receivePost_events]

theorem stream_initial (rxqCapacity maxFrameLen prefixLen ringCap : ℕ) :
    (initial rxqCapacity maxFrameLen prefixLen ringCap).stream = [] := by
  unfold stream frames initial EfviInterface.initial
  dsimp only
  rw [foldl_receivePost_events]
  rfl

/-- For every interface and every interleaving of device writes, reports and
steps of `poll`: the frames passed to `fn` are the frames reported, in order,
each with the bytes that its buffer had when the device reported it; what is
missing is still in the stream. -/
theorem passed_in_order (rxqCapacity maxFrameLen prefixLen ringCap : ℕ)
    (inputs : List LifetimeStep) :
    Run.emitted step passed
        (initial rxqCapacity maxFrameLen prefixLen ringCap) inputs ++
      (Run.final step (initial rxqCapacity maxFrameLen prefixLen ringCap)
        inputs).stream =
      Run.emitted step reported
        (initial rxqCapacity maxFrameLen prefixLen ringCap) inputs := by
  have free : Run.Along step (fun _ _ => True)
      (initial rxqCapacity maxFrameLen prefixLen ringCap) inputs :=
    Run.along_of_forall _ inputs (fun _ _ _ => trivial)
  have conserved := Run.emitted_conserved stream
    (fun state => state.Placed ∧ state.Lent)
    (fun _ input _ kept =>
      ⟨step_placed kept.1 input, kept.2.step kept.1 input⟩)
    (fun _ input _ kept => passed_step kept.1 kept.2 input)
    _ inputs
    ⟨initial_placed rxqCapacity maxFrameLen prefixLen ringCap,
      initial_lent rxqCapacity maxFrameLen prefixLen ringCap⟩
    free
  rw [conserved, stream_initial, List.nil_append]

end PollState

end EfviInterface

end Waler
