/-
The receive ring of x4_loopback_latency.c, on the default datapath.

The device fills the posted buffers in order and reports an event for each.  A
turn of the main loop arms the sentinel of the buffer that it expects next,
waits for it, and polls a batch of events.  Every RX event of the batch is read
from that one buffer and reposts it, whichever buffer the device has filled.
-/

import Mathlib.Data.List.Nodup
import Mathlib.Data.Rat.Defs
import Mathlib.Logic.Function.Basic
import Waler.Foundation.Run

namespace Waler

namespace Loopback

/-- `N_RX_BUFS`. -/
def nRxBufs : ℕ :=
  64

/-- A frame on the wire: its last payload byte and its time of arrival. -/
structure Arrival where
  last : UInt8
  t2PhcNs : ℚ
  deriving DecidableEq, Repr

structure RxRing where
  /-- The buffers the device can fill, oldest first. -/
  posted : List ℕ
  /-- The RX events that have not been polled. -/
  queued : ℕ
  sentinel : ℕ → UInt8
  timestamp : ℕ → ℚ
  rxNext : ℕ
  /-- The `t2_phc_ns` of every turn. -/
  measured : List ℚ

/-- What happens in a turn.  The poll may leave events in the queue. -/
structure RxTurn where
  beforeArming : List Arrival
  beforePoll : List Arrival
  polled : ℕ
  deriving DecidableEq, Repr

namespace RxRing

def initial : RxRing :=
  { posted := List.range nRxBufs
    queued := 0
    sentinel := fun _ => 0
    timestamp := fun _ => 0
    rxNext := 0
    measured := [] }

def slot (ring : RxRing) : ℕ :=
  ring.rxNext % nRxBufs

/-- The device drops a frame when no buffer is posted. -/
def deliver (ring : RxRing) (frame : Arrival) : RxRing :=
  match ring.posted with
  | [] => ring
  | buffer :: rest =>
      { ring with
        posted := rest
        queued := ring.queued + 1
        sentinel := Function.update ring.sentinel buffer frame.last
        timestamp := Function.update ring.timestamp buffer frame.t2PhcNs }

def arm (ring : RxRing) : RxRing :=
  { ring with sentinel := Function.update ring.sentinel ring.slot 0 }

/-- The size of the first batch with an RX event in it, of sixteen at most. -/
def batch (ring : RxRing) (polled : ℕ) : ℕ :=
  min (max 1 polled) (min 16 ring.queued)

/-- The case `EF_EVENT_TYPE_RX` for a whole batch, with the slot of the
turn. -/
def handle (ring : RxRing) (slot count : ℕ) : RxRing :=
  { ring with
    posted := ring.posted ++ List.replicate count slot
    queued := ring.queued - count
    rxNext := ring.rxNext + count
    measured := ring.measured ++ [ring.timestamp slot] }

/-- One turn; none when a loop of it spins forever. -/
def turn (ring : RxRing) (input : RxTurn) : Option RxRing :=
  let armed := (input.beforeArming.foldl deliver ring).arm
  let filled := input.beforePoll.foldl deliver armed
  if filled.sentinel ring.slot = 0xa5 then
    if filled.queued = 0 then none
    else some (filled.handle ring.slot (filled.batch input.polled))
  else none

def step (state : Option RxRing) (input : RxTurn) : Option RxRing :=
  state.bind (fun ring => ring.turn input)

/-- All buffers once each, from the expected one on. -/
def inTurn (rxNext : ℕ) : List ℕ :=
  (List.range nRxBufs).map (fun k => (rxNext + k) % nRxBufs)

structure InOrder (ring : RxRing) : Prop where
  quiet : ring.queued = 0
  posted : ring.posted = inTurn ring.rxNext

/-- The turn sees its own frame and no other. -/
def OneFrame (input : RxTurn) : Prop :=
  input.beforeArming = [] ∧
    ∃ frame, input.beforePoll = [frame] ∧ frame.last = 0xa5

/-! ### The device -/

theorem deliver_posted (ring : RxRing) (frame : Arrival) :
    (ring.deliver frame).posted = ring.posted.tail := by
  unfold deliver
  cases posted : ring.posted with
  | nil => exact posted
  | cons buffer rest => rfl

theorem deliver_rxNext (ring : RxRing) (frame : Arrival) :
    (ring.deliver frame).rxNext = ring.rxNext := by
  unfold deliver
  cases ring.posted with
  | nil => rfl
  | cons buffer rest => rfl

theorem deliver_queued (ring : RxRing) (frame : Arrival) :
    (ring.deliver frame).queued + (ring.deliver frame).posted.length =
      ring.queued + ring.posted.length := by
  unfold deliver
  cases posted : ring.posted with
  | nil =>
      dsimp only
      rw [posted]
  | cons buffer rest =>
      change ring.queued + 1 + rest.length = ring.queued + (rest.length + 1)
      omega

theorem deliver_sentinel (ring : RxRing) (frame : Arrival) {buffer : ℕ}
    (unposted : buffer ∉ ring.posted) :
    (ring.deliver frame).sentinel buffer = ring.sentinel buffer := by
  unfold deliver
  cases posted : ring.posted with
  | nil => rfl
  | cons first rest =>
      rw [posted] at unposted
      have other : buffer ≠ first := by
        rintro rfl
        exact unposted List.mem_cons_self
      exact Function.update_of_ne other _ _

/-- What a batch of frames changes besides the buffers it fills. -/
structure Filled (ring filled : RxRing) (count : ℕ) : Prop where
  posted : filled.posted = ring.posted.drop count
  queued : filled.queued + filled.posted.length =
    ring.queued + ring.posted.length
  rxNext : filled.rxNext = ring.rxNext
  sentinel : ∀ buffer, buffer ∉ ring.posted →
    filled.sentinel buffer = ring.sentinel buffer

theorem foldl_deliver_filled (ring : RxRing) (frames : List Arrival) :
    ring.Filled (frames.foldl deliver ring) frames.length := by
  induction frames generalizing ring with
  | nil => exact ⟨rfl, rfl, rfl, fun _ _ => rfl⟩
  | cons frame rest ih =>
      obtain ⟨posted, queued, rxNext, sentinel⟩ := ih (ring.deliver frame)
      rw [deliver_posted] at posted
      constructor
      · rw [List.foldl_cons, posted, List.drop_tail]
        rfl
      · exact queued.trans (deliver_queued ring frame)
      · exact rxNext.trans (deliver_rxNext ring frame)
      · intro buffer unposted
        refine (sentinel buffer ?_).trans
          (deliver_sentinel ring frame unposted)
        rw [deliver_posted]
        exact fun listed => unposted (List.mem_of_mem_tail listed)

/-! ### One turn -/

theorem batch_pos {ring : RxRing} (reported : ring.queued ≠ 0)
    (polled : ℕ) : 0 < ring.batch polled := by
  unfold batch
  omega

theorem batch_le (ring : RxRing) (polled : ℕ) :
    ring.batch polled ≤ ring.queued := by
  unfold batch
  omega

/-- What a turn that ends has done. -/
theorem turn_cases {ring next : RxRing} {input : RxTurn}
    (ended : ring.turn input = some next) :
    ring.slot ∈ ring.posted.drop input.beforeArming.length ∧
      ∃ count, 0 < count ∧
        next.posted = ring.posted.drop
            (input.beforeArming.length + input.beforePoll.length) ++
          List.replicate count ring.slot ∧
        next.queued + next.posted.length =
          ring.queued + ring.posted.length ∧
        next.rxNext = ring.rxNext + count := by
  let early := input.beforeArming.foldl deliver ring
  let filled := input.beforePoll.foldl deliver early.arm
  have before : ring.Filled early input.beforeArming.length :=
    foldl_deliver_filled ring input.beforeArming
  have during : early.arm.Filled filled input.beforePoll.length :=
    foldl_deliver_filled early.arm input.beforePoll
  have slots : early.slot = ring.slot := by
    unfold slot
    rw [before.rxNext]
  change (if filled.sentinel ring.slot = 0xa5 then
    if filled.queued = 0 then none
    else some (filled.handle ring.slot (filled.batch input.polled))
    else none) = some next at ended
  split at ended
  case isFalse => cases ended
  case isTrue seen =>
    split at ended
    case isTrue => cases ended
    case isFalse reported =>
      obtain rfl := Option.some.inj ended
      constructor
      · by_contra unposted
        rw [← before.posted] at unposted
        rw [during.sentinel _ unposted] at seen
        change Function.update early.sentinel early.slot 0 ring.slot = _ at seen
        rw [slots, Function.update_self] at seen
        cases seen
      · have posted : filled.posted = ring.posted.drop
            (input.beforeArming.length + input.beforePoll.length) := by
          rw [during.posted, ← List.drop_drop, ← before.posted]
          rfl
        have queued : filled.queued + filled.posted.length =
            ring.queued + ring.posted.length :=
          during.queued.trans before.queued
        have few := filled.batch_le input.polled
        refine ⟨filled.batch input.polled, batch_pos reported _, ?_, ?_, ?_⟩
        · change filled.posted ++ _ = _
          rw [posted]
        · change filled.queued - filled.batch input.polled +
            (filled.posted ++ List.replicate _ _).length = _
          rw [List.length_append, List.length_replicate]
          omega
        · change filled.rxNext + _ = _
          rw [during.rxNext]
          change early.rxNext + _ = _
          rw [before.rxNext]

/-- A turn in which a single frame fills the expected buffer. -/
theorem turn_single {ring : RxRing} {rest : List ℕ}
    (quiet : ring.queued = 0) (posted : ring.posted = ring.slot :: rest)
    (frame : Arrival) (polled : ℕ) :
    ring.turn { beforeArming := [], beforePoll := [frame], polled := polled } =
      if frame.last = 0xa5 then
        some
          { posted := rest ++ [ring.slot]
            queued := 0
            sentinel := Function.update
              (Function.update ring.sentinel ring.slot 0) ring.slot frame.last
            timestamp :=
              Function.update ring.timestamp ring.slot frame.t2PhcNs
            rxNext := ring.rxNext + 1
            measured := ring.measured ++ [frame.t2PhcNs] }
      else none := by
  have armed : ring.arm.posted = ring.slot :: rest := posted
  have filled : ring.arm.deliver frame =
      { posted := rest
        queued := 1
        sentinel := Function.update
          (Function.update ring.sentinel ring.slot 0) ring.slot frame.last
        timestamp := Function.update ring.timestamp ring.slot frame.t2PhcNs
        rxNext := ring.rxNext
        measured := ring.measured } := by
    unfold deliver
    rw [armed]
    change { ring with
      posted := rest, queued := ring.queued + 1, sentinel := _,
      timestamp := _ } = _
    rw [quiet]
    rfl
  change (if (ring.arm.deliver frame).sentinel ring.slot = 0xa5 then
    if (ring.arm.deliver frame).queued = 0 then none
    else some ((ring.arm.deliver frame).handle ring.slot
      ((ring.arm.deliver frame).batch polled))
    else none) = _
  rw [filled]
  dsimp only
  have seen : Function.update (Function.update ring.sentinel ring.slot 0)
      ring.slot frame.last ring.slot = frame.last := Function.update_self _ _ _
  by_cases own : frame.last = 0xa5
  · have one : min (max 1 polled) (min 16 1) = 1 := by omega
    rw [if_pos (seen.trans own), if_neg Nat.one_ne_zero, if_pos own]
    unfold handle batch
    dsimp only
    rw [one, Function.update_self]
    rfl
  · rw [if_neg (fun other => own (seen.symm.trans other)), if_neg own]

/-! ### Turns from a ring in order -/

theorem inTurn_cons (rxNext : ℕ) :
    inTurn rxNext = rxNext % nRxBufs ::
      (List.range 63).map (fun k => (rxNext + 1 + k) % nRxBufs) := by
  unfold inTurn
  change (List.range (63 + 1)).map _ = _
  rw [List.range_succ_eq_map, List.map_cons, List.map_map]
  apply congrArg (List.cons _)
  apply List.map_congr_left
  intro k _
  change (rxNext + (k + 1)) % nRxBufs = _
  rw [Nat.add_assoc rxNext 1 k, Nat.add_comm 1 k]

theorem inTurn_succ (rxNext : ℕ) :
    inTurn (rxNext + 1) =
      (List.range 63).map (fun k => (rxNext + 1 + k) % nRxBufs) ++
        [rxNext % nRxBufs] := by
  have last : (rxNext + 1 + 63) % nRxBufs = rxNext % nRxBufs :=
    Nat.add_mod_right rxNext 64
  unfold inTurn
  change (List.range (63 + 1)).map _ = _
  rw [List.range_succ, List.map_append, List.map_singleton, last]

theorem inTurn_length (rxNext : ℕ) : (inTurn rxNext).length = 64 := by
  unfold inTurn
  rw [List.length_map]
  exact List.length_range

theorem inTurn_nodup (rxNext : ℕ) : (inTurn rxNext).Nodup := by
  refine List.Nodup.map_on ?_ List.nodup_range
  intro first firstIn second secondIn same
  have firstBelow := List.mem_range.mp firstIn
  have secondBelow := List.mem_range.mp secondIn
  unfold nRxBufs at same firstBelow secondBelow
  omega

theorem initial_inOrder : initial.InOrder :=
  ⟨rfl, by decide⟩

theorem InOrder.turn_of_oneFrame {ring : RxRing} (order : ring.InOrder)
    {input : RxTurn} (oneFrame : OneFrame input) :
    ∃ next, ring.turn input = some next ∧ next.InOrder ∧
      next.measured =
        ring.measured ++ input.beforePoll.map Arrival.t2PhcNs := by
  obtain ⟨beforeArming, beforePoll, polled⟩ := input
  obtain ⟨rfl, frame, rfl, own⟩ := oneFrame
  have posted := order.posted.trans (inTurn_cons ring.rxNext)
  rw [turn_single order.quiet posted, if_pos own]
  exact ⟨_, rfl, ⟨rfl, (inTurn_succ ring.rxNext).symm⟩, rfl⟩

/-- A turn that leaves the ring in order has handled one event. -/
theorem InOrder.oneFrame_of_turn {ring next : RxRing} (order : ring.InOrder)
    {input : RxTurn} (ended : ring.turn input = some next)
    (still : next.InOrder) : OneFrame input := by
  obtain ⟨expected, count, positive, posted, total, _⟩ := turn_cases ended
  have full : ring.posted.length = 64 := by
    rw [order.posted]
    exact inTurn_length _
  have distinct : next.posted.Nodup := by
    rw [still.posted]
    exact inTurn_nodup _
  have whole : next.posted.length = 64 := by
    rw [still.posted]
    exact inTurn_length _
  -- A second event would have posted the slot twice.
  have single : count = 1 := by
    rw [posted] at distinct
    have once := List.nodup_replicate.mp
      (List.Nodup.of_append_right distinct)
    omega
  have lengths := congrArg List.length posted
  rw [List.length_append, List.length_drop, List.length_replicate, full,
    whole, single] at lengths
  obtain ⟨beforeArming, beforePoll, polled⟩ := input
  dsimp only at expected lengths
  cases beforeArming with
  | cons frame rest =>
      -- The expected buffer was filled before its sentinel was armed.
      have shorter : rest.length = 0 := by
        rw [List.length_cons] at lengths
        omega
      have apart := inTurn_nodup ring.rxNext
      rw [order.posted, List.length_cons, shorter, inTurn_cons] at expected
      rw [inTurn_cons] at apart
      exact absurd expected (List.nodup_cons.mp apart).1
  | nil =>
      have one : beforePoll.length = 1 := by
        rw [List.length_nil] at lengths
        omega
      obtain ⟨frame, rfl⟩ := List.length_eq_one_iff.mp one
      refine ⟨rfl, frame, rfl, ?_⟩
      by_contra foreign
      rw [turn_single order.quiet
        (order.posted.trans (inTurn_cons ring.rxNext)), if_neg foreign] at ended
      cases ended

/-! ### Runs -/

def InOrderState (state : Option RxRing) : Prop :=
  ∃ ring, state = some ring ∧ ring.InOrder

theorem oneFrame_exact :
    Run.Exact step (fun _ input => OneFrame input) InOrderState
      InOrderState where
  preserved := by
    rintro state input oneFrame ⟨ring, rfl, order⟩
    obtain ⟨next, ended, still, _⟩ := order.turn_of_oneFrame oneFrame
    exact ⟨next, ended, still⟩
  sound := fun _ order => order
  exposed := by
    rintro state input ⟨ring, rfl, order⟩ ⟨next, ended, still⟩
    exact order.oneFrame_of_turn ended still

theorem measured_final {ring : RxRing} (order : ring.InOrder)
    {turns : List RxTurn} (single : ∀ input ∈ turns, OneFrame input) :
    ∃ last, Run.final step (some ring) turns = some last ∧ last.InOrder ∧
      last.measured = ring.measured ++
        turns.flatMap (fun input =>
          input.beforePoll.map Arrival.t2PhcNs) := by
  induction turns generalizing ring with
  | nil => exact ⟨ring, rfl, order, (List.append_nil _).symm⟩
  | cons input rest ih =>
      obtain ⟨next, ended, still, measured⟩ :=
        order.turn_of_oneFrame (single input List.mem_cons_self)
      obtain ⟨last, finished, lastOrder, all⟩ :=
        ih still (fun other listed =>
          single other (List.mem_cons_of_mem _ listed))
      refine ⟨last, ?_, lastOrder, ?_⟩
      · rw [Run.final_cons]
        change Run.final step (ring.turn input) rest = _
        rw [ended]
        exact finished
      · rw [all, measured, List.flatMap_cons, List.append_assoc]

/-- For every run of turns: the program gets through all of them with its
buffers in order exactly when every turn sees its own frame and no other; and
then the times it has measured are those of its frames. -/
theorem ringOrder_throughout_iff (turns : List RxTurn) :
    (Run.Throughout step InOrderState (some initial) turns ↔
      ∀ input ∈ turns, OneFrame input) ∧
    ((∀ input ∈ turns, OneFrame input) →
      ∃ last, Run.final step (some initial) turns = some last ∧
        last.measured = turns.flatMap (fun input =>
          input.beforePoll.map Arrival.t2PhcNs)) := by
  constructor
  · rw [oneFrame_exact.throughout_iff (some initial) turns
      ⟨initial, rfl, initial_inOrder⟩, Run.along_iff_forall]
    constructor
    · intro all input listed
      obtain ⟨before, after, split⟩ := List.append_of_mem listed
      exact all before input after split
    · intro all before input after split
      apply all
      rw [split]
      exact List.mem_append_right _ List.mem_cons_self
  · intro single
    obtain ⟨last, finished, _, measured⟩ :=
      measured_final initial_inOrder single
    exact ⟨last, finished, measured⟩

/-- Two turns with their own frame each; the poll of the first asks for
more. -/
theorem ringOrder_throughout_iff_two :
    ∃ last, Run.final step (some initial)
        [{ beforeArming := []
           beforePoll := [{ last := 0xa5, t2PhcNs := 1 }]
           polled := 16 },
          { beforeArming := []
            beforePoll := [{ last := 0xa5, t2PhcNs := 2 }]
            polled := 1 }] = some last ∧
      last.measured = [1, 2] :=
  (ringOrder_throughout_iff _).2 (by
    intro input listed
    simp only [List.mem_cons, List.not_mem_nil, or_false] at listed
    obtain rfl | rfl := listed
    · exact ⟨rfl, _, rfl, rfl⟩
    · exact ⟨rfl, _, rfl, rfl⟩)

/-! ### A lost buffer -/

/-- The buffer expected in so many turns is not posted. -/
structure Lost (ring : RxRing) (turns : ℕ) : Prop where
  unposted : (ring.rxNext + turns) % nRxBufs ∉ ring.posted
  quiet : 0 < turns → ring.queued = 0

theorem final_none (turns : List RxTurn) : Run.final step none turns = none := by
  induction turns with
  | nil => rfl
  | cons input rest ih => exact ih

theorem Lost.turn_zero {ring : RxRing} (lost : ring.Lost 0)
    (input : RxTurn) : ring.turn input = none := by
  cases ended : ring.turn input with
  | none => rfl
  | some next =>
      have expected := (turn_cases ended).1
      exact absurd (List.mem_of_mem_drop expected) lost.unposted

theorem Lost.turn_succ {ring next : RxRing} {turns : ℕ}
    (lost : ring.Lost (turns + 1)) (few : turns + 1 < nRxBufs)
    {input : RxTurn} (oneFrame : OneFrame input)
    (ended : ring.turn input = some next) : next.Lost turns := by
  obtain ⟨beforeArming, beforePoll, polled⟩ := input
  obtain ⟨rfl, frame, rfl, _⟩ := oneFrame
  obtain ⟨expected, count, positive, posted, total, rxNext⟩ := turn_cases ended
  change ring.slot ∈ ring.posted at expected
  change next.posted = ring.posted.drop (0 + 1) ++ _ at posted
  have some := List.length_pos_of_mem expected
  have quiet := lost.quiet (Nat.succ_pos turns)
  rw [posted, List.length_append, List.length_drop, List.length_replicate,
    quiet] at total
  have single : count = 1 := by omega
  have place : (next.rxNext + turns) % nRxBufs =
      (ring.rxNext + (turns + 1)) % nRxBufs := by
    rw [rxNext, single, Nat.add_assoc, Nat.add_comm 1 turns]
  constructor
  · rw [place, posted, List.mem_append]
    rintro (kept | again)
    · exact lost.unposted (List.mem_of_mem_drop kept)
    · have same := List.eq_of_mem_replicate again
      unfold slot at same
      unfold nRxBufs at same few
      omega
  · intro _
    omega

theorem Lost.stalls {ring : RxRing} {turns : ℕ} (lost : ring.Lost turns)
    (few : turns < nRxBufs) {inputs : List RxTurn}
    (single : ∀ input ∈ inputs, OneFrame input)
    (long : turns < inputs.length) :
    Run.final step (some ring) inputs = none := by
  induction turns generalizing ring inputs with
  | zero =>
      cases inputs with
      | nil => cases long
      | cons input rest =>
          rw [Run.final_cons]
          change Run.final step (ring.turn input) rest = none
          rw [lost.turn_zero]
          exact final_none rest
  | succ turns ih =>
      cases inputs with
      | nil => cases long
      | cons input rest =>
          rw [Run.final_cons]
          change Run.final step (ring.turn input) rest = none
          cases ended : ring.turn input with
          | none => exact final_none rest
          | some next =>
              exact ih
                (lost.turn_succ few (single input List.mem_cons_self) ended)
                (Nat.lt_of_succ_lt few)
                (fun other listed =>
                  single other (List.mem_cons_of_mem _ listed))
                (Nat.lt_of_succ_lt_succ long)

/-- The buffers behind a filled one stay away from what is left. -/
theorem not_mem_drop_inTurn (rxNext : ℕ) {index count : ℕ}
    (below : index < count) (inside : index < 64) :
    (rxNext + index) % nRxBufs ∉ (inTurn rxNext).drop count := by
  intro listed
  obtain ⟨other, later, same⟩ := List.mem_drop_iff_getElem.mp listed
  rw [inTurn_length] at later
  unfold inTurn at same
  rw [List.getElem_map, List.getElem_range] at same
  unfold nRxBufs at same
  omega

/-- Events that are left over belong to the next buffers; a batch of several
events loses all of their buffers but one. -/
theorem InOrder.lost_of_turn {ring next : RxRing} (order : ring.InOrder)
    {input : RxTurn} (ended : ring.turn input = some next)
    (odd : ¬ OneFrame input) : ∃ turns < nRxBufs, next.Lost turns := by
  obtain ⟨_, count, positive, posted, total, rxNext⟩ := turn_cases ended
  let received := input.beforeArming.length + input.beforePoll.length
  rw [order.posted] at posted total
  have lengths := congrArg List.length posted
  rw [List.length_append, List.length_drop, List.length_replicate,
    inTurn_length] at lengths
  rw [order.quiet, inTurn_length, lengths] at total
  have unposted : ∀ index, index < received → 0 < index → index < 64 →
      (ring.rxNext + index) % nRxBufs ∉ next.posted := by
    intro index below later inside
    rw [posted, List.mem_append]
    rintro (kept | again)
    · exact not_mem_drop_inTurn ring.rxNext below inside kept
    · have same := List.eq_of_mem_replicate again
      unfold slot nRxBufs at same
      omega
  by_cases left : count < received ∧ count < 64
  · refine ⟨0, by decide, ?_, fun impossible => absurd impossible
      (lt_irrefl 0)⟩
    rw [rxNext, Nat.add_zero]
    exact unposted count left.1 positive left.2
  · have several : 1 < received := by
      by_contra few
      have one : received = 1 := by omega
      refine odd (order.oneFrame_of_turn ended ⟨by omega, ?_⟩)
      have single : count = 1 := by omega
      change next.posted = (inTurn ring.rxNext).drop received ++ _ at posted
      rw [posted, rxNext, one, single, inTurn_succ, inTurn_cons]
      rfl
    refine ⟨65 - count, ?_, ?_, fun _ => by omega⟩
    · change _ < 64
      omega
    · have place : (next.rxNext + (65 - count)) % nRxBufs =
          (ring.rxNext + 1) % nRxBufs := by
        rw [rxNext]
        unfold nRxBufs
        omega
      rw [place]
      exact unposted 1 several Nat.one_pos (by decide)

/-- For every run of turns with one that does not see just its own frame: 64
ordinary turns later the program spins forever. -/
theorem ring_stalls (before after : List RxTurn) (odd : RxTurn)
    (single : ∀ input ∈ before, OneFrame input) (extra : ¬ OneFrame odd)
    (ordinary : ∀ input ∈ after, OneFrame input)
    (long : nRxBufs ≤ after.length) :
    Run.final step (some initial) (before ++ odd :: after) = none := by
  obtain ⟨ring, reached, order, _⟩ := measured_final initial_inOrder single
  rw [Run.final_append, reached, Run.final_cons]
  change Run.final step (ring.turn odd) after = none
  cases ended : ring.turn odd with
  | none => exact final_none after
  | some next =>
      obtain ⟨turns, few, lost⟩ := order.lost_of_turn ended extra
      exact lost.stalls few ordinary (few.trans_le long)

def ownFrame : RxTurn :=
  { beforeArming := []
    beforePoll := [{ last := 0xa5, t2PhcNs := 0 }]
    polled := 1 }

/-- Two frames, and a poll that returns both events. -/
def twoFrames : RxTurn :=
  { ownFrame with
    beforePoll := ownFrame.beforePoll ++ ownFrame.beforePoll
    polled := 2 }

theorem ring_stalls_twoFrames :
    Run.final step (some initial)
      ([] ++ twoFrames :: List.replicate nRxBufs ownFrame) = none := by
  apply ring_stalls
  · intro input impossible
    cases impossible
  · rintro ⟨_, frame, single, _⟩
    cases single
  · intro input listed
    rw [List.eq_of_mem_replicate listed]
    exact ⟨rfl, _, rfl, rfl⟩
  · rw [List.length_replicate]

end RxRing

end Loopback

end Waler
