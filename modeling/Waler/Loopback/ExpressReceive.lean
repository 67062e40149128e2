/-
The receive loop of x4_loopback_latency.c on the Express datapath.

What the device answers is an input: for each pass of the loop the time of a
peek that saw the frame, if one did, the batch of events that ended the pass,
and the time after it.  The result is none for the program's exit.
-/

import Mathlib.Data.Rat.Defs
import Waler.Loopback.MainLoop

namespace Waler

namespace Loopback

inductive RxRefEvent
  | rxRef (pktId : UInt32) (t2PhcNs : ℚ)
  | rxRefDiscard (pktId flags : UInt32)
  | other
  deriving DecidableEq, Repr

structure Poll where
  peeked : Option UInt64
  batch : List RxRefEvent
  t3Candidate : UInt64
  deriving DecidableEq, Repr

/-- The locals of the loop, and the packets given back. -/
structure ExpressTurn where
  tMem : UInt64
  t3 : UInt64
  t2PhcNs : ℚ
  gotRx : Bool
  missedFuture : Bool
  poisoned : Bool
  released : List UInt32
  deriving DecidableEq, Repr

namespace ExpressTurn

def start : ExpressTurn :=
  { tMem := 0
    t3 := 0
    t2PhcNs := -1
    gotRx := false
    missedFuture := false
    poisoned := false
    released := [] }

variable (mode : TxMode) (fcsErr : UInt32)

/-- The body of the loop over the events, with its condition `!got_rx`.
`fcsErr` is `EF_VI_DISCARD_RX_ETH_FCS_ERR`. -/
def handleEvent (t3Candidate : UInt64) (turn : ExpressTurn) :
    RxRefEvent → Option ExpressTurn
  | .rxRef pktId t2PhcNs =>
      if turn.gotRx then some turn
      else
        some
          { turn with
            t2PhcNs := t2PhcNs
            released := turn.released ++ [pktId]
            t3 := t3Candidate
            tMem := if turn.tMem = 0 then t3Candidate else turn.tMem
            missedFuture := if turn.tMem = 0 then true else turn.missedFuture
            gotRx := true }
  | .rxRefDiscard pktId flags =>
      if turn.gotRx then some turn
      else if mode = TxMode.ctpio ∧ flags = fcsErr then
        some
          { turn with
            released := turn.released ++ [pktId]
            poisoned := true
            gotRx := true }
      else none
  | .other => some turn

/-- One pass of the loop, with its condition. -/
def handlePoll (turn : ExpressTurn) (poll : Poll) : Option ExpressTurn :=
  if turn.gotRx then some turn
  else
    poll.batch.foldlM (handleEvent mode fcsErr poll.t3Candidate)
      { turn with tMem := poll.peeked.getD turn.tMem }

def receive (polls : List Poll) : Option ExpressTurn :=
  polls.foldlM (handlePoll mode fcsErr) start

end ExpressTurn

/-! ### The event that ends a turn -/

namespace RxRefEvent

def pktId? : RxRefEvent → Option UInt32
  | .rxRef pktId _ => some pktId
  | .rxRefDiscard pktId _ => some pktId
  | .other => none

end RxRefEvent

/-- The last peek that saw a frame, if one did. -/
def lastPeek (tMem : UInt64) (polls : List Poll) : UInt64 :=
  polls.foldl (fun tMem poll => poll.peeked.getD tMem) tMem

/-- The packets of the batches, in the order of their events. -/
def packetIds (polls : List Poll) : List UInt32 :=
  (polls.flatMap Poll.batch).filterMap RxRefEvent.pktId?

theorem pktId?_eq_none_iff (event : RxRefEvent) :
    event.pktId? = none ↔ event = .other := by
  cases event with
  | rxRef pktId t2PhcNs => exact iff_of_false nofun nofun
  | rxRefDiscard pktId flags => exact iff_of_false nofun nofun
  | other => exact iff_of_true rfl rfl

namespace ExpressTurn

variable {mode : TxMode} {fcsErr : UInt32}

theorem handleEvent_gotRx {turn : ExpressTurn} (got : turn.gotRx = true)
    (t3Candidate : UInt64) (event : RxRefEvent) :
    handleEvent mode fcsErr t3Candidate turn event = some turn := by
  unfold handleEvent
  cases event with
  | rxRef pktId t2PhcNs => exact if_pos got
  | rxRefDiscard pktId flags => exact if_pos got
  | other => rfl

theorem foldlM_handleEvent_gotRx {turn : ExpressTurn}
    (got : turn.gotRx = true) (t3Candidate : UInt64)
    (batch : List RxRefEvent) :
    batch.foldlM (handleEvent mode fcsErr t3Candidate) turn = some turn := by
  induction batch with
  | nil => rfl
  | cons event rest ih =>
      rw [List.foldlM_cons, handleEvent_gotRx got]
      exact ih

theorem foldlM_handlePoll_gotRx {turn : ExpressTurn}
    (got : turn.gotRx = true) (polls : List Poll) :
    polls.foldlM (handlePoll mode fcsErr) turn = some turn := by
  induction polls with
  | nil => rfl
  | cons poll rest ih =>
      have kept : handlePoll mode fcsErr turn poll = some turn := if_pos got
      rw [List.foldlM_cons, kept]
      exact ih

/-- A packet event ends the turn or the program. -/
theorem gotRx_of_packet {turn next : ExpressTurn} {t3Candidate : UInt64}
    {event : RxRefEvent} (packet : event.pktId? ≠ none)
    (handled : handleEvent mode fcsErr t3Candidate turn event = some next) :
    next.gotRx = true := by
  by_cases got : turn.gotRx = true
  · rw [handleEvent_gotRx got] at handled
    obtain rfl := Option.some.inj handled
    exact got
  · unfold handleEvent at handled
    cases event with
    | rxRef pktId t2PhcNs =>
        dsimp only at handled
        rw [if_neg got] at handled
        obtain rfl := Option.some.inj handled
        rfl
    | rxRefDiscard pktId flags =>
        dsimp only at handled
        rw [if_neg got] at handled
        split at handled
        case isTrue =>
          obtain rfl := Option.some.inj handled
          rfl
        case isFalse => cases handled
    | other => exact absurd rfl packet

/-- What a batch does to a turn that has not ended: nothing without a packet
event, and else what its first packet event does. -/
theorem foldlM_handleEvent {turn next : ExpressTurn} {t3Candidate : UInt64}
    {batch : List RxRefEvent}
    (handled : batch.foldlM (handleEvent mode fcsErr t3Candidate) turn =
      some next) :
    batch.filterMap RxRefEvent.pktId? = [] ∧ next = turn ∨
      ∃ decider pktId others, decider.pktId? = some pktId ∧
        batch.filterMap RxRefEvent.pktId? = pktId :: others ∧
          handleEvent mode fcsErr t3Candidate turn decider = some next := by
  induction batch with
  | nil => exact Or.inl ⟨rfl, (Option.some.inj handled).symm⟩
  | cons event rest ih =>
      rw [List.foldlM_cons] at handled
      obtain ⟨middle, first, later⟩ := Option.bind_eq_some_iff.mp handled
      cases packet : event.pktId? with
      | none =>
          obtain rfl := (pktId?_eq_none_iff event).mp packet
          obtain rfl := Option.some.inj first
          exact ih later
      | some pktId =>
          have got := gotRx_of_packet
            (fun none => Option.some_ne_none _ (packet.symm.trans none)) first
          rw [foldlM_handleEvent_gotRx got] at later
          obtain rfl := Option.some.inj later
          refine Or.inr ⟨event, pktId, rest.filterMap RxRefEvent.pktId?,
            packet, ?_, first⟩
          exact List.filterMap_cons_some packet

/-- Before a packet event only the peeks leave a trace. -/
def waiting (tMem : UInt64) : ExpressTurn :=
  { start with tMem := tMem }

theorem foldlM_handlePoll {tMem : UInt64} {next : ExpressTurn}
    {polls : List Poll}
    (handled : polls.foldlM (handlePoll mode fcsErr) (waiting tMem) =
      some next) :
    packetIds polls = [] ∧ next = waiting (lastPeek tMem polls) ∨
      ∃ before last after decider pktId others,
        polls = before ++ last :: after ∧ packetIds before = [] ∧
          last.batch.filterMap RxRefEvent.pktId? = pktId :: others ∧
            decider.pktId? = some pktId ∧
              handleEvent mode fcsErr last.t3Candidate
                (waiting (lastPeek tMem (before ++ [last]))) decider =
                  some next := by
  induction polls generalizing tMem with
  | nil => exact Or.inl ⟨rfl, (Option.some.inj handled).symm⟩
  | cons poll rest ih =>
      rw [List.foldlM_cons] at handled
      obtain ⟨middle, first, later⟩ := Option.bind_eq_some_iff.mp handled
      change poll.batch.foldlM (handleEvent mode fcsErr poll.t3Candidate)
        (waiting (poll.peeked.getD tMem)) = some middle at first
      obtain ⟨none, rfl⟩ | ⟨decider, pktId, others, packet, ids, decides⟩ :=
        foldlM_handleEvent first
      · have front : ∀ polls, packetIds (poll :: polls) = packetIds polls := by
          intro polls
          unfold packetIds
          rw [List.flatMap_cons, List.filterMap_append, none, List.nil_append]
        obtain ⟨quiet, rfl⟩ |
          ⟨before, last, after, decider, pktId, others, rfl, quiet, rest⟩ :=
            ih later
        · exact Or.inl ⟨(front rest).trans quiet, rfl⟩
        · exact Or.inr ⟨poll :: before, last, after, decider, pktId, others,
            rfl, (front before).trans quiet, rest⟩
      · have got := gotRx_of_packet
          (fun none => Option.some_ne_none _ (packet.symm.trans none)) decides
        rw [foldlM_handlePoll_gotRx got] at later
        obtain rfl := Option.some.inj later
        exact Or.inr ⟨[], poll, rest, decider, pktId, others, rfl, rfl, ids,
          packet, decides⟩

/-- The loop has ended with the last of the polls. -/
structure Ends (mode : TxMode) (fcsErr : UInt32) (polls : List Poll)
    (turn : ExpressTurn) : Prop where
  received : receive mode fcsErr polls = some turn
  gotRx : turn.gotRx = true
  running : ∀ before after, polls = before ++ after → after ≠ [] →
    ∀ middle, receive mode fcsErr before = some middle →
      middle.gotRx = false

/-- What a turn that ends has seen. -/
structure Seen (mode : TxMode) (fcsErr : UInt32) (polls : List Poll)
    (turn : ExpressTurn) (last : Poll) (decider : RxRefEvent)
    (pktId : UInt32) (others : List UInt32) : Prop where
  isLast : polls.getLast? = some last
  packets : packetIds polls = pktId :: others
  named : decider.pktId? = some pktId
  decides : handleEvent mode fcsErr last.t3Candidate
    (waiting (lastPeek 0 polls)) decider = some turn

theorem gotRx_of_packetIds {polls : List Poll} {turn : ExpressTurn}
    (received : receive mode fcsErr polls = some turn)
    (some : packetIds polls ≠ []) : turn.gotRx = true := by
  obtain ⟨none, _⟩ | ⟨_, _, _, decider, _, _, _, _, _, packet, decides⟩ :=
    foldlM_handlePoll received
  · exact absurd none some
  · exact gotRx_of_packet
      (fun none => Option.some_ne_none _ (packet.symm.trans none)) decides

theorem Ends.seen {polls : List Poll} {turn : ExpressTurn}
    (ends : Ends mode fcsErr polls turn) :
    ∃ last decider pktId others,
      Seen mode fcsErr polls turn last decider pktId others := by
  obtain ⟨_, rfl⟩ | ⟨before, last, after, decider, pktId, others, rfl, quiet,
    ids, packet, decides⟩ := foldlM_handlePoll ends.received
  · cases ends.gotRx
  · have packets : packetIds (before ++ [last]) = pktId :: others := by
      unfold packetIds at quiet ⊢
      rw [List.flatMap_append, List.filterMap_append, quiet, List.nil_append,
        List.flatMap_singleton, ids]
    have stopped : after = [] := by
      by_contra more
      have split := List.append_cons before last after
      have received := ends.received
      rw [split] at received
      unfold receive at received
      rw [List.foldlM_append] at received
      obtain ⟨middle, reached, _⟩ := Option.bind_eq_some_iff.mp received
      have got := gotRx_of_packetIds reached
        (packets ▸ List.cons_ne_nil pktId others)
      rw [ends.running _ _ split more middle reached] at got
      cases got
    subst stopped
    exact ⟨last, decider, pktId, others, List.getLast?_concat, packets,
      packet, decides⟩

theorem Seen.released {polls : List Poll} {turn : ExpressTurn} {last : Poll}
    {decider : RxRefEvent} {pktId : UInt32} {others : List UInt32}
    (seen : Seen mode fcsErr polls turn last decider pktId others) :
    turn.released = [pktId] := by
  have decides := seen.decides
  have named := seen.named
  unfold handleEvent at decides
  cases decider with
  | rxRef otherId t2PhcNs =>
      obtain rfl := Option.some.inj named
      obtain rfl := Option.some.inj decides
      rfl
  | rxRefDiscard otherId flags =>
      obtain rfl := Option.some.inj named
      change (if mode = TxMode.ctpio ∧ flags = fcsErr then some _ else none) =
        _ at decides
      split at decides
      case isTrue =>
        obtain rfl := Option.some.inj decides
        rfl
      case isFalse => cases decides
  | other => cases named

section Releases

variable {turns : List (List Poll × ExpressTurn)}
  (firsts : ∀ turn ∈ turns, ∃ pktId others,
    packetIds turn.1 = pktId :: others ∧ turn.2.released = [pktId])

include firsts

theorem released_length :
    (turns.flatMap (fun turn => turn.2.released)).length = turns.length := by
  induction turns with
  | nil => rfl
  | cons turn rest ih =>
      obtain ⟨pktId, others, _, released⟩ := firsts turn List.mem_cons_self
      have later := ih (fun other listed =>
        firsts other (List.mem_cons_of_mem _ listed))
      rw [List.flatMap_cons, released, List.length_append, later,
        List.length_cons, Nat.add_comm]
      rfl

theorem released_sublist :
    (turns.flatMap (fun turn => turn.2.released)).Sublist
      (turns.flatMap (fun turn => packetIds turn.1)) := by
  induction turns with
  | nil => exact List.Sublist.refl _
  | cons turn rest ih =>
      obtain ⟨pktId, others, told, released⟩ := firsts turn List.mem_cons_self
      have later := ih (fun other listed =>
        firsts other (List.mem_cons_of_mem _ listed))
      rw [List.flatMap_cons, List.flatMap_cons, released, told]
      exact List.Sublist.cons_cons pktId
        (later.trans (List.sublist_append_right others _))

/-- A second packet of a turn makes the list of those told of longer. -/
theorem released_eq_iff :
    turns.flatMap (fun turn => turn.2.released) =
        turns.flatMap (fun turn => packetIds turn.1) ↔
      ∀ turn ∈ turns, (packetIds turn.1).length = 1 := by
  induction turns with
  | nil => exact iff_of_true rfl nofun
  | cons turn rest ih =>
      obtain ⟨pktId, others, told, released⟩ := firsts turn List.mem_cons_self
      have restFirsts := fun other listed =>
        firsts other (List.mem_cons_of_mem turn listed)
      rw [List.flatMap_cons, List.flatMap_cons, List.forall_mem_cons,
        ← ih restFirsts, released, told]
      constructor
      · intro same
        have tail := (List.cons.inj same).2
        have lengths := congrArg List.length tail
        have short := (released_sublist restFirsts).length_le
        rw [List.append_eq, List.nil_append, List.append_eq,
          List.length_append] at lengths
        have single : others.length = 0 := by omega
        rw [List.length_eq_zero_iff.mp single] at tail
        exact ⟨congrArg Nat.succ single, tail⟩
      · rintro ⟨single, later⟩
        obtain rfl := List.length_eq_zero_iff.mp (Nat.succ.inj single)
        rw [later]

end Releases

/-- For every run of turns on the Express datapath: each gives back one packet,
the first it was told of.  All packets are given back exactly when no turn was
told of a second one. -/
theorem express_releases (turns : List (List Poll × ExpressTurn))
    (ended : ∀ turn ∈ turns, Ends mode fcsErr turn.1 turn.2) :
    (∀ turn ∈ turns, ∃ pktId others,
      packetIds turn.1 = pktId :: others ∧ turn.2.released = [pktId]) ∧
    (turns.flatMap (fun turn => turn.2.released)).length = turns.length ∧
    (turns.flatMap (fun turn => turn.2.released)).Sublist
      (turns.flatMap (fun turn => packetIds turn.1)) ∧
    (turns.flatMap (fun turn => turn.2.released) =
        turns.flatMap (fun turn => packetIds turn.1) ↔
      ∀ turn ∈ turns, (packetIds turn.1).length = 1) := by
  have firsts : ∀ turn ∈ turns, ∃ pktId others,
      packetIds turn.1 = pktId :: others ∧ turn.2.released = [pktId] := by
    intro turn listed
    obtain ⟨_, _, pktId, others, seen⟩ := (ended turn listed).seen
    exact ⟨pktId, others, seen.packets, seen.released⟩
  exact ⟨firsts, released_length firsts, released_sublist firsts,
    released_eq_iff firsts⟩

theorem ends_single {poll : Poll} {turn : ExpressTurn}
    (received : receive mode fcsErr [poll] = some turn)
    (got : turn.gotRx = true) : Ends mode fcsErr [poll] turn := by
  refine ⟨received, got, ?_⟩
  intro before after split more middle reached
  cases before with
  | nil =>
      obtain rfl := Option.some.inj reached
      rfl
  | cons first rest =>
      have none := (List.append_eq_nil_iff.mp (List.cons.inj split).2.symm).2
      exact absurd none more

/-- A batch with the events of two packets. -/
def crowdedPoll : Poll :=
  { peeked := some 20
    batch := [.rxRef 7 5, .rxRef 8 6]
    t3Candidate := 30 }

def crowdedTurn : ExpressTurn :=
  { tMem := 20
    t3 := 30
    t2PhcNs := 5
    gotRx := true
    missedFuture := false
    poisoned := false
    released := [7] }

theorem crowdedTurn_ends : Ends .ctpio 1 [crowdedPoll] crowdedTurn :=
  ends_single rfl rfl

/-- The second packet is never given back. -/
theorem express_releases_crowded :
    crowdedTurn.released ≠ packetIds [crowdedPoll] := by
  intro same
  have whole := (express_releases [([crowdedPoll], crowdedTurn)] (by
    intro turn listed
    obtain rfl := List.mem_singleton.mp listed
    exact crowdedTurn_ends)).2.2.2
  have single := whole.mp (by
    rw [List.flatMap_singleton, List.flatMap_singleton]
    exact same) _ List.mem_cons_self
  exact absurd single (by decide)

/-! ### Times -/

/-- The readings of the counter in a turn, in order. -/
def ticks (t0 : UInt64) (polls : List Poll) : List UInt64 :=
  t0 :: polls.flatMap (fun poll => poll.peeked.toList ++ [poll.t3Candidate])

theorem lastPeek_cases (polls : List Poll) :
    lastPeek 0 polls = 0 ∨
      ∃ poll ∈ polls, poll.peeked = some (lastPeek 0 polls) := by
  induction polls using List.reverseRecOn with
  | nil => exact Or.inl rfl
  | append_singleton polls poll ih =>
      have last : lastPeek 0 (polls ++ [poll]) =
          poll.peeked.getD (lastPeek 0 polls) := by
        unfold lastPeek
        rw [List.foldl_append]
        rfl
      rw [last]
      cases peeked : poll.peeked with
      | none =>
          obtain same | ⟨other, listed, found⟩ := ih
          · exact Or.inl same
          · exact Or.inr ⟨other, List.mem_append_left _ listed, found⟩
      | some peek =>
          exact Or.inr ⟨poll, List.mem_append_right _ List.mem_cons_self,
            peeked⟩

/-- A frame was seen in memory after the doorbell and before the poll that
returned its event ended. -/
theorem lastPeek_between {t0 : UInt64} {polls : List Poll} {last : Poll}
    (advances : (ticks t0 polls).Pairwise
      (fun before after => before.toNat ≤ after.toNat))
    (isLast : polls.getLast? = some last) :
    t0.toNat ≤ last.t3Candidate.toNat ∧
      (lastPeek 0 polls ≠ 0 →
        t0.toNat ≤ (lastPeek 0 polls).toNat ∧
          (lastPeek 0 polls).toNat ≤ last.t3Candidate.toNat) := by
  obtain ⟨before, rfl⟩ := List.getLast?_eq_some_iff.mp isLast
  unfold ticks at advances
  rw [List.flatMap_append, List.flatMap_singleton, ← List.append_assoc]
    at advances
  obtain ⟨start, rest⟩ := List.pairwise_cons.mp advances
  refine ⟨start _ (List.mem_append_right _ List.mem_cons_self), ?_⟩
  intro seen
  obtain unseen | ⟨poll, listed, peeked⟩ := lastPeek_cases (before ++ [last])
  · exact absurd unseen seen
  · have read : lastPeek 0 (before ++ [last]) ∈
        before.flatMap (fun poll =>
          poll.peeked.toList ++ [poll.t3Candidate]) ++
            last.peeked.toList := by
      obtain early | late := List.mem_append.mp listed
      · apply List.mem_append_left
        apply List.mem_flatMap.mpr
        refine ⟨poll, early, List.mem_append_left _ ?_⟩
        rw [Option.mem_toList]
        exact peeked
      · obtain rfl := List.mem_singleton.mp late
        apply List.mem_append_right
        rw [Option.mem_toList]
        exact peeked
    exact ⟨start _ (List.mem_append_left _ read),
      (List.pairwise_append.mp rest).2.2 _ read _ List.mem_cons_self⟩

/-- What the main loop makes of a turn. -/
def result (t0 : UInt64) (t1PhcNs : ℚ) (txCtpio : Bool)
    (turn : ExpressTurn) : TurnResult :=
  { readings :=
      { t0 := t0
        tMem := turn.tMem
        t3 := turn.t3
        t1PhcNs := t1PhcNs
        t2PhcNs := turn.t2PhcNs }
    txCtpio := txCtpio
    missedFuture := turn.missedFuture
    poisoned := turn.poisoned }

theorem Ends.advances {polls : List Poll} {turn : ExpressTurn}
    (ends : Ends mode fcsErr polls turn) {t0 : UInt64}
    (advances : (ticks t0 polls).Pairwise
      (fun before after => before.toNat ≤ after.toNat))
    (t1PhcNs : ℚ) (txCtpio : Bool) :
    (turn.result t0 t1PhcNs txCtpio).Advances := by
  obtain ⟨last, decider, pktId, others, seen⟩ := ends.seen
  obtain ⟨_, between⟩ := lastPeek_between advances seen.isLast
  have decides := seen.decides
  have named := seen.named
  unfold handleEvent at decides
  intro noticed clean
  cases decider with
  | rxRef otherId t2PhcNs =>
      obtain rfl := Option.some.inj decides
      change (if lastPeek 0 polls = 0 then true else false) = false at noticed
      change t0.toNat ≤ (if lastPeek 0 polls = 0 then last.t3Candidate else
          lastPeek 0 polls).toNat ∧
        (if lastPeek 0 polls = 0 then last.t3Candidate else
          lastPeek 0 polls).toNat ≤ last.t3Candidate.toNat
      by_cases unseen : lastPeek 0 polls = 0
      · rw [if_pos unseen] at noticed
        cases noticed
      · rw [if_neg unseen]
        exact between unseen
  | rxRefDiscard otherId flags =>
      change (if mode = TxMode.ctpio ∧ flags = fcsErr then some _ else none) =
        _ at decides
      split at decides
      case isTrue =>
        obtain rfl := Option.some.inj decides
        cases clean
      case isFalse => cases decides
  | other => cases named

end ExpressTurn

/-! ### Runs -/

structure ExpressInput where
  recalibrated : ClockMap
  t0 : UInt64
  polls : List Poll
  turn : ExpressTurn
  t1PhcNs : ℚ
  txCtpio : Bool

def ExpressInput.toTurn (input : ExpressInput) : LoopTurn :=
  { recalibrated := input.recalibrated
    result := input.turn.result input.t0 input.t1PhcNs input.txCtpio }

/-- The turn is what the loop makes of its polls, and the counter goes on. -/
structure ExpressInput.Possible (mode : TxMode) (fcsErr : UInt32)
    (input : ExpressInput) : Prop where
  ends : input.turn.Ends mode fcsErr input.polls
  advances : (ExpressTurn.ticks input.t0 input.polls).Pairwise
    (fun before after => before.toNat ≤ after.toNat)
  rising : 0 < input.recalibrated.tsc2rt.a

/-- For every run of the benchmark on the Express datapath, with clocks that do
not go back: no round trip and no poll delay in its arrays is negative. -/
theorem express_rows_nonneg {mode : TxMode} {fcsErr : UInt32}
    {start : ClockMap} {inputs : List ExpressInput}
    (rising : 0 < start.tsc2rt.a)
    (possible : ∀ input ∈ inputs, input.Possible mode fcsErr) :
    ∀ row ∈ (Run.final (LoopState.step mode) (LoopState.initial start)
        (inputs.map ExpressInput.toTurn)).rows,
      0 ≤ row.latencies.rtt ∧ 0 ≤ row.latencies.polld := by
  apply rows_nonneg (final_accounted mode start _) rising
  · intro input listed
    obtain ⟨given, member, rfl⟩ := List.mem_map.mp listed
    exact (possible given member).rising
  · intro input listed
    obtain ⟨given, member, rfl⟩ := List.mem_map.mp listed
    have facts := possible given member
    exact facts.ends.advances facts.advances given.t1PhcNs given.txCtpio

def crowdedInput : ExpressInput :=
  { recalibrated :=
      { tsc2rt := { a := 1, b := 0 }
        rt2phc := { a := 1, b := 0 } }
    t0 := 10
    polls := [ExpressTurn.crowdedPoll]
    turn := ExpressTurn.crowdedTurn
    t1PhcNs := 4
    txCtpio := true }

theorem express_rows_nonneg_crowded :
    (Run.final (LoopState.step .ctpio)
        (LoopState.initial crowdedInput.recalibrated)
        ((List.replicate 2001 crowdedInput).map ExpressInput.toTurn)).rows.all
      (fun row => decide (0 ≤ row.latencies.rtt ∧ 0 ≤ row.latencies.polld)) =
        true := by
  apply List.all_eq_true.mpr
  intro row listed
  refine decide_eq_true (express_rows_nonneg one_pos (show
    ∀ input ∈ List.replicate 2001 crowdedInput, input.Possible .ctpio 1 from
      ?_) row listed)
  intro input member
  rw [List.eq_of_mem_replicate member]
  exact ⟨ExpressTurn.crowdedTurn_ends, by decide, one_pos⟩

end Loopback

end Waler
