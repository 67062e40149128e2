/-
What arrives in the strategy's book, for every interleaving of the rig.

The frames handled and those in the pipe are frames that the exchange's NIC
has accepted, in order, and all of them if nothing is lost.  The book is what
the handled packets make of it.  Once nothing is on its way, it rests the
orders of the generator's pool.
-/

import Waler.Rig.Pipe

namespace Waler

open MarketData
open EfviUdpSender (headerLen maxPayload)

namespace Rig

/-! ### What holds of every state -/

def fed (book : SimpleOrderBook) (packet : List UInt8) : SimpleOrderBook :=
  (book.applyPacket packet).2

/-- The packets behind the headers of the frames handled. -/
def packets (rig : Rig) : List (List UInt8) :=
  rig.handled.map (List.drop headerLen)

structure Sound (setup : Setup) (rig : Rig) : Prop where
  progress : rig.exchange.Progress setup.total
  ring : rig.RingPlaced
  placed : rig.rx.Placed
  lent : rig.rx.Lent
  piped : (rig.handled ++ rig.pipe).Sublist rig.exchange.frames
  counted : rig.locals.n = rig.handled.length
  book : rig.locals.book =
    Run.final fed SimpleOrderBook.empty rig.packets

theorem initial_stream (setup : Setup) : (initial setup).rx.stream = [] :=
  EfviInterface.PollState.stream_initial setup.rxqCapacity setup.maxFrameLen
    setup.prefixLen setup.ringCap

theorem initial_sound (setup : Setup) : (initial setup).Sound setup where
  progress := ExchangeThread.Progress.initial setup.exchangeEnds
    setup.symbolName setup.count
  ring := fun _ impossible => by cases impossible
  placed := EfviInterface.PollState.initial_placed setup.rxqCapacity
    setup.maxFrameLen setup.prefixLen setup.ringCap
  lent := EfviInterface.PollState.initial_lent setup.rxqCapacity
    setup.maxFrameLen setup.prefixLen setup.ringCap
  piped := by
    unfold pipe
    rw [initial_stream]
    exact List.Sublist.refl _
  counted := rfl
  book := rfl

theorem Sound.piped_step {setup : Setup} {rig after : Rig}
    (sound : rig.Sound setup) {accepted : List (List UInt8)} {lossless : Prop}
    (flow : Flow rig after accepted lossless) :
    (after.handled ++ after.pipe).Sublist after.exchange.frames := by
  rw [flow.frames]
  exact flow.moved.trans (List.Sublist.append sound.piped (List.Sublist.refl _))

/-- A frame that is passed to the callback was accepted by the exchange's NIC,
and the thread has not reached its limit. -/
theorem Sound.nextFrame {setup : Setup} {rig : Rig}
    (sound : rig.Sound setup) {frame : EfviFrame}
    (next : rig.nextFrame = some frame) :
    60 ≤ frame.len ∧ rig.locals.n < setup.total := by
  have passed := rig.nextFrame_passed
  have front := rig.rx.passed_advance
  rw [passed, next, Option.map_some, Option.toList_some] at front
  have piped := sound.piped
  unfold pipe at piped
  rw [← front] at piped
  have listed : rig.rx.interface.pool.read frame.data frame.len ∈
      rig.exchange.frames := by
    apply piped.subset
    exact List.mem_append_right _ (List.mem_append_left _
      (List.mem_append_left _ (List.mem_append_left _
        (List.mem_singleton_self _))))
  have long := sound.progress.framed _ listed
  have lengths := piped.length_le
  have counted := sound.progress.counted
  have within := sound.progress.within
  rw [ByteMemory.read_length] at long
  simp only [List.length_append, List.length_singleton] at lengths
  refine ⟨long, ?_⟩
  rw [sound.counted]
  omega

theorem Sound.advance_locals {setup : Setup} {rig : Rig}
    (sound : rig.Sound setup) (readings : Readings) :
    (rig.advance setup readings).locals.n =
        (rig.advance setup readings).handled.length ∧
      (rig.advance setup readings).locals.book =
        Run.final fed SimpleOrderBook.empty
          (rig.advance setup readings).packets := by
  cases next : rig.nextFrame with
  | none =>
      unfold Rig.advance packets
      rw [next]
      exact ⟨sound.counted, sound.book⟩
  | some frame =>
      obtain ⟨long, more⟩ := sound.nextFrame next
      have behind : (rig.rx.interface.pool.read frame.data frame.len).drop
          headerLen = rig.rx.interface.pool.read
            (frame.data + Strategy.ethIpUdpHeaderLen)
            (frame.len - Strategy.ethIpUdpHeaderLen) := by
        have skipped := rig.rx.interface.pool.read_drop frame.data 42
          (frame.len - 42)
        rw [show 42 + (frame.len - 42) = frame.len by omega] at skipped
        exact skipped
      have carried : rig.locals.payload? setup.total
          { readings with frame := frame, pool := rig.rx.interface.pool } =
            some ((rig.rx.interface.pool.read frame.data frame.len).drop
              headerLen) := by
        rw [behind]
        exact if_pos ⟨more, Nat.lt_of_lt_of_le (by decide) long⟩
      unfold Rig.advance packets
      rw [next]
      dsimp only
      refine ⟨?_, ?_⟩
      · rw [StrategyLocals.handleFrame_n _ _ more, List.length_append,
          sound.counted]
        rfl
      · rw [StrategyLocals.handleFrame_book, carried, Option.elim_some,
          List.map_append, Run.final_append, sound.book]
        rfl

theorem Sound.advance {setup : Setup} {rig : Rig} (sound : rig.Sound setup)
    (readings : Readings) : (rig.advance setup readings).Sound setup := by
  obtain ⟨exchangeEq, ringEq, _, rxEq⟩ := rig.advance_keeps setup readings
  obtain ⟨counted, book⟩ := sound.advance_locals readings
  refine ⟨?_, ?_, ?_, ?_,
    sound.piped_step (rig.advance_flow setup readings True), counted, book⟩
  · rw [exchangeEq]
    exact sound.progress
  · unfold RingPlaced
    rw [ringEq]
    exact sound.ring
  · rw [rxEq]
    exact sound.placed.advance
  · rw [rxEq]
    exact sound.lent.advance

theorem RingPlaced.exchangeTurn {rig : Rig} (placed : rig.RingPlaced)
    (turn : ExchangeThread.Turn)
    (fits : ∀ packet, rig.exchange.buffer = some packet →
      packet.length ≤ maxPayload) :
    (rig.exchangeTurn turn).RingPlaced := by
  intro descriptor listed
  unfold Rig.exchangeTurn at listed
  cases held : rig.exchange.buffer with
  | none =>
      rw [held] at listed
      exact placed descriptor listed
  | some packet =>
      rw [held] at listed
      dsimp only [Option.elim_some] at listed
      split at listed
      · exact placed descriptor listed
      · rcases List.mem_append.mp listed with old | new
        · exact placed descriptor old
        · rw [List.mem_singleton.mp new]
          exact ⟨EfviUdpSender.frameLength_le_slotLen (fits packet held), _,
            rfl⟩

theorem RingPlaced.fetch {rig : Rig} (placed : rig.RingPlaced) :
    rig.fetch.RingPlaced := by
  unfold Rig.fetch
  split
  · exact placed
  · rename_i descriptor rest ringEq
    intro other listed
    exact placed other (by
      rw [ringEq]
      exact List.mem_cons_of_mem descriptor listed)

/-- An event that leaves both threads alone. -/
theorem Sound.receiving {setup : Setup} {rig : Rig} (sound : rig.Sound setup)
    {wire : List (List UInt8)} {rx : EfviInterface.PollState}
    (placed : rx.Placed) (lent : rx.Lent) {accepted : List (List UInt8)}
    {lossless : Prop}
    (flow : Flow rig { rig with wire := wire, rx := rx } accepted lossless) :
    Sound setup { rig with wire := wire, rx := rx } :=
  ⟨sound.progress, sound.ring, placed, lent, sound.piped_step flow,
    sound.counted, sound.book⟩

theorem Sound.damage {setup : Setup} {rig : Rig} (sound : rig.Sound setup) :
    rig.damage.Sound setup := by
  have flow := rig.damage_flow
  unfold Rig.damage at flow ⊢
  split at flow
  · exact sound
  · exact sound.receiving sound.placed sound.lent flow
  · exact sound.receiving
      (EfviInterface.PollState.step_placed sound.placed _)
      (sound.lent.step sound.placed _) flow

theorem Sound.arrive {setup : Setup} {rig : Rig} (sound : rig.Sound setup)
    (timestamp : Option PreciseTime) :
    (rig.arrive timestamp).Sound setup := by
  have flow := arrive_flow sound.placed sound.lent timestamp
  unfold Rig.arrive at flow ⊢
  split at flow
  · exact sound
  · exact sound.receiving sound.placed sound.lent flow
  · dsimp only at flow ⊢
    split at flow
    · rename_i fits
      rw [if_pos fits]
      have placed := EfviInterface.PollState.step_placed sound.placed
      have lent := sound.lent.step sound.placed
      exact sound.receiving
        (EfviInterface.PollState.step_placed (placed _) _)
        ((lent _).step (placed _) _) flow
    · rename_i tooLarge
      rw [if_neg tooLarge]
      exact sound.receiving sound.placed sound.lent flow

theorem Sound.fetch {setup : Setup} {rig : Rig} (sound : rig.Sound setup) :
    rig.fetch.Sound setup := by
  have piped := sound.piped_step (rig.fetch_flow True)
  have ring := sound.ring.fetch
  cases ringEq : rig.ring with
  | nil =>
      have same : rig.fetch = rig := by
        unfold Rig.fetch
        rw [ringEq]
      rw [same]
      exact sound
  | cons descriptor rest =>
      have moved : rig.fetch =
          { rig with
            ring := rest
            wire := rig.wire ++ [rig.read descriptor] } := by
        unfold Rig.fetch
        rw [ringEq]
      rw [moved] at piped ring ⊢
      exact ⟨sound.progress, ring, sound.placed, sound.lent, piped,
        sound.counted, sound.book⟩

theorem Sound.poll {setup : Setup} {rig : Rig} (sound : rig.Sound setup)
    (ready : ℕ) (tsc : UInt64) :
    (rig.poll setup.total ready tsc).Sound setup := by
  have flow := rig.poll_flow setup.total ready tsc True
  unfold Rig.poll at flow ⊢
  split at flow
  · rename_i more
    rw [if_pos more]
    exact sound.receiving
      (EfviInterface.PollState.step_placed sound.placed _)
      (sound.lent.step sound.placed _) flow
  · rename_i full
    rw [if_neg full]
    exact sound

/-- The flow of every event whose send, if it is one, has a free slot. -/
theorem step_flow {setup : Setup} {rig : Rig} {event : Event}
    (free : rig.SlotFree event) (sound : rig.Sound setup) :
    ∃ accepted, Flow rig (rig.step setup event) accepted
      (rig.Lossless event) := by
  cases event with
  | exchange turn =>
      exact exchangeTurn_flow sound.ring turn
        (fun packet held => (sound.progress.buffered packet held).2) free _
  | fetch => exact ⟨[], rig.fetch_flow _⟩
  | arrive timestamp =>
      exact ⟨[], arrive_flow sound.placed sound.lent timestamp⟩
  | damage => exact ⟨[], rig.damage_flow⟩
  | lose => exact ⟨[], rig.lose_flow⟩
  | poll ready tsc => exact ⟨[], rig.poll_flow setup.total ready tsc _⟩
  | advance readings => exact ⟨[], rig.advance_flow setup readings _⟩

theorem step_sound {setup : Setup} {rig : Rig} {event : Event}
    (free : rig.SlotFree event) (sound : rig.Sound setup) :
    (rig.step setup event).Sound setup := by
  obtain ⟨accepted, flow⟩ := step_flow free sound
  cases event with
  | exchange turn =>
      have fits : ∀ packet, rig.exchange.buffer = some packet →
          packet.length ≤ maxPayload :=
        fun packet held => (sound.progress.buffered packet held).2
      exact ⟨sound.progress.step turn, sound.ring.exchangeTurn turn fits,
        sound.placed, sound.lent, sound.piped_step flow, sound.counted,
        sound.book⟩
  | fetch => exact sound.fetch
  | arrive timestamp => exact sound.arrive timestamp
  | damage => exact sound.damage
  | lose => exact sound.receiving sound.placed sound.lent flow
  | poll ready tsc =>
      exact sound.poll ready tsc
  | advance readings => exact sound.advance readings

/-! ### Runs -/

/-- The book is what packets of the generator, each once and in order, make of
it; the strategy has counted them. -/
structure Delivered (setup : Setup) (rig : Rig) : Prop where
  ordered : rig.packets.Sublist rig.exchange.generated
  counted : rig.locals.n = rig.packets.length
  within : rig.locals.n ≤ setup.total
  book : rig.locals.book = Run.final fed SimpleOrderBook.empty rig.packets

theorem Sound.delivered {setup : Setup} {rig : Rig}
    (sound : rig.Sound setup) : rig.Delivered setup where
  ordered := by
    have handled : rig.handled.Sublist rig.exchange.frames :=
      (List.sublist_append_left _ _).trans sound.piped
    have payloads := (List.sublist_append_left _ _).trans
      sound.progress.ordered
    exact (handled.map (List.drop headerLen)).trans payloads
  counted := by
    rw [sound.counted]
    exact (List.length_map _).symm
  within := by
    have shorter := ((List.sublist_append_left _ _).trans
      sound.piped).length_le
    rw [sound.counted]
    have counted := sound.progress.counted
    have within := sound.progress.within
    omega
  book := sound.book

/-- For every interleaving of the two threads, the two NICs and the cable, and
whatever is refused, damaged or lost: as long as no send takes the slot of a
frame still to be read, the strategy's book comes from packets of the
generator, each applied once and in order, and their number is the strategy's
count and within the limit. -/
theorem delivered_throughout (setup : Setup) (events : List Event)
    (free : Run.Along (step setup) SlotFree (initial setup) events) :
    Run.Throughout (step setup) (Delivered setup) (initial setup) events :=
  Run.throughout_of_along (Sound setup)
    (fun _ _ free sound => step_sound free sound)
    (fun _ sound => sound.delivered) (initial setup) events
    (initial_sound setup) free

def loopbackSetup : Setup :=
  { exchangeEnds := EfviUdpSender.loopback
    strategyEnds := EfviUdpSender.loopback
    symbolName := []
    count := 0
    rxqCapacity := 4
    maxFrameLen := 2048
    prefixLen := 14
    ringCap := 4
    t0Ns := 0
    gTscHz := 10 ^ 9
    libm :=
      { erfc := id
        log := id
        exp := id
        sqrt := id
        sqrt2 := 1 } }

def still : Readings :=
  { tBookStart := 0
    tBookDone := 0
    tDecisionDone := 0
    tSendStart := 0
    tSendDone := 0
    nowNs := 0
    transmitResult := 0 }

/-- One AddOrder packet on its way through all five parties. -/
def onePacket : List Event :=
  [.exchange (ExchangeThread.answered 0), .exchange (ExchangeThread.answered 0),
    .fetch, .arrive none, .poll 1 0, .advance still, .advance still,
    .advance still]

/-- A first packet is lost on the cable, the next one arrives. -/
theorem delivered_throughout_second :
    Run.Throughout (step loopbackSetup) (Delivered loopbackSetup)
      (initial loopbackSetup)
      (.exchange (ExchangeThread.answered 0) ::
        .exchange (ExchangeThread.answered 0) :: .fetch :: .lose ::
          onePacket) :=
  delivered_throughout loopbackSetup _ (by decide +kernel)

end Rig

/-! ### Nothing lost -/

namespace ExchangeThread

/-- The generator beside a book that has every packet generated so far. -/
def feed (thread : ExchangeThread) : MarketFeed :=
  { generator := thread.generator
    book := Run.final Rig.fed SimpleOrderBook.empty thread.generated
    ordersAdded := (thread.generated.map MarketFeed.addsOrder).sum }

theorem feed_draw (thread : ExchangeThread)
    (draws : PacketGenerator.CallDraws) (more : thread.sent < thread.total) :
    (thread.draw draws).feed =
      thread.feed.step { draws := draws, capacity := bufferSize } := by
  unfold ExchangeThread.draw
  rw [if_pos more]
  rcases outcome : thread.generator.nextPacket draws bufferSize with
    ⟨_ | packet, generator⟩
  · unfold MarketFeed.step
    rw [show thread.feed.generator.nextPacket draws bufferSize =
      (none, generator) from outcome]
    rfl
  · unfold MarketFeed.step
    rw [show thread.feed.generator.nextPacket draws bufferSize =
      (some packet, generator) from outcome]
    unfold feed
    dsimp only
    rw [Run.final_append, List.map_append, List.sum_append,
      List.map_singleton, List.sum_singleton]
    rfl

theorem feed_transmit (thread : ExchangeThread) (packet : List UInt8)
    (result : ℤ) : (thread.transmit packet result).feed = thread.feed :=
  rfl

theorem feed_step {thread : ExchangeThread}
    (together : thread.feed.InLockstep) (turn : Turn) :
    (thread.step turn).feed.InLockstep := by
  cases held : thread.buffer with
  | none =>
      rw [step_draw turn held]
      by_cases more : thread.sent < thread.total
      · rw [feed_draw thread turn.draws more]
        exact MarketFeed.step_inLockstep (show 32 ≤ bufferSize by decide)
          together
      · unfold ExchangeThread.draw
        rw [if_neg more]
        exact together
  | some packet =>
      rw [step_transmit turn held, feed_transmit]
      exact together

theorem addsOrder_le_one (packet : List UInt8) :
    MarketFeed.addsOrder packet ≤ 1 := by
  unfold MarketFeed.addsOrder
  split <;> omega

theorem feed_ordersAdded_le (thread : ExchangeThread) :
    thread.feed.ordersAdded ≤ thread.generated.length := by
  have each := List.sum_le_card_nsmul
    (thread.generated.map MarketFeed.addsOrder) 1 (by
      intro added listed
      obtain ⟨packet, _, rfl⟩ := List.mem_map.mp listed
      exact addsOrder_le_one packet)
  rw [List.length_map, nsmul_eq_mul, Nat.cast_id, Nat.mul_one] at each
  exact each

end ExchangeThread

namespace Rig

/-- Every packet generated has been handled, is in the pipe, or is about to be
sent. -/
def Complete (rig : Rig) : Prop :=
  rig.exchange.generated =
    rig.packets ++ rig.pipe.map (List.drop headerLen) ++
      rig.exchange.buffer.toList

/-- Nothing is on its way. -/
def Idle (rig : Rig) : Prop :=
  rig.pipe = [] ∧ rig.exchange.buffer = none

structure Whole (setup : Setup) (rig : Rig) : Prop where
  sound : rig.Sound setup
  lossless : rig.exchange.Lossless
  kept : rig.handled ++ rig.pipe = rig.exchange.frames

/-- Only its own turns change the exchange thread. -/
theorem step_exchange (setup : Setup) (rig : Rig) {event : Event}
    (other : ∀ turn, event ≠ .exchange turn) :
    (rig.step setup event).exchange = rig.exchange := by
  cases event with
  | exchange turn => exact absurd rfl (other turn)
  | fetch =>
      change rig.fetch.exchange = _
      unfold fetch
      split <;> rfl
  | arrive timestamp =>
      change (rig.arrive timestamp).exchange = _
      unfold arrive
      split
      · rfl
      · rfl
      · dsimp only
        split <;> rfl
  | damage =>
      change rig.damage.exchange = _
      unfold damage
      split <;> rfl
  | lose => rfl
  | poll ready tsc =>
      change (rig.poll setup.total ready tsc).exchange = _
      unfold poll
      split <;> rfl
  | advance readings => exact (rig.advance_keeps setup readings).1

theorem Whole.step {setup : Setup} {rig : Rig} {event : Event}
    (free : rig.SlotFree event) (nothing : rig.Lossless event)
    (whole : rig.Whole setup) : (rig.step setup event).Whole setup := by
  obtain ⟨accepted, flow⟩ := step_flow free whole.sound
  refine ⟨step_sound free whole.sound, ?_, ?_⟩
  · by_cases own : ∃ turn, event = .exchange turn
    · obtain ⟨turn, rfl⟩ := own
      exact ExchangeThread.step_lossless nothing whole.lossless
    · rw [rig.step_exchange setup (fun turn same => own ⟨turn, same⟩)]
      exact whole.lossless
  · rw [flow.kept nothing, whole.kept, flow.frames]

theorem step_feed {setup : Setup} {rig : Rig}
    (together : rig.exchange.feed.InLockstep) (event : Event) :
    (rig.step setup event).exchange.feed.InLockstep := by
  by_cases own : ∃ turn, event = .exchange turn
  · obtain ⟨turn, rfl⟩ := own
    exact ExchangeThread.feed_step together turn
  · rw [rig.step_exchange setup (fun turn same => own ⟨turn, same⟩)]
    exact together

theorem initial_whole (setup : Setup) : (initial setup).Whole setup where
  sound := initial_sound setup
  lossless := ExchangeThread.Lossless.initial setup.exchangeEnds
    setup.symbolName setup.count
  kept := by
    unfold pipe
    rw [initial_stream]
    rfl

theorem Whole.complete {setup : Setup} {rig : Rig} (whole : rig.Whole setup) :
    rig.Complete := by
  have inOrder := whole.lossless.inOrder
  unfold ExchangeThread.InOrder ExchangeThread.payloads at inOrder
  rw [← whole.kept, List.map_append] at inOrder
  exact inOrder

/-- The orders that rest in the book are those of the generator's pool. -/
theorem Whole.idle {setup : Setup} {rig : Rig} (whole : rig.Whole setup)
    (together : rig.exchange.feed.InLockstep) (idle : rig.Idle)
    (few : setup.total < 2 ^ 32) :
    SimpleOrderBook.pooledOrders rig.locals.book.orders =
      ↑rig.exchange.generator.resting.live := by
  obtain ⟨pipeEmpty, bufferEmpty⟩ := idle
  have complete := whole.complete
  unfold Complete at complete
  rw [pipeEmpty, bufferEmpty, List.map_nil, List.append_nil,
    Option.toList_none, List.append_nil] at complete
  have within := whole.sound.delivered.within
  have counted := whole.sound.delivered.counted
  have added := rig.exchange.feed_ordersAdded_le
  rw [complete] at added
  have lock := together (by omega)
  rw [whole.sound.book, ← complete]
  exact lock.same

/-- For every interleaving of fewer than `2 ^ 32` messages in which moreover
nothing is refused, damaged or lost: in every state the packets generated are,
in order, those handled, those in the pipe, and the one about to be sent; and
whenever nothing is on its way the strategy's book rests exactly the orders of
the generator's pool. -/
theorem complete_throughout (setup : Setup) (few : setup.total < 2 ^ 32)
    (events : List Event)
    (lossless : Run.Along (step setup)
      (fun rig event => rig.SlotFree event ∧ rig.Lossless event)
      (initial setup) events) :
    Run.Throughout (step setup)
      (fun rig => rig.Complete ∧ (rig.Idle →
        SimpleOrderBook.pooledOrders rig.locals.book.orders =
          ↑rig.exchange.generator.resting.live))
      (initial setup) events := by
  refine Run.throughout_of_along
    (fun rig => rig.Whole setup ∧ rig.exchange.feed.InLockstep) ?_ ?_ _ events
    ⟨initial_whole setup, MarketFeed.initial_inLockstep setup.symbolName⟩
    lossless
  · rintro rig event ⟨free, nothing⟩ ⟨whole, together⟩
    exact ⟨whole.step free nothing, step_feed together event⟩
  · rintro rig ⟨whole, together⟩
    exact ⟨whole.complete, fun idle => whole.idle together idle few⟩

theorem complete_throughout_one :
    Run.Throughout (step loopbackSetup)
      (fun rig => rig.Complete ∧ (rig.Idle →
        SimpleOrderBook.pooledOrders rig.locals.book.orders =
          ↑rig.exchange.generator.resting.live))
      (initial loopbackSetup) onePacket :=
  complete_throughout loopbackSetup (by decide) onePacket
    (by decide +kernel)

end Rig

end Waler
