/-
The requote decision of `strategyThreadMain`.

The strategy quotes when it has not quoted yet or the theoretical price has
moved by the threshold since it last did.  What it remembers is the quote it
tried to send; what stands in the market is the quote the NIC accepted.  The
price of an update is what the pricer returns, and the NIC's answer to a send
comes from outside.
-/

import Mathlib.Algebra.Order.Ring.Rat
import Waler.Efvi.EfviUdpSender
import Waler.Foundation.Run
import Waler.Strategy.QuotePrices

namespace Waler

open MarketData

namespace Strategy

def requoteThreshold : ℚ := 1 / 100

end Strategy

open Strategy (requoteThreshold quotePacket)

/-- The state of the strategy's loop; the last field records what happened. -/
structure StrategyThread where
  book : SimpleOrderBook
  egress : EfviUdpSender
  lastQuotedTheo : ℚ
  haveQuote : Bool
  -- The theoretical price that the latest accepted quote was built from.
  accepted : Option ℚ

namespace StrategyThread

def initial (endpoints : EfviUdpSender.Endpoints) : StrategyThread :=
  { book := SimpleOrderBook.empty
    egress := EfviUdpSender.initial endpoints
    lastQuotedTheo := 0
    haveQuote := false
    accepted := none }

/-- A received payload, and what handling it takes from outside: the price
from the pricer, the clock of the encoder and the answer of
`ef_vi_transmit`. -/
structure Arrival where
  payload : List UInt8
  callPrice : ℚ
  nowNs : UInt64
  transmitResult : ℤ

def shouldRequote (thread : StrategyThread) (callPrice : ℚ) : Bool :=
  !thread.haveQuote ||
    decide (requoteThreshold ≤ |callPrice - thread.lastQuotedTheo|)

def requote (thread : StrategyThread) (arrival : Arrival) : StrategyThread :=
  let (rc, _, egress) :=
    thread.egress.send (fun _ _ _ => (arrival.transmitResult, ())) ()
      (quotePacket arrival.nowNs arrival.callPrice)
  { thread with
    egress := egress
    lastQuotedTheo := arrival.callPrice
    haveQuote := true
    accepted := if rc = 0 then some arrival.callPrice else thread.accepted }

/-- The packet was applied and left the book with both sides to price from. -/
def priced (thread : StrategyThread) (arrival : Arrival) : Bool :=
  let (applied, book) := thread.book.applyPacket arrival.payload
  applied && book.bestBid.isSome && book.bestAsk.isSome

def attempts (thread : StrategyThread) (arrival : Arrival) : Bool :=
  thread.priced arrival && thread.shouldRequote arrival.callPrice

def step (thread : StrategyThread) (arrival : Arrival) : StrategyThread :=
  let updated :=
    { thread with book := (thread.book.applyPacket arrival.payload).2 }
  if thread.attempts arrival then updated.requote arrival else updated

/-! ### What the quotes should satisfy -/

/-- The market holds a quote for a price within the threshold of this one. -/
def Quoted (thread : StrategyThread) (callPrice : ℚ) : Prop :=
  ∃ quoted, thread.accepted = some quoted ∧
    |quoted - callPrice| < requoteThreshold

/-- A priced update that is handled without a send finds the market quoted. -/
def HandledQuoted (thread : StrategyThread) (arrival : Arrival) : Prop :=
  thread.priced arrival = true → thread.attempts arrival = false →
    thread.Quoted arrival.callPrice

/-- Whatever the price of the next update, if no send is attempted then the
market is quoted. -/
def Tracks (thread : StrategyThread) : Prop :=
  ∀ callPrice, thread.shouldRequote callPrice = false →
    thread.Quoted callPrice

/-- The NIC does not refuse the quote of this update. -/
def NotRefused (thread : StrategyThread) (arrival : Arrival) : Prop :=
  thread.attempts arrival = true → 0 ≤ arrival.transmitResult

instance (thread : StrategyThread) (arrival : Arrival) :
    Decidable (thread.NotRefused arrival) :=
  inferInstanceAs (Decidable (_ → _))

/-! ### One update -/

theorem requote_eq (thread : StrategyThread) (arrival : Arrival) :
    thread.requote arrival =
      { thread with
        egress := thread.egress.built
          (quotePacket arrival.nowNs arrival.callPrice)
        lastQuotedTheo := arrival.callPrice
        haveQuote := true
        accepted := if 0 ≤ arrival.transmitResult then some arrival.callPrice
          else thread.accepted } := by
  have fits : (quotePacket arrival.nowNs arrival.callPrice).length ≤
      EfviUdpSender.maxPayload := by
    unfold quotePacket Strategy.encodeQuote
    rw [List.length_append, PackedLayout.encode_length,
      PackedLayout.encode_length]
    decide
  unfold requote
  rw [EfviUdpSender.send_of_fits _ _ _ fits]
  dsimp only
  by_cases refused : arrival.transmitResult < 0
  · rw [if_pos refused, if_neg (by decide), if_neg (not_le.mpr refused)]
  · rw [if_neg refused, if_pos rfl, if_pos (not_lt.mp refused)]

/-- What the strategy remembers is the quote that stands. -/
structure Remembers (thread : StrategyThread) : Prop where
  standing : thread.haveQuote = true →
    thread.accepted = some thread.lastQuotedTheo
  quoting : thread.accepted.isSome → thread.haveQuote = true

theorem shouldRequote_eq_false_iff (thread : StrategyThread) (callPrice : ℚ) :
    thread.shouldRequote callPrice = false ↔
      thread.haveQuote = true ∧
        |callPrice - thread.lastQuotedTheo| < requoteThreshold := by
  unfold shouldRequote
  rw [Bool.or_eq_false_iff, Bool.not_eq_false', decide_eq_false_iff_not,
    not_le]

theorem Remembers.tracks {thread : StrategyThread}
    (remembers : thread.Remembers) : thread.Tracks := by
  intro callPrice quiet
  obtain ⟨quotes, near⟩ := (thread.shouldRequote_eq_false_iff _).mp quiet
  rw [abs_sub_comm] at near
  exact ⟨_, remembers.standing quotes, near⟩

theorem step_of_attempts {thread : StrategyThread} {arrival : Arrival}
    (attempt : thread.attempts arrival = true) :
    thread.step arrival =
      { book := (thread.book.applyPacket arrival.payload).2
        egress := thread.egress.built
          (quotePacket arrival.nowNs arrival.callPrice)
        lastQuotedTheo := arrival.callPrice
        haveQuote := true
        accepted := if 0 ≤ arrival.transmitResult then some arrival.callPrice
          else thread.accepted } := by
  unfold step
  rw [if_pos attempt, requote_eq]

theorem step_of_quiet {thread : StrategyThread} {arrival : Arrival}
    (quiet : thread.attempts arrival = false) :
    thread.step arrival =
      { thread with book := (thread.book.applyPacket arrival.payload).2 } := by
  unfold step
  rw [quiet]
  rfl

theorem Remembers.step {thread : StrategyThread} {arrival : Arrival}
    (remembers : thread.Remembers) (notRefused : thread.NotRefused arrival) :
    (thread.step arrival).Remembers := by
  cases attempt : thread.attempts arrival with
  | false =>
      rw [step_of_quiet attempt]
      exact ⟨remembers.standing, remembers.quoting⟩
  | true =>
      rw [step_of_attempts attempt]
      exact ⟨fun _ => if_pos (notRefused attempt), fun _ => rfl⟩

/-- After a refused quote the strategy rests on a price that nothing in the
market was built from. -/
theorem Remembers.notRefused {thread : StrategyThread} {arrival : Arrival}
    (remembers : thread.Remembers) (tracks : (thread.step arrival).Tracks) :
    thread.NotRefused arrival := by
  intro attempt
  by_contra refused
  rw [step_of_attempts attempt] at tracks
  have wanted : thread.shouldRequote arrival.callPrice = true :=
    (Bool.and_eq_true_iff.mp attempt).2
  obtain ⟨quoted, standing, near⟩ := tracks arrival.callPrice (by
    rw [shouldRequote_eq_false_iff]
    refine ⟨rfl, ?_⟩
    rw [sub_self, abs_zero]
    norm_num [requoteThreshold])
  rw [if_neg refused] at standing
  have quotes := remembers.quoting (by rw [standing]; rfl)
  have same := remembers.standing quotes
  rw [standing] at same
  rw [Option.some.inj same, abs_sub_comm] at near
  have quiet := (thread.shouldRequote_eq_false_iff _).mpr ⟨quotes, near⟩
  rw [wanted] at quiet
  cases quiet

theorem initial_remembers (endpoints : EfviUdpSender.Endpoints) :
    (initial endpoints).Remembers where
  standing := fun quotes => by cases quotes
  quoting := fun accepted => by cases accepted

theorem Tracks.handledQuoted {thread : StrategyThread}
    (tracks : thread.Tracks) (arrival : Arrival) :
    thread.HandledQuoted arrival := by
  intro priced quiet
  unfold attempts at quiet
  rw [priced, Bool.true_and] at quiet
  exact tracks arrival.callPrice quiet

/-! ### Runs -/

theorem tracks_exact : Run.Exact step NotRefused Tracks Remembers where
  preserved := fun _ _ notRefused remembers => remembers.step notRefused
  sound := fun _ remembers => remembers.tracks
  exposed := fun _ _ remembers tracks => remembers.notRefused tracks

/-- The market is quoted for every price at which the strategy would stay
quiet, in all states of a run, exactly when no quote of the run is refused;
then every priced update handled without a send finds the market quoted. -/
theorem run_tracks_iff (endpoints : EfviUdpSender.Endpoints)
    (arrivals : List Arrival) :
    (Run.Throughout step Tracks (initial endpoints) arrivals ↔
      Run.Along step NotRefused (initial endpoints) arrivals) ∧
    (Run.Along step NotRefused (initial endpoints) arrivals →
      Run.Along step HandledQuoted (initial endpoints) arrivals) := by
  have exact := tracks_exact.throughout_iff (initial endpoints) arrivals
    (initial_remembers endpoints)
  refine ⟨exact, ?_⟩
  intro along
  exact Run.along_of_throughout
    (fun _ arrival tracks => tracks.handledQuoted arrival)
    (initial endpoints) arrivals (exact.mpr along)

/-- An AddOrder packet arrives, and the option is worth three dollars. -/
def addition (side : UInt8) (orderId : UInt32) (transmitResult : ℤ) :
    Arrival :=
  { payload := lengthBytes 30 ++
      (Message.addOrder
        { header := ⟨MessageType.addOrder.toByte⟩
          timestampNs := 0
          orderId := orderId
          side := side
          price := 15000
          quantity := 10
          symbol := Vector.replicate 8 0 }).toNetwork.bytes
    callPrice := 3
    nowNs := 7
    transmitResult := transmitResult }

theorem run_tracks_iff_accepted :
    Run.Along step HandledQuoted (initial EfviUdpSender.loopback)
      [addition sideBuy 1 0, addition sideSell 2 0, addition sideSell 3 0] :=
  (run_tracks_iff EfviUdpSender.loopback _).2 (by decide +kernel)

/-- The first quote is refused; the next update has the same price and is
handled without a send, although no quote stands. -/
theorem not_handledQuoted_refused :
    ¬ ∀ (endpoints : EfviUdpSender.Endpoints) (arrivals : List Arrival),
        Run.Along step HandledQuoted (initial endpoints) arrivals := by
  intro claimed
  have along := claimed EfviUdpSender.loopback
    [addition sideBuy 1 0, addition sideSell 2 (-11), addition sideSell 3 0]
  let thread := ((initial EfviUdpSender.loopback).step
    (addition sideBuy 1 0)).step (addition sideSell 2 (-11))
  have priced : thread.priced (addition sideSell 3 0) = true := by
    decide +kernel
  have quiet : thread.attempts (addition sideSell 3 0) = false := by
    decide +kernel
  have unquoted : thread.accepted = none := by
    decide +kernel
  obtain ⟨quoted, standing, _⟩ := along.2.2.1 priced quiet
  rw [unquoted] at standing
  cases standing

end StrategyThread

end Waler
