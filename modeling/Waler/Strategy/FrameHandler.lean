/-
What `strategyThreadMain` does with one frame, from the gap to the send.

All locals of the thread are one record.  The cycle counter, the encoder's
clock and the NIC's answers come with each visit.  A double is a rational, and
so are the values of the math library's functions.
-/

import Waler.Foundation.Simulation
import Waler.Strategy.AnnualizedVol
import Waler.Strategy.NicGap
import Waler.Strategy.Receive
import Waler.Strategy.Requote

namespace Waler

open MarketData

namespace Strategy

def strikeDollars : ℚ := 150

def initialExpiryYears : ℚ := 30 / 365

def riskFreeRate : ℚ := 5 / 100

def fallbackVol : ℚ := 20 / 100

def volWindow : ℕ := 64

def secondsPerYear : ℚ := 36525 / 100 * 24 * 3600

end Strategy

open Strategy (warmupIters nicNs ethIpUdpHeaderLen requoteThreshold
  quotePacket strikeDollars initialExpiryYears riskFreeRate fallbackVol
  volWindow)

/-- `struct Stats`. -/
structure FrameStats where
  nicGap : Stats
  tscGap : Stats
  bookApply : Stats
  pricingDecision : Stats
  send : Stats

namespace FrameStats

def init (count : ℕ) : FrameStats :=
  { nicGap := Stats.init count
    tscGap := Stats.init count
    bookApply := Stats.init count
    pricingDecision := Stats.init count
    send := Stats.init count }

def collectors (stats : FrameStats) : List Stats :=
  [stats.nicGap, stats.tscGap, stats.bookApply, stats.pricingDecision,
    stats.send]

end FrameStats

def Stats.recordIf (stats : Stats) (recording : Bool) (cycles : UInt64) :
    Stats :=
  if recording then stats.record cycles else stats

structure StrategyLocals where
  egress : EfviUdpSender
  book : SimpleOrderBook
  vol : RealizedVolEstimator ℚ
  t0Ns : ℚ
  lastQuotedTheo : ℚ
  haveQuote : Bool
  nRequoted : ℕ
  havePrev : Bool
  prevNicNs : ℚ
  prevTsc : UInt64
  n : ℕ
  stats : FrameStats

/-- What handling one frame takes from outside: readings of the cycle counter,
the clock of the encoder and the answer of `ef_vi_transmit`. -/
structure Readings where
  tBookStart : UInt64
  tBookDone : UInt64
  tDecisionDone : UInt64
  tSendStart : UInt64
  tSendDone : UInt64
  nowNs : UInt64
  transmitResult : ℤ

/-- A frame passed to the callback, with the pool behind it. -/
structure Visit extends Readings where
  frame : EfviFrame
  pool : ByteMemory

namespace StrategyLocals

def initial (endpoints : EfviUdpSender.Endpoints) (count : ℕ) (t0Ns : ℚ) :
    StrategyLocals :=
  { egress := EfviUdpSender.initial endpoints
    book := SimpleOrderBook.empty
    vol := RealizedVolEstimator.initial volWindow
    t0Ns := t0Ns
    lastQuotedTheo := 0
    haveQuote := false
    nRequoted := 0
    havePrev := false
    prevNicNs := 0
    prevTsc := 0
    n := 0
    stats := FrameStats.init count }

section Handler

variable (gTscHz : ℚ) (libm : Libm ℚ) (total : ℕ)

/-- The frame is counted and its gaps to the frames before are recorded. -/
def arrive (locals : StrategyLocals) (recording : Bool) (frame : EfviFrame) :
    StrategyLocals :=
  let timed := locals.havePrev && recording
  let counted :=
    { locals with
      n := locals.n + 1
      prevTsc := frame.tsc
      havePrev := true
      stats :=
        { locals.stats with
          tscGap := locals.stats.tscGap.recordIf timed
            (frame.tsc - locals.prevTsc) } }
  if frame.nicTsValid then
    { counted with
      prevNicNs := nicNs frame.nicTs
      stats :=
        { counted.stats with
          nicGap := locals.stats.nicGap.recordIf timed
            (nsToTsc gTscHz (nicNs frame.nicTs - locals.prevNicNs)) } }
  else counted

/-- The packet is parsed and applied to the book. -/
def parse (locals : StrategyLocals) (recording : Bool) (visit : Visit) :
    Bool × StrategyLocals :=
  let (applied, book) := locals.book.applyPacket
    (visit.pool.read (visit.frame.data + ethIpUdpHeaderLen)
      (visit.frame.len - ethIpUdpHeaderLen))
  (applied,
    { locals with
      book := book
      stats :=
        { locals.stats with
          bookApply := locals.stats.bookApply.recordIf recording
            (visit.tBookDone - visit.tBookStart) } })

/-- `mid_dollars`, if the book has both sides. -/
def midDollars (book : SimpleOrderBook) : Option ℚ := do
  let bid ← book.bestBid
  let ask ← book.bestAsk
  pure ((bid.price.toNat + ask.price.toNat) / 2 / 100)

/-- What the pricer is given. -/
def bsIn (vol : RealizedVolEstimator ℚ) (t0Ns mid nowNs : ℚ) :
    BlackScholesInputs ℚ :=
  let elapsedYears := (nowNs - t0Ns) / 10 ^ 9 / Strategy.secondsPerYear
  { spot := mid
    strike := strikeDollars
    timeToExpiryYears :=
      max (initialExpiryYears - elapsedYears) (1 / 10 ^ 6)
    riskFreeRate := riskFreeRate
    volatility :=
      if vol.annualizedVol libm > 0 then vol.annualizedVol libm
      else fallbackVol }

def requote (locals : StrategyLocals) (recording : Bool) (visit : Visit)
    (callPrice : ℚ) : StrategyLocals :=
  let (_, _, egress) :=
    locals.egress.send (fun _ _ _ => (visit.transmitResult, ())) ()
      (quotePacket visit.nowNs callPrice)
  { locals with
    egress := egress
    stats :=
      { locals.stats with
        send := locals.stats.send.recordIf recording
          (visit.tSendDone - visit.tSendStart) }
    nRequoted := if recording then locals.nRequoted + 1 else locals.nRequoted
    lastQuotedTheo := callPrice
    haveQuote := true }

/-- `bs_out.call_price`, once the observation has been taken in. -/
def theo (locals : StrategyLocals)
    (observation : RealizedVolEstimator.Observation) : ℚ :=
  (BlackScholes.priceCall libm
    (bsIn libm (locals.vol.observe libm.log observation) locals.t0Ns
      observation.midPrice observation.nowNs)).callPrice

def shouldRequote (locals : StrategyLocals) (callPrice : ℚ) : Bool :=
  !locals.haveQuote ||
    decide (requoteThreshold ≤ |callPrice - locals.lastQuotedTheo|)

/-- The observation taken in, and the time it took recorded. -/
def priced (locals : StrategyLocals) (recording : Bool) (visit : Visit)
    (observation : RealizedVolEstimator.Observation) : StrategyLocals :=
  { locals with
    vol := locals.vol.observe libm.log observation
    stats :=
      { locals.stats with
        pricingDecision := locals.stats.pricingDecision.recordIf recording
          (visit.tDecisionDone - visit.tBookDone) } }

/-- The volatility update, the price, and the decision whether to quote. -/
def reprice (locals : StrategyLocals) (recording : Bool) (visit : Visit)
    (mid : ℚ) : StrategyLocals :=
  let observation : RealizedVolEstimator.Observation :=
    { midPrice := mid
      nowNs := tscToNs gTscHz visit.tBookDone }
  let callPrice := locals.theo libm observation
  let priced := locals.priced libm recording visit observation
  if locals.shouldRequote callPrice then
    priced.requote recording visit callPrice
  else priced

/-- The callback that `strategyThreadMain` passes to `poll`. -/
def handleFrame (locals : StrategyLocals) (visit : Visit) : StrategyLocals :=
  if locals.n ≥ total then locals
  else
    let recording := decide (locals.n + 1 > warmupIters)
    let arrived := locals.arrive gTscHz recording visit.frame
    if visit.frame.len ≤ ethIpUdpHeaderLen then arrived
    else
      let (applied, parsed) := arrived.parse recording visit
      if applied then
        match midDollars parsed.book with
        | some mid => parsed.reprice gTscHz libm recording visit mid
        | none => parsed
      else parsed

/-! ### The three slices -/

/-- What the gaps are measured with. -/
def gaps (locals : StrategyLocals) : GapRecorder :=
  { n := locals.n
    havePrev := locals.havePrev
    prevNicNs := locals.prevNicNs
    prevTsc := locals.prevTsc
    nicGap := locals.stats.nicGap
    tscGap := locals.stats.tscGap }

/-- What the quotes depend on, next to the quote that stands. -/
def quoting (locals : StrategyLocals) (accepted : Option ℚ) :
    StrategyThread :=
  { book := locals.book
    egress := locals.egress
    lastQuotedTheo := locals.lastQuotedTheo
    haveQuote := locals.haveQuote
    accepted := accepted }

/-- The payload of a frame that is not ignored. -/
def payload? (locals : StrategyLocals) (visit : Visit) :
    Option (List UInt8) :=
  if locals.n < total ∧ ethIpUdpHeaderLen < visit.frame.len then
    some (visit.pool.read (visit.frame.data + ethIpUdpHeaderLen)
      (visit.frame.len - ethIpUdpHeaderLen))
  else none

/-- The observation that a payload leads to. -/
def observation? (locals : StrategyLocals) (visit : Visit)
    (payload : List UInt8) : Option RealizedVolEstimator.Observation :=
  let (applied, book) := locals.book.applyPacket payload
  if applied then
    (midDollars book).map (fun mid => ⟨mid, tscToNs gTscHz visit.tBookDone⟩)
  else none

def arrivals (locals : StrategyLocals) (visit : Visit) :
    List StrategyThread.Arrival :=
  (locals.payload? total visit).toList.map (fun payload =>
    { payload := payload
      callPrice := ((locals.observation? gTscHz visit payload).map
        (locals.theo libm)).getD 0
      nowNs := visit.nowNs
      transmitResult := visit.transmitResult })

def observations (locals : StrategyLocals) (visit : Visit) :
    List RealizedVolEstimator.Observation :=
  ((locals.payload? total visit).bind
    (locals.observation? gTscHz visit)).toList

/-! ### One visit -/

variable {gTscHz : ℚ} {libm : Libm ℚ} {total : ℕ}

def recording (locals : StrategyLocals) : Bool :=
  decide (locals.n + 1 > warmupIters)

/-- The locals once the packet of a visit has been applied. -/
def parsed (gTscHz : ℚ) (locals : StrategyLocals) (visit : Visit) :
    StrategyLocals :=
  ((locals.arrive gTscHz locals.recording visit.frame).parse locals.recording
    visit).2

/-- A gap touches the book, the prices and the quotes of the thread as little
as its t0. -/
structure SameMarket (locals other : StrategyLocals) : Prop where
  egress : other.egress = locals.egress
  book : other.book = locals.book
  vol : other.vol = locals.vol
  t0Ns : other.t0Ns = locals.t0Ns
  lastQuotedTheo : other.lastQuotedTheo = locals.lastQuotedTheo
  haveQuote : other.haveQuote = locals.haveQuote

theorem arrive_sameMarket (gTscHz : ℚ) (locals : StrategyLocals)
    (recording : Bool) (frame : EfviFrame) :
    SameMarket locals (locals.arrive gTscHz recording frame) := by
  unfold arrive
  dsimp only
  split <;> exact ⟨rfl, rfl, rfl, rfl, rfl, rfl⟩

theorem handleFrame_of_done {locals : StrategyLocals}
    (done : total ≤ locals.n) (visit : Visit) :
    locals.handleFrame gTscHz libm total visit = locals :=
  if_pos done

theorem handleFrame_of_short {locals : StrategyLocals} {visit : Visit}
    (more : locals.n < total) (short : locals.payload? total visit = none) :
    locals.handleFrame gTscHz libm total visit =
      locals.arrive gTscHz locals.recording visit.frame := by
  have empty : visit.frame.len ≤ ethIpUdpHeaderLen := by
    by_contra long
    unfold payload? at short
    rw [if_pos ⟨more, not_le.mp long⟩] at short
    cases short
  unfold handleFrame
  rw [if_neg (not_le.mpr more), if_pos empty]
  rfl

theorem handleFrame_of_payload (gTscHz : ℚ) (libm : Libm ℚ)
    {locals : StrategyLocals} {visit : Visit} {payload : List UInt8}
    (carried : locals.payload? total visit = some payload) :
    locals.handleFrame gTscHz libm total visit =
      (locals.observation? gTscHz visit payload).elim
        (locals.parsed gTscHz visit)
        (fun observation => (locals.parsed gTscHz visit).reprice gTscHz libm
          locals.recording visit observation.midPrice) ∧
      (locals.parsed gTscHz visit).book =
        (locals.book.applyPacket payload).2 := by
  unfold payload? at carried
  split at carried
  · rename_i both
    cases carried
    refine ⟨?_, ?_⟩
    · unfold handleFrame observation? parsed parse recording
      rw [if_neg (not_le.mpr both.1), if_neg (not_le.mpr both.2)]
      rw [(locals.arrive_sameMarket gTscHz _ visit.frame).book]
      dsimp only
      split
      · cases midDollars _ <;> rfl
      · rfl
    · unfold parsed parse
      rw [(locals.arrive_sameMarket gTscHz _ visit.frame).book]
  · cases carried

theorem observation?_eq_some {locals : StrategyLocals} {visit : Visit}
    {payload : List UInt8} {observation : RealizedVolEstimator.Observation}
    (observed : locals.observation? gTscHz visit payload = some observation) :
    (locals.book.applyPacket payload).1 = true ∧
      midDollars (locals.book.applyPacket payload).2 =
        some observation.midPrice ∧
      observation.nowNs = tscToNs gTscHz visit.tBookDone := by
  unfold observation? at observed
  dsimp only at observed
  split at observed
  · rename_i applied
    obtain ⟨mid, found, rfl⟩ := Option.map_eq_some_iff.mp observed
    exact ⟨applied, found, rfl⟩
  · cases observed

theorem midDollars_isSome (book : SimpleOrderBook) :
    (midDollars book).isSome = (book.bestBid.isSome && book.bestAsk.isSome) := by
  unfold midDollars
  cases book.bestBid with
  | none => rfl
  | some bid => cases book.bestAsk <;> rfl

/-- A payload is observed exactly when the strategy prices it. -/
theorem observation?_isSome (gTscHz : ℚ) (locals : StrategyLocals)
    (visit : Visit) (payload : List UInt8) (accepted : Option ℚ)
    (arrival : StrategyThread.Arrival) (same : arrival.payload = payload) :
    (locals.observation? gTscHz visit payload).isSome =
      (locals.quoting accepted).priced arrival := by
  subst same
  unfold observation? StrategyThread.priced quoting
  dsimp only
  rw [Bool.and_assoc, ← midDollars_isSome]
  cases (locals.book.applyPacket arrival.payload).1 with
  | false => rfl
  | true =>
      rw [if_pos rfl, Option.isSome_map, Bool.true_and]

/-! ### Gaps -/

theorem arrive_gaps (locals : StrategyLocals) (frame : EfviFrame)
    (more : locals.n < total) :
    (locals.arrive gTscHz locals.recording frame).gaps =
      locals.gaps.step gTscHz total frame := by
  have below : ¬ locals.gaps.n ≥ total := not_le.mpr more
  unfold GapRecorder.step GapRecorder.handleFrame GapRecorder.passed arrive
  rw [if_neg below]
  dsimp only
  cases valid : frame.nicTsValid with
  | true =>
      rw [if_pos rfl, if_pos rfl]
      unfold gaps recording Stats.recordIf
      dsimp only
      cases locals.havePrev && decide (locals.n + 1 > warmupIters) <;> rfl
  | false =>
      rw [if_neg Bool.false_ne_true, if_neg Bool.false_ne_true]
      unfold gaps recording Stats.recordIf
      dsimp only
      cases locals.havePrev && decide (locals.n + 1 > warmupIters) <;> rfl

theorem reprice_gaps (locals : StrategyLocals) (recording : Bool)
    (visit : Visit) (mid : ℚ) :
    (locals.reprice gTscHz libm recording visit mid).gaps = locals.gaps := by
  unfold reprice requote
  dsimp only
  split <;> rfl

theorem handleFrame_gaps (locals : StrategyLocals) (visit : Visit) :
    (locals.handleFrame gTscHz libm total visit).gaps =
      locals.gaps.step gTscHz total visit.frame := by
  by_cases done : total ≤ locals.n
  · rw [handleFrame_of_done done]
    exact congrArg Prod.fst
      (GapRecorder.handleFrame_of_done done gTscHz visit.frame).symm
  · have more := not_le.mp done
    rw [← arrive_gaps locals visit.frame more]
    cases carried : locals.payload? total visit with
    | none => rw [handleFrame_of_short more carried]
    | some payload =>
        rw [(handleFrame_of_payload gTscHz libm carried).1]
        cases locals.observation? gTscHz visit payload with
        | none => rfl
        | some observation =>
            exact reprice_gaps (locals.parsed gTscHz visit) locals.recording
              visit observation.midPrice

/-! ### Quotes and volatility -/

theorem requote_quoting (locals : StrategyLocals) (recording : Bool)
    (visit : Visit) (accepted : Option ℚ) (arrival : StrategyThread.Arrival)
    (sameClock : arrival.nowNs = visit.nowNs)
    (sameAnswer : arrival.transmitResult = visit.transmitResult) :
    (locals.requote recording visit arrival.callPrice).quoting
        ((locals.quoting accepted).requote arrival).accepted =
      (locals.quoting accepted).requote arrival := by
  unfold requote StrategyThread.requote
  rw [sameClock, sameAnswer]
  rfl

theorem parsed_quoting (locals : StrategyLocals) (visit : Visit)
    {payload : List UInt8}
    (bookEq : (locals.parsed gTscHz visit).book =
      (locals.book.applyPacket payload).2) (accepted : Option ℚ) :
    (locals.parsed gTscHz visit).quoting accepted =
      { locals.quoting accepted with
        book := (locals.book.applyPacket payload).2 } := by
  have same := locals.arrive_sameMarket gTscHz locals.recording visit.frame
  have egressEq : (locals.parsed gTscHz visit).egress = locals.egress :=
    same.egress
  have theoEq : (locals.parsed gTscHz visit).lastQuotedTheo =
      locals.lastQuotedTheo := same.lastQuotedTheo
  have quoteEq : (locals.parsed gTscHz visit).haveQuote = locals.haveQuote :=
    same.haveQuote
  unfold quoting
  rw [bookEq, egressEq, theoEq, quoteEq]

/-- The price of an observation does not depend on the frame's own records. -/
theorem parsed_theo (locals : StrategyLocals) (visit : Visit)
    (observation : RealizedVolEstimator.Observation) :
    (locals.parsed gTscHz visit).theo libm observation =
      locals.theo libm observation := by
  have same := locals.arrive_sameMarket gTscHz locals.recording visit.frame
  have volEq : (locals.parsed gTscHz visit).vol = locals.vol := same.vol
  have t0Eq : (locals.parsed gTscHz visit).t0Ns = locals.t0Ns := same.t0Ns
  unfold theo
  rw [volEq, t0Eq]

theorem reprice_of_observed (libm : Libm ℚ) {locals : StrategyLocals}
    {visit : Visit} {payload : List UInt8}
    {observation : RealizedVolEstimator.Observation}
    (observed : locals.observation? gTscHz visit payload = some observation) :
    (locals.parsed gTscHz visit).reprice gTscHz libm locals.recording visit
        observation.midPrice =
      let priced := (locals.parsed gTscHz visit).priced libm locals.recording
        visit observation
      if locals.shouldRequote (locals.theo libm observation) then
        priced.requote locals.recording visit (locals.theo libm observation)
      else priced := by
  have same := locals.arrive_sameMarket gTscHz locals.recording visit.frame
  have theoEq : (locals.parsed gTscHz visit).lastQuotedTheo =
      locals.lastQuotedTheo := same.lastQuotedTheo
  have quoteEq : (locals.parsed gTscHz visit).haveQuote = locals.haveQuote :=
    same.haveQuote
  obtain ⟨_, _, clock⟩ := observation?_eq_some observed
  unfold reprice shouldRequote
  dsimp only
  rw [← clock, parsed_theo, theoEq, quoteEq]

theorem handleFrame_quoting (locals : StrategyLocals) (visit : Visit)
    (accepted : Option ℚ) :
    ∃ later,
      (locals.handleFrame gTscHz libm total visit).quoting later =
        Run.final StrategyThread.step (locals.quoting accepted)
          (locals.arrivals gTscHz libm total visit) := by
  unfold arrivals
  cases carried : locals.payload? total visit with
  | none =>
      refine ⟨accepted, ?_⟩
      rw [Option.toList_none, List.map_nil, Run.final_nil]
      by_cases done : total ≤ locals.n
      · rw [handleFrame_of_done done]
      · rw [handleFrame_of_short (not_le.mp done) carried]
        have same := locals.arrive_sameMarket gTscHz locals.recording
          visit.frame
        unfold quoting
        rw [same.book, same.egress, same.lastQuotedTheo, same.haveQuote]
  | some payload =>
      obtain ⟨handled, bookEq⟩ :=
        handleFrame_of_payload gTscHz libm carried
      rw [Option.toList_some, List.map_singleton, Run.final_cons,
        Run.final_nil, handled]
      cases observed : locals.observation? gTscHz visit payload with
      | none =>
          refine ⟨accepted, ?_⟩
          rw [StrategyThread.step_of_quiet]
          · exact locals.parsed_quoting visit bookEq accepted
          · unfold StrategyThread.attempts
            rw [← locals.observation?_isSome gTscHz visit payload accepted _
              rfl, observed]
            rfl
      | some observation =>
          rw [Option.elim_some, reprice_of_observed libm observed,
            Option.map_some, Option.getD_some]
          generalize arrives : StrategyThread.Arrival.mk payload
            (locals.theo libm observation) visit.nowNs visit.transmitResult =
              arrival
          have attempts : (locals.quoting accepted).attempts arrival =
              locals.shouldRequote (locals.theo libm observation) := by
            subst arrives
            unfold StrategyThread.attempts
            rw [← locals.observation?_isSome gTscHz visit payload accepted _
              rfl, observed, Option.isSome_some, Bool.true_and]
            rfl
          have stepEq : (locals.quoting accepted).step arrival =
              if locals.shouldRequote (locals.theo libm observation) then
                ((locals.parsed gTscHz visit).quoting accepted).requote arrival
              else (locals.parsed gTscHz visit).quoting accepted := by
            rw [locals.parsed_quoting visit bookEq accepted, ← attempts]
            subst arrives
            rfl
          rw [stepEq]
          subst arrives
          dsimp only
          split
          · exact ⟨_, requote_quoting
              ((locals.parsed gTscHz visit).priced libm locals.recording visit
                observation) locals.recording visit accepted
              { payload := payload
                callPrice := locals.theo libm observation
                nowNs := visit.nowNs
                transmitResult := visit.transmitResult } rfl rfl⟩
          · exact ⟨accepted, rfl⟩

theorem handleFrame_vol (locals : StrategyLocals) (visit : Visit) :
    (locals.handleFrame gTscHz libm total visit).vol =
      Run.final (RealizedVolEstimator.observe libm.log) locals.vol
        (locals.observations gTscHz total visit) := by
  unfold observations
  cases carried : locals.payload? total visit with
  | none =>
      rw [Option.bind_none, Option.toList_none, Run.final_nil]
      by_cases done : total ≤ locals.n
      · rw [handleFrame_of_done done]
      · rw [handleFrame_of_short (not_le.mp done) carried]
        exact (locals.arrive_sameMarket gTscHz locals.recording
          visit.frame).vol
  | some payload =>
      have volEq : (locals.parsed gTscHz visit).vol = locals.vol :=
        (locals.arrive_sameMarket gTscHz locals.recording visit.frame).vol
      rw [Option.bind_some, (handleFrame_of_payload gTscHz libm carried).1]
      cases observed : locals.observation? gTscHz visit payload with
      | none => exact volEq
      | some observation =>
          rw [Option.elim_some, reprice_of_observed libm observed,
            Option.toList_some, Run.final_cons, Run.final_nil, ← volEq]
          dsimp only
          split <;> rfl

theorem handleFrame_book (locals : StrategyLocals) (visit : Visit) :
    (locals.handleFrame gTscHz libm total visit).book =
      (locals.payload? total visit).elim locals.book
        (fun payload => (locals.book.applyPacket payload).2) := by
  cases carried : locals.payload? total visit with
  | none =>
      by_cases done : total ≤ locals.n
      · rw [handleFrame_of_done done]
        rfl
      · rw [handleFrame_of_short (not_le.mp done) carried]
        exact (locals.arrive_sameMarket gTscHz locals.recording
          visit.frame).book
  | some payload =>
      obtain ⟨handled, bookEq⟩ :=
        handleFrame_of_payload gTscHz libm carried
      rw [Option.elim_some, ← bookEq, handled]
      cases observed : locals.observation? gTscHz visit payload with
      | none => rfl
      | some observation =>
          rw [Option.elim_some, reprice_of_observed libm observed]
          dsimp only
          split <;> rfl

theorem handleFrame_n (locals : StrategyLocals) (visit : Visit)
    (more : locals.n < total) :
    (locals.handleFrame gTscHz libm total visit).n = locals.n + 1 := by
  have below : ¬ locals.gaps.n ≥ total := not_le.mpr more
  refine (congrArg GapRecorder.n (locals.handleFrame_gaps visit)).trans ?_
  unfold GapRecorder.step GapRecorder.handleFrame
  rw [if_neg below]
  dsimp only
  split <;> rfl

/-! ### Runs -/

/-- For every run of frames, whatever the clocks and the NIC say: the thread's
gaps are those of the gap recorder on the same frames, its quotes are those of
the requoting thread on the payloads and the prices computed along the run,
and its volatility is the estimator's on the mid prices of the run. -/
theorem final_handleFrame_refines (gTscHz : ℚ) (libm : Libm ℚ) (total : ℕ)
    (endpoints : EfviUdpSender.Endpoints) (count : ℕ) (t0Ns : ℚ)
    (visits : List Visit) :
    let handle := handleFrame gTscHz libm total
    let start := initial endpoints count t0Ns
    let locals := Run.final handle start visits
    locals.gaps =
        Run.final (GapRecorder.step gTscHz total) (GapRecorder.initial count)
          (visits.map Visit.frame) ∧
      (∃ accepted, locals.quoting accepted =
        Run.final StrategyThread.step (StrategyThread.initial endpoints)
          (Run.emitted handle (arrivals gTscHz libm total) start visits)) ∧
      locals.vol =
        RealizedVolEstimator.observed libm.log volWindow
          (Run.emitted handle (observations gTscHz total) start visits) := by
  refine ⟨?_, ?_, ?_⟩
  · rw [← Run.emitted_singleton Visit.frame (initial endpoints count t0Ns)
      visits]
    refine Run.final_simulates
      (fun (locals : StrategyLocals) recorder => locals.gaps = recorder)
      ?_ _ _ visits rfl
    rintro locals _ visit rfl
    exact locals.handleFrame_gaps visit
  · refine Run.final_simulates
      (fun (locals : StrategyLocals) thread =>
        ∃ accepted, locals.quoting accepted = thread)
      ?_ _ _ visits ⟨none, rfl⟩
    rintro locals _ visit ⟨accepted, rfl⟩
    exact locals.handleFrame_quoting visit accepted
  · refine Run.final_simulates
      (fun (locals : StrategyLocals) vol => locals.vol = vol)
      ?_ _ _ visits rfl
    rintro locals _ visit rfl
    exact locals.handleFrame_vol visit

end Handler

end StrategyLocals

end Waler
