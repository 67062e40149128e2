/-
The main loop of x4_loopback_latency.c around its turns: the periodic
calibration, the warm-up, the samples that are dropped, and the result arrays.

What a turn has measured, and the map a calibration gives at its start, are
inputs.  The arrays are one list of rows, and `n_ok` is its length.
-/

import Waler.Foundation.Run
import Waler.Loopback.ClockMap

namespace Waler

namespace Loopback

/-- `tx_mode_t`. -/
inductive TxMode
  | dma
  | ctpio
  | ctpioSnf
  deriving DecidableEq, Repr

/-- `CAL_PERIOD`. -/
def calPeriod : ℕ :=
  4096

/-- `WARMUP_ITERS`. -/
def warmupIters : ℕ :=
  2000

structure TurnResult where
  readings : Readings
  txCtpio : Bool
  missedFuture : Bool
  poisoned : Bool
  deriving DecidableEq, Repr

structure LoopTurn where
  /-- What a calibration at the start of the turn would give. -/
  recalibrated : ClockMap
  result : TurnResult
  deriving DecidableEq, Repr

/-- One index of the result arrays. -/
structure Row where
  latencies : Latencies
  tSend : UInt64
  viaCtpio : Bool
  deriving DecidableEq, Repr

structure LoopState where
  it : ℕ
  cm : ClockMap
  tscHz : ℚ
  rows : List Row
  nFallback : ℕ
  nMissedFuture : ℕ
  nPoisoned : ℕ
  deriving DecidableEq, Repr

namespace LoopState

def initial (cm : ClockMap) : LoopState :=
  { it := 0
    cm := cm
    tscHz := cm.tscHz
    rows := []
    nFallback := 0
    nMissedFuture := 0
    nPoisoned := 0 }

def recalibrate (state : LoopState) (cm : ClockMap) : LoopState :=
  if state.it % calPeriod = 0 ∧ 0 < state.it then
    { state with cm := cm, tscHz := cm.tscHz }
  else state

def row (cm : ClockMap) (tscHz : ℚ) (result : TurnResult) : Row :=
  { latencies := derive cm tscHz result.readings
    tSend := result.readings.t0
    viaCtpio := result.txCtpio }

/-- The end of the loop's body, from the warm-up check on. -/
def record (mode : TxMode) (state : LoopState) (result : TurnResult) :
    LoopState :=
  if state.it < warmupIters then state
  else if result.missedFuture then
    { state with nMissedFuture := state.nMissedFuture + 1 }
  else if result.poisoned then
    { state with nPoisoned := state.nPoisoned + 1 }
  else
    { state with
      rows := state.rows ++ [row state.cm state.tscHz result]
      nFallback :=
        if mode ≠ TxMode.dma ∧ result.txCtpio = false then state.nFallback + 1
        else state.nFallback }

def step (mode : TxMode) (state : LoopState) (input : LoopTurn) : LoopState :=
  let next := record mode (state.recalibrate input.recalibrated) input.result
  { next with it := state.it + 1 }

end LoopState

/-! ### What the rows are -/

/-- The map in force in a turn: that of the last calibration. -/
def mapAt (start : ClockMap) (inputs : List LoopTurn) (it : ℕ) : ClockMap :=
  if it < calPeriod then start
  else
    (inputs[it / calPeriod * calPeriod]?).elim start LoopTurn.recalibrated

/-- The row of a turn, none in the warm-up and for a dropped sample. -/
def rowOf (cm : ClockMap) (it : ℕ) (result : TurnResult) : Option Row :=
  if it < warmupIters then none
  else if result.missedFuture then none
  else if result.poisoned then none
  else some (LoopState.row cm cm.tscHz result)

def rowAt (start : ClockMap) (inputs : List LoopTurn) (it : ℕ) : Option Row :=
  (inputs[it]?).bind (fun input =>
    rowOf (mapAt start inputs it) it input.result)

theorem mapAt_append {start : ClockMap} {inputs : List LoopTurn}
    (last : LoopTurn) {it : ℕ} (inside : it < inputs.length) :
    mapAt start (inputs ++ [last]) it = mapAt start inputs it := by
  unfold mapAt
  rw [List.getElem?_append_left
    ((Nat.div_mul_le_self it calPeriod).trans_lt inside)]

theorem mapAt_length (start : ClockMap) (inputs : List LoopTurn)
    (last : LoopTurn) :
    mapAt start (inputs ++ [last]) inputs.length =
      if inputs.length % calPeriod = 0 ∧ 0 < inputs.length then
        last.recalibrated
      else mapAt start inputs (inputs.length - 1) := by
  by_cases due : inputs.length % calPeriod = 0 ∧ 0 < inputs.length
  · have last' : inputs.length / calPeriod * calPeriod = inputs.length :=
      Nat.div_mul_cancel (Nat.dvd_of_mod_eq_zero due.1)
    have late : ¬ inputs.length < calPeriod := by
      unfold calPeriod at due ⊢
      omega
    unfold mapAt
    rw [if_pos due, if_neg late, last', List.getElem?_concat_length]
    rfl
  · rw [if_neg due]
    unfold mapAt
    by_cases early : inputs.length < calPeriod
    · rw [if_pos early, if_pos ((Nat.sub_le _ 1).trans_lt early)]
    · have earlier : inputs.length / calPeriod * calPeriod <
          inputs.length := by
        unfold calPeriod at due early ⊢
        omega
      have same : (inputs.length - 1) / calPeriod * calPeriod =
          inputs.length / calPeriod * calPeriod := by
        unfold calPeriod at due early ⊢
        omega
      have before : ¬ inputs.length - 1 < calPeriod := by
        unfold calPeriod at due early ⊢
        omega
      rw [if_neg early, if_neg before, same,
        List.getElem?_append_left earlier]

/-! ### Runs -/

/-- The state after the turns. -/
structure Accounted (mode : TxMode) (start : ClockMap)
    (inputs : List LoopTurn) (state : LoopState) : Prop where
  it : state.it = inputs.length
  cm : state.cm = mapAt start inputs (inputs.length - 1)
  tscHz : state.tscHz = state.cm.tscHz
  rows : state.rows =
    (List.range inputs.length).filterMap (rowAt start inputs)
  whole : state.rows.length + state.nMissedFuture + state.nPoisoned =
    inputs.length - warmupIters
  nFallback : state.nFallback =
    if mode = TxMode.dma then 0
    else state.rows.countP (fun row => !row.viaCtpio)

theorem initial_accounted (mode : TxMode) (start : ClockMap) :
    Accounted mode start [] (LoopState.initial start) := by
  refine ⟨rfl, rfl, rfl, rfl, rfl, ?_⟩
  change 0 = if mode = TxMode.dma then 0 else 0
  rw [ite_self]

theorem recalibrate_cm {mode : TxMode} {start : ClockMap}
    {inputs : List LoopTurn} {state : LoopState}
    (accounted : Accounted mode start inputs state) (input : LoopTurn) :
    state.recalibrate input.recalibrated =
      { state with
        cm := mapAt start (inputs ++ [input]) inputs.length
        tscHz := (mapAt start (inputs ++ [input]) inputs.length).tscHz } := by
  rw [mapAt_length]
  unfold LoopState.recalibrate
  rw [accounted.it]
  by_cases due : inputs.length % calPeriod = 0 ∧ 0 < inputs.length
  · rw [if_pos due, if_pos due]
  · rw [if_neg due, if_neg due, ← accounted.cm, ← accounted.tscHz,
      ← accounted.it]

theorem rows_append (start : ClockMap) (inputs : List LoopTurn)
    (last : LoopTurn) :
    (List.range (inputs.length + 1)).filterMap
        (rowAt start (inputs ++ [last])) =
      (List.range inputs.length).filterMap (rowAt start inputs) ++
        (rowOf (mapAt start (inputs ++ [last]) inputs.length) inputs.length
          last.result).toList := by
  have before : (List.range inputs.length).filterMap
      (rowAt start (inputs ++ [last])) =
        (List.range inputs.length).filterMap (rowAt start inputs) := by
    apply List.filterMap_congr
    intro it listed
    have inside := List.mem_range.mp listed
    unfold rowAt
    rw [mapAt_append last inside, List.getElem?_append_left inside]
  have atLast : rowAt start (inputs ++ [last]) inputs.length =
      rowOf (mapAt start (inputs ++ [last]) inputs.length) inputs.length
        last.result := by
    unfold rowAt
    rw [List.getElem?_concat_length, Option.bind_some]
  rw [List.range_succ, List.filterMap_append, before, List.filterMap_cons,
    List.filterMap_nil, atLast]
  cases rowOf (mapAt start (inputs ++ [last]) inputs.length) inputs.length
    last.result <;> rfl

/-- What the end of a turn does to the arrays and the counters. -/
structure Recorded (mode : TxMode) (state next : LoopState)
    (kept : Option Row) : Prop where
  cm : next.cm = state.cm
  tscHz : next.tscHz = state.tscHz
  rows : next.rows = state.rows ++ kept.toList
  whole : next.rows.length + next.nMissedFuture + next.nPoisoned =
    state.rows.length + state.nMissedFuture + state.nPoisoned +
      if state.it < warmupIters then 0 else 1
  nFallback : next.nFallback = state.nFallback +
    if mode = TxMode.dma then 0
    else kept.toList.countP (fun row => !row.viaCtpio)

theorem record_recorded {state : LoopState} (mode : TxMode)
    (scaled : state.tscHz = state.cm.tscHz) (result : TurnResult) :
    Recorded mode state (LoopState.record mode state result)
      (rowOf state.cm state.it result) := by
  have quiet : ∀ count : ℕ,
      count = count + if mode = TxMode.dma then 0 else 0 := by
    intro count
    rw [ite_self, Nat.add_zero]
  unfold LoopState.record rowOf
  by_cases warm : state.it < warmupIters
  · rw [if_pos warm, if_pos warm]
    exact ⟨rfl, rfl, (List.append_nil _).symm, by rw [if_pos warm, Nat.add_zero],
      quiet _⟩
  · rw [if_neg warm, if_neg warm]
    by_cases missed : result.missedFuture = true
    · rw [if_pos missed, if_pos missed]
      refine ⟨rfl, rfl, (List.append_nil _).symm, ?_, quiet _⟩
      rw [if_neg warm]
      dsimp only
      omega
    · rw [if_neg missed, if_neg missed]
      by_cases poisoned : result.poisoned = true
      · rw [if_pos poisoned, if_pos poisoned]
        refine ⟨rfl, rfl, (List.append_nil _).symm, ?_, quiet _⟩
        rw [if_neg warm]
        dsimp only
        omega
      · rw [if_neg poisoned, if_neg poisoned, scaled]
        refine ⟨rfl, scaled.symm, rfl, ?_, ?_⟩
        · rw [if_neg warm]
          dsimp only
          rw [List.length_append, List.length_singleton]
          omega
        · change _ = state.nFallback + if mode = TxMode.dma then 0 else
            [LoopState.row state.cm state.cm.tscHz result].countP
              (fun row => !row.viaCtpio)
          rw [List.countP_singleton]
          change _ = state.nFallback + if mode = TxMode.dma then 0 else
            if (!result.txCtpio) = true then 1 else 0
          by_cases dma : mode = TxMode.dma
          · rw [if_neg (fun both => both.1 dma), if_pos dma, Nat.add_zero]
          · rw [if_neg dma]
            cases via : result.txCtpio
            · rw [if_pos ⟨dma, rfl⟩]
              rfl
            · rw [if_neg (fun both => Bool.noConfusion both.2)]
              rfl

theorem step_accounted {mode : TxMode} {start : ClockMap}
    {inputs : List LoopTurn} {state : LoopState}
    (accounted : Accounted mode start inputs state) (input : LoopTurn) :
    Accounted mode start (inputs ++ [input]) (state.step mode input) := by
  let cm := mapAt start (inputs ++ [input]) inputs.length
  let ready : LoopState := { state with cm := cm, tscHz := cm.tscHz }
  have length : (inputs ++ [input]).length = inputs.length + 1 := by
    rw [List.length_append, List.length_singleton]
  have taken : state.step mode input =
      { LoopState.record mode ready input.result with
        it := state.it + 1 } := by
    unfold LoopState.step
    rw [recalibrate_cm accounted]
  have recorded : Recorded mode ready
      (LoopState.record mode ready input.result)
      (rowOf cm state.it input.result) :=
    record_recorded mode rfl input.result
  have rows : (LoopState.record mode ready input.result).rows =
      (List.range (inputs.length + 1)).filterMap
        (rowAt start (inputs ++ [input])) := by
    rw [recorded.rows, rows_append, ← accounted.rows, accounted.it]
  rw [taken]
  constructor
  · dsimp only
    rw [length, accounted.it]
  · rw [length]
    exact recorded.cm
  · change (LoopState.record mode ready input.result).tscHz = _
    rw [recorded.tscHz]
    change cm.tscHz = (LoopState.record mode ready input.result).cm.tscHz
    rw [recorded.cm]
  · rw [length]
    exact rows
  · have whole := recorded.whole
    have before := accounted.whole
    change _ = state.rows.length + state.nMissedFuture + state.nPoisoned +
      (if state.it < warmupIters then 0 else 1) at whole
    rw [accounted.it] at whole
    dsimp only
    rw [length]
    split at whole <;> omega
  · change (LoopState.record mode ready input.result).nFallback = _
    rw [recorded.nFallback]
    change state.nFallback + _ = if mode = TxMode.dma then 0 else
      (LoopState.record mode ready input.result).rows.countP _
    rw [recorded.rows, List.countP_append, accounted.nFallback]
    split <;> rfl

theorem final_accounted (mode : TxMode) (start : ClockMap)
    (inputs : List LoopTurn) :
    Accounted mode start inputs
      (Run.final (LoopState.step mode) (LoopState.initial start) inputs) := by
  induction inputs using List.reverseRecOn with
  | nil => exact initial_accounted mode start
  | append_singleton inputs input ih =>
      rw [Run.final_append]
      exact step_accounted ih input

/-- For every calibration and every run of turns: each row is the sample of a
turn after the warm-up, derived with the map of the last calibration, in order
and only where the sample was not dropped.  Rows and dropped samples add up to
the turns after the warm-up, the fallbacks counted are the rows that say so,
and no row is written past arrays with room for one row a turn. -/
theorem mainLoop_accounted (mode : TxMode) (start : ClockMap)
    (inputs : List LoopTurn) :
    let after := Run.final (LoopState.step mode) (LoopState.initial start)
    Accounted mode start inputs (after inputs) ∧
      ∀ before input rest, inputs = before ++ input :: rest →
        (after before).rows.length < (after (before ++ [input])).rows.length →
          (after before).rows.length < inputs.length - warmupIters := by
  intro after
  refine ⟨final_accounted mode start inputs, ?_⟩
  intro before input rest split written
  have earlier := (final_accounted mode start before).whole
  have later := (final_accounted mode start (before ++ [input])).whole
  have lengths := congrArg List.length split
  rw [List.length_append, List.length_cons] at lengths
  rw [List.length_append, List.length_singleton] at later
  change (after before).rows.length + _ + _ = _ at earlier
  change (after (before ++ [input])).rows.length + _ + _ = _ at later
  omega

/-! ### Latencies on the counter alone -/

/-- The counter did not go back between the readings of a kept sample. -/
def TurnResult.Advances (result : TurnResult) : Prop :=
  result.missedFuture = false → result.poisoned = false →
    result.readings.t0.toNat ≤ result.readings.tMem.toNat ∧
      result.readings.tMem.toNat ≤ result.readings.t3.toNat

theorem mapAt_rising {start : ClockMap} {inputs : List LoopTurn}
    (first : 0 < start.tsc2rt.a)
    (later : ∀ input ∈ inputs, 0 < input.recalibrated.tsc2rt.a) (it : ℕ) :
    0 < (mapAt start inputs it).tsc2rt.a := by
  unfold mapAt
  split
  · exact first
  · cases found : inputs[it / calPeriod * calPeriod]? with
    | none => exact first
    | some input => exact later input (List.mem_of_getElem? found)

theorem derive_nonneg {m : ClockMap} (rising : 0 < m.tsc2rt.a)
    {readings : Readings}
    (landed : readings.t0.toNat ≤ readings.tMem.toNat)
    (polled : readings.tMem.toNat ≤ readings.t3.toNat) :
    0 ≤ (derive m m.tscHz readings).rtt ∧
      0 ≤ (derive m m.tscHz readings).polld := by
  have mono : ∀ first second : UInt64, first.toNat ≤ second.toNat →
      0 ≤ tscTicksToNs second m.tscHz - tscTicksToNs first m.tscHz := by
    intro first second ordered
    have scaled : (m.tsc2rt.a * first.toNat : ℚ) ≤
        m.tsc2rt.a * second.toNat :=
      mul_le_mul_of_nonneg_left (Nat.cast_le.mpr ordered) rising.le
    rw [tscTicksToNs_eq rising.ne', tscTicksToNs_eq rising.ne']
    unfold linApply
    linarith
  exact ⟨mono _ _ landed, mono _ _ polled⟩

theorem rows_nonneg {mode : TxMode} {start : ClockMap}
    {inputs : List LoopTurn} {state : LoopState}
    (accounted : Accounted mode start inputs state)
    (first : 0 < start.tsc2rt.a)
    (later : ∀ input ∈ inputs, 0 < input.recalibrated.tsc2rt.a)
    (advances : ∀ input ∈ inputs, input.result.Advances) :
    ∀ row ∈ state.rows, 0 ≤ row.latencies.rtt ∧ 0 ≤ row.latencies.polld := by
  intro row listed
  rw [accounted.rows] at listed
  obtain ⟨it, _, found⟩ := List.mem_filterMap.mp listed
  obtain ⟨input, turned, kept⟩ := Option.bind_eq_some_iff.mp found
  have ordered := advances input (List.mem_of_getElem? turned)
  unfold rowOf at kept
  split at kept
  case isTrue => cases kept
  case isFalse =>
    split at kept
    case isTrue => cases kept
    case isFalse seen =>
      split at kept
      case isTrue => cases kept
      case isFalse clean =>
        obtain ⟨landed, polled⟩ := ordered (Bool.eq_false_iff.mpr seen)
          (Bool.eq_false_iff.mpr clean)
        obtain rfl := Option.some.inj kept
        exact derive_nonneg (mapAt_rising first later it) landed polled

end Loopback

end Waler
