import Mathlib.Algebra.Ring.Int.Defs
import RioClient.ProducerRuns
import RioClient.SpinWorkerCore

/-!
What the tuning ticks measure. A tick reads the packet counter twice: for its
`PacketDelta`, and for the baseline of the next tick. A packet sent between the
two loads is in neither interval.
-/

namespace RioClient

inductive SpinStep (args : ProducerArgs) (w : SpinWorker) : SpinEvent → SpinWorker → Prop
  | sent : SpinStep args w .sent w.countSent
  | goOn {exitSignal now timing} : w.control = .loopHead →
      SpinStep args w (.shouldStop exitSignal now) { w with control := .sleeping, timing }
  | stop {exitSignal now timing} : w.control = .loopHead →
      SpinStep args w (.shouldStop exitSignal now) { w with control := .stopped, timing }
  | wake {now} : w.control = .sleeping →
      SpinStep args w (.wake now) { w with control := w.afterWake now }
  | report {now} : w.control = .reporting now →
      SpinStep args w .loadPreviousN
        { w with control := .reported now, previousN := w.totalPkts.toUInt64 }
  | nextReport {now later} : w.control = .reported now →
      SpinStep args w (.nextReport later)
        { w with control := w.afterReport now, nextReportTime := later + 1000000000 }
  | measure {now} : w.control = .tuning now →
      SpinStep args w .loadPacketDelta { w with
        control := .measured (w.packetDelta args)
        nextTuningTime := now + 100000000 }
  | baseline {packetDelta} : w.control = .measured packetDelta →
      SpinStep args w .loadPreviousTuningN { w with
        control := .adjusting packetDelta
        previousTuningN := w.totalPkts.toUInt64
        deltas := w.deltas ++ [packetDelta] }
  | adjust {packetDelta} : w.control = .adjusting packetDelta →
      SpinStep args w .adjust { w with
        control := .loopHead
        spinDuration := tuneSpinDuration args.deltaThreashold packetDelta w.spinDuration }

theorem SpinWorker.step_cases {args : ProducerArgs} {w next : SpinWorker} {event : SpinEvent}
    (taken : w.step args event = some next) : SpinStep args w event next := by
  cases event with
  | sent =>
      cases taken
      exact .sent
  | shouldStop exitSignal now =>
      cases here : w.control with
      | loopHead =>
          simp only [step, here] at taken
          cases taken
          cases (shouldStop args.toArgs exitSignal now w.totalPkts w.timing).1 with
          | true => exact .goOn here
          | false => exact .stop here
      | _ => simp [step, here] at taken
  | wake now =>
      cases here : w.control with
      | sleeping =>
          simp only [step, here] at taken
          cases taken
          exact .wake here
      | _ => simp [step, here] at taken
  | loadPreviousN =>
      cases here : w.control with
      | reporting now =>
          simp only [step, here] at taken
          cases taken
          exact .report here
      | _ => simp [step, here] at taken
  | nextReport later =>
      cases here : w.control with
      | reported now =>
          simp only [step, here] at taken
          cases taken
          exact .nextReport here
      | _ => simp [step, here] at taken
  | loadPacketDelta =>
      cases here : w.control with
      | tuning now =>
          simp only [step, here] at taken
          cases taken
          exact .measure here
      | _ => simp [step, here] at taken
  | loadPreviousTuningN =>
      cases here : w.control with
      | measured packetDelta =>
          simp only [step, here] at taken
          cases taken
          exact .baseline here
      | _ => simp [step, here] at taken
  | adjust =>
      cases here : w.control with
      | adjusting packetDelta =>
          simp only [step, here] at taken
          cases taken
          exact .adjust here
      | _ => simp [step, here] at taken

namespace SpinWorker

variable {args : ProducerArgs} {w next : SpinWorker}

def betweenLoads (w : SpinWorker) : Bool :=
  match w.control with
  | .measured _ => true
  | _ => false

def sentBetweenLoads (w : SpinWorker) (event : SpinEvent) : Bool :=
  w.betweenLoads && event = .sent

def measuredSum (args : ProducerArgs) (w : SpinWorker) : Int :=
  (w.deltas.map fun delta => delta.toInt + args.expectedPPSDiv10.toInt).sum

end SpinWorker

theorem toInt64_toInt {value : UInt64} (bound : value.toNat < 2 ^ 63) :
    value.toInt64.toInt = value.toNat := by
  have exact : value.toInt64.toInt = (value.toNat : Int).bmod (2 ^ 64) := by
    rw [Int64.toInt, UInt64.toInt64, BitVec.toInt_eq_toNat_bmod]
    rfl
  rw [exact]
  apply Int.bmod_eq_of_le <;> omega

theorem int64_sub_toInt {first second : Int64}
    (low : -2 ^ 63 ≤ first.toInt - second.toInt) (high : first.toInt - second.toInt < 2 ^ 63) :
    (first - second).toInt = first.toInt - second.toInt := by
  rw [Int64.toInt_sub]
  apply Int.bmod_eq_of_le <;> omega

theorem expectedPPSDiv10_toInt (args : ProducerArgs) :
    args.expectedPPSDiv10.toInt = (args.ratePerSecond.toNat / 10 : Nat) := by
  have bound := args.ratePerSecond.toNat_lt
  have quotient : (args.ratePerSecond / 10).toUInt64.toNat = args.ratePerSecond.toNat / 10 := by
    rw [UInt32.toNat_toUInt64, UInt32.toNat_div]
    rfl
  rw [ProducerArgs.expectedPPSDiv10, toInt64_toInt (by omega), quotient]

namespace SpinWorker

variable {args : ProducerArgs} {w next : SpinWorker}

theorem packetDelta_toInt (small : w.previousTuningN.toNat < 2 ^ 32) :
    (w.packetDelta args).toInt + args.expectedPPSDiv10.toInt =
      w.totalPkts.toNat - w.previousTuningN.toNat := by
  have total := w.totalPkts.toNat_lt
  have rate := args.ratePerSecond.toNat_lt
  have expected := expectedPPSDiv10_toInt args
  have first : w.totalPkts.toUInt64.toInt64.toInt = w.totalPkts.toNat := by
    rw [toInt64_toInt (by rw [UInt32.toNat_toUInt64]; omega), UInt32.toNat_toUInt64]
  have second : w.previousTuningN.toInt64.toInt = w.previousTuningN.toNat :=
    toInt64_toInt (by omega)
  have difference := @int64_sub_toInt w.totalPkts.toUInt64.toInt64 w.previousTuningN.toInt64
    (by rw [first, second]; omega) (by rw [first, second]; omega)
  rw [first, second] at difference
  rw [packetDelta, int64_sub_toInt (by rw [difference, expected]; omega)
    (by rw [difference, expected]; omega), difference]
  omega

/-- The balance of the ticks: what they measured and what was lost between their
loads is what the baseline has counted, or in the middle of a tick the counter. -/
structure Measures (args : ProducerArgs) (lost : Nat) (w : SpinWorker) : Prop where
  counter : w.totalPkts.toNat = w.sent
  baseline : w.previousTuningN.toNat ≤ w.sent
  outside : w.betweenLoads = false → w.measuredSum args + lost = w.previousTuningN.toNat
  inside : ∀ delta, w.control = .measured delta →
    w.measuredSum args + lost = w.sent - (delta.toInt + args.expectedPPSDiv10.toInt)
  none : lost = 0 → w.measuredSum args = w.previousTuningN.toNat

theorem step_sent {event : SpinEvent} (taken : SpinStep args w event next) :
    w.sent ≤ next.sent := by
  cases taken with
  | sent => exact Nat.le_succ _
  | _ => exact Nat.le_refl _

theorem betweenLoads_eq_false {control : SpinControl} (here : w.control = control)
    (other : ∀ delta, control ≠ .measured delta) : w.betweenLoads = false := by
  rw [betweenLoads, here]
  cases control with
  | measured delta => exact absurd rfl (other delta)
  | _ => rfl

theorem Measures.countSent {lost : Nat} (measures : Measures args lost w)
    (short : w.sent + 1 < 2 ^ 32) :
    Measures args (lost + if w.sentBetweenLoads .sent then 1 else 0) w.countSent := by
  obtain ⟨counter, baseline, outside, inside, none⟩ := measures
  have sum : w.countSent.measuredSum args = w.measuredSum args := rfl
  have sent : w.countSent.sent = w.sent + 1 := rfl
  refine ⟨?_, Nat.le_succ_of_le baseline, ?_, ?_, ?_⟩
  · rw [SpinWorker.countSent, UInt32.toNat_add, counter]
    exact Nat.mod_eq_of_lt short
  · intro quiet
    have quietBefore : w.betweenLoads = false := quiet
    have unflagged : w.sentBetweenLoads .sent = false := by simp [sentBetweenLoads, quietBefore]
    rw [unflagged]
    exact outside quietBefore
  · intro delta here
    have hereBefore : w.control = .measured delta := here
    have balance := inside delta hereBefore
    have flagged : w.sentBetweenLoads .sent = true := by
      simp [sentBetweenLoads, betweenLoads, hereBefore]
    rw [sum, sent, flagged, if_pos rfl]
    omega
  · intro nothing
    exact none (Nat.eq_zero_of_add_eq_zero_right nothing)

theorem Measures.of_same {lost : Nat} (measures : Measures args lost w)
    {control : SpinControl} (here : w.control = control)
    (other : ∀ delta, control ≠ .measured delta) (counter : next.totalPkts = w.totalPkts)
    (sent : next.sent = w.sent) (baseline : next.previousTuningN = w.previousTuningN)
    (deltas : next.deltas = w.deltas) (otherNext : ∀ delta, next.control ≠ .measured delta) :
    Measures args lost next := by
  refine ⟨?_, ?_, ?_, ?_, ?_⟩
  · rw [counter, sent]
    exact measures.counter
  · rw [baseline, sent]
    exact measures.baseline
  · intro _
    rw [measuredSum, deltas, baseline]
    exact measures.outside (betweenLoads_eq_false here other)
  · exact fun delta inside => absurd inside (otherNext delta)
  · rw [measuredSum, deltas, baseline]
    exact measures.none

theorem afterReport_cases (now : UInt64) (w : SpinWorker) :
    w.afterReport now = .tuning now ∨ w.afterReport now = .loopHead := by
  rw [afterReport]
  split
  · exact .inl rfl
  · exact .inr rfl

theorem afterWake_cases (now : UInt64) (w : SpinWorker) :
    w.afterWake now = .reporting now ∨ w.afterWake now = .tuning now ∨
      w.afterWake now = .loopHead := by
  rw [afterWake]
  split
  · exact .inl rfl
  · exact .inr (afterReport_cases now w)

theorem afterReport_ne (now : UInt64) (w : SpinWorker) (delta : Int64) :
    w.afterReport now ≠ .measured delta := by
  rcases afterReport_cases now w with next | next
  · simp [next]
  · simp [next]

theorem afterWake_ne (now : UInt64) (w : SpinWorker) (delta : Int64) :
    w.afterWake now ≠ .measured delta := by
  rcases afterWake_cases now w with next | next | next
  · simp [next]
  · simp [next]
  · simp [next]

theorem Measures.step {lost : Nat} {event : SpinEvent} (measures : Measures args lost w)
    (short : next.sent < 2 ^ 32) (taken : SpinStep args w event next) :
    Measures args (lost + if w.sentBetweenLoads event then 1 else 0) next := by
  have keep (other : event ≠ .sent) : w.sentBetweenLoads event = false := by
    simp [sentBetweenLoads, other]
  cases taken with
  | sent => exact measures.countSent short
  | goOn here | stop here =>
      rw [keep (by simp)]
      exact measures.of_same here (by simp) rfl rfl rfl rfl (by simp)
  | wake here =>
      rw [keep (by simp)]
      exact measures.of_same here (by simp) rfl rfl rfl rfl (afterWake_ne _ w)
  | report here | adjust here =>
      rw [keep (by simp)]
      exact measures.of_same here (by simp) rfl rfl rfl rfl (by simp)
  | nextReport here =>
      rw [keep (by simp)]
      exact measures.of_same here (by simp) rfl rfl rfl rfl (afterReport_ne _ w)
  | @measure now here =>
      rw [keep (by simp)]
      have counter := measures.counter
      have baseline := measures.baseline
      have limit : w.sent < 2 ^ 32 := short
      have balance := measures.outside (betweenLoads_eq_false here (by simp))
      have delta := @packetDelta_toInt args w (by omega)
      refine ⟨counter, baseline, ?_, ?_, measures.none⟩
      · intro outside
        simp [betweenLoads] at outside
      · rintro _ ⟨⟩
        rw [delta, counter]
        have whole : (w.previousTuningN.toNat : Int) =
            w.sent - (w.sent - w.previousTuningN.toNat) := by
          omega
        exact balance.trans whole
  | @baseline packetDelta here =>
      rw [keep (by simp)]
      have counter := measures.counter
      have balance := measures.inside packetDelta here
      have whole : ({ w with
          control := .adjusting packetDelta
          previousTuningN := w.totalPkts.toUInt64
          deltas := w.deltas ++ [packetDelta] } : SpinWorker).measuredSum args + lost = w.sent := by
        rw [measuredSum, List.map_append, List.sum_append, List.map_singleton, List.sum_singleton,
          ← measuredSum]
        omega
      refine ⟨counter, ?_, ?_, by simp, ?_⟩
      · rw [UInt32.toNat_toUInt64, counter]
      · intro _
        rw [UInt32.toNat_toUInt64, counter]
        exact whole
      · rintro rfl
        rw [UInt32.toNat_toUInt64, counter, ← whole]
        exact (Int.add_zero _).symm

variable {events : List SpinEvent} {now : UInt64} {startTime : Int}

def lostBetweenLoads (args : ProducerArgs) (now : UInt64) (startTime : Int)
    (events : List SpinEvent) : Nat :=
  PartialRun.countSteps (SpinWorker.step args) sentBetweenLoads
    (SpinWorker.start args now startTime) events

def MeasuresAll (args : ProducerArgs) (w : SpinWorker) : Prop :=
  w.measuredSum args = w.previousTuningN.toNat

theorem measures_run (reached : PartialRun.run (SpinWorker.step args)
      (SpinWorker.start args now startTime) events = some w) :
    w.sent < 2 ^ 32 → Measures args (lostBetweenLoads args now startTime events) w := by
  refine PartialRun.run_induction ?initially ?extended reached
  case initially =>
      exact fun _ => ⟨rfl, Nat.le_refl _, fun _ => rfl, by simp [SpinWorker.start], fun _ => rfl⟩
  case extended =>
      intro events w event next before ih taken short
      have stepped := step_cases taken
      rw [lostBetweenLoads, PartialRun.countSteps_snoc sentBetweenLoads event before]
      exact (ih (Nat.lt_of_le_of_lt (step_sent stepped) short)).step short stepped

theorem sent_along {first : SpinWorker}
    (reached : PartialRun.run (SpinWorker.step args) first events = some w) :
    first.sent ≤ w.sent :=
  @PartialRun.run_invariant _ _ _ (fun later => first.sent ≤ later.sent)
    (fun _ _ _ grown taken => Nat.le_trans grown (step_sent (step_cases taken)))
    _ _ _ (Nat.le_refl _) reached

end SpinWorker

open SpinWorker

variable {args : ProducerArgs} {w : SpinWorker} {events : List SpinEvent} {now : UInt64}
  {startTime : Int}

/-- The ticks measure every packet once, in all states of a run, when no packet
is sent between the two loads of a tick; and a run between ticks in which they
did had no such packet. -/
theorem tuning_measures_all (reached : PartialRun.run (SpinWorker.step args)
      (SpinWorker.start args now startTime) events = some w) (short : w.sent < 2 ^ 32) :
    (lostBetweenLoads args now startTime events = 0 →
      PartialRun.Always (SpinWorker.step args) (MeasuresAll args)
        (SpinWorker.start args now startTime) events) ∧
    (w.betweenLoads = false →
      PartialRun.Always (SpinWorker.step args) (MeasuresAll args)
        (SpinWorker.start args now startTime) events →
      lostBetweenLoads args now startTime events = 0) := by
  constructor
  · rintro nothing before state ⟨after, rfl⟩ reachedState
    obtain ⟨middle, first, second⟩ := PartialRun.run_prefix reached
    rw [reachedState, Option.some.injEq] at first
    subst first
    rw [lostBetweenLoads, PartialRun.countSteps_append sentBetweenLoads after reachedState]
      at nothing
    exact (measures_run reachedState (Nat.lt_of_le_of_lt (sent_along second) short)).none
      (Nat.eq_zero_of_add_eq_zero_right nothing)
  · intro outside always
    have balance := (measures_run reached short).outside outside
    rw [always.last reached] at balance
    omega

def firstTick (events : List SpinEvent) : List SpinEvent :=
  [.shouldStop false 0, .sent, .sent, .wake 100000000, .loadPacketDelta] ++ events ++
    [.loadPreviousTuningN, .adjust]

theorem tuning_measures_all_first_tick :
    PartialRun.Always (SpinWorker.step oneGroupArgs) (MeasuresAll oneGroupArgs)
      (SpinWorker.start oneGroupArgs 0 0) (firstTick []) := by
  obtain ⟨w, reached, short⟩ : ∃ w, PartialRun.run (SpinWorker.step oneGroupArgs)
      (SpinWorker.start oneGroupArgs 0 0) (firstTick []) = some w ∧ w.sent < 2 ^ 32 :=
    ⟨_, rfl, by decide⟩
  exact (tuning_measures_all reached short).1 rfl

/-- A packet sent between the loads is in the baseline and in no `PacketDelta`. -/
theorem tuning_loses_packet :
    ∃ w, PartialRun.run (SpinWorker.step oneGroupArgs) (SpinWorker.start oneGroupArgs 0 0)
        (firstTick [.sent]) = some w ∧
      w.sent = 3 ∧ w.previousTuningN = 3 ∧ w.measuredSum oneGroupArgs = 2 ∧
      ¬w.MeasuresAll oneGroupArgs := by
  refine ⟨_, rfl, rfl, rfl, by decide, ?_⟩
  rw [MeasuresAll]
  decide

end RioClient
