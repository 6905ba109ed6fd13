import Mathlib.Algebra.Order.Group.Defs
import Mathlib.Algebra.Order.Group.Int
import RioClient.FlooredControl
import RioClient.TuningIntervals

/-!
How long the sender spins. A tuning tick corrects the spin duration by ten
nanoseconds for every threshold that its `PacketDelta` is off, and a duration
below 1000 becomes 100.
-/

namespace RioClient

open FlooredControl

def spinReturnsAtOnce (nano : UInt64) : Bool := decide (nano ≤ 1000)

namespace ProducerArgs

def spinStart (args : ProducerArgs) : Int64 := Int64.ofNat (1000000000 / args.rate)

def correction (args : ProducerArgs) (packetDelta : Int64) : Int :=
  packetDelta.toInt.tdiv args.deltaThreashold.toInt * 10

def Corrects (args : ProducerArgs) (packetDelta : Int64) : Prop :=
  packetDelta > args.deltaThreashold ∨ packetDelta < -args.deltaThreashold

def SumFits (args : ProducerArgs) (spinDuration packetDelta : Int64) : Prop :=
  -2 ^ 63 ≤ spinDuration.toInt + args.correction packetDelta ∧
    spinDuration.toInt + args.correction packetDelta < 2 ^ 63

instance (args : ProducerArgs) (packetDelta : Int64) : Decidable (args.Corrects packetDelta) :=
  inferInstanceAs (Decidable (_ ∨ _))

instance (args : ProducerArgs) (spinDuration packetDelta : Int64) :
    Decidable (args.SumFits spinDuration packetDelta) :=
  inferInstanceAs (Decidable (_ ∧ _))

/-- A tuning tick with any `PacketDelta`; `none` where the sum it stores would overflow. -/
def tuningTick (args : ProducerArgs) (spinDuration packetDelta : Int64) : Option Int64 :=
  if args.Corrects packetDelta ∧ ¬args.SumFits spinDuration packetDelta then none
  else some (tuneSpinDuration args.deltaThreashold packetDelta spinDuration)

end ProducerArgs

section
variable {args : ProducerArgs} {spinDuration packetDelta next : Int64}

theorem deltaThreashold_toInt (args : ProducerArgs) :
    args.deltaThreashold.toInt = (max (args.ratePerSecond.toNat / 2000) 1 : Nat) := by
  have bound := args.ratePerSecond.toNat_lt
  have larger : (max (args.ratePerSecond / 2000) 1).toNat =
      max (args.ratePerSecond.toNat / 2000) 1 := by
    rw [UInt32.toNat_max, UInt32.toNat_div]
    rfl
  rw [ProducerArgs.deltaThreashold, toInt64_toInt (by rw [UInt32.toNat_toUInt64]; omega),
    UInt32.toNat_toUInt64, larger]

theorem deltaThreashold_pos (args : ProducerArgs) : 0 < args.deltaThreashold.toInt := by
  rw [deltaThreashold_toInt]
  omega

theorem neg_deltaThreashold_toInt (args : ProducerArgs) :
    (-args.deltaThreashold).toInt = -args.deltaThreashold.toInt := by
  have positive := deltaThreashold_pos args
  have bound := args.deltaThreashold.toInt_lt
  rw [Int64.toInt_neg]
  apply Int.bmod_eq_of_le <;> omega

theorem overspeed_iff :
    packetDelta > args.deltaThreashold ↔ args.deltaThreashold.toInt < packetDelta.toInt :=
  Int64.lt_iff_toInt_lt

theorem underspeed_iff :
    packetDelta < -args.deltaThreashold ↔ packetDelta.toInt < -args.deltaThreashold.toInt := by
  rw [Int64.lt_iff_toInt_lt, neg_deltaThreashold_toInt]

theorem correction_pos (overspeed : packetDelta > args.deltaThreashold) :
    0 < args.correction packetDelta := by
  have positive := deltaThreashold_pos args
  have above := overspeed_iff.mp overspeed
  have one : 1 ≤ packetDelta.toInt.tdiv args.deltaThreashold.toInt :=
    Int.le_tdiv_of_mul_le positive (by omega)
  rw [ProducerArgs.correction]
  omega

theorem correction_neg (underspeed : packetDelta < -args.deltaThreashold) :
    args.correction packetDelta < 0 := by
  have positive := deltaThreashold_pos args
  have below := underspeed_iff.mp underspeed
  have one : 1 ≤ (-packetDelta.toInt).tdiv args.deltaThreashold.toInt :=
    Int.le_tdiv_of_mul_le positive (by omega)
  rw [Int.neg_tdiv] at one
  rw [ProducerArgs.correction]
  omega

theorem correction_lt_iff (overspeed : packetDelta > args.deltaThreashold) :
    100 + args.correction packetDelta < 1000 ↔
      packetDelta.toInt < 90 * args.deltaThreashold.toInt := by
  have positive := deltaThreashold_pos args
  have above := overspeed_iff.mp overspeed
  have reaches : 90 ≤ packetDelta.toInt.tdiv args.deltaThreashold.toInt ↔
      90 * args.deltaThreashold.toInt ≤ packetDelta.toInt := by
    rw [Int.tdiv_eq_ediv_of_nonneg (by omega), Int.le_ediv_iff_mul_le positive]
  rw [ProducerArgs.correction]
  omega

/-- The sum is the number that the code means, where that fits. -/
theorem sum_toInt (fits : args.SumFits spinDuration packetDelta) :
    (spinDuration + packetDelta / args.deltaThreashold * 10).toInt =
      spinDuration.toInt + args.correction packetDelta := by
  obtain ⟨low, high⟩ := fits
  have positive := deltaThreashold_pos args
  have quotient : (packetDelta / args.deltaThreashold).toInt =
      packetDelta.toInt.tdiv args.deltaThreashold.toInt := by
    apply Int64.toInt_div_of_ne_right
    intro same
    rw [same] at positive
    exact absurd positive (by decide)
  rw [Int64.toInt_add, Int64.toInt_mul, quotient, show (10 : Int64).toInt = 10 from rfl,
    Int.add_bmod_bmod, ← ProducerArgs.correction]
  apply Int.bmod_eq_of_le <;> omega

theorem settle_toInt (sum : Int64) :
    (if sum < 1000 then (100 : Int64) else sum).toInt = settle 100 1000 sum.toInt := by
  have compared : sum < 1000 ↔ sum.toInt < 1000 := Int64.lt_iff_toInt_lt
  rw [settle]
  split
  next low => rw [if_pos (compared.mp low)]; rfl
  next high => rw [if_neg (compared.not.mp high)]

inductive TickStep (args : ProducerArgs) (spinDuration packetDelta next : Int64) : Prop
  | raised (overspeed : packetDelta > args.deltaThreashold) (result : next.toInt =
      settle 100 1000 (spinDuration.toInt + args.correction packetDelta))
  | lowered (underspeed : packetDelta < -args.deltaThreashold) (result : next.toInt =
      settle 100 1000 (spinDuration.toInt + args.correction packetDelta))
  | kept (slow : ¬packetDelta > args.deltaThreashold)
      (fast : ¬packetDelta < -args.deltaThreashold) (same : next = spinDuration)

theorem tick_cases (positive : 0 < spinDuration)
    (ticked : args.tuningTick spinDuration packetDelta = some next) :
    TickStep args spinDuration packetDelta next := by
  have threshold := deltaThreashold_pos args
  rw [ProducerArgs.tuningTick] at ticked
  split at ticked
  next => cases ticked
  next exact =>
    have fits (corrects : args.Corrects packetDelta) : args.SumFits spinDuration packetDelta := by
      by_contra overflow
      exact exact ⟨corrects, overflow⟩
    rw [Option.some.injEq] at ticked
    subst ticked
    by_cases overspeed : packetDelta > args.deltaThreashold
    · have fast : ¬packetDelta < -args.deltaThreashold := by
        rw [underspeed_iff]
        have above := overspeed_iff.mp overspeed
        omega
      refine .raised overspeed ?_
      rw [tuneSpinDuration, if_pos overspeed, if_neg fast, if_pos positive, settle_toInt,
        sum_toInt (fits (.inl overspeed))]
    · by_cases underspeed : packetDelta < -args.deltaThreashold
      · refine .lowered underspeed ?_
        rw [tuneSpinDuration, if_neg overspeed, if_pos underspeed, settle_toInt,
          Int64.add_comm, sum_toInt (fits (.inr underspeed))]
      · refine .kept overspeed underspeed ?_
        rw [tuneSpinDuration, if_neg overspeed, if_neg underspeed]

/-- What the spin duration is at all times: the floor, or at least 1000. -/
def WellFormed (spinDuration : Int64) : Prop := Settled 100 1000 spinDuration.toInt

theorem wellFormed_iff : WellFormed spinDuration ↔ spinDuration = 100 ∨ 1000 ≤ spinDuration := by
  rw [WellFormed, Settled, ← Int64.toInt_inj, Int64.le_iff_toInt_le]
  rfl

theorem WellFormed.pos (wellFormed : WellFormed spinDuration) : 0 < spinDuration := by
  rw [Int64.lt_iff_toInt_lt]
  exact lt_of_lt_of_le (by decide) (wellFormed.floor_le (by decide))

theorem WellFormed.tick (wellFormed : WellFormed spinDuration)
    (ticked : args.tuningTick spinDuration packetDelta = some next) : WellFormed next := by
  rcases tick_cases wellFormed.pos ticked with ⟨_, result⟩ | ⟨_, result⟩ | ⟨_, _, same⟩
  · rw [WellFormed, result]
    exact settled_settle
  · rw [WellFormed, result]
    exact settled_settle
  · rw [same]
    exact wellFormed

theorem spinStart_toInt (args : ProducerArgs) :
    args.spinStart.toInt = (1000000000 / args.rate : Nat) := by
  have small : 1000000000 / args.rate ≤ 1000000000 := Nat.div_le_self _ _
  exact Int64.toInt_ofNat_of_lt (by omega)

theorem wellFormed_spinStart (args : ProducerArgs) : WellFormed args.spinStart := by
  have least : 1000 ≤ 1000000000 / args.rate :=
    (Nat.le_div_iff_mul_le args.rate_positive).mpr (by
      have most := args.rate_le
      omega)
  rw [WellFormed, spinStart_toInt]
  exact .inr (by omega)

theorem wellFormed_run {packetDeltas : List Int64}
    (reached : PartialRun.run args.tuningTick args.spinStart packetDeltas = some spinDuration) :
    WellFormed spinDuration :=
  PartialRun.run_invariant (fun _ _ _ wellFormed ticked => wellFormed.tick ticked)
    (wellFormed_spinStart args) reached

theorem WellFormed.toNat_toUInt64 (wellFormed : WellFormed spinDuration) :
    (spinDuration.toUInt64.toNat : Int) = spinDuration.toInt := by
  have positive := Int64.le_of_lt wellFormed.pos
  have above := Int64.le_iff_toInt_le.mp positive
  rw [Int64.toNat_toUInt64_of_le positive, Int64.toNatClampNeg]
  exact Int.toNat_of_nonneg above

theorem WellFormed.lowered_le (wellFormed : WellFormed spinDuration)
    (underspeed : packetDelta < -args.deltaThreashold)
    (ticked : args.tuningTick spinDuration packetDelta = some next) : next ≤ spinDuration := by
  have correction := correction_neg underspeed
  rw [Int64.le_iff_toInt_le]
  rcases tick_cases wellFormed.pos ticked with ⟨_, result⟩ | ⟨_, result⟩ | ⟨_, fast, _⟩
  · rw [result]
    exact wellFormed.settle_le (by decide) (by omega)
  · rw [result]
    exact wellFormed.settle_le (by decide) (by omega)
  · exact absurd underspeed fast

theorem WellFormed.overspeed_result (wellFormed : WellFormed spinDuration)
    (overspeed : packetDelta > args.deltaThreashold)
    (ticked : args.tuningTick spinDuration packetDelta = some next) :
    next.toInt = settle 100 1000 (spinDuration.toInt + args.correction packetDelta) := by
  rcases tick_cases wellFormed.pos ticked with ⟨_, result⟩ | ⟨_, result⟩ | ⟨slow, _, _⟩
  · exact result
  · exact result
  · exact absurd overspeed slow

theorem WellFormed.lt_raised_iff (wellFormed : WellFormed spinDuration)
    (overspeed : packetDelta > args.deltaThreashold)
    (ticked : args.tuningTick spinDuration packetDelta = some next) :
    spinDuration < next ↔
      spinDuration ≠ 100 ∨ 90 * args.deltaThreashold.toInt ≤ packetDelta.toInt := by
  have correction := correction_pos overspeed
  have crosses := correction_lt_iff overspeed
  have result := wellFormed.overspeed_result overspeed ticked
  have onFloor : spinDuration = 100 ↔ spinDuration.toInt = 100 := Int64.toInt_inj.symm
  rw [Int64.lt_iff_toInt_lt, result, wellFormed.lt_settle_iff (by omega), ne_eq, onFloor]
  rcases wellFormed with floor | high
  · omega
  · omega

theorem WellFormed.run_overspeed {overspeed : List Int64} {later : Int64}
    (wellFormed : WellFormed spinDuration)
    (fast : ∀ packetDelta ∈ overspeed, packetDelta > args.deltaThreashold)
    (ran : PartialRun.run args.tuningTick spinDuration overspeed = some later) :
    later.toInt = raiseAll 100 1000 spinDuration.toInt (overspeed.map args.correction) := by
  induction overspeed generalizing spinDuration with
  | nil =>
      cases ran
      rfl
  | cons packetDelta overspeed ih =>
      obtain ⟨next, ticked, onwards⟩ := Option.bind_eq_some_iff.mp ran
      have rest := ih (wellFormed.tick ticked)
        (fun packetDelta member => fast packetDelta (List.mem_cons_of_mem _ member)) onwards
      rw [rest, wellFormed.overspeed_result (fast packetDelta List.mem_cons_self) ticked]
      rfl

theorem WellFormed.stays_on_floor_iff {overspeed : List Int64} {later : Int64}
    (wellFormed : WellFormed spinDuration)
    (fast : ∀ packetDelta ∈ overspeed, packetDelta > args.deltaThreashold)
    (ran : PartialRun.run args.tuningTick spinDuration overspeed = some later) :
    later = 100 ↔ spinDuration = 100 ∧
      ∀ packetDelta ∈ overspeed, packetDelta.toInt < 90 * args.deltaThreashold.toInt := by
  have positive : ∀ raise ∈ overspeed.map args.correction, 0 < raise := by
    intro raise member
    obtain ⟨packetDelta, inside, rfl⟩ := List.mem_map.mp member
    exact correction_pos (fast packetDelta inside)
  rw [← Int64.toInt_inj, ← Int64.toInt_inj, wellFormed.run_overspeed fast ran,
    show (100 : Int64).toInt = 100 from rfl, wellFormed.raiseAll_eq_floor_iff (by decide) positive,
    List.forall_mem_map]
  refine and_congr_right fun _ => ?_
  exact forall₂_congr fun packetDelta member => correction_lt_iff (fast packetDelta member)

end

def SpinControl.uncorrected : SpinControl → List Int64
  | .adjusting packetDelta => [packetDelta]
  | _ => []

namespace SpinWorker

variable {args : ProducerArgs} {w next : SpinWorker}

theorem uncorrected_afterReport (now : UInt64) (w : SpinWorker) :
    (w.afterReport now).uncorrected = [] := by
  rcases afterReport_cases now w with next | next
  · exact congrArg SpinControl.uncorrected next
  · exact congrArg SpinControl.uncorrected next

theorem uncorrected_afterWake (now : UInt64) (w : SpinWorker) :
    (w.afterWake now).uncorrected = [] := by
  rcases afterWake_cases now w with next | next | next
  · exact congrArg SpinControl.uncorrected next
  · exact congrArg SpinControl.uncorrected next
  · exact congrArg SpinControl.uncorrected next

def AdjustFits (args : ProducerArgs) (w : SpinWorker) (event : SpinEvent) : Prop :=
  event = .adjust → ∀ packetDelta, w.control = .adjusting packetDelta →
    args.Corrects packetDelta → args.SumFits w.spinDuration packetDelta

def Tuned (args : ProducerArgs) (w : SpinWorker) : Prop :=
  ∃ packetDeltas, packetDeltas ++ w.control.uncorrected = w.deltas ∧
    PartialRun.run args.tuningTick args.spinStart packetDeltas = some w.spinDuration

theorem Tuned.of_same (tuned : Tuned args w)
    (uncorrected : next.control.uncorrected = w.control.uncorrected)
    (deltas : next.deltas = w.deltas) (same : next.spinDuration = w.spinDuration) :
    Tuned args next := by
  rw [Tuned, uncorrected, deltas, same]
  exact tuned

theorem Tuned.step {event : SpinEvent} (tuned : Tuned args w) (fits : AdjustFits args w event)
    (taken : SpinStep args w event next) : Tuned args next := by
  cases taken with
  | sent => exact tuned.of_same rfl rfl rfl
  | goOn here => exact tuned.of_same (by rw [here]; rfl) rfl rfl
  | stop here => exact tuned.of_same (by rw [here]; rfl) rfl rfl
  | wake here => exact tuned.of_same (by rw [here]; exact uncorrected_afterWake _ w) rfl rfl
  | report here => exact tuned.of_same (by rw [here]; rfl) rfl rfl
  | nextReport here =>
      exact tuned.of_same (by rw [here]; exact uncorrected_afterReport _ w) rfl rfl
  | measure here => exact tuned.of_same (by rw [here]; rfl) rfl rfl
  | @baseline packetDelta here =>
      obtain ⟨packetDeltas, all, ran⟩ := tuned
      rw [here] at all
      refine ⟨packetDeltas, ?_, ran⟩
      rw [← all]
      simp [SpinControl.uncorrected]
  | @adjust packetDelta here =>
      obtain ⟨packetDeltas, all, ran⟩ := tuned
      rw [here] at all
      have ticked : args.tuningTick w.spinDuration packetDelta =
          some (tuneSpinDuration args.deltaThreashold packetDelta w.spinDuration) := by
        rw [ProducerArgs.tuningTick, if_neg]
        rintro ⟨corrects, overflow⟩
        exact overflow (fits rfl packetDelta here corrects)
      refine ⟨packetDeltas ++ [packetDelta], ?_, ?_⟩
      · rw [← all]
        exact List.append_nil _
      · rw [PartialRun.run_snoc, ran]
        exact ticked

theorem tuned_run {now : UInt64} {startTime : Int} {events : List SpinEvent}
    (fits : PartialRun.Along (step args) (AdjustFits args) (start args now startTime) events)
    (reached : PartialRun.run (step args) (start args now startTime) events = some w) :
    Tuned args w :=
  PartialRun.run_invariant_along
    (fun _ _ _ tuned fits taken => tuned.step fits (step_cases taken)) ⟨[], rfl, rfl⟩ fits reached

end SpinWorker

/-- The spin duration is 100 or at least 1000 after any ticks, and in every state of
`SpinWorker`; ticks that measure too few packets do not lengthen it, and ticks
within the threshold keep it. -/
theorem spinDuration_wellFormed (args : ProducerArgs) :
    args.deltaThreashold ≠ 0 ∧
    (∀ packetDeltas spinDuration,
      PartialRun.run args.tuningTick args.spinStart packetDeltas = some spinDuration →
      (spinDuration = 100 ∨ 1000 ≤ spinDuration) ∧
      (spinDuration.toUInt64.toNat : Int) = spinDuration.toInt ∧
      ∀ packetDelta next, args.tuningTick spinDuration packetDelta = some next →
        (packetDelta < -args.deltaThreashold → next ≤ spinDuration) ∧
        (-args.deltaThreashold ≤ packetDelta ∧ packetDelta ≤ args.deltaThreashold →
          next = spinDuration)) ∧
    ∀ now startTime events w,
      PartialRun.Along (SpinWorker.step args) (SpinWorker.AdjustFits args)
        (SpinWorker.start args now startTime) events →
      PartialRun.run (SpinWorker.step args) (SpinWorker.start args now startTime) events = some w →
      w.spinDuration = 100 ∨ 1000 ≤ w.spinDuration := by
  refine ⟨?_, ?_, ?_⟩
  · intro zero
    have positive := deltaThreashold_pos args
    rw [zero] at positive
    exact absurd positive (by decide)
  · intro packetDeltas spinDuration reached
    have wellFormed := wellFormed_run reached
    refine ⟨wellFormed_iff.mp wellFormed, wellFormed.toNat_toUInt64, ?_⟩
    intro packetDelta next ticked
    refine ⟨fun underspeed => wellFormed.lowered_le underspeed ticked, ?_⟩
    rintro ⟨fast, slow⟩
    rcases tick_cases wellFormed.pos ticked with ⟨above, _⟩ | ⟨below, _⟩ | ⟨_, _, same⟩
    · exact absurd above (Int64.not_lt.mpr slow)
    · exact absurd below (Int64.not_lt.mpr fast)
    · exact same
  · intro now startTime events w fits reached
    obtain ⟨packetDeltas, _, ran⟩ := SpinWorker.tuned_run fits reached
    exact wellFormed_iff.mp (wellFormed_run ran)

/-- One group at the full rate: 100000 packets are expected in a tick, the threshold is 500. -/
def fullRateArgs : ProducerArgs where
  toArgs := { oneGroupArgs.toArgs with packetRate := 1000000 }
  rate_pos := by decide
  groups_pos := by decide
  limit := by decide

theorem spinDuration_wellFormed_idle_tick :
    ∃ next, fullRateArgs.tuningTick 100 (-600) = some next ∧ next ≤ 100 := by
  have reached : PartialRun.run fullRateArgs.tuningTick fullRateArgs.spinStart [-100000] =
      some 100 := by decide
  have steps := ((spinDuration_wellFormed fullRateArgs).2.1 [-100000] 100 reached).2.2
  exact ⟨100, by decide, (steps (-600) 100 (by decide)).1 (by decide)⟩

/-- At a reached duration an overspeed tick has an effect unless the duration is the floor
and the tick is one of less than 90 thresholds; and only such ticks leave it on the floor. -/
theorem overspeed_raises_iff {args : ProducerArgs} {packetDeltas : List Int64}
    {spinDuration : Int64}
    (reached : PartialRun.run args.tuningTick args.spinStart packetDeltas = some spinDuration) :
    (∀ packetDelta next, packetDelta > args.deltaThreashold →
      args.tuningTick spinDuration packetDelta = some next →
      (spinDuration < next ↔
        spinDuration ≠ 100 ∨ 90 * args.deltaThreashold.toInt ≤ packetDelta.toInt)) ∧
    ∀ overspeed later, (∀ packetDelta ∈ overspeed, packetDelta > args.deltaThreashold) →
      PartialRun.run args.tuningTick spinDuration overspeed = some later →
      (later = 100 ↔ spinDuration = 100 ∧
        ∀ packetDelta ∈ overspeed, packetDelta.toInt < 90 * args.deltaThreashold.toInt) := by
  have wellFormed := wellFormed_run reached
  constructor
  · intro packetDelta next overspeed ticked
    exact wellFormed.lt_raised_iff overspeed ticked
  · intro overspeed later fast ran
    exact wellFormed.stays_on_floor_iff fast ran

theorem overspeed_raises_iff_start : fullRateArgs.spinStart < 1010 := by
  have raises := (@overspeed_raises_iff fullRateArgs [] fullRateArgs.spinStart rfl).1 600 1010
    (by decide) (by decide)
  exact raises.mpr (.inl (by decide))

theorem SpinWorker.run_sent (args : ProducerArgs) (w : SpinWorker) (count : Nat) :
    PartialRun.run (SpinWorker.step args) w (List.replicate count .sent) =
      some { w with
        totalPkts := w.totalPkts + UInt32.ofNat count
        sent := w.sent + count } := by
  induction count generalizing w with
  | zero => simp
  | succ count ih =>
      have total : w.totalPkts + 1 + UInt32.ofNat count =
          w.totalPkts + UInt32.ofNat (count + 1) := by
        rw [UInt32.add_assoc, UInt32.ofNat_add, UInt32.add_comm (UInt32.ofNat count)]
        rfl
      have sent : w.sent + 1 + count = w.sent + (count + 1) := by omega
      rw [List.replicate_succ, PartialRun.run_cons]
      refine (ih w.countSent).trans ?_
      rw [SpinWorker.countSent, total, sent]

def measureAt (now : UInt64) : List SpinEvent :=
  [.wake now, .loadPacketDelta, .loadPreviousTuningN]

theorem SpinWorker.run_measureAt {args : ProducerArgs} {w : SpinWorker} {now : UInt64}
    (asleep : w.control = .sleeping) (early : ¬now ≥ w.nextReportTime)
    (due : now ≥ w.nextTuningTime) :
    PartialRun.run (SpinWorker.step args) w (measureAt now) =
      some { w with
        control := .adjusting (w.packetDelta args)
        nextTuningTime := now + 100000000
        previousTuningN := w.totalPkts.toUInt64
        deltas := w.deltas ++ [w.packetDelta args] } := by
  have woken : w.afterWake now = .tuning now := by
    rw [afterWake, if_neg early, afterReport, if_pos due]
  cases w
  simp only at asleep
  subst asleep
  simp only [measureAt, PartialRun.run_cons, SpinWorker.step, Option.bind_some, woken]
  rfl

/-- A tick before the first packet, and the tick after 600 packets too many. -/
def idleThenFast : List SpinEvent :=
  [.shouldStop false 0] ++ measureAt 100000000 ++ [.adjust, .shouldStop false 0] ++
    List.replicate 100600 .sent ++ measureAt 200000000

theorem idleThenFast_run : ∃ w, PartialRun.run (SpinWorker.step fullRateArgs)
    (SpinWorker.start fullRateArgs 0 0) idleThenFast = some w ∧ w.control = .adjusting 600 ∧
    w.spinDuration = 100 := by
  obtain ⟨idle, first, asleep, reportTime, tuningTime, floor, noPackets, baseline⟩ :
      ∃ idle, PartialRun.run (SpinWorker.step fullRateArgs) (SpinWorker.start fullRateArgs 0 0)
        ([.shouldStop false 0] ++ measureAt 100000000 ++ [.adjust, .shouldStop false 0]) =
          some idle ∧ idle.control = .sleeping ∧ idle.nextReportTime = 1000000000 ∧
        idle.nextTuningTime = 200000000 ∧ idle.spinDuration = 100 ∧ idle.totalPkts = 0 ∧
        idle.previousTuningN = 0 :=
    ⟨_, rfl, rfl, rfl, rfl, rfl, rfl, rfl⟩
  have sent := SpinWorker.run_sent fullRateArgs idle 100600
  generalize fast : { idle with
    totalPkts := idle.totalPkts + UInt32.ofNat 100600
    sent := idle.sent + 100600 } = w at sent
  have measured := @SpinWorker.run_measureAt fullRateArgs w 200000000
    (by rw [← fast]; exact asleep) (by rw [← fast, reportTime]; decide)
    (by rw [← fast, tuningTime]; decide)
  have delta : w.packetDelta fullRateArgs = 600 := by
    have packets : w.totalPkts = 100600 := by
      rw [← fast, noPackets]
      rfl
    have baseline : w.previousTuningN = 0 := by rw [← fast, baseline]
    rw [SpinWorker.packetDelta, packets, baseline]
    decide
  have reached : PartialRun.run (SpinWorker.step fullRateArgs)
      (SpinWorker.start fullRateArgs 0 0) idleThenFast =
        PartialRun.run (SpinWorker.step fullRateArgs) w (measureAt 200000000) := by
    rw [idleThenFast, PartialRun.run_append, PartialRun.run_append, first, Option.bind_some,
      sent, Option.bind_some]
  rw [measured, delta] at reached
  refine ⟨_, reached, rfl, ?_⟩
  rw [← fast, floor]

def ReactsToOverspeed (args : ProducerArgs) : Prop :=
  ∀ packetDeltas spinDuration packetDelta next,
    PartialRun.run args.tuningTick args.spinStart packetDeltas = some spinDuration →
    packetDelta > args.deltaThreashold → args.tuningTick spinDuration packetDelta = some next →
    spinDuration < next

/-- On the floor the sender does not wait, and the overspeed that is measured
then changes nothing, however long it lasts. -/
theorem overspeed_ignored_on_floor :
    (∃ w, PartialRun.run (SpinWorker.step fullRateArgs) (SpinWorker.start fullRateArgs 0 0)
        idleThenFast = some w ∧ w.control = .adjusting 600 ∧ w.spinDuration = 100 ∧
      (w.step fullRateArgs .adjust).map SpinWorker.spinDuration = some 100) ∧
    600 > fullRateArgs.deltaThreashold ∧ spinReturnsAtOnce (100 : Int64).toUInt64 = true ∧
    (∀ ticks, PartialRun.run fullRateArgs.tuningTick 100 (List.replicate ticks 600) =
      some 100) ∧
    ¬ReactsToOverspeed fullRateArgs := by
  refine ⟨?_, by decide, by decide, ?_, ?_⟩
  · obtain ⟨w, reached, adjusting, floor⟩ := idleThenFast_run
    refine ⟨w, reached, adjusting, floor, ?_⟩
    simp only [SpinWorker.step, adjusting, Option.map_some, floor]
    decide
  · intro ticks
    induction ticks with
    | zero => rfl
    | succ ticks ih =>
        rw [List.replicate_succ, PartialRun.run_cons,
          show fullRateArgs.tuningTick 100 600 = some 100 by decide]
        exact ih
  · intro reacts
    have raised := reacts [-100000] 100 600 100 (by decide) (by decide) (by decide)
    exact absurd raised (by decide)

end RioClient
