import RioClient.PartialRun
import RioClient.ProducerCore

/-!
`RioProducer::SpinWorker`, the thread that reports the throughput and tunes the
spin duration. One event for every step of its loop that reads or writes what it
shares with the sender, and one for the sender's increment of `m_TotalPkts`,
which may fall between any two of them.
-/

namespace RioClient

namespace ProducerArgs

/-- `m_Args->PacketRate * m_NumberOfMcGroups`, an `int` times a `UINT`. -/
def ratePerSecond (args : ProducerArgs) : UInt32 :=
  args.packetRate.toUInt32 * UInt32.ofNat args.numberOfMcGroups

def expectedPPSDiv10 (args : ProducerArgs) : Int64 := (args.ratePerSecond / 10).toUInt64.toInt64

def deltaThreashold (args : ProducerArgs) : Int64 :=
  (max (args.ratePerSecond / 2000) 1).toUInt64.toInt64

end ProducerArgs

/-- The next step of the loop. `Now` is the time read after the sleep; a tuning
tick holds its `PacketDelta` once it has read the counter for it. -/
inductive SpinControl
  | loopHead
  | sleeping
  | reporting (now : UInt64)
  | reported (now : UInt64)
  | tuning (now : UInt64)
  | measured (packetDelta : Int64)
  | adjusting (packetDelta : Int64)
  | stopped
deriving DecidableEq, Repr

inductive SpinEvent
  | sent
  | shouldStop (exitSignal : Bool) (now : Int)
  | wake (now : UInt64)
  | loadPreviousN
  | nextReport (now : UInt64)
  | loadPacketDelta
  | loadPreviousTuningN
  | adjust
deriving DecidableEq, Repr

/-- The locals of `SpinWorker` and the members it shares with the sender. `sent`
counts the sender's increments and `deltas` records the `PacketDelta` of the
tuning ticks that have set their new baseline. -/
structure SpinWorker where
  control : SpinControl := .loopHead
  previousN : UInt64 := 0
  previousTuningN : UInt64 := 0
  nextReportTime : UInt64
  nextTuningTime : UInt64
  spinDuration : Int64
  totalPkts : UInt32 := 0
  timing : Timing
  sent : Nat := 0
  deltas : List Int64 := []

def tuneSpinDuration (deltaThreashold packetDelta spinDuration : Int64) : Int64 :=
  let spinDuration :=
    if packetDelta > deltaThreashold then
      let var :=
        if spinDuration > 0 then spinDuration + packetDelta / deltaThreashold * 10
        else spinDuration
      if var < 1000 then 100 else var
    else spinDuration
  if packetDelta < -deltaThreashold then
    let calculated := packetDelta / deltaThreashold * 10 + spinDuration
    if calculated < 1000 then 100 else calculated
  else spinDuration

namespace SpinWorker

/-- `m_SpinDuration` starts at the quotient of 1e9 and the packet rate, whose
fraction the conversion from `double` drops. -/
def start (args : ProducerArgs) (now : UInt64) (startTime : Int) : SpinWorker where
  nextReportTime := now + 1000000000
  nextTuningTime := now + 100000000
  spinDuration := Int64.ofNat (1000000000 / args.rate)
  timing := { startTime }

def afterReport (now : UInt64) (w : SpinWorker) : SpinControl :=
  if now ≥ w.nextTuningTime then .tuning now else .loopHead

def afterWake (now : UInt64) (w : SpinWorker) : SpinControl :=
  if now ≥ w.nextReportTime then .reporting now else w.afterReport now

def countSent (w : SpinWorker) : SpinWorker :=
  { w with totalPkts := w.totalPkts + 1, sent := w.sent + 1 }

def packetDelta (args : ProducerArgs) (w : SpinWorker) : Int64 :=
  w.totalPkts.toUInt64.toInt64 - w.previousTuningN.toInt64 - args.expectedPPSDiv10

def step (args : ProducerArgs) (w : SpinWorker) (event : SpinEvent) : Option SpinWorker :=
  match event, w.control with
  | .sent, _ => some w.countSent
  | .shouldStop exitSignal now, .loopHead =>
      let (goOn, timing) := shouldStop args.toArgs exitSignal now w.totalPkts w.timing
      some { w with control := if goOn then .sleeping else .stopped, timing }
  | .wake now, .sleeping => some { w with control := w.afterWake now }
  | .loadPreviousN, .reporting now =>
      some { w with control := .reported now, previousN := w.totalPkts.toUInt64 }
  | .nextReport later, .reported now =>
      some { w with control := w.afterReport now, nextReportTime := later + 1000000000 }
  | .loadPacketDelta, .tuning now =>
      some { w with
        control := .measured (w.packetDelta args)
        nextTuningTime := now + 100000000 }
  | .loadPreviousTuningN, .measured packetDelta =>
      some { w with
        control := .adjusting packetDelta
        previousTuningN := w.totalPkts.toUInt64
        deltas := w.deltas ++ [packetDelta] }
  | .adjust, .adjusting packetDelta =>
      some { w with
        control := .loopHead
        spinDuration := tuneSpinDuration args.deltaThreashold packetDelta w.spinDuration }
  | _, _ => none

end SpinWorker

end RioClient
