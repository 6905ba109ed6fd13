import RioClient.GroupTotals
import RioClient.PartialRun

/-!
The receive thread in `GroupStatsUpdate` and the report thread in `GetMcTotals`,
which share the statistics of the groups without a lock. One event for every
atomic operation of either, which may follow each other in any order.
-/

namespace RioClient

/-- The next atomic operation of a `GroupStatsUpdate`, once it has its entry. -/
inductive UpdateControl
  | compareEqual
  | advanceExpected
  | compareGreater
  | loadPackets
  | loadExpected
  | addDropped (gap : UInt64)
  | storeExpected
  | storeSequence
  | loadDropped
  | takeDropped
  | countOutOfOrder
  | countPacket
  | addBytes
deriving DecidableEq, Repr

def UpdateControl.run (packet : Packet) (gmc : McGroupStats) :
    UpdateControl → McGroupStats × Option UpdateControl
  | .compareEqual =>
      (gmc, some (if packet.header.seq = gmc.expectedSequence then .advanceExpected
        else .compareGreater))
  | .advanceExpected =>
      ({ gmc with expectedSequence := gmc.expectedSequence + 1 }, some .storeSequence)
  | .compareGreater =>
      (gmc, some (if packet.header.seq > gmc.expectedSequence then .loadPackets
        else .loadDropped))
  | .loadPackets => (gmc, some (if gmc.packets ≠ 0 then .loadExpected else .storeExpected))
  | .loadExpected => (gmc, some (.addDropped (packet.header.seq - gmc.expectedSequence)))
  | .addDropped gap => ({ gmc with rxDropped := gmc.rxDropped + gap }, some .storeExpected)
  | .storeExpected =>
      ({ gmc with expectedSequence := packet.header.seq + 1 }, some .storeSequence)
  | .storeSequence => ({ gmc with sequence := packet.header.seq }, some .countPacket)
  | .loadDropped => (gmc, some (if gmc.rxDropped > 0 then .takeDropped else .countOutOfOrder))
  | .takeDropped => ({ gmc with rxDropped := gmc.rxDropped - 1 }, some .countOutOfOrder)
  | .countOutOfOrder => ({ gmc with outOfOrder := gmc.outOfOrder + 1 }, some .countPacket)
  | .countPacket => ({ gmc with packets := gmc.packets + 1 }, some .addBytes)
  | .addBytes => ({ gmc with bytes := gmc.bytes + packet.pktSize }, none)

inductive Counter
  | packets
  | bytes
  | outOfOrder
  | drops
deriving DecidableEq, Repr

namespace Counter

def next : Counter → Option Counter
  | .packets => some .bytes
  | .bytes => some .outOfOrder
  | .outOfOrder => some .drops
  | .drops => none

def load (value : McGroupStats) : Counter → UInt64
  | .packets => value.packets
  | .bytes => value.bytes
  | .outOfOrder => value.outOfOrder
  | .drops => value.rxDropped

def ofTotals (stats : TotalStats) : Counter → UInt64
  | .packets => stats.totalPackets
  | .bytes => stats.totalBytes
  | .outOfOrder => stats.totalOutOfOrder
  | .drops => stats.totalDrops

end Counter

def TotalStats.addLoaded (partialStats : TotalStats) (value : UInt64) : Counter → TotalStats
  | .packets => { partialStats with totalPackets := partialStats.totalPackets + value }
  | .bytes => { partialStats with totalBytes := partialStats.totalBytes + value }
  | .outOfOrder => { partialStats with totalOutOfOrder := partialStats.totalOutOfOrder + value }
  | .drops => { partialStats with totalDrops := partialStats.totalDrops + value }

/-- Where `GetMcTotals` stands: at one counter of a group, or at the increment of
its iterator, which looks for the next group in the map as it is by then. -/
inductive ReportControl
  | waiting
  | loading (group : UInt32) (counter : Counter) (partialStats : TotalStats)
  | advancing (group : UInt32) (partialStats : TotalStats)
  | finished (partialStats : TotalStats)
deriving DecidableEq, Repr

structure ReportRow where
  prevStats : TotalStats
  statsNow : TotalStats
  rxDeltaPackets : UInt64
  rxDeltaBytes : UInt64
  rxDeltaDropped : UInt64
  rxDeltaOoo : UInt64
deriving DecidableEq, Repr

/-- `std::min`. -/
def least (a b : UInt64) : UInt64 := if b < a then b else a

def reportRow (prevStats statsNow : TotalStats) : ReportRow where
  prevStats := prevStats
  statsNow := statsNow
  rxDeltaPackets := statsNow.totalPackets - prevStats.totalPackets
  rxDeltaBytes := statsNow.totalBytes - prevStats.totalBytes
  rxDeltaDropped := statsNow.totalDrops - least prevStats.totalDrops statsNow.totalDrops
  rxDeltaOoo := statsNow.totalOutOfOrder - prevStats.totalOutOfOrder

def ReportRow.delta (row : ReportRow) : Counter → UInt64
  | .packets => row.rxDeltaPackets
  | .bytes => row.rxDeltaBytes
  | .outOfOrder => row.rxDeltaOoo
  | .drops => row.rxDeltaDropped

inductive ReportingEvent
  | receive (update : GroupUpdate)
  | update
  | getTotals
  | load
  | advance
  | report
deriving DecidableEq, Repr

/-- The statistics and the two threads; `received` records the updates begun so far. -/
structure Reporting where
  groupStats : McGroupStatsMap
  updating : Option (GroupUpdate × UpdateControl) := none
  reporting : ReportControl := .waiting
  prevStats : TotalStats := {}
  received : List GroupUpdate := []
  rows : List ReportRow := []

namespace Reporting

def start (mcastGroupAddr : List Ipv4Addr) : Reporting where
  groupStats := initGroupStats mcastGroupAddr

def beginGroup (stats : McGroupStatsMap) : Option UInt32 := stats.keys.head?

def nextGroup (stats : McGroupStatsMap) (group : UInt32) : Option UInt32 :=
  stats.keys.find? fun key => decide (group < key)

def atGroup (partialStats : TotalStats) : Option UInt32 → ReportControl
  | some group => .loading group .packets partialStats
  | none => .finished partialStats

def afterLoad (group : UInt32) (partialStats : TotalStats) : Option Counter → ReportControl
  | some counter => .loading group counter partialStats
  | none => .advancing group partialStats

def runUpdate (update : GroupUpdate) (control : UpdateControl) (c : Reporting) : Reporting :=
  let (gmc, next) := control.run update.2 (groupEntry c.groupStats update.1.sinAddr)
  { c with
    groupStats := c.groupStats.insert update.1.sinAddr gmc
    updating := next.map fun control => (update, control) }

section
variable (update : GroupUpdate) (control : UpdateControl) (c : Reporting)

@[simp] theorem runUpdate_groupStats : (c.runUpdate update control).groupStats =
    c.groupStats.insert update.1.sinAddr
      (control.run update.2 (groupEntry c.groupStats update.1.sinAddr)).1 := rfl

@[simp] theorem runUpdate_updating : (c.runUpdate update control).updating =
    (control.run update.2 (groupEntry c.groupStats update.1.sinAddr)).2.map
      fun control => (update, control) := rfl

@[simp] theorem runUpdate_reporting :
    (c.runUpdate update control).reporting = c.reporting := rfl

@[simp] theorem runUpdate_prevStats :
    (c.runUpdate update control).prevStats = c.prevStats := rfl

@[simp] theorem runUpdate_received : (c.runUpdate update control).received = c.received := rfl

end

def step (c : Reporting) (event : ReportingEvent) : Option Reporting :=
  match event, c.updating, c.reporting with
  | .receive update, none, _ =>
      -- `m_GroupStats[mcGroup]` inserts a zeroed entry for a new group
      some { c with
        groupStats := c.groupStats.insertIfNew update.1.sinAddr {}
        updating := some (update, .compareEqual)
        received := c.received ++ [update] }
  | .update, some (update, control), _ => some (c.runUpdate update control)
  | .getTotals, _, .waiting => some { c with reporting := atGroup {} (beginGroup c.groupStats) }
  | .load, _, .loading group counter partialStats =>
      let value := counter.load (groupEntry c.groupStats group)
      some { c with
        reporting := afterLoad group (partialStats.addLoaded value counter) counter.next }
  | .advance, _, .advancing group partialStats =>
      some { c with reporting := atGroup partialStats (nextGroup c.groupStats group) }
  | .report, _, .finished statsNow =>
      some { c with
        reporting := .waiting
        prevStats := statsNow
        rows := c.rows ++ [reportRow c.prevStats statsNow] }
  | _, _, _ => none

end Reporting

end RioClient
