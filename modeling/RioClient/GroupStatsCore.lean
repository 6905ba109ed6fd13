import RioClient.SessionCore

/-! The consumer's bookkeeping for one received packet. -/

namespace RioClient

structure Packet where
  pktSize : UInt64
  header : ProtocolHeader
deriving DecidableEq, Repr

/-- The body of `RioConsumer::GroupStatsUpdate` on the group's entry. -/
def McGroupStats.update (gmc : McGroupStats) (pktSize : UInt64) (pHdr : ProtocolHeader) :
    McGroupStats :=
  let gmc :=
    if pHdr.seq = gmc.expectedSequence then
      { gmc with
        expectedSequence := gmc.expectedSequence + 1
        sequence := pHdr.seq }
    else if pHdr.seq > gmc.expectedSequence then
      -- a gap counts as drops unless this is the first packet of the group
      { gmc with
        rxDropped :=
          if gmc.packets ≠ 0 then gmc.rxDropped + (pHdr.seq - gmc.expectedSequence)
          else gmc.rxDropped
        expectedSequence := pHdr.seq + 1
        sequence := pHdr.seq }
    else
      { gmc with
        rxDropped := if gmc.rxDropped > 0 then gmc.rxDropped - 1 else gmc.rxDropped
        outOfOrder := gmc.outOfOrder + 1 }
  { gmc with packets := gmc.packets + 1, bytes := gmc.bytes + pktSize }

/-- `m_GroupStats[mcGroup]`, which is a zeroed entry for an unknown group. -/
def groupEntry (stats : McGroupStatsMap) (mcGroup : UInt32) : McGroupStats :=
  stats[mcGroup]?.getD {}

def groupStatsUpdate (stats : McGroupStatsMap) (addr : SockaddrInet) (pktSize : UInt64)
    (pHdr : ProtocolHeader) : McGroupStatsMap :=
  let mcGroup := addr.sinAddr
  stats.alter mcGroup fun entry => some ((entry.getD {}).update pktSize pHdr)

def receiveStream (stats : McGroupStatsMap) (addr : SockaddrInet) (stream : List Packet) :
    McGroupStatsMap :=
  stream.foldl (fun stats packet => groupStatsUpdate stats addr packet.pktSize packet.header) stats

end RioClient
