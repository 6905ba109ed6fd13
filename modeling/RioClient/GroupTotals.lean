import RioClient.GroupStats
import RioClient.KeyedTotals

/-!
The groups side by side. An update touches the entry of its own group only, so
each entry follows its own packets, and the totals over all groups count every update.
-/

namespace RioClient

open KeyedTotals

structure TotalStats where
  totalPackets : UInt64 := 0
  totalBytes : UInt64 := 0
  totalOutOfOrder : UInt64 := 0
  totalDrops : UInt64 := 0
deriving DecidableEq, Repr

def TotalStats.add (partialStats : TotalStats) (value : McGroupStats) : TotalStats where
  totalPackets := partialStats.totalPackets + value.packets
  totalBytes := partialStats.totalBytes + value.bytes
  totalOutOfOrder := partialStats.totalOutOfOrder + value.outOfOrder
  totalDrops := partialStats.totalDrops + value.rxDropped

def getMcTotals (stats : McGroupStatsMap) : TotalStats :=
  stats.foldl (fun partialStats _ value => partialStats.add value) {}

abbrev GroupUpdate := SockaddrInet × Packet

def receiveAll (stats : McGroupStatsMap) (updates : List GroupUpdate) : McGroupStatsMap :=
  updates.foldl (fun stats update =>
    groupStatsUpdate stats update.1 update.2.pktSize update.2.header) stats

def ownUpdates (group : UInt32) (updates : List GroupUpdate) : List GroupUpdate :=
  updates.filter fun update => update.1.sinAddr = group

def ownPackets (group : UInt32) (updates : List GroupUpdate) : List Packet :=
  (ownUpdates group updates).map Prod.snd

variable {stats : McGroupStatsMap} {updates : List GroupUpdate}

theorem receiveAll_snoc (stats : McGroupStatsMap) (updates : List GroupUpdate)
    (update : GroupUpdate) :
    receiveAll stats (updates ++ [update]) =
      groupStatsUpdate (receiveAll stats updates) update.1 update.2.pktSize update.2.header := by
  simp [receiveAll, List.foldl_append]

theorem ownPackets_snoc (group : UInt32) (updates : List GroupUpdate) (update : GroupUpdate) :
    ownPackets group (updates ++ [update]) =
      if update.1.sinAddr = group then ownPackets group updates ++ [update.2]
      else ownPackets group updates := by
  by_cases own : update.1.sinAddr = group <;> simp [ownPackets, ownUpdates, own]

theorem groupEntry_update_of_ne {addr : SockaddrInet} {group : UInt32}
    (other : addr.sinAddr ≠ group) (pktSize : UInt64) (pHdr : ProtocolHeader) :
    groupEntry (groupStatsUpdate stats addr pktSize pHdr) group = groupEntry stats group := by
  simp [groupEntry, groupStatsUpdate, Std.TreeMap.getElem?_alter, other]

theorem mem_groupStatsUpdate (addr : SockaddrInet) (pktSize : UInt64) (pHdr : ProtocolHeader)
    (group : UInt32) :
    group ∈ groupStatsUpdate stats addr pktSize pHdr ↔ addr.sinAddr = group ∨ group ∈ stats := by
  rw [groupStatsUpdate, Std.TreeMap.mem_alter]
  by_cases own : addr.sinAddr = group <;> simp [own]

/-- Frame and effect together: every entry is that of its own packets alone. -/
theorem groupEntry_receiveAll (zeroed : ∀ group, groupEntry stats group = {}) (group : UInt32)
    (updates : List GroupUpdate) :
    groupEntry (receiveAll stats updates) group =
      McGroupStats.afterStream (ownPackets group updates) := by
  induction updates using List.reverseRecOn with
  | nil => exact zeroed group
  | append_singleton updates update ih =>
      rw [receiveAll_snoc, ownPackets_snoc]
      split
      · rename_i own
        rw [← own, groupEntry_update, own, ih, McGroupStats.afterStream_snoc]
      · rename_i other
        rw [groupEntry_update_of_ne other, ih]

theorem mem_receiveAll (group : UInt32) (updates : List GroupUpdate) :
    group ∈ receiveAll stats updates ↔
      group ∈ stats ∨ ∃ update ∈ updates, update.1.sinAddr = group := by
  induction updates using List.reverseRecOn with
  | nil => simp [receiveAll]
  | append_singleton updates update ih =>
      rw [receiveAll_snoc, mem_groupStatsUpdate, ih]
      simp only [List.mem_append, List.mem_singleton]
      constructor
      · rintro (own | configured | ⟨earlier, member, own⟩)
        · exact .inr ⟨update, .inr rfl, own⟩
        · exact .inl configured
        · exact .inr ⟨earlier, .inl member, own⟩
      · rintro (configured | ⟨earlier, member | rfl, own⟩)
        · exact .inr (.inl configured)
        · exact .inr (.inr ⟨earlier, member, own⟩)
        · exact .inl own

theorem initGroupStats_snoc (groups : List Ipv4Addr) (mcAddr : Ipv4Addr) :
    initGroupStats (groups ++ [mcAddr]) =
      (initGroupStats groups).insertIfNew mcAddr.ipNetOrder {} := by
  simp [initGroupStats, List.foldl_append]

theorem groupEntry_initGroupStats (groups : List Ipv4Addr) (group : UInt32) :
    groupEntry (initGroupStats groups) group = {} := by
  induction groups using List.reverseRecOn with
  | nil => rfl
  | append_singleton groups mcAddr ih =>
      rw [initGroupStats_snoc, groupEntry, Std.TreeMap.getElem?_insertIfNew]
      split
      · rfl
      · exact ih

theorem mem_initGroupStats (groups : List Ipv4Addr) (group : UInt32) :
    group ∈ initGroupStats groups ↔ ∃ mcAddr ∈ groups, mcAddr.ipNetOrder = group := by
  induction groups using List.reverseRecOn with
  | nil => simp [initGroupStats]
  | append_singleton groups mcAddr ih =>
      rw [initGroupStats_snoc, Std.TreeMap.mem_insertIfNew, ih]
      simp [or_comm]

theorem total_initGroupStats {weight : UInt32 → McGroupStats → Nat}
    (unused : ∀ group, weight group {} = 0) (groups : List Ipv4Addr) :
    total weight (initGroupStats groups) = 0 := by
  induction groups using List.reverseRecOn with
  | nil => rfl
  | append_singleton groups mcAddr ih =>
      rw [initGroupStats_snoc, total_insertIfNew _ _ (unused _), ih]

theorem groupStatsUpdate_eq_modify (addr : SockaddrInet) (pktSize : UInt64)
    (pHdr : ProtocolHeader) :
    groupStatsUpdate stats addr pktSize pHdr =
      modify stats addr.sinAddr {} fun gmc => gmc.update pktSize pHdr := rfl

theorem total_groupStatsUpdate {weight : UInt32 → McGroupStats → Nat} {amount word : Nat}
    {addr : SockaddrInet} {pktSize : UInt64} {pHdr : ProtocolHeader}
    (unused : ∀ group, weight group {} = 0)
    (added : ∀ gmc : McGroupStats, weight addr.sinAddr (gmc.update pktSize pHdr) ≡
      weight addr.sinAddr gmc + amount [MOD word]) :
    total weight (groupStatsUpdate stats addr pktSize pHdr) ≡
      total weight stats + amount [MOD word] := by
  rw [groupStatsUpdate_eq_modify]
  exact total_modify_modEq (unused _) (added _)

/-- A counter that every update raises by its own amount: the total over the
groups is the sum of all amounts. -/
theorem total_receiveAll {weight : UInt32 → McGroupStats → Nat} {amount : GroupUpdate → Nat}
    {word : Nat} (unused : ∀ group, weight group {} = 0)
    (added : ∀ (update : GroupUpdate) (gmc : McGroupStats),
      weight update.1.sinAddr (gmc.update update.2.pktSize update.2.header) ≡
        weight update.1.sinAddr gmc + amount update [MOD word])
    (groups : List Ipv4Addr) (updates : List GroupUpdate) :
    total weight (receiveAll (initGroupStats groups) updates) ≡
      (updates.map amount).sum [MOD word] := by
  induction updates using List.reverseRecOn with
  | nil =>
      rw [receiveAll, List.foldl_nil, total_initGroupStats unused]
      rfl
  | append_singleton updates update ih =>
      rw [receiveAll_snoc, List.map_append, List.sum_append, List.map_singleton,
        List.sum_singleton]
      exact (total_groupStatsUpdate unused (added update)).trans (ih.add_right _)

theorem toNat_foldl_add {Entry : Type} (counter : Entry → UInt64) (entries : List Entry)
    (first : UInt64) :
    (entries.foldl (fun sum entry => sum + counter entry) first).toNat =
      (first.toNat + (entries.map fun entry => (counter entry).toNat).sum) % 2 ^ 64 := by
  induction entries generalizing first with
  | nil => simp [Nat.mod_eq_of_lt first.toNat_lt]
  | cons entry entries ih =>
      rw [List.foldl_cons, ih, UInt64.toNat_add, List.map_cons, List.sum_cons, Nat.mod_add_mod,
        Nat.add_assoc]

theorem getMcTotals_component {component : TotalStats → UInt64} {counter : McGroupStats → UInt64}
    (zero : component {} = 0)
    (added : ∀ partialStats value,
      component (partialStats.add value) = component partialStats + counter value)
    (stats : McGroupStatsMap) :
    (component (getMcTotals stats)).toNat =
      total (fun _ value => (counter value).toNat) stats % 2 ^ 64 := by
  rw [getMcTotals, Std.TreeMap.foldl_eq_foldl_toList]
  have projected := @List.foldl_hom _ _ _ component
    (fun partialStats entry => partialStats.add entry.2)
    (fun sum entry => sum + counter entry.2) stats.toList {} (fun _ _ => (added _ _).symm)
  rw [← projected, zero, toNat_foldl_add, UInt64.toNat_zero, Nat.zero_add]
  rfl

theorem ownPackets_ownUpdates (group : UInt32) (updates : List GroupUpdate) :
    ownPackets group (ownUpdates group updates) = ownPackets group updates := by
  simp [ownPackets, ownUpdates, List.filter_filter]

theorem ownUpdates_ne_nil_iff (group : UInt32) (updates : List GroupUpdate) :
    ownUpdates group updates ≠ [] ↔ ∃ update ∈ updates, update.1.sinAddr = group := by
  simp [ownUpdates]

theorem getElem?_eq_groupEntry (stats : McGroupStatsMap) (group : UInt32) :
    stats[group]? = if group ∈ stats then some (groupEntry stats group) else none := by
  cases present : stats[group]? with
  | none =>
      have absent : group ∉ stats := by simp [Std.TreeMap.mem_iff_isSome_getElem?, present]
      rw [if_neg absent]
  | some gmc =>
      have member : group ∈ stats := by simp [Std.TreeMap.mem_iff_isSome_getElem?, present]
      rw [if_pos member, groupEntry, present, Option.getD_some]

theorem getElem?_receiveAll (groups : List Ipv4Addr) (updates : List GroupUpdate)
    (group : UInt32) :
    (receiveAll (initGroupStats groups) updates)[group]? =
      if (∃ mcAddr ∈ groups, mcAddr.ipNetOrder = group) ∨ ownUpdates group updates ≠ [] then
        some (McGroupStats.afterStream (ownPackets group updates))
      else none := by
  rw [getElem?_eq_groupEntry, groupEntry_receiveAll (groupEntry_initGroupStats groups)]
  simp only [mem_receiveAll, mem_initGroupStats, ownUpdates_ne_nil_iff]

theorem getMcTotals_totalPackets (groups : List Ipv4Addr) (updates : List GroupUpdate) :
    (getMcTotals (receiveAll (initGroupStats groups) updates)).totalPackets.toNat =
      updates.length % 2 ^ 64 := by
  rw [@getMcTotals_component TotalStats.totalPackets McGroupStats.packets rfl (fun _ _ => rfl)]
  have counted := @total_receiveAll (fun _ gmc => gmc.packets.toNat) (fun _ => 1) (2 ^ 64)
    (fun _ => rfl) (fun update gmc => ?_) groups updates
  · simpa [Nat.ModEq] using counted
  · simp only [McGroupStats.update, UInt64.toNat_add]
    split <;> (try split) <;> exact Nat.mod_modEq _ _

theorem getMcTotals_totalBytes (groups : List Ipv4Addr) (updates : List GroupUpdate) :
    (getMcTotals (receiveAll (initGroupStats groups) updates)).totalBytes.toNat =
      (updates.map fun update => update.2.pktSize.toNat).sum % 2 ^ 64 := by
  rw [@getMcTotals_component TotalStats.totalBytes McGroupStats.bytes rfl (fun _ _ => rfl)]
  refine @total_receiveAll (fun _ gmc => gmc.bytes.toNat)
    (fun update => update.2.pktSize.toNat) (2 ^ 64) (fun _ => rfl) (fun update gmc => ?_)
    groups updates
  simp only [McGroupStats.update, UInt64.toNat_add]
  split <;> (try split) <;> exact Nat.mod_modEq _ _

theorem getMcTotals_congr {first second : McGroupStatsMap}
    (same : ∀ group : UInt32, first[group]? = second[group]?) :
    getMcTotals first = getMcTotals second := by
  rw [getMcTotals, getMcTotals, (Std.TreeMap.Equiv.of_forall_constGet?_eq same).foldl_eq]

/-- Every group's entry is that of its own updates alone, a group has an entry
when it was configured or updated, and the totals are sums over the entries
which count all updates and bytes, however the updates of the groups interleave. -/
theorem groupStatsUpdate_isolation (groups : List Ipv4Addr) (updates : List GroupUpdate) :
    let stats := receiveAll (initGroupStats groups) updates
    let totals := getMcTotals stats
    (∀ group, groupEntry stats group =
      groupEntry (receiveAll ∅ (ownUpdates group updates)) group) ∧
    (∀ group, group ∈ stats ↔
      (∃ mcAddr ∈ groups, mcAddr.ipNetOrder = group) ∨ ownUpdates group updates ≠ []) ∧
    (totals.totalPackets.toNat = total (fun _ gmc => gmc.packets.toNat) stats % 2 ^ 64 ∧
      totals.totalBytes.toNat = total (fun _ gmc => gmc.bytes.toNat) stats % 2 ^ 64 ∧
      totals.totalOutOfOrder.toNat = total (fun _ gmc => gmc.outOfOrder.toNat) stats % 2 ^ 64 ∧
      totals.totalDrops.toNat = total (fun _ gmc => gmc.rxDropped.toNat) stats % 2 ^ 64) ∧
    totals.totalPackets.toNat = updates.length % 2 ^ 64 ∧
    totals.totalBytes.toNat =
      (updates.map fun update => update.2.pktSize.toNat).sum % 2 ^ 64 ∧
    ∀ interleaved : List GroupUpdate,
      (∀ group, ownUpdates group interleaved = ownUpdates group updates) →
      getMcTotals (receiveAll (initGroupStats groups) interleaved) = totals := by
  intro stats totals
  refine ⟨?_, ?_, ⟨?_, ?_, ?_, ?_⟩, getMcTotals_totalPackets groups updates,
    getMcTotals_totalBytes groups updates, ?_⟩
  · intro group
    rw [groupEntry_receiveAll (groupEntry_initGroupStats groups),
      groupEntry_receiveAll (fun _ => rfl), ownPackets_ownUpdates]
  · intro group
    rw [mem_receiveAll, mem_initGroupStats, ownUpdates_ne_nil_iff]
  · exact @getMcTotals_component TotalStats.totalPackets McGroupStats.packets rfl
      (fun _ _ => rfl) stats
  · exact @getMcTotals_component TotalStats.totalBytes McGroupStats.bytes rfl
      (fun _ _ => rfl) stats
  · exact @getMcTotals_component TotalStats.totalOutOfOrder McGroupStats.outOfOrder rfl
      (fun _ _ => rfl) stats
  · exact @getMcTotals_component TotalStats.totalDrops McGroupStats.rxDropped rfl
      (fun _ _ => rfl) stats
  · intro interleaved same
    apply getMcTotals_congr
    intro group
    rw [getElem?_receiveAll, getElem?_receiveAll, ownPackets, ownPackets, same]

end RioClient
