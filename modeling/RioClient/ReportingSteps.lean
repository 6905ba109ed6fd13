import RioClient.ReportingCore

/-!
What the steps of the two threads do, and that the operations of one update,
taken together, are the update of the group's entry.
-/

namespace RioClient

inductive ReportingStep (c : Reporting) : ReportingEvent → Reporting → Prop
  | receive {update : GroupUpdate} : c.updating = none →
      ReportingStep c (.receive update) { c with
        groupStats := c.groupStats.insertIfNew update.1.sinAddr {}
        updating := some (update, .compareEqual)
        received := c.received ++ [update] }
  | update {update : GroupUpdate} {control : UpdateControl} :
      c.updating = some (update, control) → ReportingStep c .update (c.runUpdate update control)
  | getTotals : c.reporting = .waiting →
      ReportingStep c .getTotals
        { c with reporting := Reporting.atGroup {} (Reporting.beginGroup c.groupStats) }
  | load {group counter partialStats} : c.reporting = .loading group counter partialStats →
      ReportingStep c .load { c with
        reporting := Reporting.afterLoad group
          (partialStats.addLoaded (counter.load (groupEntry c.groupStats group)) counter)
          counter.next }
  | advance {group partialStats} : c.reporting = .advancing group partialStats →
      ReportingStep c .advance { c with
        reporting := Reporting.atGroup partialStats (Reporting.nextGroup c.groupStats group) }
  | report {statsNow} : c.reporting = .finished statsNow →
      ReportingStep c .report { c with
        reporting := .waiting
        prevStats := statsNow
        rows := c.rows ++ [reportRow c.prevStats statsNow] }

theorem Reporting.step_cases {c next : Reporting} {event : ReportingEvent}
    (taken : c.step event = some next) : ReportingStep c event next := by
  cases event with
  | receive update =>
      cases here : c.updating with
      | none =>
          simp only [step, here] at taken
          cases taken
          exact .receive here
      | some _ => simp [step, here] at taken
  | update =>
      cases here : c.updating with
      | none => simp [step, here] at taken
      | some updating =>
          obtain ⟨update, control⟩ := updating
          simp only [step, here] at taken
          cases taken
          exact .update here
  | getTotals =>
      cases here : c.reporting with
      | waiting =>
          simp only [step, here] at taken
          cases taken
          exact .getTotals here
      | _ => simp [step, here] at taken
  | load =>
      cases here : c.reporting with
      | loading group counter partialStats =>
          simp only [step, here] at taken
          cases taken
          exact .load here
      | _ => simp [step, here] at taken
  | advance =>
      cases here : c.reporting with
      | advancing group partialStats =>
          simp only [step, here] at taken
          cases taken
          exact .advance here
      | _ => simp [step, here] at taken
  | report =>
      cases here : c.reporting with
      | finished statsNow =>
          simp only [step, here] at taken
          cases taken
          exact .report here
      | _ => simp [step, here] at taken

def UpdateControl.finish (packet : Packet) (gmc : McGroupStats) (control : UpdateControl) :
    McGroupStats :=
  let counted (gmc : McGroupStats) : McGroupStats :=
    { gmc with packets := gmc.packets + 1, bytes := gmc.bytes + packet.pktSize }
  let stored (gmc : McGroupStats) : McGroupStats :=
    { gmc with expectedSequence := packet.header.seq + 1, sequence := packet.header.seq }
  let outOfOrder (gmc : McGroupStats) : McGroupStats :=
    { gmc with outOfOrder := gmc.outOfOrder + 1 }
  let gap := packet.header.seq - gmc.expectedSequence
  match control with
  | .compareEqual => gmc.update packet.pktSize packet.header
  | .advanceExpected => counted { gmc with
      expectedSequence := gmc.expectedSequence + 1
      sequence := packet.header.seq }
  | .compareGreater =>
      if packet.header.seq > gmc.expectedSequence then
        counted (stored { gmc with
          rxDropped := if gmc.packets ≠ 0 then gmc.rxDropped + gap else gmc.rxDropped })
      else
        counted (outOfOrder { gmc with
          rxDropped := if gmc.rxDropped > 0 then gmc.rxDropped - 1 else gmc.rxDropped })
  | .loadPackets => counted (stored { gmc with
      rxDropped := if gmc.packets ≠ 0 then gmc.rxDropped + gap else gmc.rxDropped })
  | .loadExpected => counted (stored { gmc with rxDropped := gmc.rxDropped + gap })
  | .addDropped gap => counted (stored { gmc with rxDropped := gmc.rxDropped + gap })
  | .storeExpected => counted (stored gmc)
  | .storeSequence => counted { gmc with sequence := packet.header.seq }
  | .loadDropped => counted (outOfOrder { gmc with
      rxDropped := if gmc.rxDropped > 0 then gmc.rxDropped - 1 else gmc.rxDropped })
  | .takeDropped => counted (outOfOrder { gmc with rxDropped := gmc.rxDropped - 1 })
  | .countOutOfOrder => counted (outOfOrder gmc)
  | .countPacket => counted gmc
  | .addBytes => { gmc with bytes := gmc.bytes + packet.pktSize }

theorem UpdateControl.finish_run (packet : Packet) (gmc : McGroupStats)
    (control : UpdateControl) :
    (control.run packet gmc).2.elim (control.run packet gmc).1
      (fun next => next.finish packet (control.run packet gmc).1) = control.finish packet gmc := by
  cases control with
  | compareEqual =>
      by_cases same : packet.header.seq = gmc.expectedSequence
      · simp [run, finish, McGroupStats.update, same]
      · by_cases ahead : packet.header.seq > gmc.expectedSequence
        · simp [run, finish, McGroupStats.update, same, ahead]
        · simp [run, finish, McGroupStats.update, same, ahead]
  | compareGreater =>
      by_cases ahead : packet.header.seq > gmc.expectedSequence
      · simp [run, finish, ahead]
      · simp [run, finish, ahead]
  | loadPackets =>
      by_cases later : gmc.packets ≠ 0
      · simp [run, finish, later]
      · simp [run, finish, later]
  | loadDropped =>
      by_cases dropped : gmc.rxDropped > 0
      · simp [run, finish, dropped]
      · simp [run, finish, dropped]
  | _ => rfl

namespace Reporting

def settled (c : Reporting) (group : UInt32) : McGroupStats :=
  match c.updating with
  | some (update, control) =>
      if update.1.sinAddr = group then control.finish update.2 (groupEntry c.groupStats group)
      else groupEntry c.groupStats group
  | none => groupEntry c.groupStats group

theorem groupEntry_insertIfNew (stats : McGroupStatsMap) (key group : UInt32) :
    groupEntry (stats.insertIfNew key {}) group = groupEntry stats group := by
  rw [groupEntry, groupEntry, Std.TreeMap.getElem?_insertIfNew]
  split
  · rename_i inserted
    rw [Std.LawfulEqCmp.eq_of_compare inserted.1] at inserted
    simp [Std.TreeMap.getElem?_eq_none inserted.2]
  · rfl

theorem settled_runUpdate {c : Reporting} {update : GroupUpdate} {control : UpdateControl}
    (here : c.updating = some (update, control)) (group : UInt32) :
    (c.runUpdate update control).settled group = c.settled group := by
  by_cases own : update.1.sinAddr = group
  · subst own
    have finished := control.finish_run update.2 (groupEntry c.groupStats update.1.sinAddr)
    have written : groupEntry (c.runUpdate update control).groupStats update.1.sinAddr =
        (control.run update.2 (groupEntry c.groupStats update.1.sinAddr)).1 := by
      simp [groupEntry]
    rw [settled, settled, here, written]
    simp only [runUpdate_updating, ↓reduceIte]
    rw [← finished]
    cases (control.run update.2 (groupEntry c.groupStats update.1.sinAddr)).2 with
    | none => rfl
    | some next => simp
  · have kept : groupEntry (c.runUpdate update control).groupStats group =
        groupEntry c.groupStats group := by
      simp [groupEntry, Std.TreeMap.getElem?_insert, own]
    rw [settled, settled, here, kept]
    simp only [runUpdate_updating, own, ↓reduceIte]
    cases (control.run update.2 (groupEntry c.groupStats update.1.sinAddr)).2 with
    | none => rfl
    | some next => simp [own]

theorem settled_step {stats : McGroupStatsMap} {c next : Reporting} {event : ReportingEvent}
    (settled : ∀ group, c.settled group = groupEntry (receiveAll stats c.received) group)
    (taken : c.step event = some next) (group : UInt32) :
    next.settled group = groupEntry (receiveAll stats next.received) group := by
  cases step_cases taken with
  | @receive update idle =>
      have before := settled group
      rw [Reporting.settled, idle] at before
      rw [receiveAll_snoc, Reporting.settled]
      simp only [groupEntry_insertIfNew, UpdateControl.finish, before]
      split
      · rename_i own
        rw [← own, groupEntry_update]
      · rename_i other
        rw [groupEntry_update_of_ne other]
  | @update update control here =>
      rw [settled_runUpdate here]
      exact settled group
  | _ => exact settled group

/-- Between two updates every group has the entry of the packets received so far. -/
theorem settled_receiveAll {groups : List Ipv4Addr} {events : List ReportingEvent} {c : Reporting}
    (reached : PartialRun.run step (start groups) events = some c) (group : UInt32) :
    c.settled group = groupEntry (receiveAll (initGroupStats groups) c.received) group := by
  have all := @PartialRun.run_invariant _ _ _
    (fun c => ∀ group, c.settled group =
      groupEntry (receiveAll (initGroupStats groups) c.received) group)
    (fun _ _ _ settled taken => settled_step settled taken) _ _ _ (fun _ => rfl) reached
  exact all group

end Reporting

end RioClient
