import Mathlib.Data.List.Perm.Basic

/-!
A network that may lose items and let those of different channels overtake each
other, but neither doubles an item nor changes the order within a channel.
-/

namespace OrderedNetwork

structure Network (Item : Type) where
  transmitted : List Item := []
  transit : List Item := []
  lost : List Item := []
  arrived : List Item := []

variable {Item Channel : Type}

namespace Network

def transmit (item : Item) (network : Network Item) : Network Item :=
  { network with
    transmitted := network.transmitted ++ [item]
    transit := network.transit ++ [item] }

def lose (position : Nat) (network : Network Item) : Option (Network Item) :=
  network.transit[position]?.map fun item =>
    { network with
      transit := network.transit.eraseIdx position
      lost := network.lost ++ [item] }

/-- The item at a position arrives; nothing of its channel may be in front of it. -/
def deliver [DecidableEq Channel] (channelOf : Item → Channel) (position : Nat)
    (network : Network Item) : Option (Item × Network Item) :=
  match network.transit[position]? with
  | none => none
  | some item =>
      if ∀ earlier ∈ network.transit.take position, channelOf earlier ≠ channelOf item then
        some (item, { network with
          transit := network.transit.eraseIdx position
          arrived := network.arrived ++ [item] })
      else none

end Network

inductive Step (channelOf : Item → Channel) (network : Network Item) : Network Item → Prop
  | transmit (item : Item) : Step channelOf network (network.transmit item)
  | lose {before item after} : network.transit = before ++ item :: after →
      Step channelOf network { network with
        transit := before ++ after
        lost := network.lost ++ [item] }
  | deliver {before item after} : network.transit = before ++ item :: after →
      (∀ earlier ∈ before, channelOf earlier ≠ channelOf item) →
      Step channelOf network { network with
        transit := before ++ after
        arrived := network.arrived ++ [item] }

variable {channelOf : Item → Channel} {network next : Network Item} {position : Nat} {item : Item}

theorem transit_split (found : network.transit[position]? = some item) :
    network.transit = network.transit.take position ++
      item :: network.transit.drop (position + 1) := by
  obtain ⟨inside, rfl⟩ := List.getElem?_eq_some_iff.mp found
  rw [← List.drop_eq_getElem_cons inside, List.take_append_drop]

theorem lose_step (taken : network.lose position = some next) : Step channelOf network next := by
  obtain ⟨item, found, rfl⟩ := Option.map_eq_some_iff.mp taken
  rw [List.eraseIdx_eq_take_drop_succ]
  exact .lose (transit_split found)

variable [DecidableEq Channel]

theorem deliver_step (taken : network.deliver channelOf position = some (item, next)) :
    Step channelOf network next ∧ next.arrived = network.arrived ++ [item] ∧
      next.transmitted = network.transmitted ∧ next.lost = network.lost ∧
      item ∈ network.transit := by
  simp only [Network.deliver] at taken
  split at taken
  · simp at taken
  · rename_i head found
    split at taken
    · rename_i front
      cases taken
      refine ⟨?_, rfl, rfl, rfl, List.mem_of_getElem? found⟩
      rw [List.eraseIdx_eq_take_drop_succ]
      exact .deliver (transit_split found) front
    · simp at taken

/-- Every item transmitted is lost, has arrived or is under way, and what has
arrived and what is under way of a channel is in the order of transmission. -/
structure Sound (channelOf : Item → Channel) (network : Network Item) : Prop where
  conserved : (network.lost ++ network.arrived ++ network.transit).Perm network.transmitted
  ordered : ∀ channel,
    ((network.arrived ++ network.transit).filter fun item => channelOf item = channel).Sublist
      (network.transmitted.filter fun item => channelOf item = channel)

theorem Sound.start (channelOf : Item → Channel) : Sound channelOf {} :=
  ⟨.refl _, fun _ => .refl _⟩

theorem Sound.step (sound : Sound channelOf network) (taken : Step channelOf network next) :
    Sound channelOf next := by
  obtain ⟨conserved, ordered⟩ := sound
  cases taken with
  | transmit item =>
      constructor
      · simp only [Network.transmit]
        rw [← List.append_assoc]
        exact conserved.append_right [item]
      · intro channel
        simp only [Network.transmit]
        rw [← List.append_assoc, List.filter_append (network.arrived ++ network.transit),
          List.filter_append network.transmitted]
        exact (ordered channel).append (.refl _)
  | @lose before item after split =>
      rw [split] at conserved ordered
      constructor
      · refine List.Perm.trans ?_ conserved
        have moved := (@List.perm_middle _ item (network.arrived ++ before) after).symm
        simp only [List.append_assoc, List.singleton_append] at moved ⊢
        exact moved.append_left network.lost
      · intro channel
        refine List.Sublist.trans ?_ (ordered channel)
        refine List.Sublist.filter _ (List.Sublist.append_left ?_ _)
        exact List.Sublist.append_left (List.sublist_cons_self item after) before
  | @deliver before item after split front =>
      rw [split] at conserved ordered
      constructor
      · refine List.Perm.trans ?_ conserved
        have moved := (@List.perm_middle _ item before after).symm
        simp only [List.append_assoc, List.singleton_append]
        exact (moved.append_left network.arrived).append_left network.lost
      · intro channel
        have before_after := ordered channel
        by_cases own : channelOf item = channel
        · have unmoved : before.filter (fun item => channelOf item = channel) = [] := by
            rw [List.filter_eq_nil_iff]
            intro earlier member
            simpa [own] using front earlier member
          simpa [List.filter_append, own, unmoved] using before_after
        · simpa [List.filter_append, own] using before_after

theorem Sound.increasing {number : Item → Nat} (sound : Sound channelOf network)
    (numbered : (network.transmitted.map number).Pairwise (· < ·)) (channel : Channel) :
    (((network.arrived ++ network.transit).filter fun item =>
      channelOf item = channel).map number).Pairwise (· < ·) :=
  (numbered.sublist (List.filter_sublist.map number)).sublist ((sound.ordered channel).map number)

/-- What was transmitted on a channel before an item that has been seen, and has
not been seen itself, is lost: it can no longer arrive. -/
theorem Sound.seen_or_lost {number : Item → Nat} (sound : Sound channelOf network)
    (numbered : (network.transmitted.map number).Pairwise (· < ·)) {seen waiting : List Item}
    (arrived : network.arrived = seen ++ waiting) {later : Item}
    (transmitted : item ∈ network.transmitted) (laterSeen : later ∈ seen)
    (sameChannel : channelOf item = channelOf later) (before : number item < number later) :
    item ∈ seen ∨ item ∈ network.lost := by
  have somewhere := sound.conserved.symm.subset transmitted
  rw [List.mem_append, List.mem_append, arrived, List.mem_append] at somewhere
  have behind (member : item ∈ waiting ++ network.transit) : False := by
    have increasing := sound.increasing numbered (channelOf later)
    rw [arrived, List.append_assoc, List.filter_append, List.map_append,
      List.pairwise_append] at increasing
    have order := increasing.2.2 (number later) (List.mem_map_of_mem
      (List.mem_filter.mpr ⟨laterSeen, by simp⟩)) (number item) (List.mem_map_of_mem
      (List.mem_filter.mpr ⟨member, by simp [sameChannel]⟩))
    omega
  rcases somewhere with (lost | seenAlready | waits) | underWay
  · exact .inr lost
  · exact .inl seenAlready
  · exact absurd (behind (List.mem_append_left _ waits)) id
  · exact absurd (behind (List.mem_append_right _ underWay)) id

theorem Sound.lost_nodup {number : Item → Nat} (sound : Sound channelOf network)
    (numbered : (network.transmitted.map number).Pairwise (· < ·)) :
    ((network.lost ++ network.arrived).map number).Nodup := by
  have distinct : (network.transmitted.map number).Nodup := numbered.imp Nat.ne_of_lt
  have spread := (sound.conserved.map number).nodup_iff.mpr distinct
  rw [List.map_append] at spread
  exact (List.nodup_append.mp spread).1

end OrderedNetwork
