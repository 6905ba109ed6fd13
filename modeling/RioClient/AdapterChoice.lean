import Mathlib.Data.List.Find
import Mathlib.Data.List.Nodup
import RioClient.AdapterCore
import RioClient.MulticastCheck

/-!
Which adapter the address found belongs to. The index is passed from one list to
the other in 8 bits, so it is the low byte that is looked up.
-/

namespace RioClient

structure Adapter where
  index : UInt32
  friendlyName : WText
  ipAddress : Text

namespace Adapter

def addresses (adapter : Adapter) : IpAdapterAddresses := ⟨adapter.index, adapter.friendlyName⟩

def info (adapter : Adapter) : IpAdapterInfo := ⟨adapter.index, adapter.ipAddress⟩

def answers (toBytes : WText → Except StdException Text) (nic : Text) (adapter : Adapter) : Bool :=
  if nicIsNumber nic then decide (Nat.toDigits 10 adapter.index.toNat = nic)
  else match toBytes adapter.friendlyName with
    | .ok name => decide (name = nic)
    | .error _ => false

end Adapter

open Adapter

structure AdapterApi.Describes (api : AdapterApi) (adapters : List Adapter) : Prop where
  addresses : api.getAdaptersAddresses = .filled (adapters.map Adapter.addresses)
  info : ∃ reported, api.getAdaptersInfo = some reported ∧ reported.Perm (adapters.map Adapter.info)
  unique : (adapters.map Adapter.index).Nodup

section
variable {api : AdapterApi} {adapters : List Adapter} {nic : Text}

theorem searchAdapter_found {toBytes : WText → Except StdException Text} {ifIndex : UInt8}
    (found : searchAdapter toBytes (nicIsNumber nic) nic (adapters.map Adapter.addresses) =
      .ok (some ifIndex)) :
    ∃ adapter, adapters.find? (answers toBytes nic) = some adapter ∧
      ifIndex = adapter.index.toUInt8 := by
  induction adapters with
  | nil => cases found
  | cons adapter next ih =>
      rw [List.map_cons, searchAdapter] at found
      obtain ⟨fName, named, rest⟩ := bind_eq_ok.mp found
      have answer : answers toBytes nic adapter = decide (fName = nic) := by
        unfold answers
        unfold adapterName at named
        split at named
        · rename_i numeric
          cases named
          rw [if_pos numeric]
          rfl
        · rename_i numeric
          have name : toBytes adapter.friendlyName = .ok fName := named
          rw [if_neg numeric, name]
      by_cases same : fName = nic
      · rw [if_pos same] at rest
        cases rest
        refine ⟨adapter, ?_, rfl⟩
        rw [List.find?_cons_of_pos (by simpa [answer] using same)]
      · rw [if_neg same] at rest
        obtain ⟨first, answered, index⟩ := ih rest
        refine ⟨first, ?_, index⟩
        rw [List.find?_cons_of_neg (by simpa [answer] using same), answered]

theorem locateAdapterWithIfName_found (describes : api.Describes adapters) {ifIndex : UInt8}
    (located : locateAdapterWithIfName api nic = .ok ifIndex) :
    ∃ adapter, adapters.find? (answers api.toBytes nic) = some adapter ∧
      ifIndex = adapter.index.toUInt8 := by
  simp only [locateAdapterWithIfName, describes.addresses] at located
  obtain ⟨found, searched, rest⟩ := bind_eq_ok.mp located
  cases found with
  | none => cases rest
  | some index =>
      cases rest
      exact searchAdapter_found searched

theorem locateAdapterByIndex_described (describes : api.Describes adapters) (index : Int32)
    {reported : List IpAdapterInfo} (same : reported.Perm (adapters.map Adapter.info)) :
    locateAdapterByIndex index reported =
      (adapters.find? fun adapter => adapter.index = index.toUInt32).map Adapter.info := by
  have unique : (reported.map IpAdapterInfo.index).Nodup := by
    have listed := (same.map IpAdapterInfo.index).nodup_iff
    rw [listed, List.map_map]
    exact describes.unique
  have atMostOne :
      {adapter ∈ reported | decide (adapter.index = index.toUInt32) = true}.Subsingleton := by
    rintro first ⟨firstIn, firstIndex⟩ second ⟨secondIn, secondIndex⟩
    apply List.inj_on_of_nodup_map unique firstIn secondIn
    rw [of_decide_eq_true firstIndex, of_decide_eq_true secondIndex]
  rw [locateAdapterByIndex, List.find?_eq_find?_of_perm same atMostOne, List.find?_map]
  rfl

/-- The address that the lookup ends with, when the index located is `number`. -/
theorem getInterfaceIpAddress_described (describes : api.Describes adapters) {number : Nat}
    (small : number < 256) :
    getInterfaceIpAddress api (Nat.toDigits 10 number) =
      .ok ((adapters.find? fun adapter => adapter.index.toNat = number).elim
        "0.0.0.0".toList Adapter.ipAddress) := by
  obtain ⟨reported, given, same⟩ := describes.info
  have read : stoi (Nat.toDigits 10 number) = .ok (Int32.ofNat number) :=
    stoi_toDigits (Nat.lt_trans small (by decide))
  have index : (Int32.ofNat number).toUInt32.toNat = number := by
    have word : (Int32.ofNat number).toUInt32 = UInt32.ofNat number := rfl
    rw [word, UInt32.toNat_ofNat_of_lt' (Nat.lt_trans small (by decide))]
  have compared : (fun adapter : Adapter =>
      decide (adapter.index = (Int32.ofNat number).toUInt32)) =
        fun adapter => decide (adapter.index.toNat = number) := by
    funext adapter
    rw [decide_eq_decide, ← UInt32.toNat_inj, index]
  simp only [getInterfaceIpAddress, given, read]
  rw [locateAdapterByIndex_described describes _ same, compared]
  cases adapters.find? fun adapter => decide (adapter.index.toNat = number) <;> rfl

/-- Eight bits of the index lead to the address of the adapter: they are all of
it, or lead to another adapter with that address, or to the answer for none. -/
def KeepsAddress (adapters : List Adapter) (adapter : Adapter) : Prop :=
  adapter.index.toNat < 256 ∨
    (∃ other ∈ adapters, other.index.toNat = adapter.index.toNat % 256 ∧
      other.ipAddress = adapter.ipAddress) ∨
    ((∀ other ∈ adapters, other.index.toNat ≠ adapter.index.toNat % 256) ∧
      adapter.ipAddress = "0.0.0.0".toList)

theorem same_of_index (describes : api.Describes adapters) {first second : Adapter}
    (firstIn : first ∈ adapters) (secondIn : second ∈ adapters)
    (same : first.index.toNat = second.index.toNat) : first = second :=
  List.inj_on_of_nodup_map describes.unique firstIn secondIn (UInt32.toNat_inj.mp same)

theorem lowByte_address_iff (describes : api.Describes adapters) {adapter : Adapter}
    (member : adapter ∈ adapters) :
    (adapters.find? fun other => other.index.toNat = adapter.index.toNat % 256).elim
        "0.0.0.0".toList Adapter.ipAddress = adapter.ipAddress ↔ KeepsAddress adapters adapter := by
  cases found : adapters.find? fun other => other.index.toNat = adapter.index.toNat % 256 with
  | none =>
      have absent : ∀ other ∈ adapters, other.index.toNat ≠ adapter.index.toNat % 256 := by
        intro other otherIn same
        exact List.find?_eq_none.mp found other otherIn (decide_eq_true same)
      constructor
      · intro address
        exact .inr (.inr ⟨absent, address.symm⟩)
      · rintro (low | ⟨other, otherIn, same, _⟩ | ⟨_, address⟩)
        · exact absurd (Nat.mod_eq_of_lt low).symm (absent adapter member)
        · exact absurd same (absent other otherIn)
        · exact address.symm
  | some other =>
      have otherIn := List.mem_of_find?_eq_some found
      have index : other.index.toNat = adapter.index.toNat % 256 := by
        simpa using List.find?_some found
      constructor
      · intro address
        exact .inr (.inl ⟨other, otherIn, index, address⟩)
      · rintro (low | ⟨twin, twinIn, same, address⟩ | ⟨absent, _⟩)
        · rw [Nat.mod_eq_of_lt low] at index
          rw [same_of_index describes otherIn member index]
          rfl
        · rw [same_of_index describes otherIn twinIn (index.trans same.symm)]
          exact address
        · exact absurd index (absent other otherIn)

/-- The address stored is that of the first adapter that answers to the option
exactly when eight bits of its index lead to that address. -/
theorem nic_chosen_iff (describes : api.Describes adapters) {ifIndex : UInt8}
    (located : locateAdapterWithIfName api nic = .ok ifIndex) :
    ∃ adapter, adapters.find? (answers api.toBytes nic) = some adapter ∧
      (resolveIfIndex api nic = .ok adapter.ipAddress ↔ KeepsAddress adapters adapter) := by
  obtain ⟨adapter, answered, rfl⟩ := locateAdapterWithIfName_found describes located
  refine ⟨adapter, answered, ?_⟩
  have lowByte : adapter.index.toUInt8.toNat = adapter.index.toNat % 256 := UInt32.toNat_toUInt8 _
  have small : adapter.index.toNat % 256 < 256 := Nat.mod_lt _ (by decide)
  rw [resolveIfIndex, located, ok_bind, lowByte, getInterfaceIpAddress_described describes small,
    Except.ok.injEq]
  exact lowByte_address_iff describes (List.mem_of_find?_eq_some answered)

end

def officeAdapters : List Adapter :=
  [⟨44, "Wi-Fi".toList.map fun symbol => symbol.toNat.toUInt16, "192.168.0.7".toList⟩,
    ⟨300, "Ethernet".toList.map fun symbol => symbol.toNat.toUInt16, "10.0.0.5".toList⟩]

/-- A machine with these adapters; names in ASCII are converted letter by letter. -/
def officeApi : AdapterApi where
  getAdaptersAddresses := .filled (officeAdapters.map Adapter.addresses)
  getAdaptersInfo := some (officeAdapters.map Adapter.info)
  toBytes name := .ok (name.map fun unit => Char.ofNat unit.toNat)

theorem officeApi_describes : officeApi.Describes officeAdapters where
  addresses := rfl
  info := ⟨_, rfl, List.Perm.refl _⟩
  unique := by decide

theorem nic_chosen_iff_small_index : resolveIfIndex officeApi "44".toList =
    .ok "192.168.0.7".toList := by
  obtain ⟨adapter, answered, chosen⟩ := nic_chosen_iff officeApi_describes
    (show locateAdapterWithIfName officeApi "44".toList = .ok 44 from rfl)
  cases answered
  exact chosen.mpr (.inl (by decide))

/-- The adapter with index 300 is asked for by name; 300 has the low byte 44. -/
theorem nic_chosen_wrong : resolveIfIndex officeApi "Ethernet".toList =
      .ok "192.168.0.7".toList ∧
    ∃ adapter, officeAdapters.find? (answers officeApi.toBytes "Ethernet".toList) = some adapter ∧
      resolveIfIndex officeApi "Ethernet".toList ≠ .ok adapter.ipAddress :=
  ⟨rfl, _, rfl, by decide⟩

end RioClient
