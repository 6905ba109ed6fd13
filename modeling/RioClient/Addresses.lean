import Mathlib.Data.List.TakeWhile
import Mathlib.Logic.Function.Iterate
import RioClient.NetworkCore

/-!
The two readings of an address: the stored word, and the number its dotted
notation stands for. Both are made of the same four bytes, in opposite order.
-/

namespace RioClient

theorem byteOf_lt (value : UInt32) (index : Nat) : byteOf value index < 256 :=
  Nat.mod_lt _ (by decide)

theorem toNat_eq_bytes (value : UInt32) :
    value.toNat = byteOf value 3 * 256 ^ 3 + byteOf value 2 * 256 ^ 2 +
      byteOf value 1 * 256 + byteOf value 0 := by
  have bounded := value.toNat_lt
  simp only [byteOf]
  omega

theorem toNat_htonl (value : UInt32) :
    (htonl value).toNat = byteOf value 0 * 256 ^ 3 + byteOf value 1 * 256 ^ 2 +
      byteOf value 2 * 256 + byteOf value 3 := by
  have first := byteOf_lt value 0
  have second := byteOf_lt value 1
  have third := byteOf_lt value 2
  have fourth := byteOf_lt value 3
  refine UInt32.toNat_ofNat_of_lt' ?_
  rw [show UInt32.size = 4294967296 from rfl]
  omega

theorem byteOf_htonl (value : UInt32) {index : Nat} (inside : index < 4) :
    byteOf (htonl value) index = byteOf value (3 - index) := by
  have first := byteOf_lt value 0
  have second := byteOf_lt value 1
  have third := byteOf_lt value 2
  have fourth := byteOf_lt value 3
  rw [byteOf, toNat_htonl]
  have cases : index = 0 ∨ index = 1 ∨ index = 2 ∨ index = 3 := by omega
  rcases cases with rfl | rfl | rfl | rfl <;>
    simp only [Nat.reducePow, Nat.reduceSub] <;> omega

theorem htonl_involutive : Function.Involutive htonl := by
  intro value
  apply UInt32.toNat_inj.mp
  rw [toNat_htonl, toNat_eq_bytes value]
  simp only [byteOf_htonl value (show 0 < 4 by decide), byteOf_htonl value (show 1 < 4 by decide),
    byteOf_htonl value (show 2 < 4 by decide), byteOf_htonl value (show 3 < 4 by decide)]

@[simp] theorem ntohl_htonl (value : UInt32) : ntohl (htonl value) = value :=
  htonl_involutive value

@[simp] theorem htonl_ntohl (value : UInt32) : htonl (ntohl value) = value :=
  htonl_involutive value

namespace Ipv4Addr

@[simp] theorem ipHostOrder_setHostOrder (address : Ipv4Addr) (value : UInt32) :
    (address.setHostOrder value).ipHostOrder = value := ntohl_htonl value

@[simp] theorem ipHostOrder_add (address : Ipv4Addr) (count : UInt32) :
    (address.add count).ipHostOrder = address.ipHostOrder + 1 :=
  ipHostOrder_setHostOrder _ _

theorem ipHostOrder_injective : Function.Injective ipHostOrder := by
  intro first second same
  have stored : first.ipBe = second.ipBe := htonl_involutive.injective same
  cases first
  cases second
  exact congrArg mk stored

@[simp] theorem ne_eq_false_iff {first second : Ipv4Addr} :
    first.ne second = false ↔ first = second := by
  cases first
  cases second
  simp [ne]

theorem ne_add (ip : Ipv4Addr) : ip ≠ ip.add 1 := by
  intro same
  have numbers := congrArg (fun ip => ip.ipHostOrder.toNat) same
  have bound := ip.ipHostOrder.toNat_lt
  simp only [ipHostOrder_add, UInt32.toNat_add,
    show (1 : UInt32).toNat = 1 from rfl] at numbers
  omega

/-- As long as the two differ, the successor is one nearer to the stop, around the end if need be. -/
theorem distance_add {current stop : Ipv4Addr} (differs : current.ne stop = true) :
    (stop.ipHostOrder - current.ipHostOrder).toNat =
      (stop.ipHostOrder - (current.add 1).ipHostOrder).toNat + 1 := by
  have apart : current.ipHostOrder.toNat ≠ stop.ipHostOrder.toNat := by
    intro same
    have equal := ipHostOrder_injective (UInt32.toNat_inj.mp same)
    rw [ne_eq_false_iff.mpr equal] at differs
    cases differs
  have currentBound := current.ipHostOrder.toNat_lt
  have stopBound := stop.ipHostOrder.toNat_lt
  rw [ipHostOrder_add, UInt32.toNat_sub, UInt32.toNat_sub, UInt32.toNat_add,
    show (1 : UInt32).toNat = 1 from rfl]
  omega

theorem ipHostOrder_iterate_add (address : Ipv4Addr) (count : Nat) :
    ((fun current : Ipv4Addr => current.add 1)^[count] address).ipHostOrder =
      address.ipHostOrder + UInt32.ofNat count := by
  induction count with
  | zero => exact (UInt32.add_zero _).symm
  | succ count ih =>
      rw [Function.iterate_succ_apply', ipHostOrder_add, ih, UInt32.add_assoc,
        UInt32.ofNat_add]
      rfl

end Ipv4Addr

theorem isDigit_of_mem_intercalate {octets : List Nat} {symbol : Char}
    (member : symbol ∈ ['.'].intercalate (octets.map (Nat.toDigits 10))) :
    symbol.isDigit ∨ symbol = '.' := by
  have digit : ∀ octet, symbol ∈ Nat.toDigits 10 octet → symbol.isDigit :=
    fun octet => Nat.isDigit_of_mem_toDigits (by decide) (by decide)
  induction octets with
  | nil => cases member
  | cons octet octets ih =>
      cases octets with
      | nil =>
          rw [List.map_cons, List.map_nil, List.intercalate_singleton] at member
          exact .inl (digit octet member)
      | cons next octets =>
          rw [List.map_cons, List.map_cons, List.intercalate_cons_cons, List.mem_append,
            List.mem_append, List.mem_singleton] at member
          rcases member with (member | dot) | later
          · exact .inl (digit octet member)
          · exact .inr dot
          · exact ih later

theorem isDigit_of_mem_dottedQuad {host : UInt32} {symbol : Char}
    (member : symbol ∈ dottedQuad host) : symbol.isDigit ∨ symbol = '.' :=
  isDigit_of_mem_intercalate member

theorem dash_not_mem_dottedQuad (host : UInt32) : '-' ∉ dottedQuad host := fun member =>
  absurd (isDigit_of_mem_dottedQuad member) (by decide)

theorem dot_not_mem_toDigits (byte : Nat) : '.' ∉ Nat.toDigits 10 byte := fun member =>
  absurd (Nat.isDigit_of_mem_toDigits (by decide) (by decide) member) (by decide)

theorem dot_not_mem_digits {octets : List Nat} :
    ∀ part ∈ octets.map (Nat.toDigits 10), '.' ∉ part := by
  intro part member
  obtain ⟨octet, _, rfl⟩ := List.mem_map.mp member
  exact dot_not_mem_toDigits octet

theorem count_dot_dottedQuad (host : UInt32) : (dottedQuad host).count '.' = 3 := by
  have none : ∀ byte, (Nat.toDigits 10 byte).count '.' = 0 :=
    fun byte => List.count_eq_zero.mpr (dot_not_mem_toDigits byte)
  simp only [dottedQuad, List.map_cons, List.map_nil, List.intercalate_cons_cons,
    List.intercalate_singleton, List.count_append, none]
  decide

theorem dottedQuad_ne_nil (host : UInt32) : dottedQuad host ≠ [] := by
  intro empty
  have dots := count_dot_dottedQuad host
  rw [empty] at dots
  exact absurd dots (by decide)

theorem cStr_of_plain {text : Text} (plain : '\x00' ∉ text) : cStr text = text := by
  apply List.takeWhile_eq_self_iff.mpr
  intro symbol member
  exact decide_eq_true (ne_of_mem_of_not_mem member plain)

@[simp] theorem cStr_dottedQuad (host : UInt32) : cStr (dottedQuad host) = dottedQuad host := by
  apply cStr_of_plain
  intro member
  exact absurd (isDigit_of_mem_dottedQuad member) (by decide)

theorem Ipv4Addr.ofText_eq_ok_iff {winsock : Winsock} (standard : winsock.Standard) {v : Text}
    {ip : Ipv4Addr} :
    Ipv4Addr.ofText winsock v = .ok ip ↔
      v = [] ∧ ip = {} ∨ cStr v = dottedQuad ip.ipHostOrder := by
  cases v with
  | nil =>
      constructor
      · intro read
        cases read
        exact .inl ⟨rfl, rfl⟩
      · rintro (⟨_, rfl⟩ | text)
        · rfl
        · exact absurd text.symm (dottedQuad_ne_nil _)
  | cons symbol rest =>
      have parsed := standard.pton (cStr (symbol :: rest)) ip.ipBe
      rw [Ipv4Addr.ofText, if_neg (by simp), Ipv4Addr.ipHostOrder, ← parsed]
      cases winsock.inetPton (cStr (symbol :: rest)) with
      | none => simp
      | some ipBeTemp =>
          cases ip
          simp

theorem Ipv4Addr.ofText_dottedQuad {winsock : Winsock} (standard : winsock.Standard)
    (host : UInt32) : Ipv4Addr.ofText winsock (dottedQuad host) = .ok ⟨htonl host⟩ := by
  refine (Ipv4Addr.ofText_eq_ok_iff standard).mpr (.inr ?_)
  rw [cStr_dottedQuad, Ipv4Addr.ipHostOrder, ntohl_htonl]

end RioClient
