import RioClient.RangeCore

/-!
What `operator+` adds: each call goes one address on, whatever its operand is, so
that a chain of additions is told by the number of its calls alone.
-/

namespace RioClient

namespace Ipv4Addr

theorem ipHostOrder_foldl_add (ip : Ipv4Addr) (steps : List UInt32) :
    (steps.foldl add ip).ipHostOrder = ip.ipHostOrder + UInt32.ofNat steps.length := by
  induction steps generalizing ip with
  | nil => exact (UInt32.add_zero _).symm
  | cons step steps ih =>
      have one : UInt32.ofNat (steps.length + 1) = 1 + UInt32.ofNat steps.length := by
        rw [UInt32.ofNat_add, UInt32.add_comm]
        rfl
      rw [List.foldl_cons, ih, ipHostOrder_add, List.length_cons, one, UInt32.add_assoc]

/-- Two chains of additions meet exactly when they are equally long, around the end
of the address space. -/
theorem foldl_add_eq_iff (ip : Ipv4Addr) (steps others : List UInt32) :
    steps.foldl add ip = others.foldl add ip ↔
      steps.length % 2 ^ 32 = others.length % 2 ^ 32 := by
  rw [← ipHostOrder_injective.eq_iff, ipHostOrder_foldl_add, ipHostOrder_foldl_add,
    UInt32.add_right_inj, ← UInt32.toNat_inj, UInt32.toNat_ofNat', UInt32.toNat_ofNat']

theorem toNat_add_eq_iff (ip : Ipv4Addr) (i : UInt32) :
    (ip.add i).ipHostOrder.toNat = (ip.ipHostOrder.toNat + i.toNat) % 2 ^ 32 ↔ i = 1 := by
  rw [← UInt32.toNat_add, UInt32.toNat_inj, ipHostOrder_add, UInt32.add_right_inj, eq_comm]

theorem add_zero_ne (ip : Ipv4Addr) : ip.add 0 ≠ ip := by
  intro same
  have lengths := (foldl_add_eq_iff ip [0] []).mp same
  exact absurd lengths (by decide)

theorem add_add_ne (ip : Ipv4Addr) (i j : UInt32) : (ip.add i).add j ≠ ip.add (i + j) := by
  intro same
  have lengths := (foldl_add_eq_iff ip [i, j] [i + j]).mp same
  exact absurd lengths (by decide : ¬2 % 2 ^ 32 = 1 % 2 ^ 32)

/-- The laws of an action, one by one: the sum is right for the step 1 alone, which is
the only step that the iterator and the end of a range take. -/
theorem add_laws_iff (winsock : Winsock) (ip : Ipv4Addr) (i j : UInt32) :
    ((ip.add i).ipHostOrder.toNat = (ip.ipHostOrder.toNat + i.toNat) % 2 ^ 32 ↔ i = 1) ∧
      ip.add 0 ≠ ip ∧ (ip.add i).add j ≠ ip.add (i + j) ∧
      ((ipv4Element winsock).next ip).ipHostOrder.toNat =
        (ip.ipHostOrder.toNat + 1) % 2 ^ 32 := by
  refine ⟨toNat_add_eq_iff ip i, add_zero_ne ip, add_add_ne ip i j, ?_⟩
  rw [ipv4Element_next]
  exact (toNat_add_eq_iff ip 1).mpr rfl

/-- 10.0.0.5 + 2 is 10.0.0.6. -/
theorem add_two_adds_one :
    (⟨htonl 0x0A000005⟩ : Ipv4Addr).add 2 = ⟨htonl 0x0A000006⟩ ∧
      ¬∀ (ip : Ipv4Addr) (i j : UInt32),
        (ip.add i).ipHostOrder.toNat = (ip.ipHostOrder.toNat + i.toNat) % 2 ^ 32 ∧
          ip.add 0 = ip ∧ (ip.add i).add j = ip.add (i + j) := by
  refine ⟨by decide, ?_⟩
  intro laws
  have sum := (laws ⟨htonl 0x0A000005⟩ 2 0).1
  exact absurd sum (by decide)

end Ipv4Addr

end RioClient
