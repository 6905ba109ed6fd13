import Mathlib.Algebra.BigOperators.Group.List.Basic
import Mathlib.Data.Nat.ModEq

/-!
Sums over the entries of an ordered map. A map is updated by rewriting the value
of one key, which starts from `zero` when the key is new; only that key's weight
changes.
-/

namespace KeyedTotals

open Std

variable {Key Value : Type} {cmp : Key → Key → Ordering}

def total {M : Type} [AddCommMonoid M] (weight : Key → Value → M) (map : TreeMap Key Value cmp) :
    M :=
  (map.toList.map fun entry => weight entry.1 entry.2).sum

def modify (map : TreeMap Key Value cmp) (key : Key) (zero : Value) (change : Value → Value) :
    TreeMap Key Value cmp :=
  map.alter key fun entry => some (change (entry.getD zero))

section Sums

variable {M : Type} [AddCommMonoid M] {weight : Key → Value → M}

variable [TransCmp cmp] [LawfulEqCmp cmp]

theorem total_congr {first second : TreeMap Key Value cmp}
    (same : ∀ key : Key, first[key]? = second[key]?) :
    total weight first = total weight second := by
  rw [total, total, (TreeMap.Equiv.of_forall_constGet?_eq same).toList_eq]

theorem total_congr_weight {first second : Key → Value → M} {map : TreeMap Key Value cmp}
    (same : ∀ key ∈ map, ∀ value, first key value = second key value) :
    total first map = total second map := by
  rw [total, total]
  congr 1
  refine List.map_congr_left fun entry member => same _ ?_ _
  rw [← TreeMap.mem_keys, ← TreeMap.map_fst_toList_eq_keys]
  exact List.mem_map_of_mem member

def others [DecidableEq Key] (weight : Key → Value → M) (map : TreeMap Key Value cmp) (key : Key) :
    M :=
  ((map.toList.filter fun entry => ¬key = entry.1).map fun entry => weight entry.1 entry.2).sum

variable [DecidableEq Key]

omit [TransCmp cmp] [LawfulEqCmp cmp] in
theorem others_congr {first second : Key → Value → M} {map : TreeMap Key Value cmp} {key : Key}
    (same : ∀ other, other ≠ key → ∀ value, first other value = second other value) :
    others first map key = others second map key := by
  rw [others, others]
  congr 1
  refine List.map_congr_left fun entry member => same _ ?_ _
  exact fun equal => of_decide_eq_true (List.mem_filter.mp member).2 equal.symm

theorem total_insert (map : TreeMap Key Value cmp) (key : Key) (value : Value) :
    total weight (map.insert key value) = weight key value + others weight map key := by
  have entries := @TreeMap.toList_insert_perm _ _ cmp map _ _ _ key value
  rw [total, (entries.map _).sum_eq, List.map_cons, List.sum_cons, others]
  simp

theorem total_eq_add_others (map : TreeMap Key Value cmp) (key : Key) {zero : Value}
    (unused : weight key zero = 0) :
    total weight map = weight key (map[key]?.getD zero) + others weight map key := by
  cases present : map[key]? with
  | some value =>
      rw [Option.getD_some, ← total_insert]
      apply total_congr
      intro other
      rw [TreeMap.getElem?_insert]
      split
      · rename_i equal
        rw [← LawfulEqCmp.eq_of_compare equal, present]
      · rfl
  | none =>
      rw [Option.getD_none, unused, zero_add, others, List.filter_eq_self.mpr]
      · rfl
      · rintro ⟨other, value⟩ member
        rw [TreeMap.mem_toList_iff_getElem?_eq_some] at member
        simp only [decide_not, Bool.not_eq_true', decide_eq_false_iff_not]
        rintro rfl
        rw [present] at member
        cases member

theorem total_modify (map : TreeMap Key Value cmp) (key : Key) {zero : Value}
    (change : Value → Value) :
    total weight (modify map key zero change) =
      weight key (change (map[key]?.getD zero)) + others weight map key := by
  rw [← total_insert]
  apply total_congr
  intro other
  rw [modify, TreeMap.getElem?_alter, TreeMap.getElem?_insert]

theorem total_insertIfNew (map : TreeMap Key Value cmp) (key : Key) {zero : Value}
    (unused : weight key zero = 0) :
    total weight (map.insertIfNew key zero) = total weight map := by
  have same : total weight (map.insertIfNew key zero) = total weight (modify map key zero id) := by
    apply total_congr
    intro other
    rw [modify, TreeMap.getElem?_alter, TreeMap.getElem?_insertIfNew]
    by_cases equal : cmp key other = .eq
    · rw [LawfulEqCmp.eq_of_compare equal]
      cases present : map[other]? with
      | none => simp [TreeMap.mem_iff_isSome_getElem?, present, ReflCmp.compare_self]
      | some value => simp [TreeMap.mem_iff_isSome_getElem?, present, ReflCmp.compare_self]
    · simp [equal]
  rw [same, total_modify, id, ← total_eq_add_others map key unused]

end Sums

/-- A change that adds the same amount to the key's weight, whatever it was, adds
it to the total. -/
theorem total_modify_modEq [TransCmp cmp] [LawfulEqCmp cmp] [DecidableEq Key]
    {weight : Key → Value → Nat} {map : TreeMap Key Value cmp} {key : Key} {zero : Value}
    {change : Value → Value} {amount word : Nat} (unused : weight key zero = 0)
    (added : weight key (change (map[key]?.getD zero)) ≡
      weight key (map[key]?.getD zero) + amount [MOD word]) :
    total weight (modify map key zero change) ≡ total weight map + amount [MOD word] := by
  rw [total_modify, total_eq_add_others map key unused]
  calc _ ≡ weight key (map[key]?.getD zero) + amount + others weight map key [MOD word] :=
        added.add_right _
    _ = _ := by omega

theorem total_modify_le [TransCmp cmp] [LawfulEqCmp cmp] [DecidableEq Key]
    {weight : Key → Value → Nat} {map : TreeMap Key Value cmp} {key : Key} {zero : Value}
    {change : Value → Value} {amount : Nat} (unused : weight key zero = 0)
    (added : weight key (change (map[key]?.getD zero)) ≤
      weight key (map[key]?.getD zero) + amount) :
    total weight (modify map key zero change) ≤ total weight map + amount := by
  rw [total_modify, total_eq_add_others map key unused]
  omega

end KeyedTotals
