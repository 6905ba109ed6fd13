import Mathlib.Data.List.Basic
import Mathlib.Data.Nat.ModEq

/-!
Posts to `groups` receivers in turn. Post number `t` carries the stamp
`t / groups`, reduced modulo `word`; the receivers see their stamps in order as
long as every post goes to receiver `t % groups` and the stamp does not wrap.
-/

namespace RoundRobin

def InOrder (groups : Nat) (posts : List (Nat × Nat)) : Prop :=
  ∀ g < groups, (posts.filter fun post => post.1 = g).map Prod.snd =
    List.range (posts.countP fun post => post.1 = g)

def turns (groups word count : Nat) : List (Nat × Nat) :=
  (List.range count).map fun t => (t % groups, t / groups % word)

def rounds (groups count : Nat) : Nat := (count + (groups - 1)) / groups

variable {groups word count : Nat}

theorem rounds_of_dvd (positive : 0 < groups) (complete : groups ∣ count) :
    rounds groups count = count / groups := by
  obtain ⟨factor, rfl⟩ := complete
  rw [rounds, Nat.add_comm, Nat.add_mul_div_left _ _ positive, Nat.div_eq_of_lt (by omega),
    Nat.zero_add, Nat.mul_div_cancel_left _ positive]

theorem rounds_succ (positive : 0 < groups) (count : Nat) :
    rounds groups (count + 1) = count / groups + 1 := by
  rw [rounds, Nat.add_assoc, Nat.add_comm 1, Nat.sub_add_cancel positive,
    Nat.add_div_right _ positive]

theorem rounds_of_not_dvd (positive : 0 < groups) (partway : ¬groups ∣ count) :
    rounds groups count = count / groups + 1 := by
  cases count with
  | zero => exact absurd (Nat.dvd_zero groups) partway
  | succ count =>
      rw [rounds_succ positive, Nat.succ_div, if_neg partway, Nat.add_zero]

theorem rounds_le_succ (positive : 0 < groups) (count : Nat) :
    rounds groups count ≤ count / groups + 1 := by
  by_cases complete : groups ∣ count
  · rw [rounds_of_dvd positive complete]
    exact Nat.le_succ _
  · exact Nat.le_of_eq (rounds_of_not_dvd positive complete)

theorem rounds_mono {first second : Nat} (order : first ≤ second) :
    rounds groups first ≤ rounds groups second :=
  Nat.div_le_div_right (Nat.add_le_add_right order _)

theorem rounds_le_div_iff (positive : 0 < groups) :
    rounds groups count ≤ count / groups ↔ groups ∣ count := by
  by_cases complete : groups ∣ count
  · simp [rounds_of_dvd positive complete, complete]
  · simp [rounds_of_not_dvd positive complete, complete]

theorem lt_rounds_of_lt {post : Nat} (positive : 0 < groups) (earlier : post < count) :
    post / groups < rounds groups count :=
  Nat.lt_of_lt_of_le (Nat.lt_of_lt_of_eq (Nat.lt_succ_self _) (rounds_succ positive post).symm)
    (rounds_mono earlier)

theorem inOrder_snoc {posts : List (Nat × Nat)} {g stamp : Nat} (bound : g < groups) :
    InOrder groups (posts ++ [(g, stamp)]) ↔
      InOrder groups posts ∧ stamp = posts.countP fun post => post.1 = g := by
  constructor
  · intro inOrder
    have mine := inOrder g bound
    rw [List.filter_append, List.countP_append, List.map_append] at mine
    simp only [List.filter_singleton, List.countP_singleton, decide_true, if_true,
      List.range_succ] at mine
    obtain ⟨before, last⟩ := List.append_inj' mine rfl
    refine ⟨fun other otherBound => ?_, by simpa using last⟩
    by_cases same : g = other
    · rw [← same]
      exact before
    · simpa [List.filter_append, List.countP_append, same] using inOrder other otherBound
  · rintro ⟨inOrder, stampEq⟩ other otherBound
    by_cases same : g = other
    · rw [← same]
      simp [List.filter_append, List.countP_append, inOrder g bound, stampEq, List.range_succ]
    · simpa [List.filter_append, List.countP_append, same] using inOrder other otherBound

theorem dvd_add_sub_iff {g : Nat} (bound : g < groups) :
    groups ∣ count + (groups - 1 - g) + 1 ↔ count % groups = g := by
  have remainder := Nat.mod_lt count (Nat.lt_of_le_of_lt (Nat.zero_le g) bound)
  have split : count + (groups - 1 - g) + 1 =
      groups * (count / groups) + (count % groups + (groups - g)) := by
    have parts := Nat.div_add_mod count groups
    omega
  rw [split, Nat.dvd_add_right (Nat.dvd_mul_right _ _)]
  constructor
  · rintro ⟨factor, product⟩
    have one : factor = 1 := by
      rcases Nat.lt_trichotomy factor 1 with less | equal | more
      · have zero : factor = 0 := by omega
        rw [zero, Nat.mul_zero] at product
        omega
      · exact equal
      · have twice : groups * 2 ≤ groups * factor := Nat.mul_le_mul_left _ more
        omega
    rw [one, Nat.mul_one] at product
    omega
  · rintro rfl
    exact ⟨1, by omega⟩

theorem turns_succ (groups word count : Nat) :
    turns groups word (count + 1) =
      turns groups word count ++ [(count % groups, count / groups % word)] := by
  simp [turns, List.range_succ]

theorem countP_turns {g : Nat} (bound : g < groups) (count : Nat) :
    (turns groups word count).countP (fun post => post.1 = g) =
      (count + (groups - 1 - g)) / groups := by
  induction count with
  | zero =>
      rw [Nat.div_eq_of_lt (by omega)]
      rfl
  | succ count ih =>
      have shifted : count + 1 + (groups - 1 - g) = count + (groups - 1 - g) + 1 := by omega
      rw [turns_succ, List.countP_append, ih, shifted, Nat.succ_div]
      simp [dvd_add_sub_iff bound, List.countP_singleton]

theorem countP_turns_next (positive : 0 < groups) :
    (turns groups word count).countP (fun post => post.1 = count % groups) = count / groups := by
  have remainder := Nat.mod_lt count positive
  have parts := Nat.div_add_mod count groups
  rw [countP_turns remainder]
  have split : count + (groups - 1 - count % groups) = groups - 1 + groups * (count / groups) := by
    omega
  rw [split, Nat.add_mul_div_left _ _ positive, Nat.div_eq_of_lt (by omega), Nat.zero_add]

theorem stamp_exact_iff (positive : 0 < groups) (wordPositive : 0 < word) :
    count / groups % word = count / groups ↔ count < groups * word := by
  rw [Nat.mod_eq_iff_lt (Nat.pos_iff_ne_zero.mp wordPositive), Nat.div_lt_iff_lt_mul positive,
    Nat.mul_comm]

theorem inOrder_turns (positive : 0 < groups) (wordPositive : 0 < word) (count : Nat) :
    InOrder groups (turns groups word count) ↔ count ≤ groups * word := by
  induction count with
  | zero => simp [InOrder, turns]
  | succ count ih =>
      rw [turns_succ, inOrder_snoc (Nat.mod_lt _ positive), ih, countP_turns_next positive,
        stamp_exact_iff positive wordPositive]
      omega

/-- Starting over with receiver 0 keeps the order only after complete rounds. -/
theorem inOrder_restart (positive : 0 < groups) (wordPositive : 0 < word) :
    InOrder groups (turns groups word count ++ [(0, count / groups % word)]) ↔
      groups ∣ count ∧ count < groups * word := by
  rw [inOrder_snoc positive, inOrder_turns positive wordPositive, countP_turns positive,
    Nat.sub_zero, ← rounds]
  by_cases complete : groups ∣ count
  · rw [rounds_of_dvd positive complete, stamp_exact_iff positive wordPositive]
    omega
  · rw [rounds_of_not_dvd positive complete]
    have below := Nat.mod_le (count / groups) word
    omega

end RoundRobin
