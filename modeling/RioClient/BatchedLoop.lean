import Mathlib.Data.List.Basic

/-!
A counted loop that tests its limit only between batches. It may be left at the
test or before a batch is taken, and a batch that was taken is handled to its end.
-/

namespace BatchedLoop

inductive Phase
  | head
  | inside
  | handling (rest : Nat)
  | left
deriving DecidableEq, Repr

structure LoopState where
  phase : Phase
  count : Nat
deriving DecidableEq, Repr

inductive Step (limit batch : Nat) : LoopState → LoopState → Prop
  | enter {count} : count < limit → Step limit batch ⟨.head, count⟩ ⟨.inside, count⟩
  | again {count} : Step limit batch ⟨.inside, count⟩ ⟨.head, count⟩
  | take {count size} : size ≤ batch → Step limit batch ⟨.inside, count⟩ ⟨.handling size, count⟩
  | handle {count rest} :
      Step limit batch ⟨.handling (rest + 1), count⟩ ⟨.handling rest, count + 1⟩
  | finish {count} : Step limit batch ⟨.handling 1, count⟩ ⟨.head, count + 1⟩
  | leave {count} : Step limit batch ⟨.head, count⟩ ⟨.left, count⟩
  | quit {count} : Step limit batch ⟨.inside, count⟩ ⟨.left, count⟩

/-- Past the test there is room for a whole batch. -/
def Bounded (limit batch : Nat) (s : LoopState) : Prop :=
  match s.phase with
  | .head | .left => s.count < limit + batch
  | .inside => s.count < limit
  | .handling rest => s.count + rest < limit + batch

variable {limit batch : Nat} {s next : LoopState}

theorem Bounded.step (bounded : Bounded limit batch s) (taken : Step limit batch s next) :
    Bounded limit batch next := by
  cases taken with
  | enter below => exact below
  | again | quit => exact Nat.lt_add_right batch bounded
  | @take count size small =>
      have inside : count < limit := bounded
      exact Nat.add_lt_add_of_lt_of_le inside small
  | @handle count rest =>
      have room : count + (rest + 1) < limit + batch := bounded
      have moved : count + 1 + rest = count + (rest + 1) := by omega
      exact lt_of_eq_of_lt moved room
  | finish => exact bounded
  | leave => exact bounded

theorem Bounded.count_lt (bounded : Bounded limit batch s) : s.count < limit + batch := by
  unfold Bounded at bounded
  split at bounded <;> omega

end BatchedLoop
