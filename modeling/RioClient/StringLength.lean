import Mathlib.Data.Nat.Basic
import RioClient.BoundedStringCore

/-!
The length of a text in a buffer, as `strnlen_s` computes it and as
`strnterminate_s` makes it.
-/

namespace RioClient

open FlatMemory

section
variable {memory : Memory UInt8} {dest dmax : Nat}

theorem noNul_succ {length : Nat} (noNul : ∀ index < length, memory (dest + index) ≠ 0)
    (here : memory (dest + length) ≠ 0) : ∀ index < length + 1, memory (dest + index) ≠ 0 := by
  intro index inside
  rcases Nat.lt_succ_iff_lt_or_eq.mp inside with before | rfl
  · exact noNul index before
  · exact here

/-- Started behind `length` bytes that are not NUL, the loop of `strnlen_s` comes
to the first NUL, or looks at one byte behind the last. -/
theorem lengthLoop_eq {length left : Nat} (room : length + left = dmax)
    (noNul : ∀ index < length, memory (dest + index) ≠ 0) :
    lengthLoop memory length (List.range' dest length) (dest + length) left =
      { count := (window memory dest dmax).idxOf 0
        accesses := List.range' dest ((window memory dest dmax).idxOf 0 + 1) } := by
  induction left generalizing length with
  | zero =>
      have count : (window memory dest dmax).idxOf 0 = length :=
        idxOf_window_eq (by omega) noNul (by omega)
      rw [lengthLoop, count, List.range'_1_concat]
  | succ left ih =>
      rw [lengthLoop, ← List.range'_1_concat]
      by_cases nul : memory (dest + length) = 0
      · have count : (window memory dest dmax).idxOf 0 = length :=
          idxOf_window_eq (by omega) noNul fun _ => nul
        rw [if_pos nul, count]
      · rw [if_neg nul]
        exact ih (by omega) (noNul_succ noNul nul)

theorem strnlenS_eq (room : 1 ≤ dmax) (limit : dmax ≤ rsizeMaxStr) :
    strnlenS memory (some dest) dmax =
      { count := (window memory dest dmax).idxOf 0
        accesses := List.range' dest ((window memory dest dmax).idxOf 0 + 1) } := by
  have ran := @lengthLoop_eq memory dest dmax 0 dmax (Nat.zero_add _) nofun
  rw [strnlenS, if_neg (by omega), if_neg (by omega)]
  exact ran

def Inside (accesses : List Nat) (dest dmax : Nat) : Prop :=
  ∀ position ∈ accesses, dest ≤ position ∧ position < dest + dmax

structure MeasuresInside (memory : Memory UInt8) (dest dmax : Nat) : Prop where
  count : (strnlenS memory (some dest) dmax).count = (window memory dest dmax).idxOf 0
  inside : Inside (strnlenS memory (some dest) dmax).accesses dest dmax

theorem inside_range' {length : Nat} :
    Inside (List.range' dest (length + 1)) dest dmax ↔ length < dmax := by
  constructor
  · intro inside
    have last := inside (dest + length) (by simp)
    omega
  · intro fits position member
    rw [List.mem_range'_1] at member
    omega

/-- The loop stays in the buffer exactly when there is a NUL in it. -/
theorem strnlenS_measuresInside_iff (memory : Memory UInt8) (dest : Nat) (room : 1 ≤ dmax)
    (limit : dmax ≤ rsizeMaxStr) :
    MeasuresInside memory dest dmax ↔ ∃ index < dmax, memory (dest + index) = 0 := by
  have returned := @strnlenS_eq memory dest dmax room limit
  have bound := @idxOf_window_le _ memory dest dmax _ _ 0
  constructor
  · intro measures
    have inside := measures.inside
    rw [returned, inside_range'] at inside
    exact ⟨_, inside, eq_of_idxOf_lt inside⟩
  · rintro ⟨index, inBuffer, nul⟩
    constructor
    · rw [returned]
    · rw [returned, inside_range']
      apply Nat.lt_of_le_of_ne bound
      intro whole
      exact ne_of_lt_idxOf (Nat.lt_of_lt_of_eq inBuffer whole.symm) nul

theorem strnlenS_measuresInside_iff_terminated :
    MeasuresInside (fun position => if position < 3 then 97 else 0) 0 8 :=
  (strnlenS_measuresInside_iff _ 0 (by decide) (by decide)).mpr (by decide)

/-- On a buffer of one byte that is not NUL, the byte behind it is looked at. -/
theorem strnlenS_reads_past_buffer :
    let memory : Memory UInt8 := fun _ => 97
    (strnlenS memory (some 0) 1).accesses = [0, 1] ∧ ¬MeasuresInside memory 0 1 := by
  intro memory
  have accesses : (strnlenS memory (some 0) 1).accesses = [0, 1] := by decide
  refine ⟨accesses, ?_⟩
  intro measures
  have inside := measures.inside
  rw [accesses] at inside
  exact absurd (inside 1 (by decide)).2 (by decide)

def terminatedLength (memory : Memory UInt8) (dest dmax : Nat) : Nat :=
  (window memory dest (dmax - 1)).idxOf 0

theorem terminateLoop_eq {length left : Nat} (room : length + left = dmax) (last : 1 ≤ left)
    (noNul : ∀ index < length, memory (dest + index) ≠ 0) :
    terminateLoop memory length (List.range' dest length) (dest + length) left =
      { count := terminatedLength memory dest dmax
        accesses := List.range' dest (terminatedLength memory dest dmax) ++
          (if terminatedLength memory dest dmax < dmax - 1 then
            [dest + terminatedLength memory dest dmax, dest + terminatedLength memory dest dmax]
          else [dest + terminatedLength memory dest dmax])
        memory := Function.update memory (dest + terminatedLength memory dest dmax) 0 } := by
  induction left generalizing length with
  | zero => omega
  | succ left ih =>
      cases left with
      | zero =>
          have count : terminatedLength memory dest dmax = length :=
            idxOf_window_eq (by omega) noNul (by omega)
          rw [terminateLoop, count, if_neg (by omega)]
          nofun
      | succ left =>
          rw [terminateLoop]
          by_cases nul : memory (dest + length) = 0
          · have count : terminatedLength memory dest dmax = length :=
              idxOf_window_eq (by omega) noNul fun _ => nul
            rw [if_neg (by simpa using nul), count, if_pos (by omega)]
          · rw [if_pos nul, ← List.range'_1_concat]
            exact ih (by omega) (by omega) (noNul_succ noNul nul)

theorem strnterminateS_eq (room : 1 ≤ dmax) (limit : dmax ≤ rsizeMaxStr) :
    strnterminateS memory (some dest) dmax =
      terminateLoop memory 0 (List.range' dest 0) dest dmax := by
  rw [strnterminateS, if_neg (by omega), if_neg (by omega)]
  rfl

structure TerminateContract (memory : Memory UInt8) (dest dmax : Nat)
    (result : TerminateResult) : Prop where
  inside : Inside result.accesses dest dmax
  short : result.count < dmax
  text : ∀ index < result.count, result.memory (dest + index) ≠ 0
  ends : result.memory (dest + result.count) = 0
  frame : ∀ position, position ≠ dest + result.count → result.memory position = memory position
  atNul : ∀ index < dmax - 1, memory (dest + index) = 0 →
    (∀ earlier < index, memory (dest + earlier) ≠ 0) → result.count = index
  atLast : (∀ index < dmax - 1, memory (dest + index) ≠ 0) → result.count = dmax - 1
  agrees : (strnlenS result.memory (some dest) dmax).count = result.count

theorem strnterminateS_contract (memory : Memory UInt8) (dest : Nat) (room : 1 ≤ dmax)
    (limit : dmax ≤ rsizeMaxStr) :
    TerminateContract memory dest dmax (strnterminateS memory (some dest) dmax) := by
  have bound : terminatedLength memory dest dmax ≤ dmax - 1 := idxOf_window_le
  have before (index : Nat) (inside : index < terminatedLength memory dest dmax) :
      memory (dest + index) ≠ 0 := ne_of_lt_idxOf inside
  have ran := @terminateLoop_eq memory dest dmax 0 dmax (Nat.zero_add _) room nofun
  rw [strnterminateS_eq room limit]
  rw [Nat.add_zero] at ran
  rw [ran]
  have kept (index : Nat) (inside : index < terminatedLength memory dest dmax) :
      Function.update memory (dest + terminatedLength memory dest dmax) 0 (dest + index) ≠ 0 := by
    rw [Function.update_of_ne (by omega)]
    exact before index inside
  constructor
  case inside =>
    intro position member
    rcases List.mem_append.mp member with read | last
    · rw [List.mem_range'_1] at read
      omega
    · have here : position = dest + terminatedLength memory dest dmax := by
        split at last
        · simpa using last
        · simpa using last
      omega
  case short =>
    dsimp only
    omega
  case text => exact kept
  case ends => exact Function.update_self _ _ _
  case frame =>
    intro position elsewhere
    exact Function.update_of_ne elsewhere _ _
  case atNul =>
    intro index inside nul first
    exact idxOf_window_eq (Nat.le_of_lt inside) first fun _ => nul
  case atLast =>
    intro noNul
    exact idxOf_window_eq (Nat.le_refl _) noNul fun inside => absurd inside (Nat.lt_irrefl _)
  case agrees =>
    rw [strnlenS_eq room limit]
    exact idxOf_window_eq (Nat.le_trans bound (Nat.sub_le _ _)) kept
      fun _ => Function.update_self _ _ _

theorem strnterminateS_contract_unterminated :
    TerminateContract (fun _ => 97) 0 3 (strnterminateS (fun _ => 97) (some 0) 3) :=
  strnterminateS_contract _ 0 (by decide) (by decide)

end

end RioClient
