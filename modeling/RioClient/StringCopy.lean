import Mathlib.Data.Nat.Dist
import RioClient.BoundedStringCore

/-!
What `strncpy_s` does to memory. Both loops copy until they have all of the text,
run out of room, or come to the other region.
-/

namespace RioClient

open FlatMemory

theorem handleError_eq (memory : Memory UInt8) (dest dmax : Nat) :
    handleError memory dest dmax = overwrite memory dest (List.replicate dmax 0) := by
  induction dmax generalizing memory dest with
  | zero => rw [handleError, List.replicate_zero, overwrite_nil]
  | succ dmax ih => rw [handleError, ih, overwrite_update, List.replicate_succ]

theorem handleError_overwrite {memory : Memory UInt8} {dest dmax : Nat} {copied : List UInt8}
    (covered : copied.length ≤ dmax) :
    handleError (overwrite memory dest copied) dest dmax =
      overwrite memory dest (List.replicate dmax 0) := by
  rw [handleError_eq]
  apply overwrite_overwrite
  rwa [List.length_replicate]

def textLength (memory : Memory UInt8) (src slen : Nat) : Nat := (window memory src slen).idxOf 0

def copyOutcome (memory : Memory UInt8) (dest dmax src slen distance : Nat) : CopyResult :=
  let length := textLength memory src slen
  if distance ≤ length ∧ distance < dmax then
    { errno := rcNegate esovrlp
      memory := overwrite memory dest (List.replicate dmax 0)
      reads := List.range' src distance }
  else if length < dmax then
    { errno := rcNegate eok
      memory := overwrite memory dest (window memory src length ++ [0])
      reads := List.range' src (if length < slen then length + 1 else slen) }
  else
    { errno := rcNegate esnospc
      memory := overwrite memory dest (List.replicate dmax 0)
      reads := List.range' src dmax }

section
variable {memory : Memory UInt8} {dest dmax src slen : Nat}

theorem textLength_le : textLength memory src slen ≤ slen := idxOf_window_le

section
variable {onBumper : Nat → Nat → Bool} {distance : Nat}

/-- From a state in which `index` bytes have been copied, `left` iterations before
the room is used up. The bytes still to be read are those of the original memory. -/
theorem copyLoop_eq
    (bumper : ∀ index, onBumper (dest + index) (src + index) = decide (index = distance))
    (apart : ∀ index < distance, src + index < dest ∨ dest + index ≤ src + index)
    {index left : Nat} (room : index + left = dmax) (clear : index ≤ distance)
    (inText : index ≤ textLength memory src slen) :
    copyLoop onBumper dest dmax (overwrite memory dest (window memory src index))
        (List.range' src index) (dest + index) (src + index) (slen - index) left =
      copyOutcome memory dest dmax src slen distance := by
  have bound := @textLength_le memory src slen
  induction left generalizing index with
  | zero =>
      have covered : (window memory src index).length ≤ dmax := by
        rw [window_length]
        omega
      rw [copyLoop, copyOutcome, if_neg (by omega), if_neg (by omega),
        handleError_overwrite covered, show index = dmax by omega]
  | succ left ih =>
      have covered : (window memory src index).length ≤ dmax := by
        rw [window_length]
        omega
      have store (byte : UInt8) : Function.update (overwrite memory dest (window memory src index))
          (dest + index) byte = overwrite memory dest (window memory src index ++ [byte]) := by
        have stored := @update_overwrite _ memory dest (window memory src index) byte
        rwa [window_length] at stored
      rw [copyLoop, bumper]
      by_cases met : index = distance
      · rw [if_pos (decide_eq_true met), copyOutcome, if_pos (by omega),
          handleError_overwrite covered, met]
      rw [if_neg (by simpa using met)]
      by_cases ended : slen - index = 0
      · have length : textLength memory src slen = index := by omega
        rw [if_pos ended, copyOutcome, length, if_neg (by omega), if_pos (by omega),
          if_neg (by omega), store, show slen = index by omega]
      rw [if_neg ended]
      have original : overwrite memory dest (window memory src index) (src + index) =
          memory (src + index) := by
        have outside := apart index (by omega)
        apply overwrite_outside
        rw [window_length]
        omega
      have reads : List.range' src index ++ [src + index] = List.range' src (index + 1) :=
        List.range'_1_concat.symm
      dsimp only
      rw [original, Function.update_self, store, reads]
      by_cases nul : memory (src + index) = 0
      · have length : textLength memory src slen = index := by
          apply Nat.le_antisymm _ inText
          apply Nat.not_lt.mp
          intro further
          exact ne_of_lt_idxOf further nul
        rw [if_pos nul, copyOutcome, length, if_neg (by omega), if_pos (by omega),
          if_pos (by omega), nul]
      · have further : index + 1 ≤ textLength memory src slen := by
          apply Nat.lt_of_le_of_ne inText
          intro same
          apply nul
          have here := eq_of_idxOf_lt (show textLength memory src slen < slen by omega)
          rwa [← textLength, ← same] at here
        rw [if_neg nul, ← window_succ, Nat.sub_sub]
        exact ih (by omega) (by omega) further

end

theorem strncpyS_eq (room : 1 ≤ dmax) (roomLimit : dmax ≤ rsizeMaxStr) (length : 1 ≤ slen)
    (lengthLimit : slen ≤ rsizeMaxStr) :
    strncpyS memory (some dest) dmax (some src) slen =
      copyOutcome memory dest dmax src slen (Nat.dist dest src) := by
  have start : overwrite memory dest (window memory src 0) = memory := overwrite_nil
  rw [strncpyS]
  dsimp only
  rw [if_neg (by omega), if_neg (by omega), if_neg (by omega), if_neg (by omega)]
  by_cases below : dest < src
  · have distance : Nat.dist dest src = src - dest := Nat.dist_eq_sub_of_le (Nat.le_of_lt below)
    have bumper (index : Nat) : decide (dest + index = src) = decide (index = src - dest) := by
      rw [decide_eq_decide]
      omega
    have ran := @copyLoop_eq memory dest dmax src slen (fun dest _ => dest = src) (src - dest)
      bumper (fun index _ => .inr (by omega)) 0 dmax (Nat.zero_add _) (Nat.zero_le _)
      (Nat.zero_le _)
    rw [start] at ran
    rw [if_pos below, distance]
    exact ran
  · have distance : Nat.dist dest src = dest - src :=
      Nat.dist_eq_sub_of_le_right (Nat.not_lt.mp below)
    have bumper (index : Nat) : decide (src + index = dest) = decide (index = dest - src) := by
      rw [decide_eq_decide]
      omega
    have ran := @copyLoop_eq memory dest dmax src slen (fun _ src => src = dest) (dest - src)
      bumper (fun index early => .inl (by omega)) 0 dmax (Nat.zero_add _) (Nat.zero_le _)
      (Nat.zero_le _)
    rw [start] at ran
    rw [if_neg below, distance]
    exact ran

theorem copyOutcome_cases {distance : Nat} {result : CopyResult}
    (ended : copyOutcome memory dest dmax src slen distance = result) :
    let length := textLength memory src slen
    (distance ≤ length ∧ distance < dmax ∧ result.errno = rcNegate esovrlp ∧
      result.memory = overwrite memory dest (List.replicate dmax 0) ∧
      result.reads = List.range' src distance) ∨
    (length < distance ∧ length < dmax ∧ result.errno = rcNegate eok ∧
      result.memory = overwrite memory dest (window memory src length ++ [0]) ∧
      result.reads = List.range' src (if length < slen then length + 1 else slen)) ∨
    (dmax ≤ length ∧ dmax ≤ distance ∧ result.errno = rcNegate esnospc ∧
      result.memory = overwrite memory dest (List.replicate dmax 0) ∧
      result.reads = List.range' src dmax) := by
  intro length
  subst ended
  unfold copyOutcome
  dsimp only
  split
  next overlap => exact .inl ⟨overlap.1, overlap.2, rfl, rfl, rfl⟩
  next apart =>
    split
    next fits => exact .inr (.inl ⟨by omega, fits, rfl, rfl, rfl⟩)
    next tooLong => exact .inr (.inr ⟨by omega, by omega, rfl, rfl, rfl⟩)

structure Copied (before after : Memory UInt8) (dest dmax src length : Nat) : Prop where
  fits : length < dmax
  text : window after dest length = window before src length
  ends : after (dest + length) = 0
  frame : ∀ position, position < dest ∨ dest + length < position →
    after position = before position

structure Zeroed (before after : Memory UInt8) (dest dmax : Nat) : Prop where
  zeros : window after dest dmax = List.replicate dmax 0
  frame : ∀ position, position < dest ∨ dest + dmax ≤ position →
    after position = before position

structure CopyContract (memory : Memory UInt8) (dest dmax src slen : Nat) (result : CopyResult) :
    Prop where
  copied : result.errno = eok →
    Copied memory result.memory dest dmax src (textLength memory src slen)
  zeroed : result.errno ≠ eok → Zeroed memory result.memory dest dmax
  completes : textLength memory src slen < Nat.dist dest src →
    textLength memory src slen < dmax → result.errno = eok
  reads : ∀ position ∈ result.reads, ∃ index, index < slen ∧ index < dmax ∧
    position = src + index
  terminated : ∃ index < dmax, result.memory (dest + index) = 0

theorem zeroed_overwrite :
    Zeroed memory (overwrite memory dest (List.replicate dmax 0)) dest dmax where
  zeros := by
    rw [window_overwrite (by rw [List.length_replicate]), List.take_replicate, Nat.min_self]
  frame := by
    intro position outside
    apply overwrite_outside
    rwa [List.length_replicate]

theorem copied_overwrite {length : Nat} (fits : length < dmax) :
    Copied memory (overwrite memory dest (window memory src length ++ [0])) dest dmax src
      length where
  fits := fits
  text := by
    rw [window_overwrite (by simp), List.take_left' window_length]
  ends := by
    rw [overwrite_inside (by simp)]
    exact List.getElem_concat_length window_length.symm _
  frame := by
    intro position outside
    apply overwrite_outside
    rw [List.length_append, window_length, List.length_singleton]
    omega

theorem Zeroed.terminated {after : Memory UInt8} (zeroed : Zeroed memory after dest dmax)
    (room : 1 ≤ dmax) : ∃ index < dmax, after (dest + index) = 0 := by
  have inside : 0 < (window after dest dmax).length := by rwa [window_length]
  have first := getElem_window inside
  refine ⟨0, room, ?_⟩
  rw [← first]
  simp only [zeroed.zeros, List.getElem_replicate]

theorem index_of_read {count position : Nat} (inText : count ≤ slen) (inRoom : count ≤ dmax)
    (read : position ∈ List.range' src count) :
    ∃ index, index < slen ∧ index < dmax ∧ position = src + index := by
  rw [List.mem_range'_1] at read
  exact ⟨position - src, by omega, by omega, by omega⟩

theorem copyContract_of_error {result : CopyResult} {count : Nat} (room : 1 ≤ dmax)
    (failed : result.errno ≠ eok)
    (after : result.memory = overwrite memory dest (List.replicate dmax 0))
    (reads : result.reads = List.range' src count) (inText : count ≤ slen) (inRoom : count ≤ dmax)
    (blocked : ¬(textLength memory src slen < Nat.dist dest src ∧
      textLength memory src slen < dmax)) :
    CopyContract memory dest dmax src slen result := by
  have zeroed : Zeroed memory result.memory dest dmax := by
    rw [after]
    exact zeroed_overwrite
  constructor
  case copied => exact fun ok => absurd ok failed
  case zeroed => exact fun _ => zeroed
  case completes => exact fun further fits => absurd ⟨further, fits⟩ blocked
  case reads =>
    intro position read
    rw [reads] at read
    exact index_of_read inText inRoom read
  case terminated => exact zeroed.terminated room

/-- The copy contract, for any two positions, overlapping or not. -/
theorem strncpyS_contract (memory : Memory UInt8) (dest src : Nat) (room : 1 ≤ dmax)
    (roomLimit : dmax ≤ rsizeMaxStr) (length : 1 ≤ slen) (lengthLimit : slen ≤ rsizeMaxStr) :
    CopyContract memory dest dmax src slen
      (strncpyS memory (some dest) dmax (some src) slen) := by
  have bound := @textLength_le memory src slen
  have overlapFails : rcNegate esovrlp ≠ eok := by decide
  have spaceFails : rcNegate esnospc ≠ eok := by decide
  have ended := (@strncpyS_eq memory dest dmax src slen room roomLimit length lengthLimit).symm
  rcases copyOutcome_cases ended with ⟨met, inRoom, errno, after, reads⟩ |
    ⟨clear, fits, errno, after, reads⟩ | ⟨tooLong, clear, errno, after, reads⟩
  · rw [← errno] at overlapFails
    exact copyContract_of_error room overlapFails after reads (by omega) (by omega) (by omega)
  · have copied : Copied memory (strncpyS memory (some dest) dmax (some src) slen).memory dest
        dmax src (textLength memory src slen) := by
      rw [after]
      exact copied_overwrite fits
    constructor
    case copied => exact fun _ => copied
    case zeroed => exact fun failed => absurd errno failed
    case completes => exact fun _ _ => errno
    case reads =>
      intro position read
      rw [reads] at read
      split at read
      · exact index_of_read (by omega) (by omega) read
      · exact index_of_read (by omega) (by omega) read
    case terminated => exact ⟨_, fits, copied.ends⟩
  · rw [← errno] at spaceFails
    exact copyContract_of_error room spaceFails after reads (by omega) (by omega) (by omega)

/-- Three bytes to be copied two positions further on, onto the last of them. -/
theorem strncpyS_contract_overlapping :
    CopyContract (fun position => if position < 3 then 97 else 0) 2 8 0 5
      (strncpyS (fun position => if position < 3 then 97 else 0) (some 2) 8 (some 0) 5) :=
  strncpyS_contract _ 2 0 (by decide) (by decide) (by decide) (by decide)

/-- Some byte to be written is one that has to be read: the text, and the NUL it
ends with when that is looked at. -/
def Overlaps (memory : Memory UInt8) (dest src slen : Nat) : Prop :=
  ∃ written read, written ≤ textLength memory src slen ∧
    (read < textLength memory src slen ∨ read = textLength memory src slen ∧ read < slen) ∧
    dest + written = src + read

structure ReportsOverlap (memory : Memory UInt8) (dest dmax src slen : Nat) : Prop where
  reported : (strncpyS memory (some dest) dmax (some src) slen).errno = rcNegate esovrlp ↔
    Overlaps memory dest src slen
  apart : ¬Overlaps memory dest src slen →
    (strncpyS memory (some dest) dmax (some src) slen).errno = eok

theorem strncpyS_errno (room : 1 ≤ dmax) (roomLimit : dmax ≤ rsizeMaxStr) (length : 1 ≤ slen)
    (lengthLimit : slen ≤ rsizeMaxStr) (fits : textLength memory src slen < dmax) :
    (strncpyS memory (some dest) dmax (some src) slen).errno =
      if Nat.dist dest src ≤ textLength memory src slen then rcNegate esovrlp else eok := by
  rw [strncpyS_eq room roomLimit length lengthLimit, copyOutcome]
  by_cases near : Nat.dist dest src ≤ textLength memory src slen
  · rw [if_pos (by omega), if_pos near]
  · rw [if_neg (by omega), if_pos fits, if_neg near]
    rfl

theorem overlaps_iff (length : 1 ≤ slen) :
    Overlaps memory dest src slen ↔ Nat.dist dest src ≤ textLength memory src slen ∧
      ¬(dest = src + slen ∧ textLength memory src slen = slen) := by
  have bound := @textLength_le memory src slen
  constructor
  · rintro ⟨written, read, inDest, inText, same⟩
    rw [Nat.dist]
    omega
  · rintro ⟨near, notBehind⟩
    rw [Nat.dist] at near
    by_cases below : dest < src
    · exact ⟨src - dest, 0, by omega, by omega, by omega⟩
    · exact ⟨0, dest - src, by omega, by omega, by omega⟩

theorem textLength_eq_iff :
    textLength memory src slen = slen ↔ ∀ index < slen, memory (src + index) ≠ 0 := by
  constructor
  · intro whole index inside
    exact ne_of_lt_idxOf (Nat.lt_of_lt_of_eq inside whole.symm)
  · intro noNul
    exact idxOf_window_eq (Nat.le_refl slen) noNul fun inside => absurd inside (Nat.lt_irrefl slen)

/-- Overlap is reported exactly, but for a destination that begins right behind
a text cut off at `slen`. -/
theorem strncpyS_reportsOverlap_iff (memory : Memory UInt8) (dest src : Nat) (room : 1 ≤ dmax)
    (roomLimit : dmax ≤ rsizeMaxStr) (length : 1 ≤ slen) (lengthLimit : slen ≤ rsizeMaxStr)
    (fits : textLength memory src slen < dmax) :
    ReportsOverlap memory dest dmax src slen ↔
      ¬(dest = src + slen ∧ ∀ index < slen, memory (src + index) ≠ 0) := by
  have returned := @strncpyS_errno memory dest dmax src slen room roomLimit length lengthLimit fits
  have overlaps := @overlaps_iff memory dest src slen length
  rw [← textLength_eq_iff]
  constructor
  · rintro reports behind
    have near : Nat.dist dest src ≤ textLength memory src slen := by
      rw [Nat.dist]
      omega
    rw [if_pos near] at returned
    exact (overlaps.mp (reports.reported.mp returned)).2 behind
  · intro notBehind
    constructor
    · rw [returned, overlaps]
      split
      next near => exact ⟨fun _ => ⟨near, notBehind⟩, fun _ => rfl⟩
      next far => exact ⟨fun same => absurd same (by decide), fun both => absurd both.1 far⟩
    · intro clear
      rw [returned, if_neg]
      intro near
      exact clear (overlaps.mpr ⟨near, notBehind⟩)

theorem strncpyS_reportsOverlap_iff_text_ends :
    ReportsOverlap (fun position => if position < 3 then 97 else 0) 5 8 0 5 :=
  (strncpyS_reportsOverlap_iff _ 5 0 (by decide) (by decide) (by decide) (by decide)
    (by decide)).mpr (by decide)

end

/-- Three bytes without a NUL are to be copied right behind themselves. -/
theorem strncpyS_rejects_adjacent :
    let memory : Memory UInt8 := fun position => if position < 3 then 97 else 0
    (strncpyS memory (some 3) 8 (some 0) 3).errno = rcNegate esovrlp ∧
      ¬Overlaps memory 3 0 3 ∧ ¬ReportsOverlap memory 3 8 0 3 := by
  intro memory
  have rejected : (strncpyS memory (some 3) 8 (some 0) 3).errno = rcNegate esovrlp := by decide
  have clear : ¬Overlaps memory 3 0 3 := by
    rintro ⟨written, read, _, inText, same⟩
    have length : textLength memory 0 3 = 3 := by decide
    omega
  refine ⟨rejected, clear, ?_⟩
  intro reports
  exact clear (reports.reported.mp rejected)

end RioClient
