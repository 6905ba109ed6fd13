import Mathlib.Algebra.BigOperators.Group.List.Basic
import Mathlib.Algebra.Ring.Nat
import RioClient.FlatMemory

/-!
Unsigned numbers as little-endian bytes, and records of such numbers in a byte
memory: a field is read and written at a fixed distance from the record's start.
-/

namespace ByteFields

open FlatMemory

def littleEndian : Nat → Nat → List UInt8
  | 0, _ => []
  | width + 1, value => UInt8.ofNat value :: littleEndian width (value / 256)

def ofLittleEndian : List UInt8 → Nat
  | [] => 0
  | byte :: bytes => byte.toNat + 256 * ofLittleEndian bytes

@[simp] theorem length_littleEndian (width value : Nat) :
    (littleEndian width value).length = width := by
  induction width generalizing value with
  | zero => rfl
  | succ width ih => rw [littleEndian, List.length_cons, ih]

theorem ofLittleEndian_lt (bytes : List UInt8) : ofLittleEndian bytes < 256 ^ bytes.length := by
  induction bytes with
  | nil => exact Nat.one_pos
  | cons byte bytes ih =>
      have bound := byte.toNat_lt
      simp only [ofLittleEndian, List.length_cons, Nat.pow_succ]
      omega

theorem ofLittleEndian_littleEndian {width value : Nat} (fits : value < 256 ^ width) :
    ofLittleEndian (littleEndian width value) = value := by
  induction width generalizing value with
  | zero =>
      simp only [Nat.pow_zero] at fits
      simp only [littleEndian, ofLittleEndian]
      omega
  | succ width ih =>
      have rest : value / 256 < 256 ^ width := by
        rw [Nat.pow_succ] at fits
        omega
      simp only [littleEndian, ofLittleEndian, ih rest, UInt8.toNat_ofNat']
      omega

theorem littleEndian_ofLittleEndian (bytes : List UInt8) :
    littleEndian bytes.length (ofLittleEndian bytes) = bytes := by
  induction bytes with
  | nil => rfl
  | cons byte bytes ih =>
      have bound := byte.toNat_lt
      have rest : (byte.toNat + 256 * ofLittleEndian bytes) / 256 = ofLittleEndian bytes := by omega
      have first : UInt8.ofNat (byte.toNat + 256 * ofLittleEndian bytes) = byte := by
        apply UInt8.toNat_inj.mp
        rw [UInt8.toNat_ofNat']
        omega
      simp only [List.length_cons, ofLittleEndian, littleEndian, first, rest, ih]

def packed (numbers : List (Nat × Nat)) : List UInt8 :=
  numbers.flatMap fun number => littleEndian number.1 number.2

@[simp] theorem packed_nil : packed [] = [] := rfl

theorem packed_cons (number : Nat × Nat) (numbers : List (Nat × Nat)) :
    packed (number :: numbers) = littleEndian number.1 number.2 ++ packed numbers :=
  List.flatMap_cons

theorem eq_of_packed {first second : List (Nat × Nat)}
    (widths : first.map Prod.fst = second.map Prod.fst)
    (firstFits : ∀ number ∈ first, number.2 < 256 ^ number.1)
    (secondFits : ∀ number ∈ second, number.2 < 256 ^ number.1)
    (same : packed first = packed second) : first = second := by
  induction first generalizing second with
  | nil =>
      rw [List.map_nil, eq_comm, List.map_eq_nil_iff] at widths
      exact widths.symm
  | cons number first ih =>
      cases second with
      | nil => cases widths
      | cons other second =>
          obtain ⟨width, value⟩ := number
          obtain ⟨otherWidth, otherValue⟩ := other
          simp only [List.map_cons, List.cons.injEq] at widths
          obtain ⟨rfl, widths⟩ := widths
          rw [packed_cons, packed_cons] at same
          obtain ⟨here, behind⟩ := List.append_inj same (by rw [length_littleEndian,
            length_littleEndian])
          have fits := firstFits _ List.mem_cons_self
          have otherFits := secondFits _ List.mem_cons_self
          have values := congrArg ofLittleEndian here
          rw [ofLittleEndian_littleEndian fits, ofLittleEndian_littleEndian otherFits] at values
          have rest :=
            ih widths (fun later member => firstFits later (List.mem_cons_of_mem _ member))
            (fun later member => secondFits later (List.mem_cons_of_mem _ member)) behind
          rw [rest, show value = otherValue from values]

structure Field where
  offset : Nat
  width : Nat
deriving DecidableEq, Repr

namespace Field

def load (field : Field) (memory : Memory UInt8) (record : Nat) : Nat :=
  ofLittleEndian (window memory (record + field.offset) field.width)

def store (field : Field) (memory : Memory UInt8) (record value : Nat) : Memory UInt8 :=
  overwrite memory (record + field.offset) (littleEndian field.width value)

def Apart (field other : Field) : Prop :=
  field.offset + field.width ≤ other.offset ∨ other.offset + other.width ≤ field.offset

instance (field other : Field) : Decidable (field.Apart other) :=
  inferInstanceAs (Decidable (_ ∨ _))

variable {field other : Field} {memory : Memory UInt8} {record value start length : Nat}

theorem load_lt (field : Field) (memory : Memory UInt8) (record : Nat) :
    field.load memory record < 256 ^ field.width := by
  have bound := ofLittleEndian_lt (window memory (record + field.offset) field.width)
  rwa [window_length] at bound

theorem window_eq_littleEndian (field : Field) (memory : Memory UInt8) (record : Nat) :
    window memory (record + field.offset) field.width =
      littleEndian field.width (field.load memory record) := by
  have bytes := littleEndian_ofLittleEndian (window memory (record + field.offset) field.width)
  rw [window_length] at bytes
  exact bytes.symm

theorem load_store (fits : value < 256 ^ field.width) :
    field.load (field.store memory record value) record = value := by
  have written := @window_overwrite _ memory (record + field.offset) field.width
    (littleEndian field.width value) (Nat.le_of_eq (length_littleEndian _ _).symm)
  rw [List.take_of_length_le (Nat.le_of_eq (length_littleEndian _ _))] at written
  rw [load, store, written, ofLittleEndian_littleEndian fits]

theorem window_store_outside
    (outside : start + length ≤ record + field.offset ∨
      record + field.offset + field.width ≤ start) :
    window (field.store memory record value) start length = window memory start length := by
  apply window_overwrite_outside
  rw [length_littleEndian]
  exact outside

theorem window_store_record {size : Nat} (within : field.offset + field.width ≤ size)
    (outside : start + length ≤ record ∨ record + size ≤ start) :
    window (field.store memory record value) start length = window memory start length :=
  window_store_outside (by omega)

theorem load_store_apart (apart : field.Apart other) :
    other.load (field.store memory record value) record = other.load memory record := by
  rw [load, load, window_store_outside]
  unfold Apart at apart
  omega

end Field

def Consecutive : Nat → List Field → Prop
  | _, [] => True
  | start, field :: fields => field.offset = start ∧ Consecutive (start + field.width) fields

instance decidableConsecutive : (start : Nat) → (fields : List Field) →
    Decidable (Consecutive start fields)
  | _, [] => isTrue trivial
  | start, field :: fields =>
      @instDecidableAnd _ _ _ (decidableConsecutive (start + field.width) fields)

theorem window_eq_packed (memory : Memory UInt8) (record : Nat) {start : Nat}
    {fields : List Field} (consecutive : Consecutive start fields) :
    window memory (record + start) (fields.map Field.width).sum =
      packed (fields.map fun field => (field.width, field.load memory record)) := by
  induction fields generalizing start with
  | nil => rfl
  | cons field fields ih =>
      obtain ⟨rfl, consecutive⟩ := consecutive
      rw [List.map_cons, List.sum_cons, window_add, List.map_cons, packed_cons,
        field.window_eq_littleEndian, Nat.add_assoc, ih consecutive]

end ByteFields
