import RioClient.ListTrim
import RioClient.TrimCore

/-!
What `rtrim`, `ltrim` and `trim` leave of a string, also when nothing is found to
stay and one more than `npos` is 0.
-/

namespace RioClient

open ListTrim

namespace StdString

def contains (t : StdString) (symbol : Char) : Bool := symbol ∈ t.chars

variable (s t : StdString)

theorem notIn_eq : (fun symbol => decide (symbol ∉ t.chars)) = (!t.contains ·) := by
  funext symbol
  exact decide_not

theorem toNat_ofNat {index : Nat} (inside : index ≤ s.chars.length) :
    (UInt64.ofNat index).toNat = index := by
  have bounded := Nat.lt_of_le_of_lt inside s.bounded
  exact UInt64.toNat_ofNat_of_lt' (Nat.lt_trans bounded (by decide))

theorem erase_eq_ok {pos : UInt64} (count : UInt64) (inside : pos.toNat ≤ s.chars.length) :
    ∃ left, s.erase pos count = .ok left ∧
      left.chars = s.chars.take pos.toNat ++ s.chars.drop (pos.toNat + count.toNat) := by
  have within : ¬pos > s.size := by
    rw [gt_iff_lt, UInt64.lt_iff_toNat_lt, size, s.toNat_ofNat (Nat.le_refl _)]
    omega
  exact ⟨_, if_neg within, rfl⟩

theorem erase_from {pos : UInt64} (inside : pos.toNat ≤ s.chars.length) :
    ∃ left, s.erase pos npos = .ok left ∧ left.chars = s.chars.take pos.toNat := by
  obtain ⟨left, erased, chars⟩ := s.erase_eq_ok npos inside
  refine ⟨left, erased, ?_⟩
  have bounded := s.bounded
  rw [chars, List.drop_eq_nil_of_le (by omega), List.append_nil]

end StdString

variable (s t : StdString)

theorem rtrim_spec : ∃ left, rtrim s t = .ok left ∧
    left.chars = s.chars.rdropWhile t.contains := by
  rw [rtrim, StdString.findLastNotOf, t.notIn_eq]
  cases found : s.chars.reverse.findIdx? (!t.contains ·) with
  | none =>
      -- every character is in `t`: `npos + 1` wraps, and the whole string goes
      have start : (npos + 1).toNat ≤ s.chars.length := Nat.zero_le _
      obtain ⟨left, erased, chars⟩ := s.erase_from start
      refine ⟨left, erased, ?_⟩
      rw [chars, List.rdropWhile, dropWhile_of_none found]
      rfl
  | some behind =>
      obtain ⟨inside, dropped⟩ := dropWhile_of_some found
      rw [List.length_reverse] at inside
      have last : (UInt64.ofNat (s.chars.length - 1 - behind) + 1).toNat =
          s.chars.length - behind := by
        have bounded := s.bounded
        rw [UInt64.toNat_add, s.toNat_ofNat (by omega)]
        rw [show npos.toNat = 2 ^ 64 - 1 from rfl] at bounded
        rw [show (1 : UInt64).toNat = 1 from rfl]
        omega
      obtain ⟨left, erased, chars⟩ := s.erase_from (by rw [last]; omega)
      refine ⟨left, erased, ?_⟩
      rw [chars, last, List.rdropWhile, dropped, List.drop_reverse, List.reverse_reverse]

theorem ltrim_spec : ∃ left, ltrim s t = .ok left ∧
    left.chars = s.chars.dropWhile t.contains := by
  have start : (0 : UInt64).toNat ≤ s.chars.length := Nat.zero_le _
  rw [ltrim, StdString.findFirstNotOf, t.notIn_eq]
  cases found : s.chars.findIdx? (!t.contains ·) with
  | none =>
      obtain ⟨left, erased, chars⟩ := s.erase_from start
      refine ⟨left, erased, ?_⟩
      rw [chars, dropWhile_of_none found]
      rfl
  | some index =>
      obtain ⟨inside, dropped⟩ := dropWhile_of_some found
      obtain ⟨left, erased, chars⟩ := s.erase_eq_ok (UInt64.ofNat index) start
      refine ⟨left, erased, ?_⟩
      rw [chars, dropped, s.toNat_ofNat (Nat.le_of_lt inside), UInt64.toNat_zero, List.take_zero,
        List.nil_append, Nat.zero_add]

theorem trim_spec : ∃ trimmed, trim s t = .ok trimmed ∧
    trimmed.chars = ListTrim.trim t.contains s.chars := by
  obtain ⟨right, rtrimmed, rightChars⟩ := rtrim_spec s t
  obtain ⟨trimmed, ltrimmed, chars⟩ := ltrim_spec right t
  refine ⟨trimmed, ?_, ?_⟩
  · rw [trim, rtrimmed, ok_bind, ltrimmed]
  · rw [chars, rightChars, ListTrim.trim]

theorem trim_trimmed {trimmed : StdString}
    (found : trimmed.chars = ListTrim.trim t.contains s.chars) : trim trimmed t = .ok trimmed := by
  obtain ⟨again, same, chars⟩ := trim_spec trimmed t
  have equal : again = trimmed := by
    apply StdString.ext
    rw [chars, found, trim_idempotent]
  rw [same, equal]

theorem ltrim_rtrim {trimmed : StdString}
    (found : trimmed.chars = ListTrim.trim t.contains s.chars) :
    (ltrim s t >>= (rtrim · t)) = .ok trimmed := by
  obtain ⟨left, ltrimmed, leftChars⟩ := ltrim_spec s t
  obtain ⟨other, rtrimmed, chars⟩ := rtrim_spec left t
  have equal : other = trimmed := by
    apply StdString.ext
    rw [chars, leftChars, found, rdropWhile_dropWhile_comm, ListTrim.trim]
  rw [ltrimmed, ok_bind, rtrimmed, equal]

/-- `trim` never throws, and takes off exactly the outer characters that are in `t`. -/
theorem trim_outer (s t : StdString) :
    ∃ trimmed, trim s t = .ok trimmed ∧
      (∃ p q, s.chars = p ++ trimmed.chars ++ q ∧
        (∀ symbol ∈ p, symbol ∈ t.chars) ∧ ∀ symbol ∈ q, symbol ∈ t.chars) ∧
      (∀ nonempty : trimmed.chars ≠ [],
        trimmed.chars.head nonempty ∉ t.chars ∧ trimmed.chars.getLast nonempty ∉ t.chars) ∧
      trim trimmed t = .ok trimmed ∧
      (ltrim s t >>= (rtrim · t)) = (rtrim s t >>= (ltrim · t)) := by
  obtain ⟨trimmed, returned, found⟩ := trim_spec s t
  obtain ⟨front, back, whole, frontOuter, backOuter⟩ := exists_trim t.contains s.chars
  have ends := trimmed_trim t.contains s.chars
  rw [← found] at whole ends
  refine ⟨trimmed, returned, ⟨front, back, whole, ?_, ?_⟩, ?_, ?_, ?_⟩
  · intro symbol member
    exact of_decide_eq_true (frontOuter symbol member)
  · intro symbol member
    exact of_decide_eq_true (backOuter symbol member)
  · intro nonempty
    obtain ⟨first, last⟩ := ends nonempty
    exact ⟨fun member => first (decide_eq_true member), fun member => last (decide_eq_true member)⟩
  · exact trim_trimmed s t found
  · exact (ltrim_rtrim s t found).trans returned.symm

end RioClient
