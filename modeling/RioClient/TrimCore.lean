import RioClient.NetworkCore

/-!
`rtrim`, `ltrim` and `trim`, and what they use of `std::string`. A position is a
`size_t`, which wraps around, and the greatest of them is `npos`.
-/

namespace RioClient

def npos : UInt64 := 0xFFFFFFFFFFFFFFFF

/-- A `std::string`: no position in it, nor its size, is `npos`. -/
@[ext]
structure StdString where
  chars : Text
  bounded : chars.length < npos.toNat
deriving DecidableEq

namespace StdString

def size (s : StdString) : UInt64 := UInt64.ofNat s.chars.length

def findFirstNotOf (s t : StdString) : UInt64 :=
  match s.chars.findIdx? (· ∉ t.chars) with
  | some index => UInt64.ofNat index
  | none => npos

def findLastNotOf (s t : StdString) : UInt64 :=
  match s.chars.reverse.findIdx? (· ∉ t.chars) with
  | some behind => UInt64.ofNat (s.chars.length - 1 - behind)
  | none => npos

/-- `erase`: the characters from `pos` on go, `count` of them or as many as there are. -/
def erase (s : StdString) (pos count : UInt64) : Except StdException StdString :=
  if pos > s.size then .error (.outOfRange "invalid string position".toList)
  else .ok {
    chars := s.chars.take pos.toNat ++ s.chars.drop (pos.toNat + count.toNat)
    bounded := by
      have bounded := s.bounded
      rw [List.length_append, List.length_take, List.length_drop]
      omega
  }

end StdString

def blanks : StdString := ⟨[' ', '\t', '\n', '\r', '\x0c', '\x0b'], by decide⟩

/-- The count that `erase` is called with here is its default, `npos`. -/
def rtrim (s : StdString) (t : StdString := blanks) : Except StdException StdString :=
  s.erase (s.findLastNotOf t + 1) npos

def ltrim (s : StdString) (t : StdString := blanks) : Except StdException StdString :=
  s.erase 0 (s.findFirstNotOf t)

def trim (s : StdString) (t : StdString := blanks) : Except StdException StdString := do
  ltrim (← rtrim s t) t

end RioClient
