import RioClient.Addresses

/-! A reference implementation of the two Winsock conversions, so that programs using them can be run. -/

namespace RioClient

namespace WinsockReference

def readOctet (part : Text) : Option Nat :=
  (List.range 256).find? fun octet => decide (Nat.toDigits 10 octet = part)

def ofOctets (first second third fourth : Nat) : UInt32 :=
  UInt32.ofNat (first * 256 ^ 3 + second * 256 ^ 2 + third * 256 + fourth)

def inetPton (text : Text) : Option UInt32 :=
  match text.splitOn '.' with
  | [first, second, third, fourth] => do
      return htonl (ofOctets (← readOctet first) (← readOctet second) (← readOctet third)
        (← readOctet fourth))
  | _ => none

def inetNtop (ip : UInt32) : Text := dottedQuad (ntohl ip)

theorem toDigits_injective : Function.Injective (Nat.toDigits 10) := by
  intro first second same
  have read := congrArg (fun text => Nat.ofDigitChars 10 text 0) same
  simpa only [Nat.ofDigitChars_ten_toDigits] using read

theorem readOctet_sound {part : Text} {octet : Nat} (read : readOctet part = some octet) :
    octet < 256 ∧ Nat.toDigits 10 octet = part := by
  unfold readOctet at read
  have bounded := List.mem_range.mp (List.mem_of_find?_eq_some read)
  have canonical := List.find?_some read
  exact ⟨bounded, of_decide_eq_true canonical⟩

theorem readOctet_toDigits {octet : Nat} (bounded : octet < 256) :
    readOctet (Nat.toDigits 10 octet) = some octet := by
  cases read : readOctet (Nat.toDigits 10 octet) with
  | none =>
      have missing := List.find?_eq_none.mp read octet (List.mem_range.mpr bounded)
      exact absurd (decide_eq_true rfl) missing
  | some other => rw [toDigits_injective (readOctet_sound read).2]

theorem toNat_ofOctets {first second third fourth : Nat} (firstByte : first < 256)
    (secondByte : second < 256) (thirdByte : third < 256) (fourthByte : fourth < 256) :
    (ofOctets first second third fourth).toNat =
      first * 256 ^ 3 + second * 256 ^ 2 + third * 256 + fourth := by
  refine UInt32.toNat_ofNat_of_lt' ?_
  rw [show UInt32.size = 4294967296 from rfl]
  omega

theorem dottedQuad_ofOctets {first second third fourth : Nat} (firstByte : first < 256)
    (secondByte : second < 256) (thirdByte : third < 256) (fourthByte : fourth < 256) :
    dottedQuad (ofOctets first second third fourth) =
      ['.'].intercalate ([first, second, third, fourth].map (Nat.toDigits 10)) := by
  have bytes : [byteOf (ofOctets first second third fourth) 3,
      byteOf (ofOctets first second third fourth) 2, byteOf (ofOctets first second third fourth) 1,
      byteOf (ofOctets first second third fourth) 0] = [first, second, third, fourth] := by
    simp only [byteOf, toNat_ofOctets firstByte secondByte thirdByte fourthByte, List.cons.injEq,
      and_true]
    omega
  rw [dottedQuad, bytes]

theorem ofOctets_byteOf (host : UInt32) :
    ofOctets (byteOf host 3) (byteOf host 2) (byteOf host 1) (byteOf host 0) = host := by
  rw [ofOctets, ← toNat_eq_bytes]
  exact UInt32.ofNat_toNat

theorem splitOn_dottedQuad (host : UInt32) :
    (dottedQuad host).splitOn '.' =
      [byteOf host 3, byteOf host 2, byteOf host 1, byteOf host 0].map (Nat.toDigits 10) := by
  exact List.splitOn_intercalate '.' dot_not_mem_digits (by simp)

theorem inetPton_dottedQuad (host : UInt32) : inetPton (dottedQuad host) = some (htonl host) := by
  have octets : ∀ index, readOctet (Nat.toDigits 10 (byteOf host index)) = some (byteOf host index) :=
    fun index => readOctet_toDigits (byteOf_lt host index)
  simp only [inetPton, splitOn_dottedQuad, List.map_cons, List.map_nil, octets]
  exact congrArg (fun value => some (htonl value)) (ofOctets_byteOf host)

theorem eq_dottedQuad_of_inetPton {text : Text} {ip : UInt32} (parsed : inetPton text = some ip) :
    text = dottedQuad (ntohl ip) := by
  unfold inetPton at parsed
  split at parsed
  · rename_i first second third fourth parts
    simp only [Option.bind_eq_bind, Option.bind_eq_some_iff] at parsed
    obtain ⟨a, aRead, b, bRead, c, cRead, d, dRead, value⟩ := parsed
    obtain ⟨aByte, rfl⟩ := readOctet_sound aRead
    obtain ⟨bByte, rfl⟩ := readOctet_sound bRead
    obtain ⟨cByte, rfl⟩ := readOctet_sound cRead
    obtain ⟨dByte, rfl⟩ := readOctet_sound dRead
    cases value
    rw [ntohl_htonl, dottedQuad_ofOctets aByte bByte cByte dByte, List.map_cons, List.map_cons,
      List.map_cons, List.map_cons, List.map_nil, ← parts, List.intercalate_splitOn]
  · cases parsed

end WinsockReference

open WinsockReference in
def referenceWinsock : Winsock := ⟨inetPton, inetNtop⟩

open WinsockReference in
theorem referenceWinsock_standard : referenceWinsock.Standard where
  pton text ip := by
    constructor
    · exact eq_dottedQuad_of_inetPton
    · rintro rfl
      exact (inetPton_dottedQuad (ntohl ip)).trans (by rw [htonl_ntohl])
  ntop _ := rfl

end RioClient
