import RioClient.ArgsCore
import RioClient.WinsockReference

/-!
What `Check` accepts. On the texts `inet_ntop` writes, the token loop of
`isValidMulticastIp` puts the address together again.
-/

namespace RioClient

open WinsockReference

theorem isSpace_of_isDigit {symbol : Char} (digit : symbol.isDigit = true) :
    isSpace symbol = false := by
  simp only [Char.isDigit, Bool.and_eq_true, decide_eq_true_eq, UInt32.le_iff_toNat_le] at digit
  have other : symbol ≠ ' ' := by
    rintro rfl
    exact absurd digit.1 (by decide)
  have above : ¬symbol ≤ '\r' := by
    intro below
    have low : (48 : Nat) ≤ symbol.val.toNat := digit.1
    have high : symbol.val.toNat ≤ 13 := UInt32.le_iff_toNat_le.mp (Char.le_def.mp below)
    omega
  simp [isSpace, other, above]

theorem takeSign_of_isDigit {symbol : Char} {rest : Text} (digit : symbol.isDigit = true) :
    takeSign (symbol :: rest) = (false, symbol :: rest) := by
  unfold takeSign
  split
  · rename_i same
    cases same
    exact absurd digit (by decide)
  · rename_i same
    cases same
    exact absurd digit (by decide)
  · rfl

theorem stoi_toDigits {value : Nat} (small : value < 2147483648) :
    stoi (Nat.toDigits 10 value) = .ok (Int32.ofNat value) := by
  have digits : ∀ symbol ∈ Nat.toDigits 10 value, symbol.isDigit = true :=
    fun symbol => Nat.isDigit_of_mem_toDigits (by decide) (by decide)
  have number : Nat.ofDigitChars 10 (Nat.toDigits 10 value) 0 = value :=
    Nat.ofDigitChars_ten_toDigits
  have all : (Nat.toDigits 10 value).takeWhile Char.isDigit = Nat.toDigits 10 value :=
    List.takeWhile_eq_self_iff.mpr digits
  have fits : ¬((value : Int) < -2147483648 ∨ 2147483647 < (value : Int)) := by omega
  cases text : Nat.toDigits 10 value with
  | nil => exact absurd text Nat.toDigits_ne_nil
  | cons symbol rest =>
      rw [text] at digits number all
      have digit := digits symbol List.mem_cons_self
      rw [stoi, List.dropWhile_cons_of_neg (by simp [isSpace_of_isDigit digit]),
        takeSign_of_isDigit digit]
      simp only [all, number, List.isEmpty_cons, Bool.false_eq_true, ↓reduceIte, if_neg fits,
        Int32.ofInt_eq_ofNat]

theorem toNat_shiftLeft_or {mcip byte : UInt32} (small : mcip.toNat < 256 ^ 3)
    (isByte : byte.toNat < 256) :
    (mcip <<< 8 ||| byte).toNat = mcip.toNat * 256 + byte.toNat := by
  have shifted : (mcip <<< 8).toNat = 2 ^ 8 * mcip.toNat := by
    rw [UInt32.toNat_shiftLeft, show (8 : UInt32).toNat % 32 = 8 from rfl, Nat.shiftLeft_eq,
      Nat.mod_eq_of_lt (by omega), Nat.mul_comm]
  rw [UInt32.toNat_or, shifted, ← Nat.two_pow_add_eq_or_of_lt isByte]
  omega

theorem assembleIp_byte {byte : Nat} (isByte : byte < 256) (rest : List Int32) (mcip : UInt32) :
    assembleIp (Int32.ofNat byte :: rest) mcip = assembleIp rest
      (if rest.isEmpty then mcip ||| UInt32.ofNat byte
        else (mcip ||| UInt32.ofNat byte) <<< 8) := by
  have signed : (Int32.ofNat byte).toInt = byte :=
    Int32.toInt_ofNat_of_lt (by omega)
  have inside : ¬(Int32.ofNat byte > 255 ∨ Int32.ofNat byte < 0) := by
    rw [gt_iff_lt, Int32.lt_iff_toInt_lt, Int32.lt_iff_toInt_lt, signed,
      show (255 : Int32).toInt = 255 from rfl, show (0 : Int32).toInt = 0 from rfl]
    omega
  have same : (Int32.ofNat byte).toUInt32.toUInt8.toUInt32 = UInt32.ofNat byte := by
    apply UInt32.toNat_inj.mp
    simp
    omega
  rw [assembleIp, if_neg inside, same]

theorem assembleIp_bytes {first second third fourth : Nat} (firstByte : first < 256)
    (secondByte : second < 256) (thirdByte : third < 256) (fourthByte : fourth < 256) :
    assembleIp ([first, second, third, fourth].map Int32.ofNat) 0 =
      some (ofOctets first second third fourth) := by
  simp only [List.map_cons, List.map_nil]
  rw [assembleIp_byte firstByte, assembleIp_byte secondByte, assembleIp_byte thirdByte,
    assembleIp_byte fourthByte, assembleIp]
  simp only [List.isEmpty_cons, List.isEmpty_nil, Bool.false_eq_true, ↓reduceIte, UInt32.zero_or,
    Option.some.injEq]
  apply UInt32.toNat_inj.mp
  have exact {byte : Nat} (isByte : byte < 256) : (UInt32.ofNat byte).toNat = byte :=
    UInt32.toNat_ofNat_of_lt' (Nat.lt_trans isByte (by decide))
  have one := exact firstByte
  have two := exact secondByte
  have three := exact thirdByte
  have four := exact fourthByte
  have upTwo := @toNat_shiftLeft_or (UInt32.ofNat first) (UInt32.ofNat second) (by omega) (by omega)
  have upThree := @toNat_shiftLeft_or (UInt32.ofNat first <<< 8 ||| UInt32.ofNat second)
    (UInt32.ofNat third) (by omega) (by omega)
  rw [toNat_shiftLeft_or (by omega) (by omega),
    toNat_ofOctets firstByte secondByte thirdByte fourthByte]
  omega

namespace Ipv4Addr

def IsMulticast (ip : Ipv4Addr) : Prop :=
  ofOctets 224 0 0 1 ≤ ip.ipHostOrder ∧ ip.ipHostOrder ≤ ofOctets 239 255 255 255

instance (ip : Ipv4Addr) : Decidable ip.IsMulticast := inferInstanceAs (Decidable (_ ∧ _))

end Ipv4Addr

theorem toNat_minMcIp : minMcIp.toNat = (ofOctets 224 0 0 1).toNat := by
  rw [toNat_ofOctets (by decide) (by decide) (by decide) (by decide)]
  rfl

theorem toNat_maxMcIp : maxMcIp.toNat = (ofOctets 239 255 255 255).toNat := by
  rw [toNat_ofOctets (by decide) (by decide) (by decide) (by decide)]
  rfl

section
variable {winsock : Winsock}

theorem intTokens_str (prints : ∀ ip, winsock.inetNtop ip = dottedQuad (ntohl ip))
    (ip : Ipv4Addr) :
    ((ip.str winsock).splitOn '.').mapM stoi =
      .ok ([byteOf ip.ipHostOrder 3, byteOf ip.ipHostOrder 2, byteOf ip.ipHostOrder 1,
        byteOf ip.ipHostOrder 0].map Int32.ofNat) := by
  have read (index : Nat) : stoi (Nat.toDigits 10 (byteOf ip.ipHostOrder index)) =
      .ok (Int32.ofNat (byteOf ip.ipHostOrder index)) :=
    stoi_toDigits (Nat.lt_trans (byteOf_lt _ index) (by decide))
  rw [Ipv4Addr.str, prints, show ntohl ip.ipBe = ip.ipHostOrder from rfl,
    splitOn_dottedQuad]
  simp only [List.map_cons, List.map_nil, List.mapM_cons, List.mapM_nil, read]
  rfl

theorem isValidTokens_bytes (ip : Ipv4Addr) :
    isValidTokens ([byteOf ip.ipHostOrder 3, byteOf ip.ipHostOrder 2, byteOf ip.ipHostOrder 1,
      byteOf ip.ipHostOrder 0].map Int32.ofNat) = decide ip.IsMulticast := by
  rw [isValidTokens, if_neg (by simp),
    assembleIp_bytes (byteOf_lt _ 3) (byteOf_lt _ 2) (byteOf_lt _ 1) (byteOf_lt _ 0),
    ofOctets_byteOf]
  simp only [← Bool.decide_and]
  refine decide_eq_decide.mpr ?_
  rw [Ipv4Addr.IsMulticast, UInt64.le_iff_toNat_le, UInt64.le_iff_toNat_le,
    UInt32.le_iff_toNat_le, UInt32.le_iff_toNat_le, UInt32.toNat_toUInt64, toNat_minMcIp,
    toNat_maxMcIp]

theorem isValidMulticastIp_eq (prints : ∀ ip, winsock.inetNtop ip = dottedQuad (ntohl ip))
    (ipVect : List Ipv4Addr) :
    isValidMulticastIp winsock ipVect = .ok (ipVect.all fun ip => decide ip.IsMulticast) := by
  induction ipVect with
  | nil => rfl
  | cons ip rest ih =>
      rw [isValidMulticastIp, intTokens_str prints, ok_bind, isValidTokens_bytes, ih,
        List.all_cons]
      cases decide ip.IsMulticast with
      | false => rfl
      | true => rw [if_pos rfl, Bool.true_and]

theorem check_accepts_iff (standard : winsock.Standard) {args : Args} {line : Option Text} :
    check winsock (some args) = .ok (true, line) ↔ line = none ∧
      (args.command = "producer".toList ∨ args.command = "consumer".toList) ∧
      (∀ ip ∈ args.mcastAddrStr, ip.IsMulticast) ∧ args.ifIndex ≠ [] ∧
      (1024 ≤ args.mcastPort ∧ args.mcastPort ≤ 49151) ∧
      ¬(args.packetRate.toInt64.toUInt64 * UInt64.ofNat args.mcastAddrStr.length > 1000000 ∨
        args.packetRate < 1) := by
  rw [check, isValidMulticastIp_eq standard.ntop, ok_bind]
  have all : (!args.mcastAddrStr.all fun ip => decide ip.IsMulticast) = true ↔
      ¬∀ ip ∈ args.mcastAddrStr, ip.IsMulticast := by simp
  have port : args.mcastPort > 49151 ∨ args.mcastPort < 1024 ↔
      ¬(1024 ≤ args.mcastPort ∧ args.mcastPort ≤ 49151) := by
    rw [not_and_or, UInt16.not_le, UInt16.not_le, or_comm]
  simp only [all, port, pure, Except.pure]
  split
  next unknown => exact ⟨nofun, fun ⟨_, known, _⟩ => (known.elim unknown.1 unknown.2).elim⟩
  next known =>
    split
    next unicast => exact ⟨nofun, fun ⟨_, _, multicast, _⟩ => (unicast multicast).elim⟩
    next multicast =>
      split
      next empty => exact ⟨nofun, fun ⟨_, _, _, given, _⟩ => (given empty).elim⟩
      next given =>
        split
        next outside => exact ⟨nofun, fun ⟨_, _, _, _, inside, _⟩ => (outside inside).elim⟩
        next inside =>
          split
          next excess => exact ⟨nofun, fun ⟨_, _, _, _, _, right⟩ => (right excess).elim⟩
          next right =>
            have command : args.command = "producer".toList ∨ args.command = "consumer".toList := by
              by_contra neither
              exact known (not_or.mp neither)
            constructor
            · intro accepted
              cases accepted
              exact ⟨rfl, command, Classical.not_not.mp multicast, given,
                Classical.not_not.mp inside, right⟩
            · rintro ⟨rfl, _⟩
              rfl

theorem rate_accepted_iff {packetRate : Int32} {groups : Nat} (few : groups < 2 ^ 32) :
    ¬(packetRate.toInt64.toUInt64 * UInt64.ofNat groups > 1000000 ∨ packetRate < 1) ↔
      1 ≤ packetRate.toInt ∧ packetRate.toInt * groups ≤ 1000000 := by
  have bound := packetRate.toInt_lt
  rw [not_or, Int32.lt_iff_toInt_lt, show (1 : Int32).toInt = 1 from rfl, and_comm, Int.not_lt]
  refine and_congr_right fun positive => ?_
  have widened : packetRate.toInt64.toUInt64.toNat = packetRate.toInt.toNat := by
    rw [Int64.toNat_toUInt64_of_le (by
      rw [Int64.le_iff_toInt_le, Int32.toInt_toInt64]
      exact Int.le_trans (by decide) positive), Int64.toNatClampNeg, Int32.toInt_toInt64]
  have product : packetRate.toInt.toNat * groups < 2 ^ 64 :=
    calc packetRate.toInt.toNat * groups ≤ 2 ^ 31 * 2 ^ 32 :=
          Nat.mul_le_mul (by omega) (Nat.le_of_lt few)
      _ < 2 ^ 64 := by decide
  have exact : (packetRate.toInt64.toUInt64 * UInt64.ofNat groups).toNat =
      packetRate.toInt.toNat * groups := by
    rw [UInt64.toNat_mul, widened, UInt64.toNat_ofNat_of_lt' (by
      rw [show UInt64.size = 18446744073709551616 from rfl]
      omega), Nat.mod_eq_of_lt product]
  obtain ⟨rate, value⟩ := Int.eq_ofNat_of_zero_le (Int.le_trans (by decide) positive)
  rw [gt_iff_lt, UInt64.not_lt, UInt64.le_iff_toNat_le, exact, value, Int.toNat_natCast,
    show (1000000 : UInt64).toNat = 1000000 from rfl]
  omega

end

end RioClient
