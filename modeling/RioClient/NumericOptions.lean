import RioClient.AcceptedArgs

/-!
The four numeric options. Each is a 32-bit signed integer when it is read, and
two of them are converted before `Check` sees them.
-/

namespace RioClient

structure SurvivesParsing (options : Options) (args : Args) : Prop where
  mcastPort : (args.mcastPort.toNat : Int) = options.mcastPort.toInt
  portLimits : 1024 ≤ options.mcastPort.toInt ∧ options.mcastPort.toInt ≤ 49151
  pktsToCount : (args.pktsToCount.toNat : Int) = options.totalPkts.toInt
  packetRate : args.packetRate.toInt = options.pps.toInt
  secondsToRun : args.secondsToRun.toInt = options.seconds.toInt

theorem toUInt32_emod (value : Int32) :
    (value.toUInt32.toNat : Int) = value.toInt % 2 ^ 32 := by
  have bits : (value.toUInt32.toNat : Int) = (value.toBitVec.toNat : Int) := rfl
  have signed : value.toInt = value.toBitVec.toInt := rfl
  have bound := value.toBitVec.isLt
  rw [bits, signed, BitVec.toInt_eq_toNat_cond]
  split <;> omega

section
variable {options : Options} {args : Args} {winsock : Winsock} {line : Option Text}

theorem mcastPort_of_accepted (accepted : check winsock (some args) = .ok (true, line)) :
    1024 ≤ args.mcastPort.toNat ∧ args.mcastPort.toNat ≤ 49151 := by
  simp only [check, pure, Except.pure] at accepted
  split at accepted
  · cases accepted
  · obtain ⟨multicast, _, rest⟩ := bind_eq_ok.mp accepted
    split at rest
    · cases rest
    · split at rest
      · cases rest
      · split at rest
        · cases rest
        · rename_i inside
          rw [not_or, gt_iff_lt, UInt16.not_lt, UInt16.not_lt, UInt16.le_iff_toNat_le,
            UInt16.le_iff_toNat_le] at inside
          exact ⟨inside.2, inside.1⟩

/-- Accepted options survive exactly when the port fits into 16 bits and the
packet limit is not negative. -/
theorem numericOptions_survive_iff (returned : parseArguments winsock options = .ok args)
    (accepted : check winsock (some args) = .ok (true, line)) :
    SurvivesParsing options args ↔
      (0 ≤ options.mcastPort.toInt ∧ options.mcastPort.toInt < 65536) ∧
        0 ≤ options.totalPkts.toInt := by
  obtain ⟨mcastAddrStr, rfl⟩ : ∃ mcastAddrStr, args = options.toArgs mcastAddrStr := by
    obtain ⟨_, _, built⟩ := parseArguments_eq_ok returned
    exact ⟨_, built⟩
  obtain ⟨least, most⟩ := mcastPort_of_accepted accepted
  have port : ((options.toArgs mcastAddrStr).mcastPort.toNat : Int) =
      options.mcastPort.toInt % 65536 := by
    have narrowed : (options.toArgs mcastAddrStr).mcastPort.toNat =
        options.mcastPort.toUInt32.toNat % 65536 := UInt32.toNat_toUInt16 _
    have word := toUInt32_emod options.mcastPort
    omega
  have packets : ((options.toArgs mcastAddrStr).pktsToCount.toNat : Int) =
      options.totalPkts.toInt % 2 ^ 32 := toUInt32_emod options.totalPkts
  constructor
  · intro survives
    have samePort := survives.mcastPort
    have samePackets := survives.pktsToCount
    omega
  · rintro ⟨⟨positive, narrow⟩, counted⟩
    have bound := options.totalPkts.toInt_lt
    refine ⟨by omega, by omega, by omega, rfl, rfl⟩

end

open WinsockReference

def givenOptions : Options where
  command := "producer".toList
  mcastIp := "239.5.69.2-239.5.69.3".toList
  mcastPort := 49151
  totalPkts := 2147483647
  pps := 500
  seconds := -1

theorem numericOptions_survive_iff_given : ∃ args,
    parseArguments referenceWinsock givenOptions = .ok args ∧
    args.mcastPort = 49151 ∧ args.pktsToCount = 2147483647 ∧ args.packetRate = 500 ∧
    args.secondsToRun = -1 ∧ SurvivesParsing givenOptions args := by
  have returned := @parseArguments_twoGroups givenOptions rfl
  have limits : (0 ≤ givenOptions.mcastPort.toInt ∧ givenOptions.mcastPort.toInt < 65536) ∧
      0 ≤ givenOptions.totalPkts.toInt := by decide
  exact ⟨_, returned, rfl, rfl, rfl, rfl,
    (@numericOptions_survive_iff _ _ _ none returned rfl).mpr limits⟩

/-- Port 75536 is taken for 10000, and a limit of -1 packets for 4294967295. -/
theorem numericOptions_wrapped : ∃ args,
    parseArguments referenceWinsock
      { command := "producer".toList, mcastIp := "239.5.69.2-239.5.69.3".toList,
        mcastPort := 75536, totalPkts := -1 } = .ok args ∧
    check referenceWinsock (some args) = .ok (true, none) ∧
    args.mcastPort = 10000 ∧ args.pktsToCount = 4294967295 ∧
    ¬SurvivesParsing
      { command := "producer".toList, mcastIp := "239.5.69.2-239.5.69.3".toList,
        mcastPort := 75536, totalPkts := -1 } args := by
  have returned := @parseArguments_twoGroups
    { command := "producer".toList, mcastIp := "239.5.69.2-239.5.69.3".toList,
      mcastPort := 75536, totalPkts := -1 } rfl
  refine ⟨_, returned, rfl, rfl, rfl, ?_⟩
  intro survives
  exact absurd survives.portLimits.2 (by decide)

end RioClient
