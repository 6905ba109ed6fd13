import RioClient.RangeCore
import RioClient.SessionCore

/-!
`args.cpp`: the options become the arguments of a session, and `Check` decides
whether a session is started with them.
-/

namespace RioClient

/-- What the option parser hands over for each option, with the declared defaults. -/
structure Options where
  command : Text
  nic : Text := "Ethernet".toList
  mcastIp : Text := "239.5.69.2".toList
  mcastPort : Int32 := 10000
  totalPkts : Int32 := 20000000
  pps : Int32 := 1
  seconds : Int32 := 0

def Options.toArgs (options : Options) (mcastAddrStr : List Ipv4Addr) : Args where
  command := cStr options.command
  ifIndex := cStr options.nic
  mcastAddrStr := mcastAddrStr
  mcastPort := options.mcastPort.toUInt32.toUInt16
  pktsToCount := options.totalPkts.toUInt32.toUInt64
  packetRate := options.pps
  secondsToRun := options.seconds

def parseArguments (winsock : Winsock) (options : Options) : Except StdException Args := do
  let defaultIpv4 ← Ipv4Addr.ofText winsock "239.5.69.2".toList
  let mcastAddrStr ← parseDestinations winsock options.mcastIp defaultIpv4
  return options.toArgs mcastAddrStr

def isSpace (symbol : Char) : Bool := symbol = ' ' || ('\t' ≤ symbol && symbol ≤ '\r')

def takeSign : Text → Bool × Text
  | '-' :: rest => (true, rest)
  | '+' :: rest => (false, rest)
  | rest => (false, rest)

/-- `std::stoi`: white space, a sign, and the digits up to the first other character. -/
def stoi (str : Text) : Except StdException Int32 :=
  let (negative, rest) := takeSign (str.dropWhile isSpace)
  let digits := rest.takeWhile Char.isDigit
  if digits.isEmpty then .error (.invalidArgument "invalid stoi argument".toList)
  else
    let magnitude : Int := Nat.ofDigitChars 10 digits 0
    let value := if negative then -magnitude else magnitude
    if value < -2147483648 ∨ 2147483647 < value then
      .error (.outOfRange "stoi argument out of range".toList)
    else .ok (Int32.ofInt value)

def minMcIp : UInt64 := 0xE0000001
def maxMcIp : UInt64 := 0xEFFFFFFF

/-- The inner loop of `isValidMulticastIp`: `none` where a token is no byte. -/
def assembleIp : List Int32 → UInt32 → Option UInt32
  | [], mcip => some mcip
  | token :: rest, mcip =>
      if token > 255 ∨ token < 0 then none
      else
        let mcip := mcip ||| token.toUInt32.toUInt8.toUInt32
        assembleIp rest (if rest.isEmpty then mcip else mcip <<< 8)

def isValidTokens (intTokens : List Int32) : Bool :=
  if intTokens.length ≠ 4 then false
  else match assembleIp intTokens 0 with
    | none => false
    | some mcip => decide (minMcIp ≤ mcip.toUInt64) && decide (mcip.toUInt64 ≤ maxMcIp)

def isValidMulticastIp (winsock : Winsock) : List Ipv4Addr → Except StdException Bool
  | [] => .ok true
  | mcipstr :: rest => do
      let intTokens ← ((mcipstr.str winsock).splitOn '.').mapM stoi
      if isValidTokens intTokens then isValidMulticastIp winsock rest else return false

def errorMessage (message : String) : Text := "Error: ".toList ++ message.toList

/-- `Check`, with the line it prints. The rate is multiplied as a `size_t`,
before its sign is looked at. -/
def check (winsock : Winsock) : Option Args → Except StdException (Bool × Option Text)
  | none => .ok (false, none)
  | some args => do
      if args.command ≠ "producer".toList ∧ args.command ≠ "consumer".toList then
        return (false, errorMessage "Invalid Command. Expected producer or consumer.")
      if !(← isValidMulticastIp winsock args.mcastAddrStr) then
        return (false, errorMessage
          "Invalid Multicast IP. Expected value between 224.0.0.1 and 239.255.255.255")
      if args.ifIndex = [] then
        return (false, errorMessage "Invalid IfIndex.")
      if args.mcastPort > 49151 ∨ args.mcastPort < 1024 then
        return (false, errorMessage
          "Invalid Multicast Port. Expected value between 1024 and 49151.")
      if args.packetRate.toInt64.toUInt64 * UInt64.ofNat args.mcastAddrStr.length > 1000000 ∨
          args.packetRate < 1 then
        return (false, errorMessage
          "Invalid Packet Rate. Expected a value between 0 and 1M. (Sum of all pps per group")
      return (true, none)

end RioClient
