import RioClient.ArgsCore

/-!
How `main` turns the `--nic` option into an address to bind to: `Utilities.hpp`
looks the adapter up in the list of `GetAdaptersAddresses`, and its address in
that of `GetAdaptersInfo`.
-/

namespace RioClient

abbrev WText := List UInt16

structure IpAdapterAddresses where
  ifIndex : UInt32
  friendlyName : WText

structure IpAdapterInfo where
  index : UInt32
  ipAddress : Text

/-- What the calls of `GetAdaptersAddresses` end in, with the buffer they fill. -/
inductive AdaptersAddresses
  | noMemory
  | noData
  | failed
  | filled (adapters : List IpAdapterAddresses)

/-- The two lists, where `none` is a `GetAdaptersInfo` that fails, and the
conversion from UTF-16 of the standard library. -/
structure AdapterApi where
  getAdaptersAddresses : AdaptersAddresses
  getAdaptersInfo : Option (List IpAdapterInfo)
  toBytes : WText → Except StdException Text

def nicIsNumber (nicString : Text) : Bool := nicString.all Char.isDigit

def adapterName (toBytes : WText → Except StdException Text) (isNumeric : Bool)
    (adapter : IpAdapterAddresses) : Except StdException Text :=
  if isNumeric then .ok (Nat.toDigits 10 adapter.ifIndex.toNat)
  else toBytes adapter.friendlyName

/-- The loop of `LocateAdapterWithIfName`; the index it stores has 8 bits. -/
def searchAdapter (toBytes : WText → Except StdException Text) (isNumeric : Bool)
    (ifNameToFind : Text) : List IpAdapterAddresses → Except StdException (Option UInt8)
  | [] => .ok none
  | adapter :: next => do
      let fName ← adapterName toBytes isNumeric adapter
      if fName = ifNameToFind then return some adapter.ifIndex.toUInt8
      else searchAdapter toBytes isNumeric ifNameToFind next

def locateAdapterWithIfName (api : AdapterApi) (ifNameToFind : Text) :
    Except StdException UInt8 :=
  match api.getAdaptersAddresses with
  | .noMemory => .error (.runtimeError
      "--- Memory Allocation failed for IP_ADAPTER_ADDRESSES struct \n".toList)
  | .noData => .error (.runtimeError "--- Unable to found any IPv4 Interface \n".toList)
  | .failed => .error (.runtimeError
      "-- Unexpected error trying to get Interface Info \n".toList)
  | .filled adapters => do
      let isNumeric := nicIsNumber ifNameToFind
      match ← searchAdapter api.toBytes isNumeric ifNameToFind adapters with
      | some ifIndex => return ifIndex
      | none =>
          let what := if isNumeric then "--- No interface with index: ".toList
            else "--- No interface with name: ".toList
          throw (.runtimeError (what ++ ifNameToFind ++ " was found \n".toList))

/-- The `int` is converted to a `DWORD` for the comparison. -/
def locateAdapterByIndex (index : Int32) (adapterInfo : List IpAdapterInfo) :
    Option IpAdapterInfo :=
  adapterInfo.find? fun adapter => adapter.index = index.toUInt32

def getInterfaceIpAddress (api : AdapterApi) (ifname : Text) : Except StdException Text :=
  let ipAddress := "0.0.0.0".toList
  match api.getAdaptersInfo with
  | none => .ok ipAddress
  | some adapterInfo =>
      match stoi ifname with
      | .error (.invalidArgument _) => .ok ipAddress
      | .error thrown => .error thrown
      | .ok index =>
          match locateAdapterByIndex index adapterInfo with
          | some adapter => .ok adapter.ipAddress
          | none => .ok ipAddress

/-- The two assignments of `main` to `args.IfIndex`. -/
def resolveIfIndex (api : AdapterApi) (ifIndex : Text) : Except StdException Text := do
  let located ← locateAdapterWithIfName api ifIndex
  getInterfaceIpAddress api (Nat.toDigits 10 located.toNat)

end RioClient
