import RioClient.ArgsCore

/-!
`OptionParser::ParseArguments` as a whole: the library reads the argument
vector and hands the texts of the numeric options to callbacks of the program.
-/

namespace RioClient

/-- The options that are given an `.action`. -/
inductive NumericOption
  | mcastPort
  | totalPkts
  | pps
  | seconds
deriving DecidableEq, Repr

def NumericOption.complaint : NumericOption → Text
  | mcastPort => "Integer expected for port number".toList
  | totalPkts => "Expected a valid packet number to receive".toList
  | pps => "Integer expected for spin value".toList
  | seconds => "Expected a valid number of seconds".toList

/-- The ways a function of the program ends. The library ends the process itself,
without an exception, where it is asked for its help or the version. -/
inductive Outcome (α : Type)
  | returned (value : α)
  | exited (status : Int32) (output : Text)
  | exitedInLibrary (status : Int32)
  | threw (thrown : StdException)

def Outcome.ofExcept {α : Type} : Except StdException α → Outcome α
  | .ok value => .returned value
  | .error thrown => .threw thrown

/-- The callback of an option: only a text that is no number is caught. -/
def NumericOption.action (option : NumericOption) (value : Text) : Outcome Int32 :=
  match stoi value with
  | .ok number => .returned number
  | .error (.invalidArgument _) => .exited 1 option.complaint
  | .error thrown => .threw thrown

/-- What `parse_args` goes on to do: a callback, whose number it goes on with, an
error of its own, an exit of its own, or the options it has read. -/
inductive ParseRun
  | call (option : NumericOption) (value : Text) (resume : Int32 → ParseRun)
  | fail (what : Text)
  | exit (status : Int32)
  | done (options : Options)

structure Argparse where
  parseArgs : List Text → ParseRun
  usage : Text

/-- `parse_args`: its own errors are runtime errors, and what a callback throws passes through. -/
def ParseRun.perform : ParseRun → Outcome Options
  | call option value resume =>
      match option.action value with
      | .returned number => (resume number).perform
      | .exited status output => .exited status output
      | .exitedInLibrary status => .exitedInLibrary status
      | .threw thrown => .threw thrown
  | fail what => .threw (.runtimeError what)
  | exit status => .exitedInLibrary status
  | done options => .returned options

namespace OptionParser

/-- Only the call of `parse_args` stands in the `try` block. -/
def parseArguments (argparse : Argparse) (winsock : Winsock) (argv : List Text) : Outcome Args :=
  match (argparse.parseArgs argv).perform with
  | .returned options => .ofExcept (RioClient.parseArguments winsock options)
  | .exited status output => .exited status output
  | .exitedInLibrary status => .exitedInLibrary status
  | .threw (.runtimeError what) =>
      .exited 1 ("error parsing command line arguments: ".toList ++ what ++ '\n' :: argparse.usage)
  | .threw thrown => .threw thrown

end OptionParser

end RioClient
