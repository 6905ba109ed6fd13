import RioClient.AcceptedArgs
import RioClient.CommandLineCore
import RioClient.RangeGrammar

/-!
Which command lines `ParseArguments` answers with arguments or a message, and
which leave it as an exception.
-/

namespace RioClient

open WinsockReference

def leadingInteger (str : Text) : Option Int :=
  let (negative, rest) := takeSign (str.dropWhile isSpace)
  let digits := rest.takeWhile Char.isDigit
  if digits.isEmpty then none
  else
    let magnitude : Int := Nat.ofDigitChars 10 digits 0
    some (if negative then -magnitude else magnitude)

def FitsInt (value : Int) : Prop := -2147483648 ≤ value ∧ value ≤ 2147483647

instance (value : Int) : Decidable (FitsInt value) := inferInstanceAs (Decidable (_ ∧ _))

section
variable {str : Text} {value : Int}

theorem stoi_of_no_integer (none : leadingInteger str = none) :
    ∃ what, stoi str = .error (.invalidArgument what) := by
  cases read : takeSign (str.dropWhile isSpace) with
  | mk negative rest =>
      rw [leadingInteger, read] at none
      rw [stoi, read]
      dsimp only at none ⊢
      split at none
      next empty => exact ⟨_, if_pos empty⟩
      next => cases none

theorem stoi_of_integer (some : leadingInteger str = some value) :
    stoi str = if FitsInt value then .ok (Int32.ofInt value)
      else .error (.outOfRange "stoi argument out of range".toList) := by
  cases read : takeSign (str.dropWhile isSpace) with
  | mk negative rest =>
      rw [leadingInteger, read] at some
      rw [stoi, read]
      dsimp only at some ⊢
      split at some
      next => cases some
      next digits =>
        have bounds : (value < -2147483648 ∨ 2147483647 < value) ↔ ¬FitsInt value := by
          unfold FitsInt
          omega
        rw [Option.some.injEq] at some
        rw [if_neg digits, some]
        by_cases fits : FitsInt value
        · rw [if_pos fits, if_neg (bounds.not_left.mpr fits)]
        · rw [if_neg fits, if_pos (bounds.mpr fits)]

end

inductive ParseRun.Reaches : ParseRun → ParseRun → Prop
  | here (run : ParseRun) : Reaches run run
  | after {option : NumericOption} {text : Text} {resume : Int32 → ParseRun} {last : ParseRun}
      (value : Int) (some : leadingInteger text = some value) (fits : FitsInt value)
      (rest : Reaches (resume (Int32.ofInt value)) last) :
      Reaches (call option text resume) last

def DestinationsReadable (mcastIp : Text) : Prop :=
  mcastIp = [] ∨ ∃ first second, Parts mcastIp first second ∧ Readable first second

/-- No numeric option is given a number beyond the type, and the destinations
are left out or a range is built from them. -/
structure ParseRun.WellFormed (run : ParseRun) : Prop where
  numbers : ∀ option text resume, run.Reaches (call option text resume) →
    ∀ value, leadingInteger text = some value → FitsInt value
  destinations : ∀ options, run.Reaches (done options) → DestinationsReadable options.mcastIp

def Outcome.Contained {α : Type} : Outcome α → Prop
  | .returned _ => True
  | .exited status output => status = 1 ∧ output ≠ []
  | .exitedInLibrary _ => True
  | .threw _ => False

theorem Outcome.contained_ofExcept {α : Type} {result : Except StdException α} :
    (Outcome.ofExcept result).Contained ↔ ∃ value, result = .ok value := by
  cases result with
  | ok value => exact ⟨fun _ => ⟨value, rfl⟩, fun _ => trivial⟩
  | error thrown => exact ⟨False.elim, fun ⟨_, same⟩ => nomatch same⟩

section
variable {option : NumericOption} {text : Text} {value : Int}

theorem action_of_no_integer (none : leadingInteger text = none) :
    option.action text = .exited 1 option.complaint := by
  obtain ⟨what, thrown⟩ := stoi_of_no_integer none
  rw [NumericOption.action, thrown]

theorem action_of_fits (some : leadingInteger text = some value) (fits : FitsInt value) :
    option.action text = .returned (Int32.ofInt value) := by
  rw [NumericOption.action, stoi_of_integer some, if_pos fits]

theorem action_of_overflow (some : leadingInteger text = some value) (big : ¬FitsInt value) :
    option.action text = .threw (.outOfRange "stoi argument out of range".toList) := by
  rw [NumericOption.action, stoi_of_integer some, if_neg big]

theorem complaint_ne_nil (option : NumericOption) : option.complaint ≠ [] := by
  cases option <;> decide

end

namespace ParseRun

variable {run last : ParseRun}

theorem Reaches.perform_eq (reached : run.Reaches last) : run.perform = last.perform := by
  induction reached with
  | here run => rfl
  | after value some fits rest ih =>
      rw [perform, action_of_fits some fits]
      exact ih

def Final : ParseRun → Prop
  | call _ text _ => ∀ value, leadingInteger text = some value → ¬FitsInt value
  | fail _ => True
  | exit _ => True
  | done _ => True

theorem reaches_final (run : ParseRun) : ∃ last, run.Reaches last ∧ last.Final := by
  induction run with
  | call option text resume ih =>
      by_cases readable : ∃ value, leadingInteger text = some value ∧ FitsInt value
      · obtain ⟨value, some, fits⟩ := readable
        obtain ⟨last, rest, final⟩ := ih (Int32.ofInt value)
        exact ⟨last, .after value some fits rest, final⟩
      · refine ⟨call option text resume, .here _, ?_⟩
        intro value some fits
        exact readable ⟨value, some, fits⟩
  | fail what => exact ⟨fail what, .here _, trivial⟩
  | exit status => exact ⟨exit status, .here _, trivial⟩
  | done options => exact ⟨done options, .here _, trivial⟩

end ParseRun

section
variable {winsock : Winsock} {options : Options}

theorem single_builds (value : Ipv4Addr) :
    ∃ range, Range.single (ipv4Element winsock) value = .ok range := by
  have irreflexive : (ipv4Element winsock).greater value value = false :=
    decide_eq_false (UInt32.lt_irrefl value.ipBe)
  obtain ⟨range, made, _⟩ := Range.make_of_not_greater (ipv4Element winsock) irreflexive
  exact ⟨range, made⟩

theorem returns_map_iff {α β : Type} {result : Except StdException α} {convert : α → β} :
    (∃ converted, result.map convert = .ok converted) ↔ ∃ value, result = .ok value := by
  cases result with
  | ok value => exact ⟨fun _ => ⟨value, rfl⟩, fun _ => ⟨convert value, rfl⟩⟩
  | error thrown => simp [Except.map]

theorem parseArguments_returns_iff (standard : winsock.Standard) :
    (∃ args, parseArguments winsock options = .ok args) ↔
      DestinationsReadable options.mcastIp := by
  rw [parseArguments_eq_map standard, returns_map_iff]
  by_cases empty : options.mcastIp = []
  · obtain ⟨range, made⟩ := @single_builds winsock ⟨htonl (ofOctets 239 5 69 2)⟩
    rw [parseDestinations, empty, if_pos List.isEmpty_nil, made]
    exact ⟨fun _ => .inl rfl, fun _ => ⟨range.elements, rfl⟩⟩
  · rw [parseDestinations_of_ne_nil empty, returns_map_iff, makeIpv4Range_builds_iff standard,
      DestinationsReadable, or_iff_right empty]

end

namespace OptionParser

variable {winsock : Winsock}

/-- A command line is answered exactly when it is well formed; a number beyond the
type and destinations that no range is built from leave as an exception. -/
theorem parseArguments_contained_iff (argparse : Argparse) (standard : winsock.Standard)
    (argv : List Text) :
    (parseArguments argparse winsock argv).Contained ↔
      (argparse.parseArgs argv).WellFormed := by
  constructor
  · intro contained
    constructor
    · intro option text resume reached value some
      by_contra big
      rw [parseArguments, reached.perform_eq, ParseRun.perform, action_of_overflow some big]
        at contained
      exact contained
    · intro options reached
      rw [parseArguments, reached.perform_eq, ParseRun.perform] at contained
      apply (parseArguments_returns_iff standard).mp
      exact Outcome.contained_ofExcept.mp contained
  · intro wellFormed
    obtain ⟨last, reached, final⟩ := (argparse.parseArgs argv).reaches_final
    rw [parseArguments, reached.perform_eq]
    cases last with
    | call option text resume =>
        have unreadable : leadingInteger text = none := by
          cases read : leadingInteger text with
          | none => rfl
          | some value =>
              exact absurd (wellFormed.numbers option text resume reached value read)
                (final value read)
        rw [ParseRun.perform, action_of_no_integer unreadable]
        exact ⟨rfl, complaint_ne_nil option⟩
    | fail what =>
        rw [ParseRun.perform]
        exact ⟨rfl, by simp⟩
    | exit status => exact trivial
    | done options =>
        rw [ParseRun.perform]
        apply Outcome.contained_ofExcept.mpr
        exact (parseArguments_returns_iff standard).mpr (wellFormed.destinations options reached)

/-! How the library reads a command followed by options that are each given a value. -/

def readOptions (options : Options) : List Text → ParseRun
  | [] => .done options
  | [option] => .fail (option ++ ": 1 argument(s) expected. 0 provided.".toList)
  | option :: value :: rest =>
      if option = "--nic".toList then readOptions { options with nic := value } rest
      else if option = "--mcast_ip".toList then readOptions { options with mcastIp := value } rest
      else if option = "--mcast_port".toList then
        .call .mcastPort value fun mcastPort => readOptions { options with mcastPort } rest
      else if option = "--total_pkts".toList then
        .call .totalPkts value fun totalPkts => readOptions { options with totalPkts } rest
      else if option = "--pps".toList then
        .call .pps value fun pps => readOptions { options with pps } rest
      else if option = "--seconds".toList then
        .call .seconds value fun seconds => readOptions { options with seconds } rest
      else .fail ("Unknown argument: ".toList ++ option)

def referenceArgparse : Argparse where
  parseArgs := fun
    | [] => .fail "command: 1 argument(s) expected. 0 provided.".toList
    | command :: rest =>
        if command = "--help".toList then .exit 0 else readOptions { command } rest
  usage := "Usage: swxtch-perf-rio.exe [options] command".toList

theorem parseArguments_contained_iff_seconds_in_words :
    (parseArguments referenceArgparse referenceWinsock
      ["producer".toList, "--seconds".toList, "ten".toList]).Contained := by
  have noInteger : leadingInteger "ten".toList = none := by decide
  have run : referenceArgparse.parseArgs
      ["producer".toList, "--seconds".toList, "ten".toList] = .call .seconds "ten".toList
        fun seconds => .done { command := "producer".toList, seconds } := rfl
  apply (parseArguments_contained_iff referenceArgparse referenceWinsock_standard _).mpr
  rw [run]
  constructor
  · intro option text resume reached value some
    cases reached with
    | here => rw [noInteger] at some; cases some
    | after _ read => rw [noInteger] at read; cases read
  · intro options reached
    cases reached with
    | after _ read => rw [noInteger] at read; cases read

/-- A number of seconds beyond the type, and a name for the destinations: the
exceptions leave `ParseArguments`. -/
theorem parseArguments_throws :
    parseArguments referenceArgparse referenceWinsock
      ["producer".toList, "--seconds".toList, "99999999999".toList] =
        .threw (.outOfRange "stoi argument out of range".toList) ∧
    (∃ what, parseArguments referenceArgparse referenceWinsock
      ["producer".toList, "--mcast_ip".toList, "foo".toList] = .threw (.invalidArgument what)) ∧
    ¬∀ argv, (parseArguments referenceArgparse referenceWinsock argv).Contained := by
  have overflow : parseArguments referenceArgparse referenceWinsock
      ["producer".toList, "--seconds".toList, "99999999999".toList] =
        .threw (.outOfRange "stoi argument out of range".toList) := rfl
  refine ⟨overflow, ⟨_, rfl⟩, ?_⟩
  intro contained
  have thrown := contained ["producer".toList, "--seconds".toList, "99999999999".toList]
  rw [overflow] at thrown
  exact thrown

end OptionParser

end RioClient
