import WordMachine.CommandLine.Report
import WordMachine.Text.ControlSequences

/-!
# Arguments

The program takes a command, the name of an input file, and options. An option with
a value is written `--name=value` or with the value as the next argument; one of a
single letter may have the value behind the letter. An argument that looks like an
option is never taken as a value in this way.

Arguments are taken from left to right, and the first that is wrong decides. What stands
as an argument of its own, the input or the value of an option, is looked at when the next
option is met. So it does not decide if an unknown option comes next. What is missing
shows only at the end.
-/

namespace WordMachine.CommandLine

/-! ## What arguments ask for -/

/-- What the program is asked to do. -/
inductive Command
  /-- Prints the table of an image. -/
  | disassemble (input : String) (range : Range)
  /-- Prints the lifted instructions of an image. -/
  | lift (input : String) (range : Range)
  /-- Assembles a listing into an image. -/
  | assemble (input output : String)
  /-- Explains the commands. -/
  | help
  /-- Names the program and its version. -/
  | version
  deriving DecidableEq, Repr

/-- A command, and whether the log is shown. -/
structure Invocation where
  command : Command
  verbose : Bool
  deriving DecidableEq, Repr

/-- The commands by name. -/
inductive Verb
  | disassemble
  | lift
  | assemble
  deriving DecidableEq, Repr

/-- The command with this name. -/
def Verb.ofName? : String → Option Verb
  | "disasm" => some .disassemble
  | "lift" => some .lift
  | "asm" => some .assemble
  | _ => none

/-- How messages name the input. -/
def Verb.inputUsage : Verb → String
  | disassemble | lift => "<IMAGE>"
  | assemble => "<LISTING>"

/-- The options that have a value. -/
inductive Key
  | start
  | count
  | output
  deriving DecidableEq, Repr

/-- The long name of the option. -/
def Key.name : Key → String
  | start => "start"
  | count => "count"
  | output => "output"

/-- The letter of the option, if it has one. -/
def Key.letter? : Key → Option Char
  | start | count => none
  | output => some 'o'

/-- How messages name the option and its value. -/
def Key.usage : Key → String
  | start => "--start <START>"
  | count => "--count <COUNT>"
  | output => "--output <IMAGE>"

/-- The options that have no value. -/
inductive Flag
  /-- Asks for the log. -/
  | verbose
  | help
  | version
  deriving DecidableEq, Repr

/-- The long name of the option. -/
def Flag.name : Flag → String
  | verbose => "verbose"
  | help => "help"
  | version => "version"

/-- The letter of the option. -/
def Flag.letter : Flag → Char
  | verbose => 'v'
  | help => 'h'
  | version => 'V'

/-- How messages name the option. -/
def Flag.usage (flag : Flag) : String := "--" ++ flag.name

/-- Where an argument stands: ahead of the name of a command, or behind it. -/
inductive Scope
  | program
  | command (verb : Verb)
  deriving DecidableEq, Repr

/-- The options with a value that are known there. -/
def Scope.keys : Scope → List Key
  | program => []
  | command .disassemble | command .lift => [.start, .count]
  | command .assemble => [.output]

/-- The options without a value that are known there. -/
def Scope.flags : Scope → List Flag
  | program => [.verbose, .help, .version]
  | command _ => [.verbose, .help]

/-! ## Values of options -/

/-- Addresses and counts are below this number. -/
def sizeLimit : Nat := UInt64.size

/-- Why a text is not a place to start at. -/
inductive StartError
  | numeral (error : Numeral.ReadError)
  | odd (offset : Nat)
  deriving DecidableEq, Repr

/-- The wording of the reason. -/
def StartError.message : StartError → String
  | numeral error => error.message
  | odd offset => "0x" ++ Numeral.upperHex offset ++ " is not word aligned"

/-- The offset that a text denotes, in hexadecimal after `0x`. -/
def readOffset (text : String) : Except Numeral.ReadError Nat :=
  match text.toList with
  | '0' :: 'x' :: digits => Numeral.read 16 sizeLimit digits
  | digits => Numeral.read 10 sizeLimit digits

/-- The aligned address that a text denotes. -/
def readStart (text : String) : Except StartError Address :=
  match readOffset text with
  | .error error => .error (.numeral error)
  | .ok offset => if Address.isAligned ⟨offset⟩ then .ok ⟨offset⟩ else .error (.odd offset)

/-- The count that a text denotes. -/
def readCount (text : String) : Except Numeral.ReadError Nat :=
  Numeral.read 10 sizeLimit text.toList

/-! ## Forms of arguments -/

/-- An argument by its form. -/
inductive Argument
  | flag (flag : Flag)
  | valued (key : Key) (value : Option String)
  /-- A flag with a value attached. -/
  | overfull (flag : Flag) (value : String)
  /-- What looks like an option and is none. -/
  | unknown (name : String)
  | plain (text : String)
  /-- What stands behind two dashes, where nothing is an option or the value of one. -/
  | operand (text : String)
  deriving DecidableEq, Repr

namespace Argument

/-- The argument of an option with a long name. -/
def ofLong (scope : Scope) (name : String) (value : Option String) : Argument :=
  match scope.keys.find? (·.name == name), scope.flags.find? (·.name == name), value with
  | some key, _, _ => .valued key value
  | none, some known, none => .flag known
  | none, some known, some value => .overfull known value
  | none, none, _ => .unknown ("--" ++ name)

/-- The value behind the letter of an option, with or without an equals sign. -/
def attached? : List Char → Option String
  | [] => none
  | '=' :: value => some (String.ofList value)
  | value => some (String.ofList value)

/-- The arguments that the letters behind one dash stand for. -/
def ofLetters (scope : Scope) : List Char → List Argument
  | [] => []
  | letter :: letters =>
    match scope.flags.find? (·.letter == letter),
        scope.keys.find? (·.letter? == some letter) with
    | some known, _ => .flag known :: ofLetters scope letters
    | none, some key => [.valued key (attached? letters)]
    | none, none => [.unknown (String.ofList ['-', letter])]

/-- The value behind the first equals sign. -/
def valueAfterEquals? (cs : List Char) : Option String :=
  match cs.dropWhile (· != '=') with
  | _ :: value => some (String.ofList value)
  | [] => none

/-- What an argument stands for. -/
def ofText (scope : Scope) (text : String) : List Argument :=
  match text.toList with
  | '-' :: '-' :: cs =>
    [ofLong scope (String.ofList (cs.takeWhile (· != '='))) (valueAfterEquals? cs)]
  | '-' :: letter :: letters => ofLetters scope (letter :: letters)
  | _ => [.plain text]

/-- What a list of arguments stands for. -/
def ofTexts (scope : Scope) : List String → List Argument
  | [] => []
  | "--" :: texts => texts.map .operand
  | text :: texts => ofText scope text ++ ofTexts scope texts

end Argument

/-! ## Reading arguments -/

/-- What is wrong with the arguments. -/
inductive UsageError
  /-- There are no arguments. -/
  | nothing
  | invalidStart (text : String) (reason : StartError)
  | invalidCount (text : String) (reason : Numeral.ReadError)
  | unexpected (argument : String)
  | unneededValue (flag : Flag) (value : String)
  | repeatedKey (key : Key)
  | repeatedFlag (flag : Flag)
  | valueRequired (key : Key)
  /-- The name of the input is empty. -/
  | inputRequired (verb : Verb)
  | unknownCommand (name : String)
  | commandRequired
  | missing
  deriving DecidableEq, Repr

/-- The wording where an option is repeated. -/
def repeatedMessage (usage : String) : String :=
  "the argument '" ++ usage ++ "' cannot be used multiple times"

/-- The wording where a value is empty or not given. -/
def requiredMessage (usage : String) : String :=
  "a value is required for '" ++ usage ++ "' but none was supplied"

/-- The wording of a usage error. What is repeated of the arguments is shown without what a terminal
would take as a command. -/
def UsageError.message : UsageError → String
  | nothing | commandRequired => "'synacor' requires a subcommand but one was not provided"
  | invalidStart text reason =>
    "invalid value '" ++ Text.plain text ++ "' for '" ++ Key.start.usage ++ "': " ++ reason.message
  | invalidCount text reason =>
    "invalid value '" ++ Text.plain text ++ "' for '" ++ Key.count.usage ++ "': " ++ reason.message
  | unexpected argument => "unexpected argument '" ++ Text.plain argument ++ "' found"
  | unneededValue flag value =>
    "unexpected value '" ++ Text.plain value ++ "' for '" ++ flag.usage
      ++ "' found; no more were expected"
  | repeatedKey key => repeatedMessage key.usage
  | repeatedFlag flag => repeatedMessage flag.usage
  | valueRequired key => requiredMessage key.usage
  | inputRequired verb => requiredMessage verb.inputUsage
  | unknownCommand name => "unrecognized subcommand '" ++ Text.plain name ++ "'"
  | missing => "the following required arguments were not provided:"

/-- What has been given so far. -/
structure Given where
  input : Option String
  start : Option Address
  count : Option Nat
  output : Option String
  verbose : Bool
  deriving DecidableEq, Repr

/-- Nothing has been given yet. -/
def Given.nothing : Given := ⟨none, none, none, none, false⟩

/-- Takes an option and its value. -/
def Given.set (given : Given) (key : Key) (value : String) : Except UsageError Given :=
  match key with
  | .start =>
    if given.start.isSome then .error (.repeatedKey .start)
    else match readStart value with
      | .ok start => .ok { given with start := some start }
      | .error reason => .error (.invalidStart value reason)
  | .count =>
    if given.count.isSome then .error (.repeatedKey .count)
    else match readCount value with
      | .ok count => .ok { given with count := some count }
      | .error reason => .error (.invalidCount value reason)
  | .output =>
    if given.output.isSome then .error (.repeatedKey .output)
    else if value.isEmpty then .error (.valueRequired .output)
    else .ok { given with output := some value }

/-- What has been met and is not looked at yet. -/
inductive Pending
  | nothing
  | option (key : Key) (value : Option String)
  | input (text : String)
  deriving DecidableEq, Repr

/-- Whether it is an input. -/
def Pending.isInput : Pending → Bool
  | .input _ => true
  | _ => false

/-- Takes what is pending. -/
def Given.settle (given : Given) (verb : Verb) : Pending → Except UsageError Given
  | .nothing => .ok given
  | .option key none => .error (.valueRequired key)
  | .option key (some value) => given.set key value
  | .input text =>
    if text.isEmpty then .error (.inputRequired verb) else .ok { given with input := some text }

/-- Asks for the log, which is asked for once only. -/
def Given.askForLog (given : Given) : Except UsageError Given :=
  if given.verbose then .error (.repeatedFlag .verbose) else .ok { given with verbose := true }

/-- The command that a verb and what was given for it make. -/
def Given.command (given : Given) (verb : Verb) : Except UsageError Command :=
  let range : Range := ⟨given.start.getD ⟨0⟩, given.count⟩
  match verb, given.input, given.output with
  | .disassemble, some input, _ => .ok (.disassemble input range)
  | .lift, some input, _ => .ok (.lift input range)
  | .assemble, some input, some output => .ok (.assemble input output)
  | _, _, _ => .error .missing

namespace Invocation

/-- Reads the arguments behind a verb. -/
def ofGiven (verb : Verb) (given : Given) (pending : Pending) :
    List Argument → Except UsageError Invocation
  | [] => do
    let given ← given.settle verb pending
    return ⟨← given.command verb, given.verbose⟩
  | argument :: rest =>
    match argument, pending with
    | .unknown name, _ => .error (.unexpected name)
    | .overfull flag value, _ => .error (.unneededValue flag value)
    | .plain text, .option key none => ofGiven verb given (.option key (some text)) rest
    | .plain text, _ | .operand text, _ =>
      if given.input.isSome || pending.isInput then .error (.unexpected text)
      else do ofGiven verb (← given.settle verb pending) (.input text) rest
    | .valued key none, _ => do
      ofGiven verb (← given.settle verb pending) (.option key none) rest
    | .valued key (some value), _ => do
      ofGiven verb (← (← given.settle verb pending).set key value) .nothing rest
    | .flag .verbose, _ => do
      ofGiven verb (← (← given.settle verb pending).askForLog) .nothing rest
    | .flag .help, _ => do
      return ⟨.help, (← given.settle verb pending).verbose⟩
    | .flag .version, _ => do
      return ⟨.version, (← given.settle verb pending).verbose⟩

/-- A request for help on the command with a name. None of the commands has others below it. -/
def ofHelp : List String → Except UsageError Invocation
  | [] => .ok ⟨.help, false⟩
  | name :: rest =>
    if (Verb.ofName? name).isSome || name == "help" then
      match rest with
      | [] => .ok ⟨.help, false⟩
      | next :: _ => .error (.unknownCommand next)
    else .error (.unknownCommand name)

/-- Reads the name of a command and the arguments behind it. -/
def ofName (name : String) (texts : List String) : Except UsageError Invocation :=
  match Verb.ofName? name with
  | some verb => ofGiven verb .nothing .nothing (Argument.ofTexts (.command verb) texts)
  | none => if name == "help" then ofHelp texts else .error (.unknownCommand name)

/-- Reads what stands behind two dashes where a command should be named. -/
def ofOperands (asked : Nat) : List String → Except UsageError Invocation
  | [] => .error (if asked = 0 then .nothing else .commandRequired)
  | name :: _ =>
    .error (if (Verb.ofName? name).isSome || name == "help" then .unexpected name
      else .unknownCommand name)

/-- Reads arguments. The log has been asked for `asked` times, which must not be more than once. -/
def ofTexts (asked : Nat) : List String → Except UsageError Invocation
  | [] => ofOperands asked []
  | "--" :: texts => ofOperands asked texts
  | text :: texts =>
    let arguments := Argument.ofText .program text
    let asked := asked + (arguments.takeWhile (· == .flag .verbose)).length
    if 1 < asked then .error (.repeatedFlag .verbose)
    else
      match arguments.dropWhile (· == .flag .verbose) with
      | [] => ofTexts asked texts
      | .unknown name :: _ => .error (.unexpected name)
      | .overfull flag value :: _ => .error (.unneededValue flag value)
      | .flag .version :: _ => .ok ⟨.version, asked = 1⟩
      | .flag _ :: _ => .ok ⟨.help, asked = 1⟩
      | .plain name :: _ | .operand name :: _ => do
        let invocation ← ofName name texts
        return { invocation with verbose := invocation.verbose || asked == 1 }
      -- no option with a value is known here
      | .valued key _ :: _ => .error (.unexpected ("--" ++ key.name))

/-- What the arguments ask for. -/
def ofArguments (arguments : List String) : Except UsageError Invocation := ofTexts 0 arguments

end Invocation

end WordMachine.CommandLine
