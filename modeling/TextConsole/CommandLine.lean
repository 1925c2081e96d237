import TextConsole.Document
import TextConsole.Printout

/-!
# The command line

Feeds a file or the standard input to the first console of a configuration, and
prints what is then on its screen. The program is written over any way to read a
file and the standard input, so that it can be run without either.
-/

namespace TextConsole

/-! ## Arguments -/

/-- What the arguments ask for. -/
structure Options where
  /-- The path of a configuration document. -/
  config : Option String := none
  /-- Whether to print a JSON document. -/
  json : Bool := false
  /-- The path of the input, in place of the standard input. -/
  input : Option String := none
deriving DecidableEq, Repr

/-- What a single argument is. -/
inductive Argument where
  | endOfOptions
  | help
  | json
  /-- The next argument is the path of a configuration document. -/
  | config
  /-- The path stands in the argument itself. -/
  | configPath (path : String)
  | input (path : String)
  | unknown
deriving DecidableEq, Repr

/-- Whether an argument has the form of an option. A dash by itself is a path. -/
def looksLikeOption (arg : String) : Bool :=
  match arg.toList with
  | '-' :: _ :: _ => true
  | _ => false

namespace Argument

/-- Reads a single argument. Letters may be joined behind one dash, and are read from the
left, so whatever follows the letter that asks for help is not looked at. -/
def classify (arg : String) : Argument :=
  if arg = "--" then endOfOptions
  else if arg = "--help" then help
  else if arg = "--json" then json
  else if arg = "--config" then config
  else
    match "--config=".toList.isPrefixOf? arg.toList with
    | some path => configPath (String.ofList path)
    | none =>
        if "-h".toList.isPrefixOf arg.toList then help
        else if looksLikeOption arg then unknown
        else input arg

end Argument

/-- Why arguments ask for no run. -/
inductive Refusal where
  /-- They ask what the program is for. -/
  | help
  | badUsage
deriving DecidableEq, Repr

namespace Options

/-- Sets the configuration document, which may be done once. -/
def withConfig (o : Options) (path : String) : Except Refusal Options :=
  if o.config.isSome ∨ path = "" then .error .badUsage else .ok { o with config := some path }

def withJson (o : Options) : Except Refusal Options :=
  if o.json then .error .badUsage else .ok { o with json := true }

def withInput (o : Options) (path : String) : Except Refusal Options :=
  if o.input.isSome ∨ path = "" then .error .badUsage else .ok { o with input := some path }

/-- Adds what the arguments ask for to what has been asked for. The first argument that
cannot be followed decides. -/
def parseOnto (o : Options) : List String → Except Refusal Options
  | [] => .ok o
  | arg :: rest =>
      match Argument.classify arg with
      | .endOfOptions => rest.foldlM withInput o
      | .help => .error .help
      | .json => do
          let o ← o.withJson
          parseOnto o rest
      | .config =>
          match rest with
          | [] => .error .badUsage
          | path :: rest =>
              if looksLikeOption path then .error .badUsage
              else do
                let o ← o.withConfig path
                parseOnto o rest
      | .configPath path => do
          let o ← o.withConfig path
          parseOnto o rest
      | .input path => do
          let o ← o.withInput path
          parseOnto o rest
      | .unknown => .error .badUsage

/-- What the arguments ask for, if they ask for a run. -/
def parse (args : List String) : Except Refusal Options := parseOnto {} args

end Options

/-! ## Outcomes -/

/-- Why a run fails. -/
inductive RunError where
  | load (error : LoadError)
  | layout (error : ConfigError)
  | unreadableInput (path : String)
  | noConsole
deriving DecidableEq, Repr

def RunError.message : RunError → String
  | load error => error.message
  | layout _ => "Failed to initialize consoles"
  | unreadableInput path => "Failed to read " ++ path
  | noConsole => "console 0 missing"

/-- The first line of a text. A line ends at a line feed, and a carriage return
just before that belongs to the end; any other carriage return is part of the
line. -/
def firstLine : List Char → List Char
  | [] => []
  | '\n' :: _ => []
  | '\r' :: '\n' :: _ => []
  | c :: rest => c :: firstLine rest

theorem firstLine_prefix (text : List Char) : firstLine text <+: text := by
  fun_induction firstLine text with
  | case1 => exact List.prefix_rfl
  | case2 => exact List.nil_prefix
  | case3 => exact List.nil_prefix
  | case4 c rest _ _ ih => exact List.prefix_cons_inj c |>.mpr ih

/-- No line holds the end of a line. -/
theorem newline_not_mem_firstLine (text : List Char) : '\n' ∉ firstLine text := by
  fun_induction firstLine text with
  | case1 => exact List.not_mem_nil
  | case2 => exact List.not_mem_nil
  | case3 => exact List.not_mem_nil
  | case4 c rest hfeed _ ih =>
      rw [List.mem_cons]
      rintro (rfl | hmem)
      · exact hfeed rfl
      · exact ih hmem

/-- How a run ends. -/
inductive Outcome where
  | printed (text : String)
  | failed (error : RunError)
  | refused (refusal : Refusal)
deriving DecidableEq, Repr

/-- What the program is for, and which arguments it takes. -/
def helpText : String := String.join <| List.map (· ++ "\n")
  ["Feed output bytes to a virtual console and print its screen",
   "",
   "Usage: vconsole [OPTIONS] [INPUT]",
   "",
   "Arguments:",
   "  [INPUT]  Input file (stdin if omitted)",
   "",
   "Options:",
   "      --config <CONFIG>  JSON configuration file",
   "      --json             Print the screen as a JSON snapshot",
   "  -h, --help             Print help"]

namespace Outcome

def exitCode : Outcome → Nat
  | printed _ => 0
  | failed _ => 1
  | refused .help => 0
  | refused .badUsage => 2

def output : Outcome → String
  | printed text => text
  | refused .help => helpText
  | _ => ""

/-- The error that is reported on standard error. -/
def errorMessage? : Outcome → Option String
  | failed error => some error.message
  | _ => none

/-- The line on which the error is reported. A message may hold a path of several
lines, and then goes on below it. -/
def errorLine? (o : Outcome) : Option String :=
  o.errorMessage?.map fun message => String.ofList (firstLine (message ++ "\n").toList)

/-- An error is reported if and only if the run has failed. -/
theorem isSome_errorLine? (o : Outcome) : o.errorLine?.isSome ↔ o.exitCode = 1 := by
  cases o with
  | printed text => simp [errorLine?, errorMessage?, exitCode]
  | failed error => simp [errorLine?, errorMessage?, exitCode]
  | refused refusal => cases refusal <;> simp [errorLine?, errorMessage?, exitCode]

/-- The reported line is how the message begins. -/
theorem errorLine?_eq_some {o : Outcome} {line : String} (h : o.errorLine? = some line) :
    ∃ message, o.errorMessage? = some message ∧
      line.toList <+: (message ++ "\n").toList ∧ '\n' ∉ line.toList := by
  obtain ⟨message, hmessage, rfl⟩ := Option.map_eq_some_iff.mp h
  refine ⟨message, hmessage, ?_, ?_⟩
  · rw [String.toList_ofList]
    exact firstLine_prefix _
  · rw [String.toList_ofList]
    exact newline_not_mem_firstLine _

end Outcome

/-! ## Running -/

/-- The first console's snapshot after it has been fed the input. -/
def Seat.screenAfter? (s : Seat) (input : List UInt8) : Option Snapshot :=
  (s.sendRun 0 input).snapshot? 0

/-- Prints the snapshot of the first console. -/
def Outcome.ofSnapshot (json : Bool) : Option Snapshot → Outcome
  | none => .failed .noConsole
  | some snapshot => .printed (if json then snapshot.toDocument else snapshot.toText)

/-- Prints the first console after it has been fed the input. -/
def Seat.printAfter (s : Seat) (json : Bool) (input : List UInt8) : Outcome :=
  .ofSnapshot json (s.screenAfter? input)

namespace CommandLine

variable {m : Type → Type} [Monad m]

def runWith (readFile : String → m (Option ByteArray)) (readInput : m ByteArray)
    (o : Options) : m Outcome := do
  match ← Config.load readFile o.config with
  | .error e => return .failed (.load e)
  | .ok config =>
      match Seat.ofConfig config with
      | .error e => return .failed (.layout e)
      | .ok seat =>
          match o.input with
          | none => return seat.printAfter o.json (← readInput).toList
          | some path =>
              match ← readFile path with
              | none => return .failed (.unreadableInput path)
              | some bytes => return seat.printAfter o.json bytes.toList

def run (readFile : String → m (Option ByteArray)) (readInput : m ByteArray)
    (args : List String) : m Outcome :=
  match Options.parse args with
  | .error refusal => return .refused refusal
  | .ok o => runWith readFile readInput o

end CommandLine

end TextConsole
