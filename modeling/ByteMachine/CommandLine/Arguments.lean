/-! The arguments of the command line. They are read from the left, and the first one that asks for
help or the version, or that is wrong, decides; only a missing program is noticed at the end. -/

namespace ByteMachine.CommandLine

inductive Request where
  | run (program : String)
  | shortHelp
  | longHelp
  | version
  | misuse
  deriving DecidableEq, Repr

/-- How one argument is understood. -/
inductive Argument where
  | endOfOptions
  | option (request : Request)
  | positional (text : String)
  deriving DecidableEq, Repr

/-- The request of a group of option letters after a single dash, which its first letter decides. -/
def letterRequest : List Char → Request
  | 'h' :: _ => .shortHelp
  | 'V' :: _ => .version
  | _ => .misuse

/-- A dash alone is a program name. -/
def Argument.ofString (text : String) : Argument :=
  if text == "--" then .endOfOptions
  else if text == "--help" then .option .longHelp
  else if text == "--version" then .option .version
  else
    match text.toList with
    | '-' :: '-' :: _ => .option .misuse
    | '-' :: c :: letters => .option (letterRequest (c :: letters))
    | _ => .positional text

/-- Takes a program name; there can be only one, and it is not empty. -/
def takeProgram (program : Option String) (text : String) : Option String :=
  if program.isSome || text.isEmpty then none else some text

/-- Reads the rest of the arguments after `program` was found among the earlier ones. -/
def readArguments (optionsEnded : Bool) (program : Option String) : List String → Request
  | [] =>
      match program with
      | some program => .run program
      | none => .misuse
  | text :: rest =>
      match if optionsEnded then .positional text else Argument.ofString text with
      | .endOfOptions => readArguments true program rest
      | .option request => request
      | .positional text =>
          match takeProgram program text with
          | some program => readArguments optionsEnded (some program) rest
          | none => .misuse

def Request.ofArguments (arguments : List String) : Request := readArguments false none arguments

/-! ## Texts -/

def usage : String := "usage: ls8 <program>"

def versionText : List String := ["ls8 0.3.0"]

def shortHelpText : List String :=
  ["LS-8 virtual machine",
    "",
    "Usage: ls8 <PROGRAM>",
    "",
    "Arguments:",
    "  <PROGRAM>  Program file to load at address 0",
    "",
    "Options:",
    "  -h, --help     Print help (see more with '--help')",
    "  -V, --version  Print version"]

def longHelpText : List String :=
  ["Run an LS-8 program.",
    "",
    "The program file holds one 8-bit binary literal per line; `#` starts a comment.",
    "PRN output goes to stdout, diagnostics to stderr (filter with RUST_LOG).",
    "Set LS8_CONFIG to a JSON file to change the clock period or enable tracing.",
    "",
    "Example:",
    "  ls8 programs/mult.ls8",
    "",
    "Usage: ls8 <PROGRAM>",
    "",
    "Arguments:",
    "  <PROGRAM>",
    "          Program file to load at address 0",
    "",
    "Options:",
    "  -h, --help",
    "          Print help (see a summary with '-h')",
    "",
    "  -V, --version",
    "          Print version"]

end ByteMachine.CommandLine
