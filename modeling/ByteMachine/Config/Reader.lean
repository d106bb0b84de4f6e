import ByteMachine.Config
import ByteMachine.Files.Reader
import ByteMachine.Json.Record

/-! Settings as JSON. The document and its two sections are records; whatever is not written has
its default. -/

namespace ByteMachine

/-- Why there are no settings. -/
inductive ConfigError where
  | unreadable (path reason : String)
  | invalid (failure : Json.Failure)
  deriving DecidableEq, Repr

def ConfigError.message : ConfigError → String
  | .unreadable path reason => s!"could not read config '{path}': {reason}"
  | .invalid .truncated => "invalid config: the text ends too early"
  | .invalid .malformed => "invalid config: the text is not JSON"
  | .invalid .mismatch => "invalid config: a value is not of the expected kind"

namespace Config

open Json

def generalFields : List (RecordField GeneralConfig) :=
  [.of "trace_instructions" readBool fun general b => { general with traceInstructions := b },
   .of "max_ticks" (readOptional readNatural) fun general n => { general with maxTicks := n },
   .of "print_stats" readBool fun general b => { general with printStats := b }]

def clockFields : List (RecordField ClockConfig) :=
  [.of "interval_ms" readNatural fun clock n => { clock with intervalMs := n }]

def fields : List (RecordField Config) :=
  [.of "general" (readRecord generalFields {}) fun config general => { config with general },
   .of "clock" (readRecord clockFields {}) fun config clock => { config with clock }]

def parse (text : String) : Except ConfigError Config :=
  (Json.readDocument (Json.readRecord fields {}) text).mapError .invalid

/-- Reads and parses a file of settings. -/
def read (files : FileReader) (path : String) : Except ConfigError Config :=
  match files.text path with
  | .error reason => .error (.unreadable path reason.message)
  | .ok text => parse text

end Config

end ByteMachine
