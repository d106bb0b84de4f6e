import ByteMachine.Config
import ByteMachine.Isa.Listing
import ByteMachine.Machine.Lifecycle

/-! What a machine, a simulator and the command line report while they work. An event holds the
facts; its level decides who sees it, and `line` is its text. -/

namespace ByteMachine

/-- How much is shown. Each level shows what the ones before it show. -/
inductive Verbosity where
  | off
  | error
  | warn
  | info
  | debug
  | trace
  deriving DecidableEq, Repr

namespace Verbosity

def rank : Verbosity → Nat
  | off => 0
  | error => 1
  | warn => 2
  | info => 3
  | debug => 4
  | trace => 5

def ofName? : String → Option Verbosity
  | "off" => some off
  | "error" => some error
  | "warn" => some warn
  | "info" => some info
  | "debug" => some debug
  | "trace" => some trace
  | _ => none

end Verbosity

inductive Level where
  | warn
  | info
  | debug
  | trace
  deriving DecidableEq, Repr

namespace Level

def name : Level → String
  | warn => "WARN"
  | info => "INFO"
  | debug => "DEBUG"
  | trace => "TRACE"

/-- The least verbosity that shows events of this level. -/
def verbosity : Level → Verbosity
  | warn => .warn
  | info => .info
  | debug => .debug
  | trace => .trace

def shownAt (level : Level) (verbosity : Verbosity) : Bool :=
  level.verbosity.rank ≤ verbosity.rank

end Level

inductive Event where
  | configured (config : Config)
  | programParsed (path : String) (length : Nat)
  | programLoaded (length : Nat)
  | listed (address : Nat) (item : Listing.Item)
  | programAccepted (path : String) (length : Nat)
  | clockStarted (interval : UInt64) (pc : Nat)
  | startIgnored (state : Lifecycle)
  /-- A wait for the clock, after so many ticks. It is of interest only if periods were missed. -/
  | clockWaited (ticks : Nat)
  | tickRefused (state : Lifecycle)
  | fetched (pc : Nat) (opcode : UInt8)
  | executing (traced : Bool) (pc : Nat) (inst : Instruction)
  | faulted (pc : Nat) (fault : Fault)
  | halted (pc ticks : Nat)
  | limitReached (ticks : Nat)
  | runFinished (state : Lifecycle) (ticks : Nat)
  | done (state : Lifecycle) (ticks : Nat)
  deriving DecidableEq, Repr

namespace Event

def level : Event → Level
  | startIgnored _ | limitReached _ => .warn
  | programAccepted _ _ | clockStarted _ _ | halted _ _ | runFinished _ _ | done _ _ => .info
  | executing traced _ _ => if traced then .info else .debug
  | configured _ | programParsed _ _ | programLoaded _ | listed _ _ | tickRefused _ | fetched _ _
  | faulted _ _ => .debug
  | clockWaited _ => .trace

/-- What happened, followed by the named values. -/
def message : Event → String
  | configured config => s!"configuration config={config.describe}"
  | programParsed path length => s!"program parsed path={path} len={length}"
  | programLoaded length => s!"program loaded len={length}"
  | listed address item => s!"{item.text} addr={address}"
  | programAccepted path length => s!"program loaded program={path} len={length}"
  | clockStarted interval pc => s!"clock started interval={Period.text interval} pc={pc}"
  | startIgnored state => s!"start ignored; reset the machine first state={state.name}"
  | clockWaited _ => "clock fell behind; skipping missed periods"
  | tickRefused state => s!"tick refused state={state.name}"
  | fetched pc opcode => s!"fetch pc={pc} opcode={opcode.toNat}"
  | executing _ pc inst => s!"{inst.text} pc={pc}"
  | faulted pc fault => s!"machine fault pc={pc} fault={fault.message}"
  | halted pc ticks => s!"halted pc={pc} ticks={ticks}"
  | limitReached ticks => s!"tick limit reached; stopping clock ticks={ticks}"
  | runFinished state ticks => s!"run finished state={state.name} ticks={ticks}"
  | done state ticks => s!"done state={state.name} ticks={ticks}"

def line (event : Event) : String := s!"{event.level.name} {event.message}"

end Event

end ByteMachine
