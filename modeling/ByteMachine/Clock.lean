/-! The clock that drives a run. Time itself is not kept: a clock has a period, is running or not,
and remembers whether it was ever given a deadline. -/

namespace ByteMachine

structure Clock where
  /-- The period in milliseconds. -/
  interval : UInt64
  running : Bool := false
  /-- Set once the clock has been started; stopping does not clear it. -/
  armed : Bool := false
  deriving DecidableEq, Repr

namespace Clock

def start (clock : Clock) : Clock := { clock with running := true, armed := true }

def stop (clock : Clock) : Clock := { clock with running := false }

/-- Whether a further tick is to be dispatched once the period has passed. -/
def tickDue (clock : Clock) : Bool := clock.running

end Clock

/-! ## Periods as text -/

namespace Period

/-- A period as whole seconds and nanoseconds. -/
def parts (milliseconds : UInt64) : Nat × Nat :=
  (milliseconds.toNat / 1000, milliseconds.toNat % 1000 * 1000000)

/-- The milliseconds of a second as a decimal fraction, without zeros at its end. -/
def fraction (milliseconds : Nat) : List Char :=
  let digits := Nat.toDigits 10 (milliseconds + 1000)
  (digits.drop 1).reverse.dropWhile (· == '0') |>.reverse

/-- Zero as `0ns`, less than a second in milliseconds, otherwise seconds. -/
def text (milliseconds : UInt64) : String :=
  let n := milliseconds.toNat
  if n = 0 then "0ns"
  else if n < 1000 then s!"{n}ms"
  else
    let places := fraction (n % 1000)
    if places.isEmpty then s!"{n / 1000}s" else s!"{n / 1000}.{String.ofList places}s"

end Period

end ByteMachine
