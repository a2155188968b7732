import Attestor.Settings.Error

/-!
How long to wait before a restart. A policy is immediate, fixed, or exponential; the exponential one
doubles its delay with each attempt up to a cap. Delays are milliseconds in 64-bit words, and a product
that does not fit is taken for the greatest word, which no cap exceeds.
-/

namespace Attestor.Restart

/-- The range of base delays other than zero, ends included. -/
structure Bounds where
  min : Int64
  max : Int64
  deriving DecidableEq, Repr

namespace Bounds

/-- A tenth of a second to ten minutes. -/
def default : Bounds := ⟨100, 600000⟩

/-- The base delay as a word. Bad bounds are refused whatever the delay; a delay of zero needs no
bounds. -/
def check (b : Bounds) (delay : Int64) : Except Settings.Error UInt64 :=
  if b.min ≤ 0 ∨ b.max < b.min then .error (.delayBounds b.min b.max)
  else if delay = 0 then .ok 0
  else if delay < b.min ∨ b.max < delay then .error (.restartDelay delay b.min b.max)
  else .ok (UInt64.ofNat delay.toInt.natAbs)

end Bounds

/-- How delays grow with attempts. -/
inductive Strategy where
  | immediate
  | fixed
  | exponential (cap : UInt64)
  deriving DecidableEq, Repr

/-- A policy that has passed its checks. -/
structure Policy where
  base : UInt64
  strategy : Strategy
  deriving DecidableEq, Repr

/-- The greatest word. -/
def greatest : UInt64 := 0xffffffffffffffff

/-- The product, or the greatest word where it does not fit. -/
def saturatingMul (a b : UInt64) : UInt64 :=
  if a.toNat * b.toNat < UInt64.size then a * b else greatest

/-- A power of two, or the greatest word where it does not fit. -/
def powerOfTwo (exponent : UInt32) : UInt64 :=
  if exponent < 64 then (1 : UInt64) <<< exponent.toUInt64 else greatest

namespace Policy

/-- Restart at once, always. -/
def immediate : Policy := ⟨0, .immediate⟩

/-- Wait the same time before every restart; zero makes it immediate. -/
def fixed (delay : Int64) (bounds : Bounds) : Except Settings.Error Policy := do
  let base ← bounds.check delay
  if base = 0 then return immediate
  return ⟨base, .fixed⟩

/-- Double the time with each attempt up to a cap; zero makes it immediate, whatever the cap. -/
def exponential (delay cap : Int64) (bounds : Bounds) : Except Settings.Error Policy := do
  let base ← bounds.check delay
  if base = 0 then return immediate
  if cap < delay then throw (.backoffCap delay cap)
  return ⟨base, .exponential (UInt64.ofNat cap.toInt.natAbs)⟩

def isImmediate (p : Policy) : Bool :=
  p.strategy = .immediate

/-- Milliseconds to wait before the restart with this number, counted from zero. -/
def delay (p : Policy) (attempt : UInt32) : UInt64 :=
  match p.strategy with
  | .immediate => 0
  | .fixed => p.base
  | .exponential cap =>
    let grown := saturatingMul p.base (powerOfTwo attempt)
    if grown ≤ cap then grown else cap

end Policy

/-- Whether a stream that has ended is started again. -/
inductive Mode where
  | disabled
  | enabled (policy : Policy)
  deriving DecidableEq, Repr

/-! ### Settings -/

/-- The growth of delays, as settings name it. -/
inductive Backoff where
  | fixed
  | exponential (cap : Int64)
  deriving DecidableEq, Repr

/-- Restart settings before any check. -/
structure Settings where
  enabled : Bool
  delay : Int64
  backoff : Backoff
  bounds : Bounds
  deriving DecidableEq, Repr

namespace Settings

/-- The delay used where none is given, in milliseconds. -/
def defaultDelay : Int64 := 1000

/-- The cap used where none is given, in milliseconds. -/
def defaultCap : Int64 := 300000

def default : Settings := ⟨true, defaultDelay, .exponential defaultCap, .default⟩

def disabled : Settings := { default with enabled := false }

def fixed (delay : Int64) : Settings := { default with delay, backoff := .fixed }

def exponential (delay cap : Int64) : Settings :=
  { default with delay, backoff := .exponential cap }

/-- Checks the settings. They are checked even where restarts are disabled. -/
def build (s : Settings) : Except Attestor.Settings.Error Mode := do
  let policy ← match s.backoff with
    | .fixed => Policy.fixed s.delay s.bounds
    | .exponential cap => Policy.exponential s.delay cap s.bounds
  return if s.enabled then .enabled policy else .disabled

/-- The settings in a few words. -/
def summary (s : Settings) : String :=
  if s.enabled then
    match s.backoff with
    | .fixed => s!"fixed {s.delay}ms"
    | .exponential cap => s!"exponential {s.delay}ms..{cap}ms"
  else "off"

end Settings

end Attestor.Restart
