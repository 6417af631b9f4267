import Mathlib.Data.Rat.Defs
import Mathlib.Algebra.Order.Ring.Unbundled.Rat
import Mathlib.Tactic.Linarith

/-!
The machine numbers a source program computes with. An `i64` is an integer;
operations that can leave the range wrap as in a release build, or saturate
where the source says so. An `f64` is a finite rational, an infinity or a NaN:
only conversion from an integer and comparison are needed, and signed zeros
compare equal.
-/

namespace Ccflare.MachineNumber

def i64Min : Int := -9223372036854775808

def i64Max : Int := 9223372036854775807

def InI64 (value : Int) : Prop := i64Min ≤ value ∧ value ≤ i64Max

instance (value : Int) : Decidable (InI64 value) := inferInstanceAs (Decidable (_ ∧ _))

def wrapI64 (value : Int) : Int :=
  (value + 9223372036854775808) % 18446744073709551616 - 9223372036854775808

def clampI64 (value : Int) : Int := max i64Min (min i64Max value)

def wrappingAdd (a b : Int) : Int := wrapI64 (a + b)

def wrappingSub (a b : Int) : Int := wrapI64 (a - b)

def wrappingMul (a b : Int) : Int := wrapI64 (a * b)

def wrappingAbs (a : Int) : Int := wrapI64 a.natAbs

def saturatingMul (a b : Int) : Int := clampI64 (a * b)

def saturatingSub (a b : Int) : Int := clampI64 (a - b)

theorem wrap_in_i64 (value : Int) : InI64 (wrapI64 value) := by
  unfold InI64 wrapI64 i64Min i64Max
  omega

theorem wrap_of_in_i64 (value : Int) (inside : InI64 value) : wrapI64 value = value := by
  unfold InI64 i64Min i64Max at inside
  unfold wrapI64
  omega

def wrapUsize (value : Nat) : Nat := value % 18446744073709551616

inductive F64 where
  | finite (value : Rat)
  | infinite (negative : Bool)
  | nan
  deriving DecidableEq

def F64.isFinite : F64 → Bool
  | .finite _ => true
  | .infinite _ | .nan => false

/-- `a >= b`; false as soon as one side is a NaN. -/
def F64.ge : F64 → F64 → Bool
  | .nan, _ | _, .nan => false
  | .infinite false, _ | _, .infinite true => true
  | .infinite true, _ | _, .infinite false => false
  | .finite a, .finite b => decide (b ≤ a)

/-- Round half to even on a grid of `unit`. -/
def roundToGrid (unit value : Nat) : Nat :=
  let below := value / unit
  let rest := value % unit
  if 2 * rest < unit then below * unit
  else if unit < 2 * rest then (below + 1) * unit
  else (below + below % 2) * unit

def roundToF64 (value : Int) : Int :=
  let magnitude := value.natAbs
  let rounded := roundToGrid (2 ^ (Nat.log2 magnitude - 52)) magnitude
  if value < 0 then -rounded else rounded

/-- `value as f64`: the nearest double, ties to an even significand. -/
def F64.ofInt (value : Int) : F64 := .finite (roundToF64 value)

/-- Nearest integer, ties to even. -/
def roundHalfEven (value : Rat) : Int :=
  let below := value.floor
  let rest := value - below
  if rest < 1 / 2 then below
  else if 1 / 2 < rest then below + 1
  else below + below % 2

def powerOfTwo (exponent : Int) : Rat :=
  if 0 ≤ exponent then 2 ^ exponent.toNat else 1 / 2 ^ (-exponent).toNat

/-- The exponent of the leading bit of a value that is not zero. -/
def leadingExponent (value : Rat) : Int :=
  let guess : Int := (Nat.log2 value.num.natAbs : Int) - Nat.log2 value.den
  if powerOfTwo guess ≤ |value| then guess else guess - 1

/-- The nearest double in the range of the normal numbers. -/
def nearestF64 (value : Rat) : Rat :=
  let unit := powerOfTwo (leadingExponent value - 52)
  roundHalfEven (value / unit) * unit

end Ccflare.MachineNumber
