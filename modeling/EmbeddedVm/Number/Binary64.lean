/-!
# Binary floating-point numbers, bit for bit

A `Binary64` is the 64-bit pattern of a double. Equality of patterns is stricter than equality of
numbers: it separates the two zeros and keeps the payload of a NaN, so a value that is stored and
read back is the same pattern. Arithmetic and comparison go through `Float`, which has one NaN.
-/

namespace EmbeddedVm

/-- A double, as its bit pattern: sign, exponent and fraction, most significant bit first. -/
structure Binary64 where
  bits : UInt64
deriving DecidableEq, Repr, Inhabited

namespace Binary64

/-- The number a pattern stands for. -/
def toFloat (x : Binary64) : Float := Float.ofBits x.bits

/-- The pattern of a number. -/
def ofFloat (f : Float) : Binary64 := ⟨f.toBits⟩

/-! ## 1. Classes -/

/-- Positive zero. -/
def zero : Binary64 := ⟨0⟩

/-- The eleven bits of the exponent. -/
def exponentBits (x : Binary64) : Nat := (x.bits >>> 52).toNat % 2048

/-- The fifty-two bits of the fraction. -/
def fractionBits (x : Binary64) : Nat := x.bits.toNat % Nat.pow 2 52

/-- The sign bit. -/
def isNegative (x : Binary64) : Bool := Nat.pow 2 63 ≤ x.bits.toNat

/-- Neither infinite nor NaN. -/
def isFinite (x : Binary64) : Bool := x.exponentBits != 2047

/-- Not a number. -/
def isNaN (x : Binary64) : Bool := x.exponentBits == 2047 && x.fractionBits != 0

/-! ## 2. Arithmetic and order -/

instance : Add Binary64 := ⟨fun x y => ofFloat (x.toFloat + y.toFloat)⟩
instance : Sub Binary64 := ⟨fun x y => ofFloat (x.toFloat - y.toFloat)⟩
instance : Mul Binary64 := ⟨fun x y => ofFloat (x.toFloat * y.toFloat)⟩
instance : Div Binary64 := ⟨fun x y => ofFloat (x.toFloat / y.toFloat)⟩

/-- Negation flips the sign bit, of a NaN too. -/
instance : Neg Binary64 := ⟨fun x => ⟨x.bits ^^^ 0x8000000000000000⟩⟩

/-- Equality of numbers: the zeros are equal, a NaN equals nothing. -/
def eqv (x y : Binary64) : Bool := x.toFloat == y.toFloat

/-- Strictly less, as numbers. -/
def lt (x y : Binary64) : Bool := decide (x.toFloat < y.toFloat)

/-- Less or equal, as numbers. -/
def le (x y : Binary64) : Bool := decide (x.toFloat ≤ y.toFloat)

/-- The larger number; a NaN gives way to the other operand. -/
def max (x y : Binary64) : Binary64 :=
  if x.isNaN then y else if y.isNaN then x else if x.lt y then y else x

/-! ## 3. Integers -/

/-- The double of a 32-bit integer, exact. -/
def ofInt32 (n : Int32) : Binary64 := ofFloat n.toFloat

/-- Rounds toward zero; out of range clamps to the nearer end, and a NaN gives zero. -/
def toInt32 (x : Binary64) : Int32 := x.toFloat.toInt32

end Binary64

end EmbeddedVm
