import EmbeddedVm.Number.Binary64

/-!
# Points in time

The scheduler needs little of its clock: a start, sums, a linear order, and the conversion of a
measured span. The clock of the machine counts seconds as doubles; any other type with these
operations, such as the non-negative rationals, gives a scheduler too.
-/

namespace EmbeddedVm

/-- What a clock needs. Zero is the start of time and the empty span, and `ofNanoseconds` measures a
    span. Of two times what is no point in time gives way in `max`; a finite one is neither infinite
    nor undefined. -/
class Instant (τ : Type) where
  zero : τ
  add : τ → τ → τ
  sub : τ → τ → τ
  le : τ → τ → Bool
  max : τ → τ → τ
  isFinite : τ → Bool
  ofNanoseconds : Nat → τ

namespace Instant

variable {τ : Type} [Instant τ]

/-- Strictly earlier. -/
def lt (a b : τ) : Bool := !Instant.le b a

/-- A span as asked for: not negative, and nothing where it is infinite or undefined. -/
def clean (span : τ) : τ := if Instant.isFinite span then Instant.max span Instant.zero else Instant.zero

end Instant

/-- Seconds. -/
instance : Instant Binary64 where
  zero := .zero
  add x y := x + y
  sub x y := x - y
  le := Binary64.le
  max := Binary64.max
  isFinite := Binary64.isFinite
  ofNanoseconds n :=
    Binary64.ofFloat ((n / 1000000000).toFloat + (n % 1000000000).toFloat / 1000000000.0)

end EmbeddedVm
