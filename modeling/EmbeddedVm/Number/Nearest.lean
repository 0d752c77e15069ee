import EmbeddedVm.Number.Binary64

/-!
# Floats nearest to fractions

`Binary64.ofRatio` rounds a fraction to the nearest float, and to the one with an even significand
where two are equally near. All of it is arithmetic on natural numbers. On top of it stands the
reading of decimal numbers.
-/

namespace EmbeddedVm

namespace Binary64

/-- Plus or minus infinity. -/
def infinity (negative : Bool) : Binary64 :=
  ⟨if negative then 0xFFF0000000000000 else 0x7FF0000000000000⟩

/-- A NaN of either sign. -/
def nan (negative : Bool) : Binary64 :=
  ⟨if negative then 0xFFF8000000000000 else 0x7FF8000000000000⟩

/-! ## 1. Fractions -/

/-- The natural number nearest to `n / d`, and the even one of two. -/
def roundRatio (n d : Nat) : Nat :=
  let q := n / d
  let r := n % d
  if 2 * r < d then q else if d < 2 * r then q + 1 else q + q % 2

/-- The exponent of the last place of a float near `n / d`: the significand is then below `2 ^ 53`,
    and at least `2 ^ 52` unless the exponent is the least there is. -/
def lastPlace (n d : Nat) : Int :=
  let guess : Int := (n.log2 : Int) - d.log2 - 53
  let exponent :=
    if n * Nat.pow 2 (-guess).toNat < d * Nat.pow 2 (53 + guess.toNat) then guess else guess + 1
  Max.max exponent (-1074)

/-- The float nearest to `n / d`. -/
def ofRatio (negative : Bool) (n d : Nat) : Binary64 :=
  if n = 0 then ⟨if negative then 0x8000000000000000 else 0⟩
  else
    let q := lastPlace n d
    let m := roundRatio (n * Nat.pow 2 (-q).toNat) (d * Nat.pow 2 q.toNat)
    let magnitude := (q + 1074).toNat * Nat.pow 2 52 + m
    if 2047 * Nat.pow 2 52 ≤ magnitude then infinity negative
    else ⟨.ofNat (magnitude + if negative then Nat.pow 2 63 else 0)⟩

/-! ## 2. Decimal numbers -/

/-- The number with these decimal digits. -/
def ofDigits (digits : List Nat) : Nat := digits.foldl (fun n d => 10 * n + d) 0

/-- The float nearest to the number with these decimal digits, times a power of ten. Beyond the
    powers of ten that floats reach nothing is computed. -/
def ofDecimal (negative : Bool) (digits : List Nat) (exponent : Int) : Binary64 :=
  let digits := digits.dropWhile (· == 0)
  let n := ofDigits digits
  let top := exponent + digits.length
  if top < -400 then ofRatio negative 0 1
  else if 400 < top && !digits.isEmpty then infinity negative
  else if 0 ≤ exponent then ofRatio negative (if n = 0 then 0 else n * Nat.pow 10 exponent.toNat) 1
  else ofRatio negative n (if n = 0 then 1 else Nat.pow 10 (-exponent).toNat)

/-- The values of leading decimal digits, and the rest. -/
def leadingDigits (cs : List Char) : List Nat × List Char :=
  ((cs.takeWhile Char.isDigit).map fun c => c.toNat - 48, cs.dropWhile Char.isDigit)

/-- A sign, if there is one, and the rest. -/
def leadingSign : List Char → Bool × List Char
  | '-' :: rest => (true, rest)
  | '+' :: rest => (false, rest)
  | rest => (false, rest)

/-- The exponent behind a significand: none, or a letter and at least one digit. -/
def exponent? : List Char → Option Int
  | [] => some 0
  | c :: rest =>
    if c != 'e' && c != 'E' then none
    else
      let (down, rest) := leadingSign rest
      let (digits, rest) := leadingDigits rest
      if digits.isEmpty || !rest.isEmpty then none
      else
        let places : Int := ofDigits digits
        some (if down then -places else places)

/-- Reads a number: a sign, digits with a point among or beside them, an exponent; or one of the
    special values by name. -/
def parse? (s : String) : Option Binary64 := do
  let (negative, rest) := leadingSign s.toList
  let word := rest.map Char.toLower
  if word = "inf".toList || word = "infinity".toList then return infinity negative
  if word = "nan".toList then return nan negative
  let (whole, rest) := leadingDigits rest
  let (fraction, rest) := match rest with
    | '.' :: rest => leadingDigits rest
    | rest => ([], rest)
  if whole.isEmpty && fraction.isEmpty then none
  return ofDecimal negative (whole ++ fraction) ((← exponent? rest) - fraction.length)

end Binary64

end EmbeddedVm
