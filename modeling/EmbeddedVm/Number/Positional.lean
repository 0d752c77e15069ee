import EmbeddedVm.Number.Shortest

/-!
# Floats in print

A float is printed with its shortest digits in positional notation, whatever its size: there is
never an exponent, a whole number has no decimal point, and the sign of zero is kept.
-/

namespace EmbeddedVm

/-- The digits before and behind the point. -/
def Decimal.Digits.positional (d : Decimal.Digits) : String :=
  let n : Int := d.digits.length
  String.ofList <|
    if d.point ≤ 0 then
      '0' :: '.' :: (List.replicate (-d.point).toNat '0' ++ d.digits)
    else if n ≤ d.point then
      d.digits ++ List.replicate (d.point - n).toNat '0'
    else
      d.digits.take d.point.toNat ++ '.' :: d.digits.drop d.point.toNat

/-- The printed form of a float. -/
def Binary64.display (x : Binary64) : String :=
  if x.isNaN then "NaN"
  else
    let sign := if x.isNegative then "-" else ""
    let magnitude :=
      if !x.isFinite then "inf"
      else if x.exponentBits = 0 ∧ x.fractionBits = 0 then "0"
      else (Decimal.shortest x).positional
    sign ++ magnitude

end EmbeddedVm
