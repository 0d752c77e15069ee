import EmbeddedVm.Number.Binary64
import Mathlib

/-!
# Doubles that are not below zero

Comparing doubles is no order: a NaN stands in no relation to anything. Those that are not below
zero are free of it. Such a double is a zero, a positive number or positive infinity, and these
stand on a line (`place`): zeros first, then the numbers by exponent and mantissa, then infinity.
They stay there under addition, however a sum is rounded (`NonNegative.add`), and a maximum with
zero puts any double there (`zero_le_max`).
-/

namespace EmbeddedVm.Binary64

open Float.Model UnpackedFloat

/-! ## 1. The line -/

/-- A zero, a positive number, or positive infinity. -/
inductive NonNegative : UnpackedFloat → Prop where
  | zero (s : Sign) : NonNegative (.zero s)
  | finite {m : Nat} {e : Int} (hm : 0 < m) : NonNegative (.finite .positive m e hm)
  | infinity : NonNegative (.infinity .positive)

/-- Where a double that is not below zero stands. -/
def place : UnpackedFloat → ℕ ×ₗ ℤ ×ₗ ℕ
  | .zero _ => toLex (0, toLex (0, 0))
  | .finite _ m e _ => toLex (1, toLex (e, m))
  | .infinity _ | .notANumber => toLex (2, toLex (0, 0))

variable {u v : UnpackedFloat}

/-- Positive numbers compare by exponent and then by mantissa. -/
theorem isLE_compare_then (e e' : ℤ) (m m' : ℕ) :
    ((compare e e').then (compare m m')).isLE = true ↔ toLex (e, m) ≤ toLex (e', m') := by
  rw [Prod.Lex.toLex_le_toLex]
  rcases lt_trichotomy e e' with h | rfl | h
  · rw [compare_lt_iff_lt.mpr h]
    exact ⟨fun _ => .inl h, fun _ => rfl⟩
  · rw [compare_eq_iff_eq.mpr rfl]
    simp [Nat.isLE_compare]
  · rw [compare_gt_iff_gt.mpr h]
    simp [h.not_gt, h.ne']

/-- **Doubles not below zero compare as they stand on the line.** -/
theorem NonNegative.le_iff (hu : NonNegative u) (hv : NonNegative v) :
    u.le v = true ↔ place u ≤ place v := by
  have hsame : (compare Sign.positive Sign.positive).isLE = true := rfl
  cases hu <;> cases hv <;>
    simp [place, UnpackedFloat.le, UnpackedFloat.compare, Prod.Lex.toLex_le_toLex,
      isLE_compare_then, hsame]

/-- What is not below zero is what compares so. -/
theorem zero_le_iff {s : Sign} : (UnpackedFloat.zero s).le u = true ↔ NonNegative u := by
  constructor
  · intro h
    match u, h with
    | .zero _, _ => exact .zero _
    | .finite .positive _ _ _, _ => exact .finite _
    | .infinity .positive, _ => exact .infinity
  · intro h
    cases h <;> rfl

/-! ## 2. Sums -/

theorem nonNegative_roundWithAccuracy (spec : Format) (m : Nat) (e : Int) (a : Accuracy) :
    NonNegative (roundWithAccuracy spec .positive m e a) := by
  unfold roundWithAccuracy
  dsimp only
  split
  · exact .zero _
  · exact .finite _

/-- What is not below zero is rounded to what is not below zero. -/
theorem nonNegative_normalize (spec : Format) {m : Int} (hm : 0 ≤ m) (e : Int) :
    NonNegative (UnpackedFloat.normalize spec m e .positive) := by
  unfold UnpackedFloat.normalize
  split
  · rename_i h
    exact absurd (compare_lt_iff_lt.mp h) (Int.not_lt.mpr hm)
  · exact .zero _
  · exact nonNegative_roundWithAccuracy _ _ _ _

/-- **A sum of doubles not below zero is not below zero.** -/
theorem NonNegative.add (spec : Format) (hu : NonNegative u) (hv : NonNegative v) :
    NonNegative (UnpackedFloat.add spec u v) := by
  cases hu with
  | zero s =>
      cases hv with
      | zero s' => cases s <;> cases s' <;> exact .zero _
      | finite hm => exact .finite hm
      | infinity => exact .infinity
  | finite hm =>
      cases hv with
      | zero s => exact .finite hm
      | finite hm' =>
          exact nonNegative_normalize _
            (Int.add_nonneg (Int.natCast_nonneg _) (Int.natCast_nonneg _)) _
      | infinity => exact .infinity
  | infinity => cases hv <;> exact .infinity

/-! ## 3. Patterns -/

section Patterns

variable {spec : Format} {b : BitVec spec.numBits}

theorem isNaNBits_eq_false :
    isNaNBits b = false ↔ (unpackExponent b = -1#_ → unpackMantissa b = 0#_) := by
  simp [isNaNBits]

/-- Only the pattern of a NaN stands for one. -/
theorem isNaNBits_of_unpack (h : UnpackedFloat.unpack spec b = .notANumber) :
    isNaNBits b = true := by
  rw [← Bool.not_eq_false, isNaNBits_eq_false]
  intro hb
  unfold UnpackedFloat.unpack at h
  dsimp only at h
  split at h
  · rename_i he
    rw [if_pos (hb he)] at h
    cases h
  · split at h
    · split at h <;> cases h
    · cases h

/-- A pattern without a sign that is not that of a NaN is not below zero. -/
theorem nonNegative_unpack (hs : unpackSign b = 0#1) (hb : isNaNBits b = false) :
    NonNegative (UnpackedFloat.unpack spec b) := by
  have hsign : Sign.ofBitVec (unpackSign b) = .positive := by rw [hs]; rfl
  rw [isNaNBits_eq_false] at hb
  unfold UnpackedFloat.unpack
  dsimp only
  rw [hsign]
  split
  · rename_i he
    rw [if_pos (hb he)]
    exact .infinity
  · split
    · split
      · exact .zero _
      · exact .finite _
    · exact .finite _

theorem isNaNBits_packComponents {s : Sign} {e : BitVec spec.exponentBits}
    {m : BitVec spec.mantissaBitsWithoutImplicit} (h : e = -1#_ → m = 0#_) :
    isNaNBits (packComponents spec s e m) = false := by
  rw [isNaNBits_eq_false, unpackExponent_packComponents, unpackMantissa_packComponents]
  exact h

/-- The smallest exponent is not the one that is kept for what is no number. -/
theorem zero_ne_last (spec : Format) : (0#_ : BitVec spec.exponentBits) ≠ -1#_ := by
  simp [Nat.ne_of_gt spec.he]

/-- What is a number does not get the pattern of a NaN. -/
theorem isNaNBits_pack (hu : u ≠ .notANumber) :
    isNaNBits (UnpackedFloat.pack spec u) = false := by
  cases u with
  | notANumber => exact absurd rfl hu
  | infinity s => exact isNaNBits_packComponents fun _ => rfl
  | zero s => exact isNaNBits_packComponents fun h => absurd h (zero_ne_last spec)
  | finite s m e hm =>
      unfold UnpackedFloat.pack
      dsimp only
      split
      · exact isNaNBits_packComponents fun _ => rfl
      · split
        · rename_i hfits _
          refine isNaNBits_packComponents fun h => absurd (congrArg BitVec.toNat h) ?_
          rw [BitVec.neg_one_eq_allOnes, BitVec.toNat_allOnes, BitVec.toNat_ofNat,
            Nat.mod_eq_of_lt (by omega)]
          omega
        · exact isNaNBits_packComponents fun h => absurd h (zero_ne_last spec)

/-- **Packing keeps what is not below zero where it is.** -/
theorem NonNegative.unpack_pack (hu : NonNegative u) :
    NonNegative (UnpackedFloat.unpack spec (UnpackedFloat.pack spec u)) := by
  have hnumber : isNaNBits (UnpackedFloat.pack spec u) = false :=
    isNaNBits_pack (by rintro rfl; cases hu)
  cases hu with
  | zero s =>
      rw [show UnpackedFloat.pack spec (.zero s) = packedZero spec s from rfl, unpack_packedZero]
      exact .zero s
  | infinity => exact nonNegative_unpack (unpackSign_packComponents _ _ _) hnumber
  | finite hm =>
      refine nonNegative_unpack ?_ hnumber
      unfold UnpackedFloat.pack
      dsimp only
      split
      · exact unpackSign_packComponents _ _ _
      · split
        · exact unpackSign_packComponents _ _ _
        · exact unpackSign_packComponents _ _ _

end Patterns

/-! ## 4. Doubles -/

variable {x y z : Binary64}

/-- What a pattern stands for. -/
def value (x : Binary64) : UnpackedFloat := x.toFloat.toModel.unpack

theorem le_iff : x.le y = true ↔ x.value.le y.value = true :=
  decide_eq_true_iff.trans decide_eq_true_iff

theorem lt_iff : x.lt y = true ↔ x.value.lt y.value = true :=
  decide_eq_true_iff.trans decide_eq_true_iff

/-- What stands for a number not below zero. -/
theorem zero_le : zero.le x = true ↔ NonNegative x.value :=
  le_iff.trans (zero_le_iff (s := .positive))

theorem le_total_of_zero_le (hx : zero.le x = true) (hy : zero.le y = true) :
    x.le y = true ∨ y.le x = true := by
  rw [zero_le] at hx hy
  rw [le_iff, le_iff, hx.le_iff hy, hy.le_iff hx]
  exact le_total _ _

theorem le_trans_of_zero_le (hx : zero.le x = true) (hy : zero.le y = true) (hz : zero.le z = true)
    (hxy : x.le y = true) (hyz : y.le z = true) : x.le z = true := by
  rw [zero_le] at hx hy hz
  rw [le_iff, hx.le_iff hy] at hxy
  rw [le_iff, hy.le_iff hz] at hyz
  rw [le_iff, hx.le_iff hz]
  exact le_trans hxy hyz

/-- A sum stands for the rounded sum. -/
theorem value_add (x y : Binary64) : (x + y).value =
    UnpackedFloat.unpack .binary64
      (UnpackedFloat.pack .binary64 (UnpackedFloat.add .binary64 x.value y.value)) :=
  congrArg (fun f => f.toModel.unpack) (Float.ofBits_toBits (x.toFloat + y.toFloat))

/-- **A sum of doubles not below zero is not below zero.** -/
theorem zero_le_add (hx : zero.le x = true) (hy : zero.le y = true) : zero.le (x + y) = true := by
  rw [zero_le] at hx hy ⊢
  rw [value_add]
  exact (hx.add .binary64 hy).unpack_pack

theorem toNat_unpackExponent (x : Binary64) :
    (@unpackExponent .binary64 x.bits.toBitVec).toNat = x.exponentBits := by
  unfold unpackExponent exponentBits
  rw [BitVec.toNat_cast, BitVec.extractLsb_toNat]
  rfl

theorem toNat_unpackMantissa (x : Binary64) :
    (@unpackMantissa .binary64 x.bits.toBitVec).toNat = x.fractionBits := by
  unfold unpackMantissa fractionBits
  rw [BitVec.toNat_cast, BitVec.extractLsb_toNat]
  rfl

theorem isNaNBits_bits (h : x.isNaN = false) : @isNaNBits .binary64 x.bits.toBitVec = false := by
  rw [isNaNBits_eq_false]
  intro he
  have hexp : x.exponentBits = 2047 := by
    rw [← toNat_unpackExponent, he]
    rfl
  unfold isNaN at h
  rw [hexp] at h
  refine BitVec.eq_of_toNat_eq ?_
  rw [toNat_unpackMantissa]
  simpa using h

/-- What is not a NaN stands for a number. -/
theorem value_ne_notANumber (h : x.isNaN = false) : x.value ≠ .notANumber := by
  intro hv
  have hbits := isNaNBits_bits h
  have hunpacked : UnpackedFloat.unpack .binary64 x.bits.toBitVec ≠ .notANumber := fun hu => by
    rw [isNaNBits_of_unpack hu] at hbits
    cases hbits
  have hpacked : isNaNBits (UnpackedFloat.pack .binary64 _) = false := isNaNBits_pack hunpacked
  exact absurd (isNaNBits_of_unpack hv) (Bool.eq_false_iff.mp hpacked)

/-- A number that is not less than zero is not below zero. -/
theorem nonNegative_of_not_lt {s : Sign} (hu : u ≠ .notANumber) (h : ¬ u.lt (.zero s) = true) :
    NonNegative u := by
  match u with
  | .notANumber => exact absurd rfl hu
  | .zero _ => exact .zero _
  | .finite .positive _ _ _ => exact .finite _
  | .finite .negative _ _ _ => exact absurd rfl h
  | .infinity .positive => exact .infinity
  | .infinity .negative => exact absurd rfl h

/-- **The larger one of any double and zero is not below zero.** -/
theorem zero_le_max (x : Binary64) : zero.le (max x zero) = true := by
  have hzero : zero.le zero = true := zero_le.mpr (.zero _)
  unfold max
  split
  · exact hzero
  · rename_i hx
    split
    · rename_i h
      cases h
    · split
      · exact hzero
      · rename_i h
        rw [lt_iff] at h
        exact zero_le.mpr (nonNegative_of_not_lt (s := .positive)
          (value_ne_notANumber (Bool.eq_false_iff.mpr hx)) h)

/-- The larger one is one of the two. -/
theorem max_eq_or (x y : Binary64) : max x y = x ∨ max x y = y := by
  unfold max
  split
  · exact .inr rfl
  · split
    · exact .inl rfl
    · split
      · exact .inr rfl
      · exact .inl rfl

end EmbeddedVm.Binary64
