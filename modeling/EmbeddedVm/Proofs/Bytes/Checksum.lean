import EmbeddedVm.Bytes.Crc32
import EmbeddedVm.Proofs.Bytes.Consuming
import Mathlib.Data.Nat.Bitwise

/-!
# What the checksum tells apart

The register of the checksum is linear in exclusive or (`shifts_xor`), and no two registers have the
same successor, because the polynomial sets the highest bit and the shift clears it
(`shift_injective`). So registers that differ once differ for ever, whatever bytes follow. And four
bytes are as many as the register holds: absorbing them is adding the word they make and shifting it
through (`foldl_absorb`), so different bytes in a window of four make different registers behind it.
Together: byte strings that differ within such a window only have different checksums
(`checksum_ne`).
-/

namespace EmbeddedVm.Crc32

/-! ## 1. One shift -/

theorem shift_of_even {r : UInt32} (h : r.toNat % 2 = 0) : shift r = r >>> 1 := by
  have hbit : ¬ r &&& 1 = 1 := by
    intro hone
    have hnat : r.toNat % 2 = 1 := by
      rw [← Nat.and_one_is_mod]
      exact congrArg UInt32.toNat hone
    omega
  exact if_neg hbit

theorem shift_of_odd {r : UInt32} (h : r.toNat % 2 = 1) : shift r = (r >>> 1) ^^^ polynomial := by
  have hbit : r &&& 1 = 1 := by
    apply UInt32.toNat_inj.mp
    rw [UInt32.toNat_and]
    exact (Nat.and_one_is_mod _).trans h
  exact if_pos hbit

theorem toNat_shiftRight_one (r : UInt32) : (r >>> 1).toNat = r.toNat / 2 := by
  rw [UInt32.toNat_shiftRight]
  exact Nat.shiftRight_one _

/-- **A shift is linear** in exclusive or. -/
theorem shift_xor (a b : UInt32) : shift (a ^^^ b) = shift a ^^^ shift b := by
  have hbit : (a ^^^ b).toNat % 2 = (a.toNat + b.toNat) % 2 := by
    rw [UInt32.toNat_xor, Nat.xor_mod_two_eq]
  rcases Nat.mod_two_eq_zero_or_one a.toNat with ha | ha <;>
    rcases Nat.mod_two_eq_zero_or_one b.toNat with hb | hb
  · rw [shift_of_even (by omega), shift_of_even ha, shift_of_even hb, UInt32.shiftRight_xor]
  · rw [shift_of_odd (by omega), shift_of_even ha, shift_of_odd hb, UInt32.shiftRight_xor,
      UInt32.xor_assoc]
  · rw [shift_of_odd (by omega), shift_of_odd ha, shift_of_even hb, UInt32.shiftRight_xor,
      UInt32.xor_assoc, UInt32.xor_assoc, UInt32.xor_comm polynomial]
  · -- the polynomial is added twice
    have hcancel : b >>> 1 = polynomial ^^^ (b >>> 1 ^^^ polynomial) := by
      rw [UInt32.xor_comm (b >>> 1), ← UInt32.xor_assoc, UInt32.xor_self, UInt32.zero_xor]
    rw [shift_of_even (by omega), shift_of_odd ha, shift_of_odd hb, UInt32.shiftRight_xor,
      UInt32.xor_assoc, ← hcancel]

/-- Only the empty register is shifted to the empty one. -/
theorem eq_zero_of_shift {r : UInt32} (h : shift r = 0) : r = 0 := by
  have hlt := r.toNat_lt
  rcases Nat.mod_two_eq_zero_or_one r.toNat with hbit | hbit
  · rw [shift_of_even hbit] at h
    have hhalf := congrArg UInt32.toNat h
    rw [toNat_shiftRight_one, UInt32.toNat_zero] at hhalf
    apply UInt32.toNat_inj.mp
    rw [UInt32.toNat_zero]
    omega
  · -- half a register is less than the polynomial
    rw [shift_of_odd hbit, UInt32.xor_eq_zero_iff] at h
    have hhalf := congrArg UInt32.toNat h
    rw [toNat_shiftRight_one, show polynomial.toNat = 3988292384 by decide] at hhalf
    omega

/-- **Different registers have different successors.** -/
theorem shift_injective {a b : UInt32} (h : shift a = shift b) : a = b := by
  rw [← UInt32.xor_eq_zero_iff, ← shift_xor] at h
  exact UInt32.xor_eq_zero_iff.mp (eq_zero_of_shift h)

/-! ## 2. Many shifts -/

theorem shifts_xor (n : Nat) (a b : UInt32) : shifts n (a ^^^ b) = shifts n a ^^^ shifts n b := by
  induction n generalizing a b with
  | zero => rfl
  | succ n ih =>
      unfold shifts
      rw [shift_xor, ih]

theorem shifts_injective {n : Nat} {a b : UInt32} (h : shifts n a = shifts n b) : a = b := by
  induction n generalizing a b with
  | zero => exact h
  | succ n ih => exact shift_injective (ih h)

theorem shifts_add (m n : Nat) (r : UInt32) : shifts (m + n) r = shifts n (shifts m r) := by
  induction m generalizing r with
  | zero => rw [Nat.zero_add, shifts]
  | succ m ih =>
      rw [Nat.add_right_comm]
      exact ih (shift r)

/-- Zeros at the low end are shifted out, and nothing else happens. -/
theorem shifts_of_toNat {n : Nat} {r r' : UInt32} (h : r.toNat = 2 ^ n * r'.toNat) :
    shifts n r = r' := by
  induction n generalizing r with
  | zero => exact UInt32.toNat_inj.mp (h.trans (Nat.one_mul _))
  | succ n ih =>
      rw [Nat.pow_succ', Nat.mul_assoc] at h
      unfold shifts
      apply ih
      rw [shift_of_even (by omega), toNat_shiftRight_one]
      omega

/-! ## 3. Bytes -/

/-- **Registers that differ differ behind the same bytes.** -/
theorem foldl_absorb_injective {bs : Bytes} {a b : UInt32}
    (h : bs.foldl absorb a = bs.foldl absorb b) : a = b := by
  induction bs generalizing a b with
  | nil => exact h
  | cons byte rest ih => exact (UInt32.xor_left_inj _).mp (shifts_injective (ih h))

/-- A byte and what stands in front of it share no bit. -/
theorem add_eq_xor {low : Nat} (h : low < 2 ^ 8) (high : Nat) :
    low + 256 * high = low ^^^ 256 * high := by
  refine Nat.eq_of_testBit_eq fun i => ?_
  rw [Nat.add_comm, show 256 * high = 2 ^ 8 * high from rfl, Nat.testBit_two_pow_mul_add high h,
    Nat.testBit_xor, Nat.testBit_two_pow_mul]
  split
  · rename_i hi
    simp [Nat.not_le.mpr hi]
  · rename_i hi
    have hlow : low.testBit i = false :=
      Nat.testBit_lt_two_pow (Nat.lt_of_lt_of_le h (Nat.pow_le_pow_right (by decide) (by omega)))
    simp [hlow, Nat.le_of_not_lt hi]

/-- **Up to four bytes are added as one word** and shifted through. -/
theorem foldl_absorb {bs : Bytes} (h : bs.length ≤ 4) (r : UInt32) :
    bs.foldl absorb r =
      shifts (8 * bs.length) (r ^^^ UInt32.ofNat (Bytes.ofLittleEndian bs)) := by
  induction bs generalizing r with
  | nil => exact (UInt32.xor_zero).symm
  | cons b rest ih =>
      rw [List.length_cons] at h
      have hrest : Bytes.ofLittleEndian rest < 256 ^ 3 :=
        Nat.lt_of_lt_of_le (Bytes.ofLittleEndian_lt rest)
          (Nat.pow_le_pow_right (by decide) (by omega))
      -- the bytes behind the first one, eight bits further up, come down with its shifts
      have hhigh : shifts 8 (UInt32.ofNat (256 * Bytes.ofLittleEndian rest)) =
          UInt32.ofNat (Bytes.ofLittleEndian rest) := by
        apply shifts_of_toNat
        rw [Decoder.toNat_ofNat_u32 (by omega), Decoder.toNat_ofNat_u32 (by omega)]
        rfl
      have hword : UInt32.ofNat (Bytes.ofLittleEndian (b :: rest)) =
          b.toUInt32 ^^^ UInt32.ofNat (256 * Bytes.ofLittleEndian rest) := by
        rw [Bytes.ofLittleEndian, add_eq_xor b.toNat_lt, UInt32.ofNat_xor,
          ← UInt8.toUInt32_ofNat' b.toNat_lt, UInt8.ofNat_toNat]
      calc (b :: rest).foldl absorb r
          = shifts (8 * rest.length)
              (absorb r b ^^^ UInt32.ofNat (Bytes.ofLittleEndian rest)) := ih (by omega) _
        _ = shifts (8 * rest.length) (shifts 8
              (r ^^^ b.toUInt32 ^^^ UInt32.ofNat (256 * Bytes.ofLittleEndian rest))) := by
            rw [shifts_xor 8, hhigh]
            rfl
        _ = shifts (8 * (b :: rest).length)
              (r ^^^ UInt32.ofNat (Bytes.ofLittleEndian (b :: rest))) := by
            rw [hword, ← UInt32.xor_assoc, List.length_cons, Nat.mul_succ, Nat.add_comm,
              shifts_add]

/-- **Different bytes in a window of four make different registers.** -/
theorem eq_of_foldl_absorb {bs bs' : Bytes} (h : bs.length ≤ 4) (hlength : bs'.length = bs.length)
    {r : UInt32} (hsame : bs'.foldl absorb r = bs.foldl absorb r) : bs' = bs := by
  rw [foldl_absorb (by omega), foldl_absorb h, hlength] at hsame
  have hword := congrArg UInt32.toNat ((UInt32.xor_right_inj r).mp (shifts_injective hsame))
  have hpow : 256 ^ bs.length ≤ 256 ^ 4 := Nat.pow_le_pow_right (by decide) h
  have hlt := Bytes.ofLittleEndian_lt bs
  have hlt' := Bytes.ofLittleEndian_lt_of_length hlength
  rw [Decoder.toNat_ofNat_u32 (by omega), Decoder.toNat_ofNat_u32 (by omega)] at hword
  rw [← Bytes.littleEndian_of_length hlength, hword, Bytes.littleEndian_ofLittleEndian]

/-! ## 4. Checksums -/

/-- The register between equal parts in front and behind tells the parts in between. -/
theorem checksum_ne_of_parts {front bs bs' back : Bytes} (h : bs.length ≤ 4)
    (hlength : bs'.length = bs.length) (hne : bs' ≠ bs) :
    checksum (front ++ bs' ++ back) ≠ checksum (front ++ bs ++ back) := by
  intro hsame
  unfold checksum at hsame
  rw [UInt32.not_inj] at hsame
  simp only [List.foldl_append] at hsame
  exact hne (eq_of_foldl_absorb h hlength (foldl_absorb_injective hsame))

/-- Byte strings that agree up to an offset have the same first bytes. -/
theorem take_eq_of_agree {bs bs' : Bytes} {offset n : Nat} (hn : n ≤ offset)
    (hsame : ∀ i, i < offset → bs'[i]? = bs[i]?) : bs'.take n = bs.take n := by
  refine List.ext_getElem? fun i => ?_
  rw [List.getElem?_take, List.getElem?_take]
  split
  · exact hsame i (by omega)
  · rfl

/-- **Byte strings that differ in a window of four bytes only have different checksums.** -/
theorem checksum_ne {bs bs' : Bytes} (hlength : bs'.length = bs.length) {offset width : Nat}
    (hwidth : width ≤ 4) (hsame : ∀ i, i < offset ∨ offset + width ≤ i → bs'[i]? = bs[i]?)
    (hne : bs' ≠ bs) : checksum bs' ≠ checksum bs := by
  have hsplit (l : Bytes) :
      l = l.take offset ++ (l.drop offset).take width ++ l.drop (offset + width) := by
    rw [List.append_assoc, ← List.drop_drop, List.take_append_drop, List.take_append_drop]
  have hfront : bs'.take offset = bs.take offset :=
    take_eq_of_agree (Nat.le_refl _) fun i hi => hsame i (.inl hi)
  have hback : bs'.drop (offset + width) = bs.drop (offset + width) := by
    refine List.ext_getElem? fun i => ?_
    rw [List.getElem?_drop, List.getElem?_drop]
    exact hsame _ (.inr (Nat.le_add_right _ _))
  have hwindow : ((bs.drop offset).take width).length ≤ 4 :=
    Nat.le_trans (List.length_take_le _ _) hwidth
  rw [hsplit bs, hsplit bs', hfront, hback] at hne ⊢
  refine checksum_ne_of_parts hwindow ?_ fun heq => hne (by rw [heq])
  rw [List.length_take, List.length_take, List.length_drop, List.length_drop, hlength]

/-- The checksum of the digits from 1 to 9, by which the algorithm is told from its relatives. -/
example : checksum (Bytes.ofText "123456789") = 0xCBF43926 := by decide +kernel

end EmbeddedVm.Crc32
