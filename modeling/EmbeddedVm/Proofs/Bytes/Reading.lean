import EmbeddedVm.Bytes.Cursor
import Mathlib.Algebra.Group.Nat.Defs

/-!
# Reading what was written

`Decoder.Reads d bs a` says that `d` takes exactly the bytes `bs` off whatever stands before more,
and makes `a` of them; `Decoder.Yields d P` says that whatever `d` makes of whatever bytes has the
property `P`, and `Decoder.Advances d n` that it takes `n` bytes whatever it makes of them. All
follow the structure of a decoder: they are closed under sequencing, and hold of the words and texts
that everything else is made of. A round trip is a matter of the first, what can come out of a file
at all is a matter of the second, and where the next item starts is a matter of the third.
-/

namespace EmbeddedVm

/-! ## 1. Words and texts -/

namespace Bytes

/-- A number that is written with too few bytes loses its high ones. -/
theorem ofLittleEndian_littleEndian (width n : Nat) :
    ofLittleEndian (littleEndian width n) = n % 256 ^ width := by
  induction width generalizing n with
  | zero => exact (Nat.mod_one n).symm
  | succ width ih =>
      unfold littleEndian ofLittleEndian
      calc (UInt8.ofNat n).toNat + 256 * ofLittleEndian (littleEndian width (n / 256))
          = n % 256 + 256 * (n / 256 % 256 ^ width) := by rw [ih, UInt8.toNat_ofNat']
        _ = n % (256 * 256 ^ width) := Nat.mod_mul.symm
        _ = n % 256 ^ (width + 1) := by rw [Nat.pow_succ']

theorem ofLittleEndian_of_lt {width n : Nat} (h : n < 256 ^ width) :
    ofLittleEndian (littleEndian width n) = n := by
  rw [ofLittleEndian_littleEndian, Nat.mod_eq_of_lt h]

theorem length_ofText (s : String) : (ofText s).length = s.utf8ByteSize := rfl

/-- The bytes of a text are read as that text. -/
theorem toText?_ofText (s : String) : toText? (ofText s) = some s := by
  have h : ByteArray.IsValidUTF8 ⟨(ofText s).toArray⟩ := s.isValidUTF8
  unfold toText? String.fromUTF8?
  rw [dif_pos h]
  rfl

/-- What reads as a text is as long as its bytes. -/
theorem utf8ByteSize_of_toText? {bs : Bytes} {s : String} (h : toText? bs = some s) :
    s.utf8ByteSize = bs.length := by
  unfold toText? String.fromUTF8? at h
  split at h
  · cases h
    rfl
  · cases h

/-- A text whose length fits the count before it. -/
def FitsCount (s : String) : Prop := s.utf8ByteSize < 2 ^ 32

end Bytes

namespace Decoder

variable {α β : Type}

/-! ## 2. Reading certain bytes -/

/-- **The decoder takes these bytes, whatever follows them, and makes this of them.** -/
def Reads (d : Decoder α) (bs : Bytes) (a : α) : Prop :=
  ∀ position rest, d.run ⟨position, bs ++ rest⟩ = .ok a ⟨position + bs.length, rest⟩

theorem reads_pure (a : α) : Reads (pure a) [] a := fun _ _ => rfl

theorem Reads.bind {d : Decoder α} {f : α → Decoder β} {bs bs' : Bytes} {a : α} {b : β}
    (h : Reads d bs a) (h' : Reads (f a) bs' b) : Reads (d >>= f) (bs ++ bs') b := by
  intro position rest
  rw [EStateM.run_bind, List.append_assoc, h, List.length_append, ← Nat.add_assoc]
  exact h' _ _

/-- What is made of the last item takes no further bytes. -/
theorem Reads.last {d : Decoder α} {f : α → Decoder β} {bs : Bytes} {a : α} {b : β}
    (h : Reads d bs a) (h' : Reads (f a) [] b) : Reads (d >>= f) bs b := by
  have hb := h.bind h'
  rwa [List.append_nil] at hb

theorem Reads.map {d : Decoder α} {bs : Bytes} {a : α} (h : Reads d bs a) (f : α → β) :
    Reads (do return f (← d)) bs (f a) := h.last (reads_pure (f a))

/-- Asking for the position takes no bytes. -/
theorem Reads.position {f : Nat → Decoder β} {bs : Bytes} {b : β}
    (h : ∀ n, Reads (f n) bs b) : Reads (Decoder.position >>= f) bs b :=
  fun position rest => h position position rest

theorem reads_take (bs : Bytes) : Reads (take bs.length) bs bs := by
  intro position rest
  show take bs.length ⟨position, bs ++ rest⟩ = _
  unfold take
  dsimp only
  rw [List.take_left, if_pos rfl, List.drop_left]

theorem reads_word (width n : Nat) : Reads (take width) (Bytes.littleEndian width n)
    (Bytes.littleEndian width n) := by
  have h := reads_take (Bytes.littleEndian width n)
  rw [Bytes.length_littleEndian] at h
  exact h

theorem reads_u8 (v : UInt8) : Reads u8 (Bytes.u8 v) v := by
  have h := (reads_take [v]).map fun bs => UInt8.ofNat (Bytes.ofLittleEndian bs)
  rw [show UInt8.ofNat (Bytes.ofLittleEndian [v]) = v from UInt8.ofNat_toNat] at h
  exact h

theorem reads_u16 (v : UInt16) : Reads u16 (Bytes.u16 v) v := by
  have h := (reads_word 2 v.toNat).map fun bs => UInt16.ofNat (Bytes.ofLittleEndian bs)
  rw [Bytes.ofLittleEndian_of_lt v.toNat_lt, UInt16.ofNat_toNat] at h
  exact h

theorem reads_u32 (v : UInt32) : Reads u32 (Bytes.u32 v) v := by
  have h := (reads_word 4 v.toNat).map fun bs => UInt32.ofNat (Bytes.ofLittleEndian bs)
  rw [Bytes.ofLittleEndian_of_lt v.toNat_lt, UInt32.ofNat_toNat] at h
  exact h

theorem reads_i32 (v : Int32) : Reads i32 (Bytes.i32 v) v := by
  have h := (reads_u32 v.toUInt32).map (·.toInt32)
  rw [Int32.toInt32_toUInt32] at h
  exact h

/-- Floats are read back bit by bit. -/
theorem reads_f64 (x : Binary64) : Reads f64 (Bytes.u64 x.bits) x := by
  have h := (reads_word 8 x.bits.toNat).map fun bs =>
    (⟨UInt64.ofNat (Bytes.ofLittleEndian bs)⟩ : Binary64)
  rw [Bytes.ofLittleEndian_of_lt x.bits.toNat_lt, UInt64.ofNat_toNat] at h
  exact h

/-- A count is read back if it fits its word. -/
theorem toNat_ofNat_u32 {n : Nat} (h : n < 2 ^ 32) : (UInt32.ofNat n).toNat = n :=
  UInt32.toNat_ofNat_of_lt' h

theorem toNat_ofNat_u16 {n : Nat} (h : n < 2 ^ 16) : (UInt16.ofNat n).toNat = n :=
  UInt16.toNat_ofNat_of_lt' h

theorem reads_text {s : String} (h : Bytes.FitsCount s) : Reads text (Bytes.text s) s := by
  refine (reads_u32 _).bind (.position fun start => ?_)
  rw [toNat_ofNat_u32 h, ← Bytes.length_ofText]
  refine (reads_take (Bytes.ofText s)).last ?_
  rw [Bytes.toText?_ofText]
  exact reads_pure s

/-- Items in a row are read one by one. -/
theorem Reads.times {item : Decoder α} {encode : α → Bytes} {xs : List α}
    (h : ∀ x ∈ xs, Reads item (encode x) x) :
    Reads (times item xs.length) (xs.flatMap encode) xs := by
  induction xs with
  | nil => exact reads_pure []
  | cons x xs ih =>
      rw [List.flatMap_cons, List.length_cons]
      unfold Decoder.times
      refine (h x List.mem_cons_self).bind ?_
      exact (ih fun y hy => h y (List.mem_cons_of_mem x hy)).map (x :: ·)

/-! ## 3. What can be read at all -/

/-- **Whatever the decoder makes of whatever bytes has the property.** -/
def Yields (d : Decoder α) (P : α → Prop) : Prop :=
  ∀ c a c', d.run c = .ok a c' → P a

theorem yields_any (d : Decoder α) : Yields d fun _ => True := fun _ _ _ _ => trivial

theorem yields_pure {P : α → Prop} {a : α} (h : P a) : Yields (pure a) P := by
  intro c b c' hb
  cases hb
  exact h

theorem yields_throw {P : α → Prop} (e : DecodeError) : Yields (throw e) P := by
  intro c b c' hb
  cases hb

theorem Yields.imp {d : Decoder α} {P Q : α → Prop} (h : Yields d P) (hPQ : ∀ a, P a → Q a) :
    Yields d Q :=
  fun c a c' ha => hPQ a (h c a c' ha)

theorem Yields.bind {d : Decoder α} {f : α → Decoder β} {P : α → Prop} {Q : β → Prop}
    (h : Yields d P) (hf : ∀ a, P a → Yields (f a) Q) : Yields (d >>= f) Q := by
  intro c b c' hb
  rw [EStateM.run_bind] at hb
  split at hb
  · rename_i a c₁ ha
    exact hf a (h c a c₁ ha) c₁ b c' hb
  · cases hb

theorem yields_take (n : Nat) : Yields (take n) fun bs => bs.length = n := by
  intro c bs c' h
  change take n c = _ at h
  unfold take at h
  dsimp only at h
  split at h
  · cases h
    assumption
  · cases h

theorem yields_text : Yields text Bytes.FitsCount := by
  refine (yields_any u32).bind fun length _ => (yields_any position).bind fun start _ =>
    (yields_take length.toNat).bind fun bytes hbytes => ?_
  split
  · rename_i s hs
    refine yields_pure ?_
    unfold Bytes.FitsCount
    rw [Bytes.utf8ByteSize_of_toText? hs, hbytes]
    exact length.toNat_lt
  · exact yields_throw _

theorem Yields.times {item : Decoder α} {P : α → Prop} (h : Yields item P) (n : Nat) :
    Yields (times item n) fun xs => xs.length = n ∧ ∀ x ∈ xs, P x := by
  induction n with
  | zero => exact yields_pure ⟨rfl, fun _ hx => absurd hx List.not_mem_nil⟩
  | succ n ih =>
      refine h.bind fun a ha => ih.bind fun xs hxs => yields_pure ⟨?_, fun x hx => ?_⟩
      · rw [List.length_cons, hxs.1]
      · rcases List.mem_cons.mp hx with rfl | hx
        · exact ha
        · exact hxs.2 x hx

/-! ## 4. How many bytes are taken -/

/-- **Whatever the decoder makes of whatever bytes, it takes so many of them.** -/
def Advances (d : Decoder α) (n : Nat) : Prop :=
  ∀ c a c', d.run c = .ok a c' → n ≤ c.rest.length ∧ c' = ⟨c.position + n, c.rest.drop n⟩

theorem advances_pure (a : α) : Advances (pure a) 0 := by
  intro c b c' hb
  cases hb
  exact ⟨Nat.zero_le _, rfl⟩

theorem Advances.bind {d : Decoder α} {f : α → Decoder β} {n k : Nat} (h : Advances d n)
    (hf : ∀ a, Advances (f a) k) : Advances (d >>= f) (n + k) := by
  intro c b c' hb
  rw [EStateM.run_bind] at hb
  split at hb
  · rename_i a c₁ ha
    obtain ⟨hn, rfl⟩ := h c a c₁ ha
    obtain ⟨hk, rfl⟩ := hf a _ b c' hb
    rw [List.length_drop] at hk
    refine ⟨by omega, ?_⟩
    rw [List.drop_drop, Nat.add_assoc]
  · cases hb

theorem Advances.map {d : Decoder α} {n : Nat} (h : Advances d n) (f : α → β) :
    Advances (do return f (← d)) n :=
  h.bind fun a => advances_pure (f a)

theorem advances_take (n : Nat) : Advances (take n) n := by
  intro c bs c' h
  change take n c = _ at h
  unfold take at h
  dsimp only at h
  split at h
  · rename_i hlength
    cases h
    rw [List.length_take] at hlength
    exact ⟨by omega, rfl⟩
  · cases h

theorem advances_u8 : Advances u8 1 := (advances_take 1).map _

theorem advances_u16 : Advances u16 2 := (advances_take 2).map _

theorem advances_u32 : Advances u32 4 := (advances_take 4).map _

theorem advances_i32 : Advances i32 4 := advances_u32.map _

theorem advances_f64 : Advances f64 8 := (advances_take 8).map _

end Decoder

end EmbeddedVm
