import EmbeddedVm.Proofs.Bytes.Reading
import Mathlib.Data.List.Basic

/-!
# What a decoder takes off the front

A decoder that succeeds has taken some bytes off the front, and what stands behind them was of no
matter: `Decoder.Takes d R` says so of every success of `d`, and that `R` holds of the result and of
the bytes it was made of. With `R` one asks in how many ways a thing can be spelled. A word and a
text have one spelling each (`takes_u32`, `takes_text`), and `Canonical` keeps account of the bytes
where a spelling is open.
-/

namespace EmbeddedVm

/-! ## 1. Bytes of a word and of a text -/

namespace Bytes

theorem ofLittleEndian_lt (bs : Bytes) : ofLittleEndian bs < 256 ^ bs.length := by
  induction bs with
  | nil => simp [ofLittleEndian]
  | cons b bs ih =>
      have hb := b.toNat_lt
      rw [ofLittleEndian, List.length_cons, Nat.pow_succ']
      omega

/-- The bytes of a word are those of the number they make. -/
theorem littleEndian_ofLittleEndian (bs : Bytes) :
    littleEndian bs.length (ofLittleEndian bs) = bs := by
  induction bs with
  | nil => rfl
  | cons b bs ih =>
      have hb := b.toNat_lt
      have hlow : UInt8.ofNat (b.toNat + 256 * ofLittleEndian bs) = b := by
        apply UInt8.toNat_inj.mp
        rw [UInt8.toNat_ofNat']
        omega
      have hhigh : (b.toNat + 256 * ofLittleEndian bs) / 256 = ofLittleEndian bs := by omega
      rw [ofLittleEndian, List.length_cons, littleEndian, hlow, hhigh, ih]

theorem littleEndian_of_length {bs : Bytes} {width : Nat} (h : bs.length = width) :
    littleEndian width (ofLittleEndian bs) = bs := by
  rw [← h, littleEndian_ofLittleEndian]

theorem ofLittleEndian_lt_of_length {bs : Bytes} {width : Nat} (h : bs.length = width) :
    ofLittleEndian bs < 256 ^ width := by
  rw [← h]
  exact ofLittleEndian_lt bs

/-- What reads as a text is the bytes of that text. -/
theorem ofText_of_toText? {bs : Bytes} {s : String} (h : toText? bs = some s) : ofText s = bs := by
  unfold toText? String.fromUTF8? at h
  split at h
  · cases h
    rfl
  · cases h

theorem length_u32 (v : UInt32) : (u32 v).length = 4 := length_littleEndian 4 _

/-- A word is told by its bytes. -/
theorem u32_inj {v w : UInt32} (h : u32 v = u32 w) : v = w := by
  have hnumber := congrArg ofLittleEndian h
  unfold u32 at hnumber
  rw [ofLittleEndian_of_lt v.toNat_lt, ofLittleEndian_of_lt w.toNat_lt] at hnumber
  exact UInt32.toNat_inj.mp hnumber

end Bytes

/-! ## 2. Taking bytes -/

namespace Decoder

variable {α β : Type}

/-- **Where the decoder succeeds it takes some bytes off the front**, of which, with the result, `R`
    holds; whatever else stands behind these bytes, it takes them and makes the same of them. -/
def Takes (d : Decoder α) (R : α → Bytes → Prop) : Prop :=
  ∀ position bs a c, d.run ⟨position, bs⟩ = .ok a c →
    ∃ taken rest, bs = taken ++ rest ∧ c = ⟨position + taken.length, rest⟩ ∧ R a taken ∧
      ∀ more, d.run ⟨position, taken ++ more⟩ = .ok a ⟨position + taken.length, more⟩

theorem takes_pure {R : α → Bytes → Prop} {a : α} (h : R a []) : Takes (pure a) R := by
  intro position bs b c hrun
  cases hrun
  exact ⟨[], bs, rfl, rfl, h, fun more => rfl⟩

theorem takes_throw {R : α → Bytes → Prop} (e : DecodeError) : Takes (throw e) R := by
  intro position bs b c hrun
  cases hrun

theorem Takes.imp {d : Decoder α} {R S : α → Bytes → Prop} (h : Takes d R)
    (hRS : ∀ a bs, R a bs → S a bs) : Takes d S := by
  intro position bs a c hrun
  obtain ⟨taken, rest, hbs, hc, hR, hmore⟩ := h position bs a c hrun
  exact ⟨taken, rest, hbs, hc, hRS a taken hR, hmore⟩

/-- What holds of whatever the decoder makes holds beside what is said of the bytes. -/
theorem Takes.yields {d : Decoder α} {R : α → Bytes → Prop} {P : α → Prop} (h : Takes d R)
    (hP : Yields d P) : Takes d fun a bs => R a bs ∧ P a := by
  intro position bs a c hrun
  obtain ⟨taken, rest, hbs, hc, hR, hmore⟩ := h position bs a c hrun
  exact ⟨taken, rest, hbs, hc, ⟨hR, hP _ a c hrun⟩, hmore⟩

/-- Behind a decoder, the next one adds its bytes to those taken. -/
theorem Takes.bind {d : Decoder α} {f : α → Decoder β} {R : α → Bytes → Prop}
    {S : β → Bytes → Prop} (h : Takes d R)
    (hf : ∀ a bs, R a bs → Takes (f a) fun b bs' => S b (bs ++ bs')) : Takes (d >>= f) S := by
  intro position bs b c hrun
  rw [EStateM.run_bind] at hrun
  split at hrun
  · rename_i a c₁ ha
    obtain ⟨first, rest₁, rfl, rfl, hR, hfirst⟩ := h _ _ _ _ ha
    obtain ⟨second, rest, rfl, rfl, hS, hsecond⟩ := hf a first hR _ _ _ _ hrun
    refine ⟨first ++ second, rest, ?_, ?_, hS, fun more => ?_⟩
    · rw [List.append_assoc]
    · rw [List.length_append, Nat.add_assoc]
    · rw [EStateM.run_bind, List.append_assoc, hfirst]
      dsimp only
      rw [hsecond, List.length_append, Nat.add_assoc]
  · cases hrun

/-- What is made of the result of a decoder takes no further bytes. -/
theorem Takes.map {d : Decoder α} {R : α → Bytes → Prop} {S : β → Bytes → Prop} (h : Takes d R)
    (f : α → β) (hRS : ∀ a bs, R a bs → S (f a) bs) : Takes (do return f (← d)) S := by
  refine h.bind fun a bs hR => takes_pure ?_
  rw [List.append_nil]
  exact hRS a bs hR

theorem takes_position : Takes position fun _ bs => bs = [] := by
  intro position bs a c hrun
  cases hrun
  exact ⟨[], bs, rfl, rfl, rfl, fun more => rfl⟩

theorem takes_take (n : Nat) : Takes (take n) fun a bs => bs = a ∧ a.length = n := by
  intro position bs a c hrun
  change take n ⟨position, bs⟩ = _ at hrun
  unfold take at hrun
  dsimp only at hrun
  split at hrun
  · rename_i hlength
    cases hrun
    have hposition : (bs.take n).length = n := hlength
    refine ⟨bs.take n, bs.drop n, (List.take_append_drop n bs).symm, ?_, ⟨rfl, hlength⟩, ?_⟩
    · rw [hposition]
    · intro more
      have hreads := reads_take (bs.take n) position more
      rw [hposition] at hreads
      rw [hposition]
      exact hreads
  · cases hrun

/-! ## 3. One spelling -/

/-- **Whatever the decoder makes of bytes is written as these bytes.** -/
abbrev TakesWritten (d : Decoder α) (encode : α → Bytes) : Prop := Takes d fun a bs => bs = encode a

theorem takes_u8 : TakesWritten u8 Bytes.u8 := by
  refine (takes_take 1).map _ fun bs taken h => ?_
  obtain ⟨rfl, hlength⟩ := h
  obtain ⟨b, rfl⟩ := List.length_eq_one_iff.mp hlength
  have hb : UInt8.ofNat (Bytes.ofLittleEndian [b]) = b := UInt8.ofNat_toNat
  rw [hb]
  rfl

theorem takes_u16 : TakesWritten u16 Bytes.u16 := by
  refine (takes_take 2).map _ fun bs taken h => ?_
  obtain ⟨rfl, hlength⟩ := h
  have hlt := Bytes.ofLittleEndian_lt_of_length hlength
  unfold Bytes.u16
  rw [UInt16.toNat_ofNat_of_lt' hlt, Bytes.littleEndian_of_length hlength]

theorem takes_u32 : TakesWritten u32 Bytes.u32 := by
  refine (takes_take 4).map _ fun bs taken h => ?_
  obtain ⟨rfl, hlength⟩ := h
  have hlt := Bytes.ofLittleEndian_lt_of_length hlength
  unfold Bytes.u32
  rw [UInt32.toNat_ofNat_of_lt' hlt, Bytes.littleEndian_of_length hlength]

theorem takes_i32 : TakesWritten i32 Bytes.i32 := by
  refine takes_u32.map _ fun v taken h => ?_
  rw [h]
  unfold Bytes.i32
  rw [UInt32.toUInt32_toInt32]

theorem takes_f64 : TakesWritten f64 fun x => Bytes.u64 x.bits := by
  refine (takes_take 8).map _ fun bs taken h => ?_
  obtain ⟨rfl, hlength⟩ := h
  have hlt := Bytes.ofLittleEndian_lt_of_length hlength
  show taken = Bytes.u64 (UInt64.ofNat (Bytes.ofLittleEndian taken))
  unfold Bytes.u64
  rw [UInt64.toNat_ofNat_of_lt' hlt, Bytes.littleEndian_of_length hlength]

theorem takes_text : TakesWritten text Bytes.text := by
  unfold text
  refine takes_u32.bind fun length counted hcounted => takes_position.bind fun start none hnone =>
    (takes_take length.toNat).bind fun bytes taken htaken => ?_
  obtain ⟨rfl, hlength⟩ := htaken
  split
  · rename_i s hs
    apply takes_pure
    have hsize : s.utf8ByteSize = length.toNat := (Bytes.utf8ByteSize_of_toText? hs).trans hlength
    unfold Bytes.text
    rw [hcounted, hnone, hsize, UInt32.ofNat_toNat, Bytes.ofText_of_toText? hs]
    simp
  · exact takes_throw _

/-- Items in a row are written as their spellings in a row. -/
theorem Takes.times {item : Decoder α} {encode : α → Bytes} (h : TakesWritten item encode)
    (n : Nat) : Takes (times item n) fun xs bs => xs.length = n ∧ bs = xs.flatMap encode := by
  induction n with
  | zero => exact takes_pure ⟨rfl, rfl⟩
  | succ n ih =>
      unfold Decoder.times
      refine h.bind fun x first hfirst => ih.map _ fun xs rest hrest => ?_
      obtain ⟨hlength, hrest⟩ := hrest
      exact ⟨by rw [List.length_cons, hlength], by rw [hfirst, hrest, List.flatMap_cons]⟩

/-! ## 4. Open spellings -/

/-- **Bytes that are as many as those written**, and the same if those listed, the only ones that
    are open, are 0 or 1. -/
structure Canonical (bs written : Bytes) (listed : List UInt8) : Prop where
  length : bs.length = written.length
  iff : bs = written ↔ ∀ x ∈ listed, x = 0 ∨ x = 1

theorem canonical_written (written : Bytes) : Canonical written written [] := by
  refine ⟨rfl, ?_⟩
  simp

/-- Parts of the same lengths are the same if both are. -/
theorem Canonical.append {bs bs' written written' : Bytes} {listed listed' : List UInt8}
    (h : Canonical bs written listed) (h' : Canonical bs' written' listed') :
    Canonical (bs ++ bs') (written ++ written') (listed ++ listed') := by
  constructor
  · rw [List.length_append, List.length_append, h.length, h'.length]
  · have hparts : bs ++ bs' = written ++ written' ↔ bs = written ∧ bs' = written' :=
      ⟨fun happend => List.append_inj happend h.length, fun ⟨hfirst, hsecond⟩ => by
        rw [hfirst, hsecond]⟩
    rw [hparts, h.iff, h'.iff]
    constructor
    · rintro ⟨hfirst, hsecond⟩ x hx
      rcases List.mem_append.mp hx with hx | hx
      · exact hfirst x hx
      · exact hsecond x hx
    · intro hall
      exact ⟨fun x hx => hall x (List.mem_append_left _ hx),
        fun x hx => hall x (List.mem_append_right _ hx)⟩

/-- A part that is there twice, in front, is of no matter. -/
theorem Canonical.behind {bs written : Bytes} {listed : List UInt8} (first : Bytes)
    (h : Canonical bs written listed) : Canonical (first ++ bs) (first ++ written) listed :=
  (canonical_written first).append h

/-- Nor is one behind. -/
theorem Canonical.before {bs written : Bytes} {listed : List UInt8} (last : Bytes)
    (h : Canonical bs written listed) : Canonical (bs ++ last) (written ++ last) listed := by
  have hboth := h.append (canonical_written last)
  rwa [List.append_nil] at hboth

end Decoder

end EmbeddedVm
