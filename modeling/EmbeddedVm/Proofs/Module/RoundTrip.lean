import EmbeddedVm.Module.Codec
import EmbeddedVm.Proofs.Bytes.Reading
import EmbeddedVm.Proofs.Checks

/-!
# Modules survive the way through a file

Writing never fails: a count that does not fit its word is cut, silently, and what is read back is
another module or none. `Module.Fits` says of a module that nothing in it is cut and that no flag is
refused. It is not only enough for the round trip but necessary as well (`decode_encode_iff`),
because whatever comes out of a file fits one.
-/

namespace EmbeddedVm

/-! ## 1. What fits a file -/

/-- An initial value whose text, if it is one, fits its count. -/
def Scalar.Fits : Scalar → Prop
  | .string s => Bytes.FitsCount s
  | _ => True

/-- A function whose name and body fit their counts. -/
structure Function.Fits (f : Function) : Prop where
  name : Bytes.FitsCount f.name
  code : f.code.length < 2 ^ 32

/-- A static field whose name and initial value fit. -/
structure StaticField.Fits (f : StaticField) : Prop where
  name : Bytes.FitsCount f.name
  initial : f.initial.Fits

/-- A class whose name fits, whose fields and methods can be counted by a 16-bit word, and each of
    which fits. -/
structure Class.Fits (c : Class) : Prop where
  name : Bytes.FitsCount c.name
  staticCount : c.statics.length < 2 ^ 16
  statics : ∀ f ∈ c.statics, f.Fits
  methodCount : c.methods.length < 2 ^ 16
  methods : ∀ m ∈ c.methods, Bytes.FitsCount m.name

/-- A table whose entries can be counted by a 32-bit word, and each of which fits. -/
structure FitsTable {α : Type} (P : α → Prop) (xs : List α) : Prop where
  count : xs.length < 2 ^ 32
  entries : ∀ x ∈ xs, P x

/-- **A module that fits a file**: it has no flag without a meaning, and none of its counts and
    lengths is cut. -/
structure Module.Fits (m : Module) : Prop where
  flags : m.flags &&& ~~~Module.knownFlags = 0
  name : Bytes.FitsCount m.name
  strings : FitsTable Bytes.FitsCount m.strings
  functions : FitsTable Function.Fits m.functions
  classes : FitsTable Class.Fits m.classes
  natives : FitsTable Bytes.FitsCount m.natives

open Decoder

/-! ## 2. What was written is read back -/

theorem Scalar.reads {v : Scalar} (h : v.Fits) : Reads Scalar.decode v.encode v := by
  unfold Scalar.decode
  refine .position fun offset => ?_
  cases v with
  | null => exact (reads_u8 0).bind (reads_pure _)
  | bool b =>
      refine (reads_u8 1).bind ?_
      cases b with
      | false => exact (reads_u8 0).map _
      | true => exact (reads_u8 1).map _
  | int n => exact (reads_u8 2).bind ((reads_i32 n).map _)
  | float x => exact (reads_u8 3).bind ((reads_f64 x).map _)
  | string s => exact (reads_u8 4).bind ((reads_text h).map _)

theorem Function.reads {f : Function} (h : f.Fits) : Reads Function.decode f.encode f := by
  unfold Function.decode Function.encode
  simp only [List.append_assoc]
  refine (reads_text h.name).bind ((reads_u16 _).bind ((reads_u16 _).bind ((reads_u32 _).bind ?_)))
  rw [toNat_ofNat_u32 h.code]
  exact (reads_take f.code).map _

theorem StaticField.reads {f : StaticField} (h : f.Fits) :
    Reads StaticField.decode f.encode f :=
  (reads_text h.name).bind ((Scalar.reads h.initial).map _)

theorem Method.reads {m : Method} (h : Bytes.FitsCount m.name) :
    Reads Method.decode m.encode m :=
  (reads_text h).bind ((reads_u32 _).map _)

theorem Class.reads {c : Class} (h : c.Fits) : Reads Class.decode c.encode c := by
  unfold Class.decode Class.encode
  simp only [List.append_assoc]
  refine (reads_text h.name).bind ((reads_u16 _).bind ?_)
  rw [toNat_ofNat_u16 h.staticCount]
  refine (Reads.times fun f hf => StaticField.reads (h.statics f hf)).bind ((reads_u16 _).bind ?_)
  rw [toNat_ofNat_u16 h.methodCount]
  exact (Reads.times fun m hm => Method.reads (h.methods m hm)).map _

namespace Module

/-- A table is read back if every entry is. -/
theorem reads_table {α : Type} {item : Decoder α} {encode : α → Bytes} {P : α → Prop}
    {xs : List α} (h : FitsTable P xs) (hitem : ∀ x, P x → Reads item (encode x) x) :
    Reads (decodeTable item) (encodeTable encode xs) xs := by
  refine (reads_u32 _).bind ?_
  rw [toNat_ofNat_u32 h.count]
  exact .times fun x hx => hitem x (h.entries x hx)

theorem or_and_self (a b : UInt32) : (a ||| b) &&& b = b := by
  refine UInt32.toBitVec_inj.mp (BitVec.eq_of_getElem_eq fun i hi => ?_)
  rw [UInt32.toBitVec_and, UInt32.toBitVec_or, BitVec.getElem_and, BitVec.getElem_or]
  cases a.toBitVec[i] <;> cases b.toBitVec[i] <;> rfl

theorem or_and (a b c : UInt32) : (a ||| b) &&& c = a &&& c ||| b &&& c :=
  UInt32.toBitVec_inj.mp BitVec.and_or_distrib_right

/-- The flags as written tell whether there are imports. -/
theorem writtenFlags_hasNatives (m : Module) :
    (m.writtenFlags &&& hasNatives != 0) = !m.natives.isEmpty := by
  unfold writtenFlags
  cases m.natives.isEmpty with
  | true =>
      have h : m.flags &&& ~~~hasNatives &&& hasNatives = 0 := by
        rw [UInt32.and_assoc, show ~~~hasNatives &&& hasNatives = 0 by decide, UInt32.and_zero]
      rw [if_pos rfl, h]
      decide
  | false =>
      rw [if_neg Bool.false_ne_true, or_and_self]
      decide

/-- What the writer does to the flags, the reader does not mind. -/
theorem writtenFlags_unknown (m : Module) :
    m.writtenFlags &&& ~~~knownFlags = m.flags &&& ~~~knownFlags := by
  unfold writtenFlags
  split
  · rw [UInt32.and_assoc, show ~~~hasNatives &&& ~~~knownFlags = ~~~knownFlags by decide]
  · rw [or_and, show hasNatives &&& ~~~knownFlags = 0 by decide, UInt32.or_zero]

theorem reads_payload {m : Module} (h : m.Fits) :
    Reads (decodePayload m.writtenFlags) m.encodePayload { m with flags := m.writtenFlags } := by
  unfold decodePayload encodePayload
  simp only [List.append_assoc]
  refine (reads_text h.name).bind ((reads_table h.strings fun s hs => reads_text hs).bind
    ((reads_table h.functions fun f hf => Function.reads hf).bind
      ((reads_table h.classes fun c hc => Class.reads hc).bind ?_)))
  have hentry : Reads
      (do return { m with flags := m.writtenFlags, entry := ← u32 }) (Bytes.u32 m.entry)
      { m with flags := m.writtenFlags } := (reads_u32 m.entry).map _
  -- the table of imports is there unless it is empty
  rw [writtenFlags_hasNatives]
  cases hn : m.natives.isEmpty with
  | true =>
      rw [List.isEmpty_iff.mp hn] at hentry ⊢
      exact hentry
  | false => exact (reads_table h.natives fun s hs => reads_text hs).bind hentry

theorem readItem_of_reads {α : Type} {item : Decoder α} {bs : Bytes} {a : α}
    (h : Reads item bs a) (position : Nat) (rest : Bytes) :
    readItem item ⟨position, bs ++ rest⟩ = .ok (a, ⟨position + bs.length, rest⟩) := by
  unfold readItem
  rw [h]

end Module

/-! ## 3. What is read fits -/

theorem Scalar.yields : Yields Scalar.decode Scalar.Fits := by
  refine (yields_any _).bind fun offset _ => (yields_any _).bind fun tag _ => ?_
  split
  · exact yields_pure trivial
  · exact (yields_any _).bind fun _ _ => yields_pure trivial
  · exact (yields_any _).bind fun _ _ => yields_pure trivial
  · exact (yields_any _).bind fun _ _ => yields_pure trivial
  · exact yields_text.bind fun s hs => yields_pure hs
  · exact yields_throw _

theorem Function.yields : Yields Function.decode Function.Fits :=
  yields_text.bind fun name hname => (yields_any _).bind fun _ _ => (yields_any _).bind fun _ _ =>
    (yields_any _).bind fun length _ => (yields_take _).bind fun code hcode =>
      yields_pure ⟨hname, by rw [hcode]; exact length.toNat_lt⟩

theorem StaticField.yields : Yields StaticField.decode StaticField.Fits :=
  yields_text.bind fun _ hname => Scalar.yields.bind fun _ hinitial =>
    yields_pure ⟨hname, hinitial⟩

theorem Method.yields : Yields Method.decode fun m => Bytes.FitsCount m.name :=
  yields_text.bind fun _ hname => (yields_any _).bind fun _ _ => yields_pure hname

theorem Class.yields : Yields Class.decode Class.Fits := by
  refine yields_text.bind fun name hname => (yields_any _).bind fun staticCount _ =>
    (StaticField.yields.times _).bind fun statics hstatics => (yields_any _).bind
      fun methodCount _ => (Method.yields.times _).bind fun methods hmethods => yields_pure ?_
  refine ⟨hname, ?_, hstatics.2, ?_, hmethods.2⟩
  · rw [hstatics.1]
    exact staticCount.toNat_lt
  · rw [hmethods.1]
    exact methodCount.toNat_lt

namespace Module

theorem yields_table {α : Type} {item : Decoder α} {P : α → Prop} (h : Yields item P) :
    Yields (decodeTable item) (FitsTable P) :=
  (yields_any _).bind fun count _ => (h.times count.toNat).imp fun xs hxs =>
    ⟨by rw [hxs.1]; exact count.toNat_lt, hxs.2⟩

/-- The payload behind known flags makes a module that fits, with these flags. -/
theorem yields_payload {flags : UInt32} (h : flags &&& ~~~knownFlags = 0) :
    Yields (decodePayload flags) fun m => m.flags = flags ∧ m.Fits := by
  refine yields_text.bind fun name hname =>
    (yields_table yields_text).bind fun strings hstrings =>
      (yields_table Function.yields).bind fun functions hfunctions =>
        (yields_table Class.yields).bind fun classes hclasses => ?_
  split
  · exact (yields_table yields_text).bind fun natives hnatives => (yields_any _).bind fun _ _ =>
      yields_pure ⟨rfl, h, hname, hstrings, hfunctions, hclasses, hnatives⟩
  · have hnone : FitsTable Bytes.FitsCount [] :=
      ⟨Nat.two_pow_pos 32, fun _ hs => absurd hs List.not_mem_nil⟩
    exact (yields_pure hnone).bind fun natives hnatives => (yields_any _).bind fun _ _ =>
      yields_pure ⟨rfl, h, hname, hstrings, hfunctions, hclasses, hnatives⟩

/-! ## 4. Files -/

/-- **What is in a file**: magic, version, known flags, the checksum of what follows, and a payload
    behind which nothing follows. -/
structure Framed (data : Bytes) (m : Module) (c₁ c₂ c₃ c₄ c₅ : Cursor) : Prop where
  magic : readItem (take 4) (.ofBytes data) = .ok (magic, c₁)
  version : readItem u32 c₁ = .ok (version, c₂)
  flags : readItem u32 c₂ = .ok (m.flags, c₃)
  known : m.flags &&& ~~~knownFlags = 0
  checksum : readItem u32 c₃ = .ok (Crc32.checksum c₄.rest, c₄)
  payload : readItem (decodePayload m.flags) c₄ = .ok (m, c₅)
  nothing : c₅.hasMore = false

theorem yields_of_readItem {α : Type} {item : Decoder α} {P : α → Prop} (h : Yields item P)
    {c c' : Cursor} {a : α} (hr : readItem item c = .ok (a, c')) : P a := by
  unfold readItem at hr
  split at hr
  · rename_i h'
    cases hr
    exact h _ _ _ h'
  · cases hr

/-- **A file is read exactly if it is well framed.** -/
theorem decode_eq_ok {data : Bytes} {m : Module} :
    decode data = .ok m ↔ ∃ c₁ c₂ c₃ c₄ c₅, Framed data m c₁ c₂ c₃ c₄ c₅ := by
  constructor
  · intro h
    unfold decode at h
    obtain ⟨⟨found, c₁⟩, h₁, h⟩ := Checks.bind_eq_ok.mp h
    obtain ⟨hmagic, h⟩ := Checks.guard_eq_ok.mp h
    obtain ⟨⟨foundVersion, c₂⟩, h₂, h⟩ := Checks.bind_eq_ok.mp h
    obtain ⟨hversion, h⟩ := Checks.guard_eq_ok.mp h
    obtain ⟨⟨flags, c₃⟩, h₃, h⟩ := Checks.bind_eq_ok.mp h
    obtain ⟨hknown, h⟩ := Checks.guard_eq_ok.mp h
    obtain ⟨⟨expected, c₄⟩, h₄, h⟩ := Checks.bind_eq_ok.mp h
    obtain ⟨hchecksum, h⟩ := Checks.guard_eq_ok.mp h
    obtain ⟨⟨m', c₅⟩, h₅, h⟩ := Checks.bind_eq_ok.mp h
    obtain ⟨hnothing, h⟩ := Checks.guard_eq_ok.mp h
    cases h
    rw [not_not] at hmagic hversion hknown hchecksum
    subst hmagic hversion hchecksum
    obtain ⟨rfl, -⟩ := yields_of_readItem (yields_payload hknown) h₅
    exact ⟨c₁, c₂, c₃, c₄, c₅, h₁, h₂, h₃, hknown, h₄, h₅, Bool.eq_false_iff.mpr hnothing⟩
  · rintro ⟨c₁, c₂, c₃, c₄, c₅, h⟩
    unfold decode
    refine Checks.bind_eq_ok.mpr ⟨_, h.magic, ?_⟩
    refine Checks.guard_eq_ok.mpr ⟨not_not.mpr rfl, Checks.bind_eq_ok.mpr ⟨_, h.version, ?_⟩⟩
    refine Checks.guard_eq_ok.mpr ⟨not_not.mpr rfl, Checks.bind_eq_ok.mpr ⟨_, h.flags, ?_⟩⟩
    refine Checks.guard_eq_ok.mpr ⟨not_not.mpr h.known, Checks.bind_eq_ok.mpr ⟨_, h.checksum, ?_⟩⟩
    refine Checks.guard_eq_ok.mpr ⟨not_not.mpr rfl, Checks.bind_eq_ok.mpr ⟨_, h.payload, ?_⟩⟩
    exact Checks.guard_eq_ok.mpr ⟨by rw [h.nothing]; exact Bool.false_ne_true, rfl⟩

/-- **Whatever is read from a file fits one.** -/
theorem fits_of_decode {data : Bytes} {m : Module} (h : decode data = .ok m) : m.Fits := by
  obtain ⟨c₁, c₂, c₃, c₄, c₅, hf⟩ := decode_eq_ok.mp h
  exact (yields_of_readItem (yields_payload hf.known) hf.payload).2

/-- **A module that fits a file is read back from it**, with the flags as they were written. -/
theorem decode_of_fits {m : Module} (h : m.Fits) :
    decode m.encode = .ok { m with flags := m.writtenFlags } := by
  have hmagic : Reads (take 4) magic magic := reads_take magic
  have hpayload := readItem_of_reads (reads_payload h) 16 []
  rw [List.append_nil] at hpayload
  refine decode_eq_ok.mpr ⟨_, _, _, _, _, ?_, readItem_of_reads (reads_u32 _) _ _,
    readItem_of_reads (reads_u32 _) _ _, ?_, readItem_of_reads (reads_u32 _) _ _, hpayload, rfl⟩
  · unfold encode Cursor.ofBytes
    simp only [List.append_assoc]
    exact readItem_of_reads hmagic _ _
  · exact m.writtenFlags_unknown.trans h.flags

/-- **The round trip, exactly characterised.** What a module is written as is read back as this
    module, its flag for imports set as its table of imports says, if and only if it has no flag
    without a meaning and all its counts and lengths fit their words. -/
theorem decode_encode_iff (m : Module) :
    decode m.encode = .ok { m with flags := m.writtenFlags } ↔ m.Fits := by
  refine ⟨fun h => ?_, decode_of_fits⟩
  have hf := fits_of_decode h
  exact ⟨m.writtenFlags_unknown.symm.trans hf.flags, hf.name, hf.strings, hf.functions, hf.classes,
    hf.natives⟩

end Module

end EmbeddedVm
