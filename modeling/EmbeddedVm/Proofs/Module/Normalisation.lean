import EmbeddedVm.Proofs.Module.Framing

/-!
# Reading as normalisation

A file that is read need not be the one that is written of what was read, but there are two reasons
only: a true boolean can be stored by any byte but zero, and a file can promise a table of imports
that turns out to be empty. Everything else has one spelling, so a file without these two
peculiarities is written as it was read, and any other one becomes such a file once it is written.
-/

namespace EmbeddedVm.Module

open Decoder

/-- **What becomes of a module on its way through a file**: it promises no imports without having
    any. -/
def normal (m : Module) : Module :=
  if m.natives.isEmpty then { m with flags := m.flags &&& ~~~hasNatives } else m

/-- The word of flags in the header of a file. -/
def headerFlags (data : Bytes) : UInt32 := .ofNat (Bytes.ofLittleEndian ((data.drop 8).take 4))

theorem headerFlags_header (checksum : Bytes → UInt32) (flags : UInt32) (payload rest : Bytes) :
    headerFlags (header checksum flags payload ++ rest) = flags := by
  unfold headerFlags header
  have hfront : (magic ++ Bytes.u32 version).length = 8 := rfl
  rw [List.append_assoc, List.append_assoc, List.drop_left' hfront,
    List.take_left' (Bytes.length_u32 flags)]
  unfold Bytes.u32
  rw [Bytes.ofLittleEndian_of_lt flags.toNat_lt, UInt32.ofNat_toNat]

/-! ## 1. What a file that is read consists of -/

/-- **A file that is read**: a header, a spelling of the sections, and the rest as it is written. -/
theorem exists_spelled_of_decode {data : Bytes} {m : Module} (h : decode data = .ok m) :
    ∃ sections listed, data = header Crc32.checksum m.flags (sections ++ encodeRest m.flags m) ++
        (sections ++ encodeRest m.flags m) ∧
      Spelled m.flags m sections listed ∧ storedBooleans data = listed := by
  rw [← decodeUnder_crc32] at h
  obtain ⟨-, payload, rfl, hrun⟩ := (decodeUnder_eq_ok _).mp h
  obtain ⟨taken, rest, htaken, hc, ⟨sections, listed, rfl, hspelled⟩, -⟩ :=
    takes_payload _ _ _ _ _ hrun
  obtain rfl : [] = rest := congrArg Cursor.rest hc
  rw [List.append_nil] at htaken
  subst htaken
  refine ⟨sections, listed, rfl, hspelled, ?_⟩
  unfold storedBooleans
  rw [List.drop_left' (length_header _ _ _), hspelled.stored]

/-- The bytes that a file stores for its booleans stand for the booleans of the module. -/
theorem booleans_of_decode {data : Bytes} {m : Module} (h : decode data = .ok m) :
    (storedBooleans data).map (· != 0) = m.booleans := by
  obtain ⟨sections, listed, -, hspelled, rfl⟩ := exists_spelled_of_decode h
  exact hspelled.values

/-! ## 2. The flag for imports -/

/-- The flags are written as they are if they say what the table of imports says. -/
theorem writtenFlags_eq_self_iff {m : Module} (h : m.flags &&& ~~~knownFlags = 0) :
    m.writtenFlags = m.flags ↔ (m.flags &&& hasNatives ≠ 0 ↔ m.natives ≠ []) := by
  rw [← List.isEmpty_eq_false_iff]
  unfold writtenFlags
  rcases known_cases h with hflags | hflags | hflags | hflags <;> rw [hflags] <;>
    cases m.natives.isEmpty <;> decide

/-- Where imports are promised whenever there are some, only an empty promise is taken back. -/
theorem normal_eq {m : Module} (h : m.flags &&& ~~~knownFlags = 0)
    (hnatives : (m.flags &&& hasNatives != 0) = false → m.natives = []) :
    m.normal = { m with flags := m.writtenFlags } := by
  unfold normal
  cases hempty : m.natives.isEmpty with
  | true =>
      unfold writtenFlags
      rw [if_pos rfl, if_pos hempty]
  | false =>
      have hne : m.natives ≠ [] := List.isEmpty_eq_false_iff.mp hempty
      have hflag : m.flags &&& hasNatives ≠ 0 := by
        intro hzero
        exact hne (hnatives (by rw [hzero]; rfl))
      rw [(writtenFlags_eq_self_iff h).mpr (iff_of_true hflag hne)]
      rfl

/-- A module is written as its normal form is. -/
theorem encode_normal (m : Module) : m.normal.encode = m.encode := by
  unfold normal
  split
  · rename_i hempty
    have hflags : ({ m with flags := m.flags &&& ~~~hasNatives } : Module).writtenFlags =
        m.writtenFlags := by
      unfold writtenFlags
      rw [if_pos hempty, if_pos hempty, UInt32.and_assoc, UInt32.and_self]
    unfold encode
    rw [hflags]
    rfl
  · rfl

/-! ## 3. Reading and writing again -/

/-- **Reading is a normalisation.** Whatever file is read: what is written of the module is read
    back as its normal form, and that is written in the same way. The file itself is what is written
    of the module if and only if each of its booleans is stored by 0 or 1, and its header promises
    imports exactly if it has some. -/
theorem encode_of_decode {data : Bytes} {m : Module} (h : decode data = .ok m) :
    decode m.encode = .ok m.normal ∧
    (m.encode = data ↔ (∀ b ∈ storedBooleans data, b = 0 ∨ b = 1) ∧
      (headerFlags data &&& hasNatives ≠ 0 ↔ m.natives ≠ [])) ∧
    m.normal.encode = m.encode := by
  have hfits := fits_of_decode h
  obtain ⟨sections, listed, rfl, hspelled, hlisted⟩ := exists_spelled_of_decode h
  refine ⟨?_, ?_, encode_normal m⟩
  · rw [normal_eq hfits.flags hspelled.natives]
    exact decode_of_fits hfits
  · rw [hlisted, headerFlags_header, ← hspelled.canonical.iff,
      ← writtenFlags_eq_self_iff hfits.flags, ← encodeUnder_crc32, encodeUnder, encodePayload_eq]
    constructor
    · intro hsame
      obtain ⟨hheader, hpayload⟩ := List.append_inj hsame
        ((length_header _ _ _).trans (length_header _ _ _).symm)
      have hflags := header_inj _ hheader
      rw [hflags] at hpayload
      exact ⟨(List.append_cancel_right hpayload).symm, hflags⟩
    · intro hsame
      obtain ⟨hsections, hflags⟩ := hsame
      rw [hflags, hsections]

/-- The payload of a module with one class, whose static field stores its boolean by the byte 2, and
    with an empty table of imports. -/
def peculiarPayload : Bytes :=
  Bytes.text "" ++ Bytes.u32 0 ++ Bytes.u32 0 ++
    (Bytes.u32 1 ++ (Bytes.text "" ++ Bytes.u16 1 ++ (Bytes.text "" ++ [1, 2]) ++ Bytes.u16 0)) ++
    Bytes.u32 0 ++ Bytes.u32 0

/-- Its file is read, and is not what is written of the module. -/
theorem encode_ne_peculiar :
    let data := header Crc32.checksum hasNatives peculiarPayload ++ peculiarPayload
    let m : Module := ⟨hasNatives, "", [], [], [⟨"", [⟨"", .bool true⟩], []⟩], [], 0⟩
    decode data = .ok m ∧ storedBooleans data = [2] ∧ m.encode ≠ data := by
  intro data m
  have hread : readItem (decodePayload hasNatives) ⟨headerSize, peculiarPayload⟩ =
      .ok (m, ⟨headerSize + peculiarPayload.length, []⟩) := by decide +kernel
  have hdecode : decode data = .ok m :=
    (decodeUnder_eq_ok Crc32.checksum).mpr
      ⟨by decide, peculiarPayload, rfl, readItem_eq_ok.mp hread⟩
  have hstored : storedBooleans data = [2] := by rfl
  obtain ⟨-, hsame, -⟩ := encode_of_decode hdecode
  refine ⟨hdecode, hstored, fun hencode => ?_⟩
  have hbytes := (hsame.mp hencode).1 2
  rw [hstored] at hbytes
  revert hbytes
  decide

end EmbeddedVm.Module
