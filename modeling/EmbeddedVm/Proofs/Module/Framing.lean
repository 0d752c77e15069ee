import EmbeddedVm.Proofs.Module.Spelling

/-!
# Damaged files

The header says what to look for behind it and is not covered by the checksum: with the flag for
imports set the wrong way, the entry index is read as a count of imports, or this count as the entry
index. Neither goes unnoticed. What decides is where a payload ends: a decoder that has taken the
bytes of one payload takes no more and no fewer of them (`Reads.front_unique`), so a file that is cut
short or longer than it should be is refused, and so is one whose flags promise another ending. The
only damage to a header that is not found is that of the flag that means nothing to the decoder.
None of this depends on the checksum being a good one, so it is said of every function in its place.
-/

namespace EmbeddedVm

open Decoder

/-! ## 1. Where a decoder stops -/

namespace Decoder

variable {α β : Type}

/-- **There is one way only to divide bytes** into what a decoder takes and what it leaves. -/
theorem Reads.front_unique {d : Decoder α} {bs bs' rest rest' : Bytes} {a a' : α}
    (h : Reads d bs a) (h' : Reads d bs' a') (hbs : bs ++ rest = bs' ++ rest') :
    bs = bs' ∧ rest = rest' := by
  have hboth := h 0 rest
  rw [hbs, h' 0 rest'] at hboth
  simp only [EStateM.Result.ok.injEq, Cursor.mk.injEq] at hboth
  obtain ⟨-, -, rfl⟩ := hboth
  exact ⟨List.append_cancel_right hbs, rfl⟩

end Decoder

namespace Module

theorem readItem_eq_ok {α : Type} {item : Decoder α} {c c' : Cursor} {a : α} :
    readItem item c = .ok (a, c') ↔ item.run c = .ok a c' := by
  unfold readItem
  cases item.run c with
  | ok b c₁ => simp
  | error e c₁ => simp

/-- What an item of a file took off the front, and where it left the cursor. -/
theorem readItem_takes {α : Type} {item : Decoder α} {R : α → Bytes → Prop} (h : Takes item R)
    {position : Nat} {bs : Bytes} {c : Cursor} {a : α}
    (hread : readItem item ⟨position, bs⟩ = .ok (a, c)) :
    ∃ taken rest, bs = taken ++ rest ∧ c = ⟨position + taken.length, rest⟩ ∧ R a taken := by
  obtain ⟨taken, rest, hbs, hc, hR, -⟩ := h _ _ _ _ (readItem_eq_ok.mp hread)
  exact ⟨taken, rest, hbs, hc, hR⟩

/-! ## 2. Any checksum -/

/-- The header of a payload behind such flags, with this function for the checksum. -/
def header (checksum : Bytes → UInt32) (flags : UInt32) (payload : Bytes) : Bytes :=
  magic ++ Bytes.u32 version ++ Bytes.u32 flags ++ Bytes.u32 (checksum payload)

/-- The bytes of a module, with this function for the checksum. -/
def encodeUnder (checksum : Bytes → UInt32) (m : Module) : Bytes :=
  header checksum m.writtenFlags m.encodePayload ++ m.encodePayload

/-- Reads a module, with this function for the checksum. -/
def decodeUnder (checksum : Bytes → UInt32) (data : Bytes) : Except ModuleError Module := do
  let (found, c) ← readItem (Decoder.take 4) (Cursor.ofBytes data)
  if found ≠ magic then throw (.invalidMagic found)
  let (foundVersion, c) ← readItem Decoder.u32 c
  if foundVersion ≠ version then throw (.unsupportedVersion foundVersion)
  let (flags, c) ← readItem Decoder.u32 c
  if flags &&& ~~~knownFlags ≠ 0 then throw (.unsupportedFlags (flags &&& ~~~knownFlags))
  let (expected, c) ← readItem Decoder.u32 c
  let actual := checksum c.rest
  if expected ≠ actual then throw (.checksumMismatch expected actual)
  let (m, c) ← readItem (decodePayload flags) c
  if c.hasMore then throw (.trailingBytes c.remaining)
  pure m

theorem encodeUnder_crc32 (m : Module) : encodeUnder Crc32.checksum m = m.encode := rfl

theorem decodeUnder_crc32 (data : Bytes) : decodeUnder Crc32.checksum data = decode data := rfl

variable (checksum : Bytes → UInt32)

theorem length_header (flags : UInt32) (payload : Bytes) :
    (header checksum flags payload).length = headerSize := by
  unfold header
  simp only [List.length_append, Bytes.length_u32]
  rfl

/-- **What is read from a file**: its header is the one of its payload, behind known flags, and the
    payload is read to its end. -/
theorem decodeUnder_eq_ok {data : Bytes} {m : Module} :
    decodeUnder checksum data = .ok m ↔
      m.flags &&& ~~~knownFlags = 0 ∧ ∃ payload, data = header checksum m.flags payload ++ payload ∧
        (decodePayload m.flags).run ⟨headerSize, payload⟩ =
          .ok m ⟨headerSize + payload.length, []⟩ := by
  constructor
  · intro h
    unfold decodeUnder at h
    obtain ⟨⟨found, c₁⟩, h₁, h⟩ := Checks.bind_eq_ok.mp h
    obtain ⟨hmagic, h⟩ := Checks.guard_eq_ok.mp h
    obtain ⟨⟨foundVersion, c₂⟩, h₂, h⟩ := Checks.bind_eq_ok.mp h
    obtain ⟨hversion, h⟩ := Checks.guard_eq_ok.mp h
    obtain ⟨⟨flags, c₃⟩, h₃, h⟩ := Checks.bind_eq_ok.mp h
    obtain ⟨hknown, h⟩ := Checks.guard_eq_ok.mp h
    obtain ⟨⟨expected, c₄⟩, h₄, h⟩ := Checks.bind_eq_ok.mp h
    obtain ⟨hchecksum, h⟩ := Checks.guard_eq_ok.mp h
    obtain ⟨⟨m', c₅⟩, h₅, h⟩ := Checks.bind_eq_ok.mp h
    obtain ⟨hnothing, h⟩ := Checks.guard_eq_ok.mp h
    cases h
    rw [not_not] at hmagic hversion hknown hchecksum
    subst hmagic hversion
    obtain ⟨-, rest₁, rfl, rfl, rfl, -⟩ := readItem_takes (takes_take 4) h₁
    obtain ⟨-, rest₂, rfl, rfl, rfl⟩ := readItem_takes takes_u32 h₂
    obtain ⟨-, rest₃, rfl, rfl, rfl⟩ := readItem_takes takes_u32 h₃
    obtain ⟨-, payload, rfl, rfl, rfl⟩ := readItem_takes takes_u32 h₄
    obtain ⟨taken, rest, rfl, rfl, _, _, -, hspelled⟩ := readItem_takes (takes_payload flags) h₅
    obtain rfl := hspelled.flags
    have hrun := readItem_eq_ok.mp h₅
    have hend : rest = [] := by simpa [Cursor.hasMore] using hnothing
    subst hend
    rw [List.append_nil] at hrun hchecksum ⊢
    refine ⟨hknown, taken, ?_, hrun⟩
    unfold header
    rw [hchecksum]
    simp only [List.append_assoc]
  · intro h
    obtain ⟨hknown, payload, rfl, hrun⟩ := h
    have hmagic : Reads (take 4) magic magic := reads_take magic
    unfold header decodeUnder Cursor.ofBytes
    simp only [List.append_assoc]
    refine Checks.bind_eq_ok.mpr ⟨_, readItem_of_reads hmagic _ _, ?_⟩
    refine Checks.guard_eq_ok.mpr ⟨not_not.mpr rfl,
      Checks.bind_eq_ok.mpr ⟨_, readItem_of_reads (reads_u32 _) _ _, ?_⟩⟩
    refine Checks.guard_eq_ok.mpr ⟨not_not.mpr rfl,
      Checks.bind_eq_ok.mpr ⟨_, readItem_of_reads (reads_u32 _) _ _, ?_⟩⟩
    refine Checks.guard_eq_ok.mpr ⟨not_not.mpr hknown,
      Checks.bind_eq_ok.mpr ⟨_, readItem_of_reads (reads_u32 _) _ _, ?_⟩⟩
    refine Checks.guard_eq_ok.mpr ⟨not_not.mpr rfl,
      Checks.bind_eq_ok.mpr ⟨_, readItem_eq_ok.mpr hrun, ?_⟩⟩
    exact Checks.guard_eq_ok.mpr ⟨Bool.false_ne_true, rfl⟩

/-- A module that fits a file is read back, whatever the checksum. -/
theorem decodeUnder_of_fits {m : Module} (h : m.Fits) :
    decodeUnder checksum (encodeUnder checksum m) = .ok { m with flags := m.writtenFlags } := by
  have hrun := reads_payload h headerSize []
  rw [List.append_nil] at hrun
  exact (decodeUnder_eq_ok checksum).mpr
    ⟨m.writtenFlags_unknown.trans h.flags, m.encodePayload, rfl, hrun⟩

/-! ## 3. The flags of a header -/

/-- The words that have known flags only. -/
theorem known_cases {flags : UInt32} (h : flags &&& ~~~knownFlags = 0) :
    flags = 0 ∨ flags = 1 ∨ flags = 2 ∨ flags = 3 := by
  have hmask : flags &&& knownFlags = flags := by
    refine UInt32.toBitVec_inj.mp (BitVec.eq_of_getElem_eq fun i hi => ?_)
    have hbit := congrArg (fun w : UInt32 => w.toBitVec[i]) h
    rw [UInt32.toBitVec_and, UInt32.toBitVec_not, BitVec.getElem_and, BitVec.getElem_not] at hbit
    rw [UInt32.toBitVec_and, BitVec.getElem_and]
    cases hflag : flags.toBitVec[i] with
    | false => rfl
    | true => simpa [hflag] using hbit
  have hle : flags.toNat ≤ 3 := by
    rw [← hmask, UInt32.toNat_and]
    exact Nat.and_le_right
  have hcases : flags.toNat = 0 ∨ flags.toNat = 1 ∨ flags.toNat = 2 ∨ flags.toNat = 3 := by omega
  rcases hcases with h | h | h | h
  · exact .inl (UInt32.toNat_inj.mp h)
  · exact .inr (.inl (UInt32.toNat_inj.mp h))
  · exact .inr (.inr (.inl (UInt32.toNat_inj.mp h)))
  · exact .inr (.inr (.inr (UInt32.toNat_inj.mp h)))

/-- An entry index takes four bytes, a table of imports four more at least. -/
theorem length_encodeRest (flags : UInt32) (m : Module) :
    if flags &&& hasNatives != 0 then 8 ≤ (encodeRest flags m).length
    else (encodeRest flags m).length = 4 := by
  unfold encodeRest encodeTable
  split
  · simp only [List.length_append, Bytes.length_u32]
    omega
  · rw [List.nil_append, Bytes.length_u32]

/-- **The payload of a module is read to its end only with the right flag for imports.** With the
    other one, what stands behind the sections is too short, or too long. -/
theorem hasNatives_of_run {m m' : Module} {flags : UInt32} {position position' : Nat} (h : m.Fits)
    (hrun : (decodePayload flags).run ⟨position, m.encodePayload⟩ = .ok m' ⟨position', []⟩) :
    (flags &&& hasNatives != 0) = (m.writtenFlags &&& hasNatives != 0) := by
  obtain ⟨taken, rest, hpayload, hc, ⟨sections, listed, rfl, hspelled⟩, -⟩ :=
    takes_payload flags _ _ _ _ hrun
  obtain rfl : [] = rest := congrArg Cursor.rest hc
  have hwritten := reads_payload h position []
  obtain ⟨taken', rest', hpayload', hc', ⟨sections', listed', rfl, hspelled'⟩, -⟩ :=
    takes_payload m.writtenFlags _ _ _ _ hwritten
  obtain rfl : [] = rest' := congrArg Cursor.rest hc'
  simp only [List.append_nil] at hpayload hpayload'
  -- the same sections, so the same bytes behind them
  obtain ⟨-, hrest⟩ := hspelled.stored.front_unique hspelled'.stored (hpayload.symm.trans hpayload')
  have hlength := length_encodeRest flags m'
  have hlength' := length_encodeRest m.writtenFlags { m with flags := m.writtenFlags }
  rw [hrest] at hlength
  cases hflag : (flags &&& hasNatives != 0) with
  | true =>
      rw [if_pos hflag] at hlength
      cases hflag' : (m.writtenFlags &&& hasNatives != 0) with
      | true => rfl
      | false =>
          rw [hflag', if_neg Bool.false_ne_true] at hlength'
          omega
  | false =>
      rw [hflag, if_neg Bool.false_ne_true] at hlength
      cases hflag' : (m.writtenFlags &&& hasNatives != 0) with
      | false => rfl
      | true =>
          rw [if_pos hflag'] at hlength'
          omega

/-- Two words of known flags that agree on the imports are the same but for the other flag. -/
theorem eq_or_eq_xor {flags flags' : UInt32} (h : flags &&& ~~~knownFlags = 0)
    (h' : flags' &&& ~~~knownFlags = 0)
    (hnatives : (flags &&& hasNatives != 0) = (flags' &&& hasNatives != 0)) :
    flags = flags' ∨ flags = flags' ^^^ debugNames := by
  rcases known_cases h with rfl | rfl | rfl | rfl <;>
    rcases known_cases h' with rfl | rfl | rfl | rfl <;> revert hnatives <;> decide

/-! ## 4. Damage -/

/-- Inverts the flag for names in a file: the second bit of its ninth byte. -/
def flipDebugNames (data : Bytes) : Bytes := data.modify 8 (· ^^^ 2)

theorem flipDebugNames_header {flags : UInt32} (h : flags &&& ~~~knownFlags = 0)
    (payload rest : Bytes) :
    flipDebugNames (header checksum flags payload ++ rest) =
      header checksum (flags ^^^ debugNames) payload ++ rest := by
  rcases known_cases h with rfl | rfl | rfl | rfl <;> rfl

/-- The same module with its flag for names inverted. -/
def withDebugNamesFlipped (m : Module) : Module := { m with flags := m.flags ^^^ debugNames }

theorem Fits.withDebugNamesFlipped {m : Module} (h : m.Fits) : m.withDebugNamesFlipped.Fits := by
  refine ⟨?_, h.name, h.strings, h.functions, h.classes, h.natives⟩
  have hknown := h.flags
  show (m.flags ^^^ debugNames) &&& ~~~knownFlags = 0
  rcases known_cases hknown with hflags | hflags | hflags | hflags <;> rw [hflags] <;> decide

theorem writtenFlags_withDebugNamesFlipped {m : Module} (h : m.Fits) :
    m.withDebugNamesFlipped.writtenFlags = m.writtenFlags ^^^ debugNames := by
  show (if m.natives.isEmpty then (m.flags ^^^ debugNames) &&& ~~~hasNatives
    else m.flags ^^^ debugNames ||| hasNatives) = _
  unfold writtenFlags
  rcases known_cases h.flags with hflags | hflags | hflags | hflags <;> rw [hflags] <;>
    cases m.natives.isEmpty <;> decide

/-- Inverting the flag in the file is inverting it in the module. -/
theorem flipDebugNames_encodeUnder {m : Module} (h : m.Fits) :
    flipDebugNames (encodeUnder checksum m) = encodeUnder checksum m.withDebugNamesFlipped := by
  have hknown := m.writtenFlags_unknown.trans h.flags
  unfold encodeUnder
  rw [flipDebugNames_header checksum hknown, writtenFlags_withDebugNamesFlipped h]
  rfl

theorem header_inj {flags flags' : UInt32} {payload payload' : Bytes}
    (h : header checksum flags payload = header checksum flags' payload') : flags = flags' := by
  unfold header at h
  have hlength :
      (Bytes.u32 (checksum payload)).length = (Bytes.u32 (checksum payload')).length := by
    rw [Bytes.length_u32, Bytes.length_u32]
  have hfront := (List.append_inj' h hlength).1
  exact Bytes.u32_inj (List.append_cancel_left hfront)

/-- **A file that is read ends where the written one ends**, if they begin alike: whatever stands
    behind the one stands behind the other. -/
theorem rest_of_decodeUnder {m m' : Module} (h : m.Fits) {data rest rest' : Bytes}
    (hdecode : decodeUnder checksum data = .ok m')
    (hdata : data ++ rest = encodeUnder checksum m ++ rest') : rest = rest' := by
  obtain ⟨-, payload, rfl, hrun⟩ := (decodeUnder_eq_ok checksum).mp hdecode
  unfold encodeUnder at hdata
  rw [List.append_assoc, List.append_assoc] at hdata
  have hlength : (header checksum m'.flags payload).length =
      (header checksum m.writtenFlags m.encodePayload).length := by
    rw [length_header, length_header]
  obtain ⟨hheader, hpayload⟩ := List.append_inj hdata hlength
  have hflags := header_inj checksum hheader
  rw [hflags] at hrun
  obtain ⟨taken, left, htaken, hc, -, hmore⟩ := takes_payload _ _ _ _ _ hrun
  obtain rfl : [] = left := congrArg Cursor.rest hc
  rw [List.append_nil] at htaken
  subst htaken
  have hread := hmore rest
  have hwritten := reads_payload h headerSize rest'
  rw [hpayload, hwritten] at hread
  simp only [EStateM.Result.ok.injEq, Cursor.mk.injEq] at hread
  exact hread.2.2.symm

/-- **A file that is read and has the payload of the written one** is the written one, or differs by
    the flag for names. -/
theorem eq_or_eq_flip_of_decodeUnder {m m' : Module} (h : m.Fits) {data : Bytes}
    (hdecode : decodeUnder checksum data = .ok m')
    (hdata : data.drop headerSize = (encodeUnder checksum m).drop headerSize) :
    data = encodeUnder checksum m ∨ data = flipDebugNames (encodeUnder checksum m) := by
  obtain ⟨hknown, payload, rfl, hrun⟩ := (decodeUnder_eq_ok checksum).mp hdecode
  have hwritten := m.writtenFlags_unknown.trans h.flags
  unfold encodeUnder at hdata ⊢
  rw [List.drop_left' (length_header _ _ _), List.drop_left' (length_header _ _ _)] at hdata
  subst hdata
  have hnatives := hasNatives_of_run h hrun
  rw [flipDebugNames_header checksum hwritten]
  rcases eq_or_eq_xor hknown hwritten hnatives with hflags | hflags
  · rw [hflags]
    exact .inl rfl
  · rw [hflags]
    exact .inr rfl

/-- What is not read is refused. -/
theorem refused_of_forall {data : Bytes} (h : ∀ m, decodeUnder checksum data ≠ .ok m) :
    ∃ e, decodeUnder checksum data = .error e := by
  cases hdecode : decodeUnder checksum data with
  | ok m => exact absurd hdecode (h m)
  | error e => exact ⟨e, rfl⟩

/-- **Damage to a file is found.** Let a module fit a file. Whatever the checksum is (with CRC-32 this
    is the format), what is written of it is read back; no part of the file in front of the end is
    read, nor anything longer that begins with it. And if the sixteen bytes of the header are
    replaced by any others, this is refused, with one exception: if the flag for names is inverted
    and nothing else, the same module is read, with this flag inverted. -/
theorem damage_found {m : Module} (h : m.Fits) :
    (encodeUnder Crc32.checksum m = m.encode ∧
      ∀ data, decodeUnder Crc32.checksum data = decode data) ∧
    decodeUnder checksum (encodeUnder checksum m) = .ok { m with flags := m.writtenFlags } ∧
    (∀ data, data <+: encodeUnder checksum m → data ≠ encodeUnder checksum m →
      ∃ e, decodeUnder checksum data = .error e) ∧
    (∀ suffix, suffix ≠ [] →
      ∃ e, decodeUnder checksum (encodeUnder checksum m ++ suffix) = .error e) ∧
    ∀ data, data.length = (encodeUnder checksum m).length →
      data.drop headerSize = (encodeUnder checksum m).drop headerSize →
      data ≠ encodeUnder checksum m →
      if data = flipDebugNames (encodeUnder checksum m) then
        decodeUnder checksum data = .ok { m with flags := m.writtenFlags ^^^ debugNames }
      else ∃ e, decodeUnder checksum data = .error e := by
  refine ⟨⟨encodeUnder_crc32 m, decodeUnder_crc32⟩, decodeUnder_of_fits checksum h, ?_, ?_, ?_⟩
  · intro data hprefix hne
    obtain ⟨rest, hrest⟩ := hprefix
    refine refused_of_forall checksum fun m' hdecode => hne ?_
    rw [← List.append_nil (encodeUnder checksum m)] at hrest
    obtain rfl := rest_of_decodeUnder checksum h hdecode hrest
    exact List.append_cancel_right hrest
  · intro suffix hsuffix
    refine refused_of_forall checksum fun m' hdecode => hsuffix ?_
    exact (rest_of_decodeUnder checksum h hdecode (List.append_nil _)).symm
  · intro data hlength hdrop hne
    split
    · rename_i hflip
      rw [hflip, flipDebugNames_encodeUnder checksum h,
        decodeUnder_of_fits checksum h.withDebugNamesFlipped, writtenFlags_withDebugNamesFlipped h]
      rfl
    · rename_i hflip
      refine refused_of_forall checksum fun m' hdecode => ?_
      rcases eq_or_eq_flip_of_decodeUnder checksum h hdecode hdrop with hdata | hdata
      · exact hne hdata
      · exact hflip hdata

/-- With one import in the file and the flag for imports cleared in its header, the count of imports
    would be the entry index, and the rest would follow it: this is refused. -/
theorem damage_found_import :
    let m : Module := { empty "" with natives := ["f"] }
    m.Fits ∧ ∃ e, decodeUnder (fun _ => 7) ((encodeUnder (fun _ => 7) m).set 8 0) = .error e := by
  intro m
  have hname : Bytes.FitsCount "" := by
    unfold Bytes.FitsCount
    decide
  have himport : Bytes.FitsCount "f" := by
    unfold Bytes.FitsCount
    decide
  have hnone {α : Type} {P : α → Prop} : FitsTable P [] := ⟨Nat.two_pow_pos 32, by simp⟩
  have hfits : m.Fits :=
    ⟨by decide, hname, hnone, hnone, hnone, ⟨by decide, List.forall_mem_singleton.mpr himport⟩⟩
  obtain ⟨-, -, -, -, hheader⟩ := damage_found (fun _ => 7) hfits
  have hdata := hheader ((encodeUnder (fun _ => 7) m).set 8 0) (by decide +kernel)
    (by decide +kernel) (by decide +kernel)
  rw [if_neg (by decide +kernel)] at hdata
  exact ⟨hfits, hdata⟩

end Module

end EmbeddedVm
