import EmbeddedVm.Proofs.Bytes.Checksum
import EmbeddedVm.Proofs.Module.Framing

/-!
# A damaged payload is refused

What stands behind the header of a file is covered by the checksum in the header, and the checksum
is judged before anything behind it is looked at. So a payload that has another checksum than the
header says is refused for this reason, whatever it is (`decode_of_checksum_ne`), and a payload that
was changed in up to four neighbouring bytes has another checksum (`Crc32.checksum_ne`).
-/

namespace EmbeddedVm.Module

open Decoder

/-- A file whose header was made for another payload is refused for its checksum. -/
theorem decode_of_checksum_ne {flags : UInt32} (hknown : flags &&& ~~~knownFlags = 0)
    {payload payload' : Bytes} (hne : Crc32.checksum payload' ≠ Crc32.checksum payload) :
    decode (header Crc32.checksum flags payload ++ payload') =
      .error (.checksumMismatch (Crc32.checksum payload) (Crc32.checksum payload')) := by
  have hmagic : Reads (take 4) magic magic := reads_take magic
  unfold header decode Cursor.ofBytes
  simp only [List.append_assoc]
  rw [readItem_of_reads hmagic]
  dsimp only [bind, Except.bind]
  rw [if_neg (not_not.mpr rfl), readItem_of_reads (reads_u32 _)]
  dsimp only
  rw [if_neg (not_not.mpr rfl), readItem_of_reads (reads_u32 _)]
  dsimp only
  rw [if_neg (not_not.mpr hknown), readItem_of_reads (reads_u32 _)]
  dsimp only
  rw [if_pos (Ne.symm hne)]
  rfl

/-- **Damage to a payload is always found.** Take any module without unknown flags, and any byte
    string as long as the file that is written of it, which differs from it in a window of at most
    four neighbouring bytes behind the header and nowhere else. It is refused because its checksum
    is not the one its header says, and the refusal names both. -/
theorem corruption_caught {m : Module} (hknown : m.flags &&& ~~~knownFlags = 0) {data : Bytes}
    (hlength : data.length = m.encode.length) {offset width : Nat} (hoffset : 16 ≤ offset)
    (hwidth : width ≤ 4)
    (hsame : ∀ i, i < offset ∨ offset + width ≤ i → data[i]? = m.encode[i]?)
    (hne : data ≠ m.encode) :
    decode data = .error
      (.checksumMismatch (Crc32.checksum m.encodePayload) (Crc32.checksum (data.drop 16))) := by
  have hheader : (header Crc32.checksum m.writtenFlags m.encodePayload).length = 16 :=
    length_header _ _ _
  have hfront : m.encode.take 16 = header Crc32.checksum m.writtenFlags m.encodePayload :=
    List.take_left' hheader
  have hpayload : m.encode.drop 16 = m.encodePayload := List.drop_left' hheader
  have hdata : data = header Crc32.checksum m.writtenFlags m.encodePayload ++ data.drop 16 := by
    rw [← hfront, ← Crc32.take_eq_of_agree hoffset fun i hi => hsame i (.inl hi),
      List.take_append_drop]
  -- the window lies in the payload, sixteen bytes further to the front
  have hchecksum : Crc32.checksum (data.drop 16) ≠ Crc32.checksum (m.encode.drop 16) := by
    refine Crc32.checksum_ne ?_ hwidth (fun i (hi : i < offset - 16 ∨ _) => ?_) fun hdrop => hne ?_
    · rw [List.length_drop, List.length_drop, hlength]
    · rw [List.getElem?_drop, List.getElem?_drop]
      exact hsame (16 + i) (by omega)
    · rw [hdata, hdrop, ← hfront, List.take_append_drop]
  rw [hpayload] at hchecksum
  calc decode data
      = decode (header Crc32.checksum m.writtenFlags m.encodePayload ++ data.drop 16) :=
        congrArg decode hdata
    _ = _ := decode_of_checksum_ne (m.writtenFlags_unknown.trans hknown) hchecksum

/-- The first and the last letter of a module's name are damaged. -/
theorem corruption_caught_name :
    let m : Module := { empty "game" with flags := debugNames }
    let data := (m.encode.set 20 0x6C).set 23 0x64
    data ≠ m.encode ∧ decode data = .error
      (.checksumMismatch (Crc32.checksum m.encodePayload) (Crc32.checksum (data.drop 16))) := by
  intro m data
  have hne : data ≠ m.encode := by decide +kernel
  have hlength : data.length = m.encode.length := by
    rw [List.length_set, List.length_set]
  have hsame : ∀ i, i < 20 ∨ 20 + 4 ≤ i → data[i]? = m.encode[i]? := by
    intro i hi
    rw [List.getElem?_set_ne (by omega), List.getElem?_set_ne (by omega)]
  exact ⟨hne, corruption_caught (by decide) hlength (by decide) (by decide) hsame hne⟩

end EmbeddedVm.Module
