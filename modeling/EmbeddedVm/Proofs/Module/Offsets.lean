import EmbeddedVm.Code.Instruction
import EmbeddedVm.Proofs.Bytes.Reading
import EmbeddedVm.Proofs.Checks

/-!
# Where the instructions of a body lie

Decoding a body yields its instructions with the offsets at which they start. `Laid` says what these
are: the first instruction starts at the beginning, each one is what decoding at its offset gives,
the next one starts where it ends, and the last one ends where the body ends. So an index into the
body and the byte offset at that index (`start`) determine each other.
-/

namespace EmbeddedVm.Instruction

/-! ## 1. One instruction -/

theorem size_pos (i : Instruction) : 0 < i.size := by
  unfold size
  omega

/-- Decoding operands makes an instruction of the operation they belong to. -/
theorem yields_decodeOperands (op : Opcode) :
    Decoder.Yields (decodeOperands op) fun i => i.opcode = op := by
  cases op with
  | simple op => exact Decoder.yields_pure rfl
  | pushInt | pushFloat | pushString | loadLocal | storeLocal | jump | call | callback =>
      exact (Decoder.yields_any _).bind fun _ _ => Decoder.yields_pure rfl
  | loadStatic | storeStatic | callNative =>
      exact (Decoder.yields_any _).bind fun _ _ => (Decoder.yields_any _).bind fun _ _ =>
        Decoder.yields_pure rfl

/-- It takes the bytes of these operands. -/
theorem advances_decodeOperands (op : Opcode) :
    Decoder.Advances (decodeOperands op) op.operandSize := by
  cases op with
  | simple op => exact Decoder.advances_pure _
  | pushInt | jump => exact Decoder.advances_i32.map _
  | pushFloat => exact Decoder.advances_f64.map _
  | pushString | call | callback => exact Decoder.advances_u32.map _
  | loadLocal | storeLocal => exact Decoder.advances_u16.map _
  | loadStatic | storeStatic =>
      exact Decoder.advances_u32.bind fun _ => Decoder.advances_u16.map _
  | callNative => exact Decoder.advances_u16.bind fun _ => Decoder.advances_u8.map _

/-- **An instruction takes as many bytes as its size says.** -/
theorem decode_advances {c c' : Cursor} {i : Instruction} (h : decode.run c = .ok i c') :
    i.size ≤ c.rest.length ∧ c' = ⟨c.position + i.size, c.rest.drop i.size⟩ := by
  have hposition : Decoder.position.run c = .ok c.position c := rfl
  unfold decode at h
  rw [EStateM.run_bind, hposition] at h
  dsimp only at h
  rw [EStateM.run_bind] at h
  split at h
  · rename_i byte c₁ hbyte
    obtain ⟨hone, rfl⟩ := Decoder.advances_u8 c byte c₁ hbyte
    split at h
    · rename_i op hop
      obtain rfl := yields_decodeOperands op _ i c' h
      obtain ⟨hsize, rfl⟩ := advances_decodeOperands _ _ i c' h
      rw [List.length_drop] at hsize
      unfold size
      refine ⟨by omega, ?_⟩
      rw [List.drop_drop, Nat.add_assoc]
    · cases h
  · cases h

/-- The instruction at an offset of a body, and where the next one starts. -/
def fetch? (code : Bytes) (offset : Nat) : Option (Instruction × Nat) :=
  match decode.run ⟨offset, code.drop offset⟩ with
  | .ok i c => some (i, c.position)
  | .error _ _ => none

/-- At the end of a body there is no instruction. -/
theorem fetch?_length (code : Bytes) : fetch? code code.length = none := by
  unfold fetch?
  rw [List.drop_length]
  rfl

/-! ## 2. A body -/

/-- **Instructions that lie one behind the other** from an offset to the end of a body. -/
inductive Laid (code : Bytes) : Nat → List (Nat × Instruction) → Prop where
  | nil : Laid code code.length []
  | cons {offset : Nat} {i : Instruction} {rest : List (Nat × Instruction)}
      (hi : fetch? code offset = some (i, offset + i.size))
      (hrest : Laid code (offset + i.size) rest) : Laid code offset ((offset, i) :: rest)

theorem laid_decodeAll {code : Bytes} {fuel offset : Nat} {body : List (Nat × Instruction)}
    (h : decodeAll fuel ⟨offset, code.drop offset⟩ = .ok body) (hle : offset ≤ code.length)
    (hfuel : code.length ≤ offset + fuel) : Laid code offset body := by
  induction fuel generalizing offset body with
  | zero =>
      cases h
      obtain rfl : offset = code.length := by omega
      exact .nil
  | succ fuel ih =>
      unfold decodeAll at h
      split at h
      · split at h
        · rename_i i c hi
          have hfetch : fetch? code offset = some (i, c.position) := by
            unfold fetch?
            rw [hi]
          obtain ⟨hsize, rfl⟩ := decode_advances hi
          obtain ⟨rest, hrest, hbody⟩ := Checks.bind_eq_ok.mp h
          cases hbody
          rw [List.drop_drop] at hrest
          rw [List.length_drop] at hsize
          -- an instruction takes at least one byte, so the fuel lasts
          have hpos := i.size_pos
          exact .cons hfetch (ih hrest (by omega) (by omega))
        · cases h
      · rename_i hmore
        cases h
        have hnil : code.drop offset = [] := by
          unfold Cursor.hasMore at hmore
          simpa using hmore
        have hlength := congrArg List.length hnil
        rw [List.length_drop, List.length_nil] at hlength
        obtain rfl : offset = code.length := by omega
        exact .nil

/-- **A decoded body lies from its first byte to its last.** -/
theorem laid_of_decodeBody {code : Bytes} {body : List (Nat × Instruction)}
    (h : decodeBody code = .ok body) : Laid code 0 body :=
  laid_decodeAll h (Nat.zero_le _) (Nat.le_add_left _ _)

/-! ## 3. From an index to an offset -/

/-- Where the instruction of an index starts; behind the last one, where the body ends. -/
def start (code : Bytes) (body : List (Nat × Instruction)) (index : Nat) : Nat :=
  (body.map (·.1))[index]?.getD code.length

variable {code : Bytes} {offset : Nat} {body : List (Nat × Instruction)}

theorem start_eq {index : Nat} {p : Nat × Instruction} (h : body[index]? = some p) :
    start code body index = p.1 := by
  unfold start
  rw [List.getElem?_map, h]
  rfl

theorem start_of_le {index : Nat} (h : body.length ≤ index) :
    start code body index = code.length := by
  unfold start
  rw [List.getElem?_eq_none (by rw [List.length_map]; exact h)]
  rfl

theorem Laid.start_zero (h : Laid code offset body) : start code body 0 = offset := by
  cases h with
  | nil => rfl
  | cons hi hrest => rfl

/-- **What is fetched at the offset of an instruction** is this instruction, and the next one starts
    where it ends. -/
theorem Laid.fetch (h : Laid code offset body) {index : Nat} {p : Nat × Instruction}
    (hp : body[index]? = some p) :
    fetch? code p.1 = some (p.2, p.1 + p.2.size) ∧
      start code body (index + 1) = p.1 + p.2.size := by
  induction h generalizing index with
  | nil => cases hp
  | cons hi hrest ih =>
      cases index with
      | zero =>
          cases hp
          exact ⟨hi, hrest.start_zero⟩
      | succ index => exact ih hp

/-- Offsets grow with the index. -/
theorem Laid.sorted (h : Laid code offset body) :
    (body.map (·.1)).Pairwise (· < ·) ∧ ∀ p ∈ body, offset ≤ p.1 := by
  induction h with
  | nil => exact ⟨.nil, fun _ hp => absurd hp List.not_mem_nil⟩
  | @cons offset i rest hi hrest ih =>
      obtain ⟨hsorted, hbelow⟩ := ih
      have hpos : offset < offset + i.size :=
        Nat.lt_add_of_pos_right i.size_pos
      refine ⟨.cons (fun start hstart => ?_) hsorted, fun p hp => ?_⟩
      · obtain ⟨p, hp, rfl⟩ := List.mem_map.mp hstart
        exact Nat.lt_of_lt_of_le hpos (hbelow p hp)
      · rcases List.mem_cons.mp hp with rfl | hp
        · exact Nat.le_refl _
        · exact Nat.le_of_lt (Nat.lt_of_lt_of_le hpos (hbelow p hp))

/-- **An offset is that of one index at most.** -/
theorem Laid.index_unique (h : Laid code offset body) {i j : Nat} {p q : Nat × Instruction}
    (hp : body[i]? = some p) (hq : body[j]? = some q) (hpq : p.1 = q.1) : i = j := by
  have hnodup : (body.map (·.1)).Nodup := h.sorted.1.imp Nat.ne_of_lt
  have hi : (body.map (·.1))[i]? = some p.1 := by rw [List.getElem?_map, hp]; rfl
  have hj : (body.map (·.1))[j]? = some q.1 := by rw [List.getElem?_map, hq]; rfl
  have hlt : i < (body.map (·.1)).length := (List.getElem?_eq_some_iff.mp hi).1
  exact (List.getElem?_inj hlt hnodup).mp (by rw [hi, hj, hpq])

end EmbeddedVm.Instruction
