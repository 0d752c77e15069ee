import EmbeddedVm.Proofs.Machine.LinkedCode
import EmbeddedVm.Proofs.Module.Names
import EmbeddedVm.Proofs.Module.Offsets

/-!
# What linking makes of a verified module

Of a verified module nothing can keep from linking but an import the host does not have, and it is
the first such import that is reported (`link_eq_error`). Where the imports are there, every
function becomes its instructions in their order (`LinkedFunction.Renders`): a jump leads to the one
instruction that starts as far behind the next one as its operand says. And what is looked up by
name is found where it is declared.
-/

namespace EmbeddedVm

variable {ν : Type}

/-! ## 1. Bodies -/

/-- **A linked function and the function it was made from**: the same signature, the decoded
    instructions in their order, and every jump led to the one instruction that starts as far behind
    the next one as the operand says. -/
structure LinkedFunction.Renders (g : LinkedFunction) (f : Function)
    (body : List (Nat × Instruction)) : Prop where
  decoded : Instruction.decodeBody f.code = .ok body
  name : g.name = f.name
  params : g.params = f.paramCount.toNat
  locals : g.locals = f.localCount.toNat
  instructions : g.code.toList.map (·.instruction) = body.map (·.2)
  jumps : ∀ {k offset : Nat} {kind : Jump} {relative : Int32},
    body[k]? = some (offset, .jump kind relative) →
      ∃ target, g.code[k]? = some ⟨.jump kind relative, target⟩ ∧
        ∀ j, body[j]?.map (fun p => (p.1 : Int)) = some (offset + 5 + relative.toInt) ↔ j = target

namespace Image

/-- The destination of a linked jump. -/
theorem linkStep_jump {name : String} {starts : List Nat} {offset : Nat} {kind : Jump}
    {relative : Int32} {s : Step} (h : linkStep name starts offset (.jump kind relative) = .ok s) :
    ∃ target start, s = ⟨.jump kind relative, target⟩ ∧ starts[target]? = some start ∧
      (start : Int) = offset + 5 + relative.toInt := by
  have hsize : (Instruction.jump kind relative).size = 5 := rfl
  unfold linkStep jumpTarget at h
  rw [hsize] at h
  dsimp only at h
  split at h
  · rename_i hpos
    split at h
    · rename_i index hindex
      cases h
      obtain ⟨hlt, hat, -⟩ := List.idxOf?_eq_some_iff.mp hindex
      refine ⟨index, starts[index], rfl, List.getElem?_eq_getElem hlt, ?_⟩
      rw [hat, Int.toNat_of_nonneg hpos]
      omega
    · cases h
  · cases h

/-- **A linked function renders its body.** -/
theorem exists_renders {f : Function} {g : LinkedFunction} (h : linkFunction f = .ok g) :
    ∃ body, g.Renders f body := by
  obtain ⟨body, steps, hbody, hsteps, rfl⟩ := linkFunction_eq_ok h
  have hlaid := Instruction.laid_of_decodeBody hbody
  have hlength := Checks.length_of_mapM hsteps
  have hat : ∀ {k : Nat} {p : Nat × Instruction}, body[k]? = some p →
      ∃ s, steps[k]? = some s ∧ linkStep f.name (body.map (·.1)) p.1 p.2 = .ok s := by
    intro k p hp
    obtain ⟨hk, -⟩ := List.getElem?_eq_some_iff.mp hp
    have hs : steps[k]? = some steps[k] := List.getElem?_eq_getElem (by omega)
    obtain ⟨q, hq, hlink⟩ := Checks.getElem?_of_mapM hsteps hs
    rw [hp] at hq
    cases hq
    exact ⟨_, hs, hlink⟩
  refine ⟨body, hbody, rfl, rfl, rfl, ?_, ?_⟩
  · show steps.map (·.instruction) = body.map (·.2)
    refine List.ext_getElem? fun k => ?_
    rw [List.getElem?_map, List.getElem?_map]
    cases hp : body[k]? with
    | none =>
        have hs : steps[k]? = none := by
          rw [List.getElem?_eq_none_iff, hlength]
          exact List.getElem?_eq_none_iff.mp hp
        rw [hs]
        rfl
    | some p =>
        obtain ⟨s, hs, hlink⟩ := hat hp
        rw [hs, Option.map_some, instruction_of_linkStep hlink]
        rfl
  · intro k offset kind relative hp
    obtain ⟨s, hs, hlink⟩ := hat hp
    obtain ⟨target, start, rfl, htarget, hstart⟩ := linkStep_jump hlink
    refine ⟨target, (List.getElem?_toArray).trans hs, fun j => ?_⟩
    rw [List.getElem?_map] at htarget
    obtain ⟨p, hpt, rfl⟩ := Option.map_eq_some_iff.mp htarget
    rw [← hstart, Option.map_eq_some_iff]
    constructor
    · rintro ⟨q, hq, heq⟩
      exact hlaid.index_unique hq hpt (Int.ofNat_inj.mp heq)
    · rintro rfl
      exact ⟨p, hpt, rfl⟩

end Image

variable {natives : NativeTable ν} {m : Module} {image : Image ν}

/-- Every function of a linked module renders the function at its index. -/
theorem Image.renders_of_link (hl : link natives m = .ok image) {i : Nat} {g : LinkedFunction}
    (hg : image.functions[i]? = some g) :
    ∃ f body, m.functions[i]? = some f ∧ g.Renders f body := by
  obtain ⟨f, hf, hlink⟩ := linkFunction_of_link hl hg
  obtain ⟨body, hrenders⟩ := exists_renders hlink
  exact ⟨f, body, hf, hrenders⟩

/-- Every declared function is linked. -/
theorem Image.exists_renders_of_link (hl : link natives m = .ok image) {i : Nat} {f : Function}
    (hf : m.functions[i]? = some f) :
    ∃ g body, image.functions[i]? = some g ∧ g.Renders f body := by
  obtain ⟨g, hg⟩ := exists_functions_of_link hl (List.getElem?_eq_some_iff.mp hf).1
  obtain ⟨f', body, hf', hrenders⟩ := renders_of_link hl hg
  rw [hf] at hf'
  cases hf'
  exact ⟨g, body, hg, hrenders⟩

/-- A function that is not declared is not linked, and the other way round. -/
theorem Image.functions_eq_none (hl : link natives m = .ok image) {i : Nat} :
    image.functions[i]? = none ↔ m.functions[i]? = none := by
  constructor
  · intro hi
    rw [List.getElem?_eq_none_iff]
    by_contra hlt
    obtain ⟨g, hg⟩ := exists_functions_of_link hl (Nat.lt_of_not_le hlt)
    rw [hi] at hg
    cases hg
  · intro hi
    by_contra hne
    obtain ⟨g, hg⟩ := Option.ne_none_iff_exists'.mp hne
    obtain ⟨f, -, hf, -⟩ := renders_of_link hl hg
    rw [hi] at hf
    cases hf

/-! ## 2. Imports -/

/-- The first name without a handler is the one reported. -/
theorem Imports.resolveList_eq_error {t : NativeTable ν} {names : List String} {name : String} :
    resolveList t names = .error name ↔ names.find? (fun n => !t.contains n) = some name := by
  induction names with
  | nil =>
      constructor
      · intro h
        cases h
      · intro h
        cases h
  | cons n rest ih =>
      unfold resolveList
      cases hn : t.find? n with
      | none =>
          have hmissing : (!t.contains n) = true := by
            unfold NativeTable.contains
            rw [hn]
            rfl
          rw [List.find?_cons_of_pos (p := fun n => !t.contains n) hmissing, Option.some.injEq]
          exact ⟨Except.error.inj, congrArg Except.error⟩
      | some handler =>
          have hfound : ¬ (!t.contains n) = true := by
            unfold NativeTable.contains
            rw [hn]
            exact Bool.false_ne_true
          rw [List.find?_cons_of_neg (p := fun n => !t.contains n) hfound, ← ih]
          dsimp only
          cases resolveList t rest with
          | error missing => rfl
          | ok resolved =>
              constructor
              · intro h
                cases h
              · intro h
                cases h

/-- **Linking a verified module fails exactly where an import is missing**, and with the first one
    that is. -/
theorem Image.link_eq_error (hv : m.verify = .ok ()) {e : LinkError} :
    link natives m = .error e ↔
      ∃ name, m.natives.find? (fun n => !natives.contains n) = some name ∧
        e = .unresolvedNative name := by
  cases hfind : m.natives.find? (fun n => !natives.contains n) with
  | some name =>
      have hlink : link natives m = .error (.unresolvedNative name) := by
        unfold link Imports.resolve
        rw [Imports.resolveList_eq_error.mpr hfind]
        rfl
      rw [hlink, Except.error.injEq]
      constructor
      · rintro rfl
        exact ⟨name, rfl, rfl⟩
      · rintro ⟨_, hname, rfl⟩
        cases hname
        rfl
  | none =>
      have hall : ∀ name ∈ m.natives, natives.contains name = true := by
        intro name hname
        have hnot := List.find?_eq_none.mp hfind name hname
        simpa using hnot
      obtain ⟨image, hlink⟩ := exists_link_of_verify hv hall
      rw [hlink]
      constructor
      · exact nofun
      · rintro ⟨_, hname, -⟩
        cases hname

/-! ## 3. Names -/

/-- A class is found at the index at which it is declared. -/
theorem Image.class?_eq_some_iff (hn : image.module.WellNamed) {name : String} {i : Nat}
    {c : Class} :
    image.class? name = some (i, c) ↔ image.module.classes[i]? = some c ∧ c.name = name := by
  have hindex := @findIdx?_eq_some Class (·.name) image.module.classes hn.classes name
  unfold class?
  constructor
  · intro h
    split at h
    · rename_i j hj
      obtain ⟨d, hd, hname⟩ := hindex.mp hj
      rw [hd] at h
      cases h
      exact ⟨hd, hname⟩
    · cases h
  · rintro ⟨hc, hname⟩
    rw [hindex.mpr ⟨c, hc, hname⟩]
    dsimp only
    rw [hc]
    rfl

/-- A method is found with the function it is bound to. -/
theorem Module.method?_eq_some {functions : Nat} {c : Class} (hn : ClassNamed functions c)
    {name : String} {function : UInt32} :
    c.method? name = some function ↔ ⟨name, function⟩ ∈ c.methods := by
  unfold Class.method?
  rw [Option.map_eq_some_iff]
  constructor
  · rintro ⟨b, hb, rfl⟩
    have hname : b.name = name :=
      beq_iff_eq.mp (List.find?_some (p := fun b : Method => b.name == name) hb)
    rw [← hname]
    exact List.mem_of_find?_eq_some hb
  · intro hmem
    cases hfind : c.methods.find? (·.name == name) with
    | none =>
        have hne := List.find?_eq_none.mp hfind _ hmem
        exact absurd (beq_self_eq_true name) hne
    | some b =>
        have hname : b.name = name :=
          beq_iff_eq.mp (List.find?_some (p := fun b : Method => b.name == name) hfind)
        obtain rfl :=
          List.inj_on_of_nodup_map hn.methods (List.mem_of_find?_eq_some hfind) hmem hname
        exact ⟨_, rfl, rfl⟩

end EmbeddedVm
