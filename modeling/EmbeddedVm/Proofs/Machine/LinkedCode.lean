import EmbeddedVm.Machine.Image
import EmbeddedVm.Proofs.Module.WellFormed

/-!
# What linked code may rely on

Verifying and linking are two passes over the same bodies, written apart. Here they meet:
`Image.Sound` says of a linked module that every operand of every step refers to something that
exists, that every jump leads to a step, and that only a step behind which control does not continue
stands last. `sound_of_verify` is the bridge, and `exists_link_of_verify` says that a verified
module always links where the host has its imports.
-/

namespace EmbeddedVm

variable {ν : Type}

/-! ## 1. Sound steps -/

/-- What the operands of the instruction of a step refer to, and where a jump leads. -/
def Step.Refers (image : Image ν) (f : LinkedFunction) (s : Step) : Prop :=
  match s.instruction with
  | .pushString i => i.toNat < image.module.strings.length
  | .loadLocal slot | .storeLocal slot => slot.toNat < f.locals
  | .loadStatic c field | .storeStatic c field =>
    ∃ cls, image.module.classes[c.toNat]? = some cls ∧ field.toNat < cls.statics.length
  | .jump _ _ => s.target < f.code.size
  | .call g => ∃ callee, image.functions[g.toNat]? = some callee
  | .callNative n _ => n.toNat < image.imports.size
  | .callback kind g =>
    ∃ callee, image.functions[g.toNat]? = some callee ∧ callee.params = kind.arity.toNat
  | .simple _ | .pushInt _ | .pushFloat _ => True

/-- A linked function whose steps can all be carried out. -/
structure LinkedFunction.Sound (image : Image ν) (f : LinkedFunction) : Prop where
  /-- There is a first step. -/
  nonempty : 0 < f.code.size
  /-- Every operand refers to something. -/
  refers : ∀ {ip : Nat} {s : Step}, f.code[ip]? = some s → s.Refers image f
  /-- Where control can continue behind a step, there is a next one. -/
  onward : ∀ {ip : Nat} {s : Step}, f.code[ip]? = some s →
    s.instruction.opcode.isTerminator = false → ip + 1 < f.code.size

/-- **A linked module whose functions can all be carried out.** -/
def Image.Sound (image : Image ν) : Prop :=
  ∀ {i : Nat} {f : LinkedFunction}, image.functions[i]? = some f → f.Sound image

namespace Image

/-! ## 2. What linking keeps -/

/-- Linking a step keeps its instruction. -/
theorem instruction_of_linkStep {name : String} {starts : List Nat} {offset : Nat} {i : Instruction}
    {s : Step} (h : linkStep name starts offset i = .ok s) : s.instruction = i := by
  unfold linkStep at h
  split at h
  · dsimp only at h
    split at h
    · split at h
      · cases h; rfl
      · cases h
    · cases h
  · cases h; rfl

/-- A linked jump leads to one of the instructions of its body. -/
theorem target_of_linkStep {name : String} {starts : List Nat} {offset : Nat} {kind : Jump}
    {relative : Int32} {s : Step} (h : linkStep name starts offset (.jump kind relative) = .ok s) :
    s.target < starts.length := by
  unfold linkStep at h
  dsimp only at h
  split at h
  · split at h
    · rename_i index hindex
      cases h
      exact (List.idxOf?_eq_some_iff.mp hindex).1
    · cases h
  · cases h

/-- An instruction whose operands refer to something links. -/
theorem exists_linkStep {m : Module} {f : Function} {body : List (Nat × Instruction)} {offset : Nat}
    {i : Instruction} (h : i.Refers m f body offset) :
    ∃ s, linkStep f.name (body.map (·.1)) offset i = .ok s := by
  cases i with
  | jump kind relative =>
      obtain ⟨hpos, hmem⟩ := Module.target_mem_starts.mpr h
      obtain ⟨index, hindex⟩ := Option.isSome_iff_exists.mp (List.isSome_idxOf?.mpr hmem)
      refine ⟨⟨.jump kind relative, index⟩, ?_⟩
      unfold linkStep jumpTarget
      dsimp only
      rw [if_pos hpos, hindex]
  | _ => exact ⟨_, rfl⟩

/-- What linking a function makes of it: its signature, and one step per instruction. -/
theorem linkFunction_eq_ok {f : Function} {g : LinkedFunction} (h : linkFunction f = .ok g) :
    ∃ body steps, Instruction.decodeBody f.code = .ok body ∧
      body.mapM (fun p => linkStep f.name (body.map (·.1)) p.1 p.2) = .ok steps ∧
      g = ⟨f.name, f.paramCount.toNat, f.localCount.toNat, steps.toArray⟩ := by
  unfold linkFunction at h
  simp only [Checks.bind_eq_ok, Checks.mapError_eq_ok, Checks.pure_eq_ok] at h
  obtain ⟨body, hbody, steps, hsteps, rfl⟩ := h
  exact ⟨body, steps, hbody, hsteps, rfl⟩

/-- What linking a module makes of it. -/
theorem link_eq_ok {natives : NativeTable ν} {m : Module} {image : Image ν}
    (h : link natives m = .ok image) :
    image.module = m ∧ Imports.resolve natives m.natives = .ok image.imports ∧
      m.functions.mapM linkFunction = .ok image.functions.toList := by
  unfold link at h
  simp only [Checks.bind_eq_ok, Checks.mapError_eq_ok, Checks.pure_eq_ok] at h
  obtain ⟨imports, himports, functions, hfunctions, rfl⟩ := h
  exact ⟨rfl, himports, hfunctions⟩

/-- A linked function is the function at its index, linked. -/
theorem linkFunction_of_link {natives : NativeTable ν} {m : Module} {image : Image ν}
    (h : link natives m = .ok image) {i : Nat} {g : LinkedFunction}
    (hg : image.functions[i]? = some g) :
    ∃ f, m.functions[i]? = some f ∧ linkFunction f = .ok g := by
  obtain ⟨-, -, hf⟩ := link_eq_ok h
  exact Checks.getElem?_of_mapM hf (by rw [← Array.getElem?_toList] at hg; exact hg)

/-- Every function of a linked module is linked, at the same index. -/
theorem exists_functions_of_link {natives : NativeTable ν} {m : Module} {image : Image ν}
    (h : link natives m = .ok image) {i : Nat} (hi : i < m.functions.length) :
    ∃ g, image.functions[i]? = some g := by
  obtain ⟨-, -, hf⟩ := link_eq_ok h
  have hlen := Checks.length_of_mapM hf
  rw [Array.length_toList] at hlen
  exact ⟨image.functions[i], Array.getElem?_eq_getElem (by omega)⟩

end Image

namespace Imports

theorem length_resolveList {t : NativeTable ν} : ∀ {names : List String} {l : List (String × ν)},
    resolveList t names = .ok l → l.length = names.length
  | [], l, h => by cases h; rfl
  | name :: rest, l, h => by
      unfold resolveList at h
      split at h
      · obtain ⟨resolved, hr, h⟩ := Checks.bind_eq_ok.mp h
        cases h
        simp [length_resolveList hr]
      · cases h

theorem exists_resolveList {t : NativeTable ν} {names : List String}
    (h : ∀ name ∈ names, t.contains name = true) : ∃ l, resolveList t names = .ok l := by
  induction names with
  | nil => exact ⟨[], rfl⟩
  | cons name rest ih =>
      obtain ⟨handler, hn⟩ := Option.isSome_iff_exists.mp (h name List.mem_cons_self)
      obtain ⟨l, hl⟩ := ih fun n hn => h n (List.mem_cons_of_mem _ hn)
      refine ⟨(name, handler) :: l, ?_⟩
      unfold resolveList
      rw [hn, hl]
      rfl

/-- Resolving keeps the number of imports. -/
theorem size_resolve {t : NativeTable ν} {names : List String} {imports : Imports ν}
    (h : resolve t names = .ok imports) : imports.size = names.length := by
  unfold resolve at h
  obtain ⟨l, hl, h⟩ := Checks.bind_eq_ok.mp h
  cases h
  rw [← length_resolveList hl]
  rfl

end Imports

/-! ## 3. What verifying establishes -/

/-- Of a verified module, every body is a sound list of instructions. -/
theorem Module.exists_body_of_verify {m : Module} (h : m.verify = .ok ()) {f : Function}
    (hf : f ∈ m.functions) :
    ∃ body, Instruction.decodeBody f.code = .ok body ∧ Instruction.Sound m f body :=
  checkBody_eq_ok.mp ((verify_eq_ok.mp h).2.2 f hf)

namespace Instruction.Sound

variable {m : Module} {f : Function} {body : List (Nat × Instruction)}

theorem length_pos (h : Instruction.Sound m f body) : 0 < body.length := by
  obtain ⟨p, hp, -⟩ := h.ends
  exact List.length_pos_of_mem (List.mem_of_getLast? hp)

/-- The last instruction ends the body; so behind any other there is one. -/
theorem onward (h : Instruction.Sound m f body) {k : Nat} {p : Nat × Instruction}
    (hp : body[k]? = some p) (ht : p.2.opcode.isTerminator = false) : k + 1 < body.length := by
  obtain ⟨q, hlast, hq⟩ := h.ends
  have hk : k < body.length := (List.getElem?_eq_some_iff.mp hp).1
  refine Classical.byContradiction fun hend => ?_
  rw [List.getLast?_eq_getElem?, show body.length - 1 = k by omega, hp] at hlast
  cases hlast
  rw [ht] at hq
  cases hq

end Instruction.Sound

/-! ## 4. The bridge -/

namespace Image

/-- **A verified module links wherever the host has its imports.** -/
theorem exists_link_of_verify {natives : NativeTable ν} {m : Module} (hv : m.verify = .ok ())
    (hn : ∀ name ∈ m.natives, natives.contains name = true) :
    ∃ image, link natives m = .ok image := by
  obtain ⟨l, hl⟩ := Imports.exists_resolveList hn
  have hall : ∀ f ∈ m.functions, ∃ g, linkFunction f = .ok g := fun f hf => by
    obtain ⟨body, hbody, hsound⟩ := Module.exists_body_of_verify hv hf
    obtain ⟨steps, hsteps⟩ := Checks.exists_mapM_eq_ok
      (f := fun p : Nat × Instruction => linkStep f.name (body.map (·.1)) p.1 p.2)
      fun p hp => exists_linkStep (hsound.refers p hp)
    refine ⟨⟨f.name, f.paramCount.toNat, f.localCount.toNat, steps.toArray⟩, ?_⟩
    unfold linkFunction
    simp only [Checks.bind_eq_ok, Checks.mapError_eq_ok, Checks.pure_eq_ok]
    exact ⟨body, hbody, steps, hsteps, rfl⟩
  obtain ⟨functions, hfunctions⟩ := Checks.exists_mapM_eq_ok hall
  refine ⟨⟨m, functions.toArray, ⟨l.toArray⟩, usesOf functions⟩, ?_⟩
  unfold link
  simp only [Checks.bind_eq_ok, Checks.mapError_eq_ok, Checks.pure_eq_ok]
  refine ⟨⟨l.toArray⟩, ?_, functions, hfunctions, rfl⟩
  unfold Imports.resolve
  rw [hl]
  rfl

/-- What the operands of an instruction refer to is what the linked step relies on. -/
theorem refers_of_linkStep {natives : NativeTable ν} {m : Module} {image : Image ν}
    (hl : link natives m = .ok image) {f : Function} {g : LinkedFunction}
    {body : List (Nat × Instruction)} {offset : Nat} {s : Step}
    (hg : g.locals = f.localCount.toNat) (hsize : g.code.size = body.length)
    (hr : s.instruction.Refers m f body offset)
    (hs : linkStep f.name (body.map (·.1)) offset s.instruction = .ok s) : s.Refers image g := by
  obtain ⟨hm, himports, -⟩ := link_eq_ok hl
  unfold Step.Refers
  cases hi : s.instruction with
  | pushString i =>
      rw [hi] at hr
      show i.toNat < image.module.strings.length
      rw [hm]
      exact hr
  | loadLocal slot | storeLocal slot =>
      rw [hi] at hr
      show slot.toNat < g.locals
      rw [hg]
      exact hr
  | loadStatic c field | storeStatic c field =>
      rw [hi] at hr
      obtain ⟨cls, hcls, hfield⟩ := hr
      exact ⟨cls, by rw [hm]; exact hcls, hfield⟩
  | jump kind relative =>
      rw [hi] at hs
      show s.target < g.code.size
      rw [hsize, ← List.length_map (·.1)]
      exact target_of_linkStep hs
  | call callee =>
      rw [hi] at hr
      exact exists_functions_of_link hl hr
  | callNative n argc =>
      rw [hi] at hr
      show n.toNat < image.imports.size
      rw [Imports.size_resolve himports]
      exact hr
  | callback kind callee =>
      rw [hi] at hr
      obtain ⟨h, hh, harity⟩ := hr
      obtain ⟨g', hg'⟩ := exists_functions_of_link hl (List.getElem?_eq_some_iff.mp hh).1
      obtain ⟨h', hh', hlink⟩ := linkFunction_of_link hl hg'
      obtain ⟨_, _, -, -, hg''⟩ := linkFunction_eq_ok hlink
      rw [hh] at hh'
      cases hh'
      exact ⟨g', hg', by rw [hg'', harity, Module.arity_eq]⟩
  | simple op | pushInt n | pushFloat x => trivial

/-- **Verified and linked code is sound.** -/
theorem sound_of_verify {natives : NativeTable ν} {m : Module} {image : Image ν}
    (hv : m.verify = .ok ()) (hl : link natives m = .ok image) : image.Sound := by
  intro i g hg
  obtain ⟨f, hf, hlink⟩ := linkFunction_of_link hl hg
  obtain ⟨body, steps, hbody, hsteps, rfl⟩ := linkFunction_eq_ok hlink
  obtain ⟨body', hbody', hsound⟩ := Module.exists_body_of_verify hv (List.mem_of_getElem? hf)
  rw [hbody] at hbody'
  cases hbody'
  have hlen : steps.length = body.length := Checks.length_of_mapM hsteps
  -- a step stands where its instruction stands in the body
  have hat : ∀ {ip : Nat} {s : Step}, steps.toArray[ip]? = some s →
      ∃ offset, body[ip]? = some (offset, s.instruction) ∧
        linkStep f.name (body.map (·.1)) offset s.instruction = .ok s := fun {ip s} hs => by
    rw [List.getElem?_toArray] at hs
    obtain ⟨⟨offset, i⟩, hp, hstep⟩ := Checks.getElem?_of_mapM hsteps hs
    have hi : s.instruction = i := instruction_of_linkStep hstep
    exact ⟨offset, by rw [hi]; exact hp, by rw [hi]; exact hstep⟩
  refine ⟨?_, fun {ip s} hs => ?_, fun {ip s} hs ht => ?_⟩
  · show 0 < steps.toArray.size
    rw [List.size_toArray, hlen]
    exact hsound.length_pos
  · obtain ⟨offset, hp, hstep⟩ := hat hs
    exact refers_of_linkStep hl rfl (by simp [hlen])
      (hsound.refers _ (List.mem_of_getElem? hp)) hstep
  · obtain ⟨offset, hp, -⟩ := hat hs
    show ip + 1 < steps.toArray.size
    rw [List.size_toArray, hlen]
    exact hsound.onward hp ht

end Image

end EmbeddedVm
