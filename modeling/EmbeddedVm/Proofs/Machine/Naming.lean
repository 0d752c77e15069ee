import EmbeddedVm.Proofs.Machine.Change
import EmbeddedVm.Proofs.Machine.Collection
import EmbeddedVm.Proofs.Machine.Linking
import EmbeddedVm.Proofs.Module.Referents

/-!
# Modules paired by name

Two modules with the same functions are paired by name: a function with the function that is the
same, a static field with the field of the same class and name. Linked code knows indices only, but
in synonymous modules every operand refers to the same on both sides, so the pairing fits
(`Module.Twins.fits`) and calls go in lockstep.
-/

namespace EmbeddedVm

/-! ## 1. The pairing -/

/-- **Modules paired by name.** -/
def Pairing.byName {m m' : Module} (h : m.WellNamed) (h' : m'.WellNamed) : Pairing where
  function i j := ∃ f, m.functions[i]? = some f ∧ m'.functions[j]? = some f
  field c f c' f' := ∃ n, m.fieldName? c f = some n ∧ m'.fieldName? c' f' = some n
  statics R a b := ∀ c f c' f' n, m.fieldName? c f = some n → m'.fieldName? c' f' = some n →
      ∃ v w, a[c]?.bind (·[f]?) = some v ∧ b[c']?.bind (·[f']?) = some w ∧ R v w
  lookup := by
    rintro R a b c f c' f' hs ⟨n, hn, hn'⟩
    exact .inl (hs _ _ _ _ _ hn hn')
  store := by
    rintro R a b c f c' f' v w hs ⟨n, hn, hn'⟩ hvw d e d' e' k hk hk'
    obtain ⟨x, y, hx, hy, hxy⟩ := hs _ _ _ _ _ hk hk'
    rw [Machine.lookup_modify, Machine.lookup_modify, hx, hy]
    by_cases hnk : n = k
    · subst hnk
      rw [if_pos (h.fieldName?_inj hn hk), if_pos (h'.fieldName?_inj hn' hk')]
      exact ⟨v, w, rfl, rfl, hvw⟩
    · -- fields of different names stand in different places
      have hl : ¬ (c = d ∧ f = e) := by
        rintro ⟨rfl, rfl⟩
        exact hnk (Option.some.inj (hn.symm.trans hk))
      have hr : ¬ (c' = d' ∧ f' = e') := by
        rintro ⟨rfl, rfl⟩
        exact hnk (Option.some.inj (hn'.symm.trans hk'))
      rw [if_neg hl, if_neg hr]
      exact ⟨x, y, rfl, rfl, hxy⟩
  imp := by
    intro R R' a b hs hR c f c' f' n hn hn'
    obtain ⟨v, w, hv, hw, hvw⟩ := hs _ _ _ _ _ hn hn'
    obtain ⟨row, hrow, hv'⟩ := Option.bind_eq_some_iff.mp hv
    obtain ⟨row', hrow', hw'⟩ := Option.bind_eq_some_iff.mp hw
    exact ⟨v, w, hv, hw, hR row (Array.mem_of_getElem? hrow) v (Array.mem_of_getElem? hv') row'
      (Array.mem_of_getElem? hrow') w (Array.mem_of_getElem? hw') hvw⟩

/-! ## 2. Twins -/

/-- **Verified modules that have the same functions and mean the same by them.** -/
structure Module.Twins (m m' : Module) : Prop where
  left : m.verify = .ok ()
  right : m'.verify = .ok ()
  functions : ∀ name, m.function? name = m'.function? name
  synonymous : m.Synonymous m'

/-- Name and handler of an import are those of its name. -/
theorem Imports.get?_of_resolve {ν : Type} {t : NativeTable ν} {names : List String}
    {imports : Imports ν} (h : resolve t names = .ok imports) (k : Nat) :
    imports.get? k = (names[k]?).bind fun n => (t.find? n).map (n, ·) := by
  have key : ∀ {names : List String} {l : List (String × ν)}, resolveList t names = .ok l →
      ∀ k : Nat, l[k]? = (names[k]?).bind fun n => (t.find? n).map (n, ·) := by
    intro names
    induction names with
    | nil =>
        intro l hl k
        cases hl
        rfl
    | cons n rest ih =>
        intro l hl k
        unfold resolveList at hl
        split at hl
        · rename_i handler hn
          obtain ⟨resolved, hr, hl⟩ := Checks.bind_eq_ok.mp hl
          cases hl
          cases k with
          | zero => simp [hn]
          | succ k => exact ih hr k
        · cases hl
  unfold resolve at h
  obtain ⟨l, hl, h⟩ := Checks.bind_eq_ok.mp h
  cases h
  exact List.getElem?_toArray.trans (key hl k)

/-- The instruction of a linked step is one of the function's. -/
theorem Image.mem_instructions {f : Function} {g : LinkedFunction} (h : linkFunction f = .ok g)
    {s : Step} (hs : s ∈ g.code) : s.instruction ∈ f.instructions := by
  obtain ⟨body, hrenders⟩ := exists_renders h
  unfold Function.instructions
  rw [hrenders.decoded]
  dsimp only
  rw [← hrenders.instructions]
  exact List.mem_map_of_mem (Array.mem_toList_iff.mpr hs)

namespace Module.Twins

variable {m m' : Module}

/-- The pairing by name. -/
def pairing (h : m.Twins m') : Pairing :=
  .byName (wellNamed_of_verify h.left) (wellNamed_of_verify h.right)

/-- Functions of the same name are the same. -/
theorem function_eq (h : m.Twins m') {f f' : Function} (hf : f ∈ m.functions)
    (hf' : f' ∈ m'.functions) (hname : f.name = f'.name) : f = f' := by
  have hl := function?_eq_some (wellNamed_of_verify h.left) hf
  have hr := function?_eq_some (wellNamed_of_verify h.right) hf'
  rw [hname, h.functions, hr] at hl
  exact (Option.some.inj hl).symm

/-- A function that both modules have under the same name at some index is paired. -/
theorem function_of_name (h : m.Twins m') {i j : Nat} {f : Function} (hf : m.functions[i]? = some f)
    (hname : (m.functions[i]?).map (·.name) = (m'.functions[j]?).map (·.name)) :
    h.pairing.function i j := by
  rw [hf] at hname
  obtain ⟨f', hf', hname⟩ := Option.map_eq_some_iff.mp hname.symm
  obtain rfl := h.function_eq (List.mem_of_getElem? hf) (List.mem_of_getElem? hf') hname.symm
  exact ⟨f, hf, hf'⟩

section Contexts

variable {ν : Type} {natives : NativeTable ν} {image image' : Image ν}

/-- A static field that stands in one module, and whose names stand at the same place in the other,
    is paired. -/
theorem field_of_names (h : m.Twins m') {c f : Nat} {C : Class} (hC : m.classes[c]? = some C)
    (hf : f < C.statics.length)
    (hn : (m.fieldName? c f).map (fun n => Referent.field n.1 n.2) =
      (m'.fieldName? c f).map fun n => Referent.field n.1 n.2) : h.pairing.field c f c f := by
  have hname : m.fieldName? c f = some (C.name, C.statics[f].name) :=
    fieldName?_eq_some.mpr ⟨C, C.statics[f], hC, List.getElem?_eq_getElem hf, rfl⟩
  rw [hname] at hn
  obtain ⟨n, hn', heq⟩ := Option.map_eq_some_iff.mp hn.symm
  obtain ⟨hcls, hfield⟩ := Referent.field.inj heq
  exact ⟨n, hname.trans (congrArg some (Prod.ext hcls.symm hfield.symm)), hn'⟩

/-- A paired static field has the same declaration on both sides. -/
theorem declared (h : m.Twins m') (hm : image.module = m) (hm' : image'.module = m')
    {c f c' f' : Nat} (hf : h.pairing.field c f c' f') :
    (image.static? c f).map (fun p => (p.1.name, p.2.name, p.2.kind?)) =
      (image'.static? c' f').map fun p => (p.1.name, p.2.name, p.2.kind?) := by
  obtain ⟨n, hn, hn'⟩ := hf
  obtain ⟨C, F, hC, hF, rfl⟩ := fieldName?_eq_some.mp hn
  obtain ⟨C', F', hC', hF', heq⟩ := fieldName?_eq_some.mp hn'
  obtain ⟨hcls, hfield⟩ := Prod.mk.inj heq
  have hkind := h.synonymous.kinds C (List.mem_of_getElem? hC) F (List.mem_of_getElem? hF) C'
    (List.mem_of_getElem? hC') hcls.symm F' (List.mem_of_getElem? hF') hfield.symm
  unfold Image.static?
  rw [hm, hm', hC, hC', Option.bind_eq_bind, Option.bind_eq_bind, Option.bind_some,
    Option.bind_some, hF, hF']
  show some (C.name, F.name, F.kind?) = some (C'.name, F'.name, F'.kind?)
  rw [hcls, hfield, hkind]

/-- An operand that refers to the same in both modules does so in their contexts. -/
theorem aligned (h : m.Twins m') (hl : Image.link natives m = .ok image)
    (hl' : Image.link natives m' = .ok image') (depth : Nat) {g : LinkedFunction} {s : Step}
    (hs : s.Refers image g) (hi : m.referent? s.instruction = m'.referent? s.instruction) :
    h.pairing.Aligned ⟨image, depth⟩ ⟨image', depth⟩ s.instruction := by
  obtain ⟨hm, himports, -⟩ := Image.link_eq_ok hl
  obtain ⟨hm', himports', -⟩ := Image.link_eq_ok hl'
  have called {i : Nat} {callee : LinkedFunction} (hc : image.functions[i]? = some callee)
      (hi : (m.functions[i]?).map (fun f => Referent.function f.name) =
        (m'.functions[i]?).map fun f => Referent.function f.name) : h.pairing.function i i := by
    obtain ⟨f, hf, -⟩ := Image.linkFunction_of_link hl hc
    refine h.function_of_name hf ?_
    rw [hf] at hi ⊢
    obtain ⟨f', hf', heq⟩ := Option.map_eq_some_iff.mp hi.symm
    rw [hf', Option.map_some, Option.map_some, Referent.function.inj heq]
  obtain ⟨i, target⟩ := s
  cases i with
  | pushString index =>
      show image.module.strings[index.toNat]? = image'.module.strings[index.toNat]?
      rw [hm, hm']
      exact Option.map_injective (fun _ _ => Referent.text.inj) hi
  | loadStatic cls field =>
      obtain ⟨C, hC, hf⟩ := hs
      rw [hm] at hC
      exact h.field_of_names hC hf hi
  | storeStatic cls field =>
      obtain ⟨C, hC, hf⟩ := hs
      rw [hm] at hC
      have hfield := h.field_of_names hC hf hi
      exact ⟨hfield, h.declared hm hm' hfield⟩
  | call function =>
      obtain ⟨callee, hc⟩ := hs
      exact called hc hi
  | callback kind function =>
      obtain ⟨callee, hc, -⟩ := hs
      exact called hc hi
  | callNative native argc =>
      show image.imports.get? native.toNat = image'.imports.get? native.toNat
      rw [Imports.get?_of_resolve himports, Imports.get?_of_resolve himports',
        Option.map_injective (fun _ _ => Referent.native.inj) hi]
  | simple | pushInt | pushFloat | loadLocal | storeLocal | jump => trivial

/-- **Twins fit.** -/
theorem fits (h : m.Twins m') (hl : Image.link natives m = .ok image)
    (hl' : Image.link natives m' = .ok image') (depth : Nat) :
    h.pairing.Fits ⟨image, depth⟩ ⟨image', depth⟩ where
  depth := rfl
  linked := by
    rintro i j ⟨f, hf, hf'⟩
    obtain ⟨g, hg⟩ := Image.exists_functions_of_link hl (List.getElem?_eq_some_iff.mp hf).1
    obtain ⟨g', hg'⟩ := Image.exists_functions_of_link hl' (List.getElem?_eq_some_iff.mp hf').1
    obtain ⟨k, hk, hlink⟩ := Image.linkFunction_of_link hl hg
    obtain ⟨k', hk', hlink'⟩ := Image.linkFunction_of_link hl' hg'
    rw [hf] at hk
    rw [hf'] at hk'
    cases hk
    cases hk'
    rw [hlink] at hlink'
    cases hlink'
    exact hg.trans hg'.symm
  missing := by
    rintro i j ⟨f, hf, -⟩ hnone
    obtain ⟨g, hg⟩ := Image.exists_functions_of_link hl (List.getElem?_eq_some_iff.mp hf).1
    rw [hg] at hnone
    cases hnone
  aligned := by
    rintro i j g s - hg hs
    obtain ⟨f, hf, hlink⟩ := Image.linkFunction_of_link hl hg
    obtain ⟨k, hk⟩ := Array.mem_iff_getElem?.mp hs
    refine h.aligned hl hl' depth ((Image.sound_of_verify h.left hl hg).refers hk) ?_
    exact h.synonymous.operands f (List.mem_of_getElem? hf) _ (Image.mem_instructions hlink hs)

end Contexts

end Module.Twins

end EmbeddedVm
