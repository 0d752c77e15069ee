import EmbeddedVm.Proofs.Checks
import EmbeddedVm.Vm.Patch

/-!
# Updates of the virtual machine

An update leaves a machine behind even where it fails, and what it changed before stays changed. That
a refused update has changed nothing is therefore a matter of order. It is `AllOrNothing` where every
check comes before the first change and no change can fail: a check hands the machine on as it is, a
chain of checks is one check (`mapM_vet`), and what only changes the machine is carried out.
-/

namespace EmbeddedVm.Vm

variable {ν α β γ δ : Type}

theorem attempt_eq_ok {vm vm' : Vm ν} {u : Update ν α} {a : α} :
    vm.attempt u = (.ok a, vm') ↔ u.run vm = .ok a vm' := by
  unfold attempt
  cases u.run vm with
  | ok b vm₁ => simp only [Prod.mk.injEq, Except.ok.injEq, EStateM.Result.ok.injEq]
  | error e vm₁ => exact ⟨nofun, nofun⟩

/-- What is carried out has a result, and leaves a machine behind. -/
theorem exists_run_eq_ok (vm : Vm ν) (u : Update ν α) (h : (vm.attempt u).1.isOk = true) :
    ∃ a, u.run vm = .ok a (vm.attempt u).2 := by
  obtain ⟨a, ha⟩ := Checks.exists_eq_ok_of_isOk h
  exact ⟨a, attempt_eq_ok.mp (Prod.ext ha rfl)⟩

/-! ## 1. Checks -/

theorem run_check (verdict : Vm ν → Except VmError α) (vm : Vm ν) :
    (check verdict).run vm =
      match verdict vm with
      | .ok a => .ok a vm
      | .error e => .error e vm := by
  unfold check
  rw [EStateM.run_bind, EStateM.run_get]
  dsimp only
  cases verdict vm <;> rfl

/-- What follows a check gets the machine that was checked. -/
theorem run_check_bind (verdict : Vm ν → Except VmError α) (f : α → Update ν β) (vm : Vm ν) :
    (check verdict >>= f).run vm =
      match verdict vm with
      | .ok a => (f a).run vm
      | .error e => .error e vm := by
  rw [EStateM.run_bind, run_check]
  cases verdict vm <;> rfl

theorem check_bind_eq_ok {verdict : Vm ν → Except VmError α} {f : α → Update ν β} {vm vm' : Vm ν}
    {b : β} : (check verdict >>= f).run vm = .ok b vm' ↔
      ∃ a, verdict vm = .ok a ∧ (f a).run vm = .ok b vm' := by
  rw [run_check_bind]
  cases verdict vm with
  | ok a => exact ⟨fun h => ⟨a, rfl, h⟩, fun ⟨_, ha, h⟩ => Except.ok.inj ha ▸ h⟩
  | error e => exact ⟨nofun, fun ⟨_, h, _⟩ => nomatch h⟩

/-- Two checks in a row are one: both look at the same machine. -/
theorem check_bind_check (verdict : Vm ν → Except VmError α) (next : α → Vm ν → Except VmError β) :
    (check verdict >>= fun a => check (next a)) =
      check fun vm => verdict vm >>= fun a => next a vm := by
  funext vm
  show (check verdict >>= fun a => check (next a)).run vm = (check _).run vm
  rw [run_check_bind, run_check]
  cases verdict vm with
  | ok a => exact run_check (next a) vm
  | error e => rfl

/-- **A chain of checks is one check.** -/
theorem mapM_vet (verdict : α → Vm ν → Except PatchRefusal β) (l : List α) :
    (l.mapM fun a => vet (verdict a)) = vet fun vm => l.mapM fun a => verdict a vm := by
  induction l with
  | nil => rfl
  | cons a l ih =>
      rw [List.mapM_cons, ih]
      have hpure (b : β) (bs : List β) : (pure (b :: bs) : Update ν (List β)) =
          check fun _ => .ok (b :: bs) := rfl
      simp only [vet, hpure, check_bind_check]
      congr 1
      funext vm
      rw [List.mapM_cons]
      cases verdict a vm with
      | error e => rfl
      | ok b => cases (l.mapM fun a => verdict a vm) <;> rfl

/-- Where the values of the static fields of all classes come from, if the replacement is admissible
    for each of them. -/
def inheritance (vm : Vm ν) (old : Image ν) (classes : List Class) :
    Except PatchRefusal (List (List Inherited)) :=
  classes.mapM fun c => c.statics.mapM (vm.inheritField old c.name)

theorem inheritStatics_eq (old : Image ν) (classes : List Class) :
    inheritStatics old classes = vet (·.inheritance old classes) := by
  unfold inheritStatics inheritance
  simp only [mapM_vet]

/-! ## 2. All or nothing -/

/-- **All or nothing**: where the update fails, the machine is as it was. -/
def AllOrNothing (u : Update ν α) : Prop :=
  ∀ vm e vm', u.run vm = .error e vm' → vm' = vm

/-- The update is carried out on every machine. -/
def Certain (u : Update ν α) : Prop := ∀ vm, ∃ a vm', u.run vm = .ok a vm'

theorem Certain.bind {u : Update ν α} {f : α → Update ν β} (hu : Certain u)
    (hf : ∀ a, Certain (f a)) : Certain (u >>= f) := by
  intro vm
  obtain ⟨a, vm₁, h⟩ := hu vm
  rw [EStateM.run_bind, h]
  exact hf a vm₁

theorem certain_build (f : Heap → Heap × α) : Certain (build f : Update ν α) :=
  fun _ => ⟨_, _, rfl⟩

theorem certain_modifyStatics (f : Array (Array Value) → Array (Array Value)) :
    Certain (modifyStatics f : Update ν Unit) := fun _ => ⟨_, _, rfl⟩

theorem certain_modify (f : Vm ν → Vm ν) : Certain (modify f : Update ν Unit) :=
  fun _ => ⟨_, _, rfl⟩

theorem certain_pure (a : α) : Certain (pure a : Update ν α) := fun _ => ⟨_, _, rfl⟩

theorem Certain.allOrNothing {u : Update ν α} (h : Certain u) : AllOrNothing u := by
  intro vm e vm' he
  obtain ⟨a, vm₁, ha⟩ := h vm
  cases he.symm.trans ha

/-- A check before an update that is all or nothing. -/
theorem AllOrNothing.check_bind {verdict : Vm ν → Except VmError α} {f : α → Update ν β}
    (h : ∀ a, AllOrNothing (f a)) : AllOrNothing (check verdict >>= f) := by
  intro vm e vm' he
  rw [run_check_bind] at he
  cases hv : verdict vm with
  | ok a =>
      rw [hv] at he
      exact h a vm e vm' he
  | error e₁ =>
      rw [hv] at he
      cases he
      rfl

/-- What held before holds of the machine that is left behind, if it holds where the update is
    carried out. -/
theorem of_attempt {P : Vm ν → Prop} {vm : Vm ν} {u : Update ν α} (hu : AllOrNothing u)
    (hvm : P vm) (hnew : ∀ a vm', u.run vm = .ok a vm' → P vm') : P (vm.attempt u).2 := by
  unfold attempt
  cases h : u.run vm with
  | ok a vm' => exact hnew a vm' h
  | error e vm' =>
      rw [hu vm e vm' h]
      exact hvm

/-- **A module that is not loaded changes nothing.** -/
theorem allOrNothing_load (m : Module) : AllOrNothing (load m : Update ν Unit) := by
  unfold load
  refine .check_bind fun _ => .check_bind fun _ => Certain.allOrNothing ?_
  exact (certain_build _).bind fun _ => (certain_modifyStatics _).bind fun _ => certain_modify _

/-- **A static field that is not written changes nothing.** -/
theorem allOrNothing_setStatic (cls field : String) (v : Scalar) :
    AllOrNothing (setStatic cls field v : Update ν Unit) := by
  unfold setStatic
  refine .check_bind fun _ => .check_bind fun _ => Certain.allOrNothing ?_
  exact (certain_build _).bind fun _ => certain_modifyStatics _

/-- **A replacement that is refused changes nothing.** The static fields are gone through one by one,
    each against the machine; this is one check, like those before and behind it. -/
theorem allOrNothing_patch (m : Module) : AllOrNothing (patch m : Update ν PatchReport) := by
  unfold patch
  refine .check_bind fun _ => .check_bind fun _ => .check_bind fun _ => ?_
  rw [inheritStatics_eq]
  refine .check_bind fun _ => .check_bind fun _ => Certain.allOrNothing ?_
  exact (certain_build _).bind fun _ => (certain_modify _).bind fun _ =>
    (certain_modifyStatics _).bind fun _ => certain_pure _

/-! ## 3. Two machines -/

/-- Ends of two updates that match: both are done, with related results, or both have failed in the
    same way. The machines are related either way. -/
inductive Matched (S : Vm ν → Vm ν → Prop) (R : α → β → Prop) :
    EStateM.Result VmError (Vm ν) α → EStateM.Result VmError (Vm ν) β → Prop where
  | ok {a : α} {b : β} {vm₁ vm₂ : Vm ν} (hR : R a b) (hS : S vm₁ vm₂) :
    Matched S R (.ok a vm₁) (.ok b vm₂)
  | error (e : VmError) {vm₁ vm₂ : Vm ν} (hS : S vm₁ vm₂) :
    Matched S R (.error e vm₁) (.error e vm₂)

/-- Two updates begin with checks that say the same on their machines. -/
theorem Matched.check_bind {S : Vm ν → Vm ν → Prop} {R : α → β → Prop} {Q : γ → δ → Prop}
    {v : Vm ν → Except VmError α} {w : Vm ν → Except VmError β} {f : α → Update ν γ}
    {g : β → Update ν δ} {vm₁ vm₂ : Vm ν} (hS : S vm₁ vm₂) (h : Checks.Both R (v vm₁) (w vm₂))
    (hfg : ∀ a b, R a b → Matched S Q ((f a).run vm₁) ((g b).run vm₂)) :
    Matched S Q ((check v >>= f).run vm₁) ((check w >>= g).run vm₂) := by
  rw [run_check_bind, run_check_bind]
  generalize v vm₁ = x at h ⊢
  generalize w vm₂ = y at h ⊢
  cases h with
  | ok hR => exact hfg _ _ hR
  | error e => exact .error e hS

/-- The same check, with the same verdict on both machines. -/
theorem Matched.check_bind_eq {S : Vm ν → Vm ν → Prop} {Q : γ → δ → Prop}
    {v : Vm ν → Except VmError α} {f : α → Update ν γ} {g : α → Update ν δ} {vm₁ vm₂ : Vm ν}
    (hS : S vm₁ vm₂) (h : v vm₁ = v vm₂)
    (hfg : ∀ a, Matched S Q ((f a).run vm₁) ((g a).run vm₂)) :
    Matched S Q ((check v >>= f).run vm₁) ((check v >>= g).run vm₂) := by
  rw [run_check_bind, run_check_bind, h]
  cases v vm₂ with
  | ok a => exact hfg a
  | error e => exact .error e hS

end EmbeddedVm.Vm
