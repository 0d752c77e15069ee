import EmbeddedVm.Proofs.Machine.HostCalls
import EmbeddedVm.Proofs.Vm.Soundness

/-!
# Imports run the handlers registered last

Handlers are kept in two tables. What the host registers goes into one under its name; the imports
of the loaded module are another, resolved by position, in which a name may stand several times.
Registering changes both, loading and replacing a module make the second anew from the first, and
what fails changes neither.

`latest` reads off a session what was registered last under a name. The first table holds just that
(`find?_session`), the second is at any time what resolving anew would give, position by position
(`Imports.Current`), and a call of an import asks the host for what stands at its position. So the
handler asked for is always the one registered last under the name of the import.
-/

namespace EmbeddedVm

variable {ν : Type}

/-! ## 1. Resolving by position -/

/-- **The imports are the names in their order, each with the handler registered under it.** -/
def Imports.Current (t : NativeTable ν) (names : List String) (i : Imports ν) : Prop :=
  List.Forall₂ (fun name e => e.1 = name ∧ t.find? name = some e.2) names i.entries.toList

namespace Imports

theorem forall₂_of_resolveList {t : NativeTable ν} : ∀ {names : List String}
    {l : List (String × ν)}, resolveList t names = .ok l →
    List.Forall₂ (fun name e => e.1 = name ∧ t.find? name = some e.2) names l
  | [], l, h => by
      cases h
      exact .nil
  | name :: rest, l, h => by
      unfold resolveList at h
      split at h
      · rename_i handler hfound
        obtain ⟨resolved, hr, h⟩ := Checks.bind_eq_ok.mp h
        cases h
        exact .cons ⟨rfl, hfound⟩ (forall₂_of_resolveList hr)
      · cases h

/-- What resolving gives is current. -/
theorem current_of_resolve {t : NativeTable ν} {names : List String} {i : Imports ν}
    (h : resolve t names = .ok i) : Current t names i := by
  unfold resolve at h
  obtain ⟨l, hl, h⟩ := Checks.bind_eq_ok.mp h
  cases h
  exact forall₂_of_resolveList hl

variable {t : NativeTable ν} {names : List String} {i : Imports ν}

/-- There is one handler for every import, in the order of the names. -/
theorem Current.map_fst (h : Current t names i) : i.entries.toList.map (·.1) = names := by
  refine List.ext_getElem ?_ fun n h₁ h₂ => ?_
  · rw [List.length_map]
    exact h.length_eq.symm
  · rw [List.getElem_map]
    exact (List.forall₂_iff_get.mp h).2 n h₂ (by rwa [List.length_map] at h₁) |>.1

/-- The handler at a position is the one registered under the name at that position. -/
theorem Current.get? (h : Current t names i) {n : Nat} {name : String}
    (hn : names[n]? = some name) :
    ∃ handler, i.get? n = some (name, handler) ∧ t.find? name = some handler := by
  obtain ⟨hlt, rfl⟩ := List.getElem?_eq_some_iff.mp hn
  have hlt' : n < i.entries.toList.length := h.length_eq ▸ hlt
  obtain ⟨hname, hfound⟩ := (List.forall₂_iff_get.mp h).2 n hlt hlt'
  refine ⟨(i.entries.toList.get ⟨n, hlt'⟩).2, ?_, hfound⟩
  unfold Imports.get?
  rw [← Array.getElem?_toList, List.getElem?_eq_getElem hlt']
  exact congrArg some (Prod.ext hname rfl)

/-- And where there is a handler, there is a name. -/
theorem Current.name_of_get? (h : Current t names i) {n : Nat} {name : String} {handler : ν}
    (hn : i.get? n = some (name, handler)) :
    names[n]? = some name ∧ t.find? name = some handler := by
  have hlt : n < names.length := by
    rw [h.length_eq]
    exact (Array.getElem?_eq_some_iff.mp hn).1
  obtain ⟨handler', hget, hfound⟩ := h.get? (List.getElem?_eq_getElem hlt)
  rw [hget] at hn
  cases hn
  exact ⟨List.getElem?_eq_getElem hlt, hfound⟩

end Imports

namespace Vm

/-- In a sound machine the imports of the loaded module are current. -/
theorem Sound.current {vm : Vm ν} (h : vm.Sound) {image : Image ν} (hi : vm.image = some image) :
    Imports.Current vm.natives image.module.natives image.imports :=
  Imports.current_of_resolve (Image.link_eq_ok (prepare_eq_ok.mp (h.prepared hi)).2).2.1

/-! ## 2. What was registered last -/

/-- The handler that an operation registers under a name. -/
def Operation.registers (name : String) : Operation ν → Option ν
  | .registerNative n handler => if name = n then some handler else none
  | _ => none

/-- **The handler registered last under a name**, in a session. -/
def latest (ops : List (Operation ν)) (name : String) : Option ν :=
  ops.reverse.findSome? (Operation.registers name)

theorem latest_cons (op : Operation ν) (rest : List (Operation ν)) (name : String) :
    latest (op :: rest) name = (latest rest name).or (op.registers name) := by
  unfold latest
  rw [List.reverse_cons, List.findSome?_append, List.findSome?_singleton]

/-- Calls leave the table of the host alone. -/
theorem keptByCalls_natives (t : NativeTable ν) : KeptByCalls fun vm : Vm ν => vm.natives = t := by
  intro vm vm' image function args result h _ hcall
  obtain ⟨o, -, -, rfl⟩ := callIndex_ends hcall
  exact h

/-- **An operation registers a handler, or leaves the table of the host alone.** -/
theorem find?_perform {vm vm' : Vm ν} {op : Operation ν} {answer : Answer}
    (h : (vm.perform op).Ends (answer, vm')) (name : String) :
    vm'.natives.find? name = (op.registers name).or (vm.natives.find? name) := by
  suffices hsame : (∀ n handler, op ≠ .registerNative n handler) → vm'.natives = vm.natives by
    cases op with
    | registerNative n handler =>
        cases Run.ends_done.mp h
        show (vm.natives.insert n handler).find? name =
          (if name = n then some handler else none).or (vm.natives.find? name)
        rw [NativeTable.find?_insert]
        split
        · rfl
        · rfl
    | _ =>
        rw [hsame nofun]
        rfl
  intro hop
  have hcalls := keptByCalls_natives vm.natives
  unfold perform at h
  cases op with
  | registerNative n handler => exact absurd rfl (hop n handler)
  | load m =>
      refine of_answering (P := fun vm' => vm'.natives = vm.natives) (allOrNothing_load m) rfl
        (fun _ vm₁ h => ?_) (Run.ends_done.mp h)
      obtain ⟨-, image, -, rfl⟩ := load_eq_ok h
      rfl
  | setStatic cls field v =>
      refine of_answering (P := fun vm' => vm'.natives = vm.natives)
        (allOrNothing_setStatic cls field v) rfl (fun _ vm₁ h => ?_) (Run.ends_done.mp h)
      obtain ⟨ci, fi, f, -, -, rfl⟩ := setStatic_eq_ok h
      rfl
  | callEntry | callFunction | callStatic =>
      exact of_answer (P := fun vm' => vm'.natives = vm.natives)
        (fun _ _ => hcalls.callWith rfl) h
  | drainCooperative hint wall =>
      exact of_answer (P := fun vm' => vm'.natives = vm.natives)
        (fun _ _ => hcalls.drainCooperative (fun _ h => h) rfl) h
  | drainReads =>
      exact of_answer (P := fun vm' => vm'.natives = vm.natives)
        (fun _ _ => hcalls.drainReads (fun _ h => h) rfl) h
  | getStatic | sendRead | settleRead | gcStats =>
      cases Run.ends_done.mp h
      rfl
  | patch m =>
      refine of_answering (P := fun vm' => vm'.natives = vm.natives) (allOrNothing_patch m) rfl
        (fun _ vm₁ h => ?_) (Run.ends_done.mp h)
      obtain ⟨old, image, inherited, -, -, -, -, -, rfl⟩ := patch_eq_ok h
      rfl
  | collectGarbage =>
      refine of_answer (P := fun vm' => vm'.natives = vm.natives) (fun result vm₁ h => ?_) h
      cases h with
      | pause stopped h => cases stopped <;> cases Run.ends_done.mp h <;> rfl

/-- **The table of the host holds what was registered last.** -/
theorem find?_session {ops : List (Operation ν)} {vm vm' : Vm ν} {answers : List Answer}
    (h : (vm.session ops).Ends (answers, vm')) (name : String) :
    vm'.natives.find? name = (latest ops name).or (vm.natives.find? name) := by
  induction ops generalizing vm answers with
  | nil =>
      cases Run.ends_done.mp h
      rfl
  | cons op rest ih =>
      obtain ⟨⟨answer, vm₁⟩, hop, h⟩ := Run.ends_bind.mp h
      obtain ⟨⟨answers', vm₂⟩, hrest, hd⟩ := Run.ends_bind.mp h
      cases Run.ends_done.mp hd
      rw [ih hrest, find?_perform hop, latest_cons, Option.or_assoc]

/-! ## 3. What operations ask for -/

/-- **The handler is that of some import of the module.** -/
def OfImport (image : Image ν) (handler : ν) : Prop :=
  ∃ n name, image.imports.get? n = some (name, handler)

variable {vm : Vm ν} {image : Image ν} {handler : ν} {args : List Scalar}

/-- What is answered with the end of a run asks for nothing more than the run. -/
theorem asks_of_answer {α : Type} {r : Run ν (α × Vm ν)} {f : α → Answer}
    (h : (r.bind fun (result, vm) => .done (f result, vm)).Asks handler args) :
    r.Asks handler args := by
  rcases Run.asks_bind h with h | ⟨⟨result, vm'⟩, -, h⟩
  · exact h
  · exact (Run.not_asks_done _ h).elim

theorem asks_callIndex {function : Nat} {given : List Scalar}
    (h : (vm.callIndex image function given).Asks handler args) : OfImport image handler := by
  obtain ⟨m, -, f, rest, g, s, native, argc, name, -, -, -, -, himport⟩ :=
    Machine.asks_call (Run.asks_of_bind_done h)
  exact ⟨native.toNat, name, himport⟩

theorem asks_callWith (hi : vm.image = some image) {find : Image ν → Except VmError Nat}
    {given : List Scalar} (h : (vm.callWith find given).Asks handler args) :
    OfImport image handler := by
  unfold callWith at h
  rw [loaded_eq_ok.mpr hi] at h
  dsimp only at h
  split at h
  · cases h
  · exact asks_callIndex h

theorem asks_runDue (hi : vm.image = some image) {due : List DueCallback} {ran : Nat}
    (h : (vm.runDue due ran).Asks handler args) : OfImport image handler := by
  induction due generalizing ran vm with
  | nil => cases h
  | cons c rest ih =>
      unfold runDue at h
      split at h
      · exact ih hi h
      · rename_i image' function hc
        have hsame : image' = image := Option.some.inj ((callback_eq_some hc).1.symm.trans hi)
        subst hsame
        rcases Run.asks_bind h with h | ⟨⟨called, vm₁⟩, hcall, h⟩
        · exact asks_callIndex h
        · cases called with
          | ok v => exact ih (keptByCalls_image _ hi hi hcall) h
          | error e => cases h

theorem asks_runReads (hi : vm.image = some image) {ready : List ReadCompletion} {ran : Nat}
    (h : (vm.runReads ready ran).Asks handler args) : OfImport image handler := by
  induction ready generalizing ran vm with
  | nil => cases h
  | cons c rest ih =>
      unfold runReads at h
      dsimp only at h
      split at h
      · exact ih (by exact hi) h
      · rename_i image' function hc
        have hsame : image' = image :=
          Option.some.inj ((callback_eq_some hc).1.symm.trans (by exact hi))
        subst hsame
        rcases Run.asks_bind h with h | ⟨⟨called, vm₁⟩, hcall, h⟩
        · exact asks_callIndex h
        · cases called with
          | ok v => exact ih (keptByCalls_image _ (by exact hi) (by exact hi) hcall) h
          | error e => cases h

/-- **Whatever an operation asks the host for is the handler of an import.** -/
theorem asks_perform (hi : vm.image = some image) {op : Operation ν}
    (h : (vm.perform op).Asks handler args) : OfImport image handler := by
  unfold perform at h
  cases op with
  | load m | registerNative name handler | getStatic cls field | setStatic cls field v
  | sendRead id result | settleRead | patch m | gcStats stalledPauses => cases h
  | callEntry | callFunction | callStatic =>
      exact asks_callWith hi (asks_of_answer h)
  | drainCooperative hint wall =>
      have h := asks_of_answer h
      unfold drainCooperative at h
      split at h
      · exact asks_runDue (by exact hi) h
      · cases h
  | drainReads =>
      have h := asks_of_answer h
      unfold drainReads at h
      split at h
      · exact asks_runReads (by exact hi) h
      · cases h
  | collectGarbage =>
      have h := asks_of_answer h
      cases h with
      | pause stopped h => cases stopped <;> cases h

/-! ## 4. Every session -/

/-- One more operation at the end of a session. -/
theorem session_concat {ops : List (Operation ν)} {vm vm₁ vm₂ : Vm ν} {answers : List Answer}
    {op : Operation ν} {answer : Answer} (h : (vm.session ops).Ends (answers, vm₁))
    (hop : (vm₁.perform op).Ends (answer, vm₂)) :
    (vm.session (ops ++ [op])).Ends (answers ++ [answer], vm₂) := by
  induction ops generalizing vm answers with
  | nil =>
      cases Run.ends_done.mp h
      exact Run.ends_bind.mpr ⟨_, hop, .done _⟩
  | cons first rest ih =>
      obtain ⟨⟨answer₁, vm'⟩, hfirst, h⟩ := Run.ends_bind.mp h
      obtain ⟨⟨answers', vm''⟩, hrest, hd⟩ := Run.ends_bind.mp h
      cases Run.ends_done.mp hd
      exact Run.ends_bind.mpr ⟨_, hfirst, Run.ends_bind.mpr ⟨_, ih hrest, .done _⟩⟩

/-- **The reachable machines are those that sessions lead to** from a machine as it is created. -/
theorem reachable_iff_session {vm : Vm ν} : Reachable vm ↔
    ∃ options wall ops answers, ((create options wall).session ops).Ends (answers, vm) := by
  constructor
  · intro h
    induction h with
    | create options wall => exact ⟨options, wall, [], [], .done _⟩
    | perform _ hop ih =>
        obtain ⟨options, wall, ops, answers, hs⟩ := ih
        exact ⟨options, wall, _, _, session_concat hs hop⟩
  · rintro ⟨options, wall, ops, answers, hs⟩
    exact session_induct (fun _ _ _ _ _ => Reachable.perform) (.create options wall) hs

/-- **Imports always run the handler registered last.** Let a session lead from a machine as it is
    created to one with a loaded module: functions of the host may have been registered before and
    after the module was loaded, and loads and replacements may have failed and succeeded, with
    whatever imports, in which a name may stand several times.

    The table of imports has one handler for every import, in the order of the module, and the
    handler at each index is the one registered last under the name at that index. So where a
    machine stands at a call of an import, with as many operands as it takes, the run asks the host
    for the handler registered last under the name of that import; and whatever an operation asks
    the host for is the handler registered last under the name of some import. -/
theorem imports_run_latest {options : VmOptions} {wall : Nat} {ops : List (Operation ν)}
    {answers : List Answer} {vm : Vm ν}
    (h : ((create options wall).session ops).Ends (answers, vm)) {image : Image ν}
    (hi : vm.image = some image) :
    image.imports.entries.toList.map (·.1) = image.module.natives ∧
    (∀ (n : Nat) (name : String), image.module.natives[n]? = some name →
      ∃ handler, image.imports.get? n = some (name, handler) ∧ latest ops name = some handler) ∧
    (∀ (m : Machine) f rest g s native argc, m.frames = f :: rest →
      image.functions[f.function]? = some g → g.code[f.ip]? = some s →
      s.instruction = .callNative native argc →
      ∃ name handler, image.module.natives[native.toNat]? = some name ∧
        latest ops name = some handler ∧
        (m.floor + argc.toNat ≤ m.stack.size → ∀ maxDepth fuel, ∃ resume,
          Machine.run ⟨image, maxDepth⟩ (fuel + 1) m =
            .invoke handler (m.topmost argc.toNat) resume)) ∧
    ∀ op handler args, (vm.perform op).Asks handler args →
      ∃ n : Nat, ∃ name, image.module.natives[n]? = some name ∧ latest ops name = some handler := by
  have hreach : Reachable vm := reachable_iff_session.mpr ⟨options, wall, ops, answers, h⟩
  have hcurrent := hreach.sound.current hi
  -- nothing is registered in a machine as it is created
  have htable : ∀ name, vm.natives.find? name = latest ops name := fun name => by
    rw [find?_session h name]
    exact Option.or_none
  have hat : ∀ n name, image.module.natives[n]? = some name →
      ∃ handler, image.imports.get? n = some (name, handler) ∧
        latest ops name = some handler := by
    intro n name hn
    obtain ⟨handler, hget, hfound⟩ := hcurrent.get? hn
    exact ⟨handler, hget, htable name ▸ hfound⟩
  refine ⟨hcurrent.map_fst, hat, ?_, ?_⟩
  · intro m f rest g s native argc hf hg hs hinstr
    have hrefers := ((hreach.sound.image hi) hg).refers hs
    unfold Step.Refers at hrefers
    rw [hinstr] at hrefers
    have hsize : image.module.natives.length = image.imports.entries.size :=
      hcurrent.length_eq
    have hlt : native.toNat < image.module.natives.length := hsize ▸ hrefers
    have hname : image.module.natives[native.toNat]? = some image.module.natives[native.toNat] :=
      List.getElem?_eq_getElem hlt
    obtain ⟨handler, hget, hlatest⟩ := hat _ _ hname
    refine ⟨_, handler, hname, hlatest, fun hargs maxDepth fuel => ?_⟩
    have hrun := @Machine.run_callNative ν ⟨image, maxDepth⟩
    exact hrun hf hg hs hinstr hget hargs fuel
  · intro op handler args hasks
    obtain ⟨n, name, hget⟩ := asks_perform hi hasks
    obtain ⟨hname, hfound⟩ := hcurrent.name_of_get? hget
    exact ⟨n, name, hname, htable name ▸ hfound⟩

/-- A module that calls the first of its imports. -/
def switchboard (imports : List String) : Module where
  flags := Module.hasNatives
  name := "switchboard"
  strings := []
  functions := [⟨"main", 0, 0, Instruction.encodeBody [.callNative 0 0, .simple .ret]⟩]
  classes := []
  natives := imports
  entry := 0

/-- A session in which a module that imports a name twice is loaded and replaced, a replacement with
    an import that nobody has registered is refused, and handlers come before and after. -/
def switchboardSession : List (Operation Nat) :=
  [.registerNative "log" 1, .registerNative "clock" 2, .load (switchboard ["log", "clock", "log"]),
    .registerNative "log" 3, .patch (switchboard ["missing"]), .callEntry,
    .patch (switchboard ["clock", "log", "log"]), .registerNative "clock" 4]

/-- Whatever the first handlers were, the imports of the loaded module are bound to the last ones. -/
theorem switchboard_runs_latest :
    ∃ answers vm image, ((create {} 0).session switchboardSession).Ends (answers, vm) ∧
      vm.image = some image ∧ image.imports.entries.toList.map (·.1) = ["clock", "log", "log"] ∧
      image.imports.get? 0 = some ("clock", 4) ∧ image.imports.get? 1 = some ("log", 3) ∧
      image.imports.get? 2 = some ("log", 3) := by
  have hmodule : (((create {} 0).session switchboardSession).against obliging ()).map
      (fun x => x.1.2.module?) = some (some (switchboard ["clock", "log", "log"])) := by
    decide +kernel
  obtain ⟨⟨⟨answers, vm⟩, u⟩, hagainst, hm⟩ := Option.map_eq_some_iff.mp hmodule
  obtain ⟨image, hi, hm⟩ := Option.map_eq_some_iff.mp hm
  have hends := Run.ends_of_against hagainst
  obtain ⟨hnames, hat, -, -⟩ := imports_run_latest hends hi
  rw [hm] at hnames hat
  have bound {n : Nat} {name : String} {last : Nat}
      (hn : (switchboard ["clock", "log", "log"]).natives[n]? = some name)
      (hlast : latest switchboardSession name = some last) :
      image.imports.get? n = some (name, last) := by
    obtain ⟨handler, hget, hlatest⟩ := hat n name hn
    rw [hlast] at hlatest
    cases hlatest
    exact hget
  exact ⟨answers, vm, image, hends, hi, hnames, bound (n := 0) rfl (by decide),
    bound (n := 1) rfl (by decide), bound (n := 2) rfl (by decide)⟩

end Vm

end EmbeddedVm
