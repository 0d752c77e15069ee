import EmbeddedVm.Proofs.Vm.StaticFields
import Mathlib.Data.Finset.Basic
import Mathlib.Data.Finset.SDiff
import Mathlib.Data.Finset.Card

/-!
# Loading and replacing are all or nothing

A module that is refused, on loading or as a replacement, leaves the machine as it was. One that
takes the place of another is `Replaced`: what both declare keeps its value, the rest starts anew,
the events are untouched, calls by name run the new code, and the report counts exactly what differs
between the two modules. The counts are stated on sets of names; that names are distinct in both
modules is what the verifier has established, of the old one when it was loaded.
-/

namespace EmbeddedVm

/-! ## 1. What differs between two modules -/

namespace Module

/-- The names of the functions. -/
def functionNames (m : Module) : Finset String := (m.functions.map (·.name)).toFinset

/-- Both modules define the function, with another signature or another body. -/
def redefines (old new : Module) (name : String) : Bool :=
  match old.function? name, new.function? name with
  | some f, some g =>
    f.paramCount != g.paramCount || f.localCount != g.localCount || f.code != g.code
  | _, _ => false

theorem mem_functionNames {m : Module} {name : String} :
    name ∈ m.functionNames ↔ ∃ f ∈ m.functions, f.name = name := by
  unfold functionNames
  rw [List.mem_toFinset, List.mem_map]

theorem function?_eq_none {m : Module} {name : String} :
    m.function? name = none ↔ name ∉ m.functionNames := by
  unfold function?
  rw [List.find?_eq_none, mem_functionNames]
  constructor
  · rintro h ⟨f, hf, hname⟩
    exact h f hf (beq_iff_eq.mpr hname)
  · exact fun h f hf hname => h ⟨f, hf, beq_iff_eq.mp hname⟩

theorem functionIndex?_eq_none {m : Module} {name : String} :
    m.functionIndex? name = none ↔ name ∉ m.functionNames := by
  rw [← function?_eq_none]
  unfold functionIndex? function?
  rw [List.findIdx?_eq_none_iff, List.find?_eq_none]
  exact forall₂_congr fun f _ => Bool.not_eq_true _ ▸ Iff.rfl

/-- Where names are distinct, entries whose names pass a test are as many as the names that do. -/
theorem countP_eq_card {l : List Function} (h : (l.map (·.name)).Nodup) (p : String → Bool) :
    l.countP (fun f => p f.name) = ((l.map (·.name)).toFinset.filter fun n => p n = true).card := by
  rw [← List.toFinset_filter, List.toFinset_card_of_nodup (h.filter _), ← List.countP_eq_length_filter,
    List.countP_map]
  rfl

/-- Two functions of one name differ where their signatures or their bodies do. -/
theorem bne_of_name_eq {f g : Function} (h : g.name = f.name) :
    (g != f) = (g.paramCount != f.paramCount || g.localCount != f.localCount || g.code != f.code) := by
  obtain ⟨n, p, l, c⟩ := f
  obtain ⟨n', p', l', c'⟩ := g
  cases h
  rw [Bool.eq_iff_iff]
  simp only [bne_iff_ne, ne_eq, Function.mk.injEq, true_and, Bool.or_eq_true]
  tauto

end Module

namespace Vm

variable {ν : Type}

section Report

variable {old new : Module} (statics : List (List Inherited))

theorem report_functionsAdded (hnew : new.WellNamed) :
    (report old new statics).functionsAdded = (new.functionNames \ old.functionNames).card := by
  show new.functions.countP (fun f => (old.function? f.name).isNone) = _
  rw [Module.countP_eq_card hnew.functions fun n => (old.function? n).isNone]
  refine congrArg Finset.card (Finset.ext fun n => ?_)
  rw [Finset.mem_filter, Finset.mem_sdiff, Option.isNone_iff_eq_none, Module.function?_eq_none]
  rfl

theorem report_functionsRemoved (hold : old.WellNamed) :
    (report old new statics).functionsRemoved = (old.functionNames \ new.functionNames).card := by
  show old.functions.countP (fun f => (new.functionIndex? f.name).isNone) = _
  rw [Module.countP_eq_card hold.functions fun n => (new.functionIndex? n).isNone]
  refine congrArg Finset.card (Finset.ext fun n => ?_)
  rw [Finset.mem_filter, Finset.mem_sdiff, Option.isNone_iff_eq_none,
    Module.functionIndex?_eq_none]
  rfl

/-- The report counts the functions that both modules define, differently. -/
theorem report_functionsChanged (hnew : new.WellNamed) :
    (report old new statics).functionsChanged =
      ((old.functionNames ∩ new.functionNames).filter (old.redefines new · = true)).card := by
  show List.countP _ new.functions = _
  refine (List.countP_congr fun f hf => ?_).trans
    ((Module.countP_eq_card hnew.functions (old.redefines new)).trans ?_)
  · unfold Module.redefines
    rw [Module.function?_eq_some hnew hf]
    beta_reduce
    cases hg : old.function? f.name with
    | none =>
        unfold Module.function? at hg
        rw [hg]
    | some g =>
        have hname : g.name = f.name :=
          beq_iff_eq.mp (List.find?_some (p := fun g : Function => g.name == f.name) hg)
        unfold Module.function? at hg
        rw [hg]
        dsimp only
        rw [Module.bne_of_name_eq hname]
  · refine congrArg Finset.card (Finset.ext fun n => ?_)
    rw [Finset.mem_filter, Finset.mem_filter, Finset.mem_inter]
    constructor
    · rintro ⟨hn, hr⟩
      refine ⟨⟨?_, hn⟩, hr⟩
      -- only what the old module defines is defined differently
      refine Classical.byContradiction fun hmem => ?_
      unfold Module.redefines at hr
      rw [Module.function?_eq_none.mpr hmem] at hr
      cases hr
    · rintro ⟨⟨-, hn⟩, hr⟩
      exact ⟨hn, hr⟩

/-- Entries that pass a test and entries that fail it are all there are. -/
theorem countP_rows {α : Type} (p : α → Bool) (rows : List (List α)) :
    (rows.map (·.countP p)).foldr (· + ·) 0 + (rows.map (·.countP fun a => !p a)).foldr (· + ·) 0 =
      (rows.map List.length).foldr (· + ·) 0 := by
  induction rows with
  | nil => rfl
  | cons row rest ih =>
      have hrow : row.countP p + row.countP (fun a => !p a) = row.length := by
        rw [List.length_eq_countP_add_countP p]
        refine congrArg (row.countP p + ·) (List.countP_congr fun a _ => ?_)
        simp
      simp only [List.map_cons, List.foldr_cons, ← ih]
      omega

/-- **Every static field either kept its value or started anew.** -/
theorem report_statics :
    (report old new statics).staticsPreserved + (report old new statics).staticsAdded =
      (statics.map List.length).foldr (· + ·) 0 :=
  countP_rows _ statics

end Report

/-! ## 2. Calls by name -/

/-- **Calls by name run the code of a module**: the functions of the image are the module's, linked
    against what is registered, every name of a function or of a method leads to the function it
    names, and every other name to a refusal. -/
structure Serves (vm : Vm ν) (m : Module) (image : Image ν) : Prop where
  holds : vm.image = some image
  linked : Image.link vm.natives m = .ok image
  code : ∀ (i : Nat) (f : Function), m.functions[i]? = some f →
    ∃ g, image.functions[i]? = some g ∧ Image.linkFunction f = .ok g
  entry : vm.callEntry = vm.callIndex image m.entry.toNat []
  function : ∀ (i : Nat) (f : Function), m.functions[i]? = some f → ∀ args,
    vm.callFunction f.name args = vm.callIndex image i args
  noFunction : ∀ name, name ∉ m.functionNames → ∀ args,
    vm.callFunction name args = .done (.error (.functionNotFound name), vm)
  method : ∀ c ∈ m.classes, ∀ b ∈ c.methods, ∀ args,
    vm.callStatic c.name b.name args = vm.callIndex image b.function.toNat args
  noMethod : ∀ c ∈ m.classes, ∀ name, name ∉ c.methods.map (·.name) → ∀ args,
    vm.callStatic c.name name args = .done (.error (.methodNotFound c.name name), vm)
  noClass : ∀ name, name ∉ m.classes.map (·.name) → ∀ method args,
    vm.callStatic name method args = .done (.error (.classNotFound name), vm)

theorem callWith_eq {vm : Vm ν} {image : Image ν} (hi : vm.image = some image)
    {find : Image ν → Except VmError Nat} {i : Nat} (hf : find image = .ok i) (args : List Scalar) :
    vm.callWith find args = vm.callIndex image i args := by
  unfold callWith
  rw [loaded_eq_ok.mpr hi]
  dsimp only
  rw [hf]

theorem callWith_error {vm : Vm ν} {image : Image ν} (hi : vm.image = some image)
    {find : Image ν → Except VmError Nat} {e : VmError} (hf : find image = .error e)
    (args : List Scalar) : vm.callWith find args = .done (.error e, vm) := by
  unfold callWith
  rw [loaded_eq_ok.mpr hi]
  dsimp only
  rw [hf]

/-- A class of a well-named module is found under its name. -/
theorem class?_eq {image : Image ν} (h : image.module.WellNamed) {c : Class}
    (hc : c ∈ image.module.classes) : ∃ i, image.class? c.name = some (i, c) := by
  obtain ⟨i, hi⟩ := List.mem_iff_getElem?.mp hc
  refine ⟨i, ?_⟩
  unfold Image.class?
  rw [(findIdx?_eq_some h.classes).mpr ⟨c, hi, rfl⟩]
  dsimp only
  rw [hi]
  rfl

theorem method?_eq {functions : Nat} {c : Class} (h : Module.ClassNamed functions c) {b : Method}
    (hb : b ∈ c.methods) : c.method? b.name = some b.function := by
  obtain ⟨i, hi⟩ := List.mem_iff_getElem?.mp hb
  unfold Class.method?
  rw [List.find?_eq_bind_findIdx?_getElem?, (findIdx?_eq_some h.methods).mpr ⟨b, hi, rfl⟩]
  rw [Option.bind_some, hi]
  rfl

/-- **A sound machine serves its module.** -/
theorem Sound.serves {vm : Vm ν} (h : vm.Sound) {image : Image ν} (hi : vm.image = some image) :
    vm.Serves image.module image := by
  have hnamed := h.wellNamed hi
  obtain ⟨-, hl⟩ := prepare_eq_ok.mp (h.prepared hi)
  refine ⟨hi, hl, fun i f hf => ?_, callWith_eq hi rfl _, fun i f hf args => callWith_eq hi ?_ args,
    fun name hname args => callWith_error hi ?_ args,
    fun c hc b hb args => callWith_eq hi ?_ args,
    fun c hc name hname args => callWith_error hi ?_ args,
    fun name hname method args => callWith_error hi ?_ args⟩
  · obtain ⟨g, hg⟩ := Image.exists_functions_of_link hl (List.getElem?_eq_some_iff.mp hf).1
    obtain ⟨f', hf', hlink⟩ := Image.linkFunction_of_link hl hg
    rw [hf] at hf'
    cases hf'
    exact ⟨g, hg, hlink⟩
  · unfold findFunction Image.functionIndex?
    rw [(Module.functionIndex?_eq_some hnamed).mpr ⟨f, hf, rfl⟩]
  · unfold findFunction Image.functionIndex?
    rw [Module.functionIndex?_eq_none.mpr hname]
  · obtain ⟨i, hci⟩ := class?_eq hnamed hc
    unfold findMethod
    rw [hci]
    dsimp only
    rw [method?_eq (hnamed.members c hc) hb]
  · obtain ⟨i, hci⟩ := class?_eq hnamed hc
    unfold findMethod
    rw [hci]
    dsimp only
    unfold Class.method?
    rw [List.find?_eq_none.mpr fun b hb hbn =>
      hname (List.mem_map.mpr ⟨b, hb, beq_iff_eq.mp hbn⟩)]
    rfl
  · unfold findMethod Image.class?
    rw [List.findIdx?_eq_none_iff.mpr fun c hc => beq_eq_false_iff_ne.mpr fun hcn =>
      hname (List.mem_map.mpr ⟨c, hc, hcn⟩)]

/-! ## 3. All or nothing -/

/-- **What a replacement makes of a machine.** -/
structure Replaced (old m : Module) (vm vm' : Vm ν) (r : PatchReport) : Prop where
  /-- What both modules declare reads as before. -/
  kept : ∀ cls field, (old.static? cls field).isSome → (m.static? cls field).isSome →
    ∃ v, vm.getStatic cls field = .ok v ∧ vm'.getStatic cls field = .ok v
  /-- What only the new module declares reads as its initial value. -/
  fresh : ∀ cls field f, old.static? cls field = none → m.static? cls field = some f →
    vm'.getStatic cls field = .ok f.initial
  /-- The clock, the timers, the callbacks of every sweep and the reads are untouched. -/
  scheduler : vm'.store.scheduler = vm.store.scheduler
  reactor : vm'.store.reactor = vm.store.reactor
  /-- So is what the host has set up. -/
  natives : vm'.natives = vm.natives
  options : vm'.options = vm.options
  /-- Calls run the new code. -/
  serves : ∃ image, vm'.Serves m image
  /-- The report counts the static fields of the new module, -/
  statics : r.staticsPreserved + r.staticsAdded = (m.classes.map (·.statics.length)).foldr (· + ·) 0
  /-- and the functions, by name. -/
  added : r.functionsAdded = (m.functionNames \ old.functionNames).card
  removed : r.functionsRemoved = (old.functionNames \ m.functionNames).card
  changed : r.functionsChanged =
    ((old.functionNames ∩ m.functionNames).filter (old.redefines m · = true)).card

/-- A replacement that succeeds keeps what has to be kept. -/
theorem Reachable.replaced {vm vm' : Vm ν} (h : Reachable vm) {m : Module} {r : PatchReport}
    (hp : (patch m).run vm = .ok r vm') :
    ∃ old, vm.image = some old ∧ Replaced old.module m vm vm' r := by
  obtain ⟨old, image, inherited, ho, hprepared, hl, -, hr, hvm'⟩ := patch_eq_ok hp
  have hm : image.module = m := (Image.link_eq_ok (prepare_eq_ok.mp hprepared).2).1
  have hsound' : vm'.Sound := h.sound.change (.patch hp)
  have hnew : m.WellNamed := Module.wellNamed_of_verify (prepare_eq_ok.mp hprepared).1
  have hi' : vm'.image = some image := by rw [hvm']
  refine ⟨old, ho, ?_, ?_, by rw [hvm'], by rw [hvm'], by rw [hvm'], by rw [hvm'],
    ⟨image, hm ▸ hsound'.serves hi'⟩, ?_, ?_, ?_, ?_⟩
  · intro cls field hold hnew
    obtain ⟨f, hf⟩ := Option.isSome_iff_exists.mp hnew
    obtain ⟨g, hg⟩ := Option.isSome_iff_exists.mp hold
    obtain ⟨hname, hread⟩ := getStatic_patched h.alike hp ho hf
    rw [Image.static?_eq] at hg
    obtain ⟨⟨ci, fi, g'⟩, hslot, -⟩ := Option.map_eq_some_iff.mp hg
    refine ⟨_, getStatic_eq ho hslot, ?_⟩
    rw [hread]
    unfold expected
    rw [hname, hslot]
  · intro cls field f hold hf
    obtain ⟨hname, hread⟩ := getStatic_patched h.alike hp ho hf
    rw [Image.static?_eq, Option.map_eq_none_iff] at hold
    rw [hread]
    unfold expected
    rw [hname, hold]
  · rw [hr, report_statics, lengths_inheritance hl]
  · rw [hr, report_functionsAdded inherited hnew]
  · rw [hr, report_functionsRemoved inherited (h.sound.wellNamed ho)]
  · rw [hr, report_functionsChanged inherited hnew]

/-- **Loading and replacing are all or nothing.** Whatever a host did with a machine before, a
    module that is refused leaves everything in it as it was: the loaded module, the static fields,
    the heap, the events and the registered functions. A module that takes the place of the loaded
    one keeps the values of the static fields that both declare and the events, its own code runs
    from then on, and the report counts what differs. -/
theorem replacement_all_or_nothing {vm : Vm ν} (h : Reachable vm) (m : Module) :
    (∀ e vm', (vm.perform (.load m)).Ends (.done (.error e), vm') → vm' = vm) ∧
    (∀ e vm', (vm.perform (.patch m)).Ends (.patched (.error e), vm') → vm' = vm) ∧
    ∀ r vm', (vm.perform (.patch m)).Ends (.patched (.ok r), vm') →
      ∃ old, vm.image = some old ∧ Replaced old.module m vm vm' r := by
  refine ⟨fun e vm' hl => ?_, fun e vm' hp => ?_, fun r vm' hp => ?_⟩
  · rcases answering_cases (Run.ends_done.mp hl) with ⟨_, -, heq⟩ | ⟨e', herror, -⟩
    · cases heq
    · exact allOrNothing_load m vm e' vm' herror
  · rcases answering_cases (Run.ends_done.mp hp) with ⟨_, -, heq⟩ | ⟨e', herror, -⟩
    · cases heq
    · exact allOrNothing_patch m vm e' vm' herror
  · rcases answering_cases (Run.ends_done.mp hp) with ⟨r', hok, heq⟩ | ⟨_, -, heq⟩
    · cases heq
      exact h.replaced hok
    · cases heq

/-- A board that counts its frames, with a callback for every sweep. -/
def board : Module where
  flags := 0
  name := "board"
  strings := ["ready"]
  functions := [
    ⟨"main", 0, 0, Instruction.encodeBody [.callback .mainLoop 1, .simple .retVoid]⟩,
    ⟨"frame", 0, 0, Instruction.encodeBody [.simple .retVoid]⟩,
    ⟨"close", 0, 0, Instruction.encodeBody [.simple .retVoid]⟩]
  classes := [⟨"Board", [⟨"title", .string "new"⟩, ⟨"frames", .int 0⟩], [⟨"draw", 1⟩]⟩]
  natives := []
  entry := 0

/-- The board again: another body for its frames, another field, another function. -/
def redrawnBoard : Module where
  flags := 0
  name := "board"
  strings := ["ready"]
  functions := [
    ⟨"main", 0, 0, Instruction.encodeBody [.callback .mainLoop 1, .simple .retVoid]⟩,
    ⟨"frame", 0, 0, Instruction.encodeBody [.pushString 0, .simple .ret]⟩,
    ⟨"open", 0, 0, Instruction.encodeBody [.simple .retVoid]⟩]
  classes := [⟨"Board", [⟨"lives", .int 3⟩, ⟨"title", .string "new"⟩], [⟨"draw", 1⟩]⟩]
  natives := []
  entry := 0

/-- The board without its callback. Its motto is new, and would have to be allocated. -/
def mutedBoard : Module where
  flags := 0
  name := "board"
  strings := []
  functions := [⟨"main", 0, 0, Instruction.encodeBody [.simple .retVoid]⟩]
  classes := [⟨"Board", [⟨"motto", .string "calm"⟩, ⟨"title", .string "new"⟩], []⟩]
  natives := []
  entry := 0

/-- A machine in which the board has a title and a callback for every sweep. -/
def boardMachine : Vm Unit :=
  (create {} 0).after
    [.load board, .setStatic "Board" "title" (.string "late"), .callEntry]

/-- The board is redrawn while it runs: its title stays, its new field starts anew, and the report
    tells one function of each kind. The muted one is refused by the last of the checks, when all
    its fields have been gone through, and a second board is refused as it is loaded: neither has
    changed anything. -/
theorem board_replaced :
    Reachable boardMachine ∧ boardMachine.store.scheduler.mainLoop = ["frame"] ∧
      (∃ r vm', (boardMachine.perform (.patch redrawnBoard)).Ends (.patched (.ok r), vm') ∧
        Replaced board redrawnBoard boardMachine vm' r ∧
        vm'.getStatic "Board" "title" = .ok (.string "late") ∧
        vm'.getStatic "Board" "lives" = .ok (.int 3) ∧
        (r.functionsAdded, r.functionsRemoved, r.functionsChanged) = (1, 1, 1)) ∧
      (boardMachine.perform (.patch mutedBoard)).Ends
        (.patched (.error (.patchRejected (.callbackMissing "frame"))), boardMachine) ∧
      (boardMachine.perform (.load redrawnBoard)).Ends
        (.done (.error .alreadyLoaded), boardMachine) := by
  have hreach : Reachable boardMachine := (Reachable.create {} 0).after _
  have hmodule : boardMachine.module? = some board := rfl
  refine ⟨hreach, rfl, ?replaced, ?refused, ?loaded⟩
  case replaced =>
    obtain ⟨r, hp⟩ := exists_run_eq_ok boardMachine (patch redrawnBoard) (by decide +kernel)
    have hends := ends_answering (attempt_eq_ok.mpr hp) .patched
    generalize (boardMachine.attempt (patch redrawnBoard)).2 = vm' at hends
    obtain ⟨old, ho, hreplaced⟩ := (replacement_all_or_nothing hreach redrawnBoard).2.2 r vm' hends
    have hold : old.module = board := by
      unfold module? at hmodule
      rw [ho] at hmodule
      exact Option.some.inj hmodule
    rw [hold] at hreplaced
    obtain ⟨v, hbefore, hafter⟩ := hreplaced.kept "Board" "title" rfl rfl
    have htitle : boardMachine.getStatic "Board" "title" = .ok (.string "late") := rfl
    refine ⟨r, vm', hends, hreplaced, ?_, hreplaced.fresh "Board" "lives" _ rfl rfl, ?_⟩
    · rw [hafter, ← hbefore, htitle]
    · rw [hreplaced.added, hreplaced.removed, hreplaced.changed]
      decide
  case refused =>
    have hrefused : boardMachine.attempt (patch mutedBoard) =
        (.error (.patchRejected (.callbackMissing "frame")),
          (boardMachine.attempt (patch mutedBoard)).2) := Prod.ext (by decide +kernel) rfl
    have hends := ends_answering hrefused .patched
    have hsame := (replacement_all_or_nothing hreach mutedBoard).2.1 _ _ hends
    rwa [hsame] at hends
  case loaded =>
    have hrefused : boardMachine.attempt (load redrawnBoard) =
        (.error .alreadyLoaded, (boardMachine.attempt (load redrawnBoard)).2) :=
      Prod.ext (by decide +kernel) rfl
    have hends := ends_answering hrefused .done
    have hsame := (replacement_all_or_nothing hreach redrawnBoard).1 _ _ hends
    rwa [hsame] at hends

end Vm

end EmbeddedVm
