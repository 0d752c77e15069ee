import EmbeddedVm.Proofs.Machine.Inversion
import EmbeddedVm.Proofs.Machine.Turns

/-!
# Verified code never goes wrong

The verifier, the linker and the interpreter are three passes that know nothing of each other. What
holds them together is `WellFormed`: at every turn of a run the frames lie on the stack one above
the other, each with its locals between base and floor, there are no more of them than allowed, each
stands at an instruction of its function, and the static fields are those of the module. It holds
where a function has been entered and is kept by every turn. So no operand ever refers to nothing,
and a run can only return, diverge or fail with an exception that its code is answerable for.
-/

namespace EmbeddedVm

variable {ν : Type}

/-- A frame stands at an instruction of its function. -/
def Frame.Ready (image : Image ν) (f : Frame) : Prop :=
  ∃ g, image.functions[f.function]? = some g ∧ f.ip < g.code.size

namespace Machine

/-! ## 1. The invariant -/

/-- **What holds of a machine between two instructions.** -/
structure WellFormed (ctx : Context ν) (m : Machine) : Prop where
  /-- Everything lies in its place. -/
  placed : Placed ctx m
  /-- Some function is active. -/
  active : m.frames ≠ []
  /-- Every active function stands at one of its instructions. -/
  ready : ∀ f ∈ m.frames, f.Ready ctx.image

variable {ctx : Context ν}

/-- The step a well-formed machine takes next, and what it does there. -/
theorem WellFormed.step (hsound : ctx.image.Sound) {m : Machine} (h : WellFormed ctx m) :
    ∃ f rest g s, m.frames = f :: rest ∧ ctx.image.functions[f.function]? = some g ∧
      g.code[f.ip]? = some s ∧ m.fetched.frames = { f with ip := f.ip + 1 } :: rest ∧
      After (Machine.step ctx) m (Steps ctx s m.fetched) (Fails ctx m.fetched) := by
  cases hf : m.frames with
  | nil => exact absurd hf h.active
  | cons f rest =>
      obtain ⟨g, hg, hip⟩ := h.ready f (by rw [hf]; exact List.mem_cons_self)
      have hs : g.code[f.ip]? = some g.code[f.ip] := Array.getElem?_eq_getElem hip
      refine ⟨f, rest, g, _, rfl, hg, hs, ?_, after_step hsound h.placed hf hg hs⟩
      unfold fetched
      rw [hf]

theorem movedTo_eq {m : Machine} {f : Frame} {rest : List Frame} (hf : m.frames = f :: rest)
    (ip : Nat) : m.movedTo ip = { m with frames := { f with ip } :: rest } := by
  unfold movedTo
  rw [hf]

/-- The innermost function moves to one of its steps. -/
theorem WellFormed.moved {m : Machine} (hm : Placed ctx m) {f : Frame} {rest : List Frame}
    (hf : m.frames = f :: rest) (hrest : ∀ c ∈ rest, c.Ready ctx.image) {g : LinkedFunction}
    (hg : ctx.image.functions[f.function]? = some g) {ip : Nat} (hip : ip < g.code.size) :
    WellFormed ctx { m with frames := { f with ip } :: rest } := by
  have hs := hm.frames
  have hd := hm.depth
  rw [hf] at hs hd
  refine ⟨⟨⟨hs.1, hs.2.1, hs.2.2⟩, hd, hm.statics⟩, List.cons_ne_nil _ _, fun c hc => ?_⟩
  rcases List.mem_cons.mp hc with rfl | hc
  · exact ⟨g, hg, hip⟩
  · exact hrest c hc

theorem size_entered (m : Machine) (function : Nat) (g : LinkedFunction) :
    (m.entered function g).stack.size = m.stack.size - g.params + g.locals := by
  unfold entered
  simp only [Array.size_append, Array.size_replicate, Array.size_shrink]
  omega

/-- A function is entered: its locals lie above the operands of its caller. -/
theorem Placed.entered {m : Machine} (hm : Placed ctx m) {function : Nat} {g : LinkedFunction}
    (hg : ctx.image.functions[function]? = some g) (hd : m.frames.length < ctx.maxDepth)
    (hr : m.floor + g.params ≤ m.stack.size) : Placed ctx (m.entered function g) := by
  refine ⟨⟨⟨g, hg, rfl⟩, ?_, Stacked.of_floor_le hm (Nat.le_sub_of_add_le hr)⟩,
    hd, hm.statics⟩
  exact Nat.le_of_eq (size_entered m function g).symm

/-- **What an instruction of sound code leaves is well formed**, if the run goes on behind it. -/
theorem WellFormed.steps (hsound : ctx.image.Sound) {m : Machine} (h : WellFormed ctx m) {f : Frame}
    {rest : List Frame} (hf : m.frames = f :: rest) {g : LinkedFunction}
    (hg : ctx.image.functions[f.function]? = some g) {s : Step} (hs : g.code[f.ip]? = some s)
    (hfetched : m.fetched.frames = { f with ip := f.ip + 1 } :: rest) {effect : Effect ν}
    {m' : Machine} (hsteps : Steps ctx s m.fetched effect m') (he : effect.Continues) :
    WellFormed ctx m' := by
  obtain ⟨m₁, hc, hstepped⟩ := hsteps
  have hm₁ : Placed ctx m₁ := h.placed.fetched.changes hc
  have hf₁ : m₁.frames = { f with ip := f.ip + 1 } :: rest := hc.frames_eq.1.trans hfetched
  have hrest : ∀ c ∈ rest, c.Ready ctx.image := fun c hc => h.ready c (by
    rw [hf]
    exact List.mem_cons_of_mem f hc)
  cases hstepped with
  | onward ht _ =>
      have hwf := WellFormed.moved hm₁ hf₁ hrest hg ((hsound hg).onward hs ht)
      rw [← hf₁] at hwf
      exact hwf
  | jumped hi =>
      have hrefers := (hsound hg).refers hs
      unfold Step.Refers at hrefers
      rw [hi] at hrefers
      rw [movedTo_eq hf₁]
      exact WellFormed.moved hm₁ hf₁ hrest hg hrefers
  | called hi hg' hd hr =>
      rename_i callee g'
      -- behind a call its function goes on with the next step
      have hnext : f.ip + 1 < g.code.size := (hsound hg).onward hs (by rw [hi]; rfl)
      refine ⟨hm₁.entered hg' hd hr, List.cons_ne_nil _ _, fun c hc => ?_⟩
      rcases List.mem_cons.mp hc with rfl | hc
      · exact ⟨g', hg', (hsound hg').nonempty⟩
      · rw [hf₁] at hc
        rcases List.mem_cons.mp hc with rfl | hc
        · exact ⟨g, hg, hnext⟩
        · exact hrest c hc
  | returned v hf₂ hr =>
      rename_i f₂ rest₂
      rw [hf₁] at hf₂
      cases hf₂
      have hst := hm₁.frames
      have hdep := hm₁.depth
      rw [hf₁] at hst hdep
      refine ⟨⟨hst.2.2.mono ?_, Nat.le_of_succ_le hdep, hm₁.statics⟩, hr, hrest⟩
      obtain ⟨⟨g', hg', hsum⟩, hle, -⟩ := hst
      dsimp only at hsum hle
      rw [Array.size_push, Array.size_shrink]
      dsimp only
      omega
  | finished v hf₂ => exact he.elim

/-- One more operand changes nothing below it. -/
theorem Placed.pushScalar {m m' : Machine} {v : Scalar} (h : Placed ctx m)
    (hp : (m.pushScalar v : Run ν Machine).Ends m') :
    Placed ctx m' ∧ m'.frames = m.frames := by
  obtain ⟨heap, w, rfl⟩ := pushScalar_ends hp
  refine ⟨⟨h.frames.mono ?_, h.depth, h.statics⟩, rfl⟩
  rw [Array.size_push]
  exact Nat.le_succ _

theorem WellFormed.pushScalar {m m' : Machine} {v : Scalar} (h : WellFormed ctx m)
    (hp : (m.pushScalar v : Run ν Machine).Ends m') : WellFormed ctx m' := by
  obtain ⟨hm', hframes⟩ := h.placed.pushScalar hp
  exact ⟨hm', by rw [hframes]; exact h.active, by rw [hframes]; exact h.ready⟩

/-- **Every turn keeps a machine well formed.** -/
theorem WellFormed.turn (hsound : ctx.image.Sound) {m m' : Machine} (h : WellFormed ctx m)
    (ht : Turn ctx m m') : WellFormed ctx m' := by
  obtain ⟨f, rest, g, s, hf, hg, hs, hfetched, hafter⟩ := h.step hsound
  have key {effect : Effect ν} {m₁ : Machine} (hstep : (Machine.step ctx).run m = .ok effect m₁)
      (he : effect.Continues) : WellFormed ctx m₁ :=
    h.steps hsound hf hg hs hfetched (hafter.ok hstep) he
  cases ht with
  | next hstep => exact key hstep trivial
  | allocate hstep hp => exact (key hstep trivial).pushScalar hp
  | invoke hstep answer hp => exact (key hstep trivial).pushScalar hp

theorem WellFormed.turns (hsound : ctx.image.Sound) {m m' : Machine} (h : WellFormed ctx m)
    (ht : Turns ctx m m') : WellFormed ctx m' := by
  induction ht with
  | refl => exact h
  | tail _ ht ih => exact ih.turn hsound ht

/-! ## 2. Outcomes -/

/-- What a call of sound code may end with: a value, or an exception with a dynamic fault whose
    trace names functions of the module. -/
def Outcome.Regular (image : Image ν) (o : Outcome) : Prop :=
  match o.result with
  | .ok _ => True
  | .error e => ∃ fault trace, e = .exception fault trace ∧ fault.IsDynamic ∧
      ∀ name ∈ trace, ∃ g ∈ image.functions, g.name = name

theorem Stacked.exists_function {image : Image ν} : ∀ {top : Nat} {frames : List Frame},
    Stacked image top frames → ∀ f ∈ frames, ∃ g, image.functions[f.function]? = some g
  | _, [], _, f, hf => absurd hf List.not_mem_nil
  | _, c :: rest, h, f, hf => by
      rcases List.mem_cons.mp hf with rfl | hf
      · obtain ⟨⟨g, hg, -⟩, -, -⟩ := h
        exact ⟨g, hg⟩
      · exact exists_function h.2.2 f hf

/-- An exception raised where everything is in place names functions of the module. -/
theorem Placed.regular {m : Machine} (h : Placed ctx m) {fault : Fault} (hf : fault.IsDynamic)
    (store : Store) : Outcome.Regular ctx.image ⟨.error (m.exception ctx fault), store⟩ := by
  refine ⟨fault, m.trace ctx, rfl, hf, fun name hname => ?_⟩
  obtain ⟨f, hmem, rfl⟩ := List.mem_map.mp hname
  obtain ⟨g, hg⟩ := h.frames.exists_function f hmem
  exact ⟨g, Array.mem_of_getElem? hg, by rw [hg]; rfl⟩

theorem Fails.regular {m m' : Machine} (h : Placed ctx m) {e : VmError} (hf : Fails ctx m e m')
    (store : Store) : Outcome.Regular ctx.image ⟨.error e, store⟩ := by
  obtain ⟨hc, fault, hfault, rfl⟩ := hf
  exact (h.changes hc).regular hfault store

/-- **A run closes with a regular outcome.** -/
theorem WellFormed.closes (hsound : ctx.image.Sound) {m : Machine} (h : WellFormed ctx m)
    {o : Outcome} (hc : Closes ctx m o) : o.Regular ctx.image := by
  obtain ⟨f, rest, g, s, hf, hg, hs, hfetched, hafter⟩ := h.step hsound
  cases hc with
  | raised hstep => exact (hafter.error hstep).regular h.placed.fetched _
  | refused hstep message =>
      have hwf := h.steps hsound hf hg hs hfetched (hafter.ok hstep) trivial
      exact hwf.placed.regular (show Fault.IsDynamic (.nativeFailed _ message) from trivial) _
  | finished hstep => trivial

/-! ## 3. Calls -/

theorem Placed.pushScalars : ∀ {args : List Scalar} {m m' : Machine}, Placed ctx m →
    (m.pushScalars args : Run ν Machine).Ends m' → Placed ctx m' ∧ m'.frames = m.frames
  | [], m, m', h, hp => by
      rw [Run.ends_done.mp hp]
      exact ⟨h, rfl⟩
  | v :: rest, m, m', h, hp => by
      obtain ⟨m₁, hv, hp⟩ := Run.ends_bind.mp hp
      obtain ⟨h₁, hframes₁⟩ := h.pushScalar hv
      obtain ⟨h', hframes⟩ := h₁.pushScalars hp
      exact ⟨h', hframes.trans hframes₁⟩

theorem placed_start {store : Store} (h : ctx.image.Shapes store.statics) :
    Placed ctx { store } := ⟨trivial, Nat.zero_le _, h⟩

/-- Every machine a call of sound code reaches is well formed. -/
theorem Reached.wellFormed (hsound : ctx.image.Sound) {store : Store}
    (hst : ctx.image.Shapes store.statics) {function : Nat} {g : LinkedFunction}
    (hg : ctx.image.functions[function]? = some g) {args : List Scalar} {m : Machine}
    (h : Reached ctx store function args m) : WellFormed ctx m := by
  obtain ⟨m₀, m₁, hp, henter, hturns⟩ := h
  obtain ⟨hm₀, hframes⟩ := (placed_start hst).pushScalars hp
  obtain ⟨rfl, hd, hr⟩ := (after_enter m₀ hg).ok henter
  refine WellFormed.turns hsound ⟨hm₀.entered hg hd hr, List.cons_ne_nil _ _, fun c hc => ?_⟩ hturns
  rcases List.mem_cons.mp hc with rfl | hc
  · exact ⟨g, hg, (hsound hg).nonempty⟩
  · rw [hframes] at hc
    exact absurd hc List.not_mem_nil

/-- Every outcome of a call of sound code, with as many arguments as the function has parameters, is
    regular. -/
theorem call_regular (hsound : ctx.image.Sound) {store : Store}
    (hst : ctx.image.Shapes store.statics) {function : Nat} {g : LinkedFunction}
    (hg : ctx.image.functions[function]? = some g) {args : List Scalar}
    (hargs : args.length = g.params) {o : Outcome} (h : (call ctx store function args).Ends o) :
    o.Regular ctx.image := by
  cases over_of_ends h with
  | missing hg' =>
      rw [hg] at hg'
      cases hg'
  | arity hg' hargs' =>
      rw [hg] at hg'
      cases hg'
      exact absurd hargs hargs'
  | refused _ _ hp henter =>
      exact ((after_enter _ hg).error henter).regular ((placed_start hst).pushScalars hp).1 _
  | closed _ hm hc => exact (hm.wellFormed hsound hst hg).closes hsound hc

/-- **Verified code never goes wrong.** A module that the verifier accepts links against every host
    that has its imports. Whatever the static fields, the heap and the pending events are, whatever
    its host functions answer and whichever pauses are established, a call of one of its functions
    with as many arguments as it takes reaches well-formed machines only. Where one of them closes,
    and so wherever the call ends, it is with a value or with an exception of a dynamic fault: no
    operand refers to nothing, no body is run past its end, and no import is unbound. -/
theorem verified_never_goes_wrong {natives : NativeTable ν} {m : Module} (hv : m.verify = .ok ())
    (hn : ∀ name ∈ m.natives, natives.contains name = true) :
    ∃ image, Image.link natives m = .ok image ∧
      ∀ (maxDepth : Nat) (store : Store), image.Shapes store.statics →
      ∀ (function : Nat) (f : Function), m.functions[function]? = some f →
      ∀ args : List Scalar, args.length = f.paramCount.toNat →
        (∀ machine, Reached ⟨image, maxDepth⟩ store function args machine →
          WellFormed ⟨image, maxDepth⟩ machine ∧
          ∀ o, Closes ⟨image, maxDepth⟩ machine o → o.Regular image) ∧
        ∀ o, (call ⟨image, maxDepth⟩ store function args).Ends o → o.Regular image := by
  obtain ⟨image, hl⟩ := Image.exists_link_of_verify hv hn
  refine ⟨image, hl, fun maxDepth store hst function f hf args hargs => ?_⟩
  have hsound : image.Sound := Image.sound_of_verify hv hl
  obtain ⟨g, hg⟩ := Image.exists_functions_of_link hl (List.getElem?_eq_some_iff.mp hf).1
  -- the linked function takes what the function declares
  obtain ⟨f', hf', hlink⟩ := Image.linkFunction_of_link hl hg
  rw [hf] at hf'
  cases hf'
  obtain ⟨_, _, -, -, hparams⟩ := Image.linkFunction_eq_ok hlink
  have hargs' : args.length = g.params := by rw [hargs, hparams]
  refine ⟨fun machine h => ?_, fun o h => call_regular hsound hst hg hargs' h⟩
  have hwf : WellFormed ⟨image, maxDepth⟩ machine := h.wellFormed hsound hst hg
  exact ⟨hwf, fun o hc => hwf.closes hsound hc⟩

/-- A module whose code hands a text to its host and returns the answer. -/
def greeting : Module where
  flags := Module.hasNatives
  name := "greeting"
  strings := ["hello"]
  functions := [⟨"main", 0, 0,
    Instruction.encodeBody [.pushString 0, .callNative 0 1, .simple .ret]⟩]
  classes := [⟨"Log", [⟨"last", .null⟩], []⟩]
  natives := ["echo"]
  entry := 0

/-- The greeting never goes wrong: it returns a value, or its host fails or the depth is too small
    for it. -/
theorem greeting_never_goes_wrong :
    ∃ image, Image.link (⟨[("echo", ())]⟩ : NativeTable Unit) greeting = .ok image ∧
      ∀ o, (call ⟨image, 8⟩
        { heap := .empty 1, statics := #[#[.null]], scheduler := .empty 0 } 0 []).Ends o →
        o.Regular image := by
  obtain ⟨image, hl, h⟩ := verified_never_goes_wrong
    (show greeting.verify = .ok () by decide)
    (show ∀ name ∈ greeting.natives,
      (⟨[("echo", ())]⟩ : NativeTable Unit).contains name = true by decide)
  refine ⟨image, hl, (h 8 _ ?_ 0 _ rfl [] rfl).2⟩
  unfold Image.Shapes
  rw [(Image.link_eq_ok hl).1]
  rfl

end Machine

end EmbeddedVm
