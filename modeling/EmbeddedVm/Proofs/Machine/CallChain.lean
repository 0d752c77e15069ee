import EmbeddedVm.Proofs.Machine.Isolation

/-!
# Traces are chains of calls

The trace of an exception is read off the frames alone, and a frame does not say who called it. That
the names in it follow one another as the calls did is an invariant of the run: every function
active but the innermost stands just past a call of the one above it (`CallChain`). A turn that
stays in its function moves the innermost frame only, of which the chain asks nothing but its
function; a turn that calls leaves its caller just past the call; and a turn that returns takes the
innermost link away, behind which the chain still reaches down to the function the host invoked.
-/

namespace EmbeddedVm

variable {ν : Type}

/-! ## 1. Chains -/

/-- The frame stopped just past a call of `callee`. -/
def Frame.Behind (image : Image ν) (f : Frame) (callee : Nat) : Prop :=
  ∃ g ip s index, image.functions[f.function]? = some g ∧ f.ip = ip + 1 ∧ g.code[ip]? = some s ∧
    s.instruction = .call index ∧ index.toNat = callee

/-- **A chain of calls** that begins with `invoked`: frames with the names of their functions, the
    innermost first, each of which but the first stopped just past the call of the one above. -/
inductive CallChain (image : Image ν) (invoked : Nat) : List Frame → List String → Prop where
  /-- The function the host invoked. -/
  | outermost {f : Frame} {g : LinkedFunction} (hf : f.function = invoked)
      (hg : image.functions[f.function]? = some g) : CallChain image invoked [f] [g.name]
  /-- A function that the innermost one called. -/
  | called {f caller : Frame} {rest : List Frame} {g : LinkedFunction} {names : List String}
      (hg : image.functions[f.function]? = some g) (hcaller : caller.Behind image f.function)
      (hrest : CallChain image invoked (caller :: rest) names) :
    CallChain image invoked (f :: caller :: rest) (g.name :: names)

namespace CallChain

variable {image : Image ν} {invoked : Nat} {f : Frame} {frames rest : List Frame}
  {names : List String}

/-- Where the innermost function stands is of no matter. -/
theorem moved (h : CallChain image invoked (f :: rest) names) (ip : Nat) :
    CallChain image invoked ({ f with ip } :: rest) names := by
  cases h with
  | outermost hf hg => exact .outermost hf hg
  | called hg hcaller hrest => exact .called hg hcaller hrest

/-- Without the innermost call it is still a chain. -/
theorem returned (h : CallChain image invoked (f :: rest) names) (hr : rest ≠ []) :
    ∃ names', CallChain image invoked rest names' := by
  cases h with
  | outermost hf hg => exact absurd rfl hr
  | called hg hcaller hrest => exact ⟨_, hrest⟩

theorem length_eq (h : CallChain image invoked frames names) : names.length = frames.length := by
  induction h with
  | outermost hf hg => rfl
  | called hg hcaller hrest ih => rw [List.length_cons, List.length_cons, ih]

theorem head? (h : CallChain image invoked (f :: rest) names) {g : LinkedFunction}
    (hg : image.functions[f.function]? = some g) : names.head? = some g.name := by
  cases h with
  | outermost hf hg' | called hg' hcaller hrest =>
      rw [hg] at hg'
      cases hg'
      rfl

/-- **The chain reaches down to the function the host invoked.** -/
theorem getLast? (h : CallChain image invoked frames names) :
    ∃ g, image.functions[invoked]? = some g ∧ names.getLast? = some g.name := by
  induction h with
  | outermost hf hg =>
      rw [hf] at hg
      exact ⟨_, hg, rfl⟩
  | called hg hcaller hrest ih =>
      obtain ⟨g, hg', hlast⟩ := ih
      exact ⟨g, hg', by rw [List.getLast?_cons, hlast]; rfl⟩

/-- The names are those that a trace reads off the frames. -/
theorem map_name (h : CallChain image invoked frames names) :
    (frames.map fun f => ((image.functions[f.function]?).map (·.name)).getD "") = names := by
  induction h with
  | outermost hf hg =>
      rw [List.map_singleton, hg]
      rfl
  | called hg hcaller hrest ih =>
      rw [List.map_cons, ih, hg]
      rfl

end CallChain

namespace Machine

variable {ctx : Context ν} {m m' : Machine}

/-! ## 2. Calls -/

/-- **What a call comes to.** -/
theorem run_step_call {f : Frame} {rest : List Frame} (hf : m.frames = f :: rest)
    {g : LinkedFunction} (hg : ctx.image.functions[f.function]? = some g) {s : Step}
    (hs : g.code[f.ip]? = some s) {callee : UInt32} (hi : s.instruction = .call callee)
    {g' : LinkedFunction} (hg' : ctx.image.functions[callee.toNat]? = some g') :
    (step ctx).run m =
      if ctx.maxDepth ≤ m.frames.length then
        .error (m.exception ctx (.stackOverflow ctx.maxDepth)) m.fetched
      else if m.stack.size < f.floor + g'.params then
        .error (m.exception ctx .underflowInCall) m.fetched
      else .ok .next (m.fetched.entered callee.toNat g') := by
  have hlength : m.fetched.frames.length = m.frames.length := by
    rw [fetched_eq hf, hf]
    rfl
  have hfloor : m.fetched.floor = f.floor := by rw [fetched_eq hf]; rfl
  have hstack : m.fetched.stack = m.stack := by rw [fetched_eq hf]
  rw [run_step hf hg hs]
  unfold execute
  rw [hi]
  dsimp only
  rw [EStateM.run_bind, run_enter _ hg', exception_fetched, exception_fetched, hlength, hfloor,
    hstack]
  by_cases hdepth : ctx.maxDepth ≤ m.frames.length
  · rw [if_pos hdepth, if_pos hdepth]
  · rw [if_neg hdepth, if_neg hdepth]
    by_cases hfew : m.stack.size < f.floor + g'.params
    · rw [if_pos hfew, if_pos hfew]
    · rw [if_neg hfew, if_neg hfew]
      rfl

/-! ## 3. Every machine a call reaches -/

/-- **A turn of sound code keeps a chain of calls.** -/
theorem WellFormed.callChain_turn (hsound : ctx.image.Sound) (hm : WellFormed ctx m)
    {invoked : Nat} {names : List String} (h : CallChain ctx.image invoked m.frames names)
    (ht : Turn ctx m m') : ∃ names', CallChain ctx.image invoked m'.frames names' := by
  obtain ⟨f, rest, g, s, hf, hg, hs, hmoves⟩ := hm.turn_moves hsound ht
  rw [hf] at h
  rcases hmoves with ⟨ip, hframes⟩ | ⟨callee, g', hi, hg', -, rfl⟩ | ⟨v, -, hr, hframes, -⟩
  · rw [hframes]
    exact ⟨names, h.moved ip⟩
  · -- the caller has been fetched, so it stands just past its call
    have hcaller : Frame.Behind ctx.image { f with ip := f.ip + 1 } callee.toNat :=
      ⟨g, f.ip, s, callee, hg, rfl, hs, hi, rfl⟩
    rw [fetched_eq hf]
    exact ⟨g'.name :: names, .called hg' hcaller (h.moved (f.ip + 1))⟩
  · rw [hframes]
    exact h.returned hr

/-- Pushing the arguments of a call puts one value each on the stack. -/
theorem pushScalars_ends : ∀ {args : List Scalar} {m m' : Machine},
    (m.pushScalars args : Run ν Machine).Ends m' →
      m'.frames = m.frames ∧ m'.stack.size = m.stack.size + args.length
  | [], m, m', h => by
      rw [Run.ends_done.mp h]
      exact ⟨rfl, rfl⟩
  | v :: rest, m, m', h => by
      obtain ⟨m₁, hv, h⟩ := Run.ends_bind.mp h
      obtain ⟨heap, w, rfl⟩ := pushScalar_ends hv
      obtain ⟨hframes, hsize⟩ := pushScalars_ends h
      refine ⟨hframes, ?_⟩
      rw [hsize, Array.size_push, List.length_cons]
      omega

/-- **The frames of every machine a call reaches are a chain of calls**, and the trace has its
    names. -/
theorem Reached.callChain (hsound : ctx.image.Sound) {store : Store}
    (hst : ctx.image.Shapes store.statics) {function : Nat} {args : List Scalar}
    (h : Reached ctx store function args m) :
    CallChain ctx.image function m.frames (m.trace ctx) := by
  obtain ⟨g, hg⟩ := h.exists_function
  obtain ⟨m₀, m₁, hp, henter, hturns⟩ := h
  obtain ⟨hframes, -⟩ := pushScalars_ends hp
  have hwf : ∀ {m}, Turns ctx m₁ m → WellFormed ctx m := fun ht =>
    Reached.wellFormed hsound hst hg ⟨m₀, m₁, hp, henter, ht⟩
  have hchain : ∃ names, CallChain ctx.image function m.frames names := by
    induction hturns with
    | refl =>
        obtain ⟨rfl, -, -⟩ := (after_enter m₀ hg).ok henter
        show ∃ names, CallChain ctx.image function (_ :: m₀.frames) names
        rw [hframes]
        exact ⟨[g.name], .outermost rfl hg⟩
    | tail hturns ht ih =>
        obtain ⟨names, hnames⟩ := ih
        exact (hwf hturns).callChain_turn hsound hnames ht
  obtain ⟨names, hnames⟩ := hchain
  have htrace : m.trace ctx = names := hnames.map_name
  rw [htrace]
  exact hnames

/-- With its arguments there, and where one function may be active, the host enters a function. -/
theorem enters_of_pushScalars (hdepth : 1 ≤ ctx.maxDepth) {store : Store} {function : Nat}
    {g : LinkedFunction} (hg : ctx.image.functions[function]? = some g) {args : List Scalar}
    (hargs : args.length = g.params)
    (hp : (pushScalars { store } args : Run ν Machine).Ends m) :
    (enter ctx function).run m = .ok () (m.entered function g) := by
  obtain ⟨hframes, hsize⟩ := pushScalars_ends hp
  have hnone : m.frames.length = 0 := by rw [hframes]; rfl
  have hfloor : m.floor = 0 := by unfold floor; rw [hframes]
  have hsize' : m.stack.size = args.length := by rw [hsize]; exact Nat.zero_add _
  have hfits : ¬ args.length < 0 + args.length := by omega
  rw [run_enter m hg, hnone, hfloor, hsize', ← hargs, if_neg (Nat.not_le.mpr hdepth),
    if_neg hfits]

/-- **A call that ends with an exception has reached the machine that closes with it**: the host is
    not refused. -/
theorem Over.exists_reached (hdepth : 1 ≤ ctx.maxDepth) {store : Store} {function : Nat}
    {args : List Scalar} {o : Outcome} (h : Over ctx store function args o) {fault : Fault}
    {trace : List String} (ho : o.result = .error (.exception fault trace)) :
    ∃ m, Reached ctx store function args m ∧ Closes ctx m o := by
  cases h with
  | missing _ | arity _ _ => cases ho
  | refused hg hargs hp henter =>
      rw [enters_of_pushScalars hdepth hg hargs hp] at henter
      cases henter
  | closed _ hm hc => exact ⟨_, hm, hc⟩

/-- **An exception carries the trace of the machine that closes with it.** -/
theorem WellFormed.trace_of_closes (hsound : ctx.image.Sound) (hm : WellFormed ctx m) {o : Outcome}
    (hc : Closes ctx m o) {fault : Fault} {trace : List String}
    (ho : o.result = .error (.exception fault trace)) : trace = m.trace ctx := by
  obtain ⟨f, rest, g, s, hf, hg, hs, hfetched, hafter⟩ := hm.step hsound
  have same {m₁ : Machine} (ip : Nat) (h : m₁.frames = { f with ip } :: rest) :
      m₁.trace ctx = m.trace ctx := by
    unfold Machine.trace
    rw [h, hf]
    rfl
  cases hc with
  | raised hstep =>
      obtain ⟨hchanges, fault', -, rfl⟩ := hafter.error hstep
      cases ho
      exact same _ (hchanges.frames_eq.1.trans hfetched)
  | refused hstep message =>
      obtain ⟨m₁, hchanges, hstepped⟩ := hafter.ok hstep
      cases hstepped with
      | onward ht he =>
          cases ho
          exact same _ (hchanges.frames_eq.1.trans hfetched)
  | finished hstep => cases ho

/-- **Traces are chains of calls.** Let a module be verified and linked, let at least one function
    be allowed to be active, and let one be called by the host, whatever the host answers.

    If the call ends with an exception, then a machine it reaches closes with it, and the trace has
    the names of the functions active there: it is not empty and no longer than allowed, its last
    name is that of the function called, its first name is that of the function whose instruction
    raised the exception, and of any two names that follow one another the second is of a function
    that stopped just past its call of the first.

    And wherever a machine that is reached is about to call a function, this overflows if as many
    functions are active as allowed, with a trace of that many names; if fewer are, the function is
    entered, unless there are fewer operands than it takes. -/
theorem traces_are_call_chains {natives : NativeTable ν} {module : Module}
    (hv : module.verify = .ok ()) {image : Image ν} (hl : Image.link natives module = .ok image)
    {maxDepth : Nat} (hdepth : 1 ≤ maxDepth) {store : Store} (hst : image.Shapes store.statics)
    (function : Nat) (args : List Scalar) :
    (∀ o fault trace, (call ⟨image, maxDepth⟩ store function args).Ends o →
      o.result = .error (.exception fault trace) →
      ∃ machine, Reached ⟨image, maxDepth⟩ store function args machine ∧
        Closes ⟨image, maxDepth⟩ machine o ∧ trace ≠ [] ∧ trace.length ≤ maxDepth ∧
        (∃ invoked, module.functions[function]? = some invoked ∧
          trace.getLast? = some invoked.name) ∧
        (∃ f rest g s, machine.frames = f :: rest ∧ image.functions[f.function]? = some g ∧
          g.code[f.ip]? = some s ∧ trace.head? = some g.name) ∧
        CallChain image function machine.frames trace) ∧
    ∀ machine, Reached ⟨image, maxDepth⟩ store function args machine →
      ∀ f rest g s callee, machine.frames = f :: rest → image.functions[f.function]? = some g →
        g.code[f.ip]? = some s → s.instruction = .call callee →
        (machine.frames.length = maxDepth → (machine.trace ⟨image, maxDepth⟩).length = maxDepth ∧
          (step ⟨image, maxDepth⟩).run machine = .error
            (.exception (.stackOverflow maxDepth) (machine.trace ⟨image, maxDepth⟩))
            machine.fetched) ∧
        (machine.frames.length ≠ maxDepth → machine.frames.length < maxDepth ∧
          ∃ g', image.functions[callee.toNat]? = some g' ∧
            (step ⟨image, maxDepth⟩).run machine =
              if machine.stack.size < f.floor + g'.params then
                .error (machine.exception ⟨image, maxDepth⟩ .underflowInCall) machine.fetched
              else .ok .next (machine.fetched.entered callee.toNat g')) := by
  have hsound : image.Sound := Image.sound_of_verify hv hl
  refine ⟨fun o fault trace h ho => ?_, fun machine hreached f rest g s callee hf hg hs hi => ?_⟩
  · obtain ⟨machine, hreached, hcloses⟩ := (over_of_ends h).exists_reached hdepth ho
    obtain ⟨g₀, hg₀⟩ := hreached.exists_function
    have hwf : WellFormed ⟨image, maxDepth⟩ machine := hreached.wellFormed hsound hst hg₀
    have hchain : CallChain image function machine.frames (machine.trace ⟨image, maxDepth⟩) :=
      hreached.callChain hsound hst
    rw [← hwf.trace_of_closes hsound hcloses ho] at hchain
    obtain ⟨f, rest, g, s, hf, hg, hs, -, -⟩ := hwf.step hsound
    obtain ⟨g₁, hg₁, hlast⟩ := hchain.getLast?
    obtain ⟨invoked, hinvoked, hlink⟩ := Image.linkFunction_of_link hl hg₁
    obtain ⟨body, steps, -, -, rfl⟩ := Image.linkFunction_eq_ok hlink
    refine ⟨machine, hreached, hcloses, ?_, ?_, ⟨invoked, hinvoked, hlast⟩,
      ⟨f, rest, g, s, hf, hg, hs, ?_⟩, hchain⟩
    · rintro rfl
      cases hlast
    · rw [hchain.length_eq]
      exact hwf.placed.depth
    · rw [hf] at hchain
      exact hchain.head? hg
  · obtain ⟨g₀, hg₀⟩ := hreached.exists_function
    have hwf : WellFormed ⟨image, maxDepth⟩ machine := hreached.wellFormed hsound hst hg₀
    have hrefers := (hsound hg).refers hs
    unfold Step.Refers at hrefers
    rw [hi] at hrefers
    obtain ⟨g', hg'⟩ := hrefers
    rw [run_step_call hf hg hs hi hg']
    refine ⟨fun hfull => ⟨?_, ?_⟩, fun hroom => ?_⟩
    · unfold Machine.trace
      rw [List.length_map, hfull]
    · rw [if_pos (Nat.le_of_eq hfull.symm)]
      rfl
    · have hlt : machine.frames.length < maxDepth :=
        Nat.lt_of_le_of_ne hwf.placed.depth hroom
      exact ⟨hlt, g', hg', if_neg (Nat.not_le.mpr hlt)⟩

/-- A module whose two functions call each other without end. -/
def endless : Module where
  flags := 0
  name := "endless"
  strings := []
  functions := [⟨"ping", 0, 0, Instruction.encodeBody [.call 1, .simple .ret]⟩,
    ⟨"pong", 0, 0, Instruction.encodeBody [.call 0, .simple .ret]⟩]
  classes := []
  natives := []
  entry := 0

/-- Its functions, linked. -/
def endlessFunctions : List LinkedFunction :=
  [⟨"ping", 0, 0, #[⟨.call 1, 0⟩, ⟨.simple .ret, 0⟩]⟩,
    ⟨"pong", 0, 0, #[⟨.call 0, 0⟩, ⟨.simple .ret, 0⟩]⟩]

/-- The module, linked. -/
def endlessImage : Image Unit :=
  ⟨endless, endlessFunctions.toArray, {}, Image.usesOf endlessFunctions⟩

theorem link_endless : Image.link (⟨[]⟩ : NativeTable Unit) endless = .ok endlessImage := by
  rfl

/-- Where three functions may be active, the third call overflows. -/
theorem call_endless (store : Store) :
    (call ⟨endlessImage, 3⟩ store 0 []).Ends
      ⟨.error (.exception (.stackOverflow 3) ["ping", "pong", "ping"]), store⟩ :=
  .done _

/-- The names in the trace of the overflow are those of the functions active, as they called each
    other. -/
theorem traces_are_call_chains_endless :
    ∃ machine, Reached ⟨endlessImage, 3⟩ { heap := .empty 1, scheduler := .empty 0 } 0 [] machine ∧
      CallChain endlessImage 0 machine.frames ["ping", "pong", "ping"] := by
  have hshapes :
      endlessImage.Shapes ({ heap := .empty 1, scheduler := .empty 0 } : Store).statics := rfl
  obtain ⟨machine, hreached, -, -, -, -, -, hchain⟩ :=
    (traces_are_call_chains (by decide +kernel) link_endless (by decide : 1 ≤ 3) hshapes 0 []).1
      _ _ _ (call_endless _) rfl
  exact ⟨machine, hreached, hchain⟩

end Machine

end EmbeddedVm
