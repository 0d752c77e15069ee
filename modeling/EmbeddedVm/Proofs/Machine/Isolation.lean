import EmbeddedVm.Proofs.Machine.Operands

/-!
# Calls are isolated

A function that is called takes its parameters off the operands of its caller and leaves one value in
their place. In between its frame stands above the frames that were there before (`Inside`), which no
turn touches, and everything below its locals stays as it is; with the turn that leaves it the stack
is cut where its locals began. What the functions do in between that it calls itself, and whether
they return before it or are left by an exception, makes no difference.
-/

namespace EmbeddedVm.Machine

variable {ν : Type} {ctx : Context ν} {m m' : Machine}

/-! ## 1. How a turn moves between functions -/

/-- The innermost function is about to return a value: the topmost one of its operands, or null. -/
def Returning (ctx : Context ν) (m : Machine) (v : Value) : Prop :=
  ∃ f rest g s, m.frames = f :: rest ∧ ctx.image.functions[f.function]? = some g ∧
    g.code[f.ip]? = some s ∧
    (s.instruction = .simple .ret ∧ m.floor < m.stack.size ∧ m.stack.back? = some v ∨
      s.instruction = .simple .retVoid ∧ v = .null)

/-- **Where an instruction leads**, fetched in `m`. -/
inductive Moves (ctx : Context ν) (s : Step) (m : Machine) : Effect ν → Machine → Prop where
  /-- It stays in its function. -/
  | within {effect : Effect ν} {m' : Machine} {f : Frame} {rest : List Frame} (ip : Nat)
      (hf : m.frames = f :: rest) (hf' : m'.frames = { f with ip } :: rest) :
    Moves ctx s m effect m'
  /-- It calls another one. -/
  | called {callee : UInt32} {g : LinkedFunction} (hi : s.instruction = .call callee)
      (hg : ctx.image.functions[callee.toNat]? = some g) (hr : m.floor + g.params ≤ m.stack.size) :
    Moves ctx s m .next (m.entered callee.toNat g)
  /-- It returns to its caller. -/
  | returned {v : Value} {f : Frame} {rest : List Frame}
      (hv : s.instruction = .simple .ret ∧ m.floor < m.stack.size ∧ m.stack.back? = some v ∨
        s.instruction = .simple .retVoid ∧ v = .null)
      (hf : m.frames = f :: rest) (hr : rest ≠ []) :
    Moves ctx s m .next { m with stack := (m.stack.shrink f.base).push v, frames := rest }
  /-- It ends the outermost function. -/
  | finished {m' : Machine} (result : Scalar) : Moves ctx s m (.finish result) m'

/-- Leaving a function, from a stack that is cut where its locals began. -/
theorem moves_leave {s : Step} {v : Value}
    (hv : s.instruction = .simple .ret ∧ m.floor < m.stack.size ∧ m.stack.back? = some v ∨
      s.instruction = .simple .retVoid ∧ v = .null)
    {f : Frame} {rest : List Frame} (hf : m.frames = f :: rest) {stack : Array Value}
    (hstack : stack.shrink f.base = m.stack.shrink f.base) :
    After (leave v) { m with stack } (Moves ctx s m) (fun _ _ => True) := by
  unfold leave
  rw [after_get]
  dsimp only
  rw [hf]
  dsimp only
  rw [after_set, hstack]
  cases rest with
  | nil => exact .finished _
  | cons c rest => exact .returned hv hf (List.cons_ne_nil c rest)

/-- What is cut off below the topmost operand is cut off with it. -/
theorem shrink_pop {stack : Array Value} {n : Nat} (h : n < stack.size) :
    stack.pop.shrink n = stack.shrink n := by
  refine Array.ext_getElem? fun i => ?_
  rw [getElem?_shrink, getElem?_shrink, Array.getElem?_pop]
  split
  · rw [if_pos (by omega)]
  · rfl

theorem Placed.base_le_floor (hm : Placed ctx m) : m.base ≤ m.floor := by
  have hclear : Clear #[] m := hm.clear (Nat.zero_le _)
  exact hclear.floor

theorem moves_execute (hm : Placed ctx m) {f : Frame} {rest : List Frame}
    (hf : m.frames = f :: rest) {g : LinkedFunction}
    (hg : ctx.image.functions[f.function]? = some g) {s : Step} (hs : s.Refers ctx.image g) :
    After (execute ctx s) m (Moves ctx s m) (fun _ _ => True) := by
  have straight (hst : Straight s.instruction) :
      After (execute ctx s) m (Moves ctx s m) (fun _ _ => True) :=
    (after_straight hm hf hg hs hst).mono
      (fun effect m' ⟨_, hc⟩ => .within f.ip hf (hc.frames_eq.1.trans hf)) fun _ _ _ => trivial
  cases hi : s.instruction with
  | jump kind offset =>
      unfold execute
      rw [hi]
      dsimp only
      rw [after_bind]
      refine (acts_taken kind m hm).mono (fun b m₁ h => ?_) fun _ _ _ => trivial
      have hf₁ : m₁.frames = f :: rest := h.2.frames_eq.1.trans hf
      cases b with
      | true =>
          refine .within s.target hf ?_
          show (m₁.movedTo s.target).frames = _
          rw [movedTo_eq hf₁]
      | false => exact .within f.ip hf hf₁
  | call callee =>
      unfold Step.Refers at hs
      rw [hi] at hs
      obtain ⟨h, hh⟩ := hs
      unfold execute
      rw [hi]
      dsimp only
      rw [after_bind]
      refine (after_enter m hh).mono (fun _ m₁ hentered => ?_) fun _ _ _ => trivial
      obtain ⟨rfl, -, hroom⟩ := hentered
      exact .called hi hh hroom
  | simple op =>
      cases op with
      | ret =>
          unfold execute
          rw [hi]
          dsimp only [simple]
          rw [after_bind]
          unfold After
          by_cases hleft : m.floor < m.stack.size
          · obtain ⟨v, hv, hpop⟩ := run_pop_of_lt ctx hleft
            rw [hpop]
            refine moves_leave (.inl ⟨hi, hleft, hv⟩) hf (shrink_pop ?_)
            have hle := hm.base_le_floor
            have hbase : m.base = f.base := by unfold base; rw [hf]
            omega
          · rw [run_pop_of_le (Nat.not_lt.mp hleft)]
            trivial
      | retVoid =>
          unfold execute
          rw [hi]
          exact moves_leave (.inr ⟨hi, rfl⟩) hf rfl
      | _ => exact straight (by rw [hi]; trivial)
  | _ => exact straight (by rw [hi]; trivial)

/-- **Where a turn leads.** It stays in its function, calls another one or returns a value to its
    caller. -/
theorem WellFormed.turn_moves (hsound : ctx.image.Sound) (h : WellFormed ctx m)
    (ht : Turn ctx m m') :
    ∃ f rest g s, m.frames = f :: rest ∧ ctx.image.functions[f.function]? = some g ∧
      g.code[f.ip]? = some s ∧
      ((∃ ip, m'.frames = { f with ip } :: rest) ∨
        (∃ callee g', s.instruction = .call callee ∧
          ctx.image.functions[callee.toNat]? = some g' ∧ f.floor + g'.params ≤ m.stack.size ∧
          m' = m.fetched.entered callee.toNat g') ∨
        ∃ v, Returning ctx m v ∧ rest ≠ [] ∧ m'.frames = rest ∧
          m'.stack = (m.stack.shrink f.base).push v) := by
  obtain ⟨f, rest, g, s, hf, hg, hs, hfetched, -⟩ := h.step hsound
  have hmoves := moves_execute h.placed.fetched hfetched hg ((hsound hg).refers hs)
  have hstack : m.fetched.stack = m.stack := by rw [fetched_eq hf]
  have hfloor : m.fetched.floor = f.floor := by rw [fetched_eq hf]; rfl
  have hfloor' : m.floor = f.floor := by unfold floor; rw [hf]
  refine ⟨f, rest, g, s, hf, hg, hs, ?_⟩
  unfold After at hmoves
  rw [← run_step hf hg hs] at hmoves
  cases ht with
  | next hstep =>
      rw [hstep] at hmoves
      cases hmoves with
      | within ip hf₁ hf' =>
          rw [hfetched] at hf₁
          cases hf₁
          exact .inl ⟨ip, hf'⟩
      | called hi hg' hr =>
          rw [hfloor, hstack] at hr
          exact .inr (.inl ⟨_, _, hi, hg', hr, rfl⟩)
      | returned hv hf₁ hr =>
          rw [hfetched] at hf₁
          cases hf₁
          rw [hfloor, hstack, ← hfloor'] at hv
          refine .inr (.inr ⟨_, ⟨f, rest, g, s, hf, hg, hs, hv⟩, hr, rfl, ?_⟩)
          rw [hstack]
  | allocate hstep hp | invoke hstep answer hp =>
      rw [hstep] at hmoves
      obtain ⟨heap, w, rfl⟩ := pushScalar_ends hp
      cases hmoves with
      | within ip hf₁ hf' =>
          rw [hfetched] at hf₁
          cases hf₁
          exact .inl ⟨ip, hf'⟩

/-- **A turn changes nothing below the locals of its function.** -/
theorem WellFormed.turn_below (h : WellFormed ctx m) (ht : Turn ctx m m') {i : Nat}
    (hi : i < m.base) : m'.stack[i]? = m.stack[i]? := by
  have hsize : i < m.stack.size :=
    Nat.lt_of_lt_of_le hi (Nat.le_trans h.placed.base_le_floor h.placed.floor_le)
  cases ht with
  | next hstep => exact step_below h.placed hstep hi
  | allocate hstep hp | invoke hstep answer hp =>
      have hbelow := step_below h.placed hstep hi
      obtain ⟨heap, w, rfl⟩ := pushScalar_ends hp
      rw [Array.getElem?_eq_getElem hsize] at hbelow
      have hsize' := (Array.getElem?_eq_some_iff.mp hbelow).1
      show (Array.push _ w)[i]? = _
      rw [Array.getElem?_push, if_neg (by omega), hbelow, Array.getElem?_eq_getElem hsize]

/-! ## 2. Inside a call -/

/-- **Within a call**: turns behind each of which more functions are active than this. -/
def Within (ctx : Context ν) (depth : Nat) : Machine → Machine → Prop :=
  Relation.ReflTransGen fun a b => Turn ctx a b ∧ depth < b.frames.length

/-- **A call that returns**: a turn from `before` enters a function, turns follow in which this
    function or one that it calls is active, and the turn from `last` leaves it again. -/
structure Returns (ctx : Context ν) (before last after : Machine) : Prop where
  enters : ∃ inside, Turn ctx before inside ∧ before.frames.length < inside.frames.length ∧
    Within ctx before.frames.length inside last
  leaves : Turn ctx last after
  back : after.frames.length ≤ before.frames.length

/-- **What holds of a machine inside a call** of `callee`, whose locals begin at `bottom`, above
    these frames and this stack. -/
structure Inside (callee bottom : Nat) (frames : List Frame) (stack : Array Value) (m : Machine) :
    Prop where
  frames : ∃ inner outer, m.frames = inner ++ outer :: frames ∧ outer.function = callee ∧
    outer.base = bottom
  stack : ∀ i < bottom, m.stack[i]? = stack[i]?

/-- The frames lie one above the other. -/
theorem Stacked.base_le {image : Image ν} {outer : Frame} {frames : List Frame} :
    ∀ (inner : List Frame) {c : Frame} {cs : List Frame} {top : Nat}, Stacked image top (c :: cs) →
      c :: cs = inner ++ outer :: frames → outer.base ≤ c.base
  | [], c, cs, top, h, hf => by
      cases hf
      exact Nat.le_refl _
  | [c], _, cs, top, h, hf => by
      cases hf
      obtain ⟨-, -, ⟨g, -, hsum⟩, hle, -⟩ := h
      omega
  | c :: d :: inner, _, cs, top, h, hf => by
      cases hf
      obtain ⟨-, -, hrest⟩ := h
      have hlow := Stacked.base_le (d :: inner) hrest rfl
      obtain ⟨⟨g, -, hsum⟩, hle, -⟩ := hrest
      omega

/-- A function that is entered stands above those that were active. -/
theorem frames_entered (m : Machine) (function : Nat) (g : LinkedFunction) :
    ∃ c, (m.entered function g).frames = c :: m.frames := ⟨_, rfl⟩

variable {callee bottom : Nat} {frames : List Frame} {stack : Array Value}

/-- The innermost function has its locals above those of the function called. -/
theorem Inside.bottom_le (h : Inside callee bottom frames stack m) (hm : Placed ctx m) :
    bottom ≤ m.base := by
  obtain ⟨inner, outer, hf, -, rfl⟩ := h.frames
  have hs := hm.frames
  unfold base
  cases hc : m.frames with
  | nil => simp [hc] at hf
  | cons c cs =>
      rw [hc] at hs hf
      exact hs.base_le inner hf

/-- **A turn inside a call stays inside**, unless it leaves the function called. -/
theorem Inside.turn (hsound : ctx.image.Sound) (hm : WellFormed ctx m)
    (h : Inside callee bottom frames stack m) (ht : Turn ctx m m')
    (hdepth : frames.length < m'.frames.length) : Inside callee bottom frames stack m' := by
  have hbottom := h.bottom_le hm.placed
  have hstack : ∀ i < bottom, m'.stack[i]? = stack[i]? := fun i hi =>
    (hm.turn_below ht (Nat.lt_of_lt_of_le hi hbottom)).trans (h.stack i hi)
  obtain ⟨inner, outer, hf, hfunction, hbase⟩ := h.frames
  obtain ⟨f, rest, g, s, hf', -, -, hmoves⟩ := hm.turn_moves hsound ht
  -- the innermost frame is that of the function called, or stands above it
  have hmoved (ip : Nat) : ∃ inner outer, { f with ip } :: rest = inner ++ outer :: frames ∧
      outer.function = callee ∧ outer.base = bottom := by
    rw [hf'] at hf
    cases inner with
    | nil =>
        cases hf
        exact ⟨[], _, rfl, hfunction, hbase⟩
    | cons c inner =>
        cases hf
        exact ⟨{ f with ip } :: inner, outer, rfl, hfunction, hbase⟩
  refine ⟨?_, hstack⟩
  rcases hmoves with ⟨ip, hframes⟩ | ⟨callee', g', -, -, -, rfl⟩ | ⟨v, -, -, hframes, -⟩
  · rw [hframes]
    exact hmoved ip
  · obtain ⟨inner', outer', hf₁, hfunction', hbase'⟩ := hmoved (f.ip + 1)
    obtain ⟨c, hc⟩ := m.fetched.frames_entered callee'.toNat g'
    rw [hc, fetched_eq hf']
    dsimp only
    rw [hf₁]
    exact ⟨c :: inner', outer', rfl, hfunction', hbase'⟩
  · rw [hframes] at hdepth ⊢
    rw [hf'] at hf
    cases inner with
    | nil =>
        cases hf
        exact absurd hdepth (Nat.lt_irrefl _)
    | cons c inner =>
        cases hf
        exact ⟨inner, outer, rfl, hfunction, hbase⟩

/-- **However many turns a call takes**, they stay inside. -/
theorem Inside.within (hsound : ctx.image.Sound) (hm : WellFormed ctx m)
    (h : Inside callee bottom frames stack m) (hw : Within ctx frames.length m m') :
    WellFormed ctx m' ∧ Inside callee bottom frames stack m' := by
  induction hw with
  | refl => exact ⟨hm, h⟩
  | tail _ ht ih =>
      obtain ⟨hturn, hdepth⟩ := ht
      exact ⟨ih.1.turn hsound hturn, ih.2.turn hsound ih.1 hturn hdepth⟩

/-- A function that has been entered is inside its call. -/
theorem inside_entered {f : Frame} {rest : List Frame} (hf : m.frames = f :: rest) (callee : Nat)
    (g : LinkedFunction) :
    Inside callee (m.stack.size - g.params) ({ f with ip := f.ip + 1 } :: rest) m.stack
      (m.fetched.entered callee g) := by
  rw [fetched_eq hf]
  refine ⟨⟨[], _, rfl, rfl, rfl⟩, fun i hi => ?_⟩
  unfold entered
  dsimp only
  rw [Array.getElem?_append, if_pos (by rw [Array.size_shrink]; omega), getElem?_shrink,
    if_pos (by omega)]

/-! ## 3. Calls -/

/-- **The turn that leaves the function called** puts the value returned in the place of all that
    has come onto the stack since. -/
theorem Inside.left (hsound : ctx.image.Sound) (hm : WellFormed ctx m)
    (h : Inside callee bottom frames stack m) (ht : Turn ctx m m')
    (hatop : m'.frames.length ≤ frames.length) (hbottom : bottom ≤ stack.size) :
    ∃ v, Returning ctx m v ∧ m'.frames = frames ∧
      m'.stack.toList = stack.toList.take bottom ++ [v] := by
  have hle := h.bottom_le hm.placed
  have hsame := h.stack
  obtain ⟨inner, outer, hf, -, rfl⟩ := h.frames
  obtain ⟨f, rest, g, s, hf', -, -, hmoves⟩ := hm.turn_moves hsound ht
  rw [hf'] at hf
  have hlength := congrArg List.length hf
  simp only [List.length_cons, List.length_append] at hlength
  rcases hmoves with ⟨ip, hframes⟩ | ⟨callee', g', -, -, -, rfl⟩ | ⟨v, hv, -, hframes, hstack⟩
  · rw [hframes, List.length_cons] at hatop
    omega
  · obtain ⟨c, hc⟩ := m.fetched.frames_entered callee'.toNat g'
    rw [hc, fetched_eq hf', List.length_cons, List.length_cons] at hatop
    omega
  · rw [hframes] at hatop
    have hinner : inner = [] := List.eq_nil_of_length_eq_zero (by omega)
    subst hinner
    cases hf
    refine ⟨v, hv, hframes, ?_⟩
    rw [hstack, Array.toList_push, Array.toList_shrink]
    congr 1
    refine List.ext_getElem? fun i => ?_
    rw [List.getElem?_take, List.getElem?_take, Array.getElem?_toList, Array.getElem?_toList]
    split
    · rename_i hi
      exact hsame i hi
    · rfl

/-- **A call that returns**, from where it is made. -/
theorem Returns.isolated (hsound : ctx.image.Sound) {before last after : Machine}
    (hm : WellFormed ctx before) (h : Returns ctx before last after) {f : Frame} {rest : List Frame}
    (hf : before.frames = f :: rest) {g : LinkedFunction}
    (hg : ctx.image.functions[f.function]? = some g) {s : Step} (hs : g.code[f.ip]? = some s)
    {callee : UInt32} (hi : s.instruction = .call callee) :
    ∃ g', ctx.image.functions[callee.toNat]? = some g' ∧ f.floor + g'.params ≤ before.stack.size ∧
      ∃ v, Returning ctx last v ∧ after.frames = { f with ip := f.ip + 1 } :: rest ∧
        after.stack.toList =
          before.stack.toList.take (before.stack.size - g'.params) ++ [v] := by
  obtain ⟨inside, hturn, hdepth, hwithin⟩ := h.enters
  have hwf := hm.turn hsound hturn
  obtain ⟨f', rest', g₁, s', hf', hg', hs', hmoves⟩ := hm.turn_moves hsound hturn
  rw [hf] at hf'
  cases hf'
  rw [hg] at hg'
  cases hg'
  rw [hs] at hs'
  cases hs'
  rw [hf, List.length_cons] at hdepth
  rcases hmoves with ⟨ip, hframes⟩ | ⟨callee', g', hi', hg', hroom, rfl⟩ | ⟨v, -, -, hframes, -⟩
  · rw [hframes, List.length_cons] at hdepth
    exact absurd hdepth (Nat.lt_irrefl _)
  · rw [hi] at hi'
    cases hi'
    have hinside := inside_entered hf callee.toNat g'
    have hlength : ({ f with ip := f.ip + 1 } :: rest).length = before.frames.length := by
      rw [hf]
      rfl
    rw [← hlength] at hwithin
    obtain ⟨hwf', hinside'⟩ := hinside.within hsound hwf hwithin
    obtain ⟨v, hv, hframes, hstack⟩ := hinside'.left hsound hwf' h.leaves
      (by rw [hlength]; exact h.back) (Nat.sub_le _ _)
    exact ⟨g', hg', hroom, v, hv, hframes, hstack⟩
  · rw [hframes] at hdepth
    omega

/-- A function that has been entered exists. -/
theorem exists_function_of_enter {function : Nat} (h : (enter ctx function).run m = .ok () m') :
    ∃ g, ctx.image.functions[function]? = some g := by
  cases hg : ctx.image.functions[function]? with
  | some g => exact ⟨g, rfl⟩
  | none =>
      unfold enter at h
      rw [EStateM.run_bind, EStateM.run_get] at h
      dsimp only at h
      rw [hg] at h
      split at h
      · cases h
      · cases h

theorem Reached.exists_function {store : Store} {function : Nat} {args : List Scalar}
    (h : Reached ctx store function args m) :
    ∃ g, ctx.image.functions[function]? = some g := by
  obtain ⟨m₀, m₁, -, henter, -⟩ := h
  exact exists_function_of_enter henter

/-- **Calls are isolated.** Let a module be verified and linked, and let a call of one of its
    functions reach a machine, whatever the host answers.

    If it is about to call a function, and this call returns, the value that was to be returned lies
    in the place of the parameters of the function, which were operands of the caller; below them the
    stack is as it was, and so are the frames, but that the caller stands behind its call.

    Whatever instruction it is about to carry out, what lies below the locals of its function is
    neither read, for with other values there it ends in the same way and leaves them alone, nor
    written by it or by what comes with it, the allocation of a string or a call of the host. And if
    the instruction wants more operands than the function has left, it fails with an underflow, if no
    other exception comes first. -/
theorem calls_isolated {natives : NativeTable ν} {module : Module} (hv : module.verify = .ok ())
    {image : Image ν} (hl : Image.link natives module = .ok image) {maxDepth : Nat} {store : Store}
    (hst : image.Shapes store.statics) {function : Nat} {args : List Scalar} {machine : Machine}
    (hreached : Reached ⟨image, maxDepth⟩ store function args machine) :
    ∃ f rest g s, machine.frames = f :: rest ∧ image.functions[f.function]? = some g ∧
      g.code[f.ip]? = some s ∧
      (∀ callee, s.instruction = .call callee →
        ∃ called, module.functions[callee.toNat]? = some called ∧
          ∀ last after, Returns ⟨image, maxDepth⟩ machine last after →
            f.floor + called.paramCount.toNat ≤ machine.stack.size ∧
            ∃ v, Returning ⟨image, maxDepth⟩ last v ∧
              after.frames = { f with ip := f.ip + 1 } :: rest ∧
              after.stack.toList =
                machine.stack.toList.take (machine.stack.size - called.paramCount.toNat) ++ [v]) ∧
      (∀ below : Array Value, below.size = f.base →
        (step ⟨image, maxDepth⟩).run (machine.atop below) =
          atopEnd below ((step ⟨image, maxDepth⟩).run machine)) ∧
      (∀ next, Turn ⟨image, maxDepth⟩ machine next →
        ∀ i < f.base, next.stack[i]? = machine.stack[i]?) ∧
      (machine.stack.size < f.floor + s.instruction.pops image →
        After (step ⟨image, maxDepth⟩) machine (fun _ _ => False) fun e _ =>
          Short ⟨image, maxDepth⟩ machine e ∨ (∃ callee, s.instruction = .call callee) ∧
            (e = machine.exception ⟨image, maxDepth⟩ .underflowInCall ∨
              maxDepth ≤ machine.frames.length ∧
                e = machine.exception ⟨image, maxDepth⟩ (.stackOverflow maxDepth))) := by
  have hsound : image.Sound := Image.sound_of_verify hv hl
  obtain ⟨g₀, hg₀⟩ := hreached.exists_function
  have hwf : WellFormed ⟨image, maxDepth⟩ machine := hreached.wellFormed hsound hst hg₀
  obtain ⟨f, rest, g, s, hf, hg, hs, -, -⟩ := hwf.step hsound
  have hbase : machine.base = f.base := by unfold base; rw [hf]
  refine ⟨f, rest, g, s, hf, hg, hs, ?_, ?_, ?_, ?_⟩
  · intro callee hi
    have hrefers := (hsound hg).refers hs
    unfold Step.Refers at hrefers
    rw [hi] at hrefers
    obtain ⟨g', hg'⟩ := hrefers
    obtain ⟨called, hcalled, hlink⟩ := Image.linkFunction_of_link hl hg'
    obtain ⟨body, steps, -, -, hlinked⟩ := Image.linkFunction_eq_ok hlink
    have hparams : g'.params = called.paramCount.toNat := by rw [hlinked]
    refine ⟨called, hcalled, fun last after hreturns => ?_⟩
    obtain ⟨g'', hg'', hroom, v, hreturning, hframes, hstack⟩ :=
      hreturns.isolated hsound hwf hf hg hs hi
    rw [hg'] at hg''
    cases hg''
    rw [← hparams]
    exact ⟨hroom, v, hreturning, hframes, hstack⟩
  · intro below hsize
    exact step_atop hwf.placed (Nat.le_of_eq (hsize.trans hbase.symm))
  · intro next hturn i hi
    exact hwf.turn_below hturn (by rw [hbase]; exact hi)
  · exact short_of_pops hsound hwf.placed hf hg hs

/-- A module with a function that hands its only parameter back. -/
def handingBack : Module where
  flags := 0
  name := "handing back"
  strings := []
  functions := [⟨"main", 0, 0, Instruction.encodeBody [.pushInt 5, .call 1, .simple .ret]⟩,
    ⟨"same", 1, 1, Instruction.encodeBody [.loadLocal 0, .simple .ret]⟩]
  classes := []
  natives := []
  entry := 0

/-- Its functions, linked. -/
def handingBackFunctions : List LinkedFunction :=
  [⟨"main", 0, 0, #[⟨.pushInt 5, 0⟩, ⟨.call 1, 0⟩, ⟨.simple .ret, 0⟩]⟩,
    ⟨"same", 1, 1, #[⟨.loadLocal 0, 0⟩, ⟨.simple .ret, 0⟩]⟩]

/-- The module, linked. -/
def handingBackImage : Image Unit :=
  ⟨handingBack, handingBackFunctions.toArray, {}, Image.usesOf handingBackFunctions⟩

theorem link_handingBack :
    Image.link (⟨[]⟩ : NativeTable Unit) handingBack = .ok handingBackImage := by
  rfl

/-- The machine with these operands, in front of the call and behind it. -/
def handingBackAt (ip : Nat) (stack : Array Value) : Machine where
  store := { heap := .empty 1, scheduler := .empty 0 }
  stack := stack
  frames := [⟨0, ip, 0, 0⟩]

theorem reached_handingBack :
    Reached ⟨handingBackImage, 8⟩ (handingBackAt 0 #[]).store 0 [] (handingBackAt 1 #[.int 5]) := by
  refine ⟨{ store := (handingBackAt 0 #[]).store }, handingBackAt 0 #[], .done _, rfl, ?_⟩
  exact Relation.ReflTransGen.single (.next rfl)

/-- The call takes the operand, copies it as its local and returns the copy. -/
theorem returns_handingBack :
    Returns ⟨handingBackImage, 8⟩ (handingBackAt 1 #[.int 5])
      { handingBackAt 1 #[.int 5, .int 5] with frames := [⟨1, 1, 0, 1⟩, ⟨0, 2, 0, 0⟩] }
      (handingBackAt 2 #[.int 5]) := by
  refine ⟨⟨{ handingBackAt 1 #[.int 5] with frames := [⟨1, 0, 0, 1⟩, ⟨0, 2, 0, 0⟩] }, .next rfl,
    by decide, Relation.ReflTransGen.single ⟨.next rfl, by decide⟩⟩, .next rfl, by decide⟩

/-- The value handed back is in the place of the operand. -/
theorem calls_isolated_handingBack :
    ∃ v, Returning ⟨handingBackImage, 8⟩
        { handingBackAt 1 #[.int 5, .int 5] with frames := [⟨1, 1, 0, 1⟩, ⟨0, 2, 0, 0⟩] } v ∧
      (handingBackAt 2 #[.int 5]).stack.toList = [] ++ [v] := by
  have hshapes : handingBackImage.Shapes (handingBackAt 0 #[]).store.statics := rfl
  obtain ⟨f, rest, g, s, hf, hg, hs, hcall, -⟩ :=
    calls_isolated (by decide +kernel) link_handingBack hshapes reached_handingBack
  cases hf
  cases hg
  cases hs
  obtain ⟨called, hcalled, hreturns⟩ := hcall 1 rfl
  cases hcalled
  obtain ⟨-, v, hv, -, hstack⟩ := hreturns _ _ returns_handingBack
  exact ⟨v, hv, hstack⟩

end EmbeddedVm.Machine
