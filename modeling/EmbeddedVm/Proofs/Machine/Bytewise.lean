import EmbeddedVm.Proofs.Host.Endings
import EmbeddedVm.Proofs.Machine.Linking
import EmbeddedVm.Proofs.Machine.Relocation

/-!
# Linked code runs like the byte code

What the bytes of a module mean is said by an interpreter that knows nothing of linking
(`stepBytes`): its functions stand at byte offsets, it decodes the instruction at the offset, and it
jumps so many bytes from the next instruction. Linking replaces offsets by indices. That is a
relocation (`offsets`), and the two interpreters go in step: one step of linked code, relocated, is
one step of the byte code from the relocated machine (`followsAt_stepBytes`). So whole calls are the
same runs, with the same questions to their host and the same end.
-/

namespace EmbeddedVm

variable {ν : Type}

/-! ## 1. Running the byte code -/

namespace Machine

open Instruction (fetch? decodeBody start)

/-- How far a jump leads from the next instruction; of no meaning for other instructions. -/
def destination (i : Instruction) (next : Nat) : Nat :=
  match i with
  | .jump _ relative => (next + relative.toInt).toNat
  | _ => 0

/-- **One instruction of the byte code**: the functions of the machine stand at byte offsets. -/
def stepBytes (ctx : Context ν) : Exec (Effect ν) := do
  let m ← get
  match m.frames with
  | [] => return .finish .null
  | f :: rest =>
    match ctx.image.module.functions[f.function]?.bind fun g => fetch? g.code f.ip with
    | none => raise ctx .fellOffEnd
    | some (i, next) =>
      set { m with frames := { f with ip := next } :: rest }
      execute ctx ⟨i, destination i next⟩

/-- Takes steps of some kind until the call is over. -/
def runWith (ctx : Context ν) (step : Exec (Effect ν)) : (fuel : Nat) → Machine → Run ν Outcome
  | 0, _ => .exhausted
  | fuel + 1, m =>
    match step.run m with
    | .error e m => .done ⟨.error e, m.store⟩
    | .ok .next m => runWith ctx step fuel m
    | .ok (.allocate text) m => (m.pushScalar (.string text)).bind (runWith ctx step fuel)
    | .ok (.invoke handler name args) m =>
      .invoke handler args fun
        | .ok v => (m.pushScalar v).bind (runWith ctx step fuel)
        | .error message => .done ⟨.error (m.exception ctx (.nativeFailed name message)), m.store⟩
    | .ok (.finish v) m => .done ⟨.ok v, m.store⟩

/-- Calls a function by index and takes steps of some kind. -/
def callWith (ctx : Context ν) (step : Exec (Effect ν)) (store : Store) (function : Nat)
    (args : List Scalar) : Run ν Outcome :=
  match ctx.image.functions[function]? with
  | none => .done ⟨.error (.functionNotFound s!"#{function}"), store⟩
  | some f =>
    if args.length = f.params then
      (pushScalars { store } args).bind fun m =>
        match (enter ctx function).run m with
        | .ok _ m => runWith ctx step stepLimit m
        | .error e m => .done ⟨.error e, m.store⟩
    else .done ⟨.error (.arityMismatch f.name f.params args.length), store⟩

variable {ctx : Context ν}

/-- Linked code runs by steps of linked code. -/
theorem runWith_step (fuel : Nat) (m : Machine) :
    runWith ctx (step ctx) fuel m = run ctx fuel m := by
  induction fuel generalizing m with
  | zero => rfl
  | succ fuel ih =>
      have hrun : runWith ctx (step ctx) fuel = run ctx fuel := funext ih
      unfold runWith run
      rw [hrun]
      cases (step ctx).run m with
      | error e m' => rfl
      | ok effect m' =>
          cases effect with
          | next | invoke | finish => rfl
          | allocate text =>
              dsimp only
              cases m'.pushScalar (ν := ν) (.string text) <;> rfl

/-- **A call of linked code** is a call by such steps. -/
theorem callWith_step (store : Store) (function : Nat) (args : List Scalar) :
    callWith ctx (step ctx) store function args = call ctx store function args := by
  have hrun : runWith ctx (step ctx) = run ctx :=
    funext fun fuel => funext fun m => runWith_step fuel m
  unfold callWith call
  generalize runWith ctx (step ctx) = looped at hrun ⊢
  subst hrun
  rfl

/-! ## 2. Runs in step -/

/-- A scalar is pushed in step. -/
theorem pushScalar_relocate {ρ : Relocation} {k k' : Machine → Run ν Outcome}
    (hk : ∀ m : Machine, k' (m.relocate ρ) = k m) (m : Machine) (v : Scalar) :
    ((m.relocate ρ).pushScalar v).bind k' = (m.pushScalar v).bind k := by
  cases v with
  | null => exact hk { m with stack := m.stack.push .null }
  | bool b => exact hk { m with stack := m.stack.push (.bool b) }
  | int n => exact hk { m with stack := m.stack.push (.int n) }
  | float x => exact hk { m with stack := m.stack.push (.float x) }
  | string text =>
      unfold pushScalar
      dsimp only
      rw [relocate_store]
      split
      · show Run.pause _ = Run.pause _
        congr 1
        funext answer
        cases answer with
        | none => exact hk (m.collect.pushText text)
        | some unresponsive => exact hk (m.pushText text)
      · exact hk (m.pushText text)

/-- **Steps that do the same make the same runs.** -/
theorem runWith_relocate {ρ : Relocation} {x y : Exec (Effect ν)} (h : ∀ m, FollowsAt ρ m x y)
    (fuel : Nat) (m : Machine) :
    runWith ctx y fuel (m.relocate ρ) = runWith ctx x fuel m := by
  induction fuel generalizing m with
  | zero => rfl
  | succ fuel ih =>
      have hm := h m
      unfold FollowsAt at hm
      unfold runWith
      rw [hm]
      cases x.run m with
      | error e m' => rfl
      | ok effect m' =>
          cases effect with
          | next => exact ih m'
          | allocate text => exact pushScalar_relocate ih m' _
          | finish v => rfl
          | invoke handler name args =>
              show Run.invoke handler args _ = Run.invoke handler args _
              congr 1
              funext answer
              cases answer with
              | ok v => exact pushScalar_relocate ih m' v
              | error message =>
                  dsimp only
                  rw [relocate_exception]
                  rfl

theorem pushScalars_relocate {ρ : Relocation} {k k' : Machine → Run ν Outcome}
    (hk : ∀ m : Machine, k' (m.relocate ρ) = k m) (m : Machine) (args : List Scalar) :
    ((m.relocate ρ).pushScalars args).bind k' = (m.pushScalars args).bind k := by
  induction args generalizing m with
  | nil => exact hk m
  | cons v rest ih =>
      unfold pushScalars
      rw [Run.bind_assoc, Run.bind_assoc]
      exact pushScalar_relocate ih m v

/-- **Steps that do the same make the same calls**: before a function is entered, none is active,
    and a function that is entered stands at its first place. -/
theorem callWith_relocate {ρ : Relocation} {x y : Exec (Effect ν)} (h : ∀ m, FollowsAt ρ m x y)
    (store : Store) (function : Nat) (args : List Scalar) :
    callWith ctx y store function args = callWith ctx x store function args := by
  have hentered (m : Machine) :
      (match (enter ctx function).run (m.relocate ρ) with
        | .ok _ m => runWith ctx y stepLimit m
        | .error e m => .done ⟨.error e, m.store⟩) =
      (match (enter ctx function).run m with
        | .ok _ m => runWith ctx x stepLimit m
        | .error e m => .done ⟨.error e, m.store⟩) := by
    have henter : (enter ctx function).run (m.relocate ρ) =
        relocateEnd ρ ((enter ctx function).run m) := blind_enter function ρ m
    rw [henter]
    cases (enter ctx function).run m with
    | ok u m' => exact runWith_relocate h stepLimit m'
    | error e m' => rfl
  unfold callWith
  split
  · rfl
  · split
    · exact pushScalars_relocate hentered { store } args
    · rfl

/-! ## 3. Linked code and byte code in step -/

/-- **Linking moves the places in functions** from indices to byte offsets. -/
def offsets (m : Module) : Relocation where
  place function ip :=
    match (m.functions[function]?).map fun f => (f.code, decodeBody f.code) with
    | some (code, .ok body) => start code body ip
    | _ => 0
  first function := by
    split
    · rename_i code body h
      obtain ⟨f, -, hf⟩ := Option.map_eq_some_iff.mp h
      obtain ⟨rfl, hbody⟩ := Prod.mk.inj hf
      exact (Instruction.laid_of_decodeBody hbody).start_zero
    · rfl

theorem offsets_place {m : Module} {function : Nat} {f : Function}
    {body : List (Nat × Instruction)} (hf : m.functions[function]? = some f)
    (hbody : decodeBody f.code = .ok body) (ip : Nat) :
    (offsets m).place function ip = start f.code body ip := by
  unfold offsets
  dsimp only
  rw [hf, Option.map_some, hbody]

/-- Only jumps look at the target of a step. -/
theorem execute_target {i : Instruction} (h : ∀ kind relative, i ≠ .jump kind relative)
    (target target' : Nat) : execute ctx ⟨i, target⟩ = execute ctx ⟨i, target'⟩ := by
  cases i with
  | jump kind relative => exact absurd rfl (h kind relative)
  | _ => rfl

/-- Popping leaves the frames alone. -/
theorem frames_pop {m m' : Machine} {v : Value} (h : (pop ctx).run m = .ok v m') :
    m'.frames = m.frames := by
  change (if m.stack.size ≤ m.floor then raise ctx .stackUnderflow else _ : Exec Value).run m = _
    at h
  split at h
  · cases h
  · split at h
    · cases h
      rfl
    · cases h

theorem truth_ends {op : Opcode} {v : Value} {m m' : Machine} {b : Bool}
    (h : (truth ctx op v).run m = .ok b m') : m' = m := by
  unfold truth at h
  split at h
  · cases h
    rfl
  · cases h
    rfl
  · cases h

/-- Whether a jump is taken is found out without touching the frames. -/
theorem frames_taken {kind : Jump} {m m' : Machine} {b : Bool}
    (h : (taken ctx kind).run m = .ok b m') : m'.frames = m.frames := by
  unfold taken at h
  cases kind with
  | always =>
      cases h
      rfl
  | ifFalse =>
      dsimp only at h
      rw [EStateM.run_bind] at h
      split at h
      · rename_i v m₁ hpop
        rw [EStateM.run_bind] at h
        split at h
        · rename_i b' m₂ htruth
          cases h
          rw [truth_ends htruth, frames_pop hpop]
        · cases h
      · cases h
  | ifTrue =>
      dsimp only at h
      rw [EStateM.run_bind] at h
      split at h
      · rename_i v m₁ hpop
        rw [truth_ends h, frames_pop hpop]
      · cases h

/-- A jump to an index, relocated, is a jump to its offset. -/
theorem followsAt_jump {ρ : Relocation} {m : Machine} {f : Frame} {rest : List Frame}
    (h : m.frames = f :: rest) (kind : Jump) (relative : Int32) (target : Nat) :
    FollowsAt ρ m (execute ctx ⟨.jump kind relative, target⟩)
      (execute ctx ⟨.jump kind relative, ρ.place f.function target⟩) := by
  unfold execute
  refine (blind_taken kind ρ m).bind fun b m' htaken => ?_
  have hframes : m'.frames = f :: rest := (frames_taken htaken).trans h
  cases b with
  | false => exact blind_pure _ ρ m'
  | true => exact (followsAt_goto hframes target).bind fun _ m'' _ => blind_pure _ ρ m''

/-- An instruction of linked code, relocated, is the instruction of the byte code. -/
theorem followsAt_execute {g : LinkedFunction} {f : Function} {body : List (Nat × Instruction)}
    (hg : g.Renders f body) {ρ : Relocation} {machine : Machine} {frame : Frame}
    {rest : List Frame} (hframes : machine.frames = frame :: rest)
    (hplace : ∀ ip, ρ.place frame.function ip = start f.code body ip) {ip : Nat}
    {p : Nat × Instruction} (hp : body[ip]? = some p) {s : Step} (hs : g.code[ip]? = some s) :
    FollowsAt ρ machine (execute ctx s)
      (execute ctx ⟨p.2, destination p.2 (p.1 + p.2.size)⟩) := by
  obtain ⟨offset, i⟩ := p
  have hi : s.instruction = i := by
    have hmap := congrArg (·[ip]?) hg.instructions
    simp only [List.getElem?_map, hp, Array.getElem?_toList, hs, Option.map_some] at hmap
    exact Option.some.inj hmap
  by_cases hjump : ∃ kind relative, i = .jump kind relative
  · obtain ⟨kind, relative, rfl⟩ := hjump
    obtain ⟨target, htarget, hunique⟩ := hg.jumps hp
    rw [hs] at htarget
    cases htarget
    obtain ⟨q, hq, hstart⟩ := Option.map_eq_some_iff.mp ((hunique target).mpr rfl)
    have hsize : (Instruction.jump kind relative).size = 5 := rfl
    have hdestination : destination (.jump kind relative) (offset + 5) =
        ρ.place frame.function target := by
      rw [hplace, Instruction.start_eq hq]
      unfold destination
      dsimp only
      omega
    rw [hsize, hdestination]
    exact followsAt_jump hframes kind relative target
  · have hstraight : ∀ kind relative, s.instruction ≠ .jump kind relative :=
      fun kind relative hs => hjump ⟨kind, relative, hi ▸ hs⟩
    obtain ⟨instruction, target⟩ := s
    cases hi
    show FollowsAt ρ machine (execute ctx ⟨instruction, target⟩) (execute ctx ⟨instruction, _⟩)
    rw [execute_target hstraight (destination instruction _) target]
    exact blind_execute hstraight ρ machine

/-- **At an index, linked code has the instruction that the byte code has at the offset**, and the
    next index is that of the next offset. -/
theorem fetched_alike {natives : NativeTable ν} {m : Module} {image : Image ν}
    (hl : Image.link natives m = .ok image) (function ip : Nat) :
    (image.functions[function]?.bind (·.code[ip]?) = none ∧
      m.functions[function]?.bind (fun f => fetch? f.code ((offsets m).place function ip)) = none) ∨
    ∃ (g : LinkedFunction) (f : Function) (body : List (Nat × Instruction)) (s : Step)
      (p : Nat × Instruction), g.Renders f body ∧
      (∀ ip, (offsets m).place function ip = start f.code body ip) ∧
      body[ip]? = some p ∧ g.code[ip]? = some s ∧
      image.functions[function]?.bind (·.code[ip]?) = some s ∧
      m.functions[function]?.bind (fun f => fetch? f.code ((offsets m).place function ip)) =
        some (p.2, (offsets m).place function (ip + 1)) ∧
      (offsets m).place function (ip + 1) = p.1 + p.2.size := by
  cases hg : image.functions[function]? with
  | none =>
      rw [(Image.functions_eq_none hl).mp hg]
      exact .inl ⟨rfl, rfl⟩
  | some g =>
      obtain ⟨f, body, hf, hrenders⟩ := Image.renders_of_link hl hg
      have hplace := offsets_place hf hrenders.decoded
      have hlength : g.code.toList.length = body.length := by
        have hmap := congrArg List.length hrenders.instructions
        rwa [List.length_map, List.length_map] at hmap
      rw [hf, Option.bind_some, Option.bind_some, hplace, hplace]
      cases hp : body[ip]? with
      | none =>
          -- behind the last instruction there is nothing in either code
          have hle : body.length ≤ ip := List.getElem?_eq_none_iff.mp hp
          rw [Instruction.start_of_le hle, Instruction.fetch?_length]
          refine .inl ⟨?_, rfl⟩
          rw [← Array.getElem?_toList, List.getElem?_eq_none_iff, hlength]
          exact hle
      | some p =>
          obtain ⟨hfetch, hnext⟩ := (Instruction.laid_of_decodeBody hrenders.decoded).fetch hp
          have hlt : ip < g.code.size := by
            rw [← Array.length_toList, hlength]
            exact (List.getElem?_eq_some_iff.mp hp).1
          have hs : g.code[ip]? = some g.code[ip] := Array.getElem?_eq_getElem hlt
          refine .inr ⟨g, f, body, g.code[ip], p, hrenders, hplace, hp, hs, hs, ?_, hnext⟩
          rw [Instruction.start_eq hp, hfetch, hnext]

/-- **One step of linked code is one step of the byte code**, from the machine whose functions stand
    at the offsets of the indices. -/
theorem followsAt_stepBytes {natives : NativeTable ν}
    (hl : Image.link natives ctx.image.module = .ok ctx.image) (machine : Machine) :
    FollowsAt (offsets ctx.image.module) machine (step ctx) (stepBytes ctx) := by
  unfold step stepBytes
  refine .get ?_
  rw [relocate_frames]
  cases hframes : machine.frames with
  | nil => exact blind_pure _ _ machine
  | cons frame rest =>
      rw [List.map_cons]
      dsimp only [relocateFrame]
      rcases fetched_alike hl frame.function frame.ip with
        ⟨hlinked, hbytes⟩ | ⟨g, f, body, s, p, hrenders, hplace, hp, hs, hlinked, hbytes, hnext⟩
      · rw [hlinked, hbytes]
        exact blind_raise _ _ machine
      · rw [hlinked, hbytes]
        have hframes' : ({ machine with frames := { frame with ip := frame.ip + 1 } :: rest } :
            Machine).frames = { frame with ip := frame.ip + 1 } :: rest := rfl
        refine .set (u := { machine with frames := { frame with ip := frame.ip + 1 } :: rest }) ?_
        rw [hnext]
        exact followsAt_execute hrenders hframes' hplace hp hs

/-- **A call of linked code is the same call of the byte code.** -/
theorem callWith_stepBytes {natives : NativeTable ν}
    (hl : Image.link natives ctx.image.module = .ok ctx.image) (store : Store) (function : Nat)
    (args : List Scalar) :
    callWith ctx (stepBytes ctx) store function args = call ctx store function args := by
  rw [callWith_relocate (followsAt_stepBytes hl), callWith_step]

/-! ## 4. Main statement -/

/-- **Linked code refines the byte code.** A verified module fails to link only for the first of its
    imports that the host does not have. Otherwise its functions are linked one by one, each to its
    decoded instructions in order, with every jump led to the one instruction that starts where the
    operand says; functions, classes and methods are found by name exactly where they are declared.
    And linked code and byte code go in step: on any machine a step of the one is a step of the
    other, with indices read as byte offsets, and any call of the one is the same run as the call of
    the other, whatever its host answers. -/
theorem linked_code_refines_bytes {m : Module} (hv : m.verify = .ok ()) (natives : NativeTable ν) :
    (∀ e, Image.link natives m = .error e ↔
      ∃ name, m.natives.find? (fun n => !natives.contains n) = some name ∧
        e = .unresolvedNative name) ∧
    ∀ image : Image ν, Image.link natives m = .ok image →
      image.module = m ∧ image.functions.size = m.functions.length ∧
      (∀ (i : Nat) (f : Function), m.functions[i]? = some f →
        ∃ (g : LinkedFunction) (body : List (Nat × Instruction)),
          image.functions[i]? = some g ∧ g.Renders f body) ∧
      (∀ (name : String) (i : Nat), image.functionIndex? name = some i ↔
        ∃ f, m.functions[i]? = some f ∧ f.name = name) ∧
      (∀ (name : String) (i : Nat) (c : Class),
        image.class? name = some (i, c) ↔ m.classes[i]? = some c ∧ c.name = name) ∧
      (∀ c ∈ m.classes, ∀ name function,
        c.method? name = some function ↔ ⟨name, function⟩ ∈ c.methods) ∧
      ∀ depth,
        (∀ machine : Machine, (stepBytes ⟨image, depth⟩).run (machine.relocate (offsets m)) =
          relocateEnd (offsets m) ((step ⟨image, depth⟩).run machine)) ∧
        ∀ store function args,
          callWith ⟨image, depth⟩ (stepBytes ⟨image, depth⟩) store function args =
            call ⟨image, depth⟩ store function args := by
  refine ⟨fun e => Image.link_eq_error hv, fun image hl => ?_⟩
  have hnamed := Module.wellNamed_of_verify hv
  obtain ⟨hm, -, hfunctions⟩ := Image.link_eq_ok hl
  have hsize := Checks.length_of_mapM hfunctions
  rw [Array.length_toList] at hsize
  subst hm
  refine ⟨rfl, hsize, ?_, ?_, ?_, ?_, ?_⟩
  · intro i f hf
    exact Image.exists_renders_of_link hl hf
  · intro name i
    exact Module.functionIndex?_eq_some hnamed
  · intro name i c
    exact Image.class?_eq_some_iff hnamed
  · intro c hc name function
    exact Module.method?_eq_some (hnamed.members c hc)
  · intro depth
    let ctx : Context ν := ⟨image, depth⟩
    have hlinked : Image.link natives ctx.image.module = .ok ctx.image := hl
    exact ⟨followsAt_stepBytes hlinked, callWith_stepBytes hlinked⟩

/-- A module that counts down from three, with a jump out of its loop and one back. -/
def countdown : Module where
  flags := 0
  name := "countdown"
  strings := []
  functions := [⟨"main", 0, 1, Instruction.encodeBody
    [.pushInt 3, .storeLocal 0, .loadLocal 0, .pushInt 0, .simple (.compare .gt),
      .jump .ifFalse 17, .loadLocal 0, .pushInt 1, .simple (.int .sub), .storeLocal 0,
      .jump .always (-31), .loadLocal 0, .simple .ret]⟩]
  classes := []
  natives := []
  entry := 0

/-- The jump back leads to the third instruction, and the count runs alike in both codes. -/
theorem countdown_runs_alike :
    countdown.verify = .ok () ∧ ∃ image : Image Unit, Image.link {} countdown = .ok image ∧
      (∃ g, image.functions[0]? = some g ∧ g.code[10]? = some ⟨.jump .always (-31), 2⟩) ∧
      ∀ store, callWith ⟨image, 8⟩ (stepBytes ⟨image, 8⟩) store 0 [] =
        call ⟨image, 8⟩ store 0 [] := by
  have hv : countdown.verify = .ok () := by decide +kernel
  obtain ⟨hfails, hlinks⟩ := linked_code_refines_bytes hv ({} : NativeTable Unit)
  cases hl : Image.link ({} : NativeTable Unit) countdown with
  | error e =>
      obtain ⟨name, hname, -⟩ := (hfails e).mp hl
      cases hname
  | ok image =>
      obtain ⟨-, -, hrenders, -, -, -, hruns⟩ := hlinks image hl
      obtain ⟨g, body, hg, hbody⟩ := hrenders 0 _ rfl
      have hdecoded : (decodeBody countdown.functions.head!.code).toOption.map
          (fun body => (body[10]?, body[2]?.map (·.1))) =
            some (some (34, .jump .always (-31)), some 8) := by decide +kernel
      have hbody' : decodeBody countdown.functions.head!.code = .ok body := hbody.decoded
      rw [hbody'] at hdecoded
      obtain ⟨hback, hloop⟩ := Prod.mk.inj (Option.some.inj hdecoded)
      obtain ⟨target, htarget, hunique⟩ := hbody.jumps hback
      obtain ⟨p, hp, hoffset⟩ := Option.map_eq_some_iff.mp hloop
      have hthird : 2 = target := by
        refine (hunique 2).mp ?_
        rw [hp, Option.map_some, hoffset]
        decide
      subst hthird
      exact ⟨hv, image, rfl, ⟨g, hg, htarget⟩, fun store => (hruns 8).2 store 0 []⟩

end Machine

end EmbeddedVm
