import EmbeddedVm.Proofs.Host.Endings
import EmbeddedVm.Machine.Call
import Mathlib.Logic.Relation

/-!
# The turns of a run

`run` is a loop; here are its turns as a relation between machines. A `Turn` takes one step and does
what is left to do, with whatever the host answers; a machine `Closes` with an outcome when the step
taken there is the last. Every outcome of a run is that of a machine it reaches by turns
(`run_ends`), so what the turns keep holds all along; and a call that does not come to a run ends in
one of three other ways (`over_of_ends`).
-/

namespace EmbeddedVm.Machine

variable {ν : Type}

/-- One turn of the loop, for some answers of the host. -/
inductive Turn (ctx : Context ν) (m : Machine) : Machine → Prop where
  /-- The step is all there is to do. -/
  | next {m' : Machine} (h : (step ctx).run m = .ok .next m') : Turn ctx m m'
  /-- The step leaves a string to allocate. -/
  | allocate {m' m'' : Machine} {text : String} (h : (step ctx).run m = .ok (.allocate text) m')
      (hp : (m'.pushScalar (.string text) : Run ν Machine).Ends m'') : Turn ctx m m''
  /-- The step leaves a host function to call, which returns. -/
  | invoke {m' m'' : Machine} {handler : ν} {name : String} {args : List Scalar}
      (h : (step ctx).run m = .ok (.invoke handler name args) m') (answer : Scalar)
      (hp : (m'.pushScalar answer : Run ν Machine).Ends m'') : Turn ctx m m''

/-- The last turn of the loop, for some answers of the host. -/
inductive Closes (ctx : Context ν) (m : Machine) : Outcome → Prop where
  /-- The step fails. -/
  | raised {e : VmError} {m' : Machine} (h : (step ctx).run m = .error e m') :
    Closes ctx m ⟨.error e, m'.store⟩
  /-- The step leaves a host function to call, which fails. -/
  | refused {m' : Machine} {handler : ν} {name : String} {args : List Scalar}
      (h : (step ctx).run m = .ok (.invoke handler name args) m') (message : String) :
    Closes ctx m ⟨.error (m'.exception ctx (.nativeFailed name message)), m'.store⟩
  /-- The outermost function returns. -/
  | finished {v : Scalar} {m' : Machine} (h : (step ctx).run m = .ok (.finish v) m') :
    Closes ctx m ⟨.ok v, m'.store⟩

/-- Any number of turns. -/
def Turns (ctx : Context ν) : Machine → Machine → Prop := Relation.ReflTransGen (Turn ctx)

/-- **The machines a call reaches**: it pushes its arguments, enters the function and takes turns,
    whatever its host answers. -/
def Reached (ctx : Context ν) (store : Store) (function : Nat) (args : List Scalar)
    (m : Machine) : Prop :=
  ∃ m₀ m₁, (pushScalars { store } args : Run ν Machine).Ends m₀ ∧
    (enter ctx function).run m₀ = .ok () m₁ ∧ Turns ctx m₁ m

/-- The loop, unrolled once. -/
theorem run_succ (ctx : Context ν) (fuel : Nat) (m : Machine) :
    run ctx (fuel + 1) m =
      match (step ctx).run m with
      | .error e m => .done ⟨.error e, m.store⟩
      | .ok .next m => run ctx fuel m
      | .ok (.allocate text) m => (m.pushScalar (.string text)).bind (run ctx fuel)
      | .ok (.invoke handler name args) m =>
        .invoke handler args fun
          | .ok v => (m.pushScalar v).bind (run ctx fuel)
          | .error message =>
            .done ⟨.error (m.exception ctx (.nativeFailed name message)), m.store⟩
      | .ok (.finish v) m => .done ⟨.ok v, m.store⟩ := by
  conv => lhs; unfold run
  cases (step ctx).run m with
  | error e m => rfl
  | ok effect m =>
      cases effect with
      | allocate text =>
          dsimp only
          split
          · rename_i hp
            rw [hp]
            rfl
          · rfl
      | next | invoke | finish => rfl

/-- **Every outcome of a run is that of a machine reached by turns.** -/
theorem run_ends {ctx : Context ν} {fuel : Nat} {m : Machine} {o : Outcome}
    (h : (run ctx fuel m).Ends o) : ∃ m', Turns ctx m m' ∧ Closes ctx m' o := by
  induction fuel generalizing m with
  | zero => cases h
  | succ fuel ih =>
      -- what follows a turn is the rest of the run
      have onward {m' : Machine} (ht : Turn ctx m m') (h : (run ctx fuel m').Ends o) :
          ∃ m'', Turns ctx m m'' ∧ Closes ctx m'' o := by
        obtain ⟨m'', hts, hc⟩ := ih h
        exact ⟨m'', Relation.ReflTransGen.head ht hts, hc⟩
      rw [run_succ] at h
      cases hs : (step ctx).run m with
      | error e m' =>
          rw [hs] at h
          rw [Run.ends_done.mp h]
          exact ⟨m, .refl, .raised hs⟩
      | ok effect m' =>
          rw [hs] at h
          cases effect with
          | next => exact onward (.next hs) h
          | allocate text =>
              obtain ⟨m'', hp, h⟩ := Run.ends_bind.mp h
              exact onward (.allocate hs hp) h
          | invoke handler name args =>
              cases h with
              | invoke answer h =>
                  cases answer with
                  | ok v =>
                      obtain ⟨m'', hp, h⟩ := Run.ends_bind.mp h
                      exact onward (.invoke hs v hp) h
                  | error message =>
                      rw [Run.ends_done.mp h]
                      exact ⟨m, .refl, .refused hs message⟩
          | finish v =>
              rw [Run.ends_done.mp h]
              exact ⟨m, .refl, .finished hs⟩

/-- **The ways in which a call ends.** -/
inductive Over (ctx : Context ν) (store : Store) (function : Nat) (args : List Scalar) :
    Outcome → Prop where
  /-- There is no such function. -/
  | missing (hg : ctx.image.functions[function]? = none) :
    Over ctx store function args ⟨.error (.functionNotFound s!"#{function}"), store⟩
  /-- The function takes another number of arguments. -/
  | arity {g : LinkedFunction} (hg : ctx.image.functions[function]? = some g)
      (hargs : args.length ≠ g.params) :
    Over ctx store function args ⟨.error (.arityMismatch g.name g.params args.length), store⟩
  /-- The function is not entered. -/
  | refused {g : LinkedFunction} {m₀ m₁ : Machine} {e : VmError}
      (hg : ctx.image.functions[function]? = some g) (hargs : args.length = g.params)
      (hp : (pushScalars { store } args : Run ν Machine).Ends m₀)
      (h : (enter ctx function).run m₀ = .error e m₁) :
    Over ctx store function args ⟨.error e, m₁.store⟩
  /-- A machine that is reached closes. -/
  | closed {g : LinkedFunction} {m : Machine} {o : Outcome}
      (hg : ctx.image.functions[function]? = some g) (hm : Reached ctx store function args m)
      (hc : Closes ctx m o) : Over ctx store function args o

/-- **Wherever a call ends, it ends in one of these ways.** -/
theorem over_of_ends {ctx : Context ν} {store : Store} {function : Nat} {args : List Scalar}
    {o : Outcome} (h : (call ctx store function args).Ends o) :
    Over ctx store function args o := by
  unfold call at h
  cases hg : ctx.image.functions[function]? with
  | none =>
      rw [hg] at h
      rw [Run.ends_done.mp h]
      exact .missing hg
  | some g =>
      rw [hg] at h
      dsimp only at h
      by_cases hargs : args.length = g.params
      · rw [if_pos hargs] at h
        obtain ⟨m₀, hp, h⟩ := Run.ends_bind.mp h
        cases henter : (enter ctx function).run m₀ with
        | error e m₁ =>
            rw [henter] at h
            rw [Run.ends_done.mp h]
            exact .refused hg hargs hp henter
        | ok u m₁ =>
            rw [henter] at h
            obtain ⟨m, hturns, hcloses⟩ := run_ends h
            exact .closed hg ⟨m₀, m₁, hp, henter, hturns⟩ hcloses
      · rw [if_neg hargs] at h
        rw [Run.ends_done.mp h]
        exact .arity hg hargs

/-- Pushing a scalar changes the heap and pushes one value. -/
theorem pushScalar_ends {m m' : Machine} {v : Scalar}
    (h : (m.pushScalar v : Run ν Machine).Ends m') :
    ∃ heap w, m' = { m with store := { m.store with heap }, stack := m.stack.push w } := by
  cases v with
  | string text =>
      unfold pushScalar at h
      dsimp only at h
      split at h
      · cases h with
        | pause answer h =>
            cases answer with
            | none => exact ⟨_, _, Run.ends_done.mp h⟩
            | some n => exact ⟨_, _, Run.ends_done.mp h⟩
      · exact ⟨_, _, Run.ends_done.mp h⟩
  | null => exact ⟨_, _, Run.ends_done.mp h⟩
  | bool b => exact ⟨_, _, Run.ends_done.mp h⟩
  | int n => exact ⟨_, _, Run.ends_done.mp h⟩
  | float x => exact ⟨_, _, Run.ends_done.mp h⟩

end EmbeddedVm.Machine
