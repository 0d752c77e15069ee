import EmbeddedVm.Proofs.Host.Requests
import EmbeddedVm.Proofs.Machine.Writes

/-!
# Calls of the host

A run asks its host for a function at one place only: where it stands at an instruction that calls
an import. There it asks for the handler in the table of imports under that very index, with the
topmost operands as arguments (`run_callNative`), and nothing else a call does asks for anything
(`asks_call`).
-/

namespace EmbeddedVm.Machine

variable {ν : Type} {ctx : Context ν} {m : Machine}

/-! ## 1. The instruction -/

/-- The topmost values of the stack, as they are read. -/
def topmost (m : Machine) (count : Nat) : List Scalar :=
  (m.stack.toList.drop (m.stack.size - count)).map m.store.heap.toScalar

/-- Where there are enough operands, the arguments are popped. -/
theorem run_popArgs (ctx : Context ν) : ∀ {count : Nat} {m : Machine} (after : List Scalar),
    m.floor + count ≤ m.stack.size →
    ∃ m', (popArgs ctx count after).run m = .ok (m.topmost count ++ after) m'
  | 0, m, after, _ => by
      refine ⟨m, ?_⟩
      unfold topmost
      rw [Nat.sub_zero, ← Array.length_toList, List.drop_length]
      rfl
  | count + 1, m, after, h => by
      have hlt : m.floor < m.stack.size := by omega
      obtain ⟨v, hv, hpop⟩ := run_pop_of_lt ctx hlt
      have hfloor : floor { m with stack := m.stack.pop } = m.floor := rfl
      have hsize : m.stack.pop.size = m.stack.size - 1 := Array.size_pop
      have hle : floor { m with stack := m.stack.pop } + count ≤ m.stack.pop.size := by
        rw [hfloor, hsize]
        omega
      obtain ⟨m', hrest⟩ := run_popArgs ctx (m := { m with stack := m.stack.pop })
        (m.store.heap.toScalar v :: after) hle
      refine ⟨m', ?_⟩
      unfold popArgs
      rw [EStateM.run_bind, hpop]
      refine hrest.trans ?_
      -- the last value popped so far stands right before those popped before it
      have hlast : m.topmost (count + 1) =
          topmost { m with stack := m.stack.pop } count ++ [m.store.heap.toScalar v] := by
        have hstack : m.stack.toList = m.stack.pop.toList ++ [v] := by
          obtain ⟨xs, hxs⟩ := Array.back?_eq_some_iff.mp hv
          rw [hxs, Array.pop_push, Array.toList_push]
        unfold topmost
        dsimp only
        rw [hstack, hsize, List.drop_append_of_le_length (by
          rw [Array.length_toList, hsize]
          omega), List.map_append]
        have hcount : m.stack.size - (count + 1) = m.stack.size - 1 - count := by omega
        rw [hcount]
        rfl
      rw [hlast, List.append_assoc]
      rfl

/-- **What calling an import comes to**, where there are as many operands as it takes: the run asks
    for the handler of that import. -/
theorem run_callNative {f : Frame} {rest : List Frame} (hf : m.frames = f :: rest)
    {g : LinkedFunction} (hg : ctx.image.functions[f.function]? = some g) {s : Step}
    (hs : g.code[f.ip]? = some s) {native : UInt16} {argc : UInt8}
    (hi : s.instruction = .callNative native argc) {name : String} {handler : ν}
    (himport : ctx.image.imports.get? native.toNat = some (name, handler))
    (hargs : m.floor + argc.toNat ≤ m.stack.size) (fuel : Nat) :
    ∃ resume, run ctx (fuel + 1) m = .invoke handler (m.topmost argc.toNat) resume := by
  have hfetched : m.fetched = { m with frames := { f with ip := f.ip + 1 } :: rest } :=
    fetched_eq hf
  have hfloor : m.fetched.floor = m.floor := by
    rw [hfetched]
    unfold floor
    rw [hf]
  have hsame : m.fetched.topmost argc.toNat = m.topmost argc.toNat := by
    rw [hfetched]
    rfl
  have hle : m.fetched.floor + argc.toNat ≤ m.fetched.stack.size := by
    rw [hfloor, hfetched]
    exact hargs
  obtain ⟨m', hpop⟩ := run_popArgs ctx [] hle
  have hstep : (step ctx).run m = .ok (.invoke handler name (m.topmost argc.toNat)) m' := by
    rw [run_step hf hg hs]
    unfold execute
    rw [hi]
    dsimp only
    rw [EStateM.run_bind, hpop, List.append_nil, hsame]
    dsimp only
    rw [himport]
    rfl
  rw [run_succ, hstep]
  exact ⟨_, rfl⟩

/-! ## 2. Runs and calls -/

/-- **A machine that stands at a call of an import** whose handler is the one given. -/
def AtImport (ctx : Context ν) (m : Machine) (handler : ν) : Prop :=
  ∃ f rest g s native argc name, m.frames = f :: rest ∧
    ctx.image.functions[f.function]? = some g ∧ g.code[f.ip]? = some s ∧
    s.instruction = .callNative native argc ∧
    ctx.image.imports.get? native.toNat = some (name, handler)

/-- A step that leaves a host function to call is one that calls an import. -/
theorem atImport_of_step {handler : ν} {name : String} {args : List Scalar} {m' : Machine}
    (h : (step ctx).run m = .ok (.invoke handler name args) m') : AtImport ctx m handler := by
  cases hf : m.frames with
  | nil =>
      unfold step at h
      rw [EStateM.run_bind, EStateM.run_get] at h
      dsimp only at h
      rw [hf] at h
      cases h
  | cons f rest =>
      cases hnext : ctx.image.functions[f.function]?.bind (·.code[f.ip]?) with
      | none =>
          unfold step at h
          rw [EStateM.run_bind, EStateM.run_get] at h
          dsimp only at h
          rw [hf] at h
          dsimp only at h
          rw [hnext] at h
          cases h
      | some s =>
          obtain ⟨g, hg, hs⟩ := Option.bind_eq_some_iff.mp hnext
          obtain ⟨⟨native, argc, hi, himport, -⟩, -⟩ := (after_step_writes hf hg hs).ok h
          exact ⟨f, rest, g, s, native, argc, name, hf, hg, hs, hi, himport⟩

theorem not_asks_pushScalar {v : Scalar} {handler : ν} {args : List Scalar} :
    ¬ (m.pushScalar v : Run ν Machine).Asks handler args := by
  intro h
  cases v with
  | string text =>
      unfold pushScalar at h
      dsimp only at h
      split at h
      · cases h with
        | pause answer h => cases answer <;> cases h
      · cases h
  | null | bool | int | float => cases h

theorem not_asks_pushScalars {handler : ν} {args : List Scalar} : ∀ {vs : List Scalar} {m : Machine},
    ¬ (m.pushScalars vs : Run ν Machine).Asks handler args
  | [], _, h => Run.not_asks_done _ h
  | _ :: _, _, h => by
      rcases Run.asks_bind h with h | ⟨m', -, h⟩
      · exact not_asks_pushScalar h
      · exact not_asks_pushScalars h

/-- **What a run asks for, it asks for at an import.** -/
theorem asks_run {handler : ν} {args : List Scalar} {fuel : Nat}
    (h : (run ctx fuel m).Asks handler args) : ∃ m', Turns ctx m m' ∧ AtImport ctx m' handler := by
  induction fuel generalizing m with
  | zero => cases h
  | succ fuel ih =>
      -- what follows a turn is the rest of the run
      have onward {m' : Machine} (ht : Turn ctx m m') (h : (run ctx fuel m').Asks handler args) :
          ∃ m'', Turns ctx m m'' ∧ AtImport ctx m'' handler := by
        obtain ⟨m'', hts, hat⟩ := ih h
        exact ⟨m'', Relation.ReflTransGen.head ht hts, hat⟩
      have pushed {m' : Machine} {v : Scalar}
          (ht : ∀ m'', (m'.pushScalar v : Run ν Machine).Ends m'' → Turn ctx m m'')
          (h : ((m'.pushScalar v).bind (run ctx fuel)).Asks handler args) :
          ∃ m'', Turns ctx m m'' ∧ AtImport ctx m'' handler := by
        rcases Run.asks_bind h with h | ⟨m'', hp, h⟩
        · exact (not_asks_pushScalar h).elim
        · exact onward (ht m'' hp) h
      rw [run_succ] at h
      cases hs : (step ctx).run m with
      | error e m' =>
          rw [hs] at h
          cases h
      | ok effect m' =>
          rw [hs] at h
          cases effect with
          | next => exact onward (.next hs) h
          | allocate text => exact pushed (fun _ hp => .allocate hs hp) h
          | invoke handler' name args' =>
              cases h with
              | here => exact ⟨m, .refl, atImport_of_step hs⟩
              | invoke answer h =>
                  cases answer with
                  | ok v => exact pushed (fun _ hp => .invoke hs v hp) h
                  | error message => cases h
          | finish v => cases h

/-- **What a call asks for, it asks for where it has reached an import.** -/
theorem asks_call {store : Store} {function : Nat} {given : List Scalar} {handler : ν}
    {args : List Scalar} (h : (call ctx store function given).Asks handler args) :
    ∃ m, Reached ctx store function given m ∧ AtImport ctx m handler := by
  unfold call at h
  split at h
  · cases h
  · split at h
    · rcases Run.asks_bind h with h | ⟨m₀, hp, h⟩
      · exact (not_asks_pushScalars h).elim
      · cases henter : (enter ctx function).run m₀ with
        | error e m₁ =>
            rw [henter] at h
            cases h
        | ok u m₁ =>
            rw [henter] at h
            obtain ⟨m, hturns, hat⟩ := asks_run h
            exact ⟨m, ⟨m₀, m₁, hp, henter, hturns⟩, hat⟩
    · cases h

end EmbeddedVm.Machine
