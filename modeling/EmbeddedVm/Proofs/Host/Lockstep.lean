import EmbeddedVm.Proofs.Host.Endings

/-!
# Runs that differ in their pauses

A pause is a question that a run asks about itself, not about what it computes. Two runs go in
`Lockstep` when they call the same host functions with the same arguments, whatever the answers, and
end with related results; pauses may stand anywhere in either of them, and their answers must not
matter. Against two hosts whose functions behave alike and whose pauses are arbitrary, such runs end
alike (`Lockstep.against`).
-/

namespace EmbeddedVm.Run

variable {ν α β γ δ : Type}

/-- **Runs that do the same but for their pauses.** -/
inductive Lockstep (R : α → β → Prop) : Run ν α → Run ν β → Prop where
  | done {a : α} {b : β} (h : R a b) : Lockstep R (.done a) (.done b)
  | invoke {handler : ν} {args : List Scalar} {k₁ : Except String Scalar → Run ν α}
      {k₂ : Except String Scalar → Run ν β} (h : ∀ answer, Lockstep R (k₁ answer) (k₂ answer)) :
    Lockstep R (.invoke handler args k₁) (.invoke handler args k₂)
  /-- The first run asks for a pause. -/
  | left {k : Option Nat → Run ν α} {r : Run ν β} (h : ∀ answer, Lockstep R (k answer) r) :
    Lockstep R (.pause k) r
  /-- The second run asks for a pause. -/
  | right {r : Run ν α} {k : Option Nat → Run ν β} (h : ∀ answer, Lockstep R r (k answer)) :
    Lockstep R r (.pause k)
  | exhausted : Lockstep R .exhausted .exhausted

theorem Lockstep.bind {R : α → β → Prop} {S : γ → δ → Prop} {r₁ : Run ν α} {r₂ : Run ν β}
    {f : α → Run ν γ} {g : β → Run ν δ} (h : Lockstep R r₁ r₂)
    (hfg : ∀ a b, R a b → Lockstep S (f a) (g b)) : Lockstep S (r₁.bind f) (r₂.bind g) := by
  induction h with
  | done h => exact hfg _ _ h
  | invoke _ ih => exact .invoke ih
  | left _ ih => exact .left ih
  | right _ ih => exact .right ih
  | exhausted => exact .exhausted

theorem Lockstep.imp {R S : α → β → Prop} {r₁ : Run ν α} {r₂ : Run ν β} (h : Lockstep R r₁ r₂)
    (hRS : ∀ a b, R a b → S a b) : Lockstep S r₁ r₂ := by
  induction h with
  | done h => exact .done (hRS _ _ h)
  | invoke _ ih => exact .invoke ih
  | left _ ih => exact .left ih
  | right _ ih => exact .right ih
  | exhausted => exact .exhausted

/-- Related in the first argument too, if the first run ends so. -/
theorem Lockstep.ends_left {R : α → β → Prop} {r₁ : Run ν α} {r₂ : Run ν β}
    (h : Lockstep R r₁ r₂) {a : α} (ha : r₁.Ends a) : ∃ b, r₂.Ends b ∧ R a b := by
  induction h generalizing a with
  | done h =>
      cases ha
      exact ⟨_, .done _, h⟩
  | invoke _ ih =>
      cases ha with
      | invoke answer ha =>
          obtain ⟨b, hb, hR⟩ := ih answer ha
          exact ⟨b, .invoke answer hb, hR⟩
  | left _ ih =>
      cases ha with
      | pause answer ha => exact ih answer ha
  | right _ ih =>
      obtain ⟨b, hb, hR⟩ := ih none ha
      exact ⟨b, .pause none hb, hR⟩
  | exhausted => cases ha

/-- **A host in two parts**: its functions, which answer by what they were asked before, and its
    threads, which decide whether a pause is established. -/
def Host.paused {σ ρ : Type} (native : ν → List Scalar → σ → Except String Scalar × σ)
    (threads : σ → ρ → Option Nat × ρ) : Host ν (σ × ρ) where
  invoke handler args s :=
    let (answer, functions) := native handler args s.1
    (answer, functions, s.2)
  pause s :=
    let (answer, rest) := threads s.1 s.2
    (answer, s.1, rest)

/-- **Against hosts that differ in their threads only, runs in lockstep end alike**: both or neither
    end, with related results, and having put the same questions to the host. -/
theorem Lockstep.against {R : α → β → Prop} {r₁ : Run ν α} {r₂ : Run ν β}
    (h : Lockstep R r₁ r₂) {σ ρ₁ ρ₂ : Type}
    (native : ν → List Scalar → σ → Except String Scalar × σ) (threads₁ : σ → ρ₁ → Option Nat × ρ₁)
    (threads₂ : σ → ρ₂ → Option Nat × ρ₂) (s : σ) (p₁ : ρ₁) (p₂ : ρ₂) :
    Option.Rel (fun x y => R x.1 y.1 ∧ x.2.1 = y.2.1)
      (r₁.against (.paused native threads₁) (s, p₁))
      (r₂.against (.paused native threads₂) (s, p₂)) := by
  induction h generalizing s p₁ p₂ with
  | done h => exact .some ⟨h, rfl⟩
  | invoke _ ih => exact ih _ _ _ _
  | left _ ih => exact ih _ _ _ _
  | right _ ih => exact ih _ _ _ _
  | exhausted => exact .none

end EmbeddedVm.Run
