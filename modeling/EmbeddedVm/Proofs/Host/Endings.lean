import EmbeddedVm.Host.Run

/-!
# The ends of a run

A run is open: it goes on as its host answers. `Run.Ends` gathers what it can end with, whatever the
host is; what holds of every end holds against every host (`ends_of_against`). A run that ends with
nothing diverges, or takes more steps than it was given.
-/

namespace EmbeddedVm.Run

variable {ν α β : Type}

/-- **What a run can end with**, for some answers of its host. -/
inductive Ends : Run ν α → α → Prop where
  | done (a : α) : Ends (.done a) a
  | invoke {handler : ν} {args : List Scalar} {resume : Except String Scalar → Run ν α} {a : α}
      (answer : Except String Scalar) (h : Ends (resume answer) a) :
    Ends (.invoke handler args resume) a
  | pause {resume : Option Nat → Run ν α} {a : α} (answer : Option Nat)
      (h : Ends (resume answer) a) : Ends (.pause resume) a

@[simp] theorem ends_done {a b : α} : (done a : Run ν α).Ends b ↔ b = a := by
  constructor
  · intro h
    cases h
    rfl
  · rintro rfl
    exact .done _

theorem bind_assoc {γ : Type} (r : Run ν α) (k : α → Run ν β) (l : β → Run ν γ) :
    (r.bind k).bind l = r.bind fun a => (k a).bind l := by
  induction r with
  | done a => rfl
  | invoke handler args resume ih => exact congrArg (Run.invoke handler args) (funext ih)
  | pause resume ih => exact congrArg Run.pause (funext ih)
  | exhausted => rfl

/-- A run that goes on with another ends where the other ends. -/
theorem ends_bind {r : Run ν α} {k : α → Run ν β} {b : β} :
    (r.bind k).Ends b ↔ ∃ a, r.Ends a ∧ (k a).Ends b := by
  constructor
  · intro h
    induction r with
    | done a => exact ⟨a, .done a, h⟩
    | invoke handler args resume ih =>
        cases h with
        | invoke answer h =>
            obtain ⟨a, ha, hk⟩ := ih answer h
            exact ⟨a, .invoke answer ha, hk⟩
    | pause resume ih =>
        cases h with
        | pause answer h =>
            obtain ⟨a, ha, hk⟩ := ih answer h
            exact ⟨a, .pause answer ha, hk⟩
    | exhausted => cases h
  · rintro ⟨a, ha, hk⟩
    induction ha with
    | done a => exact hk
    | invoke answer _ ih => exact .invoke answer (ih hk)
    | pause answer _ ih => exact .pause answer (ih hk)

/-- What a run ends with against a host is one of its ends. -/
theorem ends_of_against {σ : Type} {host : Host ν σ} {r : Run ν α} {s s' : σ} {a : α}
    (h : r.against host s = some (a, s')) : r.Ends a := by
  induction r generalizing s with
  | done b =>
      cases h
      exact .done _
  | invoke handler args resume ih => exact .invoke _ (ih _ h)
  | pause resume ih => exact .pause _ (ih _ h)
  | exhausted => cases h

end EmbeddedVm.Run
