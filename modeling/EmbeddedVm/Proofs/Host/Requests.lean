import EmbeddedVm.Proofs.Host.Endings

/-!
# What a run asks of its host

`Run.Ends` gathers what a run can end with; `Run.Asks` gathers the host functions it can ask for on
its way, whatever it was answered before. What goes on behind another run asks for what either of
them asks for (`asks_bind`).
-/

namespace EmbeddedVm.Run

variable {ν α β : Type} {handler : ν} {args : List Scalar}

/-- **What a run can ask of its host**, for some answers to what it asked before. -/
inductive Asks (handler : ν) (args : List Scalar) : Run ν α → Prop where
  | here (resume : Except String Scalar → Run ν α) : Asks handler args (.invoke handler args resume)
  | invoke {handler' : ν} {args' : List Scalar} {resume : Except String Scalar → Run ν α}
      (answer : Except String Scalar) (h : Asks handler args (resume answer)) :
    Asks handler args (.invoke handler' args' resume)
  | pause {resume : Option Nat → Run ν α} (answer : Option Nat)
      (h : Asks handler args (resume answer)) : Asks handler args (.pause resume)

theorem not_asks_done (a : α) : ¬ (done a : Run ν α).Asks handler args := nofun

theorem asks_bind {r : Run ν α} {k : α → Run ν β} (h : (r.bind k).Asks handler args) :
    r.Asks handler args ∨ ∃ a, r.Ends a ∧ (k a).Asks handler args := by
  induction r with
  | done a => exact .inr ⟨a, .done a, h⟩
  | invoke handler' args' resume ih =>
      cases h with
      | here => exact .inl (.here resume)
      | invoke answer h =>
          rcases ih answer h with h | ⟨a, ha, hk⟩
          · exact .inl (.invoke answer h)
          · exact .inr ⟨a, .invoke answer ha, hk⟩
  | pause resume ih =>
      cases h with
      | pause answer h =>
          rcases ih answer h with h | ⟨a, ha, hk⟩
          · exact .inl (.pause answer h)
          · exact .inr ⟨a, .pause answer ha, hk⟩
  | exhausted => cases h

/-- What is done with the end of a run asks for nothing more. -/
theorem asks_of_bind_done {r : Run ν α} {f : α → β}
    (h : (r.bind fun a => .done (f a)).Asks handler args) : r.Asks handler args := by
  rcases asks_bind h with h | ⟨a, -, h⟩
  · exact h
  · exact (not_asks_done _ h).elim

end EmbeddedVm.Run
