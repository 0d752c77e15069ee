import Mathlib.Data.List.Forall2

/-!
# Chains of checks

Verifying, linking, decoding and replacing are chains of computations that stop at the first
failure. What a successful chain says is what each of its links says.
-/

namespace EmbeddedVm.Checks

variable {ε ε' α β : Type}

/-- A chain succeeds exactly when its links succeed one after the other. -/
@[simp] theorem bind_eq_ok {x : Except ε α} {f : α → Except ε β} {b : β} :
    (x >>= f) = .ok b ↔ ∃ a, x = .ok a ∧ f a = .ok b := by
  cases x with
  | error e => simp [bind, Except.bind]
  | ok a => simp [bind, Except.bind]

/-- Two checks after one another pass exactly when both pass. -/
theorem andThen_eq_ok {x : Except ε Unit} {y : Except ε α} {a : α} :
    (x >>= fun _ => y) = .ok a ↔ x = .ok () ∧ y = .ok a := by
  rw [bind_eq_ok]
  exact ⟨fun ⟨_, hx, hy⟩ => ⟨hx, hy⟩, fun ⟨hx, hy⟩ => ⟨_, hx, hy⟩⟩

@[simp] theorem pure_eq_ok {a b : α} : (pure a : Except ε α) = .ok b ↔ a = b := by
  simp [pure, Except.pure]

/-- What succeeds has a result. -/
theorem exists_eq_ok_of_isOk {x : Except ε α} (h : x.isOk = true) : ∃ a, x = .ok a := by
  cases x with
  | ok a => exact ⟨a, rfl⟩
  | error _ => cases h

theorem toOption_eq_some {x : Except ε α} {a : α} : x.toOption = some a ↔ x = .ok a := by
  cases x with
  | ok b => exact ⟨fun h => congrArg Except.ok (Option.some.inj h), fun h => h ▸ rfl⟩
  | error _ => exact ⟨nofun, nofun⟩

/-- A chain goes on behind a guard exactly when the guard lets it pass. -/
theorem guard_eq_ok {p : Prop} [Decidable p] {e : ε} {k : β → Except ε α} {x : Except ε α} {a : α} :
    (if p then throw e >>= k else x) = .ok a ↔ ¬ p ∧ x = .ok a := by
  by_cases hp : p
  · rw [if_pos hp]
    exact ⟨(fun h => nomatch h), fun h => absurd hp h.1⟩
  · rw [if_neg hp]
    exact ⟨fun h => ⟨hp, h⟩, fun h => h.2⟩

/-- A check that refuses a condition passes exactly when the condition is not met and the rest of
    the check passes. -/
theorem refuse_eq_ok {p : Prop} [Decidable p] {e : ε} {x : Except ε α} {a : α} :
    (if p then .error e else x) = .ok a ↔ ¬ p ∧ x = .ok a :=
  guard_eq_ok (β := Unit) (k := fun _ => x)

/-- A check of one condition passes exactly when the condition is met. -/
theorem require_eq_ok {p : Prop} [Decidable p] {e : ε} :
    (if p then .ok () else .error e : Except ε Unit) = .ok () ↔ p := by
  by_cases hp : p
  · rw [if_pos hp]
    exact ⟨fun _ => hp, fun _ => rfl⟩
  · rw [if_neg hp]
    exact ⟨(fun h => nomatch h), fun h => absurd h hp⟩

/-- Another wording of the failure changes no success. -/
@[simp] theorem mapError_eq_ok {x : Except ε α} {f : ε → ε'} {a : α} :
    x.mapError f = .ok a ↔ x = .ok a := by
  cases x with
  | error e => simp [Except.mapError]
  | ok a => simp [Except.mapError]

/-- A check of every entry of a list succeeds exactly when it succeeds on each. -/
theorem forM_eq_ok {l : List α} {f : α → Except ε Unit} :
    l.forM f = .ok () ↔ ∀ a ∈ l, f a = .ok () := by
  induction l with
  | nil => simp [List.forM, pure_eq_ok]
  | cons a l ih =>
      show (f a >>= fun _ => l.forM f) = .ok () ↔ _
      rw [bind_eq_ok, List.forall_mem_cons, ← ih]
      exact ⟨fun ⟨_, ha, hl⟩ => ⟨ha, hl⟩, fun ⟨ha, hl⟩ => ⟨_, ha, hl⟩⟩

/-- Checks that fail alike on related entries fail alike on related lists. -/
theorem forM_congr {R : α → β → Prop} {f : α → Except ε Unit} {g : β → Except ε Unit} {l : List α}
    {l' : List β} (h : List.Forall₂ R l l') (hfg : ∀ a b, R a b → f a = g b) :
    l.forM f = l'.forM g := by
  induction h with
  | nil => rfl
  | cons hab _ ih =>
      show (f _ >>= fun _ => _) = (g _ >>= fun _ => _)
      rw [hfg _ _ hab, ih]

/-- A translation of every entry of a list succeeds exactly when it translates each. -/
theorem mapM_eq_ok {f : α → Except ε β} : ∀ {l : List α} {bs : List β},
    l.mapM f = .ok bs ↔ List.Forall₂ (fun a b => f a = .ok b) l bs
  | [], bs => by
      rw [List.mapM_nil, pure_eq_ok, List.forall₂_nil_left_iff]
      exact eq_comm
  | a :: l, bs => by
      rw [List.mapM_cons, bind_eq_ok]
      constructor
      · rintro ⟨b, hb, hl⟩
        obtain ⟨bs', hbs, h⟩ := bind_eq_ok.mp hl
        rw [pure_eq_ok] at h
        subst h
        exact .cons hb (mapM_eq_ok.mp hbs)
      · intro h
        cases h with
        | cons hb hl => exact ⟨_, hb, bind_eq_ok.mpr ⟨_, mapM_eq_ok.mpr hl, pure_eq_ok.mpr rfl⟩⟩

/-- Where every entry has a translation, the list has one. -/
theorem exists_mapM_eq_ok {f : α → Except ε β} {l : List α} (h : ∀ a ∈ l, ∃ b, f a = .ok b) :
    ∃ bs, l.mapM f = .ok bs := by
  induction l with
  | nil => exact ⟨[], rfl⟩
  | cons a l ih =>
      obtain ⟨b, hb⟩ := h a List.mem_cons_self
      obtain ⟨bs, hbs⟩ := ih fun a ha => h a (List.mem_cons_of_mem _ ha)
      exact ⟨b :: bs, mapM_eq_ok.mpr (.cons hb (mapM_eq_ok.mp hbs))⟩

/-- The translation at a position is that of the entry at that position. -/
theorem getElem?_of_mapM {f : α → Except ε β} {l : List α} {bs : List β} (h : l.mapM f = .ok bs)
    {i : Nat} {b : β} (hb : bs[i]? = some b) : ∃ a, l[i]? = some a ∧ f a = .ok b := by
  have hl := mapM_eq_ok.mp h
  obtain ⟨hi, rfl⟩ := List.getElem?_eq_some_iff.mp hb
  have hi' : i < l.length := by rw [hl.length_eq]; exact hi
  exact ⟨l[i], List.getElem?_eq_getElem hi', hl.get hi' hi⟩

theorem length_of_mapM {f : α → Except ε β} {l : List α} {bs : List β} (h : l.mapM f = .ok bs) :
    bs.length = l.length :=
  (mapM_eq_ok.mp h).length_eq.symm

/-! ## Two chains of checks -/

/-- Two checks that both pass, with related results, or both fail in the same way. -/
inductive Both {α β ε : Type} (R : α → β → Prop) : Except ε α → Except ε β → Prop where
  | ok {a : α} {b : β} (h : R a b) : Both R (.ok a) (.ok b)
  | error (e : ε) : Both R (.error e) (.error e)

theorem Both.bind {α β γ δ ε : Type} {R : α → β → Prop} {S : γ → δ → Prop} {x : Except ε α}
    {y : Except ε β} {f : α → Except ε γ} {g : β → Except ε δ} (h : Both R x y)
    (hfg : ∀ a b, R a b → Both S (f a) (g b)) : Both S (x >>= f) (y >>= g) := by
  cases h with
  | ok h => exact hfg _ _ h
  | error e => exact .error e

/-- The same check, passed on to two chains. -/
theorem Both.bind_eq {α γ δ ε : Type} {S : γ → δ → Prop} {x : Except ε α} {f : α → Except ε γ}
    {g : α → Except ε δ} (hfg : ∀ a, Both S (f a) (g a)) : Both S (x >>= f) (x >>= g) := by
  cases x with
  | ok a => exact hfg a
  | error e => exact .error e

/-- Results that are related are related as the results they are. -/
theorem Both.imp_ok {α β ε : Type} {R S : α → β → Prop} {x : Except ε α} {y : Except ε β}
    (h : Both R x y) (hS : ∀ a b, x = .ok a → y = .ok b → R a b → S a b) : Both S x y := by
  cases h with
  | ok h => exact .ok (hS _ _ rfl rfl h)
  | error e => exact .error e

theorem Both.mapError {α β ε ε' : Type} {R : α → β → Prop} {x : Except ε α} {y : Except ε β}
    (h : Both R x y) (f : ε → ε') : Both R (x.mapError f) (y.mapError f) := by
  cases h with
  | ok h => exact .ok h
  | error e => exact .error _

theorem Both.mapM {α β γ ε : Type} {R : β → γ → Prop} {f : α → Except ε β} {g : α → Except ε γ}
    {l : List α} (h : ∀ a ∈ l, Both R (f a) (g a)) :
    Both (List.Forall₂ R) (l.mapM f) (l.mapM g) := by
  induction l with
  | nil => exact .ok .nil
  | cons a rest ih =>
      rw [List.mapM_cons, List.mapM_cons]
      refine (h a List.mem_cons_self).bind fun b c hbc => ?_
      refine (ih fun a' ha' => h a' (List.mem_cons_of_mem a ha')).bind fun bs cs hbcs => ?_
      exact .ok (.cons hbc hbcs)

end EmbeddedVm.Checks
