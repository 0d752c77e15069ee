import EmbeddedVm.Machine.Call
import EmbeddedVm.Proofs.Heap.Contents

/-!
# Machines that differ in their heaps only

Which slot a string lies in is an accident of what was collected before. Two values are `Alike` in
two heaps when they are the same up to such slots: handles refer, each in its own heap, to the same
text. Note that both must refer to something, so a swept handle is alike to nothing. Which handles
may stand for each other can be limited by a relation `S`; it is there to follow single handles.
Two machines are `Alike` when everything in them is, slot by slot, and the rest is equal.

The relation survives whatever either heap does by itself: an allocation on either side, and a
collection on either side as long as its roots hold every handle in question.
-/

namespace EmbeddedVm

/-! ## 1. Values -/

/-- **The same value in two heaps.** -/
inductive Value.Alike (S : Handle → Handle → Prop) (h₁ h₂ : Heap) : Value → Value → Prop where
  | null : Alike S h₁ h₂ .null .null
  | bool (b : Bool) : Alike S h₁ h₂ (.bool b) (.bool b)
  | int (n : Int32) : Alike S h₁ h₂ (.int n) (.int n)
  | float (x : Binary64) : Alike S h₁ h₂ (.float x) (.float x)
  | string {r₁ r₂ : Handle} {text : String} (hS : S r₁ r₂) (hl : h₁.get? r₁ = some text)
      (hr : h₂.get? r₂ = some text) : Alike S h₁ h₂ (.string r₁) (.string r₂)

/-- The same text is all that is asked of two handles. -/
def Handle.Any (_ _ : Handle) : Prop := True

namespace Value.Alike

variable {S : Handle → Handle → Prop} {h₁ h₂ : Heap} {v w : Value}

theorem symm (h : v.Alike Handle.Any h₁ h₂ w) : w.Alike Handle.Any h₂ h₁ v := by
  cases h with
  | null => exact .null
  | bool b => exact .bool b
  | int n => exact .int n
  | float x => exact .float x
  | string _ hl hr => exact .string trivial hr hl

/-- Values that are alike stand for the same scalar. -/
theorem toScalar (h : v.Alike S h₁ h₂ w) : h₁.toScalar v = h₂.toScalar w := by
  cases h with
  | string _ hl hr =>
      simp only [Heap.toScalar, hl, hr]
  | _ => rfl

theorem kind (h : v.Alike S h₁ h₂ w) : v.kind = w.kind := by
  cases h <;> rfl

theorem fits (h : v.Alike S h₁ h₂ w) (k : Option Kind) : v.fits k = w.fits k := by
  unfold Value.fits
  rw [h.kind]

/-- A handle in a value that is alike to some other is related to one, and refers to a text. -/
theorem of_handle (h : v.Alike S h₁ h₂ w) {r : Handle} (hr : v.handle? = some r) :
    (∃ r', S r r') ∧ ∃ text, h₁.get? r = some text := by
  cases h with
  | string hS hl _ =>
      cases hr
      exact ⟨⟨_, hS⟩, _, hl⟩
  | null | bool | int | float => cases hr

/-- A value that is alike to some other is alike to itself. -/
theorem self (h : v.Alike S h₁ h₂ w) {S' : Handle → Handle → Prop}
    (hS : ∀ r, v.handle? = some r → S' r r) : v.Alike S' h₁ h₁ v := by
  cases h with
  | null => exact .null
  | bool b => exact .bool b
  | int n => exact .int n
  | float x => exact .float x
  | string _ hl _ => exact .string (hS _ rfl) hl hl

/-- What the handle of the first value refers to is all that matters of its heap. -/
theorem left {h₁' : Heap} (h : v.Alike S h₁ h₂ w)
    (hkept : ∀ r text, v.handle? = some r → h₁.get? r = some text → h₁'.get? r = some text) :
    v.Alike S h₁' h₂ w := by
  cases h with
  | null => exact .null
  | bool b => exact .bool b
  | int n => exact .int n
  | float x => exact .float x
  | string hS hl hr => exact .string hS (hkept _ _ rfl hl) hr

/-- What the handles of both values refer to is all that matters of the heaps. -/
theorem heaps {h₁' h₂' : Heap} (h : v.Alike Handle.Any h₁ h₂ w)
    (hl : ∀ r text, v.handle? = some r → h₁.get? r = some text → h₁'.get? r = some text)
    (hr : ∀ r text, w.handle? = some r → h₂.get? r = some text → h₂'.get? r = some text) :
    v.Alike Handle.Any h₁' h₂' w :=
  ((h.left hl).symm.left hr).symm

/-- Values that refer to something and stand for the same scalar are alike. -/
theorem of_toScalar (hv : v.Alike Handle.Any h₁ h₁ v) (hw : w.Alike Handle.Any h₂ h₂ w)
    (h : h₁.toScalar v = h₂.toScalar w) : v.Alike Handle.Any h₁ h₂ w := by
  cases hv with
  | string _ hl _ =>
      cases hw with
      | string _ hr _ =>
          simp only [Heap.toScalar, hl, hr, Scalar.string.injEq] at h
          subst h
          exact .string trivial hl hr
      | null | bool | int | float => simp [Heap.toScalar, hl] at h
  | null | bool | int | float =>
      -- a scalar that is no text is the value itself
      cases hw with
      | string _ hr _ => simp [Heap.toScalar, hr] at h
      | null | bool | int | float =>
          cases h <;> constructor

end Value.Alike

/-- The same scalar, put into two heaps. -/
theorem Value.Alike.ofScalar {h₁ h₂ : Heap} (ht₁ : h₁.Tidy) (ht₂ : h₂.Tidy) (s : Scalar) :
    (h₁.ofScalar s).2.Alike Handle.Any (h₁.ofScalar s).1 (h₂.ofScalar s).1 (h₂.ofScalar s).2 := by
  cases s with
  | null => exact .null
  | bool b => exact .bool b
  | int n => exact .int n
  | float x => exact .float x
  | string text => exact .string trivial (Heap.get?_new ht₁ text) (Heap.get?_new ht₂ text)

/-! ## 2. Rows -/

/-- Two rows of the same length, related at every position. -/
structure Abreast {α β : Type} (R : α → β → Prop) (a : Array α) (b : Array β) : Prop where
  size : a.size = b.size
  related : ∀ {i : Nat} {v : α} {w : β}, a[i]? = some v → b[i]? = some w → R v w

namespace Abreast

variable {α β : Type} {R : α → β → Prop} {a : Array α} {b : Array β}

theorem empty : Abreast R #[] #[] := ⟨rfl, fun h _ => by cases h⟩

/-- A position holds something in both rows or in none. -/
theorem lookup (h : Abreast R a b) (i : Nat) :
    (∃ v w, a[i]? = some v ∧ b[i]? = some w ∧ R v w) ∨ (a[i]? = none ∧ b[i]? = none) := by
  by_cases hi : i < a.size
  · have ha := Array.getElem?_eq_getElem hi
    have hb := Array.getElem?_eq_getElem (Nat.lt_of_lt_of_eq hi h.size)
    exact .inl ⟨_, _, ha, hb, h.related ha hb⟩
  · exact .inr ⟨Array.getElem?_eq_none (Nat.le_of_not_lt hi),
      Array.getElem?_eq_none (by rw [← h.size]; exact Nat.le_of_not_lt hi)⟩

theorem imp {S : α → β → Prop} (h : Abreast R a b) (hRS : ∀ v ∈ a, ∀ w ∈ b, R v w → S v w) :
    Abreast S a b :=
  ⟨h.size, fun ha hb => hRS _ (Array.mem_of_getElem? ha) _ (Array.mem_of_getElem? hb)
    (h.related ha hb)⟩

theorem flip {S : β → α → Prop} (h : Abreast R a b) (hRS : ∀ v w, R v w → S w v) : Abreast S b a :=
  ⟨h.size.symm, fun hb ha => hRS _ _ (h.related ha hb)⟩

/-- A row is related to itself as far as its values are. -/
theorem self {S : α → α → Prop} (h : Abreast R a b) (hRS : ∀ v ∈ a, ∀ w, R v w → S v v) :
    Abreast S a a := by
  refine ⟨rfl, fun {i v v'} hv hv' => ?_⟩
  rw [hv] at hv'
  cases hv'
  rcases h.lookup i with ⟨x, w, hx, -, hxw⟩ | ⟨hx, -⟩
  · rw [hv] at hx
    cases hx
    exact hRS v (Array.mem_of_getElem? hv) w hxw
  · rw [hv] at hx
    cases hx

theorem push (h : Abreast R a b) {v : α} {w : β} (hvw : R v w) :
    Abreast R (a.push v) (b.push w) := by
  refine ⟨by rw [Array.size_push, Array.size_push, h.size], fun {i x y} ha hb => ?_⟩
  rw [Array.getElem?_push, h.size] at ha
  rw [Array.getElem?_push] at hb
  by_cases hi : i = b.size
  · rw [if_pos hi] at ha hb
    cases ha
    cases hb
    exact hvw
  · rw [if_neg hi] at ha hb
    exact h.related ha hb

theorem shrink (h : Abreast R a b) (n : Nat) : Abreast R (a.shrink n) (b.shrink n) := by
  refine ⟨by rw [Array.size_shrink, Array.size_shrink, h.size], fun {i x y} ha hb => ?_⟩
  obtain ⟨hia, ha⟩ := Array.getElem?_eq_some_iff.mp ha
  obtain ⟨hib, hb⟩ := Array.getElem?_eq_some_iff.mp hb
  rw [Array.getElem_shrink] at ha hb
  exact h.related (Array.getElem?_eq_some_iff.mpr ⟨_, ha⟩) (Array.getElem?_eq_some_iff.mpr ⟨_, hb⟩)

theorem pop (h : Abreast R a b) : Abreast R a.pop b.pop := by
  refine ⟨by rw [Array.size_pop, Array.size_pop, h.size], fun {i x y} ha hb => ?_⟩
  rw [Array.getElem?_pop, h.size] at ha
  rw [Array.getElem?_pop] at hb
  by_cases hi : i < b.size - 1
  · rw [if_pos hi] at ha hb
    exact h.related ha hb
  · rw [if_neg hi] at ha
    cases ha

theorem setIfInBounds (h : Abreast R a b) (i : Nat) {v : α} {w : β} (hvw : R v w) :
    Abreast R (a.setIfInBounds i v) (b.setIfInBounds i w) := by
  refine ⟨by rw [Array.size_setIfInBounds, Array.size_setIfInBounds, h.size],
    fun {j x y} ha hb => ?_⟩
  rw [Array.getElem?_setIfInBounds, h.size] at ha
  rw [Array.getElem?_setIfInBounds] at hb
  by_cases hj : i = j
  · rw [if_pos hj] at ha hb
    by_cases hlt : i < b.size
    · rw [if_pos hlt] at ha hb
      cases ha
      cases hb
      exact hvw
    · rw [if_neg hlt] at ha
      cases ha
  · rw [if_neg hj] at ha hb
    exact h.related ha hb

theorem modify (h : Abreast R a b) (i : Nat) {f : α → α} {g : β → β}
    (hfg : ∀ v w, R v w → R (f v) (g w)) : Abreast R (a.modify i f) (b.modify i g) := by
  refine ⟨by rw [Array.size_modify, Array.size_modify, h.size], fun {j x y} ha hb => ?_⟩
  rw [Array.getElem?_modify] at ha hb
  by_cases hj : i = j
  · rw [if_pos hj] at ha hb
    obtain ⟨v, hv, rfl⟩ := Option.map_eq_some_iff.mp ha
    obtain ⟨w, hw, rfl⟩ := Option.map_eq_some_iff.mp hb
    exact hfg _ _ (h.related hv hw)
  · rw [if_neg hj] at ha hb
    exact h.related ha hb

theorem append {a' : Array α} {b' : Array β} (h : Abreast R a b) (h' : Abreast R a' b') :
    Abreast R (a ++ a') (b ++ b') := by
  refine ⟨by rw [Array.size_append, Array.size_append, h.size, h'.size], fun {i x y} ha hb => ?_⟩
  rw [Array.getElem?_append, h.size] at ha
  rw [Array.getElem?_append] at hb
  by_cases hi : i < b.size
  · rw [if_pos hi] at ha hb
    exact h.related ha hb
  · rw [if_neg hi] at ha hb
    exact h'.related ha hb

theorem replicate (n : Nat) {v : α} {w : β} (hvw : R v w) :
    Abreast R (Array.replicate n v) (Array.replicate n w) := by
  refine ⟨by rw [Array.size_replicate, Array.size_replicate], fun {i x y} ha hb => ?_⟩
  rw [Array.getElem?_replicate] at ha hb
  by_cases hi : i < n
  · rw [if_pos hi] at ha hb
    cases ha
    cases hb
    exact hvw
  · rw [if_neg hi] at ha
    cases ha

end Abreast

/-! ## 3. Stores and machines -/

/-- The same static fields in two heaps. -/
abbrev StaticsAlike (S : Handle → Handle → Prop) (h₁ h₂ : Heap) :
    Array (Array Value) → Array (Array Value) → Prop :=
  Abreast (Abreast (Value.Alike S h₁ h₂))

/-- **Stores that differ in their heaps only.** -/
structure Store.Alike (s₁ s₂ : Store) : Prop where
  tidy_left : s₁.heap.Tidy
  tidy_right : s₂.heap.Tidy
  statics : StaticsAlike Handle.Any s₁.heap s₂.heap s₁.statics s₂.statics
  scheduler : s₁.scheduler = s₂.scheduler
  reactor : s₁.reactor = s₂.reactor

/-- **Machines that differ in their heaps only.** -/
structure Machine.Alike (m₁ m₂ : Machine) : Prop where
  store : m₁.store.Alike m₂.store
  stack : Abreast (Value.Alike Handle.Any m₁.store.heap m₂.store.heap) m₁.stack m₂.stack
  frames : m₁.frames = m₂.frames

theorem StaticsAlike.symm {h₁ h₂ : Heap} {a b : Array (Array Value)}
    (h : StaticsAlike Handle.Any h₁ h₂ a b) : StaticsAlike Handle.Any h₂ h₁ b a :=
  h.flip fun _ _ h => h.flip fun _ _ h => h.symm

theorem StaticsAlike.self {h₁ h₂ : Heap} {a b : Array (Array Value)}
    {S : Handle → Handle → Prop} (h : StaticsAlike Handle.Any h₁ h₂ a b)
    (hS : ∀ fields ∈ a, ∀ v ∈ fields, ∀ r, v.handle? = some r → S r r) : StaticsAlike S h₁ h₁ a a :=
  Abreast.self h fun fields hf _ hfields =>
    hfields.self fun v hv _ hvw => hvw.self (hS fields hf v hv)

theorem Store.Alike.symm {s₁ s₂ : Store} (h : s₁.Alike s₂) : s₂.Alike s₁ :=
  ⟨h.tidy_right, h.tidy_left, StaticsAlike.symm h.statics, h.scheduler.symm, h.reactor.symm⟩

/-- A handle in a static field is among those gathered. -/
theorem mem_handles {statics : Array (Array Value)} {fields : Array Value} {v : Value}
    {r : Handle} (hf : fields ∈ statics) (hv : v ∈ fields) (hr : v.handle? = some r) :
    r ∈ statics.toList.flatMap fun fields => fields.toList.filterMap Value.handle? :=
  List.mem_flatMap.mpr ⟨fields, Array.mem_toList_iff.mpr hf,
    List.mem_filterMap.mpr ⟨v, Array.mem_toList_iff.mpr hv, hr⟩⟩

/-- Static fields stay alike if the first heap keeps the texts of those it holds. -/
theorem StaticsAlike.left {h₁ h₁' h₂ : Heap} {a b : Array (Array Value)}
    (h : StaticsAlike Handle.Any h₁ h₂ a b)
    (hkept : ∀ fields ∈ a, ∀ v ∈ fields, ∀ r text, v.handle? = some r →
      h₁.get? r = some text → h₁'.get? r = some text) : StaticsAlike Handle.Any h₁' h₂ a b :=
  h.imp fun fields hf _ _ hfields => hfields.imp fun v hv _ _ hvw => hvw.left (hkept fields hf v hv)

end EmbeddedVm
