import EmbeddedVm.Module.Builder
import Mathlib.Algebra.Group.Nat.Defs
import Mathlib.Data.List.Nodup

/-!
# Tables that grow

A number that points into a table stays right as long as the table only grows behind its end. That
is what interning does with a pool, and no text comes into a pool twice.
-/

namespace EmbeddedVm

/-! ## 1. Places in a table -/

/-- What stands at a place of a table stands there in every longer one. -/
theorem getElem?_of_isPrefix {α : Type} {l l' : List α} (h : l <+: l') {i : Nat} {a : α}
    (hi : l[i]? = some a) : l'[i]? = some a := by
  obtain ⟨rest, rfl⟩ := h
  rw [List.getElem?_append_left (List.getElem?_eq_some_iff.mp hi).1, hi]

theorem isPrefix_of_eq {α : Type} {l l' : List α} (h : l = l') : l <+: l' := h ▸ List.prefix_rfl

/-- A place of a table that is no longer than there are 32-bit numbers. -/
theorem toNat_number32 {α : Type} {l : List α} {i : Nat} {a : α} (hi : l[i]? = some a)
    (hl : l.length ≤ 2 ^ 32) : (UInt32.ofNat i).toNat = i :=
  UInt32.toNat_ofNat_of_lt' (Nat.lt_of_lt_of_le (List.getElem?_eq_some_iff.mp hi).1 hl)

/-- What stands at the place of a name, in a table with names. -/
theorem exists_of_name {α : Type} {key : α → String} {l : List α} {i : Nat} {name : String}
    (hi : (l.map key)[i]? = some name) (hl : l.length ≤ 2 ^ 32) :
    ∃ a, l[(UInt32.ofNat i).toNat]? = some a ∧ key a = name := by
  rw [List.getElem?_map] at hi
  obtain ⟨a, ha, hname⟩ := Option.map_eq_some_iff.mp hi
  exact ⟨a, by rw [toNat_number32 ha hl]; exact ha, hname⟩

/-- A place of a table that is no longer than there are 16-bit numbers. -/
theorem toNat_number16 {α : Type} {l : List α} {i : Nat} {a : α} (hi : l[i]? = some a)
    (hl : l.length ≤ 2 ^ 16) : (UInt16.ofNat i).toNat = i :=
  UInt16.toNat_ofNat_of_lt' (Nat.lt_of_lt_of_le (List.getElem?_eq_some_iff.mp hi).1 hl)

/-- A table in which an entry is replaced by one with the same key has the keys it had. -/
theorem map_set_of_key {α β : Type} {key : α → β} {l : List α} {i : Nat} {a a' : α}
    (ha : l[i]? = some a) (hkey : key a' = key a) : (l.set i a').map key = l.map key := by
  obtain ⟨hi, rfl⟩ := List.getElem?_eq_some_iff.mp ha
  have hi' : i < (l.map key).length := by rwa [List.length_map]
  have hself : (l.map key).set i (l.map key)[i] = l.map key := List.set_getElem_self hi'
  rw [List.map_set, hkey]
  rwa [List.getElem_map] at hself

theorem map_modify_of_key {α β : Type} {key : α → β} {g : α → α} (hkey : ∀ a, key (g a) = key a)
    (l : List α) (i : Nat) : (l.modify i g).map key = l.map key := by
  refine List.ext_getElem? fun j => ?_
  rw [List.getElem?_map, List.getElem?_map, List.getElem?_modify]
  cases l[j]? with
  | none => rfl
  | some a =>
      refine congrArg some ?_
      dsimp only
      split
      · exact hkey a
      · rfl

/-! ## 2. Pools -/

namespace Pool

/-- **A pool holds a text once.** -/
theorem nodup_texts (p : Pool) : p.texts.Nodup := by
  rw [List.nodup_iff_getElem?_ne_getElem?]
  intro i j hij hj hsame
  obtain ⟨text, htext⟩ : ∃ text, p.texts[j]? = some text := ⟨_, List.getElem?_eq_getElem hj⟩
  have hi := (p.agree text i).mpr (hsame.trans htext)
  rw [(p.agree text j).mpr htext] at hi
  cases hi
  exact Nat.lt_irrefl _ hij

theorem texts_add (p : Pool) (text : String) (h : p.numbers[text]? = none) :
    (p.add text h).texts = p.texts ++ [text] := List.reverse_cons

theorem size_numbers (p : Pool) : p.numbers.size = p.texts.length :=
  p.counted.trans List.length_reverse.symm

/-- Interning only adds behind the end. -/
theorem texts_prefix_intern (p : Pool) (text : String) : p.texts <+: (p.intern text).1.texts := by
  unfold intern
  split
  · exact List.prefix_rfl
  · rw [texts_add]
    exact List.prefix_append _ _

/-- **The number of a text is its place.** -/
theorem texts_intern_number (p : Pool) (text : String) :
    (p.intern text).1.texts[(p.intern text).2]? = some text := by
  unfold intern
  split
  · rename_i i hi
    exact (p.agree text i).mp hi
  · rw [texts_add, size_numbers]
    exact List.getElem?_concat_length

/-- A new text gets the next number. -/
theorem intern_new {p : Pool} {text : String} (h : text ∉ p.texts) :
    (p.intern text).1.texts = p.texts ++ [text] ∧ (p.intern text).2 = p.texts.length := by
  unfold intern
  split
  · rename_i i hi
    exact absurd (List.mem_of_getElem? ((p.agree text i).mp hi)) h
  · rename_i hnone
    exact ⟨p.texts_add text hnone, p.size_numbers⟩

/-- Interning adds the text and nothing else. -/
theorem mem_texts_intern {p : Pool} {text other : String} :
    other ∈ (p.intern text).1.texts ↔ other ∈ p.texts ∨ other = text := by
  by_cases h : text ∈ p.texts
  · have hsame : (p.intern text).1 = p := by
      unfold intern
      split
      · rfl
      · rename_i hnone
        exact absurd h (not_mem_of_numbers hnone)
    rw [hsame]
    exact ⟨Or.inl, fun hother => hother.elim id fun heq => heq ▸ h⟩
  · rw [(intern_new h).1, List.mem_append, List.mem_singleton]

/-- Interns texts one after the other. -/
def internAll (p : Pool) (texts : List String) : Pool :=
  texts.foldl (fun p text => (p.intern text).1) p

theorem internAll_append (p : Pool) (texts texts' : List String) :
    p.internAll (texts ++ texts') = (p.internAll texts).internAll texts' := List.foldl_append

theorem mem_texts_internAll {p : Pool} {texts : List String} {other : String} :
    other ∈ (p.internAll texts).texts ↔ other ∈ p.texts ∨ other ∈ texts := by
  induction texts generalizing p with
  | nil => exact ⟨Or.inl, fun h => h.resolve_right List.not_mem_nil⟩
  | cons text rest ih =>
      show other ∈ ((p.intern text).1.internAll rest).texts ↔ _
      rw [ih, mem_texts_intern, List.mem_cons, or_assoc]

end Pool

/-- Pools that have grown. -/
structure Pools.Extends (p q : Pools) : Prop where
  strings : p.strings.texts <+: q.strings.texts
  natives : p.natives.texts <+: q.natives.texts

namespace Pools

theorem Extends.refl (p : Pools) : p.Extends p := ⟨List.prefix_rfl, List.prefix_rfl⟩

theorem Extends.trans {p q r : Pools} (h : p.Extends q) (h' : q.Extends r) : p.Extends r :=
  ⟨h.strings.trans h'.strings, h.natives.trans h'.natives⟩

theorem extends_string (p : Pools) (text : String) : p.Extends (p.string text).1 :=
  ⟨p.strings.texts_prefix_intern text, List.prefix_rfl⟩

theorem extends_native (p : Pools) (name : String) : p.Extends (p.native name).1 :=
  ⟨List.prefix_rfl, p.natives.texts_prefix_intern name⟩

/-- The number of a string is right in all pools to come that have numbers enough. -/
theorem string_number {p q : Pools} {text : String} (h : (p.string text).1.Extends q)
    (hq : q.strings.texts.length ≤ 2 ^ 32) :
    q.strings.texts[(p.string text).2.toNat]? = some text := by
  have hplace := getElem?_of_isPrefix h.strings (p.strings.texts_intern_number text)
  exact (congrArg (q.strings.texts[·]?) (toNat_number32 hplace hq)).trans hplace

/-- The number of an import is right in all pools to come that have numbers enough. -/
theorem native_number {p q : Pools} {name : String} (h : (p.native name).1.Extends q)
    (hq : q.natives.texts.length ≤ 2 ^ 16) :
    q.natives.texts[(p.native name).2.toNat]? = some name := by
  have hplace := getElem?_of_isPrefix h.natives (p.natives.texts_intern_number name)
  exact (congrArg (q.natives.texts[·]?) (toNat_number16 hplace hq)).trans hplace

end Pools

end EmbeddedVm
