import Std.Data.TreeMap.Lemmas

/-!
# Pools of texts

A pool holds texts, each once, numbered in the order in which they came. A number that was handed
out stays the number of its text, because texts are only added behind the others. Beside the texts a
pool has a search tree from a text to its number; the two agree in every pool there is.
-/

namespace EmbeddedVm

/-- Behind a list that does not have an entry, this entry stands at the end alone, and the others
    stand where they stood. -/
theorem getElem?_append_new {α : Type} [DecidableEq α] {l : List α} {a : α} (h : a ∉ l) (b : α)
    (i : Nat) : (l ++ [a])[i]? = some b ↔ if a = b then l.length = i else l[i]? = some b := by
  rcases Nat.lt_trichotomy i l.length with hlt | rfl | hgt
  · rw [List.getElem?_append_left hlt]
    split
    · rename_i hab
      subst hab
      exact ⟨fun hi => absurd (List.mem_of_getElem? hi) h, fun hi => absurd hi (by omega)⟩
    · exact Iff.rfl
  · rw [List.getElem?_concat_length, Option.some_inj]
    split
    · rename_i hab
      exact ⟨fun _ => rfl, fun _ => hab⟩
    · rename_i hab
      rw [List.getElem?_eq_none (Nat.le_refl _)]
      exact ⟨fun h => absurd h hab, (nomatch ·)⟩
  · rw [List.getElem?_eq_none (by rw [List.length_append, List.length_singleton]; omega),
      List.getElem?_eq_none (Nat.le_of_lt hgt)]
    split
    · exact ⟨(nomatch ·), fun h => absurd h (by omega)⟩
    · exact Iff.rfl

/-- Texts, each once, with their numbers. The texts stand with the last one first; a text has a
    number exactly if it stands there. -/
structure Pool where
  newest : List String
  numbers : Std.TreeMap String Nat
  counted : numbers.size = newest.length
  agree : ∀ (text : String) (i : Nat), numbers[text]? = some i ↔ newest.reverse[i]? = some text

namespace Pool

/-- The texts in the order of their numbers. -/
def texts (p : Pool) : List String := p.newest.reverse

/-- The pool without texts. -/
def empty : Pool where
  newest := []
  numbers := ∅
  counted := rfl
  agree text i := by simp

instance : Inhabited Pool := ⟨empty⟩

/-- A text without a number is not in the pool. -/
theorem not_mem_of_numbers {p : Pool} {text : String} (h : p.numbers[text]? = none) :
    text ∉ p.texts := by
  intro hmem
  obtain ⟨i, hi⟩ := List.mem_iff_getElem?.mp hmem
  rw [(p.agree text i).mpr hi] at h
  cases h

/-- Adds a text that is not in the pool. -/
def add (p : Pool) (text : String) (h : p.numbers[text]? = none) : Pool where
  newest := text :: p.newest
  numbers := p.numbers.insert text p.numbers.size
  counted := by
    have hnew : p.numbers.contains text = false := by
      rw [Std.TreeMap.contains_eq_isSome_getElem?, h]
      rfl
    rw [Std.TreeMap.size_insert, hnew, List.length_cons, p.counted]
    rfl
  agree other i := by
    have hnew : text ∉ p.newest.reverse := not_mem_of_numbers h
    rw [Std.TreeMap.getElem?_insert, List.reverse_cons, getElem?_append_new hnew,
      List.length_reverse, p.counted]
    by_cases hsame : text = other
    · rw [if_pos (Std.LawfulEqCmp.compare_eq_iff_eq.mpr hsame), if_pos hsame, Option.some_inj]
    · rw [if_neg (hsame ∘ Std.LawfulEqCmp.compare_eq_iff_eq.mp), if_neg hsame]
      exact p.agree other i

/-- The number of a text, which is added if it is new. -/
def intern (p : Pool) (text : String) : Pool × Nat :=
  match h : p.numbers[text]? with
  | some i => (p, i)
  | none => (p.add text h, p.numbers.size)

end Pool

end EmbeddedVm
