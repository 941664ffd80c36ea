import Mathlib.Data.List.DropRight
import Tradebook.Text.Blank

/-!
# A text without the blanks around it

Once trimmed, a text begins and ends with something that is no blank, or it is empty
(`head?_trim`, `getLast?_trim`), and it is empty just if there was nothing but blanks
(`trim_eq_empty_iff`). A text that is like this already is left as it is (`trim_eq_self`).

The end is trimmed after the beginning and leaves a first part of what it is given, so the
beginning that was found stays the beginning.
-/

namespace Tradebook.Text

theorem dropWhile_isBlank {cs : List Char} (h : ∀ c ∈ cs.head?, isBlank c = false) :
    cs.dropWhile isBlank = cs := by
  cases cs with
  | nil => rfl
  | cons c cs =>
      have hc : ¬ isBlank c = true := by simp [h c rfl]
      exact List.dropWhile_cons_of_neg hc

/-- There is nothing to drop from a text with no blank at either end. -/
theorem trim_eq_self {s : String} (hfirst : ∀ c ∈ s.toList.head?, isBlank c = false)
    (hlast : ∀ c ∈ s.toList.getLast?, isBlank c = false) : trim s = s := by
  have hleft : trimLeft s.toList = s.toList := dropWhile_isBlank hfirst
  have hright : s.toList.reverse.dropWhile isBlank = s.toList.reverse := by
    refine dropWhile_isBlank ?_
    rwa [List.head?_reverse]
  rw [trim, hleft, trimRight, hright, List.reverse_reverse, String.ofList_toList]

theorem head?_trimLeft (cs : List Char) : ∀ c ∈ (trimLeft cs).head?, isBlank c = false := by
  intro c hc
  have hnot := List.head?_dropWhile_not isBlank cs
  rw [show (cs.dropWhile isBlank).head? = some c from hc] at hnot
  exact hnot

theorem getLast?_trimRight (cs : List Char) :
    ∀ c ∈ (trimRight cs).getLast?, isBlank c = false := by
  intro c hc
  rw [trimRight, List.getLast?_reverse] at hc
  exact head?_trimLeft cs.reverse c hc

theorem head?_trim (s : String) : ∀ c ∈ (trim s).toList.head?, isBlank c = false := by
  intro c hc
  rw [trim, String.toList_ofList] at hc
  obtain ⟨cs, hcs⟩ := List.head?_eq_some_iff.1 hc
  obtain ⟨dropped, hleft⟩ := List.rdropWhile_prefix isBlank (trimLeft s.toList)
  refine head?_trimLeft s.toList c ?_
  rw [← hleft, show List.rdropWhile isBlank (trimLeft s.toList) = c :: cs from hcs]
  rfl

theorem getLast?_trim (s : String) : ∀ c ∈ (trim s).toList.getLast?, isBlank c = false := by
  intro c hc
  rw [trim, String.toList_ofList] at hc
  exact getLast?_trimRight _ c hc

theorem trim_eq_empty_iff (s : String) : trim s = "" ↔ ∀ c ∈ s.toList, isBlank c = true := by
  unfold trim trimRight trimLeft
  rw [String.ofList_eq_empty_iff, List.reverse_eq_nil_iff, List.dropWhile_eq_nil_iff]
  simp only [List.mem_reverse]
  constructor
  · intro h c hc
    rw [← List.takeWhile_append_dropWhile (p := isBlank) (l := s.toList)] at hc
    rcases List.mem_append.1 hc with hc | hc
    · exact List.mem_takeWhile_imp hc
    · exact h c hc
  · intro h c hc
    exact h c ((List.dropWhile_sublist isBlank).subset hc)

theorem trim_ne_empty_iff (s : String) :
    trim s ≠ "" ↔ ∃ c ∈ s.toList, isBlank c = false := by
  rw [ne_eq, trim_eq_empty_iff]
  simp

end Tradebook.Text
