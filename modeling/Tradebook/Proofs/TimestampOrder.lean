import Mathlib.Order.Lattice
import Tradebook.Time.Timestamp

/-!
# Instants in order

Two instants compare by their position on the line that has room for the leap
seconds, and no two instants share a position. So the comparison is a linear
order, and from here on the library's lemmas about linear orders apply: `later`
and `earlier` are the maximum and the minimum.

The latest and the earliest of a list are both found by walking it with the
candidate so far and keeping the better of two. `foldl_choice` says once what
comes of such a walk.
-/

namespace Tradebook

namespace Timestamp

theorem le_iff_rank {a b : Timestamp} : a ≤ b ↔ a.rank ≤ b.rank := Iff.rfl

theorem lt_iff_rank {a b : Timestamp} : a < b ↔ a.rank < b.rank := Iff.rfl

theorem rank_injective : Function.Injective rank := by
  intro a b h
  have ha := a.nanos_lt
  have hb := b.nanos_lt
  unfold rank at h
  have hs : a.seconds = b.seconds := by omega
  have hn : a.nanos = b.nanos := by omega
  cases a
  cases b
  simp only [mk.injEq]
  exact ⟨hs, hn⟩

instance : LinearOrder Timestamp where
  le_refl a := le_iff_rank.2 (Int.le_refl _)
  le_trans a b c hab hbc := by
    rw [le_iff_rank] at hab hbc ⊢
    omega
  lt_iff_le_not_ge a b := by
    rw [le_iff_rank, le_iff_rank, lt_iff_rank]
    omega
  le_antisymm a b hab hba := by
    rw [le_iff_rank] at hab hba
    exact rank_injective (by omega)
  le_total a b := by
    rw [le_iff_rank, le_iff_rank]
    omega
  toDecidableLE := inferInstance
  toDecidableLT := inferInstance
  toDecidableEq := inferInstance

theorem later_eq_max (a b : Timestamp) : later a b = max a b := by
  unfold later
  split
  · next h => exact (max_eq_right (le_of_lt h)).symm
  · next h => exact (max_eq_left (not_lt.1 h)).symm

theorem earlier_eq_min (a b : Timestamp) : earlier a b = min a b := by
  unfold earlier
  split
  · next h => exact (min_eq_right (le_of_lt h)).symm
  · next h => exact (min_eq_left (not_lt.1 h)).symm

theorem earlier_le (a b : Timestamp) : earlier a b ≤ b := by
  rw [earlier_eq_min]
  exact min_le_right a b

theorem earlier_cases (a b : Timestamp) : earlier a b = a ∨ earlier a b = b := by
  rw [earlier_eq_min]
  exact (le_total a b).imp min_eq_left min_eq_right

theorem seconds_le_of_le {a b : Timestamp} (h : a ≤ b) : a.seconds ≤ b.seconds := by
  have hb := b.nanos_lt
  rw [le_iff_rank] at h
  unfold rank at h
  omega

end Timestamp

/-- A walk that keeps the better of two ends with an element of the list that
is at least as good as all others. -/
theorem foldl_choice {α : Type} {better : α → α → Prop} {choose : α → α → α}
    (hrefl : ∀ a, better a a)
    (htrans : ∀ a b c, better a b → better b c → better a c)
    (hchoose : ∀ a b, (choose a b = a ∨ choose a b = b) ∧
      better (choose a b) a ∧ better (choose a b) b)
    (xs : List α) (a : α) :
    xs.foldl choose a ∈ a :: xs ∧ ∀ b ∈ a :: xs, better (xs.foldl choose a) b := by
  induction xs generalizing a with
  | nil => simp [hrefl]
  | cons x xs ih =>
      obtain ⟨hmem, hbest⟩ := ih (choose a x)
      obtain ⟨hone, hleft, hright⟩ := hchoose a x
      have hhead := hbest (choose a x) (by simp)
      rw [List.foldl_cons]
      constructor
      · rcases List.mem_cons.1 hmem with h | h
        · rw [h]
          rcases hone with h' | h' <;> simp [h']
        · simp [h]
      · intro b hb
        rcases List.mem_cons.1 hb with rfl | hb
        · exact htrans _ _ _ hhead hleft
        · rcases List.mem_cons.1 hb with rfl | hb
          · exact htrans _ _ _ hhead hright
          · exact hbest b (by simp [hb])

end Tradebook
