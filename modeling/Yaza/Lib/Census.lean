import Yaza.Lib.Arena
import Mathlib.Data.List.Range

/-! How many objects of an arena have a property, and how the number changes with the arena. -/
namespace Arena
variable {α : Type*}

/-- The number of objects with the property, among the first `n` addresses. -/
def census (h : Arena α) (P : α → Bool) (n : ℕ) : ℕ := (List.range n).countP fun i => (h i).any P

variable {h h' : Arena α} {P : α → Bool} {n i : ℕ} {x : α}

@[simp] theorem census_zero : h.census P 0 = 0 := rfl

theorem census_succ : h.census P (n + 1) = h.census P n + if (h n).any P then 1 else 0 := by
  rw [census, List.range_succ, List.countP_append, census, List.countP_singleton]

/-- Only the addresses that are counted matter. -/
theorem census_congr (hh : ∀ i, i < n → h' i = h i) : h'.census P n = h.census P n := by
  induction n with
  | zero => rfl
  | succ n ih =>
    rw [census_succ, census_succ, ih fun i hi => hh i (by omega), hh n (by omega)]

/-- Nothing is counted where nothing is. -/
theorem census_unused (hn : h n = none) : h.census P (n + 1) = h.census P n := by
  rw [census_succ, hn]
  rfl

/-- A new object is counted at its new address. -/
theorem census_set_new :
    (h.set n x).census P (n + 1) = h.census P n + if P x then 1 else 0 := by
  rw [census_succ, set_self, census_congr fun i hi => set_of_ne h x (by omega)]
  rfl

/-- An object that goes is counted no more. -/
theorem census_erase (hi : i < n) (hx : h i = some x) :
    (h.erase i).census P n + (if P x then 1 else 0) = h.census P n := by
  induction n with
  | zero => omega
  | succ n ih =>
    rw [census_succ, census_succ]
    by_cases hin : i = n
    · subst hin
      rw [erase_self, hx, census_congr fun j hj => erase_of_ne h (by omega)]
      simp
    · rw [erase_of_ne h (by omega), ← ih (by omega)]
      omega

/-- An object that is replaced is counted as the one that replaces it. -/
theorem census_set (hi : i < n) (hx : h i = some x) (y : α) :
    (h.set i y).census P n + (if P x then 1 else 0) =
      h.census P n + if P y then 1 else 0 := by
  have h1 := census_erase (P := P) hi hx
  have h2 := census_erase (P := P) hi (set_self h i y)
  rw [erase_set] at h2
  omega

theorem census_pos (hi : i < n) (hx : h i = some x) (hP : P x = true) : 0 < h.census P n := by
  apply List.countP_pos_iff.mpr
  exact ⟨i, List.mem_range.mpr hi, by rw [hx]; exact hP⟩

theorem exists_of_census_pos (h0 : 0 < h.census P n) : ∃ i x, h i = some x ∧ P x = true := by
  obtain ⟨i, -, hi⟩ := List.countP_pos_iff.mp h0
  cases hx : h i with
  | none =>
    rw [hx] at hi
    cases hi
  | some x =>
    rw [hx] at hi
    exact ⟨i, x, hx, hi⟩

end Arena
