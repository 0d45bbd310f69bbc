import Mathlib.Algebra.Order.Ring.Int
import Mathlib.Tactic.Linarith
import Mathlib.Tactic.Ring

/-! Points of a grid: the rounds of a loop that goes on by one step until it has caught up. -/
namespace Grid

/-- The loop `do x += step; while (now > x)`. -/
def catchUp (step : ℕ) (hs : 0 < step) (now x : ℤ) : ℤ :=
  if now > x + step then catchUp step hs now (x + step) else x + step
termination_by (now - x).toNat
decreasing_by omega

variable {step : ℕ} {hs : 0 < step} {now x : ℤ}

/-- The loop stops after some rounds, the first time it is not behind. -/
theorem catchUp_rounds (step : ℕ) (hs : 0 < step) (now x : ℤ) :
    ∃ n : ℕ, 1 ≤ n ∧ catchUp step hs now x = x + n * step ∧ now ≤ x + n * step ∧
      ∀ m : ℕ, 1 ≤ m → m < n → x + m * step < now := by
  fun_induction catchUp step hs now x with
  | case1 x hx ih =>
    obtain ⟨n, h1, h2, h3, h4⟩ := ih
    have he : x + step + n * step = x + ((n + 1 : ℕ) : ℤ) * step := by push_cast; ring
    refine ⟨n + 1, by omega, by rw [h2, he], he ▸ h3, fun m hm hn => ?_⟩
    obtain ⟨m, rfl⟩ := Nat.exists_eq_add_of_le' hm
    rcases Nat.eq_zero_or_pos m with rfl | hp
    · push_cast
      linarith
    · have h5 := h4 m hp (by omega)
      push_cast
      linarith
  | case2 x hx =>
    refine ⟨1, Nat.le_refl 1, by push_cast; ring, by push_cast; linarith, fun m hm hn => ?_⟩
    omega

theorem le_catchUp : now ≤ catchUp step hs now x := by
  obtain ⟨n, -, h1, h2, -⟩ := catchUp_rounds step hs now x
  rwa [h1]

theorem lt_catchUp : x < catchUp step hs now x := by
  obtain ⟨n, h1, h2, -, -⟩ := catchUp_rounds step hs now x
  rw [h2]
  have h3 : (0 : ℤ) < n * step := by
    apply Int.mul_pos <;> omega
  linarith

/-- It goes one step from where it was, or stops less than one step after `now`. -/
theorem catchUp_sub_le : catchUp step hs now x ≤ max x now + step := by
  obtain ⟨n, h1, h2, -, h4⟩ := catchUp_rounds step hs now x
  rw [h2]
  rcases Nat.lt_or_ge 1 n with hn | hn
  · obtain ⟨m, rfl⟩ := Nat.exists_eq_add_of_le' h1
    have h5 := h4 m (by omega) (by omega)
    have h6 := le_max_right x now
    push_cast
    linarith
  · obtain rfl : n = 1 := by omega
    have h6 := le_max_left x now
    push_cast
    linarith

end Grid
