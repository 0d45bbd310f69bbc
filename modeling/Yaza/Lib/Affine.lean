import Mathlib.Algebra.Quaternion
import Mathlib.Analysis.SpecialFunctions.Trigonometric.Basic
import Mathlib.LinearAlgebra.Matrix.DotProduct
import Mathlib.LinearAlgebra.Matrix.Notation
import Mathlib.Tactic.LinearCombination

/-! Affine maps of space as `4 × 4` matrices on homogeneous coordinates: translations, the
rotation of a quaternion, scalings. -/
namespace Affine
open Matrix Quaternion

abbrev Mat4 := Matrix (Fin 4) (Fin 4) ℝ

/-- `v` as a direction in homogeneous coordinates. -/
def direction (v : Fin 3 → ℝ) : Fin 4 → ℝ := ![v 0, v 1, v 2, 0]

/-- A point without its last coordinate. -/
def xyz (p : Fin 4 → ℝ) : Fin 3 → ℝ := fun k => p k.castSucc

/-- The translation by `v`. -/
def translation (v : Fin 3 → ℝ) : Mat4 :=
  !![1, 0, 0, v 0;
     0, 1, 0, v 1;
     0, 0, 1, v 2;
     0, 0, 0, 1]

/-- The scaling of the axes by `v`. -/
def scale (v : Fin 3 → ℝ) : Mat4 :=
  !![v 0, 0, 0, 0;
     0, v 1, 0, 0;
     0, 0, v 2, 0;
     0, 0, 0, 1]

/-- The matrix of a quaternion, a rotation when it is a unit. -/
def rotate (q : ℍ[ℝ]) : Mat4 :=
  !![1 - 2 * (q.imJ * q.imJ + q.imK * q.imK), 2 * (q.imI * q.imJ - q.re * q.imK),
      2 * (q.imI * q.imK + q.re * q.imJ), 0;
     2 * (q.imI * q.imJ + q.re * q.imK), 1 - 2 * (q.imI * q.imI + q.imK * q.imK),
      2 * (q.imJ * q.imK - q.re * q.imI), 0;
     2 * (q.imI * q.imK - q.re * q.imJ), 2 * (q.imJ * q.imK + q.re * q.imI),
      1 - 2 * (q.imI * q.imI + q.imJ * q.imJ), 0;
     0, 0, 0, 1]

/-- The quaternion of the rotation by `angle` about the unit vector `axis`. -/
noncomputable def angleAxis (angle : ℝ) (axis : Fin 3 → ℝ) : ℍ[ℝ] :=
  ⟨Real.cos (angle / 2), axis 0 * Real.sin (angle / 2), axis 1 * Real.sin (angle / 2),
    axis 2 * Real.sin (angle / 2)⟩

/-- The image of a vector under the rotation of a quaternion. -/
def turn (q : ℍ[ℝ]) (v : Fin 3 → ℝ) : Fin 3 → ℝ := fun i => (rotate q *ᵥ direction v) i.castSucc

theorem translation_add (u v : Fin 3 → ℝ) :
    translation (u + v) = translation u * translation v := by
  ext i j
  fin_cases i <;> fin_cases j <;>
    simp [translation, Matrix.mul_apply, Fin.sum_univ_four, add_comm]

theorem translation_zero : translation 0 = 1 := by
  ext i j
  fin_cases i <;> fin_cases j <;> simp [translation]

/-- A translation moves points, and leaves directions. -/
theorem translation_mulVec (v : Fin 3 → ℝ) (p : Fin 4 → ℝ) :
    translation v *ᵥ p = p + p 3 • direction v := by
  ext i
  fin_cases i <;>
    simp [translation, direction, Matrix.mulVec, dotProduct, Fin.sum_univ_four, mul_comm]

theorem angleAxis_zero (axis : Fin 3 → ℝ) : angleAxis 0 axis = 1 := by
  ext <;> simp [angleAxis]

theorem direction_eq_zero {v : Fin 3 → ℝ} : direction v = 0 ↔ v = 0 := by
  constructor
  · intro h
    ext i
    fin_cases i
    · exact congrFun h 0
    · exact congrFun h 1
    · exact congrFun h 2
  · rintro rfl
    ext i
    fin_cases i <;> rfl

/-- A translation can be taken back. -/
theorem translation_mul_inj {v : Fin 3 → ℝ} {A B : Mat4} :
    translation v * A = translation v * B ↔ A = B := by
  refine ⟨fun h => ?_, fun h => h ▸ rfl⟩
  have h1 : translation (-v) * translation v = 1 := by
    rw [← translation_add, neg_add_cancel, translation_zero]
  calc A = translation (-v) * translation v * A := by rw [h1, Matrix.one_mul]
    _ = translation (-v) * (translation v * B) := by rw [Matrix.mul_assoc, h]
    _ = B := by rw [← Matrix.mul_assoc, h1, Matrix.one_mul]

/-- A matrix that sends points to points. -/
def KeepsPoints (A : Mat4) : Prop := A 3 = ![0, 0, 0, 1]

theorem KeepsPoints.mulVec {A : Mat4} (h : KeepsPoints A) (p : Fin 4 → ℝ) :
    (A *ᵥ p) 3 = p 3 := by
  have h0 : A 3 0 = 0 := congrFun h 0
  have h1 : A 3 1 = 0 := congrFun h 1
  have h2 : A 3 2 = 0 := congrFun h 2
  have h3 : A 3 3 = 1 := congrFun h 3
  simp [Matrix.mulVec, dotProduct, Fin.sum_univ_four, h0, h1, h2, h3]

theorem KeepsPoints.mul {A B : Mat4} (hA : KeepsPoints A) (hB : KeepsPoints B) :
    KeepsPoints (A * B) := by
  have h0 : A 3 0 = 0 := congrFun hA 0
  have h1 : A 3 1 = 0 := congrFun hA 1
  have h2 : A 3 2 = 0 := congrFun hA 2
  have h3 : A 3 3 = 1 := congrFun hA 3
  ext j
  have hj : B 3 j = ![0, 0, 0, 1] j := congrFun hB j
  simp [Matrix.mul_apply, Fin.sum_univ_four, h0, h1, h2, h3, hj]

theorem translation_keepsPoints (v : Fin 3 → ℝ) : KeepsPoints (translation v) := rfl

theorem scale_keepsPoints (v : Fin 3 → ℝ) : KeepsPoints (scale v) := rfl

theorem rotate_keepsPoints (q : ℍ[ℝ]) : KeepsPoints (rotate q) := rfl

/-- A translation moves the image of a point under an affine map, unless it is by zero. -/
theorem translation_mulVec_eq_iff {v : Fin 3 → ℝ} {A : Mat4} (hA : KeepsPoints A)
    {p : Fin 4 → ℝ} (hp : p 3 = 1) : (translation v * A) *ᵥ p = A *ᵥ p ↔ v = 0 := by
  rw [← Matrix.mulVec_mulVec, translation_mulVec, hA.mulVec, hp, one_smul, add_eq_left,
    direction_eq_zero]

/-- Where the origin goes. -/
theorem translation_mul_origin (v : Fin 3 → ℝ) (q : ℍ[ℝ]) (s : Fin 3 → ℝ) (i : Fin 3) :
    (translation v * rotate q * scale s) i.castSucc 3 = v i := by
  fin_cases i <;>
    simp [translation, rotate, scale, Matrix.mul_apply, Fin.sum_univ_four]

theorem turn_apply (q : ℍ[ℝ]) (v : Fin 3 → ℝ) : turn q v =
    ![(1 - 2 * (q.imJ * q.imJ + q.imK * q.imK)) * v 0 +
        2 * (q.imI * q.imJ - q.re * q.imK) * v 1 + 2 * (q.imI * q.imK + q.re * q.imJ) * v 2,
      2 * (q.imI * q.imJ + q.re * q.imK) * v 0 +
        (1 - 2 * (q.imI * q.imI + q.imK * q.imK)) * v 1 +
        2 * (q.imJ * q.imK - q.re * q.imI) * v 2,
      2 * (q.imI * q.imK - q.re * q.imJ) * v 0 + 2 * (q.imJ * q.imK + q.re * q.imI) * v 1 +
        (1 - 2 * (q.imI * q.imI + q.imJ * q.imJ)) * v 2] := by
  ext i
  fin_cases i <;>
    simp [turn, rotate, direction, Matrix.mulVec, dotProduct, Fin.sum_univ_four]

theorem turn_add (q : ℍ[ℝ]) (u v : Fin 3 → ℝ) : turn q (u + v) = turn q u + turn q v := by
  ext i
  fin_cases i <;> simp [turn_apply] <;> ring

theorem turn_smul (q : ℍ[ℝ]) (s : ℝ) (v : Fin 3 → ℝ) : turn q (s • v) = s • turn q v := by
  ext i
  fin_cases i <;> simp [turn_apply] <;> ring

theorem turn_sub (q : ℍ[ℝ]) (u v : Fin 3 → ℝ) : turn q (u - v) = turn q u - turn q v := by
  rw [sub_eq_add_neg, ← neg_one_smul ℝ v, turn_add, turn_smul, neg_one_smul, ← sub_eq_add_neg]

theorem turn_one (v : Fin 3 → ℝ) : turn 1 v = v := by
  ext i
  fin_cases i <;> simp [turn_apply]

/-- A unit quaternion keeps lengths and angles. -/
theorem turn_dotProduct {q : ℍ[ℝ]} (hq : normSq q = 1) (u v : Fin 3 → ℝ) :
    turn q u ⬝ᵥ turn q v = u ⬝ᵥ v := by
  rw [normSq_def'] at hq
  simp only [turn_apply, dotProduct, Fin.sum_univ_three, Matrix.cons_val]
  linear_combination 4 * ((q.imJ * u 2 - q.imK * u 1) * (q.imJ * v 2 - q.imK * v 1) +
    (q.imK * u 0 - q.imI * u 2) * (q.imK * v 0 - q.imI * v 2) +
    (q.imI * u 1 - q.imJ * u 0) * (q.imI * v 1 - q.imJ * v 0)) * hq

theorem normSq_angleAxis (angle : ℝ) {axis : Fin 3 → ℝ} (h : axis ⬝ᵥ axis = 1) :
    normSq (angleAxis angle axis) = 1 := by
  have h1 := Real.sin_sq_add_cos_sq (angle / 2)
  simp only [dotProduct, Fin.sum_univ_three] at h
  rw [normSq_def']
  simp only [angleAxis]
  linear_combination h1 + Real.sin (angle / 2) ^ 2 * h

/-- Only the zero vector is turned to zero. -/
theorem turn_eq_zero {q : ℍ[ℝ]} (hq : normSq q = 1) {v : Fin 3 → ℝ} : turn q v = 0 ↔ v = 0 := by
  rw [← dotProduct_self_eq_zero, turn_dotProduct hq, dotProduct_self_eq_zero]

/-- The image of a point: scaled, turned and moved. -/
theorem xyz_mulVec (v : Fin 3 → ℝ) (q : ℍ[ℝ]) (s c : Fin 3 → ℝ) :
    xyz ((translation v * rotate q * scale s) *ᵥ ![c 0, c 1, c 2, 1]) = v + turn q (s * c) := by
  ext i
  fin_cases i <;>
    simp [xyz, translation, rotate, scale, turn_apply, Matrix.mul_apply, Matrix.mulVec, dotProduct,
      Fin.sum_univ_four] <;> ring

end Affine
