import Mathlib.Analysis.Real.Sqrt
import Mathlib.LinearAlgebra.CrossProduct
import Mathlib.LinearAlgebra.Matrix.Notation
import Mathlib.LinearAlgebra.Matrix.NonsingularInverse
import Mathlib.Tactic.LinearCombination
import Yaza.Lib.Slab

/-! Where a ray meets a box or a parallelogram, `util::intersection`. -/
namespace Yaza.Intersection
open Matrix

section Code
variable {K : Type*} [Field K] [LinearOrder K]

/-- `glm::normalize`, over `glm::inversesqrt`. -/
def normalize (inversesqrt : K → K) (v : Fin 3 → K) : Fin 3 → K := inversesqrt (v ⬝ᵥ v) • v

/-- A column of a `glm::mat4` as a `glm::vec3`. -/
def column (modelMat : Matrix (Fin 4) (Fin 4) K) (i : Fin 4) : Fin 3 → K :=
  fun k => modelMat k.castSucc i

/-- A round of the loop in `with_obb`, on `near` and `far`. -/
def clipAxis (halfSize e f : K) : K × WithTop K → Option (K × WithTop K)
  | (near, far) =>
    if |f| > 1 / 1000 then
      let intersectMin := (e - halfSize) / f
      let intersectMax := (e + halfSize) / f
      let (intersectMin, intersectMax) :=
        if intersectMin > intersectMax then (intersectMax, intersectMin)
        else (intersectMin, intersectMax)
      let far := min far (intersectMax : WithTop K)
      let near := max near intersectMin
      if far < near then none else some (near, far)
    else if -e - halfSize > 0 ∨ -e + halfSize < 0 then none
    else some (near, far)

/-- `with_obb`. `far` is `⊤` for the largest float. -/
def withObb (inversesqrt : K → K) (origin direction halfSize : Fin 3 → K)
    (modelMat : Matrix (Fin 4) (Fin 4) K) : Option K :=
  let directionNorm := normalize inversesqrt direction
  let delta := column modelMat (Fin.last 3) - origin
  ((List.finRange 3).foldlM (fun s i =>
    let axis := column modelMat i.castSucc
    clipAxis (halfSize i) (axis ⬝ᵥ delta) (directionNorm ⬝ᵥ axis) s) (0, ⊤)).map Prod.fst

/-- `SurfaceInfo`. -/
@[ext] structure SurfaceInfo (K : Type*) where
  distance : K
  u : K
  v : K

/-- `input::IntersectInfo`, what an object answers to a ray. -/
structure IntersectInfo (K : Type*) where
  origin : Fin 3 → K
  direction : Fin 3 → K
  distance : K
  pos : Fin 3 → K

/-- `with_surface`. -/
def withSurface (inversesqrt : K → K) (o dir v0 v1 v2 : Fin 3 → K) : Option (SurfaceInfo K) :=
  let d := normalize inversesqrt dir
  let e1 := v1 - v0
  let e2 := v2 - v0
  let w := o - v0
  let p := d ⨯₃ e2
  let q := w ⨯₃ e1
  let det := p ⬝ᵥ e1
  let t := q ⬝ᵥ e2 / det
  if t < 0 then none
  else
    let u := p ⬝ᵥ w / det
    if u < 0 ∨ u > 1 then none
    else
      let v := q ⬝ᵥ d / det
      if v < 0 ∨ v > 1 then none else some ⟨t, u, v⟩

end Code

/-- `glm::inversesqrt`. -/
noncomputable def inversesqrt (x : ℝ) : ℝ := (√x)⁻¹

/-- A unit vector is its own direction. -/
theorem normalize_of_unit {d : Fin 3 → ℝ} (hd : d ⬝ᵥ d = 1) : normalize inversesqrt d = d := by
  simp [normalize, inversesqrt, hd]

section Box
variable {K : Type*} [Field K] [LinearOrder K]

/-- The points of a box: within its half size of the centre along every axis. -/
def InBox (halfSize : Fin 3 → K) (modelMat : Matrix (Fin 4) (Fin 4) K) (p : Fin 3 → K) : Prop :=
  ∀ i : Fin 3, |column modelMat i.castSucc ⬝ᵥ (p - column modelMat (Fin.last 3))| ≤ halfSize i

/-- The ray is parallel to an axis or clearly not. -/
def GeneralPosition (d : Fin 3 → K) (modelMat : Matrix (Fin 4) (Fin 4) K) : Prop :=
  ∀ i : Fin 3, d ⬝ᵥ column modelMat i.castSucc = 0 ∨
    |d ⬝ᵥ column modelMat i.castSucc| > 1 / 1000

/-- How far along the ray the points of the box are. -/
def inside (o d halfSize : Fin 3 → K) (modelMat : Matrix (Fin 4) (Fin 4) K) : Set K :=
  {s | 0 ≤ s ∧ InBox halfSize modelMat (o + s • d)}

/-- Along the ray the box is the part that all its slabs share. -/
theorem inside_eq (o d halfSize : Fin 3 → K) (modelMat : Matrix (Fin 4) (Fin 4) K) :
    inside o d halfSize modelMat = Set.Ici 0 ∩ {s | ∀ i ∈ List.finRange 3,
      s ∈ {s | |s * (d ⬝ᵥ column modelMat i.castSucc) -
        column modelMat i.castSucc ⬝ᵥ (column modelMat (Fin.last 3) - o)| ≤ halfSize i}} := by
  ext s
  simp only [inside, InBox, Set.mem_ofPred_eq, Set.mem_inter_iff, Set.mem_Ici,
    List.mem_finRange, true_imp_iff]
  have h (i : Fin 3) : column modelMat i.castSucc ⬝ᵥ (o + s • d - column modelMat (Fin.last 3)) =
      s * (d ⬝ᵥ column modelMat i.castSucc) -
        column modelMat i.castSucc ⬝ᵥ (column modelMat (Fin.last 3) - o) := by
    simp only [dotProduct_sub, dotProduct_add, dotProduct_smul, smul_eq_mul,
      dotProduct_comm (column modelMat i.castSucc) d]
    ring
  simp only [h]

omit [Field K] in
/-- The two bounds come out in order. -/
theorem swap_eq (a b : K) : (if a > b then (b, a) else (a, b)) = (min a b, max a b) := by
  split
  next h => rw [min_eq_right h.le, max_eq_left h.le]
  next h => rw [min_eq_left (not_lt.mp h), max_eq_right (not_lt.mp h)]

variable [IsStrictOrderedRing K]

/-- A round cuts the slab of its axis out of what is left. -/
theorem clipAxis_bounds {halfSize f : K} (e : K) (hh : 0 ≤ halfSize)
    (hf : f = 0 ∨ |f| > 1 / 1000) {near : K} {far : WithTop K} (hn : near ≤ far) :
    Slab.Bounds (Slab.between near far ∩ {s | |s * f - e| ≤ halfSize})
      (clipAxis halfSize e f (near, far)) := by
  have hk : (0 : K) < 1 / 1000 := by positivity
  rcases hf with rfl | hf
  · have h1 : ¬ |(0 : K)| > 1 / 1000 := by simp
    simp only [clipAxis, h1, if_false, mul_zero, zero_sub, abs_neg, abs_le]
    split
    next h =>
      have h2 : ¬ (-halfSize ≤ e ∧ e ≤ halfSize) := by
        rintro ⟨h2, h3⟩
        rcases h with h | h <;> linarith
      simp [Slab.Bounds, h2]
    next h =>
      rw [not_or, not_lt, not_lt] at h
      have h2 : -halfSize ≤ e ∧ e ≤ halfSize := ⟨by linarith [h.1], by linarith [h.2]⟩
      simp [Slab.Bounds, h2, hn]
  · have h0 : f ≠ 0 := by
      rintro rfl
      rw [abs_zero] at hf
      linarith
    rw [Slab.slab_of_ne_zero h0 hh, Slab.between_inter]
    simp only [clipAxis, hf, if_true, swap_eq]
    exact Slab.bounds_between _ _

/-- The loop leaves the bounds of the box along the ray. -/
theorem withObb_least {inversesqrt : K → K} {o d halfSize : Fin 3 → K}
    {modelMat : Matrix (Fin 4) (Fin 4) K} (hd : normalize inversesqrt d = d)
    (hh : ∀ i, 0 ≤ halfSize i) (hf : GeneralPosition d modelMat) :
    Slab.Least (inside o d halfSize modelMat) (withObb inversesqrt o d halfSize modelMat) := by
  apply Slab.Bounds.least
  rw [inside_eq, hd]
  apply (Slab.bounds_Ici 0).foldlM
  intro near far i hn
  exact clipAxis_bounds _ (hh i) (hf i) hn

end Box

/-- `with_obb` finds the least distance at which the ray is in the box, if it comes there. -/
theorem withObb_isLeast {o d halfSize : Fin 3 → ℝ} {modelMat : Matrix (Fin 4) (Fin 4) ℝ}
    (hd : d ⬝ᵥ d = 1) (hh : ∀ i, 0 ≤ halfSize i) (hf : GeneralPosition d modelMat) :
    ((withObb inversesqrt o d halfSize modelMat).isSome ↔
        ∃ s : ℝ, 0 ≤ s ∧ InBox halfSize modelMat (o + s • d)) ∧
      ∀ t, withObb inversesqrt o d halfSize modelMat = some t ↔
        IsLeast {s : ℝ | 0 ≤ s ∧ InBox halfSize modelMat (o + s • d)} t := by
  have h := withObb_least (o := o) (normalize_of_unit hd) hh hf
  exact ⟨h.isSome_iff, h.eq_some_iff⟩

/-- From in front of a cube, towards it. -/
theorem withObb_isLeast_cube :
    ((withObb inversesqrt ![0, 0, -3] ![0, 0, 1] 1 1).isSome ↔
        ∃ s : ℝ, 0 ≤ s ∧ InBox 1 1 ((![0, 0, -3] : Fin 3 → ℝ) + s • ![0, 0, 1])) ∧
      ∀ t, withObb inversesqrt ![0, 0, -3] ![0, 0, 1] 1 1 = some t ↔
        IsLeast {s : ℝ | 0 ≤ s ∧ InBox 1 1 ((![0, 0, -3] : Fin 3 → ℝ) + s • ![0, 0, 1])} t := by
  refine withObb_isLeast (by simp)
    (fun _ => zero_le_one) fun i => ?_
  have h : (![0, 0, 1] : Fin 3 → ℝ) ⬝ᵥ column 1 (Fin.castSucc 2) = 1 := by
    rw [dotProduct, Fin.sum_univ_three]
    simp [column]
  fin_cases i
  · simp [vecHead, vecTail, column]
  · simp [vecHead, vecTail, column]
  · right
    change |(![0, 0, 1] : Fin 3 → ℝ) ⬝ᵥ column 1 (Fin.castSucc 2)| > 1 / 1000
    rw [h]
    norm_num

section Surface
variable {K : Type*} [Field K]

/-- Cramer's rule for three directions of space, by triple products. -/
theorem cross_solve {d e1 e2 w : Fin 3 → K} (hdet : d ⨯₃ e2 ⬝ᵥ e1 ≠ 0) (t u v : K) :
    w + t • d = u • e1 + v • e2 ↔
      t = w ⨯₃ e1 ⬝ᵥ e2 / (d ⨯₃ e2 ⬝ᵥ e1) ∧ u = d ⨯₃ e2 ⬝ᵥ w / (d ⨯₃ e2 ⬝ᵥ e1) ∧
        v = w ⨯₃ e1 ⬝ᵥ d / (d ⨯₃ e2 ⬝ᵥ e1) := by
  rw [eq_div_iff hdet, eq_div_iff hdet, eq_div_iff hdet]
  simp only [cross_apply, dotProduct, Fin.sum_univ_three, Matrix.cons_val] at hdet ⊢
  constructor
  · intro h
    have h0 : w 0 + t * d 0 = u * e1 0 + v * e2 0 := congrFun h 0
    have h1 : w 1 + t * d 1 = u * e1 1 + v * e2 1 := congrFun h 1
    have h2 : w 2 + t * d 2 = u * e1 2 + v * e2 2 := congrFun h 2
    refine ⟨?_, ?_, ?_⟩
    -- against `e1 × e2`, against `d × e2`, against `e1 × d`
    · linear_combination -(e1 1 * e2 2 - e1 2 * e2 1) * h0 - (e1 2 * e2 0 - e1 0 * e2 2) * h1 -
        (e1 0 * e2 1 - e1 1 * e2 0) * h2
    · linear_combination -(d 1 * e2 2 - d 2 * e2 1) * h0 - (d 2 * e2 0 - d 0 * e2 2) * h1 -
        (d 0 * e2 1 - d 1 * e2 0) * h2
    · linear_combination -(e1 1 * d 2 - e1 2 * d 1) * h0 - (e1 2 * d 0 - e1 0 * d 2) * h1 -
        (e1 0 * d 1 - e1 1 * d 0) * h2
  · rintro ⟨h0, h1, h2⟩
    ext i
    apply mul_right_cancel₀ hdet
    fin_cases i
    · change (w 0 + t * d 0) * _ = (u * e1 0 + v * e2 0) * _
      linear_combination d 0 * h0 - e1 0 * h1 - e2 0 * h2
    · change (w 1 + t * d 1) * _ = (u * e1 1 + v * e2 1) * _
      linear_combination d 1 * h0 - e1 1 * h1 - e2 1 * h2
    · change (w 2 + t * d 2) * _ = (u * e1 2 + v * e2 2) * _
      linear_combination d 2 * h0 - e1 2 * h1 - e2 2 * h2

end Surface

/-- The point of the ray at the distance is the point of the plane at the coordinates. -/
def SurfaceInfo.Solves (i : SurfaceInfo ℝ) (o d v0 v1 v2 : Fin 3 → ℝ) : Prop :=
  o + i.distance • d = v0 + i.u • (v1 - v0) + i.v • (v2 - v0)

/-- It lies ahead on the ray and within the parallelogram. -/
def SurfaceInfo.Within (i : SurfaceInfo ℝ) : Prop :=
  0 ≤ i.distance ∧ (0 ≤ i.u ∧ i.u ≤ 1) ∧ 0 ≤ i.v ∧ i.v ≤ 1

theorem det_ne_zero {d e1 e2 : Fin 3 → ℝ} (h : LinearIndependent ℝ ![d, e1, e2]) :
    d ⨯₃ e2 ⬝ᵥ e1 ≠ 0 := by
  have h1 : IsUnit (Matrix.of ![d, e1, e2]) := linearIndependent_rows_iff_isUnit.mp h
  have h2 : (Matrix.of ![d, e1, e2]).det ≠ 0 := ((isUnit_iff_isUnit_det _).mp h1).ne_zero
  rw [det_fin_three] at h2
  intro h3
  apply h2
  simp only [cross_apply, dotProduct, Fin.sum_univ_three, Matrix.cons_val] at h3
  simp only [Matrix.of_apply, Matrix.cons_val]
  linear_combination -h3

/-- `with_surface` finds where the ray meets the plane, if that is ahead and within. -/
theorem withSurface_solves {o d v0 v1 v2 : Fin 3 → ℝ} (hd : d ⬝ᵥ d = 1)
    (hi : LinearIndependent ℝ ![d, v1 - v0, v2 - v0]) :
    (∃! i : SurfaceInfo ℝ, i.Solves o d v0 v1 v2) ∧
      ∀ i, withSurface inversesqrt o d v0 v1 v2 = some i ↔ i.Solves o d v0 v1 v2 ∧ i.Within := by
  have hdet := det_ne_zero hi
  have hs (i : SurfaceInfo ℝ) : i.Solves o d v0 v1 v2 ↔
      i = ⟨(o - v0) ⨯₃ (v1 - v0) ⬝ᵥ (v2 - v0) / (d ⨯₃ (v2 - v0) ⬝ᵥ (v1 - v0)),
        d ⨯₃ (v2 - v0) ⬝ᵥ (o - v0) / (d ⨯₃ (v2 - v0) ⬝ᵥ (v1 - v0)),
        (o - v0) ⨯₃ (v1 - v0) ⬝ᵥ d / (d ⨯₃ (v2 - v0) ⬝ᵥ (v1 - v0))⟩ := by
    rw [SurfaceInfo.ext_iff, ← cross_solve hdet, SurfaceInfo.Solves, sub_add_eq_add_sub,
      sub_eq_iff_eq_add', add_assoc]
  refine ⟨⟨_, (hs _).mpr rfl, fun i hi => (hs i).mp hi⟩, fun i => ?_⟩
  rw [hs, withSurface, normalize_of_unit hd]
  simp only [SurfaceInfo.Within]
  constructor
  · intro h
    split at h
    · cases h
    next ht =>
      split at h
      · cases h
      next hu =>
        split at h
        · cases h
        next hv =>
          obtain rfl := Option.some.inj h
          simp only [not_or, not_lt] at ht hu hv
          exact ⟨rfl, ht, hu, hv⟩
  · rintro ⟨rfl, ht, hu, hv⟩
    simp only [not_lt.mpr ht, not_lt.mpr hu.1, not_lt.mpr hu.2, not_lt.mpr hv.1, not_lt.mpr hv.2,
      or_self, if_false]

end Yaza.Intersection
