import Yaza.Util.Intersection
import Yaza.Wayland.Geometry

/-! Which point of a surface a ray points at, `Surface::check_intersection`. -/
namespace Yaza.Surface
open Affine Intersection Matrix Quaternion

noncomputable def vertLeftBottom (x : Surface) : Fin 3 → ℝ := xyz (x.geom.mat *ᵥ ![-1, -1, 0, 1])

noncomputable def vertRightBottom (x : Surface) : Fin 3 → ℝ := xyz (x.geom.mat *ᵥ ![1, -1, 0, 1])

noncomputable def vertLeftTop (x : Surface) : Fin 3 → ℝ := xyz (x.geom.mat *ᵥ ![-1, 1, 0, 1])

/-- `Surface::check_intersection`. -/
noncomputable def checkIntersection (x : Surface) (origin direction : Fin 3 → ℝ) :
    Option (IntersectInfo ℝ) :=
  if x.pickable then
    (withSurface inversesqrt origin direction x.vertLeftBottom x.vertRightBottom
      x.vertLeftTop).map fun r =>
        { origin, direction, distance := r.distance
          pos := ![x.texSize.1 * r.u, x.texSize.2 * (1 - r.v), 0] }
  else none

/-- The ray is not parallel to the quad, which is one. -/
def Crosses (x : Surface) (d : Fin 3 → ℝ) : Prop :=
  LinearIndependent ℝ
    ![d, x.vertRightBottom - x.vertLeftBottom, x.vertLeftTop - x.vertLeftBottom]

/-- The ray through the point of the quad at `i.u` and `i.v`. -/
def PassesThrough (x : Surface) (o d : Fin 3 → ℝ) (i : SurfaceInfo ℝ) : Prop :=
  i.Solves o d x.vertLeftBottom x.vertRightBottom x.vertLeftTop ∧ i.Within

/-- What is reported for that point. -/
noncomputable def pixel (x : Surface) (o d : Fin 3 → ℝ) (i : SurfaceInfo ℝ) : IntersectInfo ℝ where
  origin := o
  direction := d
  distance := i.distance
  pos := ![x.texSize.1 * i.u, x.texSize.2 * (1 - i.v), 0]

/-- Where a ray meets the parallelogram is found, and a surface that can be picked reports its
pixel there. -/
theorem picked_at_pixel :
    (∀ o d v0 v1 v2 : Fin 3 → ℝ, d ⬝ᵥ d = 1 → LinearIndependent ℝ ![d, v1 - v0, v2 - v0] →
      (∃! i : SurfaceInfo ℝ, i.Solves o d v0 v1 v2) ∧
        ∀ i, withSurface inversesqrt o d v0 v1 v2 = some i ↔
          i.Solves o d v0 v1 v2 ∧ i.Within) ∧
      ∀ (x : Surface) (o d : Fin 3 → ℝ) (i : SurfaceInfo ℝ), x.pickable = true → d ⬝ᵥ d = 1 →
        x.Crosses d → x.PassesThrough o d i → x.checkIntersection o d = some (x.pixel o d i) := by
  refine ⟨fun o d v0 v1 v2 hd hi => withSurface_solves hd hi, fun x o d i hx hd hi h => ?_⟩
  have h1 := ((withSurface_solves (o := o) hd hi).2 i).mpr h
  rw [checkIntersection, if_pos hx, h1]
  rfl

/-- A point of the quad. -/
theorem vert_eq (x : Surface) (a b : ℝ) : xyz (x.geom.mat *ᵥ ![a, b, 0, 1]) =
    x.geom.place.pos + turn x.geom.place.rot (x.geom.scaling * ![a, b, 0]) :=
  xyz_mulVec _ _ _ ![a, b, 0]

/-- The way it looks. -/
noncomputable def facing (x : Surface) : Fin 3 → ℝ := turn x.geom.place.rot ![0, 0, 1]

theorem facing_unit (x : Surface) : x.facing ⬝ᵥ x.facing = 1 := by
  rw [facing, turn_dotProduct x.geom.place.rot_unit]
  simp

/-- The two edges, before they are turned. -/
theorem edges_eq (x : Surface) :
    x.vertRightBottom - x.vertLeftBottom = turn x.geom.place.rot ![2 * x.geom.scaling 0, 0, 0] ∧
      x.vertLeftTop - x.vertLeftBottom = turn x.geom.place.rot ![0, 2 * x.geom.scaling 1, 0] := by
  simp only [vertLeftBottom, vertRightBottom, vertLeftTop, vert_eq, add_sub_add_left_eq_sub,
    ← turn_sub]
  constructor
  · congr 1
    ext k
    fin_cases k <;> simp [two_mul]
  · congr 1
    ext k
    fin_cases k <;> simp [two_mul]

theorem passesThrough_middle (x : Surface) :
    x.PassesThrough (x.geom.place.pos - x.facing) x.facing ⟨1, 1 / 2, 1 / 2⟩ := by
  constructor
  · obtain ⟨h1, h2⟩ := x.edges_eq
    have h0 : x.vertLeftBottom = _ := x.vert_eq (-1) (-1)
    have h3 : x.geom.scaling * ![-1, -1, 0] + ((1 / 2 : ℝ) • ![2 * x.geom.scaling 0, 0, 0] +
        (1 / 2 : ℝ) • ![0, 2 * x.geom.scaling 1, 0]) = 0 := by
      ext k
      fin_cases k <;> simp
    rw [SurfaceInfo.Solves, h1, h2, h0, ← turn_smul, ← turn_smul, add_assoc, add_assoc, ← turn_add,
      ← turn_add, h3, (turn_eq_zero x.geom.place.rot_unit).mpr rfl, one_smul, sub_add_cancel,
      add_zero]
  · norm_num [SurfaceInfo.Within]

theorem crosses_facing {x : Surface} {size : ℕ × ℕ} (hs : x.geom.size = some size)
    (hw : 0 < size.1) (hh : 0 < size.2) : x.Crosses x.facing := by
  obtain ⟨h1, h2⟩ := x.edges_eq
  rw [Crosses, Fintype.linearIndependent_iff, h1, h2]
  intro g hg
  simp only [Fin.sum_univ_three, Matrix.cons_val, facing, ← turn_smul, ← turn_add,
    turn_eq_zero x.geom.place.rot_unit, Geom.scaling, hs] at hg
  have hp : pixelPerMeter ≠ 0 := by norm_num [pixelPerMeter]
  have g0 : g 0 = 0 := by simpa using congrFun hg 2
  have g1 : g 1 = 0 := by simpa [hw.ne', hp] using congrFun hg 0
  have g2 : g 2 = 0 := by simpa [hh.ne', hp] using congrFun hg 1
  intro i
  fin_cases i
  · exact g0
  · exact g1
  · exact g2

/-- A picture of four pixels, in front of a ray. -/
def aPicture (role : Role) : Surface where
  role := role
  texture := some ⟨0, 2, 2, 8, List.replicate 16 0⟩
  texSize := (2, 2)
  geom := { place := .cursor (3 / 10) (floatPi / 2) floatPi (0, 0) (2, 2), size := some (2, 2) }

/-- The middle of it is reported. -/
theorem picked_at_pixel_middle :
    let x := aPicture .default
    x.checkIntersection (x.geom.place.pos - x.facing) x.facing =
      some (x.pixel (x.geom.place.pos - x.facing) x.facing ⟨1, 1 / 2, 1 / 2⟩) :=
  picked_at_pixel.2 (aPicture .default) _ _ _ (by decide) (facing_unit _)
    (crosses_facing rfl two_pos two_pos) (passesThrough_middle _)

/-- It is not when it is a cursor. -/
theorem cursor_not_picked : ¬ ∀ (x : Surface) (o d : Fin 3 → ℝ) (i : SurfaceInfo ℝ),
    d ⬝ᵥ d = 1 → x.Crosses d → x.PassesThrough o d i →
      x.checkIntersection o d = some (x.pixel o d i) := by
  intro h
  have h1 := h (aPicture .cursor) _ _ _ (facing_unit _) (crosses_facing rfl two_pos two_pos)
    (passesThrough_middle _)
  have h2 : (aPicture .cursor).pickable = false := by decide
  rw [checkIntersection, if_neg (by simp [h2])] at h1
  cases h1

end Yaza.Surface
