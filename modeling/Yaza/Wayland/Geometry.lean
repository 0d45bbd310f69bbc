import Yaza.Lib.Affine
import Yaza.Wayland.Surface

/-! Where a surface is drawn, and where it is picked: the matrices of `Box::mat` and
`Surface::sync_geom`, over the reals. -/
namespace Yaza
open Affine Quaternion Matrix

/-- `kPixelPerMeter`. -/
noncomputable def pixelPerMeter : ℝ := 9000

/-- `RayCaster::kOrigin`. -/
noncomputable def rayOrigin : Fin 3 → ℝ := ![0, 0.849, -0.001]

/-- `RayCaster::rot_`. It is set when a session is established, so before anything is drawn. -/
noncomputable def rayRot (polar azimuthal : ℝ) : ℍ[ℝ] :=
  angleAxis azimuthal ![0, 1, 0] * angleAxis ((floatPi / 2 : ℚ) - polar) ![-1, 0, 0]

/-- `RayCaster::direction`. -/
noncomputable def rayDirection (polar azimuthal : ℝ) : Fin 3 → ℝ :=
  turn (rayRot polar azimuthal) ![0, 0, 1]

/-- A length in pixels that goes right and down. -/
noncomputable def fromPixels (v : ℤ × ℤ) : Fin 3 → ℝ :=
  ![v.1 / pixelPerMeter, -v.2 / pixelPerMeter, 0]

/-- A ray that stays at the height of its origin. -/
theorem rayDirection_level {polar : ℝ} (azimuthal : ℝ) (h : polar = (floatPi / 2 : ℚ)) :
    rayDirection polar azimuthal 1 = 0 := by
  have hr : rayRot polar azimuthal = angleAxis azimuthal ![0, 1, 0] := by
    rw [rayRot, h, sub_self, angleAxis_zero, mul_one]
  simp [rayDirection, turn, hr, rotate, direction, Matrix.mulVec, dotProduct, Fin.sum_univ_four,
    angleAxis]

namespace Place

/-- `Box::pos_`. -/
noncomputable def pos : Place → Fin 3 → ℝ
  | .initial => ![0, 0.85, 0]
  | .sphere distance polar azimuthal =>
    ![distance * Real.sin polar * Real.sin azimuthal, 0.85 + distance * Real.cos polar,
      distance * Real.sin polar * Real.cos azimuthal]
  | .cursor distance polar azimuthal hotspot texSize =>
    rayOrigin + (distance : ℝ) • rayDirection polar azimuthal - fromPixels hotspot +
      ((1 / 2 : ℚ) : ℝ) • fromPixels texSize

theorem pos_cursor (distance polar azimuthal : ℚ) (hotspot texSize : ℤ × ℤ) (i : Fin 3) :
    (cursor distance polar azimuthal hotspot texSize).pos i =
      rayOrigin i + distance * rayDirection polar azimuthal i - fromPixels hotspot i +
        (1 / 2 : ℚ) * fromPixels texSize i := rfl

/-- `Box::rot_`. -/
noncomputable def rot : Place → ℍ[ℝ]
  | .initial => 1
  | .sphere _ polar azimuthal =>
    angleAxis (floatPi + azimuthal) ![0, 1, 0] * angleAxis ((floatPi / 2 : ℚ) - polar) ![1, 0, 0]
  | .cursor _ polar azimuthal _ _ => rayRot polar azimuthal * angleAxis floatPi ![0, 1, 0]

theorem rayRot_unit (polar azimuthal : ℝ) : normSq (rayRot polar azimuthal) = 1 := by
  rw [rayRot, map_mul, normSq_angleAxis _ (by simp), normSq_angleAxis _ (by simp), mul_one]

/-- Every rotation is one. -/
theorem rot_unit (p : Place) : normSq p.rot = 1 := by
  cases p with
  | initial => exact map_one _
  | sphere =>
    rw [rot, map_mul, normSq_angleAxis _ (by simp), normSq_angleAxis _ (by simp), mul_one]
  | cursor => rw [rot, map_mul, rayRot_unit, normSq_angleAxis _ (by simp), mul_one]

end Place

namespace Geom

/-- `Box::scale_`. -/
noncomputable def scaling (g : Geom) : Fin 3 → ℝ :=
  match g.size with
  | none => ![1, 1, 0]
  | some (width, height) => ![width / pixelPerMeter, height / pixelPerMeter, 0]

/-- `Box::mat`. -/
noncomputable def mat (g : Geom) : Mat4 :=
  translation g.place.pos * rotate g.place.rot * scale g.scaling

theorem mat_keepsPoints (g : Geom) : KeepsPoints g.mat :=
  ((translation_keepsPoints _).mul (rotate_keepsPoints _)).mul (scale_keepsPoints _)

end Geom

namespace LocalModel

/-- The matrix that `Surface::sync_geom` sends. -/
noncomputable def mat (m : LocalModel) : Mat4 :=
  translation (m.geom.place.pos + fromPixels m.offset) * rotate m.geom.place.rot *
    (if m.active then scale m.geom.scaling else 0)

/-- It is the box, shifted, while the surface is active. -/
theorem mat_of_active {m : LocalModel} (h : m.active = true) :
    m.mat = translation (fromPixels m.offset) * m.geom.mat := by
  simp only [mat, h, if_true, Geom.mat, add_comm, translation_add, Matrix.mul_assoc]

theorem mat_of_inactive {m : LocalModel} (h : m.active = false) : m.mat = 0 := by
  simp [mat, h]

/-- Only the box of the surface matters, and only while it is active. -/
theorem mat_eq_iff {g g' : Geom} {offset : ℤ × ℤ} {active : Bool} :
    (LocalModel.mk g offset active).mat = (LocalModel.mk g' offset active).mat ↔
      (active = true → g.mat = g'.mat) := by
  cases active with
  | true => rw [mat_of_active rfl, mat_of_active rfl, translation_mul_inj]; simp
  | false => simp [mat_of_inactive]

end LocalModel

/-- The vertices that `init_renderer` gives to the renderer, as points. -/
def corners : Fin 4 → Fin 4 → ℝ := ![![1, 1, 0, 1], ![1, -1, 0, 1], ![-1, -1, 0, 1], ![-1, 1, 0, 1]]

/-- Where a matrix takes them. -/
def quad (A : Mat4) : Fin 4 → Fin 4 → ℝ := fun k => A *ᵥ corners k

theorem corners_point (k : Fin 4) : corners k 3 = 1 := by
  fin_cases k <;> rfl

theorem fromPixels_eq_zero {v : ℤ × ℤ} : fromPixels v = 0 ↔ v = (0, 0) := by
  constructor
  · intro h
    have h0 : (v.1 : ℝ) / pixelPerMeter = 0 := congrFun h 0
    have h1 : -(v.2 : ℝ) / pixelPerMeter = 0 := congrFun h 1
    simp only [pixelPerMeter, div_eq_zero_iff, neg_eq_zero, Int.cast_eq_zero,
      OfNat.ofNat_ne_zero, or_false] at h0 h1
    exact Prod.ext h0 h1
  · rintro rfl
    ext i
    fin_cases i <;> simp [fromPixels]

/-- What is drawn is what is picked when there is no offset and the surface is active. -/
theorem quad_eq_iff (m : LocalModel) :
    quad m.mat = quad m.geom.mat ↔ m.offset = (0, 0) ∧ m.active = true := by
  have hk := m.geom.mat_keepsPoints
  cases ha : m.active with
  | true =>
    have h1 (k : Fin 4) : m.mat *ᵥ corners k = m.geom.mat *ᵥ corners k ↔ m.offset = (0, 0) := by
      rw [LocalModel.mat_of_active ha, translation_mulVec_eq_iff hk (corners_point k),
        fromPixels_eq_zero]
    exact ⟨fun h => ⟨(h1 0).mp (congrFun h 0), rfl⟩, fun h => funext fun k => (h1 k).mpr h.1⟩
  | false =>
    refine ⟨fun h => ?_, fun h => by cases h.2⟩
    -- everything is at the origin, which is no point
    have h0 : (m.mat *ᵥ corners 0) 3 = (m.geom.mat *ᵥ corners 0) 3 :=
      congrFun (congrFun h 0) 3
    rw [hk.mulVec, corners_point, LocalModel.mat_of_inactive ha] at h0
    simp at h0

end Yaza
