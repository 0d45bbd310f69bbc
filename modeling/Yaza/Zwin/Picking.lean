import Yaza.Lib.Affine
import Yaza.Util.Intersection
import Yaza.Zwin.Scene

/-! Whether a ray points at a bounded app, `BoundedApp::check_intersection`. -/
namespace Yaza
open Affine Intersection Matrix Quaternion

/-- The number that a `float` in an array stands for, infinities and NaN apart. -/
def floatOfBytes (bs : Bytes) : ℚ :=
  let bits := bs.foldr (fun b acc => b.toNat + 256 * acc) 0
  let exponent := bits / 2 ^ 23 % 2 ^ 8
  let significand : ℚ := (bits % 2 ^ 23 : ℕ)
  (if bits < 2 ^ 31 then 1 else -1) *
    (if exponent = 0 then significand / 2 ^ 149
      else (2 ^ 23 + significand) * 2 ^ exponent / 2 ^ 150)

/-- The `i`-th `float` of an array. -/
def floatAt (bs : Bytes) (i : ℕ) : ℝ := floatOfBytes ((bs.drop (4 * i)).take 4)

/-- A `CuboidRegion` in exact arithmetic. -/
structure Cuboid where
  halfSize : Fin 3 → ℝ
  center : Fin 3 → ℝ
  quat : ℍ[ℝ]

/-- What `check_intersection` reads of a bounded app, in exact arithmetic. -/
structure AppShape where
  halfSize : Fin 3 → ℝ
  regions : List Cuboid
  polar : ℝ
  azimuthal : ℝ

/-- A `glm::quat` keeps its real part last. -/
def CuboidRegion.cuboid (r : CuboidRegion) : Cuboid where
  halfSize i := floatAt r.halfSize i
  center i := floatAt r.center i
  quat := ⟨floatAt r.quat 3, floatAt r.quat 0, floatAt r.quat 1, floatAt r.quat 2⟩

def BoundedApp.shape (x : BoundedApp) : AppShape where
  halfSize i := floatAt x.current.halfSize i
  regions := x.current.regions.map CuboidRegion.cuboid
  polar := x.polar
  azimuthal := x.azimuthal

namespace AppShape
variable (a : AppShape)

/-- `geom_.pos()`, with `kRadiusFromOrigin` and `kOffsetY`. -/
noncomputable def pos : Fin 3 → ℝ :=
  ![2.2 * Real.sin a.polar * Real.sin a.azimuthal, 1 + 2.2 * Real.cos a.polar,
    2.2 * Real.sin a.polar * Real.cos a.azimuthal]

/-- `geom_.rot()`. -/
noncomputable def rot : ℍ[ℝ] :=
  angleAxis a.azimuthal ![0, 1, 0] * angleAxis (a.polar - (floatPi / 2 : ℚ)) ![1, 0, 0]

noncomputable def outerMat : Mat4 := translation a.pos * rotate a.rot

noncomputable def innerMat (region : Cuboid) : Mat4 :=
  a.outerMat * translation region.center * rotate region.quat

/-- `inner_min_distance`: the least of the answers of the regions, so far. -/
noncomputable def innerMinDistance (origin direction : Fin 3 → ℝ) : Option ℝ :=
  a.regions.foldl (fun innerMinDistance region =>
    match withObb inversesqrt origin direction region.halfSize (a.innerMat region) with
    | none => innerMinDistance
    | some result =>
      match innerMinDistance with
      | none => some result
      | some distance => if result < distance then some result else some distance) none

/-- `BoundedApp::check_intersection`. -/
noncomputable def checkIntersection (origin direction : Fin 3 → ℝ) : Option (IntersectInfo ℝ) :=
  match withObb inversesqrt origin direction a.halfSize a.outerMat with
  | none => none
  | some outerDistance =>
    match a.innerMinDistance origin direction with
    | none => none
    | some innerDistance =>
      some { origin, direction, distance := max innerDistance outerDistance, pos := 0 }

/-- The ray is in the outer box. -/
def outer (o d : Fin 3 → ℝ) : Set ℝ := inside o d a.halfSize a.outerMat

/-- The ray is in a region. -/
def inner (o d : Fin 3 → ℝ) : Set ℝ :=
  {s | ∃ region ∈ a.regions, s ∈ inside o d region.halfSize (a.innerMat region)}

/-- Sizes are not negative. -/
def Sized : Prop := (∀ i, 0 ≤ a.halfSize i) ∧ ∀ region ∈ a.regions, ∀ i, 0 ≤ region.halfSize i

/-- The ray is parallel to no axis of a box, or clearly so. -/
def General (d : Fin 3 → ℝ) : Prop :=
  GeneralPosition d a.outerMat ∧ ∀ region ∈ a.regions, GeneralPosition d (a.innerMat region)

/-- The ray hits where it is in both first. -/
def HitsBoth (o d : Fin 3 → ℝ) : Prop :=
  ((a.checkIntersection o d).isSome ↔ ∃ s, s ∈ a.outer o d ∧ s ∈ a.inner o d) ∧
    ∀ r, a.checkIntersection o d = some r →
      IsLeast {s | s ∈ a.outer o d ∧ s ∈ a.inner o d} r.distance

/-- Once the ray has been in the box and in a region, it has been in both at a time. -/
def Together (o d : Fin 3 → ℝ) : Prop :=
  ∀ s ∈ a.outer o d, ∀ s' ∈ a.inner o d, ∃ m ≤ max s s', m ∈ a.outer o d ∧ m ∈ a.inner o d

variable {a} {o d : Fin 3 → ℝ}

theorem outer_least (hs : a.Sized) (hd : d ⬝ᵥ d = 1) (hg : a.General d) :
    Slab.Least (a.outer o d) (withObb inversesqrt o d a.halfSize a.outerMat) :=
  withObb_least (normalize_of_unit hd) hs.1 hg.1

/-- The regions together are first met where the first of them is. -/
theorem inner_least (hs : a.Sized) (hd : d ⬝ᵥ d = 1) (hg : a.General d) :
    Slab.Least (a.inner o d) (a.innerMinDistance o d) := by
  have hf : a.innerMinDistance o d = a.regions.foldl (fun r region =>
      Option.merge min r (withObb inversesqrt o d region.halfSize (a.innerMat region))) none := by
    rw [innerMinDistance]
    congr 1
    funext r region
    cases withObb inversesqrt o d region.halfSize (a.innerMat region) with
    | none => simp
    | some result =>
      cases r with
      | none => rfl
      | some distance =>
        simp only [Option.merge_some_some]
        split
        next h => rw [min_eq_right h.le]
        next h => rw [min_eq_left (not_lt.mp h)]
  have h := Slab.Least.foldl (S := ∅) (r := none) (fun region hr =>
    withObb_least (o := o) (normalize_of_unit hd) (hs.2 region hr) (hg.2 region hr)) rfl
  rw [Set.empty_union] at h
  rw [hf]
  exact h

/-- What is reported, when the entries into the box and into a region are known. -/
theorem checkIntersection_eq_some_iff {r : IntersectInfo ℝ} :
    a.checkIntersection o d = some r ↔
      ∃ n n', withObb inversesqrt o d a.halfSize a.outerMat = some n ∧
        a.innerMinDistance o d = some n' ∧ r = ⟨o, d, max n' n, 0⟩ := by
  unfold checkIntersection
  cases withObb inversesqrt o d a.halfSize a.outerMat <;>
    cases a.innerMinDistance o d <;> simp [eq_comm]

/-- The later of the two entries is reported, so the ray is in both there. -/
theorem HitsBoth.together (hs : a.Sized) (hd : d ⬝ᵥ d = 1) (hg : a.General d)
    (h : a.HitsBoth o d) : a.Together o d := by
  intro s h3 s' h4
  obtain ⟨n, h1⟩ := Option.isSome_iff_exists.mp ((outer_least hs hd hg).isSome_iff.mpr ⟨s, h3⟩)
  obtain ⟨n', h2⟩ := Option.isSome_iff_exists.mp ((inner_least hs hd hg).isSome_iff.mpr ⟨s', h4⟩)
  have hn := ((outer_least hs hd hg).eq_some_iff n).mp h1
  have hn' := ((inner_least hs hd hg).eq_some_iff n').mp h2
  have h5 := (h.2 _ (checkIntersection_eq_some_iff.mpr ⟨n, n', h1, h2, rfl⟩)).1
  refine ⟨max n' n, ?_, h5⟩
  rw [max_comm]
  exact max_le_max (hn.2 h3) (hn'.2 h4)

/-- The later of the two entries is the first place in both, if it is in both. -/
theorem Together.hitsBoth (hs : a.Sized) (hd : d ⬝ᵥ d = 1) (hg : a.General d)
    (h : a.Together o d) : a.HitsBoth o d := by
  have key {r : IntersectInfo ℝ} (hr : a.checkIntersection o d = some r) :
      IsLeast {s | s ∈ a.outer o d ∧ s ∈ a.inner o d} r.distance := by
    obtain ⟨n, n', h1, h2, rfl⟩ := checkIntersection_eq_some_iff.mp hr
    have hn := ((outer_least hs hd hg).eq_some_iff n).mp h1
    have hn' := ((inner_least hs hd hg).eq_some_iff n').mp h2
    obtain ⟨m, hm, h3, h4⟩ := h n hn.1 n' hn'.1
    have h5 : m = max n' n := by
      rw [max_comm]
      exact le_antisymm hm (max_le (hn.2 h3) (hn'.2 h4))
    exact ⟨h5 ▸ ⟨h3, h4⟩, fun s h6 => max_le (hn'.2 h6.2) (hn.2 h6.1)⟩
  refine ⟨⟨fun hr => ?_, ?_⟩, fun r hr => key hr⟩
  · obtain ⟨r, hr⟩ := Option.isSome_iff_exists.mp hr
    exact ⟨r.distance, (key hr).1⟩
  · rintro ⟨s, h3, h4⟩
    obtain ⟨n, h1⟩ := Option.isSome_iff_exists.mp ((outer_least hs hd hg).isSome_iff.mpr ⟨s, h3⟩)
    obtain ⟨n', h2⟩ := Option.isSome_iff_exists.mp ((inner_least hs hd hg).isSome_iff.mpr ⟨s, h4⟩)
    rw [checkIntersection_eq_some_iff.mpr ⟨n, n', h1, h2, rfl⟩]
    rfl

/-- The answer is right exactly when the ray does not leave one of the two before it comes to the
other. -/
theorem hitsBoth_iff_together (hs : a.Sized) (hd : d ⬝ᵥ d = 1) (hg : a.General d) :
    a.HitsBoth o d ↔ a.Together o d :=
  ⟨HitsBoth.together hs hd hg, Together.hitsBoth hs hd hg⟩

theorem rot_unit (a : AppShape) : normSq a.rot = 1 := by
  rw [rot, map_mul, normSq_angleAxis _ (by simp), normSq_angleAxis _ (by simp), mul_one]

theorem column_outerMat (i : Fin 3) :
    column a.outerMat i.castSucc = turn a.rot (Pi.single i 1) := by
  ext k
  fin_cases i <;> fin_cases k <;>
    simp [column, outerMat, translation, rotate, turn_apply, Matrix.mul_apply, Fin.sum_univ_four]

theorem column_outerMat_last : column a.outerMat (Fin.last 3) = a.pos := by
  ext k
  fin_cases k <;>
    simp [column, outerMat, translation, rotate, Matrix.mul_apply, Fin.sum_univ_four]

/-- The outer box is a box in the coordinates of the app. -/
theorem inBox_outer_iff (v : Fin 3 → ℝ) :
    InBox a.halfSize a.outerMat (a.pos + turn a.rot v) ↔ ∀ i, |v i| ≤ a.halfSize i := by
  simp only [InBox, column_outerMat, column_outerMat_last, add_sub_cancel_left,
    turn_dotProduct a.rot_unit, single_one_dotProduct]

theorem column_innerMat (region : Cuboid) (i : Fin 3) :
    column (a.innerMat region) i.castSucc = turn a.rot (turn region.quat (Pi.single i 1)) := by
  ext k
  fin_cases i <;> fin_cases k <;>
    simp [column, innerMat, outerMat, translation, rotate, turn_apply, Matrix.mul_apply,
      Fin.sum_univ_four]

theorem column_innerMat_last (region : Cuboid) :
    column (a.innerMat region) (Fin.last 3) = a.pos + turn a.rot region.center := by
  ext k
  fin_cases k <;>
    simp [column, innerMat, outerMat, translation, rotate, turn_apply, Matrix.mul_apply,
      Fin.sum_univ_four] <;> ring

/-- A region is a box in its own coordinates. -/
theorem inBox_inner_iff {region : Cuboid} (hq : normSq region.quat = 1) (v : Fin 3 → ℝ) :
    InBox region.halfSize (a.innerMat region)
        (a.pos + turn a.rot (region.center + turn region.quat v)) ↔
      ∀ i, |v i| ≤ region.halfSize i := by
  simp only [InBox, column_innerMat, column_innerMat_last, turn_add, ← add_assoc,
    add_sub_cancel_left, turn_dotProduct a.rot_unit, turn_dotProduct hq, single_one_dotProduct]

/-- A cube with the half size `1`, and such a region at a distance of `5` from its middle. -/
def withRegionAhead : BoundedApp where
  virtualObject := 0
  current := {
    halfSize := [0, 0, 128, 63, 0, 0, 128, 63, 0, 0, 128, 63]
    regions := [{
      halfSize := [0, 0, 128, 63, 0, 0, 128, 63, 0, 0, 128, 63]
      center := [0, 0, 0, 0, 0, 0, 0, 0, 0, 0, 160, 64]
      quat := [0, 0, 0, 0, 0, 0, 0, 0, 0, 0, 0, 0, 0, 0, 128, 63] }] }

theorem withRegionAhead_shape : withRegionAhead.shape =
    ⟨fun _ => 1, [⟨fun _ => 1, ![0, 0, 5], 1⟩], (floatPi / 2 : ℚ), floatPi⟩ := by
  have h0 : floatOfBytes [0, 0, 0, 0] = 0 := by decide +kernel
  have h1 : floatOfBytes [0, 0, 128, 63] = 1 := by decide +kernel
  have h5 : floatOfBytes [0, 0, 160, 64] = 5 := by decide +kernel
  have hh : (fun i : Fin 3 => floatAt [0, 0, 128, 63, 0, 0, 128, 63, 0, 0, 128, 63] i) =
      fun _ => 1 := by
    funext i
    fin_cases i <;> simp [floatAt, h1]
  have hc : (fun i : Fin 3 => floatAt [0, 0, 0, 0, 0, 0, 0, 0, 0, 0, 160, 64] i) = ![0, 0, 5] := by
    funext i
    fin_cases i <;> simp [floatAt, h0, h5]
  have hq : (⟨floatAt [0, 0, 0, 0, 0, 0, 0, 0, 0, 0, 0, 0, 0, 0, 128, 63] 3,
      floatAt [0, 0, 0, 0, 0, 0, 0, 0, 0, 0, 0, 0, 0, 0, 128, 63] 0,
      floatAt [0, 0, 0, 0, 0, 0, 0, 0, 0, 0, 0, 0, 0, 0, 128, 63] 1,
      floatAt [0, 0, 0, 0, 0, 0, 0, 0, 0, 0, 0, 0, 0, 0, 128, 63] 2⟩ : ℍ[ℝ]) = 1 := by
    ext <;> simp [floatAt, h0, h1]
  simp only [BoundedApp.shape, withRegionAhead, List.map_cons, List.map_nil,
    CuboidRegion.cuboid, hh, hc, hq]
  rfl

/-- A ray along the line of the two boxes, from behind the first. -/
noncomputable def behind (a : AppShape) : Fin 3 → ℝ := a.pos + turn a.rot ![0, 0, -10]

noncomputable def ahead (a : AppShape) : Fin 3 → ℝ := turn a.rot ![0, 0, 1]

theorem behind_add (a : AppShape) (s : ℝ) :
    a.behind + s • a.ahead = a.pos + turn a.rot ![0, 0, s - 10] := by
  have h : ![0, 0, -10] + s • ![0, 0, 1] = (![0, 0, s - 10] : Fin 3 → ℝ) := by
    ext i
    fin_cases i <;> simp [neg_add_eq_sub]
  rw [behind, ahead, add_assoc, ← turn_smul, ← turn_add, h]

theorem withRegionAhead_outer : withRegionAhead.shape.outer withRegionAhead.shape.behind
    withRegionAhead.shape.ahead = {s | 0 ≤ s ∧ |s - 10| ≤ 1} := by
  ext s
  rw [outer, inside, Set.mem_ofPred_eq, behind_add, inBox_outer_iff, withRegionAhead_shape]
  simp [Fin.forall_fin_succ]

theorem withRegionAhead_inner : withRegionAhead.shape.inner withRegionAhead.shape.behind
    withRegionAhead.shape.ahead = {s | 0 ≤ s ∧ |s - 15| ≤ 1} := by
  ext s
  have h : (![0, 0, s - 10] : Fin 3 → ℝ) = ![0, 0, 5] + turn 1 ![0, 0, s - 15] := by
    rw [turn_one]
    ext i
    fin_cases i
    · simp
    · simp
    · change s - 10 = 5 + (s - 15)
      ring
  have hr : withRegionAhead.shape.regions = [⟨fun _ => 1, ![0, 0, 5], 1⟩] := by
    rw [withRegionAhead_shape]
  have h1 : normSq (⟨fun _ => 1, ![0, 0, 5], 1⟩ : Cuboid).quat = 1 := map_one _
  have hb := inBox_inner_iff (a := withRegionAhead.shape) h1 ![0, 0, s - 15]
  simp only [inner, hr, List.mem_singleton, exists_eq_left, inside, behind_add, h, hb,
    Set.mem_ofPred_eq]
  simp [Fin.forall_fin_succ]

theorem withRegionAhead_sized : withRegionAhead.shape.Sized := by
  rw [withRegionAhead_shape]
  simp [Sized]

theorem withRegionAhead_general :
    withRegionAhead.shape.General withRegionAhead.shape.ahead := by
  have hr : withRegionAhead.shape.regions = [⟨fun _ => 1, ![0, 0, 5], 1⟩] := by
    rw [withRegionAhead_shape]
  have h (i : Fin 3) : turn withRegionAhead.shape.rot ![0, 0, 1] ⬝ᵥ
      turn withRegionAhead.shape.rot (Pi.single i 1) = (![0, 0, 1] : Fin 3 → ℝ) i := by
    rw [turn_dotProduct withRegionAhead.shape.rot_unit, dotProduct_single_one]
  simp only [General, hr, List.mem_singleton, forall_eq, GeneralPosition, column_outerMat,
    column_innerMat, turn_one, ahead, h]
  norm_num [Fin.forall_fin_succ]

theorem ahead_unit (a : AppShape) : a.ahead ⬝ᵥ a.ahead = 1 := by
  rw [ahead, turn_dotProduct a.rot_unit]
  simp

/-- The ray has left the box when it comes to the region. -/
theorem hitsBoth_iff_together_ahead :
    withRegionAhead.shape.HitsBoth withRegionAhead.shape.behind withRegionAhead.shape.ahead ↔
      withRegionAhead.shape.Together withRegionAhead.shape.behind withRegionAhead.shape.ahead :=
  hitsBoth_iff_together withRegionAhead_sized (ahead_unit _) withRegionAhead_general

/-- It is reported to hit the app there. -/
theorem hit_outside : ¬ ∀ (a : AppShape) (o d : Fin 3 → ℝ),
    (∀ region ∈ a.regions, normSq region.quat = 1) → a.Sized → d ⬝ᵥ d = 1 → a.General d →
      a.HitsBoth o d := by
  intro h
  have hq : ∀ region ∈ withRegionAhead.shape.regions, normSq region.quat = 1 := by
    rw [withRegionAhead_shape]
    simp
  have h1 := (h _ withRegionAhead.shape.behind _ hq withRegionAhead_sized (ahead_unit _)
    withRegionAhead_general).together withRegionAhead_sized (ahead_unit _) withRegionAhead_general
  obtain ⟨m, -, h2, h3⟩ := h1 10 (by rw [withRegionAhead_outer]; norm_num) 15
    (by rw [withRegionAhead_inner]; norm_num)
  rw [withRegionAhead_outer] at h2
  rw [withRegionAhead_inner] at h3
  have h4 := (abs_le.mp h2.2).2
  have h5 := (abs_le.mp h3.2).1
  linarith

end AppShape

end Yaza
