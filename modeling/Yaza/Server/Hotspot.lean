import Yaza.Server.Cursors
import Yaza.Server.Drawing
import Yaza.Server.Layers

/-! Where the picture of a cursor is drawn, against where its hotspot should be. -/
namespace Yaza
open Affine Matrix Quaternion

/-- The texture coordinates that `init_renderer` gives to the renderer. -/
def uv : Fin 4 → ℤ × ℤ := ![(1, 0), (1, 1), (0, 1), (0, 0)]

/-- The point of the quad that shows a point of a picture of this size. -/
noncomputable def imagePoint (size : ℕ × ℕ) (v : ℤ × ℤ) : Fin 4 → ℝ :=
  ![(2 * v.1 : ℤ) / size.1 - 1, 1 - (2 * v.2 : ℤ) / size.2, 0, 1]

/-- The corners of the picture are on the corners of the quad. -/
theorem imagePoint_corner {size : ℕ × ℕ} (hw : 0 < size.1) (hh : 0 < size.2) (k : Fin 4) :
    imagePoint size ((uv k).1 * size.1, (uv k).2 * size.2) = corners k := by
  have hw' : (size.1 : ℝ) ≠ 0 := by exact_mod_cast hw.ne'
  have hh' : (size.2 : ℝ) ≠ 0 := by exact_mod_cast hh.ne'
  fin_cases k <;> norm_num [imagePoint, uv, corners, hw', hh']

/-- A point of the picture, seen from its middle. -/
noncomputable def fromMiddle (size : ℕ × ℕ) (v : ℤ × ℤ) : Fin 3 → ℝ :=
  fromPixels v - ((1 / 2 : ℚ) : ℝ) • fromPixels (size.1, size.2)

theorem scaling_imagePoint {size : ℕ × ℕ} (hw : 0 < size.1) (hh : 0 < size.2) (v : ℤ × ℤ)
    (place : Place) : (Geom.mk place (some size)).scaling *
      ![imagePoint size v 0, imagePoint size v 1, imagePoint size v 2] =
        (2 : ℝ) • fromMiddle size v := by
  have hw' : (size.1 : ℝ) ≠ 0 := by exact_mod_cast hw.ne'
  have hh' : (size.2 : ℝ) ≠ 0 := by exact_mod_cast hh.ne'
  have hp : pixelPerMeter ≠ 0 := by norm_num [pixelPerMeter]
  ext k
  fin_cases k
  · simp [Geom.scaling, imagePoint, fromMiddle, fromPixels]
    field_simp
  · simp [Geom.scaling, imagePoint, fromMiddle, fromPixels]
    field_simp
    ring
  · simp [Geom.scaling, imagePoint, fromMiddle, fromPixels]

theorem fromMiddle_eq_zero {size : ℕ × ℕ} {v : ℤ × ℤ} :
    fromMiddle size v = 0 ↔ (2 * v.1, 2 * v.2) = ((size.1 : ℤ), (size.2 : ℤ)) := by
  have hp : pixelPerMeter ≠ 0 := by norm_num [pixelPerMeter]
  rw [Prod.mk.injEq]
  constructor
  · intro h
    have h0 : (v.1 : ℝ) / pixelPerMeter - (1 / 2 : ℚ) * (size.1 / pixelPerMeter) = 0 := by
      simpa [fromMiddle, fromPixels] using congrFun h 0
    have h1 : -(v.2 : ℝ) / pixelPerMeter - (1 / 2 : ℚ) * (-size.2 / pixelPerMeter) = 0 := by
      simpa [fromMiddle, fromPixels] using congrFun h 1
    field_simp at h0 h1
    push_cast at h0 h1
    constructor
    · have h2 : (2 : ℝ) * v.1 = size.1 := by linarith
      exact_mod_cast h2
    · have h2 : (2 : ℝ) * v.2 = size.2 := by linarith
      exact_mod_cast h2
  · rintro ⟨h0, h1⟩
    have h2 : (size.1 : ℝ) = 2 * v.1 := by exact_mod_cast h0.symm
    have h3 : (size.2 : ℝ) = 2 * v.2 := by exact_mod_cast h1.symm
    ext k
    fin_cases k
    · simp [fromMiddle, fromPixels, h2]
      field_simp
      ring
    · simp [fromMiddle, fromPixels, h3]
      field_simp
      ring
    · simp [fromMiddle, fromPixels]

/-- A turn does not halve anything. -/
theorem turn_two_smul {q : ℍ[ℝ]} (hq : normSq q = 1) {v : Fin 3 → ℝ} :
    turn q ((2 : ℝ) • v) = v ↔ v = 0 := by
  constructor
  · intro h
    have h1 : ((2 : ℝ) • v) ⬝ᵥ ((2 : ℝ) • v) = v ⬝ᵥ v := by
      rw [← turn_dotProduct hq, h]
    rw [smul_dotProduct, dotProduct_smul, smul_eq_mul, smul_eq_mul] at h1
    exact dotProduct_self_eq_zero.mp (by linarith)
  · rintro rfl
    rw [smul_zero, (turn_eq_zero hq).mpr rfl]

/-- The hotspot is drawn on the ray only if it is the middle of the picture. -/
theorem shows_hotspot_iff {distance polar azimuthal : ℚ} {hotspot : ℤ × ℤ} {size : ℕ × ℕ}
    (hw : 0 < size.1) (hh : 0 < size.2) :
    xyz ((LocalModel.mk ⟨.cursor distance polar azimuthal hotspot (size.1, size.2), some size⟩
        (0, 0) true).mat *ᵥ imagePoint size hotspot) =
      rayOrigin + (distance : ℝ) • rayDirection polar azimuthal ↔
      (2 * hotspot.1, 2 * hotspot.2) = ((size.1 : ℤ), (size.2 : ℤ)) := by
  generalize hplace : Place.cursor distance polar azimuthal hotspot (size.1, size.2) = place
  have hpos : place.pos + fromPixels (0, 0) =
      rayOrigin + (distance : ℝ) • rayDirection polar azimuthal - fromMiddle size hotspot := by
    rw [← hplace, fromPixels_eq_zero.mpr rfl, add_zero, Place.pos, fromMiddle, sub_sub_eq_add_sub]
    abel
  have hdrawn : xyz ((LocalModel.mk ⟨place, some size⟩ (0, 0) true).mat *ᵥ
      imagePoint size hotspot) = rayOrigin + (distance : ℝ) • rayDirection polar azimuthal -
        fromMiddle size hotspot + turn place.rot ((2 : ℝ) • fromMiddle size hotspot) := by
    rw [← hpos, ← scaling_imagePoint hw hh hotspot place]
    exact xyz_mulVec _ _ _ ![imagePoint size hotspot 0, imagePoint size hotspot 1,
      imagePoint size hotspot 2]
  rw [hdrawn, ← fromMiddle_eq_zero, ← turn_two_smul place.rot_unit, sub_add_eq_add_sub,
    add_sub_assoc, add_eq_left, sub_eq_zero]

/-- What a cursor keeps of a surface that is set as one. -/
def Surface.canvas (x : Surface) := (x.geom.size, x.texSize, x.offset, x.renderer.isSome)

namespace World
variable {w : World} {i : ℕ}

theorem moveCursor_canvas (w : World) : ∃ S, w.moveCursor = { w with surfaces := S } ∧
    S.mapAll Surface.canvas = w.surfaces.mapAll Surface.canvas := by
  unfold moveCursor
  split
  · exact ⟨w.surfaces, rfl, rfl⟩
  · refine ⟨_, rfl, Arena.mapAll_modify fun x => ?_⟩
    simp [Surface.canvas, Surface.moveCursor, Surface.syncGeom, Surface.tell]

theorem takeCursor_canvas (hi : w.getSurfaceFromResource i = some i) : ∃ S,
    w.takeCursor (some i) = { w with surfaces := S, seat.cursor := some i } ∧
      S.mapAll Surface.canvas = w.surfaces.mapAll Surface.canvas := by
  simp only [takeCursor, Option.bind_some, hi]
  obtain ⟨S, h1, h2⟩ := moveCursor_canvas ({ w with seat.cursor := some i }.modifySurface i fun x =>
    (x.setRole .cursor none).setActive true)
  refine ⟨S, h1, h2.trans (Arena.mapAll_modify fun x => ?_)⟩
  simp [Surface.canvas, Surface.setRole, Surface.setActive, Surface.syncGeom, Surface.tell]

/-- The surface is the cursor, with this hotspot; the ray stays. -/
theorem setSurfaceAsCursor_canvas (hi : w.getSurfaceFromResource i = some i) (hotspot : ℤ × ℤ) :
    ∃ S, w.setSurfaceAsCursor (some i) hotspot =
        { w with surfaces := S, seat.cursor := some i, seat.hotspot := hotspot } ∧
      S.mapAll Surface.canvas = w.surfaces.mapAll Surface.canvas := by
  unfold setSurfaceAsCursor
  split
  · exact takeCursor_canvas (w := { w with seat.hotspot := hotspot }) hi
  · next j hj =>
    split
    · next hij =>
      have hc : w.seat.cursor = some i := by
        rw [hij]
        exact (Arena.lock_eq_some.mp hj).1
      exact ⟨w.surfaces, by rw [← hc], rfl⟩
    · have hi' : ({ w with seat.hotspot := hotspot, seat.cursor := none }.modifySurface j fun x =>
          x.setActive false).getSurfaceFromResource i = some i := by
        simpa [getSurfaceFromResource, modifySurface] using hi
      obtain ⟨S, h1, h2⟩ := takeCursor_canvas hi'
      refine ⟨S, h1, h2.trans (Arena.mapAll_modify fun x => ?_)⟩
      simp [Surface.canvas, Surface.setActive, Surface.syncGeom, Surface.tell]

/-- What the renderer of a surface draws it with. -/
def drawnModel (w : World) (i : ℕ) : Option LocalModel :=
  (w.surfaces i).bind fun x => x.renderer.bind Renderer.localModel

/-- A surface that is set as the cursor and moved to the ray is drawn as its place there says. -/
theorem drawnModel_cursor (as : List Action) (hotspot : ℤ × ℤ) {x : Surface} {size : ℕ × ℕ}
    (hx : (run as).surfaces i = some x) (hr : x.renderer.isSome)
    (hs : x.geom.size = some size) (ht : x.texSize = size) (ho : x.offset = (0, 0)) :
    ((run as).setSurfaceAsCursor (some i) hotspot).moveCursor.drawnModel i =
      some ⟨⟨.cursor (run as).seat.cursorDistance (run as).ray.polar (run as).ray.azimuthal hotspot
        (size.1, size.2), some size⟩, (0, 0), true⟩ := by
  have hi := (run_sorted as).getSurfaceFromResource (i := i) (by rw [hx]; rfl)
  obtain ⟨S, h1, h2⟩ := setSurfaceAsCursor_canvas hi hotspot
  -- the cursor that was set is shown, and its renderer is told everything
  have hshown := setSurfaceAsCursor_settled (run_settled as) (some i) hotspot
  have hsync := (moveCursor_minors (k := false) (t := false)
    ((run as).setSurfaceAsCursor (some i) hotspot)).effects.synced
      ((setSurfaceAsCursor_effects (k := false) (t := false) _ (some i) hotspot).synced
        (run_synced as))
  obtain ⟨y, hy, hyx⟩ : ∃ y, S i = some y ∧ y.canvas = x.canvas := by
    have h3 := congrFun h2 i
    simpa [hx] using h3
  simp only [Surface.canvas, Prod.mk.injEq] at hyx
  have hy' : ((run as).setSurfaceAsCursor (some i) hotspot).surfaces i = some y := by
    rw [h1]
    exact hy
  have hactive := hshown.shown i y (by rw [h1]) hy'
  have hmoved : ((run as).setSurfaceAsCursor (some i) hotspot).moveCursor.surfaces i =
      some (y.moveCursor (run as).seat.cursorDistance (run as).ray.polar (run as).ray.azimuthal
        hotspot) := by
    have hlock : S.lock (some i) = some i := Arena.lock_eq_some.mpr ⟨rfl, by rw [hy]; rfl⟩
    rw [h1]
    simp only [moveCursor, hlock, modifySurface, Arena.modify_self, hy, Option.map_some]
  obtain ⟨q, hq⟩ : ∃ q, (y.moveCursor (run as).seat.cursorDistance (run as).ray.polar
      (run as).ray.azimuthal hotspot).renderer = some q := by
    rw [← Option.isSome_iff_exists]
    simpa [Surface.moveCursor, Surface.syncGeom, Surface.tell, hyx.2.2.2] using hr
  simp only [drawnModel, hmoved, Option.bind_some, hq, (hsync i _ hmoved q hq).localModel]
  simp [Surface.moveCursor, Surface.syncGeom, Surface.tell, hyx, hs, ht, ho, hactive]

/-- After `set_surface_as_cursor` and `move_cursor` the hotspot of the picture is drawn on the ray
exactly when it is the middle of the picture. -/
theorem hotspot_on_ray_iff (as : List Action) (hotspot : ℤ × ℤ) {x : Surface} {size : ℕ × ℕ}
    (hx : (run as).surfaces i = some x) (hr : x.renderer.isSome)
    (hs : x.geom.size = some size) (ht : x.texSize = size) (ho : x.offset = (0, 0))
    (hw : 0 < size.1) (hh : 0 < size.2) :
    (∃ m, ((run as).setSurfaceAsCursor (some i) hotspot).moveCursor.drawnModel i = some m ∧
      xyz (m.mat *ᵥ imagePoint size hotspot) = rayOrigin + ((run as).seat.cursorDistance : ℝ) •
        rayDirection (run as).ray.polar (run as).ray.azimuthal) ↔
      (2 * hotspot.1, 2 * hotspot.2) = ((size.1 : ℤ), (size.2 : ℤ)) := by
  rw [drawnModel_cursor as hotspot hx hr hs ht ho]
  constructor
  · rintro ⟨m, hm, h⟩
    obtain rfl := Option.some.inj hm
    exact (shows_hotspot_iff hw hh).mp h
  · intro h
    exact ⟨_, rfl, (shows_hotspot_iff hw hh).mpr h⟩

/-- A client shows a picture of four pixels. -/
def shownPicture : List Action :=
  [.peerDiscover true, .desk 0 (.createSurface (0, 0)),
    .desk 0 (.createWlBuffer ⟨0, 2, 2, 8, List.replicate 16 0⟩),
    .desk 0 (.attach 0 (some 1) (0, 0)), .desk 0 (.commit 0)]

theorem shownPicture_surface : ∃ x, (run shownPicture).surfaces 0 = some x ∧
    x.renderer.isSome ∧ x.geom.size = some (2, 2) ∧ x.texSize = (2, 2) ∧ x.offset = (0, 0) := by
  have h : ((run shownPicture).surfaces 0).map (fun x =>
      (x.renderer.isSome, x.geom.size, x.texSize, x.offset)) =
      some (true, some (2, 2), (2, 2), (0, 0)) := by decide +kernel
  obtain ⟨x, hx, he⟩ := Option.map_eq_some_iff.mp h
  simp only [Prod.mk.injEq] at he
  exact ⟨x, hx, he⟩

/-- Its middle is drawn on the ray when that is the hotspot. -/
theorem hotspot_on_ray_iff_middle :
    (∃ m, ((run shownPicture).setSurfaceAsCursor (some 0) (1, 1)).moveCursor.drawnModel 0 =
        some m ∧ xyz (m.mat *ᵥ imagePoint (2, 2) (1, 1)) =
          rayOrigin + ((run shownPicture).seat.cursorDistance : ℝ) •
            rayDirection (run shownPicture).ray.polar (run shownPicture).ray.azimuthal) ↔
      ((2 * 1, 2 * 1) : ℤ × ℤ) = (((2 : ℕ) : ℤ), ((2 : ℕ) : ℤ)) := by
  obtain ⟨x, hx, hr, hs, ht, ho⟩ := shownPicture_surface
  exact hotspot_on_ray_iff shownPicture (1, 1) hx hr hs ht ho two_pos two_pos

/-- Its left top corner is not, when that is the hotspot. -/
theorem corner_off_ray : ∃ m,
    ((run shownPicture).setSurfaceAsCursor (some 0) (0, 0)).moveCursor.drawnModel 0 = some m ∧
      xyz (m.mat *ᵥ imagePoint (2, 2) (0, 0)) ≠
        rayOrigin + ((run shownPicture).seat.cursorDistance : ℝ) •
          rayDirection (run shownPicture).ray.polar (run shownPicture).ray.azimuthal := by
  obtain ⟨x, hx, hr, hs, ht, ho⟩ := shownPicture_surface
  refine ⟨_, drawnModel_cursor shownPicture (0, 0) hx hr hs ht ho, fun h => ?_⟩
  have h1 := (shows_hotspot_iff two_pos two_pos).mp h
  simp at h1

end World
end Yaza
