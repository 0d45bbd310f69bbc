import Mathlib.Algebra.BigOperators.Group.List.Basic
import Mathlib.Algebra.Group.Prod
import Mathlib.Algebra.Order.Ring.Rat
import Mathlib.Tactic.Ring
import Yaza.Server.Cursors
import Yaza.Server.Dragging

/-! A dragged object stays where it is seen from the ray, also when the ray is held back. -/
namespace Yaza

/-- `polar_` and `azimuthal_`. -/
def BoundedApp.angles (x : BoundedApp) : ℚ × ℚ := (x.polar, x.azimuthal)

def Surface.angles (x : Surface) : ℚ × ℚ := (x.polar, x.azimuthal)

theorem Surface.inert_angles : Inert angles := inert_stance.map fun s => s.2.2.2

theorem Surface.roleless_angles : Roleless angles :=
  { inert_angles.steady with
    setRole := fun _ _ _ => rfl
    setActive := fun _ _ => rfl }

def RayCaster.angles (r : RayCaster) : ℚ × ℚ := (r.polar, r.azimuthal)

namespace Scene
variable {s s' : Scene}

/-- The apps that stay keep their angles, and new ones are at new addresses. -/
def AppsRest (n : ℕ) (s s' : Scene) : Prop :=
  Arena.Inherits n BoundedApp.angles s.boundedApps s'.boundedApps

theorem appsRest_of_graph {n : ℕ} (h : s'.graph = s.graph) : AppsRest n s s' := by
  intro i _ x' hx
  obtain ⟨x, h1, h2⟩ := Arena.of_mapAll (congrArg boundedApps h) hx
  simp only [BoundedApp.mk.injEq] at h2
  exact ⟨x, h1, by simp [BoundedApp.angles, h2]⟩

theorem appsRest_of_content {n : ℕ} (h : s'.content = s.content) : AppsRest n s s' := by
  rw [AppsRest, boundedApps_of_content h]
  exact .refl

theorem appsRest_of_rest {n : ℕ} (h : s'.rest = s.rest) : AppsRest n s s' := by
  have h1 : s'.boundedApps = s.boundedApps :=
    show s'.rest.boundedApps = s.rest.boundedApps from by rw [h]
  rw [AppsRest, h1]
  exact .refl

theorem commitVirtualObject_appsRest {n : ℕ} (hs : Tree s) (v : ℕ) :
    AppsRest n s (s.commitVirtualObject v) := by
  have hc := commitState_commits_true s v
  have h1 : AppsRest n s (s.commitState v) := fun i _ x' hx => by
    obtain ⟨x, h1, h2⟩ := app_of_skeleton hc.skeleton hx
    simp only [boneApp, BoundedApp.mk.injEq] at h2
    exact ⟨x, h1, by simp [BoundedApp.angles, h2]⟩
  exact h1.trans (appsRest_of_content (syncIfSession_steps (hc.tree hs).registered v).content)

theorem handle_appsRest (hs : Tree s) (client : ℕ) (r : Request) :
    AppsRest s.nextId s (s.handle client r) := by
  by_cases hp : r.plain ∧ ∀ v halfSize, r ≠ .getBounded v halfSize
  · exact appsRest_of_graph (handle_graph s client hp.1 hp.2)
  cases r with
  | getBounded v halfSize =>
    have h1 : AppsRest s.nextId s (s.newBounded client v) := .set_new (Nat.le_refl _) _
    have h2 : AppsRest s.nextId (s.newBounded client v)
        ((s.newBounded client v).configure s.nextId halfSize) := by
      unfold configure
      split
      · exact appsRest_of_graph (postError_graph ..)
      · exact .modify fun _ => rfl
    exact h1.trans h2
  | createGlBaseTechnique u =>
    simp only [handle, createGlBaseTechnique]
    split <;> exact .refl
  | commit v => exact commitVirtualObject_appsRest hs v
  | createVirtualObject | createRenderingUnit _ => exact .refl
  | _ => exact absurd ⟨trivial, by simp⟩ hp

theorem deleteBoundedApp_appsRest {n : ℕ} (s : Scene) (b : ℕ) :
    AppsRest n s (s.deleteBoundedApp b) := by
  unfold deleteBoundedApp
  split
  · exact .refl
  · exact .erase

theorem destroyResource_appsRest {n : ℕ} (s : Scene) (r : ℕ) :
    AppsRest n s (s.destroyResource r) := by
  have h : ∀ i, AppsRest n s (s.deleteObject r i) := by
    intro i
    cases i with
    | virtualObject =>
      simp only [deleteObject, deleteVirtualObject]
      split
      · exact .refl
      · next x _ =>
        have h1 : AppsRest n (s.markDestroying r)
            (x.renderingUnitList.foldl deleteRenderingUnit (s.markDestroying r)) :=
          appsRest_of_rest (deleteUnits_rest _ _)
        cases x.app with
        | none => exact h1
        | some b => exact h1.trans (deleteBoundedApp_appsRest _ b)
    | bounded =>
      simp only [deleteObject]
      split
      · exact deleteBoundedApp_appsRest s r
      · exact .refl
    | renderingUnit =>
      simp only [deleteObject]
      split
      · exact appsRest_of_rest (deleteRenderingUnit_rest s r)
      · exact .refl
    | baseTechnique =>
      simp only [deleteObject]
      split
      · exact appsRest_of_rest (deleteTechnique_rest s r)
      · exact .refl
    | _ => exact .refl
  unfold destroyResource
  split
  · exact .refl
  · exact h _

/-- Only a drag turns an app. -/
theorem step_appsRest (hs : Tree s) {a : Action}
    (ha : ∀ b polar azimuthal, a ≠ .moveApp b polar azimuthal) :
    AppsRest s.nextId s (s.step a) := by
  unfold step
  split
  · exact .refl
  cases a with
  | request client r =>
    simp only [act]
    split
    · exact handle_appsRest hs client r
    · exact .refl
  | destroy client r =>
    simp only [act]
    split
    · exact destroyResource_appsRest s r
    · exact .refl
  | peerDiscover connected =>
    exact appsRest_of_content (peerDiscover_content hs.registered connected)
  | sessionDisconnect => exact appsRest_of_content (sessionDisconnect_content s)
  | frameTimer busyness =>
    simp only [act, frameTimer]
    split <;> exact .refl
  | moveApp b polar azimuthal => exact absurd rfl (ha b polar azimuthal)

/-- A drag turns its app, and no other. -/
theorem moveApp_angles (hs : Tree s) (hf : s.fault = none) {b : ℕ} {polar azimuthal : ℚ} {i : ℕ}
    {x' : BoundedApp} (hx : (s.step (.moveApp b polar azimuthal)).boundedApps i = some x') :
    ∃ x, s.boundedApps i = some x ∧
      x'.angles = if i = b then x.angles + (polar, azimuthal) else x.angles := by
  rw [step, if_neg (by simp [hf]), act, moveApp] at hx
  split at hx
  · next hb =>
    refine ⟨x', hx, ?_⟩
    rw [if_neg]
    rintro rfl
    simp [hb] at hx
  · next y hy =>
    obtain ⟨x, h1, h2⟩ := commitVirtualObject_appsRest (n := i + 1)
      (hs.same (turnApp_same s b y polar azimuthal)) y.virtualObject i (Nat.lt_succ_self i) x' hx
    simp only [turnApp, Arena.set_apply] at h1
    split at h1
    · next hi =>
      cases h1
      subst hi
      refine ⟨y, hy, ?_⟩
      rw [if_pos rfl, ← h2]
      rfl
    · next hi => exact ⟨x, h1, by rw [if_neg hi, h2]⟩

end Scene

namespace World
variable {w : World}

theorem Minor.rayAngles {w' : World} {k t : Bool} (h : Minor k t w w') :
    w'.ray.angles = w.ray.angles := by
  cases h with
  | raise i =>
    obtain ⟨l, S, h, -⟩ := raiseSurfaceTop_eq w i
    rw [h]
  | send _ d =>
    unfold sendSelection createOffer
    repeat' split
    all_goals rfl
  | _ => rfl

theorem Minors.rayAngles {w' : World} {k t : Bool} (h : Minors k t w w') :
    w'.ray.angles = w.ray.angles :=
  Path.const (f := fun u : World => u.ray.angles) (fun _ _ => Minor.rayAngles) h

theorem takeCursor_rayAngles (w : World) (surface : Option ℕ) :
    (w.takeCursor surface).ray.angles = w.ray.angles := by
  unfold takeCursor
  split
  · rfl
  · exact (moveCursor_minors (k := false) (t := false) _).rayAngles

theorem setSurfaceAsCursor_rayAngles (w : World) (surface : Option ℕ) (hotspot : ℤ × ℤ) :
    (w.setSurfaceAsCursor surface hotspot).ray.angles = w.ray.angles := by
  unfold setSurfaceAsCursor
  split
  · exact takeCursor_rayAngles _ _
  · split
    · rfl
    · exact takeCursor_rayAngles _ _

theorem Recast.rayAngles {w' : World} (h : Recast w w') : w'.ray.angles = w.ray.angles := by
  cases h with
  | minor h => exact h.rayAngles
  | cursor surface hotspot => exact setSurfaceAsCursor_rayAngles w surface hotspot

theorem Recasts.rayAngles {w' : World} (h : Recasts w w') : w'.ray.angles = w.ray.angles :=
  Path.const (f := fun u : World => u.ray.angles) (fun _ _ => Recast.rayAngles) h

/-- How far an action turns the ray: by the difference that `RayCaster::move_rel` returns, and by
the whole of the azimuthal angle. -/
def turned (w : World) : Action → ℚ × ℚ
  | .mouseMove polar azimuthal _ => (clampPolar (w.ray.polar + polar) - w.ray.polar, azimuthal)
  | _ => 0

theorem handle_rayAngles (w : World) (client : ℕ) (r : DeskRequest) :
    (w.handle client r).ray.angles = w.ray.angles := by
  have join (u : World) (f : ClientSeat → ClientSeat) : (u.joinSeat client f).ray = u.ray := by
    unfold joinSeat withClientSeat
    split
    · rfl
    · split <;> rfl
  have ask (o : ℕ) (e : ℕ → DeskEvent) : (w.askSource o e).ray = w.ray := by
    unfold askSource
    split
    · rfl
    · split <;> rfl
  cases r with
  | createSurface texSize =>
    have order (u : World) : u.reorderSurfaces.ray = u.ray := by
      obtain ⟨S, h, -⟩ := reorderSurfaces_eq u
      rw [h]
      rfl
    exact congrArg RayCaster.angles (order _)
  | commit s =>
    simp only [handle]
    unfold commitSurface andThen commitBuffer
    repeat' split
    all_goals simp [notifyXdg, modifySurface, crash, emit]
  | getToplevel x =>
    simp only [handle, createToplevel]
    split <;> rfl
  | setCursor p s hotspot => exact setSurfaceAsCursor_rayAngles ..
  | moveToplevel t => exact (requestStartMove_minors (k := false) (t := false) w client).rayAngles
  | getPointer _ => exact congrArg RayCaster.angles (join (w.newResource client _) _)
  | getKeyboard _ => exact congrArg RayCaster.angles (join (w.newResource client _) _)
  | getRay => exact congrArg RayCaster.angles (join (w.newResource client _) _)
  | getDataDevice =>
    simp only [handle, createDataDevice, andThen]
    have h1 := congrArg RayCaster.angles (join { w.newResource client .dataDevice with
      dataDevices := w.dataDevices.set w.nextId {} } fun x =>
        { x with dataDevices := w.nextId :: x.dataDevices })
    split
    · exact h1
    · split
      · exact (Minor.rayAngles (.send (k := true) rfl w.nextId)).trans h1
      · exact h1
  | setSelection d s => cases s <;> rfl
  | accept o mimeType => exact congrArg RayCaster.angles (ask o _)
  | receive o mimeType => exact congrArg RayCaster.angles (ask o _)
  | _ => rfl

theorem act_rayAngles (w : World) {a : Action}
    (ha : ∀ polar azimuthal hits, a ≠ .mouseMove polar azimuthal hits) :
    (w.act a).ray.angles = w.ray.angles := by
  cases a with
  | mouseMove polar azimuthal hits => exact absurd rfl (ha polar azimuthal hits)
  | desk client r =>
    simp only [act]
    split
    · exact handle_rayAngles w client r
    · rfl
  | destroy client i =>
    simp only [act, destroyResource]
    split
    · split
      · rfl
      · next r _ => cases r.interface <;> rfl
    · rfl
  | zwin client r =>
    simp only [act, addBoundedApp]
    split <;> rfl
  | destroyZwin client r => rfl
  | moveBounded client b =>
    simp only [act]
    split
    · exact (requestStartMove_minors (k := false) (t := false) w client).rayAngles
    · rfl
  | peerDiscover connected =>
    simp only [act, peerDiscover]
    split <;> rfl
  | sessionDisconnect =>
    simp only [act, sessionDisconnect]
    split <;> rfl
  | frameTimer busyness =>
    simp only [act, frameTimer]
    split <;> rfl
  | mouseButton button isPressed hits =>
    exact (handleMouseButton_recasts w button isPressed hits).rayAngles
  | mouseWheel amount =>
    exact (handleMouseWheel_minors (k := false) (t := false) w amount).rayAngles

theorem moveRelPointing_rayAngles (w : World) (polar azimuthal : ℚ) (hits : Hits) :
    (w.moveRelPointing polar azimuthal hits).ray.angles =
      w.ray.angles + w.turned (.mouseMove polar azimuthal hits) := by
  have h1 : (w.moveRay polar azimuthal).ray.angles =
      w.ray.angles + w.turned (.mouseMove polar azimuthal hits) := by
    simp [moveRay, RayCaster.angles, turned]
  have h2 (u : World) : (u.andThen moveCursor).ray.angles = u.ray.angles := by
    unfold andThen
    split
    · rfl
    · exact (moveCursor_minors (k := false) (t := false) u).rayAngles
  rw [moveRelPointing, h2, ← h1]
  split
  · exact (checkIntersection_recasts _ hits).rayAngles
  · unfold dragFocused moveObject
    repeat' split
    all_goals rfl

theorem step_rayAngles (hr : w.stopped = false) (a : Action) :
    (w.step a).ray.angles = w.ray.angles + w.turned a := by
  rw [step_of_running hr]
  by_cases ha : ∃ polar azimuthal hits, a = .mouseMove polar azimuthal hits
  · obtain ⟨polar, azimuthal, hits, rfl⟩ := ha
    exact moveRelPointing_rayAngles w polar azimuthal hits
  · have ha : ∀ polar azimuthal hits, a ≠ .mouseMove polar azimuthal hits :=
      fun polar azimuthal hits h => ha ⟨polar, azimuthal, hits, h⟩
    have h0 : w.turned a = 0 := by
      cases a with
      | mouseMove polar azimuthal hits => exact absurd rfl (ha polar azimuthal hits)
      | _ => rfl
    rw [h0, add_zero, act_rayAngles w ha]

/-- The surfaces that stay keep their angles, and new ones are at new addresses. -/
def SurfacesRest (w w' : World) : Prop :=
  Arena.Inherits w.nextId Surface.angles w.surfaces w'.surfaces

theorem act_surfacesRest (w : World) {a : Action}
    (ha : ∀ polar azimuthal hits, a ≠ .mouseMove polar azimuthal hits) :
    SurfacesRest w (w.act a) := by
  have h : Descends Surface.angles w (w.act a) := by
    refine act_descends Surface.roleless_angles w ?_ fun polar azimuthal hits h =>
      absurd h (ha polar azimuthal hits)
    intro client r _ _ hr
    refine descends_of_mapAll (handle_intact Surface.inert_angles w client ?_).surfaces
    cases r <;> first | rfl | cases hr
  intro i hi x' hx
  rcases h i x' hx with h1 | ⟨hn, -⟩
  · exact h1
  · omega

/-- A motion turns the surface that is dragged. -/
theorem moveRelPointing_surfaces {polar azimuthal : ℚ} {hits : Hits} {i : ℕ} {x' : Surface}
    (hx : (w.moveRelPointing polar azimuthal hits).surfaces i = some x') :
    ∃ x, w.surfaces i = some x ∧ x'.angles =
      if w.dragged = some (.surface i) then
        x.angles + w.turned (.mouseMove polar azimuthal hits)
      else x.angles := by
  have h2 {u : World} (hx : (u.andThen moveCursor).surfaces i = some x') :
      ∃ x, u.surfaces i = some x ∧ x.angles = x'.angles := by
    unfold andThen at hx
    split at hx
    · exact ⟨x', hx, rfl⟩
    · have h1 := (moveCursor_minors (k := false) (t := false) u).intact
        Surface.inert_angles.steady
      exact Arena.of_mapAll h1.surfaces hx
  obtain ⟨y, hy, hyx⟩ := h2 hx
  rw [← hyx]
  cases hm : w.seat.objState with
  | default =>
    simp only [hm] at hy
    obtain ⟨x, h1, h3⟩ := Arena.of_mapAll
      ((checkIntersection_recasts _ hits).mapAll Surface.roleless_angles) hy
    exact ⟨x, h1, by simp [dragged, hm, h3]⟩
  | moving =>
    simp only [hm, dragFocused] at hy
    have hl : (w.moveRay polar azimuthal).lock (w.moveRay polar azimuthal).seat.focusedObj =
        w.dragged := by
      rw [dragged, if_pos hm]
      rfl
    rw [hl] at hy
    cases hd : w.dragged with
    | none =>
      rw [hd] at hy
      exact ⟨y, hy, by simp⟩
    | some o =>
      rw [hd] at hy
      cases o with
      | app b => exact ⟨y, hy, by simp⟩
      | surface j =>
        simp only [moveObject, modifySurface, Arena.modify_apply] at hy
        split at hy
        · next hj =>
          obtain ⟨x, h1, rfl⟩ := Option.map_eq_some_iff.mp hy
          subst hj
          exact ⟨x, h1, by simp [turned]; rfl⟩
        · next hj =>
          exact ⟨y, hy, by simp [Ne.symm hj]⟩

/-- The angles of an object, as long as it is alive. -/
def angles (w : World) : BoundedObject → Option (ℚ × ℚ)
  | .surface i => (w.surfaces i).map Surface.angles
  | .app b => (w.scene.boundedApps b).map BoundedApp.angles

theorem turned_of_ne {a : Action}
    (ha : ∀ polar azimuthal hits, a ≠ .mouseMove polar azimuthal hits) : w.turned a = 0 := by
  cases a with
  | mouseMove polar azimuthal hits => exact absurd rfl (ha polar azimuthal hits)
  | _ => rfl

theorem step_surface_angles (hr : w.stopped = false) {a : Action} {i : ℕ} {x' : Surface}
    (hi : i < w.nextId) (hx : (w.step a).surfaces i = some x') :
    ∃ x, w.surfaces i = some x ∧ x'.angles =
      if w.dragged = some (.surface i) then x.angles + w.turned a else x.angles := by
  rw [step_of_running hr] at hx
  by_cases ha : ∃ polar azimuthal hits, a = .mouseMove polar azimuthal hits
  · obtain ⟨polar, azimuthal, hits, rfl⟩ := ha
    exact moveRelPointing_surfaces hx
  · have ha : ∀ polar azimuthal hits, a ≠ .mouseMove polar azimuthal hits :=
      fun polar azimuthal hits h => ha ⟨polar, azimuthal, hits, h⟩
    obtain ⟨x, h1, h2⟩ := act_surfacesRest w ha i hi x' hx
    exact ⟨x, h1, by rw [turned_of_ne ha, add_zero, ite_self, h2]⟩

/-- What the scene does in a step is to turn the app that is dragged, or nothing to angles. -/
theorem sceneAction_cases (w : World) (a : Action) :
    (∃ b, w.dragged = some (.app b) ∧
      w.sceneAction a = some (.moveApp b (w.turned a).1 (w.turned a).2)) ∨
    (∀ b polar azimuthal, w.sceneAction a ≠ some (.moveApp b polar azimuthal)) ∧
      ∀ b, w.dragged = some (.app b) → w.turned a = 0 := by
  cases a with
  | mouseMove polar azimuthal hits =>
    cases hm : w.seat.objState with
    | default => exact .inr ⟨by simp [sceneAction, hm], by simp [dragged, hm]⟩
    | moving =>
      have hl : w.dragged = w.lock w.seat.focusedObj := by rw [dragged, if_pos hm]
      simp only [sceneAction, hm, ← hl]
      cases hd : w.dragged with
      | none => exact .inr ⟨by simp, by simp⟩
      | some o =>
        cases o with
        | surface i => exact .inr ⟨by simp, by simp⟩
        | app b => exact .inl ⟨b, rfl, rfl⟩
  | peerDiscover connected =>
    refine .inr ⟨fun b polar azimuthal => ?_, fun _ _ => rfl⟩
    simp only [sceneAction]
    split <;> simp
  | sessionDisconnect =>
    refine .inr ⟨fun b polar azimuthal => ?_, fun _ _ => rfl⟩
    simp only [sceneAction]
    split <;> simp
  | frameTimer busyness =>
    refine .inr ⟨fun b polar azimuthal => ?_, fun _ _ => rfl⟩
    simp only [sceneAction]
    split <;> simp
  | _ => exact .inr ⟨by simp [sceneAction], fun _ _ => rfl⟩

theorem step_app_angles (hs : Sane w) (hr : w.stopped = false) {a : Action} {i : ℕ}
    {x' : BoundedApp} (hi : i < w.scene.nextId) (hx : (w.step a).scene.boundedApps i = some x') :
    ∃ x, w.scene.boundedApps i = some x ∧ x'.angles =
      if w.dragged = some (.app i) then x.angles + w.turned a else x.angles := by
  rw [step_of_running hr, act_scene] at hx
  rcases sceneAction_cases w a with ⟨b, hd, ha⟩ | ⟨ha, hd⟩
  · have hf : w.scene.fault = none := by simp_all [stopped]
    rw [ha] at hx
    obtain ⟨x, h1, h2⟩ := Scene.moveApp_angles hs.tree hf hx
    exact ⟨x, h1, by simp [hd, h2, eq_comm]⟩
  · have h3 : Scene.AppsRest w.scene.nextId w.scene
        (((w.sceneAction a).map w.scene.step).getD w.scene) := by
      cases hc : w.sceneAction a with
      | none => exact .refl
      | some c => exact Scene.step_appsRest hs.tree fun b p q h => ha b p q (h ▸ hc)
    obtain ⟨x, h1, h2⟩ := h3 i hi x' hx
    refine ⟨x, h1, ?_⟩
    split
    · next hdi => rw [hd i hdi, add_zero, h2]
    · exact h2.symm

/-- An object that is there before and after a step is turned if it is dragged. -/
theorem step_angles (hs : Sane w) (hr : w.stopped = false) {a : Action} {o : BoundedObject}
    (ho : w.alive o) (ho' : (w.step a).alive o) : ∃ v, w.angles o = some v ∧
      (w.step a).angles o = some (if w.dragged = some o then v + w.turned a else v) := by
  cases o with
  | surface i =>
    obtain ⟨x', hx'⟩ := Option.isSome_iff_exists.mp ho'
    obtain ⟨x, h1, h2⟩ := step_surface_angles hr (hs.surface_lt i ho) hx'
    exact ⟨x.angles, by simp [angles, h1], by simp [angles, hx', h2]⟩
  | app b =>
    obtain ⟨x', hx'⟩ := Option.isSome_iff_exists.mp ho'
    obtain ⟨x, h1, h2⟩ := step_app_angles hs hr (hs.issued ho) hx'
    exact ⟨x.angles, by simp [angles, h1], by simp [angles, hx', h2]⟩

/-- The angles of an object as seen from the ray. -/
def fromRay (w : World) (o : BoundedObject) : Option (ℚ × ℚ) :=
  (w.angles o).map (· - w.ray.angles)

/-- A motion drags the object. -/
def Drags (o : BoundedObject) (w : World) : Action → Prop
  | .mouseMove _ _ _ => w.stopped = false → w.dragged = some o
  | _ => True

instance (o : BoundedObject) (w : World) (a : Action) : Decidable (Drags o w a) := by
  unfold Drags
  split <;> infer_instance

theorem step_fromRay (hs : Sane w) {a : Action} {o : BoundedObject} (hd : Drags o w a)
    (ho : w.alive o) (ho' : (w.step a).alive o) : (w.step a).fromRay o = w.fromRay o := by
  cases hr : w.stopped with
  | true => rw [step_of_stopped hr]
  | false =>
    obtain ⟨v, h1, h2⟩ := step_angles hs hr ho ho'
    have h3 : (if w.dragged = some o then v + w.turned a else v) = v + w.turned a := by
      split
      · rfl
      · next hn =>
        rw [turned_of_ne, add_zero]
        rintro polar azimuthal hits rfl
        exact hn (hd hr)
    rw [fromRay, fromRay, h1, h2, h3, step_rayAngles hr, Option.map_some, Option.map_some,
      add_sub_add_right_eq_sub]

/-- The difference that `RayCaster::move_rel` returns, where an action calls it. -/
def returned? (w : World) : Action → Option ℚ
  | .mouseMove polar _ _ =>
    if w.stopped then none else some (clampPolar (w.ray.polar + polar) - w.ray.polar)
  | _ => none

/-- All that it returns in a run. -/
def returned (w : World) : List Action → List ℚ
  | [] => []
  | a :: as => (w.returned? a).toList ++ (w.step a).returned as

theorem step_polar (w : World) (a : Action) :
    (w.step a).ray.polar = w.ray.polar + (w.returned? a).toList.sum := by
  cases hr : w.stopped with
  | true =>
    rw [step_of_stopped hr]
    cases a <;> simp [returned?, hr]
  | false =>
    have h1 := congrArg Prod.fst (step_rayAngles hr a)
    simp only [RayCaster.angles, Prod.fst_add] at h1
    rw [h1]
    cases a <;> simp [returned?, turned, hr]

/-- The differences sum up to the total change. -/
theorem returned_sum (w : World) (as : List Action) :
    (w.returned as).sum = (Run.final step w as).ray.polar - w.ray.polar := by
  induction as generalizing w with
  | nil => simp [returned]
  | cons a as ih =>
    rw [returned, List.sum_append, ih, Run.final_cons, step_polar]
    ring

theorem always_fromRay {o : BoundedObject} {v : Option (ℚ × ℚ)} (hs : Sane w)
    (hv : w.fromRay o = v) {bs : List Action}
    (ha : Run.Always step (fun w => w.alive o = true) w bs) (hd : Run.Each step (Drags o) w bs) :
    Run.Always step (fun w => w.fromRay o = v) w bs := by
  induction bs generalizing w with
  | nil => exact Run.always_nil.mpr hv
  | cons b bs ih =>
    rw [Run.always_cons] at ha ⊢
    obtain ⟨hb, hd⟩ := Run.each_cons.mp hd
    have h1 : (w.step b).fromRay o = v :=
      (step_fromRay hs hb ha.1 (ha.2 [] List.nil_prefix)).trans hv
    exact ⟨hv, ih (step_sane w b hs) h1 ha.2 hd⟩

/-- The ray is between its bounds. -/
def Bounded (w : World) : Prop := polarMin ≤ w.ray.polar ∧ w.ray.polar ≤ polarMax

theorem clampPolar_bounds (polar : ℚ) :
    polarMin ≤ clampPolar polar ∧ clampPolar polar ≤ polarMax := by
  have h : polarMin ≤ polarMax := by decide +kernel
  exact ⟨le_max_left _ _, max_le h (min_le_right _ _)⟩

theorem init_bounded : init.Bounded := by
  constructor <;> decide +kernel

theorem step_bounded (w : World) (a : Action) (h : w.Bounded) : (w.step a).Bounded := by
  rw [Bounded, step_polar]
  unfold returned?
  split
  · split
    · rwa [Option.toList_none, List.sum_nil, add_zero]
    · simpa using clampPolar_bounds _
  · rwa [Option.toList_none, List.sum_nil, add_zero]

/-- The ray is between its bounds, the differences that `move_rel` returns are how far it turns,
and an object that is dragged by every motion stays where it is seen from the ray. -/
theorem ray_and_drags (as bs : List Action) :
    (floatPi / 8 ≤ (run as).ray.polar ∧ (run as).ray.polar ≤ 7 * floatPi / 8) ∧
    ((run as).returned bs).sum = (run (as ++ bs)).ray.polar - (run as).ray.polar ∧
    ∀ o, Run.Always step (fun w => w.alive o = true) (run as) bs →
      Run.Each step (Drags o) (run as) bs →
        Run.Always step (fun w => w.fromRay o = (run as).fromRay o) (run as) bs := by
  refine ⟨?_, ?_, fun o ha hd => ?_⟩
  · have h1 : (run as).Bounded := Run.final_induction init_bounded step_bounded as
    have h2 : polarMax = 7 * floatPi / 8 := by decide +kernel
    exact ⟨h1.1, h2 ▸ h1.2⟩
  · rw [returned_sum, run, run, Run.final_append]
  · exact always_fromRay (run_sane as) rfl ha hd

/-- A window is dragged up to the highest point of the ray and beyond, and down again. -/
def dragUp : List Action :=
  [.mouseMove (-1) 0 fun _ => none, .mouseMove (-1) 1 fun _ => none, .mouseMove 2 1 fun _ => none,
    .mouseButton 272 false fun _ => none]

theorem ray_and_drags_up :
    ((run (dragRun.take 8)).returned (.desk 0 (.moveToplevel 4) :: dragUp)).length = 3 ∧
    (run (dragRun.take 9 ++ dragUp)).fromRay (.surface 1) =
      (run (dragRun.take 8)).fromRay (.surface 1) ∧
    (run (dragRun.take 9 ++ dragUp)).angles (.surface 1) ≠
      (run (dragRun.take 8)).angles (.surface 1) := by
  have h := (ray_and_drags (dragRun.take 8) (.desk 0 (.moveToplevel 4) :: dragUp)).2.2
    (.surface 1) (by decide +kernel) (by decide +kernel)
  have h1 := h _ List.prefix_rfl
  rw [run, ← Run.final_append] at h1
  exact ⟨by decide +kernel, h1, by decide +kernel⟩

end World
end Yaza
