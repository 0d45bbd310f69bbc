import Yaza.Server.Desk
import Yaza.Zwin.AppLink
import Yaza.Zwin.Proxies

/-! What every state of the program satisfies: its scene is one that the scene alone can reach,
addresses are not used twice, and the renderers belong to the current session. -/
namespace Yaza
namespace World

/-- The renderers are on the channel of the current session, and null without one. -/
structure Renders (w : World) : Prop where
  surfaces : ∀ i x, w.surfaces i = some x →
    x.renderer.map Renderer.channel = w.scene.remote.currentSession
  ray : w.ray.renderer = w.scene.remote.currentSession

theorem renders_iff {w : World} : Renders w ↔
    (∀ i k, w.keys i = some k → k.2 = w.scene.remote.currentSession) ∧
      w.ray.renderer = w.scene.remote.currentSession := by
  constructor
  · rintro ⟨h, hr⟩
    refine ⟨fun i k hk => ?_, hr⟩
    obtain ⟨x, hx, rfl⟩ := Option.map_eq_some_iff.mp hk
    exact h i x hx
  · rintro ⟨h, hr⟩
    exact ⟨fun i x hx => h i x.key (Option.map_eq_some_iff.mpr ⟨x, hx, rfl⟩), hr⟩

structure Sane (w : World) : Prop where
  scene : ∃ as, w.scene = Scene.run as
  fresh : w.Fresh
  surface_lt : ∀ i, (w.surfaces i).isSome → i < w.nextId
  renders : w.Renders

namespace Sane
variable {w w' : World} (h : Sane w)
include h

theorem tree : Scene.Tree w.scene := by
  obtain ⟨as, hs⟩ := h.scene
  exact hs ▸ Scene.run_tree as

theorem wired : Scene.Wired w.scene := by
  obtain ⟨as, hs⟩ := h.scene
  exact hs ▸ Scene.run_wired as

theorem attached : Scene.Attached w.scene := by
  obtain ⟨as, hs⟩ := h.scene
  exact hs ▸ Scene.run_attached as

/-- The scene does a step, and the surfaces stay what they are. -/
theorem sceneStep (a : Scene.Action) (hs : w'.scene = w.scene.step a)
    (hr : w'.scene.remote.currentSession = w.scene.remote.currentSession)
    (hk : w'.keys = w.keys) (hy : w'.ray.renderer = w.ray.renderer)
    (hn : w'.nextId = w.nextId) (hi : w'.resources = w.resources) : Sane w' where
  scene := by
    obtain ⟨as, h1⟩ := h.scene
    exact ⟨as ++ [a], by rw [hs, h1, Scene.run_concat]⟩
  fresh := fun i hi' => by rw [hi]; exact h.fresh i (hn ▸ hi')
  surface_lt := fun i hi' => by
    rw [Arena.isSome_of_mapAll hk] at hi'
    exact hn ▸ h.surface_lt i hi'
  renders := renders_iff.mpr ⟨fun i k h1 => by
    rw [hr]
    exact (renders_iff.mp h.renders).1 i k (hk ▸ h1), by rw [hy, hr, h.renders.ray]⟩

theorem calm (hc : Calm w w') : Sane w' where
  scene := hc.scene ▸ h.scene
  fresh := hc.fresh h.fresh
  surface_lt := fun i hi => by
    rw [Arena.isSome_of_mapAll hc.surfaces] at hi
    exact (h.surface_lt i hi).trans_le hc.nextId
  renders := renders_iff.mpr ⟨fun i k h1 => by
    rw [hc.scene]
    exact (renders_iff.mp h.renders).1 i k (by rw [← h1]; exact (congrFun hc.surfaces i).symm), by
    rw [hc.rayRenderer, hc.scene, h.renders.ray]⟩

theorem keyed {K : Arena ((List ℕ × List ℕ) × Option ℕ)} (hc : Keyed K w w')
    (hK : ∀ i k, K i = some k → i < w'.nextId ∧ k.2 = w.scene.remote.currentSession) :
    Sane w' where
  scene := hc.scene ▸ h.scene
  fresh := hc.fresh h.fresh
  surface_lt := fun i hi => by
    rw [hc.isSome] at hi
    obtain ⟨k, hk⟩ := Option.isSome_iff_exists.mp hi
    exact (hK i k hk).1
  renders := renders_iff.mpr ⟨fun i k h1 => by
    rw [hc.scene]
    exact (hK i k (hc.keys ▸ h1)).2, by rw [hc.rayRenderer, hc.scene, h.renders.ray]⟩

theorem key {i : ℕ} {k : (List ℕ × List ℕ) × Option ℕ} (hk : w.keys i = some k) :
    i < w.nextId ∧ k.2 = w.scene.remote.currentSession := by
  refine ⟨h.surface_lt i ?_, (renders_iff.mp h.renders).1 i k hk⟩
  have h1 := congrArg Option.isSome hk
  simpa [keys] using h1

theorem idle (hc : Idle w w') : Sane w' :=
  h.keyed hc fun _ _ hk => ⟨(h.key hk).1.trans_le hc.nextId, (h.key hk).2⟩

/-- The surfaces that change keep their channel. -/
theorem modified {i : ℕ} {f : (List ℕ × List ℕ) × Option ℕ → (List ℕ × List ℕ) × Option ℕ}
    (hf : ∀ k, (f k).2 = k.2) (hc : Keyed (w.keys.modify i f) w w') : Sane w' :=
  h.keyed hc fun j k hj => by
    rw [Arena.modify_apply] at hj
    split at hj
    · obtain ⟨k', hk', rfl⟩ := Option.map_eq_some_iff.mp hj
      exact ⟨(h.key hk').1.trans_le hc.nextId, (hf k').trans (h.key hk').2⟩
    · exact ⟨(h.key hj).1.trans_le hc.nextId, (h.key hj).2⟩

theorem handle (client : ℕ) (r : DeskRequest) : Sane (w.handle client r) := by
  by_cases hi : r.isIdle = true
  · exact h.idle (handle_idle client hi)
  cases r with
  | createSurface texSize =>
    refine h.keyed (createSurface_keyed client texSize) fun j k hj => ?_
    have hlt := lt_createSurface (w := w) client texSize
    rw [Arena.set_apply] at hj
    split at hj
    · next he =>
      cases hj
      exact ⟨he ▸ hlt, rfl⟩
    · exact ⟨(h.key hj).1.trans hlt, (h.key hj).2⟩
  | frame s =>
    exact h.modified (f := requestFrame w.nextId) (fun _ => rfl) (queueFrameCallback_keyed s)
  | commit s =>
    rcases commitSurface_keyed (w := w) s with hc | hc
    · exact h.idle hc.2
    · exact h.modified (f := commitKey) (fun _ => rfl) hc
  | moveToplevel t =>
    exact h.calm (w.requestStartMove_calm client)
  | _ => exact absurd rfl hi

theorem destroyResource (i : ℕ) : Sane (w.destroyResource i) := by
  cases hr : w.resources i with
  | none =>
    rw [World.destroyResource, hr]
    exact h
  | some r =>
    have hc := destroyResource_keyed hr
    refine h.keyed hc fun j k hj => ?_
    have hj' : w.keys j = some k := by
      split at hj
      · rw [Arena.erase_apply] at hj
        split at hj
        · cases hj
        · exact hj
      · exact hj
    exact ⟨(h.key hj').1.trans_le hc.nextId, (h.key hj').2⟩

/-- The scene does a step, and all renderers follow the session. -/
theorem session {a : Scene.Action} {f : Surface → Surface} {o : Option ℕ}
    (ho : (w.scene.step a).remote.currentSession = o)
    (hf : ∀ x, (f x).key.2 = o) :
    Sane { w with
      scene := w.scene.step a
      surfaces := w.surfaces.mapAll f
      ray.renderer := o } where
  scene := by
    obtain ⟨as, h1⟩ := h.scene
    exact ⟨as ++ [a], by rw [h1, Scene.run_concat]⟩
  fresh := h.fresh
  surface_lt := fun i hi => h.surface_lt i (by simpa using hi)
  renders := by
    refine renders_iff.mpr ⟨fun i k hk => ?_, ho.symm⟩
    simp only [keys, Arena.mapAll_apply, Option.map_eq_some_iff] at hk
    obtain ⟨_, ⟨x, -, rfl⟩, rfl⟩ := hk
    exact (hf x).trans ho.symm

theorem peerDiscover (hr : w.stopped = false) (connected : Bool) :
    Sane (w.peerDiscover connected) := by
  unfold World.peerDiscover
  split
  · exact h
  · next hn =>
    simp only [Bool.or_eq_true, Bool.not_eq_true', not_or, Bool.not_eq_true,
      Bool.not_eq_false] at hn
    obtain ⟨hn, rfl⟩ := hn
    refine h.session ?_ fun x => ?_
    · rw [Scene.step, if_neg (by simp_all [stopped])]
      exact Scene.peerDiscover_session h.tree hn
    · rw [Surface.initRenderer_key]

theorem sessionDisconnect (hr : w.stopped = false) : Sane w.sessionDisconnect := by
  unfold World.sessionDisconnect
  split
  · next hn =>
    refine h.session ?_ fun x => rfl
    rw [Scene.step, if_neg (by simp_all [stopped]), Scene.act, Scene.sessionDisconnect, if_pos hn]
    rfl
  · exact h

/-- A session frame drains the callbacks. -/
theorem drain {w' : World} (hs : w'.scene = w.scene)
    (hk : w'.keys = w.keys.mapAll fun k => ((k.1.1, []), k.2))
    (hy : w'.ray.renderer = w.ray.renderer) (hn : w'.nextId = w.nextId)
    (hi : w'.resources = w.resources) : Sane w' where
  scene := hs ▸ h.scene
  fresh := fun i hi' => by rw [hi]; exact h.fresh i (hn ▸ hi')
  surface_lt := fun i hi' => by
    have h1 := congrArg Option.isSome (congrFun hk i)
    simp only [keys, Arena.mapAll_apply, Option.isSome_map] at h1
    exact hn ▸ h.surface_lt i (h1 ▸ hi')
  renders := by
    refine renders_iff.mpr ⟨fun i k h1 => ?_, by rw [hy, hs, h.renders.ray]⟩
    rw [hk, Arena.mapAll_apply, Option.map_eq_some_iff] at h1
    obtain ⟨k', hk', rfl⟩ := h1
    rw [hs]
    exact (renders_iff.mp h.renders).1 i k' hk'

theorem frameTimer (busyness : ℕ) : Sane (w.frameTimer busyness) := by
  unfold World.frameTimer
  split
  · have h1 : Sane w.sessionFrame := by
      refine h.drain rfl ?_ rfl rfl rfl
      simp only [keys, sessionFrame, Arena.mapAll_mapAll]
      rfl
    refine h1.sceneStep (.frameTimer busyness) rfl ?_ rfl rfl rfl rfl
    exact Scene.step_session h.tree (by simp) (by simp)
  · exact h

theorem dragFocused (polar azimuthal : ℚ) : Sane (w.dragFocused polar azimuthal) := by
  unfold World.dragFocused
  split
  · exact h
  · next o _ =>
    cases o with
    | surface i => exact h.idle (keyed_of_eq (Arena.mapAll_modify fun x => x.move_key _ _) rfl rfl)
    | app b =>
      exact h.sceneStep (.moveApp b polar azimuthal) rfl
        (Scene.step_session h.tree (by simp) (by simp)) rfl rfl rfl rfl

theorem moveRelPointing (polar azimuthal : ℚ) (hits : Hits) :
    Sane (w.moveRelPointing polar azimuthal hits) := by
  rcases w.moveRelPointing_calm polar azimuthal hits with hc | hc
  · exact h.calm hc
  · have h1 : Sane (w.moveRay polar azimuthal) := h.idle (keyed_of_eq rfl rfl rfl)
    exact (h1.dragFocused _ azimuthal).calm hc

theorem handleMouseButton (button : UInt32) (isPressed : Bool) (hits : Hits) :
    Sane (w.handleMouseButton button isPressed hits) :=
  h.calm (w.handleMouseButton_calm button isPressed hits)

theorem act (hr : w.stopped = false) (a : Action) : Sane (w.act a) := by
  cases a with
  | zwin client r =>
    have h1 : Sane { w with scene := w.scene.step (.request client r) } :=
      h.sceneStep (.request client r) rfl (Scene.step_session h.tree (by simp) (by simp))
        rfl rfl rfl rfl
    simp only [World.act, addBoundedApp]
    split
    · exact h1.idle (keyed_of_eq rfl rfl rfl)
    · exact h1
  | destroyZwin client r =>
    exact h.sceneStep (.destroy client r) rfl (Scene.step_session h.tree (by simp) (by simp))
      rfl rfl rfl rfl
  | desk client r =>
    simp only [World.act]
    split
    · exact h.handle client r
    · exact h
  | destroy client i =>
    simp only [World.act]
    split
    · exact h.destroyResource i
    · exact h
  | moveBounded client b =>
    simp only [World.act]
    split
    · exact h.calm (w.requestStartMove_calm client)
    · exact h
  | peerDiscover connected => exact h.peerDiscover hr connected
  | sessionDisconnect => exact h.sessionDisconnect hr
  | frameTimer busyness => exact h.frameTimer busyness
  | mouseMove polar azimuthal hits => exact h.moveRelPointing polar azimuthal hits
  | mouseButton button pressed hits => exact h.handleMouseButton button pressed hits
  | mouseWheel amount =>
    exact h.calm (w.handleMouseWheel_calm amount)

end Sane

theorem init_sane : Sane init where
  scene := ⟨[], rfl⟩
  fresh := fun _ _ => rfl
  surface_lt := fun _ h => by cases h
  renders := renders_iff.mpr ⟨fun _ _ h => (by cases h), rfl⟩

theorem step_sane (w : World) (a : Action) (h : Sane w) : Sane (w.step a) := by
  unfold step
  split
  · exact h
  · next hs => exact h.act (by simpa using hs) a

theorem run_sane (as : List Action) : Sane (run as) := Run.final_induction init_sane step_sane as

theorem lock_eq_some {w : World} {p : Option BoundedObject} {o : BoundedObject} :
    w.lock p = some o ↔ p = some o ∧ w.alive o := by
  rw [lock, Option.filter_eq_some_iff]

theorem Sane.issued {w : World} (h : Sane w) {o : BoundedObject} (ho : w.alive o) :
    w.issued o := by
  cases o with
  | surface i => exact h.surface_lt i ho
  | app i =>
    by_contra hi
    have h1 := h.wired.apps i (Nat.le_of_not_lt hi)
    simp [alive, h1] at ho

/-- The object that is found is one of the live ones. -/
theorem nearest_alive {w : World} {o : BoundedObject} {hits : Hits} {d : ℚ}
    (h : w.nearest hits = some (o, d)) : w.alive o := by
  have fold (l : List BoundedObject) (best : Option (BoundedObject × ℚ))
      (hl : ∀ p ∈ l, w.alive p) (hb : ∀ p d, best = some (p, d) → w.alive p) :
      ∀ p d, l.foldl (w.nearer hits) best = some (p, d) → w.alive p := by
    induction l generalizing best with
    | nil => exact hb
    | cons q l ih =>
      refine ih _ (fun p hp => hl p (List.mem_cons_of_mem _ hp)) fun p d hpd => ?_
      unfold nearer at hpd
      split at hpd
      · exact hb p d hpd
      · split at hpd
        · cases hpd
          exact hl _ List.mem_cons_self
        · split at hpd
          · cases hpd
            exact hl _ List.mem_cons_self
          · next p' d' _ => exact hb p d hpd
  exact fold w.candidates none (fun p hp => (List.mem_filter.mp hp).2) (by simp) o d h

/-- The step of the scene in a step of the program. -/
def sceneAction (w : World) : Action → Option Scene.Action
  | .zwin client r => some (.request client r)
  | .destroyZwin client r => some (.destroy client r)
  | .peerDiscover connected =>
    if w.scene.remote.hasSession || !connected then none else some (.peerDiscover connected)
  | .sessionDisconnect => if w.scene.remote.hasSession then some .sessionDisconnect else none
  | .frameTimer busyness =>
    if !w.scene.remote.hasSession || busyness < Scene.busynessThreshold then
      some (.frameTimer busyness)
    else none
  | .mouseMove polar azimuthal _ =>
    match w.seat.objState, w.lock w.seat.focusedObj with
    | .moving, some (.app b) =>
      some (.moveApp b (clampPolar (w.ray.polar + polar) - w.ray.polar) azimuthal)
    | _, _ => none
  | _ => none

theorem moveCursor_scene (w : World) : w.moveCursor.scene = w.scene :=
  (moveCursor_aside (S := fun _ => True) w).scene

theorem andThen_scene {w : World} {k : World → World} (hk : ∀ w, (k w).scene = w.scene) :
    (w.andThen k).scene = w.scene := by
  unfold andThen
  split
  · rfl
  · exact hk w

theorem handle_scene (w : World) (client : ℕ) (r : DeskRequest) :
    (w.handle client r).scene = w.scene := by
  by_cases hi : r.isIdle = true
  · exact (handle_idle client hi).scene
  cases r with
  | createSurface texSize => exact (createSurface_keyed client texSize).scene
  | frame s => rfl
  | commit s => rcases commitSurface_keyed (w := w) s with ⟨-, hc⟩ | hc <;> exact hc.scene
  | moveToplevel t =>
    exact (w.requestStartMove_calm client).scene
  | _ => exact absurd rfl hi

theorem destroyResource_scene (w : World) (i : ℕ) : (w.destroyResource i).scene = w.scene := by
  cases hr : w.resources i with
  | none => rw [destroyResource, hr]
  | some r => exact (destroyResource_keyed hr).scene

theorem moveRelPointing_scene (w : World) (polar azimuthal : ℚ) (hits : Hits) :
    (w.moveRelPointing polar azimuthal hits).scene =
      ((w.sceneAction (.mouseMove polar azimuthal hits)).map w.scene.step).getD w.scene := by
  cases ho : w.seat.objState with
  | default =>
    simp only [sceneAction, ho]
    exact (moveDefault_calm polar azimuthal hits ho).scene
  | moving =>
    simp only [moveRelPointing, sceneAction, ho]
    rw [andThen_scene moveCursor_scene]
    have hl : (w.moveRay polar azimuthal).lock (w.moveRay polar azimuthal).seat.focusedObj =
        w.lock w.seat.focusedObj := rfl
    unfold dragFocused
    rw [hl]
    cases w.lock w.seat.focusedObj with
    | none => rfl
    | some o => cases o <;> rfl

theorem act_scene (w : World) (a : Action) :
    (w.act a).scene = ((w.sceneAction a).map w.scene.step).getD w.scene := by
  cases a with
  | zwin client r =>
    simp only [act, addBoundedApp]
    split <;> rfl
  | destroyZwin client r => rfl
  | desk client r =>
    simp only [act]
    split
    · exact handle_scene ..
    · rfl
  | destroy client i =>
    simp only [act]
    split
    · exact destroyResource_scene ..
    · rfl
  | moveBounded client b =>
    simp only [act]
    split
    · exact (w.requestStartMove_calm client).scene
    · rfl
  | peerDiscover connected =>
    simp only [act, peerDiscover, sceneAction]
    split <;> rfl
  | sessionDisconnect =>
    simp only [act, sessionDisconnect, sceneAction]
    split <;> rfl
  | frameTimer busyness =>
    simp only [act, frameTimer, sceneAction]
    split <;> rfl
  | mouseMove polar azimuthal hits => exact moveRelPointing_scene ..
  | mouseButton button isPressed hits =>
    exact (w.handleMouseButton_calm button isPressed hits).scene
  | mouseWheel amount =>
    exact (w.handleMouseWheel_calm amount).scene

/-- In every state: the session signals alternate, every proxy is on the channel of the current
session and no step asked for one that was missing, and the renderers follow the session. -/
theorem session_throughout (as : List Action) :
    Scene.Attached (run as).scene ∧ Renders (run as) :=
  ⟨(run_sane as).attached, (run_sane as).renders⟩

end World
end Yaza
