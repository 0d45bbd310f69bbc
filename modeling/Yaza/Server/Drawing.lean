import Yaza.Server.Parts
import Yaza.Server.Reach
import Yaza.Wayland.Geometry
import Yaza.Wayland.Telling

/-! What is drawn of the surfaces: in every state the renderers know them, whether it is where they
are picked, and whether a new session draws the same. -/
namespace Yaza
namespace World

/-- The renderers of all surfaces have been told everything. -/
def Synced (w : World) : Prop := w.surfaces.All fun _ x => x.Synced

section Steps
variable {w w' : World} {k t : Bool}

theorem Synced.same (h : w.Synced) (hs : w'.surfaces = w.surfaces) : w'.Synced := by
  unfold Synced
  rw [hs]
  exact h

theorem Synced.modify (h : w.Synced) {i : ℕ} {f : Surface → Surface}
    (hf : ∀ x, x.Synced → (f x).Synced) : (w.modifySurface i f).Synced :=
  Arena.All.modify h fun x _ hx => hf x hx

theorem Synced.andThen (h : w.Synced) {f : World → World} (hf : ∀ u, u.Synced → (f u).Synced) :
    (w.andThen f).Synced := by
  unfold World.andThen
  split
  · exact h
  · exact hf w h

theorem Synced.reorderFold (l : List ℕ) (acc : World × ℕ) (h : acc.1.Synced) :
    (l.foldl reorderSurface acc).1.Synced := by
  induction l generalizing acc with
  | nil => exact h
  | cons i l ih =>
    apply ih
    unfold reorderSurface
    split
    · exact h
    · next y hy =>
      obtain ⟨x, hx, hxy⟩ := Option.bind_eq_some_iff.mp hy
      exact Arena.All.set h ((h i x hx).updateDistance hxy)

theorem Synced.reorder (h : w.Synced) : w.reorderSurfaces.Synced :=
  Synced.reorderFold _ (w.dropExpiredSurfaces, 0) h

theorem Synced.raise (h : w.Synced) (i : ℕ) : (w.raiseSurfaceTop i).Synced := by
  unfold raiseSurfaceTop
  split
  · exact h
  · next j _ => exact Synced.reorder (w := { w with surfaceList := j :: w.surfaceList.erase j }) h

theorem Effect.synced (h : Effect k t w w') (hw : w.Synced) : w'.Synced := by
  cases h with
  | raise i => exact hw.raise i
  | drag i polar azimuthal => exact hw.modify fun x hx => hx.move polar azimuthal
  | followRay i distance polar azimuthal hotspot =>
    exact hw.modify fun x hx => hx.moveCursor distance polar azimuthal hotspot
  | becomeCursor i => exact hw.modify fun x hx => (hx.setRole _ _).setActive true
  | hide i => exact hw.modify fun x hx => hx.setActive false
  | send _ d => exact hw.same (w.sendSelection_surfaces d)
  | _ => exact hw.same rfl

theorem Effects.synced (h : Effects k t w w') (hw : w.Synced) : w'.Synced :=
  Path.preserves (fun _ _ he => he.synced) h hw

theorem newSurface_synced (w : World) (texSize : ℕ × ℕ) : (w.newSurface texSize).Synced := by
  unfold newSurface
  split
  · intro r hr
    cases hr
  · exact Surface.initRenderer_synced _ _

/-- The program may stop between the two parts of a commit. -/
theorem commitSurface_synced (hr : w.stopped = false) (hw : w.Synced) (i : ℕ) :
    (w.commitSurface i).Synced := by
  have hoffset : (w.modifySurface i .commitOffset).Synced := hw.modify fun _ hx => hx.commitOffset
  unfold commitSurface
  split
  · exact hw.same rfl
  · next x hx =>
    unfold commitBuffer
    split
    · rw [World.andThen, if_neg (by simpa [stopped, modifySurface] using hr)]
      exact hoffset.modify fun y hy => hy.tellTexture.commitFrames
    · next b _ =>
      split
      · rw [World.andThen, if_pos (by simp [stopped, crash])]
        exact hoffset.same rfl
      · next buffer _ =>
        rw [World.andThen, if_neg (by simpa [stopped, modifySurface, World.emit] using hr)]
        have h1 : (w.modifySurface i fun x =>
            (x.commitOffset.commitBuffer buffer).tellTexture.commitFrames).Synced :=
          hw.modify fun x hx => (Surface.tellTexture_synced fun _ hq =>
            hx.commitOffset.commitBuffer buffer hq).commitFrames
        exact h1.same (Arena.modify_modify ..)

theorem handle_synced (hr : w.stopped = false) (hw : w.Synced) (client : ℕ) (r : DeskRequest) :
    (w.handle client r).Synced := by
  cases r with
  | createSurface texSize =>
    have h1 : Synced { w.newResource client .surface with
        surfaces := w.surfaces.set w.nextId (w.newSurface texSize) } :=
      Arena.All.set hw (w.newSurface_synced texSize)
    exact Synced.reorder (h1.same rfl)
  | attach s b d => exact hw.modify fun x hx => hx.same rfl rfl rfl rfl rfl
  | offset s d => exact hw.modify fun x hx => hx.same rfl rfl rfl rfl rfl
  | frame s =>
    exact Synced.modify (w := { w with nextId := w.nextId + 1 }) hw fun x hx =>
      hx.same rfl rfl rfl rfl rfl
  | commit s => exact commitSurface_synced hr hw s
  | getToplevel x =>
    simp only [handle, createToplevel]
    split
    · exact hw.same rfl
    · exact Arena.All.modify hw fun y _ hy => hy.setRole _ _
  | moveToplevel t => exact (requestStartMove_effects (k := false) (t := false) w client).synced hw
  | getPointer i => exact hw.same (joinSeat_surfaces _ client _)
  | getKeyboard i => exact hw.same (joinSeat_surfaces _ client _)
  | getRay => exact hw.same (joinSeat_surfaces _ client _)
  | setCursor p s hotspot =>
    exact (setSurfaceAsCursor_effects (k := false) (t := false) w s hotspot).synced hw
  | getDataDevice =>
    simp only [handle, createDataDevice]
    apply Synced.andThen
    · exact hw.same (joinSeat_surfaces _ client _)
    · intro u hu
      split
      · exact hu.same (sendSelection_surfaces u _)
      · exact hu
  | setSelection d s => cases s <;> exact hw.same rfl
  | accept o mimeType => exact hw.same (askSource_surfaces ..)
  | receive o mimeType => exact hw.same (askSource_surfaces ..)
  | _ => exact hw.same rfl

theorem destroyResource_synced (hw : w.Synced) (i : ℕ) : (w.destroyResource i).Synced := by
  unfold destroyResource
  split
  · exact hw
  · next r _ =>
    cases r.interface with
    | surface => exact Arena.All.erase hw
    | _ => exact hw.same rfl

theorem act_synced (hr : w.stopped = false) (hw : w.Synced) (a : Action) : (w.act a).Synced := by
  cases a with
  | zwin client r =>
    simp only [act, addBoundedApp]
    split <;> exact hw.same rfl
  | destroyZwin client r => exact hw.same rfl
  | desk client r =>
    simp only [act]
    split
    · exact handle_synced hr hw client r
    · exact hw
  | destroy client i =>
    simp only [act]
    split
    · exact destroyResource_synced hw i
    · exact hw
  | moveBounded client b =>
    simp only [act]
    split
    · exact (requestStartMove_effects (k := false) (t := false) w client).synced hw
    · exact hw
  | peerDiscover connected =>
    simp only [act, peerDiscover]
    split
    · exact hw
    · exact Arena.All.mapAll hw fun _ x _ => x.initRenderer_synced _
  | sessionDisconnect =>
    simp only [act, sessionDisconnect]
    split
    · exact Arena.All.mapAll hw fun _ x _ r hr => by cases hr
    · exact hw
  | frameTimer busyness =>
    simp only [act, frameTimer]
    split
    · exact Arena.All.mapAll hw fun _ x hx => hx.same rfl rfl rfl rfl rfl
    · exact hw
  | mouseMove polar azimuthal hits =>
    exact (moveRelPointing_effects (k := false) w polar azimuthal hits).synced hw
  | mouseButton button isPressed hits =>
    exact (handleMouseButton_effects w button isPressed hits).synced hw
  | mouseWheel amount =>
    exact (handleMouseWheel_effects (k := false) (t := false) w amount).synced hw

theorem step_synced (w : World) (a : Action) (hw : w.Synced) : (w.step a).Synced := by
  unfold step
  split
  · exact hw
  · next hr => exact act_synced (by simpa using hr) hw a

end Steps

theorem run_synced (as : List Action) : (run as).Synced :=
  Run.final_induction (fun _ _ h => by cases h) step_synced as

/-- The surface has not been placed as a cursor, or happens to be where its polar coordinates
place it. -/
def Returns (x : Surface) : Prop :=
  ∀ distance polar azimuthal hotspot texSize,
    x.geom.place = .cursor distance polar azimuthal hotspot texSize →
      x.geom.mat = { x.geom with place := .sphere x.distance x.polar x.azimuthal : Geom }.mat

/-- A buffer of one pixel. -/
def pixel : WlShmBuffer where
  format := 0
  width := 1
  height := 1
  stride := 4
  data := [0, 0, 0, 255]

/-- A client commits a surface with content. -/
def contentRun (offset : ℤ × ℤ) : List Action :=
  [.peerDiscover true, .desk 0 (.createWlBuffer pixel), .desk 0 (.createSurface (0, 0)),
    .desk 0 (.attach 1 (some 0) offset), .desk 0 (.commit 1)]

/-- Without an offset it stays where it is. -/
theorem contentRun_surface : ∃ x r, (run (contentRun (0, 0))).surfaces 1 = some x ∧
    x.renderer = some r ∧ x.pickable = true ∧ x.offset = (0, 0) ∧ x.isActive = true ∧
      Returns x := by
  have h1 : ((run (contentRun (0, 0))).surfaces 1).map (fun x =>
        (x.pickable, x.offset, x.isActive, x.geom.place, x.renderer.isSome)) =
      some (true, (0, 0), true, .sphere minDistance (floatPi / 2) floatPi, true) := by
    decide +kernel
  obtain ⟨x, hx, hxe⟩ := Option.map_eq_some_iff.mp h1
  simp only [Prod.mk.injEq] at hxe
  obtain ⟨hp, ho, ha, hg, hr⟩ := hxe
  obtain ⟨r, hr⟩ := Option.isSome_iff_exists.mp hr
  refine ⟨x, r, hx, hr, hp, ho, ha, fun d p a hotspot size hc => ?_⟩
  rw [hg] at hc
  cases hc

/-- A surface is drawn where it is picked exactly while it has no offset and is active. -/
theorem drawn_where_picked_iff (as : List Action) {i : ℕ} {x : Surface} {r : Renderer}
    (hx : (run as).surfaces i = some x) (hr : x.renderer = some r) :
    (r.localModel.map fun m => quad m.mat) = some (quad x.geom.mat) ↔
      x.offset = (0, 0) ∧ x.isActive = true := by
  rw [(run_synced as i x hx r hr).localModel, Option.map_some, Option.some.injEq, quad_eq_iff]

theorem drawn_where_picked_content : ∃ x r, (run (contentRun (0, 0))).surfaces 1 = some x ∧
    x.renderer = some r ∧ x.pickable = true ∧
      (r.localModel.map fun m => quad m.mat) = some (quad x.geom.mat) := by
  obtain ⟨x, r, hx, hr, hp, ho, ha, -⟩ := contentRun_surface
  exact ⟨x, r, hx, hr, hp, (drawn_where_picked_iff _ hx hr).mpr ⟨ho, ha⟩⟩

/-- With an offset of a metre it is drawn where the pointer does not find it. -/
theorem offset_unpicked : ∃ x r, (run (contentRun (9000, 0))).surfaces 1 = some x ∧
    x.renderer = some r ∧ x.pickable = true ∧
      (r.localModel.map fun m => quad m.mat) ≠ some (quad x.geom.mat) := by
  have h1 : ((run (contentRun (9000, 0))).surfaces 1).map
      (fun x => (x.pickable, x.offset, x.renderer.isSome)) = some (true, (9000, 0), true) := by
    decide +kernel
  obtain ⟨x, hx, hxe⟩ := Option.map_eq_some_iff.mp h1
  simp only [Prod.mk.injEq] at hxe
  obtain ⟨hp, ho, hr⟩ := hxe
  obtain ⟨r, hr⟩ := Option.isSome_iff_exists.mp hr
  refine ⟨x, r, hx, hr, hp, fun h => ?_⟩
  rw [(run_synced _ 1 x hx r hr).localModel, Option.map_some, Option.some.injEq, quad_eq_iff,
    ho] at h
  cases h.1

/-- The session is lost, and another one is established. -/
def rebuilt (w : World) : World := (w.step .sessionDisconnect).step (.peerDiscover true)

/-- The renderers draw the same texture at the same place. -/
structure DrawsSame (r r' : Renderer) : Prop where
  localModel : r'.localModel.map LocalModel.mat = r.localModel.map LocalModel.mat
  texture : r'.texture = r.texture

theorem returns_iff {x : Surface} (hx : x.Placed) :
    Returns x ↔ x.updatePosAndRot.geom.mat = x.geom.mat := by
  constructor
  · intro h
    rcases hx with hp | ⟨d, p, a, hotspot, size, hp⟩
    · exact congrArg (fun place => Geom.mat { x.geom with place }) hp.symm
    · exact (h d p a hotspot size hp).symm
  · exact fun h _ _ _ _ _ _ => h.symm

/-- The renderers are dropped with the session. -/
theorem sessionDisconnect_drops {w : World} (hs : w.stopped = false)
    (hh : w.scene.remote.hasSession = true) :
    (w.step .sessionDisconnect).stopped = false ∧
      (w.step .sessionDisconnect).scene.remote.hasSession = false ∧
      (w.step .sessionDisconnect).surfaces =
        w.surfaces.mapAll fun x => { x with renderer := none } := by
  have hf : w.scene.fault.isSome = false := (Bool.or_eq_false_iff.mp hs).2
  have hd : w.scene.step .sessionDisconnect =
      { w.scene with remote := w.scene.remote.disconnect }.dropProxies := by
    simp only [Scene.step, hf, Bool.false_eq_true, if_false, Scene.act, Scene.sessionDisconnect,
      hh, if_true]
  rw [step, if_neg (by simp [hs]), act, sessionDisconnect, if_pos hh, hd]
  exact ⟨hs, rfl, rfl⟩

/-- Every surface gets a new one with the next session. -/
theorem peerDiscover_makes {w : World} (hs : w.stopped = false)
    (hh : w.scene.remote.hasSession = false) :
    (w.step (.peerDiscover true)).surfaces =
      w.surfaces.mapAll fun x => x.initRenderer w.scene.remote.sessionCount := by
  rw [step, if_neg (by simp [hs]), act, peerDiscover, if_neg (by simp [hh])]

theorem rebuilt_surfaces {w : World} (hs : w.stopped = false)
    (hh : w.scene.remote.hasSession = true) :
    ∃ channel, w.rebuilt.surfaces =
      w.surfaces.mapAll fun x => { x with renderer := none }.initRenderer channel := by
  obtain ⟨h1, h2, h3⟩ := sessionDisconnect_drops hs hh
  refine ⟨(w.step .sessionDisconnect).scene.remote.sessionCount, ?_⟩
  rw [rebuilt, peerDiscover_makes h1 h2, h3]
  exact Arena.mapAll_mapAll ..

/-- A surface draws the same with a new renderer when it is where its polar coordinates place it,
and has content if the old renderer had. -/
theorem drawsSame_iff {x : Surface} {r r' : Renderer} {channel : ℕ} (ht : x.Told r)
    (hr' : ({ x with renderer := none }.initRenderer channel).renderer = some r') :
    DrawsSame r r' ↔
      (x.isActive = true → Returns x) ∧ (x.texture = none → r.texture = none) := by
  obtain ⟨q, hq, hm, htex⟩ := Surface.initRenderer_renderer { x with renderer := none } channel
  rw [hr'] at hq
  cases hq
  have h1 : r'.localModel.map LocalModel.mat = r.localModel.map LocalModel.mat ↔
      (x.isActive = true → Returns x) := by
    rw [hm, ht.localModel, Option.map_some, Option.map_some, Option.some.injEq,
      LocalModel.mat_eq_iff, returns_iff ht.placed]
    rfl
  have h2 : r'.texture = r.texture ↔ (x.texture = none → r.texture = none) := by
    rw [htex]
    cases hx : x.texture with
    | none => simp [eq_comm]
    | some t => simp [ht.texture t hx]
  exact ⟨fun h => ⟨h1.mp h.localModel, h2.mp h.texture⟩,
    fun h => ⟨h1.mpr h.1, h2.mpr h.2⟩⟩

/-- The surface afterwards, and its renderer. -/
theorem rebuilt_renderer {as : List Action} {i : ℕ} {x : Surface} {r : Renderer}
    (hs : (run as).stopped = false) (hx : (run as).surfaces i = some x)
    (hr : x.renderer = some r) :
    ∃ y r', (run as).rebuilt.surfaces i = some y ∧ y.renderer = some r' ∧
      (DrawsSame r r' ↔
        (x.isActive = true → Returns x) ∧ (x.texture = none → r.texture = none)) := by
  have hh : (run as).scene.remote.hasSession = true := by
    have h1 := (run_sane as).renders.surfaces i x hx
    rw [hr, Option.map_some] at h1
    exact Option.isSome_iff_exists.mpr ⟨_, h1.symm⟩
  obtain ⟨channel, h2⟩ := rebuilt_surfaces hs hh
  obtain ⟨r', hr', -⟩ := Surface.initRenderer_renderer { x with renderer := none } channel
  refine ⟨_, r', ?_, hr', drawsSame_iff (run_synced as i x hx r hr) hr'⟩
  rw [h2, Arena.mapAll_apply, hx, Option.map_some]

/-- A new session draws a surface as the old one did exactly when the surface is inactive or where
its polar coordinates place it, and has content if the old renderer had. -/
theorem rebuilt_same_iff {as : List Action} {i : ℕ} {x : Surface} {r : Renderer}
    (hs : (run as).stopped = false) (hx : (run as).surfaces i = some x)
    (hr : x.renderer = some r) :
    (∃ y r', (run as).rebuilt.surfaces i = some y ∧ y.renderer = some r' ∧ DrawsSame r r') ↔
      (x.isActive = true → Returns x) ∧ (x.texture = none → r.texture = none) := by
  obtain ⟨y, r', hy, hr', h⟩ := rebuilt_renderer hs hx hr
  constructor
  · rintro ⟨z, q, hz, hq, hd⟩
    rw [hy] at hz
    cases hz
    rw [hr'] at hq
    cases hq
    exact h.mp hd
  · exact fun hc => ⟨y, r', hy, hr', h.mpr hc⟩

theorem rebuilt_same_content : ∃ x r y r', (run (contentRun (0, 0))).surfaces 1 = some x ∧
    x.renderer = some r ∧ (run (contentRun (0, 0))).rebuilt.surfaces 1 = some y ∧
      y.renderer = some r' ∧ DrawsSame r r' := by
  obtain ⟨x, r, hx, hr, hp, -, -, hret⟩ := contentRun_surface
  have hs : (run (contentRun (0, 0))).stopped = false := by decide +kernel
  have ht : x.texture ≠ none := fun h => by simp [Surface.pickable, h] at hp
  obtain ⟨y, r', h⟩ := (rebuilt_same_iff hs hx hr).mpr ⟨fun _ => hret, fun h => absurd h ht⟩
  exact ⟨x, r, y, r', hx, hr, h⟩

/-- The pointer is on a surface, and its client sets another one as the cursor, with a hotspot that
is a hundred metres below. -/
def cursorRun : List Action :=
  [.peerDiscover true, .desk 0 .bindSeat, .desk 0 (.getPointer 0),
    .desk 0 (.createWlBuffer pixel), .desk 0 (.createSurface (0, 0)),
    .desk 0 (.attach 3 (some 2) (0, 0)), .desk 0 (.commit 3),
    .mouseMove 0 0 fun o => if o = .surface 3 then some (1 / 2) else none,
    .desk 0 (.createSurface (0, 0)), .desk 0 (.attach 4 (some 2) (0, 0)), .desk 0 (.commit 4),
    .desk 0 (.setCursor 1 (some 4) (0, 900000))]

/-- No polar coordinates place a surface that far up. -/
theorem not_returns {x : Surface} (hd : x.distance = minDistance)
    (hg : x.geom = ⟨.cursor (49 / 100) (floatPi / 2) floatPi (0, 900000) (1, 1), some (1, 1)⟩) :
    ¬Returns x := by
  intro h
  have h1 := h _ _ _ _ _ (congrArg Geom.place hg)
  have hy : x.geom.place.pos 1 = 0.85 + x.distance * Real.cos x.polar := by
    rw [Geom.mat, Geom.mat] at h1
    have h2 := congrFun (congrFun h1 (Fin.castSucc 1)) 3
    rwa [Affine.translation_mul_origin, Affine.translation_mul_origin] at h2
  have hl : rayDirection ((floatPi / 2 : ℚ) : ℝ) floatPi 1 = 0 := rayDirection_level _ rfl
  have hcos := Real.cos_le_one x.polar
  rw [hg, Place.pos_cursor, hl, hd] at hy
  simp only [rayOrigin, fromPixels, pixelPerMeter, minDistance] at hy
  norm_num at hy
  linarith

/-- The cursor is drawn a hundred metres above its ray, and after a new session near the others. -/
theorem cursor_not_rebuilt : ∃ x r, (run cursorRun).stopped = false ∧
    (run cursorRun).surfaces 4 = some x ∧ x.renderer = some r ∧
      ¬∃ y r', (run cursorRun).rebuilt.surfaces 4 = some y ∧ y.renderer = some r' ∧
        DrawsSame r r' := by
  have hs : (run cursorRun).stopped = false := by decide +kernel
  have h1 : ((run cursorRun).surfaces 4).map
        (fun x => (x.geom, x.distance, x.isActive, x.renderer.isSome)) =
      some (⟨.cursor (49 / 100) (floatPi / 2) floatPi (0, 900000) (1, 1), some (1, 1)⟩,
        minDistance, true, true) := by
    decide +kernel
  obtain ⟨x, hx, hxe⟩ := Option.map_eq_some_iff.mp h1
  simp only [Prod.mk.injEq] at hxe
  obtain ⟨hg, hd, ha, hr⟩ := hxe
  obtain ⟨r, hr⟩ := Option.isSome_iff_exists.mp hr
  obtain ⟨y, r', hy, hr', h⟩ := rebuilt_renderer hs hx hr
  refine ⟨x, r, hs, hx, hr, ?_⟩
  rintro ⟨z, q, hz, hq, hs'⟩
  rw [hy] at hz
  cases hz
  rw [hr'] at hq
  cases hq
  exact not_returns hd hg ((h.mp hs').1 ha)

end World
end Yaza
