import Yaza.Server.Objects

/-! What stays of the surfaces, and which one stays the cursor, whatever the seat and most requests
do. -/
namespace Yaza

/-- A part of a surface that has nothing to do with its buffers, its renderer, its place in space
and its callbacks. -/
structure Surface.Inert {β : Type*} (g : Surface → β) : Prop where
  updateDistance : ∀ {x y : Surface} {index : ℕ},
    x.updateDistanceByLayerIndex index = some y → g y = g x
  moveCursor : ∀ (x : Surface) (distance polar azimuthal : ℚ) (hotspot : ℤ × ℤ),
    g (x.moveCursor distance polar azimuthal hotspot) = g x
  initRenderer : ∀ (x : Surface) (channel : ℕ), g (x.initRenderer channel) = g x
  noRenderer : ∀ x : Surface, g { x with renderer := none } = g x
  sessionFrame : ∀ x : Surface, g { x with currentFrames := [] } = g x
  queueFrameCallback : ∀ (x : Surface) (callback : ℕ), g (x.queueFrameCallback callback) = g x
  setOffset : ∀ (x : Surface) (offset : ℤ × ℤ), g (x.setOffset offset) = g x
  attach : ∀ (x : Surface) (buffer : Option ℕ), g (x.attach buffer) = g x
  commitOffset : ∀ x : Surface, g x.commitOffset = g x
  commitBuffer : ∀ (x : Surface) (b : WlShmBuffer), g (x.commitBuffer b) = g x
  commitFrames : ∀ x : Surface, g x.tellTexture.commitFrames = g x

/-- A part that the stages of a commit and the requests before one may change. -/
structure Surface.Steady {β : Type*} (g : Surface → β) : Prop where
  updateDistance : ∀ {x y : Surface} {index : ℕ},
    x.updateDistanceByLayerIndex index = some y → g y = g x
  moveCursor : ∀ (x : Surface) (distance polar azimuthal : ℚ) (hotspot : ℤ × ℤ),
    g (x.moveCursor distance polar azimuthal hotspot) = g x
  initRenderer : ∀ (x : Surface) (channel : ℕ), g (x.initRenderer channel) = g x
  noRenderer : ∀ x : Surface, g { x with renderer := none } = g x
  sessionFrame : ∀ x : Surface, g { x with currentFrames := [] } = g x
  queueFrameCallback : ∀ (x : Surface) (callback : ℕ), g (x.queueFrameCallback callback) = g x

/-- A part that has nothing to do with the role of the surface either. -/
structure Surface.Roleless {β : Type*} (g : Surface → β) : Prop extends Surface.Steady g where
  setRole : ∀ (x : Surface) (role : Role) (roleObj : Option ℕ), g (x.setRole role roleObj) = g x
  setActive : ∀ (x : Surface) (active : Bool), g (x.setActive active) = g x

theorem Surface.Inert.steady {β : Type*} {g : Surface → β} (h : Surface.Inert g) :
    Surface.Steady g where
  updateDistance := h.updateDistance
  moveCursor := h.moveCursor
  initRenderer := h.initRenderer
  noRenderer := h.noRenderer
  sessionFrame := h.sessionFrame
  queueFrameCallback := h.queueFrameCallback

theorem Surface.Inert.map {β γ : Type*} {g : Surface → β} (h : Surface.Inert g) (f : β → γ) :
    Surface.Inert fun x => f (g x) where
  updateDistance := fun hxy => congrArg f (h.updateDistance hxy)
  moveCursor := fun _ _ _ _ _ => congrArg f (h.moveCursor ..)
  initRenderer := fun _ _ => congrArg f (h.initRenderer ..)
  noRenderer := fun _ => congrArg f (h.noRenderer _)
  sessionFrame := fun _ => congrArg f (h.sessionFrame _)
  queueFrameCallback := fun _ _ => congrArg f (h.queueFrameCallback ..)
  setOffset := fun _ _ => congrArg f (h.setOffset ..)
  attach := fun _ _ => congrArg f (h.attach ..)
  commitOffset := fun _ => congrArg f (h.commitOffset _)
  commitBuffer := fun _ _ => congrArg f (h.commitBuffer ..)
  commitFrames := fun _ => congrArg f (h.commitFrames _)

theorem Surface.Roleless.map {β γ : Type*} {g : Surface → β} (h : Surface.Roleless g) (f : β → γ) :
    Surface.Roleless fun x => f (g x) where
  updateDistance := fun hxy => congrArg f (h.updateDistance hxy)
  moveCursor := fun _ _ _ _ _ => congrArg f (h.moveCursor ..)
  initRenderer := fun _ _ => congrArg f (h.initRenderer ..)
  noRenderer := fun _ => congrArg f (h.noRenderer _)
  sessionFrame := fun _ => congrArg f (h.sessionFrame _)
  queueFrameCallback := fun _ _ => congrArg f (h.queueFrameCallback ..)
  setRole := fun _ _ _ => congrArg f (h.setRole ..)
  setActive := fun _ _ => congrArg f (h.setActive ..)

namespace World
variable {β : Type*} {g : Surface → β} {k t : Bool} {w w' : World}

/-- The part `g` of every surface stays, no surface goes or comes, and the cursor is the same. -/
structure Intact (g : Surface → β) (w w' : World) : Prop where
  surfaces : w'.surfaces.mapAll g = w.surfaces.mapAll g
  cursor : w'.seat.cursor = w.seat.cursor
  nextId : w.nextId ≤ w'.nextId

theorem Intact.refl (w : World) : Intact g w w := ⟨rfl, rfl, Nat.le_refl _⟩

theorem Intact.trans {w'' : World} (h : Intact g w w') (h' : Intact g w' w'') : Intact g w w'' :=
  ⟨h'.surfaces.trans h.surfaces, h'.cursor.trans h.cursor, h.nextId.trans h'.nextId⟩

theorem Intact.andThen {f : World → World} (h : Intact g w w') (hf : Intact g w' (f w')) :
    Intact g w (w'.andThen f) := by
  unfold World.andThen
  split
  · exact h
  · exact h.trans hf

theorem modifySurface_intact (w : World) (i : ℕ) {f : Surface → Surface} (hf : ∀ x, g (f x) = g x) :
    Intact g w (w.modifySurface i f) :=
  ⟨Arena.mapAll_modify hf, rfl, Nat.le_refl _⟩

theorem reorderSurfaces_mapAll (hg : Surface.Steady g) (w : World) :
    w.reorderSurfaces.surfaces.mapAll g = w.surfaces.mapAll g := by
  have h (l : List ℕ) (acc : World × ℕ) : (l.foldl reorderSurface acc).1.surfaces.mapAll g =
      acc.1.surfaces.mapAll g := by
    induction l generalizing acc with
    | nil => rfl
    | cons i l ih =>
      rw [List.foldl_cons, ih]
      unfold reorderSurface
      split
      · rfl
      · next y hy =>
        obtain ⟨x, hx, hxy⟩ := Option.bind_eq_some_iff.mp hy
        exact Arena.mapAll_set hx (hg.updateDistance hxy)
  exact h _ (w.dropExpiredSurfaces, 0)

theorem reorderSurfaces_intact (hg : Surface.Steady g) (w : World) :
    Intact g w w.reorderSurfaces := by
  obtain ⟨S, h1, -⟩ := reorderSurfaces_eq w
  refine ⟨reorderSurfaces_mapAll hg w, ?_, ?_⟩
  · rw [h1]
    rfl
  · rw [h1]
    exact Nat.le_refl _

theorem raiseSurfaceTop_intact (hg : Surface.Steady g) (w : World) (i : ℕ) :
    Intact g w (w.raiseSurfaceTop i) := by
  unfold raiseSurfaceTop
  split
  · exact .refl w
  · next j _ =>
    have h1 : Intact g w { w with surfaceList := j :: w.surfaceList.erase j } :=
      ⟨rfl, rfl, Nat.le_refl _⟩
    exact h1.trans (reorderSurfaces_intact hg _)

theorem sendSelection_surfaces (w : World) (device : ℕ) :
    (w.sendSelection device).surfaces = w.surfaces := by
  unfold sendSelection
  split
  · rfl
  · split
    · rfl
    · split
      · rfl
      · unfold createOffer
        split <;> rfl

theorem sendSelection_intact (w : World) (device : ℕ) : Intact g w (w.sendSelection device) := by
  unfold sendSelection
  split
  · exact ⟨rfl, rfl, Nat.le_refl _⟩
  · split
    · exact ⟨rfl, rfl, Nat.le_refl _⟩
    · split
      · exact ⟨rfl, rfl, Nat.le_refl _⟩
      · next source _ =>
        rcases createOffer_cases w device source with h | ⟨r, x, -, -, h⟩
        · rw [h]
          exact ⟨rfl, rfl, Nat.le_refl _⟩
        · rw [h]
          exact ⟨rfl, rfl, Nat.le_succ _⟩

theorem Minor.intact (hg : Surface.Steady g) (h : Minor k t w w') : Intact g w w' := by
  cases h with
  | seat _ hc => exact ⟨rfl, hc, Nat.le_refl _⟩
  | raise i => exact raiseSurfaceTop_intact hg w i
  | followRay i distance polar azimuthal hotspot =>
    exact modifySurface_intact w i fun x => hg.moveCursor ..
  | send _ d => exact sendSelection_intact w d
  | _ => exact ⟨rfl, rfl, Nat.le_refl _⟩

theorem Minors.intact (hg : Surface.Steady g) (h : Minors k t w w') : Intact g w w' := by
  induction h with
  | refl => exact .refl w
  | tail _ h ih => exact ih.trans (h.intact hg)

/-- An effect that leaves angles alone: the cursor may be set. -/
inductive Recast (w : World) : World → Prop
  | minor {w' : World} (h : Minor true true w w') : Recast w w'
  | cursor (surface : Option ℕ) (hotspot : ℤ × ℤ) :
      Recast w (w.setSurfaceAsCursor surface hotspot)

abbrev Recasts : World → World → Prop := Relation.ReflTransGen Recast

theorem Minors.recasts (h : Minors true true w w') : Recasts w w' :=
  Relation.ReflTransGen.mono (fun _ _ => Recast.minor) _ _ h

theorem Recasts.andThen {f : World → World} (h : Recasts w w') (hf : Recasts w' (f w')) :
    Recasts w (w'.andThen f) := by
  unfold World.andThen
  split
  · exact h
  · exact h.trans hf

theorem focusNothing_recasts (w : World) : Recasts w w.focusNothing := by
  refine (leaveFocused_minors w).recasts.andThen ?_
  have h1 (w : World) : Minors true true w { w with seat.focusedObj := none } :=
    .single (.seat rfl rfl)
  exact (h1 _).recasts.trans (.single (.cursor none (0, 0)))

theorem checkIntersection_recasts (w : World) (hits : Hits) :
    Recasts w (w.checkIntersection hits) := by
  have h1 : Recasts w w.dropExpiredSurfaces.dropExpiredApps := .single (.minor .expire)
  unfold checkIntersection
  split
  · exact h1.trans (focusOn_minors _ _ _).recasts
  · exact h1.trans (focusNothing_recasts _)

theorem handleMouseButton_recasts (w : World) (button : UInt32) (isPressed : Bool) (hits : Hits) :
    Recasts w (w.handleMouseButton button isPressed hits) := by
  unfold handleMouseButton World.button
  split
  · have h1 : Minors true true w { w with seat.objState := .default, seat.focusedObj := none } :=
      .single (.seat rfl rfl)
    exact h1.recasts.trans (checkIntersection_recasts _ hits)
  · split
    · next o _ =>
      exact (((point_minors w o _).andThen (pressed_minors _ o isPressed)).andThen
        (point_minors _ o _)).recasts
    · split
      · exact (tryLeaveKeyboard_minors w).recasts
      · exact .refl

section Roleless
variable (hg : Surface.Roleless g)
include hg

theorem takeCursor_mapAll (w : World) (surface : Option ℕ) :
    (w.takeCursor surface).surfaces.mapAll g = w.surfaces.mapAll g := by
  unfold takeCursor
  split
  · rfl
  · next i _ =>
    rw [((moveCursor_minors (k := false) (t := false) _).intact hg.toSteady).surfaces]
    exact Arena.mapAll_modify fun x => (hg.setActive _ _).trans (hg.setRole _ _ _)

theorem setSurfaceAsCursor_mapAll (w : World) (surface : Option ℕ) (hotspot : ℤ × ℤ) :
    (w.setSurfaceAsCursor surface hotspot).surfaces.mapAll g = w.surfaces.mapAll g := by
  unfold setSurfaceAsCursor
  split
  · exact takeCursor_mapAll hg _ _
  · split
    · rfl
    · rw [takeCursor_mapAll hg]
      exact Arena.mapAll_modify fun x => hg.setActive x _

theorem Recast.mapAll (h : Recast w w') : w'.surfaces.mapAll g = w.surfaces.mapAll g := by
  cases h with
  | minor h => exact (h.intact hg.toSteady).surfaces
  | cursor surface hotspot => exact setSurfaceAsCursor_mapAll hg w surface hotspot

theorem Recasts.mapAll (h : Recasts w w') : w'.surfaces.mapAll g = w.surfaces.mapAll g :=
  Path.const (f := fun u : World => u.surfaces.mapAll g) (fun _ _ => Recast.mapAll hg) h

end Roleless

theorem joinSeat_surfaces (w : World) (client : ℕ) (f : ClientSeat → ClientSeat) :
    (w.joinSeat client f).surfaces = w.surfaces := by
  unfold joinSeat withClientSeat
  split
  · rfl
  · split <;> rfl

theorem joinSeat_intact (w : World) (client : ℕ) (f : ClientSeat → ClientSeat) :
    Intact g w (w.joinSeat client f) := by
  unfold joinSeat withClientSeat
  split
  · exact ⟨rfl, rfl, Nat.le_refl _⟩
  · split <;> exact ⟨rfl, rfl, Nat.le_refl _⟩

theorem askSource_surfaces (w : World) (offer : ℕ) (e : ℕ → DeskEvent) :
    (w.askSource offer e).surfaces = w.surfaces := by
  unfold askSource
  split
  · rfl
  · split <;> rfl

theorem askSource_intact (w : World) (offer : ℕ) (e : ℕ → DeskEvent) :
    Intact g w (w.askSource offer e) := by
  unfold askSource
  split
  · exact ⟨rfl, rfl, Nat.le_refl _⟩
  · split <;> exact ⟨rfl, rfl, Nat.le_refl _⟩

/-- A request that gives a surface a role or brings one to life. -/
def DeskRequest.casts : DeskRequest → Bool
  | .createSurface _ | .getToplevel _ | .setCursor _ _ _ => true
  | _ => false

theorem newResource_intact (w : World) (client : ℕ) (interface : DeskInterface) :
    Intact g w (w.newResource client interface) := ⟨rfl, rfl, Nat.le_succ _⟩

/-- A request that changes what the next commit of a surface does, or commits it. -/
def DeskRequest.commits : DeskRequest → Bool
  | .attach _ _ _ | .offset _ _ | .commit _ => true
  | _ => false

theorem handle_intact_of_steady (hg : Surface.Steady g) (w : World) (client : ℕ) {r : DeskRequest}
    (hr : r.casts = false) (hc : r.commits = false) : Intact g w (w.handle client r) := by
  cases r with
  | createSurface _ | getToplevel _ | setCursor _ _ _ => cases hr
  | attach _ _ _ | offset _ _ | commit _ => cases hc
  | createWlBuffer b => exact ⟨rfl, rfl, Nat.le_succ _⟩
  | frame s =>
    have h1 : Intact g w { w with nextId := w.nextId + 1 } := ⟨rfl, rfl, Nat.le_succ _⟩
    exact h1.trans (modifySurface_intact _ s fun x => hg.queueFrameCallback x _)
  | getXdgSurface s => exact ⟨rfl, rfl, Nat.le_succ _⟩
  | moveToplevel _ => exact (requestStartMove_minors (k := false) (t := false) w client).intact hg
  | bindSeat => exact ⟨rfl, rfl, Nat.le_succ _⟩
  | getPointer _ => exact (newResource_intact w client _).trans (joinSeat_intact _ client _)
  | getKeyboard _ => exact (newResource_intact w client _).trans (joinSeat_intact _ client _)
  | getRay => exact (newResource_intact w client _).trans (joinSeat_intact _ client _)
  | createDataSource => exact ⟨rfl, rfl, Nat.le_succ _⟩
  | offer s mimeType => exact ⟨rfl, rfl, Nat.le_refl _⟩
  | getDataDevice =>
    simp only [handle, createDataDevice]
    have h1 : Intact g w { w.newResource client .dataDevice with
        dataDevices := w.dataDevices.set w.nextId {} } := ⟨rfl, rfl, Nat.le_succ _⟩
    refine (h1.trans (joinSeat_intact _ client _)).andThen ?_
    split
    · exact sendSelection_intact _ _
    · exact .refl _
  | setSelection d s => cases s <;> exact ⟨rfl, rfl, Nat.le_refl _⟩
  | accept o mimeType => exact askSource_intact w o fun s => .sourceTarget s mimeType
  | receive o mimeType => exact askSource_intact w o fun s => .sourceSend s mimeType

theorem handle_intact (hg : Surface.Inert g) (w : World) (client : ℕ) {r : DeskRequest}
    (hr : r.casts = false) : Intact g w (w.handle client r) := by
  cases r with
  | attach s b d =>
    exact modifySurface_intact w s fun x => (hg.setOffset _ _).trans (hg.attach _ _)
  | offset s d => exact modifySurface_intact w s fun x => hg.setOffset x d
  | commit s =>
    have h := commitSurface_rest w s
    exact ⟨commitSurface_mapAll hg.commitOffset hg.commitBuffer hg.commitFrames w s,
      congrArg ServerSeat.cursor h.2.2.1, h.2.2.2.2.2.2.1.ge⟩
  | _ => exact handle_intact_of_steady hg.steady w client hr rfl

/-- An action that is neither a request nor a motion or a button of the mouse, and destroys no
object of a Wayland client. -/
def Action.isOutside : Action → Bool
  | .desk _ _ | .destroy _ _ | .mouseMove _ _ _ | .mouseButton _ _ _ => false
  | _ => true

theorem act_intact (hg : Surface.Steady g) (w : World) {a : Action} (ha : a.isOutside = true) :
    Intact g w (w.act a) := by
  cases a with
  | desk _ _ | destroy _ _ | mouseMove _ _ _ | mouseButton _ _ _ => cases ha
  | zwin client r =>
    simp only [act, addBoundedApp]
    split <;> exact ⟨rfl, rfl, Nat.le_refl _⟩
  | destroyZwin client r => exact ⟨rfl, rfl, Nat.le_refl _⟩
  | moveBounded client b =>
    simp only [act]
    split
    · exact (requestStartMove_minors (k := false) (t := false) w client).intact hg
    · exact .refl w
  | peerDiscover connected =>
    simp only [act, peerDiscover]
    split
    · exact .refl w
    · refine ⟨?_, rfl, Nat.le_refl _⟩
      rw [Arena.mapAll_mapAll]
      exact congrArg w.surfaces.mapAll (funext fun x => hg.initRenderer x _)
  | sessionDisconnect =>
    simp only [act, sessionDisconnect]
    split
    · refine ⟨?_, rfl, Nat.le_refl _⟩
      rw [Arena.mapAll_mapAll]
      exact congrArg w.surfaces.mapAll (funext hg.noRenderer)
    · exact .refl w
  | frameTimer busyness =>
    simp only [act, frameTimer]
    split
    · refine ⟨?_, rfl, Nat.le_refl _⟩
      simp only [sessionFrame]
      rw [Arena.mapAll_mapAll]
      exact congrArg w.surfaces.mapAll (funext hg.sessionFrame)
    · exact .refl w
  | mouseWheel amount =>
    exact (handleMouseWheel_minors (k := false) (t := false) w amount).intact hg

/-- Each surface is the one that was there before, as far as `g` goes, or new. -/
def Descends (g : Surface → β) (w w' : World) : Prop :=
  ∀ i y, w'.surfaces i = some y →
    (∃ x, w.surfaces i = some x ∧ g x = g y) ∨ (w.nextId ≤ i ∧ ∃ texSize, g y = g { texSize })

theorem descends_of_mapAll (h : w'.surfaces.mapAll g = w.surfaces.mapAll g) : Descends g w w' :=
  fun _ _ hy => .inl (Arena.of_mapAll h hy)

theorem createSurface_descends (hg : Surface.Steady g) (w : World) (client : ℕ) (texSize : ℕ × ℕ) :
    Descends g w (w.createSurface client texSize) := by
  intro i y hy
  obtain ⟨x, hx, hxy⟩ := Arena.of_mapAll (reorderSurfaces_mapAll hg _) hy
  change w.surfaces.set w.nextId (w.newSurface texSize) i = some x at hx
  by_cases hi : i = w.nextId
  · rw [hi, Arena.set_self] at hx
    refine .inr ⟨hi.ge, texSize, ?_⟩
    rw [← hxy, ← Option.some.inj hx]
    unfold newSurface
    split
    · rfl
    · exact hg.initRenderer _ _
  · rw [Arena.set_of_ne _ _ hi] at hx
    exact .inl ⟨x, hx, hxy⟩

theorem destroyResource_descends (w : World) (i : ℕ) : Descends g w (w.destroyResource i) := by
  intro j y hy
  unfold destroyResource at hy
  split at hy
  · exact .inl ⟨y, hy, rfl⟩
  · next r _ =>
    cases hr : r.interface with
    | surface =>
      simp only [hr, deleteObject] at hy
      by_cases hj : j = i
      · rw [hj, Arena.erase_self] at hy
        cases hy
      · rw [Arena.erase_of_ne _ hj] at hy
        exact .inl ⟨y, hy, rfl⟩
    | _ =>
      simp only [hr] at hy
      exact .inl ⟨y, hy, rfl⟩

theorem act_descends (hg : Surface.Roleless g) (w : World) {a : Action}
    (hd : ∀ client r, a = .desk client r → w.admits client r = true → r.commits = true →
      Descends g w (w.handle client r))
    (hm : ∀ polar azimuthal hits, a = .mouseMove polar azimuthal hits → Descends g w (w.act a)) :
    Descends g w (w.act a) := by
  have refl : Descends g w w := descends_of_mapAll rfl
  cases a with
  | mouseMove polar azimuthal hits => exact hm _ _ _ rfl
  | desk client r =>
    simp only [act]
    split
    · next ha =>
      cases r with
      | createSurface texSize => exact createSurface_descends hg.toSteady w client texSize
      | getToplevel x =>
        simp only [handle, createToplevel]
        split
        · exact refl
        · exact descends_of_mapAll (Arena.mapAll_modify fun _ => hg.setRole ..)
      | setCursor p s hotspot => exact descends_of_mapAll (setSurfaceAsCursor_mapAll hg ..)
      | attach s b d => exact hd _ _ rfl ha rfl
      | offset s d => exact hd _ _ rfl ha rfl
      | commit s => exact hd _ _ rfl ha rfl
      | _ =>
        exact descends_of_mapAll (handle_intact_of_steady hg.toSteady w client rfl rfl).surfaces
    · exact refl
  | destroy client i =>
    simp only [act]
    split
    · exact destroyResource_descends w i
    · exact refl
  | mouseButton button isPressed hits =>
    exact descends_of_mapAll ((handleMouseButton_recasts w button isPressed hits).mapAll hg)
  | _ => exact descends_of_mapAll (act_intact hg.toSteady w rfl).surfaces

/-- A motion of the mouse moves a surface at most. -/
theorem moveRelPointing_mapAll (hg : Surface.Roleless g)
    (hm : ∀ (x : Surface) (polar azimuthal : ℚ), g (x.move polar azimuthal) = g x) (w : World)
    (polar azimuthal : ℚ) (hits : Hits) :
    (w.moveRelPointing polar azimuthal hits).surfaces.mapAll g = w.surfaces.mapAll g := by
  have follow (u : World) : (u.andThen moveCursor).surfaces.mapAll g = u.surfaces.mapAll g := by
    unfold World.andThen
    split
    · rfl
    · exact ((moveCursor_minors (k := false) (t := false) u).intact hg.toSteady).surfaces
  rw [moveRelPointing, follow]
  split
  · have h1 := (checkIntersection_recasts (w.moveRay polar azimuthal) hits).mapAll hg
    exact h1
  · unfold dragFocused
    split
    · rfl
    · next o _ =>
      cases o with
      | surface i => exact Arena.mapAll_modify fun x => hm x _ _
      | app b => rfl

end World
end Yaza
