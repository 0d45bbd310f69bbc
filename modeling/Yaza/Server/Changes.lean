import Yaza.Server.Aside
import Yaza.Server.Effects

/-! What the functions of the seat can do to the objects of the Wayland clients, one change at a
time. -/
namespace Yaza

def DeskEvent.release? : DeskEvent → Option ℕ
  | .bufferRelease b => some b
  | _ => none

/-- The interfaces whose objects `desk` leaves out. -/
def DeskInterface.isBare : DeskInterface → Bool
  | .seat | .pointer | .keyboard | .ray => true
  | _ => false

namespace Surface

/-- What the renderer, the ray and the callbacks do not change in a surface. -/
def core (x : Surface) := (x.pendingBuffer, x.texture, x.role, x.roleObj, x.distance, x.texSize)

/-- The same without the distance, which a reordering changes. -/
def shape (x : Surface) := (x.pendingBuffer, x.texture, x.role, x.roleObj, x.texSize)

@[simp] theorem tell_core (x : Surface) (cs : List RendererCall) : (x.tell cs).core = x.core := rfl

@[simp] theorem syncGeom_core (x : Surface) : x.syncGeom.core = x.core := rfl

@[simp] theorem updatePosAndRot_core (x : Surface) : x.updatePosAndRot.core = x.core := rfl

@[simp] theorem move_core (x : Surface) (polar azimuthal : ℚ) :
    (x.move polar azimuthal).core = x.core := rfl

@[simp] theorem moveCursor_core (x : Surface) (distance polar azimuthal : ℚ) (hotspot : ℤ × ℤ) :
    (x.moveCursor distance polar azimuthal hotspot).core = x.core := rfl

@[simp] theorem setActive_core (x : Surface) (active : Bool) :
    (x.setActive active).core = x.core := rfl

@[simp] theorem tellTexture_core (x : Surface) : x.tellTexture.core = x.core := by
  unfold tellTexture
  split <;> rfl

theorem initRenderer_core (x : Surface) (channel : ℕ) : (x.initRenderer channel).core = x.core :=
  tellTexture_core _

@[simp] theorem commitOffset_core (x : Surface) : x.commitOffset.core = x.core := by
  unfold commitOffset
  split <;> rfl

/-- What a commit does not change. -/
def fixed (x : Surface) := (x.role, x.roleObj, x.distance)

@[simp] theorem commitOffset_fixed (x : Surface) : x.commitOffset.fixed = x.fixed := by
  unfold commitOffset
  split <;> rfl

@[simp] theorem commitBuffer_fixed (x : Surface) (b : WlShmBuffer) :
    (x.commitBuffer b).fixed = x.fixed := by
  unfold commitBuffer
  split <;> rfl

@[simp] theorem commitFrames_fixed (x : Surface) :
    x.tellTexture.commitFrames.fixed = x.fixed := by
  unfold tellTexture
  split <;> rfl

theorem updateDistance_shape {x y : Surface} {index : ℕ}
    (h : x.updateDistanceByLayerIndex index = some y) : y.shape = x.shape := by
  simp only [updateDistanceByLayerIndex] at h
  split at h
  · cases h
  · cases h
    split <;> rfl

end Surface

namespace World

/-- The keyboard events, in order. -/
def keyEvents (w : World) : List DeskEvent := w.events.filter DeskEvent.isKey

/-- The buffers that were released, in order. -/
def releases (w : World) : List ℕ := w.events.filterMap DeskEvent.release?

/-- The objects of the clients, as far as the seat does not change them on its own. -/
def desk (w : World) :=
  (w.surfaces.mapAll Surface.core, w.surfaceList, w.xdgSurfaces, w.toplevels, w.wlBuffers,
    w.dataDevices, w.dataSources.mapAll fun _ => (), w.dataOffers, w.seat.currentSelection,
    w.releases)

/-- The keyboard focus, and the events about it. -/
def keyboard (w : World) := (w.seat.keyboardFocusedSurface, w.keyEvents)

/-- Addresses that were used keep their resources, the others stay unused or get a resource that
has no object of its own on the desk. -/
structure Grows (w w' : World) : Prop where
  nextId : w.nextId ≤ w'.nextId
  resources : ∀ i, i < w.nextId → w'.resources i = w.resources i
  bare : ∀ i r, w'.resources i = some r → w.resources i = some r ∨ r.interface.isBare = true
  fresh : w.Fresh → w'.Fresh

theorem Grows.same {w w' : World} (hn : w'.nextId = w.nextId) (hr : w'.resources = w.resources) :
    Grows w w' where
  nextId := hn.ge
  resources := fun i _ => by rw [hr]
  bare := fun i r h => .inl (hr ▸ h)
  fresh := fun h i hi => by
    rw [hr]
    exact h i (hn ▸ hi)

theorem Grows.new {w w' : World} {r : DeskResource} (hb : r.interface.isBare = true)
    (hn : w'.nextId = w.nextId + 1) (hr : w'.resources = w.resources.set w.nextId r) :
    Grows w w' where
  nextId := by omega
  resources := fun i hi => by rw [hr, Arena.set_of_ne _ _ (Nat.ne_of_lt hi)]
  bare := fun i q h => by
    rw [hr, Arena.set_apply] at h
    split at h
    · cases h
      exact .inr hb
    · exact .inl h
  fresh := fun h i hi => by
    rw [hr]
    exact h.set_eq_none _ (hn ▸ hi)

/-- The changes that make up the functions of the seat; the keyboard changes only where `k` says
so. -/
inductive Change (k : Bool) (w : World) : World → Prop
  | other {w' : World} (hd : w'.desk = w.desk) (hk : w'.keyboard = w.keyboard)
      (hg : Grows w w') : Change k w w'
  | focus {w' : World} (h : k = true) (hd : w'.desk = w.desk) (hg : Grows w w') :
      Change k w w'
  | expire : Change k w w.dropExpiredSurfaces
  | raise (i : ℕ) : Change k w (w.raiseSurfaceTop i)
  | offer (device source : ℕ) : Change k w (w.createOffer device source)
  | cursor (i : ℕ) : Change k w (w.modifySurface i fun x => x.setRole .cursor none)

abbrev Changes (k : Bool) : World → World → Prop := Relation.ReflTransGen (Change k)

section Functions
variable {k : Bool} {w : World}

theorem changes_of_eq {w' : World} (hd : w'.desk = w.desk) (hk : w'.keyboard = w.keyboard)
    (hg : Grows w w') : Changes k w w' := .single (.other hd hk hg)

theorem Changes.andThen {w' : World} {f : World → World} (h : Changes k w w')
    (hf : Changes k w' (f w')) : Changes k w (w'.andThen f) := by
  unfold World.andThen
  split
  · exact h
  · exact h.trans hf

theorem crash_changes (w : World) (f : Fault) : Changes k w (w.crash f) :=
  changes_of_eq rfl rfl (.same rfl rfl)

theorem emit_changes (w : World) {e : DeskEvent} (hr : e.release? = none) (hk : e.isKey = false) :
    Changes k w (w.emit e) :=
  changes_of_eq (by simp [desk, releases, emit, hr]) (by simp [keyboard, keyEvents, emit, hk])
    (.same rfl rfl)

theorem modifySurface_changes (w : World) (i : ℕ) {f : Surface → Surface}
    (hf : ∀ x, (f x).core = x.core) : Changes k w (w.modifySurface i f) :=
  changes_of_eq (by simp only [desk, modifySurface, Arena.mapAll_modify hf, releases]) rfl
    (.same rfl rfl)

theorem sendSelection_changes (w : World) (device : ℕ) : Changes k w (w.sendSelection device) := by
  unfold sendSelection
  split
  · exact emit_changes w rfl rfl
  · split
    · exact crash_changes w _
    · split
      · exact crash_changes w _
      · exact .single (.offer _ _)

theorem becomeCursor_changes (w : World) (i : ℕ) :
    Changes k w (w.modifySurface i fun x => (x.setRole .cursor none).setActive true) := by
  have h1 : Changes k w (w.modifySurface i fun x => x.setRole .cursor none) := .single (.cursor i)
  refine h1.trans (changes_of_eq ?_ rfl (.same rfl rfl))
  have hs : (w.surfaces.modify i fun x => (x.setRole .cursor none).setActive true).mapAll
      Surface.core = (w.surfaces.modify i fun x => x.setRole .cursor none).mapAll
      Surface.core := by
    funext j
    by_cases hj : j = i
    · subst hj
      cases h : w.surfaces j <;> simp [h]
    · simp [hj]
  simp only [desk, modifySurface, releases, hs]

theorem plain_changes (w : World) {e : DeskEvent} (he : e.isPlain = true) :
    Changes k w (w.emit e) := by
  refine emit_changes w ?_ ?_
  · cases e <;> first | rfl | cases he
  · cases e <;> first | rfl | cases he

theorem keyEvent_changes (w : World) {e : DeskEvent} (he : e.isKey = true) :
    Changes true w (w.emit e) := by
  have hr : e.release? = none := by cases e <;> first | rfl | cases he
  exact .single (.focus rfl (by simp [desk, releases, World.emit, hr]) (.same rfl rfl))

theorem Effect.changes {t : Bool} {w w' : World} (h : Effect k t w w') : Changes k w w' := by
  cases h with
  | crash f => exact crash_changes w f
  | log c l => exact changes_of_eq rfl rfl (.same rfl rfl)
  | noSeat client => exact changes_of_eq rfl rfl (.same rfl rfl)
  | emit he => exact plain_changes w he
  | keyEvent hk he =>
    subst hk
    exact keyEvent_changes w he
  | keyFocus hk i =>
    subst hk
    exact .single (.focus rfl rfl (.same rfl rfl))
  | seat hs =>
    simp only [ServerSeat.held, Prod.mk.injEq] at hs
    refine changes_of_eq ?_ ?_ (.same rfl rfl)
    · simp only [desk, hs, releases]
    · simp only [keyboard, hs, keyEvents]
  | ray hr => exact changes_of_eq rfl rfl (.same rfl rfl)
  | expire => exact .trans (.single .expire) (changes_of_eq rfl rfl (.same rfl rfl))
  | raise i => exact .single (.raise i)
  | drag i polar azimuthal => exact modifySurface_changes w i fun x => x.move_core polar azimuthal
  | dragApp b polar azimuthal => exact changes_of_eq rfl rfl (.same rfl rfl)
  | followRay i => exact modifySurface_changes w i fun x => x.moveCursor_core ..
  | becomeCursor i => exact becomeCursor_changes w i
  | hide i => exact modifySurface_changes w i fun x => x.setActive_core false
  | send _ d => exact sendSelection_changes w d

theorem Effects.changes {t : Bool} {w' : World} (h : Effects k t w w') : Changes k w w' := by
  induction h with
  | refl => exact .refl
  | tail _ he ih => exact ih.trans he.changes

theorem withClientSeat_changes (w : World) (client : ℕ) {f : World → ℕ → ClientSeat → World}
    (hf : ∀ w i x, Changes k w (f w i x)) : Changes k w (w.withClientSeat client f) := by
  have log (entry : Option ℕ) (live : Bool) : Changes k w (w.logLookup client entry live) :=
    changes_of_eq rfl rfl (.same rfl rfl)
  unfold withClientSeat
  split
  · exact changes_of_eq rfl rfl (.same rfl rfl)
  · split
    · exact (log _ _).trans (crash_changes _ _)
    · exact (log _ _).trans (hf _ _ _)

theorem joinSeat_changes (w : World) (client : ℕ) (f : ClientSeat → ClientSeat) :
    Changes k w (w.joinSeat client f) :=
  withClientSeat_changes w client fun _ _ _ => changes_of_eq rfl rfl (.same rfl rfl)

theorem newResource_changes (w : World) (client : ℕ) {interface : DeskInterface}
    (hb : interface.isBare = true) : Changes k w (w.newResource client interface) :=
  changes_of_eq rfl rfl (.new hb rfl rfl)

theorem askSource_changes (w : World) (offer : ℕ) {e : ℕ → DeskEvent}
    (hr : ∀ s, (e s).release? = none) (hk : ∀ s, (e s).isKey = false) :
    Changes k w (w.askSource offer e) := by
  unfold askSource
  split
  · exact crash_changes w _
  · split
    · exact emit_changes w (hr _) (hk _)
    · exact crash_changes w _

theorem addMimeType_changes (w : World) (source : ℕ) (mimeType : String) :
    Changes k w (w.addMimeType source mimeType) := by
  refine changes_of_eq ?_ rfl (.same rfl rfl)
  have h : (w.addMimeType source mimeType).dataSources.mapAll (fun _ => ()) =
      w.dataSources.mapAll fun _ => () := Arena.mapAll_modify fun _ => rfl
  simp only [desk, h, releases]
  rfl

/-- The part of a request that changes the objects of its client. -/
def direct (w : World) (client : ℕ) : DeskRequest → World
  | .getDataDevice =>
    { w.newResource client .dataDevice with dataDevices := w.dataDevices.set w.nextId {} }
  | .offset _ _ | .frame _ | .moveToplevel _ | .bindSeat | .getPointer _ | .getKeyboard _
  | .getRay | .setCursor _ _ _ | .offer _ _ | .accept _ _ | .receive _ _ => w
  | r => w.handle client r

/-- The rest of it. -/
theorem handle_changes (w : World) (client : ℕ) (r : DeskRequest) :
    Changes k (w.direct client r) (w.handle client r) := by
  cases r with
  | createWlBuffer b => exact .refl
  | createSurface texSize => exact .refl
  | attach s b d => exact .refl
  | offset s d => exact modifySurface_changes w s fun x => rfl
  | frame s =>
    have h1 : Changes k w { w with nextId := w.nextId + 1 } :=
      changes_of_eq rfl rfl ⟨Nat.le_succ _, fun _ _ => rfl, fun _ _ => .inl, fun h i hi => h i (by
        simp only at hi
        omega)⟩
    exact h1.trans (modifySurface_changes _ s fun x => rfl)
  | commit s => exact .refl
  | getXdgSurface s => exact .refl
  | getToplevel x => exact .refl
  | moveToplevel t => exact (requestStartMove_effects (t := false) w client).changes
  | bindSeat => exact changes_of_eq rfl rfl (.new rfl rfl rfl)
  | getPointer i => exact (newResource_changes w client rfl).trans (joinSeat_changes _ _ _)
  | getKeyboard i => exact (newResource_changes w client rfl).trans (joinSeat_changes _ _ _)
  | getRay => exact (newResource_changes w client rfl).trans (joinSeat_changes _ _ _)
  | setCursor p s hotspot => exact (setSurfaceAsCursor_effects (t := false) w s hotspot).changes
  | createDataSource => exact .refl
  | offer s mimeType => exact addMimeType_changes w s mimeType
  | getDataDevice =>
    simp only [handle, createDataDevice]
    refine (joinSeat_changes _ client _).andThen ?_
    split
    · exact sendSelection_changes _ _
    · exact .refl
  | setSelection d s => exact .refl
  | accept o mimeType =>
    exact askSource_changes w o (e := fun s => .sourceTarget s mimeType) (fun _ => rfl) fun _ => rfl
  | receive o mimeType =>
    exact askSource_changes w o (e := fun s => .sourceSend s mimeType) (fun _ => rfl) fun _ => rfl

theorem peerDiscover_changes (w : World) (connected : Bool) :
    Changes k w (w.peerDiscover connected) := by
  unfold peerDiscover
  split
  · exact .refl
  · refine changes_of_eq ?_ rfl (.same rfl rfl)
    have h : (w.surfaces.mapAll fun x => x.initRenderer w.scene.remote.sessionCount).mapAll
        Surface.core = w.surfaces.mapAll Surface.core := by
      rw [Arena.mapAll_mapAll]
      exact congrArg w.surfaces.mapAll (funext fun x => x.initRenderer_core _)
    simp only [desk, h, releases]

theorem sessionDisconnect_changes (w : World) : Changes k w w.sessionDisconnect := by
  unfold sessionDisconnect
  split
  · refine changes_of_eq ?_ rfl (.same rfl rfl)
    simp only [desk, Arena.mapAll_mapAll, releases]
    rfl
  · exact .refl

theorem frameTimer_changes (w : World) (busyness : ℕ) : Changes k w (w.frameTimer busyness) := by
  unfold frameTimer
  split
  · have hr (l : List ℕ) : (l.map DeskEvent.callbackDone).filterMap DeskEvent.release? = [] := by
      simp [List.filterMap_map, Function.comp_def, DeskEvent.release?]
    have hk (l : List ℕ) : (l.map DeskEvent.callbackDone).filter DeskEvent.isKey = [] := by
      simp [DeskEvent.isKey]
    refine changes_of_eq ?_ ?_ (.same rfl rfl)
    · simp only [desk, sessionFrame, Arena.mapAll_mapAll, releases, List.filterMap_append, hr,
        List.append_nil]
      rfl
    · simp only [keyboard, sessionFrame, keyEvents, List.filter_append, hk, List.append_nil]
  · exact .refl

/-- Only a button changes the keyboard focus. -/
def Action.isButton : Action → Bool
  | .mouseButton _ _ _ => true
  | _ => false

/-- The part of an action that changes the objects of the clients at once. -/
def directly (w : World) : Action → World
  | .desk client r => if w.admits client r then w.direct client r else w
  | .destroy client i =>
    if (w.resources i).any fun x => x.client = client then w.destroyResource i else w
  | _ => w

/-- The rest of it. -/
theorem act_changes (w : World) (a : Action) :
    Changes a.isButton (w.directly a) (w.act a) := by
  cases a with
  | zwin client r =>
    simp only [directly, act, addBoundedApp]
    split <;> exact changes_of_eq rfl rfl (.same rfl rfl)
  | destroyZwin client r => exact changes_of_eq rfl rfl (.same rfl rfl)
  | desk client r =>
    simp only [directly, act]
    split
    · exact handle_changes w client r
    · exact .refl
  | destroy client i => exact .refl
  | moveBounded client b =>
    simp only [directly, act]
    split
    · exact (requestStartMove_effects (t := false) w client).changes
    · exact .refl
  | peerDiscover connected => exact peerDiscover_changes w connected
  | sessionDisconnect => exact sessionDisconnect_changes w
  | frameTimer busyness => exact frameTimer_changes w busyness
  | mouseMove polar azimuthal hits => exact (moveRelPointing_effects w polar azimuthal hits).changes
  | mouseButton button pressed hits =>
    exact (handleMouseButton_effects w button pressed hits).changes
  | mouseWheel amount => exact (handleMouseWheel_effects (t := false) w amount).changes

theorem step_of_running {w : World} (hs : w.stopped = false) (a : Action) :
    w.step a = w.act a := by simp [step, hs]

theorem step_of_stopped {w : World} (hs : w.stopped = true) (a : Action) : w.step a = w := by
  simp [step, hs]

theorem act_desk {w : World} {client : ℕ} {r : DeskRequest} (ha : w.admits client r = true) :
    w.act (.desk client r) = w.handle client r := by simp [act, ha]

/-- What the direct part keeps and every change keeps, a step keeps. -/
theorem step_keeps {P : World → Prop} (hc : ∀ w w', Change true w w' → P w → P w') {w : World}
    {a : Action} (hd : P (w.directly a)) (hw : P w) : P (w.step a) := by
  unfold step
  split
  · exact hw
  · have weaken {b : Bool} {u u' : World} (h : Change b u u') : Change true u u' := by
      cases h with
      | other hd hk hg => exact .other hd hk hg
      | focus _ hd hg => exact .focus rfl hd hg
      | expire => exact .expire
      | raise i => exact .raise i
      | offer d s => exact .offer d s
      | cursor i => exact .cursor i
    exact Path.preserves (fun u u' h => hc u u' (weaken h)) (act_changes w a) hd

end Functions
end World
end Yaza
