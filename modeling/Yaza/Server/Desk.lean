import Yaza.Server.Pointing

/-! The requests of the Wayland clients: which of them touch the scene, the callbacks, the
renderers or the focus, and how. -/
namespace Yaza
namespace World

/-- What the run knows of the live surfaces. -/
def keys (w : World) : Arena ((List ℕ × List ℕ) × Option ℕ) := w.surfaces.mapAll Surface.key

/-- Nothing about the scene, the done callbacks and the focus changes, and the surfaces become
those of `K`. -/
structure Keyed (K : Arena ((List ℕ × List ℕ) × Option ℕ)) (w w' : World) : Prop where
  scene : w'.scene = w.scene
  keys : w'.keys = K
  rayRenderer : w'.ray.renderer = w.ray.renderer
  done : w'.doneCallbacks = w.doneCallbacks
  nextId : w.nextId ≤ w'.nextId
  fresh : w.Fresh → w'.Fresh
  calls : w'.calls = w.calls
  objState : w'.seat.objState = w.seat.objState
  focusedObj : w'.seat.focusedObj = w.seat.focusedObj

/-- The surfaces stay what they are too. -/
abbrev Idle (w w' : World) : Prop := Keyed w.keys w w'

theorem Aside.idle {S : ℕ → Prop} {w w' : World} (h : Aside S w w') : Idle w w' where
  scene := h.scene
  keys := h.surfaces
  rayRenderer := h.rayRenderer
  done := h.done
  nextId := h.nextId
  fresh := h.fresh
  calls := h.calls
  objState := h.objState
  focusedObj := h.focusedObj

theorem Idle.refl (w : World) : Idle w w := ⟨rfl, rfl, rfl, rfl, Nat.le_refl _, id, rfl, rfl, rfl⟩

variable {K : Arena ((List ℕ × List ℕ) × Option ℕ)} {w w' w'' : World}

theorem Keyed.trans (h : Keyed K w w') (h' : Idle w' w'') : Keyed K w w'' where
  scene := h'.scene.trans h.scene
  keys := h'.keys.trans h.keys
  rayRenderer := h'.rayRenderer.trans h.rayRenderer
  done := h'.done.trans h.done
  nextId := h.nextId.trans h'.nextId
  fresh := fun hf => h'.fresh (h.fresh hf)
  calls := h'.calls.trans h.calls
  objState := h'.objState.trans h.objState
  focusedObj := h'.focusedObj.trans h.focusedObj

theorem Idle.keyed (h : Idle w w') (h' : Keyed K w' w'') : Keyed K w w'' where
  scene := h'.scene.trans h.scene
  keys := h'.keys
  rayRenderer := h'.rayRenderer.trans h.rayRenderer
  done := h'.done.trans h.done
  nextId := h.nextId.trans h'.nextId
  fresh := fun hf => h'.fresh (h.fresh hf)
  calls := h'.calls.trans h.calls
  objState := h'.objState.trans h.objState
  focusedObj := h'.focusedObj.trans h.focusedObj

theorem Idle.andThen {f : World → World} (h : Idle w w') (hf : Idle w' (f w')) :
    Idle w (w'.andThen f) := by
  unfold World.andThen
  split
  · exact h
  · exact h.trans hf

/-- A live surface stays alive, and no other becomes so. -/
theorem Keyed.isSome (h : Keyed K w w') (i : ℕ) : (w'.surfaces i).isSome = (K i).isSome := by
  have h1 := congrArg Option.isSome (congrFun h.keys i)
  simpa [World.keys] using h1

/-- The parts of the program that `Keyed` speaks of. -/
def keyedParts (w : World) := (w.scene, w.ray.renderer, w.nextId, w.resources, w.pointerParts)

theorem keyed_of_eq (hk : w'.keys = K) (hd : w'.doneCallbacks = w.doneCallbacks)
    (hp : w'.keyedParts = w.keyedParts) : Keyed K w w' := by
  simp only [keyedParts, pointerParts, Prod.mk.injEq] at hp
  obtain ⟨hs, hr, hn, hi, ha, ho, hf⟩ := hp
  refine ⟨hs, hk, hr, hd, hn.ge, fun h i hi' => ?_, ha, ho, hf⟩
  rw [hi]
  exact h i (hn ▸ hi')

theorem newResource_idle (w : World) (client : ℕ) (interface : DeskInterface) :
    Idle w (w.newResource client interface) where
  scene := rfl
  keys := rfl
  rayRenderer := rfl
  done := rfl
  nextId := Nat.le_succ _
  fresh := fun h _ hi => h.set_eq_none _ hi
  calls := rfl
  objState := rfl
  focusedObj := rfl

theorem withClientSeat_idle (client : ℕ) {k : World → ℕ → ClientSeat → World}
    (hk : ∀ w i x, Idle w (k w i x)) : Idle w (w.withClientSeat client k) := by
  unfold withClientSeat
  split
  · exact keyed_of_eq rfl rfl rfl
  · next i _ =>
    have h1 (live : Bool) : Idle w (w.logLookup client (some i) live) := keyed_of_eq rfl rfl rfl
    split
    · exact (h1 false).trans (keyed_of_eq rfl rfl rfl)
    · exact (h1 _).trans (hk _ _ _)

theorem joinSeat_idle (client : ℕ) (f : ClientSeat → ClientSeat) : Idle w (w.joinSeat client f) :=
  withClientSeat_idle client fun _ _ _ => keyed_of_eq rfl rfl rfl

/-- A new resource that joins a list of its seat. -/
theorem newMember_idle (client : ℕ) (interface : DeskInterface) (f : ClientSeat → ClientSeat) :
    Idle w ((w.newResource client interface).joinSeat client f) :=
  (newResource_idle w client interface).trans (joinSeat_idle client f)

theorem createDataDevice_idle (client : ℕ) : Idle w (w.createDataDevice client) := by
  have h1 := newResource_idle w client .dataDevice
  have h2 : Idle (w.newResource client .dataDevice)
      { w.newResource client .dataDevice with dataDevices := w.dataDevices.set w.nextId {} } :=
    keyed_of_eq rfl rfl rfl
  refine Idle.andThen ((h1.trans h2).trans (joinSeat_idle client _)) ?_
  split
  · exact (sendSelection_aside (S := fun _ => True) _ _).idle
  · exact .refl _

theorem createToplevel_idle (client x : ℕ) : Idle w (w.createToplevel client x) := by
  unfold createToplevel
  split
  · exact keyed_of_eq rfl rfl rfl
  · next y _ =>
    have h1 := newResource_idle w client .xdgToplevel
    exact h1.trans (keyed_of_eq (Arena.mapAll_modify fun s => rfl) rfl rfl)

theorem setSelection_idle (device : ℕ) (source : Option ℕ) :
    Idle w (w.setSelection device source) := by
  unfold setSelection
  split
  · exact keyed_of_eq rfl rfl rfl
  · exact keyed_of_eq rfl rfl rfl

theorem emit_idle (w : World) {e : DeskEvent} (he : e.callback? = none) : Idle w (w.emit e) :=
  keyed_of_eq rfl (by simp [doneCallbacks, emit, he]) rfl

theorem askSource_idle (offer : ℕ) {e : ℕ → DeskEvent} (he : ∀ s, (e s).callback? = none) :
    Idle w (w.askSource offer e) := by
  unfold askSource
  split
  · exact keyed_of_eq rfl rfl rfl
  · split
    · exact emit_idle w (he _)
    · exact keyed_of_eq rfl rfl rfl

/-- A request that only its own objects and the seat know of. -/
def DeskRequest.isIdle : DeskRequest → Bool
  | .createSurface _ | .frame _ | .commit _ | .moveToplevel _ => false
  | _ => true

theorem handle_idle (client : ℕ) {r : DeskRequest} (hr : r.isIdle = true) :
    Idle w (w.handle client r) := by
  cases r with
  | createWlBuffer b => exact (newResource_idle w client .wlBuffer).trans (keyed_of_eq rfl rfl rfl)
  | attach s b d => exact keyed_of_eq (Arena.mapAll_modify fun x => rfl) rfl rfl
  | offset s d => exact keyed_of_eq (Arena.mapAll_modify fun x => rfl) rfl rfl
  | getXdgSurface s => exact (newResource_idle w client .xdgSurface).trans (keyed_of_eq rfl rfl rfl)
  | getToplevel x => exact createToplevel_idle client x
  | bindSeat => exact (newResource_idle w client .seat).trans (keyed_of_eq rfl rfl rfl)
  | getPointer _ | getKeyboard _ | getRay => exact newMember_idle client _ _
  | setCursor _ s hotspot => exact (setSurfaceAsCursor_aside (S := fun _ => True) w s hotspot).idle
  | createDataSource =>
    exact (newResource_idle w client .dataSource).trans (keyed_of_eq rfl rfl rfl)
  | offer s mimeType => exact keyed_of_eq rfl rfl rfl
  | getDataDevice => exact createDataDevice_idle client
  | setSelection d s => exact setSelection_idle d s
  | accept o mimeType =>
    exact askSource_idle o (e := fun s => .sourceTarget s mimeType) fun _ => rfl
  | receive o mimeType => exact askSource_idle o (e := fun s => .sourceSend s mimeType) fun _ => rfl
  | createSurface _ | frame _ | commit _ | moveToplevel _ => cases hr

/-- The channel that the renderer of a new surface is made on. -/
theorem newSurface_key (w : World) (texSize : ℕ × ℕ) :
    (w.newSurface texSize).key = (([], []), w.scene.remote.currentSession) := by
  unfold newSurface
  split
  · next h => rw [h]; rfl
  · next h => rw [h]; rfl

theorem createSurface_keyed (client : ℕ) (texSize : ℕ × ℕ) :
    Keyed (w.keys.set w.nextId (([], []), w.scene.remote.currentSession)) w
      (w.createSurface client texSize) := by
  have h1 := newResource_idle w client .surface
  have h2 : Keyed (w.keys.set w.nextId (([], []), w.scene.remote.currentSession))
      (w.newResource client .surface)
      { w.newResource client .surface with
        surfaces := w.surfaces.set w.nextId (w.newSurface texSize)
        surfaceList := w.nextId :: w.surfaceList } := by
    refine keyed_of_eq ?_ rfl rfl
    rw [keys, Arena.mapAll_set_apply, newSurface_key]
    rfl
  exact h1.keyed (h2.trans (reorderSurfaces_aside (S := fun _ => True) _).idle)

theorem lt_createSurface (client : ℕ) (texSize : ℕ × ℕ) :
    w.nextId < (w.createSurface client texSize).nextId :=
  Nat.lt_of_succ_le (reorderSurfaces_aside (S := fun _ => True)
    { w.newResource client .surface with
      surfaces := w.surfaces.set w.nextId (w.newSurface texSize)
      surfaceList := w.nextId :: w.surfaceList }).nextId

/-- A callback is requested. -/
def requestFrame (c : ℕ) (k : (List ℕ × List ℕ) × Option ℕ) : (List ℕ × List ℕ) × Option ℕ :=
  ((k.1.1 ++ [c], k.1.2), k.2)

theorem queueFrameCallback_keyed (i : ℕ) :
    Keyed (w.keys.modify i (requestFrame w.nextId)) w (w.queueFrameCallback i) where
  scene := rfl
  keys := Arena.mapAll_modify_apply (f := Surface.key) (k := requestFrame w.nextId)
    (g := fun x : Surface => x.queueFrameCallback w.nextId) (fun _ => rfl) w.surfaces i
  rayRenderer := rfl
  done := rfl
  nextId := Nat.le_succ _
  fresh := fun h j hj => h j (Nat.le_of_succ_le hj)
  calls := rfl
  objState := rfl
  focusedObj := rfl

/-- The requested callbacks are committed, in front of those that are. -/
def commitKey (k : (List ℕ × List ℕ) × Option ℕ) : (List ℕ × List ℕ) × Option ℕ :=
  (([], k.1.1 ++ k.1.2), k.2)

theorem commitOffset_key (x : Surface) : x.commitOffset.key = x.key := by
  unfold Surface.commitOffset
  split
  · rw [Surface.syncGeom_key]
    rfl
  · rfl

theorem commitBuffer_key (x : Surface) (b : WlShmBuffer) : (x.commitBuffer b).key = x.key := by
  unfold Surface.commitBuffer
  split
  · exact Surface.syncGeom_key { x with texture := some b, texSize := _, geom.size := _ }
  · rfl

theorem commitFrames_key (x : Surface) : x.tellTexture.commitFrames.key = commitKey x.key := by
  unfold Surface.tellTexture
  split
  · rfl
  · next texture _ =>
    rw [← Surface.tell_key x [.setTexture texture x.texSize, .commit]]
    rfl

theorem commitBuffer_idle (i : ℕ) (x : Surface) : Idle w (w.commitBuffer i x) := by
  have h1 : Idle w (w.modifySurface i .commitOffset) :=
    keyed_of_eq (Arena.mapAll_modify commitOffset_key) rfl rfl
  unfold commitBuffer
  split
  · exact h1
  · split
    · exact h1.trans (keyed_of_eq rfl rfl rfl)
    · next b _ buffer _ =>
      have h2 : Idle w (w.modifySurface i fun x => x.commitOffset.commitBuffer buffer) :=
        keyed_of_eq (Arena.mapAll_modify fun x => by rw [commitBuffer_key, commitOffset_key])
          rfl rfl
      exact h2.trans (emit_idle _ rfl)

theorem notifyXdg_idle (i : ℕ) : Idle w (w.notifyXdg i) := by
  refine keyed_of_eq rfl ?_ rfl
  simp [doneCallbacks, notifyXdg, List.filterMap_map, Function.comp_def, DeskEvent.callback?]

/-- A commit reaches the callbacks of the surface, unless the program stops before. -/
theorem commitSurface_keyed (i : ℕ) :
    ((w.commitSurface i).stopped ∧ Idle w (w.commitSurface i)) ∨
      Keyed (w.keys.modify i commitKey) w (w.commitSurface i) := by
  unfold commitSurface
  split
  · exact .inl ⟨crash_stopped w _, keyed_of_eq rfl rfl rfl⟩
  · next x _ =>
    have h1 := commitBuffer_idle (w := w) i x
    unfold andThen
    split
    · next hs => exact .inl ⟨hs, h1⟩
    · have h2 : Keyed (w.keys.modify i commitKey) (w.commitBuffer i x)
          ((w.commitBuffer i x).modifySurface i fun x => x.tellTexture.commitFrames) := by
        refine keyed_of_eq ?_ rfl rfl
        rw [← h1.keys]
        exact Arena.mapAll_modify_apply commitFrames_key ..
      exact .inr ((h1.keyed h2).trans (notifyXdg_idle i))

theorem destroyResource_keyed {i : ℕ} {r : DeskResource} (hr : w.resources i = some r) :
    Keyed (if r.interface = .surface then w.keys.erase i else w.keys) w (w.destroyResource i) := by
  simp only [destroyResource, hr]
  have fresh (w' : World) (hn : w'.nextId = w.nextId) (hf : w.Fresh) :
      Fresh { w' with resources := w.resources.erase i } := fun j hj => by
    simp only [Arena.erase_apply]
    split
    · rfl
    · exact hf j (hn ▸ hj)
  cases r.interface <;>
    refine ⟨rfl, ?_, rfl, rfl, Nat.le_refl _, fresh _ rfl, rfl, rfl, rfl⟩
  case surface => exact Arena.mapAll_erase ..
  all_goals rfl

end World
end Yaza
