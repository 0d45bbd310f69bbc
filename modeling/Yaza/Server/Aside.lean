import Yaza.Server.Step

/-! What the functions of the seat leave alone, and the clients whose seats they look up. -/
namespace Yaza

def DeskEvent.callback? : DeskEvent → Option ℕ
  | .callbackDone c => some c
  | _ => none

namespace Surface

/-- The callbacks that are requested, and those that are committed. -/
def frames (x : Surface) : List ℕ × List ℕ := (x.pendingFrames, x.currentFrames)

/-- What only the requests of its client, a tick and the session change in a surface: its
callbacks, and the channel of its renderer. -/
def key (x : Surface) : (List ℕ × List ℕ) × Option ℕ := (x.frames, x.renderer.map Renderer.channel)

@[simp] theorem tell_key (x : Surface) (cs : List RendererCall) : (x.tell cs).key = x.key := by
  cases h : x.renderer <;> simp [key, frames, tell, h]

@[simp] theorem syncGeom_key (x : Surface) : x.syncGeom.key = x.key := tell_key x _

@[simp] theorem updatePosAndRot_key (x : Surface) : x.updatePosAndRot.key = x.key :=
  syncGeom_key _

@[simp] theorem setRole_key (x : Surface) (role : Role) (o : Option ℕ) :
    (x.setRole role o).key = x.key := rfl

@[simp] theorem setActive_key (x : Surface) (active : Bool) : (x.setActive active).key = x.key := by
  rw [setActive, tell_key, syncGeom_key]
  rfl

@[simp] theorem move_key (x : Surface) (polar azimuthal : ℚ) :
    (x.move polar azimuthal).key = x.key := by
  rw [move, tell_key, updatePosAndRot_key]
  rfl

@[simp] theorem moveCursor_key (x : Surface) (distance polar azimuthal : ℚ) (hotspot : ℤ × ℤ) :
    (x.moveCursor distance polar azimuthal hotspot).key = x.key := by
  rw [moveCursor, tell_key, syncGeom_key]
  rfl

theorem initRenderer_key (x : Surface) (channel : ℕ) :
    (x.initRenderer channel).key = (x.frames, some channel) := by
  unfold initRenderer tellTexture
  split
  · exact updatePosAndRot_key _
  · rw [tell_key]
    exact updatePosAndRot_key _

theorem updateDistance_key {x y : Surface} {index : ℕ}
    (h : x.updateDistanceByLayerIndex index = some y) : y.key = x.key := by
  simp only [updateDistanceByLayerIndex] at h
  split at h
  · cases h
  · cases h
    split
    · rw [tell_key, updatePosAndRot_key]
      rfl
    · rw [updatePosAndRot_key]
      rfl

end Surface

namespace World

/-- The callbacks of surfaces that were sent `done`, in order. -/
def doneCallbacks (w : World) : List ℕ := w.events.filterMap DeskEvent.callback?

/-- No address from `nextId` on is a resource. -/
def Fresh (w : World) : Prop := ∀ i, w.nextId ≤ i → w.resources i = none

/-- The address of the object has been used. -/
def issued (w : World) : BoundedObject → Prop
  | .surface i => i < w.nextId
  | .app i => i < w.scene.nextId

section Fresh
variable {w : World} (h : w.Fresh) (x : DeskResource) {i : ℕ}
include h

theorem Fresh.lt {r : DeskResource} (hr : w.resources i = some r) : i < w.nextId := by
  by_contra hi
  simp [h i (Nat.le_of_not_lt hi)] at hr

theorem Fresh.set_eq_none (hi : w.nextId + 1 ≤ i) : w.resources.set w.nextId x i = none := by
  rw [Arena.set_of_ne _ _ (by omega)]
  exact h i (by omega)

end Fresh

/-- The entry of the client is a live `wl_seat` of the client. -/
def Served (w : World) (client : ℕ) : Prop :=
  ∃ i, w.seat.clientSeats client = some (some i) ∧ w.ownsSeat client i

/-- The scene, the callbacks and the renderers are left alone, and addresses are not used again. -/
structure Calm (w w' : World) : Prop where
  scene : w'.scene = w.scene
  surfaces : w'.surfaces.mapAll Surface.key = w.surfaces.mapAll Surface.key
  rayRenderer : w'.ray.renderer = w.ray.renderer
  done : w'.doneCallbacks = w.doneCallbacks
  nextId : w.nextId ≤ w'.nextId
  fresh : w.Fresh → w'.Fresh

/-- What a function of the seat leaves alone when it looks up the clients in `S` only, and what
it finds there. -/
structure Base (S : ℕ → Prop) (w w' : World) : Prop extends Calm w w' where
  clientSeats : w'.clientSeats = w.clientSeats
  resources : ∀ i, i < w.nextId → w'.resources i = w.resources i
  looks : w.Fresh → (∀ c, S c → w.Served c) →
    w'.seat.clientSeats = w.seat.clientSeats ∧ ∀ l ∈ w'.lookups, l ∈ w.lookups ∨ l.live = true

/-- It makes no call on a bounded object either. -/
structure Aside (S : ℕ → Prop) (w w' : World) : Prop extends Base S w w' where
  calls : w'.calls = w.calls
  objState : w'.seat.objState = w.seat.objState
  focusedObj : w'.seat.focusedObj = w.seat.focusedObj

section Preorder
variable {S : ℕ → Prop} {w w' w'' : World}

theorem Calm.refl (w : World) : Calm w w := ⟨rfl, rfl, rfl, rfl, Nat.le_refl _, id⟩

theorem Calm.trans (h : Calm w w') (h' : Calm w' w'') : Calm w w'' where
  scene := h'.scene.trans h.scene
  surfaces := h'.surfaces.trans h.surfaces
  rayRenderer := h'.rayRenderer.trans h.rayRenderer
  done := h'.done.trans h.done
  nextId := h.nextId.trans h'.nextId
  fresh := fun hf => h'.fresh (h.fresh hf)

theorem Base.refl (w : World) : Base S w w :=
  ⟨.refl w, rfl, fun _ _ => rfl, fun _ _ => ⟨rfl, fun _ => .inl⟩⟩

theorem Base.served (h : Base S w w') (hf : w.Fresh) (hS : ∀ c, S c → w.Served c) {c : ℕ}
    (hc : w.Served c) : w'.Served c := by
  obtain ⟨i, hi, ho⟩ := hc
  refine ⟨i, (h.looks hf hS).1 ▸ hi, ?_⟩
  simp only [ownsSeat, h.clientSeats, Bool.and_eq_true] at ho ⊢
  refine ⟨ho.1, ?_⟩
  cases hr : w.resources i with
  | none => simp [hr] at ho
  | some r => simpa [hr, h.resources i (hf.lt hr)] using ho.2

theorem Base.trans (h : Base S w w') (h' : Base S w' w'') : Base S w w'' where
  toCalm := h.toCalm.trans h'.toCalm
  clientSeats := h'.clientSeats.trans h.clientSeats
  resources := fun i hi => (h'.resources i (hi.trans_le h.nextId)).trans (h.resources i hi)
  looks := fun hf hS => by
    obtain ⟨h1, h2⟩ := h.looks hf hS
    obtain ⟨h3, h4⟩ := h'.looks (h.fresh hf) fun c hc => h.served hf hS (hS c hc)
    refine ⟨h3.trans h1, fun l hl => ?_⟩
    rcases h4 l hl with h5 | h5
    · exact h2 l h5
    · exact .inr h5

theorem Base.mono {T : ℕ → Prop} (hST : ∀ c, S c → T c) (h : Base S w w') : Base T w w' :=
  { h with looks := fun hf hT => h.looks hf fun c hc => hT c (hST c hc) }

theorem Aside.refl (w : World) : Aside S w w := ⟨.refl w, rfl, rfl, rfl⟩

theorem Aside.trans (h : Aside S w w') (h' : Aside S w' w'') : Aside S w w'' where
  toBase := h.toBase.trans h'.toBase
  calls := h'.calls.trans h.calls
  objState := h'.objState.trans h.objState
  focusedObj := h'.focusedObj.trans h.focusedObj

theorem Base.andThen {f : World → World} (h : Base S w w') (hf : Base S w' (f w')) :
    Base S w (w'.andThen f) := by
  unfold World.andThen
  split
  · exact h
  · exact h.trans hf

theorem Aside.andThen {f : World → World} (h : Aside S w w') (hf : Aside S w' (f w')) :
    Aside S w (w'.andThen f) := by
  unfold World.andThen
  split
  · exact h
  · exact h.trans hf

/-- A live object stays alive, and no other becomes so. -/
theorem Calm.alive (h : Calm w w') (o : BoundedObject) : w'.alive o = w.alive o := by
  cases o with
  | surface i => exact Arena.isSome_of_mapAll h.surfaces i
  | app i => simp [World.alive, h.scene]

theorem Calm.lock (h : Calm w w') (o : Option BoundedObject) : w'.lock o = w.lock o := by
  rw [World.lock, World.lock, funext h.alive]

theorem Calm.lockSurface (h : Calm w w') (i : Option ℕ) :
    w'.surfaces.lock i = w.surfaces.lock i := by
  rw [Arena.lock, Arena.lock, funext (Arena.isSome_of_mapAll h.surfaces)]

/-- The client of an object does not change. -/
theorem Base.clientOf (h : Base S w w') {o : BoundedObject} (ho : w.issued o) :
    w'.clientOf o = w.clientOf o := by
  cases o with
  | surface i => exact congrArg (Option.map DeskResource.client) (h.resources i ho)
  | app i => simp only [World.clientOf, h.scene]

end Preorder

section Functions
variable {S : ℕ → Prop} {w : World}

/-- The parts of the program that `Base` speaks of and the pointer does not change. -/
def baseParts (w : World) :=
  (w.scene, w.clientSeats, w.ray.renderer, w.nextId, w.resources, w.seat.clientSeats, w.lookups)

/-- The parts that `Aside` speaks of besides. -/
def pointerParts (w : World) := (w.calls, w.seat.objState, w.seat.focusedObj)

/-- Changes of parts that `Base` does not speak of. -/
theorem base_of_eq {w' : World}
    (hk : w'.surfaces.mapAll Surface.key = w.surfaces.mapAll Surface.key)
    (hd : w'.doneCallbacks = w.doneCallbacks) (hp : w'.baseParts = w.baseParts) :
    Base S w w' := by
  simp only [baseParts, Prod.mk.injEq] at hp
  obtain ⟨hs, hc, hr, hn, hi, hm, hl⟩ := hp
  refine ⟨⟨hs, hk, hr, hd, hn.ge, fun h i hi' => ?_⟩, hc, fun i _ => by rw [hi],
    fun _ _ => ⟨hm, fun l h => .inl (hl ▸ h)⟩⟩
  rw [hi]
  exact h i (hn ▸ hi')

/-- Changes of parts that `Base` and `Aside` do not speak of. -/
theorem aside_of_eq {w' : World}
    (hk : w'.surfaces.mapAll Surface.key = w.surfaces.mapAll Surface.key)
    (hd : w'.doneCallbacks = w.doneCallbacks) (hp : w'.baseParts = w.baseParts)
    (hq : w'.pointerParts = w.pointerParts) : Aside S w w' := by
  simp only [pointerParts, Prod.mk.injEq] at hq
  exact ⟨base_of_eq hk hd hp, hq.1, hq.2.1, hq.2.2⟩

theorem crash_stopped (w : World) (f : Fault) : (w.crash f).stopped = true := by
  cases h : w.fault <;> simp [stopped, crash, h]

theorem crash_aside (w : World) (f : Fault) : Aside S w (w.crash f) := aside_of_eq rfl rfl rfl rfl

theorem emit_aside (w : World) {e : DeskEvent} (he : e.callback? = none) : Aside S w (w.emit e) :=
  aside_of_eq rfl (by simp [doneCallbacks, emit, he]) rfl rfl

theorem modifySurface_aside (w : World) (i : ℕ) {f : Surface → Surface}
    (hf : ∀ x, (f x).key = x.key) : Aside S w (w.modifySurface i f) :=
  aside_of_eq (Arena.mapAll_modify hf) rfl rfl rfl

theorem reorderSurface_aside (acc : World × ℕ) (i : ℕ) :
    Aside S acc.1 (reorderSurface acc i).1 := by
  unfold reorderSurface
  split
  · exact .refl _
  · next y hy =>
    obtain ⟨x, hx, hxy⟩ := Option.bind_eq_some_iff.mp hy
    exact aside_of_eq (Arena.mapAll_set hx (Surface.updateDistance_key hxy)) rfl rfl rfl

theorem reorderSurfaces_aside (w : World) : Aside S w w.reorderSurfaces := by
  have fold (l : List ℕ) (acc : World × ℕ) : Aside S acc.1 (l.foldl reorderSurface acc).1 := by
    induction l generalizing acc with
    | nil => exact .refl _
    | cons i l ih => exact (reorderSurface_aside acc i).trans (ih _)
  have h1 : Aside S w w.dropExpiredSurfaces := aside_of_eq rfl rfl rfl rfl
  exact h1.trans (fold _ (w.dropExpiredSurfaces, 0))

theorem raiseSurfaceTop_aside (w : World) (i : ℕ) : Aside S w (w.raiseSurfaceTop i) := by
  unfold raiseSurfaceTop
  split
  · exact .refl w
  · next j _ =>
    have h1 : Aside S w { w with surfaceList := j :: w.surfaceList.erase j } :=
      aside_of_eq rfl rfl rfl rfl
    exact h1.trans (reorderSurfaces_aside _)

theorem setActivated_aside (w : World) (t : ℕ) (activated : Bool) :
    Aside S w (w.setActivated t activated) := by
  unfold setActivated
  split
  · exact crash_aside w _
  · split
    · exact (emit_aside w rfl).trans (emit_aside _ rfl)
    · exact (emit_aside w rfl).trans (crash_aside _ _)

theorem onFocus_aside (w : World) (i : ℕ) : Aside S w (w.onFocus i) := by
  unfold onFocus
  split
  · exact .refl w
  · exact (raiseSurfaceTop_aside w i).trans (setActivated_aside _ _ _)

theorem onUnfocus_aside (w : World) (i : ℕ) : Aside S w (w.onUnfocus i) := by
  unfold onUnfocus
  split
  · exact .refl w
  · exact setActivated_aside w _ _

theorem createOffer_aside (w : World) (device source : ℕ) :
    Aside S w (w.createOffer device source) := by
  unfold createOffer
  split
  · next r x _ _ =>
    refine ⟨⟨⟨rfl, rfl, rfl, by simp [doneCallbacks, DeskEvent.callback?], Nat.le_succ _,
      fun h i hi => ?_⟩, rfl, fun i hi => ?_, fun _ _ => ⟨rfl, fun _ => .inl⟩⟩, rfl, rfl, rfl⟩
    · exact h.set_eq_none _ hi
    · exact Arena.set_of_ne _ _ (Nat.ne_of_lt hi)
  · exact crash_aside w _

theorem sendSelection_aside (w : World) (device : ℕ) : Aside S w (w.sendSelection device) := by
  unfold sendSelection
  split
  · exact emit_aside w rfl
  · split
    · exact crash_aside w _
    · split
      · exact crash_aside w _
      · exact createOffer_aside w _ _

theorem sendSelections_aside (w : World) (devices : List ℕ) :
    Aside S w (w.sendSelections devices) := by
  unfold sendSelections
  induction devices generalizing w with
  | nil => exact .refl w
  | cons d l ih => exact ((Aside.refl w).andThen (sendSelection_aside w d)).trans (ih _)

/-- A lookup of a client in `S`. -/
theorem withClientSeat_aside {client : ℕ} (hc : S client)
    {k : World → ℕ → ClientSeat → World} (hk : ∀ w i x, Aside S w (k w i x)) :
    Aside S w (w.withClientSeat client k) := by
  have log (entry : Option ℕ) (live : Bool) (hl : w.Served client → live = true) :
      Aside S w (w.logLookup client entry live) := by
    refine ⟨⟨⟨rfl, rfl, rfl, rfl, Nat.le_refl _, id⟩, rfl, fun _ _ => rfl, fun _ hS => ?_⟩, rfl,
      rfl, rfl⟩
    refine ⟨rfl, fun l hm => ?_⟩
    rcases List.mem_append.mp hm with h | h
    · exact .inl h
    · rw [List.mem_singleton.mp h]
      exact .inr (hl (hS client hc))
  unfold withClientSeat
  split
  · next hn =>
    have hns : ¬ w.Served client := by
      rintro ⟨i, hi, -⟩
      simp [hi] at hn
    exact ⟨⟨⟨rfl, rfl, rfl, rfl, Nat.le_refl _, id⟩, rfl, fun _ _ => rfl,
      fun _ hS => absurd (hS client hc) hns⟩, rfl, rfl, rfl⟩
  · next i hi =>
    have he : w.seat.clientSeats client = some (some i) := by
      cases h : w.seat.clientSeats client <;> simp_all
    split
    · next hn =>
      refine (log (some i) false ?_).trans (crash_aside _ _)
      rintro ⟨j, hj, ho⟩
      rw [he] at hj
      cases hj
      simp [ownsSeat, hn] at ho
    · next x hx =>
      refine (log (some i) (w.ownsSeat client i) ?_).trans (hk _ _ _)
      rintro ⟨j, hj, ho⟩
      rw [he] at hj
      cases hj
      exact ho

/-- The client of the object is looked up, and it is in `S`. -/
def Needs (S : ℕ → Prop) (w : World) (o : BoundedObject) : Prop :=
  ∀ c, w.clientOf o = some c → S c

theorem withSeatOf_aside {o : BoundedObject} (ho : Needs S w o)
    {k : World → ClientSeat → World} (hk : ∀ w x, Aside S w (k w x)) :
    Aside S w (w.withSeatOf o k) := by
  unfold withSeatOf
  split
  · exact crash_aside w _
  · next c hc => exact withClientSeat_aside (ho c hc) fun w _ x => hk w x

/-- The same, wherever the step has got to. -/
def Asks (S : ℕ → Prop) (w : World) (o : BoundedObject) : Prop :=
  ∀ w', Base S w w' → Needs S w' o

theorem Asks.needs {o : BoundedObject} (h : Asks S w o) : Needs S w o := h w (.refl w)

theorem Asks.after {w' : World} {o : BoundedObject} (h : Asks S w o) (hb : Base S w w') :
    Asks S w' o := fun w'' h' => h w'' (hb.trans h')

theorem asks_of_issued {o : BoundedObject} (ho : w.issued o)
    (hS : ∀ c, w.clientOf o = some c → S c) : Asks S w o := fun w' hb c hc => by
  rw [hb.clientOf ho] at hc
  exact hS c hc

theorem asks_true (w : World) (o : BoundedObject) : Asks (fun _ => True) w o :=
  fun _ _ _ _ => trivial

theorem tryLeaveKeyboard_aside
    (hl : ∀ i, w.surfaces.lock w.seat.keyboardFocusedSurface = some i → Asks S w (.surface i)) :
    Aside S w w.tryLeaveKeyboard := by
  unfold tryLeaveKeyboard
  split
  · exact .refl w
  · next i hi =>
    have h1 := onUnfocus_aside (S := S) w i
    refine h1.andThen ?_
    refine Aside.andThen (withSeatOf_aside ((hl i hi).after h1.toBase).needs
      fun w x => emit_aside w rfl) (aside_of_eq rfl rfl rfl rfl)

theorem enterKeyboard_aside {i : ℕ} (hi : Needs S w (.surface i)) :
    Aside S w (w.enterKeyboard i) :=
  withSeatOf_aside hi fun w _ => (emit_aside w rfl).trans (sendSelections_aside _ _)

theorem setKeyboardFocusedSurface_aside {i : ℕ} (hi : Asks S w (.surface i))
    (hl : ∀ i, w.surfaces.lock w.seat.keyboardFocusedSurface = some i → Asks S w (.surface i)) :
    Aside S w (w.setKeyboardFocusedSurface i) := by
  unfold setKeyboardFocusedSurface
  split
  · exact .refl w
  · have h1 := tryLeaveKeyboard_aside hl
    refine h1.andThen ?_
    have h2 := onFocus_aside (S := S) w.tryLeaveKeyboard i
    refine h2.andThen ?_
    exact (enterKeyboard_aside (hi.after (h1.toBase.trans h2.toBase)).needs).andThen
      (aside_of_eq rfl rfl rfl rfl)

end Functions

end World
end Yaza
