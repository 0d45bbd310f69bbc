import Yaza.Server.Parts
import Yaza.Lib.Run

/-! The cursor, the roles of the surfaces and which of them are shown: in which runs they agree. -/
namespace Yaza

namespace Surface

/-- The role of a surface, whether it is shown, and the angles it is dragged to. -/
def stance (x : Surface) := (x.role, x.roleObj, x.isActive, x.polar, x.azimuthal)

theorem inert_stance : Inert stance where
  updateDistance := by
    intro x y index h
    simp only [updateDistanceByLayerIndex] at h
    split at h
    · cases h
    · cases h
      split <;> rfl
  moveCursor := fun _ _ _ _ _ => rfl
  initRenderer := by
    intro x channel
    simp only [initRenderer, tellTexture]
    split <;> rfl
  noRenderer := fun _ => rfl
  sessionFrame := fun _ => rfl
  queueFrameCallback := fun _ _ => rfl
  setOffset := fun _ _ => rfl
  attach := fun _ _ => rfl
  commitOffset := by
    intro x
    unfold commitOffset
    split <;> rfl
  commitBuffer := by
    intro x b
    unfold commitBuffer
    split <;> rfl
  commitFrames := by
    intro x
    unfold tellTexture
    split <;> rfl

/-- The role of a surface, and whether it is shown. -/
def face (x : Surface) := (x.role, x.isActive)

theorem inert_face : Inert face := inert_stance.map fun s => (s.1, s.2.2.1)

end Surface

namespace World

/-- A live cursor has the role of one and is shown, no other surface with that role is, and
toplevels are. -/
structure Cast (w : World) : Prop where
  cursor : ∀ i x, w.seat.cursor = some i → w.surfaces i = some x →
    x.role = .cursor ∧ x.isActive = true
  others : ∀ i x, w.surfaces i = some x → x.role = .cursor → w.seat.cursor ≠ some i →
    x.isActive = false
  toplevels : ∀ i x, w.surfaces i = some x → x.role = .xdgToplevel → x.isActive = true

/-- A surface that is given the role of a toplevel does not have that of a cursor. -/
def KeepsCursors (w : World) : Action → Prop
  | .desk client (.getToplevel j) =>
    w.stopped = false → w.admits client (.getToplevel j) = true → ∀ y x,
      w.xdgSurfaces j = some y → w.surfaces y.wlSurface = some x → x.role ≠ .cursor
  | _ => True

/-- A live cursor is shown. If cursors are kept it has the role of one, and any other surface is
shown unless it has that role. -/
structure Settled (kept : Prop) (w : World) : Prop where
  issued : ∀ i, w.seat.cursor = some i → i < w.nextId
  live : ∀ i, (w.surfaces i).isSome → i < w.nextId
  shown : ∀ i x, w.seat.cursor = some i → w.surfaces i = some x → x.isActive = true
  cursor : kept → ∀ i x, w.seat.cursor = some i → w.surfaces i = some x → x.role = .cursor
  others : kept → ∀ i x, w.surfaces i = some x → w.seat.cursor ≠ some i →
    (x.isActive = true ↔ x.role ≠ .cursor)

section Steps
variable {kept : Prop} {w w' : World}

theorem Settled.cast (h : w.Settled True) : w.Cast where
  cursor := fun i x hc hx => ⟨h.cursor trivial i x hc hx, h.shown i x hc hx⟩
  others := fun i x hx hr hc => by
    have h1 := h.others trivial i x hx hc
    simpa [hr] using h1
  toplevels := fun i x hx hr => by
    by_cases hc : w.seat.cursor = some i
    · exact h.shown i x hc hx
    · simp [h.others trivial i x hx hc, hr]

theorem Settled.intact (h : w.Settled kept) (hw : Intact Surface.face w w') : w'.Settled kept := by
  have old {i : ℕ} {x' : Surface} (hx : w'.surfaces i = some x') :
      ∃ x, w.surfaces i = some x ∧ x.role = x'.role ∧ x.isActive = x'.isActive := by
    obtain ⟨x, h1, h2⟩ := Arena.of_mapAll hw.surfaces hx
    simp only [Surface.face, Prod.mk.injEq] at h2
    exact ⟨x, h1, h2⟩
  refine ⟨fun i hi => ?_, fun i hi => ?_, fun i x' hi hx => ?_, fun hk i x' hi hx => ?_,
    fun hk i x' hx hi => ?_⟩
  · exact Nat.lt_of_lt_of_le (h.issued i (hw.cursor ▸ hi)) hw.nextId
  · rw [Arena.isSome_of_mapAll hw.surfaces] at hi
    exact Nat.lt_of_lt_of_le (h.live i hi) hw.nextId
  · obtain ⟨x, h1, -, h3⟩ := old hx
    exact h3 ▸ h.shown i x (hw.cursor ▸ hi) h1
  · obtain ⟨x, h1, h2, -⟩ := old hx
    exact h2 ▸ h.cursor hk i x (hw.cursor ▸ hi) h1
  · obtain ⟨x, h1, h2, h3⟩ := old hx
    rw [← h2, ← h3]
    exact h.others hk i x h1 (hw.cursor ▸ hi)

/-- A surface becomes the cursor when none is. -/
theorem takeCursor_settled (h : w.Settled kept) (hn : w.surfaces.lock w.seat.cursor = none)
    (surface : Option ℕ) : (w.takeCursor surface).Settled kept := by
  unfold takeCursor
  split
  · exact h
  · next i hi =>
    obtain ⟨j, -, hj⟩ := Option.bind_eq_some_iff.mp hi
    have hlive : (w.surfaces i).isSome := by
      rcases getSurfaceFromResource_eq w j with h1 | ⟨h1, -, h2⟩
      · simp [h1] at hj
      · simp only [h1, Option.some.injEq] at hj
        exact hj ▸ h2
    have h1 : Settled kept ({ w with seat.cursor := some i }.modifySurface i fun x =>
        (x.setRole .cursor none).setActive true) := by
      refine ⟨fun k hk => ?_, fun k hk => ?_, fun k x hk hx => ?_, fun _ k x hk hx => ?_,
        fun hkept k x hx hk => ?_⟩
      · cases hk
        exact h.live i hlive
      · exact h.live k (by simpa [modifySurface] using hk)
      · cases hk
        simp only [modifySurface, Arena.modify_self, Option.map_eq_some_iff] at hx
        obtain ⟨x, -, rfl⟩ := hx
        rfl
      · cases hk
        simp only [modifySurface, Arena.modify_self, Option.map_eq_some_iff] at hx
        obtain ⟨x, -, rfl⟩ := hx
        rfl
      · have hki : k ≠ i := fun hki => hk (hki ▸ rfl)
        simp only [modifySurface, Arena.modify_of_ne _ _ hki] at hx
        refine h.others hkept k x hx fun hc => ?_
        simp [Arena.none_of_lock hn hc] at hx
    exact h1.intact
      ((moveCursor_minors (k := false) (t := false) _).intact Surface.inert_face.steady)

/-- The cursor is hidden and forgotten. -/
theorem Settled.hide (h : w.Settled kept) {i : ℕ} (hi : w.seat.cursor = some i) (hotspot : ℤ × ℤ) :
    Settled kept ({ w with seat.hotspot := hotspot, seat.cursor := none }.modifySurface i fun x =>
      x.setActive false) := by
  refine ⟨fun k hk => ?_, fun k hk => ?_, fun k x hk hx => ?_, fun _ k x hk hx => ?_,
    fun hkept k x hx hk => ?_⟩
  · cases hk
  · exact h.live k (by simpa [modifySurface] using hk)
  · cases hk
  · cases hk
  · by_cases hki : k = i
    · subst hki
      simp only [modifySurface, Arena.modify_self, Option.map_eq_some_iff] at hx
      obtain ⟨x, hx, rfl⟩ := hx
      have h1 := h.cursor hkept k x hi hx
      simp [Surface.setActive, Surface.syncGeom, Surface.tell, h1]
    · simp only [modifySurface, Arena.modify_of_ne _ _ hki] at hx
      exact h.others hkept k x hx fun hc => hki (Option.some.inj (hc.symm.trans hi))

/-- The old cursor is hidden, unless it is the new one. -/
theorem setSurfaceAsCursor_settled (h : w.Settled kept) (surface : Option ℕ) (hotspot : ℤ × ℤ) :
    (w.setSurfaceAsCursor surface hotspot).Settled kept := by
  unfold setSurfaceAsCursor
  split
  · next hn =>
    exact takeCursor_settled (w := { w with seat.hotspot := hotspot })
      (h.intact ⟨rfl, rfl, Nat.le_refl _⟩) hn surface
  · next i hi =>
    split
    · exact h.intact ⟨rfl, rfl, Nat.le_refl _⟩
    · exact takeCursor_settled (h.hide (Arena.lock_eq_some.mp hi).1 hotspot) rfl surface

theorem Recast.settled (h : Recast w w') (hw : w.Settled kept) : w'.Settled kept := by
  cases h with
  | minor h => exact hw.intact (h.intact Surface.inert_face.steady)
  | cursor surface hotspot => exact setSurfaceAsCursor_settled hw surface hotspot

theorem Recasts.settled (h : Recasts w w') (hw : w.Settled kept) : w'.Settled kept :=
  Path.preserves (fun _ _ h => h.settled) h hw

theorem moveRelPointing_settled (h : w.Settled kept) (polar azimuthal : ℚ) (hits : Hits) :
    (w.moveRelPointing polar azimuthal hits).Settled kept := by
  have follow {u : World} (hu : u.Settled kept) : (u.andThen moveCursor).Settled kept := by
    unfold World.andThen
    split
    · exact hu
    · exact hu.intact
        ((moveCursor_minors (k := false) (t := false) _).intact Surface.inert_face.steady)
  have h1 : (w.moveRay polar azimuthal).Settled kept := h.intact ⟨rfl, rfl, Nat.le_refl _⟩
  unfold moveRelPointing
  apply follow
  split
  · exact (checkIntersection_recasts _ hits).settled h1
  · unfold dragFocused
    split
    · exact h1
    · next o _ =>
      cases o with
      | surface i => exact h1.intact (modifySurface_intact _ i fun _ => rfl)
      | app b => exact h1.intact ⟨rfl, rfl, Nat.le_refl _⟩

/-- A new surface is shown. -/
theorem createSurface_settled (h : w.Settled kept) (client : ℕ) (texSize : ℕ × ℕ) :
    (w.createSurface client texSize).Settled kept := by
  have hface : (w.newSurface texSize).face = (.default, true) := by
    unfold newSurface
    split
    · rfl
    · exact Surface.inert_face.initRenderer _ _
  have hnew : Settled kept { w.newResource client .surface with
      surfaces := w.surfaces.set w.nextId (w.newSurface texSize)
      surfaceList := w.nextId :: w.surfaceList } := by
    have ne {i : ℕ} (hi : w.seat.cursor = some i) : i ≠ w.nextId := Nat.ne_of_lt (h.issued i hi)
    refine ⟨fun i hi => Nat.lt_succ_of_lt (h.issued i hi), fun i hi => ?_, fun i x hi hx => ?_,
      fun hk i x hi hx => ?_, fun hk i x hx hi => ?_⟩
    · by_cases hin : i = w.nextId
      · subst hin
        exact Nat.lt_succ_self _
      · exact Nat.lt_succ_of_lt (h.live i (by simpa [hin] using hi))
    · exact h.shown i x hi (by simpa [ne hi] using hx)
    · exact h.cursor hk i x hi (by simpa [ne hi] using hx)
    · by_cases hin : i = w.nextId
      · subst hin
        simp only [Arena.set_self, Option.some.injEq] at hx
        subst hx
        simp only [Surface.face, Prod.mk.injEq] at hface
        simp [hface]
      · exact h.others hk i x (by simpa [hin] using hx) hi
  exact hnew.intact (reorderSurfaces_intact Surface.inert_face.steady _)

/-- The surface that becomes a toplevel is shown already. -/
theorem createToplevel_settled (h : w.Settled kept) {client j : ℕ} (hj : kept → ∀ y x,
      w.xdgSurfaces j = some y → w.surfaces y.wlSurface = some x → x.role ≠ .cursor) :
    (w.createToplevel client j).Settled kept := by
  unfold createToplevel
  split
  · exact h.intact ⟨rfl, rfl, Nat.le_refl _⟩
  · next y hy =>
    have old {i : ℕ} {x : Surface} (hx : w.surfaces.modify y.wlSurface
        (fun s => s.setRole .xdgToplevel w.nextId) i = some x) : ∃ x', w.surfaces i = some x' ∧
          x.isActive = x'.isActive ∧ (i ≠ y.wlSurface → x.role = x'.role) ∧
          (i = y.wlSurface → x.role = .xdgToplevel) := by
      by_cases hiy : i = y.wlSurface
      · subst hiy
        simp only [Arena.modify_self, Option.map_eq_some_iff] at hx
        obtain ⟨x', hx, rfl⟩ := hx
        exact ⟨x', hx, rfl, fun h => absurd rfl h, fun _ => rfl⟩
      · simp only [Arena.modify_of_ne _ _ hiy] at hx
        exact ⟨x, hx, rfl, fun _ => rfl, fun h => absurd h hiy⟩
    refine ⟨fun i hi => Nat.lt_succ_of_lt (h.issued i hi), fun i hi => ?_, fun i x hi hx => ?_,
      fun hk i x hi hx => ?_, fun hk i x hx hi => ?_⟩
    · exact Nat.lt_succ_of_lt (h.live i (by simpa using hi))
    · obtain ⟨x', hx', h1, -, -⟩ := old hx
      exact h1 ▸ h.shown i x' hi hx'
    · obtain ⟨x', hx', -, h2, -⟩ := old hx
      have h3 := h.cursor hk i x' hi hx'
      rw [h2 fun hiy => hj hk y x' hy (hiy ▸ hx') h3, h3]
    · obtain ⟨x', hx', h1, h2, h3⟩ := old hx
      have h4 := h.others hk i x' hx' hi
      by_cases hiy : i = y.wlSurface
      · simp [h1, h3 hiy, h4, hj hk y x' hy (hiy ▸ hx')]
      · rw [h1, h2 hiy, h4]

theorem destroyResource_settled (h : w.Settled kept) (i : ℕ) :
    (w.destroyResource i).Settled kept := by
  unfold destroyResource
  split
  · exact h
  · next r _ =>
    cases r.interface with
    | surface =>
      have old {j : ℕ} {x : Surface} (hx : w.surfaces.erase i j = some x) :
          w.surfaces j = some x := by
        by_cases hj : j = i
        · simp [hj] at hx
        · simpa [hj] using hx
      refine ⟨h.issued, fun j hj => ?_, fun j x hj hx => h.shown j x hj (old hx),
        fun hk j x hj hx => h.cursor hk j x hj (old hx), fun hk j x hx => h.others hk j x (old hx)⟩
      obtain ⟨x, hx⟩ := Option.isSome_iff_exists.mp hj
      exact h.live j (by simp [old hx])
    | _ => exact h.intact ⟨rfl, rfl, Nat.le_refl _⟩

theorem step_settled (h : w.Settled kept) {a : Action} (ha : kept → KeepsCursors w a) :
    (w.step a).Settled kept := by
  unfold step
  split
  · exact h
  · next hs =>
    have hs : w.stopped = false := by simpa using hs
    cases a with
    | desk client r =>
      simp only [act]
      split
      · next hr =>
        cases r with
        | createSurface texSize => exact createSurface_settled h client texSize
        | getToplevel j => exact createToplevel_settled h fun hk => ha hk hs hr
        | setCursor p s hotspot => exact setSurfaceAsCursor_settled h s hotspot
        | _ => exact h.intact (handle_intact Surface.inert_face w client rfl)
      · exact h
    | destroy client i =>
      simp only [act]
      split
      · exact destroyResource_settled h i
      · exact h
    | mouseMove polar azimuthal hits => exact moveRelPointing_settled h polar azimuthal hits
    | mouseButton button isPressed hits =>
      exact (handleMouseButton_recasts w button isPressed hits).settled h
    | _ => exact h.intact (act_intact Surface.inert_face.steady w rfl)

/-- A cursor that becomes a toplevel is either the cursor still, or hidden. -/
theorem keepsCursors_of_cast (h : w.Settled True) {a : Action} (hc : (w.step a).Cast) :
    KeepsCursors w a := by
  cases a with
  | desk client r =>
    cases r with
    | getToplevel j =>
      intro hs hr y x hy hx hrole
      have hstep : w.step (.desk client (.getToplevel j)) = w.createToplevel client j := by
        rw [step_of_running hs, act_desk hr]
        rfl
      rw [hstep, createToplevel, hy] at hc
      have hx' : w.surfaces.modify y.wlSurface (fun s => s.setRole .xdgToplevel w.nextId)
          y.wlSurface = some (x.setRole .xdgToplevel w.nextId) := by simp [hx]
      by_cases hcur : w.seat.cursor = some y.wlSurface
      · cases (hc.cursor _ _ hcur hx').1
      · have h1 : (x.setRole .xdgToplevel w.nextId).isActive = true :=
          hc.toplevels _ _ hx' rfl
        exact (h.others trivial _ x hx hcur).mp h1 hrole
    | _ => trivial
  | _ => trivial

end Steps

theorem init_settled (kept : Prop) : World.init.Settled kept where
  issued := fun _ hi => by cases hi
  live := fun _ hi => by cases hi
  shown := fun _ _ hi => by cases hi
  cursor := fun _ _ _ hi => by cases hi
  others := fun _ _ _ hx => by cases hx

/-- Whatever roles are given, a live cursor is shown. -/
theorem run_settled (as : List Action) : (run as).Settled False :=
  Run.final_induction (init_settled False) (fun _ _ h => step_settled h False.elim) as

/-- Cursors, roles and what is shown agree throughout a run exactly when no cursor is made a
toplevel in it. -/
theorem cursors_throughout_iff (as : List Action) :
    Run.Always World.step Cast World.init as ↔ Run.Each World.step KeepsCursors World.init as :=
  Run.always_iff_each_of (init_settled True) (fun _ h => h.cast)
    (fun _ _ h ha => step_settled h fun _ => ha)
    (fun _ _ h hc => keepsCursors_of_cast h hc) as

/-- A client sets a surface as the cursor, and makes it a toplevel. -/
def cursorToplevel : List Action :=
  [.desk 0 .bindSeat, .desk 0 (.getPointer 0), .desk 0 (.createSurface (0, 0)),
    .desk 0 (.setCursor 1 (some 2) (0, 0)), .desk 0 (.getXdgSurface 2), .desk 0 (.getToplevel 3)]

/-- The cursor has the role of a toplevel; once it is replaced, the toplevel is hidden for good. -/
theorem cursorToplevel_not_cast : ¬ (World.run cursorToplevel).Cast ∧
    (World.run cursorToplevel).seat.cursor = some 2 ∧
    ((World.run cursorToplevel).surfaces 2).map Surface.face = some (.xdgToplevel, true) ∧
    ((World.run (cursorToplevel ++ [.desk 0 (.setCursor 1 none (0, 0))])).surfaces 2).map
      Surface.face = some (.xdgToplevel, false) := by
  have h1 : (World.run cursorToplevel).seat.cursor = some 2 := by decide +kernel
  have h2 : ((World.run cursorToplevel).surfaces 2).map Surface.face =
      some (.xdgToplevel, true) := by decide +kernel
  refine ⟨fun h => ?_, h1, h2, by decide +kernel⟩
  obtain ⟨x, hx, hf⟩ := Option.map_eq_some_iff.mp h2
  have h3 := (h.cursor 2 x h1 hx).1
  simp [Surface.face, h3] at hf

end World
end Yaza
