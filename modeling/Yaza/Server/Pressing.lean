import Yaza.Server.Focusing
import Yaza.Server.Keyboard
import Yaza.Server.Layers
import Yaza.Server.Roles

/-! A press on a toplevel: when it has the keyboard afterwards and is in front of the others. -/
namespace Yaza
namespace World

/-- A surface with the role of a toplevel has a role object. -/
def Roled (w : World) : Prop :=
  ∀ i x, w.surfaces i = some x → x.role = .xdgToplevel → x.roleObj.isSome

section Roled
variable {w w' : World}

theorem Roled.of_parts (h : w.Roled) (hs : w'.surfaces.mapAll (fun x => (x.role, x.roleObj)) =
    w.surfaces.mapAll fun x => (x.role, x.roleObj)) : w'.Roled := by
  intro i x' hx' hr
  obtain ⟨x, hx, he⟩ := Arena.of_mapAll hs hx'
  simp only [Prod.mk.injEq] at he
  exact he.2 ▸ h i x hx (he.1.trans hr)

theorem Roled.of_shape (h : w.Roled)
    (hs : w'.surfaces.mapAll Surface.shape = w.surfaces.mapAll Surface.shape) : w'.Roled := by
  apply h.of_parts
  have h1 := congrArg (fun S => Arena.mapAll S fun c => (c.2.2.1, c.2.2.2.1)) hs
  simp only [Arena.mapAll_mapAll] at h1
  exact h1

theorem Roled.modify (h : w.Roled) (i : ℕ) {f : Surface → Surface}
    (hf : ∀ x, (f x).role = .xdgToplevel → (f x).roleObj.isSome) :
    (w.modifySurface i f).Roled := by
  intro j x hx hr
  simp only [modifySurface, Arena.modify_apply] at hx
  split at hx
  · obtain ⟨y, -, rfl⟩ := Option.map_eq_some_iff.mp hx
    exact hf y hr
  · exact h j x hx hr

theorem Change.roled {k : Bool} (h : Change k w w') (hw : w.Roled) : w'.Roled := by
  cases h with
  | other hd => exact hw.of_shape (shape_of_desk hd)
  | focus _ hd => exact hw.of_shape (shape_of_desk hd)
  | expire => exact hw
  | raise i =>
    obtain ⟨l, S, h1, h2⟩ := raiseSurfaceTop_eq w i
    rw [h1]
    exact hw.of_shape h2
  | offer d s => rcases createOffer_cases w d s with h1 | ⟨r, x, -, -, h1⟩ <;> rw [h1] <;> exact hw
  | cursor i => exact hw.modify i fun x hr => by cases hr

theorem directly_roled (hw : w.Roled) (a : Action) : (w.directly a).Roled := by
  cases a with
  | desk client r =>
    simp only [directly]
    split
    · cases r with
      | createSurface texSize =>
        obtain ⟨l, S, h1, h2⟩ := w.createSurface_eq client texSize
        simp only [direct, handle, h1]
        intro i x' hx' hr
        have h3 := congrFun h2 i
        have hx : S i = some x' := hx'
        simp only [Arena.mapAll_apply, hx, Option.map_some, Arena.set_apply] at h3
        split at h3
        · simp only [Option.some.injEq, Surface.shape, Prod.mk.injEq] at h3
          rw [h3.2.2.1] at hr
          cases hr
        · obtain ⟨x, hx, he⟩ := Option.map_eq_some_iff.mp h3.symm
          simp only [Surface.shape, Prod.mk.injEq] at he
          exact he.2.2.2.1 ▸ hw i x hx (he.2.2.1.trans hr)
      | attach s b d => exact hw.of_parts (Arena.mapAll_modify fun _ => rfl)
      | commit s =>
        have h1 := commitSurface_mapAll Surface.commitOffset_fixed Surface.commitBuffer_fixed
          Surface.commitFrames_fixed w s
        have h2 := congrArg (fun S => Arena.mapAll S fun c => (c.1, c.2.1)) h1
        simp only [Arena.mapAll_mapAll] at h2
        exact hw.of_parts h2
      | getToplevel x =>
        simp only [direct, handle, createToplevel]
        split
        · exact hw
        · next y _ => exact hw.modify y.wlSurface fun _ _ => rfl
      | setSelection d source =>
        simp only [direct, handle, setSelection]
        split <;> exact hw
      | _ => exact hw
    · exact hw
  | destroy client i =>
    simp only [directly, destroyResource]
    split
    · split
      · exact hw
      · next r _ =>
        cases r.interface with
        | surface =>
          intro j x hx hr
          simp only [deleteObject, Arena.erase_apply] at hx
          split at hx
          · cases hx
          · exact hw j x hx hr
        | _ => exact hw
    · exact hw
  | _ => exact hw

theorem run_roled (as : List Action) : (run as).Roled :=
  Run.final_induction (fun _ _ hx => by cases hx)
    (fun _ a hw => step_keeps (fun _ _ hc hw => hc.roled hw) (directly_roled hw a) hw) as

end Roled

/-- The surfaces and their order. -/
def stack (w : World) := (w.surfaces, w.surfaceList)

section Stack
variable {w : World}

theorem withSeatOf_stack (w : World) (o : BoundedObject) {k : World → ClientSeat → World}
    (hk : ∀ w x, (k w x).stack = w.stack) : (w.withSeatOf o k).stack = w.stack := by
  unfold withSeatOf withClientSeat
  repeat' split
  any_goals rfl
  exact hk _ _

theorem andThen_stack {f : World → World} (hf : ∀ w, (f w).stack = w.stack) :
    (w.andThen f).stack = w.stack := by
  unfold World.andThen
  split
  · rfl
  · exact hf w

theorem point_stack (w : World) (o : BoundedObject) (c : ObjectCall) :
    (w.point o c).stack = w.stack := by
  unfold point
  exact withSeatOf_stack { w with calls := w.calls ++ [(o, c)] } o fun w x => by split <;> rfl

theorem setActivated_stack (w : World) (t : ℕ) (activated : Bool) :
    (w.setActivated t activated).stack = w.stack := by
  unfold setActivated
  repeat' split
  all_goals rfl

theorem tryLeaveKeyboard_stack (w : World) : w.tryLeaveKeyboard.stack = w.stack := by
  unfold tryLeaveKeyboard
  split
  · rfl
  · next i _ =>
    have h1 : (w.onUnfocus i).stack = w.stack := by
      unfold onUnfocus
      split
      · rfl
      · exact setActivated_stack w _ _
    have h2 (u : World) : ((u.withSeatOf (.surface i) fun w x =>
        w.emit (.keyboardLeave x.keyboards i)).andThen fun w =>
          { w with seat.keyboardFocusedSurface := none }).stack = u.stack := by
      refine Eq.trans (andThen_stack ?_) (withSeatOf_stack u _ ?_)
      · intro w
        rfl
      · intro w x
        rfl
    exact (andThen_stack h2).trans h1

theorem sendSelections_stack (w : World) (devices : List ℕ) :
    (w.sendSelections devices).stack = w.stack := by
  have h (w : World) (d : ℕ) : (w.sendSelection d).stack = w.stack := by
    unfold sendSelection createOffer
    repeat' split
    all_goals rfl
  unfold sendSelections
  induction devices generalizing w with
  | nil => rfl
  | cons d l ih => rw [List.foldl_cons, ih, andThen_stack fun w => h w d]

theorem enterKeyboard_stack (w : World) (i : ℕ) : (w.enterKeyboard i).stack = w.stack :=
  withSeatOf_stack w _ fun w _ => sendSelections_stack (w.emit _) _

/-- A surface that gets the keyboard, and has a role object, is raised. -/
theorem setKeyboardFocusedSurface_raises {i t : ℕ}
    (hn : w.surfaces.lock w.seat.keyboardFocusedSurface ≠ some i)
    (ht : (w.surfaces i).bind Surface.roleObj = some t)
    (hr : (w.setKeyboardFocusedSurface i).stopped = false) :
    (w.setKeyboardFocusedSurface i).stack = (w.tryLeaveKeyboard.raiseSurfaceTop i).stack ∧
      (w.setKeyboardFocusedSurface i).seat.keyboardFocusedSurface = some i := by
  rw [setKeyboardFocusedSurface, if_neg hn] at hr ⊢
  have ht' : (w.tryLeaveKeyboard.surfaces i).bind Surface.roleObj = some t := by
    have hs : w.tryLeaveKeyboard.surfaces = w.surfaces := congrArg Prod.fst w.tryLeaveKeyboard_stack
    rw [hs]
    exact ht
  have h1 := andThen_of_running hr
  rw [h1] at hr ⊢
  have h2 := andThen_of_running hr
  rw [h2] at hr ⊢
  have h3 := andThen_of_running hr
  rw [h3]
  refine ⟨(enterKeyboard_stack _ i).trans ?_, rfl⟩
  rw [onFocus, ht']
  exact setActivated_stack _ t true

/-- A surface that is raised comes before the other live ones. -/
theorem raised_first {K : ℕ → Prop} (h : w.Sorted K) {i : ℕ} (hi : w.layered i = true) :
    (w.raiseSurfaceTop i).surfaceList.head? = some i ∧
      ∀ j, j ≠ i → w.layered j = true →
        (w.raiseSurfaceTop i).distanceOf i < (w.raiseSurfaceTop i).distanceOf j := by
  have live {j : ℕ} (hj : w.layered j = true) : (w.surfaces j).isSome := by
    unfold layered at hj
    exact Option.isSome_of_any hj
  have hl := h.surfaceList_raiseSurfaceTop (live hi)
  refine ⟨by rw [hl]; rfl, fun j hji hj => ?_⟩
  have h1 : w.raiseSurfaceTop i = (w.toFront i).reorderSurfaces := by
    unfold World.raiseSurfaceTop
    rw [h.getSurfaceFromResource (live hi)]
    rfl
  have h2 := reorderSurfaces_pairwise (w := w.toFront i) (Stack.raise_nodup h.nodup)
  rw [← h1, hl] at h2
  refine List.rel_of_pairwise_cons h2 ?_ hi hj
  exact (List.mem_erase_of_ne hji).mpr (List.mem_filter.mpr ⟨h.mem j (live hj), live hj⟩)

end Stack

/-- The toplevel that a press is delivered to. -/
def pressedToplevel (w : World) : Action → Option ℕ
  | .mouseButton _ true _ =>
    match w.lock w.seat.focusedObj with
    | some (.surface i) =>
        if (w.surfaces i).any fun x => x.role = .xdgToplevel then some i else none
    | _ => none
  | _ => none

/-- Every client with a live object owns a live `ClientSeat`. -/
def AllSeated (w : World) : Prop := ∀ o, w.alive o → (w.seatOf o).isSome

/-- The surface is nearer than the others that are alive, up to those in `K`. -/
def Nearest (K : ℕ → Prop) (w : World) (i : ℕ) : Prop :=
  ∀ j, j ≠ i → (w.surfaces j).isSome → ¬ K j → w.distanceOf i < w.distanceOf j

/-- The surface has the keyboard, is the first one, and the nearest. -/
structure OnTop (K : ℕ → Prop) (w : World) (i : ℕ) : Prop where
  focused : w.surfaces.lock w.seat.keyboardFocusedSurface = some i
  first : w.surfaceList.head? = some i
  nearest : w.Nearest K i

section Press
variable {K : ℕ → Prop} {w : World} {i : ℕ} {button : UInt32} {hits : Hits}

theorem pressedToplevel_eq_some {a : Action} (h : w.pressedToplevel a = some i) :
    ∃ button hits x, a = .mouseButton button true hits ∧
      w.lock w.seat.focusedObj = some (.surface i) ∧ w.surfaces i = some x ∧
        x.role = .xdgToplevel := by
  cases a with
  | mouseButton button isPressed hits =>
    cases isPressed with
    | false => cases h
    | true =>
      simp only [pressedToplevel] at h
      cases hl : w.lock w.seat.focusedObj with
      | none => simp [hl] at h
      | some o =>
        cases o with
        | app b => simp [hl] at h
        | surface j =>
          simp only [hl] at h
          split at h
          · next hj =>
            cases h
            cases hx : w.surfaces i with
            | none => simp [hx] at hj
            | some x => exact ⟨button, hits, x, rfl, rfl, rfl, by simpa [hx] using hj⟩
          · cases h
  | _ => cases h

/-- What is on top stays there as long as the stack and the focus stay. -/
theorem onTop_congr {w' : World} (hs : w'.stack = w.stack)
    (hk : w'.seat.keyboardFocusedSurface = w.seat.keyboardFocusedSurface) :
    w'.OnTop K i ↔ w.OnTop K i := by
  simp only [stack, Prod.mk.injEq] at hs
  constructor
  · intro h
    exact ⟨hs.1 ▸ hk ▸ h.focused, hs.2 ▸ h.first,
      by simpa [Nearest, distanceOf, hs.1] using h.nearest⟩
  · intro h
    exact ⟨by rw [hs.1, hk]; exact h.focused, by rw [hs.2]; exact h.first,
      by simpa [Nearest, distanceOf, hs.1] using h.nearest⟩

/-- A toplevel that gets the keyboard comes on top. -/
theorem setKeyboardFocusedSurface_onTop (hw : w.Sorted K) (hr : w.Roled) {x : Surface}
    (hx : w.surfaces i = some x) (ht : x.role = .xdgToplevel)
    (hn : w.surfaces.lock w.seat.keyboardFocusedSurface ≠ some i)
    (hs : (w.setKeyboardFocusedSurface i).stopped = false)
    (hK : ∀ j y, w.surfaces j = some y → y.role = .cursor → K j) :
    (w.setKeyboardFocusedSurface i).OnTop K i := by
  obtain ⟨t, ht'⟩ := Option.isSome_iff_exists.mp (hr i x hx ht)
  obtain ⟨h1, h2⟩ := setKeyboardFocusedSurface_raises (t := t) hn (by rw [hx]; exact ht') hs
  have hu : w.tryLeaveKeyboard.surfaces = w.surfaces := congrArg Prod.fst w.tryLeaveKeyboard_stack
  have hsorted : w.tryLeaveKeyboard.Sorted K :=
    (tryLeaveKeyboard_effects (t := true) w).changes.sorted hw
  have hi : w.tryLeaveKeyboard.layered i = true := by simp [layered, hu, hx, ht]
  obtain ⟨h3, h4⟩ := raised_first hsorted hi
  simp only [stack, Prod.mk.injEq] at h1
  have live (j : ℕ) : ((w.setKeyboardFocusedSurface i).surfaces j).isSome =
      (w.surfaces j).isSome := by
    rw [h1.1, ← hu]
    obtain ⟨l, S, h5, h6⟩ := raiseSurfaceTop_eq w.tryLeaveKeyboard i
    rw [h5]
    exact Arena.isSome_of_mapAll h6 j
  refine ⟨?_, ?_, fun j hji hj hKj => ?_⟩
  · apply Arena.lock_eq_some.mpr
    exact ⟨h2, by rw [live, hx]; rfl⟩
  · rw [h1.2]
    exact h3
  · obtain ⟨y, hy⟩ := Option.isSome_iff_exists.mp (live j ▸ hj)
    have hj' : w.tryLeaveKeyboard.layered j = true := by
      simp only [layered, hu, hy, Option.any_some, decide_eq_true_eq]
      exact fun hc => hKj (hK j y hy hc)
    simpa [distanceOf, h1.1] using h4 j hji hj'

theorem point_focus (w : World) (o : BoundedObject) (c : ObjectCall) :
    (w.point o c).seat.keyboardFocusedSurface = w.seat.keyboardFocusedSurface :=
  (focus_of_keyboard
    (point_effects (k := false) (t := true) w o c).changes.unkeyed.keyboard).2

theorem point_onTop {o : BoundedObject} {c : ObjectCall} :
    (w.point o c).OnTop K i ↔ w.OnTop K i := onTop_congr (point_stack w o c) (point_focus w o c)

/-- The surface that a press is delivered to is found, and gets the keyboard. -/
theorem press_eq (hw : w.Sorted K) (hl : w.lock w.seat.focusedObj = some (.surface i)) :
    w.handleMouseButton button true hits =
      ((w.point (.surface i) (.button button true)).andThen fun w =>
        w.setKeyboardFocusedSurface i).andThen fun w => w.point (.surface i) .frame := by
  have hi : ((w.point (.surface i) (.button button true)).surfaces i).isSome := by
    have h1 := congrArg Prod.fst (point_stack w (.surface i) (.button button true))
    simp only [stack] at h1
    rw [h1]
    exact (lock_eq_some.mp hl).2
  have h1 : (w.point (.surface i) (.button button true)).Sorted K :=
    (point_effects (k := true) (t := true) w _ _).changes.sorted hw
  have h2 : (w.point (.surface i) (.button button true)).pressed (.surface i) true =
      (w.point (.surface i) (.button button true)).setKeyboardFocusedSurface i := by
    rw [pressed, h1.getSurfaceFromResource hi]
    rfl
  rw [handleMouseButton, if_neg (by simp), hl]
  simp only [World.button, World.andThen, h2]

/-- A toplevel that gets the keyboard by a press comes on top. -/
theorem press_onTop (hw : w.Sorted K) (hr : w.Roled)
    (hl : w.lock w.seat.focusedObj = some (.surface i)) {x : Surface} (hx : w.surfaces i = some x)
    (ht : x.role = .xdgToplevel)
    (hn : w.surfaces.lock w.seat.keyboardFocusedSurface ≠ some i)
    (hs : (w.handleMouseButton button true hits).stopped = false)
    (hK : ∀ j y, w.surfaces j = some y → y.role = .cursor → K j) :
    (w.handleMouseButton button true hits).OnTop K i := by
  have hst := congrArg Prod.fst (point_stack w (.surface i) (.button button true))
  have hc := point_effects (k := true) (t := true) w (.surface i) (.button button true)
  simp only [stack] at hst
  rw [press_eq hw hl] at hs ⊢
  have hs1 := (andThen_running_iff.mp hs).1
  rw [andThen_of_running hs, point_onTop]
  have h2 := andThen_of_running hs1
  rw [h2] at hs1 ⊢
  refine setKeyboardFocusedSurface_onTop (hc.changes.sorted hw) ?_ (hst ▸ hx) ht ?_ hs1 ?_
  · exact fun j y hy => hr j y (hst ▸ hy)
  · rwa [hst, point_focus]
  · exact fun j y hy => hK j y (hst ▸ hy)

/-- A press on a toplevel that has the keyboard changes neither the stack nor the focus. -/
theorem press_held (button : UInt32) (hits : Hits) (hw : w.Sorted K) (hf : w.Fresh)
    (hs : w.stopped = false) (hd : w.AllSeated)
    (hl : w.lock w.seat.focusedObj = some (.surface i))
    (hh : w.surfaces.lock w.seat.keyboardFocusedSurface = some i) :
    (w.handleMouseButton button true hits).stopped = false ∧
      (w.handleMouseButton button true hits).stack = w.stack ∧
      (w.handleMouseButton button true hits).seat.keyboardFocusedSurface =
        w.seat.keyboardFocusedSurface := by
  obtain ⟨x, hx⟩ := Option.isSome_iff_exists.mp (hd _ (lock_eq_some.mp hl).2)
  have hb : w.Backed (.surface i) := by
    rintro j hj
    cases hj
    obtain ⟨c, hc, -⟩ := Option.bind_eq_some_iff.mp hx
    simp only [clientOf, Option.map_eq_some_iff] at hc
    obtain ⟨r, hr, -⟩ := hc
    rw [hr]
    rfl
  have takes (c : ObjectCall) : w.Takes (.surface i) c := ⟨x, hx, .inr (by cases c <;> rfl)⟩
  have h1 := point_makes (takes (.button button true))
  have hs1 : (w.point (.surface i) (.button button true)).stopped = false :=
    (point_running_iff hs).mpr (takes _)
  have hs2 : ((w.point (.surface i) (.button button true)).point (.surface i) .frame).stopped =
      false := (point_running_iff hs1).mpr ((h1.takes hf hb).mpr (takes .frame))
  have hst := congrArg Prod.fst (point_stack w (.surface i) (.button button true))
  simp only [stack] at hst
  have h2 : w.handleMouseButton button true hits =
      (w.point (.surface i) (.button button true)).point (.surface i) .frame := by
    rw [press_eq hw hl]
    simp only [World.andThen, hs1, Bool.false_eq_true, if_false, setKeyboardFocusedSurface, hst,
      point_focus, hh, if_true]
  rw [h2]
  exact ⟨hs2, (point_stack ..).trans (point_stack ..), (point_focus ..).trans (point_focus ..)⟩

end Press

/-- A press that is delivered to a toplevel leaves it on top. -/
def Raises (as : List Action) (a : Action) : Prop :=
  ∀ i, (run as).stopped = false → (run as).AllSeated → (run as).pressedToplevel a = some i →
    (run (as ++ [a])).stopped = false →
      (run (as ++ [a])).OnTop (HadCursor (as ++ [a])) i

/-- A toplevel that has the keyboard when it is pressed is the first surface, and the nearest if
it has ever been a cursor. -/
def KeepsTop (as : List Action) (a : Action) : Prop :=
  ∀ i, (run as).stopped = false → (run as).AllSeated → (run as).pressedToplevel a = some i →
    (run as).surfaces.lock (run as).seat.keyboardFocusedSurface = some i →
      (run as).surfaceList.head? = some i ∧
        (HadCursor as i → (run as).Nearest (HadCursor as) i)

/-- The first surface is the nearest unless it has been a cursor. -/
theorem Sorted.nearest {K : ℕ → Prop} {w : World} (h : w.Sorted K) {i : ℕ}
    (hf : w.surfaceList.head? = some i) (hi : w.layered i = true) (hK : ¬ K i)
    (hc : ∀ j y, w.surfaces j = some y → y.role = .cursor → K j) : w.Nearest K i := by
  intro j hji hj hKj
  obtain ⟨y, hy⟩ := Option.isSome_iff_exists.mp hj
  have hlj : w.layered j = true := by
    simp only [layered, hy, Option.any_some, decide_eq_true_eq]
    exact fun hr => hKj (hc j y hy hr)
  obtain ⟨l, hl⟩ := List.head?_eq_some_iff.mp hf
  have h1 := h.spaced
  have h2 := h.mem j hj
  rw [hl] at h1 h2
  exact List.rel_of_pairwise_cons h1 (List.mem_of_ne_of_mem hji h2) ⟨hK, hi⟩ ⟨hKj, hlj⟩

theorem hadCursor_concat_iff {as : List Action} {a : Action}
    (hs : (run (as ++ [a])).surfaces = (run as).surfaces) (i : ℕ) :
    HadCursor (as ++ [a]) i ↔ HadCursor as i := by
  refine ⟨fun ⟨pre, hp, x, hx, hr⟩ => ?_, fun h => h.concat a⟩
  rcases List.prefix_concat_iff.mp hp with rfl | hp
  · exact ⟨as, List.prefix_rfl, x, hs ▸ hx, hr⟩
  · exact ⟨pre, hp, x, hx, hr⟩

theorem raises_iff (as : List Action) (a : Action) : Raises as a ↔ KeepsTop as a := by
  unfold Raises KeepsTop
  refine forall_congr' fun i => forall_congr' fun hs => forall_congr' fun hd =>
    forall_congr' fun hp => ?_
  obtain ⟨button, hits, x, rfl, hl, hx, hr⟩ := pressedToplevel_eq_some hp
  have hstep : run (as ++ [.mouseButton button true hits]) =
      (run as).handleMouseButton button true hits := by
    rw [run, Run.final_concat]
    exact step_of_running hs _
  have hc (j : ℕ) (y : Surface) (hy : (run as).surfaces j = some y) (hr : y.role = .cursor) :
      HadCursor as j := ⟨as, List.prefix_rfl, y, hy, hr⟩
  have hlayered : (run as).layered i = true := by simp [layered, hx, hr]
  by_cases hh : (run as).surfaces.lock (run as).seat.keyboardFocusedSurface = some i
  · obtain ⟨h1, h2, h3⟩ := press_held button hits (run_sorted as)
      (run_sane as).fresh hs hd hl hh
    rw [← hstep] at h1 h2 h3
    have hK := hadCursor_concat_iff (congrArg Prod.fst h2)
    rw [onTop_congr h2 h3]
    constructor
    · intro h _
      have h4 := h h1
      exact ⟨h4.first, fun _ j hji hj hKj => h4.nearest j hji hj (mt (hK j).mp hKj)⟩
    · intro h _
      obtain ⟨h4, h5⟩ := h hh
      refine ⟨hh, h4, fun j hji hj hKj => ?_⟩
      have hKj' : ¬ HadCursor as j := mt (hK j).mpr hKj
      by_cases hKi : HadCursor as i
      · exact h5 hKi j hji hj hKj'
      · exact (run_sorted as).nearest h4 hlayered hKi hc j hji hj hKj'
  · refine iff_of_true (fun h1 => ?_) fun h1 => absurd h1 hh
    rw [hstep] at h1 ⊢
    exact press_onTop ((run_sorted as).mono fun j hj => hj.concat _) (run_roled as) hl hx hr hh h1
      fun j y hy hr => (hc j y hy hr).concat _

/-- In a run presses leave their toplevels on top exactly when every press of a toplevel that has
the keyboard finds it there. -/
theorem raises_throughout_iff (as : List Action) :
    (∀ pre a, pre ++ [a] <+: as → Raises pre a) ↔ ∀ pre a, pre ++ [a] <+: as → KeepsTop pre a :=
  forall_congr' fun pre => forall_congr' fun a => forall_congr' fun _ => raises_iff pre a

/-- A client presses its window, opens another one and presses the first again. -/
def pressAgain : List Action :=
  [.desk 0 .bindSeat, .desk 0 (.createSurface (0, 0)),
    .desk 0 (.createWlBuffer ⟨0, 1, 1, 4, [0, 0, 0, 0]⟩), .desk 0 (.attach 1 (some 2) (0, 0)),
    .desk 0 (.commit 1), .desk 0 (.getXdgSurface 1), .desk 0 (.getToplevel 3),
    .mouseMove 0 0 fun o => if o = .surface 1 then some 1 else none,
    .mouseButton 272 true fun _ => none, .mouseButton 272 false fun _ => none,
    .desk 0 (.createSurface (0, 0))]

theorem pressAgain_allSeated : (run pressAgain).AllSeated := by
  intro o ho
  have h1 := (run_sane pressAgain).issued ho
  cases o with
  | app b =>
    have h2 : (run pressAgain).scene.nextId = 0 := by decide +kernel
    exact absurd (h2 ▸ h1 : b < 0) (Nat.not_lt_zero b)
  | surface i =>
    have h2 : (run pressAgain).nextId = 6 := by decide +kernel
    have h3 : ∀ j, j < 6 → (run pressAgain).alive (.surface j) = true →
        ((run pressAgain).seatOf (.surface j)).isSome := by decide +kernel
    exact h3 i (h2 ▸ h1) ho

/-- The window has the keyboard, and the new one stays before it. -/
theorem pressAgain_not_raised :
    ¬ (∀ pre a, pre ++ [a] <+: pressAgain ++ [.mouseButton 272 true fun _ => none] →
      Raises pre a) ∧
    (run pressAgain).surfaces.lock (run pressAgain).seat.keyboardFocusedSurface = some 1 ∧
    (run (pressAgain ++ [.mouseButton 272 true fun _ => none])).surfaceList = [5, 1] := by
  have h1 : (run (pressAgain ++ [.mouseButton 272 true fun _ => none])).surfaceList = [5, 1] := by
    decide +kernel
  refine ⟨fun h => ?_, by decide +kernel, h1⟩
  have h2 := (h pressAgain _ List.prefix_rfl 1 (by decide +kernel) pressAgain_allSeated
    (by decide +kernel) (by decide +kernel)).first
  rw [h1] at h2
  cases h2

end World
end Yaza
