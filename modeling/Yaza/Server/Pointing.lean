import Yaza.Server.Aside

/-! The calls the seat makes on bounded objects, and what its entry points leave alone. -/
namespace Yaza
namespace World

/-- A call is recorded. -/
def logCall (w : World) (o : BoundedObject) (c : ObjectCall) : World :=
  { w with calls := w.calls ++ [(o, c)] }

section Functions
variable {S : ℕ → Prop} {w : World} {o : BoundedObject}

theorem logCall_base (w : World) (o : BoundedObject) (c : ObjectCall) : Base S w (w.logCall o c) :=
  base_of_eq rfl rfl rfl

theorem Needs.logCall (h : Needs S w o) (p : BoundedObject) (c : ObjectCall) :
    Needs S (w.logCall p c) o := by
  cases o <;> exact h

/-- A call is recorded, and only then is anything else done. -/
theorem point_aside (ho : Needs S w o) (c : ObjectCall) : Aside S (w.logCall o c) (w.point o c) :=
  withSeatOf_aside (ho.logCall o c) fun w x => by
    split
    · exact crash_aside w _
    · exact emit_aside w rfl

theorem point_base (ho : Needs S w o) (c : ObjectCall) : Base S w (w.point o c) :=
  (logCall_base w o c).trans (point_aside ho c).toBase

theorem leave_base (ho : Asks S w o) : Base S w (w.leave o) :=
  (point_base ho.needs .leave).andThen
    (point_base (ho.after (point_base ho.needs .leave)).needs .frame)

/-- The surface that has the keyboard may be asked for its client. -/
def AsksKeyboard (S : ℕ → Prop) (w : World) : Prop :=
  ∀ i, w.surfaces.lock w.seat.keyboardFocusedSurface = some i → Asks S w (.surface i)

theorem pressed_aside (ho : Asks S w o) {isPressed : Bool}
    (hk : ∀ i, o = .surface i → isPressed = true → AsksKeyboard S w) :
    Aside S w (w.pressed o isPressed) := by
  unfold pressed
  split
  · next i =>
    split
    · next hp => exact setKeyboardFocusedSurface_aside ho (hk i rfl (by simp_all))
    · exact .refl w
  · exact .refl w

theorem moveCursor_aside (w : World) : Aside S w w.moveCursor := by
  unfold moveCursor
  split
  · exact .refl w
  · exact modifySurface_aside w _ fun x => Surface.moveCursor_key x ..

theorem takeCursor_aside (w : World) (surface : Option ℕ) : Aside S w (w.takeCursor surface) := by
  unfold takeCursor
  split
  · exact .refl w
  · next i _ =>
    have h1 : Aside S w { w with seat.cursor := some i } := aside_of_eq rfl rfl rfl rfl
    exact (h1.trans (modifySurface_aside _ i fun x => by simp)).trans (moveCursor_aside _)

theorem setSurfaceAsCursor_aside (w : World) (surface : Option ℕ) (hotspot : ℤ × ℤ) :
    Aside S w (w.setSurfaceAsCursor surface hotspot) := by
  unfold setSurfaceAsCursor
  split
  · have h1 : Aside S w { w with seat.hotspot := hotspot } := aside_of_eq rfl rfl rfl rfl
    exact h1.trans (takeCursor_aside _ _)
  · next i _ =>
    split
    · exact aside_of_eq rfl rfl rfl rfl
    · have h1 : Aside S w { w with seat.hotspot := hotspot, seat.cursor := none } :=
        aside_of_eq rfl rfl rfl rfl
      exact (h1.trans (modifySurface_aside _ i fun x => by simp)).trans (takeCursor_aside _ _)

theorem selectFor_aside (ho : Needs S w o) : Aside S w (w.selectFor o) := by
  cases o with
  | surface i => exact .refl w
  | app b => exact withSeatOf_aside ho fun w x => sendSelections_aside w _

/-- The object that has the pointer may be asked for its client. -/
def AsksFocused (S : ℕ → Prop) (w : World) : Prop :=
  ∀ o, w.lock w.seat.focusedObj = some o → Asks S w o

theorem leaveFocused_base (hl : AsksFocused S w) : Base S w w.leaveFocused := by
  unfold leaveFocused
  split
  · exact .refl w
  · next o ho => exact leave_base (hl o ho)

theorem changeFocus_base (hl : AsksFocused S w) (ho : Asks S w o) :
    Base S w (w.changeFocus o) := by
  have h1 := leaveFocused_base hl
  refine h1.andThen ?_
  have ho1 := ho.after h1
  have h2 := selectFor_aside ho1.needs
  refine h2.toBase.andThen ?_
  have h3 : Base S (w.leaveFocused.selectFor o)
      { w.leaveFocused.selectFor o with seat.focusedObj := some o } := base_of_eq rfl rfl rfl
  exact h3.trans (point_base ((ho1.after h2.toBase).after h3).needs .enter)

theorem setFocusedObj_base (hl : AsksFocused S w) (ho : Asks S w o) :
    Base S w (w.setFocusedObj o) := by
  unfold setFocusedObj
  split
  · exact .refl w
  · exact changeFocus_base hl ho

theorem focusOn_base (hl : AsksFocused S w) (ho : Asks S w o) (d : ℚ) :
    Base S w (w.focusOn o d) := by
  have h1 := setFocusedObj_base hl ho
  refine h1.andThen ?_
  have h2 := point_base (ho.after h1).needs .motion
  refine h2.andThen ?_
  have h3 := point_base ((ho.after h1).after h2).needs .frame
  exact h3.andThen (base_of_eq rfl rfl rfl)

theorem focusNothing_base (hl : AsksFocused S w) : Base S w w.focusNothing := by
  have h1 : Base S w.leaveFocused { w.leaveFocused with seat.focusedObj := none } :=
    base_of_eq rfl rfl rfl
  exact (leaveFocused_base hl).andThen (h1.trans (setSurfaceAsCursor_aside _ _ _).toBase)

theorem dropExpired_aside (w : World) : Aside S w w.dropExpiredSurfaces.dropExpiredApps :=
  aside_of_eq rfl rfl rfl rfl

theorem AsksFocused.after {w' : World} (h : AsksFocused S w) (hb : Aside S w w') :
    AsksFocused S w' := fun o ho => by
  rw [hb.toBase.lock, hb.focusedObj] at ho
  exact (h o ho).after hb.toBase

theorem checkIntersection_base (hits : Hits) (hl : AsksFocused S w)
    (hh : ∀ o d, w.nearest hits = some (o, d) → Asks S w o) :
    Base S w (w.checkIntersection hits) := by
  have h1 := dropExpired_aside (S := S) w
  unfold checkIntersection
  split
  · next o d ho =>
    exact h1.toBase.trans (focusOn_base (hl.after h1) ((hh o d ho).after h1.toBase) d)
  · exact h1.toBase.trans (focusNothing_base (hl.after h1))

theorem point_keyboard (w : World) (o : BoundedObject) (c : ObjectCall) :
    (w.point o c).seat.keyboardFocusedSurface = w.seat.keyboardFocusedSurface := by
  unfold point withSeatOf withClientSeat
  split
  · rfl
  · split
    · rfl
    · split
      · rfl
      · dsimp only
        split <;> rfl

theorem button_base (ho : Asks S w o) {b : UInt32} {isPressed : Bool}
    (hk : ∀ i, o = .surface i → isPressed = true → AsksKeyboard S w) :
    Base S w (w.button o b isPressed) := by
  have h1 := point_base ho.needs (.button b isPressed)
  refine h1.andThen (pressed_aside (ho.after h1) fun i hi hp j hj => ?_).toBase
  rw [h1.lockSurface, point_keyboard] at hj
  exact (hk i hi hp j hj).after h1

/-- A button goes to the focused object, or takes the keyboard away. -/
theorem pressButton_base {b : UInt32} {isPressed : Bool} (hl : AsksFocused S w)
    (hk : isPressed = true → (∀ b, w.lock w.seat.focusedObj ≠ some (.app b)) → AsksKeyboard S w)
    (hits : Hits) (hm : ¬(w.seat.objState = .moving ∧ isPressed = false)) :
    Base S w (w.handleMouseButton b isPressed hits) := by
  unfold handleMouseButton
  rw [if_neg hm]
  split
  · next o ho =>
    have h1 : Base S w (w.button o b isPressed) := button_base (hl o ho) fun i hi hp =>
      hk hp fun b hb => by
        rw [ho, hi] at hb
        cases hb
    exact h1.andThen (point_base ((hl o ho).after h1).needs .frame)
  · next ho =>
    split
    · next hp => exact (tryLeaveKeyboard_aside (hk hp fun b hb => by simp [ho] at hb)).toBase
    · exact .refl w

/-- The end of a move: whatever was focused is forgotten. -/
theorem endMove_base {b : UInt32} {hits : Hits} (hm : w.seat.objState = .moving)
    (hh : ∀ o d, w.nearest hits = some (o, d) → Asks S w o) :
    Base S w (w.handleMouseButton b false hits) := by
  unfold handleMouseButton
  rw [if_pos ⟨hm, rfl⟩]
  have h1 : Base S w { w with seat.objState := .default, seat.focusedObj := none } :=
    base_of_eq rfl rfl rfl
  refine h1.trans (checkIntersection_base hits (fun o ho => ?_) fun o d ho => (hh o d ho).after h1)
  cases ho

theorem handleMouseWheel_base (hl : AsksFocused S w) (amount : ℚ) :
    Base S w (w.handleMouseWheel amount) := by
  unfold handleMouseWheel
  split
  · exact .refl w
  · next o ho =>
    have h1 := point_base (hl o ho).needs (.axis amount)
    exact h1.andThen (point_base ((hl o ho).after h1).needs .frame)

theorem requestStartMove_base {client : ℕ}
    (hl : ∀ o, w.lock w.seat.focusedObj = some o → w.clientOf o = some client → Asks S w o) :
    Base S w (w.requestStartMove client) := by
  unfold requestStartMove
  split
  · exact .refl w
  · split
    · next o ho hc => exact (leave_base (hl o ho hc)).andThen (base_of_eq rfl rfl rfl)
    · exact .refl w

/-- A motion while nothing is dragged. -/
theorem moveDefault_base (polar azimuthal : ℚ) {hits : Hits} (hd : w.seat.objState = .default)
    (hl : AsksFocused S w) (hh : ∀ o d, w.nearest hits = some (o, d) → Asks S w o) :
    Base S w (w.moveRelPointing polar azimuthal hits) := by
  unfold moveRelPointing
  rw [hd]
  have h1 : Base S w (w.moveRay polar azimuthal) := base_of_eq rfl rfl rfl
  refine (h1.trans (checkIntersection_base hits (fun o ho => (hl o ho).after h1)
    fun o d ho => (hh o d ho).after h1)).andThen (moveCursor_aside _).toBase

end Functions

theorem handleMouseButton_calm (w : World) (button : UInt32) (isPressed : Bool) (hits : Hits) :
    Calm w (w.handleMouseButton button isPressed hits) := by
  by_cases hm : w.seat.objState = .moving ∧ isPressed = false
  · obtain ⟨hm, rfl⟩ := hm
    exact (endMove_base (S := fun _ => True) hm fun o _ _ => asks_true w o).toCalm
  · exact (pressButton_base (S := fun _ => True) (fun o _ => asks_true w o)
      (fun _ _ _ _ => asks_true w _) hits hm).toCalm

theorem handleMouseWheel_calm (w : World) (amount : ℚ) : Calm w (w.handleMouseWheel amount) :=
  (handleMouseWheel_base (S := fun _ => True) (fun o _ => asks_true w o) amount).toCalm

theorem requestStartMove_calm (w : World) (client : ℕ) : Calm w (w.requestStartMove client) :=
  (requestStartMove_base (S := fun _ => True) fun o _ _ => asks_true w o).toCalm

theorem moveDefault_calm (polar azimuthal : ℚ) (hits : Hits) {w : World}
    (hd : w.seat.objState = .default) : Calm w (w.moveRelPointing polar azimuthal hits) :=
  (moveDefault_base (S := fun _ => True) polar azimuthal hd (fun o _ => asks_true w o)
    fun o _ _ => asks_true w o).toCalm

/-- Only what is dragged is changed by a motion. -/
theorem moveRelPointing_calm (w : World) (polar azimuthal : ℚ) (hits : Hits) :
    Calm w (w.moveRelPointing polar azimuthal hits) ∨
      Calm ((w.moveRay polar azimuthal).dragFocused
          (clampPolar (w.ray.polar + polar) - w.ray.polar) azimuthal)
        (w.moveRelPointing polar azimuthal hits) := by
  cases ho : w.seat.objState with
  | default => exact .inl (moveDefault_calm polar azimuthal hits ho)
  | moving =>
    refine .inr ?_
    simp only [moveRelPointing, ho, andThen]
    split
    · exact .refl _
    · exact (moveCursor_aside (S := fun _ => True) _).toCalm

end World
end Yaza
