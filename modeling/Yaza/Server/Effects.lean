import Yaza.Server.Step
import Yaza.Lib.Path

/-! What the functions of the seat do to the program, one effect at a time. -/
namespace Yaza

/-- The keyboard events. -/
def DeskEvent.isKey : DeskEvent → Bool
  | .keyboardEnter _ _ | .keyboardLeave _ _ => true
  | _ => false

/-- The other events the seat sends on its own, those about the selection apart. -/
def DeskEvent.isPlain : DeskEvent → Bool
  | .pointing _ _ _ | .xdgConfigure _ | .toplevelConfigure _ _ => true
  | _ => false

/-- The seats of the clients, the selection and the keyboard focus. -/
def ServerSeat.held (s : ServerSeat) :=
  (s.clientSeats, s.currentSelection, s.keyboardFocusedSurface)

namespace World

/-- One effect; with `k` it may be one on the keyboard focus, with `t` a selection may be sent. -/
inductive Effect (k t : Bool) (w : World) : World → Prop
  | crash (f : Fault) : Effect k t w (w.crash f)
  | log (c : List (BoundedObject × ObjectCall)) (l : List Lookup) :
      Effect k t w { w with calls := c, lookups := l }
  | noSeat (client : ℕ) :
      Effect k t w (((w.insertNull client).logLookup client none false).crash .nullPointer)
  | emit {e : DeskEvent} (he : e.isPlain = true) : Effect k t w (w.emit e)
  | keyEvent (hk : k = true) {e : DeskEvent} (he : e.isKey = true) : Effect k t w (w.emit e)
  | keyFocus (hk : k = true) (i : Option ℕ) :
      Effect k t w { w with seat.keyboardFocusedSurface := i }
  | seat {s : ServerSeat} (hs : s.held = w.seat.held) : Effect k t w { w with seat := s }
  | ray {r : RayCaster} (hr : r.renderer = w.ray.renderer) : Effect k t w { w with ray := r }
  | expire : Effect k t w w.dropExpiredSurfaces.dropExpiredApps
  | raise (i : ℕ) : Effect k t w (w.raiseSurfaceTop i)
  | drag (i : ℕ) (polar azimuthal : ℚ) :
      Effect k t w (w.modifySurface i fun x => x.move polar azimuthal)
  | dragApp (b : ℕ) (polar azimuthal : ℚ) :
      Effect k t w { w with scene := w.scene.step (.moveApp b polar azimuthal) }
  | followRay (i : ℕ) (distance polar azimuthal : ℚ) (hotspot : ℤ × ℤ) :
      Effect k t w (w.modifySurface i fun x => x.moveCursor distance polar azimuthal hotspot)
  | becomeCursor (i : ℕ) :
      Effect k t w (w.modifySurface i fun x => (x.setRole .cursor none).setActive true)
  | hide (i : ℕ) : Effect k t w (w.modifySurface i fun x => x.setActive false)
  | send (ht : t = true) (d : ℕ) : Effect k t w (w.sendSelection d)

abbrev Effects (k t : Bool) : World → World → Prop := Relation.ReflTransGen (Effect k t)

/-- An effect that leaves alone which surface is the cursor, and where the ray and the objects
are. -/
inductive Minor (k t : Bool) (w : World) : World → Prop
  | crash (f : Fault) : Minor k t w (w.crash f)
  | log (c : List (BoundedObject × ObjectCall)) (l : List Lookup) :
      Minor k t w { w with calls := c, lookups := l }
  | noSeat (client : ℕ) :
      Minor k t w (((w.insertNull client).logLookup client none false).crash .nullPointer)
  | emit {e : DeskEvent} (he : e.isPlain = true) : Minor k t w (w.emit e)
  | keyEvent (hk : k = true) {e : DeskEvent} (he : e.isKey = true) : Minor k t w (w.emit e)
  | keyFocus (hk : k = true) (i : Option ℕ) :
      Minor k t w { w with seat.keyboardFocusedSurface := i }
  | seat {s : ServerSeat} (hs : s.held = w.seat.held) (hc : s.cursor = w.seat.cursor) :
      Minor k t w { w with seat := s }
  | rayLength (l : ℚ) : Minor k t w { w with ray.length := l }
  | expire : Minor k t w w.dropExpiredSurfaces.dropExpiredApps
  | raise (i : ℕ) : Minor k t w (w.raiseSurfaceTop i)
  | followRay (i : ℕ) (distance polar azimuthal : ℚ) (hotspot : ℤ × ℤ) :
      Minor k t w (w.modifySurface i fun x => x.moveCursor distance polar azimuthal hotspot)
  | send (ht : t = true) (d : ℕ) : Minor k t w (w.sendSelection d)

abbrev Minors (k t : Bool) : World → World → Prop := Relation.ReflTransGen (Minor k t)

section Functions
variable {k t : Bool} {w : World}

theorem Effects.andThen {w' : World} {f : World → World} (h : Effects k t w w')
    (hf : Effects k t w' (f w')) : Effects k t w (w'.andThen f) := by
  unfold World.andThen
  split
  · exact h
  · exact h.trans hf

theorem Minors.andThen {w' : World} {f : World → World} (h : Minors k t w w')
    (hf : Minors k t w' (f w')) : Minors k t w (w'.andThen f) := by
  unfold World.andThen
  split
  · exact h
  · exact h.trans hf

theorem Minor.effect {w' : World} (h : Minor k t w w') : Effect k t w w' := by
  cases h with
  | crash f => exact .crash f
  | log c l => exact .log c l
  | noSeat client => exact .noSeat client
  | emit he => exact .emit he
  | keyEvent hk he => exact .keyEvent hk he
  | keyFocus hk i => exact .keyFocus hk i
  | seat hs _ => exact .seat hs
  | rayLength l => exact .ray rfl
  | expire => exact .expire
  | raise i => exact .raise i
  | followRay i distance polar azimuthal hotspot => exact .followRay ..
  | send ht d => exact .send ht d

theorem Minors.effects {w' : World} (h : Minors k t w w') : Effects k t w w' :=
  Relation.ReflTransGen.mono (fun _ _ => Minor.effect) _ _ h

theorem setActivated_minors (w : World) (x : ℕ) (activated : Bool) :
    Minors k t w (w.setActivated x activated) := by
  unfold setActivated
  split
  · exact .single (.crash _)
  · split
    · exact .trans (.single (.emit rfl)) (.single (.emit rfl))
    · exact .trans (.single (.emit rfl)) (.single (.crash _))

theorem onFocus_minors (w : World) (i : ℕ) : Minors k t w (w.onFocus i) := by
  unfold onFocus
  split
  · exact .refl
  · exact .trans (.single (.raise i)) (setActivated_minors _ _ _)

theorem onFocus_effects (w : World) (i : ℕ) : Effects k t w (w.onFocus i) :=
  (onFocus_minors w i).effects

theorem onUnfocus_minors (w : World) (i : ℕ) : Minors k t w (w.onUnfocus i) := by
  unfold onUnfocus
  split
  · exact .refl
  · exact setActivated_minors w _ _

theorem onUnfocus_effects (w : World) (i : ℕ) : Effects k t w (w.onUnfocus i) :=
  (onUnfocus_minors w i).effects

theorem sendSelections_minors (w : World) (devices : List ℕ) :
    Minors k true w (w.sendSelections devices) := by
  unfold sendSelections
  induction devices generalizing w with
  | nil => exact .refl
  | cons d l ih => exact (Minors.andThen .refl (.single (.send rfl d))).trans (ih _)

theorem sendSelections_effects (w : World) (devices : List ℕ) :
    Effects k true w (w.sendSelections devices) :=
  (sendSelections_minors w devices).effects

theorem withSeatOf_minors (w : World) (o : BoundedObject) {f : World → ClientSeat → World}
    (hf : ∀ w x, Minors k t w (f w x)) : Minors k t w (w.withSeatOf o f) := by
  have log (c : ℕ) (entry : Option ℕ) (live : Bool) : Minors k t w (w.logLookup c entry live) :=
    .single (.log _ _)
  unfold withSeatOf withClientSeat
  split
  · exact .single (.crash _)
  · split
    · exact .single (.noSeat _)
    · split
      · exact (log _ _ _).trans (.single (.crash _))
      · exact (log _ _ _).trans (hf _ _)

theorem point_minors (w : World) (o : BoundedObject) (c : ObjectCall) :
    Minors k t w (w.point o c) := by
  have h1 : Minors k t w { w with calls := w.calls ++ [(o, c)] } := .single (.log _ _)
  refine h1.trans (withSeatOf_minors _ o fun w x => ?_)
  split
  · exact .single (.crash _)
  · exact .single (.emit rfl)

theorem point_effects (w : World) (o : BoundedObject) (c : ObjectCall) :
    Effects k t w (w.point o c) := (point_minors w o c).effects

theorem leave_minors (w : World) (o : BoundedObject) : Minors k t w (w.leave o) :=
  (point_minors w o _).andThen (point_minors _ o _)

theorem tryLeaveKeyboard_minors (w : World) : Minors true t w w.tryLeaveKeyboard := by
  unfold tryLeaveKeyboard
  split
  · exact .refl
  · refine (onUnfocus_minors w _).andThen ((withSeatOf_minors _ _ fun w x => ?_).andThen ?_)
    · exact .single (.keyEvent rfl rfl)
    · exact .single (.keyFocus rfl none)

theorem tryLeaveKeyboard_effects (w : World) : Effects true t w w.tryLeaveKeyboard :=
  (tryLeaveKeyboard_minors w).effects

theorem enterKeyboard_minors (w : World) (i : ℕ) : Minors true true w (w.enterKeyboard i) := by
  refine withSeatOf_minors w _ fun w x => ?_
  have h1 : Minors true true w (w.emit (.keyboardEnter x.keyboards i)) :=
    .single (.keyEvent rfl rfl)
  exact h1.trans (sendSelections_minors _ _)

theorem enterKeyboard_effects (w : World) (i : ℕ) : Effects true true w (w.enterKeyboard i) :=
  (enterKeyboard_minors w i).effects

theorem setKeyboardFocusedSurface_minors (w : World) (i : ℕ) :
    Minors true true w (w.setKeyboardFocusedSurface i) := by
  unfold setKeyboardFocusedSurface
  split
  · exact .refl
  · exact (tryLeaveKeyboard_minors w).andThen ((onFocus_minors _ i).andThen
      ((enterKeyboard_minors _ i).andThen (.single (.keyFocus rfl (some i)))))

theorem setKeyboardFocusedSurface_effects (w : World) (i : ℕ) :
    Effects true true w (w.setKeyboardFocusedSurface i) :=
  (setKeyboardFocusedSurface_minors w i).effects

theorem pressed_minors (w : World) (o : BoundedObject) (isPressed : Bool) :
    Minors true true w (w.pressed o isPressed) := by
  cases o with
  | app b => exact .refl
  | surface i =>
    simp only [pressed]
    split
    · exact setKeyboardFocusedSurface_minors w i
    · exact .refl

theorem pressed_effects (w : World) (o : BoundedObject) (isPressed : Bool) :
    Effects true true w (w.pressed o isPressed) := (pressed_minors w o isPressed).effects

theorem moveCursor_minors (w : World) : Minors k t w w.moveCursor := by
  unfold moveCursor
  split
  · exact .refl
  · exact .single (.followRay _ _ _ _ _)

theorem takeCursor_effects (w : World) (surface : Option ℕ) :
    Effects k t w (w.takeCursor surface) := by
  unfold takeCursor
  split
  · exact .refl
  · next i _ =>
    have h1 : Effects k t w { w with seat.cursor := some i } := .single (.seat rfl)
    exact (h1.trans (.single (.becomeCursor i))).trans (moveCursor_minors _).effects

theorem setSurfaceAsCursor_effects (w : World) (surface : Option ℕ) (hotspot : ℤ × ℤ) :
    Effects k t w (w.setSurfaceAsCursor surface hotspot) := by
  unfold setSurfaceAsCursor
  split
  · have h1 : Effects k t w { w with seat.hotspot := hotspot } := .single (.seat rfl)
    exact h1.trans (takeCursor_effects _ _)
  · next i _ =>
    split
    · exact .single (.seat rfl)
    · have h1 : Effects k t w { w with seat.hotspot := hotspot, seat.cursor := none } :=
        .single (.seat rfl)
      exact (h1.trans (.single (.hide i))).trans (takeCursor_effects _ _)

theorem selectFor_minors (w : World) (o : BoundedObject) : Minors k true w (w.selectFor o) := by
  cases o with
  | surface i => exact .refl
  | app b => exact withSeatOf_minors w _ fun w _ => sendSelections_minors w _

theorem leaveFocused_minors (w : World) : Minors k t w w.leaveFocused := by
  unfold leaveFocused
  split
  · exact .refl
  · exact leave_minors w _

theorem changeFocus_minors (w : World) (o : BoundedObject) :
    Minors k true w (w.changeFocus o) := by
  refine (leaveFocused_minors w).andThen ((selectFor_minors _ o).andThen ?_)
  have h1 (w : World) : Minors k true w { w with seat.focusedObj := some o } :=
    .single (.seat rfl rfl)
  exact (h1 _).trans (point_minors _ o _)

theorem setFocusedObj_minors (w : World) (o : BoundedObject) :
    Minors k true w (w.setFocusedObj o) := by
  unfold setFocusedObj
  split
  · exact .refl
  · exact changeFocus_minors w o

theorem focusOn_minors (w : World) (o : BoundedObject) (distance : ℚ) :
    Minors k true w (w.focusOn o distance) := by
  refine (setFocusedObj_minors w o).andThen ((point_minors _ o _).andThen
    ((point_minors _ o _).andThen ?_))
  have h1 (w : World) : Minors k true w { w with seat.cursorDistance := distance * (98 / 100) } :=
    .single (.seat rfl rfl)
  exact (h1 _).trans (.single (.rayLength _))

theorem focusNothing_effects (w : World) : Effects k true w w.focusNothing := by
  refine (leaveFocused_minors w).effects.andThen ?_
  have h1 (w : World) : Effects k true w { w with seat.focusedObj := none } := .single (.seat rfl)
  exact (h1 _).trans (setSurfaceAsCursor_effects _ _ _)

theorem checkIntersection_effects (w : World) (hits : Hits) :
    Effects k true w (w.checkIntersection hits) := by
  have h1 : Effects k true w w.dropExpiredSurfaces.dropExpiredApps := .single .expire
  unfold checkIntersection
  split
  · exact h1.trans (focusOn_minors _ _ _).effects
  · exact h1.trans (focusNothing_effects _)

theorem endMove_effects (w : World) (hits : Hits) :
    Effects k true w
      ({ w with seat.objState := .default, seat.focusedObj := none }.checkIntersection hits) := by
  have h1 : Effects k true w { w with seat.objState := .default, seat.focusedObj := none } :=
    .single (.seat rfl)
  exact h1.trans (checkIntersection_effects _ hits)

theorem handleMouseButton_effects (w : World) (button : UInt32) (isPressed : Bool) (hits : Hits) :
    Effects true true w (w.handleMouseButton button isPressed hits) := by
  unfold handleMouseButton World.button
  split
  · exact endMove_effects w hits
  · split
    · next o _ =>
      exact ((point_effects w o _).andThen (pressed_effects _ o isPressed)).andThen
        (point_effects _ o _)
    · split
      · exact tryLeaveKeyboard_effects w
      · exact .refl

theorem handleMouseWheel_minors (w : World) (amount : ℚ) :
    Minors k t w (w.handleMouseWheel amount) := by
  unfold handleMouseWheel
  split
  · exact .refl
  · exact (point_minors w _ _).andThen (point_minors _ _ _)

theorem handleMouseWheel_effects (w : World) (amount : ℚ) :
    Effects k t w (w.handleMouseWheel amount) := (handleMouseWheel_minors w amount).effects

theorem requestStartMove_minors (w : World) (client : ℕ) :
    Minors k t w (w.requestStartMove client) := by
  unfold requestStartMove
  split
  · exact .refl
  · split
    · exact (leave_minors w _).andThen (.single (.seat rfl rfl))
    · exact .refl

theorem requestStartMove_effects (w : World) (client : ℕ) :
    Effects k t w (w.requestStartMove client) := (requestStartMove_minors w client).effects

theorem dragFocused_effects (w : World) (polar azimuthal : ℚ) :
    Effects k t w (w.dragFocused polar azimuthal) := by
  unfold dragFocused
  split
  · exact .refl
  · next o _ =>
    cases o with
    | surface i => exact .single (.drag i _ _)
    | app b => exact .single (.dragApp b _ _)

theorem moveRelPointing_effects (w : World) (polar azimuthal : ℚ) (hits : Hits) :
    Effects k true w (w.moveRelPointing polar azimuthal hits) := by
  have h1 : Effects k true w (w.moveRay polar azimuthal) := .single (.ray rfl)
  unfold moveRelPointing
  refine Effects.andThen ?_ (moveCursor_minors _).effects
  split
  · exact h1.trans (checkIntersection_effects _ hits)
  · exact h1.trans (dragFocused_effects _ _ _)

end Functions
end World
end Yaza
