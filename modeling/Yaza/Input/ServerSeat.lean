import Yaza.Server.World
import Mathlib.Algebra.Order.Ring.Unbundled.Rat

/-! `input/server_seat.cpp`, and what it calls: the objects under the pointer, the keyboard focus,
the selection and the cursor. -/
namespace Yaza
namespace World

/-- `XdgTopLevel::set_activated`. -/
def setActivated (w : World) (t : ℕ) (activated : Bool) : World :=
  match w.toplevels t with
  | none => w.crash .useAfterFree
  | some x =>
    if (w.xdgSurfaces x.xdgSurface).isSome then
      (w.emit (.toplevelConfigure t activated)).emit (.xdgConfigure x.xdgSurface)
    else (w.emit (.toplevelConfigure t activated)).crash .useAfterFree

/-- `Surface::on_focus`. -/
def onFocus (w : World) (i : ℕ) : World :=
  match (w.surfaces i).bind Surface.roleObj with
  | none => w
  | some t => (w.raiseSurfaceTop i).setActivated t true

/-- `Surface::on_unfocus`. -/
def onUnfocus (w : World) (i : ℕ) : World :=
  match (w.surfaces i).bind Surface.roleObj with
  | none => w
  | some t => w.setActivated t false

/-- `data_offer::create` for a device whose selection comes from `source`. -/
def createOffer (w : World) (device source : ℕ) : World :=
  match w.resources device, w.dataSources source with
  | some r, some x =>
    { w with
      nextId := w.nextId + 1
      resources := w.resources.set w.nextId { client := r.client, interface := .dataOffer }
      dataOffers := w.dataOffers.set w.nextId { dataSource := source }
      events := w.events ++
        [.dataOffer device w.nextId x.mimeTypes, .selection device (some w.nextId)] }
  | _, _ => w.crash .useAfterFree

/-- `DataDevice::send_selection`. -/
def sendSelection (w : World) (device : ℕ) : World :=
  match w.seat.currentSelection with
  | none => w.emit (.selection device none)
  | some d =>
    match w.dataDevices d with
    | none => w.crash .useAfterFree
    | some x =>
      match x.dataSource with
      | none => w.crash .noDataSource
      | some source => w.createOffer device source

/-- The selection is sent to one device after the other. -/
def sendSelections (w : World) (devices : List ℕ) : World :=
  devices.foldl (fun w d => w.andThen fun w => w.sendSelection d) w

/-- `ServerSeat::is_focused_client`. -/
def isFocusedClient (w : World) (client : ℕ) : Bool :=
  match w.surfaces.lock w.seat.keyboardFocusedSurface with
  | none => false
  | some i => w.clientOf (.surface i) = some client

/-- `ServerSeat::try_leave_keyboard`. -/
def tryLeaveKeyboard (w : World) : World :=
  match w.surfaces.lock w.seat.keyboardFocusedSurface with
  | none => w
  | some i =>
    (w.onUnfocus i).andThen fun w =>
      (w.withSeatOf (.surface i) fun w x => w.emit (.keyboardLeave x.keyboards i)).andThen fun w =>
        { w with seat.keyboardFocusedSurface := none }

/-- The events a client gets when one of its surfaces is focused. -/
def enterKeyboard (w : World) (i : ℕ) : World :=
  w.withSeatOf (.surface i) fun w x =>
    (w.emit (.keyboardEnter x.keyboards i)).sendSelections x.dataDevices

/-- `ServerSeat::set_keyboard_focused_surface`, for a surface that is alive. -/
def setKeyboardFocusedSurface (w : World) (i : ℕ) : World :=
  if w.surfaces.lock w.seat.keyboardFocusedSurface = some i then w
  else
    w.tryLeaveKeyboard.andThen fun w =>
      (w.onFocus i).andThen fun w =>
        (w.enterKeyboard i).andThen fun w => { w with seat.keyboardFocusedSurface := some i }

/-- The resources a call is sent to. -/
def receivers (x : ClientSeat) : BoundedObject → List ℕ
  | .surface _ => x.pointers
  | .app _ => x.rays

/-- The virtual object an app names in the events of this call is gone. -/
def namesFreed (w : World) (o : BoundedObject) (c : ObjectCall) : Bool :=
  match o, c with
  | .app b, .enter | .app b, .leave =>
    (w.scene.boundedApps b).any fun x => (w.scene.virtualObjects x.virtualObject).isNone
  | _, _ => false

/-- `enter`, `leave`, `motion`, `button`, `axis` and `frame` of `Surface` and of `BoundedApp`, up
to the keyboard focus. -/
def point (w : World) (o : BoundedObject) (c : ObjectCall) : World :=
  { w with calls := w.calls ++ [(o, c)] }.withSeatOf o fun w x =>
    if !(receivers x o).isEmpty && w.namesFreed o c then w.crash .useAfterFree
    else w.emit (.pointing (receivers x o) o c)

/-- A press on a surface gives it the keyboard. -/
def pressed (w : World) (o : BoundedObject) (isPressed : Bool) : World :=
  match o with
  | .surface i =>
    if isPressed && (w.getSurfaceFromResource i).isSome then w.setKeyboardFocusedSurface i else w
  | .app _ => w

/-- `BoundedObject::button`. -/
def button (w : World) (o : BoundedObject) (button : UInt32) (isPressed : Bool) : World :=
  (w.point o (.button button isPressed)).andThen fun w => w.pressed o isPressed

/-- `leave` and `frame`. -/
def leave (w : World) (o : BoundedObject) : World :=
  (w.point o .leave).andThen fun w => w.point o .frame

/-- `ServerSeat::move_cursor`. -/
def moveCursor (w : World) : World :=
  match w.surfaces.lock w.seat.cursor with
  | none => w
  | some i =>
    w.modifySurface i fun x =>
      x.moveCursor w.seat.cursorDistance w.ray.polar w.ray.azimuthal w.seat.hotspot

/-- The surface becomes the cursor. -/
def takeCursor (w : World) (surface : Option ℕ) : World :=
  match surface.bind w.getSurfaceFromResource with
  | none => w
  | some i =>
    ({ w with seat.cursor := some i }.modifySurface i fun x =>
      (x.setRole .cursor none).setActive true).moveCursor

/-- `ServerSeat::set_surface_as_cursor`. -/
def setSurfaceAsCursor (w : World) (surface : Option ℕ) (hotspot : ℤ × ℤ) : World :=
  match w.surfaces.lock w.seat.cursor with
  | none => { w with seat.hotspot := hotspot }.takeCursor surface
  | some i =>
    if surface = some i then { w with seat.hotspot := hotspot }
    else
      ({ w with seat.hotspot := hotspot, seat.cursor := none }.modifySurface i fun x =>
        x.setActive false).takeCursor surface

/-- What the ray meets: the distance of each object that `util::intersection` finds it to hit. -/
abbrev Hits := BoundedObject → Option ℚ

/-- Whether the object tests the ray at all. -/
def pickable (w : World) : BoundedObject → Bool
  | .surface i => (w.surfaces i).any Surface.pickable
  | .app i => (w.scene.boundedApps i).any fun x => !x.current.regions.isEmpty

/-- `BoundedObject::check_intersection`. -/
def hit (w : World) (hits : Hits) (o : BoundedObject) : Option ℚ :=
  if w.pickable o then hits o else none

/-- One round of the loops of `ServerSeat::check_intersection`. -/
def nearer (w : World) (hits : Hits) (best : Option (BoundedObject × ℚ)) (o : BoundedObject) :
    Option (BoundedObject × ℚ) :=
  match w.hit hits o with
  | none => best
  | some d =>
    match best with
    | none => some (o, d)
    | some (_, d') => if d ≤ d' then some (o, d) else best

/-- The live objects in the order they are tested. -/
def candidates (w : World) : List BoundedObject :=
  (w.surfaceList.map BoundedObject.surface ++ w.boundedApps.map BoundedObject.app).filter w.alive

def nearest (w : World) (hits : Hits) : Option (BoundedObject × ℚ) :=
  w.candidates.foldl (w.nearer hits) none

/-- The selection is sent when the pointer comes on an app. -/
def selectFor (w : World) (o : BoundedObject) : World :=
  match o with
  | .surface _ => w
  | .app _ => w.withSeatOf o fun w x => w.sendSelections x.dataDevices

/-- The focused object, if it is alive, is left. -/
def leaveFocused (w : World) : World :=
  match w.lock w.seat.focusedObj with
  | none => w
  | some o => w.leave o

/-- `ServerSeat::set_focused_obj` of another object, and its `enter`. -/
def changeFocus (w : World) (o : BoundedObject) : World :=
  w.leaveFocused.andThen fun w =>
    (w.selectFor o).andThen fun w => { w with seat.focusedObj := some o }.point o .enter

/-- `ServerSeat::set_focused_obj`, and `enter` if it changed the focus. -/
def setFocusedObj (w : World) (o : BoundedObject) : World :=
  if w.lock w.seat.focusedObj = some o then w else w.changeFocus o

/-- The first case of `ServerSeat::check_intersection`. -/
def focusOn (w : World) (o : BoundedObject) (distance : ℚ) : World :=
  (w.setFocusedObj o).andThen fun w =>
    (w.point o .motion).andThen fun w =>
      (w.point o .frame).andThen fun w =>
        { w with
          seat.cursorDistance := distance * (98 / 100)
          ray.length := distance * (98 / 100) * (9 / 10) }

/-- The other case: the ray meets nothing. -/
def focusNothing (w : World) : World :=
  w.leaveFocused.andThen fun w =>
    { w with seat.focusedObj := none }.setSurfaceAsCursor none (0, 0)

/-- `ServerSeat::check_intersection`. -/
def checkIntersection (w : World) (hits : Hits) : World :=
  match w.nearest hits with
  | some (o, d) => (w.dropExpiredSurfaces.dropExpiredApps).focusOn o d
  | none => (w.dropExpiredSurfaces.dropExpiredApps).focusNothing

/-- `ServerSeat::handle_mouse_button`. -/
def handleMouseButton (w : World) (button : UInt32) (isPressed : Bool) (hits : Hits) : World :=
  if w.seat.objState = .moving ∧ isPressed = false then
    { w with seat.objState := .default, seat.focusedObj := none }.checkIntersection hits
  else
    match w.lock w.seat.focusedObj with
    | some o => (w.button o button isPressed).andThen fun w => w.point o .frame
    | none => if isPressed then w.tryLeaveKeyboard else w

/-- `ServerSeat::handle_mouse_wheel`. -/
def handleMouseWheel (w : World) (amount : ℚ) : World :=
  match w.lock w.seat.focusedObj with
  | none => w
  | some o => (w.point o (.axis amount)).andThen fun w => w.point o .frame

/-- `ServerSeat::request_start_move`. -/
def requestStartMove (w : World) (client : ℕ) : World :=
  match w.lock w.seat.focusedObj with
  | none => w
  | some o =>
    if w.clientOf o = some client then
      (w.leave o).andThen fun w => { w with seat.objState := .moving }
    else w

/-- `kPolarMin` and `kPolarMax`. -/
def polarMin : ℚ := floatPi / 8

def polarMax : ℚ := floatPi - polarMin

/-- The polar angle `RayCaster::move_rel` moves to. -/
def clampPolar (polar : ℚ) : ℚ := max polarMin (min polar polarMax)

/-- `RayCaster::move_rel`. -/
def moveRay (w : World) (polar azimuthal : ℚ) : World :=
  { w with
    ray.azimuthal := w.ray.azimuthal + azimuthal
    ray.polar := clampPolar (w.ray.polar + polar) }

/-- `BoundedObject::move`. -/
def moveObject (w : World) (o : BoundedObject) (polar azimuthal : ℚ) : World :=
  match o with
  | .surface i => w.modifySurface i fun x => x.move polar azimuthal
  | .app b => { w with scene := w.scene.step (.moveApp b polar azimuthal) }

/-- The focused object, if it is alive, follows the ray. -/
def dragFocused (w : World) (polar azimuthal : ℚ) : World :=
  match w.lock w.seat.focusedObj with
  | none => w
  | some o => w.moveObject o polar azimuthal

/-- `ServerSeat::move_rel_pointing`. -/
def moveRelPointing (w : World) (polar azimuthal : ℚ) (hits : Hits) : World :=
  (match w.seat.objState with
    | .default => (w.moveRay polar azimuthal).checkIntersection hits
    | .moving =>
      (w.moveRay polar azimuthal).dragFocused
        (clampPolar (w.ray.polar + polar) - w.ray.polar) azimuthal).andThen moveCursor

end World
end Yaza
