import Yaza.Input.ServerSeat

/-! The program as a transition system: the requests of the clients, the destruction of their
objects, the events of `Remote` and the input events, in any order. -/
namespace Yaza
namespace World

/-- `wl_resource_create`: the new resource is `w.nextId`. -/
def newResource (w : World) (client : ℕ) (interface : DeskInterface) : World :=
  { w with
    resources := w.resources.set w.nextId { client, interface }
    nextId := w.nextId + 1 }

/-- `Surface::Surface`. -/
def newSurface (w : World) (texSize : ℕ × ℕ) : Surface :=
  match w.scene.remote.currentSession with
  | none => { texSize }
  | some channel => Surface.initRenderer { texSize } channel

/-- `surface::create`. -/
def createSurface (w : World) (client : ℕ) (texSize : ℕ × ℕ) : World :=
  { w.newResource client .surface with
    surfaces := w.surfaces.set w.nextId (w.newSurface texSize) }.addSurface w.nextId

/-- The buffer that is pending, in `Surface::commit`. -/
def commitBuffer (w : World) (i : ℕ) (x : Surface) : World :=
  match x.pendingBuffer with
  | none => w.modifySurface i .commitOffset
  | some b =>
    match w.wlBuffers b with
    | none => (w.modifySurface i .commitOffset).crash .useAfterFree
    | some buffer =>
      (w.modifySurface i fun x => x.commitOffset.commitBuffer buffer).emit (.bufferRelease b)

/-- An `xdg_surface` is configured at the first commit of its surface. -/
def firstCommit (i : ℕ) (x : XdgSurface) : Bool := x.isFirstCommit && x.wlSurface = i

/-- The listeners of `Surface::events_.committed`. -/
def notifyXdg (w : World) (i : ℕ) : World :=
  { w with
    events := w.events ++ ((List.range w.nextId).filter fun j =>
      (w.xdgSurfaces j).any (firstCommit i)).map .xdgConfigure
    xdgSurfaces := w.xdgSurfaces.mapAll fun x =>
      if firstCommit i x then { x with isFirstCommit := false } else x }

/-- `Surface::commit`. -/
def commitSurface (w : World) (i : ℕ) : World :=
  match w.surfaces i with
  | none => w.crash .useAfterFree
  | some x =>
    (w.commitBuffer i x).andThen fun w =>
      (w.modifySurface i fun x => x.tellTexture.commitFrames).notifyXdg i

/-- `queue_frame_callback`: the new callback is `w.nextId`. -/
def queueFrameCallback (w : World) (i : ℕ) : World :=
  { w with nextId := w.nextId + 1 }.modifySurface i fun x => x.queueFrameCallback w.nextId

/-- `xdg_surface::create`. -/
def createXdgSurface (w : World) (client i : ℕ) : World :=
  { w.newResource client .xdgSurface with
    xdgSurfaces := w.xdgSurfaces.set w.nextId { wlSurface := i } }

/-- `xdg_toplevel::create`, and the role it gives to the surface if that is still there. -/
def createToplevel (w : World) (client x : ℕ) : World :=
  match w.xdgSurfaces x with
  | none => w.crash .useAfterFree
  | some y =>
    { w.newResource client .xdgToplevel with
      toplevels := w.toplevels.set w.nextId { xdgSurface := x }
      surfaces := w.surfaces.modify y.wlSurface fun s => s.setRole .xdgToplevel w.nextId }

/-- `seat::bind`; `emplace` keeps the entry that is there. -/
def bindSeat (w : World) (client : ℕ) : World :=
  { w.newResource client .seat with
    clientSeats := w.clientSeats.set w.nextId {}
    seat.clientSeats :=
      if (w.seat.clientSeats client).isSome then w.seat.clientSeats
      else w.seat.clientSeats.set client (some w.nextId) }

/-- A new resource joins one of the lists of `client_seats[client]`. -/
def joinSeat (w : World) (client : ℕ) (f : ClientSeat → ClientSeat) : World :=
  w.withClientSeat client fun w i _ => { w with clientSeats := w.clientSeats.modify i f }

/-- `pointer::create`. -/
def createPointer (w : World) (client : ℕ) : World :=
  (w.newResource client .pointer).joinSeat client fun x =>
    { x with pointers := w.nextId :: x.pointers }

/-- `keyboard::create`. -/
def createKeyboard (w : World) (client : ℕ) : World :=
  (w.newResource client .keyboard).joinSeat client fun x =>
    { x with keyboards := w.nextId :: x.keyboards }

/-- `ray::create`. -/
def createRay (w : World) (client : ℕ) : World :=
  (w.newResource client .ray).joinSeat client fun x => { x with rays := w.nextId :: x.rays }

/-- `data_device::create`, and the selection when the client has the keyboard. -/
def createDataDevice (w : World) (client : ℕ) : World :=
  ({ w.newResource client .dataDevice with
      dataDevices := w.dataDevices.set w.nextId {} }.joinSeat client fun x =>
        { x with dataDevices := w.nextId :: x.dataDevices }).andThen fun w' =>
    if w'.isFocusedClient client then w'.sendSelection w.nextId else w'

/-- `data_source::create`. -/
def createDataSource (w : World) (client : ℕ) : World :=
  { w.newResource client .dataSource with dataSources := w.dataSources.set w.nextId {} }

/-- `DataSrc::add_mime_type`. -/
def addMimeType (w : World) (source : ℕ) (mimeType : String) : World :=
  { w with
    dataSources := w.dataSources.modify source fun x =>
      if mimeType ∈ x.mimeTypes then x else { x with mimeTypes := x.mimeTypes ++ [mimeType] } }

/-- `set_selection`; a null source has no user data to be asked for. -/
def setSelection (w : World) (device : ℕ) (source : Option ℕ) : World :=
  match source with
  | none => w.crash .nullPointer
  | some i =>
    { w with
      dataDevices := w.dataDevices.modify device fun x => { x with dataSource := some i }
      seat.currentSelection := some device }

/-- `accept` and `receive` of a `wl_data_offer`. -/
def askSource (w : World) (offer : ℕ) (e : ℕ → DeskEvent) : World :=
  match w.dataOffers offer with
  | none => w.crash .useAfterFree
  | some x =>
    if (w.dataSources x.dataSource).isSome then w.emit (e x.dataSource)
    else w.crash .useAfterFree

def leaveLists (j : ℕ) (x : ClientSeat) : ClientSeat where
  pointers := x.pointers.filter (· ≠ j)
  keyboards := x.keyboards.filter (· ≠ j)
  dataDevices := x.dataDevices.filter (· ≠ j)
  rays := x.rays.filter (· ≠ j)

/-- The destructor of a resource. -/
def deleteObject (w : World) (i client : ℕ) : DeskInterface → World
  | .wlBuffer => { w with wlBuffers := w.wlBuffers.erase i }
  | .surface => { w with surfaces := w.surfaces.erase i }
  | .xdgSurface => { w with xdgSurfaces := w.xdgSurfaces.erase i }
  | .xdgToplevel => { w with toplevels := w.toplevels.erase i }
  | .seat =>
    { w with
      seat.clientSeats := w.seat.clientSeats.erase client
      clientSeats := w.clientSeats.erase i }
  | .pointer | .keyboard | .ray =>
    { w with clientSeats := w.clientSeats.mapAll (leaveLists i) }
  | .dataDevice =>
    { w with
      clientSeats := w.clientSeats.mapAll (leaveLists i)
      dataDevices := w.dataDevices.erase i }
  | .dataSource => { w with dataSources := w.dataSources.erase i }
  | .dataOffer => { w with dataOffers := w.dataOffers.erase i }

/-- `wl_resource_destroy`. -/
def destroyResource (w : World) (i : ℕ) : World :=
  match w.resources i with
  | none => w
  | some r => { w.deleteObject i r.client r.interface with resources := w.resources.erase i }

/-- The peer discover handler, and the listeners of `session_established`. -/
def peerDiscover (w : World) (connected : Bool) : World :=
  if w.scene.remote.hasSession || !connected then w
  else
    { w with
      scene := w.scene.step (.peerDiscover connected)
      surfaces := w.surfaces.mapAll fun x => x.initRenderer w.scene.remote.sessionCount
      ray.renderer := some w.scene.remote.sessionCount }

/-- The disconnection handler, and the listeners of `session_disconnected`. -/
def sessionDisconnect (w : World) : World :=
  if w.scene.remote.hasSession then
    { w with
      scene := w.scene.step .sessionDisconnect
      surfaces := w.surfaces.mapAll fun x => { x with renderer := none }
      ray.renderer := none }
  else w

/-- The callbacks the `session_frame` handler of a surface is about to send. -/
def dueCallbacks (w : World) (i : ℕ) : List ℕ :=
  ((w.surfaces i).map Surface.currentFrames).getD []

/-- The `session_frame` handlers of the surfaces. -/
def sessionFrame (w : World) : World :=
  { w with
    events := w.events ++ ((List.range w.nextId).flatMap w.dueCallbacks).map .callbackDone
    surfaces := w.surfaces.mapAll fun x => { x with currentFrames := [] } }

/-- The frame timer of `Remote`. -/
def frameTimer (w : World) (busyness : ℕ) : World :=
  if !w.scene.remote.hasSession || busyness < Scene.busynessThreshold then
    { w.sessionFrame with scene := w.scene.step (.frameTimer busyness) }
  else w

inductive DeskRequest where
  | createWlBuffer (buffer : WlShmBuffer)
  | createSurface (texSize : ℕ × ℕ)
  | attach (surface : ℕ) (buffer : Option ℕ) (offset : ℤ × ℤ)
  | offset (surface : ℕ) (offset : ℤ × ℤ)
  | frame (surface : ℕ)
  | commit (surface : ℕ)
  | getXdgSurface (surface : ℕ)
  | getToplevel (xdgSurface : ℕ)
  | moveToplevel (toplevel : ℕ)
  | bindSeat
  | getPointer (seat : ℕ)
  | getKeyboard (seat : ℕ)
  | getRay
  | setCursor (pointer : ℕ) (surface : Option ℕ) (hotspot : ℤ × ℤ)
  | createDataSource
  | offer (source : ℕ) (mimeType : String)
  | getDataDevice
  | setSelection (device : ℕ) (source : Option ℕ)
  | accept (offer : ℕ) (mimeType : Option String)
  | receive (offer : ℕ) (mimeType : String)
  deriving DecidableEq, Repr

/-- The objects a request names, each with the interface its argument has. -/
def DeskRequest.objects : DeskRequest → List (ℕ × DeskInterface)
  | .createWlBuffer _ | .createSurface _ | .bindSeat | .getRay | .createDataSource
  | .getDataDevice => []
  | .attach s b _ => (s, .surface) :: b.toList.map fun b => (b, .wlBuffer)
  | .offset s _ | .frame s | .commit s | .getXdgSurface s => [(s, .surface)]
  | .getToplevel x => [(x, .xdgSurface)]
  | .moveToplevel t => [(t, .xdgToplevel)]
  | .getPointer i | .getKeyboard i => [(i, .seat)]
  | .setCursor p s _ => (p, .pointer) :: s.toList.map fun s => (s, .surface)
  | .offer s _ => [(s, .dataSource)]
  | .setSelection d s => (d, .dataDevice) :: s.toList.map fun s => (s, .dataSource)
  | .accept o _ | .receive o _ => [(o, .dataOffer)]

/-- The handler of each request. -/
def handle (w : World) (client : ℕ) : DeskRequest → World
  | .createWlBuffer b =>
    { w.newResource client .wlBuffer with wlBuffers := w.wlBuffers.set w.nextId b }
  | .createSurface texSize => w.createSurface client texSize
  | .attach s b d => w.modifySurface s fun x => (x.attach b).setOffset d
  | .offset s d => w.modifySurface s fun x => x.setOffset d
  | .frame s => w.queueFrameCallback s
  | .commit s => w.commitSurface s
  | .getXdgSurface s => w.createXdgSurface client s
  | .getToplevel x => w.createToplevel client x
  | .moveToplevel _ => w.requestStartMove client
  | .bindSeat => w.bindSeat client
  | .getPointer _ => w.createPointer client
  | .getKeyboard _ => w.createKeyboard client
  | .getRay => w.createRay client
  | .setCursor _ s hotspot => w.setSurfaceAsCursor s hotspot
  | .createDataSource => w.createDataSource client
  | .offer s mimeType => w.addMimeType s mimeType
  | .getDataDevice => w.createDataDevice client
  | .setSelection d s => w.setSelection d s
  | .accept o mimeType => w.askSource o fun s => .sourceTarget s mimeType
  | .receive o mimeType => w.askSource o fun s => .sourceSend s mimeType

/-- A request is handled when the client is not cut off and has the objects it names. -/
def admits (w : World) (client : ℕ) (r : DeskRequest) : Bool :=
  !w.scene.cutOff client && r.objects.all fun o =>
    (w.resources o.1).any fun x => x.client = client && x.interface = o.2

/-- `Server::add_bounded_app`, when a request has made one. -/
def addBoundedApp (w : World) (i : ℕ) : World :=
  if (w.scene.boundedApps i).isSome then { w with boundedApps := i :: w.boundedApps } else w

inductive Action where
  | zwin (client : ℕ) (r : Scene.Request)
  | destroyZwin (client resource : ℕ)
  | desk (client : ℕ) (r : DeskRequest)
  | destroy (client resource : ℕ)
  /-- `zwn_bounded.move`. -/
  | moveBounded (client bounded : ℕ)
  | peerDiscover (connected : Bool)
  | sessionDisconnect
  | frameTimer (busyness : ℕ)
  | mouseMove (polar azimuthal : ℚ) (hits : Hits)
  | mouseButton (button : UInt32) (pressed : Bool) (hits : Hits)
  | mouseWheel (amount : ℚ)

/-- What an action does to a program that is running. -/
def act (w : World) : Action → World
  | .zwin client r =>
    { w with scene := w.scene.step (.request client r) }.addBoundedApp w.scene.nextId
  | .destroyZwin client r => { w with scene := w.scene.step (.destroy client r) }
  | .desk client r => if w.admits client r then w.handle client r else w
  | .destroy client i =>
    if (w.resources i).any fun x => x.client = client then w.destroyResource i else w
  | .moveBounded client b =>
    if !w.scene.cutOff client && w.scene.resources b = some ⟨client, .bounded⟩ then
      w.requestStartMove client
    else w
  | .peerDiscover connected => w.peerDiscover connected
  | .sessionDisconnect => w.sessionDisconnect
  | .frameTimer busyness => w.frameTimer busyness
  | .mouseMove polar azimuthal hits => w.moveRelPointing polar azimuthal hits
  | .mouseButton button pressed hits => w.handleMouseButton button pressed hits
  | .mouseWheel amount => w.handleMouseWheel amount

/-- Nothing happens after a fault. -/
def step (w : World) (a : Action) : World := if w.stopped then w else w.act a

/-- The program at its start. -/
def init : World := {}

/-- The program after a run. -/
def run (as : List Action) : World := Run.final step init as

theorem run_concat (as : List Action) (a : Action) : run (as ++ [a]) = (run as).step a :=
  Run.final_concat step init as a

end World
end Yaza
