import Yaza.Wayland.Surface
import Yaza.Zwin.Requests

/-! The whole program: the scene of the zwin clients, the surfaces and seats of the Wayland
clients, and the one seat of the server. -/
namespace Yaza

/-- `BoundedObject`: what the pointer can be on. -/
inductive BoundedObject where
  | surface (id : ℕ)
  | app (id : ℕ)
  deriving DecidableEq, Repr

/-- The calls `ServerSeat` makes on a bounded object. -/
inductive ObjectCall where
  | enter
  | leave
  | motion
  | button (button : UInt32) (pressed : Bool)
  | axis (amount : ℚ)
  | frame
  deriving DecidableEq, Repr

/-- What the server sends to the clients about the objects of this file. -/
inductive DeskEvent where
  | bufferRelease (buffer : ℕ)
  | callbackDone (callback : ℕ)
  | pointing (receivers : List ℕ) (object : BoundedObject) (call : ObjectCall)
  | keyboardEnter (keyboards : List ℕ) (surface : ℕ)
  | keyboardLeave (keyboards : List ℕ) (surface : ℕ)
  | xdgConfigure (xdgSurface : ℕ)
  | toplevelConfigure (toplevel : ℕ) (activated : Bool)
  | dataOffer (device offer : ℕ) (mimeTypes : List String)
  | selection (device : ℕ) (offer : Option ℕ)
  | sourceTarget (source : ℕ) (mimeType : Option String)
  | sourceSend (source : ℕ) (mimeType : String)
  deriving DecidableEq, Repr

inductive DeskInterface where
  | wlBuffer | surface | xdgSurface | xdgToplevel
  | seat | pointer | keyboard | ray
  | dataDevice | dataSource | dataOffer
  deriving DecidableEq, Repr

structure DeskResource where
  client : ℕ
  interface : DeskInterface
  deriving DecidableEq, Repr

/-- `wlSurface` is a weak pointer. -/
structure XdgSurface where
  isFirstCommit : Bool := true
  wlSurface : ℕ
  deriving DecidableEq, Repr

/-- `xdgSurface` is a raw pointer. -/
structure XdgTopLevel where
  xdgSurface : ℕ
  deriving DecidableEq, Repr

/-- The lists of a `wl_seat`; a new member goes to the front. -/
structure ClientSeat where
  pointers : List ℕ := []
  keyboards : List ℕ := []
  dataDevices : List ℕ := []
  rays : List ℕ := []
  deriving DecidableEq, Repr

/-- `dataSource` is a raw pointer. -/
structure DataDevice where
  dataSource : Option ℕ := none
  deriving DecidableEq, Repr

structure DataSource where
  mimeTypes : List String := []
  deriving DecidableEq, Repr

/-- `dataSource` is a raw pointer. -/
structure DataOffer where
  dataSource : ℕ
  deriving DecidableEq, Repr

inductive FocusedObjState where
  | default | moving
  deriving DecidableEq, Repr

/-- `clientSeats` holds raw pointers, which are null for clients that were only looked up;
`currentSelection` is one too. The other three are weak. -/
structure ServerSeat where
  clientSeats : Arena (Option ℕ) := Arena.empty
  currentSelection : Option ℕ := none
  objState : FocusedObjState := .default
  focusedObj : Option BoundedObject := none
  keyboardFocusedSurface : Option ℕ := none
  cursor : Option ℕ := none
  hotspot : ℤ × ℤ := (0, 0)
  cursorDistance : ℚ := 0

/-- The calls of `RayCaster` on its renderer are not recorded, only the channel it was made on. -/
structure RayCaster where
  length : ℚ := 34 / 10
  polar : ℚ := floatPi / 2
  azimuthal : ℚ := floatPi
  renderer : Option ℕ := none
  deriving DecidableEq, Repr

/-- One use of `client_seats[client]`: the entry that was found, and whether it is a `wl_seat` of
the client that is alive. -/
structure Lookup where
  client : ℕ
  entry : Option ℕ
  live : Bool
  deriving DecidableEq, Repr

/-- `surfaceList` and `boundedApps` are the lists of weak pointers of `Server`; `calls` and
`lookups` are histories, oldest first. -/
structure World where
  scene : Scene := {}
  fault : Option Fault := none
  events : List DeskEvent := []
  nextId : ℕ := 0
  resources : Arena DeskResource := Arena.empty
  wlBuffers : Arena WlShmBuffer := Arena.empty
  surfaces : Arena Surface := Arena.empty
  xdgSurfaces : Arena XdgSurface := Arena.empty
  toplevels : Arena XdgTopLevel := Arena.empty
  clientSeats : Arena ClientSeat := Arena.empty
  dataDevices : Arena DataDevice := Arena.empty
  dataSources : Arena DataSource := Arena.empty
  dataOffers : Arena DataOffer := Arena.empty
  surfaceList : List ℕ := []
  boundedApps : List ℕ := []
  seat : ServerSeat := {}
  ray : RayCaster := {}
  calls : List (BoundedObject × ObjectCall) := []
  lookups : List Lookup := []

namespace World

def crash (w : World) (f : Fault) : World := { w with fault := w.fault.or (some f) }

/-- The program has stopped. -/
def stopped (w : World) : Bool := w.fault.isSome || w.scene.fault.isSome

/-- What comes next, unless the program has stopped. -/
def andThen (w : World) (f : World → World) : World := if w.stopped then w else f w

def emit (w : World) (e : DeskEvent) : World := { w with events := w.events ++ [e] }

/-- The object is alive. -/
def alive (w : World) : BoundedObject → Bool
  | .surface i => (w.surfaces i).isSome
  | .app i => (w.scene.boundedApps i).isSome

/-- `BoundedObject::client`. -/
def clientOf (w : World) : BoundedObject → Option ℕ
  | .surface i => (w.resources i).map DeskResource.client
  | .app i => (w.scene.resources i).map Resource.client

/-- What a weak pointer to a bounded object locks to. -/
def lock (w : World) (o : Option BoundedObject) : Option BoundedObject := o.filter w.alive

def modifySurface (w : World) (i : ℕ) (f : Surface → Surface) : World :=
  { w with surfaces := w.surfaces.modify i f }

/-- `Server::foreach_surface` drops what has expired from the list. -/
def dropExpiredSurfaces (w : World) : World :=
  { w with surfaceList := w.surfaceList.filter fun i => (w.surfaces i).isSome }

def dropExpiredApps (w : World) : World :=
  { w with boundedApps := w.boundedApps.filter fun i => (w.scene.boundedApps i).isSome }

/-- One round of `Server::reorder_surfaces`, with the index counted so far. -/
def reorderSurface (acc : World × ℕ) (i : ℕ) : World × ℕ :=
  match (acc.1.surfaces i).bind fun x => x.updateDistanceByLayerIndex acc.2 with
  | none => acc
  | some y => ({ acc.1 with surfaces := acc.1.surfaces.set i y }, acc.2 + 1)

/-- `Server::reorder_surfaces`. -/
def reorderSurfaces (w : World) : World :=
  (w.dropExpiredSurfaces.surfaceList.foldl reorderSurface (w.dropExpiredSurfaces, 0)).1

/-- `Server::add_surface`. -/
def addSurface (w : World) (i : ℕ) : World :=
  { w with surfaceList := i :: w.surfaceList }.reorderSurfaces

/-- `Server::get_surface_from_resource`. -/
def getSurfaceFromResource (w : World) (i : ℕ) : Option ℕ :=
  w.surfaceList.find? fun j => (w.surfaces j).isSome && j = i

/-- `Server::raise_surface_top`. -/
def raiseSurfaceTop (w : World) (i : ℕ) : World :=
  match w.getSurfaceFromResource i with
  | none => w
  | some j => { w with surfaceList := j :: w.surfaceList.erase j }.reorderSurfaces

/-- The seat is a live `wl_seat` of the client. -/
def ownsSeat (w : World) (client i : ℕ) : Bool :=
  (w.clientSeats i).isSome && (w.resources i).any fun r => r.client = client

def logLookup (w : World) (client : ℕ) (entry : Option ℕ) (live : Bool) : World :=
  { w with lookups := w.lookups ++ [{ client, entry, live }] }

/-- `operator[]` adds a null entry for a client that has none. -/
def insertNull (w : World) (client : ℕ) : World :=
  { w with seat.clientSeats := w.seat.clientSeats.set client none }

/-- `client_seats[client]`, and what is done with the seat that is found. -/
def withClientSeat (w : World) (client : ℕ) (k : World → ℕ → ClientSeat → World) : World :=
  match (w.seat.clientSeats client).join with
  | none => ((w.insertNull client).logLookup client none false).crash .nullPointer
  | some i =>
    match w.clientSeats i with
    | none => (w.logLookup client (some i) false).crash .useAfterFree
    | some x => k (w.logLookup client (some i) (w.ownsSeat client i)) i x

/-- The same for the client of an object that is alive. -/
def withSeatOf (w : World) (o : BoundedObject) (k : World → ClientSeat → World) : World :=
  match w.clientOf o with
  | none => w.crash .useAfterFree
  | some client => w.withClientSeat client fun w _ x => k w x

end World
end Yaza
