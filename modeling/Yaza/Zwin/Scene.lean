import Yaza.Gles.Technique

/-! The scene graph of the zwin clients: virtual objects, their rendering units, bounded apps
and the objects of `Gles`. -/
namespace Yaza

/-- What the server sends to clients about scene objects. -/
inductive SceneEvent where
  | bufferRelease (buffer : ℕ)
  | callbackDone (callback : ℕ)
  | boundedConfigure (bounded : ℕ) (halfSize : Bytes) (serial : ℕ)
  deriving DecidableEq, Repr

inductive ErrorCode where
  | wlArraySize
  | uniformVariable
  | technique
  | relink
  | invalidEnum
  | implementation
  deriving DecidableEq, Repr

/-- An error posted to a client, with the format string of its message. The client is cut off:
none of its later requests is handled. -/
structure PostedError where
  client : ℕ
  code : ErrorCode
  text : String
  deriving DecidableEq, Repr

inductive Interface where
  | virtualObject | bounded | renderingUnit | baseTechnique
  | glProgram | glShader | glVertexArray | glBuffer | glTexture | glSampler
  | region | shmBuffer
  deriving DecidableEq, Repr

/-- A `wl_resource`: it can outlive the object behind it. -/
structure Resource where
  client : ℕ
  interface : Interface
  deriving DecidableEq, Repr

/-- The listeners of `VirtualObject::events_.committed`. -/
inductive CommitListener where
  | unit (id : ℕ)
  | app (id : ℕ)
  deriving DecidableEq, Repr

/-- `app`, `renderingUnitList` and the owners below are raw pointers. -/
structure VirtualObject where
  pendingFrames : List ℕ := []
  currentFrames : List ℕ := []
  committed : Bool := false
  destroying : Bool := false
  app : Option ℕ := none
  renderingUnitList : List ℕ := []
  listeners : List CommitListener := []
  proxy : Option Proxy := none
  deriving DecidableEq, Repr

/-- What a commit does to the members of the object itself. `wl_list_insert_list` puts the
pending callbacks in front of the current ones. -/
def VirtualObject.commit (x : VirtualObject) : VirtualObject :=
  { x with
    currentFrames := x.pendingFrames ++ x.currentFrames
    pendingFrames := []
    committed := true }

structure CuboidRegion where
  halfSize : Bytes
  center : Bytes
  quat : Bytes
  deriving DecidableEq, Repr

structure BoundedState where
  halfSize : Bytes := List.replicate 12 0
  regions : List CuboidRegion := []
  deriving DecidableEq, Repr

/-- The float `std::numbers::pi_v<float>`. -/
def floatPi : ℚ := 13176795 / 4194304

/-- The geometry of a bounded app is a function of its two angles: every change of them is
followed by `update_pos_and_rot`. -/
structure BoundedApp where
  pending : BoundedState := {}
  current : BoundedState := {}
  virtualObject : ℕ
  polar : ℚ := floatPi / 2
  azimuthal : ℚ := floatPi
  configureList : List (ℕ × Bytes) := []
  deriving DecidableEq, Repr

structure RenderingUnit where
  committed : Bool := false
  owner : ℕ
  technique : Option ℕ := none
  listeners : List ℕ := []
  proxy : Option Proxy := none
  deriving DecidableEq, Repr

structure Scene where
  remote : Remote := {}
  fault : Option Fault := none
  errors : List PostedError := []
  events : List SceneEvent := []
  serial : ℕ := 0
  nextId : ℕ := 0
  resources : Arena Resource := Arena.empty
  virtualObjects : Arena VirtualObject := Arena.empty
  boundedApps : Arena BoundedApp := Arena.empty
  renderingUnits : Arena RenderingUnit := Arena.empty
  baseTechniques : Arena GlBaseTechnique := Arena.empty
  glPrograms : Arena GlProgram := Arena.empty
  glShaders : Arena GlShader := Arena.empty
  glVertexArrays : Arena GlVertexArray := Arena.empty
  glBuffers : Arena GlBuffer := Arena.empty
  glTextures : Arena GlTexture := Arena.empty
  glSamplers : Arena GlSampler := Arena.empty
  regions : Arena (List CuboidRegion) := Arena.empty
  shmBuffers : Arena ShmBuffer := Arena.empty

namespace Scene

/-- The program stops; what made it stop first is kept. -/
def crash (s : Scene) (f : Fault) : Scene := { s with fault := s.fault.or (some f) }

/-- `wl_resource_post_error`. -/
def postError (s : Scene) (resource : ℕ) (code : ErrorCode) (text : String) : Scene :=
  match s.resources resource with
  | none => s.crash .useAfterFree
  | some r => { s with errors := s.errors ++ [⟨r.client, code, text⟩] }

def call (s : Scene) (c : Call) : Scene := { s with remote := s.remote.call c }

def callAll (s : Scene) (cs : List Call) : Scene :=
  { s with remote := { s.remote with calls := s.remote.calls ++ cs } }

/-- A binding whose texture and sampler both lock. -/
def bindingAlive (s : Scene) (b : TextureBinding) : Bool :=
  (s.glTextures b.texture).isSome && (s.glSamplers b.sampler).isSome

end Scene
end Yaza
