import Yaza.Zwin.Scene
import Mathlib.Data.Int.Notation

/-! A `wl_surface` (`wayland/surface.cpp`) and the renderer it draws with. Positions and matrices
are kept as what they are computed from; numbers are exact. -/
namespace Yaza

/-- A buffer of libwayland's own `wl_shm`. -/
structure WlShmBuffer where
  format : UInt32
  width : ℕ
  height : ℕ
  stride : ℕ
  data : Bytes
  deriving DecidableEq, Repr

namespace WlShmBuffer

/-- `WL_SHM_FORMAT_ARGB8888` and `WL_SHM_FORMAT_XRGB8888`. -/
def supported (b : WlShmBuffer) : Bool := b.format = 0 || b.format = 1

end WlShmBuffer

/-- What position and rotation of a surface were computed from when they were set last: nothing
yet, its place on the sphere, or the ray it follows as a cursor. -/
inductive Place where
  | initial
  | sphere (distance polar azimuthal : ℚ)
  | cursor (distance polar azimuthal : ℚ) (hotspot texSize : ℤ × ℤ)
  deriving DecidableEq, Repr

/-- `geom_`. The size is that of the texture, in pixels. -/
structure Geom where
  place : Place := .initial
  size : Option (ℕ × ℕ) := none
  deriving DecidableEq, Repr

/-- The matrix of `Surface::sync_geom`. -/
structure LocalModel where
  geom : Geom
  offset : ℤ × ℤ
  active : Bool
  deriving DecidableEq, Repr

/-- The calls on a renderer. -/
inductive RendererCall where
  | registerBuffer (index : UInt32)
  | requestDrawArrays (mode : UInt32) (first : Int32) (count : UInt32)
  | setUniformMatrix (localModel : LocalModel)
  | setTexture (texture : WlShmBuffer) (size : ℕ × ℕ)
  | commit
  deriving DecidableEq, Repr

/-- All proxies of a renderer are made by its constructor, on one channel. -/
structure Renderer where
  channel : ℕ
  calls : List RendererCall := []
  deriving DecidableEq, Repr

inductive Role where
  | default | cursor | xdgToplevel | xdgPopup
  deriving DecidableEq, Repr

/-- `kMinDistance` and `kLayerZOffset`. -/
def minDistance : ℚ := 4 / 10

def layerZOffset : ℚ := 1 / 10000

/-- `roleObj` and `pendingBuffer` are raw pointers. `texSize` starts as what the memory held. -/
structure Surface where
  pendingBuffer : Option ℕ := none
  pendingFrames : List ℕ := []
  pendingOffset : ℤ × ℤ := (0, 0)
  offsetChanged : Bool := false
  currentFrames : List ℕ := []
  offset : ℤ × ℤ := (0, 0)
  isActive : Bool := true
  role : Role := .default
  roleObj : Option ℕ := none
  texture : Option WlShmBuffer := none
  texSize : ℕ × ℕ
  distance : ℚ := minDistance
  polar : ℚ := floatPi / 2
  azimuthal : ℚ := floatPi
  geom : Geom := {}
  renderer : Option Renderer := none
  deriving DecidableEq, Repr

namespace Surface

/-- Calls on the renderer, if there is one. -/
def tell (x : Surface) (cs : List RendererCall) : Surface :=
  { x with renderer := x.renderer.map fun r => { r with calls := r.calls ++ cs } }

/-- `Surface::sync_geom`. -/
def syncGeom (x : Surface) : Surface := x.tell [.setUniformMatrix ⟨x.geom, x.offset, x.isActive⟩]

/-- `Surface::update_pos_and_rot`. -/
def updatePosAndRot (x : Surface) : Surface :=
  { x with geom.place := .sphere x.distance x.polar x.azimuthal }.syncGeom

/-- `Surface::set_texture_size`. -/
def setTextureSize (x : Surface) (size : ℕ × ℕ) : Surface :=
  { x with texSize := size, geom.size := some size }.syncGeom

/-- The texture, if there is one, is sent. -/
def tellTexture (x : Surface) : Surface :=
  match x.texture with
  | none => x
  | some texture => x.tell [.setTexture texture x.texSize, .commit]

/-- `Surface::init_renderer`. -/
def initRenderer (x : Surface) (channel : ℕ) : Surface :=
  ({ x with
      renderer := some ⟨channel, [.registerBuffer 0, .registerBuffer 1, .requestDrawArrays 6 0 4]⟩
    }.updatePosAndRot).tellTexture

def setRole (x : Surface) (role : Role) (roleObj : Option ℕ) : Surface := { x with role, roleObj }

def setOffset (x : Surface) (offset : ℤ × ℤ) : Surface :=
  { x with offsetChanged := true, pendingOffset := offset }

def setActive (x : Surface) (active : Bool) : Surface :=
  ({ x with isActive := active }.syncGeom).tell [.commit]

/-- `Surface::move` of a surface that is dragged. -/
def move (x : Surface) (polar azimuthal : ℚ) : Surface :=
  ({ x with polar := x.polar + polar, azimuthal := x.azimuthal + azimuthal }.updatePosAndRot).tell
    [.commit]

/-- `Surface::move` of a cursor. -/
def moveCursor (x : Surface) (distance polar azimuthal : ℚ) (hotspot : ℤ × ℤ) : Surface :=
  ({ x with
      geom.place := .cursor distance polar azimuthal hotspot (x.texSize.1, x.texSize.2)
    }.syncGeom).tell [.commit]

/-- `Surface::update_distance_by_layer_index`; nothing when the index is not consumed. -/
def updateDistanceByLayerIndex (x : Surface) (index : ℕ) : Option Surface :=
  if x.role = .cursor then none
  else
    let y := { x with distance := minDistance + layerZOffset * index }.updatePosAndRot
    some (if y.texture.isSome then y.tell [.commit] else y)

def attach (x : Surface) (buffer : Option ℕ) : Surface := { x with pendingBuffer := buffer }

def queueFrameCallback (x : Surface) (callback : ℕ) : Surface :=
  { x with pendingFrames := x.pendingFrames ++ [callback] }

/-- The first part of `Surface::commit`. -/
def commitOffset (x : Surface) : Surface :=
  if x.offsetChanged then
    { x with
      offset := (x.offset.1 + x.pendingOffset.1, x.offset.2 + x.pendingOffset.2)
      offsetChanged := false }.syncGeom
  else x

/-- The second part of `Surface::commit`, for the buffer that is pending. -/
def commitBuffer (x : Surface) (b : WlShmBuffer) : Surface :=
  if b.supported then
    { { x with texture := some b }.setTextureSize (b.width, b.height) with pendingBuffer := none }
  else { x with texture := none, pendingBuffer := none }

/-- `wl_list_insert_list` puts the pending callbacks in front of the current ones. -/
def commitFrames (x : Surface) : Surface :=
  { x with currentFrames := x.pendingFrames ++ x.currentFrames, pendingFrames := [] }

/-- Whether `Surface::check_intersection` tests the ray. -/
def pickable (x : Surface) : Bool := x.texture.isSome && x.role ≠ .cursor

end Surface
end Yaza
