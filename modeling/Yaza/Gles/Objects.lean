import Yaza.Remote.Link

/-! The leaf objects of a scene (`zwin/gles_v32`): buffers, textures, samplers, shaders,
programs and vertex arrays. Each keeps a requested (`pending`) and a committed (`current`)
state. Weak pointers and weak resources are addresses that are locked when they are used. -/
namespace Yaza

/-- An array of a request: its size, and the memory its data pointer shows. Only the first
`size` bytes belong to the array. -/
structure WlArray where
  size : ℕ
  data : ℕ → UInt8

namespace WlArray

/-- `memcpy` of `n` bytes from the data pointer. -/
def read (a : WlArray) (n : ℕ) : Bytes := (List.range n).map a.data

/-- `from_wl_array` for a value of `n` bytes. -/
def decode (a : WlArray) (n : ℕ) : Option Bytes := if a.size = n then some (a.read n) else none

def ofBytes (bs : Bytes) : WlArray := ⟨bs.length, fun i => bs.getD i 0⟩

end WlArray

/-- A little-endian 64-bit offset. -/
def uint64OfBytes (bs : Bytes) : UInt64 :=
  bs.foldr (fun b acc => acc * 256 + b.toUInt64) 0

/-- `zwn_buffer`: the client memory it shows. -/
structure ShmBuffer where
  data : Bytes
  deriving DecidableEq, Repr

structure GlBuffer.Pending where
  target : UInt32
  usage : UInt32
  data : Option ℕ := none
  deriving DecidableEq, Repr

structure GlBuffer.Current where
  dataDamaged : Bool
  target : UInt32
  usage : UInt32
  data : Option Bytes := none
  dataSize : ℕ
  deriving DecidableEq, Repr

structure GlBuffer where
  pending : GlBuffer.Pending
  current : GlBuffer.Current
  proxy : Option Proxy := none
  deriving DecidableEq, Repr

namespace GlBuffer

/-- The constructor leaves every number and flag unset: they are what the memory held. -/
structure Garbage where
  pendingTarget : UInt32 := 0
  pendingUsage : UInt32 := 0
  dataDamaged : Bool := false
  target : UInt32 := 0
  usage : UInt32 := 0
  dataSize : ℕ := 0
  deriving DecidableEq, Repr

def construct (g : Garbage) : GlBuffer where
  pending := { target := g.pendingTarget, usage := g.pendingUsage }
  current := { dataDamaged := g.dataDamaged, target := g.target, usage := g.usage,
               dataSize := g.dataSize }

def updatePendingData (x : GlBuffer) (target usage : UInt32) (data : ℕ) : GlBuffer :=
  { x with pending := { target, usage, data := some data } }

/-- `GlBuffer::commit` once the pending resource was found to show `data`. -/
def commit (x : GlBuffer) (data : Bytes) : GlBuffer :=
  { x with
    current := { dataDamaged := true, target := x.pending.target, usage := x.pending.usage,
                 data := some data, dataSize := data.length }
    pending := { x.pending with data := none } }

end GlBuffer

structure GlTexture.Pending where
  image2d : Image2dData
  data : Option ℕ := none
  mipmapTarget : UInt32 := 0
  deriving DecidableEq, Repr

structure GlTexture.Current where
  image2d : Image2dData
  data : Option Bytes := none
  mipmapTarget : UInt32
  dataChanged : Bool := false
  mipmapTargetChanged : Bool := false
  deriving DecidableEq, Repr

structure GlTexture where
  pending : GlTexture.Pending
  current : GlTexture.Current
  proxy : Option Proxy := none
  deriving DecidableEq, Repr

namespace GlTexture

/-- The image descriptions and `current_.mipmap_target` start as what the memory held. -/
structure Garbage where
  pendingImage2d : Image2dData
  image2d : Image2dData
  mipmapTarget : UInt32
  deriving DecidableEq, Repr

def construct (g : Garbage) : GlTexture where
  pending := { image2d := g.pendingImage2d }
  current := { image2d := g.image2d, mipmapTarget := g.mipmapTarget }

def newImage2d (x : GlTexture) (image2d : Image2dData) (data : ℕ) : GlTexture :=
  { x with pending := { x.pending with image2d, data := some data } }

def requestGenerateMipmap (x : GlTexture) (target : UInt32) : GlTexture :=
  { x with pending := { x.pending with mipmapTarget := target } }

/-- The first half of `GlTexture::commit`, taken when the pending resource shows `data`. -/
def commitData (x : GlTexture) (data : Bytes) : GlTexture :=
  { x with
    current := { x.current with image2d := x.pending.image2d, data := some data,
                                dataChanged := true }
    pending := { x.pending with data := none } }

/-- The second half of `GlTexture::commit`. -/
def commitMipmap (x : GlTexture) : GlTexture :=
  if x.pending.mipmapTarget ≠ 0 then
    { x with
      current := { x.current with mipmapTarget := x.pending.mipmapTarget,
                                  mipmapTargetChanged := true }
      pending := { x.pending with mipmapTarget := 0 } }
  else x

end GlTexture

structure Parameter where
  changed : Bool
  type : ParamType
  pname : UInt32
  param : ParamValue
  deriving DecidableEq, Repr

/-- The maps of the source by key; a key occurs at most once. -/
abbrev Table (α : Type) := List (UInt32 × α)

namespace Table
variable {α : Type}

def find? (m : Table α) (k : UInt32) : Option α := (List.find? (fun e => e.1 = k) m).map Prod.snd

/-- `insert_or_assign`. -/
def insertOrAssign (m : Table α) (k : UInt32) (v : α) : Table α :=
  if m.any fun e => e.1 = k then m.map fun e => if e.1 = k then (k, v) else e
  else m ++ [(k, v)]

end Table

structure GlSampler where
  pending : Table Parameter := []
  current : Table Parameter := []
  proxy : Option Proxy := none
  deriving DecidableEq, Repr

namespace GlSampler

/-- `parameter_size_map`, its keys being `GL_TEXTURE_MIN_FILTER`, `.._MAG_FILTER`,
`.._WRAP_S`, `.._WRAP_T`, `.._WRAP_R`, `.._MIN_LOD`, `.._MAX_LOD`, `.._COMPARE_MODE`,
`.._COMPARE_FUNC` and `.._BORDER_COLOR`. -/
def parameterSizeMap : Table ℕ :=
  [(0x2801, 4), (0x2800, 4), (0x2802, 4), (0x2803, 4), (0x8072, 4), (0x813A, 4), (0x813B, 4),
    (0x884C, 4), (0x884D, 4), (0x1004, 16)]

def commit (x : GlSampler) : GlSampler :=
  { x with
    current := x.pending.foldl (fun m e => m.insertOrAssign e.1 e.2) x.current
    pending := [] }

end GlSampler

/-- `buffer` is a raw pointer to the client's buffer. -/
structure GlShader where
  type : UInt32
  buffer : ℕ
  proxy : Option Proxy := none
  deriving DecidableEq, Repr

structure GlProgram.Pending where
  damaged : Bool := false
  shouldLink : Bool := false
  shaders : List ℕ := []
  deriving DecidableEq, Repr

structure GlProgram.Current where
  linked : Bool := false
  shouldLink : Bool := false
  shaders : List ℕ := []
  deriving DecidableEq, Repr

structure GlProgram where
  pending : GlProgram.Pending := {}
  current : GlProgram.Current := {}
  proxy : Option Proxy := none
  deriving DecidableEq, Repr

namespace GlProgram

def requestLink (x : GlProgram) : GlProgram :=
  { x with pending := { x.pending with damaged := true, shouldLink := true } }

def attachShader (x : GlProgram) (shader : ℕ) : GlProgram :=
  { x with pending := { x.pending with damaged := true, shaders := x.pending.shaders ++ [shader] } }

/-- `GlProgram::commit` refuses to link again; nothing is changed then. -/
def relinks (x : GlProgram) : Bool :=
  x.pending.damaged && x.pending.shouldLink && x.current.linked

def commit (x : GlProgram) : GlProgram :=
  if !x.pending.damaged || x.relinks then x
  else
    { x with
      current :=
        { linked := x.current.linked || x.pending.shouldLink
          shouldLink := x.current.shouldLink || x.pending.shouldLink
          shaders := x.current.shaders ++ x.pending.shaders }
      pending := {} }

end GlProgram

/-- A new attribute is zero-initialised by `operator[]`. -/
structure VertexAttribute where
  size : Int32 := 0
  type : UInt32 := 0
  stride : Int32 := 0
  offset : UInt64 := 0
  normalized : Bool := false
  glBufferChanged : Bool := false
  glBuffer : Option ℕ := none
  enabilityChanged : Bool := false
  enabled : Bool := false
  deriving DecidableEq, Repr

def VertexAttribute.setEnability (x : VertexAttribute) (enabled : Bool) : VertexAttribute :=
  { x with enabilityChanged := true, enabled }

structure GlVertexArray where
  pending : Table VertexAttribute := []
  current : Table VertexAttribute := []
  proxy : Option Proxy := none
  deriving DecidableEq, Repr

namespace GlVertexArray

/-- A change of the entry `get_pending_attribute(index)` refers to. -/
def updatePendingAttribute (x : GlVertexArray) (index : UInt32)
    (f : VertexAttribute → VertexAttribute) : GlVertexArray :=
  { x with pending := x.pending.insertOrAssign index (f ((x.pending.find? index).getD {})) }

/-- `GlVertexArray::commit`: the loop resets the change flags of its own copy of each entry,
so those of the pending map stay. -/
def commit (x : GlVertexArray) : GlVertexArray := { x with current := x.pending }

end GlVertexArray
end Yaza
