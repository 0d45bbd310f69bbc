import Yaza.Lib.Run
import Yaza.Lib.Shared
import Yaza.Wayland.DataPool

/-! The memory of all data pools (`util/data_pool.cpp`): blocks that the pools share with the
buffers handed to the remote side, and the commits that fill them. -/
namespace Yaza
namespace Blocks

/-- `DataPool`; `data` is the address of its block. -/
structure DataPool where
  size : ℕ := 0
  data : Option ℕ := none
  deriving DecidableEq, Repr

/-- What a pool is a member of. -/
inductive Owner where
  | surface
  | glBuffer
  | glTexture
  | rendererBuffer
  deriving DecidableEq, Repr

/-- What comes first among the arguments of `CreateBuffer`: `data.get()`, or the capture that moves
from `data`. C++ leaves that to the compiler. -/
inductive ArgumentOrder where
  | getFirst
  | captureFirst
  deriving DecidableEq, Repr

/-- What `data.get()` gives; a pointer that was moved from is null. -/
def ArgumentOrder.get : ArgumentOrder → Option ℕ → Option ℕ
  | .getFirst, data => data
  | .captureFirst, _ => none

/-- What holds a block: a pool, or the capture of a buffer of `create_buffer`. The buffer shows what
is at `shown`, and is noted with the bytes that its pool had when it was created. -/
inductive Object where
  | pool (owner : Owner) (p : DataPool)
  | buffer (shown data : Option ℕ) (bytes : Option Bytes)
  deriving DecidableEq, Repr

def Object.data : Object → Option ℕ
  | .pool _ p => p.data
  | .buffer _ data _ => data

/-- The blocks of `malloc` that are not freed, and what holds them. -/
structure State where
  fault : Bool := false
  nextId : ℕ := 0
  blocks : Arena (Shared Bytes) := Arena.empty
  objects : Arena Object := Arena.empty

def DataPool.hasData (p : DataPool) : Bool := p.data.isSome

namespace State

/-- The block at an address, which is none if that is null or freed. -/
def contents (s : State) (data : Option ℕ) : Option Bytes :=
  data.bind fun b => (s.blocks b).map Shared.content

def put (s : State) (i : ℕ) (owner : Owner) (p : DataPool) : State :=
  { s with objects := s.objects.set i (.pool owner p) }

/-- Writes `size` bytes as `f` does, which may fail on the block. -/
def write (s : State) (data : Option ℕ) (size : ℕ) (f : Bytes → Option Bytes) : Option State :=
  match data with
  | none => if size = 0 then some s else none
  | some b => (s.blocks b).bind fun x => (f x.content).map fun bytes =>
    { s with blocks := s.blocks.set b { x with content := bytes } }

/-- `memcpy` into a block. -/
def memcpy (src dst : Bytes) : Option Bytes :=
  if src.length ≤ dst.length then some (src ++ dst.drop src.length) else none

/-- The loop of `read_wl_surface_texture`, which stays inside both blocks or fails. -/
def convert (src : Bytes) (size : ℕ) (dst : Bytes) : Option Bytes :=
  let c := Yaza.DataPool.Conversion.loop src size 0 { dst }
  if (∀ j ∈ c.reads, j < size) ∧ (∀ j ∈ c.writes, j < dst.length) ∧ c.overflow = false then
    some c.dst
  else none

/-- `reset`. Here and below `p` is the pool of the object `i`. -/
def reset (s : State) (i : ℕ) (owner : Owner) (p : DataPool) : Option (State × DataPool) :=
  (Shared.release s.blocks p.data).map fun blocks => ({ s with blocks }.put i owner {}, {})

/-- `ensure_and_set_data_size`. `memory` is what a new block holds, unless `malloc` fails. -/
def ensureAndSetDataSize (s : State) (i : ℕ) (owner : Owner) (p : DataPool)
    (memory : Option (ℕ → UInt8)) (size : ℕ) : Option (State × DataPool) :=
  if size ≤ p.size then some (s.put i owner { p with size }, { p with size })
  else
    (Shared.release s.blocks p.data).map fun blocks =>
      match memory with
      | some memory =>
        let block := ⟨Yaza.DataPool.malloc memory size, 1⟩
        let t := { s with nextId := s.nextId + 1, blocks := blocks.set s.nextId block }
        (t.put i owner { size, data := some s.nextId }, { size, data := some s.nextId })
      | none => ({ s with blocks }.put i owner { size }, { size })

/-- The size is ensured, and that many bytes are written. -/
def fill (s : State) (i : ℕ) (owner : Owner) (p : DataPool) (memory : Option (ℕ → UInt8))
    (size : ℕ) (f : Bytes → Option Bytes) : Option (State × DataPool) :=
  (s.ensureAndSetDataSize i owner p memory size).bind fun r =>
    (r.1.write r.2.data size f).map fun t => (t, r.2)

/-- `from_ptr`. -/
def fromPtr (s : State) (i : ℕ) (owner : Owner) (p : DataPool) (memory : Option (ℕ → UInt8))
    (data : Bytes) : Option (State × DataPool) :=
  s.fill i owner p memory data.length (memcpy data)

/-- `from_weak_resource`; `data` is what the buffer of the client holds. -/
def fromWeakResource (s : State) (i : ℕ) (owner : Owner) (p : DataPool)
    (memory : Option (ℕ → UInt8)) (data : Bytes) : Option (State × DataPool) :=
  s.fill i owner p memory data.length (memcpy data)

/-- `read_wl_surface_texture`. -/
def readWlSurfaceTexture (s : State) (i : ℕ) (owner : Owner) (p : DataPool)
    (memory : Option (ℕ → UInt8)) (b : WlShmBuffer) : Option (State × DataPool) :=
  s.fill i owner p memory (b.stride * b.height) (convert b.data (b.stride * b.height))

/-- `create_buffer`. -/
def createBuffer (s : State) (order : ArgumentOrder) (p : DataPool) : Option State :=
  (Shared.retain s.blocks p.data).map fun blocks =>
    { s with
      nextId := s.nextId + 1
      blocks
      objects := s.objects.set s.nextId
        (.buffer (order.get p.data) p.data (s.contents p.data)) }

def create (s : State) (owner : Owner) : State :=
  { s with nextId := s.nextId + 1, objects := s.objects.set s.nextId (.pool owner {}) }

/-- What each commit does before it writes. -/
def clear (s : State) (i : ℕ) (owner : Owner) (p : DataPool) : Option (State × DataPool) :=
  if p.hasData then s.reset i owner p else some (s, p)

/-- The texture in `Surface::commit`, with the buffer that is pending. -/
def commitTexture (s : State) (i : ℕ) (p : DataPool) (buffer : Option WlShmBuffer)
    (memory : Option (ℕ → UInt8)) : Option (State × DataPool) :=
  match buffer with
  | none => some (s, p)
  | some b => (s.clear i .surface p).bind fun r =>
    if b.supported then r.1.readWlSurfaceTexture i .surface r.2 memory b else some r

/-- The texture is handed to the renderer, if there is one and it has data. -/
def drawTexture (s : State) (order : ArgumentOrder) (p : DataPool) (hasRenderer : Bool) :
    Option State :=
  if hasRenderer && p.hasData then s.createBuffer order p else some s

/-- `Surface::commit`. -/
def commitSurface (s : State) (order : ArgumentOrder) (i : ℕ) (p : DataPool)
    (buffer : Option WlShmBuffer) (memory : Option (ℕ → UInt8)) (hasRenderer : Bool) :
    Option State :=
  (s.commitTexture i p buffer memory).bind fun r => r.1.drawTexture order r.2 hasRenderer

/-- The data in a commit of a `gl_buffer` or a `gl_texture`, with what is pending. -/
def commitData (s : State) (i : ℕ) (owner : Owner) (p : DataPool) (data : Option Bytes)
    (memory : Option (ℕ → UInt8)) : Option State :=
  match data with
  | none => some s
  | some data => (s.clear i owner p).bind fun r =>
    (r.1.fromWeakResource i owner r.2 memory data).map Prod.fst

/-- `GlBuffer::commit`. -/
def commitGlBuffer (s : State) (i : ℕ) (p : DataPool) (data : Option Bytes)
    (memory : Option (ℕ → UInt8)) : Option State := s.commitData i .glBuffer p data memory

/-- `GlTexture::commit`. -/
def commitGlTexture (s : State) (i : ℕ) (p : DataPool) (data : Option Bytes)
    (memory : Option (ℕ → UInt8)) : Option State := s.commitData i .glTexture p data memory

/-- The constructor of a buffer of a renderer, the only one that sets its data. -/
def createRendererBuffer (s : State) (order : ArgumentOrder) (data : Option Bytes)
    (memory : Option (ℕ → UInt8)) : Option State :=
  let t := s.create .rendererBuffer
  match data with
  | none => some t
  | some data => (t.fromPtr s.nextId .rendererBuffer {} memory data).bind fun r =>
    r.1.createBuffer order r.2

/-- A pool goes with its owner, and a buffer when the remote side has no use for it any more. -/
def destroy (s : State) (i : ℕ) (o : Object) : Option State :=
  (Shared.release s.blocks o.data).map fun blocks =>
    { s with blocks, objects := s.objects.erase i }

inductive Action where
  | create (owner : Owner)
  | createRendererBuffer (data : Option Bytes) (memory : Option (ℕ → UInt8))
  | commitSurface (i : ℕ) (buffer : Option WlShmBuffer) (memory : Option (ℕ → UInt8))
      (hasRenderer : Bool)
  | initRenderer (i : ℕ)
  | commitGlBuffer (i : ℕ) (data : Option Bytes) (memory : Option (ℕ → UInt8))
  | syncGlBuffer (i : ℕ)
  | commitGlTexture (i : ℕ) (data : Option Bytes) (memory : Option (ℕ → UInt8))
  | syncGlTexture (i : ℕ)
  | destroy (i : ℕ)

/-- The pool of an owner of this kind. -/
def poolOf (s : State) (i : ℕ) (owner : Owner) : Option DataPool :=
  match s.objects i with
  | some (.pool o p) => if o = owner then some p else none
  | _ => none

def onPool (s : State) (i : ℕ) (owner : Owner) (f : DataPool → Option State) : Option State :=
  (s.poolOf i owner).elim (some s) f

def act (order : ArgumentOrder) (s : State) : Action → Option State
  | .create owner => some (s.create owner)
  | .createRendererBuffer data memory => s.createRendererBuffer order data memory
  | .commitSurface i buffer memory hasRenderer =>
    s.onPool i .surface fun p => s.commitSurface order i p buffer memory hasRenderer
  | .initRenderer i => s.onPool i .surface fun p => s.drawTexture order p true
  | .commitGlBuffer i data memory =>
    s.onPool i .glBuffer fun p => s.commitGlBuffer i p data memory
  | .syncGlBuffer i => s.onPool i .glBuffer fun p => s.createBuffer order p
  | .commitGlTexture i data memory =>
    s.onPool i .glTexture fun p => s.commitGlTexture i p data memory
  | .syncGlTexture i => s.onPool i .glTexture fun p => s.createBuffer order p
  | .destroy i => (s.objects i).elim (some s) fun o => s.destroy i o

/-- An access outside a block, or to none, is a fault, and nothing is said of what follows. -/
def step (order : ArgumentOrder) (s : State) (a : Action) : State :=
  if s.fault then s else (s.act order a).getD { s with fault := true }

end State
end Blocks
end Yaza
