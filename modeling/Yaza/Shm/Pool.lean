import Yaza.Lib.Arena
import Yaza.Util.Convert

/-! The memory the clients share (`zwin/shm`): pools, the buffers in them, and the mappings of the
kernel. A pool is freed, and its mapping released, when nothing refers to it. -/
namespace Yaza
namespace Shm

/-- `ShmPool`. `data` names the mapping, wherever `mremap` moves it; `sigbuf_is_impossible` is only
read when a buffer is accessed. -/
structure ShmPool where
  internalRefcount : ℤ := 1
  externalRefcount : ℤ := 0
  data : ℕ
  size : Int64
  newSize : Int64
  deriving DecidableEq, Repr

/-- `ShmBuffer`. -/
structure ShmBuffer where
  size : Int64
  offset : Int64
  pool : ℕ
  deriving DecidableEq, Repr

/-- The user data of a `zwn_shm_pool` or of a `zwn_buffer`. -/
inductive Resource where
  | pool (p : ℕ)
  | buffer (b : ℕ)
  deriving DecidableEq, Repr

inductive ShmError where
  | noMemory
  | invalidSize (text : String)
  | invalidFd (text : String)
  deriving DecidableEq, Repr

/-- What stops the program: freed memory is used or a range unmapped that is no mapping, or an
assertion of the source fails. -/
inductive Fault where
  | useAfterFree
  | badRange
  | assertion
  deriving DecidableEq, Repr

/-- What the system answers during a request: whether `zalloc` and `wl_resource_create` succeed, and
the error of `mmap` or `mremap` if it fails. -/
structure System where
  zalloc : Bool := true
  resourceCreate : Bool := true
  mapError : Option String := none
  deriving DecidableEq, Repr

end Shm

/-- The pool and the resource of one request have the same address here, and so has the mapping;
`mapped` and `unmapped` are the calls of `mmap` and `munmap` that succeeded. -/
structure Shm where
  fault : Option Shm.Fault := none
  errors : List Shm.ShmError := []
  nextId : ℕ := 0
  resources : Arena Shm.Resource := Arena.empty
  pools : Arena Shm.ShmPool := Arena.empty
  buffers : Arena Shm.ShmBuffer := Arena.empty
  mappings : Arena Int64 := Arena.empty
  mapped : List ℕ := []
  unmapped : List ℕ := []

namespace Shm

def crash (s : Shm) (f : Fault) : Shm := { s with fault := s.fault.or (some f) }

def post (s : Shm) (e : ShmError) : Shm := { s with errors := s.errors ++ [e] }

/-- `munmap`, of a whole mapping or with a fault. -/
def munmap (s : Shm) (data : ℕ) (size : Int64) : Shm :=
  if s.mappings data = some size then
    { s with mappings := s.mappings.erase data, unmapped := s.unmapped ++ [data] }
  else s.crash .badRange

/-- `finish_resize`. -/
def finishResize (s : Shm) (p : ℕ) (x : ShmPool) (sys : System) : Shm :=
  if x.size = x.newSize then s
  else
    match sys.mapError with
    | some _ => s.post (.invalidFd "failed mremap")
    | none =>
      { s with
        mappings := s.mappings.modify x.data fun _ => x.newSize
        pools := s.pools.set p { x with size := x.newSize } }

/-- The end of `unref`. -/
def releasePool (s : Shm) (p : ℕ) : Shm :=
  match s.pools p with
  | none => s.crash .useAfterFree
  | some x =>
    if 0 < x.internalRefcount + x.externalRefcount then s
    else { s.munmap x.data x.size with pools := s.pools.erase p }

/-- The first part of `unref`, for the external references that nothing takes. -/
def dropExternal (s : Shm) (p : ℕ) (x : ShmPool) (sys : System) : Shm :=
  let y := { x with externalRefcount := x.externalRefcount - 1 }
  if y.externalRefcount < 0 then s.crash .assertion
  else if y.externalRefcount = 0 then { s with pools := s.pools.set p y }.finishResize p y sys
  else { s with pools := s.pools.set p y }

/-- The same for the internal ones. -/
def dropInternal (s : Shm) (p : ℕ) (x : ShmPool) : Shm :=
  let y := { x with internalRefcount := x.internalRefcount - 1 }
  if y.internalRefcount < 0 then s.crash .assertion else { s with pools := s.pools.set p y }

/-- `unref`. -/
def unref (s : Shm) (p : ℕ) (isExternal : Bool) (sys : System) : Shm :=
  match s.pools p with
  | none => s.crash .useAfterFree
  | some x => (if isExternal then s.dropExternal p x sys else s.dropInternal p x).releasePool p

/-- `new_pool`. -/
def newPool (s : Shm) (fd : ℤ) (size : Int64) (sys : System) : Shm :=
  if !sys.zalloc then s.post .noMemory
  else
    match sys.mapError with
    | some e => s.post (.invalidFd s!"failed mmap fd {fd}: {e}")
    | none =>
      let t := { s with
        nextId := s.nextId + 1
        mappings := s.mappings.set s.nextId size
        mapped := s.mapped ++ [s.nextId] }
      if sys.resourceCreate then
        { t with
          resources := s.resources.set s.nextId (.pool s.nextId)
          pools := s.pools.set s.nextId { data := s.nextId, size, newSize := size } }
      else (t.post .noMemory).munmap s.nextId size

/-- `new_buffer`, and whether there is one. -/
def newBuffer (s : Shm) (p : ℕ) (size offset : Int64) (sys : System) : Shm × Bool :=
  if sys.zalloc && sys.resourceCreate then
    ({ s with
        nextId := s.nextId + 1
        resources := s.resources.set s.nextId (.buffer s.nextId)
        buffers := s.buffers.set s.nextId { size, offset, pool := p } }, true)
  else (s.post .noMemory, false)

/-- `destroy_buffer`. -/
def destroyBuffer (s : Shm) (b : ℕ) (sys : System) : Shm :=
  match s.buffers b with
  | none => s.crash .useAfterFree
  | some y => { s.unref y.pool false sys with buffers := s.buffers.erase b }

/-- `create_pool`. -/
def createPool (s : Shm) (fd : ℤ) (sizeArray : List UInt8) (sys : System) : Shm :=
  match fromWlArray sizeArray 0 with
  | none => s.post (.invalidSize "requested size is invalid")
  | some size =>
    if size ≤ 0 then s.post (.invalidSize s!"requested size ({size}) is invalid")
    else s.newPool fd size sys

/-- The offset and the size that `create_buffer` goes on with; after an error they are zero. -/
def readExtent (s : Shm) (offsetArray sizeArray : List UInt8) : Shm × Int64 × Int64 :=
  match fromWlArray offsetArray 0 with
  | none => (s.post (.invalidSize "requested size is invalid"), 0, 0)
  | some offset =>
    match fromWlArray sizeArray 0 with
    | none => (s.post (.invalidSize "requested size is invalid"), offset, 0)
    | some size => (s, offset, size)

/-- The check of `create_buffer`. -/
def outside (x : ShmPool) (offset size : Int64) : Bool :=
  offset < 0 || size ≤ 0 || x.size - size < offset

/-- `create_buffer`. -/
def createBuffer (s : Shm) (p : ℕ) (offsetArray sizeArray : List UInt8) (sys : System) : Shm :=
  match s.pools p with
  | none => s.crash .useAfterFree
  | some x =>
    let (t, offset, size) := s.readExtent offsetArray sizeArray
    if outside x offset size then
      t.post (.invalidSize s!"requested size ({size}) is invalid")
    else
      let (u, isMade) := t.newBuffer p size offset sys
      if isMade then
        { u with pools := u.pools.set p { x with internalRefcount := x.internalRefcount + 1 } }
      else u

/-- `resize`. -/
def resize (s : Shm) (p : ℕ) (size : Int32) (sys : System) : Shm :=
  match s.pools p with
  | none => s.crash .useAfterFree
  | some x =>
    if size.toInt64 < x.size then s.post (.invalidFd "shrinking pool invalid")
    else
      let y := { x with newSize := size.toInt64 }
      if y.externalRefcount = 0 then { s with pools := s.pools.set p y }.finishResize p y sys
      else { s with pools := s.pools.set p y }

/-- `wl_resource_destroy`, on request or when the client goes. -/
def destroyResource (s : Shm) (r : ℕ) (sys : System) : Shm :=
  match s.resources r with
  | none => s
  | some (.pool p) => { s.unref p false sys with resources := s.resources.erase r }
  | some (.buffer b) => { s.destroyBuffer b sys with resources := s.resources.erase r }

inductive Action where
  | createPool (fd : ℤ) (size : List UInt8) (sys : System)
  | createBuffer (pool : ℕ) (offset size : List UInt8) (sys : System)
  | resize (pool : ℕ) (size : Int32) (sys : System)
  | destroy (resource : ℕ) (sys : System)

/-- A request on a pool names its resource. -/
def onPool (s : Shm) (r : ℕ) (f : ℕ → Shm) : Shm :=
  match s.resources r with
  | some (.pool p) => f p
  | _ => s

def act (s : Shm) : Action → Shm
  | .createPool fd size sys => s.createPool fd size sys
  | .createBuffer r offset size sys => s.onPool r fun p => s.createBuffer p offset size sys
  | .resize r size sys => s.onPool r fun p => s.resize p size sys
  | .destroy r sys => s.destroyResource r sys

/-- Nothing happens after a fault. -/
def step (s : Shm) (a : Action) : Shm := if s.fault.isSome then s else s.act a

end Shm
end Yaza
