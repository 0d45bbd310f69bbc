import Yaza.Lib.Run
import Yaza.Zwin.Sync

/-! The scene as a transition system: the requests of the clients, the destruction of their
objects, the events of `Remote`, and the drag of a bounded app. A request on an object that the
client does not have, or of a client that was cut off, is not handled. -/
namespace Yaza
namespace Scene

/-- `VirtualObject::remove_rendering_unit`. -/
def removeRenderingUnit (s : Scene) (v u : ℕ) : Scene :=
  match s.virtualObjects v with
  | none => s.crash .useAfterFree
  | some x =>
    if x.destroying then s
    else
      { s with
        virtualObjects :=
          s.virtualObjects.set v
            { x with renderingUnitList := x.renderingUnitList.filter (· ≠ u) } }

/-- The listener of a technique is destroyed with it. -/
def dropTechnique (s : Scene) (t u : ℕ) : Scene :=
  { s with
    baseTechniques := s.baseTechniques.erase t
    renderingUnits := s.renderingUnits.modify u fun x =>
      { x with listeners := x.listeners.filter (· ≠ t) } }

/-- `~GlBaseTechnique`. The resource stays, without an object. -/
def deleteTechnique (s : Scene) (t : ℕ) : Scene :=
  match s.baseTechniques t with
  | none => s.crash .useAfterFree
  | some x => (s.setTechnique x.owner none).dropTechnique t x.owner

def deleteTechnique? (s : Scene) (t : Option ℕ) : Scene :=
  match t with
  | none => s
  | some t => s.deleteTechnique t

/-- The listener of a unit is destroyed with it. -/
def dropUnit (s : Scene) (u v : ℕ) : Scene :=
  { s with
    renderingUnits := s.renderingUnits.erase u
    virtualObjects := s.virtualObjects.modify v fun x =>
      { x with listeners := x.listeners.filter (· ≠ .unit u) } }

/-- `~RenderingUnit`. -/
def deleteRenderingUnit (s : Scene) (u : ℕ) : Scene :=
  match s.renderingUnits u with
  | none => s.crash .useAfterFree
  | some x =>
    ((s.removeRenderingUnit x.owner u).deleteTechnique? x.technique).dropUnit u x.owner

/-- `~BoundedApp`, and the listener it holds. -/
def deleteBoundedApp (s : Scene) (b : ℕ) : Scene :=
  match s.boundedApps b with
  | none => s.crash .useAfterFree
  | some x =>
    { s with
      boundedApps := s.boundedApps.erase b
      virtualObjects := s.virtualObjects.modify x.virtualObject fun v =>
        { v with listeners := v.listeners.filter (· ≠ .app b) } }

def deleteBoundedApp? (s : Scene) (b : Option ℕ) : Scene :=
  match b with
  | none => s
  | some b => s.deleteBoundedApp b

def markDestroying (s : Scene) (v : ℕ) : Scene :=
  { s with virtualObjects := s.virtualObjects.modify v fun x => { x with destroying := true } }

def dropVirtualObject (s : Scene) (v : ℕ) : Scene :=
  { s with virtualObjects := s.virtualObjects.erase v }

/-- `~VirtualObject`. -/
def deleteVirtualObject (s : Scene) (v : ℕ) : Scene :=
  match s.virtualObjects v with
  | none => s.crash .useAfterFree
  | some x =>
    ((x.renderingUnitList.foldl deleteRenderingUnit (s.markDestroying v))
      |>.deleteBoundedApp? x.app).dropVirtualObject v

/-- The destructor of a resource. Where the object went before its resource, there is no
destructor any more. -/
def deleteObject (s : Scene) (r : ℕ) : Interface → Scene
  | .virtualObject => s.deleteVirtualObject r
  | .bounded => if (s.boundedApps r).isSome then s.deleteBoundedApp r else s
  | .renderingUnit => if (s.renderingUnits r).isSome then s.deleteRenderingUnit r else s
  | .baseTechnique => if (s.baseTechniques r).isSome then s.deleteTechnique r else s
  | .glProgram => { s with glPrograms := s.glPrograms.erase r }
  | .glShader => { s with glShaders := s.glShaders.erase r }
  | .glVertexArray => { s with glVertexArrays := s.glVertexArrays.erase r }
  | .glBuffer => { s with glBuffers := s.glBuffers.erase r }
  | .glTexture => { s with glTextures := s.glTextures.erase r }
  | .glSampler => { s with glSamplers := s.glSamplers.erase r }
  | .region => { s with regions := s.regions.erase r }
  | .shmBuffer => { s with shmBuffers := s.shmBuffers.erase r }

/-- `wl_resource_destroy`. -/
def destroyResource (s : Scene) (r : ℕ) : Scene :=
  match s.resources r with
  | none => s
  | some x => { s.deleteObject r x.interface with resources := s.resources.erase r }

/-- `wl_resource_create`: the new resource is `s.nextId`. -/
def newResource (s : Scene) (client : ℕ) (interface : Interface) : Scene :=
  { s with
    resources := s.resources.set s.nextId ⟨client, interface⟩
    nextId := s.nextId + 1 }

/-- `virtual_object::create`. -/
def createVirtualObject (s : Scene) (client : ℕ) : Scene :=
  { s.newResource client .virtualObject with
    virtualObjects := s.virtualObjects.set s.nextId {} }

/-- `rendering_unit::create`, with `RenderingUnit::RenderingUnit`. -/
def createRenderingUnit (s : Scene) (client v : ℕ) : Scene :=
  { s.newResource client .renderingUnit with
    renderingUnits := s.renderingUnits.set s.nextId { owner := v }
    virtualObjects := s.virtualObjects.modify v fun x =>
      { x with listeners := x.listeners ++ [.unit s.nextId] } }

/-- `create_gl_base_technique`, with `GlBaseTechnique::GlBaseTechnique`. -/
def createGlBaseTechnique (s : Scene) (client u : ℕ) : Scene :=
  if (s.renderingUnits u).isSome then
    { s.newResource client .baseTechnique with
      baseTechniques := s.baseTechniques.set s.nextId { owner := u }
      renderingUnits := s.renderingUnits.modify u fun x =>
        { x with listeners := x.listeners ++ [s.nextId] } }
  else { s with errors := s.errors ++ [⟨client, .implementation, "RenderingUnit is null"⟩] }

/-- `BoundedApp::configure`. -/
def configure (s : Scene) (b : ℕ) (halfSize : WlArray) : Scene :=
  match halfSize.decode 12 with
  | none =>
    s.postError b .wlArraySize
      "half_size array size (%ld) does not equal expeted size (%ld)"
  | some bytes =>
    { s with
      serial := s.serial + 1
      boundedApps := s.boundedApps.modify b fun x =>
        { x with configureList := x.configureList ++ [(s.serial + 1, bytes)] }
      events := s.events ++ [.boundedConfigure b bytes (s.serial + 1)] }

/-- `VirtualObject::set_app`. -/
def setApp (s : Scene) (v b : ℕ) : Scene :=
  { s with virtualObjects := s.virtualObjects.modify v fun x => { x with app := some b } }

/-- The resource of `bounded::create`, and `BoundedApp::BoundedApp`. -/
def newBounded (s : Scene) (client v : ℕ) : Scene :=
  { s.newResource client .bounded with
    boundedApps := s.boundedApps.set s.nextId { virtualObject := v }
    virtualObjects := s.virtualObjects.modify v fun x =>
      { x with listeners := x.listeners ++ [.app s.nextId] } }

/-- `bounded::create`. -/
def createBounded (s : Scene) (client v : ℕ) (halfSize : WlArray) : Scene :=
  ((s.newBounded client v).configure s.nextId halfSize).setApp v s.nextId

/-- `VirtualObject::queue_frame_callback`: the new callback is `s.nextId`. -/
def queueFrameCallback (s : Scene) (v : ℕ) : Scene :=
  { s with
    nextId := s.nextId + 1
    virtualObjects := s.virtualObjects.modify v fun x =>
      { x with pendingFrames := x.pendingFrames ++ [s.nextId] } }

/-- `ack_configure`. -/
def ackConfigure (s : Scene) (b serial : ℕ) : Scene :=
  match s.boundedApps b with
  | none => s.crash .nullPointer
  | some x =>
    match x.configureList.find? fun e => e.1 = serial with
    | none => s
    | some e =>
      { s with
        boundedApps := s.boundedApps.set b { x with pending.halfSize := e.2 } }

/-- `set_region`. -/
def setRegion (s : Scene) (b region : ℕ) : Scene :=
  match s.boundedApps b with
  | none => s.crash .nullPointer
  | some x =>
    match s.regions region with
    | none => s
    | some regions =>
      { s with
        boundedApps := s.boundedApps.set b { x with pending.regions := regions } }

/-- `add_cuboid`. -/
def addCuboid (s : Scene) (region : ℕ) (halfSize center quat : WlArray) : Scene :=
  match halfSize.decode 12, center.decode 12, quat.decode 16 with
  | none, _, _ =>
    s.postError region .wlArraySize
      "half_size array size (%ld) does not equal expeted size (%ld)"
  | _, none, _ =>
    s.postError region .wlArraySize
      "center array size (%ld) does not equal expeted size (%ld)"
  | _, _, none =>
    s.postError region .wlArraySize "quat array size (%ld) does not equal expeted size (%ld)"
  | some h, some c, some q =>
    { s with regions := s.regions.modify region fun l => l ++ [⟨h, c, q⟩] }

/-- A request of a technique reaches its pending state. -/
def techniqueRequest (s : Scene) (t : ℕ) (r : TechniqueRequest) : Scene :=
  { s with baseTechniques := s.baseTechniques.modify t fun x => x.request r }

/-- `uniform_vector`. -/
def uniformVector (s : Scene) (t : ℕ) (type : UniformType) (location : UInt32)
    (name : Option String) (size count : UInt32) (value : WlArray) : Scene :=
  if size = 0 ∨ 4 < size then
    s.postError t .uniformVariable "expect: 1 <= size <= 4, actual size: %d"
  else if value.size < 4 * size.toNat * count.toNat then
    s.postError t .uniformVariable "expect: value.size >= %d, actual value.size: %lu"
  else
    s.techniqueRequest t (.uniform (.construct type location name 1 size count false value))

/-- `uniform_matrix`. -/
def uniformMatrix (s : Scene) (t : ℕ) (location : UInt32) (name : Option String)
    (col row count transpose : UInt32) (value : WlArray) : Scene :=
  if col = 0 ∨ 4 < col then
    s.postError t .uniformVariable "expect: 1 <= col <= 4, actual col: %d"
  else if row = 0 ∨ 4 < row then
    s.postError t .uniformVariable "expect: 1 <= row <= 4, actual row: %d"
  else if value.size < 4 * col.toNat * row.toNat * count.toNat then
    s.postError t .uniformVariable "expect: value.size >= %d, actual value.size: %lu"
  else
    s.techniqueRequest t
      (.uniform (.construct .float location name col row count (transpose ≠ 0) value))

/-- `draw_elements`. -/
def drawElements (s : Scene) (t : ℕ) (mode count type : UInt32) (offset : WlArray)
    (buffer : ℕ) : Scene :=
  match offset.decode 8 with
  | none =>
    s.postError t .wlArraySize "offset size (%ld) does not equal uint64_t size (%ld)"
  | some bytes =>
    s.techniqueRequest t (.drawElements mode count type (uint64OfBytes bytes) buffer)

/-- The parameter a `zwn_gl_sampler` request carries. -/
inductive SamplerArg where
  | int (value : Int32)
  | float (bits : UInt32)
  | array (value : WlArray)

/-- The size `GlSampler::set_paramater` compares; that of a number is the size of its C++
type. -/
def SamplerArg.size : SamplerArg → ℕ
  | .int _ => 4
  | .float _ => 4
  | .array a => a.size

/-- Four bytes are copied into an array that starts as `garbage`. -/
def SamplerArg.value (garbage : Bytes) : SamplerArg → ParamValue
  | .int i => .int i
  | .float f => .float f
  | .array a => .array (a.read a.size ++ garbage.drop a.size)

/-- `GlSampler::set_paramater`. -/
def setParamater (s : Scene) (p : ℕ) (type : ParamType) (pname : UInt32) (arg : SamplerArg)
    (garbage : Bytes) : Scene :=
  match GlSampler.parameterSizeMap.find? pname with
  | none => s.postError p .invalidEnum "invalid pname: %d"
  | some expected =>
    if arg.size ≠ expected then s.postError p .wlArraySize "expect: %ld, actual: %ld"
    else
      { s with
        glSamplers := s.glSamplers.modify p fun x =>
          { x with
            pending := x.pending.insertOrAssign pname
              { changed := true, type, pname, param := arg.value garbage } } }

/-- `parameter_f`. -/
def parameterF (s : Scene) (p : ℕ) (pname : UInt32) (param : WlArray) : Scene :=
  match param.decode 4 with
  | none =>
    s.postError p .wlArraySize "paramater size (%ld) does not equal float size (%ld)"
  | some bytes =>
    s.setParamater p .f pname
      (.float (bytes.foldr (fun b acc => acc * 256 + b.toUInt32) 0)) []

/-- `vertex_attrib_pointer`. -/
def vertexAttribPointer (s : Scene) (va : ℕ) (index : UInt32) (size : Int32)
    (type normalized : UInt32) (stride : Int32) (offset : WlArray) (buffer : ℕ) : Scene :=
  match offset.decode 8 with
  | none =>
    s.postError va .wlArraySize "offset size (%ld) does not equal uint64_t size (%ld)"
  | some bytes =>
    { s with
      glVertexArrays := s.glVertexArrays.modify va fun x =>
        x.updatePendingAttribute index fun a =>
          { a with
            offset := uint64OfBytes bytes, size, type, normalized := normalized ≠ 0, stride
            glBufferChanged := true, glBuffer := some buffer } }

/-- `enable_vertex_attrib_array` and `disable_vertex_attrib_array`. -/
def setAttribEnability (s : Scene) (va : ℕ) (index : UInt32) (enabled : Bool) : Scene :=
  { s with
    glVertexArrays := s.glVertexArrays.modify va fun x =>
      x.updatePendingAttribute index fun a => a.setEnability enabled }

/-- The `session_established` handler of a virtual object. -/
def sessionEstablished (s : Scene) (v : ℕ) : Scene :=
  match s.virtualObjects v with
  | none => s
  | some x => if x.committed then s.syncVirtualObject v true else s

/-- The peer discover handler. `connected` says whether the peer is still there and the
constructor of `Session` returns. The objects listen in the order they were created. -/
def peerDiscover (s : Scene) (connected : Bool) : Scene :=
  if s.remote.hasSession || !connected then s
  else
    (List.range s.nextId).foldl sessionEstablished { s with remote := s.remote.establish }

/-- What the `session_disconnected` handlers do. -/
def dropProxies (s : Scene) : Scene :=
  { s with
    virtualObjects := s.virtualObjects.mapAll fun x => { x with proxy := none }
    renderingUnits := s.renderingUnits.mapAll fun x => { x with proxy := none }
    baseTechniques := s.baseTechniques.mapAll fun x => { x with proxy := none }
    glPrograms := s.glPrograms.mapAll fun x => { x with proxy := none }
    glShaders := s.glShaders.mapAll fun x => { x with proxy := none }
    glVertexArrays := s.glVertexArrays.mapAll fun x => { x with proxy := none }
    glBuffers := s.glBuffers.mapAll fun x => { x with proxy := none }
    glTextures := s.glTextures.mapAll fun x => { x with proxy := none }
    glSamplers := s.glSamplers.mapAll fun x => { x with proxy := none } }

/-- The disconnection handler of the session. -/
def sessionDisconnect (s : Scene) : Scene :=
  if s.remote.hasSession then { s with remote := s.remote.disconnect }.dropProxies else s

/-- The callbacks the `session_frame` handler of an object is about to send. -/
def dueCallbacks (s : Scene) (v : ℕ) : List ℕ :=
  ((s.virtualObjects v).map VirtualObject.currentFrames).getD []

/-- The `session_frame` signal. -/
def sessionFrame (s : Scene) : Scene :=
  { s with
    events := s.events ++ ((List.range s.nextId).flatMap s.dueCallbacks).map .callbackDone
    virtualObjects := s.virtualObjects.mapAll fun x => { x with currentFrames := [] } }

/-- `kBusynessThreshold`. -/
def busynessThreshold : ℕ := 100

/-- The frame timer of `Remote`. -/
def frameTimer (s : Scene) (busyness : ℕ) : Scene :=
  if !s.remote.hasSession || busyness < busynessThreshold then s.sessionFrame else s

/-- `BoundedApp::move` up to its commit. -/
def turnApp (s : Scene) (b : ℕ) (x : BoundedApp) (polar azimuthal : ℚ) : Scene :=
  { s with
    boundedApps := s.boundedApps.set b
      { x with polar := x.polar + polar, azimuthal := x.azimuthal + azimuthal } }

/-- `BoundedApp::move`. -/
def moveApp (s : Scene) (b : ℕ) (polar azimuthal : ℚ) : Scene :=
  match s.boundedApps b with
  | none => s
  | some x => (s.turnApp b x polar azimuthal).commitVirtualObject x.virtualObject

/-- The types of `parameterfv`, `parameteriv`, `parameterIiv` and `parameterIuiv`. -/
inductive ArrayType where
  | fv | iv | iiv | iuiv
  deriving DecidableEq, Repr

def ArrayType.paramType : ArrayType → ParamType
  | .fv => .fv
  | .iv => .iv
  | .iiv => .iiv
  | .iuiv => .iuiv

/-- The requests of a client, with the addresses of the objects they name. The contents a
constructor finds in fresh memory come with the request. -/
inductive Request where
  | createVirtualObject
  | createRegion
  | createRenderingUnit (virtualObject : ℕ)
  | createGlBuffer (garbage : GlBuffer.Garbage)
  | createGlShader (buffer : ℕ) (type : UInt32)
  | createGlProgram
  | createGlTexture (garbage : GlTexture.Garbage)
  | createGlSampler
  | createGlVertexArray
  | createGlBaseTechnique (unit : ℕ)
  | createBuffer (data : Bytes)
  | writeBuffer (buffer : ℕ) (data : Bytes)
  | commit (virtualObject : ℕ)
  | frame (virtualObject : ℕ)
  | getBounded (virtualObject : ℕ) (halfSize : WlArray)
  | ackConfigure (bounded serial : ℕ)
  | setRegion (bounded region : ℕ)
  | addCuboid (region : ℕ) (halfSize center quat : WlArray)
  | bindProgram (technique program : ℕ)
  | bindVertexArray (technique vertexArray : ℕ)
  | bindTexture (technique : ℕ) (binding : UInt32) (name : String) (texture : ℕ)
      (target : UInt32) (sampler : ℕ)
  | uniformVector (technique : ℕ) (type : UniformType) (location : UInt32)
      (name : Option String) (size count : UInt32) (value : WlArray)
  | uniformMatrix (technique : ℕ) (location : UInt32) (name : Option String)
      (col row count transpose : UInt32) (value : WlArray)
  | drawArrays (technique : ℕ) (mode : UInt32) (first : Int32) (count : UInt32)
  | drawElements (technique : ℕ) (mode count type : UInt32) (offset : WlArray) (buffer : ℕ)
  | bufferData (buffer : ℕ) (target : UInt32) (data : ℕ) (usage : UInt32)
  | image2d (texture : ℕ) (image : Image2dData) (data : ℕ)
  | generateMipmap (texture : ℕ) (target : UInt32)
  | parameterF (sampler : ℕ) (pname : UInt32) (param : WlArray)
  | parameterI (sampler : ℕ) (pname : UInt32) (param : Int32)
  | parameterV (sampler : ℕ) (type : ArrayType) (pname : UInt32) (params : WlArray)
      (garbage : Bytes)
  | attachShader (program shader : ℕ)
  | link (program : ℕ)
  | setAttribEnability (vertexArray : ℕ) (index : UInt32) (enabled : Bool)
  | vertexAttribPointer (vertexArray : ℕ) (index : UInt32) (size : Int32)
      (type normalized : UInt32) (stride : Int32) (offset : WlArray) (buffer : ℕ)

/-- The objects a request names, each with the interface its argument has. -/
def Request.objects : Request → List (ℕ × Interface)
  | .createVirtualObject | .createRegion | .createGlBuffer _ | .createGlProgram
  | .createGlTexture _ | .createGlSampler | .createGlVertexArray | .createBuffer _ => []
  | .createRenderingUnit v | .commit v | .frame v | .getBounded v _ => [(v, .virtualObject)]
  | .createGlShader b _ | .writeBuffer b _ => [(b, .shmBuffer)]
  | .createGlBaseTechnique u => [(u, .renderingUnit)]
  | .ackConfigure b _ => [(b, .bounded)]
  | .setRegion b r => [(b, .bounded), (r, .region)]
  | .addCuboid r _ _ _ => [(r, .region)]
  | .bindProgram t p => [(t, .baseTechnique), (p, .glProgram)]
  | .bindVertexArray t va => [(t, .baseTechnique), (va, .glVertexArray)]
  | .bindTexture t _ _ x _ y => [(t, .baseTechnique), (x, .glTexture), (y, .glSampler)]
  | .uniformVector t _ _ _ _ _ _ | .uniformMatrix t _ _ _ _ _ _ _ | .drawArrays t _ _ _ =>
      [(t, .baseTechnique)]
  | .drawElements t _ _ _ _ b => [(t, .baseTechnique), (b, .glBuffer)]
  | .bufferData b _ d _ => [(b, .glBuffer), (d, .shmBuffer)]
  | .image2d x _ d => [(x, .glTexture), (d, .shmBuffer)]
  | .generateMipmap x _ => [(x, .glTexture)]
  | .parameterF p _ _ | .parameterI p _ _ | .parameterV p _ _ _ _ => [(p, .glSampler)]
  | .attachShader p h => [(p, .glProgram), (h, .glShader)]
  | .link p => [(p, .glProgram)]
  | .setAttribEnability va _ _ => [(va, .glVertexArray)]
  | .vertexAttribPointer va _ _ _ _ _ _ b => [(va, .glVertexArray), (b, .glBuffer)]

/-- The handlers of a technique do nothing when the resource has no object any more. -/
def withTechnique (s : Scene) (t : ℕ) (k : Scene → Scene) : Scene :=
  if (s.baseTechniques t).isSome then k s else s

/-- The handler of each request. -/
def handle (s : Scene) (client : ℕ) : Request → Scene
  | .createVirtualObject => s.createVirtualObject client
  | .createRegion =>
      { s.newResource client .region with regions := s.regions.set s.nextId [] }
  | .createRenderingUnit v => s.createRenderingUnit client v
  | .createGlBuffer g =>
      { s.newResource client .glBuffer with
        glBuffers := s.glBuffers.set s.nextId (.construct g) }
  | .createGlShader b type =>
      { s.newResource client .glShader with
        glShaders := s.glShaders.set s.nextId { type, buffer := b } }
  | .createGlProgram =>
      { s.newResource client .glProgram with glPrograms := s.glPrograms.set s.nextId {} }
  | .createGlTexture g =>
      { s.newResource client .glTexture with
        glTextures := s.glTextures.set s.nextId (.construct g) }
  | .createGlSampler =>
      { s.newResource client .glSampler with glSamplers := s.glSamplers.set s.nextId {} }
  | .createGlVertexArray =>
      { s.newResource client .glVertexArray with
        glVertexArrays := s.glVertexArrays.set s.nextId {} }
  | .createGlBaseTechnique u => s.createGlBaseTechnique client u
  | .createBuffer data =>
      { s.newResource client .shmBuffer with shmBuffers := s.shmBuffers.set s.nextId ⟨data⟩ }
  | .writeBuffer b data =>
      { s with
        shmBuffers := s.shmBuffers.modify b fun x =>
          if data.length = x.data.length then ⟨data⟩ else x }
  | .commit v => s.commitVirtualObject v
  | .frame v => s.queueFrameCallback v
  | .getBounded v halfSize => s.createBounded client v halfSize
  | .ackConfigure b serial => s.ackConfigure b serial
  | .setRegion b region => s.setRegion b region
  | .addCuboid region halfSize center quat => s.addCuboid region halfSize center quat
  | .bindProgram t p => s.techniqueRequest t (.bindProgram p)
  | .bindVertexArray t va => s.techniqueRequest t (.bindVertexArray va)
  | .bindTexture t binding name texture target sampler =>
      s.techniqueRequest t (.bindTexture ⟨binding, name, target, texture, sampler⟩)
  | .uniformVector t type location name size count value =>
      s.withTechnique t fun s => s.uniformVector t type location name size count value
  | .uniformMatrix t location name col row count transpose value =>
      s.withTechnique t fun s => s.uniformMatrix t location name col row count transpose value
  | .drawArrays t mode first count => s.techniqueRequest t (.drawArrays mode first count)
  | .drawElements t mode count type offset b =>
      s.withTechnique t fun s => s.drawElements t mode count type offset b
  | .bufferData b target data usage =>
      { s with
        glBuffers := s.glBuffers.modify b fun x => x.updatePendingData target usage data }
  | .image2d x image data =>
      { s with glTextures := s.glTextures.modify x fun y => y.newImage2d image data }
  | .generateMipmap x target =>
      { s with glTextures := s.glTextures.modify x fun y => y.requestGenerateMipmap target }
  | .parameterF p pname param => s.parameterF p pname param
  | .parameterI p pname param => s.setParamater p .i pname (.int param) []
  | .parameterV p type pname params garbage =>
      s.setParamater p type.paramType pname (.array params) garbage
  | .attachShader p h =>
      { s with glPrograms := s.glPrograms.modify p fun x => x.attachShader h }
  | .link p => { s with glPrograms := s.glPrograms.modify p .requestLink }
  | .setAttribEnability va index enabled => s.setAttribEnability va index enabled
  | .vertexAttribPointer va index size type normalized stride offset b =>
      s.vertexAttribPointer va index size type normalized stride offset b

/-- A client is cut off by the first error posted to it. -/
def cutOff (s : Scene) (client : ℕ) : Bool := s.errors.any fun e => e.client = client

/-- A request is handled when the client is not cut off and has the objects it names. -/
def admits (s : Scene) (client : ℕ) (r : Request) : Bool :=
  !s.cutOff client && r.objects.all fun o => s.resources o.1 = some ⟨client, o.2⟩

inductive Action where
  | request (client : ℕ) (r : Request)
  /-- A resource is destroyed, by a request or together with its client. -/
  | destroy (client resource : ℕ)
  | peerDiscover (connected : Bool)
  | sessionDisconnect
  | frameTimer (busyness : ℕ)
  | moveApp (bounded : ℕ) (polar azimuthal : ℚ)

/-- What an action does to a scene that is running. -/
def act (s : Scene) : Action → Scene
  | .request client r => if s.admits client r then s.handle client r else s
  | .destroy client r =>
      if (s.resources r).any fun x => x.client = client then s.destroyResource r else s
  | .peerDiscover connected => s.peerDiscover connected
  | .sessionDisconnect => s.sessionDisconnect
  | .frameTimer busyness => s.frameTimer busyness
  | .moveApp b polar azimuthal => s.moveApp b polar azimuthal

/-- Nothing happens after a fault. -/
def step (s : Scene) (a : Action) : Scene := if s.fault.isSome then s else s.act a

/-- The scene at the start of the program. -/
def init : Scene := {}

/-- The scene after a run. -/
def run (as : List Action) : Scene := Run.final step init as

end Scene
end Yaza
