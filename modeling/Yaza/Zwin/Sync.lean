import Yaza.Zwin.Commit

/-! Sync: what is current is told to the remote session, all of it or what has changed. A
proxy is created when it is first needed. -/
namespace Yaza
namespace Scene

/-- The objects that keep a proxy. -/
inductive Holder where
  | virtualObject (id : ℕ)
  | renderingUnit (id : ℕ)
  | baseTechnique (id : ℕ)
  | program (id : ℕ)
  | shader (id : ℕ)
  | vertexArray (id : ℕ)
  | buffer (id : ℕ)
  | texture (id : ℕ)
  | sampler (id : ℕ)
  deriving DecidableEq, Repr

/-- `proxy_`. -/
def proxyOf (s : Scene) : Holder → Option Proxy
  | .virtualObject i => (s.virtualObjects i).bind VirtualObject.proxy
  | .renderingUnit i => (s.renderingUnits i).bind RenderingUnit.proxy
  | .baseTechnique i => (s.baseTechniques i).bind GlBaseTechnique.proxy
  | .program i => (s.glPrograms i).bind GlProgram.proxy
  | .shader i => (s.glShaders i).bind GlShader.proxy
  | .vertexArray i => (s.glVertexArrays i).bind GlVertexArray.proxy
  | .buffer i => (s.glBuffers i).bind GlBuffer.proxy
  | .texture i => (s.glTextures i).bind GlTexture.proxy
  | .sampler i => (s.glSamplers i).bind GlSampler.proxy

def giveProxy (s : Scene) (p : Proxy) : Holder → Scene
  | .virtualObject i =>
      { s with virtualObjects := s.virtualObjects.modify i fun x => { x with proxy := some p } }
  | .renderingUnit i =>
      { s with renderingUnits := s.renderingUnits.modify i fun x => { x with proxy := some p } }
  | .baseTechnique i =>
      { s with baseTechniques := s.baseTechniques.modify i fun x => { x with proxy := some p } }
  | .program i =>
      { s with glPrograms := s.glPrograms.modify i fun x => { x with proxy := some p } }
  | .shader i =>
      { s with glShaders := s.glShaders.modify i fun x => { x with proxy := some p } }
  | .vertexArray i =>
      { s with glVertexArrays := s.glVertexArrays.modify i fun x => { x with proxy := some p } }
  | .buffer i =>
      { s with glBuffers := s.glBuffers.modify i fun x => { x with proxy := some p } }
  | .texture i =>
      { s with glTextures := s.glTextures.modify i fun x => { x with proxy := some p } }
  | .sampler i =>
      { s with glSamplers := s.glSamplers.modify i fun x => { x with proxy := some p } }

/-- `remote_id()` of a proxy holder: the id, or a failed assertion. -/
def withRemoteId (s : Scene) (h : Holder) (k : ℕ → Scene) : Scene :=
  match s.proxyOf h with
  | none => s.crash .noProxy
  | some p => k p.id

/-- Each `sync` starts by creating the proxy if it is missing, on the current channel. -/
def ensureProxy (s : Scene) (h : Holder) (mk : ℕ → Call) : Scene :=
  if (s.proxyOf h).isSome then s
  else
    match s.remote.create mk with
    | none => s.crash .noSession
    | some (p, r) => { s with remote := r }.giveProxy p h

def tellBuffer (s : Scene) (b : ℕ) (x : GlBuffer.Current) : Scene :=
  s.withRemoteId (.buffer b) fun id =>
    { s.call (.glBufferData id x.data x.target x.dataSize x.usage) with
      glBuffers := s.glBuffers.modify b fun x => { x with current.dataDamaged := false } }

/-- `GlBuffer::sync`. -/
def syncBuffer (s : Scene) (b : ℕ) (force : Bool) : Scene :=
  match s.glBuffers b with
  | none => s.crash .useAfterFree
  | some x =>
    if !force && !x.current.dataDamaged then s.ensureProxy (.buffer b) .createGlBuffer
    else (s.ensureProxy (.buffer b) .createGlBuffer).tellBuffer b x.current

def tellImage (s : Scene) (t : ℕ) (x : GlTexture.Current) (force : Bool) : Scene :=
  if force || x.dataChanged then
    s.withRemoteId (.texture t) fun id =>
      { s.call (.glTexImage2D id x.image2d x.data) with
        glTextures := s.glTextures.modify t fun x => { x with current.dataChanged := false } }
  else s

def tellMipmap (s : Scene) (t : ℕ) (x : GlTexture.Current) (force : Bool) : Scene :=
  if force || x.mipmapTargetChanged then
    s.withRemoteId (.texture t) fun id =>
      { s.call (.glGenerateMipmap id x.mipmapTarget) with
        glTextures := s.glTextures.modify t fun x =>
          { x with current.mipmapTargetChanged := false } }
  else s

/-- `GlTexture::sync`. -/
def syncTexture (s : Scene) (t : ℕ) (force : Bool) : Scene :=
  match s.glTextures t with
  | none => s.crash .useAfterFree
  | some x =>
    ((s.ensureProxy (.texture t) .createGlTexture).tellImage t x.current force).tellMipmap t
      x.current force

/-- Whether `std::get` in `GlSampler::sync` finds the alternative that the type names. -/
def paramMatches (p : Parameter) : Bool :=
  match p.type, p.param with
  | .f, .float _ => true
  | .i, .int _ => true
  | .fv, .array _ | .iv, .array _ | .iiv, .array _ | .iuiv, .array _ => true
  | _, _ => false

/-- One round of `GlSampler::sync`. The change flag stays as it is. -/
def tellParameter (p : ℕ) (force : Bool) (s : Scene) (e : UInt32 × Parameter) : Scene :=
  if !force && !e.2.changed then s
  else if paramMatches e.2 then
    s.withRemoteId (.sampler p) fun id =>
      s.call (.glSamplerParameter id e.2.type e.1 e.2.param)
  else s.crash .badVariant

/-- `GlSampler::sync`. -/
def syncSampler (s : Scene) (p : ℕ) (force : Bool) : Scene :=
  match s.glSamplers p with
  | none => s.crash .useAfterFree
  | some x => x.current.foldl (tellParameter p force) (s.ensureProxy (.sampler p) .createGlSampler)

/-- `GlShader::sync`: the source is read from the client's buffer when the proxy is made. -/
def syncShader (s : Scene) (h : ℕ) : Scene :=
  match s.glShaders h with
  | none => s.crash .useAfterFree
  | some x =>
    if x.proxy.isSome then s
    else
      match s.shmBuffers x.buffer with
      | none => s.crash .useAfterFree
      | some shm => s.ensureProxy (.shader h) fun id => .createGlShader id shm.data x.type

def shaderAlive (s : Scene) (h : ℕ) : Bool := (s.glShaders h).isSome

/-- Expired shaders are erased from the list while it is walked. -/
def dropExpiredShaders (s : Scene) (p : ℕ) : Scene :=
  { s with
    glPrograms := s.glPrograms.modify p fun x =>
      { x with current.shaders := x.current.shaders.filter s.shaderAlive } }

def tellAttach (s : Scene) (p h : ℕ) (shouldAttach : Bool) : Scene :=
  if shouldAttach then
    s.withRemoteId (.shader h) fun shader =>
      s.withRemoteId (.program p) fun program => s.call (.glAttachShader program shader)
  else s

/-- One round of the loop of `GlProgram::sync`. -/
def syncAttached (p : ℕ) (shouldAttach : Bool) (s : Scene) (h : ℕ) : Scene :=
  (s.syncShader h).tellAttach p h shouldAttach

def tellLink (s : Scene) (p : ℕ) (shouldAttach : Bool) : Scene :=
  if shouldAttach then
    s.withRemoteId (.program p) fun id =>
      { s.call (.glLinkProgram id) with
        glPrograms := s.glPrograms.modify p fun x => { x with current.shouldLink := false } }
  else s

/-- `GlProgram::sync`. -/
def syncProgram (s : Scene) (p : ℕ) (force : Bool) : Scene :=
  match s.glPrograms p with
  | none => s.crash .useAfterFree
  | some x =>
    ((x.current.shaders.filter s.shaderAlive).foldl
      (syncAttached p (force || x.current.shouldLink))
      ((s.ensureProxy (.program p) .createGlProgram).dropExpiredShaders p)).tellLink p
        (force || x.current.shouldLink)

def tellEnability (s : Scene) (va : ℕ) (index : UInt32) (a : VertexAttribute) (force : Bool) :
    Scene :=
  if force || a.enabilityChanged then
    s.withRemoteId (.vertexArray va) fun id =>
      s.call (if a.enabled then .glEnableVertexAttribArray id index
        else .glDisableVertexAttribArray id index)
  else s

def tellPointer (s : Scene) (va b : ℕ) (index : UInt32) (a : VertexAttribute) (force : Bool) :
    Scene :=
  if force || a.glBufferChanged then
    s.withRemoteId (.vertexArray va) fun id =>
      s.withRemoteId (.buffer b) fun buffer =>
        s.call (.glVertexAttribPointer id index a.size a.type a.normalized a.stride a.offset
          buffer)
  else s

/-- One round of `GlVertexArray::sync`. -/
def syncAttribute (va : ℕ) (force : Bool) (s : Scene) (e : UInt32 × VertexAttribute) :
    Scene :=
  match s.glBuffers.lock e.2.glBuffer with
  | none => s
  | some b =>
    ((s.syncBuffer b force).tellEnability va e.1 e.2 force).tellPointer va b e.1 e.2 force

/-- `GlVertexArray::sync`. -/
def syncVertexArray (s : Scene) (va : ℕ) (force : Bool) : Scene :=
  match s.glVertexArrays va with
  | none => s.crash .useAfterFree
  | some x =>
    x.current.foldl (syncAttribute va force)
      (s.ensureProxy (.vertexArray va) .createGlVertexArray)

def tellVertexArray (s : Scene) (technique va : ℕ) (tell : Bool) : Scene :=
  if tell then
    s.withRemoteId (.vertexArray va) fun id => s.call (.bindVertexArray technique id)
  else s

/-- `GlBaseTechnique::sync` for the vertex array. -/
def syncBoundVertexArray (s : Scene) (technique : ℕ) (x : TechniqueState) (force : Bool) :
    Scene :=
  match s.glVertexArrays.lock x.vertexArray with
  | none => s
  | some va =>
    (s.syncVertexArray va force).tellVertexArray technique va (force || x.vertexArrayChanged)

def tellProgram (s : Scene) (technique p : ℕ) (tell : Bool) : Scene :=
  if tell then
    s.withRemoteId (.program p) fun id => s.call (.bindProgram technique id)
  else s

/-- `GlBaseTechnique::sync` for the program. -/
def syncBoundProgram (s : Scene) (technique : ℕ) (x : TechniqueState) (force : Bool) : Scene :=
  match s.glPrograms.lock x.program with
  | none => s
  | some p => (s.syncProgram p force).tellProgram technique p (force || x.programChanged)

def tellTexture (s : Scene) (technique : ℕ) (b : TextureBinding) (tell : Bool) : Scene :=
  if tell then
    s.withRemoteId (.texture b.texture) fun texture =>
      s.withRemoteId (.sampler b.sampler) fun sampler =>
        s.call (.bindTexture technique b.binding b.name texture b.target sampler)
  else s

/-- One round of `TextureBindingList::sync`. -/
def syncTextureBinding (technique : ℕ) (force changed : Bool) (s : Scene)
    (b : TextureBinding) : Scene :=
  ((s.syncTexture b.texture force).syncSampler b.sampler force).tellTexture technique b
    (force || changed)

def tellElements (s : Scene) (technique : ℕ) (mode count type : UInt32) (offset : UInt64)
    (b : ℕ) (tell : Bool) : Scene :=
  if tell then
    s.withRemoteId (.buffer b) fun id =>
      s.call (.glDrawElements technique mode count type offset id)
  else s

/-- `DrawApiArgs::sync`. -/
def syncDraw (s : Scene) (technique : ℕ) (d : DrawApiArgs) (force : Bool) : Scene :=
  match d.data with
  | .none => s
  | .arrays mode first count =>
    if force || d.changed then s.call (.glDrawArrays technique mode first count) else s
  | .elements mode count type offset b =>
    if (s.glBuffers b).isSome then
      (s.syncBuffer b force).tellElements technique mode count type offset b
        (force || d.changed)
    else s

/-- The bindings that have expired leave `current_.texture_bindings`. -/
def dropExpired (s : Scene) (t : ℕ) : Scene :=
  { s with
    baseTechniques := s.baseTechniques.modify t fun x =>
      { x with
        current :=
          { x.current with
            textureBindings := x.current.textureBindings.removeExpired s.bindingAlive } } }

/-- `TextureBindingList::sync`. -/
def syncTextureBindings (s : Scene) (t technique : ℕ) (l : TextureBindingList) (force : Bool) :
    Scene :=
  (l.removeExpired s.bindingAlive).list.foldl (syncTextureBinding technique force l.changed)
    (s.dropExpired t)

/-- `GlBaseTechnique::sync` once its proxy has the id `technique`. -/
def syncState (s : Scene) (t technique : ℕ) (x : TechniqueState) (force : Bool) : Scene :=
  ((((s.syncBoundVertexArray technique x force).syncBoundProgram technique x force)
    |>.syncTextureBindings t technique x.textureBindings force)
    |>.callAll (UniformVariableList.syncCalls technique force x.uniformVars))
    |>.syncDraw technique x.drawApiArgs force

/-- The proxy of a technique is made on that of its unit. -/
def ensureTechnique (s : Scene) (t : ℕ) (x : GlBaseTechnique) : Scene :=
  if x.proxy.isSome then s
  else if (s.renderingUnits x.owner).isSome then
    s.withRemoteId (.renderingUnit x.owner) fun unit =>
      s.ensureProxy (.baseTechnique t) fun id => .createGlBaseTechnique id unit
  else s.crash .useAfterFree

def syncTechniqueState (s : Scene) (t : ℕ) (x : TechniqueState) (force : Bool) : Scene :=
  s.withRemoteId (.baseTechnique t) fun technique => s.syncState t technique x force

/-- `GlBaseTechnique::sync`. -/
def syncTechnique (s : Scene) (t : ℕ) (force : Bool) : Scene :=
  match s.baseTechniques t with
  | none => s.crash .useAfterFree
  | some x => (s.ensureTechnique t x).syncTechniqueState t x.current force

/-- The proxy of a rendering unit is made on that of its virtual object. -/
def ensureUnit (s : Scene) (u : ℕ) (x : RenderingUnit) : Scene :=
  if x.proxy.isSome then s
  else if (s.virtualObjects x.owner).isSome then
    s.withRemoteId (.virtualObject x.owner) fun object =>
      s.ensureProxy (.renderingUnit u) fun id => .createRenderingUnit id object
  else s.crash .useAfterFree

/-- `RenderingUnit::sync`. -/
def syncUnit (force : Bool) (s : Scene) (u : ℕ) : Scene :=
  match s.renderingUnits u with
  | none => s.crash .useAfterFree
  | some x =>
    match x.technique with
    | none => s.ensureUnit u x
    | some t => (s.ensureUnit u x).syncTechnique t force

/-- `VirtualObject::sync` once the proxy is there. -/
def syncParts (s : Scene) (v b : ℕ) (units : List ℕ) (force : Bool) : Scene :=
  match s.boundedApps b with
  | none => s.crash .useAfterFree
  | some app =>
    s.withRemoteId (.virtualObject v) fun object =>
      (units.foldl (syncUnit force) (s.call (.move object app.polar app.azimuthal))).call
        (.commit object)

/-- `VirtualObject::sync`. -/
def syncVirtualObject (s : Scene) (v : ℕ) (force : Bool) : Scene :=
  match s.virtualObjects v with
  | none => s.crash .useAfterFree
  | some x =>
    match x.app with
    | none => s
    | some b => 
      (s.ensureProxy (.virtualObject v) .createVirtualObject).syncParts v b x.renderingUnitList
        force

def syncIfSession (s : Scene) (v : ℕ) : Scene :=
  if s.remote.hasSession then s.syncVirtualObject v false else s

/-- `VirtualObject::commit`. -/
def commitVirtualObject (s : Scene) (v : ℕ) : Scene := (s.commitState v).syncIfSession v

end Scene
end Yaza
