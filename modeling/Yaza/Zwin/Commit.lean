import Yaza.Zwin.Scene

/-! Commit: what was requested becomes current, from a virtual object over its units and their
techniques down to the objects these refer to. -/
namespace Yaza
namespace Scene

/-- `GlBuffer::commit`. -/
def commitBuffer (s : Scene) (b : ℕ) : Scene :=
  match s.glBuffers b with
  | none => s.crash .useAfterFree
  | some x =>
    match s.shmBuffers.lock x.pending.data with
    | none => s
    | some r =>
      match s.shmBuffers r with
      | none => s
      | some shm =>
        { s with
          glBuffers := s.glBuffers.set b (x.commit shm.data)
          events := s.events ++ [.bufferRelease r] }

/-- The first half of `GlTexture::commit`. -/
def commitTextureData (s : Scene) (t : ℕ) : Scene :=
  match s.glTextures t with
  | none => s.crash .useAfterFree
  | some x =>
    match s.shmBuffers.lock x.pending.data with
    | none => s
    | some r =>
      match s.shmBuffers r with
      | none => s
      | some shm =>
        { s with
          glTextures := s.glTextures.set t (x.commitData shm.data)
          events := s.events ++ [.bufferRelease r] }

/-- The second half of `GlTexture::commit`. -/
def commitMipmap (s : Scene) (t : ℕ) : Scene :=
  { s with glTextures := s.glTextures.modify t .commitMipmap }

/-- `GlTexture::commit`. -/
def commitTexture (s : Scene) (t : ℕ) : Scene := (s.commitTextureData t).commitMipmap t

/-- `GlSampler::commit`. -/
def commitSampler (s : Scene) (p : ℕ) : Scene :=
  match s.glSamplers p with
  | none => s.crash .useAfterFree
  | some x => { s with glSamplers := s.glSamplers.set p x.commit }

/-- The check of `GlProgram::commit`. -/
def checkRelink (s : Scene) (p : ℕ) (x : GlProgram) : Scene :=
  if x.relinks then s.postError p .relink "GlProgram has already been linked" else s

/-- `GlProgram::commit`. -/
def commitProgram (s : Scene) (p : ℕ) : Scene :=
  match s.glPrograms p with
  | none => s.crash .useAfterFree
  | some x => { s.checkRelink p x with glPrograms := s.glPrograms.set p x.commit }

/-- Commit a buffer a weak pointer may still lock to. -/
def commitWeakBuffer (s : Scene) (b : Option ℕ) : Scene :=
  match s.glBuffers.lock b with
  | none => s
  | some b => s.commitBuffer b

/-- `GlVertexArray::commit`. -/
def commitVertexArray (s : Scene) (va : ℕ) : Scene :=
  match s.glVertexArrays va with
  | none => s.crash .useAfterFree
  | some x =>
    x.pending.foldl (fun s e => s.commitWeakBuffer e.2.glBuffer)
      { s with glVertexArrays := s.glVertexArrays.set va x.commit }

/-- `RenderingUnit::set_technique`. -/
def setTechnique (s : Scene) (u : ℕ) (technique : Option ℕ) : Scene :=
  match s.renderingUnits u with
  | none => s.crash .useAfterFree
  | some x =>
    if technique.isSome && x.technique.isSome then
      s.postError u .technique ("new (nonnull) technique tried to set, " ++
        "but RenderingUnit already has another technique")
    else { s with renderingUnits := s.renderingUnits.set u { x with technique } }

/-- Commit a program a weak pointer may still lock to. -/
def commitWeakProgram (s : Scene) (p : Option ℕ) : Scene :=
  match s.glPrograms.lock p with
  | none => s
  | some p => s.commitProgram p

/-- Commit a vertex array a weak pointer may still lock to. -/
def commitWeakVertexArray (s : Scene) (va : Option ℕ) : Scene :=
  match s.glVertexArrays.lock va with
  | none => s
  | some va => s.commitVertexArray va

/-- One round of the last loop of `TextureBindingList::commit`. -/
def commitBinding (s : Scene) (b : TextureBinding) : Scene :=
  (s.commitTexture b.texture).commitSampler b.sampler

/-- The commits of the leaf objects, in the order of `GlBaseTechnique::commit`. `x` is the
technique before its commit, `y` after it. -/
def commitLeaves (s : Scene) (x y : GlBaseTechnique) : Scene :=
  y.current.textureBindings.list.foldl commitBinding
    (((s.commitWeakProgram y.current.program).commitWeakVertexArray y.current.vertexArray)
      |>.commitWeakBuffer x.pending.drawApiArgs.committedBuffer)

/-- At its first commit a technique becomes the one of its unit. -/
def registerTechnique (s : Scene) (t : ℕ) (x : GlBaseTechnique) : Scene :=
  if x.commited then s else s.setTechnique x.owner (some t)

def storeTechnique (s : Scene) (t : ℕ) (y : GlBaseTechnique) : Scene :=
  { s with baseTechniques := s.baseTechniques.set t y }

/-- `GlBaseTechnique::commit`. The technique's own members change first: no leaf object
refers back to it. -/
def commitTechnique (s : Scene) (t : ℕ) : Scene :=
  match s.baseTechniques t with
  | none => s.crash .useAfterFree
  | some x =>
    ((s.registerTechnique t x).storeTechnique t (x.commit s.bindingAlive)).commitLeaves x
      (x.commit s.bindingAlive)

/-- `VirtualObject::add_rendering_unit`. -/
def addRenderingUnit (s : Scene) (v u : ℕ) : Scene :=
  match s.virtualObjects v with
  | none => s.crash .useAfterFree
  | some x =>
    { s with
      virtualObjects :=
        s.virtualObjects.set v { x with renderingUnitList := x.renderingUnitList ++ [u] } }

/-- At its first commit a unit joins the list of its owner. -/
def registerUnit (s : Scene) (u : ℕ) (x : RenderingUnit) : Scene :=
  if x.committed then s
  else
    { s.addRenderingUnit x.owner u with
      renderingUnits := s.renderingUnits.set u { x with committed := true } }

/-- `RenderingUnit::commit`. -/
def commitUnit (s : Scene) (u : ℕ) : Scene :=
  match s.renderingUnits u with
  | none => s.crash .useAfterFree
  | some x => x.listeners.foldl commitTechnique (s.registerUnit u x)

/-- `BoundedApp::commit`. -/
def commitApp (s : Scene) (b : ℕ) : Scene :=
  match s.boundedApps b with
  | none => s.crash .useAfterFree
  | some x => { s with boundedApps := s.boundedApps.set b { x with current := x.pending } }

/-- A listener of the `committed` signal of a virtual object is notified. -/
def notifyCommitted (s : Scene) : CommitListener → Scene
  | .unit u => s.commitUnit u
  | .app b => s.commitApp b

/-- `VirtualObject::commit` up to its `sync`: the listeners run in the order they were added,
and none is added or removed meanwhile. -/
def commitState (s : Scene) (v : ℕ) : Scene :=
  match s.virtualObjects v with
  | none => s.crash .useAfterFree
  | some x =>
    x.listeners.foldl notifyCommitted
      { s with virtualObjects := s.virtualObjects.set v x.commit }

end Scene
end Yaza
