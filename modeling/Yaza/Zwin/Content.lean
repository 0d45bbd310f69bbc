import Yaza.Zwin.Requests

/-! The content of a scene: the scene without its proxies, without the flags that say what the
session has not been told yet, and without the references that have expired. -/
namespace Yaza
namespace Scene

def bareBuffer (x : GlBuffer) : GlBuffer :=
  { x with proxy := none, current.dataDamaged := false }

def bareTexture (x : GlTexture) : GlTexture :=
  { x with proxy := none, current.dataChanged := false, current.mipmapTargetChanged := false }

def bareSampler (x : GlSampler) : GlSampler := { x with proxy := none }

def bareShader (x : GlShader) : GlShader := { x with proxy := none }

def bareProgram (alive : ℕ → Bool) (x : GlProgram) : GlProgram :=
  { x with
    proxy := none
    current.shouldLink := false
    current.shaders := x.current.shaders.filter alive }

def bareVertexArray (x : GlVertexArray) : GlVertexArray := { x with proxy := none }

def bareTechnique (alive : TextureBinding → Bool) (x : GlBaseTechnique) : GlBaseTechnique :=
  { x with
    proxy := none
    current.textureBindings := x.current.textureBindings.removeExpired alive }

def bareUnit (x : RenderingUnit) : RenderingUnit := { x with proxy := none }

def bareVirtualObject (x : VirtualObject) : VirtualObject := { x with proxy := none }

def content (s : Scene) : Scene :=
  { s with
    remote := {}
    fault := none
    virtualObjects := s.virtualObjects.mapAll bareVirtualObject
    renderingUnits := s.renderingUnits.mapAll bareUnit
    baseTechniques := s.baseTechniques.mapAll (bareTechnique s.bindingAlive)
    glPrograms := s.glPrograms.mapAll (bareProgram s.shaderAlive)
    glShaders := s.glShaders.mapAll bareShader
    glVertexArrays := s.glVertexArrays.mapAll bareVertexArray
    glBuffers := s.glBuffers.mapAll bareBuffer
    glTextures := s.glTextures.mapAll bareTexture
    glSamplers := s.glSamplers.mapAll bareSampler }

theorem bindingAlive_congr {s s' : Scene}
    (ht : ∀ i, (s'.glTextures i).isSome = (s.glTextures i).isSome)
    (hp : ∀ i, (s'.glSamplers i).isSome = (s.glSamplers i).isSome) :
    s'.bindingAlive = s.bindingAlive := by
  funext b; simp [bindingAlive, ht, hp]

section Updates
variable (s : Scene) (i : ℕ)

theorem content_modifyBuffer {f : GlBuffer → GlBuffer}
    (hf : ∀ x, bareBuffer (f x) = bareBuffer x) :
    { s with glBuffers := s.glBuffers.modify i f }.content = s.content := by
  simp only [content, Arena.mapAll_modify hf]; rfl

theorem content_modifyTexture {f : GlTexture → GlTexture}
    (hf : ∀ x, bareTexture (f x) = bareTexture x) :
    { s with glTextures := s.glTextures.modify i f }.content = s.content := by
  have hb : { s with glTextures := s.glTextures.modify i f }.bindingAlive = s.bindingAlive :=
    bindingAlive_congr (fun j => Arena.modify_isSome _ i j f) fun _ => rfl
  simp only [content, Arena.mapAll_modify hf, hb]; rfl

theorem content_modifySampler {f : GlSampler → GlSampler}
    (hf : ∀ x, bareSampler (f x) = bareSampler x) :
    { s with glSamplers := s.glSamplers.modify i f }.content = s.content := by
  have hb : { s with glSamplers := s.glSamplers.modify i f }.bindingAlive = s.bindingAlive :=
    bindingAlive_congr (fun _ => rfl) fun j => Arena.modify_isSome _ i j f
  simp only [content, Arena.mapAll_modify hf, hb]; rfl

theorem content_modifyShader {f : GlShader → GlShader}
    (hf : ∀ x, bareShader (f x) = bareShader x) :
    { s with glShaders := s.glShaders.modify i f }.content = s.content := by
  have ha : { s with glShaders := s.glShaders.modify i f }.shaderAlive = s.shaderAlive :=
    funext fun j => Arena.modify_isSome _ i j f
  simp only [content, Arena.mapAll_modify hf, ha]; rfl

theorem content_modifyProgram {f : GlProgram → GlProgram}
    (hf : ∀ x, bareProgram s.shaderAlive (f x) = bareProgram s.shaderAlive x) :
    { s with glPrograms := s.glPrograms.modify i f }.content = s.content := by
  have ha : { s with glPrograms := s.glPrograms.modify i f }.shaderAlive = s.shaderAlive :=
    rfl
  simp only [content, ha, Arena.mapAll_modify hf]; rfl

theorem content_modifyVertexArray {f : GlVertexArray → GlVertexArray}
    (hf : ∀ x, bareVertexArray (f x) = bareVertexArray x) :
    { s with glVertexArrays := s.glVertexArrays.modify i f }.content = s.content := by
  simp only [content, Arena.mapAll_modify hf]; rfl

theorem content_modifyTechnique {f : GlBaseTechnique → GlBaseTechnique}
    (hf : ∀ x, bareTechnique s.bindingAlive (f x) = bareTechnique s.bindingAlive x) :
    { s with baseTechniques := s.baseTechniques.modify i f }.content = s.content := by
  have hb : { s with baseTechniques := s.baseTechniques.modify i f }.bindingAlive =
      s.bindingAlive := rfl
  simp only [content, hb, Arena.mapAll_modify hf]; rfl

theorem content_modifyUnit {f : RenderingUnit → RenderingUnit}
    (hf : ∀ x, bareUnit (f x) = bareUnit x) :
    { s with renderingUnits := s.renderingUnits.modify i f }.content = s.content := by
  simp only [content, Arena.mapAll_modify hf]; rfl

theorem content_modifyVirtualObject {f : VirtualObject → VirtualObject}
    (hf : ∀ x, bareVirtualObject (f x) = bareVirtualObject x) :
    { s with virtualObjects := s.virtualObjects.modify i f }.content = s.content := by
  simp only [content, Arena.mapAll_modify hf]; rfl

end Updates

@[simp] theorem giveProxy_content (s : Scene) (p : Proxy) (h : Holder) :
    (s.giveProxy p h).content = s.content := by
  cases h with
  | virtualObject i => exact content_modifyVirtualObject s i fun _ => rfl
  | renderingUnit i => exact content_modifyUnit s i fun _ => rfl
  | baseTechnique i => exact content_modifyTechnique s i fun _ => rfl
  | program i => exact content_modifyProgram s i fun _ => rfl
  | shader i => exact content_modifyShader s i fun _ => rfl
  | vertexArray i => exact content_modifyVertexArray s i fun _ => rfl
  | buffer i => exact content_modifyBuffer s i fun _ => rfl
  | texture i => exact content_modifyTexture s i fun _ => rfl
  | sampler i => exact content_modifySampler s i fun _ => rfl

@[simp] theorem dropExpiredShaders_content (s : Scene) (p : ℕ) :
    (s.dropExpiredShaders p).content = s.content :=
  content_modifyProgram s p fun x => by simp [bareProgram]

@[simp] theorem dropExpired_content (s : Scene) (t : ℕ) :
    (s.dropExpired t).content = s.content :=
  content_modifyTechnique s t fun x => by
    simp [bareTechnique, TextureBindingList.removeExpired]

/-- Losing the session changes no content either. -/
@[simp] theorem dropProxies_content (s : Scene) : s.dropProxies.content = s.content := by
  have hb : s.dropProxies.bindingAlive = s.bindingAlive :=
    bindingAlive_congr (fun i => by simp [dropProxies]) fun i => by simp [dropProxies]
  have ha : s.dropProxies.shaderAlive = s.shaderAlive := by
    funext h; simp [dropProxies, shaderAlive]
  simp only [content, hb, ha]
  simp only [dropProxies, Arena.mapAll_mapAll]
  rfl

section Equal
variable {s s' : Scene} (h : s'.content = s.content) {i : ℕ}
include h

theorem unit_of_content {y' : RenderingUnit} (hy : s'.renderingUnits i = some y') :
    ∃ y, s.renderingUnits i = some y ∧ bareUnit y = bareUnit y' :=
  Arena.of_mapAll (congrArg Scene.renderingUnits h) hy

theorem bindingAlive_of_content : s'.bindingAlive = s.bindingAlive :=
  bindingAlive_congr (Arena.isSome_of_mapAll (congrArg Scene.glTextures h))
    (Arena.isSome_of_mapAll (congrArg Scene.glSamplers h))

theorem technique_of_content {z' : GlBaseTechnique} (hz : s'.baseTechniques i = some z') :
    ∃ z, s.baseTechniques i = some z ∧
      bareTechnique s.bindingAlive z = bareTechnique s.bindingAlive z' := by
  have hm := congrArg Scene.baseTechniques h
  simp only [content, bindingAlive_of_content h] at hm
  exact Arena.of_mapAll hm hz

theorem boundedApps_of_content : s'.boundedApps = s.boundedApps :=
  show s'.content.boundedApps = s.content.boundedApps from by rw [h]

end Equal

end Scene
end Yaza
