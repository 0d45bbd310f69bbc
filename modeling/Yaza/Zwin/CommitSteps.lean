import Yaza.Lib.Path
import Yaza.Zwin.Content

/-! What `commit` can do, one small step at a time, and to which objects: those of a set `T` that
is closed under the references a commit follows. -/
namespace Yaza

def CommitListener.id : CommitListener → ℕ
  | .unit u => u
  | .app b => b

/-- The objects the draw arguments refer to. -/
def DrawApiArgs.refs (d : DrawApiArgs) : List ℕ :=
  match d.data with
  | .elements _ _ _ _ b => [b]
  | _ => []

def TextureBindingList.refs (l : TextureBindingList) : List ℕ :=
  l.list.flatMap fun b => [b.texture, b.sampler]

/-- The objects a technique state refers to. -/
def TechniqueState.refs (x : TechniqueState) : List ℕ :=
  x.program.toList ++ x.vertexArray.toList ++ x.textureBindings.refs ++ x.drawApiArgs.refs

namespace Scene

/-- A set of objects that holds, with an object, all that its commit reaches. -/
structure Scope (T : ℕ → Prop) (s : Scene) : Prop where
  objects : ∀ v x, s.virtualObjects v = some x → T v → ∀ l ∈ x.listeners, T l.id
  units : ∀ u y, s.renderingUnits u = some y → T u → T y.owner ∧ ∀ t ∈ y.listeners, T t
  techniques : ∀ t z, s.baseTechniques t = some z → T t →
    T z.owner ∧ (∀ i ∈ z.pending.refs, T i) ∧ ∀ i ∈ z.current.refs, T i
  vertexArrays : ∀ va x, s.glVertexArrays va = some x → T va →
    ∀ e ∈ x.pending, ∀ b, e.2.glBuffer = some b → T b

theorem scope_true (s : Scene) : Scope (fun _ => True) s := by
  constructor <;> simp

/-- The steps of `commit` on objects of `T`. -/
inductive CommitStep (T : ℕ → Prop) : Scene → Scene → Prop
  | crash (s : Scene) : CommitStep T s (s.crash .useAfterFree)
  | error (s : Scene) (i : ℕ) (code : ErrorCode) (text : String) :
      CommitStep T s (s.postError i code text)
  | buffer (s : Scene) (b r : ℕ) (x : GlBuffer) (shm : ShmBuffer) (hb : T b)
      (hx : s.glBuffers b = some x) :
      CommitStep T s
        { s with
          glBuffers := s.glBuffers.set b (x.commit shm.data)
          events := s.events ++ [.bufferRelease r] }
  | textureData (s : Scene) (t r : ℕ) (x : GlTexture) (shm : ShmBuffer) (ht : T t)
      (hx : s.glTextures t = some x) :
      CommitStep T s
        { s with
          glTextures := s.glTextures.set t (x.commitData shm.data)
          events := s.events ++ [.bufferRelease r] }
  | mipmap (s : Scene) (t : ℕ) (ht : T t) : CommitStep T s (s.commitMipmap t)
  | sampler (s : Scene) (p : ℕ) (x : GlSampler) (hp : T p) (hx : s.glSamplers p = some x) :
      CommitStep T s { s with glSamplers := s.glSamplers.set p x.commit }
  | program (s : Scene) (p : ℕ) (x : GlProgram) (hp : T p) (hx : s.glPrograms p = some x) :
      CommitStep T s { s with glPrograms := s.glPrograms.set p x.commit }
  | vertexArray (s : Scene) (va : ℕ) (x : GlVertexArray) (hva : T va)
      (hx : s.glVertexArrays va = some x) :
      CommitStep T s { s with glVertexArrays := s.glVertexArrays.set va x.commit }
  | technique (s : Scene) (t : ℕ) (z : GlBaseTechnique) (ht : T t)
      (hz : s.baseTechniques t = some z) :
      CommitStep T s (s.storeTechnique t (z.commit s.bindingAlive))
  | register (s : Scene) (t : ℕ) (z : GlBaseTechnique) (y : RenderingUnit) (ht : T t)
      (hz : s.baseTechniques t = some z) (hy : s.renderingUnits z.owner = some y)
      (hn : y.technique = none) :
      CommitStep T s
        { s with
          renderingUnits := s.renderingUnits.set z.owner { y with technique := some t } }
  | unit (s : Scene) (u : ℕ) (y : RenderingUnit) (hu : T u) (hy : s.renderingUnits u = some y)
      (hc : y.committed = false) : CommitStep T s (s.registerUnit u y)
  | app (s : Scene) (b : ℕ) (x : BoundedApp) (hb : T b) (hx : s.boundedApps b = some x) :
      CommitStep T s
        { s with boundedApps := s.boundedApps.set b { x with current := x.pending } }
  | object (s : Scene) (v : ℕ) (x : VirtualObject) (hv : T v)
      (hx : s.virtualObjects v = some x) :
      CommitStep T s { s with virtualObjects := s.virtualObjects.set v x.commit }

abbrev Commits (T : ℕ → Prop) : Scene → Scene → Prop := Relation.ReflTransGen (CommitStep T)

theorem postError_cases (s : Scene) (i : ℕ) (code : ErrorCode) (text : String) :
    s.postError i code text = s.crash .useAfterFree ∨
      ∃ e, s.postError i code text = { s with errors := s.errors ++ [e] } := by
  unfold postError
  split
  · exact .inl rfl
  · exact .inr ⟨_, rfl⟩

theorem addRenderingUnit_cases (s : Scene) (v u : ℕ) :
    s.addRenderingUnit v u = s.crash .useAfterFree ∨
      ∃ x, s.virtualObjects v = some x ∧
        s.addRenderingUnit v u =
          { s with
            virtualObjects := s.virtualObjects.set v
              { x with renderingUnitList := x.renderingUnitList ++ [u] } } := by
  unfold addRenderingUnit
  split
  · exact .inl rfl
  · next x hx => exact .inr ⟨x, hx, rfl⟩

def boneVirtualObject (x : VirtualObject) : VirtualObject :=
  { x with pendingFrames := [], currentFrames := [], committed := false,
           renderingUnitList := [] }

def boneApp (x : BoundedApp) : BoundedApp := { x with current := {} }

def boneUnit (x : RenderingUnit) : RenderingUnit :=
  { x with committed := false, technique := none }

def boneTechnique (x : GlBaseTechnique) : GlBaseTechnique :=
  { x with pending := {}, current := {}, commited := false }

def boneProgram (x : GlProgram) : GlProgram := { proxy := x.proxy }

def boneVertexArray (x : GlVertexArray) : GlVertexArray := { x with current := [] }

def boneBuffer (x : GlBuffer) : GlBuffer := { GlBuffer.construct {} with proxy := x.proxy }

def boneTexture (x : GlTexture) : GlTexture :=
  { GlTexture.construct ⟨⟨0, 0, 0, 0, 0, 0, 0, 0⟩, ⟨0, 0, 0, 0, 0, 0, 0, 0⟩, 0⟩ with
    proxy := x.proxy }

def boneSampler (x : GlSampler) : GlSampler := { proxy := x.proxy }

/-- What a commit leaves alone: everything but the pending and current states, the
registrations, and what is sent to the clients. -/
def skeleton (s : Scene) : Scene :=
  { s with
    fault := none
    errors := []
    events := []
    virtualObjects := s.virtualObjects.mapAll boneVirtualObject
    boundedApps := s.boundedApps.mapAll boneApp
    renderingUnits := s.renderingUnits.mapAll boneUnit
    baseTechniques := s.baseTechniques.mapAll boneTechnique
    glPrograms := s.glPrograms.mapAll boneProgram
    glVertexArrays := s.glVertexArrays.mapAll boneVertexArray
    glBuffers := s.glBuffers.mapAll boneBuffer
    glTextures := s.glTextures.mapAll boneTexture
    glSamplers := s.glSamplers.mapAll boneSampler }

section Updates
variable {s : Scene} {i : ℕ}

theorem setVirtualObject_skeleton {x y : VirtualObject} (hx : s.virtualObjects i = some x)
    (he : boneVirtualObject y = boneVirtualObject x) :
    { s with virtualObjects := s.virtualObjects.set i y }.skeleton = s.skeleton := by
  simp only [skeleton, Arena.mapAll_set hx he]

theorem setApp_skeleton {x y : BoundedApp} (hx : s.boundedApps i = some x)
    (he : boneApp y = boneApp x) :
    { s with boundedApps := s.boundedApps.set i y }.skeleton = s.skeleton := by
  simp only [skeleton, Arena.mapAll_set hx he]

theorem setUnit_skeleton {x y : RenderingUnit} (hx : s.renderingUnits i = some x)
    (he : boneUnit y = boneUnit x) :
    { s with renderingUnits := s.renderingUnits.set i y }.skeleton = s.skeleton := by
  simp only [skeleton, Arena.mapAll_set hx he]

theorem setTechnique_skeleton {x y : GlBaseTechnique} (hx : s.baseTechniques i = some x)
    (he : boneTechnique y = boneTechnique x) :
    { s with baseTechniques := s.baseTechniques.set i y }.skeleton = s.skeleton := by
  simp only [skeleton, Arena.mapAll_set hx he]

theorem setProgram_skeleton {x y : GlProgram} (hx : s.glPrograms i = some x)
    (he : boneProgram y = boneProgram x) :
    { s with glPrograms := s.glPrograms.set i y }.skeleton = s.skeleton := by
  simp only [skeleton, Arena.mapAll_set hx he]

theorem setVertexArray_skeleton {x y : GlVertexArray} (hx : s.glVertexArrays i = some x)
    (he : boneVertexArray y = boneVertexArray x) :
    { s with glVertexArrays := s.glVertexArrays.set i y }.skeleton = s.skeleton := by
  simp only [skeleton, Arena.mapAll_set hx he]

theorem setBuffer_skeleton {x y : GlBuffer} (hx : s.glBuffers i = some x)
    (he : boneBuffer y = boneBuffer x) :
    { s with glBuffers := s.glBuffers.set i y }.skeleton = s.skeleton := by
  simp only [skeleton, Arena.mapAll_set hx he]

theorem setTexture_skeleton {x y : GlTexture} (hx : s.glTextures i = some x)
    (he : boneTexture y = boneTexture x) :
    { s with glTextures := s.glTextures.set i y }.skeleton = s.skeleton := by
  simp only [skeleton, Arena.mapAll_set hx he]

theorem setSampler_skeleton {x y : GlSampler} (hx : s.glSamplers i = some x)
    (he : boneSampler y = boneSampler x) :
    { s with glSamplers := s.glSamplers.set i y }.skeleton = s.skeleton := by
  simp only [skeleton, Arena.mapAll_set hx he]

end Updates

theorem postError_skeleton (s : Scene) (i : ℕ) (code : ErrorCode) (text : String) :
    (s.postError i code text).skeleton = s.skeleton := by
  rcases postError_cases s i code text with h | ⟨e, h⟩ <;> rw [h] <;> rfl

theorem addRenderingUnit_skeleton (s : Scene) (v u : ℕ) :
    (s.addRenderingUnit v u).skeleton = s.skeleton := by
  rcases addRenderingUnit_cases s v u with h | ⟨x, hx, h⟩
  · rw [h]; rfl
  · rw [h]; exact setVirtualObject_skeleton hx rfl

theorem addRenderingUnit_units (s : Scene) (v u : ℕ) :
    (s.addRenderingUnit v u).renderingUnits = s.renderingUnits := by
  rcases addRenderingUnit_cases s v u with h | ⟨x, hx, h⟩
  · rw [h]; rfl
  · rw [h]

theorem CommitStep.skeleton {T : ℕ → Prop} {s s' : Scene} (h : CommitStep T s s') :
    s'.skeleton = s.skeleton := by
  cases h with
  | crash => rfl
  | error i code text => exact postError_skeleton s i code text
  | buffer b r x shm hb hx => exact setBuffer_skeleton hx rfl
  | textureData t r x shm ht hx => exact setTexture_skeleton hx rfl
  | mipmap t ht =>
    have hm : ∀ x : GlTexture, boneTexture x.commitMipmap = boneTexture x := fun x => by
      simp only [GlTexture.commitMipmap]; split <;> rfl
    simp only [Scene.skeleton, commitMipmap, Arena.mapAll_modify hm]
  | sampler p x hp hx => exact setSampler_skeleton hx rfl
  | program p x hp hx =>
    exact setProgram_skeleton hx (by simp only [GlProgram.commit]; split <;> rfl)
  | vertexArray va x hva hx => exact setVertexArray_skeleton hx rfl
  | technique t z ht hz => exact setTechnique_skeleton hz rfl
  | register t z y ht hz hy hn => exact setUnit_skeleton hy rfl
  | unit u y hu hy hc =>
    have hu' := addRenderingUnit_units s y.owner u
    have h1 := setUnit_skeleton (s := s.addRenderingUnit y.owner u) (i := u) (x := y)
      (y := { y with committed := true }) (hu' ▸ hy) rfl
    rw [hu'] at h1
    rw [registerUnit, if_neg (by simp [hc]), h1, addRenderingUnit_skeleton]
  | app b x hb hx => exact setApp_skeleton hx rfl
  | object v x hv hx => exact setVirtualObject_skeleton hx rfl

theorem Commits.skeleton {T : ℕ → Prop} {s s' : Scene} (h : Commits T s s') :
    s'.skeleton = s.skeleton :=
  Path.const (f := Scene.skeleton) (fun _ _ h => h.skeleton) h

theorem CommitStep.fault {T : ℕ → Prop} {s s' : Scene} (h : CommitStep T s s') {f : Fault}
    (hf : s'.fault = some f) : s.fault = some f ∨ f = .useAfterFree := by
  have crash : (s.crash .useAfterFree).fault = some f → s.fault = some f ∨ f = .useAfterFree :=
    fun hf => by cases hs : s.fault <;> simp_all [Scene.crash]
  cases h with
  | crash => exact crash hf
  | error i code text =>
    rcases postError_cases s i code text with h | ⟨e, h⟩ <;> rw [h] at hf
    · exact crash hf
    · exact .inl hf
  | unit u y hu hy hc =>
    rw [registerUnit, if_neg (by simp [hc])] at hf
    rcases addRenderingUnit_cases s y.owner u with h | ⟨x, hx, h⟩ <;> rw [h] at hf
    · exact crash hf
    · exact .inl hf
  | _ => exact .inl hf

theorem Commits.fault {T : ℕ → Prop} {s s' : Scene} (h : Commits T s s') {f : Fault}
    (hf : s'.fault = some f) : s.fault = some f ∨ f = .useAfterFree := by
  induction h with
  | refl => exact .inl hf
  | tail _ hstep ih =>
    rcases hstep.fault hf with h1 | h2
    · exact ih h1
    · exact .inr h2

section Equal
variable {s s' : Scene} (h : s'.skeleton = s.skeleton) {i : ℕ}
include h

theorem remote_of_skeleton : s'.remote = s.remote :=
  show s'.skeleton.remote = s.skeleton.remote from by rw [h]

theorem resources_of_skeleton : s'.resources = s.resources :=
  show s'.skeleton.resources = s.skeleton.resources from by rw [h]

theorem nextId_of_skeleton : s'.nextId = s.nextId :=
  show s'.skeleton.nextId = s.skeleton.nextId from by rw [h]

theorem shmBuffers_of_skeleton : s'.shmBuffers = s.shmBuffers :=
  show s'.skeleton.shmBuffers = s.skeleton.shmBuffers from by rw [h]

theorem virtualObject_of_skeleton {x' : VirtualObject} (hx : s'.virtualObjects i = some x') :
    ∃ x, s.virtualObjects i = some x ∧ boneVirtualObject x = boneVirtualObject x' :=
  Arena.of_mapAll (congrArg Scene.virtualObjects h) hx

theorem app_of_skeleton {x' : BoundedApp} (hx : s'.boundedApps i = some x') :
    ∃ x, s.boundedApps i = some x ∧ boneApp x = boneApp x' :=
  Arena.of_mapAll (congrArg Scene.boundedApps h) hx

theorem unit_of_skeleton {y' : RenderingUnit} (hy : s'.renderingUnits i = some y') :
    ∃ y, s.renderingUnits i = some y ∧ boneUnit y = boneUnit y' :=
  Arena.of_mapAll (congrArg Scene.renderingUnits h) hy

theorem vertexArray_of_skeleton {x' : GlVertexArray} (hx : s'.glVertexArrays i = some x') :
    ∃ x, s.glVertexArrays i = some x ∧ boneVertexArray x = boneVertexArray x' :=
  Arena.of_mapAll (congrArg Scene.glVertexArrays h) hx

theorem bindingAlive_of_skeleton : s'.bindingAlive = s.bindingAlive :=
  bindingAlive_congr (Arena.isSome_of_mapAll (congrArg Scene.glTextures h))
    (Arena.isSome_of_mapAll (congrArg Scene.glSamplers h))

/-- A commit gives and takes no proxy. -/
theorem proxyOf_of_skeleton (x : Holder) : s'.proxyOf x = s.proxyOf x := by
  have bind {α β : Type} {f : α → β} {g : β → Option Proxy} {k k' : Arena α}
      (hm : k'.mapAll f = k.mapAll f) (j : ℕ) :
      (k' j).bind (g ∘ f) = (k j).bind (g ∘ f) := by
    have := congrArg (fun o => Option.bind o g) (congrFun hm j)
    simpa [Option.bind_map] using this
  cases x with
  | virtualObject j =>
    exact bind (g := VirtualObject.proxy) (congrArg Scene.virtualObjects h) j
  | renderingUnit j =>
    exact bind (g := RenderingUnit.proxy) (congrArg Scene.renderingUnits h) j
  | baseTechnique j =>
    exact bind (g := GlBaseTechnique.proxy) (congrArg Scene.baseTechniques h) j
  | program j => exact bind (g := GlProgram.proxy) (congrArg Scene.glPrograms h) j
  | shader j =>
    have he : s'.glShaders = s.glShaders :=
      show s'.skeleton.glShaders = s.skeleton.glShaders from by rw [h]
    simp [proxyOf, he]
  | vertexArray j => exact bind (g := GlVertexArray.proxy) (congrArg Scene.glVertexArrays h) j
  | buffer j => exact bind (g := GlBuffer.proxy) (congrArg Scene.glBuffers h) j
  | texture j => exact bind (g := GlTexture.proxy) (congrArg Scene.glTextures h) j
  | sampler j => exact bind (g := GlSampler.proxy) (congrArg Scene.glSamplers h) j

end Equal

end Scene
end Yaza
