import Yaza.Gles.Direct
import Yaza.Zwin.Segregated
import Yaza.Zwin.Settling

/-! What a scene keeps twice, as requested and as committed, and the virtual objects whose commit
has nothing to move from the one to the other. -/
namespace Yaza

namespace TechniqueState

/-- `pending_`, less the bindings that have expired. -/
def requested (alive : TextureBinding → Bool) (p : TechniqueState) : TechniqueState :=
  { p with textureBindings := p.textureBindings.removeExpired alive }

/-- `current_`, less the bindings that have expired and the flags that say what `sync` is to
send. -/
def committed (alive : TextureBinding → Bool) (c : TechniqueState) : TechniqueState where
  program := c.program
  vertexArray := c.vertexArray
  textureBindings := { list := (c.textureBindings.removeExpired alive).list }
  drawApiArgs := { data := c.drawApiArgs.data }
  uniformVars := c.uniformVars.map UniformVariable.plain

/-- Nothing was requested since the last commit. -/
structure Idle (p : TechniqueState) : Prop where
  program : p.programChanged = false
  vertexArray : p.vertexArrayChanged = false
  textureBindings : p.textureBindings.changed = false
  drawApiArgs : p.drawApiArgs.changed = false
  uniformVars : p.uniformVars = []

theorem Idle.requested_afterCommit {p : TechniqueState} (h : p.Idle)
    (alive : TextureBinding → Bool) :
    (p.afterCommit alive).requested alive = p.requested alive := by
  obtain ⟨h1, h2, h3, h4, h5⟩ := h
  simp [requested, afterCommit, TextureBindingList.afterCommit, TextureBindingList.removeExpired,
    DrawApiArgs.afterCommit, h1, h2, h3, h4, h5]

theorem Idle.committed_commit {p : TechniqueState} (h : p.Idle) (alive : TextureBinding → Bool)
    (c : TechniqueState) : (p.commit alive c).committed alive = c.committed alive := by
  obtain ⟨h1, h2, h3, h4, h5⟩ := h
  simp [committed, commit, TextureBindingList.commit, TextureBindingList.removeExpired,
    DrawApiArgs.commit, UniformVariableList.commit, UniformVariable.plain, h1, h2, h3, h4, h5]

end TechniqueState

/-- One of the two states of an object: of a buffer and of a texture they have different types. -/
structure Stage (β τ : Type) where
  frames : Option (List ℕ)
  app : Option BoundedState
  technique : Option TechniqueState
  buffer : Option β
  texture : Option τ
  sampler : Option (Table Parameter)

namespace Scene

/-- What is requested of the object `i`. -/
def requested (s : Scene) (alive : TextureBinding → Bool) (i : ℕ) :
    Stage GlBuffer.Pending GlTexture.Pending where
  frames := (s.virtualObjects i).map VirtualObject.pendingFrames
  app := (s.boundedApps i).map BoundedApp.pending
  technique := (s.baseTechniques i).map fun z => z.pending.requested alive
  buffer := (s.glBuffers i).map GlBuffer.pending
  texture := (s.glTextures i).map GlTexture.pending
  sampler := (s.glSamplers i).map GlSampler.pending

/-- What is committed of the object `i`. -/
def committed (s : Scene) (alive : TextureBinding → Bool) (i : ℕ) :
    Stage GlBuffer.Current GlTexture.Current where
  frames := (s.virtualObjects i).map VirtualObject.currentFrames
  app := (s.boundedApps i).map BoundedApp.current
  technique := (s.baseTechniques i).map fun z => z.current.committed alive
  buffer := (s.glBuffers i).map fun x => (bareBuffer x).current
  texture := (s.glTextures i).map fun x => (bareTexture x).current
  sampler := (s.glSamplers i).map GlSampler.current

/-- Both states of the object are what they were, but for bindings that have expired by now. -/
structure SameStages (s s' : Scene) (i : ℕ) : Prop where
  requested : s'.requested s'.bindingAlive i = s.requested s'.bindingAlive i
  committed : s'.committed s'.bindingAlive i = s.committed s'.bindingAlive i

theorem SameStages.refl (s : Scene) (i : ℕ) : SameStages s s i := ⟨rfl, rfl⟩

/-- What does not touch an object leaves its stages alone. -/
theorem Local.sameStages {P : ℕ → Prop} {s s' : Scene} (h : Local P s s') {i : ℕ} (hi : ¬ P i) :
    SameStages s s' i where
  requested := by
    simp only [Scene.requested, h.objects i hi, h.apps i hi, h.techniques i hi, h.buffers i hi,
      h.textures i hi, h.samplers i hi]
  committed := by
    simp only [Scene.committed, h.objects i hi, h.apps i hi, h.techniques i hi, h.buffers i hi,
      h.textures i hi, h.samplers i hi]

def stageVirtualObject (x : VirtualObject) : VirtualObject :=
  { pendingFrames := x.pendingFrames, currentFrames := x.currentFrames, listeners := x.listeners }

def stageApp (x : BoundedApp) : BoundedApp := { x with polar := 0, azimuthal := 0 }

def stageUnit (y : RenderingUnit) : RenderingUnit := { owner := y.owner, listeners := y.listeners }

def stageTechnique (alive : TextureBinding → Bool) (z : GlBaseTechnique) : GlBaseTechnique where
  pending := z.pending.requested alive
  current := z.current.committed alive
  owner := z.owner

def stageVertexArray (x : GlVertexArray) : GlVertexArray := { pending := x.pending }

/-- The scene without anything but the stages, the references a commit follows, and the memory of
the clients. -/
def stages (s : Scene) : Scene :=
  { s with
    remote := {}
    fault := none
    errors := []
    events := []
    virtualObjects := s.virtualObjects.mapAll stageVirtualObject
    boundedApps := s.boundedApps.mapAll stageApp
    renderingUnits := s.renderingUnits.mapAll stageUnit
    baseTechniques := s.baseTechniques.mapAll (stageTechnique s.bindingAlive)
    glPrograms := Arena.empty
    glShaders := Arena.empty
    glVertexArrays := s.glVertexArrays.mapAll stageVertexArray
    glBuffers := s.glBuffers.mapAll bareBuffer
    glTextures := s.glTextures.mapAll bareTexture
    glSamplers := s.glSamplers.mapAll bareSampler }

theorem content_stages (s : Scene) : s.content.stages = s.stages := by
  have hb : s.content.bindingAlive = s.bindingAlive :=
    bindingAlive_congr (fun i => by simp [content]) fun i => by simp [content]
  have hz : stageTechnique s.bindingAlive ∘ bareTechnique s.bindingAlive =
      stageTechnique s.bindingAlive := by
    funext z
    simp [stageTechnique, bareTechnique, TechniqueState.committed,
      TextureBindingList.removeExpired]
  simp only [stages, hb]
  simp only [content, Arena.mapAll_mapAll, hz]
  rfl

/-- `sync` moves nothing. -/
theorem stages_of_content {s s' : Scene} (h : s'.content = s.content) : s'.stages = s.stages := by
  rw [← content_stages, h, content_stages]

section Updates
variable {s : Scene} {i : ℕ}

theorem setVirtualObject_stages {x y : VirtualObject} (hx : s.virtualObjects i = some x)
    (he : stageVirtualObject y = stageVirtualObject x) :
    { s with virtualObjects := s.virtualObjects.set i y }.stages = s.stages := by
  simp only [stages, Arena.mapAll_set hx he]
  rfl

theorem setApp_stages {x y : BoundedApp} (hx : s.boundedApps i = some x)
    (he : stageApp y = stageApp x) :
    { s with boundedApps := s.boundedApps.set i y }.stages = s.stages := by
  simp only [stages, Arena.mapAll_set hx he]
  rfl

theorem setUnit_stages {x y : RenderingUnit} (hx : s.renderingUnits i = some x)
    (he : stageUnit y = stageUnit x) :
    { s with renderingUnits := s.renderingUnits.set i y }.stages = s.stages := by
  simp only [stages, Arena.mapAll_set hx he]
  rfl

theorem setTechnique_stages {x y : GlBaseTechnique} (hx : s.baseTechniques i = some x)
    (he : stageTechnique s.bindingAlive y = stageTechnique s.bindingAlive x) :
    { s with baseTechniques := s.baseTechniques.set i y }.stages = s.stages := by
  have hb : { s with baseTechniques := s.baseTechniques.set i y }.bindingAlive =
      s.bindingAlive := rfl
  simp only [stages, hb, Arena.mapAll_set hx he]

theorem setVertexArray_stages {x y : GlVertexArray} (hx : s.glVertexArrays i = some x)
    (he : stageVertexArray y = stageVertexArray x) :
    { s with glVertexArrays := s.glVertexArrays.set i y }.stages = s.stages := by
  simp only [stages, Arena.mapAll_set hx he]
  rfl

end Updates

section Equal
variable {s s' : Scene} (h : s'.stages = s.stages) {i : ℕ}
include h

theorem memory_of_stages : s'.shmBuffers = s.shmBuffers :=
  show s'.stages.shmBuffers = s.stages.shmBuffers from by rw [h]

theorem bindingAlive_of_stages : s'.bindingAlive = s.bindingAlive :=
  bindingAlive_congr (Arena.isSome_of_mapAll (congrArg Scene.glTextures h))
    (Arena.isSome_of_mapAll (congrArg Scene.glSamplers h))

theorem techniques_of_stages : s'.baseTechniques.mapAll (stageTechnique s.bindingAlive) =
    s.baseTechniques.mapAll (stageTechnique s.bindingAlive) := by
  have hm := congrArg Scene.baseTechniques h
  simpa only [stages, bindingAlive_of_stages h] using hm

theorem sameStages_of_stages (i : ℕ) : SameStages s s' i := by
  have hb := bindingAlive_of_stages h
  have part {α β γ : Type} {k k' : Arena α} {f : α → β} (hm : k'.mapAll f = k.mapAll f)
      (g : β → γ) : (k' i).map (g ∘ f) = (k i).map (g ∘ f) := by
    have := congrArg (Option.map g) (congrFun hm i)
    simpa only [Arena.mapAll_apply, Option.map_map] using this
  have hv := congrArg Scene.virtualObjects h
  have ha := congrArg Scene.boundedApps h
  have hz := techniques_of_stages h
  have hu := congrArg Scene.glBuffers h
  have ht := congrArg Scene.glTextures h
  have hp := congrArg Scene.glSamplers h
  constructor
  · rw [hb]
    simp only [Scene.requested, Stage.mk.injEq]
    exact ⟨part hv VirtualObject.pendingFrames, part ha BoundedApp.pending,
      part hz GlBaseTechnique.pending, part hu GlBuffer.pending, part ht GlTexture.pending,
      part hp GlSampler.pending⟩
  · rw [hb]
    simp only [Scene.committed, Stage.mk.injEq]
    exact ⟨part hv VirtualObject.currentFrames, part ha BoundedApp.current,
      part hz GlBaseTechnique.current, part hu GlBuffer.current, part ht GlTexture.current,
      part hp GlSampler.current⟩

end Equal

def BufferIdle (s : Scene) (b : ℕ) : Prop :=
  ∀ x, s.glBuffers b = some x → x.pending.data.bind s.shmBuffers = none

def TextureIdle (s : Scene) (t : ℕ) : Prop :=
  ∀ x, s.glTextures t = some x →
    x.pending.data.bind s.shmBuffers = none ∧ x.pending.mipmapTarget = 0

def SamplerIdle (s : Scene) (p : ℕ) : Prop := ∀ x, s.glSamplers p = some x → x.pending = []

/-- Neither the technique nor a leaf object that its commit comes to has anything pending. -/
structure TechniqueIdle (s : Scene) (z : GlBaseTechnique) : Prop where
  pending : z.pending.Idle
  buffers : ∀ b, s.Touches z (.buffer b) → s.BufferIdle b
  bindings : ∀ b ∈ z.current.textureBindings.list, s.bindingAlive b →
    s.TextureIdle b.texture ∧ s.SamplerIdle b.sampler

/-- A commit of the virtual object has nothing to move. -/
structure Idle (s : Scene) (v : ℕ) : Prop where
  frames : ∀ x, s.virtualObjects v = some x → x.pendingFrames = []
  apps : ∀ b a, s.boundedApps b = some a → a.virtualObject = v → a.pending = a.current
  techniques : ∀ t z, s.baseTechniques t = some z → s.BelongsTo z v → s.TechniqueIdle z

section Same
variable {s s' : Scene} (h : s'.stages = s.stages)
include h

theorem BufferIdle.same {b : ℕ} (hb : s.BufferIdle b) : s'.BufferIdle b := by
  intro x' hx'
  obtain ⟨x, hx, he⟩ := Arena.of_mapAll (congrArg Scene.glBuffers h) hx'
  have hp : x.pending = x'.pending := show (bareBuffer x).pending = _ from he ▸ rfl
  rw [← hp, memory_of_stages h]
  exact hb x hx

theorem TextureIdle.same {t : ℕ} (ht : s.TextureIdle t) : s'.TextureIdle t := by
  intro x' hx'
  obtain ⟨x, hx, he⟩ := Arena.of_mapAll (congrArg Scene.glTextures h) hx'
  have hp : x.pending = x'.pending := show (bareTexture x).pending = _ from he ▸ rfl
  rw [← hp, memory_of_stages h]
  exact ht x hx

theorem SamplerIdle.same {p : ℕ} (hp : s.SamplerIdle p) : s'.SamplerIdle p := by
  intro x' hx'
  obtain ⟨x, hx, he⟩ := Arena.of_mapAll (congrArg Scene.glSamplers h) hx'
  have hq : x.pending = x'.pending := show (bareSampler x).pending = _ from he ▸ rfl
  rw [← hq]
  exact hp x hx

theorem touches_of_stages (z : GlBaseTechnique) (x : Holder) : s'.Touches z x ↔ s.Touches z x := by
  refine touches_congr (fun va => ?_) z x
  have hm := congrArg (Option.map GlVertexArray.pending)
    (congrFun (congrArg Scene.glVertexArrays h) va)
  simp only [stages, Arena.mapAll_apply, Option.map_map] at hm
  exact hm

theorem TechniqueIdle.same {z z' : GlBaseTechnique}
    (he : stageTechnique s.bindingAlive z = stageTechnique s.bindingAlive z')
    (hz : s.TechniqueIdle z) : s'.TechniqueIdle z' := by
  have hb := bindingAlive_of_stages h
  have hp : z.pending.requested s.bindingAlive = z'.pending.requested s.bindingAlive :=
    congrArg GlBaseTechnique.pending he
  have hc : z.current.committed s.bindingAlive = z'.current.committed s.bindingAlive :=
    congrArg GlBaseTechnique.current he
  have h1 : z.pending.programChanged = z'.pending.programChanged :=
    (congrArg TechniqueState.programChanged hp :)
  have h2 : z.pending.vertexArrayChanged = z'.pending.vertexArrayChanged :=
    (congrArg TechniqueState.vertexArrayChanged hp :)
  have h3 : z.pending.vertexArray = z'.pending.vertexArray :=
    (congrArg TechniqueState.vertexArray hp :)
  have h4 : z.pending.drawApiArgs = z'.pending.drawApiArgs :=
    (congrArg TechniqueState.drawApiArgs hp :)
  have h5 : z.pending.uniformVars = z'.pending.uniformVars :=
    (congrArg TechniqueState.uniformVars hp :)
  have h6 : z.pending.textureBindings.changed = z'.pending.textureBindings.changed :=
    (congrArg (fun x => x.textureBindings.changed) hp :)
  have h7 : z.current.vertexArray = z'.current.vertexArray :=
    (congrArg TechniqueState.vertexArray hc :)
  have h8 : z.current.textureBindings.list.filter s.bindingAlive =
      z'.current.textureBindings.list.filter s.bindingAlive :=
    (congrArg (fun x => x.textureBindings.list) hc :)
  have hbound : z'.bound = z.bound := by simp only [GlBaseTechnique.bound, h2, h3, h7]
  have ht (x : Holder) : s.Touches z' x ↔ s.Touches z x := by
    cases x <;> simp only [Touches, hbound, h4]
  constructor
  · obtain ⟨i1, i2, i3, i4, i5⟩ := hz.pending
    exact ⟨h1 ▸ i1, h2 ▸ i2, h6 ▸ i3, h4 ▸ i4, h5 ▸ i5⟩
  · intro b hb'
    rw [touches_of_stages h, ht] at hb'
    exact (hz.buffers b hb').same h
  · intro b hl ha
    rw [hb] at ha
    have hm : b ∈ z.current.textureBindings.list := by
      have : b ∈ z'.current.textureBindings.list.filter s.bindingAlive :=
        List.mem_filter.mpr ⟨hl, ha⟩
      rw [← h8] at this
      exact List.mem_of_mem_filter this
    obtain ⟨i1, i2⟩ := hz.bindings b hm ha
    exact ⟨i1.same h, i2.same h⟩

theorem Idle.same {v : ℕ} (hi : s.Idle v) : s'.Idle v where
  frames := fun x' hx' => by
    obtain ⟨x, hx, he⟩ := Arena.of_mapAll (congrArg Scene.virtualObjects h) hx'
    have hp : x.pendingFrames = x'.pendingFrames :=
      show (stageVirtualObject x).pendingFrames = _ from he ▸ rfl
    rw [← hp]
    exact hi.frames x hx
  apps := fun b a' ha' hv => by
    obtain ⟨a, ha, he⟩ := Arena.of_mapAll (congrArg Scene.boundedApps h) ha'
    have hp : a.pending = a'.pending := show (stageApp a).pending = _ from he ▸ rfl
    have hc : a.current = a'.current := show (stageApp a).current = _ from he ▸ rfl
    have ho : a.virtualObject = a'.virtualObject :=
      show (stageApp a).virtualObject = _ from he ▸ rfl
    rw [← hp, ← hc]
    exact hi.apps b a ha (ho.trans hv)
  techniques := fun t z' hz' hv => by
    obtain ⟨z, hz, he⟩ := Arena.of_mapAll (techniques_of_stages h) hz'
    have ho : z.owner = z'.owner :=
      show (stageTechnique s.bindingAlive z).owner = _ from he ▸ rfl
    have hu := congrArg (Option.map RenderingUnit.owner)
      (congrFun (congrArg Scene.renderingUnits h) z.owner)
    simp only [stages, Arena.mapAll_apply, Option.map_map] at hu
    have hv' : s.BelongsTo z v := hu.symm.trans (ho ▸ hv)
    exact (hi.techniques t z hz hv').same h he

end Same

section Leaves
variable {s : Scene}

theorem postError_stages (s : Scene) (i : ℕ) (code : ErrorCode) (text : String) :
    (s.postError i code text).stages = s.stages := by
  rcases postError_cases s i code text with h | ⟨e, h⟩ <;> rw [h] <;> rfl

theorem commitBuffer_stages {b : ℕ} (hb : s.BufferIdle b) :
    (s.commitBuffer b).stages = s.stages := by
  cases hx : s.glBuffers b with
  | none =>
    simp only [commitBuffer, hx]
    rfl
  | some x =>
    rcases commitBuffer_cases hx with ⟨he, -⟩ | ⟨r, shm, hr, hm, -⟩
    · rw [he]
    · have hi := hb x hx
      rw [hr, Option.bind_some, hm] at hi
      cases hi

theorem commitWeakBuffer_stages {o : Option ℕ} (ho : ∀ b, o = some b → s.BufferIdle b) :
    (s.commitWeakBuffer o).stages = s.stages := by
  unfold commitWeakBuffer
  split
  · rfl
  · next b hl => exact commitBuffer_stages (ho b (Arena.lock_eq_some.mp hl).1)

theorem commitTexture_stages {t : ℕ} (ht : s.TextureIdle t) :
    (s.commitTexture t).stages = s.stages := by
  have h1 : s.commitTextureData t = s ∨ s.commitTextureData t = s.crash .useAfterFree := by
    unfold commitTextureData
    split
    · exact .inr rfl
    · next x hx =>
      split
      · exact .inl rfl
      · next r hl =>
        split
        · exact .inl rfl
        · next shm hm =>
          have hi := (ht x hx).1
          rw [(Arena.lock_eq_some.mp hl).1, Option.bind_some, hm] at hi
          cases hi
  have h2 : s.glTextures.modify t .commitMipmap = s.glTextures := by
    cases hx : s.glTextures t with
    | none => exact Arena.modify_of_none hx _
    | some x =>
      have hm : x.commitMipmap = x := by simp [GlTexture.commitMipmap, (ht x hx).2]
      funext i
      by_cases hi : i = t
      · subst hi
        simp [hx, hm]
      · simp [hi]
  rcases h1 with h1 | h1
  · rw [commitTexture, h1, commitMipmap, h2]
  · rw [commitTexture, h1, commitMipmap]
    simp only [crash, h2]
    rfl

theorem commitSampler_stages {p : ℕ} (hp : s.SamplerIdle p) :
    (s.commitSampler p).stages = s.stages := by
  unfold commitSampler
  split
  · rfl
  · next x hx =>
    have he : x.commit = x := by
      have hq := hp x hx
      obtain ⟨pending, current, proxy⟩ := x
      subst hq
      rfl
    have hm : s.glSamplers.set p x = s.glSamplers := by
      funext i
      by_cases hi : i = p
      · subst hi
        simp [hx]
      · simp [hi]
    rw [he, hm]

theorem commitWeakProgram_stages (s : Scene) (o : Option ℕ) :
    (s.commitWeakProgram o).stages = s.stages := by
  unfold commitWeakProgram
  split
  · rfl
  · next p _ =>
    unfold commitProgram
    split
    · rfl
    · next x _ =>
      have h : (s.checkRelink p x).stages = s.stages := by
        unfold checkRelink
        split
        · exact postError_stages ..
        · rfl
      exact h

theorem commitWeakVertexArray_stages {o : Option ℕ}
    (ho : ∀ va y, o = some va → s.glVertexArrays va = some y → ∀ e ∈ y.pending, ∀ b,
      e.2.glBuffer = some b → s.BufferIdle b) :
    (s.commitWeakVertexArray o).stages = s.stages := by
  unfold commitWeakVertexArray
  split
  · rfl
  · next va hl =>
    unfold commitVertexArray
    split
    · rfl
    · next y hy =>
      have h1 : { s with glVertexArrays := s.glVertexArrays.set va y.commit }.stages = s.stages :=
        setVertexArray_stages hy rfl
      refine (Path.foldl_const (g := stages)
        (P := fun s (e : UInt32 × VertexAttribute) => ∀ b, e.2.glBuffer = some b → s.BufferIdle b)
        (fun s e he => commitWeakBuffer_stages he) (fun s s' e h he b hb => (he b hb).same h)
        fun e he b hb => ?_).trans h1
      exact (ho va y (Arena.lock_eq_some.mp hl).1 hy e he b hb).same h1

theorem commitBindings_stages {l : List TextureBinding}
    (hl : ∀ b ∈ l, s.TextureIdle b.texture ∧ s.SamplerIdle b.sampler) :
    (l.foldl commitBinding s).stages = s.stages := by
  refine Path.foldl_const (g := stages)
    (P := fun s (b : TextureBinding) => s.TextureIdle b.texture ∧ s.SamplerIdle b.sampler)
    (fun s b hb => ?_) (fun s s' b h hb => ⟨hb.1.same h, hb.2.same h⟩) hl
  have h1 := commitTexture_stages hb.1
  exact (commitSampler_stages (hb.2.same h1)).trans h1

end Leaves

section Idle
variable {s : Scene}

theorem setTechnique_some_stages (s : Scene) (u : ℕ) (t : Option ℕ) :
    (s.setTechnique u t).stages = s.stages := by
  unfold setTechnique
  split
  · rfl
  · next y hy =>
    split
    · exact postError_stages ..
    · exact setUnit_stages hy rfl

theorem registerTechnique_stages (s : Scene) (t : ℕ) (z : GlBaseTechnique) :
    (s.registerTechnique t z).stages = s.stages := by
  unfold registerTechnique
  split
  · rfl
  · exact setTechnique_some_stages ..

theorem registerUnit_stages (s : Scene) {u : ℕ} {y : RenderingUnit}
    (hy : s.renderingUnits u = some y) : (s.registerUnit u y).stages = s.stages := by
  unfold registerUnit
  split
  · rfl
  · have h1 : (s.addRenderingUnit y.owner u).stages = s.stages := by
      rcases addRenderingUnit_cases s y.owner u with h | ⟨x, hx, h⟩ <;> rw [h]
      · rfl
      · exact setVirtualObject_stages hx rfl
    have hu := addRenderingUnit_units s y.owner u
    have h2 := setUnit_stages (s := s.addRenderingUnit y.owner u) (i := u) (x := y)
      (y := { y with committed := true }) (hu ▸ hy) rfl
    rw [hu] at h2
    exact h2.trans h1

/-- A technique without anything pending is committed as it is. -/
theorem commitTechnique_stages {t : ℕ}
    (ht : ∀ z, s.baseTechniques t = some z → s.TechniqueIdle z) :
    (s.commitTechnique t).stages = s.stages := by
  unfold commitTechnique
  split
  · rfl
  · next z hz =>
    have hi := ht z hz
    have h1 := registerTechnique_stages s t z
    have hz1 : (s.registerTechnique t z).baseTechniques t = some z := by
      rw [registerTechnique_techniques]
      exact hz
    have hb1 := bindingAlive_of_stages h1
    have h2 : ((s.registerTechnique t z).storeTechnique t (z.commit s.bindingAlive)).stages =
        s.stages := by
      refine (setTechnique_stages hz1 ?_).trans h1
      rw [hb1]
      simp only [stageTechnique, GlBaseTechnique.commit, hi.pending.requested_afterCommit,
        hi.pending.committed_commit]
    have hvc := hi.pending.vertexArray
    have hbc := hi.pending.textureBindings
    have hdc := hi.pending.drawApiArgs
    have h3 := commitWeakProgram_stages
      ((s.registerTechnique t z).storeTechnique t (z.commit s.bindingAlive))
      (z.commit s.bindingAlive).current.program
    have h4 := h3.trans h2
    have h5 : (((s.registerTechnique t z).storeTechnique t
        (z.commit s.bindingAlive)).commitWeakProgram
          (z.commit s.bindingAlive).current.program |>.commitWeakVertexArray
            (z.commit s.bindingAlive).current.vertexArray).stages = s.stages := by
      refine (commitWeakVertexArray_stages fun va y' hva hy' e he b hb => ?_).trans h4
      have ht : Touches _ z (.buffer b) := .inl ⟨va, y', hva, hy', e, he, hb⟩
      rw [touches_of_stages h4] at ht
      exact (hi.buffers b ht).same h4
    rw [commitLeaves]
    have h6 : z.pending.drawApiArgs.committedBuffer = none := by
      simp [DrawApiArgs.committedBuffer, hdc]
    rw [h6]
    refine (commitBindings_stages fun b hb => ?_).trans h5
    have hl : b ∈ z.current.textureBindings.list.filter s.bindingAlive := by
      simpa [GlBaseTechnique.commit, TechniqueState.commit, TextureBindingList.commit,
        TextureBindingList.removeExpired, hbc] using hb
    obtain ⟨i1, i2⟩ := hi.bindings b (List.mem_of_mem_filter hl) (List.mem_filter.mp hl).2
    exact ⟨i1.same h5, i2.same h5⟩

/-- What a listener has pending. -/
def ListenerIdle (s : Scene) : CommitListener → Prop
  | .unit u => ∀ y, s.renderingUnits u = some y → ∀ t ∈ y.listeners, ∀ z,
      s.baseTechniques t = some z → s.TechniqueIdle z
  | .app b => ∀ a, s.boundedApps b = some a → a.pending = a.current

theorem techniqueIdle_of_stages {s' : Scene} (h : s'.stages = s.stages) {t : ℕ}
    (ht : ∀ z, s.baseTechniques t = some z → s.TechniqueIdle z) :
    ∀ z, s'.baseTechniques t = some z → s'.TechniqueIdle z := by
  intro z' hz'
  obtain ⟨z, hz, he⟩ := Arena.of_mapAll (techniques_of_stages h) hz'
  exact (ht z hz).same h he

theorem ListenerIdle.same {s' : Scene} (h : s'.stages = s.stages) {l : CommitListener}
    (hl : s.ListenerIdle l) : s'.ListenerIdle l := by
  cases l with
  | unit u =>
    intro y' hy' t ht
    obtain ⟨y, hy, he⟩ := Arena.of_mapAll (congrArg Scene.renderingUnits h) hy'
    have hm : y.listeners = y'.listeners := show (stageUnit y).listeners = _ from he ▸ rfl
    exact techniqueIdle_of_stages h (hl y hy t (hm ▸ ht))
  | app b =>
    intro a' ha'
    obtain ⟨a, ha, he⟩ := Arena.of_mapAll (congrArg Scene.boundedApps h) ha'
    have hp : a.pending = a'.pending := show (stageApp a).pending = _ from he ▸ rfl
    have hc : a.current = a'.current := show (stageApp a).current = _ from he ▸ rfl
    rw [← hp, ← hc]
    exact hl a ha

theorem notifyCommitted_stages {l : CommitListener} (hl : s.ListenerIdle l) :
    (s.notifyCommitted l).stages = s.stages := by
  cases l with
  | unit u =>
    simp only [notifyCommitted, commitUnit]
    split
    · rfl
    · next y hy =>
      have h1 := registerUnit_stages s hy
      refine (Path.foldl_const (g := stages)
        (P := fun s t => ∀ z, s.baseTechniques t = some z → s.TechniqueIdle z)
        (fun s t ht => commitTechnique_stages ht) (fun s s' t h ht => techniqueIdle_of_stages h ht)
        fun t ht => ?_).trans h1
      exact techniqueIdle_of_stages h1 (hl y hy t ht)
  | app b =>
    simp only [notifyCommitted, commitApp]
    split
    · rfl
    · next a ha =>
      refine setApp_stages ha ?_
      simp only [stageApp, hl a ha]

/-- The listeners of an idle virtual object are idle. -/
theorem Idle.listener {v : ℕ} (hi : s.Idle v) (hw : Wired s) {x : VirtualObject}
    (hx : s.virtualObjects v = some x) {l : CommitListener} (hl : l ∈ x.listeners) :
    s.ListenerIdle l := by
  have ho : s.ownerOf l = some v :=
    (hw.objects.mem v x.listeners l (by simp [objectWiring, hx])).mp hl
  cases l with
  | unit u =>
    intro y hy t ht z hz
    have hu := (hw.units.mem u y.listeners t (by simp [unitWiring, hy])).mp ht
    obtain rfl : z.owner = u := by simpa [unitWiring, hz] using hu
    exact hi.techniques t z hz ho
  | app b =>
    intro a ha
    refine hi.apps b a ha ?_
    simpa [ownerOf, ha] using ho

/-- An idle commit moves nothing. -/
theorem commitState_stages {v : ℕ} (hi : s.Idle v) (hw : Wired s) :
    (s.commitState v).stages = s.stages := by
  unfold commitState
  split
  · rfl
  · next x hx =>
    have h1 : { s with virtualObjects := s.virtualObjects.set v x.commit }.stages = s.stages :=
      setVirtualObject_stages hx (by
        simp [stageVirtualObject, VirtualObject.commit, hi.frames x hx])
    exact (Path.foldl_const (g := stages) (P := ListenerIdle) (fun _ _ => notifyCommitted_stages)
      (fun _ _ _ h hl => ListenerIdle.same h hl)
      fun l hl => (hi.listener hw hx hl).same h1).trans h1

end Idle

end Scene
end Yaza
