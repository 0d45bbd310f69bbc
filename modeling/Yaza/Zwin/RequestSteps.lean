import Yaza.Zwin.CommitSteps

/-! What the requests other than `commit` and `frame` can do, one small step at a time, and to which
objects: those of a set `T` that holds the objects the request names. -/
namespace Yaza

/-- The objects a request makes a technique refer to. -/
def TechniqueRequest.refs : TechniqueRequest → List ℕ
  | .bindProgram p => [p]
  | .bindVertexArray va => [va]
  | .bindTexture b => [b.texture, b.sampler]
  | .drawElements _ _ _ _ b => [b]
  | .uniform _ | .drawArrays _ _ _ => []

namespace Scene

/-- The steps of the requests of `client`. -/
inductive RequestStep (T : ℕ → Prop) (client : ℕ) : Scene → Scene → Prop
  | crash (s : Scene) (f : Fault) (hf : f = .useAfterFree ∨ f = .nullPointer) :
      RequestStep T client s (s.crash f)
  | error (s : Scene) (e : PostedError) :
      RequestStep T client s { s with errors := s.errors ++ [e] }
  | virtualObject (s : Scene) (hs : s.virtualObjects s.nextId = none) :
      RequestStep T client s (s.createVirtualObject client)
  | unit (s : Scene) (v : ℕ) (hv : T v) : RequestStep T client s (s.createRenderingUnit client v)
  | technique (s : Scene) (u : ℕ) (hu : T u) :
      RequestStep T client s
        { s.newResource client .baseTechnique with
          baseTechniques := s.baseTechniques.set s.nextId { owner := u }
          renderingUnits := s.renderingUnits.modify u fun x =>
            { x with listeners := x.listeners ++ [s.nextId] } }
  | bounded (s : Scene) (v : ℕ) (hv : T v) : RequestStep T client s (s.newBounded client v)
  | program (s : Scene) :
      RequestStep T client s
        { s.newResource client .glProgram with glPrograms := s.glPrograms.set s.nextId {} }
  | shader (s : Scene) (b : ℕ) (type : UInt32) (hb : T b) :
      RequestStep T client s
        { s.newResource client .glShader with
          glShaders := s.glShaders.set s.nextId { type, buffer := b } }
  | vertexArray (s : Scene) :
      RequestStep T client s
        { s.newResource client .glVertexArray with
          glVertexArrays := s.glVertexArrays.set s.nextId {} }
  | buffer (s : Scene) (g : GlBuffer.Garbage) :
      RequestStep T client s
        { s.newResource client .glBuffer with
          glBuffers := s.glBuffers.set s.nextId (.construct g) }
  | texture (s : Scene) (g : GlTexture.Garbage) :
      RequestStep T client s
        { s.newResource client .glTexture with
          glTextures := s.glTextures.set s.nextId (.construct g) }
  | sampler (s : Scene) :
      RequestStep T client s
        { s.newResource client .glSampler with glSamplers := s.glSamplers.set s.nextId {} }
  | region (s : Scene) :
      RequestStep T client s
        { s.newResource client .region with regions := s.regions.set s.nextId [] }
  | shmBuffer (s : Scene) (data : Bytes) :
      RequestStep T client s
        { s.newResource client .shmBuffer with shmBuffers := s.shmBuffers.set s.nextId ⟨data⟩ }
  | configure (s : Scene) (b : ℕ) (bytes : Bytes) (hb : T b) :
      RequestStep T client s
        { s with
          serial := s.serial + 1
          boundedApps := s.boundedApps.modify b fun x =>
            { x with configureList := x.configureList ++ [(s.serial + 1, bytes)] }
          events := s.events ++ [.boundedConfigure b bytes (s.serial + 1)] }
  | app (s : Scene) (v b : ℕ) (hv : T v) (hb : T b) : RequestStep T client s (s.setApp v b)
  | write (s : Scene) (b : ℕ) (f : ShmBuffer → ShmBuffer) (hb : T b) :
      RequestStep T client s { s with shmBuffers := s.shmBuffers.modify b f }
  | bound (s : Scene) (b : ℕ) (x : BoundedApp) (p : BoundedState) (hb : T b)
      (hx : s.boundedApps b = some x) :
      RequestStep T client s { s with boundedApps := s.boundedApps.set b { x with pending := p } }
  | cuboid (s : Scene) (r : ℕ) (c : CuboidRegion) :
      RequestStep T client s { s with regions := s.regions.modify r fun l => l ++ [c] }
  | ask (s : Scene) (t : ℕ) (r : TechniqueRequest) (ht : T t) (hr : ∀ i ∈ r.refs, T i) :
      RequestStep T client s (s.techniqueRequest t r)
  | data (s : Scene) (b : ℕ) (target usage : UInt32) (data : ℕ) (hb : T b) :
      RequestStep T client s
        { s with
          glBuffers := s.glBuffers.modify b fun x => x.updatePendingData target usage data }
  | image (s : Scene) (t : ℕ) (image : Image2dData) (data : ℕ) (ht : T t) :
      RequestStep T client s
        { s with glTextures := s.glTextures.modify t fun x => x.newImage2d image data }
  | mipmap (s : Scene) (t : ℕ) (target : UInt32) (ht : T t) :
      RequestStep T client s
        { s with glTextures := s.glTextures.modify t fun x => x.requestGenerateMipmap target }
  | parameter (s : Scene) (p : ℕ) (pname : UInt32) (v : Parameter) (hp : T p) :
      RequestStep T client s
        { s with
          glSamplers := s.glSamplers.modify p fun x =>
            { x with pending := x.pending.insertOrAssign pname v } }
  | attach (s : Scene) (p h : ℕ) (hp : T p) (hh : T h) :
      RequestStep T client s
        { s with glPrograms := s.glPrograms.modify p fun x => x.attachShader h }
  | link (s : Scene) (p : ℕ) (hp : T p) :
      RequestStep T client s { s with glPrograms := s.glPrograms.modify p .requestLink }
  | attrib (s : Scene) (va : ℕ) (index : UInt32) (f : VertexAttribute → VertexAttribute)
      (hva : T va) (hf : ∀ a b, (f a).glBuffer = some b → a.glBuffer = some b ∨ T b) :
      RequestStep T client s
        { s with
          glVertexArrays := s.glVertexArrays.modify va fun x => x.updatePendingAttribute index f }

abbrev RequestSteps (T : ℕ → Prop) (client : ℕ) : Scene → Scene → Prop :=
  Relation.ReflTransGen (RequestStep T client)

section Steps
variable {T : ℕ → Prop} {client : ℕ} {s : Scene}

theorem postError_steps (i : ℕ) (code : ErrorCode) (text : String) :
    RequestSteps T client s (s.postError i code text) := by
  rcases postError_cases s i code text with h | ⟨e, h⟩ <;> rw [h]
  · exact .single (.crash s _ (.inl rfl))
  · exact .single (.error s e)

theorem withTechnique_steps {t : ℕ} {f : Scene → Scene} (hf : RequestSteps T client s (f s)) :
    RequestSteps T client s (s.withTechnique t f) := by
  unfold withTechnique
  split
  · exact hf
  · exact .refl

theorem setParamater_steps {p : ℕ} (hp : T p) (type : ParamType) (pname : UInt32)
    (arg : SamplerArg) (garbage : Bytes) :
    RequestSteps T client s (s.setParamater p type pname arg garbage) := by
  unfold setParamater
  split
  · exact postError_steps ..
  · split
    · exact postError_steps ..
    · exact .single (.parameter s p pname _ hp)

theorem configure_steps {b : ℕ} (hb : T b) (halfSize : WlArray) :
    RequestSteps T client s (s.configure b halfSize) := by
  unfold configure
  split
  · exact postError_steps ..
  · exact .single (.configure s b _ hb)

theorem createBounded_steps {v : ℕ} (hv : T v) (hn : T s.nextId) (halfSize : WlArray) :
    RequestSteps T client s (s.createBounded client v halfSize) := by
  have h1 : RequestSteps T client s (s.newBounded client v) := .single (.bounded s v hv)
  exact (h1.trans (configure_steps hn halfSize)).tail (.app _ v s.nextId hv hn)

theorem uniformVector_steps {t : ℕ} (ht : T t) (type : UniformType) (location : UInt32)
    (name : Option String) (size count : UInt32) (value : WlArray) :
    RequestSteps T client s (s.uniformVector t type location name size count value) := by
  unfold uniformVector
  split
  · exact postError_steps ..
  · split
    · exact postError_steps ..
    · exact .single (.ask s t _ ht fun _ h => by cases h)

theorem uniformMatrix_steps {t : ℕ} (ht : T t) (location : UInt32) (name : Option String)
    (col row count transpose : UInt32) (value : WlArray) :
    RequestSteps T client s (s.uniformMatrix t location name col row count transpose value) := by
  unfold uniformMatrix
  split
  · exact postError_steps ..
  · split
    · exact postError_steps ..
    · split
      · exact postError_steps ..
      · exact .single (.ask s t _ ht fun _ h => by cases h)

/-- The handlers of all other requests are made of these steps. -/
theorem handle_steps {r : Request} (hT : ∀ i ∈ r.objects.map Prod.fst, T i)
    (hn : ∀ v halfSize, r = .getBounded v halfSize → T s.nextId)
    (hs : s.virtualObjects s.nextId = none) (hc : ∀ v, r ≠ .commit v) (hfr : ∀ v, r ≠ .frame v) :
    RequestSteps T client s (s.handle client r) := by
  cases r with
  | commit v => exact absurd rfl (hc v)
  | frame v => exact absurd rfl (hfr v)
  | createVirtualObject => exact .single (.virtualObject s hs)
  | createRegion => exact .single (.region s)
  | createRenderingUnit v => exact .single (.unit s v (hT v (by simp [Request.objects])))
  | createGlBuffer g => exact .single (.buffer s g)
  | createGlShader b type => exact .single (.shader s b type (hT b (by simp [Request.objects])))
  | createGlProgram => exact .single (.program s)
  | createGlTexture g => exact .single (.texture s g)
  | createGlSampler => exact .single (.sampler s)
  | createGlVertexArray => exact .single (.vertexArray s)
  | createGlBaseTechnique u =>
    simp only [handle, createGlBaseTechnique]
    split
    · exact .single (.technique s u (hT u (by simp [Request.objects])))
    · exact .single (.error s _)
  | createBuffer data => exact .single (.shmBuffer s data)
  | writeBuffer b data => exact .single (.write s b _ (hT b (by simp [Request.objects])))
  | getBounded v halfSize =>
    exact createBounded_steps (hT v (by simp [Request.objects])) (hn v halfSize rfl) halfSize
  | ackConfigure b serial =>
    simp only [handle, ackConfigure]
    split
    · exact .single (.crash s _ (.inr rfl))
    · next x hx =>
      split
      · exact .refl
      · exact .single (.bound s b x _ (hT b (by simp [Request.objects])) hx)
  | setRegion b region =>
    simp only [handle, setRegion]
    split
    · exact .single (.crash s _ (.inr rfl))
    · next x hx =>
      split
      · exact .refl
      · exact .single (.bound s b x _ (hT b (by simp [Request.objects])) hx)
  | addCuboid region halfSize center quat =>
    simp only [handle, addCuboid]
    split
    · exact postError_steps ..
    · exact postError_steps ..
    · exact postError_steps ..
    · exact .single (.cuboid s region _)
  | bindProgram t p =>
    exact .single (.ask s t _ (hT t (by simp [Request.objects]))
      fun i hi => hT i (by simp_all [Request.objects, TechniqueRequest.refs]))
  | bindVertexArray t va =>
    exact .single (.ask s t _ (hT t (by simp [Request.objects]))
      fun i hi => hT i (by simp_all [Request.objects, TechniqueRequest.refs]))
  | bindTexture t binding name texture target sampler =>
    refine .single (.ask s t _ (hT t (by simp [Request.objects])) fun i hi => ?_)
    simp only [TechniqueRequest.refs, List.mem_cons, List.not_mem_nil, or_false] at hi
    rcases hi with rfl | rfl
    · exact hT i (by simp [Request.objects])
    · exact hT i (by simp [Request.objects])
  | uniformVector t =>
    apply withTechnique_steps
    exact uniformVector_steps (hT t (by simp [Request.objects])) ..
  | uniformMatrix t =>
    apply withTechnique_steps
    exact uniformMatrix_steps (hT t (by simp [Request.objects])) ..
  | drawArrays t mode first count =>
    exact .single (.ask s t _ (hT t (by simp [Request.objects])) fun _ h => by cases h)
  | drawElements t mode count type offset b =>
    apply withTechnique_steps
    unfold drawElements
    split
    · exact postError_steps ..
    · exact .single (.ask s t _ (hT t (by simp [Request.objects]))
        fun i hi => hT i (by simp_all [Request.objects, TechniqueRequest.refs]))
  | bufferData b target data usage =>
    exact .single (.data s b target usage data (hT b (by simp [Request.objects])))
  | image2d x image data =>
    exact .single (.image s x image data (hT x (by simp [Request.objects])))
  | generateMipmap x target =>
    exact .single (.mipmap s x target (hT x (by simp [Request.objects])))
  | parameterF p pname param =>
    simp only [handle, parameterF]
    split
    · exact postError_steps ..
    · exact setParamater_steps (hT p (by simp [Request.objects])) ..
  | parameterI p => exact setParamater_steps (hT p (by simp [Request.objects])) ..
  | parameterV p => exact setParamater_steps (hT p (by simp [Request.objects])) ..
  | attachShader p h =>
    exact .single (.attach s p h (hT p (by simp [Request.objects]))
      (hT h (by simp [Request.objects])))
  | link p => exact .single (.link s p (hT p (by simp [Request.objects])))
  | setAttribEnability va index enabled =>
    exact .single (.attrib s va index _ (hT va (by simp [Request.objects]))
      fun a b h => .inl h)
  | vertexAttribPointer va index size type normalized stride offset b =>
    simp only [handle, vertexAttribPointer]
    split
    · exact postError_steps ..
    · refine .single (.attrib s va index _ (hT va (by simp [Request.objects]))
        fun a c h => .inr ?_)
      cases h
      exact hT b (by simp [Request.objects])

end Steps

end Scene
end Yaza
