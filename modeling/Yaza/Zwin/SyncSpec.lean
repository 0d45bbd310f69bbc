import Yaza.Zwin.SyncSteps

/-! Every function of `sync` is made of the steps of `SyncSteps`, and leaves the object it is
called for with its proxy, unless the program has stopped. -/
namespace Yaza
namespace Scene

/-- While the program runs, the object has its proxy. -/
def Ready (s : Scene) (h : Holder) : Prop := s.fault = none → (s.proxyOf h).isSome

theorem Syncs.ready {A : ℕ → Prop} {C : Call → Prop} {s s' : Scene} (h : Syncs A C s s')
    {x : Holder}
    (hr : s.Ready x) : s'.Ready x :=
  fun hf => h.proxyOf_isSome (hr (h.fault_none hf))

theorem SyncStep.ready {A : ℕ → Prop} {C : Call → Prop} {x : Holder} (s s' : Scene)
    (h : SyncStep A C s s')
    (hr : s.Ready x) : s'.Ready x :=
  Syncs.ready (.single h) hr

/-- A session and a proxy stay through the rounds of a loop. -/
theorem SyncStep.hasSession_ready {A : ℕ → Prop} {C : Call → Prop} {x : Holder} (s s' : Scene)
    (h : SyncStep A C s s')
    (hp : s.remote.hasSession ∧ s.Ready x) : s'.remote.hasSession ∧ s'.Ready x :=
  ⟨by rw [Syncs.hasSession (.single h)]; exact hp.1, SyncStep.ready s s' h hp.2⟩

theorem crash_ready (s : Scene) (f : Fault) (h : Holder) : (s.crash f).Ready h := by
  intro hf
  cases hs : s.fault <;> simp [crash, hs] at hf

theorem crash_of_fault {s : Scene} (hs : s.fault.isSome) (f : Fault) : s.crash f = s := by
  obtain ⟨g, hg⟩ := Option.isSome_iff_exists.mp hs
  cases s
  simp_all [crash]

section Parts
variable {A : ℕ → Prop} {C : Call → Prop} {s : Scene}

theorem crash_syncs (s : Scene) : Syncs A C s (s.crash .useAfterFree) :=
  .single (.crash s _ (.inl rfl))

theorem ensureProxy_syncs (hs : s.remote.hasSession) {h : Holder} {mk : ℕ → Call}
    (hh : ∀ t, h = .baseTechnique t → A t) (hc : C (mk s.remote.proxyCount))
    (hm : (mk s.remote.proxyCount).shader? =
      (s.sourceOf h).map fun source => (s.remote.proxyCount, source)) :
    Syncs A C s (s.ensureProxy h mk) := by
  unfold ensureProxy
  split
  · exact .refl
  · next hp =>
    split
    · next hn => simp_all [Remote.create, Remote.hasSession]
    · next p r hr => exact .single (.create s h mk p r hr (by simpa using hp) hh hc hm)

/-- After `ensureProxy` a live object has its proxy. -/
theorem ensureProxy_ready (hs : s.remote.hasSession) {h : Holder} {mk : ℕ → Call}
    (hl : s.live h) : (s.ensureProxy h mk).Ready h := by
  intro _
  unfold ensureProxy
  split
  · next hp => exact hp
  · split
    · next hn => simp_all [Remote.create, Remote.hasSession]
    · next p r hr =>
      have hl' : { s with remote := r }.live h := by cases h <;> exact hl
      simp [proxyOf_giveProxy, hl']

theorem withRemoteId_syncs {h : Holder} {k : ℕ → Scene} (hp : s.Ready h)
    (hk : ∀ p, s.proxyOf h = some p → Syncs A C s (k p.id)) :
    Syncs A C s (s.withRemoteId h k) := by
  unfold withRemoteId
  split
  · next hn =>
    have hf : s.fault.isSome := by
      by_contra hf
      simpa [hn] using hp (by simpa using hf)
    rw [crash_of_fault hf]
  · next p hp => exact hk p hp

theorem call_syncs (s : Scene) {c : Call} (hc : C c) (hn : c.shader? = none) :
    Syncs A C s (s.call c) :=
  .single (.call s c hc hn)

theorem callAll_syncs (s : Scene) {cs : List Call} (hc : ∀ c ∈ cs, C c ∧ c.shader? = none) :
    Syncs A C s (s.callAll cs) := by
  induction cs generalizing s with
  | nil => simpa [callAll] using Relation.ReflTransGen.refl
  | cons c cs ih =>
    have h1 : Syncs A C s (s.call c) :=
      call_syncs s (hc c List.mem_cons_self).1 (hc c List.mem_cons_self).2
    have h2 := ih (s.call c) fun d hd => hc d (List.mem_cons_of_mem c hd)
    have he : (s.call c).callAll cs = s.callAll (c :: cs) := by
      simp [call, callAll, Remote.call]
    exact h1.trans (he ▸ h2)

end Parts

section Leaves
variable {A : ℕ → Prop} {C : Call → Prop} (hC : ∀ c : Call, c.technique? = none → C c) {s : Scene}
include hC

theorem tellBuffer_syncs {b : ℕ} (hp : s.Ready (.buffer b)) (x : GlBuffer.Current) :
    Syncs A C s (s.tellBuffer b x) :=
  withRemoteId_syncs hp fun _ _ => (call_syncs s (hC _ rfl) rfl).tail (.clearData _ b)

/-- `GlBuffer::sync`: its steps, and the proxy the buffer has after them. -/
theorem syncBuffer_syncs (hs : s.remote.hasSession) (b : ℕ) (force : Bool) :
    Syncs A C s (s.syncBuffer b force) ∧ (s.syncBuffer b force).Ready (.buffer b) := by
  unfold syncBuffer
  split
  · exact ⟨crash_syncs s, crash_ready _ _ _⟩
  · next x hx =>
    have h1 : Syncs A C s (s.ensureProxy (.buffer b) .createGlBuffer) :=
      ensureProxy_syncs hs (by simp) (hC _ rfl) rfl
    have r1 : (s.ensureProxy (.buffer b) .createGlBuffer).Ready (.buffer b) :=
      ensureProxy_ready hs (by simp [live, hx])
    split
    · exact ⟨h1, r1⟩
    · have h2 := tellBuffer_syncs (A := A) hC r1 x.current
      exact ⟨h1.trans h2, h2.ready r1⟩

theorem tellImage_syncs {t : ℕ} (hp : s.Ready (.texture t)) (x : GlTexture.Current)
    (force : Bool) : Syncs A C s (s.tellImage t x force) := by
  unfold tellImage
  split
  · exact withRemoteId_syncs hp fun _ _ => (call_syncs s (hC _ rfl) rfl).tail (.clearImage _ t)
  · exact .refl

theorem tellMipmap_syncs {t : ℕ} (hp : s.Ready (.texture t)) (x : GlTexture.Current)
    (force : Bool) : Syncs A C s (s.tellMipmap t x force) := by
  unfold tellMipmap
  split
  · exact withRemoteId_syncs hp fun _ _ => (call_syncs s (hC _ rfl) rfl).tail (.clearMipmap _ t)
  · exact .refl

/-- `GlTexture::sync`. -/
theorem syncTexture_syncs (hs : s.remote.hasSession) (t : ℕ) (force : Bool) :
    Syncs A C s (s.syncTexture t force) ∧ (s.syncTexture t force).Ready (.texture t) := by
  unfold syncTexture
  split
  · exact ⟨crash_syncs s, crash_ready _ _ _⟩
  · next x hx =>
    have h1 : Syncs A C s (s.ensureProxy (.texture t) .createGlTexture) :=
      ensureProxy_syncs hs (by simp) (hC _ rfl) rfl
    have r1 : (s.ensureProxy (.texture t) .createGlTexture).Ready (.texture t) :=
      ensureProxy_ready hs (by simp [live, hx])
    have h2 := tellImage_syncs (A := A) hC r1 x.current force
    have h3 := tellMipmap_syncs (A := A) hC (h2.ready r1) x.current force
    exact ⟨(h1.trans h2).trans h3, h3.ready (h2.ready r1)⟩

theorem tellParameter_syncs {p : ℕ} (hp : s.Ready (.sampler p)) (force : Bool)
    (e : UInt32 × Parameter) : Syncs A C s (tellParameter p force s e) := by
  unfold tellParameter
  split
  · exact .refl
  · split
    · exact withRemoteId_syncs hp fun _ _ => call_syncs s (hC _ rfl) rfl
    · exact .single (.crash s _ (.inr rfl))

/-- `GlSampler::sync`. -/
theorem syncSampler_syncs (hs : s.remote.hasSession) (p : ℕ) (force : Bool) :
    Syncs A C s (s.syncSampler p force) ∧ (s.syncSampler p force).Ready (.sampler p) := by
  unfold syncSampler
  split
  · exact ⟨crash_syncs s, crash_ready _ _ _⟩
  · next x hx =>
    have h1 : Syncs A C s (s.ensureProxy (.sampler p) .createGlSampler) :=
      ensureProxy_syncs hs (by simp) (hC _ rfl) rfl
    have r1 : (s.ensureProxy (.sampler p) .createGlSampler).Ready (.sampler p) :=
      ensureProxy_ready hs (by simp [live, hx])
    have h2 : Syncs A C _ (x.current.foldl (tellParameter p force) _) :=
      Path.foldl SyncStep.ready (fun s hp e _ => tellParameter_syncs hC hp force e) r1
    exact ⟨h1.trans h2, h2.ready r1⟩

/-- `GlShader::sync`. -/
theorem syncShader_syncs (hs : s.remote.hasSession) (h : ℕ) :
    Syncs A C s (s.syncShader h) ∧ (s.syncShader h).Ready (.shader h) := by
  unfold syncShader
  split
  · exact ⟨crash_syncs s, crash_ready _ _ _⟩
  · next x hx =>
    split
    · next hp => exact ⟨.refl, fun _ => by simpa [Scene.proxyOf, hx] using hp⟩
    · split
      · exact ⟨crash_syncs s, crash_ready _ _ _⟩
      · next shm hshm =>
        refine ⟨ensureProxy_syncs hs (by simp) (hC _ rfl) ?_,
          ensureProxy_ready hs (by simp [live, hx])⟩
        simp [sourceOf, hx, hshm, Call.shader?]

theorem tellAttach_syncs {p h : ℕ} (hh : s.Ready (.shader h)) (hp : s.Ready (.program p))
    (shouldAttach : Bool) : Syncs A C s (s.tellAttach p h shouldAttach) := by
  unfold tellAttach
  split
  · exact withRemoteId_syncs hh fun _ _ =>
      withRemoteId_syncs hp fun _ _ => call_syncs s (hC _ rfl) rfl
  · exact .refl

theorem tellLink_syncs {p : ℕ} (hp : s.Ready (.program p)) (shouldAttach : Bool) :
    Syncs A C s (s.tellLink p shouldAttach) := by
  unfold tellLink
  split
  · exact withRemoteId_syncs hp fun _ _ => (call_syncs s (hC _ rfl) rfl).tail (.clearLink _ p)
  · exact .refl

theorem syncAttached_syncs (hs : s.remote.hasSession) {p : ℕ} (hp : s.Ready (.program p))
    (shouldAttach : Bool) (h : ℕ) : Syncs A C s (syncAttached p shouldAttach s h) := by
  obtain ⟨h1, r1⟩ := syncShader_syncs (A := A) hC hs h
  exact h1.trans (tellAttach_syncs hC r1 (h1.ready hp) shouldAttach)

/-- `GlProgram::sync`. -/
theorem syncProgram_syncs (hs : s.remote.hasSession) (p : ℕ) (force : Bool) :
    Syncs A C s (s.syncProgram p force) ∧ (s.syncProgram p force).Ready (.program p) := by
  unfold syncProgram
  split
  · exact ⟨crash_syncs s, crash_ready _ _ _⟩
  · next x hx =>
    have h1 : Syncs A C s (s.ensureProxy (.program p) .createGlProgram) :=
      ensureProxy_syncs hs (by simp) (hC _ rfl) rfl
    have r1 : (s.ensureProxy (.program p) .createGlProgram).Ready (.program p) :=
      ensureProxy_ready hs (by simp [live, hx])
    have h2 : Syncs A C s ((s.ensureProxy (.program p) .createGlProgram).dropExpiredShaders p) :=
      h1.tail (.dropExpiredShaders _ p)
    have r2 : ((s.ensureProxy (.program p) .createGlProgram).dropExpiredShaders p).Ready
        (.program p) := SyncStep.ready (A := A) (C := C) _ _ (.dropExpiredShaders _ p) r1
    have h3 : Syncs A C _ ((x.current.shaders.filter s.shaderAlive).foldl
        (syncAttached p (force || x.current.shouldLink)) _) :=
      Path.foldl (SyncStep.hasSession_ready)
        (fun s hp h _ => syncAttached_syncs hC hp.1 hp.2 _ h)
        ⟨h2.hasSession.trans hs, r2⟩
    have h4 := tellLink_syncs (A := A) hC (h3.ready r2) (force || x.current.shouldLink)
    exact ⟨(h2.trans h3).trans h4, h4.ready (h3.ready r2)⟩

theorem tellEnability_syncs {va : ℕ} (hp : s.Ready (.vertexArray va)) (index : UInt32)
    (a : VertexAttribute) (force : Bool) : Syncs A C s (s.tellEnability va index a force) := by
  unfold tellEnability
  split
  · exact withRemoteId_syncs hp fun _ _ =>
      call_syncs s (hC _ (by split <;> rfl)) (by split <;> rfl)
  · exact .refl

theorem tellPointer_syncs {va b : ℕ} (hp : s.Ready (.vertexArray va))
    (hb : s.Ready (.buffer b)) (index : UInt32) (a : VertexAttribute) (force : Bool) :
    Syncs A C s (s.tellPointer va b index a force) := by
  unfold tellPointer
  split
  · exact withRemoteId_syncs hp fun _ _ =>
      withRemoteId_syncs hb fun _ _ => call_syncs s (hC _ rfl) rfl
  · exact .refl

theorem syncAttribute_syncs (hs : s.remote.hasSession) {va : ℕ}
    (hp : s.Ready (.vertexArray va)) (force : Bool) (e : UInt32 × VertexAttribute) :
    Syncs A C s (syncAttribute va force s e) := by
  unfold syncAttribute
  split
  · exact .refl
  · next b _ =>
    obtain ⟨h1, r1⟩ := syncBuffer_syncs (A := A) hC hs b force
    have h2 := tellEnability_syncs (A := A) hC (h1.ready hp) e.1 e.2 force
    exact (h1.trans h2).trans
      (tellPointer_syncs hC (h2.ready (h1.ready hp)) (h2.ready r1) e.1 e.2 force)

/-- `GlVertexArray::sync`. -/
theorem syncVertexArray_syncs (hs : s.remote.hasSession) (va : ℕ) (force : Bool) :
    Syncs A C s (s.syncVertexArray va force) ∧
      (s.syncVertexArray va force).Ready (.vertexArray va) := by
  unfold syncVertexArray
  split
  · exact ⟨crash_syncs s, crash_ready _ _ _⟩
  · next x hx =>
    have h1 : Syncs A C s (s.ensureProxy (.vertexArray va) .createGlVertexArray) :=
      ensureProxy_syncs hs (by simp) (hC _ rfl) rfl
    have r1 : (s.ensureProxy (.vertexArray va) .createGlVertexArray).Ready
        (.vertexArray va) := ensureProxy_ready hs (by simp [live, hx])
    have h2 : Syncs A C _ (x.current.foldl (syncAttribute va force) _) :=
      Path.foldl (SyncStep.hasSession_ready)
        (fun s hp e _ => syncAttribute_syncs hC hp.1 hp.2 force e)
        ⟨h1.hasSession.trans hs, r1⟩
    exact ⟨h1.trans h2, h2.ready r1⟩

end Leaves

section Technique
variable {A : ℕ → Prop} {C : Call → Prop} (hC : ∀ c : Call, c.technique? = none → C c) {s : Scene}
  {technique : ℕ} (ht : ∀ c : Call, c.technique? = some technique → C c)
include hC ht

theorem syncBoundVertexArray_syncs (hs : s.remote.hasSession) (x : TechniqueState)
    (force : Bool) : Syncs A C s (s.syncBoundVertexArray technique x force) := by
  unfold syncBoundVertexArray
  split
  · exact .refl
  · next va _ =>
    obtain ⟨h1, r1⟩ := syncVertexArray_syncs (A := A) hC hs va force
    unfold tellVertexArray
    split
    · exact h1.trans (withRemoteId_syncs r1 fun _ _ => call_syncs _ (ht _ rfl) rfl)
    · exact h1

theorem syncBoundProgram_syncs (hs : s.remote.hasSession) (x : TechniqueState)
    (force : Bool) : Syncs A C s (s.syncBoundProgram technique x force) := by
  unfold syncBoundProgram
  split
  · exact .refl
  · next p _ =>
    obtain ⟨h1, r1⟩ := syncProgram_syncs (A := A) hC hs p force
    unfold tellProgram
    split
    · exact h1.trans (withRemoteId_syncs r1 fun _ _ => call_syncs _ (ht _ rfl) rfl)
    · exact h1

theorem syncTextureBinding_syncs (hs : s.remote.hasSession) (force changed : Bool)
    (b : TextureBinding) : Syncs A C s (syncTextureBinding technique force changed s b) := by
  obtain ⟨h1, r1⟩ := syncTexture_syncs (A := A) hC hs b.texture force
  obtain ⟨h2, r2⟩ := syncSampler_syncs (A := A) hC (h1.hasSession.trans hs) b.sampler force
  unfold syncTextureBinding tellTexture
  split
  · exact (h1.trans h2).trans <| withRemoteId_syncs (h2.ready r1) fun _ _ =>
      withRemoteId_syncs r2 fun _ _ => call_syncs _ (ht _ rfl) rfl
  · exact h1.trans h2

theorem syncTextureBindings_syncs (hs : s.remote.hasSession) (t : ℕ)
    (l : TextureBindingList) (force : Bool) :
    Syncs A C s (s.syncTextureBindings t technique l force) := by
  have h1 : Syncs A C s (s.dropExpired t) := .single (.dropExpired s t)
  refine h1.trans (Path.foldl (P := fun s => s.remote.hasSession)
    (fun _ _ h hs => (Syncs.hasSession (.single h)).trans hs)
    (fun s hs b _ => syncTextureBinding_syncs hC ht hs force l.changed b)
    (h1.hasSession.trans hs))

theorem syncDraw_syncs (hs : s.remote.hasSession) (d : DrawApiArgs) (force : Bool) :
    Syncs A C s (s.syncDraw technique d force) := by
  unfold syncDraw
  split
  · exact .refl
  · split
    · exact call_syncs s (ht _ rfl) rfl
    · exact .refl
  · next b _ =>
    split
    · obtain ⟨h1, r1⟩ := syncBuffer_syncs (A := A) hC hs b force
      unfold tellElements
      split
      · exact h1.trans (withRemoteId_syncs r1 fun _ _ => call_syncs _ (ht _ rfl) rfl)
      · exact h1
    · exact .refl

omit hC in
theorem syncCalls_spec (force : Bool) (l : UniformVariableList) :
    ∀ c ∈ UniformVariableList.syncCalls technique force l, C c ∧ c.shader? = none := by
  intro c hc
  simp only [UniformVariableList.syncCalls, List.mem_filterMap] at hc
  obtain ⟨v, -, hv⟩ := hc
  have hu : c.technique? = some technique ∧ c.shader? = none := by
    unfold UniformVariableList.syncCall at hv
    split at hv
    · split at hv
      · cases hv
      · cases hv
        exact ⟨rfl, rfl⟩
    · cases hv
      exact ⟨rfl, rfl⟩
  exact ⟨ht c hu.1, hu.2⟩

theorem syncState_syncs (hs : s.remote.hasSession) (t : ℕ) (x : TechniqueState)
    (force : Bool) : Syncs A C s (s.syncState t technique x force) := by
  have h1 := syncBoundVertexArray_syncs (A := A) hC ht hs x force
  have s1 := h1.hasSession.trans hs
  have h2 := syncBoundProgram_syncs (A := A) hC ht s1 x force
  have s2 := h2.hasSession.trans s1
  have h3 := syncTextureBindings_syncs (A := A) hC ht s2 t x.textureBindings force
  have s3 := h3.hasSession.trans s2
  have h4 := callAll_syncs (A := A) (C := C) (s.syncBoundVertexArray technique x force
    |>.syncBoundProgram technique x force
    |>.syncTextureBindings t technique x.textureBindings force)
    (syncCalls_spec ht force x.uniformVars)
  have h5 := syncDraw_syncs (A := A) hC ht (h4.hasSession.trans s3) x.drawApiArgs force
  exact (((h1.trans h2).trans h3).trans h4).trans h5

end Technique

/-- A registered technique is alive and belongs to its unit. -/
def SlotOk (s : Scene) : Prop :=
  ∀ u y t, s.renderingUnits u = some y → y.technique = some t →
    ∃ z, s.baseTechniques t = some z ∧ z.owner = u

/-- A listed unit is alive and belongs to the virtual object. -/
def ListOk (s : Scene) : Prop :=
  ∀ v x u, s.virtualObjects v = some x → u ∈ x.renderingUnitList →
    ∃ y, s.renderingUnits u = some y ∧ y.owner = v

section Registered
variable {A : ℕ → Prop} {C : Call → Prop} (hC : ∀ c : Call, c.technique? = none → C c) {s : Scene}

/-- `C` allows the calls on a technique, and on those that get their proxy from now on. -/
def Allows (C : Call → Prop) (s : Scene) (t : ℕ) : Prop :=
  ∀ c i, c.technique? = some i →
    (s.remote.proxyCount ≤ i ∨ ∃ p, s.proxyOf (.baseTechnique t) = some p ∧ p.id = i) → C c

theorem Syncs.allows {A : ℕ → Prop} {D : Call → Prop} {s' : Scene} (h : Syncs A D s s') {t : ℕ}
    (ha : Allows C s t) : Allows C s' t := by
  rintro c i hc (hi | ⟨p, hp, rfl⟩)
  · exact ha c i hc (.inl (h.proxyCount.trans hi))
  · rcases h.proxyOf_new hp with h1 | ⟨h1, -⟩
    · exact ha c p.id hc (.inr ⟨p, h1, rfl⟩)
    · exact ha c p.id hc (.inl h1)

theorem ensureTechnique_syncs (hs : s.remote.hasSession) {t : ℕ} {x : GlBaseTechnique}
    (hu : s.Ready (.renderingUnit x.owner)) (ht : A t) (ha : Allows C s t) :
    Syncs A C s (s.ensureTechnique t x) := by
  unfold ensureTechnique
  split
  · exact .refl
  · split
    · exact withRemoteId_syncs hu fun _ _ =>
        ensureProxy_syncs hs (fun i hi => by cases hi; exact ht)
          (ha _ _ rfl (.inl (Nat.le_refl _))) rfl
    · exact crash_syncs s

theorem ensureTechnique_ready (hs : s.remote.hasSession) {t : ℕ} {x : GlBaseTechnique}
    (hx : s.baseTechniques t = some x) :
    (s.ensureTechnique t x).Ready (.baseTechnique t) := by
  unfold ensureTechnique
  split
  · next hp => exact fun _ => by simpa [Scene.proxyOf, hx] using hp
  · split
    · unfold withRemoteId
      split
      · exact crash_ready _ _ _
      · exact ensureProxy_ready hs (by simp [live, hx])
    · exact crash_ready _ _ _

include hC

theorem syncTechnique_syncs (hs : s.remote.hasSession) {t : ℕ} {x : GlBaseTechnique}
    (hx : s.baseTechniques t = some x) (hu : s.Ready (.renderingUnit x.owner))
    (ht : A t) (ha : Allows C s t) (force : Bool) : Syncs A C s (s.syncTechnique t force) := by
  unfold syncTechnique
  rw [hx]
  have h1 := ensureTechnique_syncs (A := A) hs hu ht ha
  refine h1.trans (withRemoteId_syncs (ensureTechnique_ready hs hx) fun p hp => ?_)
  exact syncState_syncs hC (fun c hc => h1.allows ha c p.id hc (.inr ⟨p, hp, rfl⟩))
    (h1.hasSession.trans hs) t x.current force

omit hC in
theorem ensureUnit_ready (hs : s.remote.hasSession) {u : ℕ} {y : RenderingUnit}
    (hy : s.renderingUnits u = some y) : (s.ensureUnit u y).Ready (.renderingUnit u) := by
  unfold ensureUnit
  split
  · next hp => exact fun _ => by simpa [Scene.proxyOf, hy] using hp
  · split
    · unfold withRemoteId
      split
      · exact crash_ready _ _ _
      · exact ensureProxy_ready hs (by simp [live, hy])
    · exact crash_ready _ _ _

theorem ensureUnit_syncs (hs : s.remote.hasSession) {u : ℕ} {y : RenderingUnit}
    (hv : s.Ready (.virtualObject y.owner)) : Syncs A C s (s.ensureUnit u y) := by
  unfold ensureUnit
  split
  · exact .refl
  · split
    · exact withRemoteId_syncs hv fun _ _ => ensureProxy_syncs hs (by simp) (hC _ rfl) rfl
    · exact crash_syncs s

theorem syncUnit_syncs (hs : s.remote.hasSession) (hk : SlotOk s) {u : ℕ}
    (hv : ∀ y, s.renderingUnits u = some y → s.Ready (.virtualObject y.owner))
    (ha : ∀ y t, s.renderingUnits u = some y → y.technique = some t → A t ∧ Allows C s t)
    (force : Bool) : Syncs A C s (syncUnit force s u) := by
  unfold syncUnit
  split
  · exact crash_syncs s
  · next y hy =>
    have h1 : Syncs A C s (s.ensureUnit u y) := ensureUnit_syncs hC hs (hv y hy)
    split
    · exact h1
    · next t ht =>
      obtain ⟨z, hz, hzu⟩ := hk u y t hy ht
      have hl : ((s.ensureUnit u y).baseTechniques t).isSome := by
        have := h1.live (.baseTechnique t)
        simpa [live, hz] using this
      obtain ⟨z', hz'⟩ := Option.isSome_iff_exists.mp hl
      obtain ⟨z₀, hz₀, he⟩ := technique_of_content h1.content hz'
      have ho : z'.owner = u := by
        rw [hz, Option.some.injEq] at hz₀
        subst hz₀
        exact (congrArg GlBaseTechnique.owner he).symm.trans hzu
      obtain ⟨hA, hal⟩ := ha y t hy ht
      refine h1.trans (syncTechnique_syncs hC (h1.hasSession.trans hs) hz' ?_ hA
        (h1.allows hal) force)
      rw [ho]
      exact ensureUnit_ready hs hy

end Registered

theorem slotOk_of_content {s s' : Scene} (h : s'.content = s.content) (hk : SlotOk s) :
    SlotOk s' := by
  intro u y' t hy' ht'
  obtain ⟨y, hy, he⟩ := unit_of_content h hy'
  obtain ⟨z, hz, hzu⟩ := hk u y t hy ((congrArg RenderingUnit.technique he).trans ht')
  obtain ⟨z', hz', he'⟩ := technique_of_content h.symm hz
  exact ⟨z', hz', (congrArg GlBaseTechnique.owner he').trans hzu⟩

/-- What the rounds of `VirtualObject::sync` start from: a session, the proxy of the object, and
the units of the list with their registered techniques. -/
structure SyncStart (A : ℕ → Prop) (C : Call → Prop) (v : ℕ) (units : List ℕ) (s : Scene) :
    Prop where
  session : s.remote.hasSession
  ready : s.Ready (.virtualObject v)
  slot : SlotOk s
  owner : ∀ u ∈ units, ∀ y, s.renderingUnits u = some y → y.owner = v
  allows : ∀ u ∈ units, ∀ y t, s.renderingUnits u = some y → y.technique = some t →
    A t ∧ Allows C s t

theorem SyncStart.next {A : ℕ → Prop} {C D : Call → Prop} {v : ℕ} {units : List ℕ} {s s' : Scene}
    (hi : SyncStart A C v units s) (h : Syncs A D s s') : SyncStart A C v units s' where
  session := h.hasSession.trans hi.session
  ready := h.ready hi.ready
  slot := slotOk_of_content h.content hi.slot
  owner := by
    intro u hu y' hy'
    obtain ⟨y, hy, he⟩ := unit_of_content h.content hy'
    exact (congrArg RenderingUnit.owner he).symm.trans (hi.owner u hu y hy)
  allows := by
    intro u hu y' t hy' ht'
    obtain ⟨y, hy, he⟩ := unit_of_content h.content hy'
    obtain ⟨hA, hal⟩ := hi.allows u hu y t hy ((congrArg RenderingUnit.technique he).trans ht')
    exact ⟨hA, h.allows hal⟩

section Objects
variable {A : ℕ → Prop} {C : Call → Prop} (hC : ∀ c : Call, c.technique? = none → C c) {s : Scene}
include hC

theorem syncUnits_syncs {v : ℕ} {units : List ℕ} (hi : SyncStart A C v units s) (force : Bool) :
    Syncs A C s (units.foldl (syncUnit force) s) :=
  Path.foldl (P := SyncStart A C v units) (fun _ _ h hi => hi.next (.single h))
    (fun s hi u hu => syncUnit_syncs hC hi.session hi.slot
      (fun y hy => by rw [hi.owner u hu y hy]; exact hi.ready) (hi.allows u hu) force) hi

/-- `VirtualObject::sync` is made of the steps of `sync`. -/
theorem syncVirtualObject_syncs (hs : s.remote.hasSession) (hk : SlotOk s) (hl : ListOk s)
    {v : ℕ}
    (ha : ∀ x, s.virtualObjects v = some x → ∀ u ∈ x.renderingUnitList, ∀ y t,
      s.renderingUnits u = some y → y.technique = some t → A t ∧ Allows C s t) (force : Bool) :
    Syncs A C s (s.syncVirtualObject v force) := by
  unfold syncVirtualObject
  split
  · exact crash_syncs s
  · next x hx =>
    split
    · exact .refl
    · next b _ =>
      have h1 : Syncs A C s (s.ensureProxy (.virtualObject v) .createVirtualObject) :=
        ensureProxy_syncs hs (by simp) (hC _ rfl) rfl
      have r1 : (s.ensureProxy (.virtualObject v) .createVirtualObject).Ready
          (.virtualObject v) := ensureProxy_ready hs (by simp [live, hx])
      refine h1.trans ?_
      unfold syncParts
      split
      · exact crash_syncs _
      · next app _ =>
        refine withRemoteId_syncs r1 fun p hp => ?_
        have h2 : Syncs A C (s.ensureProxy (.virtualObject v) .createVirtualObject)
            ((s.ensureProxy (.virtualObject v) .createVirtualObject).call
              (.move p.id app.polar app.azimuthal)) := call_syncs _ (hC _ rfl) rfl
        have hi : SyncStart A C v x.renderingUnitList
            (s.ensureProxy (.virtualObject v) .createVirtualObject) := by
          refine ⟨h1.hasSession.trans hs, r1, slotOk_of_content h1.content hk, ?_, ?_⟩
          · intro u hu y' hy'
            obtain ⟨y, hy, hyv⟩ := hl v x u hx hu
            obtain ⟨y₀, hy₀, he⟩ := unit_of_content h1.content hy'
            rw [hy, Option.some.injEq] at hy₀
            subst hy₀
            exact (congrArg RenderingUnit.owner he).symm.trans hyv
          · intro u hu y' t hy' ht'
            obtain ⟨y, hy, he⟩ := unit_of_content h1.content hy'
            obtain ⟨hA, hal⟩ :=
              ha x hx u hu y t hy ((congrArg RenderingUnit.technique he).trans ht')
            exact ⟨hA, h1.allows hal⟩
        exact (h2.trans (syncUnits_syncs hC (hi.next h2) force)).tail (.call _ _ (hC _ rfl) rfl)

end Objects

end Scene
end Yaza
