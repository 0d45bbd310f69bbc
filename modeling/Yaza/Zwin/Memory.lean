import Yaza.Zwin.Proxies

/-! The client memory the shaders are read from: which requests change it, and which sources the
sessions were sent. -/
namespace Yaza

/-- The shaders that were made, with their sources. -/
def Remote.texts (r : Remote) : List (ℕ × Bytes) := r.calls.filterMap Call.shader?

namespace Scene

/-- The buffers, and which of them the shaders read. -/
def memory (s : Scene) := (s.glShaders.mapAll GlShader.buffer, s.shmBuffers)

/-- A change that leaves the memory alone, and makes no resource of a buffer. -/
structure Grown (s s' : Scene) : Prop where
  memory : s'.memory = s.memory
  nextId : s.nextId ≤ s'.nextId
  buffers : ∀ b c, s'.resources b = some ⟨c, .shmBuffer⟩ → s.resources b = some ⟨c, .shmBuffer⟩

section Grown
variable {s s' s'' : Scene}

theorem Grown.refl (s : Scene) : Grown s s := ⟨rfl, Nat.le_refl _, fun _ _ h => h⟩

theorem Grown.trans (h : Grown s s') (h' : Grown s' s'') : Grown s s'' where
  memory := h'.memory.trans h.memory
  nextId := h.nextId.trans h'.nextId
  buffers := fun b c hb => h.buffers b c (h'.buffers b c hb)

theorem grown_of_eq (hm : s'.memory = s.memory) (hn : s'.nextId = s.nextId)
    (hr : s'.resources = s.resources) : Grown s s' :=
  ⟨hm, hn.ge, fun b c h => by rwa [hr] at h⟩

theorem grown_of_new {client : ℕ} {i : Interface} (hi : i ≠ .shmBuffer)
    (hm : s'.memory = s.memory) (hn : s'.nextId = s.nextId + 1)
    (hr : s'.resources = s.resources.set s.nextId ⟨client, i⟩) : Grown s s' := by
  refine ⟨hm, by omega, fun b c h => ?_⟩
  rw [hr, Arena.set_apply] at h
  split at h
  · cases h
    exact absurd rfl hi
  · exact h

theorem crash_grown (s : Scene) (f : Fault) : Grown s (s.crash f) := grown_of_eq rfl rfl rfl

theorem postError_grown (s : Scene) (i : ℕ) (code : ErrorCode) (text : String) :
    Grown s (s.postError i code text) := by
  rcases postError_cases s i code text with h | ⟨e, h⟩
  · rw [h]
    exact crash_grown s _
  · rw [h]
    exact grown_of_eq rfl rfl rfl

theorem withTechnique_grown {t : ℕ} {k : Scene → Scene} (hk : Grown s (k s)) :
    Grown s (s.withTechnique t k) := by
  unfold withTechnique
  split
  · exact hk
  · exact .refl s

theorem setParamater_grown (s : Scene) (p : ℕ) (type : ParamType) (pname : UInt32)
    (arg : SamplerArg) (garbage : Bytes) : Grown s (s.setParamater p type pname arg garbage) := by
  unfold setParamater
  split
  · exact postError_grown ..
  · split
    · exact postError_grown ..
    · exact grown_of_eq rfl rfl rfl

theorem createBounded_grown (s : Scene) (client v : ℕ) (halfSize : WlArray) :
    Grown s (s.createBounded client v halfSize) := by
  have h1 : Grown s (s.newBounded client v) :=
    grown_of_new (i := .bounded) (fun h => by cases h) rfl rfl rfl
  have h2 (s : Scene) (b : ℕ) : Grown s (s.configure b halfSize) := by
    unfold configure
    split
    · exact postError_grown ..
    · exact grown_of_eq rfl rfl rfl
  exact (h1.trans (h2 _ _)).trans (grown_of_eq rfl rfl rfl)

theorem grown_of_skeleton (h : s'.skeleton = s.skeleton) : Grown s s' := by
  have he : s'.glShaders = s.glShaders :=
    show s'.skeleton.glShaders = s.skeleton.glShaders from by rw [h]
  exact grown_of_eq (by simp only [memory, he, shmBuffers_of_skeleton h]) (nextId_of_skeleton h)
    (resources_of_skeleton h)

theorem grown_of_content (h : s'.content = s.content) : Grown s s' := by
  have hp {β : Type} (f : Scene → β) : f s'.content = f s.content := congrArg f h
  have hs := congrArg (fun A => A.mapAll GlShader.buffer) (hp Scene.glShaders)
  simp only [content, Arena.mapAll_mapAll] at hs
  refine grown_of_eq ?_ (hp Scene.nextId) (hp Scene.resources)
  exact Prod.ext hs (hp Scene.shmBuffers)

theorem commitVirtualObject_grown (ht : Tree s) (v : ℕ) : Grown s (s.commitVirtualObject v) := by
  have hc := commitState_commits_true s v
  exact (grown_of_skeleton hc.skeleton).trans
    (grown_of_content (syncIfSession_steps (hc.tree ht).registered v).content)

/-- Three requests change the memory, or which of it is read. -/
def Request.isMemory : Request → Bool
  | .createGlShader _ _ | .createBuffer _ | .writeBuffer _ _ => true
  | _ => false

theorem handle_grown (ht : Tree s) (client : ℕ) {r : Request} (hr : r.isMemory = false) :
    Grown s (s.handle client r) := by
  cases r with
  | createGlShader | createBuffer | writeBuffer => cases hr
  | commit v => exact commitVirtualObject_grown ht v
  | createVirtualObject =>
    exact grown_of_new (i := .virtualObject) (fun h => by cases h) rfl rfl rfl
  | createRegion => exact grown_of_new (i := .region) (fun h => by cases h) rfl rfl rfl
  | createRenderingUnit v =>
    exact grown_of_new (i := .renderingUnit) (fun h => by cases h) rfl rfl rfl
  | createGlBuffer g => exact grown_of_new (i := .glBuffer) (fun h => by cases h) rfl rfl rfl
  | createGlProgram => exact grown_of_new (i := .glProgram) (fun h => by cases h) rfl rfl rfl
  | createGlTexture g => exact grown_of_new (i := .glTexture) (fun h => by cases h) rfl rfl rfl
  | createGlSampler => exact grown_of_new (i := .glSampler) (fun h => by cases h) rfl rfl rfl
  | createGlVertexArray =>
    exact grown_of_new (i := .glVertexArray) (fun h => by cases h) rfl rfl rfl
  | createGlBaseTechnique u =>
    simp only [handle, createGlBaseTechnique]
    split
    · exact grown_of_new (i := .baseTechnique) (fun h => by cases h) rfl rfl rfl
    · exact grown_of_eq rfl rfl rfl
  | frame v => exact ⟨rfl, Nat.le_succ _, fun _ _ h => h⟩
  | getBounded v halfSize => exact createBounded_grown s client v halfSize
  | ackConfigure b serial =>
    simp only [handle, ackConfigure]
    split
    · exact crash_grown s _
    · split <;> exact grown_of_eq rfl rfl rfl
  | setRegion b region =>
    simp only [handle, setRegion]
    split
    · exact crash_grown s _
    · split <;> exact grown_of_eq rfl rfl rfl
  | addCuboid region halfSize center quat =>
    simp only [handle, addCuboid]
    split
    · exact postError_grown ..
    · exact postError_grown ..
    · exact postError_grown ..
    · exact grown_of_eq rfl rfl rfl
  | uniformVector =>
    apply withTechnique_grown
    unfold uniformVector
    split
    · exact postError_grown ..
    · split
      · exact postError_grown ..
      · exact grown_of_eq rfl rfl rfl
  | uniformMatrix =>
    apply withTechnique_grown
    unfold uniformMatrix
    split
    · exact postError_grown ..
    · split
      · exact postError_grown ..
      · split
        · exact postError_grown ..
        · exact grown_of_eq rfl rfl rfl
  | drawElements =>
    apply withTechnique_grown
    unfold drawElements
    split
    · exact postError_grown ..
    · exact grown_of_eq rfl rfl rfl
  | parameterF p pname param =>
    simp only [handle, parameterF]
    split
    · exact postError_grown ..
    · exact setParamater_grown ..
  | parameterI | parameterV => exact setParamater_grown ..
  | vertexAttribPointer va index size type normalized stride offset b =>
    simp only [handle, vertexAttribPointer]
    split
    · exact postError_grown ..
    · exact grown_of_eq rfl rfl rfl
  | _ => exact grown_of_eq rfl rfl rfl

theorem grown_of_leaves (h : s'.leaves = s.leaves) : Grown s s' := by
  have hp {β : Type} (f : Scene → β) : f s'.leaves = f s.leaves := congrArg f h
  refine grown_of_eq ?_ (hp Scene.nextId) (hp Scene.resources)
  exact Prod.ext (congrArg (fun A => A.mapAll GlShader.buffer) (hp Scene.glShaders))
    (hp Scene.shmBuffers)

/-- The destructors of shaders and buffers apart, a destruction leaves the memory alone. -/
theorem deleteObject_grown (s : Scene) (r : ℕ) {i : Interface} (hs : i ≠ .glShader)
    (hb : i ≠ .shmBuffer) : Grown s (s.deleteObject r i) := by
  cases i with
  | glShader => exact absurd rfl hs
  | shmBuffer => exact absurd rfl hb
  | virtualObject | bounded | renderingUnit | baseTechnique =>
    exact grown_of_leaves (deleteObject_leaves s r rfl)
  | _ => exact grown_of_eq rfl rfl rfl

theorem peerDiscover_grown (ht : Tree s) (connected : Bool) :
    Grown s (s.peerDiscover connected) := by
  rcases peerDiscover_cases ht.registered connected with ⟨h, -⟩ | ⟨-, h⟩
  · rw [h]
    exact .refl s
  · have h1 : Grown s { s with remote := s.remote.establish } := grown_of_eq rfl rfl rfl
    exact h1.trans (grown_of_content h.content)

theorem sessionDisconnect_grown (s : Scene) : Grown s s.sessionDisconnect := by
  unfold sessionDisconnect
  split
  · refine grown_of_eq ?_ rfl rfl
    simp only [memory, dropProxies, Arena.mapAll_mapAll]
    rfl
  · exact .refl s

/-- The actions that change the memory are named; the others leave it alone. -/
theorem act_grown (ht : Tree s) {a : Action}
    (hr : ∀ client r, a = .request client r → r.isMemory = false)
    (hd : ∀ client r c i, a = .destroy client r → s.resources r = some ⟨c, i⟩ →
      i ≠ .glShader ∧ i ≠ .shmBuffer) : Grown s (s.act a) := by
  cases a with
  | request client r =>
    simp only [act]
    split
    · exact handle_grown ht client (hr client r rfl)
    · exact .refl s
  | destroy client r =>
    simp only [act]
    split
    · unfold destroyResource
      split
      · exact .refl s
      · next x hx =>
        obtain ⟨h1, h2⟩ := hd client r x.client x.interface rfl hx
        have h3 := deleteObject_grown s r h1 h2
        refine ⟨h3.memory, h3.nextId, fun b c hb => ?_⟩
        dsimp only at hb
        rw [Arena.erase_apply] at hb
        split at hb
        · cases hb
        · exact hb
    · exact .refl s
  | peerDiscover connected => exact peerDiscover_grown ht connected
  | sessionDisconnect => exact sessionDisconnect_grown s
  | frameTimer busyness =>
    simp only [act, frameTimer]
    split
    · exact grown_of_eq rfl rfl rfl
    · exact .refl s
  | moveApp b polar azimuthal =>
    simp only [act, moveApp]
    split
    · exact .refl s
    · next x _ =>
      have h1 : Grown s (s.turnApp b x polar azimuthal) := grown_of_eq rfl rfl rfl
      exact h1.trans (commitVirtualObject_grown (ht.same (turnApp_same ..)) _)

theorem sourceOf_of_memory (h : s'.memory = s.memory) (i : ℕ) :
    s'.sourceOf (.shader i) = s.sourceOf (.shader i) := by
  simp only [memory, Prod.mk.injEq] at h
  have hi := congrFun h.1 i
  simp only [Arena.mapAll_apply] at hi
  have bind_eq (o : Option GlShader) (m : Arena ShmBuffer) :
      (o.bind fun x => (m x.buffer).map ShmBuffer.data) =
        (o.map GlShader.buffer).bind fun b => (m b).map ShmBuffer.data := by
    cases o <;> rfl
  simp only [sourceOf]
  rw [bind_eq, bind_eq, hi, h.2]

/-- The resources of buffers have their buffers, and so have the shaders. -/
structure Sourced (s : Scene) : Prop where
  buffers : ∀ b c, s.resources b = some ⟨c, .shmBuffer⟩ → (s.shmBuffers b).isSome
  shaders : ∀ h x, s.glShaders h = some x → (s.shmBuffers x.buffer).isSome
  issued : ∀ h, (s.glShaders h).isSome → h < s.nextId
  allocated : ∀ b, (s.shmBuffers b).isSome → b < s.nextId

theorem isSome_of_memory (h : s'.memory = s.memory) (i : ℕ) :
    (s'.glShaders i).isSome = (s.glShaders i).isSome := by
  simp only [memory, Prod.mk.injEq] at h
  exact Arena.isSome_of_mapAll h.1 i

theorem Grown.sourced (h : Grown s s') (hs : Sourced s) : Sourced s' where
  buffers := fun b c hb => by
    have hm := h.memory
    simp only [Scene.memory, Prod.mk.injEq] at hm
    rw [hm.2]
    exact hs.buffers b c (h.buffers b c hb)
  shaders := fun i x hx => by
    have hm := h.memory
    simp only [Scene.memory, Prod.mk.injEq] at hm
    obtain ⟨y, hy, hyx⟩ := Arena.of_mapAll hm.1 hx
    rw [hm.2, ← hyx]
    exact hs.shaders i y hy
  issued := fun i hi => by
    rw [isSome_of_memory h.memory] at hi
    exact Nat.lt_of_lt_of_le (hs.issued i hi) h.nextId
  allocated := fun b hb => by
    have hm := h.memory
    simp only [Scene.memory, Prod.mk.injEq] at hm
    rw [hm.2] at hb
    exact Nat.lt_of_lt_of_le (hs.allocated b hb) h.nextId

/-- No buffer that a shader reads is destroyed, and none that a shader was made from is written
with something else. -/
def KeepsSources (Sent : ℕ → Prop) (s : Scene) : Action → Prop
  | .destroy client b => s.resources b = some ⟨client, .shmBuffer⟩ →
      ∀ h x, s.glShaders h = some x → x.buffer ≠ b
  | .request client (.writeBuffer b data) => s.admits client (.writeBuffer b data) = true →
      ∀ h x shm, s.glShaders h = some x → x.buffer = b → Sent h → s.shmBuffers b = some shm →
        data.length = shm.data.length → data = shm.data
  | _ => True

/-- What a step keeps of the sources: buffers and shaders stay sound, and the shaders that were
sent before it read the same source, as long as they live. -/
structure Keeps (Sent : ℕ → Prop) (s s' : Scene) : Prop where
  sourced : Sourced s'
  nextId : s.nextId ≤ s'.nextId
  same : ∀ h, (s'.glShaders h).isSome → Sent h → h < s.nextId →
    s'.sourceOf (.shader h) = s.sourceOf (.shader h)

theorem Grown.keeps (h : Grown s s') (hs : Sourced s) (Sent : ℕ → Prop) : Keeps Sent s s' :=
  ⟨h.sourced hs, h.nextId, fun i _ _ _ => sourceOf_of_memory h.memory i⟩

section Keeps
variable {Sent : ℕ → Prop} (hs : Sourced s)
include hs

theorem createGlShader_keeps {client b : ℕ} {type : UInt32}
    (ha : s.admits client (.createGlShader b type) = true) :
    Keeps Sent s (s.handle client (.createGlShader b type)) := by
  have hb : (s.shmBuffers b).isSome := by
    simp only [admits, Request.objects, List.all_cons, List.all_nil, Bool.and_true,
      Bool.and_eq_true, decide_eq_true_eq] at ha
    exact hs.buffers b client ha.2
  refine ⟨⟨fun i c hi => ?_, fun h x hx => ?_, fun h hh => ?_, fun i hi => ?_⟩, Nat.le_succ _,
    fun h _ _ hlt => ?_⟩
  · refine hs.buffers i c ?_
    simp only [handle, newResource] at hi
    rw [Arena.set_apply] at hi
    split at hi
    · cases hi
    · exact hi
  · simp only [handle] at hx ⊢
    rw [Arena.set_apply] at hx
    split at hx
    · cases hx
      exact hb
    · exact hs.shaders h x hx
  · simp only [handle, newResource] at hh ⊢
    rw [Arena.set_apply] at hh
    split at hh
    · next h1 => omega
    · exact Nat.lt_succ_of_lt (hs.issued h hh)
  · exact Nat.lt_succ_of_lt (hs.allocated i hi)
  · simp only [handle, sourceOf, newResource]
    rw [Arena.set_of_ne _ _ (Nat.ne_of_lt hlt)]

theorem createBuffer_keeps (client : ℕ) (data : Bytes) :
    Keeps Sent s (s.handle client (.createBuffer data)) := by
  have hne {i : ℕ} (hi : (s.shmBuffers i).isSome) : i ≠ s.nextId :=
    Nat.ne_of_lt (hs.allocated i hi)
  refine ⟨⟨fun i c hi => ?_, fun h x hx => ?_, fun h hh => Nat.lt_succ_of_lt (hs.issued h hh),
    fun i hi => ?_⟩, Nat.le_succ _, fun h hh _ _ => ?_⟩
  · simp only [handle, newResource] at hi ⊢
    rw [Arena.set_apply] at hi ⊢
    split
    · rfl
    · next hin =>
      rw [if_neg hin] at hi
      exact hs.buffers i c hi
  · simp only [handle] at hx ⊢
    have h1 := hs.shaders h x hx
    rw [Arena.set_of_ne _ _ (hne h1)]
    exact h1
  · simp only [handle, newResource] at hi ⊢
    rw [Arena.set_apply] at hi
    split at hi
    · next h1 => omega
    · exact Nat.lt_succ_of_lt (hs.allocated i hi)
  · obtain ⟨x, hx⟩ := Option.isSome_iff_exists.mp hh
    have hx' : s.glShaders h = some x := hx
    simp only [handle, sourceOf, newResource, hx', Option.bind_some]
    rw [Arena.set_of_ne _ _ (hne (hs.shaders h x hx'))]

theorem writeBuffer_keeps {client b : ℕ} {data : Bytes}
    (ha : s.admits client (.writeBuffer b data) = true)
    (hc : KeepsSources Sent s (.request client (.writeBuffer b data))) :
    Keeps Sent s (s.handle client (.writeBuffer b data)) := by
  have live (i : ℕ) : ((s.handle client (.writeBuffer b data)).shmBuffers i).isSome =
      (s.shmBuffers i).isSome := Arena.modify_isSome ..
  refine ⟨⟨fun i c hi => ?_, fun h x hx => ?_, hs.issued, fun i hi => ?_⟩, Nat.le_refl _,
    fun h hh hsent _ => ?_⟩
  · rw [live]
    exact hs.buffers i c hi
  · rw [live]
    exact hs.shaders h x hx
  · rw [live] at hi
    exact hs.allocated i hi
  · obtain ⟨x, hx⟩ := Option.isSome_iff_exists.mp hh
    have hx' : s.glShaders h = some x := hx
    simp only [handle, sourceOf, hx', Option.bind_some]
    by_cases hb : x.buffer = b
    · cases hm : s.shmBuffers b with
      | none => simp [hb, hm]
      | some shm =>
        simp only [hb, Arena.modify_self, hm, Option.map_some, Option.some.injEq]
        split
        · next hl => exact hc ha h x shm hx' hb hsent hm hl
        · rfl
    · rw [Arena.modify_of_ne _ _ hb]

theorem deleteShader_keeps (h : ℕ) :
    Keeps Sent s { s with glShaders := s.glShaders.erase h, resources := s.resources.erase h } := by
  refine ⟨⟨fun i c hi => ?_, fun j x hx => ?_, fun j hj => ?_, hs.allocated⟩, Nat.le_refl _,
    fun j hj _ _ => ?_⟩
  · dsimp only at hi
    rw [Arena.erase_apply] at hi
    split at hi
    · cases hi
    · exact hs.buffers i c hi
  · dsimp only at hx
    rw [Arena.erase_apply] at hx
    split at hx
    · cases hx
    · exact hs.shaders j x hx
  · dsimp only at hj
    rw [Arena.erase_apply] at hj
    split at hj
    · cases hj
    · exact hs.issued j hj
  · dsimp only at hj
    rw [Arena.erase_apply] at hj
    split at hj
    · cases hj
    · next hjh => simp only [sourceOf, Arena.erase_of_ne _ hjh]

theorem deleteBuffer_keeps {b : ℕ} (hb : ∀ h x, s.glShaders h = some x → x.buffer ≠ b) :
    Keeps Sent s
      { s with shmBuffers := s.shmBuffers.erase b, resources := s.resources.erase b } := by
  refine ⟨⟨fun i c hi => ?_, fun j x hx => ?_, hs.issued, fun i hi => ?_⟩, Nat.le_refl _,
    fun j hj _ _ => ?_⟩
  · dsimp only at hi ⊢
    rw [Arena.erase_apply] at hi ⊢
    split at hi
    · cases hi
    · next hib =>
      rw [if_neg hib]
      exact hs.buffers i c hi
  · dsimp only at hx ⊢
    rw [Arena.erase_of_ne _ (hb j x hx)]
    exact hs.shaders j x hx
  · dsimp only at hi
    rw [Arena.erase_apply] at hi
    split at hi
    · cases hi
    · exact hs.allocated i hi
  · obtain ⟨x, hx⟩ := Option.isSome_iff_exists.mp hj
    have hx' : s.glShaders j = some x := hx
    simp only [sourceOf, hx', Option.bind_some, Arena.erase_of_ne _ (hb j x hx')]

theorem act_keeps (ht : Tree s) {a : Action} (hc : KeepsSources Sent s a) :
    Keeps Sent s (s.act a) := by
  by_cases hr : ∀ client r, a = .request client r → r.isMemory = false
  · by_cases hd : ∀ client r c i, a = .destroy client r → s.resources r = some ⟨c, i⟩ →
        i ≠ .glShader ∧ i ≠ .shmBuffer
    · exact (act_grown ht hr hd).keeps hs Sent
    · -- a shader or a buffer is destroyed
      push Not at hd
      obtain ⟨client, r, c, i, rfl, hri, hi⟩ := hd
      simp only [act, hri, Option.any_some]
      split
      · next hcl =>
        have hcl : c = client := of_decide_eq_true hcl
        subst hcl
        simp only [destroyResource, hri]
        cases i with
        | glShader => exact deleteShader_keeps hs r
        | shmBuffer => exact deleteBuffer_keeps hs (hc hri)
        | _ => cases hi fun h => by cases h
      · exact (Grown.refl s).keeps hs Sent
  · push Not at hr
    obtain ⟨client, r, rfl, hr⟩ := hr
    simp only [act]
    split
    · next ha =>
      cases r with
      | createGlShader b type => exact createGlShader_keeps hs ha
      | createBuffer data => exact createBuffer_keeps hs client data
      | writeBuffer b data => exact writeBuffer_keeps hs ha hc
      | _ => exact absurd rfl hr
    · exact (Grown.refl s).keeps hs Sent

end Keeps

/-- The proxy of the shader was made with this source. -/
def MadeFrom (s : Scene) (h : ℕ) (source : Bytes) : Prop :=
  ∃ p, s.proxyOf (.shader h) = some p ∧ (p.id, source) ∈ s.remote.texts

/-- Shaders are made with new ids. -/
def TextsIssued (s : Scene) : Prop := ∀ e ∈ s.remote.texts, e.1 < s.remote.proxyCount

/-- What was sent for a shader was sent before, or is what it reads now. -/
structure Sends (s s' : Scene) : Prop where
  issued : TextsIssued s'
  made : ∀ h source, MadeFrom s' h source →
    MadeFrom s h source ∨ s'.sourceOf (.shader h) = some source

theorem Quiet.made (h : Quiet s s') {i : ℕ} {source : Bytes} (hm : MadeFrom s' i source) :
    MadeFrom s i source := by
  obtain ⟨p, hp, he⟩ := hm
  exact ⟨p, h.proxyOf _ p hp, h.remote ▸ he⟩

theorem Quiet.sends (h : Quiet s s') (hi : TextsIssued s) : Sends s s' where
  issued := fun e he => by
    rw [h.remote] at he ⊢
    exact hi e he
  made := fun _ _ hm => .inl (h.made hm)

theorem sourceOf_of_content (h : s'.content = s.content) (i : ℕ) :
    s'.sourceOf (.shader i) = s.sourceOf (.shader i) :=
  sourceOf_of_memory (grown_of_content h).memory i

theorem SyncStep.sends {A : ℕ → Prop} {C : Call → Prop} (h : SyncStep A C s s') (ha : Attached s)
    (hi : TextsIssued s) : Sends s s' := by
  have hsource := sourceOf_of_content h.content
  have same (hr : s'.remote.texts = s.remote.texts) : Sends s s' := by
    refine ⟨fun e he => ?_, fun i source hm => .inl ?_⟩
    · rw [hr] at he
      exact Nat.lt_of_lt_of_le (hi e he) h.proxyCount
    · obtain ⟨p, hp, he⟩ := hm
      rw [hr] at he
      rcases h.proxyOf_new hp with h1 | ⟨h1, -, -⟩
      · exact ⟨p, h1, he⟩
      · exact absurd (hi _ he) (Nat.not_lt.mpr h1)
  cases h with
  | call c hc hn => exact same (by simp [Scene.call, Remote.call, Remote.texts, hn])
  | create x mk p r hr hp hh hc hm =>
    obtain ⟨channel, -, rfl, rfl⟩ := create_eq_some hr
    have ht : (giveProxy { s with remote := { s.remote with
          proxyCount := s.remote.proxyCount + 1
          calls := s.remote.calls ++ [mk s.remote.proxyCount] } }
        ⟨s.remote.proxyCount, channel⟩ x).remote.texts = s.remote.texts ++
          ((s.sourceOf x).map fun source => (s.remote.proxyCount, source)).toList := by
      rw [giveProxy_remote, Remote.texts, List.filterMap_append, ← hm]
      cases hq : (mk s.remote.proxyCount).shader? <;> simp [Remote.texts, hq]
    refine ⟨fun e he => ?_, fun i source hm => ?_⟩
    · rw [ht] at he
      rw [giveProxy_remote]
      rcases List.mem_append.mp he with he | he
      · exact Nat.lt_succ_of_lt (hi e he)
      · simp only [Option.mem_toList, Option.map_eq_some_iff] at he
        obtain ⟨source, -, rfl⟩ := he
        exact Nat.lt_succ_self _
    · obtain ⟨q, hq, he⟩ := hm
      rw [ht] at he
      rw [proxyOf_giveProxy] at hq
      split at hq
      · next hx =>
        cases hq
        rcases List.mem_append.mp he with he | he
        · exact absurd (hi _ he) (Nat.lt_irrefl _)
        · simp only [Option.mem_toList, Option.map_eq_some_iff, Prod.mk.injEq, true_and,
            exists_eq_right] at he
          rw [hsource]
          exact .inr (hx.1 ▸ he)
      · have hq' : s.proxyOf (.shader i) = some q := hq
        rcases List.mem_append.mp he with he | he
        · exact .inl ⟨q, hq', he⟩
        · simp only [Option.mem_toList, Option.map_eq_some_iff, Prod.mk.injEq] at he
          obtain ⟨-, -, he, -⟩ := he
          exact absurd (ha.id_lt _ q hq') (by omega)
  | _ => exact same rfl

theorem Syncs.sends {A : ℕ → Prop} {C : Call → Prop} (h : Syncs A C s s') (ha : Attached s)
    (hi : TextsIssued s) : Sends s s' := by
  induction h with
  | refl => exact ⟨hi, fun _ _ h => .inl h⟩
  | tail hsteps hstep ih =>
    have h1 := SyncStep.sends hstep (ha.syncs hsteps) ih.issued
    refine ⟨h1.issued, fun i source hm => ?_⟩
    rcases h1.made i source hm with h2 | h2
    · refine (ih.made i source h2).imp_right fun h3 => ?_
      rw [sourceOf_of_content hstep.content]
      exact h3
    · exact .inr h2

theorem commitVirtualObject_sends (ht : Tree s) (ha : Attached s) (hi : TextsIssued s) (v : ℕ) :
    Sends s (s.commitVirtualObject v) := by
  have hq := commitState_quiet s v
  have hr := ((commitState_commits_true s v).tree ht).registered
  have h1 := Syncs.sends (syncIfSession_steps (s := s.commitState v) hr v) (ha.quiet hq)
    (hq.sends hi).issued
  exact ⟨h1.issued, fun i source hm => (h1.made i source hm).imp_left hq.made⟩

theorem sessionDisconnect_sends (ha : Attached s) (hi : TextsIssued s) :
    Sends s s.sessionDisconnect := by
  by_cases hc : s.remote.hasSession
  · have hr : s.sessionDisconnect.remote = s.remote.disconnect := by
      rw [sessionDisconnect, if_pos hc]
      rfl
    refine ⟨fun e he => ?_, fun i source hm => ?_⟩
    · rw [hr] at he ⊢
      exact hi e he
    · obtain ⟨p, hp, -⟩ := hm
      have hn := (ha.disconnect hc).channel _ p hp
      rw [hr] at hn
      cases hn
  · rw [sessionDisconnect, if_neg hc]
    exact (Quiet.refl s).sends hi

theorem act_sends (ht : Tree s) (ha : Attached s) (hi : TextsIssued s) (a : Action) :
    Sends s (s.act a) := by
  cases a with
  | request client r =>
    simp only [act]
    split
    · by_cases hc : ∃ v, r = .commit v
      · obtain ⟨v, rfl⟩ := hc
        exact commitVirtualObject_sends ht ha hi v
      · by_cases hf : ∃ v, r = .frame v
        · obtain ⟨v, rfl⟩ := hf
          exact (queueFrameCallback_quiet s v).sends hi
        · exact (handle_still ht client (fun v h => hc ⟨v, h⟩)
            fun v h => hf ⟨v, h⟩).toQuiet.sends hi
    · exact (Quiet.refl s).sends hi
  | destroy client r =>
    simp only [act]
    split
    · rcases destroyResource_cases ht r with ⟨-, h⟩ | ⟨-, h⟩
      · exact h.toQuiet.sends hi
      · exact h.toQuiet.sends hi
    · exact (Quiet.refl s).sends hi
  | peerDiscover connected =>
    rcases peerDiscover_cases ht.registered connected with ⟨h, -⟩ | ⟨hd, h⟩
    · rw [act, h]
      exact (Quiet.refl s).sends hi
    · have h1 := Syncs.sends h (ha.establish hd) hi
      refine ⟨h1.issued, fun i source hm => (h1.made i source hm).imp_left ?_⟩
      rintro ⟨p, hp, he⟩
      exact ⟨p, hp, he⟩
  | sessionDisconnect => exact sessionDisconnect_sends ha hi
  | frameTimer busyness =>
    simp only [act, frameTimer]
    split
    · exact (sessionFrame_quiet s).sends hi
    · exact (Quiet.refl s).sends hi
  | moveApp b polar azimuthal =>
    simp only [act, moveApp]
    split
    · exact (Quiet.refl s).sends hi
    · next x _ =>
      have h1 := (turnApp_still s b x polar azimuthal).toQuiet
      have h2 := commitVirtualObject_sends (ht.same (turnApp_same s b x polar azimuthal))
        (ha.quiet h1) (h1.sends hi).issued x.virtualObject
      exact ⟨h2.issued, fun i source hm => (h2.made i source hm).imp_left h1.made⟩

end Grown

/-- What every run keeps of the sources, whatever was sent. -/
structure Sound (s : Scene) : Prop where
  tree : Tree s
  attached : Attached s
  texts : TextsIssued s

theorem init_sound : Sound init where
  tree := init_tree
  attached := init_attached
  texts := fun e he => by cases he

theorem init_sourced : Sourced init where
  buffers := fun b c h => by cases h
  shaders := fun h x hx => by cases hx
  issued := fun h hh => by cases hh
  allocated := fun b hb => by cases hb

/-- A step keeps the sources sound, and what it sends is what the shaders read after it. -/
theorem step_sound {s : Scene} (h : Sound s) {Sent : ℕ → Prop} (hs : Sourced s) {a : Action}
    (hc : KeepsSources Sent s a) :
    Sound (s.step a) ∧ Keeps Sent s (s.step a) ∧ Sends s (s.step a) := by
  obtain ⟨h1, h2⟩ := step_attached s a ⟨h.tree, h.attached⟩
  unfold step at h1 h2 ⊢
  split at h1
  · next hf =>
    rw [if_pos hf] at h2 ⊢
    exact ⟨h, (Grown.refl s).keeps hs Sent, (Quiet.refl s).sends h.texts⟩
  · next hf =>
    rw [if_neg hf] at h2 ⊢
    have h3 := act_sends h.tree h.attached h.texts a
    exact ⟨⟨h1, h2, h3.issued⟩, act_keeps hs h.tree hc, h3⟩

end Scene
end Yaza
