import Yaza.Zwin.DoubleBuffering
import Yaza.Zwin.Naming

/-! The scene of one client apart from those of the others: what a client does reads and writes its
own objects, and what comes of it is sent to it and said of its own remote objects. -/
namespace Yaza

def BoundedApp.refs (x : BoundedApp) : List ℕ := [x.virtualObject]

def GlProgram.refs (x : GlProgram) : List ℕ := x.pending.shaders ++ x.current.shaders

def GlShader.refs (x : GlShader) : List ℕ := [x.buffer]

def GlVertexArray.currentRefs (x : GlVertexArray) : List ℕ :=
  x.current.flatMap fun e => e.2.glBuffer.toList

def GlBuffer.refs (x : GlBuffer) : List ℕ := x.pending.data.toList

def GlTexture.refs (x : GlTexture) : List ℕ := x.pending.data.toList

/-- The object an event is sent to. -/
def SceneEvent.object : SceneEvent → ℕ
  | .bufferRelease b => b
  | .callbackDone k => k
  | .boundedConfigure b _ _ => b

namespace Scene

/-- What is in `T` refers to what is in `T`. -/
def Inside (T : ℕ → Prop) (i : ℕ) (l : List ℕ) : Prop := T i → ∀ j ∈ l, T j

/-- The addresses of one client: its resources are there, and no reference leads out. -/
structure Closed (T : ℕ → Prop) (client : ℕ) (s : Scene) : Prop where
  resources : s.resources.All fun i r => T i → r.client = client
  objects : s.virtualObjects.All fun i x => Inside T i x.refs
  apps : s.boundedApps.All fun i x => Inside T i x.refs
  units : s.renderingUnits.All fun i y => Inside T i y.refs
  techniques : s.baseTechniques.All fun i z => Inside T i z.refs
  programs : s.glPrograms.All fun i x => Inside T i x.refs
  shaders : s.glShaders.All fun i x => Inside T i x.refs
  vertexArrays : s.glVertexArrays.All fun i x => Inside T i (x.refs ++ x.currentRefs)
  buffers : s.glBuffers.All fun i x => Inside T i x.refs
  textures : s.glTextures.All fun i x => Inside T i x.refs

/-- Nothing outside of `T` changes, and nothing is sent to anyone but the client. -/
structure Confined (T : ℕ → Prop) (client : ℕ) (s s' : Scene) : Prop where
  resources : Arena.SameOff T s.resources s'.resources
  objects : Arena.SameOff T s.virtualObjects s'.virtualObjects
  apps : Arena.SameOff T s.boundedApps s'.boundedApps
  units : Arena.SameOff T s.renderingUnits s'.renderingUnits
  techniques : Arena.SameOff T s.baseTechniques s'.baseTechniques
  programs : Arena.SameOff T s.glPrograms s'.glPrograms
  shaders : Arena.SameOff T s.glShaders s'.glShaders
  vertexArrays : Arena.SameOff T s.glVertexArrays s'.glVertexArrays
  buffers : Arena.SameOff T s.glBuffers s'.glBuffers
  textures : Arena.SameOff T s.glTextures s'.glTextures
  samplers : Arena.SameOff T s.glSamplers s'.glSamplers
  regions : Arena.SameOff T s.regions s'.regions
  shmBuffers : Arena.SameOff T s.shmBuffers s'.shmBuffers
  errors : ∃ l, s'.errors = s.errors ++ l ∧ ∀ e ∈ l, e.client = client
  events : ∃ l, s'.events = s.events ++ l ∧ ∀ e ∈ l, T e.object

/-- What the client does stays with it, and its objects stay together. -/
structure Stays (T : ℕ → Prop) (client : ℕ) (s s' : Scene) : Prop where
  closed : Closed T client s'
  confined : Confined T client s s'

section Basics
variable {T : ℕ → Prop} {client : ℕ} {s s' s'' : Scene}

theorem Confined.refl (T : ℕ → Prop) (client : ℕ) (s : Scene) : Confined T client s s :=
  ⟨.refl, .refl, .refl, .refl, .refl, .refl, .refl, .refl, .refl, .refl, .refl, .refl, .refl,
    ⟨[], by simp⟩, ⟨[], by simp⟩⟩

theorem sent_trans {α : Type*} {P : α → Prop} {a b c : List α}
    (h : ∃ l, b = a ++ l ∧ ∀ e ∈ l, P e) (h' : ∃ l, c = b ++ l ∧ ∀ e ∈ l, P e) :
    ∃ l, c = a ++ l ∧ ∀ e ∈ l, P e := by
  obtain ⟨l, rfl, hl⟩ := h
  obtain ⟨l', rfl, hl'⟩ := h'
  refine ⟨l ++ l', List.append_assoc .., fun e he => ?_⟩
  rcases List.mem_append.mp he with he | he
  · exact hl e he
  · exact hl' e he

theorem Confined.trans (h : Confined T client s s') (h' : Confined T client s' s'') :
    Confined T client s s'' where
  resources := h.resources.trans h'.resources
  objects := h.objects.trans h'.objects
  apps := h.apps.trans h'.apps
  units := h.units.trans h'.units
  techniques := h.techniques.trans h'.techniques
  programs := h.programs.trans h'.programs
  shaders := h.shaders.trans h'.shaders
  vertexArrays := h.vertexArrays.trans h'.vertexArrays
  buffers := h.buffers.trans h'.buffers
  textures := h.textures.trans h'.textures
  samplers := h.samplers.trans h'.samplers
  regions := h.regions.trans h'.regions
  shmBuffers := h.shmBuffers.trans h'.shmBuffers
  errors := sent_trans h.errors h'.errors
  events := sent_trans h.events h'.events

theorem Stays.refl (hs : Closed T client s) : Stays T client s s := ⟨hs, .refl T client s⟩

theorem Stays.trans (h : Stays T client s s') (h' : Stays T client s' s'') :
    Stays T client s s'' := ⟨h'.closed, h.confined.trans h'.confined⟩

/-- A loop whose rounds stay with the client. -/
theorem loop_stays {α : Type*} {f : Scene → α → Scene} {l : List α} (hs : Closed T client s)
    (hf : ∀ s, Closed T client s → ∀ a ∈ l, Stays T client s (f s a)) :
    Stays T client s (l.foldl f s) := by
  induction l generalizing s with
  | nil => exact .refl hs
  | cons a l ih =>
    have h1 := hf s hs a List.mem_cons_self
    exact h1.trans (ih h1.closed fun s hs b hb => hf s hs b (List.mem_cons_of_mem a hb))

end Basics

section Parts
variable {T : ℕ → Prop} {client : ℕ} {s : Scene} (hs : Closed T client s)
include hs

theorem resources_stays {k : Arena Resource} (hk : k.All fun i r => T i → r.client = client)
    (ho : Arena.SameOff T s.resources k) : Stays T client s { s with resources := k } :=
  ⟨{ hs with resources := hk }, { Confined.refl T client s with resources := ho }⟩

theorem objects_stays {k : Arena VirtualObject} (hk : k.All fun i x => Inside T i x.refs)
    (ho : Arena.SameOff T s.virtualObjects k) :
    Stays T client s { s with virtualObjects := k } :=
  ⟨{ hs with objects := hk }, { Confined.refl T client s with objects := ho }⟩

theorem apps_stays {k : Arena BoundedApp} (hk : k.All fun i x => Inside T i x.refs)
    (ho : Arena.SameOff T s.boundedApps k) : Stays T client s { s with boundedApps := k } :=
  ⟨{ hs with apps := hk }, { Confined.refl T client s with apps := ho }⟩

theorem units_stays {k : Arena RenderingUnit} (hk : k.All fun i y => Inside T i y.refs)
    (ho : Arena.SameOff T s.renderingUnits k) :
    Stays T client s { s with renderingUnits := k } :=
  ⟨{ hs with units := hk }, { Confined.refl T client s with units := ho }⟩

theorem techniques_stays {k : Arena GlBaseTechnique} (hk : k.All fun i z => Inside T i z.refs)
    (ho : Arena.SameOff T s.baseTechniques k) :
    Stays T client s { s with baseTechniques := k } :=
  ⟨{ hs with techniques := hk }, { Confined.refl T client s with techniques := ho }⟩

theorem programs_stays {k : Arena GlProgram} (hk : k.All fun i x => Inside T i x.refs)
    (ho : Arena.SameOff T s.glPrograms k) : Stays T client s { s with glPrograms := k } :=
  ⟨{ hs with programs := hk }, { Confined.refl T client s with programs := ho }⟩

theorem shaders_stays {k : Arena GlShader} (hk : k.All fun i x => Inside T i x.refs)
    (ho : Arena.SameOff T s.glShaders k) : Stays T client s { s with glShaders := k } :=
  ⟨{ hs with shaders := hk }, { Confined.refl T client s with shaders := ho }⟩

theorem vertexArrays_stays {k : Arena GlVertexArray}
    (hk : k.All fun i x => Inside T i (x.refs ++ x.currentRefs))
    (ho : Arena.SameOff T s.glVertexArrays k) :
    Stays T client s { s with glVertexArrays := k } :=
  ⟨{ hs with vertexArrays := hk }, { Confined.refl T client s with vertexArrays := ho }⟩

theorem buffers_stays {k : Arena GlBuffer} (hk : k.All fun i x => Inside T i x.refs)
    (ho : Arena.SameOff T s.glBuffers k) : Stays T client s { s with glBuffers := k } :=
  ⟨{ hs with buffers := hk }, { Confined.refl T client s with buffers := ho }⟩

theorem textures_stays {k : Arena GlTexture} (hk : k.All fun i x => Inside T i x.refs)
    (ho : Arena.SameOff T s.glTextures k) : Stays T client s { s with glTextures := k } :=
  ⟨{ hs with textures := hk }, { Confined.refl T client s with textures := ho }⟩

theorem samplers_stays {k : Arena GlSampler} (ho : Arena.SameOff T s.glSamplers k) :
    Stays T client s { s with glSamplers := k } :=
  ⟨{ hs with }, { Confined.refl T client s with samplers := ho }⟩

theorem regions_stays {k : Arena (List CuboidRegion)} (ho : Arena.SameOff T s.regions k) :
    Stays T client s { s with regions := k } :=
  ⟨{ hs with }, { Confined.refl T client s with regions := ho }⟩

theorem shmBuffers_stays {k : Arena ShmBuffer} (ho : Arena.SameOff T s.shmBuffers k) :
    Stays T client s { s with shmBuffers := k } :=
  ⟨{ hs with }, { Confined.refl T client s with shmBuffers := ho }⟩

theorem crash_stays (f : Fault) : Stays T client s (s.crash f) :=
  ⟨{ hs with }, { Confined.refl T client s with }⟩

theorem numbers_stays (serial nextId : ℕ) : Stays T client s { s with serial, nextId } :=
  ⟨{ hs with }, { Confined.refl T client s with }⟩

theorem event_stays {e : SceneEvent} (he : T e.object) :
    Stays T client s { s with events := s.events ++ [e] } :=
  ⟨{ hs with }, { Confined.refl T client s with events := ⟨[e], rfl, by simpa using he⟩ }⟩

theorem error_stays {e : PostedError} (he : e.client = client) :
    Stays T client s { s with errors := s.errors ++ [e] } :=
  ⟨{ hs with }, { Confined.refl T client s with errors := ⟨[e], rfl, by simpa using he⟩ }⟩

/-- An error is posted to the client of the object. -/
theorem postError_stays {i : ℕ} (hi : T i) (code : ErrorCode) (text : String) :
    Stays T client s (s.postError i code text) := by
  unfold postError
  split
  · exact crash_stays hs _
  · next r hr => exact error_stays hs (hs.resources i r hr hi)

end Parts

section Commit
variable {T : ℕ → Prop} {client : ℕ} {s : Scene}

theorem inside_nil (i : ℕ) : Inside T i [] := fun _ _ hj => by cases hj

theorem Inside.mono {i : ℕ} {l l' : List ℕ} (h : Inside T i l) (hl : ∀ j ∈ l', j ∈ l) :
    Inside T i l' := fun hi j hj => h hi j (hl j hj)

/-- The memory of a buffer is released to its own client. -/
theorem commitBuffer_stays (hs : Closed T client s) {b : ℕ} (hb : T b) :
    Stays T client s (s.commitBuffer b) := by
  unfold commitBuffer
  split
  · exact crash_stays hs _
  · next x hx =>
    split
    · exact .refl hs
    · next r hr =>
      split
      · exact .refl hs
      · next shm _ =>
        have hm : r ∈ x.refs := by simp [GlBuffer.refs, (Arena.lock_eq_some.mp hr).1]
        have h1 := buffers_stays hs (hs.buffers.set (x := x.commit shm.data)
          fun _ j hj => by simp [GlBuffer.refs, GlBuffer.commit] at hj) (.set hb _)
        exact h1.trans (event_stays h1.closed (e := .bufferRelease r) (hs.buffers b x hx hb r hm))

theorem commitTexture_stays (hs : Closed T client s) {t : ℕ} (ht : T t) :
    Stays T client s (s.commitTexture t) := by
  have h1 : Stays T client s (s.commitTextureData t) := by
    unfold commitTextureData
    split
    · exact crash_stays hs _
    · next x hx =>
      split
      · exact .refl hs
      · next r hr =>
        split
        · exact .refl hs
        · next shm _ =>
          have hm : r ∈ x.refs := by simp [GlTexture.refs, (Arena.lock_eq_some.mp hr).1]
          have h1 := textures_stays hs (hs.textures.set (x := x.commitData shm.data)
            fun _ j hj => by simp [GlTexture.refs, GlTexture.commitData] at hj) (.set ht _)
          exact h1.trans
            (event_stays h1.closed (e := .bufferRelease r) (hs.textures t x hx ht r hm))
  refine h1.trans (textures_stays h1.closed (h1.closed.textures.modify fun x _ hx => ?_)
    (.modify ht _))
  refine hx.mono fun j hj => ?_
  unfold GlTexture.commitMipmap at hj
  split at hj
  · exact hj
  · exact hj

theorem commitSampler_stays (hs : Closed T client s) {p : ℕ} (hp : T p) :
    Stays T client s (s.commitSampler p) := by
  unfold commitSampler
  split
  · exact crash_stays hs _
  · exact samplers_stays hs (.set hp _)

theorem refs_commitProgram {x : GlProgram} {j : ℕ} (hj : j ∈ x.commit.refs) : j ∈ x.refs := by
  unfold GlProgram.commit at hj
  split at hj
  · exact hj
  · simp only [GlProgram.refs, List.nil_append, List.mem_append] at hj ⊢
    exact hj.symm

theorem commitProgram_stays (hs : Closed T client s) {p : ℕ} (hp : T p) :
    Stays T client s (s.commitProgram p) := by
  unfold commitProgram
  split
  · exact crash_stays hs _
  · next x hx =>
    have h1 : Stays T client s (s.checkRelink p x) := by
      unfold checkRelink
      split
      · exact postError_stays hs hp ..
      · exact .refl hs
    rw [← checkRelink_programs s p x] at hx ⊢
    exact h1.trans (programs_stays h1.closed
      (h1.closed.programs.set ((h1.closed.programs p x hx).mono fun _ => refs_commitProgram))
      (.set hp _))

theorem commitWeakBuffer_stays (hs : Closed T client s) {b : Option ℕ}
    (hb : ∀ i, b = some i → T i) : Stays T client s (s.commitWeakBuffer b) := by
  unfold commitWeakBuffer
  split
  · exact .refl hs
  · next i hi => exact commitBuffer_stays hs (hb i (Arena.lock_eq_some.mp hi).1)

theorem commitVertexArray_stays (hs : Closed T client s) {va : ℕ} (hva : T va) :
    Stays T client s (s.commitVertexArray va) := by
  unfold commitVertexArray
  split
  · exact crash_stays hs _
  · next x hx =>
    have hr := hs.vertexArrays va x hx
    have h1 : Stays T client s { s with glVertexArrays := s.glVertexArrays.set va x.commit } := by
      refine vertexArrays_stays hs (hs.vertexArrays.set (hr.mono fun j hj => ?_)) (.set hva _)
      rcases List.mem_append.mp hj with hj | hj
      · exact List.mem_append_left _ hj
      · exact List.mem_append_left _ hj
    refine h1.trans (loop_stays h1.closed fun s hs e he => ?_)
    refine commitWeakBuffer_stays hs fun i hi => hr hva i (List.mem_append_left _ ?_)
    simp only [GlVertexArray.refs, List.mem_flatMap, Option.mem_toList]
    exact ⟨e, he, hi⟩

theorem commitWeakProgram_stays (hs : Closed T client s) {p : Option ℕ}
    (hp : ∀ i, p = some i → T i) : Stays T client s (s.commitWeakProgram p) := by
  unfold commitWeakProgram
  split
  · exact .refl hs
  · next i hi => exact commitProgram_stays hs (hp i (Arena.lock_eq_some.mp hi).1)

theorem commitWeakVertexArray_stays (hs : Closed T client s) {va : Option ℕ}
    (hva : ∀ i, va = some i → T i) : Stays T client s (s.commitWeakVertexArray va) := by
  unfold commitWeakVertexArray
  split
  · exact .refl hs
  · next i hi => exact commitVertexArray_stays hs (hva i (Arena.lock_eq_some.mp hi).1)

theorem commitLeaves_stays (hs : Closed T client s) {x y : GlBaseTechnique}
    (hx : ∀ i ∈ x.pending.refs, T i) (hy : ∀ i ∈ y.current.refs, T i) :
    Stays T client s (s.commitLeaves x y) := by
  have h1 := commitWeakProgram_stays hs (p := y.current.program)
    fun i hi => hy i (TechniqueState.program_mem_refs hi)
  have hva : ∀ i, y.current.vertexArray = some i → T i :=
    fun i hi => hy i (TechniqueState.vertexArray_mem_refs hi)
  have h2 := commitWeakVertexArray_stays h1.closed hva
  have h3 := commitWeakBuffer_stays h2.closed (b := x.pending.drawApiArgs.committedBuffer)
    fun i hi => hx i (TechniqueState.committedBuffer_mem_refs hi)
  refine ((h1.trans h2).trans h3).trans (loop_stays h3.closed fun s hs b hb => ?_)
  have hr := TechniqueState.texture_mem_refs hb
  have h4 := commitTexture_stays hs (hy _ hr.1)
  exact h4.trans (commitSampler_stays h4.closed (hy _ hr.2))

theorem setTechnique_stays (hs : Closed T client s) {u : ℕ} (hu : T u) {t : Option ℕ}
    (ht : ∀ i, t = some i → T i) : Stays T client s (s.setTechnique u t) := by
  unfold setTechnique
  split
  · exact crash_stays hs _
  · next y hy =>
    split
    · exact postError_stays hs hu ..
    · refine units_stays hs (hs.units.set fun _ j hj => ?_) (.set hu _)
      simp only [RenderingUnit.refs, List.mem_cons, List.mem_append, Option.mem_toList] at hj
      rcases hj with rfl | hj | hj
      · exact hs.units u y hy hu _ List.mem_cons_self
      · exact ht j hj
      · exact hs.units u y hy hu j (by simp [RenderingUnit.refs, hj])

theorem commitTechnique_stays (hs : Closed T client s) {t : ℕ} (ht : T t) :
    Stays T client s (s.commitTechnique t) := by
  unfold commitTechnique
  split
  · exact crash_stays hs _
  · next z hz =>
    have hr := hs.techniques t z hz ht
    have ho : T z.owner := hr _ List.mem_cons_self
    have hp : ∀ i ∈ z.pending.refs, T i := fun i hi => hr i (by simp [GlBaseTechnique.refs, hi])
    have hc : ∀ i ∈ z.current.refs, T i := fun i hi => hr i (by simp [GlBaseTechnique.refs, hi])
    have h1 : Stays T client s (s.registerTechnique t z) := by
      unfold registerTechnique
      split
      · exact .refl hs
      · exact setTechnique_stays hs ho fun i hi => Option.some.inj hi ▸ ht
    have h2 := techniques_stays h1.closed (h1.closed.techniques.set (i := t)
      (x := z.commit s.bindingAlive) fun _ j hj => hr j (GlBaseTechnique.refs_commit hj))
      (.set ht _)
    refine (h1.trans h2).trans (commitLeaves_stays h2.closed hp fun i hi => ?_)
    exact (TechniqueState.refs_commit hi).elim (hp i) (hc i)

theorem addRenderingUnit_stays (hs : Closed T client s) {v u : ℕ} (hv : T v) (hu : T u) :
    Stays T client s (s.addRenderingUnit v u) := by
  unfold addRenderingUnit
  split
  · exact crash_stays hs _
  · next x hx =>
    refine objects_stays hs (hs.objects.set fun _ j hj => ?_) (.set hv _)
    simp only [VirtualObject.refs, List.mem_append, List.mem_singleton] at hj
    rcases hj with (hj | hj | rfl) | hj
    · exact hs.objects v x hx hv j (by simp only [VirtualObject.refs, List.mem_append, hj, true_or])
    · exact hs.objects v x hx hv j (by simp [VirtualObject.refs, hj])
    · exact hu
    · exact hs.objects v x hx hv j (by simp only [VirtualObject.refs, List.mem_append, hj, or_true])

theorem commitUnit_stays (hs : Closed T client s) {u : ℕ} (hu : T u) :
    Stays T client s (s.commitUnit u) := by
  unfold commitUnit
  split
  · exact crash_stays hs _
  · next y hy =>
    have hr := hs.units u y hy hu
    have h1 : Stays T client s (s.registerUnit u y) := by
      unfold registerUnit
      split
      · exact .refl hs
      · have h1 := addRenderingUnit_stays hs (hr _ List.mem_cons_self) hu
        rw [← addRenderingUnit_units s y.owner u]
        exact h1.trans (units_stays h1.closed (h1.closed.units.set fun _ => hr) (.set hu _))
    refine h1.trans (loop_stays h1.closed fun s hs t ht => commitTechnique_stays hs ?_)
    exact hr t (by simp [RenderingUnit.refs, ht])

theorem commitApp_stays (hs : Closed T client s) {b : ℕ} (hb : T b) :
    Stays T client s (s.commitApp b) := by
  unfold commitApp
  split
  · exact crash_stays hs _
  · next x hx => exact apps_stays hs (hs.apps.set (hs.apps b x hx)) (.set hb _)

/-- `VirtualObject::commit` up to its `sync` stays with the client of the object. -/
theorem commitState_stays (hs : Closed T client s) {v : ℕ} (hv : T v) :
    Stays T client s (s.commitState v) := by
  unfold commitState
  split
  · exact crash_stays hs _
  · next x hx =>
    have hr := hs.objects v x hx hv
    have h1 := objects_stays hs (hs.objects.set (i := v) (x := x.commit) fun _ => hr) (.set hv _)
    refine h1.trans (loop_stays h1.closed fun s hs l hl => ?_)
    have ht : T l.id := hr _ (by
      simp only [VirtualObject.refs, List.mem_append, List.mem_map]
      exact .inl (.inl ⟨l, hl, rfl⟩))
    cases l with
    | unit u => exact commitUnit_stays hs ht
    | app b => exact commitApp_stays hs ht

end Commit

section Sync
variable {T : ℕ → Prop} {client : ℕ} {s s' : Scene}

/-- What a commit comes to is what a sync comes to. -/
theorem Closed.span (hs : Closed T client s) : Span T s.content where
  objects := fun v x' hx' hv u hu => by
    obtain ⟨x, hx, rfl⟩ := Option.map_eq_some_iff.mp hx'
    exact hs.objects v x hx hv u (by
      simp only [VirtualObject.refs, List.mem_append]
      exact .inl (.inr hu))
  units := fun u y' hy' hu => by
    obtain ⟨y, hy, rfl⟩ := Option.map_eq_some_iff.mp hy'
    have hr := hs.units u y hy hu
    exact ⟨hr _ List.mem_cons_self, fun t (ht : y.technique = some t) =>
      hr t (by simp [RenderingUnit.refs, ht])⟩
  techniques := fun t z' hz' ht => by
    obtain ⟨z, hz, rfl⟩ := Option.map_eq_some_iff.mp hz'
    have hr := hs.techniques t z hz ht
    refine ⟨hr _ List.mem_cons_self, fun i hi => hr i ?_⟩
    refine List.mem_cons_of_mem _ (List.mem_append_right _ ?_)
    rw [TechniqueState.mem_refs] at hi ⊢
    rcases hi with hi | hi | ⟨b, hb, hi⟩ | hi
    · exact .inl hi
    · exact .inr (.inl hi)
    · exact .inr (.inr (.inl ⟨b, List.mem_of_mem_filter hb, hi⟩))
    · exact .inr (.inr (.inr hi))
  programs := fun p x' hx' hp h hh => by
    obtain ⟨x, hx, rfl⟩ := Option.map_eq_some_iff.mp hx'
    exact hs.programs p x hx hp h (List.mem_append_right _ (List.mem_of_mem_filter hh))
  vertexArrays := fun va x' hx' hva e he b hb => by
    obtain ⟨x, hx, rfl⟩ := Option.map_eq_some_iff.mp hx'
    refine hs.vertexArrays va x hx hva b (List.mem_append_right _ ?_)
    simp only [GlVertexArray.currentRefs, List.mem_flatMap, Option.mem_toList]
    exact ⟨e, he, hb⟩

theorem giveProxy_closed (hs : Closed T client s) (p : Proxy) (x : Holder) :
    Closed T client (s.giveProxy p x) := by
  cases x with
  | virtualObject i => exact { hs with objects := hs.objects.modify fun _ _ h => h }
  | renderingUnit i => exact { hs with units := hs.units.modify fun _ _ h => h }
  | baseTechnique i => exact { hs with techniques := hs.techniques.modify fun _ _ h => h }
  | program i => exact { hs with programs := hs.programs.modify fun _ _ h => h }
  | shader i => exact { hs with shaders := hs.shaders.modify fun _ _ h => h }
  | vertexArray i => exact { hs with vertexArrays := hs.vertexArrays.modify fun _ _ h => h }
  | buffer i => exact { hs with buffers := hs.buffers.modify fun _ _ h => h }
  | texture i => exact { hs with textures := hs.textures.modify fun _ _ h => h }
  | sampler i => exact { hs with }

/-- A sync adds no reference. -/
theorem SyncStep.closed {A : ℕ → Prop} {C : Call → Prop} (h : SyncStep A C s s')
    (hs : Closed T client s) : Closed T client s' := by
  cases h with
  | crash => exact { hs with }
  | call => exact { hs with }
  | create h mk p r => exact giveProxy_closed (s := { s with remote := r }) { hs with } p h
  | clearData b => exact { hs with buffers := hs.buffers.modify fun _ _ h => h }
  | clearImage t => exact { hs with textures := hs.textures.modify fun _ _ h => h }
  | clearMipmap t => exact { hs with textures := hs.textures.modify fun _ _ h => h }
  | clearLink p => exact { hs with programs := hs.programs.modify fun _ _ h => h }
  | dropExpiredShaders p =>
    refine { hs with programs := hs.programs.modify fun x _ hx => hx.mono fun j hj => ?_ }
    simp only [GlProgram.refs, List.mem_append] at hj ⊢
    exact hj.imp_right List.mem_of_mem_filter
  | dropExpired t =>
    refine { hs with techniques := hs.techniques.modify fun z _ hz => hz.mono fun j hj => ?_ }
    simp only [GlBaseTechnique.refs, List.mem_cons, List.mem_append] at hj ⊢
    refine hj.imp_right (Or.imp_right fun hj => ?_)
    rw [TechniqueState.mem_refs] at hj ⊢
    rcases hj with hj | hj | ⟨b, hb, hj⟩ | hj
    · exact .inl hj
    · exact .inr (.inl hj)
    · exact .inr (.inr (.inl ⟨b, List.mem_of_mem_filter hb, hj⟩))
    · exact .inr (.inr (.inr hj))

theorem Syncs.closed {A : ℕ → Prop} {C : Call → Prop} (h : Syncs A C s s')
    (hs : Closed T client s) : Closed T client s' :=
  Path.preserves (fun _ _ h hs => h.closed hs) h hs

theorem giveProxy_confined (s : Scene) (p : Proxy) {x : Holder} (hx : T x.address) :
    Confined T client s (s.giveProxy p x) := by
  have h0 := Confined.refl T client s
  cases x with
  | virtualObject i => exact { h0 with objects := .modify (P := T) (i := i) hx _ }
  | renderingUnit i => exact { h0 with units := .modify (P := T) (i := i) hx _ }
  | baseTechnique i => exact { h0 with techniques := .modify (P := T) (i := i) hx _ }
  | program i => exact { h0 with programs := .modify (P := T) (i := i) hx _ }
  | shader i => exact { h0 with shaders := .modify (P := T) (i := i) hx _ }
  | vertexArray i => exact { h0 with vertexArrays := .modify (P := T) (i := i) hx _ }
  | buffer i => exact { h0 with buffers := .modify (P := T) (i := i) hx _ }
  | texture i => exact { h0 with textures := .modify (P := T) (i := i) hx _ }
  | sampler i => exact { h0 with samplers := .modify (P := T) (i := i) hx _ }

theorem Voice.confined (h : Voice T s s') : Confined T client s s' := by
  cases h with
  | silent hc hr hp ho =>
    have same {β : Type} {k k' : Arena β} (he : k' = k) : Arena.SameOff T k k' :=
      fun i _ => congrFun he i
    have field {β : Type} (g : Scene → β) : g s'.content = g s.content := congrArg g hc
    have he : s'.errors = s.errors := field Scene.errors
    have hv : s'.events = s.events := field Scene.events
    exact
      { objects := ho.objects, units := ho.units, techniques := ho.techniques
        programs := ho.programs, shaders := ho.shaders, vertexArrays := ho.vertexArrays
        buffers := ho.buffers, textures := ho.textures, samplers := ho.samplers
        resources := same (field Scene.resources)
        apps := same (field Scene.boundedApps)
        regions := same (field Scene.regions)
        shmBuffers := same (field Scene.shmBuffers)
        errors := ⟨[], by simp [he]⟩
        events := ⟨[], by simp [hv]⟩ }
  | call c => exact { Confined.refl T client s with }
  | create h mk p r hr hp ht =>
    have h1 : Confined T client _ _ := giveProxy_confined { s with remote := r } p ht
    exact { h1 with }

theorem Voices.confined (h : Voices T s s') : Confined T client s s' :=
  Path.preserves (P := Confined T client s) (fun _ _ hu hs => hs.trans hu.confined) h
    (.refl T client s)

/-- The calls made between two scenes are on remote objects of objects in `T`, and pass on none
but these. -/
def Speaks (T : ℕ → Prop) (s s' : Scene) : Prop :=
  ∃ l, s'.remote.calls = s.remote.calls ++ l ∧ ∀ c ∈ l, ∀ n ∈ c.uses, s'.Named T n

theorem Voice.speaks (h : Voice T s s') : Speaks T s s' := by
  have h0 := h
  cases h with
  | silent hc hr => exact ⟨[], by simp [hr], by simp⟩
  | call c hm hu =>
    refine ⟨[c], rfl, fun c' hc' n hn => ?_⟩
    rw [List.mem_singleton.mp hc'] at hn
    exact h0.named (hu n hn)
  | create h mk p r hr hp ht hm hu =>
    obtain ⟨channel, -, rfl, rfl⟩ := create_eq_some hr
    refine ⟨[mk s.remote.proxyCount], by rw [giveProxy_remote], fun c' hc' n hn => ?_⟩
    rw [List.mem_singleton.mp hc'] at hn
    exact h0.named (hu n hn)

theorem Voices.speaks (h : Voices T s s') : Speaks T s s' := by
  induction h with
  | refl => exact ⟨[], by simp, by simp⟩
  | tail _ hu ih =>
    obtain ⟨l, hl, hc⟩ := ih
    obtain ⟨l', hl', hc'⟩ := hu.speaks
    refine ⟨l ++ l', by rw [hl', hl, List.append_assoc], fun c hm n hn => ?_⟩
    rcases List.mem_append.mp hm with hm | hm
    · exact hu.named (hc c hm n hn)
    · exact hc' c hm n hn

end Sync

section Requests
variable {T : ℕ → Prop} {client : ℕ} {s : Scene} (hs : Closed T client s)
include hs

theorem newResource_stays (i : Interface) (hn : T s.nextId) :
    Stays T client s (s.newResource client i) := by
  have h1 := resources_stays hs (k := s.resources.set s.nextId ⟨client, i⟩)
    (hs.resources.set fun _ => rfl) (.set hn _)
  exact h1.trans (numbers_stays h1.closed s.serial (s.nextId + 1))

/-- A virtual object gets a listener of its own client. -/
theorem addListener_stays {v : ℕ} (hv : T v) {l : CommitListener} (hl : T l.id) :
    Stays T client s
      { s with
        virtualObjects := s.virtualObjects.modify v fun x =>
          { x with listeners := x.listeners ++ [l] } } := by
  refine objects_stays hs (hs.objects.modify fun x _ hx _ j hj => ?_) (.modify hv _)
  simp only [VirtualObject.refs, List.map_append, List.map_cons, List.map_nil, List.mem_append,
    List.mem_singleton] at hj
  rcases hj with ((hj | rfl) | hj) | hj
  · exact hx hv j (by simp only [VirtualObject.refs, List.mem_append, hj, true_or])
  · exact hl
  · exact hx hv j (by simp only [VirtualObject.refs, List.mem_append, hj, true_or, or_true])
  · exact hx hv j (by simp only [VirtualObject.refs, List.mem_append, hj, or_true])

theorem createRenderingUnit_stays {v : ℕ} (hv : T v) (hn : T s.nextId) :
    Stays T client s (s.createRenderingUnit client v) := by
  have h1 := newResource_stays hs .renderingUnit hn
  have h2 := units_stays h1.closed (k := s.renderingUnits.set s.nextId { owner := v })
    (hs.units.set fun _ j hj => by
      rw [List.mem_singleton.mp hj]
      exact hv) (.set hn _)
  exact (h1.trans h2).trans (addListener_stays h2.closed hv (l := .unit s.nextId) hn)

theorem createGlBaseTechnique_stays {u : ℕ} (hu : T u)
    (hn : s.nextId < (s.createGlBaseTechnique client u).nextId → T s.nextId) :
    Stays T client s (s.createGlBaseTechnique client u) := by
  unfold createGlBaseTechnique at hn ⊢
  split
  · next hc =>
    rw [if_pos hc] at hn
    have hn := hn (Nat.lt_succ_self _)
    have h1 := newResource_stays hs .baseTechnique hn
    have h2 := techniques_stays h1.closed (k := s.baseTechniques.set s.nextId { owner := u })
      (hs.techniques.set fun _ j hj => by
        rw [List.mem_singleton.mp hj]
        exact hu) (.set hn _)
    refine (h1.trans h2).trans (units_stays h2.closed (k := s.renderingUnits.modify u fun x =>
      { x with listeners := x.listeners ++ [s.nextId] })
      (hs.units.modify fun y _ hy _ j hj => ?_) (.modify hu _))
    simp only [RenderingUnit.refs, ← List.append_assoc, ← List.cons_append, List.mem_append,
      List.mem_singleton] at hj
    rcases hj with hj | rfl
    · exact hy hu j (by simpa [RenderingUnit.refs, or_assoc] using hj)
    · exact hn
  · exact error_stays hs rfl

theorem configure_stays {b : ℕ} (hb : T b) (halfSize : WlArray) :
    Stays T client s (s.configure b halfSize) := by
  unfold configure
  split
  · exact postError_stays hs hb ..
  · next bytes _ =>
    have h1 := numbers_stays hs (s.serial + 1) s.nextId
    have h2 := apps_stays h1.closed (k := s.boundedApps.modify b fun x =>
      { x with configureList := x.configureList ++ [(s.serial + 1, bytes)] })
      (hs.apps.modify fun x _ hx => hx) (.modify hb _)
    exact (h1.trans h2).trans (event_stays h2.closed (e := .boundedConfigure b bytes (s.serial + 1))
      hb)

theorem createBounded_stays {v : ℕ} (hv : T v) (hn : T s.nextId) (halfSize : WlArray) :
    Stays T client s (s.createBounded client v halfSize) := by
  have h1 := newResource_stays hs .bounded hn
  have h2 := apps_stays h1.closed (k := s.boundedApps.set s.nextId { virtualObject := v })
    (hs.apps.set fun _ j hj => by
      rw [List.mem_singleton.mp hj]
      exact hv) (.set hn _)
  have h3 := addListener_stays h2.closed hv (l := .app s.nextId) hn
  have h4 := configure_stays h3.closed hn halfSize
  refine (((h1.trans h2).trans h3).trans h4).trans
    (objects_stays h4.closed (h4.closed.objects.modify fun x _ hx _ j hj => ?_) (.modify hv _))
  simp only [VirtualObject.refs, Option.toList_some, List.mem_append, List.mem_singleton] at hj
  rcases hj with hj | rfl
  · exact hx hv j (by simp only [VirtualObject.refs, List.mem_append, hj, true_or])
  · exact hn

theorem setBounded_stays {b : ℕ} (hb : T b) {x : BoundedApp} (hx : s.boundedApps b = some x)
    (p : BoundedState) :
    Stays T client s { s with boundedApps := s.boundedApps.set b { x with pending := p } } :=
  apps_stays hs (hs.apps.set (hs.apps b x hx)) (.set hb _)

theorem ackConfigure_stays {b : ℕ} (hb : T b) (serial : ℕ) :
    Stays T client s (s.ackConfigure b serial) := by
  unfold ackConfigure
  split
  · exact crash_stays hs _
  · next x hx =>
    split
    · exact .refl hs
    · exact setBounded_stays hs hb hx _

theorem setRegion_stays {b : ℕ} (hb : T b) (region : ℕ) :
    Stays T client s (s.setRegion b region) := by
  unfold setRegion
  split
  · exact crash_stays hs _
  · next x hx =>
    split
    · exact .refl hs
    · exact setBounded_stays hs hb hx _

theorem addCuboid_stays {r : ℕ} (hr : T r) (halfSize center quat : WlArray) :
    Stays T client s (s.addCuboid r halfSize center quat) := by
  unfold addCuboid
  split
  · exact postError_stays hs hr ..
  · exact postError_stays hs hr ..
  · exact postError_stays hs hr ..
  · exact regions_stays hs (.modify hr _)

theorem techniqueRequest_stays {t : ℕ} (ht : T t) {r : TechniqueRequest}
    (hr : ∀ i ∈ r.refs, T i) : Stays T client s (s.techniqueRequest t r) := by
  refine techniques_stays hs (hs.techniques.modify fun z _ hz _ i hi => ?_) (.modify ht _)
  simp only [GlBaseTechnique.refs, GlBaseTechnique.request, List.mem_cons, List.mem_append] at hi
  rcases hi with hi | hi | hi
  · exact hz ht i (by simp [GlBaseTechnique.refs, hi])
  · rcases TechniqueState.refs_request hi with hi | hi
    · exact hz ht i (by simp [GlBaseTechnique.refs, hi])
    · exact hr i hi
  · exact hz ht i (by simp [GlBaseTechnique.refs, hi])

theorem uniformVector_stays {t : ℕ} (ht : T t) (type : UniformType) (location : UInt32)
    (name : Option String) (size count : UInt32) (value : WlArray) :
    Stays T client s (s.uniformVector t type location name size count value) := by
  unfold uniformVector
  split
  · exact postError_stays hs ht ..
  · split
    · exact postError_stays hs ht ..
    · exact techniqueRequest_stays hs ht fun _ h => by cases h

theorem uniformMatrix_stays {t : ℕ} (ht : T t) (location : UInt32) (name : Option String)
    (col row count transpose : UInt32) (value : WlArray) :
    Stays T client s (s.uniformMatrix t location name col row count transpose value) := by
  unfold uniformMatrix
  split
  · exact postError_stays hs ht ..
  · split
    · exact postError_stays hs ht ..
    · split
      · exact postError_stays hs ht ..
      · exact techniqueRequest_stays hs ht fun _ h => by cases h

theorem drawElements_stays {t b : ℕ} (ht : T t) (hb : T b) (mode count type : UInt32)
    (offset : WlArray) : Stays T client s (s.drawElements t mode count type offset b) := by
  unfold drawElements
  split
  · exact postError_stays hs ht ..
  · exact techniqueRequest_stays hs ht fun i hi => by
      rw [List.mem_singleton.mp hi]
      exact hb

theorem withTechnique_stays {t : ℕ} {k : Scene → Scene} (hk : Stays T client s (k s)) :
    Stays T client s (s.withTechnique t k) := by
  unfold withTechnique
  split
  · exact hk
  · exact .refl hs

theorem setParamater_stays {p : ℕ} (hp : T p) (type : ParamType) (pname : UInt32)
    (arg : SamplerArg) (garbage : Bytes) :
    Stays T client s (s.setParamater p type pname arg garbage) := by
  unfold setParamater
  split
  · exact postError_stays hs hp ..
  · split
    · exact postError_stays hs hp ..
    · exact samplers_stays hs (.modify hp _)

theorem parameterF_stays {p : ℕ} (hp : T p) (pname : UInt32) (param : WlArray) :
    Stays T client s (s.parameterF p pname param) := by
  unfold parameterF
  split
  · exact postError_stays hs hp ..
  · exact setParamater_stays hs hp ..

/-- An attribute is changed to refer to the buffers it did, or to those of the client. -/
theorem updatePendingAttribute_stays {va : ℕ} (hva : T va) (index : UInt32)
    {f : VertexAttribute → VertexAttribute}
    (hf : ∀ a b, (f a).glBuffer = some b → a.glBuffer = some b ∨ T b) :
    Stays T client s
      { s with
        glVertexArrays := s.glVertexArrays.modify va fun x =>
          x.updatePendingAttribute index f } := by
  refine vertexArrays_stays hs (hs.vertexArrays.modify fun x _ hx _ i hi => ?_) (.modify hva _)
  rcases List.mem_append.mp hi with hi | hi
  · rcases GlVertexArray.refs_updatePendingAttribute hf hi with hi | hi
    · exact hx hva i (List.mem_append_left _ hi)
    · exact hi
  · exact hx hva i (List.mem_append_right _ hi)

theorem vertexAttribPointer_stays {va b : ℕ} (hva : T va) (hb : T b) (index : UInt32)
    (size : Int32) (type normalized : UInt32) (stride : Int32) (offset : WlArray) :
    Stays T client s (s.vertexAttribPointer va index size type normalized stride offset b) := by
  unfold vertexAttribPointer
  split
  · exact postError_stays hs hva ..
  · refine updatePendingAttribute_stays hs hva index fun a c h => .inr ?_
    cases h
    exact hb

/-- The handlers of all requests but `commit` stay with the client. -/
theorem handle_stays {r : Request} (hT : ∀ i ∈ r.objects.map Prod.fst, T i)
    (hn : s.nextId < (s.handle client r).nextId → T s.nextId) (hc : ∀ v, r ≠ .commit v) :
    Stays T client s (s.handle client r) := by
  have hT {i : ℕ} {k : Interface} (h : (i, k) ∈ r.objects) : T i :=
    hT i (List.mem_map_of_mem (f := Prod.fst) h)
  have hn' (h : (s.handle client r).nextId = s.nextId + 1) : T s.nextId :=
    hn (h ▸ Nat.lt_succ_self _)
  cases r with
  | commit v => exact absurd rfl (hc v)
  | createVirtualObject =>
    have h1 := newResource_stays hs .virtualObject (hn' rfl)
    exact h1.trans (objects_stays h1.closed (hs.objects.set (inside_nil _)) (.set (hn' rfl) _))
  | createRegion =>
    have h1 := newResource_stays hs .region (hn' rfl)
    exact h1.trans (regions_stays h1.closed (.set (hn' rfl) _))
  | createRenderingUnit v => exact createRenderingUnit_stays hs (hT List.mem_cons_self) (hn' rfl)
  | createGlBuffer g =>
    have h1 := newResource_stays hs .glBuffer (hn' rfl)
    exact h1.trans (buffers_stays h1.closed (hs.buffers.set (inside_nil _)) (.set (hn' rfl) _))
  | createGlShader b type =>
    have h1 := newResource_stays hs .glShader (hn' rfl)
    refine h1.trans (shaders_stays h1.closed (hs.shaders.set fun _ j hj => ?_) (.set (hn' rfl) _))
    rw [List.mem_singleton.mp hj]
    exact hT List.mem_cons_self
  | createGlProgram =>
    have h1 := newResource_stays hs .glProgram (hn' rfl)
    exact h1.trans (programs_stays h1.closed (hs.programs.set (inside_nil _)) (.set (hn' rfl) _))
  | createGlTexture g =>
    have h1 := newResource_stays hs .glTexture (hn' rfl)
    exact h1.trans (textures_stays h1.closed (hs.textures.set (inside_nil _)) (.set (hn' rfl) _))
  | createGlSampler =>
    have h1 := newResource_stays hs .glSampler (hn' rfl)
    exact h1.trans (samplers_stays h1.closed (.set (hn' rfl) _))
  | createGlVertexArray =>
    have h1 := newResource_stays hs .glVertexArray (hn' rfl)
    exact h1.trans
      (vertexArrays_stays h1.closed (hs.vertexArrays.set (inside_nil _)) (.set (hn' rfl) _))
  | createGlBaseTechnique u => exact createGlBaseTechnique_stays hs (hT List.mem_cons_self) hn
  | createBuffer data =>
    have h1 := newResource_stays hs .shmBuffer (hn' rfl)
    exact h1.trans (shmBuffers_stays h1.closed (.set (hn' rfl) _))
  | writeBuffer b data => exact shmBuffers_stays hs (.modify (hT List.mem_cons_self) _)
  | frame v =>
    have h1 := numbers_stays hs s.serial (s.nextId + 1)
    exact h1.trans (objects_stays h1.closed (hs.objects.modify fun _ _ h => h)
      (.modify (hT List.mem_cons_self) _))
  | getBounded v halfSize =>
    exact createBounded_stays hs (hT List.mem_cons_self) (hn' (configure_nextId ..)) halfSize
  | ackConfigure b serial => exact ackConfigure_stays hs (hT List.mem_cons_self) serial
  | setRegion b region => exact setRegion_stays hs (hT List.mem_cons_self) region
  | addCuboid region halfSize center quat =>
    exact addCuboid_stays hs (hT List.mem_cons_self) halfSize center quat
  | bindProgram t p | bindVertexArray t va =>
    refine techniqueRequest_stays hs (hT List.mem_cons_self) fun i hi => ?_
    rw [List.mem_singleton.mp hi]
    exact hT (List.mem_cons_of_mem _ List.mem_cons_self)
  | bindTexture t binding name texture target sampler =>
    refine techniqueRequest_stays hs (hT List.mem_cons_self) fun i hi => ?_
    rcases List.mem_pair.mp hi with rfl | rfl
    · exact hT (List.mem_cons_of_mem _ List.mem_cons_self)
    · exact hT (List.mem_cons_of_mem _ (List.mem_cons_of_mem _ List.mem_cons_self))
  | uniformVector t =>
    apply withTechnique_stays hs
    exact uniformVector_stays hs (hT List.mem_cons_self) ..
  | uniformMatrix t =>
    apply withTechnique_stays hs
    exact uniformMatrix_stays hs (hT List.mem_cons_self) ..
  | drawArrays t mode first count =>
    exact techniqueRequest_stays hs (hT List.mem_cons_self) fun _ h => by cases h
  | drawElements t mode count type offset b =>
    apply withTechnique_stays hs
    exact drawElements_stays hs (hT List.mem_cons_self)
      (hT (List.mem_cons_of_mem _ List.mem_cons_self)) ..
  | bufferData b target data usage =>
    refine buffers_stays hs (hs.buffers.modify fun x _ _ _ j hj => ?_)
      (.modify (hT List.mem_cons_self) _)
    rw [List.mem_singleton.mp hj]
    exact hT (List.mem_cons_of_mem _ List.mem_cons_self)
  | image2d x image data =>
    refine textures_stays hs (hs.textures.modify fun x _ _ _ j hj => ?_)
      (.modify (hT List.mem_cons_self) _)
    rw [List.mem_singleton.mp hj]
    exact hT (List.mem_cons_of_mem _ List.mem_cons_self)
  | generateMipmap x target =>
    exact textures_stays hs (hs.textures.modify fun _ _ h => h) (.modify (hT List.mem_cons_self) _)
  | parameterF p pname param => exact parameterF_stays hs (hT List.mem_cons_self) pname param
  | parameterI p pname param => exact setParamater_stays hs (hT List.mem_cons_self) ..
  | parameterV p type pname params garbage =>
    exact setParamater_stays hs (hT List.mem_cons_self) ..
  | attachShader p h =>
    refine programs_stays hs (hs.programs.modify fun x _ hx hp j hj => ?_)
      (.modify (hT List.mem_cons_self) _)
    simp only [GlProgram.refs, GlProgram.attachShader, List.mem_append, List.mem_singleton] at hj
    rcases hj with (hj | rfl) | hj
    · exact hx hp j (List.mem_append_left _ hj)
    · exact hT (List.mem_cons_of_mem _ List.mem_cons_self)
    · exact hx hp j (List.mem_append_right _ hj)
  | link p =>
    exact programs_stays hs (hs.programs.modify fun _ _ h => h) (.modify (hT List.mem_cons_self) _)
  | setAttribEnability va index enabled =>
    exact updatePendingAttribute_stays hs (hT List.mem_cons_self) index fun _ _ h => .inl h
  | vertexAttribPointer va index size type normalized stride offset b =>
    exact vertexAttribPointer_stays hs (hT List.mem_cons_self)
      (hT (List.mem_cons_of_mem _ List.mem_cons_self)) ..

end Requests

section Destroy
variable {T : ℕ → Prop} {client : ℕ} {s : Scene}

/-- Less is left of a virtual object. -/
theorem modifyVirtualObject_stays (hs : Closed T client s) {v : ℕ} (hv : T v)
    {g : VirtualObject → VirtualObject} (hg : ∀ x, ∀ i ∈ (g x).refs, i ∈ x.refs) :
    Stays T client s { s with virtualObjects := s.virtualObjects.modify v g } :=
  objects_stays hs (hs.objects.modify fun x _ hx => hx.mono (hg x)) (.modify hv _)

theorem deleteTechnique_stays (hs : Closed T client s) {t : ℕ} (ht : T t) :
    Stays T client s (s.deleteTechnique t) := by
  unfold deleteTechnique
  split
  · exact crash_stays hs _
  · next z hz =>
    have ho : T z.owner := hs.techniques t z hz ht _ List.mem_cons_self
    have h1 := setTechnique_stays hs ho (t := none) fun i hi => by cases hi
    have h2 := techniques_stays h1.closed h1.closed.techniques.erase (.erase ht)
    refine (h1.trans h2).trans (units_stays h2.closed
      (h2.closed.units.modify fun y _ hy => hy.mono fun j hj => ?_) (.modify ho _))
    simp only [RenderingUnit.refs, List.mem_cons, List.mem_append, List.mem_filter] at hj ⊢
    exact hj.imp_right (Or.imp_right And.left)

theorem removeRenderingUnit_stays (hs : Closed T client s) {v : ℕ} (hv : T v) (u : ℕ) :
    Stays T client s (s.removeRenderingUnit v u) := by
  unfold removeRenderingUnit
  split
  · exact crash_stays hs _
  · next x hx =>
    split
    · exact .refl hs
    · refine objects_stays hs (hs.objects.set ((hs.objects v x hx).mono fun j hj => ?_)) (.set hv _)
      simp only [VirtualObject.refs, List.mem_append, List.mem_filter] at hj ⊢
      exact hj.imp_left (Or.imp_right And.left)

/-- A listener of a virtual object goes. -/
theorem dropListener_stays (hs : Closed T client s) {v : ℕ} (hv : T v) (l : CommitListener) :
    Stays T client s
      { s with
        virtualObjects := s.virtualObjects.modify v fun x =>
          { x with listeners := x.listeners.filter (· ≠ l) } } := by
  refine modifyVirtualObject_stays hs hv fun x i hi => ?_
  simp only [VirtualObject.refs, List.mem_append, List.mem_map, List.mem_filter] at hi ⊢
  refine hi.imp_left (Or.imp_left fun h => ?_)
  obtain ⟨m, hm, he⟩ := h
  exact ⟨m, hm.1, he⟩

theorem deleteRenderingUnit_stays (hs : Closed T client s) {u : ℕ} (hu : T u) :
    Stays T client s (s.deleteRenderingUnit u) := by
  unfold deleteRenderingUnit
  split
  · exact crash_stays hs _
  · next y hy =>
    have hr := hs.units u y hy hu
    have ho : T y.owner := hr _ List.mem_cons_self
    have h1 := removeRenderingUnit_stays hs ho u
    have h2 : Stays T client (s.removeRenderingUnit y.owner u)
        ((s.removeRenderingUnit y.owner u).deleteTechnique? y.technique) := by
      cases ht : y.technique with
      | none => exact .refl h1.closed
      | some t => exact deleteTechnique_stays h1.closed (hr t (by simp [RenderingUnit.refs, ht]))
    have h3 := units_stays h2.closed h2.closed.units.erase (.erase hu)
    exact ((h1.trans h2).trans h3).trans (dropListener_stays h3.closed ho (.unit u))

theorem deleteBoundedApp_stays (hs : Closed T client s) {b : ℕ} (hb : T b) :
    Stays T client s (s.deleteBoundedApp b) := by
  unfold deleteBoundedApp
  split
  · exact crash_stays hs _
  · next x hx =>
    have hv : T x.virtualObject := hs.apps b x hx hb _ List.mem_cons_self
    have h1 := apps_stays hs hs.apps.erase (.erase hb)
    exact h1.trans (dropListener_stays h1.closed hv (.app b))

theorem deleteVirtualObject_stays (hs : Closed T client s) {v : ℕ} (hv : T v) :
    Stays T client s (s.deleteVirtualObject v) := by
  unfold deleteVirtualObject
  split
  · exact crash_stays hs _
  · next x hx =>
    have hr := hs.objects v x hx hv
    have h1 : Stays T client s (s.markDestroying v) :=
      modifyVirtualObject_stays hs hv fun _ _ h => h
    have h2 := loop_stays h1.closed (f := deleteRenderingUnit) (l := x.renderingUnitList)
      fun s hs u hu => deleteRenderingUnit_stays hs (hr u (by simp [VirtualObject.refs, hu]))
    have h3 : Stays T client (x.renderingUnitList.foldl deleteRenderingUnit (s.markDestroying v))
        ((x.renderingUnitList.foldl deleteRenderingUnit (s.markDestroying v)).deleteBoundedApp?
          x.app) := by
      cases hb : x.app with
      | none => exact .refl h2.closed
      | some b =>
        exact deleteBoundedApp_stays h2.closed (hr b (by simp [VirtualObject.refs, hb]))
    exact ((h1.trans h2).trans h3).trans (objects_stays h3.closed h3.closed.objects.erase (.erase hv))

theorem deleteObject_stays (hs : Closed T client s) {r : ℕ} (hr : T r) (i : Interface) :
    Stays T client s (s.deleteObject r i) := by
  cases i with
  | virtualObject => exact deleteVirtualObject_stays hs hr
  | bounded =>
    simp only [deleteObject]
    split
    · exact deleteBoundedApp_stays hs hr
    · exact .refl hs
  | renderingUnit =>
    simp only [deleteObject]
    split
    · exact deleteRenderingUnit_stays hs hr
    · exact .refl hs
  | baseTechnique =>
    simp only [deleteObject]
    split
    · exact deleteTechnique_stays hs hr
    · exact .refl hs
  | glProgram => exact programs_stays hs hs.programs.erase (.erase hr)
  | glShader => exact shaders_stays hs hs.shaders.erase (.erase hr)
  | glVertexArray => exact vertexArrays_stays hs hs.vertexArrays.erase (.erase hr)
  | glBuffer => exact buffers_stays hs hs.buffers.erase (.erase hr)
  | glTexture => exact textures_stays hs hs.textures.erase (.erase hr)
  | glSampler => exact samplers_stays hs (.erase hr)
  | region => exact regions_stays hs (.erase hr)
  | shmBuffer => exact shmBuffers_stays hs (.erase hr)

theorem destroyResource_stays (hs : Closed T client s) {r : ℕ} (hr : T r) :
    Stays T client s (s.destroyResource r) := by
  unfold destroyResource
  split
  · exact .refl hs
  · next x _ =>
    have h1 := deleteObject_stays hs hr x.interface
    exact ⟨{ h1.closed with resources := hs.resources.erase },
      { h1.confined with resources := .erase hr }⟩

end Destroy

/-- The client an action is done for, where `f` says whose each address is. The drag of a bounded
app is done for the client of the app. -/
def Action.behalf (f : ℕ → ℕ) : Action → Option ℕ
  | .request client _ | .destroy client _ => some client
  | .moveApp b _ _ => some (f b)
  | _ => none

section Steps
variable {T : ℕ → Prop} {f : ℕ → ℕ} {client : ℕ} {s s' : Scene}

theorem speaks_of_remote (h : s'.remote = s.remote) : Speaks T s s' := ⟨[], by simp [h], by simp⟩

theorem commitVirtualObject_stays (ht : Tree s) (hs : Closed T client s) {v : ℕ} (hv : T v) :
    Stays T client s (s.commitVirtualObject v) ∧ Speaks T s (s.commitVirtualObject v) := by
  have h1 := commitState_stays hs hv
  have hu := syncIfSession_voices hv h1.closed.span
  have hg := ((commitState_commits_true s v).tree ht).registered
  have hc := (syncIfSession_steps hg v).closed h1.closed
  refine ⟨⟨hc, h1.confined.trans (Voices.confined hu)⟩, ?_⟩
  obtain ⟨l, hl, hn⟩ := Voices.speaks hu
  rw [(commitState_quiet s v).remote] at hl
  exact ⟨l, hl, hn⟩

/-- The objects of each client are closed, where `f` says whose each address is. -/
def Apart (f : ℕ → ℕ) (s : Scene) : Prop := ∀ client, Closed (fun i => f i = client) client s

theorem Apart.owner (hs : Apart f s) {i : ℕ} {r : Resource} (hr : s.resources i = some r) :
    f i = r.client := ((hs (f i)).resources i r hr rfl).symm

/-- What is done for one client stays with it. -/
theorem act_stays (ht : Tree s) (hs : Apart f s) {a : Action} (ha : a.behalf f = some client)
    (hg : ∀ c, a.client? = some c → Gives f c s.nextId (s.act a).nextId) :
    Stays (fun i => f i = client) client s (s.act a) ∧
      Speaks (fun i => f i = client) s (s.act a) := by
  have same : Stays (fun i => f i = client) client s s ∧ Speaks (fun i => f i = client) s s :=
    ⟨.refl (hs client), speaks_of_remote rfl⟩
  cases a with
  | request c r =>
    obtain rfl : c = client := Option.some.inj ha
    have hg := hg c rfl
    simp only [act] at hg ⊢
    split
    · next hr =>
      rw [if_pos hr] at hg
      have hT (i : ℕ) (hi : i ∈ r.objects.map Prod.fst) : f i = c := by
        obtain ⟨⟨j, k⟩, hj, rfl⟩ := List.mem_map.mp hi
        exact Apart.owner hs (admits_object hr hj)
      by_cases hc : ∃ v, r = .commit v
      · obtain ⟨v, rfl⟩ := hc
        exact commitVirtualObject_stays ht (hs c) (hT v (by simp [Request.objects]))
      · have hc' : ∀ v, r ≠ .commit v := fun v h => hc ⟨v, h⟩
        refine ⟨handle_stays (hs c) hT (hg _ (Nat.le_refl _)) hc', speaks_of_remote ?_⟩
        by_cases hf : ∃ v, r = .frame v
        · obtain ⟨v, rfl⟩ := hf
          rfl
        · exact (handle_still ht c hc' fun v h => hf ⟨v, h⟩).toQuiet.remote
    · exact same
  | destroy c r =>
    obtain rfl : c = client := Option.some.inj ha
    simp only [act]
    split
    · next hr =>
      obtain ⟨x, hx, hxc⟩ := Option.any_eq_true _ _ |>.mp hr
      have hT : f r = c := (Apart.owner hs hx).trans (by simpa using hxc)
      refine ⟨destroyResource_stays (hs c) hT, speaks_of_remote ?_⟩
      rcases destroyResource_cases ht r with ⟨-, h⟩ | ⟨-, h⟩
      · exact h.toQuiet.remote
      · exact h.toQuiet.remote
    · exact same
  | moveApp b polar azimuthal =>
    obtain rfl : f b = client := Option.some.inj ha
    simp only [act, moveApp]
    split
    · exact same
    · next x hx =>
      have hr := (hs (f b)).apps b x hx
      have h1 := apps_stays (hs (f b)) (k := s.boundedApps.set b
        { x with polar := x.polar + polar, azimuthal := x.azimuthal + azimuthal })
        ((hs (f b)).apps.set hr) (.set (P := fun i => f i = f b) rfl _)
      have ht1 := ht.same (turnApp_same s b x polar azimuthal)
      obtain ⟨h2, l, hl⟩ := commitVirtualObject_stays ht1 h1.closed
        (hr rfl _ List.mem_cons_self)
      exact ⟨h1.trans h2, l, hl⟩
  | _ => cases ha

/-- What is done for one client leaves the objects of another closed. -/
theorem Confined.closed {T' : ℕ → Prop} {c : ℕ} (h : Confined T client s s')
    (hd : ∀ i, T' i → ¬ T i) (hs : Closed T' c s) : Closed T' c s' := by
  have keep {α : Type} {k k' : Arena α} (ho : Arena.SameOff T k k') {g : α → List ℕ}
      (hk : k.All fun i x => Inside T' i (g x)) : k'.All fun i x => Inside T' i (g x) :=
    fun i x hx hi => hk i x (ho i (hd i hi) ▸ hx) hi
  exact
    { resources := fun i r hr hi => hs.resources i r (h.resources i (hd i hi) ▸ hr) hi
      objects := keep h.objects hs.objects
      apps := keep h.apps hs.apps
      units := keep h.units hs.units
      techniques := keep h.techniques hs.techniques
      programs := keep h.programs hs.programs
      shaders := keep h.shaders hs.shaders
      vertexArrays := keep h.vertexArrays hs.vertexArrays
      buffers := keep h.buffers hs.buffers
      textures := keep h.textures hs.textures }

theorem act_apart (ht : Tree s) (hs : Apart f s) (a : Action)
    (hg : ∀ c, a.client? = some c → Gives f c s.nextId (s.act a).nextId) :
    Apart f (s.act a) := by
  cases hb : a.behalf f with
  | some client =>
    have h1 := (act_stays ht hs hb hg).1
    intro c
    by_cases hc : c = client
    · rw [hc]
      exact h1.closed
    · exact h1.confined.closed (fun i hi hi' => hc (hi.symm.trans hi')) (hs c)
  | none =>
    intro c
    have hs := hs c
    cases a with
    | request | destroy | moveApp => cases hb
    | peerDiscover connected =>
      rcases peerDiscover_cases ht.registered connected with ⟨h, -⟩ | ⟨-, h⟩
      · simp only [act, h]
        exact hs
      · exact h.closed { hs with }
    | sessionDisconnect =>
      simp only [act, sessionDisconnect]
      split
      · exact
          { hs with
            objects := hs.objects.mapAll fun _ _ h => h
            units := hs.units.mapAll fun _ _ h => h
            techniques := hs.techniques.mapAll fun _ _ h => h
            programs := hs.programs.mapAll fun _ _ h => h
            shaders := hs.shaders.mapAll fun _ _ h => h
            vertexArrays := hs.vertexArrays.mapAll fun _ _ h => h
            buffers := hs.buffers.mapAll fun _ _ h => h
            textures := hs.textures.mapAll fun _ _ h => h }
      · exact hs
    | frameTimer busyness =>
      simp only [act, frameTimer]
      split
      · exact { hs with objects := hs.objects.mapAll fun _ _ h => h }
      · exact hs

theorem run_apart {as : List Action} (ha : Allots f as) : Apart f (run as) :=
  run_of_allots (fun _ => by constructor <;> intro i x hx <;> cases hx)
    (fun _ a ht hs hg => act_apart ht hs a hg) ha

/-- In every run the clients are apart: `f` gives each address to the client that made the object
there, and what is done for a client (its requests, the destruction of its resources, a drag of its
bounded app) changes no resource, object or memory of another client, posts errors and sends events
to that client only, and makes only calls on remote objects of its own. -/
theorem isolation_throughout (as : List Action) :
    ∃ f, Allots f as ∧ Run.Each step (fun s a =>
      (∀ i r, s.resources i = some r → f i = r.client) ∧
        ∀ client, a.behalf f = some client →
          Confined (fun i => f i = client) client s (s.step a) ∧
            Speaks (fun i => f i = client) s (s.step a)) init as := by
  obtain ⟨f, hf⟩ := exists_allots as
  refine ⟨f, hf, fun pre a hp => ?_⟩
  have hs := run_apart fun p b client hb =>
    hf p b client (hb.trans ((List.prefix_append pre [a]).trans hp))
  refine ⟨fun i r hr => Apart.owner hs hr, fun client hc => ?_⟩
  have hg := fun c => hf pre a c hp
  rw [run_concat] at hg
  change Confined _ _ (run pre) ((run pre).step a) ∧ Speaks _ (run pre) ((run pre).step a)
  unfold step at hg ⊢
  split
  · exact ⟨.refl _ _ _, speaks_of_remote rfl⟩
  · next h =>
    rw [if_neg h] at hg
    obtain ⟨h1, h2⟩ := act_stays (run_tree pre) hs hc hg
    exact ⟨h1.confined, h2⟩

end Steps

end Scene
end Yaza
