import Yaza.Zwin.AppLink
import Yaza.Zwin.Samplers

/-! What a commit and a sync ask of the objects they come to. While every object they follow a raw
pointer to is alive, neither stops the program. -/
namespace Yaza
namespace Scene

/-- What raw pointers lead to is alive: owners, listeners, the app of an object, the buffer of a
shader, and the resource an error is posted to. -/
structure Founded (s : Scene) : Prop where
  objects : ∀ v x, s.virtualObjects v = some x → ∀ c ∈ x.listeners, (s.ownerOf c).isSome
  apps : ∀ v x b, s.virtualObjects v = some x → x.app = some b → (s.boundedApps b).isSome
  units : ∀ u y, s.renderingUnits u = some y → (s.virtualObjects y.owner).isSome ∧
    (s.resources u).isSome ∧ ∀ t ∈ y.listeners, (s.baseTechniques t).isSome
  techniques : ∀ t z, s.baseTechniques t = some z → (s.renderingUnits z.owner).isSome
  programs : ∀ p, (s.glPrograms p).isSome → (s.resources p).isSome
  sources : ∀ h x, s.glShaders h = some x → (s.shmBuffers x.buffer).isSome

/-- The parts of a scene that decide whether it is founded. -/
def footing (s : Scene) :=
  (s.virtualObjects.mapAll (fun x => (x.listeners, x.app)),
    s.boundedApps.mapAll BoundedApp.virtualObject,
    s.renderingUnits.mapAll (fun y => (y.owner, y.listeners)),
    s.baseTechniques.mapAll GlBaseTechnique.owner, s.glPrograms.mapAll (fun _ => ()),
    s.glShaders.mapAll GlShader.buffer, s.shmBuffers, s.resources)

section Founded
variable {s s' : Scene}

theorem Founded.congr (h : Founded s) (he : s'.footing = s.footing) : Founded s' := by
  simp only [footing, Prod.mk.injEq] at he
  obtain ⟨hv, hb, hu, ht, hp, hh, hm, hr⟩ := he
  have hv' := Arena.isSome_of_mapAll hv
  have hu' := Arena.isSome_of_mapAll hu
  have ho : s'.ownerOf = s.ownerOf := by
    have hu1 := congrArg (fun k : Arena (ℕ × List ℕ) => k.mapAll Prod.fst) hu
    simp only [Arena.mapAll_mapAll] at hu1
    exact ownerOf_congr hu1 hb
  refine ⟨fun v x' hx' c hc => ?_, fun v x' b hx' hb' => ?_, fun u y' hy' => ?_,
    fun t z' hz' => ?_, fun p hp' => ?_, fun i x' hx' => ?_⟩
  · obtain ⟨x, hx, he⟩ := Arena.of_mapAll hv hx'
    obtain ⟨hl, -⟩ := Prod.mk.inj he
    rw [ho]
    exact h.objects v x hx c (hl ▸ hc)
  · obtain ⟨x, hx, he⟩ := Arena.of_mapAll hv hx'
    rw [Arena.isSome_of_mapAll hb]
    exact h.apps v x b hx ((congrArg Prod.snd he).trans hb')
  · obtain ⟨y, hy, he⟩ := Arena.of_mapAll hu hy'
    obtain ⟨ho, hl⟩ := Prod.mk.inj he
    obtain ⟨h1, h2, h3⟩ := h.units u y hy
    refine ⟨?_, hr ▸ h2, fun t ht' => ?_⟩
    · rw [hv', ← ho]
      exact h1
    · rw [Arena.isSome_of_mapAll ht]
      exact h3 t (hl ▸ ht')
  · obtain ⟨z, hz, he⟩ := Arena.of_mapAll ht hz'
    rw [hu', ← he]
    exact h.techniques t z hz
  · rw [hr]
    exact h.programs p (by rwa [Arena.isSome_of_mapAll hp] at hp')
  · obtain ⟨x, hx, he⟩ := Arena.of_mapAll hh hx'
    rw [hm, ← he]
    exact h.sources i x hx

theorem footing_of_skeleton (h : s'.skeleton = s.skeleton) : s'.footing = s.footing := by
  have hv : (s'.skeleton.virtualObjects.mapAll fun x => (x.listeners, x.app)) =
      s.skeleton.virtualObjects.mapAll fun x => (x.listeners, x.app) := by rw [h]
  have hb : s'.skeleton.boundedApps.mapAll BoundedApp.virtualObject =
      s.skeleton.boundedApps.mapAll BoundedApp.virtualObject := by rw [h]
  have hu : (s'.skeleton.renderingUnits.mapAll fun y => (y.owner, y.listeners)) =
      s.skeleton.renderingUnits.mapAll fun y => (y.owner, y.listeners) := by rw [h]
  have ht : s'.skeleton.baseTechniques.mapAll GlBaseTechnique.owner =
      s.skeleton.baseTechniques.mapAll GlBaseTechnique.owner := by rw [h]
  have hp : (s'.skeleton.glPrograms.mapAll fun _ => ()) =
      s.skeleton.glPrograms.mapAll fun _ => () := by rw [h]
  have hh : s'.skeleton.glShaders.mapAll GlShader.buffer =
      s.skeleton.glShaders.mapAll GlShader.buffer := by rw [h]
  simp only [skeleton, Arena.mapAll_mapAll] at hv hb hu ht hp hh
  simp only [footing, Prod.mk.injEq]
  exact ⟨hv, hb, hu, ht, hp, hh, shmBuffers_of_skeleton h, resources_of_skeleton h⟩

theorem footing_of_content (h : s'.content = s.content) : s'.footing = s.footing := by
  have hv : (s'.content.virtualObjects.mapAll fun x => (x.listeners, x.app)) =
      s.content.virtualObjects.mapAll fun x => (x.listeners, x.app) := by rw [h]
  have hu : (s'.content.renderingUnits.mapAll fun y => (y.owner, y.listeners)) =
      s.content.renderingUnits.mapAll fun y => (y.owner, y.listeners) := by rw [h]
  have ht : s'.content.baseTechniques.mapAll GlBaseTechnique.owner =
      s.content.baseTechniques.mapAll GlBaseTechnique.owner := by rw [h]
  have hp : (s'.content.glPrograms.mapAll fun _ => ()) =
      s.content.glPrograms.mapAll fun _ => () := by rw [h]
  have hh : s'.content.glShaders.mapAll GlShader.buffer =
      s.content.glShaders.mapAll GlShader.buffer := by rw [h]
  simp only [content, Arena.mapAll_mapAll] at hv hu ht hp hh
  simp only [footing, Prod.mk.injEq]
  have hm : s'.content.shmBuffers = s.content.shmBuffers := by rw [h]
  have hr : s'.content.resources = s.content.resources := by rw [h]
  exact ⟨hv, by rw [boundedApps_of_content h], hu, ht, hp, hh, hm, hr⟩

end Founded

section Commit
variable {s : Scene}

theorem postError_fault {i : ℕ} (hi : (s.resources i).isSome) (code : ErrorCode) (text : String) :
    (s.postError i code text).fault = s.fault := by
  obtain ⟨r, hr⟩ := Option.isSome_iff_exists.mp hi
  simp only [postError, hr]

theorem commitBuffer_fault {b : ℕ} (hb : (s.glBuffers b).isSome) :
    (s.commitBuffer b).fault = s.fault := by
  obtain ⟨x, hx⟩ := Option.isSome_iff_exists.mp hb
  simp only [commitBuffer, hx]
  split
  · rfl
  · split <;> rfl

theorem commitWeakBuffer_fault (b : Option ℕ) : (s.commitWeakBuffer b).fault = s.fault := by
  unfold commitWeakBuffer
  split
  · rfl
  · next i hi => exact commitBuffer_fault (Arena.lock_eq_some.mp hi).2

theorem commitTexture_fault {t : ℕ} (ht : (s.glTextures t).isSome) :
    (s.commitTexture t).fault = s.fault := by
  obtain ⟨x, hx⟩ := Option.isSome_iff_exists.mp ht
  simp only [commitTexture, commitMipmap, commitTextureData, hx]
  split
  · rfl
  · split <;> rfl

theorem commitSampler_fault {p : ℕ} (hp : (s.glSamplers p).isSome) :
    (s.commitSampler p).fault = s.fault := by
  obtain ⟨x, hx⟩ := Option.isSome_iff_exists.mp hp
  simp only [commitSampler, hx]

theorem commitWeakProgram_fault (hs : Founded s) (p : Option ℕ) :
    (s.commitWeakProgram p).fault = s.fault := by
  unfold commitWeakProgram
  split
  · rfl
  · next i hi =>
    have hi := (Arena.lock_eq_some.mp hi).2
    obtain ⟨x, hx⟩ := Option.isSome_iff_exists.mp hi
    simp only [commitProgram, hx, checkRelink]
    split
    · exact postError_fault (hs.programs i hi) _ _
    · rfl

theorem commitWeakVertexArray_fault (va : Option ℕ) :
    (s.commitWeakVertexArray va).fault = s.fault := by
  unfold commitWeakVertexArray
  split
  · rfl
  · next i hi =>
    obtain ⟨x, hx⟩ := Option.isSome_iff_exists.mp (Arena.lock_eq_some.mp hi).2
    simp only [commitVertexArray, hx]
    exact Path.foldl_const (g := Scene.fault) (P := fun _ _ => True)
      (fun s e _ => commitWeakBuffer_fault e.2.glBuffer) (fun _ _ _ _ h => h) fun _ _ => trivial

theorem commitBinding_fault {b : TextureBinding} (hb : s.bindingAlive b = true) :
    (s.commitBinding b).fault = s.fault := by
  obtain ⟨ht, hp⟩ := Bool.and_eq_true_iff.mp hb
  have h1 : (s.commitTexture b.texture).skeleton = s.skeleton :=
    Commits.skeleton (commitTexture_commits (T := fun _ => True) trivial)
  have hp' : ((s.commitTexture b.texture).glSamplers b.sampler).isSome := by
    rwa [Arena.isSome_of_mapAll (congrArg Scene.glSamplers h1)]
  exact (commitSampler_fault hp').trans (commitTexture_fault ht)

/-- The rounds of a loop of commits, each where its object is alive. -/
theorem foldl_fault {α : Type*} {f : Scene → α → Scene} {P : Scene → α → Prop} {l : List α}
    (hf : ∀ s a, P s a → (f s a).fault = s.fault)
    (hk : ∀ s a, (f s a).skeleton = s.skeleton)
    (hP : ∀ s s' a, s'.skeleton = s.skeleton → P s a → P s' a) (hl : ∀ a ∈ l, P s a) :
    (l.foldl f s).fault = s.fault :=
  congrArg Prod.fst <| Path.foldl_const (g := fun s => (s.fault, s.skeleton)) (P := P)
    (fun s a h => Prod.ext (hf s a h) (hk s a))
    (fun s s' a h => hP s s' a (congrArg Prod.snd h)) hl

theorem commitLeaves_fault (hs : Founded s) {x y : GlBaseTechnique}
    (hy : ∀ b ∈ y.current.textureBindings.list, s.bindingAlive b = true) :
    (s.commitLeaves x y).fault = s.fault := by
  have h1 : Commits (fun _ => True) s (s.commitWeakProgram y.current.program) :=
    commitWeakProgram_commits fun _ _ => trivial
  have h2 : Commits (fun _ => True) _
      ((s.commitWeakProgram y.current.program).commitWeakVertexArray y.current.vertexArray) :=
    commitWeakVertexArray_commits (scope_true _) fun _ _ => trivial
  have h3 : Commits (fun _ => True) _
      (((s.commitWeakProgram y.current.program).commitWeakVertexArray y.current.vertexArray)
        |>.commitWeakBuffer x.pending.drawApiArgs.committedBuffer) :=
    commitWeakBuffer_commits fun _ _ => trivial
  have hk := Commits.skeleton ((h1.trans h2).trans h3)
  have h4 := foldl_fault (f := commitBinding) (P := fun s b => s.bindingAlive b = true)
    (fun s b hb => commitBinding_fault hb)
    (fun s b => Commits.skeleton (commitBinding_commits (T := fun _ => True) trivial trivial))
    (fun s s' b h hb => by rwa [bindingAlive_of_skeleton h])
    (l := y.current.textureBindings.list) (fun b hb => by
      rw [bindingAlive_of_skeleton hk]
      exact hy b hb)
  refine h4.trans ((commitWeakBuffer_fault _).trans ?_)
  exact (commitWeakVertexArray_fault _).trans (commitWeakProgram_fault hs _)

theorem setTechnique_fault {u : ℕ} (hu : (s.renderingUnits u).isSome)
    (hr : (s.resources u).isSome) (technique : Option ℕ) :
    (s.setTechnique u technique).fault = s.fault := by
  obtain ⟨y, hy⟩ := Option.isSome_iff_exists.mp hu
  simp only [setTechnique, hy]
  split
  · exact postError_fault hr _ _
  · rfl

/-- The bindings of a technique that was committed are alive. -/
theorem commit_bindings (alive : TextureBinding → Bool) (z : GlBaseTechnique) :
    ∀ b ∈ (z.commit alive).current.textureBindings.list, alive b = true := by
  intro b hb
  simp only [GlBaseTechnique.commit, TechniqueState.commit, TextureBindingList.commit] at hb
  split at hb
  · exact (List.mem_filter.mp hb).2
  · exact (List.mem_filter.mp hb).2

theorem commitTechnique_fault (hs : Founded s) {t : ℕ} (ht : (s.baseTechniques t).isSome) :
    (s.commitTechnique t).fault = s.fault := by
  obtain ⟨z, hz⟩ := Option.isSome_iff_exists.mp ht
  simp only [commitTechnique, hz]
  have h1 : (s.registerTechnique t z).fault = s.fault := by
    unfold registerTechnique
    split
    · rfl
    · obtain ⟨y, hy⟩ := Option.isSome_iff_exists.mp (hs.techniques t z hz)
      exact setTechnique_fault (by simp [hy]) (hs.units z.owner y hy).2.1 _
  have k1 : (s.registerTechnique t z).skeleton = s.skeleton :=
    Commits.skeleton (registerTechnique_commits (T := fun _ => True) trivial hz)
  have k2 : ((s.registerTechnique t z).storeTechnique t (z.commit s.bindingAlive)).skeleton =
      s.skeleton := by
    have hz1 : (s.registerTechnique t z).baseTechniques t = some z := by
      rwa [registerTechnique_techniques]
    have he : boneTechnique (z.commit s.bindingAlive) = boneTechnique z := rfl
    exact (setTechnique_skeleton hz1 he).trans k1
  refine (commitLeaves_fault (hs.congr (footing_of_skeleton k2)) fun b hb => ?_).trans h1
  rw [bindingAlive_of_skeleton k2]
  exact commit_bindings s.bindingAlive z b hb

theorem commitUnit_fault (hs : Founded s) {u : ℕ} (hu : (s.renderingUnits u).isSome) :
    (s.commitUnit u).fault = s.fault := by
  obtain ⟨y, hy⟩ := Option.isSome_iff_exists.mp hu
  obtain ⟨hv, -, hl⟩ := hs.units u y hy
  obtain ⟨x, hx⟩ := Option.isSome_iff_exists.mp hv
  have h1 : (s.registerUnit u y).fault = s.fault := by
    unfold registerUnit
    split
    · rfl
    · simp only [addRenderingUnit, hx]
  have k1 : (s.registerUnit u y).skeleton = s.skeleton :=
    Commits.skeleton (registerUnit_commits (T := fun _ => True) trivial hy)
  simp only [commitUnit, hy]
  refine Eq.trans (foldl_fault (P := fun s t => Founded s ∧ (s.baseTechniques t).isSome)
    (fun s t h => commitTechnique_fault h.1 h.2)
    (fun s t => Commits.skeleton (commitTechnique_commits (scope_true s) trivial))
    (fun s s' t h hp => ⟨hp.1.congr (footing_of_skeleton h), ?_⟩) fun t ht => ?_) h1
  · rw [Arena.isSome_of_mapAll (congrArg Scene.baseTechniques h)]
    exact hp.2
  · refine ⟨hs.congr (footing_of_skeleton k1), ?_⟩
    rw [Arena.isSome_of_mapAll (congrArg Scene.baseTechniques k1)]
    exact hl t ht

theorem notifyCommitted_fault (hs : Founded s) {c : CommitListener} (hc : (s.ownerOf c).isSome) :
    (s.notifyCommitted c).fault = s.fault := by
  cases c with
  | unit u => exact commitUnit_fault hs (by simpa [ownerOf] using hc)
  | app b =>
    obtain ⟨x, hx⟩ := Option.isSome_iff_exists.mp (show (s.boundedApps b).isSome by
      simpa [ownerOf] using hc)
    simp only [notifyCommitted, commitApp, hx]

/-- `VirtualObject::commit` up to its `sync` ends with the fault it started with. -/
theorem commitState_fault (hs : Founded s) {v : ℕ} (hv : (s.virtualObjects v).isSome) :
    (s.commitState v).fault = s.fault := by
  obtain ⟨x, hx⟩ := Option.isSome_iff_exists.mp hv
  have k1 : { s with virtualObjects := s.virtualObjects.set v x.commit }.skeleton = s.skeleton :=
    setVirtualObject_skeleton hx rfl
  simp only [commitState, hx]
  refine Eq.trans (foldl_fault (s := { s with virtualObjects := s.virtualObjects.set v x.commit })
    (P := fun s c => Founded s ∧ (s.ownerOf c).isSome)
    (fun s c h => notifyCommitted_fault h.1 h.2)
    (fun s c => Commits.skeleton (notifyCommitted_commits (scope_true s) trivial))
    (fun s s' c h hp => ⟨hp.1.congr (footing_of_skeleton h), ?_⟩) fun c hc => ?_) rfl
  · have := sameWiring_of_skeleton h
    rw [show s'.ownerOf = s.ownerOf from congrArg Wiring.owner this.objects]
    exact hp.2
  · refine ⟨hs.congr (footing_of_skeleton k1), ?_⟩
    exact hs.objects v x hx c hc

end Commit

/-- Every parameter of a sampler holds the alternative that its type names. -/
def ParamsMatch (s : Scene) : Prop :=
  ∀ p x, s.glSamplers p = some x → ∀ e ∈ x.pending ++ x.current, paramMatches e.2 = true

section Sync
variable {s s' : Scene}

/-- The steps of a sync, of any technique and with any calls. -/
abbrev SyncsAny : Scene → Scene → Prop := Syncs (fun _ => True) (fun _ => True)

theorem ParamsMatch.of_content (h : ParamsMatch s) (hc : s'.content = s.content) :
    ParamsMatch s' := by
  intro p x' hx' e he
  obtain ⟨x, hx, hb⟩ := Arena.of_mapAll (congrArg Scene.glSamplers hc) hx'
  have hp : (bareSampler x).pending = (bareSampler x').pending := by rw [hb]
  have hq : (bareSampler x).current = (bareSampler x').current := by rw [hb]
  exact h p x hx e (hp ▸ hq ▸ he)

/-- What a sync starts from and keeps: a session, and nothing dangling. -/
structure Afloat (s : Scene) : Prop where
  running : s.fault = none
  session : s.remote.hasSession
  founded : Founded s
  params : ParamsMatch s
  slot : SlotOk s

/-- A sync that does not stop the program leaves what it started from. -/
theorem Afloat.next (h : Afloat s) (hs : SyncsAny s s') (hf : s'.fault = none) : Afloat s' where
  running := hf
  session := hs.hasSession.trans h.session
  founded := h.founded.congr (footing_of_content hs.content)
  params := h.params.of_content hs.content
  slot := slotOk_of_content hs.content h.slot

theorem withRemoteId_fault {x : Holder} (hf : s.fault = none) (hr : s.Ready x) {k : ℕ → Scene}
    (hk : ∀ i, (k i).fault = none) : (s.withRemoteId x k).fault = none := by
  obtain ⟨p, hp⟩ := Option.isSome_iff_exists.mp (hr hf)
  simp only [withRemoteId, hp]
  exact hk p.id

theorem ensureProxy_fault_none (h : Afloat s) (x : Holder) (mk : ℕ → Call) :
    (s.ensureProxy x mk).fault = none := by
  unfold ensureProxy
  split
  · exact h.running
  · split
    · next hn =>
      have hs := h.session
      simp_all [Remote.create, Remote.hasSession]
    · rw [giveProxy_fault]
      exact h.running

/-- The rounds of a loop of syncs, each where it finds what it needs. -/
theorem Afloat.foldl {α : Type*} {f : Scene → α → Scene} {Q : Scene → α → Prop} {l : List α}
    (hf : ∀ s a, Afloat s → Q s a → SyncsAny s (f s a) ∧ (f s a).fault = none)
    (hQ : ∀ s s' a, SyncsAny s s' → Q s a → Q s' a) (h : Afloat s) (hl : ∀ a ∈ l, Q s a) :
    (l.foldl f s).fault = none := by
  induction l generalizing s with
  | nil => exact h.running
  | cons a l ih =>
    obtain ⟨h1, h2⟩ := hf s a h (hl a List.mem_cons_self)
    exact ih (h.next h1 h2) fun b hb => hQ s _ b h1 (hl b (List.mem_cons_of_mem a hb))

theorem any_calls (c : Call) (_ : c.technique? = none) : True := trivial

theorem syncBuffer_fault (h : Afloat s) {b : ℕ} (hb : (s.glBuffers b).isSome) (force : Bool) :
    (s.syncBuffer b force).fault = none := by
  obtain ⟨x, hx⟩ := Option.isSome_iff_exists.mp hb
  have e1 := ensureProxy_fault_none h (.buffer b) .createGlBuffer
  have r1 : (s.ensureProxy (.buffer b) .createGlBuffer).Ready (.buffer b) :=
    ensureProxy_ready h.session (by simp [live, hx])
  simp only [syncBuffer, hx]
  split
  · exact e1
  · exact withRemoteId_fault e1 r1 fun _ => e1

theorem syncTexture_fault (h : Afloat s) {t : ℕ} (ht : (s.glTextures t).isSome) (force : Bool) :
    (s.syncTexture t force).fault = none := by
  obtain ⟨x, hx⟩ := Option.isSome_iff_exists.mp ht
  have e1 := ensureProxy_fault_none h (.texture t) .createGlTexture
  have r1 : (s.ensureProxy (.texture t) .createGlTexture).Ready (.texture t) :=
    ensureProxy_ready h.session (by simp [live, hx])
  have h2 := tellImage_syncs (A := fun _ => True) any_calls r1 x.current force
  have e2 : ((s.ensureProxy (.texture t) .createGlTexture).tellImage t x.current force).fault =
      none := by
    unfold tellImage
    split
    · exact withRemoteId_fault e1 r1 fun _ => e1
    · exact e1
  simp only [syncTexture, hx, tellMipmap]
  split
  · exact withRemoteId_fault e2 (h2.ready r1) fun _ => e2
  · exact e2

theorem syncSampler_fault (h : Afloat s) {p : ℕ} (hp : (s.glSamplers p).isSome) (force : Bool) :
    (s.syncSampler p force).fault = none := by
  obtain ⟨x, hx⟩ := Option.isSome_iff_exists.mp hp
  have h1 : SyncsAny s (s.ensureProxy (.sampler p) .createGlSampler) :=
    ensureProxy_syncs h.session (by simp) trivial rfl
  have r1 : (s.ensureProxy (.sampler p) .createGlSampler).Ready (.sampler p) :=
    ensureProxy_ready h.session (by simp [live, hx])
  simp only [syncSampler, hx]
  refine (h.next h1 (ensureProxy_fault_none h _ _)).foldl
    (Q := fun s (e : UInt32 × Parameter) => s.Ready (.sampler p) ∧ paramMatches e.2 = true)
    (fun s e hs he => ⟨tellParameter_syncs any_calls he.1 force e, ?_⟩)
    (fun s s' e hs he => ⟨hs.ready he.1, he.2⟩)
    fun e he => ⟨r1, h.params p x hx e (List.mem_append_right _ he)⟩
  unfold tellParameter
  split
  · exact hs.running
  · rw [if_pos he.2]
    exact withRemoteId_fault hs.running he.1 fun _ => hs.running

theorem syncShader_fault (h : Afloat s) {i : ℕ} (hi : (s.glShaders i).isSome) :
    (s.syncShader i).fault = none := by
  obtain ⟨x, hx⟩ := Option.isSome_iff_exists.mp hi
  obtain ⟨shm, hshm⟩ := Option.isSome_iff_exists.mp (h.founded.sources i x hx)
  simp only [syncShader, hx, hshm]
  split
  · exact h.running
  · exact ensureProxy_fault_none h _ _

theorem syncAttached_fault_none (h : Afloat s) {p i : ℕ} (hp : s.Ready (.program p))
    (hi : (s.glShaders i).isSome) (attach : Bool) : (syncAttached p attach s i).fault = none := by
  obtain ⟨h1, r1⟩ := syncShader_syncs (A := fun _ => True) any_calls h.session i
  have e1 := syncShader_fault h hi
  unfold syncAttached tellAttach
  split
  · exact withRemoteId_fault e1 r1 fun _ => withRemoteId_fault e1 (h1.ready hp) fun _ => e1
  · exact e1

theorem syncProgram_fault (h : Afloat s) {p : ℕ} (hp : (s.glPrograms p).isSome) (force : Bool) :
    (s.syncProgram p force).fault = none := by
  obtain ⟨x, hx⟩ := Option.isSome_iff_exists.mp hp
  have h1 : SyncsAny s ((s.ensureProxy (.program p) .createGlProgram).dropExpiredShaders p) :=
    (ensureProxy_syncs h.session (by simp) trivial rfl).tail (.dropExpiredShaders _ p)
  have e1 := ensureProxy_fault_none h (.program p) .createGlProgram
  have r1 : ((s.ensureProxy (.program p) .createGlProgram).dropExpiredShaders p).Ready
      (.program p) :=
    SyncStep.ready (A := fun _ => True) (C := fun _ => True) _ _ (.dropExpiredShaders _ p)
      (ensureProxy_ready h.session (by simp [live, hx]))
  have h2 := h.next h1 e1
  have alive (i : ℕ) (hi : i ∈ x.current.shaders.filter s.shaderAlive) :
      (((s.ensureProxy (.program p) .createGlProgram).dropExpiredShaders p).glShaders i).isSome :=
    (h1.live (.shader i)).trans (List.mem_filter.mp hi).2
  have h3 : SyncsAny _ ((x.current.shaders.filter s.shaderAlive).foldl
      (syncAttached p (force || x.current.shouldLink))
      ((s.ensureProxy (.program p) .createGlProgram).dropExpiredShaders p)) :=
    Path.foldl SyncStep.hasSession_ready
      (fun s hp i _ => syncAttached_syncs any_calls hp.1 hp.2 _ i) ⟨h2.session, r1⟩
  have e3 : ((x.current.shaders.filter s.shaderAlive).foldl
      (syncAttached p (force || x.current.shouldLink))
      ((s.ensureProxy (.program p) .createGlProgram).dropExpiredShaders p)).fault = none :=
    h2.foldl (Q := fun s i => s.Ready (.program p) ∧ (s.glShaders i).isSome)
      (fun s i hs hi => ⟨syncAttached_syncs any_calls hs.session hi.1 _ i,
        syncAttached_fault_none hs hi.1 hi.2 _⟩)
      (fun s s' i hs hi => ⟨hs.ready hi.1, (hs.live (.shader i)).trans hi.2⟩)
      fun i hi => ⟨r1, alive i hi⟩
  simp only [syncProgram, hx, tellLink]
  split
  · exact withRemoteId_fault e3 (h3.ready r1) fun _ => e3
  · exact e3

theorem syncAttribute_fault (h : Afloat s) {va : ℕ} (hva : s.Ready (.vertexArray va))
    (force : Bool) (e : UInt32 × VertexAttribute) : (syncAttribute va force s e).fault = none := by
  unfold syncAttribute
  split
  · exact h.running
  · next b hb =>
    obtain ⟨h1, r1⟩ := syncBuffer_syncs (A := fun _ => True) any_calls h.session b force
    have e1 := syncBuffer_fault h (Arena.lock_eq_some.mp hb).2 force
    have h2 := tellEnability_syncs (A := fun _ => True) any_calls (h1.ready hva) e.1 e.2 force
    have e2 : ((s.syncBuffer b force).tellEnability va e.1 e.2 force).fault = none := by
      unfold tellEnability
      split
      · exact withRemoteId_fault e1 (h1.ready hva) fun _ => e1
      · exact e1
    unfold tellPointer
    split
    · exact withRemoteId_fault e2 (h2.ready (h1.ready hva)) fun _ =>
        withRemoteId_fault e2 (h2.ready r1) fun _ => e2
    · exact e2

theorem syncVertexArray_fault (h : Afloat s) {va : ℕ} (hva : (s.glVertexArrays va).isSome)
    (force : Bool) : (s.syncVertexArray va force).fault = none := by
  obtain ⟨x, hx⟩ := Option.isSome_iff_exists.mp hva
  have h1 : SyncsAny s (s.ensureProxy (.vertexArray va) .createGlVertexArray) :=
    ensureProxy_syncs h.session (by simp) trivial rfl
  have r1 : (s.ensureProxy (.vertexArray va) .createGlVertexArray).Ready (.vertexArray va) :=
    ensureProxy_ready h.session (by simp [live, hx])
  simp only [syncVertexArray, hx]
  exact (h.next h1 (ensureProxy_fault_none h _ _)).foldl
    (Q := fun s _ => s.Ready (.vertexArray va))
    (fun s e hs he => ⟨syncAttribute_syncs any_calls hs.session he force e,
      syncAttribute_fault hs he force e⟩)
    (fun s s' e hs he => hs.ready he) fun _ _ => r1

theorem any_of_technique (technique : ℕ) (c : Call) (_ : c.technique? = some technique) : True :=
  trivial

theorem syncBoundVertexArray_fault (h : Afloat s) (technique : ℕ) (x : TechniqueState)
    (force : Bool) : (s.syncBoundVertexArray technique x force).fault = none := by
  unfold syncBoundVertexArray
  split
  · exact h.running
  · next va hva =>
    have r1 := (syncVertexArray_syncs (A := fun _ => True) any_calls h.session va force).2
    have e1 := syncVertexArray_fault h (Arena.lock_eq_some.mp hva).2 force
    unfold tellVertexArray
    split
    · exact withRemoteId_fault e1 r1 fun _ => e1
    · exact e1

theorem syncBoundProgram_fault (h : Afloat s) (technique : ℕ) (x : TechniqueState)
    (force : Bool) : (s.syncBoundProgram technique x force).fault = none := by
  unfold syncBoundProgram
  split
  · exact h.running
  · next p hp =>
    have r1 := (syncProgram_syncs (A := fun _ => True) any_calls h.session p force).2
    have e1 := syncProgram_fault h (Arena.lock_eq_some.mp hp).2 force
    unfold tellProgram
    split
    · exact withRemoteId_fault e1 r1 fun _ => e1
    · exact e1

theorem syncTextureBinding_fault (h : Afloat s) {b : TextureBinding}
    (hb : s.bindingAlive b = true) (technique : ℕ) (force changed : Bool) :
    (syncTextureBinding technique force changed s b).fault = none := by
  obtain ⟨ht, hp⟩ := Bool.and_eq_true_iff.mp hb
  obtain ⟨h1, r1⟩ := syncTexture_syncs (A := fun _ => True) any_calls h.session b.texture force
  have k1 := h.next h1 (syncTexture_fault h ht force)
  obtain ⟨h2, r2⟩ := syncSampler_syncs (A := fun _ => True) any_calls k1.session b.sampler force
  have e2 := syncSampler_fault k1 ((h1.live (.sampler b.sampler)).trans hp) force
  unfold syncTextureBinding tellTexture
  split
  · exact withRemoteId_fault e2 (h2.ready r1) fun _ => withRemoteId_fault e2 r2 fun _ => e2
  · exact e2

theorem syncTextureBindings_fault (h : Afloat s) (t technique : ℕ) (l : TextureBindingList)
    (force : Bool) : (s.syncTextureBindings t technique l force).fault = none := by
  have h1 : SyncsAny s (s.dropExpired t) := .single (.dropExpired s t)
  have same (s s' : Scene) (hs : SyncsAny s s') : s'.bindingAlive = s.bindingAlive :=
    bindingAlive_of_content hs.content
  refine (h.next h1 h.running).foldl (Q := fun s b => s.bindingAlive b = true)
    (fun s b hs hb => ⟨syncTextureBinding_syncs any_calls (any_of_technique technique) hs.session
      force l.changed b, syncTextureBinding_fault hs hb technique force l.changed⟩)
    (fun s s' b hs hb => same s s' hs ▸ hb) fun b hb => ?_
  rw [same s _ h1]
  exact (List.mem_filter.mp hb).2

theorem syncDraw_fault (h : Afloat s) (technique : ℕ) (d : DrawApiArgs) (force : Bool) :
    (s.syncDraw technique d force).fault = none := by
  unfold syncDraw
  split
  · exact h.running
  · split <;> exact h.running
  · next b _ =>
    split
    · next hb =>
      have r1 := (syncBuffer_syncs (A := fun _ => True) any_calls h.session b force).2
      have e1 := syncBuffer_fault h hb force
      unfold tellElements
      split
      · exact withRemoteId_fault e1 r1 fun _ => e1
      · exact e1
    · exact h.running

theorem syncState_fault (h : Afloat s) (t technique : ℕ) (x : TechniqueState) (force : Bool) :
    (s.syncState t technique x force).fault = none := by
  have any := any_of_technique technique
  have h1 := h.next (syncBoundVertexArray_syncs any_calls any h.session x force)
    (syncBoundVertexArray_fault h technique x force)
  have h2 := h1.next (syncBoundProgram_syncs any_calls any h1.session x force)
    (syncBoundProgram_fault h1 technique x force)
  have h3 := h2.next (syncTextureBindings_syncs any_calls any h2.session t x.textureBindings force)
    (syncTextureBindings_fault h2 t technique x.textureBindings force)
  have h4 := h3.next (callAll_syncs _ (syncCalls_spec any force x.uniformVars)) h3.running
  exact syncDraw_fault h4 technique x.drawApiArgs force

theorem syncTechnique_fault (h : Afloat s) {t : ℕ} {z : GlBaseTechnique}
    (hz : s.baseTechniques t = some z) (hu : s.Ready (.renderingUnit z.owner)) (force : Bool) :
    (s.syncTechnique t force).fault = none := by
  have h1 : SyncsAny s (s.ensureTechnique t z) :=
    ensureTechnique_syncs h.session hu trivial fun _ _ _ _ => trivial
  have e1 : (s.ensureTechnique t z).fault = none := by
    unfold ensureTechnique
    split
    · exact h.running
    · rw [if_pos (h.founded.techniques t z hz)]
      exact withRemoteId_fault h.running hu fun _ => ensureProxy_fault_none h _ _
  simp only [syncTechnique, hz, syncTechniqueState]
  exact withRemoteId_fault e1 (ensureTechnique_ready h.session hz) fun i =>
    syncState_fault (h.next h1 e1) t i z.current force

theorem syncUnit_fault (h : Afloat s) {u : ℕ} {y : RenderingUnit}
    (hy : s.renderingUnits u = some y) (hv : s.Ready (.virtualObject y.owner)) (force : Bool) :
    (syncUnit force s u).fault = none := by
  have h1 : SyncsAny s (s.ensureUnit u y) := ensureUnit_syncs any_calls h.session hv
  have e1 : (s.ensureUnit u y).fault = none := by
    unfold ensureUnit
    split
    · exact h.running
    · rw [if_pos (h.founded.units u y hy).1]
      exact withRemoteId_fault h.running hv fun _ => ensureProxy_fault_none h _ _
  simp only [syncUnit, hy]
  split
  · exact e1
  · next t ht =>
    have k1 := h.next h1 e1
    obtain ⟨y', hy', he⟩ := unit_of_content h1.content.symm hy
    have ht' : y'.technique = some t := (congrArg RenderingUnit.technique he).trans ht
    obtain ⟨z, hz, ho⟩ := k1.slot u y' t hy' ht'
    refine syncTechnique_fault k1 hz ?_ force
    rw [ho]
    exact ensureUnit_ready h.session hy

/-- `VirtualObject::sync` ends without a fault. -/
theorem syncVirtualObject_fault (h : Afloat s) (hl : ListOk s) {v : ℕ}
    (hv : (s.virtualObjects v).isSome) (force : Bool) :
    (s.syncVirtualObject v force).fault = none := by
  obtain ⟨x, hx⟩ := Option.isSome_iff_exists.mp hv
  simp only [syncVirtualObject, hx]
  split
  · exact h.running
  · next b hb =>
    have h1 : SyncsAny s (s.ensureProxy (.virtualObject v) .createVirtualObject) :=
      ensureProxy_syncs h.session (by simp) trivial rfl
    have r1 : (s.ensureProxy (.virtualObject v) .createVirtualObject).Ready (.virtualObject v) :=
      ensureProxy_ready h.session (by simp [live, hx])
    have e1 := ensureProxy_fault_none h (.virtualObject v) .createVirtualObject
    have hb1 : (s.ensureProxy (.virtualObject v) .createVirtualObject).boundedApps =
        s.boundedApps := boundedApps_of_content h1.content
    obtain ⟨app, happ⟩ := Option.isSome_iff_exists.mp (h.founded.apps v x b hx hb)
    rw [← hb1] at happ
    simp only [syncParts, happ]
    refine withRemoteId_fault e1 r1 fun i => ?_
    have h2 : SyncsAny _ ((s.ensureProxy (.virtualObject v) .createVirtualObject).call
        (.move i app.polar app.azimuthal)) := call_syncs _ trivial rfl
    have k2 := (h.next h1 e1).next h2 e1
    refine k2.foldl (Q := fun s u => s.Ready (.virtualObject v) ∧
      ∃ y, s.renderingUnits u = some y ∧ y.owner = v) (fun s u hs hu => ?_)
      (fun s s' u hs hu => ⟨hs.ready hu.1, ?_⟩) fun u hu => ⟨h2.ready r1, ?_⟩
    · obtain ⟨hr, y, hy, rfl⟩ := hu
      refine ⟨syncUnit_syncs any_calls hs.session hs.slot (fun y' hy' => ?_)
        (fun _ _ _ _ => ⟨trivial, fun _ _ _ _ => trivial⟩) force, syncUnit_fault hs hy hr force⟩
      obtain rfl := Option.some.inj (hy.symm.trans hy')
      exact hr
    · obtain ⟨-, y, hy, rfl⟩ := hu
      obtain ⟨y', hy', he⟩ := unit_of_content hs.content.symm hy
      exact ⟨y', hy', (congrArg RenderingUnit.owner he).trans rfl⟩
    · obtain ⟨y, hy, rfl⟩ := hl v x u hx hu
      obtain ⟨y', hy', he⟩ := unit_of_content (Syncs.content (h1.trans h2)).symm hy
      exact ⟨y', hy', (congrArg RenderingUnit.owner he).trans rfl⟩

end Sync

end Scene
end Yaza
