import Yaza.Zwin.CommitSteps

/-! Every function of `commit` is made of the steps of `CommitSteps`, on the objects that are
within reach of the one it is called for. -/
namespace Yaza

namespace TechniqueState

theorem program_mem_refs {x : TechniqueState} {p : ℕ} (h : x.program = some p) :
    p ∈ x.refs := by simp [refs, h]

theorem vertexArray_mem_refs {x : TechniqueState} {va : ℕ} (h : x.vertexArray = some va) :
    va ∈ x.refs := by simp [refs, h]

theorem texture_mem_refs {x : TechniqueState} {b : TextureBinding}
    (h : b ∈ x.textureBindings.list) : b.texture ∈ x.refs ∧ b.sampler ∈ x.refs := by
  simp only [refs, TextureBindingList.refs, List.mem_append, List.mem_flatMap]
  exact ⟨.inl (.inr ⟨b, h, by simp⟩), .inl (.inr ⟨b, h, by simp⟩)⟩

theorem committedBuffer_mem_refs {x : TechniqueState} {b : ℕ}
    (h : x.drawApiArgs.committedBuffer = some b) : b ∈ x.refs := by
  unfold DrawApiArgs.committedBuffer at h
  split at h
  · split at h
    · next hd =>
      cases h
      simp [refs, DrawApiArgs.refs, hd]
    · cases h
  · cases h

theorem mem_refs {x : TechniqueState} {i : ℕ} :
    i ∈ x.refs ↔ x.program = some i ∨ x.vertexArray = some i ∨
      (∃ b ∈ x.textureBindings.list, i = b.texture ∨ i = b.sampler) ∨
      i ∈ x.drawApiArgs.refs := by
  simp [refs, TextureBindingList.refs]

/-- A commit brings no reference that was not there. -/
theorem refs_commit {alive : TextureBinding → Bool} {pending current : TechniqueState} {i : ℕ}
    (h : i ∈ (pending.commit alive current).refs) : i ∈ pending.refs ∨ i ∈ current.refs := by
  rw [mem_refs] at h
  rw [mem_refs, mem_refs]
  rcases h with h | h | ⟨b, hb, h⟩ | h
  · simp only [commit] at h
    split at h
    · exact .inl (.inl h)
    · exact .inr (.inl h)
  · simp only [commit] at h
    split at h
    · exact .inl (.inr (.inl h))
    · exact .inr (.inr (.inl h))
  · simp only [commit, TextureBindingList.commit, TextureBindingList.removeExpired] at hb
    split at hb
    · exact .inl (.inr (.inr (.inl ⟨b, List.mem_of_mem_filter hb, h⟩)))
    · exact .inr (.inr (.inr (.inl ⟨b, List.mem_of_mem_filter hb, h⟩)))
  · simp only [commit, DrawApiArgs.commit, DrawApiArgs.refs] at h
    by_cases hc : pending.drawApiArgs.changed
    · cases hd : pending.drawApiArgs.data with
      | none => simp only [hc, hd, if_true] at h; exact .inr (.inr (.inr (.inr h)))
      | arrays => simp [hc, hd] at h
      | elements mode count type offset b =>
        simp only [hc, hd, if_true] at h
        exact .inl (.inr (.inr (.inr (by simpa [DrawApiArgs.refs, hd] using h))))
    · simp only [hc] at h
      exact .inr (.inr (.inr (.inr h)))

theorem refs_afterCommit {alive : TextureBinding → Bool} {pending : TechniqueState} {i : ℕ}
    (h : i ∈ (pending.afterCommit alive).refs) : i ∈ pending.refs := by
  rw [mem_refs] at h ⊢
  rcases h with h | h | ⟨b, hb, h⟩ | h
  · exact .inl h
  · exact .inr (.inl h)
  · exact .inr (.inr (.inl ⟨b, List.mem_of_mem_filter hb, h⟩))
  · refine .inr (.inr (.inr ?_))
    simp only [afterCommit, DrawApiArgs.afterCommit] at h
    split at h
    · simp [DrawApiArgs.refs] at h
    · exact h

end TechniqueState

namespace Scene

/-- The techniques after a step: one of them is committed, or none. -/
theorem CommitStep.techniques {T : ℕ → Prop} {s s' : Scene} (h : CommitStep T s s') :
    s'.baseTechniques = s.baseTechniques ∨
      ∃ t z, T t ∧ s.baseTechniques t = some z ∧
        s'.baseTechniques = s.baseTechniques.set t (z.commit s.bindingAlive) := by
  cases h with
  | error i code text =>
    left
    rcases postError_cases s i code text with h | ⟨e, h⟩
    · rw [h]; rfl
    · rw [h]
  | technique t z ht hz => exact .inr ⟨t, z, ht, hz, rfl⟩
  | unit u y hu hy hc =>
    left
    rw [registerUnit, if_neg (by simp [hc])]
    rcases addRenderingUnit_cases s y.owner u with h | ⟨x, hx, h⟩
    · rw [h]; rfl
    · rw [h]
  | _ => exact .inl rfl

theorem CommitStep.scope {T : ℕ → Prop} (s s' : Scene) (h : CommitStep T s s')
    (hs : Scope T s) : Scope T s' where
  objects := by
    intro v x' hx' hv
    obtain ⟨x, hx, he⟩ := virtualObject_of_skeleton h.skeleton hx'
    have hl : x.listeners = x'.listeners :=
      show (boneVirtualObject x).listeners = _ from he ▸ rfl
    exact hl ▸ hs.objects v x hx hv
  units := by
    intro u y' hy' hu
    obtain ⟨y, hy, he⟩ := unit_of_skeleton h.skeleton hy'
    have ho : y.owner = y'.owner := show (boneUnit y).owner = _ from he ▸ rfl
    have hl : y.listeners = y'.listeners := show (boneUnit y).listeners = _ from he ▸ rfl
    exact ho ▸ hl ▸ hs.units u y hy hu
  techniques := by
    intro t z' hz' ht
    rcases h.techniques with he | ⟨t₀, z, -, hz, he⟩
    · exact hs.techniques t z' (he ▸ hz') ht
    · rw [he, Arena.set_apply] at hz'
      split at hz'
      · next htt =>
        subst htt
        cases hz'
        obtain ⟨ho, hp, hc⟩ := hs.techniques t z hz ht
        exact ⟨ho, fun i hi => hp i (TechniqueState.refs_afterCommit hi),
          fun i hi => (TechniqueState.refs_commit hi).elim (hp i) (hc i)⟩
      · exact hs.techniques t z' hz' ht
  vertexArrays := by
    intro va x' hx' hva
    obtain ⟨x, hx, he⟩ := vertexArray_of_skeleton h.skeleton hx'
    have hp : x.pending = x'.pending := show (boneVertexArray x).pending = _ from he ▸ rfl
    exact hp ▸ hs.vertexArrays va x hx hva

theorem Commits.scope {T : ℕ → Prop} {s s' : Scene} (h : Commits T s s') (hs : Scope T s) :
    Scope T s' := Path.preserves CommitStep.scope h hs

section Leaves
variable {T : ℕ → Prop} {s : Scene}

theorem commitBuffer_commits {b : ℕ} (hb : T b) : Commits T s (s.commitBuffer b) := by
  unfold commitBuffer
  split
  · exact .single (.crash s)
  · next x hx =>
    split
    · exact .refl
    · next r _ =>
      split
      · exact .refl
      · next shm _ => exact .single (.buffer s b r x shm hb hx)

theorem commitTexture_commits {t : ℕ} (ht : T t) : Commits T s (s.commitTexture t) := by
  refine Relation.ReflTransGen.tail ?_ (.mipmap _ t ht)
  unfold commitTextureData
  split
  · exact .single (.crash s)
  · next x hx =>
    split
    · exact .refl
    · next r _ =>
      split
      · exact .refl
      · next shm _ => exact .single (.textureData s t r x shm ht hx)

theorem commitSampler_commits {p : ℕ} (hp : T p) : Commits T s (s.commitSampler p) := by
  unfold commitSampler
  split
  · exact .single (.crash s)
  · next x hx => exact .single (.sampler s p x hp hx)

theorem checkRelink_commits (s : Scene) (p : ℕ) (x : GlProgram) :
    Commits T s (s.checkRelink p x) := by
  unfold checkRelink
  split
  · exact .single (.error s p _ _)
  · exact .refl

theorem checkRelink_programs (s : Scene) (p : ℕ) (x : GlProgram) :
    (s.checkRelink p x).glPrograms = s.glPrograms := by
  unfold checkRelink
  split
  · rcases postError_cases s p .relink "GlProgram has already been linked" with h | ⟨e, h⟩
    · rw [h]; rfl
    · rw [h]
  · rfl

theorem commitProgram_commits {p : ℕ} (hp : T p) : Commits T s (s.commitProgram p) := by
  unfold commitProgram
  split
  · exact .single (.crash s)
  · next x hx =>
    have hg := checkRelink_programs s p x
    have h1 := CommitStep.program (s.checkRelink p x) p x hp (by rw [hg]; exact hx)
    rw [hg] at h1
    exact (checkRelink_commits s p x).tail h1

theorem commitWeakBuffer_commits {b : Option ℕ} (hb : ∀ i, b = some i → T i) :
    Commits T s (s.commitWeakBuffer b) := by
  unfold commitWeakBuffer
  split
  · exact .refl
  · next i hi => exact commitBuffer_commits (hb i (Arena.lock_eq_some.mp hi).1)

theorem commitVertexArray_commits (hs : Scope T s) {va : ℕ} (hva : T va) :
    Commits T s (s.commitVertexArray va) := by
  unfold commitVertexArray
  split
  · exact .single (.crash s)
  · next x hx =>
    refine Relation.ReflTransGen.head (.vertexArray s va x hva hx) ?_
    refine Path.foldl (P := fun _ => True) (fun _ _ _ _ => trivial) (fun s _ e he => ?_) trivial
    exact commitWeakBuffer_commits fun i hi => hs.vertexArrays va x hx hva e he i hi

theorem commitWeakProgram_commits {p : Option ℕ} (hp : ∀ i, p = some i → T i) :
    Commits T s (s.commitWeakProgram p) := by
  unfold commitWeakProgram
  split
  · exact .refl
  · next i hi => exact commitProgram_commits (hp i (Arena.lock_eq_some.mp hi).1)

theorem commitWeakVertexArray_commits (hs : Scope T s) {va : Option ℕ}
    (hva : ∀ i, va = some i → T i) : Commits T s (s.commitWeakVertexArray va) := by
  unfold commitWeakVertexArray
  split
  · exact .refl
  · next i hi => exact commitVertexArray_commits hs (hva i (Arena.lock_eq_some.mp hi).1)

theorem commitBinding_commits {b : TextureBinding} (ht : T b.texture) (hp : T b.sampler) :
    Commits T s (s.commitBinding b) :=
  (commitTexture_commits ht).trans (commitSampler_commits hp)

theorem commitLeaves_commits (hs : Scope T s) {x y : GlBaseTechnique}
    (hx : ∀ i ∈ x.pending.refs, T i) (hy : ∀ i ∈ y.current.refs, T i) :
    Commits T s (s.commitLeaves x y) := by
  have h1 : Commits T s (s.commitWeakProgram y.current.program) :=
    commitWeakProgram_commits fun i hi => hy i (TechniqueState.program_mem_refs hi)
  have h2 := commitWeakVertexArray_commits (h1.scope hs)
    fun i hi => hy i (TechniqueState.vertexArray_mem_refs hi)
  have h3 : Commits T _ (((s.commitWeakProgram y.current.program).commitWeakVertexArray
      y.current.vertexArray).commitWeakBuffer x.pending.drawApiArgs.committedBuffer) :=
    commitWeakBuffer_commits fun i hi => hx i (TechniqueState.committedBuffer_mem_refs hi)
  refine ((h1.trans h2).trans h3).trans ?_
  refine Path.foldl (P := fun _ => True) (fun _ _ _ _ => trivial) (fun s _ b hb => ?_) trivial
  have hr := TechniqueState.texture_mem_refs hb
  exact commitBinding_commits (hy _ hr.1) (hy _ hr.2)

end Leaves

section Objects
variable {T : ℕ → Prop} {s : Scene}

theorem registerTechnique_commits {t : ℕ} {z : GlBaseTechnique} (ht : T t)
    (hz : s.baseTechniques t = some z) : Commits T s (s.registerTechnique t z) := by
  unfold registerTechnique
  split
  · exact .refl
  · unfold setTechnique
    split
    · exact .single (.crash s)
    · next y hy =>
      split
      · exact .single (.error s _ _ _)
      · next hn => exact .single (.register s t z y ht hz hy (by simpa using hn))

theorem registerTechnique_techniques (s : Scene) (t : ℕ) (z : GlBaseTechnique) :
    (s.registerTechnique t z).baseTechniques = s.baseTechniques := by
  unfold registerTechnique setTechnique
  split
  · rfl
  · split
    · rfl
    · next y _ =>
      split
      · rcases postError_cases s z.owner .technique _ with h | ⟨e, h⟩
        · rw [h]; rfl
        · rw [h]
      · rfl

theorem commitTechnique_commits (hs : Scope T s) {t : ℕ} (ht : T t) :
    Commits T s (s.commitTechnique t) := by
  unfold commitTechnique
  split
  · exact .single (.crash s)
  · next z hz =>
    obtain ⟨-, hp, hc⟩ := hs.techniques t z hz ht
    have h1 := registerTechnique_commits ht hz
    have hz1 : (s.registerTechnique t z).baseTechniques t = some z := by
      rw [registerTechnique_techniques]; exact hz
    have h2 : Commits T s ((s.registerTechnique t z).storeTechnique t
        (z.commit (s.registerTechnique t z).bindingAlive)) := h1.tail (.technique _ t z ht hz1)
    rw [bindingAlive_of_skeleton h1.skeleton] at h2
    refine h2.trans (commitLeaves_commits (h2.scope hs) hp fun i hi => ?_)
    exact (TechniqueState.refs_commit hi).elim (hp i) (hc i)

theorem registerUnit_commits {u : ℕ} {y : RenderingUnit} (hu : T u)
    (hy : s.renderingUnits u = some y) : Commits T s (s.registerUnit u y) := by
  by_cases hc : y.committed
  · rw [registerUnit, if_pos hc]
  · exact .single (.unit s u y hu hy (by simpa using hc))

theorem commitUnit_commits (hs : Scope T s) {u : ℕ} (hu : T u) :
    Commits T s (s.commitUnit u) := by
  unfold commitUnit
  split
  · exact .single (.crash s)
  · next y hy =>
    have h1 := registerUnit_commits hu hy
    refine h1.trans (Path.foldl CommitStep.scope (fun s' hs' t ht => ?_) (h1.scope hs))
    exact commitTechnique_commits hs' ((hs.units u y hy hu).2 t ht)

theorem commitApp_commits {b : ℕ} (hb : T b) : Commits T s (s.commitApp b) := by
  unfold commitApp
  split
  · exact .single (.crash s)
  · next x hx => exact .single (.app s b x hb hx)

theorem notifyCommitted_commits (hs : Scope T s) {l : CommitListener} (hl : T l.id) :
    Commits T s (s.notifyCommitted l) := by
  cases l with
  | unit u => exact commitUnit_commits hs hl
  | app b => exact commitApp_commits hl

/-- `VirtualObject::commit` up to its `sync` is made of the steps of `commit`. -/
theorem commitState_commits (hs : Scope T s) {v : ℕ} (hv : T v) :
    Commits T s (s.commitState v) := by
  unfold commitState
  split
  · exact .single (.crash s)
  · next x hx =>
    have h1 : Commits T s { s with virtualObjects := s.virtualObjects.set v x.commit } :=
      .single (.object s v x hv hx)
    refine h1.trans (Path.foldl CommitStep.scope (fun s hs' l hl => ?_) (h1.scope hs))
    exact notifyCommitted_commits hs' (hs.objects v x hx hv l hl)

theorem commitState_commits_true (s : Scene) (v : ℕ) :
    Commits (fun _ => True) s (s.commitState v) :=
  commitState_commits (scope_true s) trivial

end Objects

end Scene
end Yaza
