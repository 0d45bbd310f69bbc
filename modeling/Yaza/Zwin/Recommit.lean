import Yaza.Zwin.Resting

/-! The commit of a virtual object at rest changes nothing that a sync reads but the flags of its
techniques; and a sync leaves at rest what it finds at rest. -/
namespace Yaza
namespace Scene

def limbVirtualObject (x : VirtualObject) : VirtualObject :=
  { x with pendingFrames := [], currentFrames := [], committed := false }

/-- The scene without its techniques, its apps, and what is sent to the clients. -/
def limbs (s : Scene) : Scene :=
  { s with
    fault := none
    errors := []
    virtualObjects := s.virtualObjects.mapAll limbVirtualObject
    boundedApps := Arena.empty
    baseTechniques := Arena.empty }

section Limbs
variable {s s' : Scene}

theorem atRest_of_limbs (h : s'.limbs = s.limbs) {x : Holder} (hx : s.AtRest x) : s'.AtRest x :=
  atRest_of_leaves (congrArg Scene.glBuffers h :) (congrArg Scene.glTextures h :)
    (congrArg Scene.glSamplers h :) (congrArg Scene.glPrograms h :)
    (congrArg Scene.glVertexArrays h :) (congrArg Scene.shmBuffers h :) hx

theorem postError_limbs (s : Scene) (i : ℕ) (code : ErrorCode) (text : String) :
    (s.postError i code text).limbs = s.limbs := by
  rcases postError_cases s i code text with h | ⟨e, h⟩ <;> rw [h] <;> rfl

theorem commitWeakBuffer_limbs {o : Option ℕ} (ho : ∀ b, o = some b → s.BufferIdle b) :
    (s.commitWeakBuffer o).limbs = s.limbs := by
  unfold commitWeakBuffer
  split
  · rfl
  · next b hl =>
    obtain ⟨hb, hv⟩ := Arena.lock_eq_some.mp hl
    obtain ⟨x, hx⟩ := Option.isSome_iff_exists.mp hv
    rcases commitBuffer_cases hx with ⟨he, -⟩ | ⟨r, shm, hr, hm, -⟩
    · rw [he]
    · have hi := ho b hb x hx
      rw [hr, Option.bind_some, hm] at hi
      cases hi

theorem commitWeakProgram_limbs {o : Option ℕ} (ho : ∀ p, o = some p → s.AtRest (.program p)) :
    (s.commitWeakProgram o).limbs = s.limbs := by
  unfold commitWeakProgram
  split
  · rfl
  · next p hl =>
    obtain ⟨hp, hv⟩ := Arena.lock_eq_some.mp hl
    obtain ⟨x, hx⟩ := Option.isSome_iff_exists.mp hv
    have h1 : (s.checkRelink p x).limbs = s.limbs := by
      unfold checkRelink
      split
      · exact postError_limbs ..
      · rfl
    have h2 : s.glPrograms.set p x.commit = s.glPrograms := by
      rw [GlProgram.commit_of_atRest (ho p hp x hx)]
      exact Arena.set_eq_self hx
    have h3 : (s.checkRelink p x).glPrograms = s.glPrograms := checkRelink_programs s p x
    have h4 : s.commitProgram p = s.checkRelink p x := by
      simp only [commitProgram, hx, h2]
      rw [← h3]
    rw [h4, h1]

theorem commitWeakVertexArray_limbs {o : Option ℕ}
    (hv : ∀ va, o = some va → s.AtRest (.vertexArray va))
    (hb : ∀ va y, o = some va → s.glVertexArrays va = some y → ∀ e ∈ y.pending, ∀ b,
      e.2.glBuffer = some b → s.AtRest (.buffer b)) :
    (s.commitWeakVertexArray o).limbs = s.limbs := by
  unfold commitWeakVertexArray
  split
  · rfl
  · next va hl =>
    obtain ⟨ho, hs⟩ := Arena.lock_eq_some.mp hl
    obtain ⟨y, hy⟩ := Option.isSome_iff_exists.mp hs
    have h1 : s.glVertexArrays.set va y.commit = s.glVertexArrays := by
      have he : y.commit = y := by
        have hc := hv va ho y hy
        cases y
        simp only [GlVertexArray.commit, GlVertexArray.mk.injEq, true_and, and_true]
        exact hc.symm
      rw [he]
      exact Arena.set_eq_self hy
    simp only [commitVertexArray, hy, h1]
    exact Path.foldl_const (g := limbs)
      (P := fun s (e : UInt32 × VertexAttribute) => ∀ b, e.2.glBuffer = some b →
        s.AtRest (.buffer b))
      (fun s e he => commitWeakBuffer_limbs he)
      (fun s s' e h he b hb => atRest_of_limbs h (he b hb)) (hb va y ho hy)

theorem commitBinding_limbs {b : TextureBinding} (ht : s.AtRest (.texture b.texture))
    (hp : s.AtRest (.sampler b.sampler)) : (s.commitBinding b).limbs = s.limbs := by
  have h1 : (s.commitTexture b.texture).limbs = s.limbs := by
    cases hx : s.glTextures b.texture with
    | none =>
      have hm := Arena.modify_of_none hx GlTexture.commitMipmap
      simp only [commitTexture, commitTextureData, hx, commitMipmap, crash, hm]
      rfl
    | some x =>
      obtain ⟨hi, hz⟩ := ht x hx
      have hm : s.glTextures.modify b.texture .commitMipmap = s.glTextures :=
        Arena.modify_eq_self fun y hy => by
          cases hx.symm.trans hy
          simp [GlTexture.commitMipmap, hz]
      have hd : s.commitTextureData b.texture = s := by
        simp only [commitTextureData, hx]
        split
        · rfl
        · next r hl =>
          obtain ⟨hr, hs⟩ := Arena.lock_eq_some.mp hl
          obtain ⟨shm, hshm⟩ := Option.isSome_iff_exists.mp hs
          rw [hr, Option.bind_some, hshm] at hi
          cases hi
      rw [commitTexture, hd, commitMipmap, hm]
  have h2 := atRest_of_limbs h1 hp
  refine Eq.trans ?_ h1
  unfold commitBinding commitSampler
  split
  · rfl
  · next x hx =>
    have hc : x.commit = x := by
      have hq := h2 x hx
      obtain ⟨pending, current, proxy⟩ := x
      subst hq
      rfl
    rw [hc, Arena.set_eq_self hx]

/-- A technique at rest. -/
theorem commitTechnique_limbs {t : ℕ}
    (ht : ∀ z, s.baseTechniques t = some z → s.TechniqueRests z) :
    (s.commitTechnique t).limbs = s.limbs := by
  unfold commitTechnique
  split
  · rfl
  · next z hz =>
    obtain ⟨hi, hc, hl⟩ := ht z hz
    have hr : s.registerTechnique t z = s := by rw [registerTechnique, if_pos hc]
    have h0 : (s.storeTechnique t (z.commit s.bindingAlive)).limbs = s.limbs := rfl
    rw [hr, commitLeaves]
    have h1 := (commitWeakProgram_limbs (s := s.storeTechnique t (z.commit s.bindingAlive))
      fun p hp => atRest_of_limbs h0 (hl (.program p) hp)).trans h0
    have h2 := (commitWeakVertexArray_limbs
      (fun va hva => atRest_of_limbs h1 (hl (.vertexArray va) hva))
      (fun va y hva hy e he b hb => atRest_of_limbs h1 (hl (.buffer b)
        (.inl ⟨va, y, hva, (congrFun (congrArg Scene.glVertexArrays h1) va).symm.trans hy, e, he,
          hb⟩)))).trans h1
    have h3 := (commitWeakBuffer_limbs fun b hb => atRest_of_limbs h2 (hl (.buffer b)
      (.inr hb))).trans h2
    refine (Path.foldl_const (g := limbs)
      (P := fun s (b : TextureBinding) => s.AtRest (.texture b.texture) ∧
        s.AtRest (.sampler b.sampler))
      (fun s b hb => commitBinding_limbs hb.1 hb.2)
      (fun s s' b h hb => ⟨atRest_of_limbs h hb.1, atRest_of_limbs h hb.2⟩)
      fun b hb => ⟨?_, ?_⟩).trans h3
    · exact atRest_of_limbs h3 (hl (.texture b.texture) ⟨b, hb, rfl⟩)
    · exact atRest_of_limbs h3 (hl (.sampler b.sampler) ⟨b, hb, rfl⟩)

end Limbs

section Rests
variable {s : Scene} {v : ℕ}

/-- The techniques of the virtual object are at rest. -/
def RestingTechniques (s : Scene) (v : ℕ) : Prop :=
  ∀ t z, s.baseTechniques t = some z → s.BelongsTo z v → s.TechniqueRests z

theorem commitTechnique_resting (h : s.RestingTechniques v) (i : ℕ) :
    (s.commitTechnique i).RestingTechniques v := by
  intro t z' hz' hb
  have hk : AllCommits s (s.commitTechnique i) := commitTechnique_commits (scope_true s) trivial
  have ho : (s.commitTechnique i).ownerOf = s.ownerOf :=
    congrArg Wiring.owner (sameWiring_of_skeleton hk.skeleton).objects
  have hm (z : GlBaseTechnique) (x : Holder) : (s.commitTechnique i).Meets z x ↔ s.Meets z x :=
    meets_congr (bindingAlive_of_skeleton hk.skeleton) (commitTechnique_settles s i).pending z x
  rw [BelongsTo, ho] at hb
  rw [commitTechnique_techniques, Arena.modify_apply] at hz'
  split at hz'
  · obtain ⟨z, hz, rfl⟩ := Option.map_eq_some_iff.mp hz'
    obtain ⟨-, -, hl⟩ := h t z hz hb
    refine ⟨z.pending.idle_afterCommit s.bindingAlive, rfl, fun x hx => hk.atRest (hl x ?_)⟩
    exact meets_commit ((hm _ x).mp hx)
  · obtain ⟨h1, h2, hl⟩ := h t z' hz' hb
    exact ⟨h1, h2, fun x hx => hk.atRest (hl x ((hm z' x).mp hx))⟩

theorem commitTechniques_limbs {l : List ℕ} (hr : s.RestingTechniques v)
    (hl : ∀ t ∈ l, ∀ z, s.baseTechniques t = some z → s.BelongsTo z v) :
    (l.foldl commitTechnique s).limbs = s.limbs ∧
      (l.foldl commitTechnique s).RestingTechniques v := by
  induction l generalizing s with
  | nil => exact ⟨rfl, hr⟩
  | cons t l ih =>
    have hk : AllCommits s (s.commitTechnique t) := commitTechnique_commits (scope_true s) trivial
    have ho : (s.commitTechnique t).ownerOf = s.ownerOf :=
      congrArg Wiring.owner (sameWiring_of_skeleton hk.skeleton).objects
    have h1 : (s.commitTechnique t).limbs = s.limbs := commitTechnique_limbs fun z hz =>
      hr t z hz (hl t List.mem_cons_self z hz)
    obtain ⟨h2, h3⟩ := ih (commitTechnique_resting hr t) fun i hi z' hz' => by
      rw [commitTechnique_techniques, Arena.modify_apply] at hz'
      rw [BelongsTo, ho]
      split at hz'
      · obtain ⟨z, hz, rfl⟩ := Option.map_eq_some_iff.mp hz'
        exact hl i (List.mem_cons_of_mem t hi) z hz
      · exact hl i (List.mem_cons_of_mem t hi) z' hz'
    exact ⟨h2.trans h1, h3⟩

theorem notifyCommitted_limbs (hw : Wired s) (hr : s.Rests v) {l : CommitListener}
    (hl : s.ownerOf l = some v) :
    (s.notifyCommitted l).limbs = s.limbs ∧ (s.notifyCommitted l).Rests v := by
  cases l with
  | app b =>
    have hk : AllCommits s (s.commitApp b) := commitApp_commits trivial
    have ho : (s.commitApp b).ownerOf = s.ownerOf :=
      congrArg Wiring.owner (sameWiring_of_skeleton hk.skeleton).objects
    have ht : (s.commitApp b).baseTechniques = s.baseTechniques ∧
        (s.commitApp b).limbs = s.limbs := by
      unfold commitApp
      split <;> exact ⟨rfl, rfl⟩
    refine ⟨ht.2, fun u y hy => ?_, fun t z hz hb => ?_⟩
    · exact hr.units u y ((congrFun (congrArg Scene.renderingUnits ht.2) u).symm.trans hy)
    · rw [notifyCommitted, ht.1] at hz
      rw [notifyCommitted, BelongsTo, ho] at hb
      obtain ⟨h1, h2, h3⟩ := hr.techniques t z hz hb
      refine ⟨h1, h2, fun x hx => hk.atRest (h3 x ?_)⟩
      exact (meets_congr (bindingAlive_of_skeleton hk.skeleton) (commitApp_settles s b).pending
        z x).mp hx
  | unit u =>
    obtain ⟨y, hy, hu⟩ := Option.map_eq_some_iff.mp hl
    have hc : s.registerUnit u y = s := by rw [registerUnit, if_pos (hr.units u y hy hu)]
    rw [notifyCommitted, commitUnit, hy]
    simp only [hc]
    obtain ⟨h1, h2⟩ := commitTechniques_limbs (l := y.listeners) hr.techniques fun t ht z hz => by
      have ho : s.unitWiring.owner t = some u :=
        (hw.units.mem u y.listeners t (by simp [unitWiring, hy])).mp ht
      obtain rfl : z.owner = u := by simpa [unitWiring, hz] using ho
      exact hl
    refine ⟨h1, fun i y' hy' => ?_, h2⟩
    exact hr.units i y' ((congrFun (congrArg Scene.renderingUnits h1) i).symm.trans hy')

/-- The commit of a virtual object at rest changes no unit and no leaf object. -/
theorem commitState_limbs (hw : Wired s) (hr : s.Rests v) :
    (s.commitState v).limbs = s.limbs := by
  unfold commitState
  split
  · rfl
  · next x hx =>
    have h1 : { s with virtualObjects := s.virtualObjects.set v x.commit }.limbs = s.limbs := by
      simp only [limbs, Arena.mapAll_set hx (show limbVirtualObject x.commit = _ from rfl)]
    have hk1 : AllCommits s { s with virtualObjects := s.virtualObjects.set v x.commit } :=
      .single (.object s v x trivial hx)
    have hr1 : { s with virtualObjects := s.virtualObjects.set v x.commit }.Rests v :=
      hr.of_leaves rfl rfl rfl rfl rfl rfl rfl rfl
    have go (l : List CommitListener) (s₁ : Scene) (hw₁ : Wired s₁) (hr₁ : s₁.Rests v)
        (hl : ∀ c ∈ l, s₁.ownerOf c = some v) : (l.foldl notifyCommitted s₁).limbs = s₁.limbs := by
      induction l generalizing s₁ with
      | nil => rfl
      | cons c l ih =>
        have hk : AllCommits s₁ (s₁.notifyCommitted c) :=
          notifyCommitted_commits (scope_true s₁) trivial
        have hm := sameWiring_of_skeleton hk.skeleton
        obtain ⟨h2, h3⟩ := notifyCommitted_limbs hw₁ hr₁ (hl c List.mem_cons_self)
        refine (ih (s₁.notifyCommitted c) (hw₁.same hm ?_) h3 fun d hd => ?_).trans h2
        · exact (nextId_of_skeleton hk.skeleton).symm.le
        · have ho : (s₁.notifyCommitted c).ownerOf = s₁.ownerOf := congrArg Wiring.owner hm.objects
          rw [ho]
          exact hl d (List.mem_cons_of_mem c hd)
    have hm1 := sameWiring_of_skeleton hk1.skeleton
    refine (go x.listeners _ (hw.same hm1 (nextId_of_skeleton hk1.skeleton).symm.le) hr1
      fun c hc => ?_).trans h1
    exact (hw.objects.mem v x.listeners c (by simp [objectWiring, hx])).mp hc

end Rests

section Content
variable {s s' : Scene} (h : s'.content = s.content)
include h

theorem memory_of_content : s'.shmBuffers = s.shmBuffers :=
  show s'.content.shmBuffers = s.content.shmBuffers from by rw [h]

theorem atRest_of_content {i : Holder} (hi : s.AtRest i) : s'.AtRest i := by
  have hm := memory_of_content h
  cases i with
  | buffer b =>
    intro x' hx'
    obtain ⟨x, hx, he⟩ := Arena.of_mapAll (congrArg Scene.glBuffers h) hx'
    have hp : x.pending = x'.pending := (congrArg GlBuffer.pending he :)
    rw [← hp, hm]
    exact hi x hx
  | texture t =>
    intro x' hx'
    obtain ⟨x, hx, he⟩ := Arena.of_mapAll (congrArg Scene.glTextures h) hx'
    have hp : x.pending = x'.pending := (congrArg GlTexture.pending he :)
    rw [← hp, hm]
    exact hi x hx
  | sampler p =>
    intro x' hx'
    obtain ⟨x, hx, he⟩ := Arena.of_mapAll (congrArg Scene.glSamplers h) hx'
    have hp : x.pending = x'.pending := (congrArg GlSampler.pending he :)
    rw [← hp]
    exact hi x hx
  | program p =>
    intro x' hx'
    have ha : s'.shaderAlive = s.shaderAlive := funext fun i =>
      Arena.isSome_of_mapAll (congrArg Scene.glShaders h) i
    have hg := congrArg Scene.glPrograms h
    simp only [content, ha] at hg
    obtain ⟨x, hx, he⟩ := Arena.of_mapAll hg hx'
    have hp : x.pending = x'.pending := (congrArg GlProgram.pending he :)
    have hl : x.current.linked = x'.current.linked := (congrArg (fun x => x.current.linked) he :)
    have hr := hi x hx
    simp only [GlProgram.AtRest, GlProgram.relinks, hp, hl] at hr
    exact hr
  | vertexArray va =>
    intro y' hy'
    obtain ⟨y, hy, he⟩ := Arena.of_mapAll (congrArg Scene.glVertexArrays h) hy'
    have hp : y.pending = y'.pending := (congrArg GlVertexArray.pending he :)
    have hc : y.current = y'.current := (congrArg GlVertexArray.current he :)
    rw [← hp, ← hc]
    exact hi y hy
  | _ => exact trivial

theorem meets_of_content {z z' : GlBaseTechnique}
    (he : bareTechnique s.bindingAlive z = bareTechnique s.bindingAlive z') {x : Holder}
    (hx : s'.Meets z' x) : s.Meets z x := by
  have hp : z.pending = z'.pending := (congrArg GlBaseTechnique.pending he :)
  have hv : z.current.vertexArray = z'.current.vertexArray :=
    congrArg (fun z => z.current.vertexArray) he
  have hg : z.current.program = z'.current.program := (congrArg (fun z => z.current.program) he :)
  have hl : z.current.textureBindings.list.filter s.bindingAlive =
      z'.current.textureBindings.list.filter s.bindingAlive :=
    congrArg (fun z => z.current.textureBindings.list) he
  have ha (va : ℕ) : (s'.glVertexArrays va).map GlVertexArray.pending =
      (s.glVertexArrays va).map GlVertexArray.pending := by
    have hm := congrArg (Option.map GlVertexArray.pending)
      (congrFun (congrArg Scene.glVertexArrays h) va)
    simp only [content, Arena.mapAll_apply, Option.map_map] at hm
    exact hm
  have hlist : (z.commit s.bindingAlive).current.textureBindings.list =
      (z'.commit s.bindingAlive).current.textureBindings.list := by
    simp only [GlBaseTechnique.commit, TechniqueState.commit, TextureBindingList.commit,
      TextureBindingList.removeExpired, hp, hl]
  rw [meets_congr (bindingAlive_of_content h) ha] at hx
  cases x with
  | vertexArray va =>
    simp only [Meets, GlBaseTechnique.bound, hp, hv] at hx ⊢
    exact hx
  | buffer b =>
    simp only [Meets, Touches, GlBaseTechnique.bound, hp, hv] at hx ⊢
    exact hx
  | program p =>
    simp only [Meets, GlBaseTechnique.commit, TechniqueState.commit, hp, hg] at hx ⊢
    exact hx
  | texture t =>
    simp only [Meets, hlist] at hx ⊢
    exact hx
  | sampler p =>
    simp only [Meets, hlist] at hx ⊢
    exact hx
  | _ => exact hx

theorem Rests.of_content {v : ℕ} (hr : s.Rests v) : s'.Rests v where
  units := fun u y' hy' hv => by
    obtain ⟨y, hy, he⟩ := unit_of_content h hy'
    have ho : y.owner = y'.owner := (congrArg RenderingUnit.owner he :)
    have hc : y.committed = y'.committed := (congrArg RenderingUnit.committed he :)
    rw [← hc]
    exact hr.units u y hy (ho.trans hv)
  techniques := fun t z' hz' hb => by
    obtain ⟨z, hz, he⟩ := technique_of_content h hz'
    have ho : z.owner = z'.owner := (congrArg GlBaseTechnique.owner he :)
    have hc : z.commited = z'.commited := (congrArg GlBaseTechnique.commited he :)
    have hp : z.pending = z'.pending := (congrArg GlBaseTechnique.pending he :)
    have hw : s'.ownerOf = s.ownerOf := congrArg Wiring.owner (sameWiring_of_content h).objects
    rw [BelongsTo, hw, ← ho] at hb
    obtain ⟨h1, h2, h3⟩ := hr.techniques t z hz hb
    exact ⟨hp ▸ h1, hc ▸ h2, fun x hx => atRest_of_content h (h3 x (meets_of_content h he hx))⟩

end Content

end Scene
end Yaza
