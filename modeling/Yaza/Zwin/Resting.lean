import Yaza.Zwin.Stages

/-! A virtual object at rest: after its commit, a further one has nothing to move. -/
namespace Yaza

/-- A commit leaves the program alone. -/
def GlProgram.AtRest (x : GlProgram) : Prop := (!x.pending.damaged || x.relinks) = true

theorem GlProgram.commit_of_atRest {x : GlProgram} (h : x.AtRest) : x.commit = x := by
  unfold GlProgram.AtRest at h
  rw [GlProgram.commit, if_pos h]

theorem GlProgram.atRest_commit (x : GlProgram) : x.commit.AtRest := by
  unfold GlProgram.commit
  split
  · next h => exact h
  · rfl

theorem TechniqueState.idle_afterCommit (p : TechniqueState) (alive : TextureBinding → Bool) :
    (p.afterCommit alive).Idle where
  program := rfl
  vertexArray := rfl
  textureBindings := rfl
  drawApiArgs := by
    simp only [afterCommit, DrawApiArgs.afterCommit]
    split
    · rfl
    · next h => simpa using h
  uniformVars := rfl

namespace Scene

/-- A commit of the object has nothing to move. -/
def AtRest (s : Scene) : Holder → Prop
  | .buffer b => s.BufferIdle b
  | .texture t => s.TextureIdle t
  | .sampler p => s.SamplerIdle p
  | .program p => ∀ x, s.glPrograms p = some x → x.AtRest
  | .vertexArray va => ∀ y, s.glVertexArrays va = some y → y.current = y.pending
  | _ => True

/-- The objects that a commit of the technique comes to. -/
def Meets (s : Scene) (z : GlBaseTechnique) : Holder → Prop
  | .vertexArray va => z.bound = some va
  | .buffer b => s.Touches z (.buffer b)
  | .program p => (z.commit s.bindingAlive).current.program = some p
  | .texture t => ∃ b ∈ (z.commit s.bindingAlive).current.textureBindings.list, b.texture = t
  | .sampler p => ∃ b ∈ (z.commit s.bindingAlive).current.textureBindings.list, b.sampler = p
  | _ => False

section Keeps
variable {s s' : Scene}

theorem atRest_of_leaves (hb : s'.glBuffers = s.glBuffers) (ht : s'.glTextures = s.glTextures)
    (hp : s'.glSamplers = s.glSamplers) (hg : s'.glPrograms = s.glPrograms)
    (ha : s'.glVertexArrays = s.glVertexArrays) (hm : s'.shmBuffers = s.shmBuffers) {x : Holder}
    (h : s.AtRest x) : s'.AtRest x := by
  cases x <;> simp only [AtRest, BufferIdle, TextureIdle, SamplerIdle, hb, ht, hp, hg, ha, hm] <;>
    exact h

theorem CommitStep.atRest {T : ℕ → Prop} (h : CommitStep T s s') {i : Holder} (hi : s.AtRest i) :
    s'.AtRest i := by
  cases h with
  | error r code text =>
    rcases postError_cases s r code text with h | ⟨e, h⟩ <;> rw [h] <;>
      exact atRest_of_leaves rfl rfl rfl rfl rfl rfl hi
  | unit u y hu hy hc =>
    rw [registerUnit, if_neg (by simp [hc])]
    rcases addRenderingUnit_cases s y.owner u with h | ⟨x, hx, h⟩ <;> rw [h] <;>
      exact atRest_of_leaves rfl rfl rfl rfl rfl rfl hi
  | buffer b r x shm hb hx =>
    cases i with
    | buffer j =>
      intro y hy
      simp only [Arena.set_apply] at hy
      split at hy
      · cases hy
        rfl
      · exact hi y hy
    | _ => exact hi
  | textureData t r x shm ht hx =>
    cases i with
    | texture j =>
      intro y hy
      simp only [Arena.set_apply] at hy
      split at hy
      · next hj =>
        cases hy
        rw [hj] at hi
        exact ⟨rfl, (hi x hx).2⟩
      · exact hi y hy
    | _ => exact hi
  | mipmap t ht =>
    cases i with
    | texture j =>
      intro y hy
      simp only [commitMipmap, Arena.modify_apply] at hy
      split at hy
      · obtain ⟨x, hx, rfl⟩ := Option.map_eq_some_iff.mp hy
        obtain ⟨h1, h2⟩ := hi x hx
        have he : x.commitMipmap = x := by simp [GlTexture.commitMipmap, h2]
        rw [he]
        exact ⟨h1, h2⟩
      · exact hi y hy
    | _ => exact hi
  | sampler p x hp hx =>
    cases i with
    | sampler j =>
      intro y hy
      simp only [Arena.set_apply] at hy
      split at hy
      · cases hy
        rfl
      · exact hi y hy
    | _ => exact hi
  | program p x hp hx =>
    cases i with
    | program j =>
      intro y hy
      simp only [Arena.set_apply] at hy
      split at hy
      · cases hy
        exact x.atRest_commit
      · exact hi y hy
    | _ => exact hi
  | vertexArray va x hva hx =>
    cases i with
    | vertexArray j =>
      intro y hy
      simp only [Arena.set_apply] at hy
      split at hy
      · cases hy
        rfl
      · exact hi y hy
    | _ => exact hi
  | _ => exact atRest_of_leaves rfl rfl rfl rfl rfl rfl hi

theorem Commits.atRest {T : ℕ → Prop} (h : Commits T s s') {i : Holder} (hi : s.AtRest i) :
    s'.AtRest i :=
  Path.preserves (P := fun s => s.AtRest i) (fun _ _ h hi => h.atRest hi) h hi

end Keeps

section Brings
variable {s : Scene}

/-- All the objects a step may commit. -/
abbrev AllCommits : Scene → Scene → Prop := Commits fun _ => True

theorem commitBuffer_atRest (b : ℕ) : (s.commitBuffer b).AtRest (.buffer b) := by
  cases hx : s.glBuffers b with
  | none =>
    have he : s.commitBuffer b = s.crash .useAfterFree := by simp [commitBuffer, hx]
    rw [he]
    intro x hx'
    cases hx.symm.trans hx'
  | some x =>
    intro y hy
    rcases commitBuffer_cases hx with ⟨he, hn⟩ | ⟨r, shm, hr, hm, he⟩
    · rw [he] at hy ⊢
      cases hx.symm.trans hy
      exact Option.bind_eq_none_iff.mpr fun r hr => hn r hr
    · rw [he] at hy
      simp only [Arena.set_self, Option.some.injEq] at hy
      rw [← hy]
      rfl

theorem commitWeakBuffer_atRest {o : Option ℕ} {b : ℕ} (ho : o = some b) :
    (s.commitWeakBuffer o).AtRest (.buffer b) := by
  unfold commitWeakBuffer
  split
  · next hl =>
    intro x hx
    rw [Arena.none_of_lock hl ho] at hx
    cases hx
  · next i hl =>
    obtain ⟨hi, -⟩ := Arena.lock_eq_some.mp hl
    cases ho.symm.trans hi
    exact commitBuffer_atRest b

theorem commitWeakProgram_atRest {o : Option ℕ} {p : ℕ} (ho : o = some p) :
    (s.commitWeakProgram o).AtRest (.program p) := by
  unfold commitWeakProgram
  split
  · next hl =>
    intro x hx
    rw [Arena.none_of_lock hl ho] at hx
    cases hx
  · next i hl =>
    obtain ⟨hi, hv⟩ := Arena.lock_eq_some.mp hl
    cases ho.symm.trans hi
    obtain ⟨x, hx⟩ := Option.isSome_iff_exists.mp hv
    intro y hy
    simp only [commitProgram, hx, Arena.set_self, Option.some.injEq] at hy
    rw [← hy]
    exact x.atRest_commit

/-- A bound vertex array, and the buffers of its attributes. -/
theorem commitWeakVertexArray_atRest {o : Option ℕ} {va : ℕ} (ho : o = some va) :
    (s.commitWeakVertexArray o).AtRest (.vertexArray va) ∧
      ∀ y, s.glVertexArrays va = some y → ∀ e ∈ y.pending, ∀ b, e.2.glBuffer = some b →
        (s.commitWeakVertexArray o).AtRest (.buffer b) := by
  unfold commitWeakVertexArray
  split
  · next hl =>
    have hn := Arena.none_of_lock hl ho
    refine ⟨fun y hy => ?_, fun y hy => ?_⟩
    · rw [hn] at hy
      cases hy
    · rw [hn] at hy
      cases hy
  · next i hl =>
    obtain ⟨hi, hv⟩ := Arena.lock_eq_some.mp hl
    cases ho.symm.trans hi
    obtain ⟨y, hy⟩ := Option.isSome_iff_exists.mp hv
    have keep (l : Table VertexAttribute) (s : Scene) : AllCommits s
        (l.foldl (fun s e => s.commitWeakBuffer e.2.glBuffer) s) :=
      Path.foldl (P := fun _ => True) (fun _ _ _ _ => trivial)
        (fun s _ e _ => commitWeakBuffer_commits fun _ _ => trivial) trivial
    have brings (l : Table VertexAttribute) (s : Scene) : ∀ e ∈ l, ∀ b, e.2.glBuffer = some b →
        (l.foldl (fun s e => s.commitWeakBuffer e.2.glBuffer) s).AtRest (.buffer b) := by
      induction l generalizing s with
      | nil => simp
      | cons d l ih =>
        intro e he b hb
        rcases List.mem_cons.mp he with rfl | he
        · exact (keep l _).atRest (commitWeakBuffer_atRest hb)
        · exact ih _ e he b hb
    simp only [commitVertexArray, hy]
    constructor
    · refine (keep y.pending _).atRest fun w hw => ?_
      simp only [Arena.set_self, Option.some.injEq] at hw
      rw [← hw]
      rfl
    · intro w hw e he b hb
      cases hw
      exact brings y.pending _ e he b hb

theorem commitTexture_atRest (t : ℕ) : (s.commitTexture t).AtRest (.texture t) := by
  intro y hy
  simp only [commitTexture, commitMipmap, Arena.modify_self] at hy
  obtain ⟨x, hx, rfl⟩ := Option.map_eq_some_iff.mp hy
  have h1 : x.pending.data.bind s.shmBuffers = none := by
    unfold commitTextureData at hx
    split at hx
    · next hn => cases hn.symm.trans hx
    · next x' hx' =>
      split at hx
      · next hl =>
        cases hx'.symm.trans hx
        exact Option.bind_eq_none_iff.mpr fun r hr => Arena.none_of_lock hl hr
      · next r hl =>
        split at hx
        · next hm =>
          have hs := (Arena.lock_eq_some.mp hl).2
          rw [hm] at hs
          cases hs
        · simp only [Arena.set_self, Option.some.injEq] at hx
          rw [← hx]
          rfl
  have hm : (s.commitTexture t).shmBuffers = s.shmBuffers :=
    shmBuffers_of_skeleton (commitTexture_commits (T := fun _ => True) trivial).skeleton
  rw [hm]
  unfold GlTexture.commitMipmap
  split
  · exact ⟨h1, rfl⟩
  · next h => exact ⟨h1, by simpa using h⟩

theorem commitSampler_atRest (p : ℕ) : (s.commitSampler p).AtRest (.sampler p) := by
  intro y hy
  unfold commitSampler at hy
  split at hy
  · next hn => cases hn.symm.trans hy
  · simp only [Arena.set_self, Option.some.injEq] at hy
    rw [← hy]
    rfl

theorem commitBindings_atRest (l : List TextureBinding) (s : Scene) :
    ∀ b ∈ l, (l.foldl commitBinding s).AtRest (.texture b.texture) ∧
      (l.foldl commitBinding s).AtRest (.sampler b.sampler) := by
  induction l generalizing s with
  | nil => simp
  | cons d l ih =>
    intro b hb
    rcases List.mem_cons.mp hb with rfl | hb
    · have h1 : AllCommits (s.commitBinding b) (l.foldl commitBinding (s.commitBinding b)) :=
        Path.foldl (P := fun _ => True) (fun _ _ _ _ => trivial)
          (fun s _ b _ => commitBinding_commits trivial trivial) trivial
      have h2 : AllCommits (s.commitTexture b.texture) (s.commitBinding b) :=
        commitSampler_commits trivial
      exact ⟨h1.atRest (h2.atRest (commitTexture_atRest b.texture)),
        h1.atRest (commitSampler_atRest b.sampler)⟩
    · exact ih _ b hb

end Brings

/-- Each round brings to rest what it comes to, and leaves the rest to the others. -/
structure Calms {ι : Type} (f : Scene → ι → Scene) (R : Scene → ι → Holder → Prop) : Prop where
  brings : ∀ s i x, R s i x → (f s i).AtRest x
  keeps : ∀ s i x, s.AtRest x → (f s i).AtRest x
  up : ∀ s i j x, R s j x → (f s i).AtRest x ∨ R (f s i) j x

theorem Calms.foldl {ι : Type} {f : Scene → ι → Scene} {R : Scene → ι → Holder → Prop}
    (h : Calms f R) : Calms (fun s l => List.foldl f s l) (fun s l x => ∃ i ∈ l, R s i x) := by
  have keeps (l : List ι) (s : Scene) (x : Holder) (hx : s.AtRest x) : (l.foldl f s).AtRest x := by
    induction l generalizing s with
    | nil => exact hx
    | cons i l ih => exact ih (f s i) (h.keeps s i x hx)
  have up (l : List ι) (s : Scene) (j : ι) (x : Holder) (hr : R s j x) :
      (l.foldl f s).AtRest x ∨ R (l.foldl f s) j x := by
    induction l generalizing s with
    | nil => exact .inr hr
    | cons i l ih =>
      rcases h.up s i j x hr with hx | hr
      · exact .inl (keeps l (f s i) x hx)
      · exact ih (f s i) hr
  have brings (l : List ι) (s : Scene) (i : ι) (hi : i ∈ l) (x : Holder) (hr : R s i x) :
      (l.foldl f s).AtRest x := by
    induction l generalizing s with
    | nil => cases hi
    | cons j l ih =>
      rcases List.mem_cons.mp hi with rfl | hi
      · exact keeps l (f s i) x (h.brings s i x hr)
      · rcases h.up s j i x hr with hx | hr
        · exact keeps l (f s j) x hx
        · exact ih (f s j) hi hr
  refine ⟨fun s l x hr => ?_, fun s l x hx => keeps l s x hx, fun s l m x hr => ?_⟩
  · obtain ⟨i, hi, hr⟩ := hr
    exact brings l s i hi x hr
  · obtain ⟨j, hj, hr⟩ := hr
    exact (up l s j x hr).imp_right fun hr => ⟨j, hj, hr⟩

/-- What a commit of the technique `t` comes to. -/
def MetBy (s : Scene) (t : ℕ) (x : Holder) : Prop :=
  ∃ z, s.baseTechniques t = some z ∧ s.Meets z x

theorem meets_congr {s s' : Scene} (ha : s'.bindingAlive = s.bindingAlive)
    (hp : ∀ va, (s'.glVertexArrays va).map GlVertexArray.pending =
      (s.glVertexArrays va).map GlVertexArray.pending) (z : GlBaseTechnique) (x : Holder) :
    s'.Meets z x ↔ s.Meets z x := by
  cases x with
  | buffer b => exact touches_congr hp z (.buffer b)
  | _ => simp only [Meets, ha]

theorem commitLeaves_atRest {s : Scene} {z : GlBaseTechnique} {alive : TextureBinding → Bool}
    (ha : s.bindingAlive = alive) {x : Holder} (hx : s.Meets z x) :
    (s.commitLeaves z (z.commit alive)).AtRest x := by
  subst ha
  have k1 : AllCommits s (s.commitWeakProgram (z.commit s.bindingAlive).current.program) :=
    commitWeakProgram_commits fun _ _ => trivial
  have k2 (s' : Scene) (o : Option ℕ) : AllCommits s' (s'.commitWeakVertexArray o) :=
    commitWeakVertexArray_commits (scope_true s') fun _ _ => trivial
  have k3 (s' : Scene) (o : Option ℕ) : AllCommits s' (s'.commitWeakBuffer o) :=
    commitWeakBuffer_commits fun _ _ => trivial
  have k4 (s' : Scene) (l : List TextureBinding) : AllCommits s' (l.foldl commitBinding s') :=
    Path.foldl (P := fun _ => True) (fun _ _ _ _ => trivial)
      (fun s _ b _ => commitBinding_commits trivial trivial) trivial
  unfold commitLeaves
  cases x with
  | program p =>
    exact (k4 _ _).atRest ((k3 _ _).atRest ((k2 _ _).atRest (commitWeakProgram_atRest hx)))
  | vertexArray va =>
    exact (k4 _ _).atRest ((k3 _ _).atRest (commitWeakVertexArray_atRest hx).1)
  | buffer b =>
    rcases hx with ⟨va, y, hva, hy, e, he, hb⟩ | hd
    · refine (k4 _ _).atRest ((k3 _ _).atRest ?_)
      have hv : (s.commitWeakProgram (z.commit s.bindingAlive).current.program).glVertexArrays va =
          some y :=
        ((commitWeakProgram_settles s _).arrays va).2 id |>.trans hy
      exact (commitWeakVertexArray_atRest hva).2 y hv e he b hb
    · exact (k4 _ _).atRest (commitWeakBuffer_atRest hd)
  | texture t =>
    obtain ⟨b, hb, rfl⟩ := hx
    exact (commitBindings_atRest _ _ b hb).1
  | sampler p =>
    obtain ⟨b, hb, rfl⟩ := hx
    exact (commitBindings_atRest _ _ b hb).2
  | _ => exact trivial

theorem techniques_calm : Calms commitTechnique MetBy := by
  have commits (s : Scene) (t : ℕ) : AllCommits s (s.commitTechnique t) :=
    commitTechnique_commits (scope_true s) trivial
  have brings (s : Scene) (t : ℕ) (x : Holder) (h : s.MetBy t x) :
      (s.commitTechnique t).AtRest x := by
    obtain ⟨z, hz, hx⟩ := h
    have h1 : AllCommits s (s.registerTechnique t z) := registerTechnique_commits trivial hz
    have hb : (s.registerTechnique t z).bindingAlive = s.bindingAlive :=
      bindingAlive_of_skeleton h1.skeleton
    rw [commitTechnique, hz]
    refine commitLeaves_atRest (s := (s.registerTechnique t z).storeTechnique t
      (z.commit s.bindingAlive)) hb ?_
    refine (meets_congr hb (fun va => ?_) z x).mpr hx
    exact (registerTechnique_settles s t z).pending va
  refine ⟨brings, fun s t x hx => (commits s t).atRest hx, fun s i j x h => ?_⟩
  by_cases hi : j = i
  · subst hi
    exact .inl (brings s j x h)
  · obtain ⟨z, hz, hx⟩ := h
    refine .inr ⟨z, ?_, (meets_congr (bindingAlive_of_skeleton (commits s i).skeleton)
      (commitTechnique_settles s i).pending z x).mpr hx⟩
    rw [commitTechnique_techniques, Arena.modify_of_ne _ _ hi]
    exact hz

/-- What a commit comes to through one of its listeners. -/
def MetThrough (s : Scene) : CommitListener → Holder → Prop
  | .unit u, x => ∃ t ∈ s.listenersOf u, s.MetBy t x
  | .app _, _ => False

theorem metBy_congr {s s' : Scene} (ht : s'.baseTechniques = s.baseTechniques)
    (ha : s'.bindingAlive = s.bindingAlive)
    (hp : ∀ va, (s'.glVertexArrays va).map GlVertexArray.pending =
      (s.glVertexArrays va).map GlVertexArray.pending) (t : ℕ) (x : Holder) :
    s'.MetBy t x ↔ s.MetBy t x := by
  simp only [MetBy, ht, meets_congr ha hp]

theorem listenersOf_of_skeleton {s s' : Scene} (h : s'.skeleton = s.skeleton) (u : ℕ) :
    s'.listenersOf u = s.listenersOf u :=
  congrArg (Option.getD · []) (listeners_of_skeleton h u)

theorem registerUnit_metBy {s : Scene} {u : ℕ} {y : RenderingUnit}
    (hy : s.renderingUnits u = some y) (t : ℕ) (x : Holder) :
    (s.registerUnit u y).MetBy t x ↔ s.MetBy t x := by
  have h1 : AllCommits s (s.registerUnit u y) := registerUnit_commits trivial hy
  exact metBy_congr (registerUnit_techniques s u y) (bindingAlive_of_skeleton h1.skeleton)
    (registerUnit_settles s u y).pending t x

theorem notifyCommitted_metBy (s : Scene) (l : CommitListener) {t : ℕ} {x : Holder}
    (h : s.MetBy t x) : (s.notifyCommitted l).AtRest x ∨ (s.notifyCommitted l).MetBy t x := by
  cases l with
  | app b =>
    have ht : (s.commitApp b).baseTechniques = s.baseTechniques := by
      unfold commitApp
      split <;> rfl
    have hk : AllCommits s (s.commitApp b) := commitApp_commits trivial
    exact .inr ((metBy_congr ht (bindingAlive_of_skeleton hk.skeleton)
      (commitApp_settles s b).pending t x).mpr h)
  | unit u =>
    cases hy : s.renderingUnits u with
    | none =>
      rw [notifyCommitted, commitUnit, hy]
      exact .inr h
    | some y =>
      rw [notifyCommitted, commitUnit, hy]
      have h1 := techniques_calm.foldl.up (s.registerUnit u y) y.listeners [t] x
        ⟨t, by simp, (registerUnit_metBy hy t x).mpr h⟩
      rcases h1 with h1 | ⟨i, hi, h1⟩
      · exact .inl h1
      · rw [List.mem_singleton.mp hi] at h1
        exact .inr h1

theorem listeners_calm : Calms notifyCommitted MetThrough := by
  have commits (s : Scene) (l : CommitListener) : AllCommits s (s.notifyCommitted l) :=
    notifyCommitted_commits (scope_true s) trivial
  refine ⟨fun s l x h => ?_, fun s l x hx => (commits s l).atRest hx, fun s l m x h => ?_⟩
  · cases l with
    | app b => exact h.elim
    | unit u =>
      obtain ⟨t, ht, h⟩ := h
      cases hy : s.renderingUnits u with
      | none => simp [listenersOf, hy] at ht
      | some y =>
        rw [notifyCommitted, commitUnit, hy]
        have hl : t ∈ y.listeners := by simpa [listenersOf, hy] using ht
        exact techniques_calm.foldl.brings _ y.listeners x
          ⟨t, hl, (registerUnit_metBy hy t x).mpr h⟩
  · cases m with
    | app b => exact h.elim
    | unit u =>
      obtain ⟨t, ht, h⟩ := h
      refine (notifyCommitted_metBy s l h).imp_right fun h => ⟨t, ?_, h⟩
      rw [listenersOf_of_skeleton (commits s l).skeleton]
      exact ht

/-- `VirtualObject::commit` brings to rest all that its techniques come to. -/
theorem commitState_atRest {s : Scene} (hw : Wired s) {v : ℕ} (hv : (s.virtualObjects v).isSome)
    {t : ℕ} {z : GlBaseTechnique} (hz : s.baseTechniques t = some z) (ho : s.BelongsTo z v)
    {x : Holder} (hx : s.Meets z x) : (s.commitState v).AtRest x := by
  obtain ⟨o, hob⟩ := Option.isSome_iff_exists.mp hv
  have hm : CommitListener.unit z.owner ∈ o.listeners :=
    (hw.objects.mem v o.listeners _ (by simp [objectWiring, hob])).mpr ho
  obtain ⟨y, hy, -⟩ := Option.map_eq_some_iff.mp ho
  have ht : t ∈ y.listeners :=
    (hw.units.mem z.owner y.listeners t (by simp [unitWiring, hy])).mpr (by simp [unitWiring, hz])
  rw [commitState, hob]
  refine listeners_calm.foldl.brings _ o.listeners x ⟨_, hm, t, ?_, z, hz, hx⟩
  simp [listenersOf, hy, ht]

/-- The technique was committed, nothing was requested of it since, and all that a commit of it
comes to is at rest. -/
structure TechniqueRests (s : Scene) (z : GlBaseTechnique) : Prop where
  pending : z.pending.Idle
  commited : z.commited = true
  leaves : ∀ x, s.Meets z x → s.AtRest x

/-- A commit of the virtual object has nothing to move. -/
structure Rests (s : Scene) (v : ℕ) : Prop where
  units : ∀ u y, s.renderingUnits u = some y → y.owner = v → y.committed = true
  techniques : ∀ t z, s.baseTechniques t = some z → s.BelongsTo z v → s.TechniqueRests z

/-- The virtual objects, the apps and the events do not matter. -/
theorem Rests.of_leaves {s s' : Scene} {v : ℕ} (h : s.Rests v)
    (hu : s'.renderingUnits = s.renderingUnits) (hz : s'.baseTechniques = s.baseTechniques)
    (hb : s'.glBuffers = s.glBuffers) (ht : s'.glTextures = s.glTextures)
    (hp : s'.glSamplers = s.glSamplers) (hg : s'.glPrograms = s.glPrograms)
    (ha : s'.glVertexArrays = s.glVertexArrays) (hm : s'.shmBuffers = s.shmBuffers) :
    s'.Rests v where
  units := fun u y hy => h.units u y (hu ▸ hy)
  techniques := fun t z hz' hv => by
    have hl : s'.bindingAlive = s.bindingAlive :=
      bindingAlive_congr (fun i => by rw [ht]) fun i => by rw [hp]
    obtain ⟨h1, h2, h3⟩ := h.techniques t z (hz ▸ hz') (by simpa [BelongsTo, ownerOf, hu] using hv)
    refine ⟨h1, h2, fun x hx => atRest_of_leaves hb ht hp hg ha hm (h3 x ?_)⟩
    exact (meets_congr hl (fun i => by rw [ha]) z x).mp hx

/-- What a technique comes to when it is committed again. -/
theorem meets_commit {s : Scene} {z : GlBaseTechnique} {x : Holder}
    (h : s.Meets (z.commit s.bindingAlive) x) : s.Meets z x := by
  have hl (b : TextureBinding) (hb : b ∈ ((z.commit s.bindingAlive).commit
      s.bindingAlive).current.textureBindings.list) :
      b ∈ (z.commit s.bindingAlive).current.textureBindings.list :=
    List.mem_of_mem_filter hb
  cases x with
  | vertexArray va => exact h
  | program p => exact h
  | buffer b =>
    have hb : s.Touches (z.commit s.bindingAlive) (.buffer b) := h
    exact touches_commit hb
  | texture t =>
    obtain ⟨b, hb, h⟩ := h
    exact ⟨b, hl b hb, h⟩
  | sampler p =>
    obtain ⟨b, hb, h⟩ := h
    exact ⟨b, hl b hb, h⟩
  | _ => exact h

theorem commitState_rests {s : Scene} (hw : Wired s) {v : ℕ} (hv : (s.virtualObjects v).isSome) :
    (s.commitState v).Rests v := by
  have hk := commitState_commits_true s v
  have ho : (s.commitState v).ownerOf = s.ownerOf :=
    congrArg Wiring.owner (sameWiring_of_skeleton hk.skeleton).objects
  refine ⟨fun u y hy hu => ?_, fun t z' hz' hb => ?_⟩
  · obtain ⟨y₀, -, hy₀, hc⟩ := commitState_committed hw hv hy
    exact hc.mpr (.inr (hy₀.trans hu))
  · rw [commitState_techniques hw hv] at hz'
    obtain ⟨z, hz, rfl⟩ := Option.map_eq_some_iff.mp hz'
    have hz₀ : s.ownerOf (.unit z.owner) = some v := by
      have : (if s.ownerOf (.unit z.owner) = some v then z.commit s.bindingAlive else z).owner =
          z.owner := by split <;> rfl
      rw [BelongsTo, this, ho] at hb
      exact hb
    rw [if_pos hz₀]
    refine ⟨z.pending.idle_afterCommit s.bindingAlive, rfl, fun x hx => ?_⟩
    rw [meets_congr (bindingAlive_of_skeleton hk.skeleton)
      (commitState_settles hw hv).pending] at hx
    exact commitState_atRest hw hv hz hz₀ (meets_commit hx)

end Scene
end Yaza
