import Yaza.Zwin.Owned
import Yaza.Zwin.Stages

/-! Double buffering over whole runs: what a client has requested is committed by its own commits
alone, as long as no drag meets an object with something pending. -/
namespace Yaza

/-- What is left of a committed state: parts of it may be gone, but none is new. -/
structure Stage.Under {β τ : Type} (a b : Stage β τ) : Prop where
  frames : ∀ l, a.frames = some l → l = [] ∨ b.frames = some l
  app : ∀ x, a.app = some x → b.app = some x
  technique : ∀ x, a.technique = some x → b.technique = some x
  buffer : ∀ x, a.buffer = some x → b.buffer = some x
  texture : ∀ x, a.texture = some x → b.texture = some x
  sampler : ∀ x, a.sampler = some x → b.sampler = some x

theorem Stage.under_of_eq {β τ : Type} {a b : Stage β τ} (h : a = b) : a.Under b :=
  h ▸ ⟨fun _ h => .inr h, fun _ h => h, fun _ h => h, fun _ h => h, fun _ h => h, fun _ h => h⟩

namespace Scene

/-- The client whose request an action is; input and session events are nobody's. -/
def Action.client? : Action → Option ℕ
  | .request client _ => some client
  | .destroy client _ => some client
  | _ => none

/-- What a step may do to the two states of the objects. Where the action is not one of the client
of an object, both are left alone; the frame timer only takes away the callbacks that are committed.
And nothing is newly committed but by a commit request. -/
structure DoubleBuffered (s : Scene) (a : Action) : Prop where
  others : (∀ busyness, a ≠ .frameTimer busyness) → ∀ i r, s.resources i = some r →
    a.client? ≠ some r.client → SameStages s (s.step a) i
  ticks : ∀ busyness, a = .frameTimer busyness → ∀ i,
    (s.step a).requested (s.step a).bindingAlive i = s.requested (s.step a).bindingAlive i ∧
      { (s.step a).committed (s.step a).bindingAlive i with frames := none } =
        { s.committed (s.step a).bindingAlive i with frames := none }
  own : (∀ client v, a ≠ .request client (.commit v)) → ∀ i, i < s.nextId →
    ((s.step a).committed (s.step a).bindingAlive i).Under
      (s.committed (s.step a).bindingAlive i)

/-- A drag commits the virtual object of the app when that has nothing pending. -/
def DragsIdle (s : Scene) (a : Action) : Prop :=
  ∀ b polar azimuthal v, a = .moveApp b polar azimuthal → s.committedBy a = some v → s.Idle v

section Own
variable {s s' s'' : Scene}

/-- Below `n` nothing is newly committed; objects may go. -/
structure Shrinks (n : ℕ) (s s' : Scene) : Prop where
  objects : Arena.Inherits n VirtualObject.currentFrames s.virtualObjects s'.virtualObjects
  apps : Arena.Inherits n BoundedApp.current s.boundedApps s'.boundedApps
  techniques : Arena.Inherits n GlBaseTechnique.current s.baseTechniques s'.baseTechniques
  buffers : Arena.Inherits n GlBuffer.current s.glBuffers s'.glBuffers
  textures : Arena.Inherits n GlTexture.current s.glTextures s'.glTextures
  samplers : Arena.Inherits n GlSampler.current s.glSamplers s'.glSamplers

theorem Shrinks.refl (n : ℕ) (s : Scene) : Shrinks n s s :=
  ⟨.refl, .refl, .refl, .refl, .refl, .refl⟩

theorem Shrinks.trans {n : ℕ} (h : Shrinks n s s') (h' : Shrinks n s' s'') : Shrinks n s s'' :=
  ⟨h.objects.trans h'.objects, h.apps.trans h'.apps, h.techniques.trans h'.techniques,
    h.buffers.trans h'.buffers, h.textures.trans h'.textures, h.samplers.trans h'.samplers⟩

theorem Shrinks.under {n : ℕ} (h : Shrinks n s s') (alive : TextureBinding → Bool) {i : ℕ}
    (hi : i < n) : (s'.committed alive i).Under (s.committed alive i) := by
  have part {α β γ : Type} {k k' : Arena α} {g : α → β} (f : β → γ)
      (hk : Arena.Inherits n g k k') (y : γ) (hy : (k' i).map (fun x => f (g x)) = some y) :
      (k i).map (fun x => f (g x)) = some y := by
    obtain ⟨x', hx', rfl⟩ := Option.map_eq_some_iff.mp hy
    obtain ⟨x, hx, he⟩ := hk i hi x' hx'
    exact Option.map_eq_some_iff.mpr ⟨x, hx, by rw [he]⟩
  exact ⟨fun l hl => .inr (part id h.objects l hl), part id h.apps,
    part (TechniqueState.committed alive) h.techniques,
    part (fun c => { c with dataDamaged := false }) h.buffers,
    part (fun c => { c with dataChanged := false, mipmapTargetChanged := false }) h.textures,
    part id h.samplers⟩

theorem RequestStep.shrinks {T : ℕ → Prop} {client n : ℕ} (h : RequestStep T client s s')
    (hn : n ≤ s.nextId) : Shrinks n s s' := by
  cases h with
  | virtualObject hv => exact ⟨.set_new hn _, .refl, .refl, .refl, .refl, .refl⟩
  | unit v hv => exact ⟨.modify fun _ => rfl, .refl, .refl, .refl, .refl, .refl⟩
  | technique u hu => exact ⟨.refl, .refl, .set_new hn _, .refl, .refl, .refl⟩
  | bounded v hv => exact ⟨.modify fun _ => rfl, .set_new hn _, .refl, .refl, .refl, .refl⟩
  | buffer g => exact ⟨.refl, .refl, .refl, .set_new hn _, .refl, .refl⟩
  | texture g => exact ⟨.refl, .refl, .refl, .refl, .set_new hn _, .refl⟩
  | sampler => exact ⟨.refl, .refl, .refl, .refl, .refl, .set_new hn _⟩
  | configure b bytes hb => exact ⟨.refl, .modify fun _ => rfl, .refl, .refl, .refl, .refl⟩
  | app v b hv hb => exact ⟨.modify fun _ => rfl, .refl, .refl, .refl, .refl, .refl⟩
  | bound b x p hb hx => exact ⟨.refl, .set hx rfl, .refl, .refl, .refl, .refl⟩
  | ask t r ht hr => exact ⟨.refl, .refl, .modify fun _ => rfl, .refl, .refl, .refl⟩
  | data b target usage d hb => exact ⟨.refl, .refl, .refl, .modify fun _ => rfl, .refl, .refl⟩
  | image t i d ht => exact ⟨.refl, .refl, .refl, .refl, .modify fun _ => rfl, .refl⟩
  | mipmap t target ht => exact ⟨.refl, .refl, .refl, .refl, .modify fun _ => rfl, .refl⟩
  | parameter p pname v hp => exact ⟨.refl, .refl, .refl, .refl, .refl, .modify fun _ => rfl⟩
  | _ => exact ⟨.refl, .refl, .refl, .refl, .refl, .refl⟩

/-- A request that is no commit commits nothing. -/
theorem handle_shrinks (hs : Tree s) (client : ℕ) {r : Request} (hr : ∀ v, r ≠ .commit v) :
    Shrinks s.nextId s (s.handle client r) :=
  handle_relates (.refl _) .trans hs (fun _ _ h hn => h.shrinks hn) hr
    fun _ _ => ⟨.modify fun _ => rfl, .refl, .refl, .refl, .refl, .refl⟩

section Destroy
variable {n : ℕ}

theorem setTechnique_none_shrinks (s : Scene) (u : ℕ) : Shrinks n s (s.setTechnique u none) := by
  unfold setTechnique
  split
  · exact ⟨.refl, .refl, .refl, .refl, .refl, .refl⟩
  · rw [if_neg (by simp)]
    exact ⟨.refl, .refl, .refl, .refl, .refl, .refl⟩

theorem deleteTechnique_shrinks (s : Scene) (t : ℕ) : Shrinks n s (s.deleteTechnique t) := by
  unfold deleteTechnique
  split
  · exact ⟨.refl, .refl, .refl, .refl, .refl, .refl⟩
  · next x _ =>
    exact (setTechnique_none_shrinks s x.owner).trans
      ⟨.refl, .refl, .erase, .refl, .refl, .refl⟩

theorem removeRenderingUnit_shrinks (s : Scene) (v u : ℕ) :
    Shrinks n s (s.removeRenderingUnit v u) := by
  unfold removeRenderingUnit
  split
  · exact ⟨.refl, .refl, .refl, .refl, .refl, .refl⟩
  · next x hx =>
    split
    · exact .refl n s
    · exact ⟨.set hx rfl, .refl, .refl, .refl, .refl, .refl⟩

theorem deleteRenderingUnit_shrinks (s : Scene) (u : ℕ) :
    Shrinks n s (s.deleteRenderingUnit u) := by
  unfold deleteRenderingUnit
  split
  · exact ⟨.refl, .refl, .refl, .refl, .refl, .refl⟩
  · next y _ =>
    have h1 := removeRenderingUnit_shrinks (n := n) s y.owner u
    have h2 : Shrinks n (s.removeRenderingUnit y.owner u)
        ((s.removeRenderingUnit y.owner u).deleteTechnique? y.technique) := by
      cases y.technique with
      | none => exact .refl n _
      | some t => exact deleteTechnique_shrinks _ t
    exact (h1.trans h2).trans ⟨.modify fun _ => rfl, .refl, .refl, .refl, .refl, .refl⟩

theorem deleteBoundedApp_shrinks (s : Scene) (b : ℕ) : Shrinks n s (s.deleteBoundedApp b) := by
  unfold deleteBoundedApp
  split
  · exact ⟨.refl, .refl, .refl, .refl, .refl, .refl⟩
  · exact ⟨.modify fun _ => rfl, .erase, .refl, .refl, .refl, .refl⟩

theorem deleteVirtualObject_shrinks (s : Scene) (v : ℕ) :
    Shrinks n s (s.deleteVirtualObject v) := by
  unfold deleteVirtualObject
  split
  · exact ⟨.refl, .refl, .refl, .refl, .refl, .refl⟩
  · next x _ =>
    have units (l : List ℕ) (s : Scene) : Shrinks n s (l.foldl deleteRenderingUnit s) := by
      induction l generalizing s with
      | nil => exact .refl n s
      | cons u l ih => exact (deleteRenderingUnit_shrinks s u).trans (ih _)
    have h1 : Shrinks n s (s.markDestroying v) :=
      ⟨.modify fun _ => rfl, .refl, .refl, .refl, .refl, .refl⟩
    have h2 := units x.renderingUnitList (s.markDestroying v)
    have h3 (s : Scene) : Shrinks n s (s.deleteBoundedApp? x.app) := by
      cases x.app with
      | none => exact .refl n s
      | some b => exact deleteBoundedApp_shrinks s b
    exact ((h1.trans h2).trans (h3 _)).trans ⟨.erase, .refl, .refl, .refl, .refl, .refl⟩

theorem destroyResource_shrinks (s : Scene) (r : ℕ) : Shrinks n s (s.destroyResource r) := by
  have h1 (i : Interface) : Shrinks n s (s.deleteObject r i) := by
    cases i with
    | virtualObject => exact deleteVirtualObject_shrinks s r
    | bounded =>
      simp only [deleteObject]
      split
      · exact deleteBoundedApp_shrinks s r
      · exact .refl n s
    | renderingUnit =>
      simp only [deleteObject]
      split
      · exact deleteRenderingUnit_shrinks s r
      · exact .refl n s
    | baseTechnique =>
      simp only [deleteObject]
      split
      · exact deleteTechnique_shrinks s r
      · exact .refl n s
    | glBuffer => exact ⟨.refl, .refl, .refl, .erase, .refl, .refl⟩
    | glTexture => exact ⟨.refl, .refl, .refl, .refl, .erase, .refl⟩
    | glSampler => exact ⟨.refl, .refl, .refl, .refl, .refl, .erase⟩
    | _ => exact ⟨.refl, .refl, .refl, .refl, .refl, .refl⟩
  unfold destroyResource
  split
  · exact .refl n s
  · next x _ =>
    have h2 := h1 x.interface
    exact ⟨h2.objects, h2.apps, h2.techniques, h2.buffers, h2.textures, h2.samplers⟩

end Destroy

end Own

section Allot
variable {f : ℕ → ℕ} {client : ℕ} {s : Scene}

/-- `f` gives every new object to the client whose request makes it. -/
def Allots (f : ℕ → ℕ) (as : List Action) : Prop :=
  ∀ pre a client, pre ++ [a] <+: as → a.client? = some client →
    Gives f client (run pre).nextId (run (pre ++ [a])).nextId

theorem nextId_le_run {pre as : List Action} (hp : pre <+: as) :
    (run pre).nextId ≤ (run as).nextId := by
  obtain ⟨l, rfl⟩ := hp
  induction l using List.reverseRecOn with
  | nil => simp
  | append_singleton l c ih =>
    rw [← List.append_assoc, run_concat]
    exact ih.trans (nextId_le_step (run_tree _) c)

theorem exists_allots (as : List Action) : ∃ f, Allots f as := by
  induction as using List.reverseRecOn with
  | nil =>
    refine ⟨fun _ => 0, fun pre a client hp => ?_⟩
    simp [List.prefix_nil] at hp
  | append_singleton as a ih =>
    obtain ⟨f, hf⟩ := ih
    refine ⟨fun i => if i < (run as).nextId then f i else a.client?.getD 0, ?_⟩
    intro pre b client hp hb i h1 h2
    rcases List.prefix_concat_iff.mp hp with he | hp
    · obtain ⟨rfl, hab⟩ := List.append_inj' he rfl
      obtain rfl : b = a := (List.cons.inj hab).1
      simp [Nat.not_lt.mpr h1, hb]
    · have hlt : i < (run as).nextId := h2.trans_le (nextId_le_run hp)
      simp only [hlt, if_true]
      exact hf pre b client hp hb i h1 h2

theorem commitVirtualObject_segregated (ht : Tree s) (hs : Segregated f s) (v : ℕ) :
    Segregated f (s.commitVirtualObject v) := by
  have hc := commitState_commits_true s v
  exact (syncIfSession_steps (hc.tree ht).registered v).segregated (hc.segregated hs)

theorem admits_object {r : Request} (hr : s.admits client r) {i : ℕ} {k : Interface}
    (hi : (i, k) ∈ r.objects) : s.resources i = some ⟨client, k⟩ := by
  simp only [admits, Bool.and_eq_true, List.all_eq_true, decide_eq_true_eq] at hr
  exact hr.2 _ hi

/-- What the client asks for that is no commit stays with it. -/
theorem handle_within (ht : Tree s) (hs : Segregated f s) {r : Request}
    (hr : s.admits client r) (hc : ∀ v, r ≠ .commit v)
    (hg : Gives f client s.nextId (s.handle client r).nextId) :
    Within f client s (s.handle client r) := by
  have hT (i : ℕ) (hi : i ∈ r.objects.map Prod.fst) : f i = client := by
    obtain ⟨⟨j, k⟩, hj, rfl⟩ := List.mem_map.mp hi
    exact (hs.resources j _ (admits_object hr hj)).symm
  by_cases hf : ∃ v, r = .frame v
  · obtain ⟨v, rfl⟩ := hf
    exact queueFrameCallback_within hs (hT v (by simp [Request.objects]))
  · have hn : s.virtualObjects s.nextId = none := by
      simpa [forest] using (ht.fresh s.nextId (Nat.le_refl _)).1
    have h1 : RequestSteps (fun i => f i = client) client s (s.handle client r) := by
      refine handle_steps hT ?_ hn hc fun v h => hf ⟨v, h⟩
      rintro v halfSize rfl
      refine hg _ (Nat.le_refl _) ?_
      have h2 : (s.newBounded client v).nextId ≤
          (s.handle client (.getBounded v halfSize)).nextId := by
        have h3 : RequestSteps (fun _ => True) client (s.newBounded client v)
            (s.handle client (.getBounded v halfSize)) :=
          (configure_steps trivial halfSize).tail (.app _ v s.nextId trivial trivial)
        exact Path.preserves (P := fun u => (s.newBounded client v).nextId ≤ u.nextId)
          (fun _ _ h ih => ih.trans h.nextId_le) h3 (Nat.le_refl _)
      exact Nat.lt_of_lt_of_le (Nat.lt_succ_self _) h2
    exact h1.within hs (fun _ h => h) hg

theorem act_segregated (ht : Tree s) (hs : Segregated f s) (a : Action)
    (hg : ∀ client, a.client? = some client → Gives f client s.nextId (s.act a).nextId) :
    Segregated f (s.act a) := by
  cases a with
  | request client r =>
    have hg' := hg client rfl
    simp only [act] at hg' ⊢
    split
    · next hr =>
      rw [if_pos hr] at hg'
      by_cases hc : ∃ v, r = .commit v
      · obtain ⟨v, rfl⟩ := hc
        exact commitVirtualObject_segregated ht hs v
      · exact (handle_within ht hs hr (fun v h => hc ⟨v, h⟩) hg').segregated
    · exact hs
  | destroy client r =>
    simp only [act]
    split
    · next hr =>
      obtain ⟨x, hx, hxc⟩ := Option.any_eq_true _ _ |>.mp hr
      exact (destroyResource_within hs (hs.resources r x hx).symm).segregated
    · exact hs
  | peerDiscover connected =>
    rcases peerDiscover_cases ht.registered connected with ⟨h, -⟩ | ⟨-, h⟩
    · simp only [act, h]
      exact hs
    · exact h.segregated
        ⟨hs.resources, hs.objects, hs.apps, hs.units, hs.techniques, hs.vertexArrays⟩
  | sessionDisconnect =>
    simp only [act, sessionDisconnect]
    split
    · exact ⟨hs.resources, hs.objects.mapAll fun _ _ h => h, hs.apps,
        hs.units.mapAll fun _ _ h => h, hs.techniques.mapAll fun _ _ h => h,
        hs.vertexArrays.mapAll fun _ _ h => h⟩
    · exact hs
  | frameTimer busyness =>
    simp only [act, frameTimer]
    split
    · exact ⟨hs.resources, hs.objects.mapAll fun _ _ h => h, hs.apps, hs.units, hs.techniques,
        hs.vertexArrays⟩
    · exact hs
  | moveApp b polar azimuthal =>
    simp only [act, moveApp]
    split
    · exact hs
    · next x hx =>
      refine commitVirtualObject_segregated (ht.same (turnApp_same s b x polar azimuthal)) ?_ _
      exact ⟨hs.resources, hs.objects, hs.apps.set (hs.apps b x hx), hs.units, hs.techniques,
        hs.vertexArrays⟩

/-- What every step keeps that gives its new objects to its client holds in every run. -/
theorem run_of_allots {P : Scene → Prop} (h0 : P init)
    (hs : ∀ s a, Tree s → P s →
      (∀ client, a.client? = some client → Gives f client s.nextId (s.act a).nextId) → P (s.act a))
    {as : List Action} (ha : Allots f as) : P (run as) := by
  induction as using List.reverseRecOn with
  | nil => exact h0
  | append_singleton as a ih =>
    have h1 := ih fun pre b client hp => ha pre b client (hp.trans (List.prefix_append _ _))
    have hg := fun client => ha as a client List.prefix_rfl
    rw [run_concat] at hg ⊢
    unfold step at hg ⊢
    split
    · exact h1
    · next hf =>
      rw [if_neg hf] at hg
      exact hs _ a (run_tree as) h1 hg

theorem run_segregated {as : List Action} (ha : Allots f as) : Segregated f (run as) :=
  run_of_allots (by constructor <;> intro i x hx <;> cases hx)
    (fun _ a ht hs hg => act_segregated ht hs a hg) ha

end Allot

section Steps
variable {f : ℕ → ℕ} {s : Scene}

theorem commitVirtualObject_stages (ht : Tree s) (v : ℕ) :
    (s.commitVirtualObject v).stages = (s.commitState v).stages :=
  stages_of_content
    (syncIfSession_steps ((commitState_commits_true s v).tree ht).registered v).content

/-- A drag moves nothing, if the virtual object has nothing pending. -/
theorem moveApp_stages (ht : Tree s) (hw : Wired s) (hf : s.fault = none) {b : ℕ}
    {polar azimuthal : ℚ} (hd : s.DragsIdle (.moveApp b polar azimuthal)) :
    (s.moveApp b polar azimuthal).stages = s.stages := by
  unfold moveApp
  split
  · rfl
  · next x hx =>
    have h1 : (s.turnApp b x polar azimuthal).stages = s.stages := setApp_stages hx rfl
    have ht1 := ht.same (turnApp_same s b x polar azimuthal)
    have hw1 := hw.same (turnApp_wiring hx polar azimuthal) (Nat.le_refl _)
    rw [commitVirtualObject_stages ht1]
    cases hv : s.virtualObjects x.virtualObject with
    | none =>
      have hv1 : (s.turnApp b x polar azimuthal).virtualObjects x.virtualObject = none := hv
      simp only [commitState, hv1]
      exact h1
    | some o =>
      have hc : s.committedBy (.moveApp b polar azimuthal) = some x.virtualObject := by
        simp [committedBy, hf, hx, Arena.lock, hv]
      have hi := hd b polar azimuthal _ rfl hc
      exact (commitState_stages (hi.same h1) hw1).trans h1

/-- A commit request leaves the objects of the other clients alone. -/
theorem commitVirtualObject_others (ht : Tree s) (hs : Segregated f s) {v : ℕ} {i : ℕ}
    (hi : f i ≠ f v) : SameStages s (s.commitVirtualObject v) i := by
  have hc := commitState_commits (T := fun j => f j = f v) (hs.scope (f v)) rfl
  have h1 := (hc.others (hs.scope (f v))).sameStages (i := i) hi
  have h2 := commitVirtualObject_stages ht v
  have hb := bindingAlive_of_stages h2
  have h3 := sameStages_of_stages h2 i
  constructor
  · rw [h3.requested, hb, h1.requested]
  · rw [h3.committed, hb, h1.committed]

theorem act_others (ht : Tree s) (hw : Wired s) (hf : s.fault = none) (hs : Segregated f s)
    {a : Action} (hg : ∀ client, a.client? = some client → Gives f client s.nextId (s.act a).nextId)
    (hd : s.DragsIdle a) (hfr : ∀ busyness, a ≠ .frameTimer busyness) {i : ℕ} {r : Resource}
    (hr : s.resources i = some r) (hc : a.client? ≠ some r.client) :
    SameStages s (s.act a) i := by
  have hi : r.client = f i := hs.resources i r hr
  cases a with
  | request client q =>
    have hne : f i ≠ client := fun h => hc (by rw [hi, h]; rfl)
    have hg' := hg client rfl
    simp only [act] at hg' ⊢
    split
    · next hq =>
      rw [if_pos hq] at hg'
      by_cases hcm : ∃ v, q = .commit v
      · obtain ⟨v, rfl⟩ := hcm
        have hv : f v = client :=
          (hs.resources v _
            (admits_object hq (k := .virtualObject) (by simp [Request.objects]))).symm
        exact commitVirtualObject_others ht hs (by rwa [hv])
      · exact (handle_within ht hs hq (fun v h => hcm ⟨v, h⟩) hg').others.sameStages hne
    · exact .refl s i
  | destroy client j =>
    have hne : f i ≠ client := fun h => hc (by rw [hi, h]; rfl)
    simp only [act]
    split
    · next hj =>
      obtain ⟨x, hx, hxc⟩ := Option.any_eq_true _ _ |>.mp hj
      have hjc : f j = client := by
        rw [← hs.resources j x hx]
        simpa using hxc
      exact (destroyResource_within hs hjc).others.sameStages hne
    · exact .refl s i
  | peerDiscover connected =>
    exact sameStages_of_stages (stages_of_content (peerDiscover_content ht.registered connected)) i
  | sessionDisconnect =>
    exact sameStages_of_stages (stages_of_content (sessionDisconnect_content s)) i
  | frameTimer busyness => exact absurd rfl (hfr busyness)
  | moveApp b polar azimuthal => exact sameStages_of_stages (moveApp_stages ht hw hf hd) i

theorem frameTimer_ticks (s : Scene) (busyness i : ℕ) :
    (s.frameTimer busyness).requested (s.frameTimer busyness).bindingAlive i =
        s.requested (s.frameTimer busyness).bindingAlive i ∧
      { (s.frameTimer busyness).committed (s.frameTimer busyness).bindingAlive i with
          frames := none } =
        { s.committed (s.frameTimer busyness).bindingAlive i with frames := none } := by
  unfold frameTimer
  split
  · refine ⟨?_, rfl⟩
    simp only [requested, sessionFrame, Arena.mapAll_apply, Option.map_map]
    rfl
  · exact ⟨rfl, rfl⟩

theorem frameTimer_under (s : Scene) (alive : TextureBinding → Bool) (busyness i : ℕ) :
    ((s.frameTimer busyness).committed alive i).Under (s.committed alive i) := by
  unfold frameTimer
  split
  · refine ⟨fun l hl => .inl ?_, fun _ h => h, fun _ h => h, fun _ h => h, fun _ h => h,
      fun _ h => h⟩
    simp only [committed, sessionFrame, Arena.mapAll_apply, Option.map_map,
      Option.map_eq_some_iff] at hl
    obtain ⟨x, -, hx⟩ := hl
    exact hx.symm
  · exact Stage.under_of_eq rfl

theorem act_own (ht : Tree s) (hw : Wired s) (hf : s.fault = none) {a : Action}
    (hd : s.DragsIdle a) (hc : ∀ client v, a ≠ .request client (.commit v)) {i : ℕ}
    (hi : i < s.nextId) :
    ((s.act a).committed (s.act a).bindingAlive i).Under
      (s.committed (s.act a).bindingAlive i) := by
  cases a with
  | request client r =>
    simp only [act]
    split
    · exact (handle_shrinks ht client fun v h => hc client v (h ▸ rfl)).under _ hi
    · exact Stage.under_of_eq rfl
  | destroy client r =>
    simp only [act]
    split
    · exact (destroyResource_shrinks (n := s.nextId) s r).under _ hi
    · exact Stage.under_of_eq rfl
  | peerDiscover connected =>
    exact Stage.under_of_eq (sameStages_of_stages
      (stages_of_content (peerDiscover_content ht.registered connected)) i).committed
  | sessionDisconnect =>
    exact Stage.under_of_eq (sameStages_of_stages
      (stages_of_content (sessionDisconnect_content s)) i).committed
  | frameTimer busyness => exact frameTimer_under s _ busyness i
  | moveApp b polar azimuthal =>
    exact Stage.under_of_eq (sameStages_of_stages (moveApp_stages ht hw hf hd) i).committed

theorem step_doubleBuffered (ht : Tree s) (hw : Wired s) (hs : Segregated f s) {a : Action}
    (hg : ∀ client, a.client? = some client → Gives f client s.nextId (s.step a).nextId)
    (hd : s.DragsIdle a) : DoubleBuffered s a := by
  cases hf : s.fault with
  | some e =>
    have he : s.step a = s := by simp [step, hf]
    constructor
    · intro _ i _ _ _
      rw [he]
      exact .refl s i
    · intro _ _ i
      rw [he]
      exact ⟨rfl, rfl⟩
    · intro _ i _
      rw [he]
      exact Stage.under_of_eq rfl
  | none =>
    have he : s.step a = s.act a := by simp [step, hf]
    rw [he] at hg
    constructor
    · intro hfr i r hr hc
      rw [he]
      exact act_others ht hw hf hs hg hd hfr hr hc
    · rintro busyness rfl i
      rw [he]
      exact frameTimer_ticks s busyness i
    · intro hc i hi
      rw [he]
      exact act_own ht hw hf hd hc hi

end Steps

/-- As long as no drag meets a virtual object with something pending, what is requested is committed
by the commits of its own client alone. -/
theorem doubleBuffered_throughout (as : List Action) (h : Run.Each step DragsIdle init as) :
    Run.Each step DoubleBuffered init as := by
  obtain ⟨f, hf⟩ := exists_allots as
  intro pre a hp
  have hpre : Allots f pre := fun p b client hb =>
    hf p b client (hb.trans ((List.prefix_append _ _).trans hp))
  have hg := fun client => hf pre a client hp
  rw [run_concat] at hg
  exact step_doubleBuffered (run_tree pre) (run_wired pre) (run_segregated hpre) hg (h pre a hp)

/-- A client sets up an app with a technique and commits. -/
def settledRun : List Action :=
  [.request 0 .createVirtualObject, .request 0 (.createRenderingUnit 0),
    .request 0 (.createGlBaseTechnique 1), .request 0 (.getBounded 0 ⟨12, fun _ => 1⟩),
    .request 0 (.drawArrays 2 4 0 3), .request 0 (.frame 0), .request 0 (.ackConfigure 3 1),
    .request 0 (.commit 0)]

/-- The technique has nothing pending, and no leaf objects. -/
def isSettled (z : GlBaseTechnique) : Bool :=
  !z.pending.programChanged && !z.pending.vertexArrayChanged &&
    !z.pending.textureBindings.changed && !z.pending.drawApiArgs.changed &&
    z.pending.uniformVars.isEmpty && z.bound.isNone &&
    z.pending.drawApiArgs.committedBuffer.isNone && z.current.textureBindings.list.isEmpty

theorem techniqueIdle_of_isSettled {s : Scene} {z : GlBaseTechnique} (hz : isSettled z = true) :
    s.TechniqueIdle z := by
  simp only [isSettled, Bool.and_eq_true, Bool.not_eq_true', List.isEmpty_iff,
    Option.isNone_iff_eq_none] at hz
  obtain ⟨⟨⟨⟨⟨⟨⟨h1, h2⟩, h3⟩, h4⟩, h5⟩, h6⟩, h7⟩, h8⟩ := hz
  refine ⟨⟨h1, h2, h3, h4, h5⟩, fun b hb => ?_, fun b hb => ?_⟩
  · rcases hb with ⟨va, y, hva, -⟩ | hb
    · rw [h6] at hva
      cases hva
    · rw [h7] at hb
      cases hb
  · rw [h8] at hb
    cases hb

/-- After that nothing is pending. -/
theorem settledRun_idle : (run settledRun).Idle 0 where
  frames := fun x hx => by
    have h1 : ((run settledRun).virtualObjects 0).map VirtualObject.pendingFrames = some [] := by
      decide
    rw [hx] at h1
    exact Option.some.inj h1
  apps := fun b a hb _ => by
    have hlt : b < 5 := by
      by_contra hn
      have h1 := (run_wired settledRun).apps b (Nat.not_lt.mp hn)
      rw [hb] at h1
      cases h1
    have h1 : ∀ b < 5, ((run settledRun).boundedApps b).all fun a => a.pending = a.current := by
      decide
    have h2 := h1 b hlt
    rw [hb] at h2
    simpa using h2
  techniques := fun t z hz _ => by
    have hlt : t < 5 := by
      by_contra hn
      have h1 := ((run_tree settledRun).fresh t (Nat.not_lt.mp hn)).2.2
      rw [forest_owners hz] at h1
      cases h1
    have h1 : ∀ t < 5, ((run settledRun).baseTechniques t).all isSettled := by decide
    have h2 := h1 t hlt
    rw [hz] at h2
    exact techniqueIdle_of_isSettled h2

theorem doubleBuffered_throughout_drag :
    Run.Each step DoubleBuffered init (settledRun ++ [.moveApp 3 1 0]) := by
  refine doubleBuffered_throughout _ fun pre a hp b polar azimuthal v ha hv => ?_
  subst ha
  rcases List.prefix_concat_iff.mp hp with he | hp
  · obtain ⟨rfl, hab⟩ := List.append_inj' he rfl
    cases hab
    have h1 : (run settledRun).committedBy (.moveApp 3 1 0) = some 0 := by decide
    rw [show Run.final step init settledRun = run settledRun from rfl, h1] at hv
    cases hv
    exact settledRun_idle
  · have h1 : Action.moveApp b polar azimuthal ∈ settledRun := hp.subset (by simp)
    simp [settledRun] at h1

/-- A client gets an app. -/
def appRun : List Action :=
  [.request 0 .createVirtualObject, .request 0 (.getBounded 0 ⟨12, fun _ => 1⟩)]

/-- The client acknowledges the configure event, and before it commits, its app is dragged. -/
theorem dragged_before_commit : ¬ Run.Each step DoubleBuffered init
    (appRun ++ [.request 0 (.ackConfigure 1 1), .moveApp 1 0 0]) := by
  intro h
  have h1 := (h (appRun ++ [.request 0 (.ackConfigure 1 1)]) (.moveApp 1 0 0) (by simp)).own
    (fun _ _ hc => (by cases hc)) 1 (by decide)
  have h2 := h1.app { halfSize := List.replicate 12 1 } (by decide)
  revert h2
  decide

end Scene
end Yaza
