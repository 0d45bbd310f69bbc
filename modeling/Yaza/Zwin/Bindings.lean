import Yaza.Zwin.Refinement
import Yaza.Zwin.RequestSteps

/-! The texture bindings of a technique: after a commit, what stands is the last binding asked for
each slot, if its texture and its sampler are still there. -/
namespace Yaza
namespace Scene

/-- Textures and samplers are not revived, and the addresses of resources are given out in order. -/
structure Fades (s s' : Scene) : Prop where
  nextId : s.nextId ≤ s'.nextId
  resources : ∀ i, (s'.resources i).isSome → (s.resources i).isSome ∨ i < s'.nextId
  textures : ∀ i < s.nextId, (s'.glTextures i).isSome → (s.glTextures i).isSome
  samplers : ∀ i < s.nextId, (s'.glSamplers i).isSome → (s.glSamplers i).isSome

section Fades
variable {s s' s'' : Scene}

theorem Fades.refl (s : Scene) : Fades s s :=
  ⟨Nat.le_refl _, fun _ => .inl, fun _ _ h => h, fun _ _ h => h⟩

theorem Fades.trans (h : Fades s s') (h' : Fades s' s'') : Fades s s'' where
  nextId := h.nextId.trans h'.nextId
  resources := fun i hi => by
    rcases h'.resources i hi with h1 | h1
    · exact (h.resources i h1).imp_right fun h2 => h2.trans_le h'.nextId
    · exact .inr h1
  textures := fun i hi ht => h.textures i hi (h'.textures i (hi.trans_le h.nextId) ht)
  samplers := fun i hi hp => h.samplers i hi (h'.samplers i (hi.trans_le h.nextId) hp)

theorem fades_of_eq (hn : s'.nextId = s.nextId) (hr : s'.resources = s.resources)
    (ht : ∀ i, (s'.glTextures i).isSome = (s.glTextures i).isSome)
    (hp : ∀ i, (s'.glSamplers i).isSome = (s.glSamplers i).isSome) : Fades s s' where
  nextId := Nat.le_of_eq hn.symm
  resources := fun _ h => .inl (hr ▸ h)
  textures := fun i _ h => ht i ▸ h
  samplers := fun i _ h => hp i ▸ h

theorem fades_of_new {client : ℕ} {i : Interface} (hn : s'.nextId = s.nextId + 1)
    (hr : s'.resources = s.resources.set s.nextId ⟨client, i⟩)
    (ht : ∀ j, j ≠ s.nextId → s'.glTextures j = s.glTextures j)
    (hp : ∀ j, j ≠ s.nextId → s'.glSamplers j = s.glSamplers j) : Fades s s' where
  nextId := by omega
  resources := fun j h => by
    rw [hr, Arena.set_apply] at h
    split at h
    · exact .inr (by omega)
    · exact .inl h
  textures := fun j hj h => ht j (Nat.ne_of_lt hj) ▸ h
  samplers := fun j hj h => hp j (Nat.ne_of_lt hj) ▸ h

theorem RequestStep.fades {T : ℕ → Prop} {client : ℕ} (h : RequestStep T client s s') :
    Fades s s' := by
  cases h with
  | virtualObject | unit | technique | bounded | program | shader | vertexArray | buffer | region
  | shmBuffer =>
    exact fades_of_new rfl rfl (fun _ _ => rfl) fun _ _ => rfl
  | texture g => exact fades_of_new rfl rfl (fun j hj => Arena.set_of_ne _ _ hj) fun _ _ => rfl
  | sampler => exact fades_of_new rfl rfl (fun _ _ => rfl) fun j hj => Arena.set_of_ne _ _ hj
  | image | mipmap =>
    exact fades_of_eq rfl rfl (fun i => Arena.modify_isSome _ _ i _) fun _ => rfl
  | parameter =>
    exact fades_of_eq rfl rfl (fun _ => rfl) fun i => Arena.modify_isSome _ _ i _
  | _ => exact fades_of_eq rfl rfl (fun _ => rfl) fun _ => rfl

theorem fades_of_content (h : s'.content = s.content) : Fades s s' := by
  have hp {β : Type} (f : Scene → β) : f s'.content = f s.content := congrArg f h
  exact fades_of_eq (hp Scene.nextId) (hp Scene.resources)
    (Arena.isSome_of_mapAll (hp Scene.glTextures)) (Arena.isSome_of_mapAll (hp Scene.glSamplers))

theorem fades_of_skeleton (h : s'.skeleton = s.skeleton) : Fades s s' := by
  have hp {β : Type} (f : Scene → β) : f s'.skeleton = f s.skeleton := congrArg f h
  exact fades_of_eq (hp Scene.nextId) (hp Scene.resources)
    (Arena.isSome_of_mapAll (hp Scene.glTextures)) (Arena.isSome_of_mapAll (hp Scene.glSamplers))

theorem fades_of_leaves (h : s'.leaves = s.leaves) : Fades s s' := by
  have hp {β : Type} (f : Scene → β) : f s'.leaves = f s.leaves := congrArg f h
  have ht : s'.glTextures = s.glTextures := hp Scene.glTextures
  have hs : s'.glSamplers = s.glSamplers := hp Scene.glSamplers
  exact fades_of_eq (hp Scene.nextId) (hp Scene.resources) (fun i => by rw [ht])
    fun i => by rw [hs]

theorem commitVirtualObject_fades (hs : Tree s) (v : ℕ) : Fades s (s.commitVirtualObject v) := by
  have hc := commitState_commits_true s v
  exact (fades_of_skeleton hc.skeleton).trans
    (fades_of_content (syncIfSession_steps (hc.tree hs).registered v).content)

theorem handle_fades (hs : Tree s) (client : ℕ) (r : Request) : Fades s (s.handle client r) := by
  by_cases hc : ∃ v, r = .commit v
  · obtain ⟨v, rfl⟩ := hc
    exact commitVirtualObject_fades hs v
  by_cases hf : ∃ v, r = .frame v
  · obtain ⟨v, rfl⟩ := hf
    exact ⟨Nat.le_succ _, fun _ => .inl, fun _ _ h => h, fun _ _ h => h⟩
  have hn : s.virtualObjects s.nextId = none := by
    simpa [forest] using (hs.fresh s.nextId (Nat.le_refl _)).1
  have h1 : RequestSteps (fun _ => True) client s (s.handle client r) :=
    handle_steps (fun _ _ => trivial) (fun _ _ _ => trivial) hn (fun v h => hc ⟨v, h⟩)
      fun v h => hf ⟨v, h⟩
  exact Path.preserves (P := Fades s) (fun _ _ h ih => ih.trans h.fades) h1 (.refl s)

theorem destroyResource_fades (s : Scene) (r : ℕ) : Fades s (s.destroyResource r) := by
  unfold destroyResource
  split
  · exact .refl s
  · next x _ =>
    have h1 : Fades s (s.deleteObject r x.interface) := by
      cases x.interface with
      | virtualObject | bounded | renderingUnit | baseTechnique =>
        exact fades_of_leaves (deleteObject_leaves s r rfl)
      | glTexture =>
        refine ⟨Nat.le_refl _, fun _ => .inl, fun i _ h => ?_, fun _ _ h => h⟩
        simp only [deleteObject, Arena.erase_apply] at h
        split at h
        · cases h
        · exact h
      | glSampler =>
        refine ⟨Nat.le_refl _, fun _ => .inl, fun _ _ h => h, fun i _ h => ?_⟩
        simp only [deleteObject, Arena.erase_apply] at h
        split at h
        · cases h
        · exact h
      | _ => exact fades_of_eq rfl rfl (fun _ => rfl) fun _ => rfl
    refine ⟨h1.nextId, fun i h => ?_, h1.textures, h1.samplers⟩
    simp only [Arena.erase_apply] at h
    split at h
    · cases h
    · exact .inl h

theorem step_fades (hs : Tree s) (a : Action) : Fades s (s.step a) := by
  unfold step
  split
  · exact .refl s
  cases a with
  | request client r =>
    simp only [act]
    split
    · exact handle_fades hs client r
    · exact .refl s
  | destroy client r =>
    simp only [act]
    split
    · exact destroyResource_fades s r
    · exact .refl s
  | peerDiscover connected => exact fades_of_content (peerDiscover_content hs.registered connected)
  | sessionDisconnect => exact fades_of_content (sessionDisconnect_content s)
  | frameTimer busyness =>
    simp only [act, frameTimer]
    split
    · exact fades_of_eq rfl rfl (fun _ => rfl) fun _ => rfl
    · exact .refl s
  | moveApp b polar azimuthal =>
    simp only [act, moveApp]
    split
    · exact .refl s
    · next x hx =>
      have h1 : Fades s (s.turnApp b x polar azimuthal) :=
        fades_of_eq rfl rfl (fun _ => rfl) fun _ => rfl
      exact h1.trans
        (commitVirtualObject_fades (hs.same (turnApp_same s b x polar azimuthal)) _)

/-- The addresses of resources have been given out, in every reachable scene. -/
theorem resource_lt {as : List Action} {i : ℕ} (h : ((run as).resources i).isSome) :
    i < (run as).nextId := by
  induction as using List.reverseRecOn with
  | nil => simp [run, init] at h
  | append_singleton as a ih =>
    have h1 := step_fades (run_tree as) a
    rw [run_concat] at h ⊢
    rcases h1.resources i h with h2 | h2
    · exact (ih h2).trans_le h1.nextId
    · exact h2

end Fades

end Scene

def TechniqueRequest.texture? : TechniqueRequest → Option TextureBinding
  | .bindTexture b => some b
  | _ => none

namespace Scene

/-- The texture and the sampler of a binding have been there. -/
def Issued (s : Scene) (b : TextureBinding) : Prop := b.texture < s.nextId ∧ b.sampler < s.nextId

theorem Fades.issued {s s' : Scene} (h : Fades s s') {b : TextureBinding} (hb : s.Issued b) :
    s'.Issued b := ⟨hb.1.trans_le h.nextId, hb.2.trans_le h.nextId⟩

/-- What has expired is not revived. -/
theorem Fades.alive {s s' : Scene} (h : Fades s s') {b : TextureBinding} (hb : s.Issued b)
    (ha : s'.bindingAlive b) : s.bindingAlive b := by
  simp only [bindingAlive, Bool.and_eq_true] at ha ⊢
  exact ⟨h.textures _ hb.1 ha.1, h.samplers _ hb.2 ha.2⟩

theorem toTechnique_bindTexture {r : Request} {t : ℕ} {b : TextureBinding}
    (h : r.toTechnique = some (t, .bindTexture b)) :
    r = .bindTexture t b.binding b.name b.texture b.target b.sampler := by
  cases r with
  | bindTexture t' binding name texture target sampler =>
    simp only [Request.toTechnique, Option.some.injEq, Prod.mk.injEq,
      TechniqueRequest.bindTexture.injEq] at h
    obtain ⟨rfl, rfl⟩ := h
    rfl
  | uniformVector =>
    simp only [Request.toTechnique] at h
    split at h
    · cases h
    · split at h <;> simp at h
  | uniformMatrix =>
    simp only [Request.toTechnique] at h
    split at h
    · cases h
    · split at h
      · cases h
      · split at h <;> simp at h
  | _ => simp [Request.toTechnique] at h

/-- A binding that is asked for has been there. -/
theorem accepted_issued {as : List Action} {a : Action} {t : ℕ} {b : TextureBinding}
    (h : (run as).accepted t a = some (.bindTexture b)) : (run as).Issued b := by
  unfold accepted at h
  split at h
  · next client r =>
    split at h
    · next hc =>
      simp only [Bool.and_eq_true] at hc
      obtain ⟨⟨-, hr⟩, -⟩ := hc
      obtain ⟨⟨t', q⟩, hq, he⟩ := Option.map_eq_some_iff.mp h
      have hq' : r.toTechnique = some (t', .bindTexture b) := by
        rw [(Option.filter_eq_some_iff.mp hq).1, show q = .bindTexture b from he]
      obtain rfl := toTechnique_bindTexture hq'
      simp only [admits, Bool.and_eq_true, List.all_eq_true, decide_eq_true_eq] at hr
      have hlt {i : ℕ} {k : Interface} (hi : (i, k) ∈ Request.objects
          (.bindTexture t' b.binding b.name b.texture b.target b.sampler)) :
          i < (run as).nextId := resource_lt (by rw [hr.2 _ hi]; rfl)
      exact ⟨hlt (k := .glTexture) (by simp [Request.objects]),
        hlt (k := .glSampler) (by simp [Request.objects])⟩
    · cases h
  · cases h

/-- `l` holds what stands of the bindings `bs`, and maybe some that have expired. -/
structure Stands (s : Scene) (bs l : List TextureBinding) : Prop where
  known : ∀ b ∈ l, b ∈ bs
  alive : l.filter s.bindingAlive =
    (LastWrite.standing TextureBinding.binding bs).filter s.bindingAlive

section Stands
variable {s s' : Scene} {bs l l' : List TextureBinding}

theorem Fades.filter_alive (h : Fades s s') (hl : ∀ b ∈ l, s.Issued b) :
    l.filter s'.bindingAlive = (l.filter s.bindingAlive).filter s'.bindingAlive := by
  rw [List.filter_filter]
  refine List.filter_congr fun b hb => ?_
  have h1 := h.alive (hl b hb)
  cases ha : s'.bindingAlive b with
  | false => rfl
  | true => simp [h1 ha]

theorem Stands.fades (hl : Stands s bs l) (h : Fades s s') (hb : ∀ b ∈ bs, s.Issued b) :
    Stands s' bs l where
  known := hl.known
  alive := by
    rw [h.filter_alive fun b hm => hb b (hl.known b hm), hl.alive, ← h.filter_alive]
    exact fun b hm => hb b ((LastWrite.standing_sublist _ bs).subset hm)

theorem Stands.trim (hl : Stands s bs l) (hs : l'.Sublist l)
    (he : l'.filter s.bindingAlive = l.filter s.bindingAlive) : Stands s bs l' where
  known := fun b hb => hl.known b (hs.subset hb)
  alive := he.trans hl.alive

theorem Stands.expire (hl : Stands s bs l) : Stands s bs (l.filter s.bindingAlive) :=
  hl.trim List.filter_sublist (by simp)

/-- A new binding takes the place of the one of its slot. -/
theorem Stands.emplace (hl : Stands s bs l) (b : TextureBinding) :
    Stands s (bs ++ [b]) (l.filter (fun e => e.binding ≠ b.binding) ++ [b]) where
  known := by
    intro c hc
    simp only [List.mem_append, List.mem_filter, List.mem_singleton] at hc ⊢
    exact hc.imp_left fun h => hl.known c h.1
  alive := by
    have hc (k : List TextureBinding) :
        (k.filter fun e => e.binding ≠ b.binding).filter s.bindingAlive =
          (k.filter s.bindingAlive).filter fun e => e.binding ≠ b.binding := by
      simp only [List.filter_filter, Bool.and_comm]
    rw [LastWrite.standing_concat, List.filter_append, List.filter_append, hc, hc, hl.alive]

end Stands

/-- `old` is what the last commit has seen of the bindings, `new` what was asked for since. -/
structure Bound (s : Scene) (old new : List TextureBinding) (z : GlBaseTechnique) : Prop where
  issued : ∀ b ∈ old ++ new, s.Issued b
  pending : Stands s (old ++ new) z.pending.textureBindings.list
  current : Stands s old z.current.textureBindings.list
  flag : z.pending.textureBindings.changed = false → new = []

section Bound
variable {s s' : Scene} {old new : List TextureBinding} {z z' : GlBaseTechnique}

theorem Bound.fades (hb : Bound s old new z) (h : Fades s s') : Bound s' old new z where
  issued := fun b hm => h.issued (hb.issued b hm)
  pending := hb.pending.fades h hb.issued
  current := hb.current.fades h fun b hm => hb.issued b (by simp [hm])
  flag := hb.flag

theorem Bound.trim (hb : Bound s old new z) (h : Trimmed s.bindingAlive z z') :
    Bound s old new z' := by
  have hp : z'.pending = z.pending := pending_of_core h.core
  have hc : z'.current.textureBindings.list.filter s.bindingAlive =
      z.current.textureBindings.list.filter s.bindingAlive :=
    congrArg (fun z : GlBaseTechnique => z.current.textureBindings.list) h.same
  exact ⟨hb.issued, hp ▸ hb.pending, hb.current.trim h.sub hc, hp ▸ hb.flag⟩

theorem Bound.request (hb : Bound s old new z) (q : TechniqueRequest)
    (hq : ∀ b, q.texture? = some b → s.Issued b) :
    Bound s old (new ++ q.texture?.toList) (z.request q) := by
  cases q with
  | bindTexture b =>
    refine ⟨fun c hc => ?_, ?_, hb.current, fun h => by cases h⟩
    · rw [← List.append_assoc, List.mem_append] at hc
      rcases hc with hc | hc
      · exact hb.issued c hc
      · exact hq c (Option.mem_toList.mp hc)
    · rw [← List.append_assoc]
      exact hb.pending.emplace b
  | _ =>
    simp only [TechniqueRequest.texture?, Option.toList_none, List.append_nil]
    exact ⟨hb.issued, hb.pending, hb.current, hb.flag⟩

/-- What a commit leaves of the bindings is exactly what stands of them and is alive. -/
theorem Bound.committed (hb : Bound s old new z) :
    (z.commit s.bindingAlive).current.textureBindings.list =
      (LastWrite.standing TextureBinding.binding (old ++ new)).filter s.bindingAlive := by
  simp only [GlBaseTechnique.commit, TechniqueState.commit, TextureBindingList.commit,
    TextureBindingList.removeExpired]
  split
  · exact hb.pending.alive
  · next h =>
    rw [hb.flag (Bool.not_eq_true _ ▸ h), List.append_nil]
    exact hb.current.alive

theorem Bound.commit (hb : Bound s old new z) :
    Bound s (old ++ new) [] (z.commit s.bindingAlive) := by
  refine ⟨by simpa using hb.issued, ?_, ⟨fun b hm => ?_, ?_⟩, fun _ => rfl⟩
  · rw [List.append_nil]
    exact hb.pending.expire
  · rw [hb.committed] at hm
    exact (LastWrite.standing_sublist _ _).subset (List.mem_of_mem_filter hm)
  · rw [hb.committed]
    simp

end Bound

/-- The bindings some requests ask for. -/
def bindings (qs : List TechniqueRequest) : List TextureBinding :=
  qs.filterMap TechniqueRequest.texture?

/-- The bindings of every technique, in every reachable scene. -/
theorem run_bound {as : List Action} {t : ℕ} {z : GlBaseTechnique}
    (hz : (run as).baseTechniques t = some z) :
    ∃ old new, bindings (requests t init as) = old ++ new ∧ Bound (run as) old new z := by
  induction as using List.reverseRecOn generalizing z with
  | nil => simp [run, init] at hz
  | append_singleton as a ih =>
    have hf := step_fades (run_tree as) a
    rw [run_concat] at hz ⊢
    have hr : bindings (requests t init (as ++ [a])) = bindings (requests t init as) ++
        ((run as).accepted t a).toList.filterMap TechniqueRequest.texture? := by
      rw [requests_concat, bindings, List.filterMap_append]
      rfl
    rcases step_trimmed (run_tree as) (run_wired as) a hz with ⟨rfl, u, rfl⟩ | ⟨z₀, hz₀, hst⟩
    · refine ⟨[], [], ?_, by simp, ⟨by simp, rfl⟩, ⟨by simp, rfl⟩, fun _ => rfl⟩
      have hn : (run as).baseTechniques (run as).nextId = none := by
        simpa [forest] using ((run_tree as).fresh _ (Nat.le_refl _)).2.2
      have ha : (run as).accepted (run as).nextId a = none := by
        unfold accepted
        split <;> simp [hn]
      rw [hr, requests_of_fresh (Nat.le_refl _), ha]
      rfl
    · obtain ⟨old, new, ho, hb⟩ := ih hz₀
      by_cases hre : (run as).Reaches a t
      · refine ⟨old ++ new, [], ?_, (hb.commit.trim (hst.reached hre)).fades hf⟩
        rw [hr, ho, reaches_accepted hre]
        rfl
      · have h1 := hst.other hre
        cases hq : (run as).accepted t a with
        | none =>
          rw [hq] at h1
          refine ⟨old, new, ?_, (hb.trim h1).fades hf⟩
          rw [hr, ho, hq]
          simp
        | some q =>
          rw [hq] at h1
          have hi : ∀ b, q.texture? = some b → (run as).Issued b := by
            intro b hqb
            cases q <;> cases hqb
            exact accepted_issued hq
          refine ⟨old, new ++ q.texture?.toList, ?_, ((hb.request q hi).trim h1).fades hf⟩
          rw [hr, ho, hq]
          cases q <;> simp [TechniqueRequest.texture?]

/-- In each round of a loop over bindings, the texture and the sampler of the binding are there when
the round starts, and after `first`, the part of it that is about the texture. -/
def FindsAll (first round : Scene → TextureBinding → Scene) (s : Scene) (l : List TextureBinding) :
    Prop :=
  ∀ pre b post, l = pre ++ b :: post →
    (pre.foldl round s).bindingAlive b ∧ (first (pre.foldl round s) b).bindingAlive b

theorem findsAll_of_const {first round : Scene → TextureBinding → Scene} {P : Scene → Prop}
    (hf : ∀ s b, P s → (first s b).bindingAlive = s.bindingAlive)
    (hr : ∀ s b, P s → P (round s b) ∧ (round s b).bindingAlive = s.bindingAlive) {s : Scene}
    (hs : P s) {l : List TextureBinding} (hl : ∀ b ∈ l, s.bindingAlive b) :
    FindsAll first round s l := by
  rintro pre b post rfl
  have h1 (pre : List TextureBinding) :
      P (pre.foldl round s) ∧ (pre.foldl round s).bindingAlive = s.bindingAlive := by
    induction pre using List.reverseRecOn with
    | nil => exact ⟨hs, rfl⟩
    | append_singleton pre c ih =>
      rw [List.foldl_append]
      obtain ⟨h2, h3⟩ := hr _ c ih.1
      exact ⟨h2, h3.trans ih.2⟩
  have hb := hl b (by simp)
  rw [hf _ b (h1 pre).1, (h1 pre).2]
  exact ⟨hb, hb⟩

theorem commitTechnique_finds {s : Scene} {t : ℕ} {x : GlBaseTechnique}
    (hx : s.baseTechniques t = some x) :
    ∃ s₁, s.commitTechnique t =
        (x.commit s.bindingAlive).current.textureBindings.list.foldl commitBinding s₁ ∧
      FindsAll (fun s b => s.commitTexture b.texture) commitBinding s₁
        (x.commit s.bindingAlive).current.textureBindings.list := by
  have hc (s : Scene) (b : TextureBinding) : (s.commitTexture b.texture).skeleton = s.skeleton :=
    (commitTexture_commits (T := fun _ => True) trivial).skeleton
  have hr (s : Scene) (b : TextureBinding) : (s.commitBinding b).skeleton = s.skeleton :=
    (commitBinding_commits (T := fun _ => True) trivial trivial).skeleton
  have h1 := registerTechnique_commits (T := fun _ => True) trivial hx
  have hx1 : (s.registerTechnique t x).baseTechniques t = some x := by
    rw [registerTechnique_techniques]
    exact hx
  have h2 := h1.tail (.technique _ t x trivial hx1)
  rw [bindingAlive_of_skeleton h1.skeleton] at h2
  have h3 := h2.trans (commitWeakProgram_commits
    (p := (x.commit s.bindingAlive).current.program) fun _ _ => trivial)
  have h4 := h3.trans (@commitWeakVertexArray_commits _ _ (scope_true _)
    (x.commit s.bindingAlive).current.vertexArray fun _ _ => trivial)
  have h5 := h4.trans (commitWeakBuffer_commits
    (b := x.pending.drawApiArgs.committedBuffer) fun _ _ => trivial)
  refine ⟨_, by rw [commitTechnique, hx]; rfl, findsAll_of_const (P := fun _ => True)
    (fun s b _ => bindingAlive_of_skeleton (hc s b))
    (fun s b _ => ⟨trivial, bindingAlive_of_skeleton (hr s b)⟩) trivial fun b hb => ?_⟩
  rw [bindingAlive_of_skeleton (Commits.skeleton h5)]
  simp only [GlBaseTechnique.commit, TechniqueState.commit, TextureBindingList.commit,
    TextureBindingList.removeExpired] at hb
  split at hb <;> exact (List.mem_filter.mp hb).2

theorem syncTextureBindings_finds {s : Scene} (hs : s.remote.hasSession) (t technique : ℕ)
    (l : TextureBindingList) (force : Bool) :
    ∃ s₁, s.syncTextureBindings t technique l force =
        (l.removeExpired s.bindingAlive).list.foldl (syncTextureBinding technique force l.changed)
          s₁ ∧
      FindsAll (fun s b => s.syncTexture b.texture force)
        (syncTextureBinding technique force l.changed) s₁
        (l.removeExpired s.bindingAlive).list := by
  have hl : ∀ b ∈ (l.removeExpired s.bindingAlive).list, (s.dropExpired t).bindingAlive b :=
    fun b hb => (List.mem_filter.mp hb).2
  have hs1 : (s.dropExpired t).remote.hasSession := hs
  refine ⟨s.dropExpired t, rfl, findsAll_of_const (P := fun s => s.remote.hasSession)
    (fun s b hs => ?_) (fun s b hs => ?_) hs1 hl⟩
  · have h1 := syncTexture_syncs (A := fun _ => True) (C := fun _ => True) (fun _ _ => trivial) hs
      b.texture force
    exact bindingAlive_of_content h1.1.content
  · have h1 : Syncs (fun _ => True) (fun _ => True) s
        (syncTextureBinding technique force l.changed s b) :=
      syncTextureBinding_syncs (fun _ _ => trivial) (fun _ _ => trivial) hs force l.changed b
    exact ⟨h1.hasSession.trans hs, bindingAlive_of_content h1.content⟩

theorem bindings_after_commit {t : ℕ} {as : List Action} {a : Action} {z : GlBaseTechnique}
    (ha : (run as).Reaches a t) (hz : (run (as ++ [a])).baseTechniques t = some z) :
    z.current.textureBindings.list =
      (LastWrite.standing TextureBinding.binding (bindings (requests t init as))).filter
        (run as).bindingAlive := by
  rw [run_concat] at hz
  rcases step_trimmed (run_tree as) (run_wired as) a hz with ⟨rfl, -⟩ | ⟨z₀, hz₀, hst⟩
  · obtain ⟨v, -, hv⟩ := ha
    have hn : (run as).baseTechniques (run as).nextId = none := by
      simpa [forest] using ((run_tree as).fresh _ (Nat.le_refl _)).2.2
    simp [objectOfTechnique, hn] at hv
  · obtain ⟨old, new, hr, hb⟩ := run_bound hz₀
    have h1 := hst.reached ha
    have h2 : z.current.textureBindings.list.filter (run as).bindingAlive =
        (z₀.commit (run as).bindingAlive).current.textureBindings.list.filter
          (run as).bindingAlive :=
      congrArg (fun z : GlBaseTechnique => z.current.textureBindings.list) h1.same
    have h3 := h1.sub
    rw [hb.committed] at h2 h3
    simp only [List.filter_filter, Bool.and_self] at h2
    rw [hr]
    exact h3.antisymm (h2 ▸ List.filter_sublist)

/-- The last binding asked for a slot, if it is alive. -/
theorem binding_of_slot {bs : List TextureBinding} {alive : TextureBinding → Bool}
    (slot : UInt32) :
    ((LastWrite.standing TextureBinding.binding bs).filter alive).filter
        (fun b => b.binding = slot) =
      ((bs.filter fun b => b.binding = slot).getLast?.filter alive).toList := by
  rw [List.filter_filter, List.filter_congr fun b _ => Bool.and_comm _ _, ← List.filter_filter,
    LastWrite.standing_filter]
  cases (bs.filter fun b => b.binding = slot).getLast? with
  | none => rfl
  | some b => by_cases hb : alive b <;> simp [hb, Option.filter]

/-- After a commit of its virtual object the bindings of a technique are the last ones asked for
their slots, each once and in the order they were asked for, less those whose texture or sampler is
gone. And no loop over bindings, of a commit or of a sync, follows one that has expired. -/
theorem textureBindings_last :
    (∀ t as a z, (run as).Reaches a t → (run (as ++ [a])).baseTechniques t = some z →
      z.current.textureBindings.list =
          (LastWrite.standing TextureBinding.binding (bindings (requests t init as))).filter
            (run as).bindingAlive ∧
        (∀ slot, z.current.textureBindings.list.filter (fun b => b.binding = slot) =
          (((bindings (requests t init as)).filter fun b => b.binding = slot).getLast?.filter
            (run as).bindingAlive).toList) ∧
        z.current.textureBindings.list.Pairwise fun b c => b.binding ≠ c.binding) ∧
    (∀ (s : Scene) t x, s.baseTechniques t = some x →
      ∃ s₁, s.commitTechnique t =
          (x.commit s.bindingAlive).current.textureBindings.list.foldl commitBinding s₁ ∧
        FindsAll (fun s b => s.commitTexture b.texture) commitBinding s₁
          (x.commit s.bindingAlive).current.textureBindings.list) ∧
    ∀ (s : Scene) t technique (l : TextureBindingList) force, s.remote.hasSession →
      ∃ s₁, s.syncTextureBindings t technique l force =
          (l.removeExpired s.bindingAlive).list.foldl
            (syncTextureBinding technique force l.changed) s₁ ∧
        FindsAll (fun s b => s.syncTexture b.texture force)
          (syncTextureBinding technique force l.changed) s₁
          (l.removeExpired s.bindingAlive).list := by
  refine ⟨fun t as a z ha hz => ?_, fun s t x hx => commitTechnique_finds hx,
    fun s t technique l force hs => syncTextureBindings_finds hs t technique l force⟩
  have h1 := bindings_after_commit ha hz
  rw [h1]
  exact ⟨rfl, binding_of_slot, (LastWrite.standing_pairwise _ _).sublist List.filter_sublist⟩

/-- One slot bound to two textures in turn, and the second destroyed before the commit. -/
def boundTwice : List Action :=
  [.request 0 .createVirtualObject, .request 0 (.createRenderingUnit 0),
    .request 0 (.createGlBaseTechnique 1), .request 0 .createGlSampler,
    .request 0 (.createGlTexture ⟨⟨0, 0, 0, 0, 0, 0, 0, 0⟩, ⟨0, 0, 0, 0, 0, 0, 0, 0⟩, 0⟩),
    .request 0 (.createGlTexture ⟨⟨0, 0, 0, 0, 0, 0, 0, 0⟩, ⟨0, 0, 0, 0, 0, 0, 0, 0⟩, 0⟩),
    .request 0 (.bindTexture 2 7 "a" 0 4 3), .request 0 (.bindTexture 2 7 "b" 0 5 3),
    .destroy 0 5]

theorem textureBindings_last_boundTwice :
    (∃ z, (run (boundTwice ++ [.request 0 (.commit 0)])).baseTechniques 2 = some z ∧
      z.current.textureBindings.list = []) ∧
    ∃ x, (run boundTwice).baseTechniques 2 = some x ∧
      ∃ s₁, (run boundTwice).commitTechnique 2 =
        (x.commit (run boundTwice).bindingAlive).current.textureBindings.list.foldl commitBinding
          s₁ := by
  have h := textureBindings_last.1 2 boundTwice (.request 0 (.commit 0)) _ ⟨0, rfl, rfl⟩ rfl
  obtain ⟨s₁, h1, -⟩ := textureBindings_last.2.1 (run boundTwice) 2 _ rfl
  exact ⟨⟨_, rfl, h.1⟩, _, rfl, s₁, h1⟩

end Scene
end Yaza
