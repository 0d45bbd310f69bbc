import Yaza.Zwin.Fanout

/-! Owners. A unit belongs to a live virtual object and a technique to a live unit as long as no
destruction meets a child that its parent has not been told about. -/
namespace Yaza
namespace Scene

/-- The virtual object an action commits; a drag commits that of the app. -/
def committedBy (s : Scene) : Action → Option ℕ
  | .request client (.commit v) =>
      if s.fault.isNone && s.admits client (.commit v) then some v else none
  | .moveApp b _ _ =>
      if s.fault.isNone then
        s.virtualObjects.lock ((s.boundedApps b).map BoundedApp.virtualObject)
      else none
  | _ => none

/-- What a drag finds when it comes to its commit: the app is turned. -/
def turned (s : Scene) : Action → Scene
  | .moveApp b polar azimuthal =>
      match s.boundedApps b with
      | none => s
      | some x => s.turnApp b x polar azimuthal
  | _ => s

/-- A commit turns the app first, if it is that of a drag. -/
theorem step_of_commit {s : Scene} {a : Action} {v : ℕ} (ht : Tree s) (hw : Wired s)
    (h : s.committedBy a = some v) :
    s.step a = (s.turned a).commitVirtualObject v ∧
      (∃ apps, s.turned a = { s with boundedApps := apps }) ∧ Tree (s.turned a) ∧
        Wired (s.turned a) ∧ (s.virtualObjects v).isSome ∧ s.fault = none := by
  unfold committedBy at h
  split at h
  · next client w =>
    split at h
    · next hc =>
      cases h
      obtain ⟨hf, hr⟩ := Bool.and_eq_true_iff.mp hc
      have hres := hr
      simp only [admits, Bool.and_eq_true, List.all_eq_true, decide_eq_true_eq] at hres
      refine ⟨?_, ⟨s.boundedApps, rfl⟩, ht, hw, ht.objects v client (hres.2 _ List.mem_cons_self),
        by simpa using hf⟩
      rw [step, if_neg (by simpa using hf), act, if_pos hr]
      rfl
    · cases h
  · next b polar azimuthal =>
    split at h
    · next hf =>
      obtain ⟨hv, hlive⟩ := Arena.lock_eq_some.mp h
      obtain ⟨x, hx, rfl⟩ := Option.map_eq_some_iff.mp hv
      simp only [turned, hx]
      refine ⟨?_, ⟨(s.turnApp b x polar azimuthal).boundedApps, rfl⟩,
        ht.same (turnApp_same s b x polar azimuthal),
        hw.same (turnApp_wiring hx polar azimuthal) (Nat.le_refl _), hlive, by simpa using hf⟩
      rw [step, if_neg (by simpa using hf), act, moveApp, hx]
    · cases h
  · cases h

/-- A drag turns the app before it commits; a request does not. -/
theorem step_of_committedBy {s : Scene} {a : Action} {v : ℕ} (ht : Tree s) (hw : Wired s)
    (h : s.committedBy a = some v) :
    ∃ apps, s.step a = { s with boundedApps := apps }.commitVirtualObject v ∧
      Tree { s with boundedApps := apps } ∧ Wired { s with boundedApps := apps } ∧
      (s.virtualObjects v).isSome := by
  obtain ⟨h1, ⟨apps, h0⟩, h2, h3, h4, -⟩ := step_of_commit ht hw h
  rw [h0] at h1 h2 h3
  exact ⟨apps, h1, h2, h3, h4⟩

/-- While the unit was alive, its virtual object was committed. -/
def SeenCommit (as : List Action) (u : ℕ) : Prop :=
  ∃ pre a y, pre ++ [a] <+: as ∧ (run pre).renderingUnits u = some y ∧
    (run pre).committedBy a = some y.owner

theorem seenCommit_concat {as : List Action} {a : Action} {u : ℕ} :
    SeenCommit (as ++ [a]) u ↔ SeenCommit as u ∨
      ∃ y, (run as).renderingUnits u = some y ∧ (run as).committedBy a = some y.owner := by
  constructor
  · rintro ⟨pre, b, y, hp, hy, hb⟩
    rcases List.prefix_concat_iff.mp hp with he | hp
    · obtain ⟨h1, h2⟩ := List.append_inj' he rfl
      subst h1
      rw [List.singleton_inj.mp h2] at hb
      exact .inr ⟨y, hy, hb⟩
    · exact .inl ⟨pre, b, y, hp, hy, hb⟩
  · rintro (⟨pre, b, y, hp, hy, hb⟩ | ⟨y, hy, hb⟩)
    · exact ⟨pre, b, y, hp.trans (List.prefix_append as [a]), hy, hb⟩
    · exact ⟨as, a, y, List.prefix_rfl, hy, hb⟩

/-- The technique an action destroys by itself, not with its unit. -/
def destroyed (s : Scene) : Action → Option ℕ
  | .destroy client r =>
      if s.fault = none ∧ s.resources r = some ⟨client, .baseTechnique⟩ ∧
          (s.baseTechniques r).isSome then some r
      else none
  | _ => none

/-- What a step makes of a node that was there: a commit of its object marks it and fills a free
slot, and the destruction of any technique of the unit clears the slot. -/
structure NodeChange (s : Scene) (a : Action) (u : ℕ) (n n' : Node) : Prop where
  owner : n'.owner = n.owner
  joined : n'.joined = true ↔ n.joined = true ∨ s.committedBy a = some n.owner
  slot : n'.slot =
    if s.committedBy a = some n.owner then n.slot.or (s.firstNew (s.listenersOf u))
    else if (s.destroyed a).bind s.forest.owners = some u then none
    else n.slot

/-- What a step makes of one node. -/
def NodeStep (s : Scene) (a : Action) (u : ℕ) (n' : Node) : Prop :=
  (∃ n, s.forest.nodes u = some n ∧ NodeChange s a u n n') ∨
    u = s.nextId ∧ n'.joined = false ∧ n'.slot = none

theorem NodeStep.of_nodes {s : Scene} {a : Action} {u : ℕ} {n : Node}
    (hn : s.forest.nodes u = some n) (hc : s.committedBy a = none) (hd : s.destroyed a = none) :
    NodeStep s a u n :=
  .inl ⟨n, hn, rfl, by simp [hc], by simp [hc, hd]⟩

theorem commitVirtualObject_nodes {s : Scene} (hs : Tree s) (hw : Wired s) {v : ℕ}
    (hv : (s.virtualObjects v).isSome) {u : ℕ} {n' : Node}
    (hn' : (s.commitVirtualObject v).forest.nodes u = some n') :
    ∃ n, s.forest.nodes u = some n ∧ n'.owner = n.owner ∧
      (n'.joined = true ↔ n.joined = true ∨ v = n.owner) ∧
      n'.slot = if v = n.owner then n.slot.or (s.firstNew (s.listenersOf u)) else n.slot := by
  have hc := (commitState_commits_true s v).tree hs
  rw [commitVirtualObject, forest_of_content (syncIfSession_steps hc.registered v).content] at hn'
  simp only [forest, Arena.mapAll_apply, Option.map_eq_some_iff] at hn'
  obtain ⟨y', hy', rfl⟩ := hn'
  obtain ⟨y, hy, ho, hj⟩ := commitState_committed hw hv hy'
  refine ⟨nodeOf y, forest_nodes hy, ho.symm, hj.trans (or_congr_right eq_comm), ?_⟩
  have h1 := commitState_slot hw hv u
  rw [hy', hy, Option.map_some, Option.map_some, Option.some.injEq] at h1
  rw [listenersOf, hy]
  simp only [eq_comm (a := v)]
  exact h1

/-- A commit of an object that is gone stops the program. -/
theorem commitVirtualObject_forest_of_none {s : Scene} (hs : Tree s) {v : ℕ}
    (hv : s.virtualObjects v = none) : (s.commitVirtualObject v).forest = s.forest := by
  have hc := (commitState_commits_true s v).tree hs
  rw [commitVirtualObject, forest_of_content (syncIfSession_steps hc.registered v).content,
    commitState, hv]
  rfl

theorem destroyResource_nodes {s : Scene} (hs : Tree s) {r : ℕ} {x : Resource}
    (hx : s.resources r = some x) {u : ℕ} {n' : Node}
    (hn' : (s.destroyResource r).forest.nodes u = some n') :
    ∃ n, s.forest.nodes u = some n ∧ n'.owner = n.owner ∧ n'.joined = n.joined ∧
      n'.slot =
        if x.interface = .baseTechnique ∧ s.forest.owners r = some u then none else n.slot := by
  obtain ⟨c, i⟩ := x
  have he : (s.destroyResource r).forest = (s.deleteObject r i).forest := by
    rw [destroyResource, hx]
    rfl
  rw [he] at hn'
  have same (hi : i ≠ .baseTechnique) (hn : s.forest.nodes u = some n') :
      ∃ n, s.forest.nodes u = some n ∧ n'.owner = n.owner ∧ n'.joined = n.joined ∧
        n'.slot = if i = .baseTechnique ∧ s.forest.owners r = some u then none else n.slot :=
    ⟨n', hn, rfl, rfl, by rw [if_neg fun h => hi h.1]⟩
  cases i with
  | virtualObject =>
    obtain ⟨x, hx⟩ := Option.isSome_iff_exists.mp (hs.objects r c hx)
    rw [deleteObject, deleteVirtualObject_forest hs.registered hx] at hn'
    simp only [Forest.dropObject, Option.ite_none_left_eq_some] at hn'
    exact same (by simp) hn'.2
  | bounded =>
    refine same (by simp) ?_
    simp only [deleteObject] at hn'
    split at hn'
    · rwa [(deleteBoundedApp_same s r).forest] at hn'
    · exact hn'
  | renderingUnit =>
    refine same (by simp) ?_
    simp only [deleteObject] at hn'
    split at hn'
    · next hy =>
      obtain ⟨y, hy⟩ := Option.isSome_iff_exists.mp hy
      rw [deleteRenderingUnit_forest_of_tree hs hy] at hn'
      simp only [Forest.dropUnit, Arena.erase_apply, Option.ite_none_left_eq_some] at hn'
      exact hn'.2
    · exact hn'
  | baseTechnique =>
    simp only [deleteObject] at hn'
    split at hn'
    · next hz =>
      obtain ⟨z, hz⟩ := Option.isSome_iff_exists.mp hz
      have ho : s.forest.owners r = some z.owner := forest_owners hz
      rw [deleteTechnique_forest hz] at hn'
      simp only [Forest.dropTechnique, Arena.modify_apply] at hn'
      split at hn'
      · next hu =>
        obtain ⟨n, hn, rfl⟩ := Option.map_eq_some_iff.mp hn'
        exact ⟨n, hn, rfl, rfl, by rw [if_pos ⟨rfl, hu ▸ ho⟩]⟩
      · next hu =>
        refine ⟨n', hn', rfl, rfl, ?_⟩
        rw [if_neg]
        rintro ⟨-, h⟩
        rw [ho, Option.some.injEq] at h
        exact hu h.symm
    · next hz =>
      refine ⟨n', hn', rfl, rfl, ?_⟩
      rw [if_neg]
      rintro ⟨-, h⟩
      have hz' : s.baseTechniques r = none := by simpa using hz
      simp [forest, hz'] at h
  | glProgram | glShader | glVertexArray | glBuffer | glTexture | glSampler | region
  | shmBuffer => exact same (by simp) hn'

theorem destroy_nodes {s : Scene} (hs : Tree s) (hf : s.fault = none) {client r : ℕ} {x : Resource}
    (hx : s.resources r = some x) (hc : x.client = client) {u : ℕ} {n' : Node}
    (hn' : (s.destroyResource r).forest.nodes u = some n') :
    NodeStep s (.destroy client r) u n' := by
  obtain ⟨n, hn, ho, hj, hsl⟩ := destroyResource_nodes hs hx hn'
  refine .inl ⟨n, hn, ho, by simp [hj, committedBy], ?_⟩
  have hd : (s.destroyed (.destroy client r)).bind s.forest.owners = some u ↔
      x.interface = .baseTechnique ∧ s.forest.owners r = some u := by
    have hz : s.forest.owners r = some u → (s.baseTechniques r).isSome := by
      intro h
      simp only [forest, Arena.mapAll_apply, Option.map_eq_some_iff] at h
      obtain ⟨z, hz, -⟩ := h
      rw [hz]
      rfl
    obtain ⟨c, i⟩ := x
    obtain rfl : c = client := hc
    simp only [destroyed, hf, hx, Option.some.injEq, Resource.mk.injEq, true_and]
    constructor
    · intro h
      split at h
      · next hi => exact ⟨hi.1, h⟩
      · cases h
    · rintro ⟨rfl, h⟩
      rw [if_pos ⟨rfl, hz h⟩]
      exact h
  rw [hsl]
  simp only [hd]
  simp [committedBy]

theorem handle_nodes {s : Scene} (hs : Tree s) (hw : Wired s) (hf : s.fault = none)
    {client : ℕ} {r : Request} (hr : s.admits client r) {u : ℕ} {n' : Node}
    (hn' : (s.handle client r).forest.nodes u = some n') :
    NodeStep s (.request client r) u n' := by
  by_cases hp : r.plain
  · rw [(handle_same s client hp).forest] at hn'
    refine .of_nodes hn' ?_ rfl
    cases r <;> first | rfl | cases hp
  have hres := hr
  simp only [admits, Bool.and_eq_true, List.all_eq_true, decide_eq_true_eq] at hres
  cases r with
  | createVirtualObject => exact .of_nodes hn' rfl rfl
  | createRenderingUnit v =>
    simp only [handle, createRenderingUnit_forest, Forest.newUnit, Arena.set_apply] at hn'
    split at hn'
    · next hu => cases hn'; exact .inr ⟨hu, rfl, rfl⟩
    · exact .of_nodes hn' rfl rfl
  | createGlBaseTechnique w =>
    by_cases hw : (s.renderingUnits w).isSome
    · rw [handle, createGlBaseTechnique_forest hw] at hn'
      exact .of_nodes hn' rfl rfl
    · simp only [handle, createGlBaseTechnique, if_neg hw] at hn'
      exact .of_nodes hn' rfl rfl
  | commit v =>
    have hv := hs.objects v client (hres.2 _ List.mem_cons_self)
    obtain ⟨n, hn, ho, hj, hsl⟩ := commitVirtualObject_nodes hs hw hv hn'
    exact .inl ⟨n, hn, ho, by simpa [committedBy, hf, hr] using hj,
      by simpa [committedBy, hf, hr, destroyed] using hsl⟩
  | _ => exact absurd trivial hp

theorem moveApp_nodes {s : Scene} (hs : Tree s) (hw : Wired s) (hf : s.fault = none) (b : ℕ)
    (polar azimuthal : ℚ) {u : ℕ} {n' : Node}
    (hn' : (s.moveApp b polar azimuthal).forest.nodes u = some n') :
    NodeStep s (.moveApp b polar azimuthal) u n' := by
  cases hx : s.boundedApps b with
  | none =>
    rw [moveApp, hx] at hn'
    exact .of_nodes hn' (by simp [committedBy, hx, Arena.lock]) rfl
  | some x =>
    simp only [moveApp, hx] at hn'
    have hs1 := hs.same (turnApp_same s b x polar azimuthal)
    have hw1 := hw.same (turnApp_wiring hx polar azimuthal) (Nat.le_refl _)
    cases hv : s.virtualObjects x.virtualObject with
    | none =>
      have hc : s.committedBy (.moveApp b polar azimuthal) = none := by
        simp [committedBy, hx, Arena.lock, hv]
      rw [commitVirtualObject_forest_of_none hs1 hv] at hn'
      exact .of_nodes hn' hc rfl
    | some o =>
      obtain ⟨n, hn, ho, hj, hsl⟩ :=
        commitVirtualObject_nodes hs1 hw1 (by simp [turnApp, hv]) hn'
      have hc : s.committedBy (.moveApp b polar azimuthal) = some x.virtualObject := by
        simp [committedBy, hf, hx, Arena.lock, hv]
      have he : (s.turnApp b x polar azimuthal).firstNew
          ((s.turnApp b x polar azimuthal).listenersOf u) = s.firstNew (s.listenersOf u) := rfl
      rw [he] at hsl
      exact .inl ⟨n, hn, ho, by simpa [hc] using hj, by simpa [hc, destroyed] using hsl⟩

/-- A step adds a node without commits, or drops some, or changes those it reaches. -/
theorem step_nodes {s : Scene} (hs : Tree s) (hw : Wired s) (a : Action) {u : ℕ} {n' : Node}
    (hn' : (s.step a).forest.nodes u = some n') : NodeStep s a u n' := by
  cases hf : s.fault with
  | some f =>
    rw [step, if_pos (by simp [hf])] at hn'
    refine .of_nodes hn' ?_ ?_
    · unfold committedBy
      split <;> simp [hf]
    · unfold destroyed
      split <;> simp [hf]
  | none =>
    rw [step, if_neg (by simp [hf])] at hn'
    cases a with
    | request client r =>
      simp only [act] at hn'
      split at hn'
      · next hr => exact handle_nodes hs hw hf hr hn'
      · next hr =>
        refine .of_nodes hn' ?_ rfl
        cases r <;> simp_all [committedBy]
    | destroy client r =>
      simp only [act] at hn'
      split at hn'
      · next hc =>
        cases hx : s.resources r with
        | none => simp [hx] at hc
        | some x => exact destroy_nodes hs hf hx (by simpa [hx] using hc) hn'
      · next hc =>
        refine .of_nodes hn' rfl ?_
        unfold destroyed
        simp only
        rw [if_neg]
        rintro ⟨-, h, -⟩
        simp [h] at hc
    | peerDiscover connected =>
      rw [act, forest_of_content (peerDiscover_content hs.registered connected)] at hn'
      exact .of_nodes hn' rfl rfl
    | sessionDisconnect =>
      rw [act, forest_of_content (sessionDisconnect_content s)] at hn'
      exact .of_nodes hn' rfl rfl
    | frameTimer busyness =>
      simp only [act, frameTimer] at hn'
      split at hn'
      · rw [(sessionFrame_same s).forest] at hn'
        exact .of_nodes hn' rfl rfl
      · exact .of_nodes hn' rfl rfl
    | moveApp b polar azimuthal => exact moveApp_nodes hs hw hf b polar azimuthal hn'

theorem commitVirtualObject_nextId {s : Scene} (hs : Tree s) (v : ℕ) :
    s.nextId ≤ (s.commitVirtualObject v).nextId := by
  have hc := commitState_commits_true s v
  have h1 := syncIfSession_steps (hc.tree hs).registered v
  exact (Nat.le_of_eq (nextId_of_skeleton hc.skeleton).symm).trans
    (sameTree_of_content h1.content).nextId

theorem handle_nextId {s : Scene} (hs : Tree s) (client : ℕ) (r : Request) :
    s.nextId ≤ (s.handle client r).nextId := by
  by_cases hp : r.plain
  · exact (handle_same s client hp).nextId
  cases r with
  | createVirtualObject | createRenderingUnit => exact Nat.le_succ _
  | createGlBaseTechnique u =>
    simp only [handle, createGlBaseTechnique]
    split
    · exact Nat.le_succ _
    · exact Nat.le_refl _
  | commit v => exact commitVirtualObject_nextId hs v
  | _ => exact absurd trivial hp

theorem destroyResource_nextId {s : Scene} (hs : Tree s) (r : ℕ) :
    (s.destroyResource r).nextId = s.nextId := by
  have of_rest {s' : Scene} (h : s'.rest = s.rest) : s'.nextId = s.nextId :=
    show s'.rest.nextId = s.rest.nextId from by rw [h]
  unfold destroyResource
  split
  · rfl
  · next x hx =>
    obtain ⟨c, i⟩ := x
    cases i with
    | virtualObject =>
      obtain ⟨x, hx⟩ := Option.isSome_iff_exists.mp (hs.objects r c hx)
      exact (deleteVirtualObject_ids hx).1
    | bounded =>
      simp only [deleteObject]
      split
      · unfold deleteBoundedApp
        split <;> rfl
      · rfl
    | renderingUnit =>
      simp only [deleteObject]
      split
      · exact of_rest (deleteRenderingUnit_rest s r)
      · rfl
    | baseTechnique =>
      simp only [deleteObject]
      split
      · exact of_rest (deleteTechnique_rest s r)
      · rfl
    | glProgram | glShader | glVertexArray | glBuffer | glTexture | glSampler | region
    | shmBuffer => rfl

theorem nextId_le_step {s : Scene} (hs : Tree s) (a : Action) :
    s.nextId ≤ (s.step a).nextId := by
  unfold step
  split
  · exact Nat.le_refl _
  · cases a with
    | request client r =>
      simp only [act]
      split
      · exact handle_nextId hs client r
      · exact Nat.le_refl _
    | destroy client r =>
      simp only [act]
      split
      · exact Nat.le_of_eq (destroyResource_nextId hs r).symm
      · exact Nat.le_refl _
    | peerDiscover connected =>
      exact (sameTree_of_content (peerDiscover_content hs.registered connected)).nextId
    | sessionDisconnect => exact (sameTree_of_content (sessionDisconnect_content s)).nextId
    | frameTimer busyness =>
      simp only [act, frameTimer]
      split <;> exact Nat.le_refl _
    | moveApp b polar azimuthal =>
      simp only [act, moveApp]
      split
      · exact Nat.le_refl _
      · exact commitVirtualObject_nextId (hs.same (turnApp_same ..)) _

theorem run_concat (as : List Action) (a : Action) : run (as ++ [a]) = (run as).step a :=
  Run.final_concat ..

theorem lt_nextId {s : Scene} (hs : Tree s) {u : ℕ} (hu : (s.renderingUnits u).isSome) :
    u < s.nextId := by
  by_contra hge
  have h := (hs.fresh u (by omega)).2.1
  simp only [forest, Arena.mapAll_apply, Option.map_eq_none_iff] at h
  simp [h] at hu

/-- An address that has seen a commit is in use, or was. -/
theorem SeenCommit.lt {as : List Action} {u : ℕ} (h : SeenCommit as u) :
    u < (run as).nextId := by
  induction as using List.reverseRecOn with
  | nil =>
    obtain ⟨pre, a, y, hp, -⟩ := h
    simp at hp
  | append_singleton as a ih =>
    have hle := nextId_le_step (run_tree as) a
    rw [run_concat]
    rcases seenCommit_concat.mp h with h1 | ⟨y, hy, -⟩
    · exact (ih h1).trans_le hle
    · exact (lt_nextId (run_tree as) (by simp [hy])).trans_le hle

/-- A node is marked exactly when its unit has seen a commit. -/
theorem run_joined_iff {as : List Action} {u : ℕ} {n' : Node}
    (hn' : (run as).forest.nodes u = some n') : n'.joined = true ↔ SeenCommit as u := by
  induction as using List.reverseRecOn generalizing n' with
  | nil => simp [run, init, forest] at hn'
  | append_singleton as a ih =>
    rw [run_concat] at hn'
    rw [seenCommit_concat]
    rcases step_nodes (run_tree as) (run_wired as) a hn' with ⟨n, hn, hc⟩ | ⟨rfl, hj, -⟩
    · have hy := hn
      simp only [forest, Arena.mapAll_apply, Option.map_eq_some_iff] at hy
      obtain ⟨y, hy, rfl⟩ := hy
      rw [hc.joined, ih hn]
      simp [hy, nodeOf]
    · have h1 : ¬ SeenCommit as (run as).nextId := fun h => lt_irrefl _ h.lt
      have h2 : (run as).renderingUnits (run as).nextId = none := by
        simpa [forest] using ((run_tree as).fresh _ (Nat.le_refl _)).2.1
      simp [hj, h1, h2]

/-- The unit knows each of its techniques. -/
def KnowsTechniques (s : Scene) (u : ℕ) : Prop :=
  ∀ y t z, s.renderingUnits u = some y → s.baseTechniques t = some z → z.owner = u →
    y.technique = some t

/-- A destruction meets only children that their parent has been told about: every unit of a
virtual object has joined its list, and every technique of a unit is the unit's technique. -/
def KeepsChildren (s : Scene) : Action → Prop
  | .destroy client r => s.fault = none →
      (s.resources r = some ⟨client, .virtualObject⟩ →
        ∀ u y, s.renderingUnits u = some y → y.owner = r →
          y.committed = true ∧ s.KnowsTechniques u) ∧
      (s.resources r = some ⟨client, .renderingUnit⟩ → s.KnowsTechniques r)
  | _ => True

theorem knowsTechniques_iff {s : Scene} {u : ℕ} : s.KnowsTechniques u ↔ s.forest.SlotHolds u := by
  constructor
  · intro hk t n ht hn
    simp only [forest, Arena.mapAll_apply, Option.map_eq_some_iff] at ht hn
    obtain ⟨z, hz, ho⟩ := ht
    obtain ⟨y, hy, rfl⟩ := hn
    exact hk y t z hy hz ho
  · intro hh y t z hy hz ho
    exact hh t (nodeOf y) (ho ▸ forest_owners hz) (forest_nodes hy)

theorem deleteObject_forest (s : Scene) (r : ℕ) {i : Interface} (hv : i ≠ .virtualObject)
    (hu : i ≠ .renderingUnit) (ht : i ≠ .baseTechnique) :
    (s.deleteObject r i).forest = s.forest := by
  cases i with
  | virtualObject => exact absurd rfl hv
  | renderingUnit => exact absurd rfl hu
  | baseTechnique => exact absurd rfl ht
  | bounded =>
    simp only [deleteObject]
    split
    · exact (deleteBoundedApp_same s r).forest
    · rfl
  | _ => rfl

/-- A destruction leaves every child an owner exactly when it meets the condition. -/
theorem destroyResource_rooted_iff {s : Scene} (hs : Tree s) (hr : s.forest.Rooted) {r c : ℕ}
    {i : Interface} (hres : s.resources r = some ⟨c, i⟩) :
    (s.destroyResource r).forest.Rooted ↔
      (i = .virtualObject → ∀ u y, s.renderingUnits u = some y → y.owner = r →
        y.committed = true ∧ s.KnowsTechniques u) ∧
      (i = .renderingUnit → s.KnowsTechniques r) := by
  have hd : (s.destroyResource r).forest = (s.deleteObject r i).forest := by
    rw [destroyResource, hres]
    rfl
  rw [hd]
  by_cases hv : i = .virtualObject
  · subst hv
    obtain ⟨x, hx⟩ := Option.isSome_iff_exists.mp (hs.objects r c hres)
    rw [deleteObject, deleteVirtualObject_forest hs.registered hx,
      Forest.dropObject_rooted_iff hs.registered hr (forest_lists hx)]
    simp only [reduceCtorEq, false_implies, and_true, true_implies, knowsTechniques_iff]
    constructor
    · intro h u y hy ho
      exact h u (nodeOf y) (forest_nodes hy) ho
    · intro h u n hn ho
      simp only [forest, Arena.mapAll_apply, Option.map_eq_some_iff] at hn
      obtain ⟨y, hy, rfl⟩ := hn
      exact h u y hy ho
  by_cases hu : i = .renderingUnit
  · subst hu
    simp only [reduceCtorEq, false_implies, true_and, true_implies, deleteObject]
    split
    · next hy =>
      obtain ⟨y, hy⟩ := Option.isSome_iff_exists.mp hy
      rw [deleteRenderingUnit_forest_of_tree hs hy,
        Forest.dropUnit_rooted_iff hr (forest_nodes hy), knowsTechniques_iff]
    · next hy =>
      exact iff_of_true hr fun y t z hy' => by simp [hy'] at hy
  refine iff_of_true ?_ ⟨fun h => absurd h hv, fun h => absurd h hu⟩
  by_cases ht : i = .baseTechnique
  · subst ht
    simp only [deleteObject]
    split
    · next hz =>
      obtain ⟨z, hz⟩ := Option.isSome_iff_exists.mp hz
      rw [deleteTechnique_forest hz]
      exact Forest.dropTechnique_rooted hr r z.owner
    · exact hr
  · rw [deleteObject_forest s r hv hu ht]
    exact hr

theorem handle_rooted {s : Scene} (hs : Tree s) (hr : s.forest.Rooted) {client : ℕ} {r : Request}
    (ha : s.admits client r) : (s.handle client r).forest.Rooted := by
  by_cases hp : r.plain
  · rw [(handle_same s client hp).forest]
    exact hr
  simp only [admits, Bool.and_eq_true, List.all_eq_true, decide_eq_true_eq] at ha
  cases r with
  | createVirtualObject =>
    rw [handle, createVirtualObject_forest]
    exact Forest.newObject_rooted hr _
  | createRenderingUnit v =>
    rw [handle, createRenderingUnit_forest]
    have hv := hs.objects v client (ha.2 _ List.mem_cons_self)
    exact Forest.newUnit_rooted hr (by simpa [forest] using hv)
  | createGlBaseTechnique u =>
    by_cases hu : (s.renderingUnits u).isSome
    · rw [handle, createGlBaseTechnique_forest hu]
      exact Forest.newTechnique_rooted hr (by simpa [forest] using hu)
    · simp only [handle, createGlBaseTechnique, if_neg hu]
      exact hr
  | commit v => exact (commitVirtualObject_forest hs.registered v).2 hr
  | _ => exact absurd trivial hp

theorem step_rooted_iff {s : Scene} (hs : Tree s) (hr : s.forest.Rooted) (a : Action) :
    (s.step a).forest.Rooted ↔ KeepsChildren s a := by
  cases hf : s.fault with
  | some f =>
    rw [step, if_pos (by simp [hf])]
    refine iff_of_true hr ?_
    cases a <;> simp [KeepsChildren, hf]
  | none =>
    rw [step, if_neg (by simp [hf])]
    cases a with
    | destroy client r =>
      simp only [act, KeepsChildren, hf, true_implies]
      cases hres : s.resources r with
      | none => simpa using hr
      | some x =>
        obtain ⟨c, i⟩ := x
        by_cases hc : c = client
        · subst hc
          simp [destroyResource_rooted_iff hs hr hres]
        · simp only [Option.any_some, decide_eq_true_eq, hc, if_false, Option.some.injEq,
            Resource.mk.injEq, false_and, false_implies, and_self, iff_true]
          exact hr
    | request client r =>
      refine iff_of_true ?_ trivial
      simp only [act]
      split
      · next ha => exact handle_rooted hs hr ha
      · exact hr
    | peerDiscover connected =>
      rw [act, forest_of_content (peerDiscover_content hs.registered connected)]
      exact iff_of_true hr trivial
    | sessionDisconnect =>
      rw [act, forest_of_content (sessionDisconnect_content s)]
      exact iff_of_true hr trivial
    | frameTimer busyness =>
      refine iff_of_true ?_ trivial
      simp only [act, frameTimer]
      split
      · rw [(sessionFrame_same s).forest]; exact hr
      · exact hr
    | moveApp b polar azimuthal =>
      refine iff_of_true ?_ trivial
      simp only [act, moveApp]
      split
      · exact hr
      · next x hx =>
        have h1 := turnApp_same s b x polar azimuthal
        exact (commitVirtualObject_forest (hs.same h1).registered _).2 (h1.forest ▸ hr)

/-- What the comments on `owner_` and `rendering_unit_list_` promise after a run. -/
structure Owned (as : List Action) : Prop where
  units : ∀ u y, (run as).renderingUnits u = some y → ((run as).virtualObjects y.owner).isSome
  techniques : ∀ t z, (run as).baseTechniques t = some z →
    ((run as).renderingUnits z.owner).isSome
  nodup : ∀ v x, (run as).virtualObjects v = some x → x.renderingUnitList.Nodup
  listed : ∀ v x u, (run as).virtualObjects v = some x →
    (u ∈ x.renderingUnitList ↔
      (∃ y, (run as).renderingUnits u = some y ∧ y.owner = v) ∧ SeenCommit as u)

/-- The lists are right in every case; the owners are what can fail. -/
theorem owned_iff_rooted (as : List Action) : Owned as ↔ (run as).forest.Rooted := by
  constructor
  · intro h
    constructor
    · intro u n hn
      simp only [forest, Arena.mapAll_apply, Option.map_eq_some_iff] at hn
      obtain ⟨y, hy, rfl⟩ := hn
      simpa [forest, nodeOf] using h.units u y hy
    · intro t u ht
      simp only [forest, Arena.mapAll_apply, Option.map_eq_some_iff] at ht
      obtain ⟨z, hz, rfl⟩ := ht
      simpa [forest] using h.techniques t z hz
  · intro h
    have hg := (run_tree as).registered
    refine ⟨fun u y hy => ?_, fun t z hz => ?_, fun v x hx => ?_, fun v x u hx => ?_⟩
    · simpa [forest, nodeOf] using h.units u (nodeOf y) (forest_nodes hy)
    · simpa [forest] using h.techniques t z.owner (forest_owners hz)
    · exact hg.nodup v _ (forest_lists hx)
    · rw [hg.listed v _ u (forest_lists hx)]
      constructor
      · rintro ⟨n, hn, ho, hj⟩
        refine ⟨?_, (run_joined_iff hn).mp hj⟩
        simp only [forest, Arena.mapAll_apply, Option.map_eq_some_iff] at hn
        obtain ⟨y, hy, rfl⟩ := hn
        exact ⟨y, hy, ho⟩
      · rintro ⟨⟨y, hy, ho⟩, hc⟩
        exact ⟨nodeOf y, forest_nodes hy, ho, (run_joined_iff (forest_nodes hy)).mpr hc⟩

/-- Owners stay alive and lists stay right through a run exactly when no destruction in it leaves
an unregistered child behind. -/
theorem owned_throughout_iff (as : List Action) :
    (∀ pre, pre <+: as → Owned pre) ↔ Run.Each step KeepsChildren init as := by
  have h0 : init.forest.Rooted :=
    ⟨by simp [init, forest], by simp [init, forest]⟩
  rw [← Run.always_iff_each (P := fun s => s.forest.Rooted) init_tree h0 step_tree
    fun s a hs hr => step_rooted_iff hs hr a]
  exact forall_congr' fun pre => imp_congr_right fun _ => owned_iff_rooted pre

/-- A unit that never saw a commit outlives its virtual object. -/
theorem orphan_unit :
    ¬ Owned [.request 0 .createVirtualObject, .request 0 (.createRenderingUnit 0),
      .destroy 0 0] := by
  intro h
  exact Bool.false_ne_true (h.units 1 { owner := 0 } rfl)

end Scene
end Yaza
