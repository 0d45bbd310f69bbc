import Yaza.Zwin.Ownership

/-! When every child has a live parent: the actions that keep it so, and the two destructions
that may not. -/
namespace Yaza
namespace Scene

theorem createVirtualObject_forest (s : Scene) (client : ℕ) :
    (s.createVirtualObject client).forest = s.forest.newObject s.nextId := by
  simp only [forest, createVirtualObject, Forest.newObject, Arena.mapAll_set_apply]
  rfl

theorem createRenderingUnit_forest (s : Scene) (client v : ℕ) :
    (s.createRenderingUnit client v).forest = s.forest.newUnit s.nextId v := by
  have h := Arena.mapAll_modify (f := VirtualObject.renderingUnitList) (h := s.virtualObjects)
    (i := v) (g := fun x => { x with listeners := x.listeners ++ [.unit s.nextId] }) fun _ => rfl
  simp only [forest, createRenderingUnit, Forest.newUnit, Arena.mapAll_set_apply, h]
  rfl

theorem createGlBaseTechnique_forest {s : Scene} {u : ℕ} (hu : (s.renderingUnits u).isSome)
    (client : ℕ) :
    (s.createGlBaseTechnique client u).forest = s.forest.newTechnique s.nextId u := by
  have h := Arena.mapAll_modify (f := nodeOf) (h := s.renderingUnits) (i := u)
    (g := fun x => { x with listeners := x.listeners ++ [s.nextId] }) fun _ => rfl
  simp only [createGlBaseTechnique, if_pos hu]
  simp only [forest, Forest.newTechnique, Arena.mapAll_set_apply, h]
  rfl

theorem createVirtualObject_tree {s : Scene} (hs : Tree s) (client : ℕ) :
    Tree (s.createVirtualObject client) where
  registered := by
    rw [createVirtualObject_forest]
    exact Forest.newObject_registered hs.registered fun u n hn =>
      (hs.owner_lt u n hn).ne
  fresh := by
    intro i hi
    have hi' : s.nextId + 1 ≤ i := hi
    rw [createVirtualObject_forest]
    simpa [Forest.newObject, show i ≠ s.nextId by omega] using hs.fresh i (by omega)
  owner_lt := by
    intro u n hn
    rw [createVirtualObject_forest] at hn
    exact (hs.owner_lt u n hn).trans (Nat.lt_succ_self _)
  objects := by
    intro r c hr
    simp only [createVirtualObject, newResource, Arena.set_apply] at hr ⊢
    split at hr
    · simp_all
    · next hne => rw [if_neg hne]; exact hs.objects r c hr
  running := by
    intro v x hx
    simp only [createVirtualObject, newResource, Arena.set_apply] at hx
    split at hx
    · cases hx; rfl
    · exact hs.running v x hx

theorem createRenderingUnit_tree {s : Scene} (hs : Tree s) (client : ℕ) {v : ℕ}
    (hv : (s.virtualObjects v).isSome) : Tree (s.createRenderingUnit client v) where
  registered := by
    rw [createRenderingUnit_forest]
    exact Forest.newUnit_registered hs.registered (hs.fresh _ (Nat.le_refl _)).2.1
  fresh := by
    intro i hi
    have hi' : s.nextId + 1 ≤ i := hi
    rw [createRenderingUnit_forest]
    simpa [Forest.newUnit, show i ≠ s.nextId by omega] using hs.fresh i (by omega)
  owner_lt := by
    intro u n hn
    rw [createRenderingUnit_forest] at hn
    have hlt : v < s.nextId := by
      by_contra hge
      have := (hs.fresh v (by omega)).1
      simp only [forest, Arena.mapAll_apply, Option.map_eq_none_iff] at this
      simp [this] at hv
    simp only [Forest.newUnit, Arena.set_apply] at hn
    split at hn
    · cases hn; exact hlt.trans (Nat.lt_succ_self _)
    · exact (hs.owner_lt u n hn).trans (Nat.lt_succ_self _)
  objects := by
    intro r c hr
    have := (newResource_same s client (i := .renderingUnit) (by simp)).resources r c hr
    simpa [createRenderingUnit] using hs.objects r c this
  running := by
    intro w x hx
    have hm := Arena.mapAll_modify (f := VirtualObject.destroying) (h := s.virtualObjects)
      (i := v) (g := fun x => { x with listeners := x.listeners ++ [.unit s.nextId] })
      fun _ => rfl
    obtain ⟨x₀, hx₀, he⟩ := Arena.of_mapAll hm hx
    exact he ▸ hs.running w x₀ hx₀

theorem createGlBaseTechnique_tree {s : Scene} (hs : Tree s) (client u : ℕ) :
    Tree (s.createGlBaseTechnique client u) := by
  by_cases hu : (s.renderingUnits u).isSome
  · have hf := createGlBaseTechnique_forest hu client
    refine ⟨?_, ?_, ?_, ?_, ?_⟩
    · rw [hf]
      exact Forest.newTechnique_registered hs.registered (hs.fresh _ (Nat.le_refl _)).2.2
    · intro i hi
      simp only [createGlBaseTechnique, if_pos hu] at hi
      have hi' : s.nextId + 1 ≤ i := hi
      rw [hf]
      simpa [Forest.newTechnique, show i ≠ s.nextId by omega] using hs.fresh i (by omega)
    · intro w n hn
      rw [hf] at hn
      simp only [createGlBaseTechnique, if_pos hu]
      exact (hs.owner_lt w n hn).trans (Nat.lt_succ_self _)
    · intro r c hr
      simp only [createGlBaseTechnique, if_pos hu] at hr ⊢
      exact hs.objects r c
        ((newResource_same s client (i := .baseTechnique) (by simp)).resources r c hr)
    · intro v x hx
      simp only [createGlBaseTechnique, if_pos hu] at hx
      exact hs.running v x hx
  · simp only [createGlBaseTechnique, if_neg hu]
    exact hs.same ⟨rfl, Nat.le_refl _, fun _ _ h => h, rfl⟩

/-- After the destructors, the resource goes too. -/
theorem Tree.eraseResource {s : Scene} (hs : Tree s) (r : ℕ) :
    Tree { s with resources := s.resources.erase r } :=
  hs.same ⟨rfl, Nat.le_refl _, fun i c hi => by
    by_cases hir : i = r
    · subst hir; simp at hi
    · simpa [hir] using hi, rfl⟩

theorem deleteVirtualObject_rest {s : Scene} {v : ℕ} {x : VirtualObject}
    (hx : s.virtualObjects v = some x) (i : ℕ) (hi : i ≠ v) :
    ((s.deleteVirtualObject v).virtualObjects i).map stubOf =
      (s.virtualObjects i).map stubOf := by
  have h1 := congrFun (congrArg Scene.virtualObjects
    (deleteUnits_rest (s.markDestroying v) x.renderingUnitList)) i
  have h2 : ((s.markDestroying v).virtualObjects i).map stubOf =
      (s.virtualObjects i).map stubOf := by simp [markDestroying, hi]
  have h3 (s' : Scene) (b : Option ℕ) : ((s'.deleteBoundedApp? b).virtualObjects i).map stubOf =
      (s'.virtualObjects i).map stubOf := by
    cases b with
    | none => rfl
    | some b =>
      simp only [deleteBoundedApp?, deleteBoundedApp]
      split
      · rfl
      · next y _ =>
        exact congrFun (Arena.mapAll_modify (f := stubOf) (h := s'.virtualObjects)
          (i := y.virtualObject)
          (g := fun v => { v with listeners := v.listeners.filter (· ≠ .app b) })
          fun _ => rfl) i
  rw [deleteVirtualObject, hx]
  simp only [dropVirtualObject, Arena.erase_of_ne _ hi, h3]
  exact h1.trans h2

theorem deleteVirtualObject_ids {s : Scene} {v : ℕ} {x : VirtualObject}
    (hx : s.virtualObjects v = some x) :
    (s.deleteVirtualObject v).nextId = s.nextId ∧
      (s.deleteVirtualObject v).resources = s.resources := by
  have h1 := deleteUnits_rest (s.markDestroying v) x.renderingUnitList
  have h3 (s' : Scene) (b : Option ℕ) : (s'.deleteBoundedApp? b).nextId = s'.nextId ∧
      (s'.deleteBoundedApp? b).resources = s'.resources := by
    cases b with
    | none => exact ⟨rfl, rfl⟩
    | some b =>
      simp only [deleteBoundedApp?, deleteBoundedApp]
      split <;> exact ⟨rfl, rfl⟩
  rw [deleteVirtualObject, hx]
  simp only [dropVirtualObject, h3]
  exact ⟨show (rest _).nextId = (rest (s.markDestroying v)).nextId from by rw [h1],
    show (rest _).resources = (rest (s.markDestroying v)).resources from by rw [h1]⟩

theorem deleteVirtualObject_tree {s : Scene} (hs : Tree s) {v c : ℕ}
    (hr : s.resources v = some ⟨c, .virtualObject⟩) :
    Tree { s.deleteVirtualObject v with resources := s.resources.erase v } := by
  obtain ⟨x, hx⟩ := Option.isSome_iff_exists.mp (hs.objects v c hr)
  have hf := deleteVirtualObject_forest hs.registered hx
  obtain ⟨hn, hres⟩ := deleteVirtualObject_ids hx
  refine hs.of_forest ?_ hn ?_ ?_ ?_ ?_
  · change (s.deleteVirtualObject v).forest.Registered
    rw [hf]
    exact Forest.dropObject_registered hs.registered (forest_lists hx)
  · intro i hi
    change s.deleteVirtualObject v |>.nextId.le i at hi
    change (s.deleteVirtualObject v).forest.lists i = none ∧
      (s.deleteVirtualObject v).forest.nodes i = none ∧
      (s.deleteVirtualObject v).forest.owners i = none
    obtain ⟨h1, h2, h3⟩ := hs.fresh i (hn ▸ hi)
    rw [hf]
    simp [Forest.dropObject, Arena.erase_apply, h1, h2, h3]
  · intro u n' hn'
    change (s.deleteVirtualObject v).forest.nodes u = some n' at hn'
    rw [hf] at hn'
    simp only [Forest.dropObject, Option.ite_none_left_eq_some] at hn'
    exact ⟨n', hn'.2, rfl⟩
  · intro i c' hi
    by_cases hiv : i = v
    · subst hiv; simp at hi
    · simp only [Arena.erase_of_ne _ hiv] at hi
      have := congrArg Option.isSome (deleteVirtualObject_rest hx i hiv)
      simp only [Option.isSome_map] at this
      change ((s.deleteVirtualObject v).virtualObjects i).isSome
      rw [this]
      exact hs.objects i c' hi
  · intro i x' hx'
    change (s.deleteVirtualObject v).virtualObjects i = some x' at hx'
    have hiv : i ≠ v := by
      rintro rfl
      have := congrFun (congrArg Forest.lists hf) i
      simp [forest, Forest.dropObject, hx'] at this
    have := deleteVirtualObject_rest hx i hiv
    rw [hx', Option.map_some] at this
    obtain ⟨x₀, hx₀, he⟩ := Option.map_eq_some_iff.mp this.symm
    exact ⟨x₀, hx₀, show (stubOf x₀).destroying = _ from he ▸ rfl⟩

/-- A destruction of units and techniques only. -/
theorem Tree.of_rest {s s' : Scene} (hs : Tree s) (h : s'.rest = s.rest)
    (hg : s'.forest.Registered)
    (hl : ∀ i, (s'.forest.lists i).isSome = (s.forest.lists i).isSome)
    (hn : ∀ u n', s'.forest.nodes u = some n' →
      ∃ n, s.forest.nodes u = some n ∧ n.owner = n'.owner)
    (ho : ∀ t u, s'.forest.owners t = some u → s.forest.owners t = some u) : Tree s' := by
  have hid : s'.nextId = s.nextId := show s'.rest.nextId = s.rest.nextId from by rw [h]
  have hres : s'.resources = s.resources :=
    show s'.rest.resources = s.rest.resources from by rw [h]
  have hm : s'.virtualObjects.mapAll stubOf = s.virtualObjects.mapAll stubOf :=
    congrArg Scene.virtualObjects h
  refine hs.of_forest hg hid ?_ hn ?_ ?_
  · intro i hi
    obtain ⟨h1, h2, h3⟩ := hs.fresh i (hid ▸ hi)
    refine ⟨?_, ?_, ?_⟩
    · rw [← Option.not_isSome_iff_eq_none, hl, h1]; simp
    · cases hni : s'.forest.nodes i with
      | none => rfl
      | some n' =>
        obtain ⟨n, hn₀, -⟩ := hn i n' hni
        rw [h2] at hn₀
        cases hn₀
    · cases hoi : s'.forest.owners i with
      | none => rfl
      | some u => rw [ho i u hoi] at h3; cases h3
  · intro r c hr
    rw [Arena.isSome_of_mapAll hm]
    exact hs.objects r c (hres ▸ hr)
  · intro v x' hx'
    obtain ⟨x, hx, he⟩ := Arena.of_mapAll hm hx'
    exact ⟨x, hx, show (stubOf x).destroying = _ from he ▸ rfl⟩

/-- Outside the destructor of its object, a unit that goes leaves the list. -/
theorem deleteRenderingUnit_forest_of_tree {s : Scene} (hs : Tree s) {u : ℕ} {y : RenderingUnit}
    (hy : s.renderingUnits u = some y) :
    (s.deleteRenderingUnit u).forest = s.forest.dropUnit u (nodeOf y) := by
  rw [deleteRenderingUnit_forest (slotOk_of_registered hs.registered) hy, if_neg]
  rintro ⟨x, hx, hd⟩
  simp [hs.running _ x hx] at hd

theorem deleteRenderingUnit_tree {s : Scene} (hs : Tree s) {u : ℕ} {y : RenderingUnit}
    (hy : s.renderingUnits u = some y) : Tree (s.deleteRenderingUnit u) := by
  have hf := deleteRenderingUnit_forest_of_tree hs hy
  refine hs.of_rest (deleteRenderingUnit_rest s u) ?_ ?_ ?_ ?_
  · rw [hf]; exact Forest.dropUnit_registered hs.registered (forest_nodes hy)
  · intro i; rw [hf]; simp [Forest.dropUnit]
  · intro w n' hn'
    rw [hf] at hn'
    have hw : w ≠ u := by rintro rfl; simp [Forest.dropUnit] at hn'
    exact ⟨n', by simpa [Forest.dropUnit, hw] using hn', rfl⟩
  · intro t w ht
    rw [hf] at ht
    simp only [Forest.dropUnit, Option.ite_none_left_eq_some] at ht
    exact ht.2

theorem deleteTechnique_tree {s : Scene} (hs : Tree s) {t : ℕ} {z : GlBaseTechnique}
    (hz : s.baseTechniques t = some z) : Tree (s.deleteTechnique t) := by
  have hf := deleteTechnique_forest hz
  refine hs.of_rest (deleteTechnique_rest s t) ?_ ?_ ?_ ?_
  · rw [hf]; exact Forest.dropTechnique_registered hs.registered (forest_owners hz)
  · intro i; rw [hf]; rfl
  · intro w n' hn'
    rw [hf] at hn'
    simp only [Forest.dropTechnique, Arena.modify_apply] at hn'
    split at hn'
    · obtain ⟨n, hn, rfl⟩ := Option.map_eq_some_iff.mp hn'
      exact ⟨n, hn, rfl⟩
    · exact ⟨n', hn', rfl⟩
  · intro i w hi
    rw [hf] at hi
    have hit : i ≠ t := by rintro rfl; simp [Forest.dropTechnique] at hi
    simpa [Forest.dropTechnique, hit] using hi

theorem deleteBoundedApp_same (s : Scene) (b : ℕ) : SameTree s (s.deleteBoundedApp b) := by
  unfold deleteBoundedApp
  split
  · exact ⟨rfl, Nat.le_refl _, fun _ _ h => h, rfl⟩
  · next x _ =>
    have h1 : SameTree s { s with boundedApps := s.boundedApps.erase b } :=
      ⟨rfl, Nat.le_refl _, fun _ _ h => h, rfl⟩
    exact h1.trans (modifyVirtualObject_same _ x.virtualObject
      (f := fun v => { v with listeners := v.listeners.filter (· ≠ .app b) })
      (fun _ => rfl) fun _ => rfl)

theorem destroyResource_tree {s : Scene} (hs : Tree s) (r : ℕ) : Tree (s.destroyResource r) := by
  unfold destroyResource
  split
  · exact hs
  · next x hx =>
    obtain ⟨c, i⟩ := x
    by_cases hi : i = .virtualObject
    · subst hi
      exact deleteVirtualObject_tree hs hx
    have key {s' : Scene} (hs' : Tree s') (hr : s'.resources = s.resources) :
        Tree { s' with resources := s.resources.erase r } := hr ▸ hs'.eraseResource r
    cases i with
    | virtualObject => exact absurd rfl hi
    | bounded =>
      simp only [deleteObject]
      split
      · refine key (hs.same (deleteBoundedApp_same s r)) ?_
        unfold deleteBoundedApp
        split <;> rfl
      · exact key hs rfl
    | renderingUnit =>
      simp only [deleteObject]
      split
      · next hy =>
        obtain ⟨y, hy⟩ := Option.isSome_iff_exists.mp hy
        exact key (deleteRenderingUnit_tree hs hy)
          (show (rest _).resources = s.rest.resources from by rw [deleteRenderingUnit_rest])
      · exact key hs rfl
    | baseTechnique =>
      simp only [deleteObject]
      split
      · next hz =>
        obtain ⟨z, hz⟩ := Option.isSome_iff_exists.mp hz
        exact key (deleteTechnique_tree hs hz)
          (show (rest _).resources = s.rest.resources from by rw [deleteTechnique_rest])
      · exact key hs rfl
    | glProgram | glShader | glVertexArray | glBuffer | glTexture | glSampler | region
    | shmBuffer =>
      exact key (hs.same ⟨rfl, Nat.le_refl _, fun _ _ h => h, rfl⟩) rfl

theorem sessionEstablished_steps {s : Scene} (hs : s.remote.hasSession)
    (hg : s.forest.Registered) (v : ℕ) :
    Syncs (fun _ => True) (fun _ => True) s (s.sessionEstablished v) := by
  unfold sessionEstablished
  split
  · exact .refl
  · split
    · exact syncVirtualObject_steps hs hg v true
    · exact .refl

/-- The handlers of one session. -/
theorem sessionEstablisheds_steps {s : Scene} (hs : s.remote.hasSession)
    (hg : s.forest.Registered) (l : List ℕ) :
    Syncs (fun _ => True) (fun _ => True) s (l.foldl sessionEstablished s) :=
  Path.foldl (P := fun s => s.remote.hasSession ∧ s.forest.Registered)
    (fun s s' h hp => ⟨by rw [Syncs.hasSession (.single h)]; exact hp.1,
      by rw [forest_of_content h.content]; exact hp.2⟩)
    (fun s hp v _ => sessionEstablished_steps hp.1 hp.2 v) ⟨hs, hg⟩

/-- The peer discover handler establishes a session, if it does anything, and syncs. -/
theorem peerDiscover_cases {s : Scene} (hg : s.forest.Registered) (connected : Bool) :
    s.peerDiscover connected = s ∧ (s.remote.hasSession || !connected) = true ∨
      s.remote.hasSession = false ∧
        Syncs (fun _ => True) (fun _ => True) { s with remote := s.remote.establish }
          (s.peerDiscover connected) := by
  unfold peerDiscover
  split
  · next hc => exact .inl ⟨rfl, hc⟩
  · next hc =>
    refine .inr ⟨by simp_all, ?_⟩
    exact sessionEstablisheds_steps (s := { s with remote := s.remote.establish }) rfl hg _

theorem peerDiscover_content {s : Scene} (hg : s.forest.Registered) (connected : Bool) :
    (s.peerDiscover connected).content = s.content := by
  rcases peerDiscover_cases hg connected with ⟨h, -⟩ | ⟨-, h⟩
  · rw [h]
  · exact h.content

@[simp] theorem sessionDisconnect_content (s : Scene) :
    s.sessionDisconnect.content = s.content := by
  unfold sessionDisconnect
  split
  · rw [dropProxies_content]; rfl
  · rfl

theorem sessionFrame_same (s : Scene) : SameTree s s.sessionFrame where
  forest := by
    simp only [forest, sessionFrame, Arena.mapAll_mapAll]
    rfl
  nextId := Nat.le_refl _
  resources := fun _ _ h => h
  destroying := by
    simp only [sessionFrame, Arena.mapAll_mapAll]
    rfl

theorem handle_tree {s : Scene} (hs : Tree s) {client : ℕ} {r : Request}
    (hr : s.admits client r) : Tree (s.handle client r) := by
  by_cases hp : r.plain
  · exact hs.same (handle_same s client hp)
  cases r with
  | createVirtualObject => exact createVirtualObject_tree hs client
  | createRenderingUnit v =>
    simp only [admits, Request.objects, List.all_cons, List.all_nil, Bool.and_true,
      Bool.and_eq_true, decide_eq_true_eq] at hr
    exact createRenderingUnit_tree hs client (hs.objects v client hr.2)
  | createGlBaseTechnique u => exact createGlBaseTechnique_tree hs client u
  | commit v => exact commitVirtualObject_tree hs v
  | _ => exact absurd trivial hp

theorem turnApp_same (s : Scene) (b : ℕ) (x : BoundedApp) (polar azimuthal : ℚ) :
    SameTree s (s.turnApp b x polar azimuthal) := ⟨rfl, Nat.le_refl _, fun _ _ h => h, rfl⟩

theorem moveApp_tree {s : Scene} (hs : Tree s) (b : ℕ) (polar azimuthal : ℚ) :
    Tree (s.moveApp b polar azimuthal) := by
  unfold moveApp
  split
  · exact hs
  · exact commitVirtualObject_tree (hs.same (turnApp_same ..)) _

theorem act_tree {s : Scene} (hs : Tree s) (a : Action) : Tree (s.act a) := by
  cases a with
  | request client r =>
    simp only [act]
    split
    · next hr => exact handle_tree hs hr
    · exact hs
  | destroy client r =>
    simp only [act]
    split
    · exact destroyResource_tree hs r
    · exact hs
  | peerDiscover connected =>
    exact hs.same (sameTree_of_content (peerDiscover_content hs.registered connected))
  | sessionDisconnect => exact hs.same (sameTree_of_content (sessionDisconnect_content s))
  | frameTimer busyness =>
    simp only [act, frameTimer]
    split
    · exact hs.same (sessionFrame_same s)
    · exact hs
  | moveApp b polar azimuthal => exact moveApp_tree hs b polar azimuthal

theorem step_tree (s : Scene) (a : Action) (hs : Tree s) : Tree (s.step a) := by
  unfold step
  split
  · exact hs
  · exact act_tree hs a

theorem init_tree : Tree init where
  registered := ⟨by simp [init, forest], by simp [init, forest], by simp [init, forest]⟩
  fresh := by simp [init, forest]
  owner_lt := by simp [init, forest]
  objects := by simp [init]
  running := by simp [init]

theorem run_tree (as : List Action) : Tree (run as) := Run.final_induction init_tree step_tree as

end Scene
end Yaza
