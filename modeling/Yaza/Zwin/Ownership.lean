import Yaza.Zwin.Forest
import Yaza.Zwin.SyncSpec
import Yaza.Zwin.CommitSpec

/-! The scene refines the forest: what each action does to virtual objects, units and techniques
is an operation of `Forest`, and parents know their children in every reachable scene. -/
namespace Yaza
namespace Scene

def nodeOf (y : RenderingUnit) : Node := ⟨y.owner, y.committed, y.technique⟩

def forest (s : Scene) : Forest where
  lists := s.virtualObjects.mapAll VirtualObject.renderingUnitList
  nodes := s.renderingUnits.mapAll nodeOf
  owners := s.baseTechniques.mapAll GlBaseTechnique.owner

theorem content_forest (s : Scene) : s.content.forest = s.forest := by
  simp only [forest, content, Arena.mapAll_mapAll]
  rfl

theorem forest_of_content {s s' : Scene} (h : s'.content = s.content) : s'.forest = s.forest := by
  rw [← content_forest, h, content_forest]

theorem forest_nodes {s : Scene} {u : ℕ} {y : RenderingUnit} (hy : s.renderingUnits u = some y) :
    s.forest.nodes u = some (nodeOf y) := by simp [forest, hy]

theorem forest_owners {s : Scene} {t : ℕ} {z : GlBaseTechnique}
    (hz : s.baseTechniques t = some z) : s.forest.owners t = some z.owner := by simp [forest, hz]

theorem forest_lists {s : Scene} {v : ℕ} {x : VirtualObject} (hx : s.virtualObjects v = some x) :
    s.forest.lists v = some x.renderingUnitList := by simp [forest, hx]

theorem postError_forest (s : Scene) (i : ℕ) (code : ErrorCode) (text : String) :
    (s.postError i code text).forest = s.forest := by
  rcases postError_cases s i code text with h | ⟨e, h⟩ <;> rw [h] <;> rfl

section Updates
variable {s : Scene} {i : ℕ}

theorem setUnit_forest {y y' : RenderingUnit} {g : Node → Node}
    (hy : s.renderingUnits i = some y) (hg : nodeOf y' = g (nodeOf y)) :
    { s with renderingUnits := s.renderingUnits.set i y' }.forest =
      { s.forest with nodes := s.forest.nodes.modify i g } := by
  have h := Arena.set_eq_modify (forest_nodes hy) hg
  simp only [forest, Arena.mapAll_set_apply] at h ⊢
  rw [h]

theorem setVirtualObject_forest {x x' : VirtualObject} {g : List ℕ → List ℕ}
    (hx : s.virtualObjects i = some x) (hg : x'.renderingUnitList = g x.renderingUnitList) :
    { s with virtualObjects := s.virtualObjects.set i x' }.forest =
      { s.forest with lists := s.forest.lists.modify i g } := by
  have h := Arena.set_eq_modify (forest_lists hx) hg
  simp only [forest, Arena.mapAll_set_apply] at h ⊢
  rw [h]

theorem setTechnique_forest {z z' : GlBaseTechnique} (hz : s.baseTechniques i = some z)
    (ho : z'.owner = z.owner) :
    { s with baseTechniques := s.baseTechniques.set i z' }.forest = s.forest := by
  simp only [forest, Arena.mapAll_set hz ho]

theorem modifyTechnique_forest {f : GlBaseTechnique → GlBaseTechnique}
    (hf : ∀ z, (f z).owner = z.owner) :
    { s with baseTechniques := s.baseTechniques.modify i f }.forest = s.forest := by
  simp only [forest, Arena.mapAll_modify hf]

theorem modifyVirtualObject_forest {f : VirtualObject → VirtualObject}
    (hf : ∀ x, (f x).renderingUnitList = x.renderingUnitList) :
    { s with virtualObjects := s.virtualObjects.modify i f }.forest = s.forest := by
  simp only [forest, Arena.mapAll_modify hf]

theorem modifyUnit_forest {f : RenderingUnit → RenderingUnit} (hf : ∀ y, nodeOf (f y) = nodeOf y) :
    { s with renderingUnits := s.renderingUnits.modify i f }.forest = s.forest := by
  simp only [forest, Arena.mapAll_modify hf]

end Updates

theorem addRenderingUnit_forest (s : Scene) (v u : ℕ) :
    (s.addRenderingUnit v u).forest =
      { s.forest with lists := s.forest.lists.modify v fun l => l ++ [u] } := by
  unfold addRenderingUnit
  split
  · next hx =>
    have hl : s.forest.lists v = none := by simp [forest, hx]
    rw [Arena.modify_of_none hl]
    rfl
  · next x hx => exact setVirtualObject_forest hx rfl

theorem CommitStep.forest {T : ℕ → Prop} {s s' : Scene} (h : CommitStep T s s') :
    s'.forest = s.forest ∨
      (∃ t u, s.forest.owners t = some u ∧ s'.forest = s.forest.joinTechnique t u) ∨
      ∃ u n, s.forest.nodes u = some n ∧ n.joined = false ∧
        s'.forest = s.forest.joinUnit u n.owner := by
  cases h with
  | error i code text => exact .inl (postError_forest s i code text)
  | technique t z ht hz => exact .inl (setTechnique_forest hz rfl)
  | register t z y ht hz hy hn =>
    exact .inr (.inl ⟨t, z.owner, forest_owners hz, setUnit_forest hy rfl⟩)
  | unit u y hu hy hc =>
    refine .inr (.inr ⟨u, nodeOf y, forest_nodes hy, hc, ?_⟩)
    have hr := addRenderingUnit_units s y.owner u
    have h1 := setUnit_forest (s := s.addRenderingUnit y.owner u) (i := u)
      (g := fun n => { n with joined := true }) (hr ▸ hy)
      (rfl : nodeOf { y with committed := true } = _)
    rw [hr] at h1
    rw [registerUnit, if_neg (by simp [hc]), h1, addRenderingUnit_forest]
    rfl
  | object v x hv hx =>
    have h1 := setVirtualObject_forest (g := fun l => l) hx
      (rfl : x.commit.renderingUnitList = _)
    left
    rw [h1]
    have hm : s.forest.lists.modify v (fun l => l) = s.forest.lists := by
      funext j; by_cases hj : j = v <;> simp [hj]
    rw [hm]
  | _ => exact .inl rfl

/-- Commits keep what parents know true, and leave no child behind. -/
theorem Commits.forest {T : ℕ → Prop} {s s' : Scene} (h : Commits T s s')
    (hg : s.forest.Registered) :
    s'.forest.Registered ∧ (s.forest.Rooted → s'.forest.Rooted) := by
  induction h with
  | refl => exact ⟨hg, id⟩
  | tail _ hstep ih =>
    obtain ⟨hg', hr'⟩ := ih
    rcases hstep.forest with he | ⟨t, u, ht, he⟩ | ⟨u, n, hn, hj, he⟩
    · rw [he]; exact ⟨hg', hr'⟩
    · rw [he]
      exact ⟨Forest.joinTechnique_registered hg' ht,
        fun hr => Forest.joinTechnique_rooted (hr' hr) t u⟩
    · rw [he]
      exact ⟨Forest.joinUnit_registered hg' hn hj, fun hr => Forest.joinUnit_rooted (hr' hr) u _⟩

theorem slotOk_of_registered {s : Scene} (hg : s.forest.Registered) : SlotOk s := by
  intro u y t hy ht
  have ho := hg.slot u (nodeOf y) t (forest_nodes hy) ht
  simpa [forest] using ho

theorem listOk_of_registered {s : Scene} (hg : s.forest.Registered) : ListOk s := by
  intro v x u hx hu
  obtain ⟨n, hn, ho, -⟩ := (hg.listed v _ u (forest_lists hx)).mp hu
  simp only [forest, Arena.mapAll_apply, Option.map_eq_some_iff] at hn
  obtain ⟨y, hy, rfl⟩ := hn
  exact ⟨y, hy, ho⟩

/-- With a session, the `sync` of any object is made of the steps of `sync`. -/
theorem syncVirtualObject_steps {s : Scene} (hs : s.remote.hasSession)
    (hg : s.forest.Registered) (v : ℕ) (force : Bool) :
    Syncs (fun _ => True) (fun _ => True) s (s.syncVirtualObject v force) :=
  syncVirtualObject_syncs (fun _ _ => trivial) hs (slotOk_of_registered hg)
    (listOk_of_registered hg) (fun _ _ _ _ _ _ _ _ => ⟨trivial, fun _ _ _ _ => trivial⟩) force

theorem syncIfSession_steps {s : Scene} (hg : s.forest.Registered) (v : ℕ) :
    Syncs (fun _ => True) (fun _ => True) s (s.syncIfSession v) := by
  unfold syncIfSession
  split
  · next hs => exact syncVirtualObject_steps hs hg v false
  · exact .refl

theorem commitVirtualObject_forest {s : Scene} (hg : s.forest.Registered) (v : ℕ) :
    (s.commitVirtualObject v).forest.Registered ∧
      (s.forest.Rooted → (s.commitVirtualObject v).forest.Rooted) := by
  obtain ⟨h1, h2⟩ := (commitState_commits_true s v).forest hg
  have hf := forest_of_content (syncIfSession_steps h1 v).content
  rw [commitVirtualObject, hf]
  exact ⟨h1, h2⟩

theorem setTechnique_none_forest (s : Scene) (u : ℕ) :
    (s.setTechnique u none).forest =
      { s.forest with nodes := s.forest.nodes.modify u fun n => { n with slot := none } } := by
  unfold setTechnique
  split
  · next hu =>
    have hn : s.forest.nodes u = none := by simp [forest, hu]
    rw [Arena.modify_of_none hn]
    rfl
  · next y hy =>
    rw [if_neg (by simp)]
    exact setUnit_forest hy rfl

theorem dropTechnique_forest (s : Scene) (t u : ℕ) :
    (s.dropTechnique t u).forest = { s.forest with owners := s.forest.owners.erase t } := by
  have h := modifyUnit_forest (s := s) (i := u)
    (f := fun x => { x with listeners := x.listeners.filter (· ≠ t) }) fun _ => rfl
  simp only [forest, Forest.mk.injEq] at h
  simp only [forest, dropTechnique, Arena.mapAll_erase, h.2.1]

theorem deleteTechnique_forest {s : Scene} {t : ℕ} {z : GlBaseTechnique}
    (hz : s.baseTechniques t = some z) :
    (s.deleteTechnique t).forest = s.forest.dropTechnique t z.owner := by
  rw [deleteTechnique, hz]
  simp only [dropTechnique_forest, setTechnique_none_forest]
  rfl

theorem removeRenderingUnit_forest (s : Scene) (v u : ℕ) :
    (s.removeRenderingUnit v u).forest =
      if ∃ x, s.virtualObjects v = some x ∧ x.destroying = true then s.forest
      else { s.forest with lists := s.forest.lists.modify v fun l => l.filter (· ≠ u) } := by
  unfold removeRenderingUnit
  split
  · next hv =>
    have hl : s.forest.lists v = none := by simp [forest, hv]
    rw [if_neg (by simp [hv]), Arena.modify_of_none hl]
    rfl
  · next x hx =>
    by_cases hd : x.destroying
    · rw [if_pos hd, if_pos ⟨x, hx, hd⟩]
    · rw [if_neg hd, if_neg (by simp [hx, hd])]
      exact setVirtualObject_forest hx rfl

theorem removeRenderingUnit_techniques (s : Scene) (v u : ℕ) :
    (s.removeRenderingUnit v u).baseTechniques = s.baseTechniques ∧
      (s.removeRenderingUnit v u).renderingUnits = s.renderingUnits := by
  unfold removeRenderingUnit
  split
  · exact ⟨rfl, rfl⟩
  · split <;> exact ⟨rfl, rfl⟩

theorem dropUnit_forest (s : Scene) (u v : ℕ) :
    (s.dropUnit u v).forest = { s.forest with nodes := s.forest.nodes.erase u } := by
  have h := modifyVirtualObject_forest (s := s) (i := v)
    (f := fun x => { x with listeners := x.listeners.filter (· ≠ .unit u) }) fun _ => rfl
  simp only [forest, Forest.mk.injEq] at h
  simp only [forest, dropUnit, Arena.mapAll_erase, h.1]

/-- The slot of a unit that goes is its own technique's. -/
theorem deleteTechnique?_forest {s : Scene} {u : ℕ} {o : Option ℕ}
    (ho : ∀ t, o = some t → s.forest.owners t = some u) :
    { (s.deleteTechnique? o).forest with nodes := (s.deleteTechnique? o).forest.nodes.erase u } =
      { lists := s.forest.lists
        nodes := s.forest.nodes.erase u
        owners := fun t => if o = some t then none else s.forest.owners t } := by
  cases o with
  | none => simp [deleteTechnique?]
  | some t =>
    have hot := ho t rfl
    simp only [forest, Arena.mapAll_apply, Option.map_eq_some_iff] at hot
    obtain ⟨z, hz, rfl⟩ := hot
    simp only [deleteTechnique?, deleteTechnique_forest hz, Forest.dropTechnique,
      Option.some.injEq]
    congr 1
    · funext w
      by_cases hw : w = z.owner <;> simp [hw]
    · funext i
      by_cases hi : i = t
      · subst hi; simp
      · simp [hi, Ne.symm hi]

/-- `~RenderingUnit` in the forest; only an object that is being destroyed keeps its list. -/
theorem deleteRenderingUnit_forest {s : Scene} (hk : SlotOk s) {u : ℕ} {y : RenderingUnit}
    (hy : s.renderingUnits u = some y) :
    (s.deleteRenderingUnit u).forest =
      if ∃ x, s.virtualObjects y.owner = some x ∧ x.destroying = true then
        { s.forest.dropUnit u (nodeOf y) with lists := s.forest.lists }
      else s.forest.dropUnit u (nodeOf y) := by
  obtain ⟨ht, -⟩ := removeRenderingUnit_techniques s y.owner u
  have hf := removeRenderingUnit_forest s y.owner u
  have ho : ∀ t, y.technique = some t →
      (s.removeRenderingUnit y.owner u).forest.owners t = some u := by
    intro t hyt
    obtain ⟨z, hz, hzu⟩ := hk u y t hy hyt
    simp [forest, ht, hz, hzu]
  rw [deleteRenderingUnit, hy]
  simp only [dropUnit_forest]
  rw [deleteTechnique?_forest ho, hf]
  split <;> rfl

def stubOf (x : VirtualObject) : VirtualObject :=
  { x with renderingUnitList := [], listeners := [] }

/-- What the destruction of units and techniques leaves alone. -/
def rest (s : Scene) : Scene :=
  { s with
    fault := none
    virtualObjects := s.virtualObjects.mapAll stubOf
    renderingUnits := Arena.empty
    baseTechniques := Arena.empty }

theorem deleteTechnique_rest (s : Scene) (t : ℕ) : (s.deleteTechnique t).rest = s.rest := by
  unfold deleteTechnique
  split
  · rfl
  · simp only [setTechnique]
    split
    · rfl
    · simp only [Option.isSome_none, Bool.false_and, Bool.false_eq_true, if_false]
      rfl

theorem removeRenderingUnit_rest (s : Scene) (v u : ℕ) :
    (s.removeRenderingUnit v u).rest = s.rest := by
  unfold removeRenderingUnit
  split
  · rfl
  · next x hx =>
    split
    · rfl
    · have h := Arena.mapAll_set (f := stubOf)
        (y := { x with renderingUnitList := x.renderingUnitList.filter (· ≠ u) }) hx rfl
      simp only [rest, h]

theorem deleteRenderingUnit_rest (s : Scene) (u : ℕ) :
    (s.deleteRenderingUnit u).rest = s.rest := by
  unfold deleteRenderingUnit
  split
  · rfl
  · next y hy =>
    have h1 : ((s.removeRenderingUnit y.owner u).deleteTechnique? y.technique).rest = s.rest := by
      rw [← removeRenderingUnit_rest s y.owner u]
      cases y.technique with
      | none => rfl
      | some t => exact deleteTechnique_rest _ t
    rw [← h1]
    have h2 := Arena.mapAll_modify (f := stubOf) (i := y.owner)
      (h := ((s.removeRenderingUnit y.owner u).deleteTechnique? y.technique).virtualObjects)
      (g := fun x => { x with listeners := x.listeners.filter (· ≠ .unit u) }) fun _ => rfl
    simp only [rest, dropUnit, h2]

theorem deleteUnits_rest (s : Scene) (l : List ℕ) :
    (l.foldl deleteRenderingUnit s).rest = s.rest := by
  induction l generalizing s with
  | nil => rfl
  | cons u l ih => rw [List.foldl_cons, ih, deleteRenderingUnit_rest]

/-- The interfaces of the objects in the tree. -/
def inTree : Interface → Bool
  | .virtualObject | .bounded | .renderingUnit | .baseTechnique => true
  | _ => false

/-- What the destruction of an object of the tree leaves alone. -/
def leaves (s : Scene) : Scene :=
  { s.rest with virtualObjects := Arena.empty, boundedApps := Arena.empty }

theorem leaves_of_rest {s s' : Scene} (h : s'.rest = s.rest) : s'.leaves = s.leaves := by
  simp only [leaves, h]

theorem deleteBoundedApp_leaves (s : Scene) (b : ℕ) : (s.deleteBoundedApp b).leaves = s.leaves := by
  unfold deleteBoundedApp
  split <;> rfl

theorem deleteVirtualObject_leaves (s : Scene) (v : ℕ) :
    (s.deleteVirtualObject v).leaves = s.leaves := by
  unfold deleteVirtualObject
  split
  · rfl
  · next x _ =>
    have h1 : (x.renderingUnitList.foldl deleteRenderingUnit (s.markDestroying v)).leaves =
        (s.markDestroying v).leaves :=
      leaves_of_rest (deleteUnits_rest (s.markDestroying v) x.renderingUnitList)
    have h2 (s : Scene) : (s.deleteBoundedApp? x.app).leaves = s.leaves := by
      cases x.app with
      | none => rfl
      | some b => exact deleteBoundedApp_leaves s b
    have h3 : (s.markDestroying v).leaves = s.leaves := rfl
    exact ((h2 _).trans h1).trans h3

theorem deleteObject_leaves (s : Scene) (r : ℕ) {i : Interface} (hi : inTree i) :
    (s.deleteObject r i).leaves = s.leaves := by
  cases i with
  | virtualObject => exact deleteVirtualObject_leaves s r
  | bounded =>
    simp only [deleteObject]
    split
    · exact deleteBoundedApp_leaves s r
    · rfl
  | renderingUnit =>
    simp only [deleteObject]
    split
    · exact leaves_of_rest (deleteRenderingUnit_rest s r)
    · rfl
  | baseTechnique =>
    simp only [deleteObject]
    split
    · exact leaves_of_rest (deleteTechnique_rest s r)
    · rfl
  | _ => cases hi

theorem slotOk_iff {s : Scene} :
    SlotOk s ↔ ∀ u n t, s.forest.nodes u = some n → n.slot = some t →
      s.forest.owners t = some u := by
  constructor
  · intro hk u n t hn ht
    simp only [forest, Arena.mapAll_apply, Option.map_eq_some_iff] at hn
    obtain ⟨y, hy, rfl⟩ := hn
    obtain ⟨z, hz, hzu⟩ := hk u y t hy ht
    exact forest_owners hz |>.trans (by rw [hzu])
  · intro h u y t hy ht
    simpa [forest] using h u (nodeOf y) t (forest_nodes hy) ht

/-- The units of an object that is being destroyed go one after the other. -/
theorem deleteUnits_forest {v : ℕ} {l : List ℕ} {s : Scene} (hk : SlotOk s)
    (hl : ∀ u ∈ l, ∀ n, s.forest.nodes u = some n → n.owner = v)
    (hv : ∃ x, s.virtualObjects v = some x ∧ x.destroying = true) :
    (l.foldl deleteRenderingUnit s).forest =
      { s.forest.dropObject v l with lists := s.forest.lists } := by
  induction l generalizing s with
  | nil => simp [Forest.dropObject, Forest.slots]
  | cons u l ih =>
    rw [List.foldl_cons]
    cases hu : s.renderingUnits u with
    | none =>
      have hn : s.forest.nodes u = none := by simp [forest, hu]
      have hc : s.deleteRenderingUnit u = s.crash .useAfterFree := by
        rw [deleteRenderingUnit, hu]
      rw [hc]
      have hf : (s.crash .useAfterFree).forest = s.forest := rfl
      rw [ih (s := s.crash .useAfterFree) hk (fun w hw => hl w (List.mem_cons_of_mem u hw)) hv,
        hf, Forest.dropObject_cons_of_none hn]
    | some y =>
      have ho : y.owner = v := hl u List.mem_cons_self _ (forest_nodes hu)
      have hf := deleteRenderingUnit_forest hk hu
      rw [ho, if_pos hv] at hf
      have hk' : SlotOk (s.deleteRenderingUnit u) := by
        rw [slotOk_iff, hf]
        intro w n t hn ht
        have hw : w ≠ u := by rintro rfl; simp [Forest.dropUnit] at hn
        have hn₀ : s.forest.nodes w = some n := by simpa [Forest.dropUnit, hw] using hn
        have hso := slotOk_iff.mp hk w n t hn₀ ht
        have hne : (nodeOf y).slot ≠ some t := by
          intro hs
          have := slotOk_iff.mp hk u (nodeOf y) t (forest_nodes hu) hs
          rw [hso, Option.some.injEq] at this
          exact hw this
        simpa [Forest.dropUnit, hne] using hso
      have hl' : ∀ w ∈ l, ∀ n, (s.deleteRenderingUnit u).forest.nodes w = some n →
          n.owner = v := by
        intro w hw n hn
        rw [hf] at hn
        have hwu : w ≠ u := by rintro rfl; simp [Forest.dropUnit] at hn
        exact hl w (List.mem_cons_of_mem u hw) n (by simpa [Forest.dropUnit, hwu] using hn)
      have hv' : ∃ x, (s.deleteRenderingUnit u).virtualObjects v = some x ∧
          x.destroying = true := by
        obtain ⟨x, hx, hd⟩ := hv
        have hm := congrArg Scene.virtualObjects (deleteRenderingUnit_rest s u)
        obtain ⟨x', hx', he⟩ := Arena.of_mapAll hm.symm hx
        exact ⟨x', hx', (show (stubOf x').destroying = _ from he ▸ hd)⟩
      rw [ih hk' hl' hv', hf, Forest.dropObject_cons (forest_nodes hu)]

theorem deleteBoundedApp?_forest (s : Scene) (b : Option ℕ) :
    (s.deleteBoundedApp? b).forest = s.forest := by
  cases b with
  | none => rfl
  | some b =>
    simp only [deleteBoundedApp?, deleteBoundedApp]
    split
    · rfl
    · next x _ =>
      exact modifyVirtualObject_forest (s := s) (i := x.virtualObject)
        (f := fun v => { v with listeners := v.listeners.filter (· ≠ .app b) }) fun _ => rfl

/-- `~VirtualObject` in the forest. -/
theorem deleteVirtualObject_forest {s : Scene} (hg : s.forest.Registered) {v : ℕ}
    {x : VirtualObject} (hx : s.virtualObjects v = some x) :
    (s.deleteVirtualObject v).forest = s.forest.dropObject v x.renderingUnitList := by
  have hm : (s.markDestroying v).forest = s.forest :=
    modifyVirtualObject_forest (f := fun x => { x with destroying := true }) fun _ => rfl
  have hk : SlotOk (s.markDestroying v) := slotOk_of_registered (hm ▸ hg)
  have hl : ∀ u ∈ x.renderingUnitList, ∀ n, (s.markDestroying v).forest.nodes u = some n →
      n.owner = v := by
    intro u hu n hn
    rw [hm] at hn
    obtain ⟨m, hmu, ho, -⟩ := (hg.listed v _ u (forest_lists hx)).mp hu
    rw [hn, Option.some.injEq] at hmu
    exact hmu ▸ ho
  have hd : ∃ y, (s.markDestroying v).virtualObjects v = some y ∧ y.destroying = true := by
    simp [markDestroying, hx]
  have hu := deleteUnits_forest hk hl hd
  have ha := deleteBoundedApp?_forest (x.renderingUnitList.foldl deleteRenderingUnit
    (s.markDestroying v)) x.app
  rw [deleteVirtualObject, hx]
  have he (s : Scene) : (s.dropVirtualObject v).forest =
      { s.forest with lists := s.forest.lists.erase v } := by
    simp only [forest, dropVirtualObject, Arena.mapAll_erase]
  simp only [he, ha, hu, hm]
  rfl

/-- What holds of the tree of objects in every reachable scene, also after a fault. -/
structure Tree (s : Scene) : Prop where
  registered : s.forest.Registered
  /-- No address from `nextId` on is in use. -/
  fresh : ∀ i, s.nextId ≤ i →
    s.forest.lists i = none ∧ s.forest.nodes i = none ∧ s.forest.owners i = none
  owner_lt : ∀ u n, s.forest.nodes u = some n → n.owner < s.nextId
  /-- A virtual object goes with its resource only. -/
  objects : ∀ r c, s.resources r = some ⟨c, .virtualObject⟩ → (s.virtualObjects r).isSome
  running : ∀ v x, s.virtualObjects v = some x → x.destroying = false

/-- A change that the tree does not see. -/
structure SameTree (s s' : Scene) : Prop where
  forest : s'.forest = s.forest
  nextId : s.nextId ≤ s'.nextId
  resources : ∀ r c, s'.resources r = some ⟨c, .virtualObject⟩ →
    s.resources r = some ⟨c, .virtualObject⟩
  destroying : s'.virtualObjects.mapAll VirtualObject.destroying =
    s.virtualObjects.mapAll VirtualObject.destroying

theorem SameTree.refl (s : Scene) : SameTree s s := ⟨rfl, Nat.le_refl _, fun _ _ h => h, rfl⟩

theorem SameTree.trans {s s' s'' : Scene} (h : SameTree s s') (h' : SameTree s' s'') :
    SameTree s s'' where
  forest := h'.forest.trans h.forest
  nextId := h.nextId.trans h'.nextId
  resources := fun r c hr => h.resources r c (h'.resources r c hr)
  destroying := h'.destroying.trans h.destroying

theorem Tree.same {s s' : Scene} (hs : Tree s) (h : SameTree s s') : Tree s' where
  registered := h.forest ▸ hs.registered
  fresh := fun i hi => h.forest ▸ hs.fresh i (h.nextId.trans hi)
  owner_lt := fun u n hn => (hs.owner_lt u n (h.forest ▸ hn)).trans_le h.nextId
  objects := fun r c hr => by
    rw [Arena.isSome_of_mapAll h.destroying]
    exact hs.objects r c (h.resources r c hr)
  running := fun v x' hx' => by
    obtain ⟨x, hx, he⟩ := Arena.of_mapAll h.destroying hx'
    exact he ▸ hs.running v x hx

theorem postError_same (s : Scene) (i : ℕ) (code : ErrorCode) (text : String) :
    SameTree s (s.postError i code text) := by
  rcases postError_cases s i code text with h | ⟨e, h⟩ <;> rw [h] <;>
    exact ⟨rfl, Nat.le_refl _, fun _ _ h => h, rfl⟩

theorem newResource_same (s : Scene) (client : ℕ) {i : Interface} (hi : i ≠ .virtualObject) :
    SameTree s (s.newResource client i) where
  forest := rfl
  nextId := Nat.le_succ _
  resources := by
    intro r c hr
    simp only [newResource, Arena.set_apply] at hr
    split at hr
    · cases hr; exact absurd rfl hi
    · exact hr
  destroying := rfl

theorem modifyVirtualObject_same (s : Scene) (v : ℕ) {f : VirtualObject → VirtualObject}
    (hl : ∀ x, (f x).renderingUnitList = x.renderingUnitList)
    (hd : ∀ x, (f x).destroying = x.destroying) :
    SameTree s { s with virtualObjects := s.virtualObjects.modify v f } where
  forest := modifyVirtualObject_forest hl
  nextId := Nat.le_refl _
  resources := fun _ _ h => h
  destroying := Arena.mapAll_modify hd

theorem techniqueRequest_same (s : Scene) (t : ℕ) (r : TechniqueRequest) :
    SameTree s (s.techniqueRequest t r) where
  forest := modifyTechnique_forest fun _ => rfl
  nextId := Nat.le_refl _
  resources := fun _ _ h => h
  destroying := rfl

theorem uniformVector_same (s : Scene) (t : ℕ) (type : UniformType) (location : UInt32)
    (name : Option String) (size count : UInt32) (value : WlArray) :
    SameTree s (s.uniformVector t type location name size count value) := by
  unfold uniformVector
  split
  · exact postError_same ..
  · split
    · exact postError_same ..
    · exact techniqueRequest_same ..

theorem uniformMatrix_same (s : Scene) (t : ℕ) (location : UInt32) (name : Option String)
    (col row count transpose : UInt32) (value : WlArray) :
    SameTree s (s.uniformMatrix t location name col row count transpose value) := by
  unfold uniformMatrix
  split
  · exact postError_same ..
  · split
    · exact postError_same ..
    · split
      · exact postError_same ..
      · exact techniqueRequest_same ..

theorem drawElements_same (s : Scene) (t : ℕ) (mode count type : UInt32) (offset : WlArray)
    (b : ℕ) : SameTree s (s.drawElements t mode count type offset b) := by
  unfold drawElements
  split
  · exact postError_same ..
  · exact techniqueRequest_same ..

theorem setParamater_same (s : Scene) (p : ℕ) (type : ParamType) (pname : UInt32)
    (arg : SamplerArg) (garbage : Bytes) :
    SameTree s (s.setParamater p type pname arg garbage) := by
  unfold setParamater
  split
  · exact postError_same ..
  · split
    · exact postError_same ..
    · exact ⟨rfl, Nat.le_refl _, fun _ _ h => h, rfl⟩

theorem configure_same (s : Scene) (b : ℕ) (halfSize : WlArray) :
    SameTree s (s.configure b halfSize) := by
  unfold configure
  split
  · exact postError_same ..
  · exact ⟨rfl, Nat.le_refl _, fun _ _ h => h, rfl⟩

theorem createBounded_same (s : Scene) (client v : ℕ) (halfSize : WlArray) :
    SameTree s (s.createBounded client v halfSize) := by
  have h1 : SameTree s (s.newBounded client v) :=
    ⟨modifyVirtualObject_forest (s := s) (i := v)
        (f := fun x => { x with listeners := x.listeners ++ [.app s.nextId] }) fun _ => rfl,
      Nat.le_succ _, (newResource_same s client (i := .bounded) (by simp)).resources,
      Arena.mapAll_modify fun _ => rfl⟩
  exact (h1.trans (configure_same _ _ halfSize)).trans
    (modifyVirtualObject_same _ v (fun _ => rfl) fun _ => rfl)

theorem withTechnique_same {s : Scene} {t : ℕ} {k : Scene → Scene} (hk : SameTree s (k s)) :
    SameTree s (s.withTechnique t k) := by
  unfold withTechnique
  split
  · exact hk
  · exact .refl s

/-- The requests that make, commit or register no part of the tree. -/
def Request.plain : Request → Prop
  | .createVirtualObject | .createRenderingUnit _ | .createGlBaseTechnique _ | .commit _ => False
  | _ => True

theorem handle_same (s : Scene) (client : ℕ) {r : Request} (hr : r.plain) :
    SameTree s (s.handle client r) := by
  cases r with
  | createVirtualObject | createRenderingUnit | createGlBaseTechnique | commit => cases hr
  | createRegion | createGlBuffer | createGlShader | createGlProgram | createGlTexture
  | createGlSampler | createGlVertexArray | createBuffer =>
    exact (newResource_same s client (by simp)).trans
      ⟨rfl, Nat.le_refl _, fun _ _ h => h, rfl⟩
  | frame v =>
    exact ⟨modifyVirtualObject_forest fun _ => rfl, Nat.le_succ _, fun _ _ h => h,
      Arena.mapAll_modify fun _ => rfl⟩
  | getBounded v halfSize => exact createBounded_same s client v halfSize
  | ackConfigure b serial =>
    simp only [handle, ackConfigure]
    split
    · exact ⟨rfl, Nat.le_refl _, fun _ _ h => h, rfl⟩
    · split <;> exact ⟨rfl, Nat.le_refl _, fun _ _ h => h, rfl⟩
  | setRegion b region =>
    simp only [handle, setRegion]
    split
    · exact ⟨rfl, Nat.le_refl _, fun _ _ h => h, rfl⟩
    · split <;> exact ⟨rfl, Nat.le_refl _, fun _ _ h => h, rfl⟩
  | addCuboid region halfSize center quat =>
    simp only [handle, addCuboid]
    split
    · exact postError_same ..
    · exact postError_same ..
    · exact postError_same ..
    · exact ⟨rfl, Nat.le_refl _, fun _ _ h => h, rfl⟩
  | bindProgram | bindVertexArray | bindTexture | drawArrays => exact techniqueRequest_same ..
  | uniformVector =>
    apply withTechnique_same
    apply uniformVector_same
  | uniformMatrix =>
    apply withTechnique_same
    apply uniformMatrix_same
  | drawElements =>
    apply withTechnique_same
    apply drawElements_same
  | parameterF p pname param =>
    simp only [handle, parameterF]
    split
    · exact postError_same ..
    · exact setParamater_same ..
  | parameterI | parameterV => exact setParamater_same ..
  | vertexAttribPointer va index size type normalized stride offset b =>
    simp only [handle, vertexAttribPointer]
    split
    · exact postError_same ..
    · exact ⟨rfl, Nat.le_refl _, fun _ _ h => h, rfl⟩
  | writeBuffer | bufferData | image2d | generateMipmap | attachShader | link
  | setAttribEnability => exact ⟨rfl, Nat.le_refl _, fun _ _ h => h, rfl⟩

/-- A forest operation on a scene whose tree is right. -/
theorem Tree.of_forest {s s' : Scene} (hs : Tree s) (hg : s'.forest.Registered)
    (hn : s'.nextId = s.nextId)
    (hf : ∀ i, s'.nextId ≤ i →
      s'.forest.lists i = none ∧ s'.forest.nodes i = none ∧ s'.forest.owners i = none)
    (ho : ∀ u n', s'.forest.nodes u = some n' → ∃ n, s.forest.nodes u = some n ∧
      n.owner = n'.owner)
    (hr : ∀ r c, s'.resources r = some ⟨c, .virtualObject⟩ → (s'.virtualObjects r).isSome)
    (hd : ∀ v x', s'.virtualObjects v = some x' → ∃ x, s.virtualObjects v = some x ∧
      x.destroying = x'.destroying) : Tree s' where
  registered := hg
  fresh := hf
  owner_lt := fun u n' hn' => by
    obtain ⟨n, hn₀, he⟩ := ho u n' hn'
    rw [hn, ← he]
    exact hs.owner_lt u n hn₀
  objects := hr
  running := fun v x' hx' => by
    obtain ⟨x, hx, he⟩ := hd v x' hx'
    exact he ▸ hs.running v x hx

theorem Commits.tree {T : ℕ → Prop} {s s' : Scene} (h : Commits T s s') (hs : Tree s) :
    Tree s' := by
  have hk := h.skeleton
  have hl (i : ℕ) : (s'.forest.lists i).isSome = (s.forest.lists i).isSome := by
    simpa [Scene.forest] using Arena.isSome_of_mapAll (congrArg Scene.virtualObjects hk) i
  have hn (i : ℕ) : (s'.forest.nodes i).isSome = (s.forest.nodes i).isSome := by
    simpa [Scene.forest] using Arena.isSome_of_mapAll (congrArg Scene.renderingUnits hk) i
  have ho (i : ℕ) : (s'.forest.owners i).isSome = (s.forest.owners i).isSome := by
    simpa [Scene.forest] using Arena.isSome_of_mapAll (congrArg Scene.baseTechniques hk) i
  refine hs.of_forest (h.forest hs.registered).1 (nextId_of_skeleton hk) ?_ ?_ ?_ ?_
  · intro i hi
    obtain ⟨h1, h2, h3⟩ := hs.fresh i (nextId_of_skeleton hk ▸ hi)
    rw [← Option.not_isSome_iff_eq_none, ← Option.not_isSome_iff_eq_none,
      ← Option.not_isSome_iff_eq_none, hl, hn, ho, h1, h2, h3]
    simp
  · intro u n' hn'
    simp only [Scene.forest, Arena.mapAll_apply, Option.map_eq_some_iff] at hn'
    obtain ⟨y', hy', rfl⟩ := hn'
    obtain ⟨y, hy, he⟩ := unit_of_skeleton hk hy'
    exact ⟨nodeOf y, forest_nodes hy, show (boneUnit y).owner = _ from he ▸ rfl⟩
  · intro r c hr
    rw [resources_of_skeleton hk] at hr
    have := Arena.isSome_of_mapAll (congrArg Scene.virtualObjects hk) r
    rw [this]
    exact hs.objects r c hr
  · intro v x' hx'
    obtain ⟨x, hx, he⟩ := virtualObject_of_skeleton hk hx'
    exact ⟨x, hx, show (boneVirtualObject x).destroying = _ from he ▸ rfl⟩

theorem sameTree_of_content {s s' : Scene} (h : s'.content = s.content) : SameTree s s' where
  forest := forest_of_content h
  nextId := Nat.le_of_eq (show s.content.nextId = s'.content.nextId from by rw [h])
  resources := fun r c hr => by
    rwa [show s'.resources = s.resources from
      show s'.content.resources = s.content.resources from by rw [h]] at hr
  destroying := by
    have hm := congrArg (fun s => s.virtualObjects.mapAll VirtualObject.destroying) h
    simp only [content, Arena.mapAll_mapAll] at hm
    exact hm

theorem commitVirtualObject_tree {s : Scene} (hs : Tree s) (v : ℕ) :
    Tree (s.commitVirtualObject v) := by
  have h1 := (commitState_commits_true s v).tree hs
  exact h1.same (sameTree_of_content (syncIfSession_steps h1.registered v).content)

end Scene
end Yaza
