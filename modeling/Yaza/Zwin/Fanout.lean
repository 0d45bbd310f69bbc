import Mathlib.Data.List.Find
import Yaza.Zwin.Wired

/-! What a commit of a virtual object does to its units and techniques: each is reached once, and
its commit is the one of the object itself. -/
namespace Yaza
namespace Scene

/-- The scene without the leaf objects and what is sent to the clients. -/
def trunk (s : Scene) : Scene :=
  { s with
    fault := none
    errors := []
    events := []
    glPrograms := Arena.empty
    glVertexArrays := Arena.empty
    glBuffers := Arena.empty
    glTextures := Arena.empty
    glSamplers := Arena.empty }

section Leaves
variable (s : Scene)

theorem postError_trunk (i : ℕ) (code : ErrorCode) (text : String) :
    (s.postError i code text).trunk = s.trunk := by
  rcases postError_cases s i code text with h | ⟨e, h⟩ <;> rw [h] <;> rfl

theorem commitBuffer_trunk (b : ℕ) : (s.commitBuffer b).trunk = s.trunk := by
  unfold commitBuffer
  repeat' split
  all_goals rfl

theorem commitWeakBuffer_trunk (b : Option ℕ) : (s.commitWeakBuffer b).trunk = s.trunk := by
  unfold commitWeakBuffer
  split
  · rfl
  · exact commitBuffer_trunk ..

theorem commitTexture_trunk (t : ℕ) : (s.commitTexture t).trunk = s.trunk := by
  have h : (s.commitTextureData t).trunk = s.trunk := by
    unfold commitTextureData
    repeat' split
    all_goals rfl
  exact h

theorem commitSampler_trunk (p : ℕ) : (s.commitSampler p).trunk = s.trunk := by
  unfold commitSampler
  split <;> rfl

theorem checkRelink_trunk (p : ℕ) (x : GlProgram) : (s.checkRelink p x).trunk = s.trunk := by
  unfold checkRelink
  split
  · exact postError_trunk ..
  · rfl

theorem commitWeakProgram_trunk (p : Option ℕ) : (s.commitWeakProgram p).trunk = s.trunk := by
  unfold commitWeakProgram
  split
  · rfl
  · unfold commitProgram
    split
    · rfl
    · exact checkRelink_trunk ..

theorem commitWeakVertexArray_trunk (va : Option ℕ) :
    (s.commitWeakVertexArray va).trunk = s.trunk := by
  unfold commitWeakVertexArray
  split
  · rfl
  · unfold commitVertexArray
    split
    · rfl
    · have fold (l : Table VertexAttribute) (s : Scene) :
          (l.foldl (fun s e => s.commitWeakBuffer e.2.glBuffer) s).trunk = s.trunk := by
        induction l generalizing s with
        | nil => rfl
        | cons e l ih => rw [List.foldl_cons, ih, commitWeakBuffer_trunk]
      rw [fold]
      rfl

/-- The commits of the leaf objects stay among the leaf objects. -/
theorem commitLeaves_trunk (x y : GlBaseTechnique) : (s.commitLeaves x y).trunk = s.trunk := by
  have fold (l : List TextureBinding) (s : Scene) :
      (l.foldl commitBinding s).trunk = s.trunk := by
    induction l generalizing s with
    | nil => rfl
    | cons b l ih =>
      rw [List.foldl_cons, ih, commitBinding, commitSampler_trunk, commitTexture_trunk]
  rw [commitLeaves, fold, commitWeakBuffer_trunk, commitWeakVertexArray_trunk,
    commitWeakProgram_trunk]

end Leaves

section Trunk
variable {s s' : Scene} (h : s'.trunk = s.trunk)
include h

theorem units_of_trunk : s'.renderingUnits = s.renderingUnits :=
  show s'.trunk.renderingUnits = s.trunk.renderingUnits from by rw [h]

theorem techniques_of_trunk : s'.baseTechniques = s.baseTechniques :=
  show s'.trunk.baseTechniques = s.trunk.baseTechniques from by rw [h]

end Trunk

/-- `GlBaseTechnique::commit` on the technique. -/
theorem commitTechnique_techniques (s : Scene) (t : ℕ) :
    (s.commitTechnique t).baseTechniques =
      s.baseTechniques.modify t (GlBaseTechnique.commit s.bindingAlive) := by
  cases hx : s.baseTechniques t with
  | none => rw [commitTechnique, hx, Arena.modify_of_none hx]; rfl
  | some x =>
    rw [commitTechnique, hx]
    simp only
    rw [techniques_of_trunk (commitLeaves_trunk ..), storeTechnique,
      registerTechnique_techniques]
    exact Arena.set_eq_modify hx rfl

theorem registerUnit_techniques (s : Scene) (u : ℕ) (y : RenderingUnit) :
    (s.registerUnit u y).baseTechniques = s.baseTechniques := by
  unfold registerUnit
  split
  · rfl
  · rcases addRenderingUnit_cases s y.owner u with h | ⟨x, hx, h⟩ <;> rw [h]
    rfl

/-- The techniques of a list are committed. -/
theorem commitTechniques_techniques {l : List ℕ} (hl : l.Nodup) (s : Scene) :
    (l.foldl commitTechnique s).baseTechniques = fun t =>
      if t ∈ l then (s.baseTechniques t).map (GlBaseTechnique.commit s.bindingAlive)
      else s.baseTechniques t := by
  induction l generalizing s with
  | nil => simp
  | cons t l ih =>
    obtain ⟨ht, hl⟩ := List.nodup_cons.mp hl
    have hb := bindingAlive_of_skeleton
      (commitTechnique_commits (scope_true s) (t := t) trivial).skeleton
    rw [List.foldl_cons, ih hl, hb, commitTechnique_techniques]
    funext i
    by_cases hi : i = t
    · subst hi; simp [ht]
    · simp [hi]

/-- `RenderingUnit::commit` commits the techniques of the unit. -/
theorem commitUnit_techniques {s : Scene} (hw : s.unitWiring.Sound) (u : ℕ) :
    (s.commitUnit u).baseTechniques = s.baseTechniques.mapAll fun z =>
      if z.owner = u ∧ (s.renderingUnits u).isSome then z.commit s.bindingAlive else z := by
  cases hy : s.renderingUnits u with
  | none => rw [commitUnit, hy]; funext t; simp [crash]
  | some y =>
    have hl : s.unitWiring.lists u = some y.listeners := by simp [unitWiring, hy]
    have hb := bindingAlive_of_skeleton
      (registerUnit_commits (T := fun _ => True) trivial hy).skeleton
    rw [commitUnit, hy]
    simp only
    rw [commitTechniques_techniques (hw.nodup u _ hl), hb, registerUnit_techniques]
    funext t
    have hm := hw.mem u _ t hl
    cases hz : s.baseTechniques t with
    | none => simp [hz]
    | some z =>
      have ho : s.unitWiring.owner t = some z.owner := by simp [unitWiring, hz]
      by_cases hu : z.owner = u <;> simp [hz, hm, ho, hu]

/-- One listener of a virtual object is notified. -/
theorem notifyCommitted_techniques {s : Scene} (hw : s.unitWiring.Sound) (c : CommitListener) :
    (s.notifyCommitted c).baseTechniques = s.baseTechniques.mapAll fun z =>
      if .unit z.owner = c ∧ (s.renderingUnits z.owner).isSome then z.commit s.bindingAlive
      else z := by
  cases c with
  | unit u =>
    rw [notifyCommitted, commitUnit_techniques hw]
    funext t
    cases hz : s.baseTechniques t with
    | none => simp [hz]
    | some z => by_cases hu : z.owner = u <;> simp [hz, hu]
  | app b =>
    simp only [reduceCtorEq, false_and, if_false]
    have h : (s.commitApp b).baseTechniques = s.baseTechniques := by
      unfold commitApp
      split <;> rfl
    rw [notifyCommitted, h]
    funext t
    simp

theorem units_isSome_of_skeleton {s s' : Scene} (h : s'.skeleton = s.skeleton) (u : ℕ) :
    (s'.renderingUnits u).isSome = (s.renderingUnits u).isSome :=
  Arena.isSome_of_mapAll (congrArg Scene.renderingUnits h) u

/-- The listeners of a virtual object are notified: each technique is committed at most once. -/
theorem notifyAll_techniques {l : List CommitListener} (hl : l.Nodup) {s : Scene}
    (hw : s.unitWiring.Sound) :
    (l.foldl notifyCommitted s).baseTechniques = s.baseTechniques.mapAll fun z =>
      if .unit z.owner ∈ l ∧ (s.renderingUnits z.owner).isSome then z.commit s.bindingAlive
      else z := by
  induction l generalizing s with
  | nil => funext t; simp
  | cons c l ih =>
    obtain ⟨hc, hl⟩ := List.nodup_cons.mp hl
    have hk := (notifyCommitted_commits (scope_true s) (l := c) trivial).skeleton
    rw [List.foldl_cons, ih hl ((sameWiring_of_skeleton hk).units ▸ hw),
      bindingAlive_of_skeleton hk, notifyCommitted_techniques hw]
    funext t
    cases hz : s.baseTechniques t with
    | none => simp [hz]
    | some z =>
      by_cases hzc : .unit z.owner = c
      · subst hzc
        by_cases hu : (s.renderingUnits z.owner).isSome <;>
          simp [hz, hu, hc, GlBaseTechnique.commit]
      · simp [hz, hzc, units_isSome_of_skeleton hk]

/-- `VirtualObject::commit` commits every technique of every unit of the object, once. -/
theorem commitState_techniques {s : Scene} (hw : Wired s) {v : ℕ}
    (hv : (s.virtualObjects v).isSome) :
    (s.commitState v).baseTechniques = s.baseTechniques.mapAll fun z =>
      if s.ownerOf (.unit z.owner) = some v then z.commit s.bindingAlive else z := by
  obtain ⟨x, hx⟩ := Option.isSome_iff_exists.mp hv
  have hl : s.objectWiring.lists v = some x.listeners := by simp [objectWiring, hx]
  rw [commitState, hx]
  refine (notifyAll_techniques (hw.objects.nodup v _ hl)
    (s := { s with virtualObjects := s.virtualObjects.set v x.commit }) hw.units).trans ?_
  congr 1
  funext z
  have hm : .unit z.owner ∈ x.listeners ↔ s.ownerOf (.unit z.owner) = some v :=
    hw.objects.mem v _ (.unit z.owner) hl
  have hs : s.ownerOf (.unit z.owner) = some v → (s.renderingUnits z.owner).isSome := by
    intro ho
    simp only [ownerOf, Option.map_eq_some_iff] at ho
    obtain ⟨y, hy, -⟩ := ho
    simp [hy]
  by_cases ho : s.ownerOf (.unit z.owner) = some v
  · rw [if_pos ⟨hm.mpr ho, hs ho⟩, if_pos ho]
    rfl
  · rw [if_neg fun h => ho (hm.mp h.1), if_neg ho]

theorem setTechnique_committed (s : Scene) (u : ℕ) (t : Option ℕ) :
    (s.setTechnique u t).renderingUnits.mapAll RenderingUnit.committed =
      s.renderingUnits.mapAll RenderingUnit.committed := by
  unfold setTechnique
  split
  · rfl
  · next y hy =>
    split
    · rcases postError_cases s u .technique ("new (nonnull) technique tried to set, " ++
        "but RenderingUnit already has another technique") with h | ⟨e, h⟩ <;> rw [h]
      rfl
    · exact Arena.mapAll_set hy rfl

theorem commitTechnique_committed (s : Scene) (t : ℕ) :
    (s.commitTechnique t).renderingUnits.mapAll RenderingUnit.committed =
      s.renderingUnits.mapAll RenderingUnit.committed := by
  unfold commitTechnique
  split
  · rfl
  · next x _ =>
    rw [units_of_trunk (commitLeaves_trunk ..)]
    unfold registerTechnique
    split
    · rfl
    · exact setTechnique_committed ..

/-- `RenderingUnit::commit` marks the unit. -/
theorem commitUnit_committed (s : Scene) (u : ℕ) :
    (s.commitUnit u).renderingUnits.mapAll RenderingUnit.committed =
      (s.renderingUnits.mapAll RenderingUnit.committed).modify u fun _ => true := by
  have fold (l : List ℕ) (s : Scene) :
      (l.foldl commitTechnique s).renderingUnits.mapAll RenderingUnit.committed =
        s.renderingUnits.mapAll RenderingUnit.committed := by
    induction l generalizing s with
    | nil => rfl
    | cons t l ih => rw [List.foldl_cons, ih, commitTechnique_committed]
  cases hy : s.renderingUnits u with
  | none =>
    rw [commitUnit, hy, Arena.modify_of_none (by simp [hy])]
    rfl
  | some y =>
    rw [commitUnit, hy]
    simp only
    rw [fold, registerUnit]
    by_cases hc : y.committed
    · rw [if_pos hc]
      funext i
      by_cases hi : i = u
      · subst hi; simp [hy, hc]
      · simp [hi]
    · rw [if_neg hc, Arena.mapAll_set_apply]
      exact Arena.set_eq_modify (x := y.committed) (by simp [hy]) rfl

/-- `VirtualObject::commit` marks every unit of the object. -/
theorem commitState_committed {s : Scene} (hw : Wired s) {v : ℕ}
    (hv : (s.virtualObjects v).isSome) {u : ℕ} {y' : RenderingUnit}
    (hy' : (s.commitState v).renderingUnits u = some y') :
    ∃ y, s.renderingUnits u = some y ∧ y.owner = y'.owner ∧
      (y'.committed = true ↔ y.committed = true ∨ y.owner = v) := by
  have fold (l : List CommitListener) (s : Scene) (i : ℕ) :
      ((l.foldl notifyCommitted s).renderingUnits i).map RenderingUnit.committed =
        (s.renderingUnits i).map fun y => y.committed || decide (.unit i ∈ l) := by
    induction l generalizing s with
    | nil => simp
    | cons c l ih =>
      have hc : ((s.notifyCommitted c).renderingUnits i).map RenderingUnit.committed =
          (s.renderingUnits i).map fun y => y.committed || decide (.unit i = c) := by
        cases c with
        | unit w =>
          have := congrFun (commitUnit_committed s w) i
          simp only [Arena.mapAll_apply, Arena.modify_apply] at this
          rw [notifyCommitted, this]
          by_cases hi : i = w
          · subst hi; simp
          · simp [hi]
        | app b =>
          simp only [notifyCommitted, commitApp]
          split <;> simp [crash]
      rw [List.foldl_cons, ih]
      have : (fun y : RenderingUnit => y.committed || decide (.unit i ∈ l)) =
          (fun k => k || decide (.unit i ∈ l)) ∘ RenderingUnit.committed := rfl
      rw [this, ← Option.map_map, hc, Option.map_map]
      congr 1
      funext y
      simp [Bool.or_assoc, Bool.decide_or]
  obtain ⟨x, hx⟩ := Option.isSome_iff_exists.mp hv
  obtain ⟨y, hy, he⟩ := unit_of_skeleton (commitState_commits_true s v).skeleton hy'
  have ho : y.owner = y'.owner := show (boneUnit y).owner = _ from he ▸ rfl
  refine ⟨y, hy, ho, ?_⟩
  have hf := fold x.listeners { s with virtualObjects := s.virtualObjects.set v x.commit } u
  rw [commitState, hx] at hy'
  rw [hy'] at hf
  simp only [hy, Option.map_some, Option.some.injEq] at hf
  have hm : .unit u ∈ x.listeners ↔ s.ownerOf (.unit u) = some v :=
    hw.objects.mem v _ (.unit u) (by simp [objectWiring, hx])
  rw [hf]
  simp [hm, ownerOf, hy]

/-- The first of some techniques that has not been committed yet. -/
def firstNew (s : Scene) (l : List ℕ) : Option ℕ :=
  l.find? fun t => (s.baseTechniques t).any fun z => !z.commited

/-- The techniques that listen to the commits of a unit, in the order they were made. -/
def listenersOf (s : Scene) (u : ℕ) : List ℕ :=
  ((s.renderingUnits u).map RenderingUnit.listeners).getD []

theorem firstNew_congr {s s' : Scene} {l : List ℕ}
    (h : ∀ t ∈ l, s'.baseTechniques t = s.baseTechniques t) : s'.firstNew l = s.firstNew l :=
  List.find?_congr fun t ht => by rw [h t ht]

theorem registerTechnique_slots (s : Scene) (t : ℕ) (z : GlBaseTechnique) :
    (s.registerTechnique t z).renderingUnits.mapAll RenderingUnit.technique =
      (s.renderingUnits.mapAll RenderingUnit.technique).modify z.owner fun o =>
        if z.commited then o else o.or (some t) := by
  unfold registerTechnique
  by_cases hz : z.commited
  · simp only [if_pos hz]
    exact (Arena.modify_eq_self fun _ _ => rfl).symm
  · simp only [if_neg hz]
    unfold setTechnique
    split
    · next hy =>
      rw [Arena.modify_of_none (by simp [hy])]
      rfl
    · next y hy =>
      by_cases ho : y.technique.isSome
      · rw [if_pos (by simp [ho])]
        have hm : (s.renderingUnits.mapAll RenderingUnit.technique).modify z.owner
            (fun o => o.or (some t)) = s.renderingUnits.mapAll RenderingUnit.technique := by
          refine Arena.modify_eq_self fun o h => ?_
          obtain ⟨t', ht⟩ := Option.isSome_iff_exists.mp ho
          obtain rfl : some t' = o := by simpa [hy, ht] using h
          rfl
        rw [hm]
        rcases postError_cases s z.owner .technique ("new (nonnull) technique tried to set, " ++
          "but RenderingUnit already has another technique") with h | ⟨e, h⟩ <;> rw [h]
        rfl
      · rw [if_neg (by simp [ho])]
        rw [Arena.mapAll_set_apply]
        have hn : y.technique = none := by simpa using ho
        exact Arena.set_eq_modify (x := y.technique) (by simp [hy]) (by simp [hn])

theorem commitTechnique_slots {s : Scene} {t : ℕ} {z : GlBaseTechnique}
    (hz : s.baseTechniques t = some z) :
    (s.commitTechnique t).renderingUnits.mapAll RenderingUnit.technique =
      (s.renderingUnits.mapAll RenderingUnit.technique).modify z.owner fun o =>
        if z.commited then o else o.or (some t) := by
  rw [commitTechnique, hz]
  simp only
  rw [units_of_trunk (commitLeaves_trunk ..), ← registerTechnique_slots]
  rfl

/-- The techniques of a unit are committed in turn: the first new one gets a free slot. -/
theorem commitTechniques_slots {l : List ℕ} (hl : l.Nodup) {s : Scene} {u : ℕ}
    (ho : ∀ t ∈ l, ∃ z, s.baseTechniques t = some z ∧ z.owner = u) :
    (l.foldl commitTechnique s).renderingUnits.mapAll RenderingUnit.technique =
      (s.renderingUnits.mapAll RenderingUnit.technique).modify u fun o =>
        o.or (s.firstNew l) := by
  induction l generalizing s with
  | nil => exact (Arena.modify_eq_self fun o _ => Option.or_none).symm
  | cons t l ih =>
    obtain ⟨ht, hl⟩ := List.nodup_cons.mp hl
    obtain ⟨z, hz, rfl⟩ := ho t List.mem_cons_self
    have hs : ∀ i ∈ l, (s.commitTechnique t).baseTechniques i = s.baseTechniques i := by
      intro i hi
      rw [commitTechnique_techniques, Arena.modify_of_ne]
      rintro rfl
      exact ht hi
    have ho' : ∀ i ∈ l, ∃ y, (s.commitTechnique t).baseTechniques i = some y ∧
        y.owner = z.owner := by
      intro i hi
      rw [hs i hi]
      exact ho i (List.mem_cons_of_mem t hi)
    rw [List.foldl_cons, ih hl ho', firstNew_congr hs, commitTechnique_slots hz,
      Arena.modify_modify]
    congr 1
    funext o
    cases hc : z.commited with
    | true => simp [firstNew, hz, hc]
    | false => simp [firstNew, hz, hc]

theorem registerUnit_slots (s : Scene) {u : ℕ} {y : RenderingUnit}
    (hy : s.renderingUnits u = some y) :
    (s.registerUnit u y).renderingUnits.mapAll RenderingUnit.technique =
      s.renderingUnits.mapAll RenderingUnit.technique := by
  unfold registerUnit
  split
  · rfl
  · exact Arena.mapAll_set hy rfl

/-- `RenderingUnit::commit` fills the slot of the unit. -/
theorem commitUnit_slots {s : Scene} (hw : s.unitWiring.Sound) (u : ℕ) :
    (s.commitUnit u).renderingUnits.mapAll RenderingUnit.technique =
      (s.renderingUnits.mapAll RenderingUnit.technique).modify u fun o =>
        o.or (s.firstNew (s.listenersOf u)) := by
  cases hy : s.renderingUnits u with
  | none =>
    rw [commitUnit, hy, Arena.modify_of_none (by simp [hy])]
    rfl
  | some y =>
    have hl : s.unitWiring.lists u = some y.listeners := by simp [unitWiring, hy]
    have hb := registerUnit_techniques s u y
    have ho : ∀ t ∈ y.listeners, ∃ z, (s.registerUnit u y).baseTechniques t = some z ∧
        z.owner = u := by
      intro t ht
      have h1 := (hw.mem u _ t hl).mp ht
      simp only [unitWiring, Arena.mapAll_apply, Option.map_eq_some_iff] at h1
      rw [hb]
      exact h1
    rw [commitUnit, hy]
    simp only
    rw [commitTechniques_slots (hw.nodup u _ hl) ho, registerUnit_slots s hy,
      firstNew_congr fun t _ => congrFun hb t, listenersOf, hy]
    rfl

/-- What a unit holds, by itself. -/
theorem commitUnit_slot {s : Scene} (hw : s.unitWiring.Sound) (w u : ℕ) :
    ((s.commitUnit w).renderingUnits u).map RenderingUnit.technique =
      ((s.renderingUnits u).map RenderingUnit.technique).map fun o =>
        if u = w then o.or (s.firstNew (s.listenersOf u)) else o := by
  have h := congrFun (commitUnit_slots hw w) u
  rw [Arena.mapAll_apply] at h
  rw [h]
  by_cases hu : u = w
  · subst hu
    simp
  · simp [hu, Function.comp_def]

/-- A commit of another unit leaves the techniques of a unit alone. -/
theorem notifyCommitted_firstNew {s : Scene} (hw : s.unitWiring.Sound) {c : CommitListener} {u : ℕ}
    (hc : .unit u ≠ c) :
    (s.notifyCommitted c).firstNew ((s.notifyCommitted c).listenersOf u) =
      s.firstNew (s.listenersOf u) := by
  have hk := (notifyCommitted_commits (scope_true s) (l := c) trivial).skeleton
  have hl : (s.notifyCommitted c).listenersOf u = s.listenersOf u := by
    have h1 := congrFun (congrArg Wiring.lists (sameWiring_of_skeleton hk).units) u
    simp only [unitWiring, Arena.mapAll_apply] at h1
    rw [listenersOf, h1, listenersOf]
  rw [hl]
  refine firstNew_congr fun t ht => ?_
  rw [notifyCommitted_techniques hw, Arena.mapAll_apply]
  cases hy : s.renderingUnits u with
  | none => simp [listenersOf, hy] at ht
  | some y =>
    have ht' : t ∈ y.listeners := by simpa [listenersOf, hy] using ht
    have h1 := (hw.mem u y.listeners t (by simp [unitWiring, hy])).mp ht'
    simp only [unitWiring, Arena.mapAll_apply, Option.map_eq_some_iff] at h1
    obtain ⟨z, hz, rfl⟩ := h1
    rw [hz, Option.map_some, if_neg fun h => hc h.1]

theorem notifyAll_slot {l : List CommitListener} (hl : l.Nodup) {s : Scene}
    (hw : s.unitWiring.Sound) (u : ℕ) :
    ((l.foldl notifyCommitted s).renderingUnits u).map RenderingUnit.technique =
      ((s.renderingUnits u).map RenderingUnit.technique).map fun o =>
        if .unit u ∈ l then o.or (s.firstNew (s.listenersOf u)) else o := by
  induction l generalizing s with
  | nil => simp [Function.comp_def]
  | cons c l ih =>
    obtain ⟨hc, hl⟩ := List.nodup_cons.mp hl
    have hk := (notifyCommitted_commits (scope_true s) (l := c) trivial).skeleton
    rw [List.foldl_cons, ih hl ((sameWiring_of_skeleton hk).units ▸ hw)]
    by_cases hu : .unit u = c
    · subst hu
      rw [notifyCommitted, commitUnit_slot hw]
      simp [hc, Function.comp_def]
    · rw [notifyCommitted_firstNew hw hu]
      have h1 : ((s.notifyCommitted c).renderingUnits u).map RenderingUnit.technique =
          (s.renderingUnits u).map RenderingUnit.technique := by
        cases c with
        | unit w =>
          rw [notifyCommitted, commitUnit_slot hw]
          have hw : u ≠ w := fun h => hu (h ▸ rfl)
          simp [hw, Function.comp_def]
        | app b =>
          simp only [notifyCommitted, commitApp]
          split <;> rfl
      rw [h1]
      simp [hu]

/-- `VirtualObject::commit` fills the free slots of its units. -/
theorem commitState_slot {s : Scene} (hw : Wired s) {v : ℕ} (hv : (s.virtualObjects v).isSome)
    (u : ℕ) :
    ((s.commitState v).renderingUnits u).map RenderingUnit.technique =
      (s.renderingUnits u).map fun y =>
        if y.owner = v then y.technique.or (s.firstNew y.listeners) else y.technique := by
  obtain ⟨x, hx⟩ := Option.isSome_iff_exists.mp hv
  have hl : s.objectWiring.lists v = some x.listeners := by simp [objectWiring, hx]
  rw [commitState, hx]
  refine (notifyAll_slot (hw.objects.nodup v _ hl)
    (s := { s with virtualObjects := s.virtualObjects.set v x.commit }) hw.units u).trans ?_
  have hm : .unit u ∈ x.listeners ↔ s.ownerOf (.unit u) = some v :=
    hw.objects.mem v _ (.unit u) hl
  cases hy : s.renderingUnits u with
  | none => simp
  | some y =>
    have ho : s.ownerOf (.unit u) = some y.owner := by simp [ownerOf, hy]
    have hn : listenersOf { s with virtualObjects := s.virtualObjects.set v x.commit } u =
        y.listeners := by simp [listenersOf, hy]
    rw [hn]
    simp only [Option.map_some, hm, ho, Option.some.injEq]
    rfl

end Scene
end Yaza
