import Yaza.Zwin.Owned

/-! The technique of a unit: the one that was the first to be committed since the slot was free, as
long as it lives. -/
namespace Yaza
namespace Scene

/-- What should become of a slot: a technique stays in it while it is alive, and a free slot goes to
the first of the unit's techniques that is committed. -/
def wantedSlot (s : Scene) (a : Action) (u : ℕ) : Option ℕ → Option ℕ
  | some t => if ((s.step a).baseTechniques t).isSome then some t else none
  | none =>
    if (s.renderingUnits u).any fun y => s.committedBy a = some y.owner then
      (s.listenersOf u).head?
    else none

/-- The scene, and beside it what should be in the slots. -/
def slotStep (p : Scene × (ℕ → Option ℕ)) (a : Action) : Scene × (ℕ → Option ℕ) :=
  (p.1.step a, fun u => p.1.wantedSlot a u (p.2 u))

/-- Every live unit has the technique it should have. -/
def RightSlots (p : Scene × (ℕ → Option ℕ)) : Prop :=
  ∀ u y, p.1.renderingUnits u = some y → y.technique = p.2 u

/-- A technique of the unit that is destroyed by itself is the one it has, or it has none. And where
a commit finds the unit without a technique, its first technique is committed for the first time. -/
structure KeepsSlot (s : Scene) (a : Action) (u : ℕ) (y : RenderingUnit) : Prop where
  destroys : ∀ t z, s.destroyed a = some t → s.baseTechniques t = some z → z.owner = u →
    y.technique = none ∨ y.technique = some t
  commits : s.committedBy a = some y.owner → y.technique = none →
    ∀ t z, y.listeners.head? = some t → s.baseTechniques t = some z → z.commited = false

def KeepsSlots (s : Scene) (a : Action) : Prop :=
  ∀ u y, s.renderingUnits u = some y → KeepsSlot s a u y

section Steps
variable {s : Scene} {a : Action} {t u : ℕ}

theorem isSome_owners (s : Scene) (t : ℕ) :
    (s.forest.owners t).isSome = (s.baseTechniques t).isSome := by simp [forest]

theorem destroyed_eq_some (h : s.destroyed a = some t) :
    ∃ client, a = .destroy client t ∧ s.fault = none ∧
      s.resources t = some ⟨client, .baseTechnique⟩ ∧ (s.baseTechniques t).isSome := by
  unfold destroyed at h
  split at h
  · next client r =>
    split at h
    · next hc =>
      cases h
      exact ⟨client, rfl, hc⟩
    · cases h
  · cases h

theorem destroyed_not_committed (h : s.destroyed a = some t) : s.committedBy a = none := by
  obtain ⟨client, rfl, -⟩ := destroyed_eq_some h
  rfl

/-- The destruction of a technique takes it from its unit. -/
theorem step_destroyed {z : GlBaseTechnique} (h : s.destroyed a = some t)
    (hz : s.baseTechniques t = some z) : (s.step a).forest = s.forest.dropTechnique t z.owner := by
  obtain ⟨client, rfl, hf, hr, hs⟩ := destroyed_eq_some h
  have h1 : s.step (.destroy client t) = s.destroyResource t := by
    rw [step, if_neg (by simp [hf]), act, hr]
    simp
  have h2 : (s.destroyResource t).forest = (s.deleteObject t .baseTechnique).forest := by
    rw [destroyResource, hr]
    rfl
  rw [h1, h2, deleteObject, if_pos hs, deleteTechnique_forest hz]

/-- The units stay through a commit. -/
theorem units_of_committedBy {v : ℕ} (ht : Tree s) (hw : Wired s) (h : s.committedBy a = some v)
    (hu : (s.renderingUnits u).isSome) : ((s.step a).renderingUnits u).isSome := by
  obtain ⟨apps, he, ht', -, -⟩ := step_of_committedBy ht hw h
  have hc := commitState_commits_true { s with boundedApps := apps } v
  have h1 := (syncIfSession_steps (hc.tree ht').registered v).content
  have h2 := Arena.isSome_of_mapAll (congrArg Scene.renderingUnits h1) u
  have h3 := Arena.isSome_of_mapAll (congrArg Scene.renderingUnits hc.skeleton) u
  rw [he]
  exact h2.trans (h3.trans hu)

theorem find?_eq_head? {α : Type} {p : α → Bool} {l : List α} :
    l.find? p = l.head? ↔ ∀ x, l.head? = some x → p x = true := by
  cases l with
  | nil => simp
  | cons x l =>
    rw [List.head?_cons]
    constructor
    · intro h y hy
      cases hy
      exact List.find?_some h
    · intro h
      rw [List.find?_cons, h x rfl]

/-- What is in a slot after a step is alive. -/
theorem wantedSlot_of_kept (ht : Tree (s.step a)) {y' : RenderingUnit}
    (hy' : (s.step a).renderingUnits u = some y') (h : y'.technique = some t) :
    s.wantedSlot a u (some t) = some t := by
  have h1 := ht.registered.slot u (nodeOf y') t (forest_nodes hy') h
  have h2 : ((s.step a).baseTechniques t).isSome := by
    rw [← isSome_owners, h1]
    rfl
  rw [wantedSlot, if_pos h2]

theorem wantedSlot_none {y : RenderingUnit} (hy : s.renderingUnits u = some y) :
    s.wantedSlot a u none =
      if s.committedBy a = some y.owner then y.listeners.head? else none := by
  simp [wantedSlot, listenersOf, hy]

/-- The slots of the units when a technique is destroyed. -/
theorem slot_destroyed_iff (ht : Tree s) (ht' : Tree (s.step a)) {z : GlBaseTechnique}
    (hd : s.destroyed a = some t) (hz : s.baseTechniques t = some z) {y y' : RenderingUnit}
    (hy : s.renderingUnits u = some y) (hy' : (s.step a).renderingUnits u = some y')
    (hs : y'.technique = if z.owner = u then none else y.technique) :
    y'.technique = s.wantedSlot a u y.technique ↔
      (z.owner = u → y.technique = none ∨ y.technique = some t) := by
  have hc := destroyed_not_committed hd
  by_cases hu : z.owner = u
  · rw [if_pos hu] at hs
    rw [hs]
    cases hk : y.technique with
    | none => simp [wantedSlot_none hy, hc]
    | some i =>
      have h1 : s.forest.owners i = some u :=
        ht.registered.slot u (nodeOf y) i (forest_nodes hy) hk
      have h2 : ((s.step a).baseTechniques i).isSome ↔ i ≠ t := by
        rw [← isSome_owners, step_destroyed hd hz]
        simp only [Forest.dropTechnique, Arena.erase_apply]
        by_cases hi : i = t
        · simp [hi]
        · simp [hi, h1]
      rw [wantedSlot]
      simp only [h2, hu, true_implies, reduceCtorEq, false_or, Option.some.injEq]
      by_cases hi : i = t <;> simp [hi]
  · rw [if_neg hu] at hs
    refine ⟨fun _ h => absurd h hu, fun _ => ?_⟩
    cases hk : y.technique with
    | none => rw [hs, hk, wantedSlot_none hy, hc, if_neg (by simp)]
    | some i =>
      have hi : y'.technique = some i := hs.trans hk
      rw [hi, wantedSlot_of_kept ht' hy' hi]

/-- What a step makes of a slot is what should become of it, unless the slot is cleared for another
technique, or given to another than the first one. -/
theorem slot_right_iff (ht : Tree s) (hw : Wired s) (ht' : Tree (s.step a)) {y y' : RenderingUnit}
    (hy : s.renderingUnits u = some y) (hy' : (s.step a).renderingUnits u = some y') :
    y'.technique = s.wantedSlot a u y.technique ↔ KeepsSlot s a u y := by
  have hs : y'.technique =
      if s.committedBy a = some y.owner then y.technique.or (s.firstNew y.listeners)
      else if (s.destroyed a).bind s.forest.owners = some u then none
      else y.technique := by
    rcases step_nodes ht hw a (forest_nodes hy') with ⟨n, hn, hc⟩ | ⟨hu, -⟩
    · rw [forest_nodes hy, Option.some.injEq] at hn
      have h1 := hc.slot
      rw [← hn, listenersOf, hy] at h1
      exact h1
    · have hn := (ht.fresh u (by omega)).2.1
      rw [forest_nodes hy] at hn
      cases hn
  cases hd : s.destroyed a with
  | some t =>
    obtain ⟨client, -, -, -, hz⟩ := destroyed_eq_some hd
    obtain ⟨z, hz⟩ := Option.isSome_iff_exists.mp hz
    have hc := destroyed_not_committed hd
    rw [hc, if_neg (by simp), hd, Option.bind_some, forest_owners hz] at hs
    simp only [Option.some.injEq] at hs
    rw [slot_destroyed_iff ht ht' hd hz hy hy' hs]
    constructor
    · intro h
      refine ⟨fun t' z' he hz' ho => ?_, fun h => (by simp [hc] at h)⟩
      obtain rfl : t = t' := Option.some.inj (hd.symm.trans he)
      obtain rfl : z = z' := Option.some.inj (hz.symm.trans hz')
      exact h ho
    · intro h ho
      exact h.destroys t z hd hz ho
  | none =>
    rw [hd, Option.bind_none, if_neg (c := none = some u) (by simp)] at hs
    have hn {t : ℕ} {P : Prop} (h : s.destroyed a = some t) : P := by
      rw [hd] at h
      cases h
    cases hk : y.technique with
    | some i =>
      have hi : y'.technique = some i := by simpa [hk] using hs
      rw [hi, wantedSlot_of_kept ht' hy' hi]
      exact ⟨fun _ => ⟨fun _ _ h => hn h, fun _ h => (by rw [hk] at h; cases h)⟩, fun _ => rfl⟩
    | none =>
      rw [wantedSlot_none hy, hs, hk]
      by_cases hc : s.committedBy a = some y.owner
      · have hl : ∀ i, y.listeners.head? = some i → (s.baseTechniques i).isSome := by
          intro i hi
          have hm := (hw.units.mem u y.listeners i (by simp [unitWiring, hy])).mp
            (List.mem_of_mem_head? hi)
          simp only [unitWiring, Arena.mapAll_apply, Option.map_eq_some_iff] at hm
          obtain ⟨z, hz, -⟩ := hm
          simp [hz]
        rw [if_pos hc, if_pos hc, Option.none_or, firstNew, find?_eq_head?]
        constructor
        · intro h
          refine ⟨fun _ _ h => hn h, fun _ _ i z hi hz => ?_⟩
          simpa [hz] using h i hi
        · intro h i hi
          obtain ⟨z, hz⟩ := Option.isSome_iff_exists.mp (hl i hi)
          simp [hz, h.commits hc hk i z hi hz]
      · rw [if_neg hc, if_neg hc]
        exact ⟨fun _ => ⟨fun _ _ h => hn h, fun h => absurd h hc⟩, fun _ => rfl⟩

end Steps

theorem wantedSlot_of_fresh {s : Scene} (ht : Tree s) (a : Action) {u : ℕ} (hu : s.nextId ≤ u) :
    s.wantedSlot a u none = none := by
  have hn : s.renderingUnits u = none := by simpa [forest] using (ht.fresh u hu).2.1
  simp [wantedSlot, hn]

/-- What holds beside a scene in every run. -/
structure SlotsKnown (p : Scene × (ℕ → Option ℕ)) : Prop where
  tree : Tree p.1
  wired : Wired p.1
  fresh : ∀ u, p.1.nextId ≤ u → p.2 u = none

theorem rightSlots_step_iff {p : Scene × (ℕ → Option ℕ)} (a : Action) (hk : SlotsKnown p)
    (hr : RightSlots p) : RightSlots (slotStep p a) ↔ KeepsSlots p.1 a := by
  have ht' := step_tree p.1 a hk.tree
  have right {u : ℕ} {y y' : RenderingUnit} (hy : p.1.renderingUnits u = some y)
      (hy' : (p.1.step a).renderingUnits u = some y') :
      y'.technique = (slotStep p a).2 u ↔ KeepsSlot p.1 a u y := by
    rw [← slot_right_iff hk.tree hk.wired ht' hy hy', hr u y hy]
    rfl
  constructor
  · intro h u y hy
    refine ⟨fun t z hd hz ho => ?_, fun hc => ?_⟩
    · have hu : ((p.1.step a).renderingUnits u).isSome := by
        have h1 := congrArg (fun g : Forest => (g.nodes u).isSome) (step_destroyed hd hz)
        simpa [forest, Forest.dropTechnique, hy] using h1
      obtain ⟨y', hy'⟩ := Option.isSome_iff_exists.mp hu
      exact ((right hy hy').mp (h u y' hy')).destroys t z hd hz ho
    · have hu := units_of_committedBy hk.tree hk.wired hc (u := u) (by rw [hy]; rfl)
      obtain ⟨y', hy'⟩ := Option.isSome_iff_exists.mp hu
      exact ((right hy hy').mp (h u y' hy')).commits hc
  · intro h u y' hy'
    rcases step_nodes hk.tree hk.wired a (forest_nodes hy') with ⟨n, hn, -⟩ | ⟨hu, -, hs⟩
    · simp only [forest, Arena.mapAll_apply, Option.map_eq_some_iff] at hn
      obtain ⟨y, hy, -⟩ := hn
      exact (right hy hy').mpr (h u y hy)
    · have h1 := wantedSlot_of_fresh hk.tree a (Nat.le_of_eq hu.symm)
      have h2 := hk.fresh u (Nat.le_of_eq hu.symm)
      have h3 : (slotStep p a).2 u = p.1.wantedSlot a u (p.2 u) := rfl
      rw [h3, h2, h1]
      exact hs

theorem slotsKnown_step (p : Scene × (ℕ → Option ℕ)) (a : Action) (h : SlotsKnown p) :
    SlotsKnown (slotStep p a) where
  tree := step_tree p.1 a h.tree
  wired := (step_wired p.1 a ⟨h.tree, h.wired⟩).2
  fresh := fun u hu => by
    have hle := (nextId_le_step h.tree a).trans hu
    have h1 : (slotStep p a).2 u = p.1.wantedSlot a u (p.2 u) := rfl
    rw [h1, h.fresh u hle]
    exact wantedSlot_of_fresh h.tree a hle

/-- In every state of a run, each live unit has the live technique that was the first to be
committed since its slot was free, exactly when every destruction of a technique meets the one of
its unit or a unit without one, and every commit that meets a unit without one meets a first
technique that was not committed before. -/
theorem slots_throughout_iff (as : List Action) :
    Run.Always slotStep RightSlots (init, fun _ => none) as ↔ Run.Each step KeepsSlots init as := by
  have h : Run.Each slotStep (fun p a => KeepsSlots p.1 a) (init, fun _ => none) as ↔
      Run.Each step KeepsSlots init as := Run.each_fst_iff fun _ _ => rfl
  rw [← h]
  refine Run.always_iff_each (J := SlotsKnown) ⟨init_tree, init_wired, fun _ _ => rfl⟩ ?_
    slotsKnown_step (fun p a hk hr => rightSlots_step_iff a hk hr) as
  intro u y hy
  cases hy

/-- A unit with a technique, and a second one that is destroyed before any commit. -/
def secondDestroyed : List Action :=
  [.request 0 .createVirtualObject, .request 0 (.createRenderingUnit 0),
    .request 0 (.createGlBaseTechnique 1), .request 0 (.commit 0),
    .request 0 (.createGlBaseTechnique 1), .destroy 0 3]

/-- The first technique is alive, but the unit does not have it any more. -/
theorem slot_cleared :
    ¬ Run.Always slotStep RightSlots (init, fun _ => none) secondDestroyed ∧
      ((run secondDestroyed).renderingUnits 1).map RenderingUnit.technique = some none ∧
      ((run secondDestroyed).baseTechniques 2).isSome := by
  refine ⟨fun h => ?_, rfl, rfl⟩
  have h1 := h secondDestroyed List.prefix_rfl 1 _ rfl
  exact absurd h1 (by decide)

end Scene
end Yaza
