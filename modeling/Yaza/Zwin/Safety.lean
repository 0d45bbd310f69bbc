import Yaza.Zwin.DoubleBuffering
import Yaza.Zwin.Memory
import Yaza.Zwin.Standing

/-! Which clients keep the program running: what no client may do for a scene never to stop, in any
order of requests, destructions, sessions, ticks and drags. -/
namespace Yaza
namespace Scene

/-- Apps, units and programs have their resources. -/
structure Deeds (s : Scene) : Prop where
  issued : ∀ i, (s.resources i).isSome → i < s.nextId
  apps : ∀ b, (s.boundedApps b).isSome → ∃ c, s.resources b = some ⟨c, .bounded⟩
  units : ∀ u, (s.renderingUnits u).isSome → ∃ c, s.resources u = some ⟨c, .renderingUnit⟩
  programs : ∀ p, (s.glPrograms p).isSome → ∃ c, s.resources p = some ⟨c, .glProgram⟩

section Deeds
variable {s s' : Scene}

/-- Used addresses keep their resources, and what is new has its own. -/
theorem Deeds.grow (h : Deeds s) (hr : ∀ i, i < s.nextId → s'.resources i = s.resources i)
    (hi : ∀ i, (s'.resources i).isSome → i < s'.nextId)
    (hb : ∀ b, (s'.boundedApps b).isSome →
      (s.boundedApps b).isSome ∨ ∃ c, s'.resources b = some ⟨c, .bounded⟩)
    (hu : ∀ u, (s'.renderingUnits u).isSome →
      (s.renderingUnits u).isSome ∨ ∃ c, s'.resources u = some ⟨c, .renderingUnit⟩)
    (hp : ∀ p, (s'.glPrograms p).isSome →
      (s.glPrograms p).isSome ∨ ∃ c, s'.resources p = some ⟨c, .glProgram⟩) : Deeds s' := by
  have keep {i : ℕ} {k : Interface} (hi : ∃ c, s.resources i = some ⟨c, k⟩) :
      ∃ c, s'.resources i = some ⟨c, k⟩ := by
    obtain ⟨c, hc⟩ := hi
    exact ⟨c, by rw [hr i (h.issued i (by simp [hc])), hc]⟩
  exact ⟨hi, fun b hb' => (hb b hb').elim (fun h1 => keep (h.apps b h1)) id,
    fun u hu' => (hu u hu').elim (fun h1 => keep (h.units u h1)) id,
    fun p hp' => (hp p hp').elim (fun h1 => keep (h.programs p h1)) id⟩

/-- No resource, app, unit or program comes or goes. -/
theorem Deeds.same (h : Deeds s) (hr : s'.resources = s.resources) (hn : s.nextId ≤ s'.nextId)
    (hb : ∀ b, (s'.boundedApps b).isSome = (s.boundedApps b).isSome)
    (hu : ∀ u, (s'.renderingUnits u).isSome = (s.renderingUnits u).isSome)
    (hp : ∀ p, (s'.glPrograms p).isSome = (s.glPrograms p).isSome) : Deeds s' :=
  h.grow (fun i _ => congrFun hr i) (fun i hi => (h.issued i (hr ▸ hi)).trans_le hn)
    (fun b hb' => .inl (hb b ▸ hb')) (fun u hu' => .inl (hu u ▸ hu'))
    fun p hp' => .inl (hp p ▸ hp')

theorem Deeds.of_skeleton (h : Deeds s) (hk : s'.skeleton = s.skeleton) : Deeds s' :=
  h.same (resources_of_skeleton hk) (nextId_of_skeleton hk).ge
    (Arena.isSome_of_mapAll (congrArg Scene.boundedApps hk))
    (Arena.isSome_of_mapAll (congrArg Scene.renderingUnits hk))
    (Arena.isSome_of_mapAll (congrArg Scene.glPrograms hk))

theorem Deeds.of_content (h : Deeds s) (hc : s'.content = s.content) : Deeds s' := by
  have hr : s'.content.resources = s.content.resources := by rw [hc]
  have hn : s'.content.nextId = s.content.nextId := by rw [hc]
  have hu : s'.content.renderingUnits.mapAll (fun _ => ()) =
      s.content.renderingUnits.mapAll fun _ => () := by rw [hc]
  have hp : s'.content.glPrograms.mapAll (fun _ => ()) =
      s.content.glPrograms.mapAll fun _ => () := by rw [hc]
  simp only [content, Arena.mapAll_mapAll] at hu hp
  exact h.same hr hn.ge (fun b => by rw [boundedApps_of_content hc])
    (Arena.isSome_of_mapAll hu) (Arena.isSome_of_mapAll hp)

/-- What one of the tables gains, when at most the new object is entered. -/
def Gains (n : ℕ) (p : Prop) {α β : Type} (k : Arena α) (k' : Arena β) : Prop :=
  ∀ i, (k' i).isSome → (k i).isSome ∨ i = n ∧ p

theorem Gains.refl {n : ℕ} {p : Prop} {α : Type} (k : Arena α) : Gains n p k k := fun _ => .inl

theorem gains_set (n : ℕ) {p : Prop} (hp : p) {α : Type} (k : Arena α) (x : α) :
    Gains n p k (k.set n x) := fun i hi => by
  by_cases he : i = n
  · exact .inr ⟨he, hp⟩
  · rw [Arena.set_of_ne _ _ he] at hi
    exact .inl hi

/-- A new resource, and nothing that needs another. -/
theorem Deeds.new (h : Deeds s) {client : ℕ} {i : Interface}
    (hr : s'.resources = s.resources.set s.nextId ⟨client, i⟩) (hn : s'.nextId = s.nextId + 1)
    (hb : Gains s.nextId (i = .bounded) s.boundedApps s'.boundedApps)
    (hu : Gains s.nextId (i = .renderingUnit) s.renderingUnits s'.renderingUnits)
    (hp : Gains s.nextId (i = .glProgram) s.glPrograms s'.glPrograms) : Deeds s' := by
  have own {k : Interface} (j : ℕ) (hj : j = s.nextId ∧ i = k) :
      ∃ c, s'.resources j = some ⟨c, k⟩ := by
    obtain ⟨rfl, rfl⟩ := hj
    exact ⟨client, by rw [hr, Arena.set_self]⟩
  refine h.grow (fun j hj => ?_) (fun j hj => ?_) (fun b hb' => (hb b hb').imp_right (own b))
    (fun u hu' => (hu u hu').imp_right (own u)) fun p hp' => (hp p hp').imp_right (own p)
  · rw [hr, Arena.set_of_ne _ _ (Nat.ne_of_lt hj)]
  · rw [hr, Arena.set_apply] at hj
    rw [hn]
    split at hj
    · next he => exact he ▸ Nat.lt_succ_self _
    · exact (h.issued j hj).trans (Nat.lt_succ_self _)

theorem RequestStep.deeds {T : ℕ → Prop} {client : ℕ} (s s' : Scene)
    (h : RequestStep T client s s') (hs : Deeds s) : Deeds s' := by
  cases h with
  | unit v hv => exact hs.new rfl rfl (.refl _) (gains_set _ rfl _ _) (.refl _)
  | program => exact hs.new rfl rfl (.refl _) (.refl _) (gains_set _ rfl _ _)
  | bounded v hv => exact hs.new rfl rfl (gains_set _ rfl _ _) (.refl _) (.refl _)
  | technique u hu =>
    exact hs.new rfl rfl (.refl _) (fun i hi => .inl ((Arena.modify_isSome ..).symm.trans hi))
      (.refl _)
  | virtualObject | shader | vertexArray | buffer | texture | sampler | region | shmBuffer =>
    exact hs.new rfl rfl (.refl _) (.refl _) (.refl _)
  | attach p i | link p =>
    exact hs.same rfl (Nat.le_refl _) (fun _ => rfl) (fun _ => rfl) fun _ => Arena.modify_isSome ..
  | configure b bytes hb =>
    exact hs.same rfl (Nat.le_refl _) (fun _ => Arena.modify_isSome ..) (fun _ => rfl) fun _ => rfl
  | bound b x p hb hx =>
    exact hs.same rfl (Nat.le_refl _)
      (Arena.isSome_of_mapAll (Arena.mapAll_set (f := BoundedApp.virtualObject) hx rfl))
      (fun _ => rfl) fun _ => rfl
  | _ => exact hs.same rfl (Nat.le_refl _) (fun _ => rfl) (fun _ => rfl) fun _ => rfl

theorem isSome_of_nodes (u : ℕ) : (s.forest.nodes u).isSome = (s.renderingUnits u).isSome := by
  simp [forest]

/-- The destruction of an object of the tree leaves the programs, that of any other thing at most
takes one. -/
theorem deleteObject_programs (s : Scene) (r p : ℕ) (k : Interface)
    (hp : ((s.deleteObject r k).glPrograms p).isSome) :
    (s.glPrograms p).isSome ∧ (k = .glProgram → p ≠ r) := by
  have of_tree (hk : inTree k) : (s.glPrograms p).isSome := by
    have h1 : (s.deleteObject r k).leaves.glPrograms = s.leaves.glPrograms :=
      congrArg Scene.glPrograms (deleteObject_leaves s r hk)
    exact (congrArg (fun k : Arena GlProgram => (k p).isSome) h1).symm.trans hp
  cases k with
  | virtualObject | bounded | renderingUnit | baseTechnique => exact ⟨of_tree rfl, fun h => by cases h⟩
  | glProgram =>
    simp only [deleteObject, Arena.erase_apply] at hp
    split at hp
    · cases hp
    · next hne => exact ⟨hp, fun _ => hne⟩
  | _ => exact ⟨hp, fun h => by cases h⟩

/-- A destruction takes the unit that its resource stands for. -/
theorem destroyResource_unit (ht : Tree s) {u c : ℕ}
    (hx : s.resources u = some ⟨c, .renderingUnit⟩) :
    (s.destroyResource u).renderingUnits u = none := by
  refine Option.not_isSome_iff_eq_none.mp fun hu => ?_
  rw [← isSome_of_nodes] at hu
  obtain ⟨n', hn'⟩ := Option.isSome_iff_exists.mp hu
  obtain ⟨n, hn, -⟩ := destroyResource_nodes ht hx hn'
  have h1 : (s.renderingUnits u).isSome := by rw [← isSome_of_nodes, hn]; rfl
  obtain ⟨y, hy⟩ := Option.isSome_iff_exists.mp h1
  have h2 : (s.destroyResource u).forest = (s.deleteRenderingUnit u).forest := by
    simp only [destroyResource, hx, deleteObject, h1, if_true]
    rfl
  rw [h2, deleteRenderingUnit_forest_of_tree ht hy] at hn'
  simp [Forest.dropUnit] at hn'

/-- A destruction takes the app that its resource stands for. -/
theorem destroyResource_app {b c : ℕ} (hx : s.resources b = some ⟨c, .bounded⟩) :
    (s.destroyResource b).boundedApps b = none := by
  simp only [destroyResource, hx, deleteObject]
  split
  · next hb =>
    obtain ⟨x, hb⟩ := Option.isSome_iff_exists.mp hb
    simp [deleteBoundedApp, hb]
  · next hb => simpa using hb

/-- A destruction takes the resource of the app, unit or program with it. -/
theorem destroyResource_deeds (ht : Tree s) (h : Deeds s) (r : ℕ) :
    Deeds (s.destroyResource r) := by
  cases hx : s.resources r with
  | none =>
    rw [destroyResource, hx]
    exact h
  | some x =>
    have hr : (s.destroyResource r).resources = s.resources.erase r := by
      rw [destroyResource, hx]
    have hn : (s.destroyResource r).nextId = s.nextId := destroyResource_nextId ht r
    refine ⟨fun i hi => ?_, fun b hb => ?_, fun u hu => ?_, fun p hp => ?_⟩
    · rw [hr, Arena.erase_apply] at hi
      rw [hn]
      split at hi
      · cases hi
      · exact h.issued i hi
    · obtain ⟨c, hc⟩ := h.apps b (destroyResource_apps ht r b hb)
      have hne : b ≠ r := by
        rintro rfl
        rw [destroyResource_app hc] at hb
        cases hb
      exact ⟨c, by rw [hr, Arena.erase_of_ne _ hne, hc]⟩
    · have h1 : (s.renderingUnits u).isSome := by
        rw [← isSome_of_nodes] at hu ⊢
        obtain ⟨n', hn'⟩ := Option.isSome_iff_exists.mp hu
        obtain ⟨n, hn, -⟩ := destroyResource_nodes ht hx hn'
        rw [hn]
        rfl
      obtain ⟨c, hc⟩ := h.units u h1
      have hne : u ≠ r := by
        rintro rfl
        rw [destroyResource_unit ht hc] at hu
        cases hu
      exact ⟨c, by rw [hr, Arena.erase_of_ne _ hne, hc]⟩
    · have hp : ((s.deleteObject r x.interface).glPrograms p).isSome := by
        rw [destroyResource, hx] at hp
        exact hp
      obtain ⟨h1, h2⟩ := deleteObject_programs s r p x.interface hp
      obtain ⟨c, hc⟩ := h.programs p h1
      have hne : p ≠ r := by
        rintro rfl
        rw [hx, Option.some.injEq] at hc
        exact h2 (by rw [hc]) rfl
      exact ⟨c, by rw [hr, Arena.erase_of_ne _ hne, hc]⟩

end Deeds

section Params
variable {s s' : Scene}

theorem ParamsMatch.congr (h : ParamsMatch s) (he : s'.glSamplers = s.glSamplers) :
    ParamsMatch s' := by
  unfold ParamsMatch
  rw [he]
  exact h

theorem ParamsMatch.of_samplers (h : ParamsMatch s)
    (hs : ∀ p x', s'.glSamplers p = some x' →
      ∃ x, s.glSamplers p = some x ∧
        ∀ e ∈ x'.pending ++ x'.current, e ∈ x.pending ++ x.current ∨ paramMatches e.2 = true) :
    ParamsMatch s' := by
  intro p x' hx' e he
  obtain ⟨x, hx, hs⟩ := hs p x' hx'
  exact (hs e he).elim (h p x hx e) id

theorem mem_foldl_insert {l m : Table Parameter} {e : UInt32 × Parameter}
    (h : e ∈ l.foldl (fun m e => m.insertOrAssign e.1 e.2) m) : e ∈ m ∨ e ∈ l := by
  induction l generalizing m with
  | nil => exact .inl h
  | cons d l ih =>
    rw [List.foldl_cons] at h
    rcases ih h with h | h
    · rcases Table.mem_insertOrAssign h with h | rfl
      · exact .inl h
      · exact .inr List.mem_cons_self
    · exact .inr (List.mem_cons_of_mem _ h)

/-- A sampler that was committed has the parameters it had. -/
theorem commit_mem {x : GlSampler} {e : UInt32 × Parameter}
    (h : e ∈ x.commit.pending ++ x.commit.current) : e ∈ x.pending ++ x.current := by
  have h : e ∈ x.commit.current := by simpa [GlSampler.commit] using h
  exact List.mem_append.mpr (mem_foldl_insert h).symm

theorem CommitStep.params {T : ℕ → Prop} (h : CommitStep T s s') (hp : ParamsMatch s) :
    ParamsMatch s' := by
  cases h with
  | error i code text =>
    rcases postError_cases s i code text with he | ⟨e, he⟩ <;> rw [he] <;> exact hp
  | sampler p x hT hx =>
    refine hp.of_samplers fun q x' hx' => ?_
    simp only [Arena.set_apply] at hx'
    split at hx'
    · next hq =>
      obtain rfl : x.commit = x' := Option.some.inj hx'
      exact ⟨x, hq ▸ hx, fun e he => .inl (commit_mem he)⟩
    · exact ⟨x', hx', fun e he => .inl he⟩
  | unit u y hu hy hc =>
    refine hp.congr ?_
    rw [registerUnit, hc, if_neg Bool.false_ne_true]
    rcases addRenderingUnit_cases s y.owner u with he | ⟨x, -, he⟩
    · rw [he]; rfl
    · rw [he]
  | _ => exact hp

theorem Commits.params {T : ℕ → Prop} (h : Commits T s s') : ParamsMatch s → ParamsMatch s' :=
  Path.preserves (fun _ _ h hp => h.params hp) h

end Params

section Faults
variable {s s' : Scene}

/-- Nothing stops the program, and parameters stay what their types say. -/
structure Smooth (s s' : Scene) : Prop where
  fault : s'.fault = s.fault
  params : ParamsMatch s → ParamsMatch s'

theorem Smooth.refl (s : Scene) : Smooth s s := ⟨rfl, id⟩

theorem smooth_of_eq (hf : s'.fault = s.fault) (hs : s'.glSamplers = s.glSamplers) : Smooth s s' :=
  ⟨hf, fun h => h.congr hs⟩

/-- `VirtualObject::commit` does not stop a program in which nothing dangles. -/
theorem commitVirtualObject_smooth (ht : Tree s) (hs : Founded s) (hp : ParamsMatch s) {v : ℕ}
    (hv : (s.virtualObjects v).isSome) (hr : s.fault = none) :
    Smooth s (s.commitVirtualObject v) := by
  have hc := commitState_commits_true s v
  have ht1 : Tree (s.commitState v) := hc.tree ht
  have hf1 : (s.commitState v).fault = none := (commitState_fault hs hv).trans hr
  have hp1 : ParamsMatch (s.commitState v) := hc.params hp
  have hs1 : Founded (s.commitState v) := hs.congr (footing_of_skeleton hc.skeleton)
  have hv1 : ((s.commitState v).virtualObjects v).isSome := by
    rw [Arena.isSome_of_mapAll (congrArg Scene.virtualObjects hc.skeleton)]
    exact hv
  refine ⟨?_, fun _ => hp1.of_content (syncIfSession_steps ht1.registered v).content⟩
  rw [hr, commitVirtualObject, syncIfSession]
  split
  · next hses =>
    exact syncVirtualObject_fault
      ⟨hf1, hses, hs1, hp1, slotOk_of_registered ht1.registered⟩
      (listOk_of_registered ht1.registered) hv1 false
  · exact hf1

theorem setTechnique_none_fault {u : ℕ} (hu : (s.renderingUnits u).isSome) :
    (s.setTechnique u none).fault = s.fault := by
  obtain ⟨y, hy⟩ := Option.isSome_iff_exists.mp hu
  simp [setTechnique, hy]

/-- `~GlBaseTechnique` does not stop the program while the unit is alive. -/
theorem deleteTechnique_fault {t : ℕ} {z : GlBaseTechnique} (hz : s.baseTechniques t = some z)
    (hu : (s.renderingUnits z.owner).isSome) : (s.deleteTechnique t).fault = s.fault := by
  rw [deleteTechnique, hz]
  exact setTechnique_none_fault hu

theorem removeRenderingUnit_fault {v : ℕ} (hv : (s.virtualObjects v).isSome) (u : ℕ) :
    (s.removeRenderingUnit v u).fault = s.fault := by
  obtain ⟨x, hx⟩ := Option.isSome_iff_exists.mp hv
  simp only [removeRenderingUnit, hx]
  split <;> rfl

/-- `~RenderingUnit` does not stop the program while its object is alive, and the technique in its
slot is its own. -/
theorem deleteRenderingUnit_fault {u : ℕ} {n : Node} (hn : s.forest.nodes u = some n)
    (ho : (s.forest.lists n.owner).isSome)
    (hk : ∀ t, n.slot = some t → s.forest.owners t = some u) :
    (s.deleteRenderingUnit u).fault = s.fault := by
  simp only [forest, Arena.mapAll_apply, Option.map_eq_some_iff] at hn hk
  obtain ⟨y, hy, rfl⟩ := hn
  have ho : (s.virtualObjects y.owner).isSome := by
    simp only [forest, Arena.mapAll_apply, Option.isSome_map] at ho
    exact ho
  have h1 := removeRenderingUnit_fault ho u
  obtain ⟨ht, hu⟩ := removeRenderingUnit_techniques s y.owner u
  rw [← h1]
  simp only [deleteRenderingUnit, hy]
  cases hyt : y.technique with
  | none => rfl
  | some t =>
    obtain ⟨z, hz, hzu⟩ := hk t hyt
    refine deleteTechnique_fault (z := z) (ht ▸ hz) ?_
    rw [hu, hzu, hy]
    rfl

/-- The units of an object that is being destroyed do not stop the program. -/
theorem deleteUnits_fault (hk : SlotOk s) {v : ℕ} {l : List ℕ} (hl : l.Nodup)
    (ho : ∀ u ∈ l, ∃ n, s.forest.nodes u = some n ∧ n.owner = v)
    (hv : ∃ x, s.virtualObjects v = some x ∧ x.destroying = true) :
    (l.foldl deleteRenderingUnit s).fault = s.fault := by
  induction l using List.reverseRecOn with
  | nil => rfl
  | append_singleton l u ih =>
    have hl' := List.nodup_append.mp hl
    have hu : u ∉ l := fun h => hl'.2.2 u h u List.mem_cons_self rfl
    have hpre (w : ℕ) (hw : w ∈ l) := ho w (List.mem_append_left _ hw)
    obtain ⟨n, hn, hno⟩ := ho u (by simp)
    have hf := deleteUnits_forest hk (l := l)
      (fun w hw n hn => by
        obtain ⟨m, hm, hmo⟩ := hpre w hw
        rw [hn, Option.some.injEq] at hm
        exact hm ▸ hmo) hv
    rw [List.foldl_append, List.foldl_cons, List.foldl_nil,
      deleteRenderingUnit_fault (n := n) ?_ ?_ ?_]
    · exact ih hl'.1 hpre
    · rw [hf]
      simpa [Forest.dropObject, hu] using hn
    · obtain ⟨x, hx, -⟩ := hv
      rw [hf, hno]
      simp [forest, hx]
    · intro t ht
      have hu' := slotOk_iff.mp hk u n t hn ht
      have hns : t ∉ s.forest.slots l := by
        rw [Forest.mem_slots]
        rintro ⟨w, hw, m, hm, hmt⟩
        have hw' := slotOk_iff.mp hk w m t hm hmt
        rw [hu', Option.some.injEq] at hw'
        exact hu (hw' ▸ hw)
      rw [hf]
      simpa [Forest.dropObject, hns] using hu'

theorem deleteBoundedApp_fault {b : ℕ} (hb : (s.boundedApps b).isSome) :
    (s.deleteBoundedApp b).fault = s.fault := by
  obtain ⟨x, hx⟩ := Option.isSome_iff_exists.mp hb
  rw [deleteBoundedApp, hx]

/-- `~VirtualObject` does not stop the program while its app is alive. -/
theorem deleteVirtualObject_fault (ht : Tree s) {v : ℕ} {x : VirtualObject}
    (hx : s.virtualObjects v = some x)
    (ha : ∀ b, x.app = some b → (s.boundedApps b).isSome) :
    (s.deleteVirtualObject v).fault = s.fault := by
  have hm : (s.markDestroying v).forest = s.forest :=
    modifyVirtualObject_forest (f := fun x => { x with destroying := true }) fun _ => rfl
  have h1 : (x.renderingUnitList.foldl deleteRenderingUnit (s.markDestroying v)).fault =
      s.fault := by
    refine deleteUnits_fault (s := s.markDestroying v) (v := v)
      (slotOk_of_registered (hm ▸ ht.registered))
      (ht.registered.nodup v _ (forest_lists hx)) (fun u hu => ?_) ?_
    · obtain ⟨n, hn, ho, -⟩ := (ht.registered.listed v _ u (forest_lists hx)).mp hu
      exact ⟨n, hm ▸ hn, ho⟩
    · simp [markDestroying, hx]
  simp only [deleteVirtualObject, hx]
  cases ha' : x.app with
  | none => exact h1
  | some b =>
    refine (deleteBoundedApp_fault ?_).trans h1
    have hb := congrArg Scene.boundedApps
      (deleteUnits_rest (s.markDestroying v) x.renderingUnitList)
    exact (congrArg (fun k : Arena BoundedApp => (k b).isSome = true) hb).mpr (ha b ha')

/-- A destruction does not stop the program while no unit or technique has lost its parent, and no
object its app. -/
theorem destroyResource_smooth (ht : Tree s) (hr : s.forest.Rooted) (hk : s.link.Tied) (r : ℕ) :
    Smooth s (s.destroyResource r) := by
  cases hx : s.resources r with
  | none =>
    rw [destroyResource, hx]
    exact .refl s
  | some x =>
    obtain ⟨c, i⟩ := x
    have of_tree (hi : inTree i) (hf : (s.deleteObject r i).fault = s.fault) :
        Smooth s (s.destroyResource r) := by
      have hl := congrArg Scene.glSamplers (deleteObject_leaves s r hi)
      rw [destroyResource, hx]
      exact smooth_of_eq hf hl
    cases i with
    | virtualObject =>
      obtain ⟨x, hv⟩ := Option.isSome_iff_exists.mp (ht.objects r c hx)
      refine of_tree rfl (deleteVirtualObject_fault ht hv fun b hb => ?_)
      have h1 := hk.fore r b (by simp [link, hv, hb])
      simp only [link, Arena.mapAll_apply, Option.map_eq_some_iff] at h1
      obtain ⟨y, hy, -⟩ := h1
      simp [hy]
    | bounded =>
      refine of_tree rfl ?_
      simp only [deleteObject]
      split
      · next hb => exact deleteBoundedApp_fault hb
      · rfl
    | renderingUnit =>
      refine of_tree rfl ?_
      simp only [deleteObject]
      split
      · next hu =>
        obtain ⟨y, hy⟩ := Option.isSome_iff_exists.mp hu
        exact deleteRenderingUnit_fault (forest_nodes hy) (hr.units r _ (forest_nodes hy))
          fun t htt => ht.registered.slot r _ t (forest_nodes hy) htt
      · rfl
    | baseTechnique =>
      refine of_tree rfl ?_
      simp only [deleteObject]
      split
      · next hz =>
        obtain ⟨z, hz⟩ := Option.isSome_iff_exists.mp hz
        refine deleteTechnique_fault hz ?_
        rw [← isSome_of_nodes]
        exact hr.techniques r z.owner (forest_owners hz)
      · rfl
    | glSampler =>
      rw [destroyResource, hx]
      refine ⟨rfl, fun hp => hp.of_samplers fun p x' hx' => ?_⟩
      simp only [deleteObject, Arena.erase_apply] at hx'
      split at hx'
      · cases hx'
      · exact ⟨x', hx', fun e he => .inl he⟩
    | _ =>
      rw [destroyResource, hx]
      exact smooth_of_eq rfl rfl

/-- What the handler of a request does not check: that the app is alive. -/
def Answers (s : Scene) : Request → Prop
  | .ackConfigure b _ | .setRegion b _ => (s.boundedApps b).isSome
  | _ => True

theorem postError_smooth {i : ℕ} (hi : (s.resources i).isSome) (code : ErrorCode)
    (text : String) : Smooth s (s.postError i code text) := by
  refine smooth_of_eq (postError_fault hi code text) ?_
  rcases postError_cases s i code text with h | ⟨e, h⟩
  · rw [h]; rfl
  · rw [h]

theorem withTechnique_smooth {t : ℕ} {k : Scene → Scene} (hk : Smooth s (k s)) :
    Smooth s (s.withTechnique t k) := by
  unfold withTechnique
  split
  · exact hk
  · exact .refl s

theorem paramMatches_array (type : ArrayType) (changed : Bool) (pname : UInt32) (bytes : Bytes) :
    paramMatches ⟨changed, type.paramType, pname, .array bytes⟩ = true := by
  cases type <;> rfl

theorem setParamater_smooth {p : ℕ} (hi : (s.resources p).isSome) (type : ParamType)
    (pname : UInt32) (arg : SamplerArg) (garbage : Bytes)
    (hv : paramMatches ⟨true, type, pname, arg.value garbage⟩ = true) :
    Smooth s (s.setParamater p type pname arg garbage) := by
  unfold setParamater
  split
  · exact postError_smooth hi ..
  · next n hn =>
    split
    · exact postError_smooth hi ..
    · next he =>
      refine ⟨rfl, fun hp => hp.of_samplers fun q x' hx' => ?_⟩
      simp only [Arena.modify_apply] at hx'
      split at hx'
      · next hq =>
        obtain ⟨x, hx, rfl⟩ := Option.map_eq_some_iff.mp hx'
        refine ⟨x, hx, fun e he => ?_⟩
        rcases List.mem_append.mp he with he | he
        · rcases Table.mem_insertOrAssign he with he | rfl
          · exact .inl (List.mem_append_left _ he)
          · exact .inr hv
        · exact .inl (List.mem_append_right _ he)
      · exact ⟨x', hx', fun e he => .inl he⟩

/-- The handler of a request that the client may make does not stop the program, where it finds
what it takes for granted. -/
theorem handle_smooth (ht : Tree s) (hs : Founded s) (hp : ParamsMatch s) (hf : s.fault = none)
    {client : ℕ} {r : Request} (hr : s.admits client r) (hc : s.Answers r) :
    Smooth s (s.handle client r) := by
  have hres {i : ℕ} (hi : i ∈ r.objects.map Prod.fst) : (s.resources i).isSome := by
    obtain ⟨⟨j, k⟩, hj, rfl⟩ := List.mem_map.mp hi
    rw [admits_object hr hj]
    rfl
  cases r with
  | commit v =>
    exact commitVirtualObject_smooth ht hs hp
      (ht.objects v client (admits_object hr (by simp [Request.objects]))) hf
  | createGlSampler =>
    refine ⟨rfl, fun hp => fun p x hx => ?_⟩
    simp only [handle, Arena.set_apply] at hx
    split at hx
    · obtain rfl := Option.some.inj hx
      exact fun e he => by cases he
    · exact hp p x hx
  | createGlBaseTechnique u =>
    simp only [handle, createGlBaseTechnique]
    split <;> exact smooth_of_eq rfl rfl
  | getBounded v halfSize =>
    have h1 : Smooth (s.newBounded client v)
        ((s.newBounded client v).configure s.nextId halfSize) := by
      unfold configure
      split
      · exact postError_smooth (by simp [newBounded, newResource]) ..
      · exact smooth_of_eq rfl rfl
    exact ⟨h1.fault, fun hp => h1.params hp⟩
  | ackConfigure b serial =>
    obtain ⟨x, hx⟩ := Option.isSome_iff_exists.mp hc
    simp only [handle, ackConfigure, hx]
    split <;> exact smooth_of_eq rfl rfl
  | setRegion b region =>
    obtain ⟨x, hx⟩ := Option.isSome_iff_exists.mp hc
    simp only [handle, setRegion, hx]
    split <;> exact smooth_of_eq rfl rfl
  | addCuboid region halfSize center quat =>
    have hi := hres (i := region) (by simp [Request.objects])
    simp only [handle, addCuboid]
    split
    · exact postError_smooth hi ..
    · exact postError_smooth hi ..
    · exact postError_smooth hi ..
    · exact smooth_of_eq rfl rfl
  | uniformVector t =>
    have hi := hres (i := t) (by simp [Request.objects])
    apply withTechnique_smooth
    unfold uniformVector
    split
    · exact postError_smooth hi ..
    · split
      · exact postError_smooth hi ..
      · exact smooth_of_eq rfl rfl
  | uniformMatrix t =>
    have hi := hres (i := t) (by simp [Request.objects])
    apply withTechnique_smooth
    unfold uniformMatrix
    split
    · exact postError_smooth hi ..
    · split
      · exact postError_smooth hi ..
      · split
        · exact postError_smooth hi ..
        · exact smooth_of_eq rfl rfl
  | drawElements t =>
    have hi := hres (i := t) (by simp [Request.objects])
    apply withTechnique_smooth
    unfold drawElements
    split
    · exact postError_smooth hi ..
    · exact smooth_of_eq rfl rfl
  | parameterF p pname param =>
    have hi := hres (i := p) (by simp [Request.objects])
    simp only [handle, parameterF]
    split
    · exact postError_smooth hi ..
    · exact setParamater_smooth hi _ _ _ _ rfl
  | parameterI p pname param =>
    exact setParamater_smooth (hres (i := p) (by simp [Request.objects])) _ _ _ _ rfl
  | parameterV p type pname params garbage =>
    exact setParamater_smooth (hres (i := p) (by simp [Request.objects])) _ _ _ _
      (paramMatches_array type ..)
  | vertexAttribPointer va =>
    have hi := hres (i := va) (by simp [Request.objects])
    simp only [handle, vertexAttribPointer]
    split
    · exact postError_smooth hi ..
    · exact smooth_of_eq rfl rfl
  | _ => exact smooth_of_eq rfl rfl

/-- One round of the sync of a new session. -/
theorem sessionEstablished_afloat (h : Afloat s) (hg : s.forest.Registered) (v : ℕ) :
    SyncsAny s (s.sessionEstablished v) ∧ (s.sessionEstablished v).fault = none := by
  unfold sessionEstablished
  split
  · exact ⟨.refl, h.running⟩
  · next x hx =>
    split
    · exact ⟨syncVirtualObject_steps h.session hg v true,
        syncVirtualObject_fault h (listOk_of_registered hg) (by simp [hx]) true⟩
    · exact ⟨.refl, h.running⟩

theorem peerDiscover_smooth (ht : Tree s) (hs : Founded s) (hp : ParamsMatch s)
    (hf : s.fault = none) (connected : Bool) : Smooth s (s.peerDiscover connected) := by
  rcases peerDiscover_cases ht.registered connected with ⟨h, -⟩ | ⟨hn, h⟩
  · rw [h]
    exact .refl s
  · have hp1 : ParamsMatch { s with remote := s.remote.establish } := hp
    refine ⟨?_, fun _ => hp1.of_content (Syncs.content h)⟩
    have hs1 : Founded { s with remote := s.remote.establish } := hs.congr rfl
    have h1 : Afloat { s with remote := s.remote.establish } :=
      ⟨hf, rfl, hs1, hp1, slotOk_of_registered (s := s) ht.registered⟩
    rw [hf]
    unfold peerDiscover
    split
    · exact hf
    · exact h1.foldl (Q := fun s _ => s.forest.Registered)
        (fun s v h hg => sessionEstablished_afloat h hg v)
        (fun s s' _ hs hg => forest_of_content (Syncs.content hs) ▸ hg) fun _ _ => ht.registered

theorem moveApp_smooth (ht : Tree s) (hs : Founded s) (hk : s.link.Tied) (hp : ParamsMatch s)
    (hf : s.fault = none) (b : ℕ) (polar azimuthal : ℚ) :
    Smooth s (s.moveApp b polar azimuthal) := by
  unfold moveApp
  split
  · exact .refl s
  · next x hx =>
    have hb := Arena.mapAll_set (f := BoundedApp.virtualObject)
      (y := { x with polar := x.polar + polar, azimuthal := x.azimuthal + azimuthal }) hx rfl
    have hs1 : Founded (s.turnApp b x polar azimuthal) := hs.congr (by
      simp only [footing, turnApp, hb])
    have hv := hk.back b x.virtualObject (by simp [link, hx])
    simp only [link, Arena.mapAll_apply, Option.map_eq_some_iff] at hv
    obtain ⟨y, hy, -⟩ := hv
    have h1 := commitVirtualObject_smooth (s := s.turnApp b x polar azimuthal)
      (ht.same (turnApp_same ..)) hs1 hp
      (show (s.virtualObjects x.virtualObject).isSome by simp [hy]) hf
    exact ⟨h1.fault, h1.params⟩

end Faults

/-- The program runs, and no pointer that the code follows without a check dangles: units have
their object, techniques their unit, objects and apps each other, shaders their source; and the
parameters of samplers are what their types say. -/
structure Upright (s : Scene) : Prop where
  running : s.fault = none
  units : ∀ u y, s.renderingUnits u = some y → (s.virtualObjects y.owner).isSome
  techniques : ∀ t z, s.baseTechniques t = some z → (s.renderingUnits z.owner).isSome
  apps : Linked s
  shaders : ∀ h x, s.glShaders h = some x → (s.shmBuffers x.buffer).isSome
  samplers : ParamsMatch s

/-- What clients keep: no destruction leaves a child that its parent was not told about, or a
shader without its source; no object gets a second app, and no app goes before its object; and no
handler is asked what it does not check. -/
structure Minds (s : Scene) (a : Action) : Prop where
  children : KeepsChildren s a
  apps : KeepsLink s a
  sources : KeepsSources (fun _ => False) s a
  requests : ∀ client r, a = .request client r → s.admits client r → s.Answers r

/-- An upright scene, with what holds of every scene. -/
structure Fit (s : Scene) : Prop where
  running : s.fault = none
  tree : Tree s
  wired : Wired s
  rooted : s.forest.Rooted
  tied : s.link.Tied
  sourced : Sourced s
  params : ParamsMatch s
  deeds : Deeds s

section Fit
variable {s : Scene}

theorem rooted_iff :
    s.forest.Rooted ↔ (∀ u y, s.renderingUnits u = some y → (s.virtualObjects y.owner).isSome) ∧
      ∀ t z, s.baseTechniques t = some z → (s.renderingUnits z.owner).isSome := by
  constructor
  · intro h
    refine ⟨fun u y hy => ?_, fun t z hz => ?_⟩
    · simpa [forest, nodeOf] using h.units u (nodeOf y) (forest_nodes hy)
    · rw [← isSome_of_nodes]
      exact h.techniques t z.owner (forest_owners hz)
  · rintro ⟨hu, ht⟩
    refine ⟨fun u n hn => ?_, fun t u hn => ?_⟩
    · simp only [forest, Arena.mapAll_apply, Option.map_eq_some_iff] at hn
      obtain ⟨y, hy, rfl⟩ := hn
      simpa [forest, nodeOf] using hu u y hy
    · simp only [forest, Arena.mapAll_apply, Option.map_eq_some_iff] at hn
      obtain ⟨z, hz, rfl⟩ := hn
      rw [isSome_of_nodes]
      exact ht t z hz

theorem Fit.upright (h : Fit s) : Upright s where
  running := h.running
  units := (rooted_iff.mp h.rooted).1
  techniques := (rooted_iff.mp h.rooted).2
  apps := (linked_iff s).mpr h.tied
  shaders := h.sourced.shaders
  samplers := h.params

theorem Fit.founded (h : Fit s) : Founded s where
  objects := fun v x hx c hc => by
    have h1 := (h.wired.objects.mem v x.listeners c (by simp [objectWiring, hx])).mp hc
    exact Option.isSome_iff_exists.mpr ⟨v, h1⟩
  apps := fun v x b hx hb => by
    obtain ⟨y, hy, -⟩ := ((linked_iff s).mpr h.tied).app v x b hx hb
    simp [hy]
  units := fun u y hy => by
    obtain ⟨c, hc⟩ := h.deeds.units u (by simp [hy])
    refine ⟨h.upright.units u y hy, by simp [hc], fun t ht => ?_⟩
    have h1 := (h.wired.units.mem u y.listeners t (by simp [unitWiring, hy])).mp ht
    simp only [unitWiring, Arena.mapAll_apply, Option.map_eq_some_iff] at h1
    obtain ⟨z, hz, -⟩ := h1
    simp [hz]
  techniques := h.upright.techniques
  programs := fun p hp => by
    obtain ⟨c, hc⟩ := h.deeds.programs p hp
    simp [hc]
  sources := h.sourced.shaders

theorem commitVirtualObject_deeds (ht : Tree s) (h : Deeds s) (v : ℕ) :
    Deeds (s.commitVirtualObject v) := by
  have hc := commitState_commits_true s v
  exact (h.of_skeleton hc.skeleton).of_content
    (syncIfSession_steps (hc.tree ht).registered v).content

theorem act_deeds (ht : Tree s) (h : Deeds s) (a : Action) : Deeds (s.act a) := by
  cases a with
  | request client r =>
    simp only [act]
    split
    · by_cases hc : ∃ v, r = .commit v
      · obtain ⟨v, rfl⟩ := hc
        exact commitVirtualObject_deeds ht h v
      · by_cases hf : ∃ v, r = .frame v
        · obtain ⟨v, rfl⟩ := hf
          exact h.same rfl (Nat.le_succ s.nextId) (fun _ => rfl) (fun _ => rfl) fun _ => rfl
        · have hn : s.virtualObjects s.nextId = none := by
            simpa [forest] using (ht.fresh s.nextId (Nat.le_refl _)).1
          have h1 : RequestSteps (fun _ => True) client s (s.handle client r) :=
            handle_steps (fun _ _ => trivial) (fun _ _ _ => trivial) hn
              (fun v hv => hc ⟨v, hv⟩) fun v hv => hf ⟨v, hv⟩
          exact Path.preserves (fun s s' h hd => RequestStep.deeds s s' h hd) h1 h
    · exact h
  | destroy client r =>
    simp only [act]
    split
    · exact destroyResource_deeds ht h r
    · exact h
  | peerDiscover connected =>
    rcases peerDiscover_cases ht.registered connected with ⟨he, -⟩ | ⟨-, hs⟩
    · rw [act, he]
      exact h
    · have h1 : Deeds { s with remote := s.remote.establish } :=
        h.same rfl (Nat.le_refl _) (fun _ => rfl) (fun _ => rfl) fun _ => rfl
      exact h1.of_content (Syncs.content hs)
  | sessionDisconnect => exact h.of_content (sessionDisconnect_content s)
  | frameTimer busyness =>
    simp only [act, frameTimer]
    split
    · exact h.same rfl (Nat.le_refl _) (fun _ => rfl) (fun _ => rfl) fun _ => rfl
    · exact h
  | moveApp b polar azimuthal =>
    simp only [act, moveApp]
    split
    · exact h
    · next x hx =>
      have h1 : Deeds (s.turnApp b x polar azimuthal) :=
        h.same rfl (Nat.le_refl _)
          (Arena.isSome_of_mapAll (Arena.mapAll_set (f := BoundedApp.virtualObject) hx rfl))
          (fun _ => rfl) fun _ => rfl
      exact commitVirtualObject_deeds (ht.same (turnApp_same ..)) h1 _

theorem Fit.smooth (h : Fit s) {a : Action} (ha : Minds s a) : Smooth s (s.act a) := by
  cases a with
  | request client r =>
    simp only [act]
    split
    · next hr =>
      exact handle_smooth h.tree h.founded h.params h.running hr (ha.requests client r rfl hr)
    · exact .refl s
  | destroy client r =>
    simp only [act]
    split
    · exact destroyResource_smooth h.tree h.rooted h.tied r
    · exact .refl s
  | peerDiscover connected => exact peerDiscover_smooth h.tree h.founded h.params h.running _
  | sessionDisconnect =>
    refine ⟨?_, fun hp => hp.of_content (sessionDisconnect_content s)⟩
    simp only [act, sessionDisconnect]
    split <;> rfl
  | frameTimer busyness =>
    simp only [act, frameTimer]
    split <;> exact smooth_of_eq rfl rfl
  | moveApp b polar azimuthal =>
    exact moveApp_smooth h.tree h.founded h.tied h.params h.running b polar azimuthal

/-- A step that minds the rules leaves the scene as fit as it was. -/
theorem Fit.next (h : Fit s) {a : Action} (ha : Minds s a) : Fit (s.step a) := by
  have he : s.step a = s.act a := if_neg (by simp [h.running])
  obtain ⟨ht, hw⟩ := step_wired s a ⟨h.tree, h.wired⟩
  have hr := (step_rooted_iff h.tree h.rooted a).mpr ha.children
  have hk := (step_linked_iff h.tree h.wired h.tied a).mpr ha.apps
  have hm := h.smooth ha
  rw [he] at ht hw hr hk ⊢
  exact ⟨hm.fault.trans h.running, ht, hw, hr, hk, (act_keeps h.sourced h.tree ha.sources).sourced,
    hm.params h.params, act_deeds h.tree h.deeds a⟩

theorem init_fit : Fit init where
  running := rfl
  tree := init_tree
  wired := init_wired
  rooted := rooted_iff.mpr ⟨fun _ _ h => (by cases h), fun _ _ h => (by cases h)⟩
  tied := (linked_iff init).mp ⟨fun _ _ _ h => (by cases h), fun _ _ h => (by cases h)⟩
  sourced := init_sourced
  params := fun _ _ h => by cases h
  deeds := ⟨nofun, nofun, nofun, nofun⟩

end Fit

end Scene
end Yaza
