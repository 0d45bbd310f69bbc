import Yaza.Server.Objects
import Yaza.Lib.Stack
import Mathlib.Tactic.Linarith

/-! The stack of surfaces (`Server::surfaces_`): each live surface is in it once, raising one keeps
the order of the others, and the distances from the origin follow the order. -/
namespace Yaza
namespace World

/-- The surface gets a distance when it is reordered. -/
def layered (w : World) (i : ℕ) : Bool := (w.surfaces i).any fun x => x.role ≠ .cursor

/-- The distance of a surface. -/
def distanceOf (w : World) (i : ℕ) : ℚ := ((w.surfaces i).map Surface.distance).getD 0

/-- The distance at an index. -/
def layerDistance (index : ℕ) : ℚ := minDistance + layerZOffset * index

theorem layerDistance_strictMono : StrictMono layerDistance := by
  intro m n h
  unfold layerDistance layerZOffset
  have hmn : (m : ℚ) < n := by exact_mod_cast h
  linarith

theorem layered_of_shape {w w' : World}
    (h : w'.surfaces.mapAll Surface.shape = w.surfaces.mapAll Surface.shape) (i : ℕ) :
    w'.layered i = w.layered i := by
  have hi := congrFun h i
  unfold layered
  cases hx : w.surfaces i with
  | none => simp_all
  | some x =>
    obtain ⟨y, hy, hxy⟩ : ∃ y, w'.surfaces i = some y ∧ y.shape = x.shape := by simpa [hx] using hi
    simp only [Surface.shape, Prod.mk.injEq] at hxy
    simp [hy, hxy.2.2.1]

/-- One round of the loop relabels the distances. -/
theorem reorderSurface_relabel (p : ℕ → Bool) (acc : World × ℕ) (hp : acc.1.layered = p) (i : ℕ) :
    ((reorderSurface acc i).1.distanceOf, (reorderSurface acc i).2) =
      Stack.relabel p layerDistance (acc.1.distanceOf, acc.2) i := by
  subst hp
  unfold reorderSurface Stack.relabel
  cases hx : acc.1.surfaces i with
  | none => simp [layered, hx]
  | some x =>
    by_cases hr : x.role = .cursor
    · simp [layered, hx, hr, Surface.updateDistanceByLayerIndex]
    · obtain ⟨y, hy, hd⟩ : ∃ y, x.updateDistanceByLayerIndex acc.2 = some y ∧
          y.distance = layerDistance acc.2 := by
        simp only [Surface.updateDistanceByLayerIndex, hr, if_false]
        refine ⟨_, rfl, ?_⟩
        split <;> rfl
      simp only [layered, hx, Option.any_some, hr, ne_eq, not_false_eq_true, decide_true,
        Option.bind_some, hy, if_true]
      refine Prod.ext (funext fun j => ?_) rfl
      by_cases hj : j = i
      · subst hj
        simp [distanceOf, hd]
      · simp [distanceOf, hj]

theorem reorderFold_relabel (p : ℕ → Bool) (l : List ℕ) (acc : World × ℕ)
    (hp : acc.1.layered = p) :
    (l.foldl reorderSurface acc).1.distanceOf =
      (l.foldl (Stack.relabel p layerDistance) (acc.1.distanceOf, acc.2)).1 := by
  induction l generalizing acc with
  | nil => rfl
  | cons i l ih =>
    have h1 : (reorderSurface acc i).1.layered = p := by
      obtain ⟨S, h2, h3⟩ := reorderSurface_eq acc i
      rw [h2, ← hp]
      exact funext fun j => layered_of_shape h3 j
    rw [List.foldl_cons, ih _ h1, reorderSurface_relabel p acc hp i, List.foldl_cons]

theorem layered_reorderSurfaces (w : World) (i : ℕ) :
    w.reorderSurfaces.layered i = w.layered i := by
  obtain ⟨S, h1, h2⟩ := w.reorderSurfaces_eq
  rw [h1]
  exact layered_of_shape h2 i

theorem surfaceList_reorderSurfaces (w : World) :
    w.reorderSurfaces.surfaceList = w.surfaceList.filter fun i => (w.surfaces i).isSome := by
  obtain ⟨S, h1, -⟩ := w.reorderSurfaces_eq
  rw [h1]
  rfl

theorem distanceOf_reorderSurfaces (w : World) :
    w.reorderSurfaces.distanceOf = (w.reorderSurfaces.surfaceList.foldl
      (Stack.relabel w.layered layerDistance) (w.distanceOf, 0)).1 := by
  rw [surfaceList_reorderSurfaces]
  exact reorderFold_relabel w.layered _ (w.dropExpiredSurfaces, 0) rfl

/-- The first surface that is no cursor is as near as a surface can be. -/
def Front (w : World) : Prop :=
  ∀ i, w.surfaceList.find? w.layered = some i → w.distanceOf i = minDistance

theorem reorderSurfaces_front {w : World} (hl : w.surfaceList.Nodup) : w.reorderSurfaces.Front := by
  intro i hi
  have hl' : w.reorderSurfaces.surfaceList.Nodup := by
    rw [surfaceList_reorderSurfaces]
    exact hl.filter _
  have hp : w.reorderSurfaces.layered = w.layered := funext w.layered_reorderSurfaces
  rw [hp] at hi
  rw [distanceOf_reorderSurfaces, Stack.relabel_find? hl' hi]
  simp [layerDistance]

/-- After a reordering the distances of the surfaces that are no cursors grow. -/
theorem reorderSurfaces_pairwise {w : World} (hl : w.surfaceList.Nodup) :
    w.reorderSurfaces.surfaceList.Pairwise fun i j => w.layered i = true → w.layered j = true →
      w.reorderSurfaces.distanceOf i < w.reorderSurfaces.distanceOf j := by
  have hl' : w.reorderSurfaces.surfaceList.Nodup := by
    rw [surfaceList_reorderSurfaces]
    exact hl.filter _
  rw [distanceOf_reorderSurfaces]
  exact Stack.relabel_pairwise layerDistance_strictMono hl' _

/-- The surface is no cursor, and it is not one of those left out. -/
def Steady (K : ℕ → Prop) (w : World) (i : ℕ) : Prop := ¬ K i ∧ w.layered i = true

/-- Each live surface is in the list once, and the distances follow the list, up to the surfaces
left out. -/
structure Sorted (K : ℕ → Prop) (w : World) : Prop where
  nodup : w.surfaceList.Nodup
  mem : ∀ i, (w.surfaces i).isSome → i ∈ w.surfaceList
  lt : ∀ i ∈ w.surfaceList, i < w.nextId
  spaced : w.surfaceList.Pairwise fun i j =>
    w.Steady K i → w.Steady K j → w.distanceOf i < w.distanceOf j

/-- What the order of the stack depends on in a surface. -/
def depth (x : Surface) := (x.role, x.distance)

section Sorted
variable {K K' : ℕ → Prop} {w w' : World}

theorem layered_of_depth {i : ℕ} (h : (w'.surfaces i).map depth = (w.surfaces i).map depth) :
    w'.layered i = w.layered i ∧ w'.distanceOf i = w.distanceOf i := by
  unfold layered distanceOf
  cases hx : w.surfaces i with
  | none => simp_all
  | some x =>
    obtain ⟨y, hy, hxy⟩ : ∃ y, w'.surfaces i = some y ∧ depth y = depth x := by simpa [hx] using h
    simp only [depth, Prod.mk.injEq] at hxy
    simp [hy, hxy]

/-- Surfaces may leave the stack, or leave it to be cursors. -/
theorem Sorted.shrink (h : w.Sorted K) (hl : w'.surfaceList.Sublist w.surfaceList)
    (hm : ∀ i, (w'.surfaces i).isSome → i ∈ w'.surfaceList) (hn : w.nextId ≤ w'.nextId)
    (hs : ∀ i, w'.Steady K i → w.Steady K i ∧ w'.distanceOf i = w.distanceOf i) :
    w'.Sorted K where
  nodup := h.nodup.sublist hl
  mem := hm
  lt := fun i hi => Nat.lt_of_lt_of_le (h.lt i (hl.subset hi)) hn
  spaced := (h.spaced.sublist hl).imp fun hij hi hj => by
    obtain ⟨hi, hdi⟩ := hs _ hi
    obtain ⟨hj, hdj⟩ := hs _ hj
    rw [hdi, hdj]
    exact hij hi hj

/-- Nothing happens to the stack. -/
theorem Sorted.same (h : w.Sorted K) (hl : w'.surfaceList = w.surfaceList)
    (hs : w'.surfaces.mapAll depth = w.surfaces.mapAll depth) (hn : w.nextId ≤ w'.nextId) :
    w'.Sorted K := by
  refine h.shrink (hl ▸ .refl _) (fun i hi => ?_) hn fun i hi => ?_
  · rw [Arena.isSome_of_mapAll hs i] at hi
    exact hl ▸ h.mem i hi
  · obtain ⟨h1, h2⟩ := layered_of_depth (congrFun hs i)
    exact ⟨⟨hi.1, h1 ▸ hi.2⟩, h2⟩

theorem Sorted.mono (h : w.Sorted K) (hK : ∀ i, K i → K' i) : w.Sorted K' where
  nodup := h.nodup
  mem := h.mem
  lt := h.lt
  spaced := h.spaced.imp fun hij hi hj => hij ⟨mt (hK _) hi.1, hi.2⟩ ⟨mt (hK _) hj.1, hj.2⟩

theorem isSome_reorderSurfaces (w : World) (i : ℕ) :
    (w.reorderSurfaces.surfaces i).isSome = (w.surfaces i).isSome := by
  obtain ⟨S, h1, h2⟩ := w.reorderSurfaces_eq
  rw [h1]
  exact Arena.isSome_of_mapAll h2 i

/-- A reordering sorts any list of the live surfaces. -/
theorem reorderSurfaces_sorted (hd : w.surfaceList.Nodup)
    (hm : ∀ i, (w.surfaces i).isSome → i ∈ w.surfaceList)
    (hlt : ∀ i ∈ w.surfaceList, i < w.nextId) : w.reorderSurfaces.Sorted K where
  nodup := by
    rw [surfaceList_reorderSurfaces]
    exact hd.filter _
  mem := fun i hi => by
    rw [isSome_reorderSurfaces] at hi
    rw [surfaceList_reorderSurfaces]
    exact List.mem_filter.mpr ⟨hm i hi, hi⟩
  lt := fun i hi => by
    rw [surfaceList_reorderSurfaces] at hi
    obtain ⟨S, h1, -⟩ := w.reorderSurfaces_eq
    rw [h1]
    exact hlt i (List.mem_filter.mp hi).1
  spaced := (reorderSurfaces_pairwise hd).imp fun hij hi hj =>
    hij (w.layered_reorderSurfaces _ ▸ hi.2) (w.layered_reorderSurfaces _ ▸ hj.2)

/-- A live surface is found in the list. -/
theorem Sorted.getSurfaceFromResource (h : w.Sorted K) {i : ℕ} (hi : (w.surfaces i).isSome) :
    w.getSurfaceFromResource i = some i := by
  rcases w.getSurfaceFromResource_eq i with h1 | h1
  · have h2 := List.find?_eq_none.mp h1 i (h.mem i hi)
    simp [hi] at h2
  · exact h1.1

/-- The list with one surface moved to the front. -/
def toFront (w : World) (i : ℕ) : World := { w with surfaceList := Stack.raise i w.surfaceList }

theorem raiseSurfaceTop_cases (w : World) (i : ℕ) :
    w.raiseSurfaceTop i = w ∨
      i ∈ w.surfaceList ∧ w.raiseSurfaceTop i = (w.toFront i).reorderSurfaces := by
  unfold raiseSurfaceTop
  rcases w.getSurfaceFromResource_eq i with h1 | ⟨h1, h2, -⟩
  · rw [h1]
    exact .inl rfl
  · rw [h1]
    exact .inr ⟨h2, rfl⟩

theorem Sorted.raiseSurfaceTop (h : w.Sorted K) (i : ℕ) : (w.raiseSurfaceTop i).Sorted K := by
  rcases w.raiseSurfaceTop_cases i with h1 | ⟨hi, h1⟩
  · rw [h1]
    exact h
  · rw [h1]
    refine reorderSurfaces_sorted (Stack.raise_nodup h.nodup)
      (fun j hj => Stack.mem_raise (h.mem j hj)) fun j hj => ?_
    rcases List.mem_cons.mp hj with rfl | hj
    · exact h.lt _ hi
    · exact h.lt j (List.mem_of_mem_erase hj)

/-- A live surface that is raised comes first, and the others keep their order. -/
theorem Sorted.surfaceList_raiseSurfaceTop (h : w.Sorted K) {i : ℕ}
    (hi : (w.surfaces i).isSome) :
    (w.raiseSurfaceTop i).surfaceList =
      Stack.raise i (w.surfaceList.filter fun j => (w.surfaces j).isSome) := by
  have h1 : w.raiseSurfaceTop i = (w.toFront i).reorderSurfaces := by
    unfold World.raiseSurfaceTop
    rw [h.getSurfaceFromResource hi]
    rfl
  rw [h1, surfaceList_reorderSurfaces]
  simp only [toFront, Stack.raise, List.filter_cons, hi, if_true]
  rw [h.nodup.erase_eq_filter, (h.nodup.filter _).erase_eq_filter, List.filter_filter,
    List.filter_filter]
  exact congrArg _ (List.filter_congr fun j _ => Bool.and_comm ..)

theorem Sorted.raiseSurfaceTop_front (h : w.Sorted K) {i : ℕ} (hi : (w.surfaces i).isSome) :
    (w.raiseSurfaceTop i).Front := by
  unfold World.raiseSurfaceTop
  rw [h.getSurfaceFromResource hi]
  exact reorderSurfaces_front (Stack.raise_nodup h.nodup)

theorem depth_of_core {S S' : Arena Surface} (h : S'.mapAll Surface.core = S.mapAll Surface.core) :
    S'.mapAll depth = S.mapAll depth := by
  have h1 := congrArg (fun A => A.mapAll fun c => (c.2.2.1, c.2.2.2.2.1)) h
  simp only [Arena.mapAll_mapAll] at h1
  exact h1

theorem Sorted.of_desk (h : w.Sorted K) (hd : w'.desk = w.desk) (hn : w.nextId ≤ w'.nextId) :
    w'.Sorted K := by
  simp only [desk, Prod.mk.injEq] at hd
  exact h.same hd.2.1 (depth_of_core hd.1) hn

/-- A surface that becomes a cursor leaves no trace in the order of the others. -/
theorem Sorted.cursor (h : w.Sorted K) (i : ℕ) :
    (w.modifySurface i fun x => x.setRole .cursor none).Sorted K := by
  refine h.shrink (.refl _) (fun j hj => ?_) (Nat.le_refl _) fun j hj => ?_
  · exact h.mem j (by simpa [modifySurface] using hj)
  · by_cases hji : j = i
    · subst hji
      obtain ⟨-, hj⟩ := hj
      cases hx : w.surfaces j <;> simp [layered, modifySurface, hx, Surface.setRole] at hj
    · simpa [Steady, layered, distanceOf, modifySurface, hji] using hj

theorem Change.sorted {k : Bool} (h : Change k w w') (hw : w.Sorted K) : w'.Sorted K := by
  cases h with
  | other hd _ hg => exact hw.of_desk hd hg.nextId
  | focus _ hd hg => exact hw.of_desk hd hg.nextId
  | expire =>
    refine hw.shrink List.filter_sublist (fun i hi => ?_) (Nat.le_refl _) fun i hi => ⟨hi, rfl⟩
    exact List.mem_filter.mpr ⟨hw.mem i hi, hi⟩
  | raise i => exact hw.raiseSurfaceTop i
  | offer d s =>
    rcases createOffer_cases w d s with h1 | ⟨r, x, -, -, h1⟩
    · rw [h1]
      exact hw.same rfl rfl (Nat.le_refl _)
    · rw [h1]
      exact hw.same rfl rfl (Nat.le_succ _)
  | cursor i => exact hw.cursor i

theorem Changes.sorted {k : Bool} (h : Changes k w w') (hw : w.Sorted K) : w'.Sorted K := by
  induction h with
  | refl => exact hw
  | tail _ hc ih => exact hc.sorted ih

/-- A new surface is added in front of a sorted stack. -/
theorem Sorted.added (h : w.Sorted K) (x : Surface) (client : ℕ) :
    ({ w.newResource client .surface with
        surfaces := w.surfaces.set w.nextId x
        surfaceList := w.nextId :: w.surfaceList }).surfaceList.Nodup ∧
      (∀ i, ((w.surfaces.set w.nextId x) i).isSome → i ∈ w.nextId :: w.surfaceList) ∧
      ∀ i ∈ w.nextId :: w.surfaceList, i < w.nextId + 1 := by
  refine ⟨List.nodup_cons.mpr ⟨fun hn => Nat.lt_irrefl _ (h.lt _ hn), h.nodup⟩, fun i hi => ?_,
    fun i hi => ?_⟩
  · by_cases hin : i = w.nextId
    · exact hin ▸ List.mem_cons_self
    · rw [Arena.set_of_ne _ _ hin] at hi
      exact List.mem_cons_of_mem _ (h.mem i hi)
  · rcases List.mem_cons.mp hi with rfl | hi
    · omega
    · exact Nat.lt_succ_of_lt (h.lt i hi)

theorem Sorted.createSurface (h : w.Sorted K) (client : ℕ) (texSize : ℕ × ℕ) :
    (w.createSurface client texSize).Sorted K := by
  obtain ⟨h1, h2, h3⟩ := h.added (w.newSurface texSize) client
  exact reorderSurfaces_sorted h1 h2 h3

theorem Sorted.createSurface_front (h : w.Sorted K) (client : ℕ) (texSize : ℕ × ℕ) :
    (w.createSurface client texSize).Front :=
  reorderSurfaces_front (h.added (w.newSurface texSize) client).1

/-- A toplevel that takes the place of a cursor is left out. -/
theorem Sorted.createToplevel (h : w.Sorted K)
    (hc : ∀ i x, w.surfaces i = some x → x.role = .cursor → K i) (client j : ℕ) :
    (w.createToplevel client j).Sorted K := by
  unfold World.createToplevel
  split
  · exact h.same rfl rfl (Nat.le_refl _)
  · next y _ =>
    refine h.shrink (.refl _) (fun i hi => ?_) (Nat.le_succ _) fun i hi => ?_
    · exact h.mem i (by simpa using hi)
    · by_cases hiy : i = y.wlSurface
      · obtain ⟨hK, hl⟩ := hi
        cases hx : w.surfaces i with
        | none => simp [layered, hiy ▸ hx, hiy] at hl
        | some x =>
          have hr : x.role ≠ .cursor := fun hr => hK (hc i x hx hr)
          have hl : w.layered i = true := by simp [layered, hx, hr]
          refine ⟨⟨hK, hl⟩, ?_⟩
          simp [distanceOf, ← hiy, hx, Surface.setRole]
      · simpa [Steady, layered, distanceOf, hiy] using hi

theorem Sorted.commitSurface (h : w.Sorted K) (i : ℕ) : (w.commitSurface i).Sorted K := by
  obtain ⟨hl, -, -, -, -, -, hn, -⟩ := w.commitSurface_rest i
  refine h.same hl ?_ hn.ge
  have hd {x y : Surface} (h : x.fixed = y.fixed) : depth x = depth y := by
    simp only [Surface.fixed, Prod.mk.injEq] at h
    simp [depth, h]
  exact commitSurface_mapAll (fun x => hd x.commitOffset_fixed)
    (fun x b => hd (x.commitBuffer_fixed b))
    (fun x => hd x.commitFrames_fixed) w i

theorem direct_sorted (h : w.Sorted K)
    (hc : ∀ i x, w.surfaces i = some x → x.role = .cursor → K i) (client : ℕ) (r : DeskRequest) :
    (w.direct client r).Sorted K := by
  cases r with
  | createSurface texSize => exact h.createSurface client texSize
  | attach s b d => exact h.same rfl (Arena.mapAll_modify fun x => rfl) (Nat.le_refl _)
  | commit s => exact h.commitSurface s
  | getToplevel j => exact h.createToplevel hc client j
  | setSelection d s =>
    cases s <;> exact h.same rfl rfl (Nat.le_refl _)
  | createWlBuffer b => exact h.same rfl rfl (Nat.le_succ _)
  | getXdgSurface s => exact h.same rfl rfl (Nat.le_succ _)
  | createDataSource => exact h.same rfl rfl (Nat.le_succ _)
  | getDataDevice => exact h.same rfl rfl (Nat.le_succ _)
  | _ => exact h

/-- A destroyed surface leaves a gap, and everything else stays as it is. -/
theorem destroyResource_sorted (h : w.Sorted K) (i : ℕ) : (w.destroyResource i).Sorted K := by
  unfold destroyResource
  split
  · exact h
  · next r _ =>
    cases r.interface with
    | surface =>
      refine h.shrink (.refl _) (fun j hj => ?_) (Nat.le_refl _) fun j hj => ?_
      · refine h.mem j ?_
        by_cases hji : j = i
        · simp [deleteObject, hji] at hj
        · simpa [deleteObject, hji] using hj
      · by_cases hji : j = i
        · simp [Steady, layered, deleteObject, hji] at hj
        · simpa [Steady, layered, distanceOf, deleteObject, hji] using hj
    | _ => exact h.same rfl rfl (Nat.le_refl _)

theorem directly_sorted (h : w.Sorted K)
    (hc : ∀ i x, w.surfaces i = some x → x.role = .cursor → K i) (a : Action) :
    (w.directly a).Sorted K := by
  cases a with
  | desk client r =>
    simp only [directly]
    split
    · exact direct_sorted h hc client r
    · exact h
  | destroy client i =>
    simp only [directly]
    split
    · exact destroyResource_sorted h i
    · exact h
  | _ => exact h

theorem step_sorted (h : w.Sorted K)
    (hc : ∀ i x, w.surfaces i = some x → x.role = .cursor → K i) (a : Action) :
    (w.step a).Sorted K :=
  step_keeps (fun _ _ hw h => hw.sorted h) (directly_sorted h hc a) h

end Sorted

/-- The surface has had the role of a cursor in the run. -/
def HadCursor (as : List Action) (i : ℕ) : Prop :=
  ∃ pre, pre <+: as ∧ ∃ x, (run pre).surfaces i = some x ∧ x.role = .cursor

theorem HadCursor.concat {as : List Action} {i : ℕ} (h : HadCursor as i) (a : Action) :
    HadCursor (as ++ [a]) i := by
  obtain ⟨pre, hp, hx⟩ := h
  exact ⟨pre, hp.trans (List.prefix_append ..), hx⟩

theorem run_sorted (as : List Action) : (run as).Sorted (HadCursor as) := by
  induction as using List.reverseRecOn with
  | nil =>
    refine ⟨.nil, fun i hi => ?_, fun i hi => ?_, .nil⟩
    · cases hi
    · cases hi
  | append_singleton as a ih =>
    have h := step_sorted (ih.mono fun i hi => hi.concat a)
      (fun i x hx hr => HadCursor.concat ⟨as, List.prefix_rfl, x, hx, hr⟩ a) a
    rw [run, Run.final_concat]
    exact h

/-- The program passes this state after the run, or in the last step of it. -/
def Passes (as : List Action) (w : World) : Prop :=
  w = run as ∨ ∃ pre a, as = pre ++ [a] ∧ Changes true ((run pre).directly a) w

theorem Passes.sorted {as : List Action} {w : World} (h : Passes as w) :
    w.Sorted (HadCursor as) := by
  rcases h with rfl | ⟨pre, a, rfl, hc⟩
  · exact run_sorted as
  · refine hc.sorted (directly_sorted ((run_sorted pre).mono fun i hi => hi.concat a) ?_ a)
    exact fun i x hx hr => HadCursor.concat ⟨pre, List.prefix_rfl, x, hx, hr⟩ a

/-- What the stack of surfaces is to be, when the surfaces in `K` have been cursors. -/
structure Stacked (K : ℕ → Prop) (w : World) : Prop where
  once : ∀ i, (w.surfaces i).isSome → w.surfaceList.count i = 1
  raise : ∀ i, (w.surfaces i).isSome → (w.raiseSurfaceTop i).surfaceList =
    i :: (w.surfaceList.filter fun j => (w.surfaces j).isSome).erase i
  spaced : w.surfaceList.Pairwise fun i j =>
    w.Steady K i → w.Steady K j → w.distanceOf i < w.distanceOf j
  frontRaised : ∀ i, (w.surfaces i).isSome → (w.raiseSurfaceTop i).Front
  frontAdded : ∀ client texSize, (w.createSurface client texSize).Front

/-- The stack is in order in every state a run passes. -/
theorem stacked_throughout (as : List Action) (w : World) (h : Passes as w) :
    w.Stacked (HadCursor as) where
  once := fun i hi => List.count_eq_one_of_mem h.sorted.nodup (h.sorted.mem i hi)
  raise := fun _ hi => h.sorted.surfaceList_raiseSurfaceTop hi
  spaced := h.sorted.spaced
  frontRaised := fun _ hi => h.sorted.raiseSurfaceTop_front hi
  frontAdded := h.sorted.createSurface_front

/-- Two toplevels of one client. -/
def twoToplevels : List Action :=
  [.desk 0 (.createSurface (0, 0)), .desk 0 (.getXdgSurface 0), .desk 0 (.getToplevel 1),
    .desk 0 (.createSurface (0, 0)), .desk 0 (.getXdgSurface 3), .desk 0 (.getToplevel 4)]

theorem stacked_throughout_twoToplevels :
    (run twoToplevels).surfaceList = [3, 0] ∧ (run twoToplevels).Stacked (HadCursor twoToplevels) :=
  ⟨rfl, stacked_throughout twoToplevels (run twoToplevels) (.inl rfl)⟩

end World
end Yaza
