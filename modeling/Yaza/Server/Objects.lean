import Yaza.Server.Changes

/-! The addresses of the objects of the Wayland clients: every live object has a resource of its
interface, in every state that is reached. -/
namespace Yaza
namespace World

/-- The object of this interface at the address is alive. -/
def holds (w : World) : DeskInterface → ℕ → Bool
  | .wlBuffer, i => (w.wlBuffers i).isSome
  | .surface, i => (w.surfaces i).isSome
  | .xdgSurface, i => (w.xdgSurfaces i).isSome
  | .xdgToplevel, i => (w.toplevels i).isSome
  | .dataDevice, i => (w.dataDevices i).isSome
  | .dataSource, i => (w.dataSources i).isSome
  | .dataOffer, i => (w.dataOffers i).isSome
  | .seat, _ | .pointer, _ | .keyboard, _ | .ray, _ => false

/-- Objects and resources agree. -/
structure Typed (w : World) : Prop where
  fresh : w.Fresh
  resource : ∀ k i, w.holds k i = true → ∃ c, w.resources i = some ⟨c, k⟩
  object : ∀ i c k, w.resources i = some ⟨c, k⟩ → k.isBare = false → w.holds k i = true

section Typed
variable {w w' : World}

theorem Typed.lt (h : w.Typed) {k : DeskInterface} {i : ℕ} (hi : w.holds k i = true) :
    i < w.nextId := by
  obtain ⟨c, hc⟩ := h.resource k i hi
  exact h.fresh.lt hc

/-- An address that was not used yet holds nothing. -/
theorem Typed.unused (h : w.Typed) (k : DeskInterface) : w.holds k w.nextId = false := by
  cases hk : w.holds k w.nextId with
  | false => rfl
  | true => exact absurd (h.lt hk) (Nat.lt_irrefl _)

/-- An address is that of one object. -/
theorem Typed.unique (h : w.Typed) {k k' : DeskInterface} {i : ℕ} (hk : w.holds k i = true)
    (hk' : w.holds k' i = true) : k = k' := by
  obtain ⟨c, hc⟩ := h.resource k i hk
  obtain ⟨c', hc'⟩ := h.resource k' i hk'
  simp only [hc, Option.some.injEq, DeskResource.mk.injEq] at hc'
  exact hc'.2

/-- The same objects are alive, and the used addresses keep their resources. -/
theorem Typed.grow (h : w.Typed) (hg : Grows w w') (hh : ∀ k i, w'.holds k i = w.holds k i) :
    w'.Typed where
  fresh := hg.fresh h.fresh
  resource := fun k i hi => by
    rw [hh] at hi
    rw [hg.resources i (h.lt hi)]
    exact h.resource k i hi
  object := fun i c k hi hk => by
    rcases hg.bare i _ hi with h1 | h1
    · rw [hh]
      exact h.object i c k h1 hk
    · simp [h1] at hk

/-- Only the object at the next address comes to life. -/
theorem Typed.create (h : w.Typed) {c : ℕ} {k : DeskInterface} (hn : w'.nextId = w.nextId + 1)
    (hr : w'.resources = w.resources.set w.nextId ⟨c, k⟩)
    (hk : w'.holds k w.nextId = true)
    (hh : ∀ k' i, k' ≠ k ∨ i ≠ w.nextId → w'.holds k' i = w.holds k' i) : w'.Typed where
  fresh := fun i hi => by
    rw [hr]
    exact h.fresh.set_eq_none _ (hn ▸ hi)
  resource := fun k' i hi => by
    by_cases hki : k' ≠ k ∨ i ≠ w.nextId
    · rw [hh k' i hki] at hi
      rw [hr, Arena.set_of_ne _ _ (Nat.ne_of_lt (h.lt hi))]
      exact h.resource k' i hi
    · obtain ⟨rfl, rfl⟩ := not_or.mp hki |>.imp not_not.mp not_not.mp
      exact ⟨c, by simp [hr]⟩
  object := fun i c' k' hi hb => by
    rw [hr, Arena.set_apply] at hi
    split at hi
    · next hin =>
      cases hi
      rw [hin]
      exact hk
    · next hin =>
      rw [hh k' i (.inr hin)]
      exact h.object i c' k' hi hb

end Typed

/-- A reordering changes distances only. -/
theorem reorderSurface_eq (acc : World × ℕ) (i : ℕ) :
    ∃ S, (reorderSurface acc i).1 = { acc.1 with surfaces := S } ∧
      S.mapAll Surface.shape = acc.1.surfaces.mapAll Surface.shape := by
  unfold reorderSurface
  split
  · exact ⟨_, rfl, rfl⟩
  · next y hy =>
    obtain ⟨x, hx, hxy⟩ := Option.bind_eq_some_iff.mp hy
    exact ⟨_, rfl, Arena.mapAll_set hx (Surface.updateDistance_shape hxy)⟩

theorem reorderFold_eq (l : List ℕ) (acc : World × ℕ) :
    ∃ S, (l.foldl reorderSurface acc).1 = { acc.1 with surfaces := S } ∧
      S.mapAll Surface.shape = acc.1.surfaces.mapAll Surface.shape := by
  induction l generalizing acc with
  | nil => exact ⟨_, rfl, rfl⟩
  | cons i l ih =>
    obtain ⟨S, h1, h2⟩ := reorderSurface_eq acc i
    obtain ⟨S', h3, h4⟩ := ih (reorderSurface acc i)
    refine ⟨S', ?_, ?_⟩
    · rw [List.foldl_cons, h3, h1]
    · rw [h4, h1]
      exact h2

theorem reorderSurfaces_eq (w : World) :
    ∃ S, w.reorderSurfaces = { w.dropExpiredSurfaces with surfaces := S } ∧
      S.mapAll Surface.shape = w.surfaces.mapAll Surface.shape :=
  reorderFold_eq w.dropExpiredSurfaces.surfaceList (w.dropExpiredSurfaces, 0)

theorem raiseSurfaceTop_eq (w : World) (i : ℕ) :
    ∃ l S, w.raiseSurfaceTop i = { w with surfaceList := l, surfaces := S } ∧
      S.mapAll Surface.shape = w.surfaces.mapAll Surface.shape := by
  unfold raiseSurfaceTop
  split
  · exact ⟨_, _, rfl, rfl⟩
  · next j _ =>
    obtain ⟨S, h1, h2⟩ := reorderSurfaces_eq { w with surfaceList := j :: w.surfaceList.erase j }
    exact ⟨_, S, h1, h2⟩

/-- A surface is found by its resource while it is alive and in the list. -/
theorem getSurfaceFromResource_eq (w : World) (i : ℕ) :
    w.getSurfaceFromResource i = none ∨
      w.getSurfaceFromResource i = some i ∧ i ∈ w.surfaceList ∧ (w.surfaces i).isSome := by
  unfold getSurfaceFromResource
  cases h : w.surfaceList.find? fun j => (w.surfaces j).isSome && decide (j = i) with
  | none => exact .inl rfl
  | some j =>
    have hj := List.find?_some h
    simp only [Bool.and_eq_true, decide_eq_true_eq] at hj
    obtain ⟨hlive, rfl⟩ := hj
    exact .inr ⟨rfl, List.mem_of_find?_eq_some h, hlive⟩

theorem newSurface_core (w : World) (texSize : ℕ × ℕ) :
    (w.newSurface texSize).core = (none, none, .default, none, minDistance, texSize) := by
  unfold newSurface
  split
  · rfl
  · exact Surface.initRenderer_core _ _

/-- A new surface comes to the front. -/
theorem createSurface_eq (w : World) (client : ℕ) (texSize : ℕ × ℕ) :
    ∃ l S, w.createSurface client texSize =
        { w.newResource client .surface with surfaceList := l, surfaces := S } ∧
      S.mapAll Surface.shape =
        (w.surfaces.mapAll Surface.shape).set w.nextId (none, none, .default, none, texSize) := by
  obtain ⟨S, h1, h2⟩ := reorderSurfaces_eq { w.newResource client .surface with
    surfaces := w.surfaces.set w.nextId (w.newSurface texSize)
    surfaceList := w.nextId :: w.surfaceList }
  have hc := w.newSurface_core texSize
  simp only [Surface.core, Prod.mk.injEq] at hc
  refine ⟨_, S, h1, h2.trans ?_⟩
  simp only [Arena.mapAll_set_apply, Surface.shape, hc]

/-- A commit changes its surface, and what the configured `xdg_surface`s remember. -/
theorem commitSurface_rest (w : World) (i : ℕ) :
    (w.commitSurface i).surfaceList = w.surfaceList ∧ (w.commitSurface i).toplevels = w.toplevels ∧
      (w.commitSurface i).seat = w.seat ∧ (w.commitSurface i).dataDevices = w.dataDevices ∧
      (w.commitSurface i).dataSources = w.dataSources ∧
      (w.commitSurface i).dataOffers = w.dataOffers ∧ (w.commitSurface i).nextId = w.nextId ∧
      (w.commitSurface i).resources = w.resources ∧ (w.commitSurface i).wlBuffers = w.wlBuffers ∧
      ∀ j, ((w.commitSurface i).xdgSurfaces j).isSome = (w.xdgSurfaces j).isSome := by
  unfold commitSurface andThen commitBuffer
  repeat' split
  all_goals simp [notifyXdg, modifySurface, crash, emit]

/-- A part of a surface that no stage of a commit changes. -/
theorem commitSurface_mapAll {β : Type*} {g : Surface → β} (h1 : ∀ x, g x.commitOffset = g x)
    (h2 : ∀ x b, g (x.commitBuffer b) = g x) (h3 : ∀ x, g x.tellTexture.commitFrames = g x)
    (w : World) (i : ℕ) : (w.commitSurface i).surfaces.mapAll g = w.surfaces.mapAll g := by
  have hb (x : Surface) : (w.commitBuffer i x).surfaces.mapAll g = w.surfaces.mapAll g := by
    unfold commitBuffer
    split
    · exact Arena.mapAll_modify h1
    · split
      · exact Arena.mapAll_modify h1
      · exact Arena.mapAll_modify fun x => (h2 _ _).trans (h1 x)
  unfold commitSurface
  split
  · rfl
  · next x _ =>
    unfold andThen
    split
    · exact hb x
    · exact (Arena.mapAll_modify h3).trans (hb x)

theorem createOffer_cases (w : World) (device source : ℕ) :
    w.createOffer device source = w.crash .useAfterFree ∨
      ∃ r x, w.resources device = some r ∧ w.dataSources source = some x ∧
        w.createOffer device source =
          { w with
            nextId := w.nextId + 1
            resources := w.resources.set w.nextId { client := r.client, interface := .dataOffer }
            dataOffers := w.dataOffers.set w.nextId { dataSource := source }
            events := w.events ++
              [.dataOffer device w.nextId x.mimeTypes, .selection device (some w.nextId)] } := by
  unfold createOffer
  split
  · next r x hr hx => exact .inr ⟨r, x, hr, hx, rfl⟩
  · exact .inl rfl

theorem holds_of_desk {w w' : World} (hd : w'.desk = w.desk) (k : DeskInterface) (i : ℕ) :
    w'.holds k i = w.holds k i := by
  simp only [desk, Prod.mk.injEq] at hd
  obtain ⟨hs, -, hx, ht, hb, hdd, hds, ho, -⟩ := hd
  cases k with
  | surface => exact Arena.isSome_of_mapAll hs i
  | dataSource => exact Arena.isSome_of_mapAll hds i
  | _ => simp only [holds, hx, ht, hb, hdd, ho]

theorem modifySurface_typed {w : World} (h : w.Typed) (i : ℕ) (f : Surface → Surface) :
    (w.modifySurface i f).Typed := by
  refine h.grow (.same rfl rfl) fun k j => ?_
  cases k <;> first | rfl | simp [World.holds, modifySurface]

/-- Only an offer comes to life, at the next address. -/
theorem Change.typed {b : Bool} {w w' : World} (h : Change b w w') (ht : w.Typed) : w'.Typed := by
  cases h with
  | other hd _ hg => exact ht.grow hg fun k i => holds_of_desk hd k i
  | focus _ hd hg => exact ht.grow hg fun k i => holds_of_desk hd k i
  | expire => exact ht.grow (.same rfl rfl) fun k i => by cases k <;> rfl
  | raise i =>
    obtain ⟨l, S, h1, h2⟩ := raiseSurfaceTop_eq w i
    rw [h1]
    refine ht.grow (.same rfl rfl) fun k j => ?_
    cases k <;> first | rfl | exact Arena.isSome_of_mapAll h2 j
  | offer d s =>
    rcases createOffer_cases w d s with h1 | ⟨r, x, -, -, h1⟩
    · rw [h1]
      exact ht.grow (.same rfl rfl) fun k i => by cases k <;> rfl
    · rw [h1]
      refine ht.create (c := r.client) (k := .dataOffer) rfl rfl (by simp [World.holds])
        fun k i hi => ?_
      cases k <;> first | rfl | simp_all [World.holds]
  | cursor i => exact modifySurface_typed ht i _

/-- A destroyed object is gone, and the others stay. -/
theorem Typed.holds_destroy {w : World} (h : w.Typed) (i : ℕ) (k : DeskInterface) (j : ℕ) :
    (w.destroyResource i).holds k j = (w.holds k j && decide (j ≠ i)) := by
  by_cases hji : j = i
  · subst hji
    have hk (k : DeskInterface) (hr : w.resources j = none) : w.holds k j = false := by
      cases hk : w.holds k j with
      | false => rfl
      | true =>
        obtain ⟨c, hc⟩ := h.resource k j hk
        simp [hr] at hc
    unfold destroyResource
    cases hr : w.resources j with
    | none => simp [hk k hr]
    | some r =>
      obtain ⟨c, k'⟩ := r
      have hk' : k ≠ k' → w.holds k j = false := fun hne => by
        cases hkj : w.holds k j with
        | false => rfl
        | true =>
          obtain ⟨d, hd⟩ := h.resource k j hkj
          simp only [hr, Option.some.injEq, DeskResource.mk.injEq] at hd
          exact absurd hd.2.symm hne
      cases k' <;> cases k <;> simp_all [deleteObject, World.holds]
  · simp only [destroyResource, hji, ne_eq, not_false_eq_true, decide_true, Bool.and_true]
    split
    · rfl
    · next r _ =>
      cases r.interface <;> cases k <;> first | rfl | simp [deleteObject, World.holds, hji]

theorem Typed.destroyed {w : World} (h : w.Typed) (i : ℕ) {k : DeskInterface} {j : ℕ}
    (hj : (w.destroyResource i).holds k j = true) : w.holds k j = true ∧ j ≠ i := by
  simpa [h.holds_destroy i] using hj

theorem destroyResource_typed {w : World} (h : w.Typed) (i : ℕ) : (w.destroyResource i).Typed := by
  have hr : (w.destroyResource i).nextId = w.nextId ∧
      (w.destroyResource i).resources = w.resources.erase i := by
    unfold destroyResource
    split
    · next hn => exact ⟨rfl, (Arena.erase_of_none hn).symm⟩
    · next r _ => cases r.interface <;> exact ⟨rfl, rfl⟩
  refine ⟨fun j hj => ?_, fun k j hj => ?_, fun j c k hj hb => ?_⟩
  · rw [hr.1] at hj
    rw [hr.2, Arena.erase_apply]
    split
    · rfl
    · exact h.fresh j hj
  · rw [h.holds_destroy i] at hj
    simp only [Bool.and_eq_true, decide_eq_true_eq] at hj
    rw [hr.2, Arena.erase_of_ne _ hj.2]
    exact h.resource k j hj.1
  · rw [hr.2, Arena.erase_apply] at hj
    split at hj
    · cases hj
    · next hji => simp [h.holds_destroy i, h.object j c k hj hb, hji]

theorem commitSurface_typed {w : World} (h : w.Typed) (i : ℕ) : (w.commitSurface i).Typed := by
  obtain ⟨-, ht, -, hd, hs, ho, hn, hr, hb, hx⟩ := w.commitSurface_rest i
  refine h.grow (.same hn hr) fun k j => ?_
  have hl := Arena.isSome_of_mapAll (commitSurface_mapAll (g := fun _ => ()) (fun _ => rfl)
    (fun _ _ => rfl) (fun _ => rfl) w i) j
  cases k <;> simp [World.holds, ht, hd, hs, ho, hb, hx, hl]

/-- A request is handled only when its client has the objects it names. -/
theorem admits_object {w : World} {client : ℕ} {r : DeskRequest} (h : w.admits client r = true)
    {i : ℕ} {k : DeskInterface} (hi : (i, k) ∈ r.objects) :
    w.resources i = some ⟨client, k⟩ := by
  simp only [admits, Bool.and_eq_true, List.all_eq_true] at h
  obtain ⟨⟨c, k'⟩, hr, hx⟩ := Option.any_eq_true _ _ |>.mp (h.2 _ hi)
  simp only [Bool.and_eq_true, decide_eq_true_eq] at hx
  obtain ⟨rfl, rfl⟩ := hx
  exact hr

theorem direct_typed {w : World} (h : w.Typed) (client : ℕ) (r : DeskRequest) :
    (w.direct client r).Typed := by
  cases r with
  | createWlBuffer b =>
    refine h.create (c := client) (k := .wlBuffer) rfl rfl
      (congrArg Option.isSome (Arena.set_self ..))
      fun k j hj => ?_
    cases k <;>
      first | rfl | exact congrArg Option.isSome (Arena.set_of_ne _ _ (by simpa using hj))
  | createSurface texSize =>
    obtain ⟨l, S, h1, h2⟩ := w.createSurface_eq client texSize
    simp only [direct, handle, h1]
    have hS : (S w.nextId).isSome = true := by
      simpa using congrArg Option.isSome (congrFun h2 w.nextId)
    refine h.create (c := client) (k := .surface) rfl rfl hS fun k j hj => ?_
    cases k <;> try rfl
    have hS := congrArg Option.isSome (congrFun h2 j)
    rw [Arena.set_of_ne _ _ (by simpa using hj)] at hS
    simpa [World.holds] using hS
  | attach s b d => exact modifySurface_typed h s _
  | commit s => exact commitSurface_typed h s
  | getXdgSurface s =>
    refine h.create (c := client) (k := .xdgSurface) rfl rfl
      (congrArg Option.isSome (Arena.set_self ..))
      fun k j hj => ?_
    cases k <;>
      first | rfl | exact congrArg Option.isSome (Arena.set_of_ne _ _ (by simpa using hj))
  | getToplevel x =>
    simp only [direct, handle, createToplevel]
    split
    · exact h.grow (.same rfl rfl) fun k j => by cases k <;> rfl
    · next y _ =>
      refine h.create (c := client) (k := .xdgToplevel) rfl rfl
        (congrArg Option.isSome (Arena.set_self ..))
        fun k j hj => ?_
      cases k <;> try rfl
      · exact Arena.modify_isSome w.surfaces y.wlSurface j _
      · exact congrArg Option.isSome (Arena.set_of_ne w.toplevels _ (by simpa using hj))
  | createDataSource =>
    refine h.create (c := client) (k := .dataSource) rfl rfl
      (congrArg Option.isSome (Arena.set_self ..))
      fun k j hj => ?_
    cases k <;>
      first | rfl | exact congrArg Option.isSome (Arena.set_of_ne _ _ (by simpa using hj))
  | getDataDevice =>
    refine h.create (c := client) (k := .dataDevice) rfl rfl
      (congrArg Option.isSome (Arena.set_self ..))
      fun k j hj => ?_
    cases k <;>
      first | rfl | exact congrArg Option.isSome (Arena.set_of_ne _ _ (by simpa using hj))
  | setSelection d source =>
    simp only [direct, handle, setSelection]
    split
    · exact h.grow (.same rfl rfl) fun k j => by cases k <;> rfl
    · refine h.grow (.same rfl rfl) fun k j => ?_
      cases k <;> first | rfl | simp [World.holds]
  | _ => exact h

theorem directly_typed {w : World} (h : w.Typed) (a : Action) : (w.directly a).Typed := by
  cases a with
  | desk client r =>
    simp only [directly]
    split
    · exact direct_typed h client r
    · exact h
  | destroy client i =>
    simp only [directly]
    split
    · exact destroyResource_typed h i
    · exact h
  | _ => exact h

theorem step_typed {w : World} (h : w.Typed) (a : Action) : (w.step a).Typed :=
  step_keeps (fun _ _ hc hw => hc.typed hw) (directly_typed h a) h

theorem Change.nextId_le {b : Bool} {w w' : World} (h : Change b w w') : w.nextId ≤ w'.nextId := by
  cases h with
  | other _ _ hg => exact hg.nextId
  | focus _ _ hg => exact hg.nextId
  | raise i =>
    obtain ⟨l, S, h1, -⟩ := raiseSurfaceTop_eq w i
    rw [h1]
  | offer d s =>
    rcases createOffer_cases w d s with h1 | ⟨r, x, -, -, h1⟩ <;> rw [h1]
    · exact Nat.le_refl _
    · exact Nat.le_succ _
  | _ => exact Nat.le_refl _

theorem nextId_le_directly (w : World) (a : Action) : w.nextId ≤ (w.directly a).nextId := by
  cases a with
  | desk client r =>
    simp only [directly]
    split
    · cases r with
      | createSurface texSize =>
        obtain ⟨l, S, h1, -⟩ := w.createSurface_eq client texSize
        simp only [direct, handle, h1]
        exact Nat.le_succ _
      | commit s => exact (w.commitSurface_rest s).2.2.2.2.2.2.1.ge
      | getToplevel x =>
        simp only [direct, handle, createToplevel]
        split
        · exact Nat.le_refl _
        · exact Nat.le_succ _
      | setSelection d s => cases s <;> exact Nat.le_refl _
      | createWlBuffer _ | getXdgSurface _ | createDataSource | getDataDevice =>
        exact Nat.le_succ _
      | _ => exact Nat.le_refl _
    · exact Nat.le_refl _
  | destroy client i =>
    simp only [directly, destroyResource]
    split
    · split
      · exact Nat.le_refl _
      · next r _ => cases r.interface <;> exact Nat.le_refl _
    · exact Nat.le_refl _
  | _ => exact Nat.le_refl _

/-- Addresses are not used again. -/
theorem nextId_le_step (w : World) (a : Action) : w.nextId ≤ (w.step a).nextId :=
  step_keeps (P := fun u => w.nextId ≤ u.nextId) (fun _ _ hc hn => hn.trans hc.nextId_le)
    (nextId_le_directly w a) (Nat.le_refl _)

theorem init_typed : World.init.Typed where
  fresh := fun _ _ => rfl
  object := fun i c k hi _ => by simp [World.init] at hi
  resource := fun k i hi => by cases k <;> simp [World.holds, World.init] at hi

theorem run_typed (as : List Action) : (World.run as).Typed :=
  Run.final_induction init_typed (fun _ a h => step_typed h a) as

end World
end Yaza
