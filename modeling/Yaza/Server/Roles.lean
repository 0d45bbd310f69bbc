import Yaza.Server.Objects

/-! The raw pointers from a surface to its role object, and from that to its `xdg_surface`: in which
runs what `on_focus` and `on_unfocus` follow is always alive. -/
namespace Yaza
namespace World

/-- `role_obj_`, where `on_focus` and `on_unfocus` look it up. -/
def roleObj (w : World) (i : ℕ) : Option ℕ := (w.surfaces i).bind Surface.roleObj

/-- Whatever surface is focused or unfocused next, its role object is null, or a live toplevel whose
`xdg_surface` is alive. -/
def RolesLive (w : World) : Prop :=
  ∀ i t, w.roleObj i = some t → ∃ y, w.toplevels t = some y ∧ (w.xdgSurfaces y.xdgSurface).isSome

/-- No live surface has the object as its role object, nor as the `xdg_surface` of that. -/
def RoleFree (w : World) (j : ℕ) : Prop :=
  ∀ i t y, i ≠ j → w.roleObj i = some t → w.toplevels t = some y → t ≠ j ∧ y.xdgSurface ≠ j

/-- An `xdg_toplevel` or `xdg_surface` that is destroyed is not in use as a role. -/
def KeepsRoles (w : World) : Action → Prop
  | .destroy client j =>
    w.stopped = false → (w.resources j).any (fun r => r.client = client) = true → w.RoleFree j
  | _ => True

section Steps
variable {w w' : World}

theorem RolesLive.mono (h : w.RolesLive)
    (hs : ∀ i t, w'.roleObj i = some t → w.roleObj i = some t)
    (ht : ∀ t y, w.toplevels t = some y → w'.toplevels t = some y)
    (hx : ∀ j, (w.xdgSurfaces j).isSome → (w'.xdgSurfaces j).isSome) : w'.RolesLive := by
  intro i t hi
  obtain ⟨y, hy, hl⟩ := h i t (hs i t hi)
  exact ⟨y, ht t y hy, hx _ hl⟩

theorem roleObj_of_shape (h : w'.surfaces.mapAll Surface.shape = w.surfaces.mapAll Surface.shape)
    (i : ℕ) : w'.roleObj i = w.roleObj i := by
  have hi := congrFun h i
  unfold roleObj
  cases hx : w.surfaces i with
  | none => simp_all
  | some x =>
    obtain ⟨y, hy, hxy⟩ : ∃ y, w'.surfaces i = some y ∧ y.shape = x.shape := by simpa [hx] using hi
    simp only [Surface.shape, Prod.mk.injEq] at hxy
    simp [hy, hxy.2.2.2.1]

theorem shape_of_desk (h : w'.desk = w.desk) :
    w'.surfaces.mapAll Surface.shape = w.surfaces.mapAll Surface.shape := by
  simp only [desk, Prod.mk.injEq] at h
  have hs (S : Arena Surface) : S.mapAll Surface.shape =
      (S.mapAll Surface.core).mapAll fun c => (c.1, c.2.1, c.2.2.1, c.2.2.2.1, c.2.2.2.2.2) := by
    rw [Arena.mapAll_mapAll]
    rfl
  rw [hs, hs, h.1]

theorem RolesLive.of_desk (hw : w.RolesLive) (h : w'.desk = w.desk) : w'.RolesLive := by
  have hr := roleObj_of_shape (shape_of_desk h)
  simp only [desk, Prod.mk.injEq] at h
  obtain ⟨-, -, hx, ht, -⟩ := h
  exact hw.mono (fun i t hi => hr i ▸ hi) (fun t y hy => ht ▸ hy) fun j hj => hx ▸ hj

theorem roleObj_modify {i : ℕ} {f : Surface → Surface} (hf : ∀ x, (f x).roleObj = x.roleObj)
    (j : ℕ) : (w.modifySurface i f).roleObj j = w.roleObj j :=
  Arena.modify_bind_of_eq hf w.surfaces i j

/-- The seat takes role objects away, and does not touch the others. -/
theorem Change.roles {b : Bool} (h : Change b w w') (hw : w.RolesLive) : w'.RolesLive := by
  cases h with
  | other hd => exact hw.of_desk hd
  | focus _ hd => exact hw.of_desk hd
  | expire => exact hw
  | raise i =>
    obtain ⟨l, S, h1, h2⟩ := raiseSurfaceTop_eq w i
    rw [h1]
    exact hw.mono (fun i t hi => (roleObj_of_shape h2 i).symm.trans hi) (fun _ _ hy => hy)
      fun _ hj => hj
  | offer d s =>
    rcases createOffer_cases w d s with h1 | ⟨r, x, -, -, h1⟩ <;> rw [h1] <;> exact hw
  | cursor i =>
    refine hw.mono (fun j t hj => ?_) (fun _ _ hy => hy) fun _ hj => hj
    unfold roleObj modifySurface at hj
    by_cases hji : j = i
    · subst hji
      cases hx : w.surfaces j <;> simp [hx, Surface.setRole] at hj
    · simpa [roleObj, hji] using hj

theorem commitSurface_roles (hw : w.RolesLive) (i : ℕ) : (w.commitSurface i).RolesLive := by
  obtain ⟨-, ht, -, -, -, -, -, -, -, hx⟩ := w.commitSurface_rest i
  have hm := commitSurface_mapAll Surface.commitOffset_fixed Surface.commitBuffer_fixed
    Surface.commitFrames_fixed w i
  refine hw.mono (fun j t hj => ?_) (fun _ _ hy => ht ▸ hy) fun j hj => (hx j).trans hj
  obtain ⟨y, hy, hyt⟩ := Option.bind_eq_some_iff.mp hj
  obtain ⟨x, hxs, hxy⟩ := Arena.of_mapAll hm hy
  simp only [Surface.fixed, Prod.mk.injEq] at hxy
  simp [roleObj, hxs, hxy.2.1, hyt]

/-- A toplevel becomes the role object of the surface when its `xdg_surface` is alive. -/
theorem direct_roles (ht : w.Typed) (hw : w.RolesLive) (client : ℕ) (r : DeskRequest) :
    (w.direct client r).RolesLive := by
  cases r with
  | createSurface texSize =>
    obtain ⟨l, S, h1, h2⟩ := w.createSurface_eq client texSize
    simp only [direct, handle, h1]
    refine hw.mono (fun i t hi => ?_) (fun _ _ hy => hy) fun _ hj => hj
    have hi2 := congrFun h2 i
    by_cases hin : i = w.nextId
    · subst hin
      obtain ⟨x, hx, hxs⟩ : ∃ x, S w.nextId = some x ∧
          x.shape = (none, none, .default, none, texSize) := by simpa using hi2
      simp only [Surface.shape, Prod.mk.injEq] at hxs
      simp [roleObj, hx, hxs.2.2.2.1] at hi
    · rw [Arena.set_of_ne _ _ hin] at hi2
      obtain ⟨x, hx, hxt⟩ := Option.bind_eq_some_iff.mp hi
      obtain ⟨y, hy, hyx⟩ : ∃ y, w.surfaces i = some y ∧ y.shape = x.shape := by
        have hxi : S i = some x := hx
        simpa [hxi] using hi2.symm
      simp only [Surface.shape, Prod.mk.injEq] at hyx
      simp [roleObj, hy, hyx.2.2.2.1, hxt]
  | attach s b d =>
    exact hw.mono (fun j t hj => (roleObj_modify (f := fun x => (x.attach b).setOffset d)
      (fun _ => rfl) j).symm.trans hj) (fun _ _ hy => hy) fun _ hj => hj
  | commit s => exact commitSurface_roles hw s
  | getXdgSurface s =>
    refine hw.mono (fun _ _ hi => hi) (fun _ _ hy => hy) fun j hj => ?_
    change (w.xdgSurfaces.set w.nextId { wlSurface := s } j).isSome
    rw [Arena.set_apply]
    split
    · rfl
    · exact hj
  | getToplevel x =>
    simp only [direct, handle, createToplevel]
    split
    · exact hw
    · next y hy =>
      have hn : w.toplevels w.nextId = none := by simpa [World.holds] using ht.unused .xdgToplevel
      intro i t hi
      change (w.surfaces.modify y.wlSurface (fun s => s.setRole .xdgToplevel w.nextId) i).bind
        Surface.roleObj = some t at hi
      change ∃ y', w.toplevels.set w.nextId { xdgSurface := x } t = some y' ∧ _
      rw [Arena.modify_bind (g := Surface.roleObj) (q := w.nextId) (fun _ => rfl)] at hi
      split at hi
      · cases hi
        exact ⟨_, Arena.set_self .., by simp [newResource, hy]⟩
      · obtain ⟨z, hz, hl⟩ := hw i t hi
        refine ⟨z, ?_, hl⟩
        rw [Arena.set_of_ne, hz]
        rintro rfl
        simp [hn] at hz
  | setSelection d source =>
    simp only [direct, handle, setSelection]
    split <;> exact hw
  | _ => exact hw

/-- A destroyed object leaves the role objects alive exactly when it is none of them. -/
theorem destroyResource_roles (ht : w.Typed) (hw : w.RolesLive) {j : ℕ}
    (hj : (w.resources j).isSome) : (w.destroyResource j).RolesLive ↔ w.RoleFree j := by
  obtain ⟨r, hr⟩ := Option.isSome_iff_exists.mp hj
  have gone (k : DeskInterface) : (w.destroyResource j).holds k j = false := by
    cases hk : (w.destroyResource j).holds k j with
    | false => rfl
    | true => exact absurd rfl (ht.destroyed j hk).2
  have kept : ∀ i, i ≠ j → (w.destroyResource j).roleObj i = w.roleObj i ∧
      (w.destroyResource j).toplevels i = w.toplevels i ∧
      (w.destroyResource j).xdgSurfaces i = w.xdgSurfaces i := fun i hi => by
    simp only [destroyResource, hr]
    cases r.interface <;> simp [deleteObject, roleObj, hi]
  have nothing : (w.destroyResource j).roleObj j = none := by
    have h := gone .surface
    simp only [World.holds, Option.isSome_eq_false_iff, Option.isNone_iff_eq_none] at h
    simp [roleObj, h]
  constructor
  · intro h i t y hij hi hy
    obtain ⟨y', hy', hl⟩ := h i t ((kept i hij).1.trans hi)
    have htj : t ≠ j := by
      rintro rfl
      have h := gone .xdgToplevel
      simp [World.holds, hy'] at h
    rw [(kept t htj).2.1, hy] at hy'
    cases hy'
    refine ⟨htj, ?_⟩
    rintro rfl
    have h := gone .xdgSurface
    simp [World.holds, hl] at h
  · intro h i t hi
    have hij : i ≠ j := by
      rintro rfl
      simp [nothing] at hi
    rw [(kept i hij).1] at hi
    obtain ⟨y, hy, hl⟩ := hw i t hi
    obtain ⟨h1, h2⟩ := h i t y hij hi hy
    exact ⟨y, by rw [(kept t h1).2.1, hy], by rwa [(kept _ h2).2.2]⟩

end Steps

/-- A step keeps the role objects alive exactly when it destroys none that is in use. -/
theorem step_roles_iff {w : World} (ht : w.Typed) (hw : w.RolesLive) (a : Action) :
    (w.step a).RolesLive ↔ KeepsRoles w a := by
  constructor
  · intro h
    cases a with
    | destroy client j =>
      intro hs hj
      rw [step, hs] at h
      simp only [act, hj, if_true, Bool.false_eq_true, if_false] at h
      exact (destroyResource_roles ht hw (Option.isSome_of_any hj)).mp h
    | _ => trivial
  · intro h
    cases hs : w.stopped with
    | true => simpa [step, hs] using hw
    | false =>
      refine step_keeps (fun _ _ hc hw => hc.roles hw) ?_ hw
      cases a with
      | desk client r =>
        simp only [directly]
        split
        · exact direct_roles ht hw client r
        · exact hw
      | destroy client j =>
        simp only [directly]
        split
        · next hj =>
          exact (destroyResource_roles ht hw (Option.isSome_of_any hj)).mpr (h hs hj)
        · exact hw
      | _ => exact hw

theorem init_roles : World.init.RolesLive := fun i t hi => by simp [roleObj, World.init] at hi

/-- In a run the role objects are always alive exactly when none is destroyed that is in use. -/
theorem roles_throughout_iff (as : List Action) :
    Run.Always World.step RolesLive World.init as ↔ Run.Each World.step KeepsRoles World.init as :=
  Run.always_iff_each init_typed init_roles (fun _ a h => step_typed h a)
    (fun _ a ht hw => step_roles_iff ht hw a) as

/-- A client destroys its `xdg_toplevel` before its surface. -/
def toplevelFirst : List Action :=
  [.desk 0 (.createSurface (0, 0)), .desk 0 (.getXdgSurface 0), .desk 0 (.getToplevel 1),
    .destroy 0 2]

/-- The next `on_focus` uses the freed toplevel. -/
theorem toplevelFirst_dangling : ¬ (World.run toplevelFirst).RolesLive ∧
    (World.run toplevelFirst).fault = none ∧
    ((World.run toplevelFirst).onFocus 0).fault = some .useAfterFree := by
  refine ⟨fun h => ?_, rfl, rfl⟩
  obtain ⟨y, hy, -⟩ := h 0 2 rfl
  cases hy

end World
end Yaza
