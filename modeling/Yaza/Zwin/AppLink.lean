import Yaza.Lib.Link
import Yaza.Zwin.Owned

/-! A virtual object and its bounded app refer to each other, as long as no second app is made
for the object and no app is destroyed on its own. -/
namespace Yaza
namespace Scene

/-- `VirtualObject::app_` and `BoundedApp::virtual_object_`. -/
def link (s : Scene) : Link where
  fore := s.virtualObjects.mapAll VirtualObject.app
  back := s.boundedApps.mapAll BoundedApp.virtualObject

theorem link_congr {s s' : Scene}
    (hv : s'.virtualObjects.mapAll VirtualObject.app = s.virtualObjects.mapAll VirtualObject.app)
    (hb : s'.boundedApps.mapAll BoundedApp.virtualObject =
      s.boundedApps.mapAll BoundedApp.virtualObject) : s'.link = s.link := by
  simp only [link, hv, hb]

theorem link_of_graph {s s' : Scene} (h : s'.graph = s.graph) : s'.link = s.link := by
  have hv := congrArg (fun s => s.virtualObjects.mapAll VirtualObject.app) h
  have hb := congrArg (fun s => s.boundedApps.mapAll BoundedApp.virtualObject) h
  simp only [graph, Arena.mapAll_mapAll] at hv hb
  exact link_congr hv hb

theorem link_of_content {s s' : Scene} (h : s'.content = s.content) : s'.link = s.link := by
  have hv := congrArg (fun s => s.virtualObjects.mapAll VirtualObject.app) h
  simp only [content, Arena.mapAll_mapAll] at hv
  exact link_congr hv (by rw [boundedApps_of_content h])

theorem link_of_skeleton {s s' : Scene} (h : s'.skeleton = s.skeleton) : s'.link = s.link := by
  have hv := congrArg (fun s => s.virtualObjects.mapAll VirtualObject.app) h
  have hb := congrArg (fun s => s.boundedApps.mapAll BoundedApp.virtualObject) h
  simp only [skeleton, Arena.mapAll_mapAll] at hv hb
  exact link_congr hv hb

theorem link_of_rest {s s' : Scene} (h : s'.rest = s.rest) : s'.link = s.link := by
  have hv := congrArg (fun s => s.virtualObjects.mapAll VirtualObject.app) h
  simp only [rest, Arena.mapAll_mapAll] at hv
  exact link_congr hv (by
    rw [show s'.boundedApps = s.boundedApps from
      show s'.rest.boundedApps = s.rest.boundedApps from by rw [h]])

theorem commitVirtualObject_link {s : Scene} (hs : Tree s) (v : ℕ) :
    (s.commitVirtualObject v).link = s.link := by
  have hc := commitState_commits_true s v
  exact (link_of_content (syncIfSession_steps (hc.tree hs).registered v).content).trans
    (link_of_skeleton hc.skeleton)

theorem modifyObject_link (s : Scene) (v : ℕ) {f : VirtualObject → VirtualObject}
    (hf : ∀ x, (f x).app = x.app) :
    { s with virtualObjects := s.virtualObjects.modify v f }.link = s.link :=
  link_congr (Arena.mapAll_modify hf) rfl

theorem createVirtualObject_link (s : Scene) (client : ℕ) :
    (s.createVirtualObject client).link = s.link.newFore s.nextId := by
  simp only [link, createVirtualObject, Link.newFore, Arena.mapAll_set_apply]
  rfl

theorem configure_link (s : Scene) (b : ℕ) (halfSize : WlArray) :
    (s.configure b halfSize).link = s.link := by
  unfold configure
  split
  · exact link_of_graph (postError_graph ..)
  · exact link_congr rfl (Arena.mapAll_modify fun _ => rfl)

theorem newBounded_link (s : Scene) (client v : ℕ) :
    (s.newBounded client v).link = { s.link with back := s.link.back.set s.nextId v } := by
  have h := modifyObject_link s v
    (f := fun x => { x with listeners := x.listeners ++ [.app s.nextId] }) fun _ => rfl
  simp only [link, Link.mk.injEq] at h
  simp only [link, newBounded, Arena.mapAll_set_apply, h.1]

theorem createBounded_link (s : Scene) (client v : ℕ) (halfSize : WlArray) :
    (s.createBounded client v halfSize).link = s.link.attach s.nextId v := by
  have h1 := (configure_link (s.newBounded client v) s.nextId halfSize).trans
    (newBounded_link s client v)
  have h2 := Arena.mapAll_modify_apply (f := VirtualObject.app)
    (g := fun x => { x with app := some s.nextId }) (k := fun _ => some s.nextId) (fun _ => rfl)
    ((s.newBounded client v).configure s.nextId halfSize).virtualObjects v
  simp only [link, Link.mk.injEq] at h1
  simp only [link, createBounded, setApp, h2, h1, Link.attach]

theorem deleteBoundedApp_link {s : Scene} {b : ℕ} (hb : (s.boundedApps b).isSome) :
    (s.deleteBoundedApp b).link = s.link.dropBack b := by
  obtain ⟨y, hy⟩ := Option.isSome_iff_exists.mp hb
  have h := modifyObject_link s y.virtualObject
    (f := fun x => { x with listeners := x.listeners.filter (· ≠ .app b) }) fun _ => rfl
  simp only [link, Link.mk.injEq] at h
  rw [deleteBoundedApp, hy]
  simp only [link, h.1, Link.dropBack, Arena.mapAll_erase]

theorem deleteBoundedApp?_link (s : Scene) (b : Option ℕ) :
    (s.deleteBoundedApp? b).link =
      { s.link with back := fun i => if b = some i then none else s.link.back i } := by
  cases b with
  | none => simp [deleteBoundedApp?]
  | some b =>
    simp only [deleteBoundedApp?]
    by_cases hb : (s.boundedApps b).isSome
    · rw [deleteBoundedApp_link hb, Link.dropBack]
      congr 1
      funext i
      by_cases hi : i = b
      · subst hi; simp
      · simp [hi, Ne.symm hi]
    · have hn : s.boundedApps b = none := by simpa using hb
      rw [deleteBoundedApp, hn]
      change s.link = _
      have hi : (fun i => if some b = some i then none else s.link.back i) = s.link.back := by
        funext i
        split
        · next h => cases h; simp [link, hn]
        · rfl
      rw [hi]

theorem deleteVirtualObject_link {s : Scene} {v : ℕ} {x : VirtualObject}
    (hx : s.virtualObjects v = some x) :
    (s.deleteVirtualObject v).link = s.link.dropFore v x.app := by
  have h1 : (x.renderingUnitList.foldl deleteRenderingUnit (s.markDestroying v)).link = s.link :=
    (link_of_rest (deleteUnits_rest _ _)).trans (modifyObject_link s v fun _ => rfl)
  have h2 := deleteBoundedApp?_link
    (x.renderingUnitList.foldl deleteRenderingUnit (s.markDestroying v)) x.app
  rw [h1] at h2
  simp only [link, Link.mk.injEq] at h2
  rw [deleteVirtualObject, hx]
  simp only [link, dropVirtualObject, Arena.mapAll_erase, Link.dropFore]
  rw [h2.1, h2.2]

theorem apps_of_link {s s' : Scene} (h : s'.link = s.link) (b : ℕ) :
    (s'.boundedApps b).isSome = (s.boundedApps b).isSome :=
  Arena.isSome_of_mapAll (f := BoundedApp.virtualObject) (congrArg Link.back h) b

theorem handle_apps {s : Scene} (hs : Tree s) (client : ℕ) (r : Request) {b : ℕ}
    (hb : ((s.handle client r).boundedApps b).isSome) :
    (s.boundedApps b).isSome ∨ b = s.nextId := by
  by_cases hp : r.plain ∧ ∀ v halfSize, r ≠ .getBounded v halfSize
  · rw [apps_of_link (link_of_graph (handle_graph s client hp.1 hp.2))] at hb
    exact .inl hb
  cases r with
  | getBounded v halfSize =>
    have h1 := congrArg (fun k => (k.back b).isSome) (createBounded_link s client v halfSize)
    simp only [link, Link.attach, Arena.mapAll_apply, Option.isSome_map, Arena.set_apply] at h1
    rw [handle, h1] at hb
    split at hb
    · next h => exact .inr h
    · exact .inl (by simpa using hb)
  | createVirtualObject => exact .inl hb
  | createRenderingUnit v => exact .inl hb
  | createGlBaseTechnique u =>
    simp only [handle, createGlBaseTechnique] at hb
    split at hb <;> exact .inl hb
  | commit v =>
    rw [handle, apps_of_link (commitVirtualObject_link hs v)] at hb
    exact .inl hb
  | _ => exact absurd ⟨trivial, by simp⟩ hp

theorem destroyResource_apps {s : Scene} (hs : Tree s) (r b : ℕ)
    (hb : ((s.destroyResource r).boundedApps b).isSome) : (s.boundedApps b).isSome := by
  cases hres : s.resources r with
  | none =>
    rw [destroyResource, hres] at hb
    exact hb
  | some x =>
    obtain ⟨c, i⟩ := x
    have hd : (s.destroyResource r).boundedApps = (s.deleteObject r i).boundedApps := by
      rw [destroyResource, hres]
    rw [hd] at hb
    cases i with
    | virtualObject =>
      obtain ⟨x, hx⟩ := Option.isSome_iff_exists.mp (hs.objects r c hres)
      have h1 := congrArg (fun k => (k.back b).isSome) (deleteVirtualObject_link hx)
      simp only [link, Link.dropFore, Arena.mapAll_apply, Option.isSome_map] at h1
      rw [deleteObject, h1] at hb
      split at hb
      · cases hb
      · simpa using hb
    | bounded =>
      simp only [deleteObject] at hb
      split at hb
      · next hr =>
        have h1 := congrArg (fun k => (k.back b).isSome) (deleteBoundedApp_link hr)
        simp only [link, Link.dropBack, Arena.mapAll_apply, Option.isSome_map,
          Arena.erase_apply] at h1
        rw [h1] at hb
        split at hb
        · cases hb
        · simpa using hb
      · exact hb
    | renderingUnit =>
      simp only [deleteObject] at hb
      split at hb
      · exact apps_of_link (link_of_rest (deleteRenderingUnit_rest s r)) b ▸ hb
      · exact hb
    | baseTechnique =>
      simp only [deleteObject] at hb
      split at hb
      · exact apps_of_link (link_of_rest (deleteTechnique_rest s r)) b ▸ hb
      · exact hb
    | _ => exact hb

/-- An app that a step makes is new, at the address the step takes. -/
theorem step_apps {s : Scene} (hs : Tree s) (a : Action) {b : ℕ}
    (hb : ((s.step a).boundedApps b).isSome) : (s.boundedApps b).isSome ∨ b = s.nextId := by
  unfold step at hb
  split at hb
  · exact .inl hb
  cases a with
  | request client r =>
    simp only [act] at hb
    split at hb
    · exact handle_apps hs client r hb
    · exact .inl hb
  | destroy client r =>
    simp only [act] at hb
    split at hb
    · exact .inl (destroyResource_apps hs r b hb)
    · exact .inl hb
  | peerDiscover connected =>
    exact .inl (apps_of_link
      (link_of_content (peerDiscover_content hs.registered connected)) b ▸ hb)
  | sessionDisconnect =>
    exact .inl (apps_of_link (link_of_content (sessionDisconnect_content s)) b ▸ hb)
  | frameTimer busyness =>
    simp only [act, frameTimer] at hb
    split at hb <;> exact .inl hb
  | moveApp c polar azimuthal =>
    simp only [act, moveApp] at hb
    split at hb
    · exact .inl hb
    · next x hx =>
      have h : (s.turnApp c x polar azimuthal).link = s.link :=
        link_congr rfl (Arena.mapAll_set hx rfl)
      rw [apps_of_link (commitVirtualObject_link (hs.same (turnApp_same ..)) x.virtualObject),
        apps_of_link h] at hb
      exact .inl hb

/-- What `app_` and `virtual_object_` are for. -/
structure Linked (s : Scene) : Prop where
  app : ∀ v x b, s.virtualObjects v = some x → x.app = some b →
    ∃ y, s.boundedApps b = some y ∧ y.virtualObject = v
  virtualObject : ∀ b y, s.boundedApps b = some y →
    ∃ x, s.virtualObjects y.virtualObject = some x ∧ x.app = some b

theorem linked_iff (s : Scene) : Linked s ↔ s.link.Tied := by
  constructor
  · intro h
    refine ⟨fun v b hv => ?_, fun b v hb => ?_⟩
    · simp only [link, Arena.mapAll_apply, Option.map_eq_some_iff] at hv ⊢
      obtain ⟨x, hx, ha⟩ := hv
      exact h.app v x b hx ha
    · simp only [link, Arena.mapAll_apply, Option.map_eq_some_iff] at hb ⊢
      obtain ⟨y, hy, rfl⟩ := hb
      exact h.virtualObject b y hy
  · intro h
    refine ⟨fun v x b hx ha => ?_, fun b y hy => ?_⟩
    · simpa [link] using h.fore v b (by simp [link, hx, ha])
    · simpa [link] using h.back b y.virtualObject (by simp [link, hy])

/-- A second app is not made for an object, and an app goes with its object only. -/
def KeepsLink (s : Scene) : Action → Prop
  | .request client (.getBounded v halfSize) => s.fault = none →
      s.admits client (.getBounded v halfSize) →
        ∀ x, s.virtualObjects v = some x → x.app = none
  | .destroy client r => s.fault = none → s.resources r = some ⟨client, .bounded⟩ →
      s.boundedApps r = none
  | _ => True

theorem handle_linked_iff {s : Scene} (hs : Tree s) (hw : Wired s) (hk : s.link.Tied)
    {client : ℕ} {r : Request} (hr : s.admits client r) :
    (s.handle client r).link.Tied ↔
      ∀ v halfSize, r = .getBounded v halfSize →
        ∀ x, s.virtualObjects v = some x → x.app = none := by
  by_cases hp : r.plain ∧ ∀ v halfSize, r ≠ .getBounded v halfSize
  · rw [link_of_graph (handle_graph s client hp.1 hp.2)]
    exact iff_of_true hk fun v halfSize h => absurd h (hp.2 v halfSize)
  have hres := hr
  simp only [admits, Bool.and_eq_true, List.all_eq_true, decide_eq_true_eq] at hres
  cases r with
  | getBounded v halfSize =>
    obtain ⟨x, hx⟩ :=
      Option.isSome_iff_exists.mp (hs.objects v client (hres.2 _ List.mem_cons_self))
    have hb : s.link.back s.nextId = none := by simp [link, hw.apps s.nextId (Nat.le_refl _)]
    rw [handle, createBounded_link, Link.attach_tied_iff (o := x.app) hk hb (by simp [link, hx])]
    constructor
    · intro h v' halfSize' he x' hx'
      cases he
      rw [hx, Option.some.injEq] at hx'
      exact hx' ▸ h
    · intro h
      exact h v halfSize rfl x hx
  | createVirtualObject =>
    refine iff_of_true ?_ (by simp)
    rw [handle, createVirtualObject_link]
    exact Link.newFore_tied hk (by
      simpa [link, forest] using (hs.fresh s.nextId (Nat.le_refl _)).1)
  | createRenderingUnit v =>
    refine iff_of_true ?_ (by simp)
    exact (show (s.createRenderingUnit client v).link = s.link from
      modifyObject_link s v fun _ => rfl) ▸ hk
  | createGlBaseTechnique u =>
    refine iff_of_true ?_ (by simp)
    simp only [handle, createGlBaseTechnique]
    split <;> exact hk
  | commit v =>
    refine iff_of_true ?_ (by simp)
    rw [handle, commitVirtualObject_link hs]
    exact hk
  | _ => exact absurd ⟨trivial, by simp⟩ hp

theorem destroyResource_linked_iff {s : Scene} (hs : Tree s) (hk : s.link.Tied) {r c : ℕ}
    {i : Interface} (hres : s.resources r = some ⟨c, i⟩) :
    (s.destroyResource r).link.Tied ↔ (i = .bounded → s.boundedApps r = none) := by
  have hd : (s.destroyResource r).link = (s.deleteObject r i).link := by
    rw [destroyResource, hres]
    rfl
  rw [hd]
  cases i with
  | virtualObject =>
    obtain ⟨x, hx⟩ := Option.isSome_iff_exists.mp (hs.objects r c hres)
    refine iff_of_true ?_ (by simp)
    rw [deleteObject, deleteVirtualObject_link hx]
    exact Link.dropFore_tied hk (by simp [link, hx])
  | bounded =>
    simp only [deleteObject, true_implies]
    split
    · next hb =>
      rw [deleteBoundedApp_link hb, Link.dropBack_tied_iff hk]
      simp [link]
    · next hb => exact iff_of_true hk (by simpa using hb)
  | renderingUnit =>
    refine iff_of_true ?_ (by simp)
    simp only [deleteObject]
    split
    · exact link_of_rest (deleteRenderingUnit_rest s r) ▸ hk
    · exact hk
  | baseTechnique =>
    refine iff_of_true ?_ (by simp)
    simp only [deleteObject]
    split
    · exact link_of_rest (deleteTechnique_rest s r) ▸ hk
    · exact hk
  | _ => exact iff_of_true hk (by simp)

theorem step_linked_iff {s : Scene} (hs : Tree s) (hw : Wired s) (hk : s.link.Tied)
    (a : Action) : (s.step a).link.Tied ↔ KeepsLink s a := by
  cases hf : s.fault with
  | some f =>
    rw [step, if_pos (by simp [hf])]
    refine iff_of_true hk ?_
    unfold KeepsLink
    split <;> simp [hf]
  | none =>
    rw [step, if_neg (by simp [hf])]
    cases a with
    | request client r =>
      simp only [act]
      split
      · next hr =>
        rw [handle_linked_iff hs hw hk hr]
        cases r <;> simp [KeepsLink, hf, hr]
      · next hr =>
        refine iff_of_true hk ?_
        cases r <;> simp [KeepsLink, hr]
    | destroy client r =>
      simp only [act, KeepsLink, hf, true_implies]
      cases hres : s.resources r with
      | none => simpa using hk
      | some x =>
        obtain ⟨c, i⟩ := x
        by_cases hc : c = client
        · subst hc
          simp [destroyResource_linked_iff hs hk hres]
        · simp only [Option.any_some, decide_eq_true_eq, hc, if_false, Option.some.injEq,
            Resource.mk.injEq, false_and, false_implies, iff_true]
          exact hk
    | peerDiscover connected =>
      rw [act, link_of_content (peerDiscover_content hs.registered connected)]
      exact iff_of_true hk trivial
    | sessionDisconnect =>
      rw [act, link_of_content (sessionDisconnect_content s)]
      exact iff_of_true hk trivial
    | frameTimer busyness =>
      refine iff_of_true ?_ trivial
      simp only [act, frameTimer]
      split
      · have h : s.sessionFrame.link = s.link := by
          refine link_congr ?_ rfl
          simp only [sessionFrame, Arena.mapAll_mapAll]
          rfl
        exact h ▸ hk
      · exact hk
    | moveApp b polar azimuthal =>
      refine iff_of_true ?_ trivial
      simp only [act, moveApp]
      split
      · exact hk
      · next x hx =>
        have h : (s.turnApp b x polar azimuthal).link = s.link :=
          link_congr rfl (Arena.mapAll_set hx rfl)
        rw [commitVirtualObject_link (hs.same (turnApp_same ..)), h]
        exact hk

/-- Objects and apps refer to each other throughout a run exactly when no app is made for an
object that has one, and no live app is destroyed by its own resource. -/
theorem linked_throughout_iff (as : List Action) :
    Run.Always step Linked init as ↔ Run.Each step KeepsLink init as := by
  have h0 : Linked init := ⟨by simp [init], by simp [init]⟩
  exact Run.always_iff_each (J := fun s => Tree s ∧ Wired s) ⟨init_tree, init_wired⟩ h0
    step_wired (fun s a hs hl => by
      rw [linked_iff, step_linked_iff hs.1 hs.2 ((linked_iff s).mp hl)]) as

/-- `zwn_bounded.destroy` leaves the virtual object with the address of an app that is gone. -/
theorem dangling_app :
    ¬ Linked (run [.request 0 .createVirtualObject, .request 0 (.getBounded 0 ⟨12, fun _ => 0⟩),
      .destroy 0 1]) := by
  intro h
  obtain ⟨y, hy, -⟩ := h.app 0 { app := some 1 } 1 rfl rfl
  have hn : (none : Option BoundedApp) = some y := hy
  cases hn

end Scene
end Yaza
