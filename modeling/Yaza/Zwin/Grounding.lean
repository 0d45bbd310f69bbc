import Yaza.Zwin.AppLink
import Yaza.Zwin.Damage
import Yaza.Zwin.Lasting

/-! What is true of the techniques of every reachable scene: they refer to objects that have been
there, a technique that has a slot or a proxy was committed, and one that has both belongs to a
virtual object with an app. -/
namespace Yaza
namespace TechniqueState

/-- The state refers to addresses below `n`, and to one texture for each slot; and the draw
arguments that are asked for are not empty. -/
structure Tidy (n : ℕ) (x : TechniqueState) : Prop where
  refs : ∀ i ∈ x.refs, i < n
  distinct : x.Distinct
  draw : x.drawApiArgs.changed → x.drawApiArgs.data ≠ .none

section Tidy
variable {n : ℕ} {x pending current : TechniqueState} {alive : TextureBinding → Bool}

theorem tidy_empty (n : ℕ) : Tidy n {} := by
  constructor
  · intro i hi
    cases hi
  · exact List.nodup_nil
  · intro h
    cases h

theorem Tidy.mono {m : ℕ} (hx : x.Tidy n) (h : n ≤ m) : x.Tidy m :=
  ⟨fun i hi => (hx.refs i hi).trans_le h, hx.distinct, hx.draw⟩

theorem nodup_of_sublist {l l' : List TextureBinding}
    (hl : (l.map TextureBinding.binding).Nodup) (h : l'.Sublist l) :
    (l'.map TextureBinding.binding).Nodup :=
  hl.sublist (h.map _)

theorem Tidy.request (hx : x.Tidy n) {q : TechniqueRequest} (hq : ∀ i ∈ q.refs, i < n) :
    (x.request q).Tidy n := by
  constructor
  · intro i hi
    have h1 : i ∈ x.refs ∨ i ∈ q.refs := by
      rw [mem_refs] at hi
      rw [mem_refs]
      cases q with
      | bindTexture b =>
        simp only [TechniqueState.request, TextureBindingList.emplace, List.mem_append,
          List.mem_filter, List.mem_singleton] at hi
        simp only [TechniqueRequest.refs, List.mem_pair]
        grind
      | drawElements =>
        simp only [TechniqueState.request, DrawApiArgs.setElementsArgs, DrawApiArgs.refs] at hi
        simp only [TechniqueRequest.refs]
        grind
      | drawArrays =>
        simp only [TechniqueState.request, DrawApiArgs.setArraysArgs, DrawApiArgs.refs] at hi
        grind
      | _ =>
        simp only [TechniqueState.request] at hi
        simp only [TechniqueRequest.refs, List.mem_singleton]
        grind
    exact h1.elim (hx.refs i) (hq i)
  · cases q with
    | bindTexture b =>
      simp only [Distinct, TechniqueState.request, TextureBindingList.emplace, List.map_append,
        List.map_cons, List.map_nil]
      apply List.Nodup.append (nodup_of_sublist hx.distinct List.filter_sublist)
        (List.nodup_singleton _)
      simp
    | _ => exact hx.distinct
  · cases q with
    | drawArrays | drawElements =>
      intro _ h
      cases h
    | _ => exact hx.draw

theorem Tidy.commit (hp : pending.Tidy n) (hc : current.Tidy n) :
    (pending.commit alive current).Tidy n := by
  constructor
  · intro i hi
    exact (refs_commit hi).elim (hp.refs i) (hc.refs i)
  · simp only [Distinct, TechniqueState.commit, TextureBindingList.commit]
    split
    · exact nodup_of_sublist hp.distinct List.filter_sublist
    · exact nodup_of_sublist hc.distinct List.filter_sublist
  · intro h
    have h1 : pending.drawApiArgs.changed = true := h
    have h2 := hp.draw h1
    simp only [TechniqueState.commit, DrawApiArgs.commit, h1, if_true]
    cases hd : pending.drawApiArgs.data with
    | none => exact absurd hd h2
    | arrays | elements =>
      intro h
      cases h

theorem Tidy.afterCommit (hp : pending.Tidy n) : (pending.afterCommit alive).Tidy n := by
  constructor
  · intro i hi
    exact hp.refs i (refs_afterCommit hi)
  · exact nodup_of_sublist hp.distinct List.filter_sublist
  · intro h
    simp only [TechniqueState.afterCommit, DrawApiArgs.afterCommit] at h
    split at h
    · cases h
    · next hn => exact absurd h hn

end Tidy
end TechniqueState

namespace Scene

/-- Both states of the technique are tidy. -/
def TidyTechnique (n : ℕ) (z : GlBaseTechnique) : Prop := z.pending.Tidy n ∧ z.current.Tidy n

section Tidy
variable {n : ℕ} {z z' : GlBaseTechnique} {alive : TextureBinding → Bool}

theorem TidyTechnique.commit (hz : TidyTechnique n z) : TidyTechnique n (z.commit alive) :=
  ⟨hz.1.afterCommit, hz.1.commit hz.2⟩

theorem TidyTechnique.request (hz : TidyTechnique n z) {q : TechniqueRequest}
    (hq : ∀ i ∈ q.refs, i < n) : TidyTechnique n (z.request q) :=
  ⟨hz.1.request hq, hz.2⟩

theorem Trimmed.current (h : Trimmed alive z z') :
    z'.pending = z.pending ∧ z'.commited = z.commited ∧ z'.current = { z.current with
      textureBindings := z'.current.textureBindings } := by
  have h1 := h.same
  obtain ⟨p, ⟨a, b, c, d, e, f, g⟩, cm, o, px⟩ := z
  obtain ⟨p', ⟨a', b', c', d', e', f', g'⟩, cm', o', px'⟩ := z'
  simp only [bareTechnique, GlBaseTechnique.mk.injEq, TechniqueState.mk.injEq] at h1 ⊢
  grind

theorem Trimmed.tidy (h : Trimmed alive z z') (hz : TidyTechnique n z) : TidyTechnique n z' := by
  obtain ⟨h1, -, h2⟩ := h.current
  refine ⟨h1 ▸ hz.1, fun i hi => ?_, TechniqueState.nodup_of_sublist hz.2.distinct h.sub,
    h2 ▸ hz.2.draw⟩
  apply hz.2.refs
  rw [h2, TechniqueState.mem_refs] at hi
  rw [TechniqueState.mem_refs]
  rcases hi with hi | hi | ⟨b, hb, hi⟩ | hi
  · exact .inl hi
  · exact .inr (.inl hi)
  · exact .inr (.inr (.inl ⟨b, h.sub.subset hb, hi⟩))
  · exact .inr (.inr (.inr hi))

end Tidy

/-- What a technique is made to refer to is named by the request. -/
theorem toTechnique_refs {r : Request} {t : ℕ} {q : TechniqueRequest}
    (h : r.toTechnique = some (t, q)) {i : ℕ} (hi : i ∈ q.refs) : i ∈ r.objects.map Prod.fst := by
  cases r with
  | bindProgram | bindVertexArray =>
    cases h
    rw [List.mem_singleton.mp hi]
    simp [Request.objects]
  | bindTexture t binding name texture target sampler =>
    cases h
    rcases List.mem_pair.mp hi with rfl | rfl <;> simp [Request.objects]
  | uniformVector =>
    simp only [Request.toTechnique] at h
    split at h
    · cases h
    · split at h <;> cases h
      cases hi
  | uniformMatrix =>
    simp only [Request.toTechnique] at h
    split at h
    · cases h
    · split at h
      · cases h
      · split at h <;> cases h
        cases hi
  | drawArrays =>
    cases h
    cases hi
  | drawElements =>
    obtain ⟨bytes, -, h⟩ := Option.map_eq_some_iff.mp h
    cases h
    rw [List.mem_singleton.mp hi]
    simp [Request.objects]
  | _ => cases h

theorem accepted_refs {s : Scene} (hr : ∀ i, (s.resources i).isSome → i < s.nextId) {a : Action}
    {t : ℕ} {q : TechniqueRequest} (h : s.accepted t a = some q) : ∀ i ∈ q.refs, i < s.nextId := by
  intro i hi
  unfold accepted at h
  split at h
  · next client r =>
    split at h
    · next hc =>
      simp only [Bool.and_eq_true] at hc
      obtain ⟨⟨-, had⟩, -⟩ := hc
      obtain ⟨⟨t', q'⟩, hq, rfl⟩ := Option.map_eq_some_iff.mp h
      have hq' := (Option.filter_eq_some_iff.mp hq).1
      obtain ⟨⟨j, k⟩, hj, rfl⟩ := List.mem_map.mp (toTechnique_refs hq' hi)
      simp only [admits, Bool.and_eq_true, List.all_eq_true, decide_eq_true_eq] at had
      apply hr
      rw [had.2 _ hj]
      rfl
    · cases h
  · cases h

/-- The objects that are left keep having an app; `n` can be new. -/
def AppsStay (n : ℕ) (k k' : Link) : Prop :=
  ∀ v o', k'.fore v = some o' → v ≠ n → ∃ o, k.fore v = some o ∧ (o.isSome → o'.isSome)

theorem appsStay_of_eq {n : ℕ} {k k' : Link} (h : k'.fore = k.fore) : AppsStay n k k' :=
  fun _ o' ho _ => ⟨o', h ▸ ho, id⟩

theorem handle_appsStay {s : Scene} (hs : Tree s) (client : ℕ) (r : Request) :
    AppsStay s.nextId s.link (s.handle client r).link := by
  by_cases hp : r.plain ∧ ∀ v halfSize, r ≠ .getBounded v halfSize
  · exact appsStay_of_eq (by rw [link_of_graph (handle_graph s client hp.1 hp.2)])
  cases r with
  | getBounded v halfSize =>
    rw [handle, createBounded_link]
    intro w o' ho _
    simp only [Link.attach, Arena.modify_apply] at ho
    split at ho
    · obtain ⟨o, h1, rfl⟩ := Option.map_eq_some_iff.mp ho
      exact ⟨o, h1, fun _ => rfl⟩
    · exact ⟨o', ho, id⟩
  | createVirtualObject =>
    rw [handle, createVirtualObject_link]
    intro w o' ho hw
    simp only [Link.newFore, Arena.set_of_ne _ _ hw] at ho
    exact ⟨o', ho, id⟩
  | createRenderingUnit v =>
    have h1 : (s.createRenderingUnit client v).link = s.link := modifyObject_link s v fun _ => rfl
    exact appsStay_of_eq (by rw [handle, h1])
  | createGlBaseTechnique u =>
    simp only [handle, createGlBaseTechnique]
    split <;> exact appsStay_of_eq rfl
  | commit v => exact appsStay_of_eq (by rw [handle, commitVirtualObject_link hs])
  | _ => exact absurd ⟨trivial, by simp⟩ hp

theorem destroyResource_appsStay {s : Scene} (hs : Tree s) (n r : ℕ) :
    AppsStay n s.link (s.destroyResource r).link := by
  cases hres : s.resources r with
  | none =>
    rw [destroyResource, hres]
    exact appsStay_of_eq rfl
  | some x =>
    obtain ⟨c, i⟩ := x
    have hd : (s.destroyResource r).link = (s.deleteObject r i).link := by
      rw [destroyResource, hres]
      rfl
    rw [hd]
    cases i with
    | virtualObject =>
      obtain ⟨x, hx⟩ := Option.isSome_iff_exists.mp (hs.objects r c hres)
      rw [deleteObject, deleteVirtualObject_link hx]
      intro w o' ho _
      simp only [Link.dropFore, Arena.erase_apply] at ho
      split at ho
      · cases ho
      · exact ⟨o', ho, id⟩
    | bounded =>
      simp only [deleteObject]
      split
      · next hb => exact appsStay_of_eq (by rw [deleteBoundedApp_link hb, Link.dropBack])
      · exact appsStay_of_eq rfl
    | renderingUnit =>
      simp only [deleteObject]
      split
      · exact appsStay_of_eq (by rw [link_of_rest (deleteRenderingUnit_rest s r)])
      · exact appsStay_of_eq rfl
    | baseTechnique =>
      simp only [deleteObject]
      split
      · exact appsStay_of_eq (by rw [link_of_rest (deleteTechnique_rest s r)])
      · exact appsStay_of_eq rfl
    | _ => exact appsStay_of_eq rfl

theorem step_appsStay {s : Scene} (hs : Tree s) (a : Action) :
    AppsStay s.nextId s.link (s.step a).link := by
  unfold step
  split
  · exact appsStay_of_eq rfl
  cases a with
  | request client r =>
    simp only [act]
    split
    · exact handle_appsStay hs client r
    · exact appsStay_of_eq rfl
  | destroy client r =>
    simp only [act]
    split
    · exact destroyResource_appsStay hs _ r
    · exact appsStay_of_eq rfl
  | peerDiscover connected =>
    have h1 := peerDiscover_content hs.registered connected
    exact appsStay_of_eq (by rw [act, link_of_content h1])
  | sessionDisconnect =>
    exact appsStay_of_eq (by rw [act, link_of_content (sessionDisconnect_content s)])
  | frameTimer busyness =>
    simp only [act, frameTimer]
    split
    · apply appsStay_of_eq
      simp only [link, sessionFrame, Arena.mapAll_mapAll]
      rfl
    · exact appsStay_of_eq rfl
  | moveApp b polar azimuthal =>
    simp only [act, moveApp]
    split
    · exact appsStay_of_eq rfl
    · next x hx =>
      have h : (s.turnApp b x polar azimuthal).link = s.link :=
        link_congr rfl (Arena.mapAll_set hx rfl)
      exact appsStay_of_eq (by rw [commitVirtualObject_link (hs.same (turnApp_same ..)), h])

/-- The technique is registered in a virtual object that has an app. -/
def Served (s : Scene) (t : ℕ) : Prop :=
  ∃ v, t ∈ s.registered v ∧ (s.virtualObjects v).any fun x => x.app.isSome

section Proxies
variable {A : ℕ → Prop} {C : Call → Prop} {s s' : Scene}

theorem SyncStep.technique_proxy (h : SyncStep A C s s') {t : ℕ} {p : Proxy}
    (hp : s'.proxyOf (.baseTechnique t) = some p) :
    s.proxyOf (.baseTechnique t) = some p ∨ A t := by
  cases h with
  | create h mk p' r hr hn hh hc hm =>
    rw [proxyOf_giveProxy] at hp
    split at hp
    · next he => exact .inr (hh t he.1.symm)
    · exact .inl hp
  | dropExpired t' =>
    left
    have h1 := Arena.modify_bind_of_eq (f := fun x : GlBaseTechnique => { x with
      current.textureBindings := x.current.textureBindings.removeExpired s.bindingAlive })
      (g := GlBaseTechnique.proxy) (fun _ => rfl) s.baseTechniques t' t
    exact h1.symm.trans hp
  | _ => exact .inl hp

theorem Syncs.technique_proxy (h : Syncs A C s s') {t : ℕ} {p : Proxy}
    (hp : s'.proxyOf (.baseTechnique t) = some p) :
    s.proxyOf (.baseTechnique t) = some p ∨ A t := by
  induction h with
  | refl => exact .inl hp
  | tail _ h ih => exact (h.technique_proxy hp).elim ih .inr

/-- A sync gives proxies to the techniques that are registered in its object. -/
theorem syncVirtualObject_gives (hs : s.remote.hasSession) (hg : s.forest.Registered) (v : ℕ)
    (force : Bool) :
    Syncs (fun t => t ∈ s.registered v ∧ (s.virtualObjects v).any fun x => x.app.isSome)
      (fun _ => True) s (s.syncVirtualObject v force) := by
  cases hx : s.virtualObjects v with
  | none =>
    rw [syncVirtualObject, hx]
    exact crash_syncs s
  | some x =>
    cases ha : x.app with
    | none =>
      simp only [syncVirtualObject, hx, ha]
      exact .refl
    | some b =>
      apply syncVirtualObject_syncs (fun _ _ => trivial) hs (slotOk_of_registered hg)
        (listOk_of_registered hg)
      intro x' hx' u hu y t hy ht
      refine ⟨⟨mem_registered.mpr ⟨u, ?_, y, hy, ht⟩, by simp [ha]⟩, fun _ _ _ _ => trivial⟩
      simpa [unitsOf, hx'] using hu

/-- A virtual object that is synced, by force, when a session is established. -/
def isForced (s : Scene) (v : ℕ) : Bool :=
  (s.virtualObjects v).any fun x => x.committed && x.app.isSome

theorem any_of_content {s s' : Scene} (h : s'.content = s.content) {f : VirtualObject → Bool}
    (hf : ∀ x, f (bareVirtualObject x) = f x) (v : ℕ) :
    (s'.virtualObjects v).any f = (s.virtualObjects v).any f := by
  have h1 := congrArg (fun o => Option.any f o) (congrFun (congrArg Scene.virtualObjects h) v)
  simpa [content, Option.any_map, Function.comp_def, hf] using h1

theorem sessionEstablished_gives (hs : s.remote.hasSession) (hg : s.forest.Registered) (v : ℕ) :
    Syncs (fun t => t ∈ s.registered v ∧ s.isForced v) (fun _ => True) s
      (s.sessionEstablished v) := by
  unfold sessionEstablished
  split
  · exact .refl
  · next x hx =>
    split
    · next hc =>
      apply Syncs.widen _ (syncVirtualObject_gives hs hg v true)
      rintro t ⟨ht, ha⟩
      exact ⟨ht, by simpa [isForced, hx, hc] using ha⟩
    · exact .refl

/-- The handlers of a session give proxies to the techniques of the objects that they sync. -/
theorem sessionEstablisheds_gives (hs : s.remote.hasSession) (hg : s.forest.Registered)
    (l : List ℕ) : Syncs (fun t => ∃ v ∈ l, t ∈ s.registered v ∧ s.isForced v) (fun _ => True) s
      (l.foldl sessionEstablished s) := by
  apply Path.foldl (P := fun s' => s'.remote.hasSession ∧ s'.content = s.content)
  · intro s₁ s₂ h hp
    exact ⟨(Syncs.hasSession (.single h)).trans hp.1, h.content.trans hp.2⟩
  · intro s₁ hp v hv
    have hg1 : s₁.forest.Registered := by
      rw [forest_of_content hp.2]
      exact hg
    apply Syncs.widen _ (sessionEstablished_gives hp.1 hg1 v)
    rintro t ⟨ht, hf⟩
    refine ⟨v, hv, registered_of_content hp.2 v ▸ ht, ?_⟩
    rw [isForced, ← any_of_content hp.2 (fun _ => rfl)]
    exact hf
  · exact ⟨hs, rfl⟩

end Proxies

theorem served_of_content {s s' : Scene} (h : s'.content = s.content) {t : ℕ} (ht : s.Served t) :
    s'.Served t := by
  obtain ⟨v, hv, hx⟩ := ht
  refine ⟨v, registered_of_content h v ▸ hv, ?_⟩
  rw [any_of_content h fun _ => rfl]
  exact hx

/-- A step that is no commit and leaves the session alone makes no call, and spares the leaf
objects. -/
theorem step_quiet {s : Scene} (ht : Tree s) {a : Action} (hf : (s.step a).fault = none)
    (hc : s.committedBy a = none) (hp : ∀ connected, a ≠ .peerDiscover connected)
    (hd : a ≠ .sessionDisconnect) : Quiet s (s.step a) ∧ Spares s (s.step a) := by
  unfold step at hf ⊢
  split
  · exact ⟨.refl s, .refl s⟩
  next hs =>
  rw [if_neg hs] at hf
  have hs' : s.fault = none := by simpa using hs
  cases a with
  | request client r =>
    simp only [act] at hf ⊢
    split
    · next hr =>
      have hnc : ∀ v, r ≠ .commit v := by
        rintro v rfl
        simp [committedBy, hs', hr] at hc
      refine ⟨?_, handle_spares ht client hnc⟩
      by_cases hfr : ∃ v, r = .frame v
      · obtain ⟨v, rfl⟩ := hfr
        exact queueFrameCallback_quiet s v
      · exact (handle_still ht client hnc fun v h => hfr ⟨v, h⟩).toQuiet
    · exact ⟨.refl s, .refl s⟩
  | destroy client r =>
    simp only [act]
    split
    · refine ⟨?_, destroyResource_spares s r⟩
      rcases destroyResource_cases ht r with ⟨-, h⟩ | ⟨-, h⟩
      · exact h.toQuiet
      · exact h.toQuiet
    · exact ⟨.refl s, .refl s⟩
  | peerDiscover connected => exact absurd rfl (hp connected)
  | sessionDisconnect => exact absurd rfl hd
  | frameTimer busyness =>
    simp only [act, frameTimer]
    split
    · exact ⟨sessionFrame_quiet s, Nat.le_refl _, .refl, .refl, .refl, .refl, .refl⟩
    · exact ⟨.refl s, .refl s⟩
  | moveApp b polar azimuthal =>
    rcases moveApp_uncommitted hs' hc with h | h
    · rw [act, h]
      exact ⟨.refl s, .refl s⟩
    · exact absurd hf h

/-- A step gives proxies to techniques that are served. -/
theorem step_technique_proxy {s : Scene} (ht : Tree s) (hw : Wired s) {a : Action}
    (hf : (s.step a).fault = none) {t : ℕ} {p : Proxy}
    (hp : (s.step a).proxyOf (.baseTechnique t) = some p) :
    s.proxyOf (.baseTechnique t) = some p ∨ (s.step a).Served t := by
  cases hc : s.committedBy a with
  | some v =>
    obtain ⟨he, ⟨apps, h0⟩, ht1, -, -, -⟩ := step_of_commit ht hw hc
    have hk := commitState_commits_true (s.turned a) v
    rw [he, commitVirtualObject, syncIfSession] at hp ⊢
    have back (h : ((s.turned a).commitState v).proxyOf (.baseTechnique t) = some p) :
        s.proxyOf (.baseTechnique t) = some p := by
      rw [proxyOf_of_skeleton hk.skeleton, h0] at h
      exact h
    split at hp
    · next hs =>
      have h1 := syncVirtualObject_gives hs (hk.tree ht1).registered v false
      rw [if_pos hs]
      exact (h1.technique_proxy hp).imp back fun h => served_of_content h1.content ⟨v, h⟩
    · exact .inl (back hp)
  | none =>
    by_cases hp1 : ∃ connected, a = .peerDiscover connected
    · obtain ⟨connected, rfl⟩ := hp1
      by_cases hs : s.fault.isSome
      · rw [step, if_pos hs] at hp
        exact .inl hp
      rw [step, if_neg hs, act, peerDiscover] at hp ⊢
      split at hp
      · exact .inl hp
      · next hd =>
        have h1 := sessionEstablisheds_gives (s := { s with remote := s.remote.establish }) rfl
          ht.registered (List.range s.nextId)
        rw [if_neg hd]
        refine (h1.technique_proxy hp).imp id ?_
        rintro ⟨v, -, hv, hx⟩
        apply served_of_content h1.content
        obtain ⟨x, hx, hc⟩ := Option.any_eq_true _ _ |>.mp hx
        exact ⟨v, hv, Option.any_eq_true _ _ |>.mpr ⟨x, hx, (Bool.and_eq_true_iff.mp hc).2⟩⟩
    · by_cases hd : a = .sessionDisconnect
      · subst hd
        left
        by_cases hs : s.fault.isSome
        · rwa [step, if_pos hs] at hp
        rw [step, if_neg hs, act, sessionDisconnect] at hp
        split at hp
        · simp [proxyOf, dropProxies, Option.bind_map] at hp
        · exact hp
      · exact .inl ((step_quiet ht hf hc (fun c h => hp1 ⟨c, h⟩) hd).1.proxyOf _ _ hp)

/-- What is true of the techniques while the program runs. -/
structure Grounded (s : Scene) : Prop where
  tree : Tree s
  wired : Wired s
  attached : Attached s
  resources : ∀ i, (s.resources i).isSome → i < s.nextId
  tidy : ∀ t z, s.baseTechniques t = some z → TidyTechnique s.nextId z
  joined : ∀ u n t, s.forest.nodes u = some n → n.slot = some t → n.joined = true
  slot : ∀ u n t z, s.forest.nodes u = some n → n.slot = some t → s.baseTechniques t = some z →
    z.commited
  proxied : ∀ t z, s.baseTechniques t = some z → z.proxy.isSome → z.commited
  served : ∀ v t, t ∈ s.registered v → (s.proxyOf (.baseTechnique t)).isSome →
    (s.virtualObjects v).any fun x => x.app.isSome

theorem mem_registered_iff {s : Scene} (hg : s.forest.Registered) {v t : ℕ} :
    t ∈ s.registered v ↔ (s.virtualObjects v).isSome ∧
      ∃ u n, s.forest.nodes u = some n ∧ n.owner = v ∧ n.joined = true ∧ n.slot = some t := by
  have hnode {u : ℕ} {n : Node} : s.forest.nodes u = some n ↔
      ∃ y, s.renderingUnits u = some y ∧ nodeOf y = n := by simp [forest]
  cases hx : s.virtualObjects v with
  | none => simp [registered, unitsOf, hx]
  | some x =>
    have hu : s.unitsOf v = x.renderingUnitList := by simp [unitsOf, hx]
    rw [mem_registered, hu]
    constructor
    · rintro ⟨u, hu, y, hy, ht⟩
      obtain ⟨n, hn, ho, hj⟩ := (hg.listed v _ u (forest_lists hx)).mp hu
      cases (forest_nodes hy).symm.trans hn
      exact ⟨rfl, u, nodeOf y, hn, ho, hj, ht⟩
    · rintro ⟨-, u, n, hn, ho, hj, ht⟩
      obtain ⟨y, hy, rfl⟩ := hnode.mp hn
      exact ⟨u, (hg.listed v _ u (forest_lists hx)).mpr ⟨_, hn, ho, hj⟩, y, hy, ht⟩

theorem technique_of_registered {s : Scene} (hg : s.forest.Registered) {v t : ℕ}
    (ht : t ∈ s.registered v) : ∃ z, s.baseTechniques t = some z := by
  obtain ⟨-, u, n, hn, -, -, hs⟩ := (mem_registered_iff hg).mp ht
  obtain ⟨z, hz, -⟩ := Option.map_eq_some_iff.mp (hg.slot u n t hn hs)
  exact ⟨z, hz⟩

theorem objectOfTechnique_of_node {s : Scene} {u t : ℕ} {n : Node} {z : GlBaseTechnique}
    (hn : s.forest.nodes u = some n) (hz : s.baseTechniques t = some z) (hu : z.owner = u) :
    s.objectOfTechnique t = some n.owner := by
  obtain ⟨y, hy, rfl⟩ := Option.map_eq_some_iff.mp hn
  simp [objectOfTechnique, hz, hu, ownerOf, hy, nodeOf]

/-- A technique is registered in one object. -/
theorem objectOfTechnique_of_registered {s : Scene} (hg : s.forest.Registered) {v t : ℕ}
    (ht : t ∈ s.registered v) : s.objectOfTechnique t = some v := by
  obtain ⟨-, u, n, hn, rfl, -, hs⟩ := (mem_registered_iff hg).mp ht
  obtain ⟨z, hz, hu⟩ := Option.map_eq_some_iff.mp (hg.slot u n t hn hs)
  exact objectOfTechnique_of_node hn hz hu

section Steps
variable {s : Scene} (hg : Grounded s) (a : Action) {t v : ℕ}
include hg

/-- A technique that was there, after a step. -/
theorem Grounded.step_technique {z' : GlBaseTechnique} (hz' : (s.step a).baseTechniques t = some z')
    (ht : (s.baseTechniques t).isSome) :
    ∃ z, s.baseTechniques t = some z ∧ TrimmedStep s a t z z' ∧
      (z'.commited = true ↔ z.commited = true ∨ s.Reaches a t) := by
  rcases step_trimmed hg.tree hg.wired a hz' with ⟨hn, -⟩ | ⟨z, hz, h⟩
  · have := technique_lt_nextId hg.tree ht
    omega
  · refine ⟨z, hz, h, ?_⟩
    by_cases hr : s.Reaches a t
    · rw [(h.reached hr).current.2.1]
      simp [hr, GlBaseTechnique.commit]
    · rw [(h.other hr).current.2.1]
      simp only [hr, or_false]
      cases s.accepted t a <;> rfl

theorem Grounded.trimmed_tidy {z z' : GlBaseTechnique} (hz : s.baseTechniques t = some z)
    (h : TrimmedStep s a t z z') : TidyTechnique s.nextId z' := by
  have h1 := hg.tidy t z hz
  by_cases hr : s.Reaches a t
  · exact (h.reached hr).tidy h1.commit
  · apply (h.other hr).tidy
    split
    · exact h1
    · next q hq => exact h1.request (accepted_refs hg.resources hq)

theorem Grounded.step_tidy {z' : GlBaseTechnique} (hz' : (s.step a).baseTechniques t = some z') :
    TidyTechnique (s.step a).nextId z' := by
  have hn := (step_fades hg.tree a).nextId
  rcases step_trimmed hg.tree hg.wired a hz' with ⟨-, u, rfl⟩ | ⟨z, hz, h⟩
  · exact ⟨TechniqueState.tidy_empty _, TechniqueState.tidy_empty _⟩
  · have h1 := hg.trimmed_tidy a hz h
    exact ⟨h1.1.mono hn, h1.2.mono hn⟩

/-- What is in a slot after a step was there before, or is committed for the first time. -/
theorem Grounded.step_slot {u : ℕ} {n' : Node} (hn' : (s.step a).forest.nodes u = some n')
    (ht : n'.slot = some t) :
    n'.joined = true ∧ ∃ n z, s.forest.nodes u = some n ∧ n.owner = n'.owner ∧
      s.baseTechniques t = some z ∧ s.objectOfTechnique t = some n'.owner ∧
        (n.slot = some t ∧ z.commited = true ∨ z.commited = false ∧ s.Reaches a t) := by
  rcases step_nodes hg.tree hg.wired a hn' with ⟨n, hn, hc⟩ | ⟨-, -, hn⟩
  · have kept (h : n.slot = some t) : n'.joined = true ∧ ∃ n z, s.forest.nodes u = some n ∧
        n.owner = n'.owner ∧ s.baseTechniques t = some z ∧
          s.objectOfTechnique t = some n'.owner ∧
            (n.slot = some t ∧ z.commited = true ∨ z.commited = false ∧ s.Reaches a t) := by
      refine ⟨hc.joined.mpr (.inl (hg.joined u n t hn h)), n, ?_⟩
      have ho := hg.tree.registered.slot u n t hn h
      obtain ⟨z, hz, hzu⟩ := Option.map_eq_some_iff.mp ho
      exact ⟨z, hn, hc.owner.symm, hz, hc.owner ▸ objectOfTechnique_of_node hn hz hzu,
        .inl ⟨h, hg.slot u n t z hn h hz⟩⟩
    rw [hc.slot] at ht
    split at ht
    · next hcb =>
      cases hs : n.slot with
      | some t' =>
        rw [hs, Option.some_or] at ht
        exact kept (hs.trans ht)
      | none =>
        rw [hs, Option.none_or] at ht
        have hl := List.mem_of_find?_eq_some ht
        have hz := List.find?_some ht
        obtain ⟨z, hz, hz2⟩ := Option.any_eq_true _ _ |>.mp hz
        obtain ⟨y, hy, rfl⟩ := Option.map_eq_some_iff.mp hn
        have hzu : z.owner = u := by
          have h1 := (hg.wired.units.mem u y.listeners t (by simp [unitWiring, hy])).mp
            (by simpa [listenersOf, hy] using hl)
          simpa [unitWiring, hz] using h1
        have ho := objectOfTechnique_of_node hn hz hzu
        exact ⟨hc.joined.mpr (.inr hcb), _, z, hn, hc.owner.symm, hz, hc.owner ▸ ho,
          .inr ⟨by simpa using hz2, _, hcb, ho⟩⟩
    · split at ht
      · cases ht
      · exact kept ht
  · rw [hn] at ht
    cases ht

/-- A technique that is registered after a step was registered, or is committed for the first
time. -/
theorem Grounded.step_registered (ht : t ∈ (s.step a).registered v) :
    ∃ z, s.baseTechniques t = some z ∧ s.objectOfTechnique t = some v ∧
      (t ∈ s.registered v ∧ z.commited = true ∨ z.commited = false ∧ s.Reaches a t) := by
  have ht' := step_tree s a hg.tree
  obtain ⟨hv, u, n', hn', ho', -, hs'⟩ := (mem_registered_iff ht'.registered).mp ht
  obtain ⟨-, n, z, hn, ho, hz, hzo, h⟩ := hg.step_slot a hn' hs'
  refine ⟨z, hz, ho' ▸ hzo, h.imp_left fun h1 => ⟨?_, h1.2⟩⟩
  have howner := ho.trans ho'
  rw [mem_registered_iff hg.tree.registered]
  refine ⟨?_, u, n, hn, howner, hg.joined u n t hn h1.1, h1.1⟩
  have hlt := hg.tree.owner_lt u n hn
  obtain ⟨x', hx'⟩ := Option.isSome_iff_exists.mp hv
  obtain ⟨o, hk, -⟩ := step_appsStay hg.tree a v x'.app (by simp [link, hx']) (by omega)
  obtain ⟨x, hx, -⟩ := Option.map_eq_some_iff.mp hk
  rw [hx]
  rfl

theorem Grounded.step (hf : (s.step a).fault = none) : Grounded (s.step a) := by
  have ht' := step_tree s a hg.tree
  have hslot : ∀ u n' t z', (s.step a).forest.nodes u = some n' → n'.slot = some t →
      (s.step a).baseTechniques t = some z' → z'.commited = true := by
    intro u n' t z' hn' ht hz'
    obtain ⟨-, n, z, -, -, hz, -, h⟩ := hg.step_slot a hn' ht
    obtain ⟨z₀, hz₀, -, hc⟩ := hg.step_technique a hz' (Option.isSome_of_eq_some hz)
    cases hz.symm.trans hz₀
    exact hc.mpr (h.imp And.right And.right)
  have hserved : ∀ t, (s.step a).Served t → ∀ v, t ∈ (s.step a).registered v →
      ((s.step a).virtualObjects v).any fun x => x.app.isSome := by
    rintro t ⟨w, hw, ha⟩ v hv
    have h1 := objectOfTechnique_of_registered ht'.registered hw
    cases h1.symm.trans (objectOfTechnique_of_registered ht'.registered hv)
    exact ha
  refine ⟨ht', (step_wired s a ⟨hg.tree, hg.wired⟩).2, (step_attached s a ⟨hg.tree, hg.attached⟩).2,
    ?_, fun t z' => hg.step_tidy a, fun u n t hn ht => (hg.step_slot a hn ht).1, hslot, ?_, ?_⟩
  · intro i hi
    exact ((step_fades hg.tree a).resources i hi).elim
      (fun h => (hg.resources i h).trans_le (step_fades hg.tree a).nextId) id
  · intro t z' hz' hp
    obtain ⟨p, hp⟩ := Option.isSome_iff_exists.mp hp
    have hp' : (s.step a).proxyOf (.baseTechnique t) = some p := by rw [proxyOf, hz']; exact hp
    rcases step_technique_proxy hg.tree hg.wired hf hp' with h | ⟨v, hv, -⟩
    · obtain ⟨z, hz, hzp⟩ := Option.bind_eq_some_iff.mp h
      obtain ⟨z₀, hz₀, -, hc⟩ := hg.step_technique a hz' (Option.isSome_of_eq_some hz)
      cases hz.symm.trans hz₀
      exact hc.mpr (.inl (hg.proxied t z hz (by rw [hzp]; rfl)))
    · obtain ⟨-, u, n, hn, -, -, hs⟩ := (mem_registered_iff ht'.registered).mp hv
      exact hslot u n t z' hn hs hz'
  · intro v t ht hp
    obtain ⟨p, hp⟩ := Option.isSome_iff_exists.mp hp
    rcases step_technique_proxy hg.tree hg.wired hf hp with h | h
    · obtain ⟨z, hz, -, h1⟩ := hg.step_registered a ht
      have hzp : z.proxy.isSome := by
        rw [proxyOf, hz, Option.bind_some] at h
        rw [h]
        rfl
      have hc := hg.proxied t z hz hzp
      rcases h1 with ⟨h1, -⟩ | ⟨h1, -⟩
      · have h2 := hg.served v t h1 (by rw [h]; rfl)
        obtain ⟨x, hx, hxa⟩ := Option.any_eq_true _ _ |>.mp h2
        obtain ⟨hv', -⟩ := (mem_registered_iff ht'.registered).mp ht
        obtain ⟨x', hx'⟩ := Option.isSome_iff_exists.mp hv'
        have hvn : v ≠ s.nextId := by
          rintro rfl
          have h3 := (hg.tree.fresh s.nextId (Nat.le_refl _)).1
          simp [forest, hx] at h3
        obtain ⟨o, hk, ho⟩ := step_appsStay hg.tree a v x'.app (by simp [link, hx']) hvn
        have hk' : x.app = o := by simpa [link, hx] using hk
        simp [hx', ho (hk' ▸ hxa)]
      · rw [h1] at hc
        cases hc
    · exact hserved t h v ht

end Steps

theorem grounded_init : Grounded init where
  tree := init_tree
  wired := init_wired
  attached := init_attached
  resources := fun i hi => by cases hi
  tidy := fun t z hz => by cases hz
  joined := fun u n t hn => by cases hn
  slot := fun u n t z hn => by cases hn
  proxied := fun t z hz => by cases hz
  served := fun v t ht => by cases ht

end Scene
end Yaza
