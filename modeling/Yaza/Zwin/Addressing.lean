import Yaza.Zwin.Naming
import Yaza.Zwin.Reaching
import Yaza.Zwin.Segregated

/-! What a session is told: every call names objects that the session was told to make before, as
what they were made, and the remote objects are made under those of their owners. -/
namespace Yaza
namespace Scene

/-- Below `n`, the objects that are left keep their owners, and the owners keep their proxies. -/
structure Hosts (n : ℕ) (s s' : Scene) : Prop where
  objects : Arena.Inherits n VirtualObject.proxy s.virtualObjects s'.virtualObjects
  units : Arena.Inherits n (fun y => (y.owner, y.proxy)) s.renderingUnits s'.renderingUnits
  techniques : Arena.Inherits n GlBaseTechnique.owner s.baseTechniques s'.baseTechniques

section Hosts
variable {n : ℕ} {s s' s'' : Scene}

theorem Hosts.refl (n : ℕ) (s : Scene) : Hosts n s s := ⟨.refl, .refl, .refl⟩

theorem Hosts.trans (h : Hosts n s s') (h' : Hosts n s' s'') : Hosts n s s'' where
  objects := h.objects.trans h'.objects
  units := h.units.trans h'.units
  techniques := h.techniques.trans h'.techniques

theorem RequestStep.hosts {T : ℕ → Prop} {client : ℕ} (h : RequestStep T client s s')
    (hn : n ≤ s.nextId) : Hosts n s s' := by
  cases h with
  | virtualObject => exact ⟨.set_new hn _, .refl, .refl⟩
  | unit v hv => exact ⟨.modify fun _ => rfl, .set_new hn _, .refl⟩
  | technique u hu => exact ⟨.refl, .modify fun _ => rfl, .set_new hn _⟩
  | bounded v hv => exact ⟨.modify fun _ => rfl, .refl, .refl⟩
  | app v b hv hb => exact ⟨.modify fun _ => rfl, .refl, .refl⟩
  | ask t r ht hr => exact ⟨.refl, .refl, .modify fun _ => rfl⟩
  | _ => exact ⟨.refl, .refl, .refl⟩

theorem handle_hosts (hs : Tree s) (client : ℕ) {r : Request} (hr : ∀ v, r ≠ .commit v) :
    Hosts s.nextId s (s.handle client r) :=
  handle_relates (.refl _) .trans hs (fun _ _ h hn => h.hosts hn) hr
    fun _ _ => ⟨.modify fun _ => rfl, .refl, .refl⟩

theorem setTechnique_none_hosts (s : Scene) (u : ℕ) : Hosts n s (s.setTechnique u none) := by
  unfold setTechnique
  split
  · exact ⟨.refl, .refl, .refl⟩
  · next y hy =>
    rw [if_neg (by simp)]
    exact ⟨.refl, .set hy rfl, .refl⟩

theorem deleteTechnique_hosts (s : Scene) (t : ℕ) : Hosts n s (s.deleteTechnique t) := by
  unfold deleteTechnique
  split
  · exact ⟨.refl, .refl, .refl⟩
  · next x _ =>
    exact (setTechnique_none_hosts s x.owner).trans ⟨.refl, .modify fun _ => rfl, .erase⟩

theorem removeRenderingUnit_hosts (s : Scene) (v u : ℕ) :
    Hosts n s (s.removeRenderingUnit v u) := by
  unfold removeRenderingUnit
  split
  · exact ⟨.refl, .refl, .refl⟩
  · next x hx =>
    split
    · exact .refl n s
    · exact ⟨.set hx rfl, .refl, .refl⟩

theorem deleteRenderingUnit_hosts (s : Scene) (u : ℕ) : Hosts n s (s.deleteRenderingUnit u) := by
  unfold deleteRenderingUnit
  split
  · exact ⟨.refl, .refl, .refl⟩
  · next y _ =>
    have h1 := removeRenderingUnit_hosts (n := n) s y.owner u
    have h2 : Hosts n (s.removeRenderingUnit y.owner u)
        ((s.removeRenderingUnit y.owner u).deleteTechnique? y.technique) := by
      cases y.technique with
      | none => exact .refl n _
      | some t => exact deleteTechnique_hosts _ t
    exact (h1.trans h2).trans ⟨.modify fun _ => rfl, .erase, .refl⟩

theorem deleteBoundedApp_hosts (s : Scene) (b : ℕ) : Hosts n s (s.deleteBoundedApp b) := by
  unfold deleteBoundedApp
  split
  · exact ⟨.refl, .refl, .refl⟩
  · exact ⟨.modify fun _ => rfl, .refl, .refl⟩

theorem deleteVirtualObject_hosts (s : Scene) (v : ℕ) : Hosts n s (s.deleteVirtualObject v) := by
  unfold deleteVirtualObject
  split
  · exact ⟨.refl, .refl, .refl⟩
  · next x _ =>
    have units (l : List ℕ) (s : Scene) : Hosts n s (l.foldl deleteRenderingUnit s) := by
      induction l generalizing s with
      | nil => exact .refl n s
      | cons u l ih => exact (deleteRenderingUnit_hosts s u).trans (ih _)
    have h1 : Hosts n s (s.markDestroying v) := ⟨.modify fun _ => rfl, .refl, .refl⟩
    have h2 := units x.renderingUnitList (s.markDestroying v)
    have h3 (s : Scene) : Hosts n s (s.deleteBoundedApp? x.app) := by
      cases x.app with
      | none => exact .refl n s
      | some b => exact deleteBoundedApp_hosts s b
    exact ((h1.trans h2).trans (h3 _)).trans ⟨.erase, .refl, .refl⟩

theorem destroyResource_hosts (s : Scene) (r : ℕ) : Hosts n s (s.destroyResource r) := by
  have h1 (i : Interface) : Hosts n s (s.deleteObject r i) := by
    cases i with
    | virtualObject => exact deleteVirtualObject_hosts s r
    | bounded =>
      simp only [deleteObject]
      split
      · exact deleteBoundedApp_hosts s r
      · exact .refl n s
    | renderingUnit =>
      simp only [deleteObject]
      split
      · exact deleteRenderingUnit_hosts s r
      · exact .refl n s
    | baseTechnique =>
      simp only [deleteObject]
      split
      · exact deleteTechnique_hosts s r
      · exact .refl n s
    | _ => exact ⟨.refl, .refl, .refl⟩
  unfold destroyResource
  split
  · exact .refl n s
  · next x _ => exact (h1 x.interface).trans ⟨.refl, .refl, .refl⟩

theorem commitState_hosts (s : Scene) (v : ℕ) : Hosts n s (s.commitState v) := by
  have h := (commitState_commits_true s v).skeleton
  refine ⟨fun i _ x hx => ?_, fun i _ y hy => ?_, fun i _ z hz => ?_⟩
  · obtain ⟨x', hx', he⟩ := virtualObject_of_skeleton h hx
    have hp : (boneVirtualObject x').proxy = (boneVirtualObject x).proxy := by rw [he]
    exact ⟨x', hx', hp⟩
  · obtain ⟨y', hy', he⟩ := unit_of_skeleton h hy
    have ho : (boneUnit y').owner = (boneUnit y).owner := by rw [he]
    have hp : (boneUnit y').proxy = (boneUnit y).proxy := by rw [he]
    exact ⟨y', hy', Prod.ext ho hp⟩
  · obtain ⟨z', hz', he⟩ := Arena.of_mapAll (congrArg Scene.baseTechniques h) hz
    have ho : (boneTechnique z').owner = (boneTechnique z).owner := by rw [he]
    exact ⟨z', hz', ho⟩

end Hosts

/-- The calls from the one after the first `n` on. -/
def callsSince (s : Scene) (n : ℕ) : List Call := s.remote.calls.drop n

/-- The call makes the remote object of `h`, under that of its owner. -/
structure Makes (s : Scene) (h : Holder) (p : Proxy) (c : Call) : Prop where
  makes : c.makes = some (p.id, h.interface)
  parent : ∀ q, s.parentOf h = some q →
    ∃ i, c.uses = [(i, q.interface)] ∧ (s.live q → ∃ p', s.proxyOf q = some p' ∧ p'.id = i)

/-- The session began after `n` calls. -/
structure Addressed (n : ℕ) (s : Scene) : Prop where
  start : n ≤ s.remote.calls.length
  wellScoped : Call.grammar.WellScoped (s.callsSince n)
  made_lt : ∀ k ∈ Call.grammar.made (s.callsSince n), k.1 < s.remote.proxyCount
  maker : ∀ h p, s.proxyOf h = some p → ∃ c ∈ s.callsSince n, s.Makes h p c

section Addressed
variable {T : ℕ → Prop} {n : ℕ} {s s' : Scene}

theorem mem_made {c : Call} {k : ℕ × Interface} {l : List Call} (hc : c ∈ l)
    (hk : c.makes = some k) : k ∈ Call.grammar.made l := List.mem_filterMap.mpr ⟨c, hc, hk⟩

theorem live_of_proxy {x : Holder} {p : Proxy} (hp : s.proxyOf x = some p) : s.live x := by
  cases x <;>
  · obtain ⟨y, hy, -⟩ := Option.bind_eq_some_iff.mp hp
    simp [live, hy]

theorem Addressed.named (h : Addressed n s) {k : ℕ × Interface} (hk : s.Named T k) :
    k ∈ Call.grammar.made (s.callsSince n) := by
  obtain ⟨x, p, -, hp, rfl⟩ := hk
  obtain ⟨c, hc, hm⟩ := h.maker x p hp
  exact mem_made hc hm.makes

theorem Makes.of_eq {h : Holder} {p : Proxy} {c : Call} (hm : s.Makes h p c)
    (hq : s'.parentOf = s.parentOf) (hl : ∀ x, s'.live x → s.live x)
    (hp : ∀ x p, s.live x → s'.live x → s.proxyOf x = some p → s'.proxyOf x = some p) :
    s'.Makes h p c where
  makes := hm.makes
  parent := fun q h' => by
    rw [hq] at h'
    obtain ⟨i, hi, hq'⟩ := hm.parent q h'
    refine ⟨i, hi, fun hl' => ?_⟩
    obtain ⟨p', hp', he⟩ := hq' (hl q hl')
    exact ⟨p', hp q p' (hl q hl') hl' hp', he⟩

theorem Addressed.voice (h : Addressed n s) (hu : Voice T s s') : Addressed n s' := by
  have hq : s'.parentOf = s.parentOf := parentOf_of_forest (forest_of_content hu.content)
  have keeps {x : Holder} {p : Proxy} {c : Call} (hm : s.Makes x p c) : s'.Makes x p c :=
    hm.of_eq hq (fun y hy => by rwa [live_of_content hu.content] at hy)
      fun y p _ _ hp => hu.proxyOf hp
  have hu0 := hu
  cases hu with
  | silent hc hr hp =>
    have hl : s'.callsSince n = s.callsSince n := by rw [callsSince, hr, callsSince]
    refine ⟨hr ▸ h.start, hl ▸ h.wellScoped, ?_, fun x p hx => ?_⟩
    · rw [hl, hr]
      exact h.made_lt
    · rw [hp] at hx
      obtain ⟨c, hc', hm⟩ := h.maker x p hx
      exact ⟨c, hl ▸ hc', keeps hm⟩
  | call c hm hn =>
    have hl : (s.call c).callsSince n = s.callsSince n ++ [c] :=
      List.drop_append_of_le_length h.start
    refine ⟨?_, ?_, ?_, fun x p hx => ?_⟩
    · simpa [call, Remote.call] using h.start.trans (Nat.le_succ _)
    · rw [hl, Scoping.Grammar.wellScoped_concat]
      refine ⟨h.wellScoped, fun k hk => h.named (hn k hk), fun k hk => ?_⟩
      rw [show Call.grammar.makes c = none from hm] at hk
      cases hk
    · rw [hl, Scoping.Grammar.made_concat_of_none hm]
      exact h.made_lt
    · have hx' : s.proxyOf x = some p := by cases x <;> exact hx
      obtain ⟨c', hc', hm'⟩ := h.maker x p hx'
      exact ⟨c', hl ▸ List.mem_append_left _ hc', keeps hm'⟩
  | create x mk p r hr hn ht hm hu' hq' =>
    obtain ⟨channel, -, rfl, rfl⟩ := create_eq_some hr
    generalize hs : { s.remote with
      proxyCount := s.remote.proxyCount + 1
      calls := s.remote.calls ++ [mk s.remote.proxyCount] } = r at *
    have hl : ({ s with remote := r }.giveProxy ⟨s.remote.proxyCount, channel⟩ x).callsSince n =
        s.callsSince n ++ [mk s.remote.proxyCount] := by
      rw [callsSince, giveProxy_remote, ← hs]
      exact List.drop_append_of_le_length h.start
    have hm' : Call.grammar.makes (mk s.remote.proxyCount) =
        some (s.remote.proxyCount, x.interface) := hm
    refine ⟨?_, ?_, ?_, fun y p hy => ?_⟩
    · rw [giveProxy_remote, ← hs]
      simpa using h.start.trans (Nat.le_succ _)
    · rw [hl, Scoping.Grammar.wellScoped_concat]
      refine ⟨h.wellScoped, fun k hk => h.named (hu' k hk), fun k hk hk' => ?_⟩
      rw [hm'] at hk
      cases hk
      obtain ⟨k', hk', he⟩ := List.mem_map.mp hk'
      have := h.made_lt k' hk'
      omega
    · rw [hl, Scoping.Grammar.made_concat_of_some hm', giveProxy_remote, ← hs]
      intro k hk
      rcases List.mem_append.mp hk with hk | hk
      · exact (h.made_lt k hk).trans (Nat.lt_succ_self _)
      · rw [List.mem_singleton.mp hk]
        exact Nat.lt_succ_self _
    · rw [proxyOf_giveProxy] at hy
      split at hy
      · next hyx =>
        cases hy
        obtain ⟨rfl, -⟩ := hyx
        refine ⟨mk s.remote.proxyCount, by simp [hl], hm, fun q hq'' => ?_⟩
        rw [hq] at hq''
        obtain ⟨p', hp', hu''⟩ := hq' q hq''
        exact ⟨p'.id, hu'', fun _ => ⟨p', Voice.proxyOf hu0 hp', rfl⟩⟩
      · have hy' : s.proxyOf y = some p := by cases y <;> exact hy
        obtain ⟨c', hc', hm''⟩ := h.maker y p hy'
        exact ⟨c', hl ▸ List.mem_append_left _ hc', keeps hm''⟩

theorem Addressed.voices (h : Addressed n s) (hu : Voices T s s') : Addressed n s' :=
  Path.preserves (P := Addressed n) (fun _ _ hu h => h.voice hu) hu h

/-- The owner of what is left is that of before, and keeps its proxy. -/
theorem Hosts.parent (hh : Hosts s.nextId s s') (ht : Tree s) (hw : Wired s) {x q : Holder}
    (hx : s.live x) (hq : s'.parentOf x = some q) :
    s.parentOf x = some q ∧
      (s'.live q → s.live q ∧ ∀ p, s.proxyOf q = some p → s'.proxyOf q = some p) := by
  cases x with
  | renderingUnit u =>
    obtain ⟨y, hy⟩ := Option.isSome_iff_exists.mp hx
    have hn : s.forest.nodes u = some (nodeOf y) := forest_nodes hy
    have hu : u < s.nextId := by
      by_contra hlt
      have := (ht.fresh u (by omega)).2.1
      rw [hn] at this
      cases this
    simp only [parentOf, forest, Arena.mapAll_apply, Option.map_eq_some_iff] at hq
    obtain ⟨-, ⟨y', hy', rfl⟩, rfl⟩ := hq
    obtain ⟨y0, hy0, he⟩ := hh.units u hu y' hy'
    rw [hy, Option.some.injEq] at hy0
    subst hy0
    have ho : y.owner = y'.owner := congrArg Prod.fst he
    refine ⟨by simp [parentOf, hn, nodeOf, ho], fun hl => ?_⟩
    obtain ⟨v', hv' : s'.virtualObjects y'.owner = some v'⟩ := Option.isSome_iff_exists.mp hl
    have hlt : y'.owner < s.nextId := ho ▸ ht.owner_lt u _ hn
    obtain ⟨v, hv, hp⟩ := hh.objects _ hlt v' hv'
    refine ⟨by simp [live, nodeOf, hv], fun p hp' => ?_⟩
    simpa [proxyOf, nodeOf, hv, hv', hp] using hp'
  | baseTechnique t =>
    obtain ⟨z, hz⟩ := Option.isSome_iff_exists.mp hx
    have hn : s.forest.owners t = some z.owner := forest_owners hz
    have htn : t < s.nextId := by
      by_contra hlt
      have := (ht.fresh t (by omega)).2.2
      rw [hn] at this
      cases this
    simp only [parentOf, forest, Arena.mapAll_apply, Option.map_map, Option.map_eq_some_iff] at hq
    obtain ⟨z', hz', rfl⟩ := hq
    obtain ⟨z0, hz0, he⟩ := hh.techniques t htn z' hz'
    rw [hz, Option.some.injEq] at hz0
    subst hz0
    refine ⟨by simp [parentOf, hn, he], fun hl => ?_⟩
    obtain ⟨y', hy'⟩ := Option.isSome_iff_exists.mp hl
    have hlt : z'.owner < s.nextId := he ▸ hw.unit_lt t z.owner (by simp [unitWiring, hz])
    obtain ⟨y, hy, hp⟩ := hh.units _ hlt y' hy'
    have hp' : y.proxy = y'.proxy := congrArg Prod.snd hp
    exact ⟨by simp [live, hy], fun p hp'' => by simpa [proxyOf, hy, hy', hp'] using hp''⟩
  | _ => cases hq

/-- Objects come and go without a call. -/
theorem Addressed.quiet (h : Addressed n s) (ht : Tree s) (hw : Wired s) (hq : Quiet s s')
    (hh : Hosts s.nextId s s') : Addressed n s' := by
  have hl : s'.callsSince n = s.callsSince n := by rw [callsSince, hq.remote, callsSince]
  refine ⟨hq.remote ▸ h.start, hl ▸ h.wellScoped, ?_, fun x p hx => ?_⟩
  · rw [hl, hq.remote]
    exact h.made_lt
  · obtain ⟨c, hc, hm⟩ := h.maker x p (hq.proxyOf x p hx)
    refine ⟨c, hl ▸ hc, hm.makes, fun q hq' => ?_⟩
    obtain ⟨hq'', hk⟩ := hh.parent ht hw (live_of_proxy (hq.proxyOf x p hx)) hq'
    obtain ⟨i, hi, hp⟩ := hm.parent q hq''
    refine ⟨i, hi, fun hl' => ?_⟩
    obtain ⟨hl'', hk'⟩ := hk hl'
    obtain ⟨p', hp', he⟩ := hp hl''
    exact ⟨p', hk' p' hp', he⟩

/-- Without proxies, what was said stays as it was. -/
theorem Addressed.bare (h : Addressed n s) (hc : s'.remote.calls = s.remote.calls)
    (hn : s'.remote.proxyCount = s.remote.proxyCount) (hp : ∀ x, s'.proxyOf x = none) :
    Addressed n s' := by
  have hl : s'.callsSince n = s.callsSince n := by rw [callsSince, hc, callsSince]
  refine ⟨hc ▸ h.start, hl ▸ h.wellScoped, ?_, fun x p hx => ?_⟩
  · rw [hl, hn]
    exact h.made_lt
  · rw [hp] at hx
    cases hx

/-- A session that begins was told nothing yet. -/
theorem addressed_of_bare (hp : ∀ x, s.proxyOf x = none) :
    Addressed s.remote.calls.length s := by
  have hl : s.callsSince s.remote.calls.length = [] := List.drop_length
  refine ⟨Nat.le_refl _, hl ▸ Scoping.Grammar.wellScoped_nil, ?_, fun x p hx => ?_⟩
  · intro k hk
    rw [hl] at hk
    cases hk
  · rw [hp] at hx
    cases hx

end Addressed

section Steps
variable {T : ℕ → Prop} {s : Scene}

theorem commitVirtualObject_speaks (s : Scene) (v : ℕ) :
    ∃ m, Quiet s m ∧ Hosts s.nextId s m ∧ Voices (fun _ => True) m (s.commitVirtualObject v) :=
  ⟨_, commitState_quiet s v, commitState_hosts s v, syncIfSession_voices trivial (span_true _)⟩

/-- Objects come and go and then a sync speaks, or a session begins or ends. -/
theorem act_speaks (ht : Tree s) (a : Action) :
    (∃ m, Quiet s m ∧ Hosts s.nextId s m ∧ Voices (fun _ => True) m (s.act a)) ∨
      s.remote.hasSession = false ∧
        Voices (fun _ => True) { s with remote := s.remote.establish } (s.act a) ∨
        s.remote.hasSession ∧ s.act a = { s with remote := s.remote.disconnect }.dropProxies := by
  have same : ∃ m, Quiet s m ∧ Hosts s.nextId s m ∧ Voices (fun _ => True) m s :=
    ⟨s, .refl s, .refl _ s, .refl⟩
  cases a with
  | request client r =>
    left
    simp only [act]
    split
    · by_cases hc : ∃ v, r = .commit v
      · obtain ⟨v, rfl⟩ := hc
        exact commitVirtualObject_speaks s v
      · have hc' : ∀ v, r ≠ .commit v := fun v h => hc ⟨v, h⟩
        refine ⟨_, ?_, handle_hosts ht client hc', .refl⟩
        by_cases hf : ∃ v, r = .frame v
        · obtain ⟨v, rfl⟩ := hf
          exact queueFrameCallback_quiet s v
        · exact (handle_still ht client hc' fun v h => hf ⟨v, h⟩).toQuiet
    · exact same
  | destroy client r =>
    left
    simp only [act]
    split
    · refine ⟨_, ?_, destroyResource_hosts s r, .refl⟩
      rcases destroyResource_cases ht r with ⟨-, h⟩ | ⟨-, h⟩
      · exact h.toQuiet
      · exact h.toQuiet
    · exact same
  | peerDiscover connected =>
    simp only [act, peerDiscover]
    split
    · exact .inl same
    · next hc =>
      refine .inr (.inl ⟨?_, sessionEstablisheds_voices _ _⟩)
      simp only [Bool.or_eq_true, not_or, Bool.not_eq_true] at hc
      exact hc.1
  | sessionDisconnect =>
    simp only [act, sessionDisconnect]
    split
    · next hc => exact .inr (.inr ⟨hc, rfl⟩)
    · exact .inl same
  | frameTimer busyness =>
    left
    simp only [act, frameTimer]
    split
    · refine ⟨_, sessionFrame_quiet s, ⟨fun i _ x hx => ?_, .refl, .refl⟩, .refl⟩
      obtain ⟨x', hx', rfl⟩ := Option.map_eq_some_iff.mp hx
      exact ⟨x', hx', rfl⟩
    · exact same
  | moveApp b polar azimuthal =>
    left
    simp only [act, moveApp]
    split
    · exact same
    · next x _ =>
      obtain ⟨m, hq, hh, hu⟩ := commitVirtualObject_speaks (s.turnApp b x polar azimuthal)
        x.virtualObject
      have h1 : Quiet s (s.turnApp b x polar azimuthal) := (turnApp_still ..).toQuiet
      exact ⟨m, h1.trans hq, ⟨hh.objects, hh.units, hh.techniques⟩, hu⟩

theorem Voice.session {s' : Scene} (h : Voice T s s') :
    s'.remote.currentSession = s.remote.currentSession ∧
      s'.remote.sessionCount = s.remote.sessionCount := by
  cases h with
  | silent hc hr => exact ⟨by rw [hr], by rw [hr]⟩
  | call => exact ⟨rfl, rfl⟩
  | create x mk p r hr =>
    obtain ⟨channel, -, -, rfl⟩ := create_eq_some hr
    rw [giveProxy_remote]
    exact ⟨rfl, rfl⟩

theorem Voices.session {s' : Scene} (h : Voices T s s') :
    s'.remote.currentSession = s.remote.currentSession :=
  Path.const (f := fun s => s.remote.currentSession) (fun _ _ h => h.session.1) h

theorem Voices.sessionCount {s' : Scene} (h : Voices T s s') :
    s'.remote.sessionCount = s.remote.sessionCount :=
  Path.const (f := fun s => s.remote.sessionCount) (fun _ _ h => h.session.2) h

/-- Where there is no session, nothing is said. -/
theorem Voices.quiet {s' : Scene} (h : Voices T s s') (hs : s.remote.hasSession = false)
    (hp : ∀ x, s.proxyOf x = none) : s'.remote = s.remote := by
  have h1 : s'.remote = s.remote ∧ ∀ x, s'.proxyOf x = none := by
    refine Path.preserves (P := fun m => m.remote = s.remote ∧ ∀ x, m.proxyOf x = none)
      (fun m m' hu ih => ?_) h ⟨rfl, hp⟩
    cases hu with
    | silent hc hr hp' ho => exact ⟨hr.trans ih.1, fun x => (hp' x).trans (ih.2 x)⟩
    | call c hm hn =>
      obtain ⟨k, hk⟩ := List.exists_mem_of_ne_nil _ (Call.uses_ne_nil hm)
      obtain ⟨x, p, -, hx, -⟩ := hn k hk
      rw [ih.2 x] at hx
      cases hx
    | create x mk p r hr =>
      obtain ⟨channel, hc, -, -⟩ := create_eq_some hr
      rw [ih.1] at hc
      simp [Remote.hasSession, hc] at hs
  exact h1.1

end Steps

/-- A step, and how many calls had been made when the last session began. -/
def hear (k : Scene × ℕ) (a : Action) : Scene × ℕ :=
  (k.1.step a,
    if (k.1.step a).remote.sessionCount = k.1.remote.sessionCount then k.2
    else k.1.remote.calls.length)

theorem act_addressed {s : Scene} {n : ℕ} (ht : Tree s) (hw : Wired s) (ha : Attached s)
    (h : Addressed n s) (a : Action) :
    (s.act a).remote.sessionCount = s.remote.sessionCount ∧ Addressed n (s.act a) ∨
      (s.act a).remote.sessionCount ≠ s.remote.sessionCount ∧
        Addressed s.remote.calls.length (s.act a) := by
  rcases act_speaks ht a with ⟨m, hq, hh, hu⟩ | ⟨hs, hu⟩ | ⟨-, he⟩
  · exact .inl ⟨by rw [hu.sessionCount, hq.remote], (h.quiet ht hw hq hh).voices hu⟩
  · have hb : ∀ x, ({ s with remote := s.remote.establish } : Scene).proxyOf x = none := by
      intro x
      rw [← ha.proxyOf_of_disconnected hs x]
      cases x <;> rfl
    refine .inr ⟨?_, (addressed_of_bare hb).voices hu⟩
    rw [hu.sessionCount]
    simp [Remote.establish]
  · rw [he]
    exact .inl ⟨rfl, h.bare rfl rfl fun x => by
      cases x <;> simp [proxyOf, dropProxies, Option.bind_map]⟩

theorem step_addressed {k : Scene × ℕ} (ht : Tree k.1) (hw : Wired k.1) (ha : Attached k.1)
    (h : Addressed k.2 k.1) (a : Action) : Addressed (hear k a).2 (hear k a).1 := by
  simp only [hear, step]
  split
  · rwa [if_pos rfl]
  · rcases act_addressed ht hw ha h a with ⟨hs, h1⟩ | ⟨hs, h1⟩
    · rwa [if_pos hs]
    · rwa [if_neg hs]

/-- What one session was told is in order, in every state of every run. -/
theorem run_addressed (as : List Action) :
    Addressed (Run.final hear (init, 0) as).2 (Run.final hear (init, 0) as).1 := by
  have h0 : Addressed 0 init := by
    have hp : ∀ x, init.proxyOf x = none := fun x => by cases x <;> rfl
    exact addressed_of_bare hp
  have h1 : Tree (Run.final hear (init, 0) as).1 ∧ Wired (Run.final hear (init, 0) as).1 ∧
      Attached (Run.final hear (init, 0) as).1 ∧
        Addressed (Run.final hear (init, 0) as).2 (Run.final hear (init, 0) as).1 :=
    Run.final_induction
      (P := fun k : Scene × ℕ => Tree k.1 ∧ Wired k.1 ∧ Attached k.1 ∧ Addressed k.2 k.1)
      ⟨init_tree, init_wired, init_attached, h0⟩
      (fun k a ⟨ht, hw, ha, h⟩ => ⟨step_tree k.1 a ht, (step_wired k.1 a ⟨ht, hw⟩).2,
        (step_attached k.1 a ⟨ht, ha⟩).2, step_addressed ht hw ha h a⟩) as
  exact h1.2.2.2

theorem Tree.calls_of_disconnected {s : Scene} (ht : Tree s) (ha : Attached s) {a : Action}
    (hs : (s.step a).remote.hasSession = false) : (s.step a).remote.calls = s.remote.calls := by
  unfold step at hs ⊢
  split at hs
  · next hf => rw [if_pos hf]
  · next hf =>
    rw [if_neg hf]
    rcases act_speaks ht a with ⟨m, hq, hh, hu⟩ | ⟨hn, hu⟩ | ⟨-, he⟩
    · have hu : Voices _ m (s.act a) := hu
      have hm : m.remote.hasSession = false := by
        rwa [Remote.hasSession, hu.session] at hs
      have hp : ∀ x, m.proxyOf x = none :=
        (ha.quiet hq).proxyOf_of_disconnected hm
      rw [hu.quiet hm hp, hq.remote]
    · have hu : Voices _ _ (s.act a) := hu
      rw [Remote.hasSession, hu.session] at hs
      cases hs
    · rw [he]
      rfl

/-- In every run, the calls made on one session name only remote objects that the session was told
to make before, each as what it was made, and make each of them once; and a step that ends without
a session makes no call. -/
theorem calls_wellScoped_throughout (as : List Action) :
    Run.Always hear (fun k => Call.grammar.WellScoped (k.1.callsSince k.2)) (init, 0) as ∧
      Run.Each step (fun s a => (s.step a).remote.hasSession = false →
        (s.step a).remote.calls = s.remote.calls) init as := by
  refine ⟨fun pre _ => (run_addressed pre).wellScoped, fun pre a _ hs => ?_⟩
  exact (run_tree pre).calls_of_disconnected (run_attached pre) hs

/-- In every state, an object that has a proxy was made by exactly one call of the session; and the
call for a unit or a technique made it under one remote object, that of its owner for as long as
the owner lives. -/
theorem remoteTree_throughout (as : List Action) :
    Run.Always hear (fun k => ∀ h p, k.1.proxyOf h = some p →
      ∃ c ∈ k.1.callsSince k.2, k.1.Makes h p c ∧
        ∀ c' ∈ k.1.callsSince k.2, ∀ n, c'.makes = some n → n.1 = p.id → c' = c) (init, 0) as := by
  intro pre _ h p hp
  have ha := run_addressed pre
  obtain ⟨c, hc, hm⟩ := ha.maker h p hp
  exact ⟨c, hc, hm, fun c' hc' n hn he => ha.wellScoped.maker_unique hc' hc hn hm.makes he⟩

end Scene
end Yaza
