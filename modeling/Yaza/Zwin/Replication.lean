import Yaza.Zwin.Agreeing
import Yaza.Zwin.Grounding

/-! Runs in which every sync leaves the remote techniques with the committed states: exactly those
in which every commit tells what it must. -/
namespace Yaza
namespace Scene

/-- The remote techniques of the virtual object were told what is committed. -/
def MirrorsAt (s : Scene) (v : ℕ) : Prop :=
  ∀ t ∈ s.registered v, ∃ z q, s.baseTechniques t = some z ∧ s.idOf (.baseTechnique t) = some q ∧
    s.Mirrors q z.current

/-- A session begins: a peer is discovered, and there is no session yet. -/
def establishes (s : Scene) (a : Action) : Prop :=
  s.fault = none ∧ a = .peerDiscover true ∧ s.remote.hasSession = false

/-- The scene when the handler of the virtual object returns, of those of a session that begins. -/
def established (s : Scene) (v : ℕ) : Scene :=
  (List.range (v + 1)).foldl sessionEstablished { s with remote := s.remote.establish }

/-- After every sync of the step that gets past the check of its app, the remote techniques were
told what is committed, if the program still runs. -/
structure Mirrored (s : Scene) (a : Action) : Prop where
  commit : ∀ v, s.committedBy a = some v → s.syncs v → (s.step a).fault = none →
    (s.step a).MirrorsAt v
  established : s.establishes a → ∀ v ∈ s.forced, (s.established v).fault = none →
    (s.established v).MirrorsAt v

/-- The technique is registered in the virtual object, or its next commit registers it. -/
def Due (s : Scene) (v t : ℕ) : Prop :=
  ∃ u y, s.renderingUnits u = some y ∧ y.owner = v ∧
    y.technique.or (s.firstNew y.listeners) = some t

/-- Every sync of the step tells what it must. -/
structure TellsAll (s : Scene) (a : Action) : Prop where
  commit : ∀ v, s.committedBy a = some v → s.syncs v → (s.step a).fault = none →
    ∀ t z, s.Due v t → s.baseTechniques t = some z → s.Tells z
  established : s.establishes a → ∀ v ∈ s.forced, (s.established v).fault = none →
    ∀ t ∈ s.registered v, ∀ z, s.baseTechniques t = some z →
      ∀ y ∈ LastWrite.standing Setting.part (uniformsOf z.current), y.sent

/-- The remote techniques were told what is committed. -/
def InStep (s : Scene) : Prop :=
  ∀ v t z q, t ∈ s.registered v → s.baseTechniques t = some z →
    s.idOf (.baseTechnique t) = some q → s.Mirrors q z.current

/-- What holds while the program runs. -/
structure Replicated (s : Scene) : Prop extends Grounded s where
  known : s.AllKnown
  inStep : s.InStep

section Settings
variable {s s' : Scene} {x x' : TechniqueState} {q : ℕ}

theorem live_of_skeleton (h : s'.skeleton = s.skeleton) (x : Holder) : s'.live x = s.live x := by
  cases x with
  | virtualObject i => exact Arena.isSome_of_mapAll (congrArg Scene.virtualObjects h) i
  | renderingUnit i => exact Arena.isSome_of_mapAll (congrArg Scene.renderingUnits h) i
  | baseTechnique i => exact Arena.isSome_of_mapAll (congrArg Scene.baseTechniques h) i
  | program i => exact Arena.isSome_of_mapAll (congrArg Scene.glPrograms h) i
  | shader i =>
    have h1 : s'.glShaders = s.glShaders :=
      show s'.skeleton.glShaders = s.skeleton.glShaders by rw [h]
    simp only [live, h1]
  | vertexArray i => exact Arena.isSome_of_mapAll (congrArg Scene.glVertexArrays h) i
  | buffer i => exact Arena.isSome_of_mapAll (congrArg Scene.glBuffers h) i
  | texture i => exact Arena.isSome_of_mapAll (congrArg Scene.glTextures h) i
  | sampler i => exact Arena.isSome_of_mapAll (congrArg Scene.glSamplers h) i

theorem settings_of_bare {z z' : GlBaseTechnique}
    (h : bareTechnique s.bindingAlive z' = bareTechnique s.bindingAlive z) :
    s.settings z'.current = s.settings z.current := by
  rw [← settings_bare, h, settings_bare]

theorem mirrors_congr (h : s.settings x' = s.settings x) : s.Mirrors q x' ↔ s.Mirrors q x := by
  rw [Mirrors, Mirrors, h]

end Settings

/-- The same objects are alive, with the same proxies, and the session was told the same. -/
structure Alike (s s' : Scene) : Prop where
  remote : s'.remote = s.remote
  proxyOf : ∀ x, s'.proxyOf x = s.proxyOf x
  live : ∀ x, s'.live x = s.live x

section Alike
variable {s s' : Scene} (h : Alike s s')
include h

theorem Alike.idOf (x : Holder) : s'.idOf x = s.idOf x := by
  rw [Scene.idOf, Scene.idOf, h.proxyOf]

theorem Alike.shows (q : ℕ) (y : Setting) : s'.Shows q y ↔ s.Shows q y := by
  have h1 : s'.callFor q y = s.callFor q y := callFor_congr fun x _ => h.idOf x
  rw [Shows, Shows, h1, Scene.told, Scene.told, h.remote]

theorem Alike.allKnown (hk : s.AllKnown) : s'.AllKnown := by
  intro c hc
  rw [spoken, h.remote] at hc
  have h1 := hk c hc
  exact ⟨h.remote ▸ h1.technique, h.remote ▸ h1.given, h1.sent⟩

end Alike

theorem Alike.trans {s s' s'' : Scene} (h : Alike s s') (h' : Alike s' s'') : Alike s s'' where
  remote := h'.remote.trans h.remote
  proxyOf := fun x => (h'.proxyOf x).trans (h.proxyOf x)
  live := fun x => (h'.live x).trans (h.live x)

theorem alike_of_skeleton {s s' : Scene} (h : s'.skeleton = s.skeleton) : Alike s s' where
  remote := remote_of_skeleton h
  proxyOf := proxyOf_of_skeleton h
  live := live_of_skeleton h

/-- The part of a commit that comes before its sync. -/
theorem turned_commitState {s : Scene} (ht : Tree s) (hw : Wired s) {a : Action} {v : ℕ}
    (hc : s.committedBy a = some v) : Alike s ((s.turned a).commitState v) := by
  obtain ⟨-, ⟨apps, h0⟩, -, -, -, -⟩ := step_of_commit ht hw hc
  have h1 : Alike s (s.turned a) := by
    rw [h0]
    exact ⟨rfl, fun x => by cases x <;> rfl, fun x => by cases x <;> rfl⟩
  exact h1.trans (alike_of_skeleton (commitState_commits_true (s.turned a) v).skeleton)

section Commit
variable {s : Scene} (hr : Replicated s) {a : Action} {v t : ℕ}
include hr

/-- After a commit the techniques are registered that were due. -/
theorem Replicated.registered_iff (hc : s.committedBy a = some v) :
    t ∈ (s.step a).registered v ↔ s.Due v t := by
  obtain ⟨he, -, ht1, hw1, hv, -⟩ := step_of_commit hr.tree hr.wired hc
  have ht' := step_tree s a hr.tree
  have hk := turned_commitState hr.tree hr.wired hc
  have hl (x : Holder) : (s.step a).live x = s.live x := by
    rw [he, commitVirtualObject]
    exact (Syncs.live (syncIfSession_steps
      ((commitState_commits_true (s.turned a) v).tree ht1).registered v) x).trans (hk.live x)
  rw [mem_registered_iff ht'.registered]
  constructor
  · rintro ⟨-, u, n', hn', rfl, -, hs⟩
    rcases step_nodes hr.tree hr.wired a hn' with ⟨n, hn, h⟩ | ⟨-, -, h⟩
    · obtain ⟨y, hy, rfl⟩ := Option.map_eq_some_iff.mp hn
      refine ⟨u, y, hy, h.owner.symm, ?_⟩
      have h1 := h.slot
      rw [if_pos (h.owner ▸ hc), hs, listenersOf, hy] at h1
      exact h1.symm
    · rw [h] at hs
      cases hs
  · rintro ⟨u, y, hy, rfl, ht⟩
    refine ⟨(hl (.virtualObject y.owner)).trans hv, u, ?_⟩
    have h1 : ((s.step a).renderingUnits u).isSome :=
      (hl (.renderingUnit u)).trans (by simp [live, hy])
    obtain ⟨y', hy'⟩ := Option.isSome_iff_exists.mp h1
    have hn' : (s.step a).forest.nodes u = some (nodeOf y') := forest_nodes hy'
    rcases step_nodes hr.tree hr.wired a hn' with ⟨n, hn, h⟩ | ⟨h, -, -⟩
    · cases (forest_nodes hy).symm.trans hn
      refine ⟨_, hn', h.owner, h.joined.mpr (.inr hc), ?_⟩
      have hc' : s.committedBy a = some (nodeOf y).owner := hc
      rw [h.slot, if_pos hc', listenersOf, hy]
      exact ht
    · have h2 := (hr.tree.fresh u h.ge).2.1
      cases (forest_nodes hy).symm.trans h2

/-- What a technique that was due had been told is what was committed of it, if it has a proxy;
otherwise its proxy is new. -/
theorem Replicated.shows_before {s₁ : Scene} (h₁ : Alike s s₁) (hs : AllSyncs s₁ (s.step a))
    {z : GlBaseTechnique} (hz : s.baseTechniques t = some z) {q : ℕ}
    (hq : (s.step a).idOf (.baseTechnique t) = some q) (ht : t ∈ (s.step a).registered v)
    (y : Setting) : s₁.Shows q y ↔ z.proxy.isSome ∧
      LastWrite.latest Setting.part (s₁.settings z.current) y.part = some y := by
  have hp : s.proxyOf (.baseTechnique t) = z.proxy := by rw [proxyOf, hz, Option.bind_some]
  have hid : s₁.idOf (.baseTechnique t) = z.proxy.map Proxy.id := by rw [h₁.idOf, Scene.idOf, hp]
  cases hzp : z.proxy with
  | some p =>
    obtain ⟨z₀, hz₀, -, h⟩ := hr.step_registered a ht
    cases hz.symm.trans hz₀
    have hzc := hr.proxied t z hz (by rw [hzp]; rfl)
    rcases h with ⟨hreg, -⟩ | ⟨hn, -⟩
    · rw [hzp] at hp hid
      cases (Syncs.idOf hs hid).symm.trans hq
      have h1 := hr.inStep v t z p.id hreg hz (by rw [Scene.idOf, hp]; rfl)
      rw [h₁.shows, settings_congr h₁.live]
      simpa using h1 y
    · rw [hn] at hzc
      cases hzc
  | none =>
    simp only [Option.isSome_none, Bool.false_eq_true, false_and, iff_false]
    rintro ⟨c, h1, -⟩
    have hn : s₁.remote.proxyCount ≤ q := by
      by_contra hlt
      have h2 := Syncs.idOf_back hs hq (by omega)
      rw [hid, hzp] at h2
      cases h2
    rw [(h₁.allKnown hr.known).told_fresh hn] at h1
    cases h1

/-- What a commit that is synced says, and what is up to date after it. -/
theorem Replicated.commit_utters (hc : s.committedBy a = some v) (hs : s.syncs v) :
    Utters (((s.turned a).commitState v).tells false v) ((s.turned a).commitState v) (s.step a) ∧
      ∀ i, ((s.turned a).commitState v).Reached v i → (s.step a).UpTo i := by
  obtain ⟨x, hx, hxa, hs1, ht1, he⟩ := step_of_sync hr.tree hr.wired hc hs
  rw [he]
  exact ⟨syncVirtualObject_utters hs1 ht1.registered hx hxa false,
    fun i => syncVirtualObject_upTo hs1 ht1.registered hx hxa false⟩

/-- What a commit and its sync tell a technique, and what it makes of it. -/
theorem Replicated.commit_hears (hc : s.committedBy a = some v) (hs : s.syncs v)
    (hf : (s.step a).fault = none) (ht : t ∈ (s.step a).registered v) :
    ∃ s₁ z z' q, Alike s s₁ ∧ AllSyncs s₁ (s.step a) ∧ s.baseTechniques t = some z ∧
      (s.step a).baseTechniques t = some z' ∧ Trimmed s.bindingAlive (z.commit s.bindingAlive) z' ∧
        (s.step a).idOf (.baseTechnique t) = some q ∧
          Hears s₁ (s.step a) q (s₁.sends (z.commit s.bindingAlive).current false) := by
  obtain ⟨hu, hup⟩ := hr.commit_utters hc hs
  have h₁ := turned_commitState hr.tree hr.wired hc
  have hct := Syncs.content hu.syncs
  have hreg := registered_of_content hct v
  -- The technique was there, and was committed.
  obtain ⟨z, hz, ho, -⟩ := hr.step_registered a ht
  have hre : s.Reaches a t := ⟨v, hc, ho⟩
  obtain ⟨z', hz'⟩ := technique_of_registered (step_tree s a hr.tree).registered ht
  obtain ⟨z₀, hz₀, hst, -⟩ := hr.step_technique a hz' (Option.isSome_of_eq_some hz)
  cases hz.symm.trans hz₀
  have htr := hst.reached hre
  -- It has a proxy now.
  have hlt : (s.step a).live (.baseTechnique t) := by simp [live, hz']
  have ht₁ : t ∈ ((s.turned a).commitState v).registered v := hreg ▸ ht
  obtain ⟨p, hp⟩ := Option.isSome_iff_exists.mp (hup (.baseTechnique t) ht₁ hf hlt).1
  have hq : (s.step a).idOf (.baseTechnique t) = some p.id := by rw [Scene.idOf, hp]; rfl
  have hsend : ((s.turned a).commitState v).sendsOf false t =
      ((s.turned a).commitState v).sends (z.commit s.bindingAlive).current false := by
    rw [← sendsOf_of_content hct, sendsOf, hz', Option.map_some, Option.getD_some,
      sends_congr fun x => (Syncs.live hu.syncs x).trans (h₁.live x), ← sends_bare, htr.same,
      sends_bare, sends_congr h₁.live]
  refine ⟨_, z, z', p.id, h₁, hu.syncs, hz, hz', htr, hq, ?_⟩
  apply hu.hears hf (step_attached s a ⟨hr.tree, hr.attached⟩).2 (h₁.allKnown hr.known)
    (fun e he => sent_of_tells _ _ _ he) hq
  intro k
  rw [latest_tells, if_pos ht₁, hsend]

/-- After a commit that is synced the remote techniques were told what is committed exactly when
the sync tells what it must. -/
theorem Replicated.commit_iff (hc : s.committedBy a = some v) (hs : s.syncs v)
    (hf : (s.step a).fault = none) : (s.step a).MirrorsAt v ↔
      ∀ t z, s.Due v t → s.baseTechniques t = some z → s.Tells z := by
  have one {t : ℕ} {z : GlBaseTechnique} (ht : s.Due v t) (hz : s.baseTechniques t = some z) :
      (∃ z' q, (s.step a).baseTechniques t = some z' ∧
        (s.step a).idOf (.baseTechnique t) = some q ∧ (s.step a).Mirrors q z'.current) ↔
          s.Tells z := by
    have ht' := (hr.registered_iff hc).mpr ht
    obtain ⟨s₁, z₀, z', q, h₁, hsy, hz₀, hz', htr, hq, hh⟩ := hr.commit_hears hc hs hf ht'
    cases hz.symm.trans hz₀
    have hset : (s.step a).settings z'.current =
        (s.step a).settings (z.commit s.bindingAlive).current := by
      have hl (x : Holder) : (s.step a).live x = s.live x :=
        (Syncs.live hsy x).trans (h₁.live x)
      rw [settings_congr hl, settings_congr hl, settings_of_bare htr.same]
    have hb := bindingAlive_of_live h₁.live
    have h1 := Hears.mirrors_iff (hr.shows_before h₁ hsy hz hq ht') (hb ▸ hh)
      (hr.tidy t z hz).1.draw
    rw [vertexArrayOf_congr h₁.live, vertexArrayOf_congr h₁.live, programOf_congr h₁.live,
      programOf_congr h₁.live, texturesOf_congr h₁.live, texturesOf_congr h₁.live,
      drawOf_congr h₁.live, drawOf_congr h₁.live, hb] at h1
    have h2 : (s.step a).Mirrors q z'.current ↔ s.Tells z := by
      rw [mirrors_congr hset]
      refine h1.trans ⟨?_, ?_⟩
      · rintro ⟨ha, hb, hc, ⟨hd, he⟩, hf⟩
        exact ⟨ha, hb, hc, hf, hd, he⟩
      · rintro ⟨ha, hb, hc, hf, hd, he⟩
        exact ⟨ha, hb, hc, ⟨hd, he⟩, hf⟩
    rw [← h2]
    constructor
    · rintro ⟨z'', q', hz'', hq', hm⟩
      cases hz'.symm.trans hz''
      cases hq.symm.trans hq'
      exact hm
    · intro hm
      exact ⟨z', q, hz', hq, hm⟩
  constructor
  · intro h t z ht hz
    exact (one ht hz).mp (h t ((hr.registered_iff hc).mpr ht))
  · intro h t ht
    obtain ⟨z, hz, -⟩ := hr.step_registered a ht
    have hd := (hr.registered_iff hc).mp ht
    exact (one hd hz).mpr (h t z hd hz)

end Commit

/-- What the handler of a virtual object says when a session begins. -/
def declares (s : Scene) (v : ℕ) : List (ℕ × Setting) :=
  if s.isForced v then s.tells true v else []

theorem tells_of_content {s s' : Scene} (h : s'.content = s.content) (force : Bool) (v : ℕ) :
    s'.tells force v = s.tells force v := by
  rw [tells, tells, unitsOf_of_content h]
  congr 1
  exact funext (tellsOf_of_content h force)

theorem declares_of_content {s s' : Scene} (h : s'.content = s.content) (v : ℕ) :
    s'.declares v = s.declares v := by
  rw [declares, declares, tells_of_content h, isForced, isForced, any_of_content h fun _ => rfl]

theorem sessionEstablished_utters {s : Scene} (hs : s.remote.hasSession)
    (hg : s.forest.Registered) (v : ℕ) : Utters (s.declares v) s (s.sessionEstablished v) := by
  cases hx : s.virtualObjects v with
  | none =>
    simp only [declares, isForced, sessionEstablished, hx]
    exact utters_nothing .refl rfl
  | some x =>
    simp only [declares, isForced, sessionEstablished, hx, Option.any_some]
    cases hc : x.committed with
    | false => exact utters_nothing .refl rfl
    | true =>
      cases ha : x.app with
      | none =>
        simp only [syncVirtualObject, hx, ha]
        exact utters_nothing .refl rfl
      | some b => exact syncVirtualObject_utters hs hg hx (by rw [ha]; rfl) true

theorem sessionEstablisheds_utters {s : Scene} (hs : s.remote.hasSession)
    (hg : s.forest.Registered) (l : List ℕ) :
    Utters (l.flatMap s.declares) s (l.foldl sessionEstablished s) := by
  apply Utters.foldl
  intro s' h v _
  rw [← declares_of_content (Syncs.content h)]
  apply sessionEstablished_utters ((Syncs.hasSession h).trans hs)
  rw [forest_of_content (Syncs.content h)]
  exact hg

theorem sent_of_declares {s : Scene} {l : List ℕ} {e : ℕ × Setting}
    (he : e ∈ l.flatMap s.declares) : e.2.sent := by
  obtain ⟨v, -, he⟩ := List.mem_flatMap.mp he
  rw [declares] at he
  split at he
  · exact sent_of_tells _ _ _ he
  · cases he

/-- A technique is told by the object that it is registered in. -/
theorem latest_declares {s : Scene} (hg : s.forest.Registered) {l : List ℕ} {v t : ℕ}
    (hv : v ∈ l) (hf : s.isForced v) (ht : t ∈ s.registered v) (k : Part) :
    LastWrite.latest (fun e => (e.1, e.2.part)) (l.flatMap s.declares) (t, k) =
      (LastWrite.latest Setting.part (s.sendsOf true t) k).map fun y => (t, y) := by
  rw [LastWrite.latest_flatMap hv, declares, if_pos hf, latest_tells, if_pos ht]
  intro w _ hw
  rw [declares]
  split
  · rw [latest_tells, if_neg]
    intro ht'
    exact hw (Option.some.inj ((objectOfTechnique_of_registered hg ht').symm.trans
      (objectOfTechnique_of_registered hg ht)))
  · rfl

/-- A session has begun, and nothing was told in it yet. -/
structure Begun (s : Scene) : Prop where
  session : s.remote.hasSession
  registered : s.forest.Registered
  attached : Attached s
  known : s.AllKnown
  fresh : ∀ x, s.proxyOf x = none

theorem Replicated.begun {s : Scene} (hr : Replicated s) (hd : s.remote.hasSession = false) :
    Begun { s with remote := s.remote.establish } where
  session := rfl
  registered := hr.tree.registered
  attached := hr.attached.establish hd
  known := fun c hc => ⟨(hr.known c hc).technique, (hr.known c hc).given, (hr.known c hc).sent⟩
  fresh := fun x => by
    rw [← hr.attached.proxyOf_of_disconnected hd x]
    cases x <;> rfl

section Begun
variable {s : Scene} (hb : Begun s) {l : List ℕ}
  (hf : (l.foldl sessionEstablished s).fault = none)
include hb

/-- A technique that was told nothing shows nothing. -/
theorem Begun.not_shows {s' : Scene} (h : AllSyncs s s') {x : Holder} {q : ℕ}
    (hq : s'.idOf x = some q) (y : Setting) : ¬ s.Shows q y := by
  rintro ⟨c, h1, -⟩
  have hn : s.remote.proxyCount ≤ q := by
    by_contra hlt
    have h2 := Syncs.idOf_back h hq (by omega)
    rw [Scene.idOf, hb.fresh] at h2
    cases h2
  rw [hb.known.told_fresh hn] at h1
  cases h1

include hf

theorem Begun.allKnown : (l.foldl sessionEstablished s).AllKnown := by
  have hu := sessionEstablisheds_utters hb.session hb.registered l
  exact hu.allKnown hf (hb.attached.syncs hu.syncs) hb.known fun e => sent_of_declares

/-- After the handlers of some objects a technique of one of them was told what is committed
exactly when its uniform variables can be sent. -/
theorem Begun.mirrors_iff {v t : ℕ} (hv : v ∈ l) (hfo : s.isForced v) (ht : t ∈ s.registered v)
    {z : GlBaseTechnique} (hz : s.baseTechniques t = some z) :
    ∃ z' q, (l.foldl sessionEstablished s).baseTechniques t = some z' ∧
      (l.foldl sessionEstablished s).idOf (.baseTechnique t) = some q ∧
        ((l.foldl sessionEstablished s).Mirrors q z'.current ↔
          ∀ y ∈ LastWrite.standing Setting.part (uniformsOf z.current), y.sent) := by
  have hu := sessionEstablisheds_utters hb.session hb.registered l
  have hct := Syncs.content hu.syncs
  have hl := Syncs.live hu.syncs
  have ha := hb.attached.syncs hu.syncs
  obtain ⟨z', hz', hbare⟩ := technique_of_content hct.symm hz
  have hset : (l.foldl sessionEstablished s).settings z'.current =
      (l.foldl sessionEstablished s).settings z.current := settings_of_bare hbare
  obtain ⟨x, hx, hxc⟩ := Option.any_eq_true _ _ |>.mp hfo
  obtain ⟨hc, hxa⟩ := Bool.and_eq_true_iff.mp hxc
  have hlt : (l.foldl sessionEstablished s).live (.baseTechnique t) := by simp [live, hz']
  have hup := sessionEstablished_upTo hb.session hb.registered hv hx hc hxa
    (i := .baseTechnique t) ht
  obtain ⟨p, hp⟩ := Option.isSome_iff_exists.mp (hup hf hlt).1
  have hq : (l.foldl sessionEstablished s).idOf (.baseTechnique t) = some p.id := by
    rw [Scene.idOf, hp]
    rfl
  refine ⟨z', p.id, hz', hq, ?_⟩
  rw [mirrors_congr hset]
  have hh : Hears s (l.foldl sessionEstablished s) p.id (s.sends z.current true) := by
    apply hu.hears hf ha hb.known (fun e => sent_of_declares) hq
    intro k
    rw [latest_declares hb.registered hv hfo ht, sendsOf, hz, Option.map_some, Option.getD_some]
  exact hh.mirrors_forced (hb.not_shows hu.syncs hq)

end Begun

theorem mem_forced_iff {s : Scene} {v : ℕ} : v ∈ s.forced ↔ v < s.nextId ∧ s.isForced v := by
  simp [forced, isForced]

theorem step_of_establishes {s : Scene} {a : Action} (he : s.establishes a) :
    s.step a =
      (List.range s.nextId).foldl sessionEstablished { s with remote := s.remote.establish } := by
  obtain ⟨hs, rfl, hd⟩ := he
  rw [step, if_neg (by simp [hs]), act, peerDiscover, if_neg (by simp [hd])]

section Establish
variable {s : Scene} (hr : Replicated s)
include hr

/-- When the handler of an object returns, its techniques were told what is committed exactly when
their uniform variables can be sent. -/
theorem Replicated.established_iff (hd : s.remote.hasSession = false) {v : ℕ} (hv : v ∈ s.forced)
    (hf : (s.established v).fault = none) : (s.established v).MirrorsAt v ↔
      ∀ t ∈ s.registered v, ∀ z, s.baseTechniques t = some z →
        ∀ y ∈ LastWrite.standing Setting.part (uniformsOf z.current), y.sent := by
  have hb := hr.begun hd
  have hc := Syncs.content (sessionEstablisheds_steps hb.session hb.registered (List.range (v + 1)))
  have hreg : (s.established v).registered v = s.registered v := registered_of_content hc v
  have hm : v ∈ List.range (v + 1) := List.mem_range.mpr (Nat.lt_succ_self v)
  have hfo := (mem_forced_iff.mp hv).2
  rw [MirrorsAt, hreg]
  apply forall_congr'
  intro t
  apply forall_congr'
  intro ht
  obtain ⟨z, hz⟩ := technique_of_registered hr.tree.registered ht
  obtain ⟨z', q, hz', hq, hm⟩ := hb.mirrors_iff hf hm hfo ht hz
  constructor
  · rintro ⟨z'', q', hz'', hq', hmir⟩ z₀ hz₀
    cases hz.symm.trans hz₀
    cases hz'.symm.trans hz''
    cases hq.symm.trans hq'
    exact hm.mp hmir
  · intro h
    exact ⟨z', q, hz', hq, hm.mpr (h z hz)⟩

/-- The program runs on after a handler if it does after all. -/
theorem Replicated.established_fault {a : Action} (he : s.establishes a)
    (hf : (s.step a).fault = none) {v : ℕ} (hv : v < s.nextId) :
    (s.established v).fault = none := by
  obtain ⟨k, hk⟩ := Nat.exists_eq_add_of_le (Nat.succ_le_of_lt hv)
  have hb := hr.begun he.2.2
  have h1 := sessionEstablisheds_steps hb.session hb.registered (List.range (v + 1))
  have hg : (s.established v).forest.Registered := by
    rw [established, forest_of_content (Syncs.content h1)]
    exact hb.registered
  have h2 := sessionEstablisheds_steps ((Syncs.hasSession h1).trans hb.session) hg
    ((List.range k).map (v + 1 + ·))
  have hl : List.range s.nextId = List.range (v + 1) ++ (List.range k).map (v + 1 + ·) := by
    rw [hk]
    exact List.range_add
  rw [step_of_establishes he, hl, List.foldl_append] at hf
  exact Syncs.fault_none h2 hf

end Establish

section Step
variable {s : Scene} (hr : Replicated s) {a : Action}
include hr

/-- The steps with mirrored syncs are those that tell all they must. -/
theorem Replicated.mirrored_iff : Mirrored s a ↔ TellsAll s a := by
  have h1 {v : ℕ} (hc : s.committedBy a = some v) (hs : s.syncs v)
      (hf : (s.step a).fault = none) := hr.commit_iff hc hs hf
  have h2 (he : s.establishes a) {v : ℕ} (hv : v ∈ s.forced)
      (hf : (s.established v).fault = none) := hr.established_iff he.2.2 hv hf
  constructor
  · intro h
    exact ⟨fun v hc hs hf => (h1 hc hs hf).mp (h.commit v hc hs hf),
      fun he v hv hf => (h2 he hv hf).mp (h.established he v hv hf)⟩
  · intro h
    exact ⟨fun v hc hs hf => (h1 hc hs hf).mpr (h.commit v hc hs hf),
      fun he v hv hf => (h2 he hv hf).mpr (h.established he v hv hf)⟩

/-- A technique that the step does not commit. -/
theorem Replicated.step_kept {v t : ℕ} (ht : t ∈ (s.step a).registered v) (hn : ¬ s.Reaches a t)
    {z' : GlBaseTechnique} (hz' : (s.step a).baseTechniques t = some z') :
    ∃ z, s.baseTechniques t = some z ∧ t ∈ s.registered v ∧ TidyTechnique s.nextId z' ∧
      s.settings z'.current = s.settings z.current := by
  obtain ⟨z, hz, -, h⟩ := hr.step_registered a ht
  obtain ⟨z₀, hz₀, hst, -⟩ := hr.step_technique a hz' (Option.isSome_of_eq_some hz)
  cases hz.symm.trans hz₀
  refine ⟨z, hz, (h.resolve_right fun h => hn h.2).1, hr.trimmed_tidy a hz hst, ?_⟩
  rw [settings_of_bare (hst.other hn).same]
  cases s.accepted t a <;> rfl

/-- A commit that is not synced leaves the session and the proxies alone. -/
theorem Replicated.commit_alike {v : ℕ} (hc : s.committedBy a = some v) (hs : ¬ s.syncs v) :
    Alike s (s.step a) := by
  have h₁ := turned_commitState hr.tree hr.wired hc
  obtain ⟨x, y, hx, hy, hxy⟩ := commitState_object hr.tree hr.wired hc
  have he : s.step a = (s.turned a).commitState v := by
    rw [(step_of_commit hr.tree hr.wired hc).1, commitVirtualObject, syncIfSession]
    split
    · next hs1 =>
      rw [h₁.remote] at hs1
      have ha : x.app = none := by simpa [syncs, hs1, hy, hxy] using hs
      simp only [syncVirtualObject, hx, ha]
    · rfl
  rw [he]
  exact h₁

/-- A commit that is not synced comes to no technique that has a proxy. -/
theorem Replicated.step_unsynced {v : ℕ} (hc : s.committedBy a = some v) (hs : ¬ s.syncs v) :
    (s.step a).AllKnown ∧ (s.step a).InStep := by
  have hal := hr.commit_alike hc hs
  refine ⟨hal.allKnown hr.known, ?_⟩
  intro w t z' q ht hz' hq
  rw [hal.idOf] at hq
  obtain ⟨p, hp, -⟩ := Option.map_eq_some_iff.mp hq
  obtain ⟨z, hz, ho, h⟩ := hr.step_registered a ht
  have hzp : z.proxy = some p := by
    rw [proxyOf, hz] at hp
    exact hp
  have hzc := hr.proxied t z hz (by rw [hzp]; rfl)
  have hreg : t ∈ s.registered w := by
    rcases h with ⟨h, -⟩ | ⟨h, -⟩
    · exact h
    · rw [h] at hzc
      cases hzc
  have hn : ¬ s.Reaches a t := by
    rintro ⟨v', hv', ho'⟩
    cases hc.symm.trans hv'
    cases ho.symm.trans ho'
    apply hs
    have h1 := hr.served v t hreg (by rw [hp]; rfl)
    have h2 : s.remote.hasSession := by
      by_contra hd
      rw [hr.attached.proxyOf_of_disconnected (by simpa using hd)] at hp
      cases hp
    rw [syncs, h1, h2]
    rfl
  obtain ⟨z₀, hz₀, -, -, hset⟩ := hr.step_kept ht hn hz'
  cases hz.symm.trans hz₀
  intro y
  rw [hal.shows, settings_congr hal.live, hset]
  exact hr.inStep w t z q hreg hz hq y

/-- A step that makes no call and spares the leaf objects. -/
theorem Replicated.step_quiet (hc : s.committedBy a = none)
    (hq : Quiet s (s.step a) ∧ Spares s (s.step a)) : (s.step a).AllKnown ∧ (s.step a).InStep := by
  refine ⟨hq.1.allKnown hr.known, ?_⟩
  intro v t z' q ht hz' hid
  have hn : ¬ s.Reaches a t := by
    rintro ⟨v, hv, -⟩
    rw [hc] at hv
    cases hv
  obtain ⟨z, hz, hreg, htd, hset⟩ := hr.step_kept ht hn hz'
  have hm := hr.inStep v t z q hreg hz (hq.1.idOf hid)
  exact ((mirrors_congr hset).mpr hm).spared hq.1 hq.2 htd.2.distinct htd.2.refs

variable (hf : (s.step a).fault = none)
include hf

/-- A commit that is synced: the techniques of other objects are told nothing. -/
theorem Replicated.step_synced {v : ℕ} (hc : s.committedBy a = some v) (hs : s.syncs v)
    (h : Mirrored s a) : (s.step a).AllKnown ∧ (s.step a).InStep := by
  obtain ⟨hu, -⟩ := hr.commit_utters hc hs
  have h₁ := turned_commitState hr.tree hr.wired hc
  have hk := h₁.allKnown hr.known
  have ha := (step_attached s a ⟨hr.tree, hr.attached⟩).2
  refine ⟨hu.allKnown hf ha hk fun e he => sent_of_tells _ _ _ he, ?_⟩
  intro w t z' q ht hz' hq
  by_cases hwv : w = v
  · subst hwv
    obtain ⟨z'', q', hz'', hq', hm⟩ := h.commit w hc hs hf t ht
    cases hz'.symm.trans hz''
    cases hq.symm.trans hq'
    exact hm
  have hg' := (step_tree s a hr.tree).registered
  have ht₁ : t ∉ ((s.turned a).commitState v).registered v := by
    rw [← registered_of_content (Syncs.content hu.syncs)]
    intro ht'
    exact hwv (Option.some.inj ((objectOfTechnique_of_registered hg' ht).symm.trans
      (objectOfTechnique_of_registered hg' ht')))
  have hn : ¬ s.Reaches a t := by
    rintro ⟨v', hv', ho'⟩
    obtain ⟨-, -, ho, -⟩ := hr.step_registered a ht
    cases hc.symm.trans hv'
    exact hwv (Option.some.inj (ho.symm.trans ho'))
  obtain ⟨z, hz, hreg, -, hset⟩ := hr.step_kept ht hn hz'
  obtain ⟨p, hp, hpq⟩ := Option.map_eq_some_iff.mp hq
  have hp₁ : s.proxyOf (.baseTechnique t) = some p := by
    obtain ⟨x, hx, hxa, hs1, ht1, he⟩ := step_of_sync hr.tree hr.wired hc hs
    rw [← h₁.proxyOf]
    have h1 := (syncVirtualObject_gives hs1 ht1.registered v false).technique_proxy (he ▸ hp)
    exact h1.resolve_right fun h => ht₁ h.1
  intro y
  rw [hu.shows_kept hf ha hq hk (by rw [latest_tells, if_neg ht₁]), h₁.shows,
    settings_congr fun x => (Syncs.live hu.syncs x).trans (h₁.live x), hset]
  exact hr.inStep w t z q hreg hz (Option.map_eq_some_iff.mpr ⟨p, hp₁, hpq⟩) y

/-- A session that begins: only the techniques of the objects that are synced have proxies. -/
theorem Replicated.step_establish (he : s.establishes a) (h : TellsAll s a) :
    (s.step a).AllKnown ∧ (s.step a).InStep := by
  have hb := hr.begun he.2.2
  have hst := step_of_establishes he
  have hf' := hst ▸ hf
  have hc := Syncs.content
    (sessionEstablisheds_steps hb.session hb.registered (List.range s.nextId))
  refine ⟨hst ▸ hb.allKnown hf', ?_⟩
  intro v t z' q ht hz' hq
  rw [hst] at ht hz' hq ⊢
  rw [registered_of_content hc] at ht
  obtain ⟨p, hp, -⟩ := Option.map_eq_some_iff.mp hq
  have hp' := (sessionEstablisheds_gives hb.session hb.registered _).technique_proxy hp
  rw [hb.fresh] at hp'
  obtain ⟨w, hw, htw, hfo⟩ := hp'.resolve_left nofun
  have h1 := objectOfTechnique_of_registered hb.registered ht
  cases h1.symm.trans (objectOfTechnique_of_registered hb.registered htw)
  have hv : v < s.nextId := List.mem_range.mp hw
  obtain ⟨z, hz⟩ := technique_of_registered hr.tree.registered ht
  obtain ⟨z'', q', hz'', hq', hm⟩ := hb.mirrors_iff hf' hw hfo ht hz
  cases hz'.symm.trans hz''
  cases hq.symm.trans hq'
  exact hm.mpr (h.established he v (mem_forced_iff.mpr ⟨hv, hfo⟩)
    (hr.established_fault he hf hv) t ht z hz)

omit hf in
/-- A session that ends takes the proxies with it. -/
theorem Replicated.step_disconnect (hd : s.remote.hasSession) :
    s.sessionDisconnect.AllKnown ∧ s.sessionDisconnect.InStep := by
  rw [sessionDisconnect, if_pos hd]
  constructor
  · exact fun c hc => ⟨(hr.known c hc).technique, (hr.known c hc).given, (hr.known c hc).sent⟩
  · intro v t z q _ _ hq
    simp [Scene.idOf, proxyOf, dropProxies, Option.bind_map] at hq

theorem Replicated.step (h : TellsAll s a) : Replicated (s.step a) := by
  have hs : ¬ s.fault.isSome := by
    intro hs
    rw [Scene.step, if_pos hs] at hf
    rw [hf] at hs
    cases hs
  have hstep : (s.step a).AllKnown ∧ (s.step a).InStep := by
    cases hc : s.committedBy a with
    | some v =>
      by_cases hs : s.syncs v
      · exact hr.step_synced hf hc hs (hr.mirrored_iff.mpr h)
      · exact hr.step_unsynced hc hs
    | none =>
      by_cases he : s.establishes a
      · exact hr.step_establish hf he h
      have same (h : s.act a = s) : (s.step a).AllKnown ∧ (s.step a).InStep := by
        rw [Scene.step, if_neg hs, h]
        exact ⟨hr.known, hr.inStep⟩
      by_cases hp : ∃ connected, a = .peerDiscover connected
      · obtain ⟨connected, rfl⟩ := hp
        apply same
        apply if_pos
        simp only [establishes, Action.peerDiscover.injEq] at he
        cases connected <;> simp_all
      · by_cases hd : a = .sessionDisconnect
        · subst hd
          by_cases hss : s.remote.hasSession
          · rw [Scene.step, if_neg hs]
            exact hr.step_disconnect hss
          · exact same (if_neg hss)
        · exact hr.step_quiet hc (Scene.step_quiet hr.tree hf hc (fun c h => hp ⟨c, h⟩) hd)
  exact ⟨hr.toGrounded.step a hf, hstep.1, hstep.2⟩

end Step

theorem replicated_init : Replicated init where
  toGrounded := grounded_init
  known := fun c hc => by cases hc
  inStep := fun v t z q ht => by cases ht

/-- In a faulted scene nothing is synced. -/
theorem mirrored_of_fault {s : Scene} (hf : s.fault ≠ none) (a : Action) :
    Mirrored s a ∧ TellsAll s a := by
  have hc (v : ℕ) : s.committedBy a ≠ some v := by
    intro h
    unfold committedBy at h
    split at h <;> simp_all
  exact ⟨⟨fun v h => absurd h (hc v), fun he => absurd he.1 hf⟩,
    ⟨fun v h => absurd h (hc v), fun he => absurd he.1 hf⟩⟩

/-- In a run the remote techniques were told what is committed after every sync exactly when every
sync tells what it must: when the flags of a commit that was not synced are not lost, what is
replaced is replaced by something alive, and every uniform variable can be sent. -/
theorem mirrored_throughout_iff (as : List Action) :
    Run.Each step Mirrored init as ↔ Run.Each step TellsAll init as := by
  apply Run.each_iff_each (G := fun s => s.fault = none → Replicated s) fun _ => replicated_init
  · intro s a hg hc hf
    have hs : s.fault = none := by
      by_contra hs
      rw [Scene.step, if_pos (Option.isSome_iff_ne_none.mpr hs)] at hf
      exact hs hf
    exact (hg hs).step hf hc
  · intro s a hg
    by_cases hs : s.fault = none
    · exact (hg hs).mirrored_iff
    · exact iff_of_true (mirrored_of_fault hs a).1 (mirrored_of_fault hs a).2

/-- A technique whose program is committed twice: before its virtual object has an app, and after
it. -/
def lostProgramRun : List Action :=
  [.peerDiscover true, .request 0 .createVirtualObject, .request 0 (.createRenderingUnit 0),
    .request 0 (.createGlBaseTechnique 1), .request 0 .createGlProgram,
    .request 0 (.bindProgram 2 3), .request 0 (.commit 0),
    .request 0 (.getBounded 0 ⟨12, fun _ => 0⟩)]

/-- `program_changed` is overwritten by the second commit, and the program is never told. -/
theorem lostProgram_untold :
    ¬ Run.Each step Mirrored init (lostProgramRun ++ [.request 0 (.commit 0)]) := by
  intro h
  have h1 := (h lostProgramRun (.request 0 (.commit 0)) List.prefix_rfl).commit 0 rfl rfl rfl 2
    (by decide)
  obtain ⟨z, q, hz, hq, hm⟩ := h1
  cases hz
  cases hq
  have h2 := (hm (.program 3)).mpr rfl
  obtain ⟨c, hc, -⟩ := h2
  cases hc

end Scene
end Yaza
