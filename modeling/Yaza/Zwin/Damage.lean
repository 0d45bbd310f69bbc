import Yaza.Zwin.Marks
import Yaza.Zwin.Owned
import Yaza.Zwin.Silence

/-! Runs of commits and syncs with a note of what was requested since it was last synced: what a
sync that is not forced tells the session, and when that is no more than what was requested. -/
namespace Yaza

/-- The attribute or the parameter that a request asks to set. -/
def Scene.Request.tableKey? : Scene.Request → Option (Scene.Holder × UInt32)
  | .parameterF p pname _ | .parameterI p pname _ | .parameterV p _ pname _ _ =>
      some (.sampler p, pname)
  | .setAttribEnability va index _ | .vertexAttribPointer va index _ _ _ _ _ _ =>
      some (.vertexArray va, index)
  | _ => none

/-- What is noted of the history of a scene. -/
structure SyncNotes where
  /-- The attributes and the parameters requested since their object was last synced. -/
  asked : List (Scene.Holder × UInt32) := []
  /-- The virtual object that was last committed, with no request after it. -/
  last : Option ℕ := none
  /-- That commit was synced, and the session lasts. -/
  synced : Bool := false

/-- A call that moves or commits the remote virtual object. -/
def Call.movesOrCommits (id : ℕ) : Call → Bool
  | .move i _ _ | .commit i => i = id
  | _ => false

namespace Scene

/-- A commit of the virtual object is followed by a sync that gets past the check of its app. -/
def syncs (s : Scene) (v : ℕ) : Bool :=
  s.remote.hasSession && (s.virtualObjects v).any fun x => x.app.isSome

/-- The virtual objects that are synced, by force, when a session is established. -/
def forced (s : Scene) : List ℕ :=
  (List.range s.nextId).filter fun v =>
    (s.virtualObjects v).any fun x => x.committed && x.app.isSome

/-- What is noted when the scene takes a step. -/
def note (s : Scene) (n : SyncNotes) (a : Action) : SyncNotes :=
  match s.committedBy a with
  | some v =>
      if s.syncs v then
        { asked := n.asked.filter fun e => e.1 ∉ ((s.turned a).commitState v).tablesOf v
          last := some v
          synced := true }
      else { n with last := some v, synced := false }
  | none =>
      match a with
      | .request client r =>
          if s.admits client r then
            { asked :=
                if (s.step a).errors = s.errors then r.tableKey?.toList ++ n.asked else n.asked }
          else n
      | .destroy client r =>
          if (s.resources r).any fun x => x.client = client then { asked := n.asked } else n
      | .peerDiscover connected =>
          if s.remote.hasSession || !connected then n
          else
            { n with
              asked := n.asked.filter fun e => ∀ v ∈ s.forced, e.1 ∉ s.tablesOf v
              synced := n.last.any (· ∈ s.forced) }
      | .sessionDisconnect => { n with synced := false }
      | _ => n

/-- A step, and what is noted of it. -/
def tracked (u : Scene × SyncNotes) (a : Action) : Scene × SyncNotes :=
  (u.1.step a, u.1.note u.2 a)

/-- The calls that a step makes. -/
def newCalls (s s' : Scene) : List Call := s'.remote.calls.drop s.remote.calls.length

/-- A commit that is synced, to the end: after a commit of the same object that was synced, with no
request in between, the object is moved and committed and no more is called; and the attributes and
parameters that are sent were requested since their objects were last synced. -/
def SendsDamaged (u : Scene × SyncNotes) (a : Action) : Prop :=
  ∀ v, u.1.committedBy a = some v → u.1.syncs v → (u.1.step a).fault = none →
    (u.2.last = some v → u.2.synced → ∀ c ∈ u.1.newCalls (u.1.step a),
      ∃ p, (u.1.step a).proxyOf (.virtualObject v) = some p ∧ c.movesOrCommits p.id) ∧
    ∀ c ∈ u.1.newCalls (u.1.step a), ∀ i k, c.tableKey? = some (i, k) →
      ∃ h p, (u.1.step a).proxyOf h = some p ∧ p.id = i ∧ (h, k) ∈ u.2.asked

/-- Every attribute and every parameter that the sync comes to was requested since its object was
last synced. -/
def ReachesAsked (u : Scene × SyncNotes) (a : Action) : Prop :=
  ∀ v, u.1.committedBy a = some v → u.1.syncs v → (u.1.step a).fault = none →
    ∀ e ∈ ((u.1.turned a).commitState v).entries v, e ∈ u.2.asked

/-- What holds of a scene and its notes. -/
structure Tracked (u : Scene × SyncNotes) : Prop where
  tree : Tree u.1
  wired : Wired u.1
  attached : Attached u.1
  flagged : u.1.Flagged
  rests : u.1.fault = none → ∀ v, u.2.last = some v → u.1.Rests v ∧ (u.1.virtualObjects v).isSome
  served : u.1.fault = none → ∀ v, u.2.last = some v → u.2.synced →
    (∀ x, u.1.Reached v x → u.1.UpTo x) ∧ ∀ e ∈ u.1.entries v, e ∉ u.2.asked

section Calls
variable {A : ℕ → Prop} {C : Call → Prop} {s s' : Scene}

theorem SyncStep.calls (h : SyncStep A C s s') : s.remote.calls <+: s'.remote.calls := by
  cases h with
  | call c hc hn => exact List.prefix_append _ _
  | create h mk p r hr hp hh hc hm =>
    obtain ⟨channel, -, -, rfl⟩ := create_eq_some hr
    simp
  | _ => exact List.prefix_rfl

theorem Syncs.calls (h : Syncs A C s s') : s.remote.calls <+: s'.remote.calls :=
  Path.preserves (P := fun s' => s.remote.calls <+: s'.remote.calls)
    (fun _ _ h hp => hp.trans h.calls) h List.prefix_rfl

end Calls

/-- The entries among the calls are those that were sent. -/
theorem sent_newCalls {s s' : Scene} (h : s.remote.calls <+: s'.remote.calls) :
    s'.sent = s.sent ++ (s.newCalls s').filterMap Call.tableKey? := by
  obtain ⟨l, hl⟩ := h
  rw [newCalls, ← hl, List.drop_left, sent, sent, ← hl, List.filterMap_append]

/-- What is sent was asked for exactly when what is to be sent was. -/
theorem Forwards.asked_iff {E : Holder → UInt32 → Prop} {s s' : Scene} (h : Forwards E s s')
    (hf : s'.fault = none) (ha : Attached s') (asked : List (Holder × UInt32)) :
    (∀ c ∈ s.newCalls s', ∀ i k, c.tableKey? = some (i, k) →
      ∃ h p, s'.proxyOf h = some p ∧ p.id = i ∧ (h, k) ∈ asked) ↔
      ∀ h k, E h k → (h, k) ∈ asked := by
  obtain ⟨l, hl, h1, h2⟩ := h.sent hf
  have he : (s.newCalls s').filterMap Call.tableKey? = l :=
    List.append_cancel_left ((sent_newCalls (Syncs.calls h.syncs)).symm.trans hl)
  constructor
  · intro hc x k hx
    obtain ⟨p, hp, hm⟩ := h2 x k hx
    rw [← he] at hm
    obtain ⟨c, hc', hk⟩ := List.mem_filterMap.mp hm
    obtain ⟨y, q, hq, hi, hy⟩ := hc c hc' p.id k hk
    rw [← ha.distinct y x q p hq hp hi]
    exact hy
  · intro hc c hm i k hk
    obtain ⟨x, p, hx, hp, hi⟩ := h1 (i, k) (he ▸ List.mem_filterMap.mpr ⟨c, hm, hk⟩)
    exact ⟨x, p, hp, hi.symm, hc x k hx⟩

/-- The notes do not depend on the app being turned. -/
theorem newCalls_of_commit {s : Scene} (v : ℕ) (apps : Arena BoundedApp) (s' : Scene) :
    ({ s with boundedApps := apps }.commitState v).newCalls s' = s.newCalls s' := by
  have hr := remote_of_skeleton
    (commitState_commits_true { s with boundedApps := apps } v).skeleton
  rw [newCalls, newCalls, hr]

/-- A commit keeps its virtual object and the app of it, up to its sync. -/
theorem commitState_object {s : Scene} (ht : Tree s) (hw : Wired s) {a : Action} {v : ℕ}
    (hc : s.committedBy a = some v) :
    ∃ x y, ((s.turned a).commitState v).virtualObjects v = some x ∧
      s.virtualObjects v = some y ∧ x.app = y.app := by
  obtain ⟨-, ⟨apps, h0⟩, -, -, hv, -⟩ := step_of_commit ht hw hc
  have hk := (commitState_commits_true (s.turned a) v).skeleton
  have hx : (((s.turned a).commitState v).virtualObjects v).isSome := by
    rw [Arena.isSome_of_mapAll (congrArg Scene.virtualObjects hk) v, h0]
    exact hv
  obtain ⟨x, hx⟩ := Option.isSome_iff_exists.mp hx
  obtain ⟨y, hy, hb⟩ := virtualObject_of_skeleton hk hx
  rw [h0] at hy
  exact ⟨x, y, hx, hy, (congrArg VirtualObject.app hb :).symm⟩

/-- A commit that is followed by a sync. -/
theorem step_of_sync {s : Scene} (ht : Tree s) (hw : Wired s) {a : Action} {v : ℕ}
    (hc : s.committedBy a = some v) (hs : s.syncs v) :
    ∃ x, ((s.turned a).commitState v).virtualObjects v = some x ∧ x.app.isSome ∧
      ((s.turned a).commitState v).remote.hasSession ∧ Tree ((s.turned a).commitState v) ∧
      s.step a = ((s.turned a).commitState v).syncVirtualObject v false := by
  obtain ⟨he, ⟨apps, h0⟩, ht1, -, -, -⟩ := step_of_commit ht hw hc
  obtain ⟨x, y, hx, hy, hxy⟩ := commitState_object ht hw hc
  have hk := commitState_commits_true (s.turned a) v
  obtain ⟨h1, h2⟩ := Bool.and_eq_true_iff.mp hs
  have hs1 : ((s.turned a).commitState v).remote.hasSession := by
    rw [remote_of_skeleton hk.skeleton, h0]
    exact h1
  refine ⟨x, hx, ?_, hs1, hk.tree ht1, ?_⟩
  · simpa [hxy, hy] using h2
  · rw [he, commitVirtualObject, syncIfSession, if_pos hs1]

section Commit
variable {u : Scene × SyncNotes} (hu : Tracked u) {a : Action} {v : ℕ}
  (hc : u.1.committedBy a = some v)
include hu hc

/-- A commit that is synced. -/
theorem Tracked.sync (hs : u.1.syncs v) :
    ∃ x, ((u.1.turned a).commitState v).virtualObjects v = some x ∧ x.app.isSome ∧
      ((u.1.turned a).commitState v).remote.hasSession ∧
      Tree ((u.1.turned a).commitState v) ∧ ((u.1.turned a).commitState v).Flagged ∧
      u.1.step a = ((u.1.turned a).commitState v).syncVirtualObject v false := by
  obtain ⟨x, hx, ha, hs1, ht1, hst⟩ := step_of_sync hu.tree hu.wired hc hs
  obtain ⟨-, ⟨apps, h0⟩, -, -, -, -⟩ := step_of_commit hu.tree hu.wired hc
  have hf0 : (u.1.turned a).Flagged := by
    rw [h0]
    exact hu.flagged.of_eq rfl rfl
  exact ⟨x, hx, ha, hs1, ht1, hf0.commitState v, hst⟩

/-- The commit that follows a synced one, when it comes to nothing that is sent each time. -/
theorem Tracked.silent (hl : u.2.last = some v) (hy : u.2.synced) (hs : u.1.syncs v)
    (hf : (u.1.step a).fault = none) (he : ReachesAsked u a) :
    ∀ c ∈ u.1.newCalls (u.1.step a),
      ∃ p, (u.1.step a).proxyOf (.virtualObject v) = some p ∧ c.movesOrCommits p.id := by
  obtain ⟨-, ⟨apps, h0⟩, ht, hw, hv, hf0⟩ := step_of_commit hu.tree hu.wired hc
  obtain ⟨x, hx, ha, hs1, ht1, hm1, hst⟩ := hu.sync hc hs
  have k2 : AllSyncs ((u.1.turned a).commitState v) (u.1.step a) := by
    rw [hst]
    exact syncVirtualObject_steps hs1 ht1.registered v false
  have hr : (u.1.turned a).Rests v := by
    rw [h0]
    obtain ⟨hr, -⟩ := hu.rests hf0 v hl
    exact hr.of_leaves rfl rfl rfl rfl rfl rfl rfl rfl
  obtain ⟨hup, hout⟩ := hu.served hf0 v hl hy
  have hup0 : ∀ x, (u.1.turned a).Reached v x → (u.1.turned a).UpTo x := by
    intro x hx
    rw [h0] at hx ⊢
    have h1 := hup x (by cases x <;> exact hx)
    cases x <;> exact h1
  have hv0 : ((u.1.turned a).virtualObjects v).isSome := by
    rw [h0]
    exact hv
  have hf1 : ((u.1.turned a).commitState v).fault = none := k2.fault_none hf
  have hnone : ((u.1.turned a).commitState v).entries v = [] := by
    apply List.eq_nil_iff_forall_not_mem.mpr
    intro e hm
    have h1 := commitState_entries hw hr ht.registered hv0 hm
    rw [h0] at h1
    exact hout e h1 (he v hc hs hf e hm)
  have hsil := commitState_silent hw hr ht.registered hv0 (by rw [h0]; exact hf0) hup0 hf1 hnone
  obtain ⟨p, polar, azimuthal, hp, hcalls⟩ :=
    hsil.syncVirtualObject ht1.registered hx ha (hst ▸ hf)
  intro c hcm
  rw [← newCalls_of_commit v apps, ← h0, hst, hcalls] at hcm
  have hcm' : c ∈ [Call.move p.id polar azimuthal, .commit p.id] := by
    simpa [newCalls, call, Remote.call] using hcm
  refine ⟨p, Syncs.proxyOf k2 hp, ?_⟩
  rcases List.mem_pair.mp hcm' with rfl | rfl <;> simp [Call.movesOrCommits]

end Commit

/-- A commit sends what was requested exactly when its sync comes to nothing else. -/
theorem Tracked.sends_iff {u : Scene × SyncNotes} (hu : Tracked u) (a : Action) :
    SendsDamaged u a ↔ ReachesAsked u a := by
  have forwards {v : ℕ} (hc : u.1.committedBy a = some v) (hs : u.1.syncs v)
      (hf : (u.1.step a).fault = none) :
      (∀ c ∈ u.1.newCalls (u.1.step a), ∀ i k, c.tableKey? = some (i, k) →
        ∃ h p, (u.1.step a).proxyOf h = some p ∧ p.id = i ∧ (h, k) ∈ u.2.asked) ↔
        ∀ e ∈ ((u.1.turned a).commitState v).entries v, e ∈ u.2.asked := by
    obtain ⟨x, hx, ha, hs1, ht1, hm1, hst⟩ := hu.sync hc hs
    obtain ⟨-, ⟨apps, h0⟩, -, -, -, -⟩ := step_of_commit hu.tree hu.wired hc
    have h1 := syncVirtualObject_forwards hs1 ht1.registered hm1 hx ha
    rw [← hst] at h1
    have h2 := h1.asked_iff hf (step_attached u.1 a ⟨hu.tree, hu.attached⟩).2 u.2.asked
    rw [h0] at h2 ⊢
    rw [newCalls_of_commit] at h2
    rw [h2, Prod.forall]
  constructor
  · intro h v hc hs hf
    exact (forwards hc hs hf).mp (h v hc hs hf).2
  · intro h v hc hs hf
    exact ⟨fun hl hy => hu.silent hc hl hy hs hf h, (forwards hc hs hf).mpr (h v hc hs hf)⟩

theorem Tracked.commit {u : Scene × SyncNotes} (hu : Tracked u) {a : Action} {v : ℕ}
    (hc : u.1.committedBy a = some v) : Tracked (tracked u a) := by
  obtain ⟨he, ⟨apps, h0⟩, ht, hw, hv, hf0⟩ := step_of_commit hu.tree hu.wired hc
  obtain ⟨ht2, ha2⟩ := step_attached u.1 a ⟨hu.tree, hu.attached⟩
  have hv0 : ((u.1.turned a).virtualObjects v).isSome := by
    rw [h0]
    exact hv
  have hk := commitState_commits_true (u.1.turned a) v
  have hct : (u.1.step a).content = ((u.1.turned a).commitState v).content := by
    rw [he]
    exact (syncIfSession_steps (hk.tree ht).registered v).content
  have hlast : (u.1.note u.2 a).last = some v := by
    unfold note
    rw [hc]
    simp only
    split <;> rfl
  refine ⟨ht2, (step_wired u.1 a ⟨hu.tree, hu.wired⟩).2, ha2, hu.flagged.step hu.tree a, ?_, ?_⟩
  · intro _ w hl
    cases hlast.symm.trans hl
    refine ⟨(commitState_rests hw hv0).of_content hct, ?_⟩
    have hl1 := live_of_content hct (.virtualObject v)
    have hl2 := Arena.isSome_of_mapAll (congrArg Scene.virtualObjects hk.skeleton) v
    exact (hl1.trans hl2).trans hv0
  · intro hf w hl hy
    cases hlast.symm.trans hl
    cases hs : u.1.syncs v with
    | false => simp [tracked, note, hc, hs] at hy
    | true =>
      obtain ⟨x, hx, ha, hs1, ht1, -, hst⟩ := hu.sync hc hs
      have hn : (u.1.note u.2 a).asked =
          u.2.asked.filter fun e => e.1 ∉ ((u.1.turned a).commitState v).tablesOf v := by
        simp [note, hc, hs]
      constructor
      · intro i hi
        have h1 := syncVirtualObject_upTo hs1 ht1.registered hx ha false
          (reached_of_content hct hi)
        rw [← hst] at h1
        exact h1
      · intro e hm hma
        have h1 := (mem_entries.mp (mem_entries_of_content hct hm)).1
        simp only [tracked, hn, List.mem_filter, decide_eq_true_eq] at hma
        exact hma.2 h1

/-- A step after which no commit counts as the last one. -/
theorem Tracked.forget {u : Scene × SyncNotes} (hu : Tracked u) (a : Action) {n : SyncNotes}
    (hn : n.last = none) : Tracked (u.1.step a, n) where
  tree := step_tree u.1 a hu.tree
  wired := (step_wired u.1 a ⟨hu.tree, hu.wired⟩).2
  attached := (step_attached u.1 a ⟨hu.tree, hu.attached⟩).2
  flagged := hu.flagged.step hu.tree a
  rests := fun _ v hv => by
    rw [hn] at hv
    cases hv
  served := fun _ v hv => by
    rw [hn] at hv
    cases hv

section Frame
variable (s : Scene) (v : ℕ)

theorem sessionFrame_unitsOf : s.sessionFrame.unitsOf v = s.unitsOf v := by
  have hm : (s.sessionFrame.virtualObjects v).map VirtualObject.renderingUnitList =
      (s.virtualObjects v).map VirtualObject.renderingUnitList := by
    simp [sessionFrame, Function.comp_def]
  exact congrArg (Option.getD · []) hm

theorem sessionFrame_registered : s.sessionFrame.registered v = s.registered v := by
  unfold registered
  rw [sessionFrame_unitsOf]
  rfl

theorem sessionFrame_reached (x : Holder) : s.sessionFrame.Reached v x ↔ s.Reached v x := by
  cases x <;> simp only [Reached, sessionFrame_unitsOf, sessionFrame_registered] <;> rfl

theorem sessionFrame_entries : s.sessionFrame.entries v = s.entries v := by
  unfold entries tablesOf
  rw [sessionFrame_registered]
  rfl

theorem sessionFrame_upTo {x : Holder} (h : s.UpTo x) : s.sessionFrame.UpTo x := by
  intro hf hl
  cases x with
  | virtualObject i =>
    have hl' : s.live (.virtualObject i) := by simpa [live, sessionFrame] using hl
    have hp : s.sessionFrame.proxyOf (.virtualObject i) = s.proxyOf (.virtualObject i) := by
      cases hx : s.virtualObjects i <;> simp [proxyOf, sessionFrame, hx]
    rw [hp]
    exact ⟨(h hf hl').1, trivial⟩
  | _ => exact h hf hl

end Frame

/-- The handlers of a session that was established bring the committed objects up to date. -/
theorem sessionEstablished_upTo {s : Scene} (hs : s.remote.hasSession) (hg : s.forest.Registered)
    {v : ℕ} {l : List ℕ} (hv : v ∈ l) {x : VirtualObject} (hx : s.virtualObjects v = some x)
    (hc : x.committed) (ha : x.app.isSome) {i : Holder} (hi : s.Reached v i) :
    (l.foldl sessionEstablished s).UpTo i := by
  induction l generalizing s x with
  | nil => cases hv
  | cons w l ih =>
    have h1 : AllSyncs s (s.sessionEstablished w) := sessionEstablished_steps hs hg w
    have s1 := h1.hasSession.trans hs
    have hct := Syncs.content h1
    have g1 : (s.sessionEstablished w).forest.Registered := by
      rw [forest_of_content hct]
      exact hg
    have h2 : AllSyncs (s.sessionEstablished w)
        (l.foldl sessionEstablished (s.sessionEstablished w)) :=
      sessionEstablisheds_steps s1 g1 l
    rcases List.mem_cons.mp hv with rfl | hv
    · have he : s.sessionEstablished v = s.syncVirtualObject v true := by
        simp only [sessionEstablished, hx]
        exact if_pos hc
      apply h2.upTo
      rw [he]
      exact syncVirtualObject_upTo hs hg hx ha true hi
    · obtain ⟨x', hx', hb⟩ := Arena.of_mapAll (congrArg Scene.virtualObjects hct.symm) hx
      have hc' : x'.committed = x.committed := (congrArg VirtualObject.committed hb :)
      have ha' : x'.app = x.app := (congrArg VirtualObject.app hb :)
      exact ih s1 g1 hv hx' (by rw [hc']; exact hc) (by rw [ha']; exact ha)
        (reached_of_content hct.symm hi)

/-- A drag that commits nothing does nothing, or stops the program. -/
theorem moveApp_uncommitted {s : Scene} {b : ℕ} {polar azimuthal : ℚ} (hf : s.fault = none)
    (hc : s.committedBy (.moveApp b polar azimuthal) = none) :
    s.moveApp b polar azimuthal = s ∨ (s.moveApp b polar azimuthal).fault ≠ none := by
  cases hx : s.boundedApps b with
  | none =>
    left
    rw [moveApp, hx]
  | some x =>
    right
    have hv : s.virtualObjects x.virtualObject = none := by
      simpa [committedBy, hf, hx, Arena.lock] using hc
    rw [moveApp, hx]
    have h1 : (s.turnApp b x polar azimuthal).commitState x.virtualObject =
        (s.turnApp b x polar azimuthal).crash .useAfterFree := by
      rw [commitState, show (s.turnApp b x polar azimuthal).virtualObjects x.virtualObject =
        none from hv]
    simp only [commitVirtualObject, h1, syncIfSession]
    split
    · rw [syncVirtualObject, show ((s.turnApp b x polar azimuthal).crash
        .useAfterFree).virtualObjects x.virtualObject = none from hv]
      exact crash_running _ _
    · exact crash_running _ _

section Others
variable {u : Scene × SyncNotes} (hu : Tracked u)
include hu

/-- A step that changes no content, and keeps the last commit if it notes it. -/
theorem Tracked.ofContent {a : Action} {n : SyncNotes} (hc : (u.1.step a).content = u.1.content)
    (hf : (u.1.step a).fault = none → u.1.fault = none) (hl : n.last = u.2.last)
    (hs : (u.1.step a).fault = none → ∀ v, n.last = some v → n.synced →
      (∀ x, (u.1.step a).Reached v x → (u.1.step a).UpTo x) ∧
        ∀ e ∈ (u.1.step a).entries v, e ∉ n.asked) : Tracked (u.1.step a, n) where
  tree := step_tree u.1 a hu.tree
  wired := (step_wired u.1 a ⟨hu.tree, hu.wired⟩).2
  attached := (step_attached u.1 a ⟨hu.tree, hu.attached⟩).2
  flagged := hu.flagged.step hu.tree a
  rests := fun h v hv => by
    obtain ⟨h1, h2⟩ := hu.rests (hf h) v (hl ▸ hv)
    exact ⟨h1.of_content hc, (live_of_content hc (.virtualObject v)).trans h2⟩
  served := hs

theorem Tracked.discover (connected : Bool) (hf : u.1.fault = none) :
    Tracked (tracked u (.peerDiscover connected)) := by
  have hst : u.1.step (.peerDiscover connected) = u.1.peerDiscover connected :=
    if_neg (by simp [hf])
  by_cases hs : (u.1.remote.hasSession || !connected) = true
  · have he : u.1.peerDiscover connected = u.1 := if_pos hs
    have hn : u.1.note u.2 (.peerDiscover connected) = u.2 := if_pos hs
    rw [tracked, hst, he, hn]
    exact hu
  · have he : u.1.peerDiscover connected =
        (List.range u.1.nextId).foldl sessionEstablished
          { u.1 with remote := u.1.remote.establish } := if_neg hs
    have hn : u.1.note u.2 (.peerDiscover connected) = { u.2 with
        asked := u.2.asked.filter fun e => ∀ v ∈ u.1.forced, e.1 ∉ u.1.tablesOf v
        synced := u.2.last.any (· ∈ u.1.forced) } := if_neg hs
    have hc : (u.1.step (.peerDiscover connected)).content = u.1.content := by
      rw [hst]
      exact peerDiscover_content hu.tree.registered connected
    rw [tracked, hn]
    refine hu.ofContent hc (fun _ => hf) rfl fun _ v hv hy => ?_
    have hv' : u.2.last = some v := hv
    have hmem : v ∈ u.1.forced := by simpa [hv'] using hy
    obtain ⟨hr, hp⟩ := List.mem_filter.mp hmem
    obtain ⟨x, hx, hp⟩ := Option.any_eq_true _ _ |>.mp hp
    obtain ⟨hxc, hxa⟩ := Bool.and_eq_true_iff.mp hp
    constructor
    · intro i hi
      rw [hst, he]
      exact sessionEstablished_upTo (s := { u.1 with remote := u.1.remote.establish }) rfl
        hu.tree.registered hr hx hxc hxa (reached_of_content hc hi)
    · intro e hm hma
      have h1 := (mem_entries.mp (mem_entries_of_content hc hm)).1
      simp only [List.mem_filter, decide_eq_true_eq] at hma
      exact hma.2 v hmem h1

theorem Tracked.disconnect (hf : u.1.fault = none) : Tracked (tracked u .sessionDisconnect) := by
  have hc : (u.1.step .sessionDisconnect).content = u.1.content := by
    rw [step, if_neg (by simp [hf])]
    exact sessionDisconnect_content u.1
  exact hu.ofContent hc (fun _ => hf) rfl fun _ v hv hy => by cases hy

theorem Tracked.frame (busyness : ℕ) (hf : u.1.fault = none) :
    Tracked (tracked u (.frameTimer busyness)) := by
  have hst : u.1.step (.frameTimer busyness) = u.1.frameTimer busyness := if_neg (by simp [hf])
  have hn : u.1.note u.2 (.frameTimer busyness) = u.2 := rfl
  have h0 := hu.forget (.frameTimer busyness) (n := {}) rfl
  rw [tracked, hn]
  refine ⟨h0.tree, h0.wired, h0.attached, h0.flagged, fun _ v hv => ?_, fun _ v hv hy => ?_⟩
  · obtain ⟨h1, h2⟩ := hu.rests hf v hv
    simp only [hst, frameTimer]
    split
    · refine ⟨h1.of_leaves rfl rfl rfl rfl rfl rfl rfl rfl, ?_⟩
      simpa [sessionFrame] using h2
    · exact ⟨h1, h2⟩
  · obtain ⟨h1, h2⟩ := hu.served hf v hv hy
    simp only [hst, frameTimer]
    split
    · refine ⟨fun x hx => ?_, fun e he => ?_⟩
      · exact sessionFrame_upTo u.1 (h1 x ((sessionFrame_reached u.1 v x).mp hx))
      · rw [sessionFrame_entries] at he
        exact h2 e he
    · exact ⟨h1, h2⟩

/-- A drag that comes to no commit: there is no such app, or the program stops. -/
theorem Tracked.drag {b : ℕ} {polar azimuthal : ℚ} (hf : u.1.fault = none)
    (hc : u.1.committedBy (.moveApp b polar azimuthal) = none) :
    Tracked (tracked u (.moveApp b polar azimuthal)) := by
  have hst : u.1.step (.moveApp b polar azimuthal) = u.1.moveApp b polar azimuthal :=
    if_neg (by simp [hf])
  have hn : u.1.note u.2 (.moveApp b polar azimuthal) = u.2 := by
    simp only [note, hc]
  have h0 := hu.forget (.moveApp b polar azimuthal) (n := {}) rfl
  rw [tracked, hn]
  rcases moveApp_uncommitted hf hc with he | hcrash
  · rw [hst, he]
    exact hu
  · rw [← hst] at hcrash
    exact ⟨h0.tree, h0.wired, h0.attached, h0.flagged, fun h => absurd h hcrash,
      fun h => absurd h hcrash⟩

end Others

theorem tracked_step {u : Scene × SyncNotes} (hu : Tracked u) (a : Action) :
    Tracked (tracked u a) := by
  by_cases hf : u.1.fault.isSome
  · -- After a fault nothing is claimed any more.
    have he : u.1.step a = u.1 := if_pos hf
    have hn : ¬ u.1.fault = none := Option.isSome_iff_ne_none.mp hf
    refine ⟨?_, ?_, ?_, ?_, fun h => absurd h ?_, fun h => absurd h ?_⟩ <;>
      simp only [tracked, he]
    exacts [hu.tree, hu.wired, hu.attached, hu.flagged, hn, hn]
  · have hf' : u.1.fault = none := by simpa using hf
    cases hc : u.1.committedBy a with
    | some v => exact hu.commit hc
    | none =>
      have keeps (hn : u.1.note u.2 a = u.2) (he : u.1.act a = u.1) : Tracked (tracked u a) := by
        have hst : u.1.step a = u.1 := (if_neg hf).trans he
        rw [tracked, hst, hn]
        exact hu
      cases a with
      | request client r =>
        by_cases hr : u.1.admits client r
        · apply hu.forget
          simp [note, hc, hr]
        · exact keeps (by simp [note, hc, hr]) (if_neg hr)
      | destroy client r =>
        by_cases hr : (u.1.resources r).any fun x => x.client = client
        · apply hu.forget
          simp [note, hc, hr]
        · exact keeps (by simp [note, hc, hr]) (if_neg hr)
      | peerDiscover connected => exact hu.discover connected hf'
      | sessionDisconnect => exact hu.disconnect hf'
      | frameTimer busyness => exact hu.frame busyness hf'
      | moveApp b polar azimuthal => exact hu.drag hf' hc

theorem tracked_init : Tracked (init, {}) where
  tree := init_tree
  wired := init_wired
  attached := init_attached
  flagged := init_flagged
  rests := fun _ v hv => by cases hv
  served := fun _ v hv => by cases hv

/-- Throughout a run the syncs that are not forced send what was requested, exactly when they come
to nothing else that is kept in a table: to attributes with a buffer and to parameters of samplers
that were requested since their objects were last synced. -/
theorem sends_damaged_iff (as : List Action) :
    Run.Each tracked SendsDamaged (init, {}) as ↔ Run.Each tracked ReachesAsked (init, {}) as :=
  Run.each_iff_each tracked_init (fun _ a hu _ => tracked_step hu a) (fun _ a hu => hu.sends_iff a)
    as

/-- A virtual object whose technique draws from a vertex array with one attribute, synced once. -/
def attributeRun : List Action :=
  [.peerDiscover true, .request 0 .createVirtualObject, .request 0 (.createRenderingUnit 0),
    .request 0 (.createGlBaseTechnique 1), .request 0 .createGlVertexArray,
    .request 0 (.createGlBuffer {}),
    .request 0 (.vertexAttribPointer 3 7 3 0x1406 0 0 ⟨8, fun _ => 0⟩ 4),
    .request 0 (.bindVertexArray 2 3), .request 0 (.getBounded 0 ⟨12, fun _ => 0⟩),
    .request 0 (.commit 0)]

/-- A second commit sends the attribute again: `GlVertexArray::commit` resets the flags of a copy
of the entry. -/
theorem attribute_sent_again :
    ¬ Run.Each tracked SendsDamaged (init, {}) (attributeRun ++ [.request 0 (.commit 0)]) := by
  intro h
  have h1 := (h attributeRun (.request 0 (.commit 0)) List.prefix_rfl 0 rfl rfl rfl).1 rfl rfl
    (.glVertexAttribPointer 3 7 3 0x1406 false 0 0 4) (by decide)
  obtain ⟨p, -, hp⟩ := h1
  cases hp

end Scene
end Yaza
