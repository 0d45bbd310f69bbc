import Yaza.Zwin.Still

/-! The proxies of a scene belong to the current session, and no step asks for one that is
missing. -/
namespace Yaza

namespace Remote

/-- Established and disconnected in turn, the first one first. -/
def Alternating : Bool → List SessionSignal → Prop
  | _, [] => True
  | connected, .established :: es => connected = false ∧ Alternating true es
  | connected, .disconnected :: es => connected = true ∧ Alternating false es

/-- Whether the signals leave a session. -/
def connectedAfter (connected : Bool) : List SessionSignal → Bool
  | [] => connected
  | .established :: es => connectedAfter true es
  | .disconnected :: es => connectedAfter false es

theorem alternating_concat {b : Bool} {es : List SessionSignal} {e : SessionSignal} :
    Alternating b (es ++ [e]) ↔
      Alternating b es ∧ connectedAfter b es = decide (e = .disconnected) := by
  induction es generalizing b with
  | nil => cases e <;> cases b <;> simp [Alternating, connectedAfter]
  | cons e' es ih => cases e' <;> simp [Alternating, connectedAfter, ih, and_assoc]

theorem connectedAfter_concat (b : Bool) (es : List SessionSignal) (e : SessionSignal) :
    connectedAfter b (es ++ [e]) = decide (e = .established) := by
  induction es generalizing b with
  | nil => cases e <;> simp [connectedAfter]
  | cons e' es ih => cases e' <;> simp [connectedAfter, ih]

end Remote

namespace Scene

theorem commitVirtualObject_session {s : Scene} (ht : Tree s) (v : ℕ) :
    (s.commitVirtualObject v).remote.currentSession = s.remote.currentSession :=
  (syncIfSession_steps ((commitState_commits_true s v).tree ht).registered v).session.trans
    (congrArg Remote.currentSession (commitState_quiet s v).remote)

/-- Only the two events of the session begin or end it. -/
theorem step_session {s : Scene} (ht : Tree s) {a : Action} (hp : ∀ c, a ≠ .peerDiscover c)
    (hd : a ≠ .sessionDisconnect) :
    (s.step a).remote.currentSession = s.remote.currentSession := by
  unfold step
  split
  · rfl
  cases a with
  | request client r =>
    simp only [act]
    split
    · by_cases hc : ∃ v, r = .commit v
      · obtain ⟨v, rfl⟩ := hc
        exact commitVirtualObject_session ht v
      · by_cases hf : ∃ v, r = .frame v
        · obtain ⟨v, rfl⟩ := hf
          exact congrArg Remote.currentSession (queueFrameCallback_quiet s v).remote
        · exact congrArg Remote.currentSession
            (handle_still ht client (fun v h => hc ⟨v, h⟩) fun v h => hf ⟨v, h⟩).remote
    · rfl
  | destroy client r =>
    simp only [act]
    split
    · rcases destroyResource_cases ht r with ⟨-, h⟩ | ⟨-, h⟩ <;>
        exact congrArg Remote.currentSession h.remote
    · rfl
  | peerDiscover connected => exact absurd rfl (hp connected)
  | sessionDisconnect => exact absurd rfl hd
  | frameTimer busyness =>
    simp only [act, frameTimer]
    split <;> rfl
  | moveApp b polar azimuthal =>
    simp only [act, moveApp]
    split
    · rfl
    · exact commitVirtualObject_session (ht.same (turnApp_same ..)) _

theorem peerDiscover_session {s : Scene} (ht : Tree s) (hn : s.remote.hasSession = false) :
    (s.peerDiscover true).remote.currentSession = some s.remote.sessionCount := by
  rcases peerDiscover_cases ht.registered true with ⟨-, h⟩ | ⟨-, h⟩
  · simp [hn] at h
  · exact h.session

/-- What holds of the session and the proxies in every state. -/
structure Attached (s : Scene) : Prop where
  signals : Remote.Alternating false s.remote.emitted
  connected : Remote.connectedAfter false s.remote.emitted = s.remote.hasSession
  session : ∀ c, s.remote.currentSession = some c → c < s.remote.sessionCount
  channel : ∀ h p, s.proxyOf h = some p → s.remote.currentSession = some p.channel
  id_lt : ∀ h p, s.proxyOf h = some p → p.id < s.remote.proxyCount
  distinct : ∀ h h' p p', s.proxyOf h = some p → s.proxyOf h' = some p' → p.id = p'.id → h = h'
  fault : s.fault ≠ some .noProxy ∧ s.fault ≠ some .noSession

namespace Attached
variable {s s' : Scene} (hs : Attached s)
include hs

/-- Without a session there is no proxy. -/
theorem proxyOf_of_disconnected (h : s.remote.hasSession = false) (x : Holder) :
    s.proxyOf x = none := by
  cases hx : s.proxyOf x with
  | none => rfl
  | some p => simp [Remote.hasSession, hs.channel x p hx] at h

theorem quiet (h : Quiet s s') : Attached s' where
  signals := h.remote ▸ hs.signals
  connected := h.remote ▸ hs.connected
  session := h.remote ▸ hs.session
  channel := fun x p hp => h.remote ▸ hs.channel x p (h.proxyOf x p hp)
  id_lt := fun x p hp => h.remote ▸ hs.id_lt x p (h.proxyOf x p hp)
  distinct := fun x x' p p' hp hp' =>
    hs.distinct x x' p p' (h.proxyOf x p hp) (h.proxyOf x' p' hp')
  fault := by
    constructor <;> intro hf <;> rcases h.fault _ hf with h1 | h1
    · exact hs.fault.1 h1
    · simp at h1
    · exact hs.fault.2 h1
    · simp at h1

/-- A step of `sync` makes its proxies on the current channel, with new ids. -/
theorem syncStep {A : ℕ → Prop} {C : Call → Prop} (h : SyncStep A C s s') : Attached s' where
  signals := h.signals.1 ▸ hs.signals
  connected := by rw [h.signals.1, hs.connected, Remote.hasSession, Remote.hasSession, h.session]
  session := fun c hc => by
    rw [h.session] at hc
    rw [h.signals.2]
    exact hs.session c hc
  channel := fun x p hp => by
    rw [h.session]
    rcases h.proxyOf_new hp with h1 | ⟨-, h1, -⟩
    · exact hs.channel x p h1
    · exact h1
  id_lt := fun x p hp => by
    rcases h.proxyOf_new hp with h1 | ⟨-, -, h1⟩
    · exact (hs.id_lt x p h1).trans_le h.proxyCount
    · exact h1
  distinct := fun x x' p p' hp hp' he => by
    rcases h.proxyOf_new hp with h1 | ⟨h1, -, -⟩ <;> rcases h.proxyOf_new hp' with h2 | ⟨h2, -, -⟩
    · exact hs.distinct x x' p p' h1 h2 he
    · have := hs.id_lt x p h1
      omega
    · have := hs.id_lt x' p' h2
      omega
    · obtain ⟨y, hy⟩ := h.changes_one
      have new {z : Holder} {q : Proxy} (hq : s'.proxyOf z = some q)
          (hn : s.remote.proxyCount ≤ q.id) : z = y := by
        by_contra hz
        have := hs.id_lt z q (hy z hz ▸ hq)
        omega
      exact (new hp h1).trans (new hp' h2).symm
  fault := by
    constructor <;> intro hf <;> rcases h.fault hf with h1 | h1
    · exact hs.fault.1 h1
    · simp at h1
    · exact hs.fault.2 h1
    · simp at h1

theorem syncs {A : ℕ → Prop} {C : Call → Prop} (h : Syncs A C s s') : Attached s' :=
  Path.preserves (P := Attached) (fun _ _ h hs => Attached.syncStep hs h) h hs

theorem establish (hd : s.remote.hasSession = false) :
    Attached { s with remote := s.remote.establish } := by
  have hn : ∀ x, ({ s with remote := s.remote.establish } : Scene).proxyOf x = none := fun x => by
    rw [← hs.proxyOf_of_disconnected hd x]
    cases x <;> rfl
  constructor
  · exact Remote.alternating_concat.mpr ⟨hs.signals, by rw [hs.connected, hd]; rfl⟩
  · simp [Remote.establish, Remote.connectedAfter_concat, Remote.hasSession]
  · intro c hc
    cases hc
    exact Nat.lt_succ_self _
  · simp [hn]
  · simp [hn]
  · simp [hn]
  · exact hs.fault

theorem disconnect (hc : s.remote.hasSession) : Attached s.sessionDisconnect := by
  rw [sessionDisconnect, if_pos hc]
  have hn : ∀ x,
      ({ s with remote := s.remote.disconnect } : Scene).dropProxies.proxyOf x = none := by
    intro x
    cases x <;> simp [proxyOf, dropProxies, Option.bind_map]
  constructor
  · exact Remote.alternating_concat.mpr ⟨hs.signals, by rw [hs.connected, hc]; rfl⟩
  · simp [dropProxies, Remote.disconnect, Remote.connectedAfter_concat, Remote.hasSession]
  · simp [dropProxies, Remote.disconnect]
  · simp [hn]
  · simp [hn]
  · simp [hn]
  · exact hs.fault

theorem commitVirtualObject (ht : Tree s) (v : ℕ) : Attached (s.commitVirtualObject v) :=
  (hs.quiet (commitState_quiet s v)).syncs
    (syncIfSession_steps (s := s.commitState v)
      ((commitState_commits_true s v).tree ht).registered v)

theorem act (ht : Tree s) (a : Action) : Attached (s.act a) := by
  cases a with
  | request client r =>
    simp only [Scene.act]
    split
    · by_cases hc : ∃ v, r = .commit v
      · obtain ⟨v, rfl⟩ := hc
        exact hs.commitVirtualObject ht v
      · by_cases hf : ∃ v, r = .frame v
        · obtain ⟨v, rfl⟩ := hf
          exact hs.quiet (queueFrameCallback_quiet s v)
        · exact hs.quiet (handle_still ht client (fun v h => hc ⟨v, h⟩)
            fun v h => hf ⟨v, h⟩).toQuiet
    · exact hs
  | destroy client r =>
    simp only [Scene.act]
    split
    · rcases destroyResource_cases ht r with ⟨-, h⟩ | ⟨-, h⟩
      · exact hs.quiet h.toQuiet
      · exact hs.quiet h.toQuiet
    · exact hs
  | peerDiscover connected =>
    rcases peerDiscover_cases ht.registered connected with ⟨h, -⟩ | ⟨hd, h⟩
    · rw [Scene.act, h]
      exact hs
    · exact (hs.establish hd).syncs h
  | sessionDisconnect =>
    by_cases hc : s.remote.hasSession
    · exact hs.disconnect hc
    · rwa [Scene.act, sessionDisconnect, if_neg hc]
  | frameTimer busyness =>
    simp only [Scene.act, frameTimer]
    split
    · exact hs.quiet (sessionFrame_quiet s)
    · exact hs
  | moveApp b polar azimuthal =>
    simp only [Scene.act, moveApp]
    split
    · exact hs
    · next x _ =>
      have h1 : Attached (s.turnApp b x polar azimuthal) := hs.quiet (turnApp_still ..).toQuiet
      exact h1.commitVirtualObject (ht.same (turnApp_same ..)) _

end Attached

theorem init_attached : Attached init := by
  have hn : ∀ x, init.proxyOf x = none := fun x => by cases x <;> rfl
  constructor
  · trivial
  · rfl
  · simp [init]
  · simp [hn]
  · simp [hn]
  · simp [hn]
  · simp [init]

theorem step_attached (s : Scene) (a : Action) (h : Tree s ∧ Attached s) :
    Tree (s.step a) ∧ Attached (s.step a) := by
  refine ⟨step_tree s a h.1, ?_⟩
  unfold step
  split
  · exact h.2
  · exact h.2.act h.1 a

/-- The proxies are attached in every state of every run. -/
theorem run_attached (as : List Action) : Attached (run as) :=
  (Run.final_induction (P := fun s => Tree s ∧ Attached s) ⟨init_tree, init_attached⟩
    step_attached as).2

end Scene
end Yaza
