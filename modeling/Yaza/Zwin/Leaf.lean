import Yaza.Lib.Mirror
import Yaza.Zwin.Proxies

/-! One leaf object of a scene by itself: its requests, commits and syncs in any order, with the
sessions and the client memory around it, and what its remote object was told. -/
namespace Yaza

/-- The last value that was given to `id`. -/
def lastOf {β : Type} (l : List (ℕ × β)) (id : ℕ) : Option β :=
  l.foldl (fun h e => if e.1 = id then some e.2 else h) none

section LastOf
variable {β : Type} {l : List (ℕ × β)} {id : ℕ}

@[simp] theorem lastOf_concat (l : List (ℕ × β)) (e : ℕ × β) (id : ℕ) :
    lastOf (l ++ [e]) id = if e.1 = id then some e.2 else lastOf l id := by
  simp [lastOf]

theorem lastOf_of_lt (h : ∀ e ∈ l, e.1 < id) : lastOf l id = none := by
  induction l using List.reverseRecOn with
  | nil => rfl
  | append_singleton l e ih =>
    have he : e.1 < id := h e (by simp)
    rw [lastOf_concat, if_neg (Nat.ne_of_lt he)]
    exact ih fun e' he' => h e' (List.mem_append_left _ he')

end LastOf

/-- The calls of one kind, without the first `n` calls. -/
def Remote.told {β : Type} (r : Remote) (n : ℕ) (f : Call → Option (ℕ × β)) : List (ℕ × β) :=
  (r.calls.drop n).filterMap f

namespace Scene

/-- What the remote object of `h` was told last, if there is one. -/
def copy {β : Type} (s : Scene) (n : ℕ) (f : Call → Option (ℕ × β)) (h : Holder) :
    Option (Option β) :=
  (s.proxyOf h).map fun p => lastOf (s.remote.told n f) p.id

/-- What holds of one object and of the calls since the first `n`. -/
structure Traced {β : Type} (n : ℕ) (f : Call → Option (ℕ × β)) (h : Holder) (s : Scene) :
    Prop where
  since : n ≤ s.remote.calls.length
  issued : ∀ e ∈ s.remote.told n f, e.1 < s.remote.proxyCount
  proxy : ∀ p, s.proxyOf h = some p → p.id < s.remote.proxyCount
  session : (s.proxyOf h).isSome → s.remote.hasSession

section Told
variable {β : Type} {n : ℕ} {f : Call → Option (ℕ × β)} {h : Holder} {s s' : Scene}

theorem told_call (hn : n ≤ s.remote.calls.length) (c : Call) :
    (s.call c).remote.told n f = s.remote.told n f ++ (f c).toList := by
  simp only [call, Remote.call, Remote.told, List.drop_append_of_le_length hn,
    List.filterMap_append]
  cases hc : f c <;> simp [hc]

theorem Traced.call (hl : Traced n f h s) {c : Call}
    (hc : ∀ e, f c = some e → e.1 < s.remote.proxyCount) : Traced n f h (s.call c) where
  since := by
    simp only [Scene.call, Remote.call, List.length_append]
    exact Nat.le_add_right_of_le hl.since
  issued := fun e he => by
    rw [told_call hl.since] at he
    rcases List.mem_append.mp he with he | he
    · exact hl.issued e he
    · exact hc e (by simpa using he)
  proxy := hl.proxy
  session := hl.session

theorem Traced.same (hl : Traced n f h s) (hr : s'.remote = s.remote)
    (hp : s'.proxyOf h = s.proxyOf h) : Traced n f h s' where
  since := by rw [hr]; exact hl.since
  issued := by rw [hr]; exact hl.issued
  proxy := by rw [hr, hp]; exact hl.proxy
  session := by rw [hr, hp]; exact hl.session

theorem copy_same (hr : s'.remote = s.remote) (hp : s'.proxyOf h = s.proxyOf h) :
    s'.copy n f h = s.copy n f h := by
  rw [copy, copy, hr, hp]

theorem Traced.establish (hl : Traced n f h s) :
    Traced n f h { s with remote := s.remote.establish } where
  since := hl.since
  issued := hl.issued
  proxy := fun p hp => hl.proxy p (by cases h <;> exact hp)
  session := fun _ => rfl

/-- Losing the session loses the proxies, and no call. -/
theorem sessionDisconnect_cases (s : Scene) :
    s.sessionDisconnect = s ∨ s.remote.hasSession ∧
      s.sessionDisconnect.remote = s.remote.disconnect ∧
      ∀ h, s.sessionDisconnect.proxyOf h = none := by
  by_cases hs : s.remote.hasSession
  · refine .inr ⟨hs, ?_, fun h => ?_⟩
    · rw [sessionDisconnect, if_pos hs]
      rfl
    · rw [sessionDisconnect, if_pos hs]
      cases h <;> simp [proxyOf, dropProxies, Option.bind_map]
  · exact .inl (by rw [sessionDisconnect, if_neg hs])

theorem Traced.disconnect (hl : Traced n f h s) : Traced n f h s.sessionDisconnect := by
  rcases s.sessionDisconnect_cases with he | ⟨-, hr, hn⟩
  · rw [he]
    exact hl
  · refine ⟨?_, ?_, fun p hp => ?_, fun hp => ?_⟩
    · rw [hr]
      exact hl.since
    · rw [hr]
      exact hl.issued
    · rw [hn] at hp
      cases hp
    · rw [hn] at hp
      cases hp

/-- With a session, a live object gets a proxy when it has none, and is told nothing. -/
theorem ensureProxy_copy (hl : Traced n f h s) (hs : s.remote.hasSession) (hv : s.live h)
    (mk : ℕ → Call) (hm : ∀ id, f (mk id) = none) :
    Traced n f h (s.ensureProxy h mk) ∧ (s.ensureProxy h mk).fault = s.fault ∧
      (s.ensureProxy h mk).remote.told n f = s.remote.told n f ∧
      (s.ensureProxy h mk).copy n f h = some (s.copy n f h).join := by
  unfold ensureProxy
  split
  · next hp =>
    obtain ⟨p, hp⟩ := Option.isSome_iff_exists.mp hp
    exact ⟨hl, rfl, rfl, by simp [copy, hp]⟩
  · next hp =>
    have hp : s.proxyOf h = none := by simpa using hp
    split
    · next hn => simp_all [Remote.create, Remote.hasSession]
    · next p r hr =>
      obtain ⟨channel, hch, rfl, rfl⟩ := create_eq_some hr
      have htold : (s.call (mk s.remote.proxyCount)).remote.told n f = s.remote.told n f := by
        simp [told_call hl.since, hm]
      have hnew : (giveProxy { s with remote := { s.remote with
            proxyCount := s.remote.proxyCount + 1
            calls := s.remote.calls ++ [mk s.remote.proxyCount] } }
          ⟨s.remote.proxyCount, channel⟩ h).proxyOf h = some ⟨s.remote.proxyCount, channel⟩ := by
        rw [proxyOf_giveProxy, if_pos]
        refine ⟨rfl, ?_⟩
        cases h <;> exact hv
      refine ⟨⟨?_, ?_, ?_, ?_⟩, by rw [giveProxy_fault], by rw [giveProxy_remote]; exact htold, ?_⟩
      · rw [giveProxy_remote, List.length_append]
        exact Nat.le_add_right_of_le hl.since
      · intro e he
        rw [giveProxy_remote] at he ⊢
        exact Nat.lt_succ_of_lt (hl.issued e (htold ▸ he))
      · intro q hq
        rw [hnew] at hq
        cases hq
        rw [giveProxy_remote]
        exact Nat.lt_succ_self _
      · intro _
        rw [giveProxy_remote]
        exact hs
      · have h1 : lastOf (s.remote.told n f) s.remote.proxyCount = none := lastOf_of_lt hl.issued
        rw [copy, hnew, giveProxy_remote]
        simp only [Option.map_some, copy, hp, Option.map_none, Option.join_none]
        exact congrArg some ((congrArg (lastOf · _) htold).trans h1)

/-- The mirror of one kind of calls: `store` and `dirty` are what the object has, `committed` says
whether it was ever committed. -/
def mirror {β : Type} (s : Scene) (n : ℕ) (f : Call → Option (ℕ × β)) (h : Holder) (store : β)
    (committed dirty : Bool) : Mirror β where
  store := store
  committed := committed
  dirty := dirty
  copy := s.copy n f h
  told := !(s.remote.told n f).isEmpty

theorem mirror_same (hr : s'.remote = s.remote) (hp : s'.proxyOf h = s.proxyOf h) (store : β)
    (committed dirty : Bool) :
    s'.mirror n f h store committed dirty = s.mirror n f h store committed dirty := by
  simp only [mirror, copy_same hr hp, hr]

/-- The remote object holds the content; without any, nothing was told. -/
structure Holds {β : Type} (n : ℕ) (f : Call → Option (ℕ × β)) (h : Holder) (s : Scene)
    (content : Option β) : Prop where
  copy : s.copy n f h = some content
  silent : content = none → s.remote.told n f = []

theorem mirror_faithful {store : β} {committed dirty : Bool} {content : Option β}
    (hv : (s.mirror n f h store committed dirty).value = content) :
    (s.mirror n f h store committed dirty).Faithful ↔ Holds n f h s content := by
  constructor
  · rintro ⟨h1, h2⟩
    rw [hv] at h1 h2
    refine ⟨h1, fun hc => ?_⟩
    simpa [mirror] using h2 hc
  · rintro ⟨h1, h2⟩
    refine ⟨by rw [hv]; exact h1, fun hc => ?_⟩
    rw [hv] at hc
    simp [mirror, h2 hc]

/-- A sync of the object: `sends` says whether it tells `store`. -/
structure Synced {β : Type} (n : ℕ) (f : Call → Option (ℕ × β)) (h : Holder) (s s' : Scene)
    (store : β) (sends : Bool) : Prop where
  traced : Traced n f h s'
  copy : s'.copy n f h = some (if sends then some store else (s.copy n f h).join)
  told : (s'.remote.told n f).isEmpty = ((s.remote.told n f).isEmpty && !sends)

theorem ensureProxy_synced (hl : Traced n f h s) (hs : s.remote.hasSession) (hv : s.live h)
    (mk : ℕ → Call) (hm : ∀ id, f (mk id) = none) (store : β) :
    Synced n f h s (s.ensureProxy h mk) store false := by
  obtain ⟨h1, -, h2, h3⟩ := ensureProxy_copy hl hs hv mk hm
  exact ⟨h1, h3, by simp [h2]⟩

section Synced
variable {s₁ : Scene} {store : β} {sends : Bool}

/-- A call that tells the remote object its value. -/
theorem Synced.tell (hy : Synced n f h s s₁ store false) {p : Proxy} (hp : s₁.proxyOf h = some p)
    {c : Call} (hc : f c = some (p.id, store)) (hr : s'.remote = (s₁.call c).remote)
    (hq : s'.proxyOf h = s₁.proxyOf h) : Synced n f h s s' store true := by
  have hl := hy.traced
  have htold : s'.remote.told n f = s₁.remote.told n f ++ [(p.id, store)] := by
    rw [hr, told_call hl.since, hc]
    rfl
  refine ⟨(hl.call fun e he => ?_).same hr hq, ?_, by simp [htold]⟩
  · rw [hc] at he
    cases he
    exact hl.proxy p hp
  · simp [Scene.copy, hq, hp, htold]

/-- A call of another kind. -/
theorem Synced.pass (hy : Synced n f h s s₁ store sends) {c : Call} (hc : f c = none)
    (hr : s'.remote = (s₁.call c).remote) (hq : s'.proxyOf h = s₁.proxyOf h) :
    Synced n f h s s' store sends := by
  have hl := hy.traced
  have htold : s'.remote.told n f = s₁.remote.told n f := by
    rw [hr, told_call hl.since, hc]
    simp
  refine ⟨(hl.call fun e he => ?_).same hr hq, ?_, by rw [htold]; exact hy.told⟩
  · rw [hc] at he
    cases he
  · rw [← hy.copy]
    simp [Scene.copy, hq, htold]

theorem Synced.proxy (hy : Synced n f h s s' store sends) : ∃ p, s'.proxyOf h = some p := by
  have h1 := hy.copy
  simp only [Scene.copy, Option.map_eq_some_iff] at h1
  obtain ⟨p, hp, -⟩ := h1
  exact ⟨p, hp⟩

end Synced

/-- What the object has in `store` and `dirty` belongs to what was committed. -/
structure Registered {β : Type} (n : ℕ) (f : Call → Option (ℕ × β)) (h : Holder) (s : Scene)
    (store : β) (dirty : Bool) (content : Option β) : Prop where
  traced : Traced n f h s
  stored : ∀ c, content = some c → store = c
  kept : (s.mirror n f h store content.isSome dirty).Kept

/-- What was committed is forced to be told, or its flag is set, or the proxy is there; what was
not is not forced, and its flag happens to be false. -/
def SyncReady (committed dirty hasProxy force : Bool) : Prop :=
  if committed then force = true ∨ dirty = true ∨ hasProxy = true
  else force = false ∧ dirty = false

section Registered
variable {store : β} {dirty : Bool} {content : Option β}

theorem Registered.value (hg : Registered n f h s store dirty content) :
    (s.mirror n f h store content.isSome dirty).value = content := by
  cases hc : content with
  | none => rfl
  | some c =>
    rw [← hg.stored c hc]
    rfl

theorem Registered.same (hg : Registered n f h s store dirty content) (hr : s'.remote = s.remote)
    (hp : s'.proxyOf h = s.proxyOf h) : Registered n f h s' store dirty content where
  traced := hg.traced.same hr hp
  stored := hg.stored
  kept := by
    rw [mirror_same hr hp]
    exact hg.kept

theorem Registered.memory (hg : Registered n f h s store dirty content) (m : Arena ShmBuffer) :
    Registered n f h { s with shmBuffers := m } store dirty content :=
  hg.same rfl (by cases h <;> rfl)

theorem Registered.commit (hg : Registered n f h s store dirty content)
    (hr : s'.remote = s.remote) (hp : s'.proxyOf h = s.proxyOf h) (v : β) :
    Registered n f h s' v true (some v) where
  traced := hg.traced.same hr hp
  stored := fun _ hc => Option.some.inj hc
  kept := by
    rw [mirror_same hr hp]
    exact Mirror.Kept.commit (s.mirror n f h store content.isSome dirty) v

theorem Registered.establish (hg : Registered n f h s store dirty content) :
    Registered n f h { s with remote := s.remote.establish } store dirty content := by
  have hp : { s with remote := s.remote.establish }.proxyOf h = s.proxyOf h := by cases h <;> rfl
  have hm : { s with remote := s.remote.establish }.mirror n f h store content.isSome dirty =
      s.mirror n f h store content.isSome dirty := by
    simp only [mirror, Scene.copy, hp]
    rfl
  exact ⟨hg.traced.establish, hg.stored, hm ▸ hg.kept⟩

theorem Registered.disconnect (hg : Registered n f h s store dirty content) :
    Registered n f h s.sessionDisconnect store dirty content := by
  rcases s.sessionDisconnect_cases with he | ⟨-, hr, hn⟩
  · rw [he]
    exact hg
  · have hm : s.sessionDisconnect.mirror n f h store content.isSome dirty =
        (s.mirror n f h store content.isSome dirty).drop := by
      simp only [mirror, Mirror.drop, Scene.copy, hn, hr]
      rfl
    exact ⟨hg.traced.disconnect, hg.stored, hm ▸ hg.kept.drop⟩

/-- A sync leads to the committed content exactly when it is ready. -/
theorem Registered.sync (hg : Registered n f h s store dirty content) {force : Bool}
    (hy : Synced n f h s s' store (force || dirty)) :
    (Holds n f h s' content ↔
      SyncReady content.isSome dirty (s.proxyOf h).isSome force) ∧
    (Holds n f h s' content → Registered n f h s' store false content) := by
  have hm : s'.mirror n f h store content.isSome false =
      (s.mirror n f h store content.isSome dirty).sync force := by
    simp only [mirror, Mirror.sync, hy.copy, hy.told, Bool.not_and, Bool.not_not]
    rfl
  have hvalue : (s'.mirror n f h store content.isSome false).value = content := by
    rw [hm, Mirror.value_sync, hg.value]
  constructor
  · rw [← mirror_faithful hvalue, hm, Mirror.sync_faithful_iff hg.kept, Mirror.Ready, SyncReady]
    simp [mirror, Scene.copy]
  · exact fun hh => ⟨hy.traced, hg.stored, ((mirror_faithful hvalue).mpr hh).kept⟩

end Registered

/-- There are no calls since now. -/
theorem traced_init (hp : s.proxyOf h = none) : Traced s.remote.calls.length f h s where
  since := Nat.le_refl _
  issued := fun e he => by simp [Remote.told] at he
  proxy := fun p h1 => by
    rw [hp] at h1
    cases h1
  session := fun h1 => by
    rw [hp] at h1
    cases h1

theorem registered_init (hp : s.proxyOf h = none) (store : β) (dirty : Bool) :
    Registered s.remote.calls.length f h s store dirty none where
  traced := traced_init hp
  stored := fun _ hc => by cases hc
  kept :=
    { copy := fun x hx => by simp [mirror, Scene.copy, hp] at hx
      silent := fun _ => by simp [mirror, Remote.told] }

theorem no_proxy (ht : Traced n f h s) (hs : s.remote.hasSession = false) :
    s.proxyOf h = none := by
  by_contra hn
  have h1 := ht.session (Option.isSome_iff_ne_none.mpr hn)
  rw [hs] at h1
  cases h1

theorem crash_isSome (s : Scene) (f : Fault) : (s.crash f).fault.isSome := by
  cases hf : s.fault <;> simp [crash, hf]

theorem ensureProxy_crash (hs : s.remote.hasSession = false) (hp : s.proxyOf h = none)
    (mk : ℕ → Call) : s.ensureProxy h mk = s.crash .noSession := by
  have hn : s.remote.create mk = none := by
    simp only [Remote.hasSession, Option.isSome_eq_false_iff, Option.isNone_iff_eq_none] at hs
    simp [Remote.create, hs]
  simp [ensureProxy, hp, hn]

end Told

end Scene

/-- `R` are the requests of the object. -/
inductive LeafAction (R : Type) where
  | request (r : R)
  | commit
  | sync (force : Bool)
  | connect
  | disconnect
  /-- The clients do something with their buffers. -/
  | memory (m : Arena ShmBuffer)

/-- What the code does for one object, and what is noted of it: `K` are the notes. -/
structure Leaf (R K : Type) where
  request : R → Scene → Scene
  commit : Scene → Scene
  sync : Bool → Scene → Scene
  note : Scene → K → LeafAction R → K

namespace Leaf
variable {R K : Type} (l : Leaf R K)

def act (s : Scene) : LeafAction R → Scene
  | .request r => l.request r s
  | .commit => l.commit s
  | .sync force => l.sync force s
  | .connect => if s.remote.hasSession then s else { s with remote := s.remote.establish }
  | .disconnect => s.sessionDisconnect
  | .memory m => { s with shmBuffers := m }

/-- Nothing happens after a fault. -/
def step (s : Scene × K) (a : LeafAction R) : Scene × K :=
  if s.1.fault.isSome then s else (l.act s.1 a, l.note s.1 s.2 a)

theorem step_of_running {s : Scene × K} (hf : s.1.fault = none) (a : LeafAction R) :
    l.step s a = (l.act s.1 a, l.note s.1 s.2 a) := by simp [step, hf]

theorem step_of_fault {s : Scene × K} (hf : s.1.fault.isSome) (a : LeafAction R) :
    l.step s a = s := by simp [step, hf]

/-- A step that is a sync, and returns, leads to `P`. -/
def After (P : Scene × K → Prop) (s : Scene × K) (a : LeafAction R) : Prop :=
  ∀ force, a = .sync force → (l.step s a).1.fault = none → P (l.step s a)

/-- A step that is a sync, where it can return (`E`), meets `C`. -/
def Before (E C : Scene × K → Bool → Prop) (s : Scene × K) (a : LeafAction R) : Prop :=
  ∀ force, a = .sync force → s.1.fault = none → E s force → C s force

/-- What the code keeps of one object when its syncs meet `C`: they lead to `P` then, and not
otherwise. -/
structure Keeps (P G : Scene × K → Prop) (E C : Scene × K → Bool → Prop) : Prop where
  other : ∀ s a, G s → s.1.fault = none → (∀ force, a ≠ .sync force) →
    (l.act s.1 a).fault = none → G (l.act s.1 a, l.note s.1 s.2 a)
  sync : ∀ s force, G s → s.1.fault = none → E s force →
    (l.sync force s.1).fault = none ∧
      (P (l.sync force s.1, l.note s.1 s.2 (.sync force)) ↔ C s force) ∧
      (C s force → G (l.sync force s.1, l.note s.1 s.2 (.sync force)))
  crash : ∀ s force, G s → s.1.fault = none → ¬ E s force → (l.sync force s.1).fault.isSome

variable {l} {P G : Scene × K → Prop} {E C : Scene × K → Bool → Prop}

theorem Keeps.step_iff (h : l.Keeps P G E C) {s : Scene × K} (hg : s.1.fault = none → G s)
    (a : LeafAction R) : (l.After P s a ↔ Before E C s a) ∧
      (Before E C s a → (l.step s a).1.fault = none → G (l.step s a)) := by
  cases hf : s.1.fault with
  | some f =>
    have hs : s.1.fault.isSome := by rw [hf]; rfl
    have hstep (Q : Prop) (hn : (l.step s a).1.fault = none) : Q := by
      rw [step_of_fault l hs, hf] at hn
      cases hn
    refine ⟨iff_of_true (fun _ _ hn => hstep _ hn) fun _ _ hn => ?_, fun _ hn => hstep _ hn⟩
    rw [hf] at hn
    cases hn
  | none =>
    have hg := hg hf
    unfold After
    rw [step_of_running l hf]
    by_cases ha : ∃ force, a = .sync force
    · obtain ⟨force, rfl⟩ := ha
      by_cases hs : E s force
      · obtain ⟨h1, h2, h3⟩ := h.sync s force hg hf hs
        refine ⟨⟨fun hq force' he _ _ => ?_, fun hc force' _ _ => h2.mpr (hc force rfl hf hs)⟩,
          fun hc _ => h3 (hc force rfl hf hs)⟩
        cases he
        exact h2.mp (hq force rfl h1)
      · have h1 := h.crash s force hg hf hs
        have hstep (Q : Prop) (hn : (l.sync force s.1).fault = none) : Q := by
          rw [hn] at h1
          cases h1
        refine ⟨iff_of_true (fun _ _ hn => hstep _ hn) fun force' he _ hn => ?_,
          fun _ hn => hstep _ hn⟩
        cases he
        exact absurd hn hs
    · have ha : ∀ force, a ≠ .sync force := fun force he => ha ⟨force, he⟩
      exact ⟨iff_of_true (fun force he => absurd he (ha force))
          fun force he => absurd he (ha force),
        fun _ hn => h.other s a hg hf ha hn⟩

/-- All syncs of a run lead to `P` exactly when all that can return meet `C`. -/
theorem Keeps.each_iff (h : l.Keeps P G E C) {s : Scene × K} (hg : s.1.fault = none → G s)
    (as : List (LeafAction R)) :
    Run.Each l.step (l.After P) s as ↔ Run.Each l.step (Before E C) s as :=
  Run.each_iff_each (G := fun s => s.1.fault = none → G s) hg
    (fun _ a hg hc => (h.step_iff hg a).2 hc) (fun _ a hg => (h.step_iff hg a).1) as

/-- A sync needs a session. -/
def InSession (s : Scene × K) (_ : Bool) : Prop := s.1.remote.hasSession

end Leaf

/-- What was requested and is not committed yet, and what was committed last. -/
structure Notes (ρ β : Type) where
  asked : Option ρ := none
  content : Option β := none

/-- What was requested is committed, if it can be read. -/
def Notes.commit {ρ β : Type} (k : Notes ρ β) (read : ρ → Option β) : Notes ρ β :=
  match k.asked.bind read with
  | none => k
  | some c => { content := some c }

end Yaza
