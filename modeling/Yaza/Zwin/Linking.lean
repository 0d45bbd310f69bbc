import Mathlib.Data.List.Forall2
import Yaza.Zwin.Leaf

/-! `GlProgram` by itself: when its remote program received the shaders that were attached before
its link, each once, and then the link, once. -/
namespace Yaza

/-- The attached shader, or none for a link. -/
def Call.program? : Call → Option (ℕ × Option ℕ)
  | .glAttachShader p h => some (p, some h)
  | .glLinkProgram p => some (p, none)
  | _ => none

inductive ProgramRequest where
  | attach (shader : ℕ)
  | link
  | destroyShader (shader : ℕ)
  deriving DecidableEq, Repr

/-- `asked` and `link` are what was requested since the last commit; `shaders` are the shaders that
were committed up to the link. A remote shader is noted with the shader it was made for. -/
structure LinkNotes where
  asked : List ℕ := []
  link : Bool := false
  shaders : List ℕ := []
  linked : Bool := false
  names : List (ℕ × ℕ) := []

/-- The remote shaders of a list of shaders. -/
def Scene.remoteShaders (s : Scene) (l : List ℕ) : List (ℕ × ℕ) :=
  l.filterMap fun h => (s.proxyOf (.shader h)).map fun p => (p.id, h)

/-- A second link is refused, and what was requested with it. -/
def LinkNotes.commit (k : LinkNotes) : LinkNotes :=
  if k.linked then
    if k.link then k else { k with asked := [] }
  else
    { k with asked := [], link := false, shaders := k.shaders ++ k.asked, linked := k.link }

def noteProgram (p : ℕ) (s : Scene) (k : LinkNotes) : LeafAction ProgramRequest → LinkNotes
  | .request (.attach h) => if s.shaderAlive h then { k with asked := k.asked ++ [h] } else k
  | .request .link => { k with link := true }
  | .commit => k.commit
  | .sync force =>
      { k with
        names := k.names ++ (s.syncProgram p force).remoteShaders
          (((s.glPrograms p).map fun x => x.current.shaders).getD []) }
  | _ => k

/-- A shader that is gone can not be named in a request. -/
def programLeaf (client p : ℕ) : Leaf ProgramRequest LinkNotes where
  request r s :=
    match r with
    | .attach h => if s.shaderAlive h then s.handle client (.attachShader p h) else s
    | .link => s.handle client (.link p)
    | .destroyShader h => s.deleteObject h .glShader
  commit s := s.commitProgram p
  sync force s := s.syncProgram p force
  note := noteProgram p

namespace Scene

/-- What a remote program received since the first `n` calls. -/
def received (s : Scene) (n id : ℕ) : List (Option ℕ) :=
  ((s.remote.told n Call.program?).filter fun e => e.1 = id).map Prod.snd

/-- Remote shaders that are known are attached, each of `shaders` once, and then comes the link,
once. -/
def LinkedOnce (names : List (ℕ × ℕ)) (shaders : List ℕ) (l : List (Option ℕ)) : Prop :=
  ∃ ids : List ℕ, l = ids.map some ++ [none] ∧ (∀ id ∈ ids, ∃ h, (id, h) ∈ names) ∧
    ∀ h ∈ shaders, ids.countP (fun id => (id, h) ∈ names) = 1

/-- What a sync leads to: a program that was linked is linked remotely, and no other is. -/
def HoldsLink (n p : ℕ) (s : Scene × LinkNotes) : Prop :=
  if s.2.linked then
    ∃ q, s.1.proxyOf (.program p) = some q ∧
      LinkedOnce s.2.names s.2.shaders (s.1.received n q.id)
  else ∀ e ∈ s.1.remote.told n Call.program?, e.2 ≠ none

/-- The sources that a sync has to read are there. -/
def SourcesLive (p : ℕ) (s : Scene) : Prop :=
  ∀ x, s.glPrograms p = some x → ∀ h ∈ x.current.shaders, ∀ y, s.glShaders h = some y →
    y.proxy = none → (s.shmBuffers y.buffer).isSome

def CanSync (p : ℕ) (s : Scene × LinkNotes) (_ : Bool) : Prop :=
  s.1.remote.hasSession ∧ SourcesLive p s.1

/-- A program whose link was not committed is not forced to sync. One that is linked in the current
session is not forced either; and before that it is forced, or the link is new, and the shaders are
alive and were attached once. -/
def LinkReady (p : ℕ) (s : Scene × LinkNotes) (force : Bool) : Prop :=
  ∀ x, s.1.glPrograms p = some x →
    if s.2.linked then
      if x.proxy.isSome ∧ x.current.shouldLink = false then force = false
      else (force = true ∨ x.current.shouldLink = true) ∧
        ∀ h ∈ s.2.shaders, s.1.shaderAlive h = true ∧ x.current.shaders.count h = 1
    else force = false

section Sync
variable {n p : ℕ} {s s' : Scene}

/-- The source of the shader can be read if it is needed. -/
def Readable (s : Scene) (h : ℕ) : Prop :=
  ∃ y, s.glShaders h = some y ∧ (y.proxy = none → (s.shmBuffers y.buffer).isSome)

/-- What a round of the loop keeps. -/
structure Rounds (n p : ℕ) (s s' : Scene) : Prop where
  fault : s'.fault = none
  traced : Traced n Call.program? (.program p) s'
  syncs : Syncs (fun _ => True) (fun _ => True) s s'
  programs : s'.glPrograms = s.glPrograms
  readable : ∀ h, Readable s h → Readable s' h

theorem Rounds.trans {s'' : Scene} (h : Rounds n p s s') (h' : Rounds n p s' s'') :
    Rounds n p s s'' where
  fault := h'.fault
  traced := h'.traced
  syncs := h.syncs.trans h'.syncs
  programs := h'.programs.trans h.programs
  readable := fun i hi => h'.readable i (h.readable i hi)

theorem syncShader_rounds (hf : s.fault = none) (ht : Traced n Call.program? (.program p) s)
    (hs : s.remote.hasSession) {h : ℕ} (hr : Readable s h) :
    Rounds n p s (s.syncShader h) ∧
      (s.syncShader h).remote.told n Call.program? = s.remote.told n Call.program? ∧
      ((s.syncShader h).proxyOf (.shader h)).isSome := by
  obtain ⟨y, hy, hsource⟩ := hr
  have hsyncs := (syncShader_syncs (A := fun _ => True) (C := fun _ => True)
    (fun _ _ => trivial) hs h).1
  cases hp : y.proxy with
  | some q =>
    have he : s.syncShader h = s := by simp [syncShader, hy, hp]
    rw [he]
    exact ⟨⟨hf, ht, .refl, rfl, fun _ hi => hi⟩, rfl, by simp [proxyOf, hy, hp]⟩
  | none =>
    obtain ⟨shm, hm⟩ := Option.isSome_iff_exists.mp (hsource hp)
    have hn : s.proxyOf (.shader h) = none := by simp [proxyOf, hy, hp]
    have he : s.syncShader h = s.ensureProxy (.shader h) fun id =>
        .createGlShader id shm.data y.type := by simp [syncShader, hy, hp, hm]
    rw [he] at hsyncs ⊢
    cases hc : s.remote.create fun id => .createGlShader id shm.data y.type with
    | none => simp_all [Remote.create, Remote.hasSession]
    | some e =>
      obtain ⟨q, r⟩ := e
      obtain ⟨channel, -, rfl, rfl⟩ := create_eq_some hc
      have hq : s.ensureProxy (.shader h) (fun id => .createGlShader id shm.data y.type) =
          giveProxy { s with remote := { s.remote with
            proxyCount := s.remote.proxyCount + 1
            calls := s.remote.calls ++ [.createGlShader s.remote.proxyCount shm.data y.type] } }
            ⟨s.remote.proxyCount, channel⟩ (.shader h) := by
        simp [ensureProxy, hn, hc]
      rw [hq] at hsyncs ⊢
      have htold : (s.call (.createGlShader s.remote.proxyCount shm.data y.type)).remote.told n
          Call.program? = s.remote.told n Call.program? := by
        simp [told_call ht.since, Call.program?]
      refine ⟨⟨hf, ⟨?_, ?_, ?_, ?_⟩, hsyncs, rfl, ?_⟩, htold, by simp [giveProxy, proxyOf, hy]⟩
      · simp only [giveProxy, List.length_append]
        exact Nat.le_add_right_of_le ht.since
      · intro e he'
        exact Nat.lt_succ_of_lt (ht.issued e (htold ▸ he'))
      · intro q hq'
        exact Nat.lt_succ_of_lt (ht.proxy q hq')
      · exact ht.session
      · intro i hi
        obtain ⟨z, hz, hzs⟩ := hi
        by_cases hih : i = h
        · subst hih
          exact ⟨{ z with proxy := some ⟨s.remote.proxyCount, channel⟩ }, by simp [giveProxy, hz],
            fun h1 => by cases h1⟩
        · exact ⟨z, by simp [giveProxy, hih, hz], hzs⟩

theorem tellAttach_rounds (hf : s.fault = none) (ht : Traced n Call.program? (.program p) s)
    {P q : Proxy} (hP : s.proxyOf (.program p) = some P) {h : ℕ}
    (hq : s.proxyOf (.shader h) = some q) (attach : Bool) :
    Rounds n p s (s.tellAttach p h attach) ∧
      (s.tellAttach p h attach).remote.told n Call.program? =
        s.remote.told n Call.program? ++ if attach then [(P.id, some q.id)] else [] := by
  cases attach with
  | false =>
    have he : s.tellAttach p h false = s := rfl
    rw [he]
    exact ⟨⟨hf, ht, .refl, rfl, fun _ hi => hi⟩, by simp⟩
  | true =>
    have he : s.tellAttach p h true = s.call (.glAttachShader P.id q.id) := by
      simp [tellAttach, withRemoteId, hP, hq]
    rw [he]
    refine ⟨⟨hf, ht.call fun e he' => ?_, call_syncs s trivial rfl, rfl, fun _ hi => hi⟩, ?_⟩
    · cases he'
      exact ht.proxy P hP
    · rw [told_call ht.since]
      rfl

/-- The remote shaders of a list, one for each. -/
def RemoteOf (s : Scene) (l ids : List ℕ) : Prop :=
  List.Forall₂ (fun h id => ∃ q, s.proxyOf (.shader h) = some q ∧ q.id = id) l ids

theorem RemoteOf.syncs {A : ℕ → Prop} {C : Call → Prop} {l ids : List ℕ} (h : RemoteOf s l ids)
    (hs : Syncs A C s s') : RemoteOf s' l ids :=
  List.Forall₂.imp (fun _ _ ⟨q, hq, he⟩ => ⟨q, hs.proxyOf hq, he⟩) h

theorem RemoteOf.exists {l ids : List ℕ} (h : RemoteOf s l ids) {id : ℕ} (hid : id ∈ ids) :
    ∃ i ∈ l, ∃ q, s.proxyOf (.shader i) = some q ∧ q.id = id := by
  induction h with
  | nil => cases hid
  | @cons i id' l ids hi _ ih =>
    rcases List.mem_cons.mp hid with rfl | hid
    · exact ⟨i, by simp, hi⟩
    · obtain ⟨j, hj, hq⟩ := ih hid
      exact ⟨j, by simp [hj], hq⟩

/-- The loop of `GlProgram::sync`: every shader has its proxy then, and is attached where that is
asked for. -/
theorem syncAttached_rounds (hf : s.fault = none) (ht : Traced n Call.program? (.program p) s)
    (hs : s.remote.hasSession) {P : Proxy} (hP : s.proxyOf (.program p) = some P) (attach : Bool)
    {l : List ℕ} (hl : ∀ h ∈ l, Readable s h) :
    ∃ ids, RemoteOf (l.foldl (syncAttached p attach) s) l ids ∧
      Rounds n p s (l.foldl (syncAttached p attach) s) ∧
      (l.foldl (syncAttached p attach) s).remote.told n Call.program? =
        s.remote.told n Call.program? ++
          if attach then ids.map fun id => (P.id, some id) else [] := by
  induction l generalizing s with
  | nil => exact ⟨[], .nil, ⟨hf, ht, .refl, rfl, fun _ hi => hi⟩, by simp⟩
  | cons h l ih =>
    obtain ⟨h1, h2, h3⟩ := syncShader_rounds hf ht hs (hl h (by simp))
    obtain ⟨q, hq⟩ := Option.isSome_iff_exists.mp h3
    obtain ⟨h4, h5⟩ := tellAttach_rounds h1.fault h1.traced (h1.syncs.proxyOf hP) hq attach
    have h6 := h1.trans h4
    obtain ⟨ids, h7, h8, h9⟩ := ih h6.fault h6.traced (h6.syncs.hasSession.trans hs)
      (h6.syncs.proxyOf hP) fun i hi => h6.readable i (hl i (by simp [hi]))
    refine ⟨q.id :: ids, .cons ⟨q, h8.syncs.proxyOf (h4.syncs.proxyOf hq), rfl⟩ h7, h6.trans h8, ?_⟩
    have hround : syncAttached p attach s h = (s.syncShader h).tellAttach p h attach := rfl
    rw [List.foldl_cons, hround, h9, h5, h2]
    cases attach <;> simp

/-- The shaders a sync walks over. -/
def aliveShaders (s : Scene) (x : GlProgram) : List ℕ := x.current.shaders.filter s.shaderAlive

theorem readable_of_alive {x : GlProgram} (hx : s.glPrograms p = some x) (hr : SourcesLive p s) :
    ∀ h ∈ s.aliveShaders x, Readable s h := by
  intro h hh
  obtain ⟨h1, h2⟩ := List.mem_filter.mp hh
  obtain ⟨y, hy⟩ := Option.isSome_iff_exists.mp h2
  exact ⟨y, hy, hr x hx h h1 y hy⟩

theorem ensureProxy_program {x : GlProgram} (hx : s.glPrograms p = some x) (mk : ℕ → Call) :
    (s.ensureProxy (.program p) mk).glShaders = s.glShaders ∧
      (s.ensureProxy (.program p) mk).shmBuffers = s.shmBuffers ∧
      ∃ q, (s.ensureProxy (.program p) mk).glPrograms p = some { x with proxy := q } := by
  unfold ensureProxy
  split
  · exact ⟨rfl, rfl, x.proxy, hx⟩
  · split
    · exact ⟨rfl, rfl, x.proxy, hx⟩
    · next q r hr => exact ⟨rfl, rfl, some q, by simp [giveProxy, hx]⟩

theorem tellLink_spec (ht : Traced n Call.program? (.program p) s) {P : Proxy}
    (hP : s.proxyOf (.program p) = some P) {x : GlProgram} (hx : s.glPrograms p = some x)
    (attach : Bool) :
    (s.tellLink p attach).remote.told n Call.program? =
        s.remote.told n Call.program? ++ (if attach then [(P.id, none)] else []) ∧
      (s.tellLink p attach).fault = s.fault ∧
      Traced n Call.program? (.program p) (s.tellLink p attach) ∧
      (∀ h, (s.tellLink p attach).proxyOf h = s.proxyOf h) ∧
      (s.tellLink p attach).glPrograms p =
        some { x with current.shouldLink := x.current.shouldLink && !attach } := by
  cases attach with
  | false =>
    have he : s.tellLink p false = s := rfl
    rw [he]
    exact ⟨by simp, rfl, ht, fun _ => rfl, by simp [hx]⟩
  | true =>
    have he : s.tellLink p true = { s.call (.glLinkProgram P.id) with
        glPrograms := s.glPrograms.modify p fun x => { x with current.shouldLink := false } } := by
      simp [tellLink, withRemoteId, hP]
    have hproxy (h : Holder) : (s.tellLink p true).proxyOf h = s.proxyOf h := by
      rw [he]
      cases h <;> try rfl
      apply Arena.modify_bind_of_eq
      intro _
      rfl
    have hremote : (s.tellLink p true).remote = (s.call (.glLinkProgram P.id)).remote := by
      rw [he]
    refine ⟨?_, by rw [he]; rfl, (ht.call fun e h1 => ?_).same hremote (hproxy _), hproxy, ?_⟩
    · rw [hremote, told_call ht.since]
      rfl
    · cases h1
      exact ht.proxy P hP
    · rw [he]
      simp [hx]

/-- `GlProgram::sync` on a session: what it tells, and what it leaves. -/
theorem syncProgram_spec {x : GlProgram} (hx : s.glPrograms p = some x) (hf : s.fault = none)
    (ht : Traced n Call.program? (.program p) s) (hs : s.remote.hasSession)
    (hr : SourcesLive p s) (force : Bool) :
    ∃ P ids q, (s.syncProgram p force).proxyOf (.program p) = some P ∧
      RemoteOf (s.syncProgram p force) (s.aliveShaders x) ids ∧
      (s.syncProgram p force).remote.told n Call.program? = s.remote.told n Call.program? ++
        (if force || x.current.shouldLink then
          (ids.map fun id => (P.id, some id)) ++ [(P.id, none)] else []) ∧
      (s.syncProgram p force).fault = none ∧
      Traced n Call.program? (.program p) (s.syncProgram p force) ∧
      (s.syncProgram p force).glPrograms p =
        some { x with
          current := ⟨x.current.linked, false, s.aliveShaders x⟩, proxy := q } := by
  have hlive : s.live (.program p) := by simp [live, hx]
  obtain ⟨h1, h2, h3, h4⟩ := ensureProxy_copy ht hs hlive .createGlProgram fun _ => rfl
  obtain ⟨P, hP, -⟩ := Option.map_eq_some_iff.mp h4
  obtain ⟨h5, h6, q, h7⟩ := ensureProxy_program hx .createGlProgram
  have hsyncs : Syncs (fun _ => True) (fun _ => True) s
      ((s.ensureProxy (.program p) .createGlProgram).dropExpiredShaders p) :=
    (ensureProxy_syncs hs (by simp) trivial rfl).tail (.dropExpiredShaders _ p)
  have hproxy : ((s.ensureProxy (.program p) .createGlProgram).dropExpiredShaders p).proxyOf
      (.program p) = some P := by
    rw [← hP]
    apply Arena.modify_bind_of_eq
    intro _
    rfl
  have halive : (s.ensureProxy (.program p) .createGlProgram).shaderAlive = s.shaderAlive := by
    funext i
    simp [shaderAlive, h5]
  have hprogram : ((s.ensureProxy (.program p) .createGlProgram).dropExpiredShaders p).glPrograms
      p = some { x with current.shaders := s.aliveShaders x, proxy := q } := by
    simp [dropExpiredShaders, h7, halive, aliveShaders]
  have hread : ∀ h ∈ s.aliveShaders x,
      Readable ((s.ensureProxy (.program p) .createGlProgram).dropExpiredShaders p) h := by
    intro h hh
    obtain ⟨y, hy, hys⟩ := readable_of_alive hx hr h hh
    exact ⟨y, by simp [dropExpiredShaders, h5, hy], fun hp => by
      simpa [dropExpiredShaders, h6] using hys hp⟩
  have hfault : ((s.ensureProxy (.program p) .createGlProgram).dropExpiredShaders p).fault =
      none := h2.trans hf
  have htraced : Traced n Call.program? (.program p)
      ((s.ensureProxy (.program p) .createGlProgram).dropExpiredShaders p) :=
    h1.same rfl (hproxy.trans hP.symm)
  obtain ⟨ids, h8, h9, h10⟩ := syncAttached_rounds hfault htraced
    (hsyncs.hasSession.trans hs) hproxy (force || x.current.shouldLink) hread
  obtain ⟨h11, h12, h13, h14, h15⟩ := tellLink_spec h9.traced (h9.syncs.proxyOf hproxy)
    (h9.programs ▸ hprogram) (force || x.current.shouldLink)
  have he : s.syncProgram p force = ((s.aliveShaders x).foldl
      (syncAttached p (force || x.current.shouldLink))
      ((s.ensureProxy (.program p) .createGlProgram).dropExpiredShaders p)).tellLink p
        (force || x.current.shouldLink) := by simp only [syncProgram, hx, aliveShaders]
  rw [he]
  refine ⟨P, ids, q, (h14 _).trans (h9.syncs.proxyOf hproxy), ?_, ?_, h12.trans h9.fault, h13, ?_⟩
  · refine List.Forall₂.imp (fun h id hq => ?_) h8
    obtain ⟨q, h1, h2⟩ := hq
    exact ⟨q, (h14 _).trans h1, h2⟩
  · rw [h11, h10]
    have h16 : ((s.ensureProxy (.program p) .createGlProgram).dropExpiredShaders p).remote.told n
        Call.program? = s.remote.told n Call.program? := h3
    rw [h16]
    cases force || x.current.shouldLink <;> simp
  · rw [h15]
    cases force <;> cases x.current.shouldLink <;> rfl

end Sync

section Steps
variable {n p : ℕ} {s s' : Scene} {k : LinkNotes} {x : GlProgram}

/-- What the names of remote shaders satisfy. -/
structure Names (s : Scene) (names : List (ℕ × ℕ)) : Prop where
  lt : ∀ e ∈ names, e.1 < s.remote.proxyCount
  named : ∀ e ∈ names, ∀ h q, s.proxyOf (.shader h) = some q → q.id = e.1 → h = e.2
  unique : ∀ id i j, (id, i) ∈ names → (id, j) ∈ names → j = i

/-- The scene and the notes agree on the program `x`. -/
structure ProgramBeside (n p : ℕ) (s : Scene) (k : LinkNotes) (x : GlProgram) : Prop where
  object : s.glPrograms p = some x
  attached : Attached s
  traced : Traced n Call.program? (.program p) s
  asked : x.pending = ⟨k.link || !k.asked.isEmpty, k.link, k.asked⟩
  linked : x.current.linked = k.linked
  fresh : x.current.shouldLink = true →
    k.linked = true ∧ s.remote.told n Call.program? = []
  silent : k.linked = false → s.remote.told n Call.program? = []
  once : k.linked = true → x.current.shouldLink = false →
    ∀ q, s.proxyOf (.program p) = some q → LinkedOnce k.names k.shaders (s.received n q.id)
  names : Names s k.names

theorem ProgramBeside.shouldLink (h : ProgramBeside n p s k x) (hk : k.linked = false) :
    x.current.shouldLink = false := by
  by_contra hn
  have h1 := (h.fresh (by simpa using hn)).1
  rw [hk] at h1
  cases h1

theorem mem_remoteShaders {l : List ℕ} {id h : ℕ} : (id, h) ∈ s.remoteShaders l ↔
    h ∈ l ∧ ∃ q, s.proxyOf (.shader h) = some q ∧ q.id = id := by
  simp only [remoteShaders, List.mem_filterMap, Option.map_eq_some_iff, Prod.mk.injEq]
  constructor
  · rintro ⟨h', hl, q, hq, rfl, rfl⟩
    exact ⟨hl, q, hq, rfl⟩
  · rintro ⟨hl, q, hq, rfl⟩
    exact ⟨h, hl, q, hq, rfl, rfl⟩

/-- The names that a sync adds belong to the remote shaders of the session. -/
theorem Names.sync {names : List (ℕ × ℕ)} (h : Names s names) (ha : Attached s)
    (hs : Syncs (fun _ => True) (fun _ => True) s s') (l : List ℕ) :
    Names s' (names ++ s'.remoteShaders l) := by
  have ha := ha.syncs hs
  have hnamed : ∀ e ∈ names ++ s'.remoteShaders l, ∀ i q, s'.proxyOf (.shader i) = some q →
      q.id = e.1 → i = e.2 := by
    rintro ⟨id, j⟩ he i q hq rfl
    rcases List.mem_append.mp he with he | he
    · rcases hs.proxyOf_new hq with h1 | ⟨h1, -, -⟩
      · exact h.named _ he i q h1 rfl
      · exact absurd (h.lt _ he) (Nat.not_lt.mpr h1)
    · obtain ⟨-, q', hq', he'⟩ := mem_remoteShaders.mp he
      have h1 := ha.distinct _ _ q q' hq hq' he'.symm
      cases h1
      rfl
  refine ⟨?_, hnamed, fun id i j hi hj => ?_⟩
  · rintro ⟨id, i⟩ he
    rcases List.mem_append.mp he with he | he
    · exact Nat.lt_of_lt_of_le (h.lt _ he) hs.proxyCount
    · obtain ⟨-, q, hq, rfl⟩ := mem_remoteShaders.mp he
      exact ha.id_lt _ q hq
  · rcases List.mem_append.mp hj with hj' | hj'
    · rcases List.mem_append.mp hi with hi' | hi'
      · exact h.unique id i j hi' hj'
      · obtain ⟨-, q, hq, rfl⟩ := mem_remoteShaders.mp hi'
        exact (hnamed _ hj i q hq rfl).symm
    · obtain ⟨-, q, hq, rfl⟩ := mem_remoteShaders.mp hj'
      exact hnamed _ hi j q hq rfl

/-- Names for more remote shaders do not change what was received. -/
theorem LinkedOnce.mono {names names' : List (ℕ × ℕ)} {shaders : List ℕ} {l : List (Option ℕ)}
    (h : LinkedOnce names shaders l) (hsub : ∀ e ∈ names, e ∈ names')
    (hnew : ∀ id i j, (id, i) ∈ names → (id, j) ∈ names' → j = i) :
    LinkedOnce names' shaders l := by
  obtain ⟨ids, h1, h2, h3⟩ := h
  refine ⟨ids, h1, fun id hid => ?_, fun i hi => ?_⟩
  · obtain ⟨j, hj⟩ := h2 id hid
    exact ⟨j, hsub _ hj⟩
  · rw [← h3 i hi]
    refine List.countP_congr fun id hid => ?_
    obtain ⟨j, hj⟩ := h2 id hid
    simp only [decide_eq_true_eq]
    refine ⟨fun h4 => ?_, fun h4 => hsub _ h4⟩
    rw [hnew id j i hj h4]
    exact hj

/-- Among the remote shaders of a list, those of `i` are as many as `i` is there. -/
theorem countP_remoteOf {names : List (ℕ × ℕ)} {l ids : List ℕ} (h : RemoteOf s l ids)
    (hmem : ∀ i ∈ l, ∀ q, s.proxyOf (.shader i) = some q → (q.id, i) ∈ names)
    (hnamed : ∀ e ∈ names, ∀ i q, s.proxyOf (.shader i) = some q → q.id = e.1 → i = e.2) (i : ℕ) :
    ids.countP (fun id => (id, i) ∈ names) = l.count i := by
  induction h with
  | nil => rfl
  | @cons j id l ids hj hl ih =>
    obtain ⟨q, hq, rfl⟩ := hj
    have h1 : (q.id, i) ∈ names ↔ j = i :=
      ⟨fun he => hnamed _ he j q hq rfl, fun he => he ▸ hmem j (by simp) q hq⟩
    rw [List.countP_cons, List.count_cons, ih fun i hi => hmem i (by simp [hi])]
    simp only [h1, decide_eq_true_eq, beq_iff_eq]

theorem received_append {id : ℕ} {l : List (ℕ × Option ℕ)}
    (h : s'.remote.told n Call.program? = s.remote.told n Call.program? ++ l) :
    s'.received n id = s.received n id ++ (l.filter fun e => e.1 = id).map Prod.snd := by
  simp [received, h]

theorem received_of_lt {id : ℕ} (h : ∀ e ∈ s.remote.told n Call.program?, e.1 < id) :
    s.received n id = [] := by
  have h1 : (s.remote.told n Call.program?).filter (fun e => e.1 = id) = [] := by
    refine List.filter_eq_nil_iff.mpr fun e he => ?_
    have := h e he
    simp only [decide_eq_true_eq]
    omega
  simp [received, h1]

/-- What a sync that attaches tells one remote program. -/
theorem received_attached (id : ℕ) (ids : List ℕ) :
    (((ids.map fun i => (id, some i)) ++ [(id, none)]).filter fun e : ℕ × Option ℕ =>
      e.1 = id).map Prod.snd = ids.map some ++ [none] := by
  have h1 : ((ids.map fun i => (id, some i)) ++ [(id, (none : Option ℕ))]).filter
      (fun e : ℕ × Option ℕ => e.1 = id) = (ids.map fun i => (id, some i)) ++ [(id, none)] := by
    refine List.filter_eq_self.mpr fun e he => ?_
    rcases List.mem_append.mp he with he | he
    · obtain ⟨i, -, rfl⟩ := List.mem_map.mp he
      simp
    · simp_all
  rw [h1]
  simp

theorem count_aliveShaders (s : Scene) (x : GlProgram) (h : ℕ) :
    (s.aliveShaders x).count h = 1 ↔
      s.shaderAlive h = true ∧ x.current.shaders.count h = 1 := by
  cases hh : s.shaderAlive h with
  | true => simp [aliveShaders, List.count_filter hh]
  | false =>
    have h1 : (s.aliveShaders x).count h = 0 := by
      refine List.count_eq_zero.mpr fun hm => ?_
      have h2 := (List.mem_filter.mp hm).2
      rw [hh] at h2
      cases h2
    simp [h1]

/-- The notes after a sync. -/
def afterSync (p : ℕ) (s : Scene) (k : LinkNotes) (x : GlProgram) (force : Bool) : LinkNotes :=
  { k with names := k.names ++ (s.syncProgram p force).remoteShaders x.current.shaders }

theorem noteProgram_sync (hx : s.glPrograms p = some x) (force : Bool) :
    noteProgram p s k (.sync force) = afterSync p s k x force := by
  simp [noteProgram, hx, afterSync]

/-- A sync of a program that was not linked is fine exactly when it is not forced. -/
theorem sync_unlinked (h : ProgramBeside n p s k x) (hk : k.linked = false) {P : Proxy}
    {ids : List ℕ} {force : Bool}
    (ht : s'.remote.told n Call.program? = s.remote.told n Call.program? ++
      (if force || x.current.shouldLink then
        (ids.map fun id => (P.id, some id)) ++ [(P.id, none)] else [])) :
    (∀ e ∈ s'.remote.told n Call.program?, e.2 ≠ none) ↔ force = false := by
  rw [ht, h.silent hk, h.shouldLink hk]
  cases force <;> simp

theorem linkedOnce_nil {names : List (ℕ × ℕ)} {shaders : List ℕ} :
    ¬ LinkedOnce names shaders [] := by
  rintro ⟨ids, h, -⟩
  cases ids <;> cases h

theorem count_none_map_some (ids : List ℕ) : (ids.map some).count none = 0 := by
  simp [List.count_eq_zero]

/-- A program that is linked once more is not linked once. -/
theorem not_linkedOnce_append {names : List (ℕ × ℕ)} {shaders : List ℕ} {l : List (Option ℕ)}
    (hl : LinkedOnce names shaders l) (l' : List (Option ℕ)) {names' : List (ℕ × ℕ)} :
    ¬ LinkedOnce names' shaders (l ++ (l' ++ [none])) := by
  obtain ⟨ids, rfl, -⟩ := hl
  rintro ⟨ids', h', -⟩
  have h1 := congrArg (List.count none) h'
  simp only [List.count_append, count_none_map_some, List.count_singleton_self] at h1
  omega

/-- A sync of a program whose link was committed. -/
theorem sync_linked (h : ProgramBeside n p s k x) (hk : k.linked = true) {force : Bool}
    {P : Proxy} {ids : List ℕ}
    (hsyncs : Syncs (fun _ => True) (fun _ => True) s (s.syncProgram p force))
    (hP : (s.syncProgram p force).proxyOf (.program p) = some P)
    (hids : RemoteOf (s.syncProgram p force) (s.aliveShaders x) ids)
    (ht : (s.syncProgram p force).remote.told n Call.program? =
      s.remote.told n Call.program? ++
        (if force || x.current.shouldLink then
          (ids.map fun id => (P.id, some id)) ++ [(P.id, none)] else [])) :
    LinkedOnce (afterSync p s k x force).names k.shaders ((s.syncProgram p force).received n P.id) ↔
      if x.proxy.isSome ∧ x.current.shouldLink = false then force = false
      else (force = true ∨ x.current.shouldLink = true) ∧
        ∀ h ∈ k.shaders, s.shaderAlive h = true ∧ x.current.shaders.count h = 1 := by
  have hnames : Names (s.syncProgram p force) (afterSync p s k x force).names :=
    h.names.sync h.attached hsyncs x.current.shaders
  rw [received_append ht]
  by_cases hc : x.proxy.isSome ∧ x.current.shouldLink = false
  · -- the session was told already
    obtain ⟨q, hq⟩ := Option.isSome_iff_exists.mp hc.1
    have hpq : s.proxyOf (.program p) = some q := by simp [proxyOf, h.object, hq]
    obtain rfl : q = P := Option.some.inj ((hsyncs.proxyOf hpq).symm.trans hP)
    have honce := h.once hk hc.2 q hpq
    rw [if_pos hc, hc.2, Bool.or_false]
    cases force with
    | false =>
      refine iff_of_true ?_ rfl
      simp only [Bool.false_eq_true, if_false, List.filter_nil, List.map_nil, List.append_nil]
      exact honce.mono (fun e he => List.mem_append_left _ he) fun id i j hi hj =>
        hnames.unique id i j (List.mem_append_left _ hi) hj
    | true =>
      refine iff_of_false ?_ (by simp)
      simp only [if_true, received_attached]
      exact not_linkedOnce_append honce _
  · have hnil : s.received n P.id = [] := by
      by_cases hl : x.current.shouldLink = true
      · simp [received, (h.fresh hl).2]
      · have hn : s.proxyOf (.program p) = none := by
          simpa [proxyOf, h.object, hl] using hc
        refine received_of_lt fun e he => ?_
        rcases hsyncs.proxyOf_new hP with h1 | ⟨h1, -, -⟩
        · rw [hn] at h1
          cases h1
        · exact Nat.lt_of_lt_of_le (h.traced.issued e he) h1
    have hcount (i : ℕ) : ids.countP (fun id => (id, i) ∈ (afterSync p s k x force).names) = 1 ↔
        s.shaderAlive i = true ∧ x.current.shaders.count i = 1 := by
      rw [countP_remoteOf hids (fun j hj q hq => ?_) hnames.named i, count_aliveShaders]
      exact List.mem_append_right _
        (mem_remoteShaders.mpr ⟨(List.mem_filter.mp hj).1, q, hq, rfl⟩)
    have hknown : ∀ id ∈ ids, ∃ i, (id, i) ∈ (afterSync p s k x force).names := by
      intro id hid
      obtain ⟨i, hi, q, hq, rfl⟩ := hids.exists hid
      exact ⟨i, List.mem_append_right _
        (mem_remoteShaders.mpr ⟨(List.mem_filter.mp hi).1, q, hq, rfl⟩)⟩
    rw [if_neg hc, hnil, List.nil_append]
    cases hd : force || x.current.shouldLink with
    | false =>
      rw [Bool.or_eq_false_iff] at hd
      refine iff_of_false ?_ (by simp [hd.1, hd.2])
      exact linkedOnce_nil
    | true =>
      rw [Bool.or_eq_true] at hd
      simp only [if_true, received_attached, hd, true_and]
      constructor
      · rintro ⟨ids', h1, -, h2⟩ i hi
        obtain rfl : ids = ids' :=
          List.map_injective_iff.mpr (fun _ _ => Option.some.inj) (List.append_cancel_right h1)
        exact (hcount i).mp (h2 i hi)
      · exact fun h1 => ⟨ids, rfl, hknown, fun i hi => (hcount i).mpr (h1 i hi)⟩

theorem ensureProxy_fault (hf : s.fault.isSome) (h : Holder) (mk : ℕ → Call) :
    (s.ensureProxy h mk).fault.isSome := by
  unfold ensureProxy
  split
  · exact hf
  · split
    · exact crash_isSome s _
    · rw [giveProxy_fault]
      exact hf

theorem syncAttached_fault (hf : s.fault.isSome) (p h : ℕ) (attach : Bool) :
    (syncAttached p attach s h).fault.isSome := by
  have h1 : (s.syncShader h).fault.isSome := by
    unfold syncShader
    split
    · exact crash_isSome s _
    · split
      · exact hf
      · split
        · exact crash_isSome s _
        · exact ensureProxy_fault hf _ _
  unfold syncAttached tellAttach
  split
  · unfold withRemoteId
    split
    · exact crash_isSome _ _
    · split
      · exact crash_isSome _ _
      · exact h1
  · exact h1

theorem syncAttached_foldl_fault (hf : s.fault.isSome) (p : ℕ) (attach : Bool) (l : List ℕ) :
    (l.foldl (syncAttached p attach) s).fault.isSome := by
  induction l generalizing s with
  | nil => exact hf
  | cons h l ih => exact ih (syncAttached_fault hf p h attach)

theorem tellLink_fault (hf : s.fault.isSome) (p : ℕ) (attach : Bool) :
    (s.tellLink p attach).fault.isSome := by
  unfold tellLink
  split
  · unfold withRemoteId
    split
    · exact crash_isSome _ _
    · exact hf
  · exact hf

/-- A round leaves the other shaders, and the memory. -/
theorem syncAttached_shaders (p h : ℕ) (attach : Bool) {i : ℕ} (hi : i ≠ h) :
    (syncAttached p attach s h).glShaders i = s.glShaders i ∧
      (syncAttached p attach s h).shmBuffers = s.shmBuffers := by
  have h1 : (s.syncShader h).glShaders i = s.glShaders i ∧
      (s.syncShader h).shmBuffers = s.shmBuffers := by
    unfold syncShader
    split
    · exact ⟨rfl, rfl⟩
    · split
      · exact ⟨rfl, rfl⟩
      · split
        · exact ⟨rfl, rfl⟩
        · unfold ensureProxy
          split
          · exact ⟨rfl, rfl⟩
          · split
            · exact ⟨rfl, rfl⟩
            · exact ⟨Arena.modify_of_ne _ _ hi, rfl⟩
  unfold syncAttached tellAttach
  split
  · unfold withRemoteId
    split
    · exact h1
    · split
      · exact h1
      · exact h1
  · exact h1

/-- A shader whose source is gone can not be synced. -/
theorem syncAttached_crash (p : ℕ) (attach : Bool) {l : List ℕ} {h : ℕ} (hh : h ∈ l)
    {y : GlShader} (hy : s.glShaders h = some y) (hp : y.proxy = none)
    (hm : s.shmBuffers y.buffer = none) :
    (l.foldl (syncAttached p attach) s).fault.isSome := by
  induction l generalizing s with
  | nil => cases hh
  | cons i l ih =>
    by_cases hi : h = i
    · subst hi
      refine syncAttached_foldl_fault ?_ p attach l
      have h1 : s.syncShader h = s.crash .useAfterFree := by simp [syncShader, hy, hp, hm]
      have h2 : (s.crash .useAfterFree).proxyOf (.shader h) = none := by
        simp [proxyOf, crash, hy, hp]
      unfold syncAttached tellAttach
      rw [h1]
      split
      · unfold withRemoteId
        rw [h2]
        exact crash_isSome _ _
      · exact crash_isSome _ _
    · obtain ⟨h1, h2⟩ := syncAttached_shaders (s := s) p i attach hi
      exact ih ((List.mem_cons.mp hh).resolve_left hi) (h1.trans hy) (by rw [h2]; exact hm)

theorem syncProgram_crash (hx : s.glPrograms p = some x) (ha : Attached s)
    (hn : ¬ (s.remote.hasSession ∧ SourcesLive p s)) (force : Bool) :
    (s.syncProgram p force).fault.isSome := by
  have he : s.syncProgram p force = ((s.aliveShaders x).foldl
      (syncAttached p (force || x.current.shouldLink))
      ((s.ensureProxy (.program p) .createGlProgram).dropExpiredShaders p)).tellLink p
        (force || x.current.shouldLink) := by simp only [syncProgram, hx, aliveShaders]
  rw [he]
  refine tellLink_fault ?_ _ _
  cases hs : s.remote.hasSession with
  | false =>
    have h1 := ha.proxyOf_of_disconnected hs (.program p)
    rw [ensureProxy_crash hs h1]
    have h2 : ((s.crash .noSession).dropExpiredShaders p).fault.isSome := crash_isSome s _
    exact syncAttached_foldl_fault h2 _ _ _
  | true =>
    have h1 : ¬ SourcesLive p s := fun h => hn ⟨hs, h⟩
    unfold SourcesLive at h1
    push Not at h1
    obtain ⟨x', hx', h, hh, y, hy, hp, hm⟩ := h1
    cases hx.symm.trans hx'
    obtain ⟨h2, h3, -⟩ := ensureProxy_program hx .createGlProgram
    refine syncAttached_crash p _ (h := h) ?_ (y := y) ?_ hp ?_
    · exact List.mem_filter.mpr ⟨hh, by simp [shaderAlive, hy]⟩
    · simp [dropExpiredShaders, h2, hy]
    · simpa [dropExpiredShaders, h3] using hm

theorem ProgramBeside.keep (h : ProgramBeside n p s k x) (hq : Quiet s s') {y : GlProgram}
    (hy : s'.glPrograms p = some y) (hproxy : y.proxy = x.proxy)
    (hc : y.current = x.current) {k' : LinkNotes}
    (ha : y.pending = ⟨k'.link || !k'.asked.isEmpty, k'.link, k'.asked⟩)
    (hk : k'.linked = k.linked ∧ k'.shaders = k.shaders ∧ k'.names = k.names) :
    ProgramBeside n p s' k' y := by
  have hp : s'.proxyOf (.program p) = s.proxyOf (.program p) := by
    simp [proxyOf, hy, h.object, hproxy]
  obtain ⟨h1, h2, h3⟩ := hk
  refine ⟨hy, h.attached.quiet hq, h.traced.same hq.remote hp, ha, ?_, ?_, ?_, ?_, ?_⟩
  · rw [hc, h1]
    exact h.linked
  · rw [hc, h1, hq.remote]
    exact h.fresh
  · rw [h1, hq.remote]
    exact h.silent
  · have hr (id : ℕ) : s'.received n id = s.received n id := by rw [received, hq.remote, received]
    simp only [hc, h1, h2, h3, hp, hr]
    exact h.once
  · rw [h3]
    refine ⟨?_, fun e he i q hi => h.names.named e he i q (hq.proxyOf _ q hi), h.names.unique⟩
    rw [hq.remote]
    exact h.names.lt

theorem destroyShader_quiet (s : Scene) (h : ℕ) : Quiet s (s.deleteObject h .glShader) where
  remote := rfl
  proxyOf := fun x q hq => by
    cases x <;> try exact hq
    exact Arena.bind_of_erase hq
  fault := fun f hf => .inl hf

theorem modifyProgram_quiet (s : Scene) (p : ℕ) {f : GlProgram → GlProgram}
    (hf : ∀ x, (f x).proxy = x.proxy) :
    Quiet s { s with glPrograms := s.glPrograms.modify p f } where
  remote := rfl
  proxyOf := fun x q hq => by
    cases x <;> try exact hq
    rw [← hq]
    symm
    exact Arena.modify_bind_of_eq hf ..
  fault := fun f hf => .inl hf

theorem request_beside (h : ProgramBeside n p s k x) (client : ℕ) (r : ProgramRequest) :
    ∃ y, ProgramBeside n p ((programLeaf client p).request r s)
      (noteProgram p s k (.request r)) y := by
  have hask := h.asked
  cases r with
  | attach i =>
    by_cases hi : s.shaderAlive i
    · simp only [programLeaf, noteProgram, hi, if_true]
      have hq := modifyProgram_quiet s p (f := fun x => x.attachShader i) fun _ => rfl
      refine ⟨x.attachShader i, h.keep hq (by simp [h.object]) ?_ ?_ ?_ ⟨?_, ?_, ?_⟩⟩
      all_goals simp [GlProgram.attachShader, hask]
    · simp only [programLeaf, noteProgram, hi]
      exact ⟨x, h⟩
  | link =>
    have hq := modifyProgram_quiet s p (f := .requestLink) fun _ => rfl
    refine ⟨x.requestLink, h.keep hq (by simp [h.object]) ?_ ?_ ?_ ⟨?_, ?_, ?_⟩⟩
    all_goals simp [noteProgram, GlProgram.requestLink, hask]
  | destroyShader i =>
    exact ⟨x, h.keep (destroyShader_quiet s i) h.object rfl rfl hask ⟨rfl, rfl, rfl⟩⟩

theorem commitProgram_object (hx : s.glPrograms p = some x) :
    (s.commitProgram p).glPrograms p = some x.commit := by
  simp [commitProgram, hx]

/-- A second link that is refused leaves the program as it was. -/
theorem commitProgram_of_relinks (hx : s.glPrograms p = some x) (hr : x.relinks = true) :
    (s.commitProgram p).glPrograms p = some x := by
  rw [commitProgram_object hx]
  simp [GlProgram.commit, hr]

/-- The program after a commit, and the notes. -/
theorem commit_agree (hp : x.pending = ⟨k.link || !k.asked.isEmpty, k.link, k.asked⟩)
    (hl : x.current.linked = k.linked) :
    x.commit.pending =
        ⟨k.commit.link || !k.commit.asked.isEmpty, k.commit.link, k.commit.asked⟩ ∧
      x.commit.current.linked = k.commit.linked ∧
      x.commit.proxy = x.proxy ∧ k.commit.names = k.names ∧
      (k.linked = true → x.commit.current.shouldLink = x.current.shouldLink ∧
        k.commit.linked = true ∧ k.commit.shaders = k.shaders) ∧
      (k.linked = false →
        x.commit.current.shouldLink = (x.current.shouldLink || k.link) ∧
          k.commit.linked = k.link) := by
  unfold GlProgram.commit GlProgram.relinks LinkNotes.commit
  rw [hp, hl]
  cases hk : k.linked <;> cases hq : k.link <;> cases ha : k.asked <;>
    simp [hp, hl, hk, hq, ha]

theorem commitProgram_beside (h : ProgramBeside n p s k x) :
    ProgramBeside n p (s.commitProgram p) k.commit x.commit := by
  have hq : Quiet s (s.commitProgram p) :=
    Commits.quiet (T := fun _ => True) (commitProgram_commits trivial)
  have hobject := commitProgram_object h.object
  obtain ⟨h1, h2, h3, h4, h5, h6⟩ := commit_agree h.asked h.linked
  have hp : (s.commitProgram p).proxyOf (.program p) = s.proxyOf (.program p) := by
    simp [proxyOf, hobject, h.object, h3]
  have hr (id : ℕ) : (s.commitProgram p).received n id = s.received n id := by
    rw [received, hq.remote, received]
  refine ⟨hobject, h.attached.quiet hq, h.traced.same hq.remote hp, h1, h2, fun hl => ?_,
    fun hl => ?_, fun hl hs => ?_, ?_⟩
  · rw [hq.remote]
    cases hk : k.linked with
    | true =>
      rw [(h5 hk).1] at hl
      exact ⟨(h5 hk).2.1, (h.fresh hl).2⟩
    | false =>
      obtain ⟨h7, h8⟩ := h6 hk
      rw [h7, h.shouldLink hk, Bool.false_or] at hl
      exact ⟨h8.trans hl, h.silent hk⟩
  · rw [hq.remote]
    cases hk : k.linked with
    | true =>
      rw [(h5 hk).2.1] at hl
      cases hl
    | false => exact h.silent hk
  · cases hk : k.linked with
    | true =>
      obtain ⟨h7, -, h8⟩ := h5 hk
      rw [h7] at hs
      simp only [hp, hr, h4, h8]
      exact h.once hk hs
    | false =>
      obtain ⟨h7, h8⟩ := h6 hk
      rw [h7, h.shouldLink hk, Bool.false_or] at hs
      rw [h8, hs] at hl
      cases hl
  · rw [h4]
    refine ⟨?_, fun e he i q hi => h.names.named e he i q (hq.proxyOf _ q hi), h.names.unique⟩
    rw [hq.remote]
    exact h.names.lt

theorem sessionDisconnect_program (hx : s.glPrograms p = some x) :
    ∃ q, s.sessionDisconnect.glPrograms p = some { x with proxy := q } := by
  unfold sessionDisconnect
  split
  · exact ⟨none, by simp [dropProxies, hx]⟩
  · exact ⟨x.proxy, hx⟩

theorem disconnect_beside (h : ProgramBeside n p s k x) :
    ∃ y, ProgramBeside n p s.sessionDisconnect k y := by
  rcases s.sessionDisconnect_cases with he | ⟨hs, hr, hn⟩
  · rw [he]
    exact ⟨x, h⟩
  · obtain ⟨q, hq⟩ := sessionDisconnect_program h.object
    have ht : s.sessionDisconnect.remote.told n Call.program? =
        s.remote.told n Call.program? := by rw [hr]; rfl
    refine ⟨_, hq, h.attached.disconnect hs, h.traced.disconnect, h.asked, h.linked,
      fun hl => ht ▸ h.fresh hl, fun hl => ht ▸ h.silent hl, fun _ _ q hp => ?_, ?_⟩
    · rw [hn] at hp
      cases hp
    · refine ⟨?_, fun e _ i q hi => ?_, h.names.unique⟩
      · rw [hr]
        exact h.names.lt
      · rw [hn] at hi
        cases hi

theorem connect_beside (h : ProgramBeside n p s k x) (hs : s.remote.hasSession = false) :
    ProgramBeside n p { s with remote := s.remote.establish } k x :=
  ⟨h.object, h.attached.establish hs, h.traced.establish, h.asked, h.linked, h.fresh, h.silent,
    h.once, h.names.lt, h.names.named, h.names.unique⟩

theorem memory_quiet (s : Scene) (m : Arena ShmBuffer) : Quiet s { s with shmBuffers := m } where
  remote := rfl
  proxyOf := fun x _ hq => by cases x <;> exact hq
  fault := fun _ hf => .inl hf

/-- A sync on a session keeps the notes, when it leads to what it should. -/
theorem syncProgram_iff (h : ProgramBeside n p s k x) (hf : s.fault = none)
    (hs : s.remote.hasSession) (hr : SourcesLive p s) (force : Bool) :
    (s.syncProgram p force).fault = none ∧
      (HoldsLink n p (s.syncProgram p force, afterSync p s k x force) ↔
        LinkReady p (s, k) force) ∧
      (LinkReady p (s, k) force →
        ∃ y, ProgramBeside n p (s.syncProgram p force) (afterSync p s k x force) y) := by
  obtain ⟨P, ids, q, h1, h2, h3, h4, h5, h6⟩ :=
    syncProgram_spec h.object hf h.traced hs hr force
  have hsyncs := (syncProgram_syncs (A := fun _ => True) (C := fun _ => True)
    (fun _ _ => trivial) hs p force).1
  have hready : LinkReady p (s, k) force ↔
      if k.linked then
        if x.proxy.isSome ∧ x.current.shouldLink = false then force = false
        else (force = true ∨ x.current.shouldLink = true) ∧
          ∀ h ∈ k.shaders, s.shaderAlive h = true ∧ x.current.shaders.count h = 1
      else force = false := by
    refine ⟨fun hr => hr x h.object, fun hr y hy => ?_⟩
    cases h.object.symm.trans hy
    exact hr
  have hiff : HoldsLink n p (s.syncProgram p force, afterSync p s k x force) ↔
      LinkReady p (s, k) force := by
    rw [hready]
    unfold HoldsLink
    cases hk : k.linked with
    | true =>
      have hk' : (afterSync p s k x force).linked = true := hk
      simp only [hk', if_true, h1, Option.some.injEq, exists_eq_left']
      exact sync_linked h hk hsyncs h1 h2 h3
    | false =>
      have hk' : (afterSync p s k x force).linked = false := hk
      simp only [hk', Bool.false_eq_true, if_false]
      exact sync_unlinked h hk h3
  refine ⟨h4, hiff, fun hc => ⟨_, h6, h.attached.syncs hsyncs, h5, h.asked, h.linked,
    (fun hl => by cases hl), fun hk => ?_, fun hk _ r hr => ?_,
    h.names.sync h.attached hsyncs x.current.shaders⟩⟩
  · have hk : k.linked = false := hk
    have h7 := hready.mp hc
    simp only [hk, Bool.false_eq_true, if_false] at h7
    rw [h3, h.silent hk, h7, h.shouldLink hk]
    simp
  · have h7 := hiff.mpr hc
    unfold HoldsLink at h7
    rw [if_pos hk] at h7
    obtain ⟨r', hr', h8⟩ := h7
    obtain rfl : r = r' := Option.some.inj (hr.symm.trans hr')
    exact h8

theorem program_keeps (n client p : ℕ) : (programLeaf client p).Keeps (HoldsLink n p)
    (fun s => ∃ x, ProgramBeside n p s.1 s.2 x) (CanSync p) (LinkReady p) where
  other := fun s a ⟨x, hx⟩ _ ha _ => by
    cases a with
    | request r => exact request_beside hx client r
    | commit => exact ⟨_, commitProgram_beside hx⟩
    | sync force => exact absurd rfl (ha force)
    | connect =>
      simp only [Leaf.act]
      split
      · exact ⟨x, hx⟩
      · next hs => exact ⟨x, connect_beside hx (by simpa using hs)⟩
    | disconnect => exact disconnect_beside hx
    | memory m =>
      exact ⟨x, hx.keep (memory_quiet s.1 m) hx.object rfl rfl hx.asked ⟨rfl, rfl, rfl⟩⟩
  sync := fun s force ⟨x, hx⟩ hf hs => by
    have hn : noteProgram p s.1 s.2 (.sync force) = afterSync p s.1 s.2 x force :=
      noteProgram_sync hx.object force
    have h1 := syncProgram_iff hx hf hs.1 hs.2 force
    rw [← hn] at h1
    exact h1
  crash := fun s force ⟨x, hx⟩ _ hn => syncProgram_crash hx.object hx.attached hn force

end Steps
end Scene

/-- The scene after a run, with a new program in it. -/
def newProgram (as₀ : List Scene.Action) (client : ℕ) : Scene :=
  (Scene.run as₀).handle client .createGlProgram

/-- Each sync leads to a program that is linked once in its session, or was not linked, in exactly
the runs all of whose syncs are ready; and a second link that is refused changes nothing. -/
theorem program_each_iff (as₀ : List Scene.Action) (client : ℕ)
    (as : List (LeafAction ProgramRequest)) :
    (Run.Each (programLeaf client (Scene.run as₀).nextId).step
        ((programLeaf client (Scene.run as₀).nextId).After
          (Scene.HoldsLink (Scene.run as₀).remote.calls.length (Scene.run as₀).nextId))
        (newProgram as₀ client, {}) as ↔
      Run.Each (programLeaf client (Scene.run as₀).nextId).step
        (Leaf.Before (Scene.CanSync (Scene.run as₀).nextId)
          (Scene.LinkReady (Scene.run as₀).nextId))
        (newProgram as₀ client, {}) as) ∧
    ∀ (s : Scene) (p : ℕ) (x : GlProgram), s.glPrograms p = some x → x.relinks = true →
      (s.commitProgram p).glPrograms p = some x := by
  refine ⟨(Scene.program_keeps (Scene.run as₀).remote.calls.length client
    (Scene.run as₀).nextId).each_iff (fun _ => ⟨{}, ?_⟩) as,
    fun s p x hx hr => Scene.commitProgram_of_relinks hx hr⟩
  have hquiet : Scene.Quiet (Scene.run as₀) (newProgram as₀ client) :=
    (Scene.handle_still (Scene.run_tree as₀) client (fun v h => by cases h)
      fun v h => by cases h).toQuiet
  have hp : (newProgram as₀ client).proxyOf (.program (Scene.run as₀).nextId) = none := by
    simp [newProgram, Scene.handle, Scene.proxyOf]
  exact
    { object := by simp [newProgram, Scene.handle]
      attached := (Scene.run_attached as₀).quiet hquiet
      traced := Scene.traced_init hp
      asked := rfl
      linked := rfl
      fresh := fun h => by cases h
      silent := fun _ => by simp [newProgram, Scene.handle, Scene.newResource, Remote.told]
      once := fun h => by cases h
      names :=
        { lt := fun e he => by cases he
          named := fun e he => by cases he
          unique := fun _ _ _ h => by cases h } }

/-- A client has made a shader. -/
def oneShader : List Scene.Action :=
  [.request 0 (.createBuffer [1]), .request 0 (.createGlShader 0 0)]

/-- A program that two techniques use is there when the session begins. -/
def programShared : List (LeafAction ProgramRequest) :=
  [.request (.attach 1), .request .link, .commit, .connect, .sync true, .sync true]

/-- The shader is destroyed after the link, before the session begins. -/
def shaderDestroyed : List (LeafAction ProgramRequest) :=
  [.request (.attach 1), .request .link, .commit, .request (.destroyShader 1), .connect,
    .sync true]

/-- A program that was never linked is there when the session begins. -/
def neverLinked : List (LeafAction ProgramRequest) := [.connect, .sync true]

/-- The remote program is linked twice, or without its shader, or without being asked to. -/
theorem program_astray :
    ¬ Run.Each (programLeaf 0 2).step ((programLeaf 0 2).After (Scene.HoldsLink 0 2))
        (newProgram oneShader 0, {}) programShared ∧
      ¬ Run.Each (programLeaf 0 2).step ((programLeaf 0 2).After (Scene.HoldsLink 0 2))
        (newProgram oneShader 0, {}) shaderDestroyed ∧
      ¬ Run.Each (programLeaf 0 2).step ((programLeaf 0 2).After (Scene.HoldsLink 0 2))
        (newProgram oneShader 0, {}) neverLinked := by
  refine ⟨fun h => ?_, fun h => ?_, fun h => ?_⟩
  · have h1 := h (programShared.take 5) (.sync true) List.prefix_rfl true rfl rfl
    obtain ⟨q, hq, ids, h2, -⟩ := h1
    cases hq
    have h3 : [some 1, none, some 1, none] = ids.map some ++ [none] := h2
    have h4 := congrArg (List.count none) h3
    rw [List.count_append, Scene.count_none_map_some] at h4
    cases h4
  · have h1 := h (shaderDestroyed.take 5) (.sync true) List.prefix_rfl true rfl rfl
    obtain ⟨q, hq, ids, h2, -, h3⟩ := h1
    cases hq
    have h4 : [none] = ids.map some ++ [none] := h2
    have h5 : ids = [] := by simpa using h4
    have h6 := h3 1 (show 1 ∈ [1] from List.mem_singleton_self 1)
    simp [h5] at h6
  · have h1 := h (neverLinked.take 1) (.sync true) List.prefix_rfl true rfl rfl
    exact h1 (0, none) (by decide) rfl

end Yaza
