import Yaza.Zwin.Settling
import Yaza.Zwin.Proxies

/-! The `gl_buffer.data` requests: which of them are current after a commit. -/
namespace Yaza

/-- A `gl_buffer.data` request, and how much the clients had been sent when it came. -/
structure Upload where
  request : DataRequest
  sent : ℕ

namespace Scene

/-- The last request of each buffer. -/
def noteUpload (s : Scene) (k : Arena Upload) : Action → Arena Upload
  | .request client (.bufferData b target data usage) =>
      if s.fault.isNone && s.admits client (.bufferData b target data usage) &&
          (s.glBuffers b).isSome then
        k.set b ⟨⟨target, usage, data⟩, s.events.length⟩
      else k
  | _ => k

/-- A step, with the requests noted beside the scene. -/
def noted (u : Scene × Arena Upload) (a : Action) : Scene × Arena Upload :=
  (u.1.step a, u.1.noteUpload u.2 a)

/-- The data of the request is current, and its `zwn_buffer` was released. -/
structure Taken (s : Scene) (x : GlBuffer) (q : Upload) : Prop where
  target : x.current.target = q.request.target
  usage : x.current.usage = q.request.usage
  data : x.current.data.isSome
  released : .bufferRelease q.request.data ∈ s.events.drop q.sent

/-- The vertex array the technique binds has an attribute in the buffer, or its draw call reads
its indices from it. -/
def Refers (s : Scene) (z : GlBaseTechnique) (b : ℕ) : Prop :=
  (∃ va y, z.current.vertexArray = some va ∧ s.glVertexArrays va = some y ∧
    ∃ e ∈ y.current, e.2.glBuffer = some b) ∨
  ∃ mode count type offset, z.current.drawApiArgs.data = .elements mode count type offset b

/-- A technique of the virtual object refers to the buffer. -/
def Uses (s : Scene) (v b : ℕ) : Prop :=
  ∃ t z, s.baseTechniques t = some z ∧ s.BelongsTo z v ∧ s.Refers z b

/-- The buffer waits for a commit with data that can still be read. -/
def Waits (s : Scene) (b : ℕ) (x : GlBuffer) (shm : ShmBuffer) : Prop :=
  s.glBuffers b = some x ∧ x.pending.data.bind s.shmBuffers = some shm

/-- After a commit no buffer the virtual object uses has data pending, unless the client destroyed
it: its last request is current. -/
def TakesUploads (u : Scene × Arena Upload) (a : Action) : Prop :=
  ∀ v b x, u.1.committedBy a = some v → (u.1.step a).Uses v b →
    (u.1.step a).glBuffers b = some x →
    (∀ y r, u.1.glBuffers b = some y → y.pending.data = some r → (u.1.shmBuffers r).isSome) →
    x.pending.data = none ∧ (∀ q, u.2 b = some q → Taken (u.1.step a) x q) ∧
      ∀ y shm, u.1.Waits b y shm → x.current.data = some shm.data

/-- A technique draws from the indices in the buffer, and was not asked to draw since the last
commit. -/
def DrawsOn (s : Scene) (v b : ℕ) : Prop :=
  ∃ t z, s.baseTechniques t = some z ∧ s.BelongsTo z v ∧
    (z.pending.drawApiArgs.changed = false ∨ z.pending.drawApiArgs.data = .none) ∧
    ∃ mode count type offset, z.current.drawApiArgs.data = .elements mode count type offset b

/-- New indices of a draw call that was not requested again are in a buffer that the commit comes to
in another way. -/
def ReachesIndices (s : Scene) (a : Action) : Prop :=
  ∀ v b x shm, s.committedBy a = some v → s.DrawsOn v b → s.Waits b x shm →
    s.TouchedFrom v (.buffer b)

section Commit
variable {s : Scene} {v b : ℕ}

theorem elements_commit {z : GlBaseTechnique} {alive : TextureBinding → Bool} :
    (∃ mode count type offset,
        (z.commit alive).current.drawApiArgs.data = .elements mode count type offset b) ↔
      z.pending.drawApiArgs.committedBuffer = some b ∨
        (z.pending.drawApiArgs.changed = false ∨ z.pending.drawApiArgs.data = .none) ∧
          ∃ mode count type offset,
            z.current.drawApiArgs.data = .elements mode count type offset b := by
  simp only [GlBaseTechnique.commit, TechniqueState.commit, DrawApiArgs.commit,
    DrawApiArgs.committedBuffer]
  cases hc : z.pending.drawApiArgs.changed with
  | false => simp
  | true => cases hd : z.pending.drawApiArgs.data <;> simp

theorem commitVirtualObject_content (ht : Tree s) (v : ℕ) :
    (s.commitVirtualObject v).content = (s.commitState v).content :=
  (syncIfSession_steps ((commitState_commits_true s v).tree ht).registered v).content

/-- The references of a technique that is committed. -/
def refsOf (z : GlBaseTechnique) : ℕ × Option ℕ × DrawData :=
  (z.owner, z.current.vertexArray, z.current.drawApiArgs.data)

theorem commitVirtualObject_refs (ht : Tree s) (hw : Wired s) (hv : (s.virtualObjects v).isSome)
    (t : ℕ) :
    ((s.commitVirtualObject v).baseTechniques t).map refsOf =
      (s.baseTechniques t).map fun z =>
        refsOf (if s.ownerOf (.unit z.owner) = some v then z.commit s.bindingAlive else z) := by
  have h1 := congrArg (Option.map refsOf)
    (congrFun (congrArg Scene.baseTechniques (commitVirtualObject_content ht v)) t)
  simp only [content, Arena.mapAll_apply, Option.map_map] at h1
  have h2 := congrArg (Option.map refsOf) (congrFun (commitState_techniques hw hv) t)
  rw [Arena.mapAll_apply, Option.map_map] at h2
  exact Eq.trans h1 h2

theorem commitVirtualObject_ownerOf (ht : Tree s) (v : ℕ) :
    (s.commitVirtualObject v).ownerOf = s.ownerOf :=
  congrArg Wiring.owner
    ((sameWiring_of_skeleton (commitState_commits_true s v).skeleton).trans
      (sameWiring_of_content (commitVirtualObject_content ht v))).objects

/-- A vertex array that the commit came to shows the attributes it was asked for. -/
theorem commitVirtualObject_array (ht : Tree s) (hw : Wired s)
    (hv : (s.virtualObjects v).isSome) {va : ℕ} (hva : s.TouchedFrom v (.vertexArray va)) :
    ((s.commitVirtualObject v).glVertexArrays va).map GlVertexArray.current =
      (s.glVertexArrays va).map GlVertexArray.pending := by
  have h1 := ((commitState_settles hw hv).arrays va).1 hva
  have h2 := congrArg (Option.map GlVertexArray.current)
    (congrFun (congrArg Scene.glVertexArrays (commitVirtualObject_content ht v)) va)
  simp only [content, Arena.mapAll_apply, Option.map_map] at h2
  refine h2.trans ?_
  rw [h1, Option.map_map]
  rfl

/-- The technique `z'` refers to what `z` does once it is committed. -/
structure Follows (alive : TextureBinding → Bool) (z z' : GlBaseTechnique) : Prop where
  vertexArray : z'.current.vertexArray = z.bound
  data : z'.current.drawApiArgs.data = (z.commit alive).current.drawApiArgs.data

theorem follows_of_refs {alive : TextureBinding → Bool} {z z' : GlBaseTechnique}
    (h : refsOf (z.commit alive) = refsOf z') : Follows alive z z' :=
  ⟨congrArg (fun r => r.2.1) h.symm, congrArg (fun r => r.2.2) h.symm⟩

theorem technique_after_commit (ht : Tree s) (hw : Wired s) {t : ℕ} {z : GlBaseTechnique}
    (hz : s.baseTechniques t = some z) (ho : s.BelongsTo z v) (hv : (s.virtualObjects v).isSome) :
    ∃ z', (s.commitVirtualObject v).baseTechniques t = some z' ∧
      (s.commitVirtualObject v).BelongsTo z' v ∧ Follows s.bindingAlive z z' := by
  have hr := commitVirtualObject_refs ht hw hv t
  rw [hz, Option.map_some, if_pos (show s.ownerOf (.unit z.owner) = some v from ho)] at hr
  obtain ⟨z', hz', he⟩ := Option.map_eq_some_iff.mp hr
  refine ⟨z', hz', ?_, follows_of_refs he.symm⟩
  rw [BelongsTo, commitVirtualObject_ownerOf ht, show z'.owner = z.owner from congrArg Prod.fst he]
  exact ho

theorem technique_before_commit (ht : Tree s) (hw : Wired s) (hv : (s.virtualObjects v).isSome)
    {t : ℕ} {z' : GlBaseTechnique} (hz' : (s.commitVirtualObject v).baseTechniques t = some z')
    (ho : (s.commitVirtualObject v).BelongsTo z' v) :
    ∃ z, s.baseTechniques t = some z ∧ s.BelongsTo z v ∧ Follows s.bindingAlive z z' := by
  have hr := commitVirtualObject_refs ht hw hv t
  rw [hz', Option.map_some] at hr
  obtain ⟨z, hz, he⟩ := Option.map_eq_some_iff.mp hr.symm
  have howner : z'.owner = z.owner := by
    have h1 := congrArg Prod.fst he
    split at h1 <;> exact h1.symm
  rw [BelongsTo, commitVirtualObject_ownerOf ht, howner] at ho
  rw [if_pos ho] at he
  exact ⟨z, hz, ho, follows_of_refs he⟩

/-- The buffers in use after a commit: what it came to, and the indices of the draw calls that
stay. -/
theorem commitVirtualObject_uses (ht : Tree s) (hw : Wired s) (hv : (s.virtualObjects v).isSome) :
    (s.commitVirtualObject v).Uses v b ↔ s.TouchedFrom v (.buffer b) ∨ s.DrawsOn v b := by
  have harray (va : ℕ) (hva : s.TouchedFrom v (.vertexArray va)) :=
    commitVirtualObject_array ht hw hv hva
  constructor
  · rintro ⟨t, z', hz', ho', h⟩
    obtain ⟨z, hz, ho, hf⟩ := technique_before_commit ht hw hv hz' ho'
    rcases h with ⟨va, y', hva, hy', e, he, hb⟩ | h
    · have hbound : z.bound = some va := hf.vertexArray.symm.trans hva
      have h1 := harray va ⟨t, z, hz, ho, hbound⟩
      rw [hy', Option.map_some] at h1
      obtain ⟨y, hy, hp⟩ := Option.map_eq_some_iff.mp h1.symm
      exact .inl ⟨t, z, hz, ho, .inl ⟨va, y, hbound, hy, e, hp ▸ he, hb⟩⟩
    · rw [hf.data, elements_commit] at h
      rcases h with h | ⟨h1, h2⟩
      · exact .inl ⟨t, z, hz, ho, .inr h⟩
      · exact .inr ⟨t, z, hz, ho, h1, h2⟩
  · rintro (⟨t, z, hz, ho, ⟨va, y, hva, hy, e, he, hb⟩ | h⟩ | ⟨t, z, hz, ho, h1, h2⟩)
    · obtain ⟨z', hz', ho', hf⟩ := technique_after_commit ht hw hz ho hv
      have h1 := harray va ⟨t, z, hz, ho, hva⟩
      rw [hy, Option.map_some] at h1
      obtain ⟨y', hy', hp⟩ := Option.map_eq_some_iff.mp h1
      exact ⟨t, z', hz', ho', .inl ⟨va, y', hf.vertexArray.trans hva, hy', e, hp ▸ he, hb⟩⟩
    · obtain ⟨z', hz', ho', hf⟩ := technique_after_commit ht hw hz ho hv
      refine ⟨t, z', hz', ho', .inr ?_⟩
      rw [hf.data, elements_commit]
      exact .inl h
    · obtain ⟨z', hz', ho', hf⟩ := technique_after_commit ht hw hz ho hv
      refine ⟨t, z', hz', ho', .inr ?_⟩
      rw [hf.data, elements_commit]
      exact .inr ⟨h1, h2⟩

/-- What a commit makes of a buffer. -/
theorem commitVirtualObject_buffer (ht : Tree s) (hw : Wired s) (hv : (s.virtualObjects v).isSome)
    (b : ℕ) :
    (s.TouchedFrom v (.buffer b) → ((s.commitVirtualObject v).glBuffers b).map bareBuffer =
      (s.glBuffers b).map fun x => bareBuffer (x.settle s.shmBuffers)) ∧
    (¬ s.TouchedFrom v (.buffer b) → ((s.commitVirtualObject v).glBuffers b).map bareBuffer =
      (s.glBuffers b).map bareBuffer) := by
  have h1 := congrFun (congrArg Scene.glBuffers (commitVirtualObject_content ht v)) b
  simp only [content, Arena.mapAll_apply] at h1
  have h2 := (commitState_settles hw hv).buffers b
  rw [h1]
  refine ⟨fun h => ?_, fun h => ?_⟩
  · rw [h2.1 h, Option.map_map]
    rfl
  · rw [h2.2 h]

theorem commitVirtualObject_sent (ht : Tree s) (hw : Wired s) (hv : (s.virtualObjects v).isSome) :
    ∃ l, (s.commitVirtualObject v).events = s.events ++ l ∧ ∀ b x r,
      s.TouchedFrom v (.buffer b) → s.glBuffers b = some x → x.pending.data = some r →
      (s.shmBuffers r).isSome → .bufferRelease r ∈ l := by
  have h1 : (s.commitVirtualObject v).events = (s.commitState v).events :=
    show (s.commitVirtualObject v).content.events = (s.commitState v).content.events from by
      rw [commitVirtualObject_content ht v]
  rw [h1]
  exact (commitState_settles hw hv).sent

theorem bareBuffer_eq {x x' : GlBuffer} :
    bareBuffer x = bareBuffer x' ↔ x.pending = x'.pending ∧ x.current.args = x'.current.args := by
  obtain ⟨p, ⟨d, t, u, data, n⟩, q⟩ := x
  obtain ⟨p', ⟨d', t', u', data', n'⟩, q'⟩ := x'
  simp only [bareBuffer, GlBuffer.Current.args, GlBuffer.mk.injEq, GlBuffer.Current.mk.injEq,
    BufferData.mk.injEq]
  tauto

/-- The commit took the pending data of the buffer `x`, which is `x'` now. -/
structure Takes (s s' : Scene) (x x' : GlBuffer) (r : ℕ) (shm : ShmBuffer) : Prop where
  asked : x.pending.data = some r
  shown : s.shmBuffers r = some shm
  taken : x'.pending.data = none
  args : x'.current.args = ⟨some shm.data, x.pending.target, shm.data.length, x.pending.usage⟩
  released : ∃ l, s'.events = s.events ++ l ∧ .bufferRelease r ∈ l

/-- A commit takes the data it comes to, if it can be read, and no other. -/
theorem commitVirtualObject_takes (ht : Tree s) (hw : Wired s) (hv : (s.virtualObjects v).isSome)
    {x' : GlBuffer} (hx' : (s.commitVirtualObject v).glBuffers b = some x') :
    ∃ x, s.glBuffers b = some x ∧
      ((bareBuffer x = bareBuffer x' ∧
          (s.TouchedFrom v (.buffer b) → x.pending.data.bind s.shmBuffers = none)) ∨
        s.TouchedFrom v (.buffer b) ∧ ∃ r shm, Takes s (s.commitVirtualObject v) x x' r shm) := by
  obtain ⟨h1, h2⟩ := commitVirtualObject_buffer ht hw hv b
  by_cases htouched : s.TouchedFrom v (.buffer b)
  · have h1 := h1 htouched
    rw [hx', Option.map_some] at h1
    obtain ⟨x, hx, he⟩ := Option.map_eq_some_iff.mp h1.symm
    refine ⟨x, hx, ?_⟩
    cases hd : x.pending.data.bind s.shmBuffers with
    | none =>
      refine .inl ⟨?_, fun _ => rfl⟩
      rw [← he]
      simp [GlBuffer.settle, hd]
    | some shm =>
      obtain ⟨r, hr, hm⟩ := Option.bind_eq_some_iff.mp hd
      obtain ⟨l, hl, hsent⟩ := commitVirtualObject_sent ht hw hv
      have hs : x.settle s.shmBuffers = x.commit shm.data := by simp [GlBuffer.settle, hd]
      rw [hs, bareBuffer_eq] at he
      refine .inr ⟨htouched, r, shm, hr, hm, ?_, he.2.symm,
        l, hl, hsent b x r htouched hx hr (by simp [hm])⟩
      rw [← he.1]
      rfl
  · have h2 := h2 htouched
    rw [hx', Option.map_some] at h2
    obtain ⟨x, hx, he⟩ := Option.map_eq_some_iff.mp h2.symm
    exact ⟨x, hx, .inl ⟨he, fun h => absurd h htouched⟩⟩

end Commit

/-- The notes and the scene agree: the last request is pending, or it was taken. -/
structure Noted (s : Scene) (k : Arena Upload) : Prop where
  buffers : ∀ b, s.nextId ≤ b → s.glBuffers b = none
  fresh : ∀ b, s.nextId ≤ b → k b = none
  sent : ∀ b q, k b = some q → q.sent ≤ s.events.length
  silent : ∀ b x, s.glBuffers b = some x → k b = none → x.pending.data = none
  asked : ∀ b x q, s.glBuffers b = some x → k b = some q →
    x.pending = ⟨q.request.target, q.request.usage, some q.request.data⟩ ∨
      x.pending.data = none ∧ Taken s x q

/-- A change that makes no new buffer, takes no data, and takes nothing back that was sent. -/
structure Later (s s' : Scene) : Prop where
  nextId : s.nextId ≤ s'.nextId
  events : s.events <+: s'.events
  buffers : ∀ b x', s'.glBuffers b = some x' →
    ∃ x, s.glBuffers b = some x ∧ bareBuffer x = bareBuffer x'

section Noted
variable {s s' s'' : Scene} {k : Arena Upload}

theorem Taken.later {x x' : GlBuffer} {q : Upload} (h : Taken s x q) (he : s.events <+: s'.events)
    (hx : bareBuffer x = bareBuffer x') : Taken s' x' q := by
  have hc := (bareBuffer_eq.mp hx).2
  refine ⟨?_, ?_, ?_, ?_⟩
  · exact (congrArg BufferData.target hc).symm.trans h.target
  · exact (congrArg BufferData.usage hc).symm.trans h.usage
  · have h1 : x.current.data = x'.current.data := congrArg BufferData.data hc
    exact h1 ▸ h.data
  · exact (he.drop q.sent).subset h.released

theorem Later.refl (s : Scene) : Later s s :=
  ⟨Nat.le_refl _, List.prefix_rfl, fun _ x h => ⟨x, h, rfl⟩⟩

theorem Later.trans (h : Later s s') (h' : Later s' s'') : Later s s'' where
  nextId := h.nextId.trans h'.nextId
  events := h.events.trans h'.events
  buffers := fun b x'' hx => by
    obtain ⟨x', hx', he'⟩ := h'.buffers b x'' hx
    obtain ⟨x, hx, he⟩ := h.buffers b x' hx'
    exact ⟨x, hx, he.trans he'⟩

theorem Later.noted (h : Later s s') (hn : Noted s k) : Noted s' k where
  buffers := fun b hb => by
    cases hx' : s'.glBuffers b with
    | none => rfl
    | some x' =>
      obtain ⟨x, hx, -⟩ := h.buffers b x' hx'
      rw [hn.buffers b (h.nextId.trans hb)] at hx
      cases hx
  fresh := fun b hb => hn.fresh b (h.nextId.trans hb)
  sent := fun b q hq => (hn.sent b q hq).trans h.events.length_le
  silent := fun b x' hx' hk => by
    obtain ⟨x, hx, he⟩ := h.buffers b x' hx'
    have hp := (bareBuffer_eq.mp he).1
    exact hp ▸ hn.silent b x hx hk
  asked := fun b x' q hx' hk => by
    obtain ⟨x, hx, he⟩ := h.buffers b x' hx'
    have hp := (bareBuffer_eq.mp he).1
    rcases hn.asked b x q hx hk with h1 | ⟨h1, h2⟩
    · exact .inl (hp ▸ h1)
    · exact .inr ⟨hp ▸ h1, h2.later h.events he⟩

theorem later_of_eq (hn : s.nextId ≤ s'.nextId) (he : s.events <+: s'.events)
    (hb : s'.glBuffers = s.glBuffers) : Later s s' :=
  ⟨hn, he, fun b x h => ⟨x, by rw [← hb]; exact h, rfl⟩⟩

theorem later_of_content (h : s'.content = s.content) : Later s s' where
  nextId := Nat.le_of_eq (show s.content.nextId = s'.content.nextId from by rw [h])
  events := by
    have he : s'.events = s.events := show s'.content.events = s.content.events from by rw [h]
    rw [he]
  buffers := fun _ _ hx => Arena.of_mapAll (congrArg Scene.glBuffers h) hx

theorem commitVirtualObject_noted (ht : Tree s) (hw : Wired s) {v : ℕ}
    (hv : (s.virtualObjects v).isSome) (hn : Noted s k) : Noted (s.commitVirtualObject v) k := by
  obtain ⟨l, hl, -⟩ := commitVirtualObject_sent ht hw hv
  have hevents : s.events <+: (s.commitVirtualObject v).events := hl ▸ List.prefix_append ..
  refine ⟨fun b hb => ?_, fun b hb => hn.fresh b ((commitVirtualObject_nextId ht v).trans hb),
    fun b q hq => (hn.sent b q hq).trans hevents.length_le, fun b x' hx' hk => ?_,
    fun b x' q hx' hk => ?_⟩
  · cases hx' : (s.commitVirtualObject v).glBuffers b with
    | none => rfl
    | some x' =>
      obtain ⟨x, hx, -⟩ := commitVirtualObject_takes ht hw hv hx'
      rw [hn.buffers b ((commitVirtualObject_nextId ht v).trans hb)] at hx
      cases hx
  · obtain ⟨x, hx, ⟨he, -⟩ | ⟨-, r, shm, h⟩⟩ := commitVirtualObject_takes ht hw hv hx'
    · exact (bareBuffer_eq.mp he).1 ▸ hn.silent b x hx hk
    · exact h.taken
  · obtain ⟨x, hx, ⟨he, -⟩ | ⟨-, r, shm, h⟩⟩ := commitVirtualObject_takes ht hw hv hx'
    · have hp := (bareBuffer_eq.mp he).1
      rcases hn.asked b x q hx hk with h1 | ⟨h1, h2⟩
      · exact .inl (hp ▸ h1)
      · exact .inr ⟨hp ▸ h1, h2.later hevents he⟩
    · rcases hn.asked b x q hx hk with h1 | ⟨h1, -⟩
      · have hr := h.asked
        rw [h1] at hr
        cases hr
        obtain ⟨l', hl', hmem⟩ := h.released
        refine .inr ⟨h.taken, ?_, ?_, ?_, ?_⟩
        · exact (congrArg BufferData.target h.args).trans (by rw [h1])
        · exact (congrArg BufferData.usage h.args).trans (by rw [h1])
        · have hd : x'.current.data = some shm.data := congrArg BufferData.data h.args
          rw [hd]
          rfl
        · rw [hl', List.drop_append_of_le_length (hn.sent b q hk)]
          exact List.mem_append_right _ hmem
      · have hr := h.asked
        rw [h1] at hr
        cases hr

theorem createGlBuffer_noted (hn : Noted s k) (client : ℕ) (g : GlBuffer.Garbage) :
    Noted (s.handle client (.createGlBuffer g)) k where
  buffers := fun b hb => by
    have hlt : s.nextId < b := hb
    simp only [handle, Arena.set_of_ne _ _ hlt.ne']
    exact hn.buffers b hlt.le
  fresh := fun b hb => hn.fresh b ((Nat.le_succ _).trans hb)
  sent := hn.sent
  silent := fun b x hx hk => by
    simp only [handle, Arena.set_apply] at hx
    split at hx
    · cases hx
      rfl
    · exact hn.silent b x hx hk
  asked := fun b x q hx hk => by
    simp only [handle, Arena.set_apply] at hx
    split at hx
    · next hb =>
      rw [hn.fresh b hb.ge] at hk
      cases hk
    · exact (hn.asked b x q hx hk).imp_right fun h => ⟨h.1, h.2.later List.prefix_rfl rfl⟩

theorem bufferData_noted (hn : Noted s k) (client : ℕ) {b : ℕ} (target usage : UInt32) (data : ℕ)
    (hb : (s.glBuffers b).isSome) :
    Noted (s.handle client (.bufferData b target data usage))
      (k.set b ⟨⟨target, usage, data⟩, s.events.length⟩) where
  buffers := fun i hi => by
    have h1 : (s.glBuffers.modify b fun x => x.updatePendingData target usage data) i = none := by
      rw [← Option.not_isSome_iff_eq_none, Arena.modify_isSome, hn.buffers i hi]
      simp
    exact h1
  fresh := fun i hi => by
    have hne : i ≠ b := by
      rintro rfl
      rw [hn.buffers i hi] at hb
      cases hb
    rw [Arena.set_of_ne _ _ hne]
    exact hn.fresh i hi
  sent := fun i q hq => by
    rw [Arena.set_apply] at hq
    split at hq
    · cases hq
      exact Nat.le_refl _
    · exact hn.sent i q hq
  silent := fun i x hx hk => by
    rw [Arena.set_apply] at hk
    split at hk
    · cases hk
    · next hne =>
      simp only [handle, Arena.modify_of_ne _ _ hne] at hx
      exact hn.silent i x hx hk
  asked := fun i x q hx hk => by
    rw [Arena.set_apply] at hk
    split at hk
    · next hi =>
      subst hi
      cases hk
      simp only [handle, Arena.modify_self, Option.map_eq_some_iff] at hx
      obtain ⟨y, -, rfl⟩ := hx
      exact .inl rfl
    · next hne =>
      simp only [handle, Arena.modify_of_ne _ _ hne] at hx
      exact (hn.asked i x q hx hk).imp_right fun h => ⟨h.1, h.2.later List.prefix_rfl rfl⟩

theorem crash_later (s : Scene) (f : Fault) : Later s (s.crash f) :=
  later_of_eq (Nat.le_refl _) List.prefix_rfl rfl

theorem postError_later (s : Scene) (i : ℕ) (code : ErrorCode) (text : String) :
    Later s (s.postError i code text) := by
  rcases postError_cases s i code text with h | ⟨e, h⟩ <;> rw [h]
  · exact crash_later s _
  · exact later_of_eq (Nat.le_refl _) List.prefix_rfl rfl

theorem withTechnique_later {t : ℕ} {f : Scene → Scene} (hf : Later s (f s)) :
    Later s (s.withTechnique t f) := by
  unfold withTechnique
  split
  · exact hf
  · exact .refl s

theorem setParamater_later (s : Scene) (p : ℕ) (type : ParamType) (pname : UInt32)
    (arg : SamplerArg) (garbage : Bytes) : Later s (s.setParamater p type pname arg garbage) := by
  unfold setParamater
  split
  · exact postError_later ..
  · split
    · exact postError_later ..
    · exact later_of_eq (Nat.le_refl _) List.prefix_rfl rfl

theorem configure_later (s : Scene) (b : ℕ) (halfSize : WlArray) :
    Later s (s.configure b halfSize) := by
  unfold configure
  split
  · exact postError_later ..
  · exact later_of_eq (Nat.le_refl _) (List.prefix_append ..) rfl

theorem createBounded_later (s : Scene) (client v : ℕ) (halfSize : WlArray) :
    Later s (s.createBounded client v halfSize) := by
  have h1 : Later s (s.newBounded client v) :=
    later_of_eq (Nat.le_succ _) List.prefix_rfl rfl
  exact (h1.trans (configure_later _ _ halfSize)).trans
    (later_of_eq (Nat.le_refl _) List.prefix_rfl rfl)

/-- A request that is no commit, no data request, and makes no buffer. -/
theorem handle_later (s : Scene) (client : ℕ) {r : Request} (hc : ∀ v, r ≠ .commit v)
    (hd : ∀ b target data usage, r ≠ .bufferData b target data usage)
    (hg : ∀ g, r ≠ .createGlBuffer g) : Later s (s.handle client r) := by
  cases r with
  | commit v => exact absurd rfl (hc v)
  | bufferData b target data usage => exact absurd rfl (hd b target data usage)
  | createGlBuffer g => exact absurd rfl (hg g)
  | createVirtualObject | createRegion | createRenderingUnit | createGlShader | createGlProgram
  | createGlTexture | createGlSampler | createGlVertexArray | createBuffer | frame =>
    exact later_of_eq (Nat.le_succ _) List.prefix_rfl rfl
  | createGlBaseTechnique u =>
    simp only [handle, createGlBaseTechnique]
    split
    · exact later_of_eq (Nat.le_succ _) List.prefix_rfl rfl
    · exact later_of_eq (Nat.le_refl _) List.prefix_rfl rfl
  | getBounded v halfSize => exact createBounded_later s client v halfSize
  | ackConfigure b serial =>
    simp only [handle, ackConfigure]
    split
    · exact crash_later s _
    · split <;> exact later_of_eq (Nat.le_refl _) List.prefix_rfl rfl
  | setRegion b region =>
    simp only [handle, setRegion]
    split
    · exact crash_later s _
    · split <;> exact later_of_eq (Nat.le_refl _) List.prefix_rfl rfl
  | addCuboid region halfSize center quat =>
    simp only [handle, addCuboid]
    split
    · exact postError_later ..
    · exact postError_later ..
    · exact postError_later ..
    · exact later_of_eq (Nat.le_refl _) List.prefix_rfl rfl
  | uniformVector =>
    apply withTechnique_later
    unfold uniformVector
    split
    · exact postError_later ..
    · split
      · exact postError_later ..
      · exact later_of_eq (Nat.le_refl _) List.prefix_rfl rfl
  | uniformMatrix =>
    apply withTechnique_later
    unfold uniformMatrix
    split
    · exact postError_later ..
    · split
      · exact postError_later ..
      · split
        · exact postError_later ..
        · exact later_of_eq (Nat.le_refl _) List.prefix_rfl rfl
  | drawElements =>
    apply withTechnique_later
    unfold drawElements
    split
    · exact postError_later ..
    · exact later_of_eq (Nat.le_refl _) List.prefix_rfl rfl
  | parameterF p pname param =>
    simp only [handle, parameterF]
    split
    · exact postError_later ..
    · exact setParamater_later ..
  | parameterI | parameterV => exact setParamater_later ..
  | vertexAttribPointer va index size type normalized stride offset b =>
    simp only [handle, vertexAttribPointer]
    split
    · exact postError_later ..
    · exact later_of_eq (Nat.le_refl _) List.prefix_rfl rfl
  | _ => exact later_of_eq (Nat.le_refl _) List.prefix_rfl rfl

theorem later_of_leaves (h : s'.leaves = s.leaves) : Later s s' := by
  have hp {β : Type} (f : Scene → β) : f s'.leaves = f s.leaves := congrArg f h
  refine later_of_eq (Nat.le_of_eq (hp Scene.nextId).symm) ?_ (hp Scene.glBuffers)
  have he : s'.events = s.events := hp Scene.events
  rw [he]

theorem deleteObject_later (s : Scene) (r : ℕ) (i : Interface) : Later s (s.deleteObject r i) := by
  cases i with
  | virtualObject | bounded | renderingUnit | baseTechnique =>
    exact later_of_leaves (deleteObject_leaves s r rfl)
  | glBuffer =>
    refine ⟨Nat.le_refl _, List.prefix_rfl, fun b x hx => ⟨x, ?_, rfl⟩⟩
    simp only [deleteObject, Arena.erase_apply, Option.ite_none_left_eq_some] at hx
    exact hx.2
  | _ => exact later_of_eq (Nat.le_refl _) List.prefix_rfl rfl

theorem handle_noted (ht : Tree s) (hw : Wired s) (hn : Noted s k) (hf : s.fault = none)
    {client : ℕ} {r : Request} (hr : s.admits client r) :
    Noted (s.handle client r) (s.noteUpload k (.request client r)) := by
  cases r with
  | commit v =>
    have hres := hr
    simp only [admits, Bool.and_eq_true, List.all_eq_true, decide_eq_true_eq] at hres
    exact commitVirtualObject_noted ht hw (ht.objects v client (hres.2 _ List.mem_cons_self)) hn
  | createGlBuffer g => exact createGlBuffer_noted hn client g
  | bufferData b target data usage =>
    by_cases hb : (s.glBuffers b).isSome
    · simp only [noteUpload, hf, hr, hb]
      exact bufferData_noted hn client target usage data hb
    · have he : s.handle client (.bufferData b target data usage) = s := by
        simp only [handle, Arena.modify_of_none (Option.not_isSome_iff_eq_none.mp hb)]
      simp only [noteUpload, hf, hr, hb, he]
      exact hn
  | _ => exact (handle_later s client (by simp) (by simp) (by simp)).noted hn

theorem commitVirtualObject_noted_of_none (ht : Tree s) (hn : Noted s k) {v : ℕ}
    (hv : s.virtualObjects v = none) : Noted (s.commitVirtualObject v) k := by
  have h1 : (s.commitVirtualObject v).content = s.content := by
    rw [commitVirtualObject_content ht, commitState, hv]
    rfl
  exact (later_of_content h1).noted hn

theorem act_noted (ht : Tree s) (hw : Wired s) (hn : Noted s k) (hf : s.fault = none) (a : Action) :
    Noted (s.act a) (s.noteUpload k a) := by
  cases a with
  | request client r =>
    by_cases hr : s.admits client r
    · rw [act, if_pos hr]
      exact handle_noted ht hw hn hf hr
    · have hk : s.noteUpload k (.request client r) = k := by
        cases r <;> first | rfl | simp [noteUpload, hr]
      rw [act, if_neg hr, hk]
      exact hn
  | destroy client r =>
    simp only [act]
    split
    · unfold destroyResource
      split
      · exact hn
      · next x _ =>
        have h1 := deleteObject_later s r x.interface
        have h2 : Later (s.deleteObject r x.interface)
            { s.deleteObject r x.interface with resources := s.resources.erase r } :=
          later_of_eq (Nat.le_refl _) List.prefix_rfl rfl
        exact (h1.trans h2).noted hn
    · exact hn
  | peerDiscover connected =>
    exact (later_of_content (peerDiscover_content ht.registered connected)).noted hn
  | sessionDisconnect => exact (later_of_content (sessionDisconnect_content s)).noted hn
  | frameTimer busyness =>
    simp only [act, frameTimer]
    split
    · have h1 : Later s s.sessionFrame :=
        later_of_eq (Nat.le_refl _) (List.prefix_append ..) rfl
      exact h1.noted hn
    · exact hn
  | moveApp b polar azimuthal =>
    simp only [act, moveApp]
    split
    · exact hn
    · next x hx =>
      have ht' := ht.same (turnApp_same s b x polar azimuthal)
      have hw' := hw.same (turnApp_wiring hx polar azimuthal) (Nat.le_refl _)
      have h1 : Later s (s.turnApp b x polar azimuthal) :=
        later_of_eq (Nat.le_refl _) List.prefix_rfl rfl
      cases hv : s.virtualObjects x.virtualObject with
      | none => exact commitVirtualObject_noted_of_none ht' (h1.noted hn) hv
      | some y =>
        exact commitVirtualObject_noted ht' hw' (by simp [turnApp, hv]) (h1.noted hn)

end Noted

section Runs
variable {s : Scene} {k : Arena Upload} {a : Action} {v : ℕ}

/-- What a commit comes to has nothing pending after it, and so has what does not wait. -/
theorem commitVirtualObject_clears (ht : Tree s) (hw : Wired s) (hv : (s.virtualObjects v).isSome)
    {b : ℕ} {x' : GlBuffer} (hx' : (s.commitVirtualObject v).glBuffers b = some x')
    (hlive : ∀ y r, s.glBuffers b = some y → y.pending.data = some r → (s.shmBuffers r).isSome)
    (h : ∀ y shm, s.Waits b y shm → s.TouchedFrom v (.buffer b)) :
    x'.pending.data = none ∧ ∀ y shm, s.Waits b y shm → x'.current.data = some shm.data := by
  obtain ⟨x, hx, ⟨hbare, hidle⟩ | ⟨-, r, shm, htakes⟩⟩ := commitVirtualObject_takes ht hw hv hx'
  · have hquiet (shm : ShmBuffer) : x.pending.data.bind s.shmBuffers ≠ some shm := by
      intro hm
      rw [hidle (h x shm ⟨hx, hm⟩)] at hm
      cases hm
    constructor
    · rw [← (bareBuffer_eq.mp hbare).1]
      cases hr : x.pending.data with
      | none => rfl
      | some r =>
        obtain ⟨shm, hm⟩ := Option.isSome_iff_exists.mp (hlive x r hx hr)
        exact absurd (by simp [hr, hm]) (hquiet shm)
    · rintro y shm ⟨hy, hm⟩
      cases hx.symm.trans hy
      exact absurd hm (hquiet shm)
  · refine ⟨htakes.taken, ?_⟩
    rintro y shm' ⟨hy, hm⟩
    cases hx.symm.trans hy
    rw [htakes.asked, Option.bind_some, htakes.shown] at hm
    cases hm
    exact congrArg BufferData.data htakes.args

/-- A commit takes all it should exactly when it comes to all indices that changed. -/
theorem commitVirtualObject_takes_iff (ht : Tree s) (hw : Wired s) (hn : Noted s k)
    (hv : (s.virtualObjects v).isSome) :
    (∀ b x', (s.commitVirtualObject v).Uses v b →
        (s.commitVirtualObject v).glBuffers b = some x' →
        (∀ y r, s.glBuffers b = some y → y.pending.data = some r → (s.shmBuffers r).isSome) →
        x'.pending.data = none ∧ (∀ q, k b = some q → Taken (s.commitVirtualObject v) x' q) ∧
          ∀ y shm, s.Waits b y shm → x'.current.data = some shm.data) ↔
      ∀ b x shm, s.DrawsOn v b → s.Waits b x shm → s.TouchedFrom v (.buffer b) := by
  constructor
  · intro h b x shm hdraws hwaits
    obtain ⟨hx, hm⟩ := hwaits
    obtain ⟨r, hr, hshm⟩ := Option.bind_eq_some_iff.mp hm
    by_contra htouched
    have huses := (commitVirtualObject_uses ht hw hv).mpr (.inr hdraws)
    have hb := (commitVirtualObject_buffer ht hw hv b).2 htouched
    rw [hx, Option.map_some] at hb
    obtain ⟨x', hx', hbare⟩ := Option.map_eq_some_iff.mp hb
    have hnone : x'.pending.data = none := by
      refine (h b x' huses hx' fun y q hy hq => ?_).1
      cases hx.symm.trans hy
      cases hr.symm.trans hq
      simp [hshm]
    rw [(bareBuffer_eq.mp hbare).1, hr] at hnone
    cases hnone
  · intro h b x' huses hx' hlive
    have htouched (y : GlBuffer) (shm : ShmBuffer) (hwaits : s.Waits b y shm) :
        s.TouchedFrom v (.buffer b) :=
      ((commitVirtualObject_uses ht hw hv).mp huses).elim id fun hdraws => h b y shm hdraws hwaits
    obtain ⟨h1, h2⟩ := commitVirtualObject_clears ht hw hv hx' hlive htouched
    refine ⟨h1, fun q hq => ?_, h2⟩
    rcases (commitVirtualObject_noted ht hw hv hn).asked b x' q hx' hq with h3 | h3
    · rw [congrArg GlBuffer.Pending.data h3] at h1
      cases h1
    · exact h3.2

theorem takesUploads_iff (ht : Tree s) (hw : Wired s) (hn : Noted s k) :
    TakesUploads (s, k) a ↔ s.ReachesIndices a := by
  have key (v : ℕ) (ha : s.committedBy a = some v) :
      (∀ b x', (s.step a).Uses v b → (s.step a).glBuffers b = some x' →
        (∀ y r, s.glBuffers b = some y → y.pending.data = some r → (s.shmBuffers r).isSome) →
        x'.pending.data = none ∧ (∀ q, k b = some q → Taken (s.step a) x' q) ∧
          ∀ y shm, s.Waits b y shm → x'.current.data = some shm.data) ↔
      ∀ b x shm, s.DrawsOn v b → s.Waits b x shm → s.TouchedFrom v (.buffer b) := by
    obtain ⟨apps, he, ht', hw', hv⟩ := step_of_committedBy ht hw ha
    have hn' : Noted { s with boundedApps := apps } k :=
      Later.noted (s := s) (later_of_eq (Nat.le_refl _) List.prefix_rfl rfl) hn
    rw [he]
    exact commitVirtualObject_takes_iff ht' hw' hn' hv
  constructor
  · intro h v b x shm ha
    exact (key v ha).mp (fun b x' => h v b x' ha) b x shm
  · intro h v b x' ha
    exact (key v ha).mpr (fun b x shm => h v b x shm ha) b x'

theorem init_noted : Noted init Arena.empty where
  buffers := fun _ _ => rfl
  fresh := fun _ _ => rfl
  sent := fun _ _ h => by cases h
  silent := fun _ _ h => by cases h
  asked := fun _ _ _ h => by cases h

theorem noted_step {u : Scene × Arena Upload} (h : Tree u.1 ∧ Wired u.1 ∧ Noted u.1 u.2)
    (a : Action) :
    Tree (noted u a).1 ∧ Wired (noted u a).1 ∧ Noted (noted u a).1 (noted u a).2 := by
  obtain ⟨ht, hw, hn⟩ := h
  obtain ⟨ht', hw'⟩ := step_wired u.1 a ⟨ht, hw⟩
  refine ⟨ht', hw', ?_⟩
  cases hf : u.1.fault with
  | none =>
    have hstep : u.1.step a = u.1.act a := by simp [step, hf]
    rw [noted, hstep]
    exact act_noted ht hw hn hf a
  | some f =>
    have hstep : u.1.step a = u.1 := by simp [step, hf]
    have hk : u.1.noteUpload u.2 a = u.2 := by
      cases a with
      | request client r => cases r <;> first | rfl | simp [noteUpload, hf]
      | _ => rfl
    rw [noted, hstep, hk]
    exact hn

/-- After every commit of a run the uploads of the buffers in use are current, in exactly the runs
whose commits all come to the index buffers with new data. -/
theorem takesUploads_each_iff (as : List Action) :
    Run.Each noted TakesUploads (init, Arena.empty) as ↔ Run.Each step ReachesIndices init as := by
  have h : Run.Each noted (fun u a => u.1.ReachesIndices a) (init, Arena.empty) as ↔
      Run.Each step ReachesIndices init as := Run.each_fst_iff fun _ _ => rfl
  rw [← h]
  exact Run.each_iff_each
    (G := fun u : Scene × Arena Upload => Tree u.1 ∧ Wired u.1 ∧ Noted u.1 u.2)
    ⟨init_tree, init_wired, init_noted⟩ (fun u a hu _ => noted_step hu a)
    (fun u a hu => takesUploads_iff hu.1 hu.2.1 hu.2.2) as

end Runs

/-- The indices of a draw call are uploaded anew; the draw call is not requested again. -/
def frozenIndices : List Action :=
  [.request 0 .createVirtualObject, .request 0 (.createRenderingUnit 0),
    .request 0 (.createGlBaseTechnique 1), .request 0 (.createGlBuffer {}),
    .request 0 (.createBuffer [7]), .request 0 (.bufferData 3 0 4 0),
    .request 0 (.drawElements 2 0 0 0 (.ofBytes [0, 0, 0, 0, 0, 0, 0, 0]) 3),
    .request 0 (.commit 0), .request 0 (.bufferData 3 0 4 0), .request 0 (.commit 0)]

/-- The commit leaves the new indices pending. -/
theorem frozenIndices_pending :
    ¬ Run.Each noted TakesUploads (init, Arena.empty) frozenIndices := by
  intro h
  have h1 := h (frozenIndices.take 9) (.request 0 (.commit 0)) List.prefix_rfl 0 3
    { pending := ⟨0, 0, some 4⟩, current := ⟨true, 0, 0, some [7], 1⟩ } rfl
    ⟨2, _, rfl, rfl, .inr ⟨0, 0, 0, 0, rfl⟩⟩ rfl fun y r hy hr => by
      cases hy
      cases hr
      rfl
  cases h1.1

end Scene
end Yaza
