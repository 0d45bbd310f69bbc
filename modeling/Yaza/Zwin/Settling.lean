import Yaza.Zwin.Fanout
import Yaza.Zwin.Leaves

/-! The buffers a commit of a virtual object takes the data of: those its techniques come to through
the vertex array they bind and the draw call they were asked for since the last commit. -/
namespace Yaza

/-- The vertex array that is bound once the technique is committed. -/
def GlBaseTechnique.bound (z : GlBaseTechnique) : Option ℕ :=
  if z.pending.vertexArrayChanged then z.pending.vertexArray else z.current.vertexArray

/-- `GlBuffer::commit`, with the client memory it reads. -/
def GlBuffer.settle (m : Arena ShmBuffer) (x : GlBuffer) : GlBuffer :=
  match x.pending.data.bind m with
  | none => x
  | some shm => x.commit shm.data

namespace Scene

/-- The vertex arrays and the buffers a commit of the technique comes to. -/
def Touches (s : Scene) (z : GlBaseTechnique) : Holder → Prop
  | .vertexArray va => z.bound = some va
  | .buffer b =>
      (∃ va y, z.bound = some va ∧ s.glVertexArrays va = some y ∧
        ∃ e ∈ y.pending, e.2.glBuffer = some b) ∨
      z.pending.drawApiArgs.committedBuffer = some b
  | _ => False

/-- Of the buffers and the vertex arrays exactly those of `R` were committed. -/
structure Settles (R : Holder → Prop) (s s' : Scene) : Prop where
  memory : s'.shmBuffers = s.shmBuffers
  arrays : ∀ va, (R (.vertexArray va) →
      s'.glVertexArrays va = (s.glVertexArrays va).map GlVertexArray.commit) ∧
    (¬ R (.vertexArray va) → s'.glVertexArrays va = s.glVertexArrays va)
  buffers : ∀ b, (R (.buffer b) →
      s'.glBuffers b = (s.glBuffers b).map (GlBuffer.settle s.shmBuffers)) ∧
    (¬ R (.buffer b) → s'.glBuffers b = s.glBuffers b)
  sent : ∃ l, s'.events = s.events ++ l ∧ ∀ b x r, R (.buffer b) → s.glBuffers b = some x →
    x.pending.data = some r → (s.shmBuffers r).isSome → .bufferRelease r ∈ l

section Settles
variable {s s' s'' : Scene} {R R' : Holder → Prop}

theorem settle_settle (m : Arena ShmBuffer) (x : GlBuffer) :
    (x.settle m).settle m = x.settle m := by
  cases h : x.pending.data.bind m with
  | none => simp [GlBuffer.settle, h]
  | some shm => simp [GlBuffer.settle, h, GlBuffer.commit]

theorem map_settle (m : Arena ShmBuffer) (o : Option GlBuffer) :
    (o.map (GlBuffer.settle m)).map (GlBuffer.settle m) = o.map (GlBuffer.settle m) := by
  cases o <;> simp [settle_settle]

theorem Settles.trans (h : Settles R s s') (h' : Settles R' s' s'') :
    Settles (fun x => R x ∨ R' x) s s'' where
  memory := h'.memory.trans h.memory
  arrays := fun va => by
    have h1 := h.arrays va
    have h2 := h'.arrays va
    by_cases hr : R (.vertexArray va) <;> by_cases hr' : R' (.vertexArray va)
    · refine ⟨fun _ => ?_, fun hn => absurd (.inl hr) hn⟩
      rw [h2.1 hr', h1.1 hr, Option.map_map]
      rfl
    · exact ⟨fun _ => (h2.2 hr').trans (h1.1 hr), fun hn => absurd (.inl hr) hn⟩
    · refine ⟨fun _ => ?_, fun hn => absurd (.inr hr') hn⟩
      rw [h2.1 hr', h1.2 hr]
    · refine ⟨fun ho => ?_, fun _ => (h2.2 hr').trans (h1.2 hr)⟩
      exact absurd ho (not_or.mpr ⟨hr, hr'⟩)
  buffers := fun b => by
    have h1 := h.buffers b
    have h2 := h'.buffers b
    rw [h.memory] at h2
    by_cases hr : R (.buffer b) <;> by_cases hr' : R' (.buffer b)
    · refine ⟨fun _ => ?_, fun hn => absurd (.inl hr) hn⟩
      rw [h2.1 hr', h1.1 hr, map_settle]
    · exact ⟨fun _ => (h2.2 hr').trans (h1.1 hr), fun hn => absurd (.inl hr) hn⟩
    · refine ⟨fun _ => ?_, fun hn => absurd (.inr hr') hn⟩
      rw [h2.1 hr', h1.2 hr]
    · refine ⟨fun ho => ?_, fun _ => (h2.2 hr').trans (h1.2 hr)⟩
      exact absurd ho (not_or.mpr ⟨hr, hr'⟩)
  sent := by
    obtain ⟨l, hl, h1⟩ := h.sent
    obtain ⟨l', hl', h2⟩ := h'.sent
    refine ⟨l ++ l', by rw [hl', hl, List.append_assoc], fun b x r ho hx hd hm => ?_⟩
    by_cases hr : R (.buffer b)
    · exact List.mem_append_left _ (h1 b x r hr hx hd hm)
    · have hx' : s'.glBuffers b = some x := ((h.buffers b).2 hr).trans hx
      have hm' : (s'.shmBuffers r).isSome := by rw [h.memory]; exact hm
      exact List.mem_append_right _ (h2 b x r (ho.resolve_left hr) hx' hd hm')

theorem Settles.congr (h : Settles R s s') (hr : ∀ x, R' x ↔ R x) : Settles R' s s' := by
  have he : R' = R := funext fun x => propext (hr x)
  exact he ▸ h

/-- Neither a buffer nor a vertex array was committed. -/
theorem settles_none (hm : s'.shmBuffers = s.shmBuffers)
    (ha : s'.glVertexArrays = s.glVertexArrays) (hb : s'.glBuffers = s.glBuffers)
    (he : ∃ l, s'.events = s.events ++ l) : Settles (fun _ => False) s s' where
  memory := hm
  arrays := fun va => ⟨False.elim, fun _ => congrFun ha va⟩
  buffers := fun b => ⟨False.elim, fun _ => congrFun hb b⟩
  sent := by
    obtain ⟨l, hl⟩ := he
    exact ⟨l, hl, fun _ _ _ h => h.elim⟩

theorem Settles.refl (s : Scene) : Settles (fun _ => False) s s :=
  settles_none rfl rfl rfl ⟨[], by simp⟩

theorem crash_settles (s : Scene) (f : Fault) : Settles (fun _ => False) s (s.crash f) :=
  settles_none rfl rfl rfl ⟨[], by simp [crash]⟩

/-- A buffer without data that could be taken. -/
theorem Settles.idle (h : Settles (fun _ => False) s s') {b : ℕ}
    (hn : ∀ x r, s.glBuffers b = some x → x.pending.data = some r → s.shmBuffers r = none) :
    Settles (fun x => x = .buffer b) s s' where
  memory := h.memory
  arrays := fun va => ⟨fun hr => (by cases hr), fun _ => (h.arrays va).2 id⟩
  buffers := fun i => by
    have he := (h.buffers i).2 id
    refine ⟨fun hr => ?_, fun _ => he⟩
    cases hr
    rw [he]
    cases hx : s.glBuffers b with
    | none => rfl
    | some x =>
      have hb : x.pending.data.bind s.shmBuffers = none :=
        Option.bind_eq_none_iff.mpr fun r hr => hn x r hx hr
      simp [GlBuffer.settle, hb]
  sent := by
    obtain ⟨l, hl, -⟩ := h.sent
    refine ⟨l, hl, fun i x r hi hx hd hm => ?_⟩
    cases hi
    rw [hn x r hx hd] at hm
    cases hm

/-- Each round commits what it comes to. It brings no other round anything, and takes from another
only what it came to itself. -/
structure Fans {ι : Type} (f : Scene → ι → Scene) (R : Scene → ι → Holder → Prop) : Prop where
  settles : ∀ s i, Settles (R s i) s (f s i)
  down : ∀ s i j x, R (f s i) j x → R s j x
  up : ∀ s i j x, R s j x → R s i x ∨ R (f s i) j x

theorem Fans.foldl {ι : Type} {f : Scene → ι → Scene} {R : Scene → ι → Holder → Prop}
    (h : Fans f R) : Fans (fun s l => List.foldl f s l) (fun s l x => ∃ i ∈ l, R s i x) := by
  have down (l : List ι) (s : Scene) (j : ι) (x : Holder) (hr : R (l.foldl f s) j x) :
      R s j x := by
    induction l generalizing s with
    | nil => exact hr
    | cons i l ih => exact h.down s i j x (ih (f s i) hr)
  have up (l : List ι) (s : Scene) (j : ι) (x : Holder) (hr : R s j x) :
      (∃ i ∈ l, R s i x) ∨ R (l.foldl f s) j x := by
    induction l generalizing s with
    | nil => exact .inr hr
    | cons i l ih =>
      rcases h.up s i j x hr with hi | hj
      · exact .inl ⟨i, List.mem_cons_self, hi⟩
      · rcases ih (f s i) hj with ⟨k, hk, hx⟩ | hx
        · exact .inl ⟨k, List.mem_cons_of_mem i hk, h.down s i k x hx⟩
        · exact .inr hx
  have settles (l : List ι) (s : Scene) :
      Settles (fun x => ∃ i ∈ l, R s i x) s (l.foldl f s) := by
    induction l generalizing s with
    | nil => exact (Settles.refl s).congr fun x => by simp
    | cons i l ih =>
      refine ((h.settles s i).trans (ih (f s i))).congr fun x => ?_
      simp only [List.mem_cons, exists_eq_or_imp]
      constructor
      · rintro (hi | ⟨j, hj, hx⟩)
        · exact .inl hi
        · exact (h.up s i j x hx).imp_right fun hx => ⟨j, hj, hx⟩
      · rintro (hi | ⟨j, hj, hx⟩)
        · exact .inl hi
        · exact .inr ⟨j, hj, h.down s i j x hx⟩
  refine ⟨fun s l => settles l s, fun s l m x hr => ?_, fun s l m x hr => ?_⟩
  · obtain ⟨j, hj, hx⟩ := hr
    exact ⟨j, hj, down l s j x hx⟩
  · obtain ⟨j, hj, hx⟩ := hr
    exact (up l s j x hx).imp_right fun hx => ⟨j, hj, hx⟩

end Settles

section Leaves
variable (s : Scene)

theorem commitBuffer_settles (b : ℕ) : Settles (fun x => x = .buffer b) s (s.commitBuffer b) := by
  cases hx : s.glBuffers b with
  | none =>
    have he : s.commitBuffer b = s.crash .useAfterFree := by simp [commitBuffer, hx]
    rw [he]
    refine (crash_settles s _).idle fun x r hx' => ?_
    rw [hx] at hx'
    cases hx'
  | some x =>
    rcases commitBuffer_cases hx with ⟨he, hn⟩ | ⟨r, shm, hr, hm, he⟩
    · rw [he]
      refine (Settles.refl s).idle fun y r hy => ?_
      cases hx.symm.trans hy
      exact hn r
    · rw [he]
      refine ⟨rfl, fun va => ⟨fun h => (by cases h), fun _ => rfl⟩,
        fun i => ⟨fun h => ?_, fun h => ?_⟩, [.bufferRelease r], rfl, fun i y q hi hy hd _ => ?_⟩
      · cases h
        simp [hx, GlBuffer.settle, hr, hm]
      · have hi : i ≠ b := fun hi => h (hi ▸ rfl)
        simp [hi]
      · cases hi
        cases hx.symm.trans hy
        cases hr.symm.trans hd
        exact List.mem_singleton_self _

theorem commitWeakBuffer_settles (o : Option ℕ) :
    Settles (fun x => ∃ b, o = some b ∧ x = .buffer b) s (s.commitWeakBuffer o) := by
  unfold commitWeakBuffer
  split
  · next hl =>
    cases o with
    | none => exact (Settles.refl s).congr fun x => by simp
    | some b =>
      refine ((Settles.refl s).idle (b := b) fun x r hx => ?_).congr fun x => by simp
      rw [Arena.none_of_lock hl rfl] at hx
      cases hx
  · next b hl =>
    refine (commitBuffer_settles s b).congr fun x => ?_
    rw [(Arena.lock_eq_some.mp hl).1]
    simp

theorem postError_settles (i : ℕ) (code : ErrorCode) (text : String) :
    Settles (fun _ => False) s (s.postError i code text) := by
  rcases postError_cases s i code text with h | ⟨e, h⟩ <;> rw [h]
  · exact crash_settles s _
  · exact settles_none rfl rfl rfl ⟨[], by simp⟩

theorem commitTexture_settles (t : ℕ) : Settles (fun _ => False) s (s.commitTexture t) := by
  have h : Settles (fun _ => False) s (s.commitTextureData t) := by
    unfold commitTextureData
    split
    · exact crash_settles s _
    · split
      · exact .refl s
      · split
        · exact .refl s
        · exact settles_none rfl rfl rfl ⟨_, rfl⟩
  exact ⟨h.memory, h.arrays, h.buffers, h.sent⟩

theorem commitSampler_settles (p : ℕ) : Settles (fun _ => False) s (s.commitSampler p) := by
  unfold commitSampler
  split
  · exact crash_settles s _
  · exact settles_none rfl rfl rfl ⟨[], by simp⟩

theorem commitWeakProgram_settles (p : Option ℕ) :
    Settles (fun _ => False) s (s.commitWeakProgram p) := by
  unfold commitWeakProgram
  split
  · exact .refl s
  · unfold commitProgram
    split
    · exact crash_settles s _
    · next i _ _ x _ =>
      have h : Settles (fun _ => False) s (s.checkRelink i x) := by
        unfold checkRelink
        split
        · exact postError_settles ..
        · exact .refl s
      exact ⟨h.memory, h.arrays, h.buffers, h.sent⟩

end Leaves

theorem commitBuffers_settles (l : Table VertexAttribute) (s : Scene) :
    Settles (fun x => ∃ e ∈ l, ∃ b, e.2.glBuffer = some b ∧ x = .buffer b) s
      (l.foldl (fun s e => s.commitWeakBuffer e.2.glBuffer) s) := by
  have h : Fans (fun s e => s.commitWeakBuffer (Prod.snd e).glBuffer)
      (fun _ (e : UInt32 × VertexAttribute) x => ∃ b, e.2.glBuffer = some b ∧ x = .buffer b) :=
    ⟨fun s e => commitWeakBuffer_settles s e.2.glBuffer, fun _ _ _ _ h => h,
      fun _ _ _ _ h => .inr h⟩
  exact h.foldl.settles s l

/-- What is bound is committed, and with it the buffers of its attributes. -/
theorem commitWeakVertexArray_settles (s : Scene) (o : Option ℕ) :
    Settles (fun x => (∃ va, o = some va ∧ x = .vertexArray va) ∨
      ∃ va y, o = some va ∧ s.glVertexArrays va = some y ∧
        ∃ e ∈ y.pending, ∃ b, e.2.glBuffer = some b ∧ x = .buffer b) s
      (s.commitWeakVertexArray o) := by
  unfold commitWeakVertexArray
  split
  · next hl =>
    refine ⟨rfl, fun va => ⟨fun h => ?_, fun _ => rfl⟩, fun b => ⟨fun h => ?_, fun _ => rfl⟩,
      [], by simp, fun b x r hb => ?_⟩
    · rcases h with ⟨i, hi, h⟩ | ⟨i, y, -, -, e, -, b, -, h⟩
      · cases h
        rw [Arena.none_of_lock hl hi]
        rfl
      · cases h
    · rcases h with ⟨i, -, h⟩ | ⟨i, y, hi, hy, -⟩
      · cases h
      · rw [Arena.none_of_lock hl hi] at hy
        cases hy
    · rcases hb with ⟨i, -, h⟩ | ⟨i, y, hi, hy, -⟩
      · cases h
      · rw [Arena.none_of_lock hl hi] at hy
        cases hy
  · next va hl =>
    obtain ⟨rfl, hv⟩ := Arena.lock_eq_some.mp hl
    obtain ⟨y, hy⟩ := Option.isSome_iff_exists.mp hv
    have h1 : Settles (fun x => x = .vertexArray va) s
        { s with glVertexArrays := s.glVertexArrays.set va y.commit } := by
      refine ⟨rfl, fun i => ⟨fun h => ?_, fun h => ?_⟩,
        fun b => ⟨fun h => (by cases h), fun _ => rfl⟩,
        [], by simp, fun b x r h => (by cases h)⟩
      · cases h
        simp [hy]
      · have hi : i ≠ va := fun hi => h (hi ▸ rfl)
        simp [hi]
    rw [commitVertexArray, hy]
    refine (h1.trans (commitBuffers_settles y.pending _)).congr fun x => ?_
    simp [hy]

theorem commitBindings_settles (l : List TextureBinding) (s : Scene) :
    Settles (fun _ => False) s (l.foldl commitBinding s) := by
  have h : Fans commitBinding fun _ _ _ => False := by
    refine ⟨fun s b => ?_, fun _ _ _ _ h => h, fun _ _ _ _ h => .inl h⟩
    exact ((commitTexture_settles s b.texture).trans (commitSampler_settles _ b.sampler)).congr
      fun x => by simp
  exact (h.foldl.settles s l).congr fun x => by simp

theorem commitLeaves_settles (s : Scene) {x y : GlBaseTechnique}
    (hy : y.current.vertexArray = x.bound) : Settles (s.Touches x) s (s.commitLeaves x y) := by
  have h1 := commitWeakProgram_settles s y.current.program
  have h2 := commitWeakVertexArray_settles (s.commitWeakProgram y.current.program)
    y.current.vertexArray
  have hv (va : ℕ) : (s.commitWeakProgram y.current.program).glVertexArrays va =
      s.glVertexArrays va := (h1.arrays va).2 id
  have h3 := commitWeakBuffer_settles ((s.commitWeakProgram y.current.program).commitWeakVertexArray
    y.current.vertexArray) x.pending.drawApiArgs.committedBuffer
  refine (((h1.trans h2).trans h3).trans (commitBindings_settles _ _)).congr fun i => ?_
  simp only [hy, hv, false_or, or_false]
  cases i with
  | vertexArray va => simp [Touches]
  | buffer b => simp [Touches]
  | _ => simp [Touches]

theorem registerTechnique_settles (s : Scene) (t : ℕ) (z : GlBaseTechnique) :
    Settles (fun _ => False) s (s.registerTechnique t z) := by
  unfold registerTechnique setTechnique
  split
  · exact .refl s
  · split
    · exact crash_settles s _
    · split
      · exact postError_settles ..
      · exact settles_none rfl rfl rfl ⟨[], by simp⟩

/-- What a commit of the technique `t` comes to. -/
def TouchedBy (s : Scene) (t : ℕ) (x : Holder) : Prop :=
  ∃ z, s.baseTechniques t = some z ∧ s.Touches z x

theorem commitTechnique_settles (s : Scene) (t : ℕ) :
    Settles (s.TouchedBy t) s (s.commitTechnique t) := by
  cases hz : s.baseTechniques t with
  | none =>
    rw [commitTechnique, hz]
    exact (crash_settles s _).congr fun x => by simp [TouchedBy, hz]
  | some z =>
    have h1 := registerTechnique_settles s t z
    have h2 : Settles (fun _ => False) (s.registerTechnique t z)
        ((s.registerTechnique t z).storeTechnique t (z.commit s.bindingAlive)) :=
      settles_none rfl rfl rfl ⟨[], by simp [storeTechnique]⟩
    have h3 := commitLeaves_settles ((s.registerTechnique t z).storeTechnique t
      (z.commit s.bindingAlive)) (x := z) (y := z.commit s.bindingAlive) rfl
    have hv : ((s.registerTechnique t z).storeTechnique t
        (z.commit s.bindingAlive)).glVertexArrays =
        s.glVertexArrays := funext fun va => (h1.arrays va).2 id
    rw [commitTechnique, hz]
    refine ((h1.trans h2).trans h3).congr fun x => ?_
    cases x <;> simp [TouchedBy, hz, Touches, hv]

/-- A commit leaves the pending attributes of every vertex array alone. -/
theorem Settles.pending {s s' : Scene} {R : Holder → Prop} (h : Settles R s s') (va : ℕ) :
    (s'.glVertexArrays va).map GlVertexArray.pending =
      (s.glVertexArrays va).map GlVertexArray.pending := by
  by_cases hr : R (.vertexArray va)
  · rw [(h.arrays va).1 hr, Option.map_map]
    rfl
  · rw [(h.arrays va).2 hr]

theorem touches_congr {s s' : Scene} (h : ∀ va, (s'.glVertexArrays va).map GlVertexArray.pending =
      (s.glVertexArrays va).map GlVertexArray.pending) (z : GlBaseTechnique) (x : Holder) :
    s'.Touches z x ↔ s.Touches z x := by
  have he (s : Scene) (va b : ℕ) : (∃ y, s.glVertexArrays va = some y ∧
      ∃ e ∈ y.pending, e.2.glBuffer = some b) ↔
        ∃ l, (s.glVertexArrays va).map GlVertexArray.pending = some l ∧
          ∃ e ∈ l, e.2.glBuffer = some b := by
    simp only [Option.map_eq_some_iff]
    constructor
    · rintro ⟨y, hy, hb⟩
      exact ⟨_, ⟨y, hy, rfl⟩, hb⟩
    · rintro ⟨_, ⟨y, hy, rfl⟩, hb⟩
      exact ⟨y, hy, hb⟩
  cases x with
  | buffer b => simp only [Touches, exists_and_left, he, h]
  | _ => rfl

/-- A technique that is committed again comes to no more than the first time. -/
theorem touches_commit {s : Scene} {z : GlBaseTechnique} {alive : TextureBinding → Bool}
    {x : Holder} (h : s.Touches (z.commit alive) x) : s.Touches z x := by
  have hb : (z.commit alive).bound = z.bound := rfl
  cases x with
  | vertexArray va => exact h
  | buffer b =>
    refine Or.imp_right (fun h => ?_) h
    simp only [GlBaseTechnique.commit, TechniqueState.afterCommit, DrawApiArgs.afterCommit] at h
    split at h
    · cases h
    · exact h
  | _ => exact h

theorem techniques_fan : Fans commitTechnique TouchedBy where
  settles := commitTechnique_settles
  down := fun s i j x h => by
    obtain ⟨z', hz', h⟩ := h
    rw [touches_congr (commitTechnique_settles s i).pending] at h
    rw [commitTechnique_techniques, Arena.modify_apply] at hz'
    split at hz'
    · obtain ⟨z, hz, rfl⟩ := Option.map_eq_some_iff.mp hz'
      exact ⟨z, hz, touches_commit h⟩
    · exact ⟨z', hz', h⟩
  up := fun s i j x h => by
    by_cases hi : j = i
    · exact .inl (hi ▸ h)
    · obtain ⟨z, hz, h⟩ := h
      refine .inr ⟨z, ?_, (touches_congr (commitTechnique_settles s i).pending z x).mpr h⟩
      rw [commitTechnique_techniques, Arena.modify_of_ne _ _ hi]
      exact hz

theorem registerUnit_settles (s : Scene) (u : ℕ) (y : RenderingUnit) :
    Settles (fun _ => False) s (s.registerUnit u y) := by
  unfold registerUnit
  split
  · exact .refl s
  · rcases addRenderingUnit_cases s y.owner u with h | ⟨x, hx, h⟩ <;> rw [h]
    · exact settles_none rfl rfl rfl ⟨[], by simp [crash]⟩
    · exact settles_none rfl rfl rfl ⟨[], by simp⟩

theorem touchedBy_congr {s s' : Scene} {R : Holder → Prop} (h : Settles R s s')
    (ht : s'.baseTechniques = s.baseTechniques) (t : ℕ) (x : Holder) :
    s'.TouchedBy t x ↔ s.TouchedBy t x := by
  simp only [TouchedBy, ht, touches_congr h.pending]

/-- What a commit comes to through one of its listeners. -/
def TouchedThrough (s : Scene) : CommitListener → Holder → Prop
  | .unit u, x => ∃ y, s.renderingUnits u = some y ∧ ∃ t ∈ y.listeners, s.TouchedBy t x
  | .app _, _ => False

/-- The listeners of a unit are not changed by commits. -/
theorem listeners_of_skeleton {s s' : Scene} (h : s'.skeleton = s.skeleton) (u : ℕ) :
    (s'.renderingUnits u).map RenderingUnit.listeners =
      (s.renderingUnits u).map RenderingUnit.listeners := by
  have hm := congrFun (congrArg Scene.renderingUnits h) u
  simpa [skeleton, Function.comp_def, boneUnit] using
    congrArg (Option.map RenderingUnit.listeners) hm

theorem touchedThrough_unit {s : Scene} {u : ℕ} {x : Holder} :
    s.TouchedThrough (.unit u) x ↔ ∃ l, (s.renderingUnits u).map RenderingUnit.listeners = some l ∧
      ∃ t ∈ l, s.TouchedBy t x := by
  simp only [TouchedThrough, Option.map_eq_some_iff]
  constructor
  · rintro ⟨y, hy, h⟩
    exact ⟨_, ⟨y, hy, rfl⟩, h⟩
  · rintro ⟨_, ⟨y, hy, rfl⟩, h⟩
    exact ⟨y, hy, h⟩

theorem commitUnit_touchedBy (s : Scene) (u t : ℕ) (x : Holder) :
    ((s.commitUnit u).TouchedBy t x → s.TouchedBy t x) ∧
      (s.TouchedBy t x → s.TouchedThrough (.unit u) x ∨ (s.commitUnit u).TouchedBy t x) := by
  cases hy : s.renderingUnits u with
  | none =>
    have he : s.commitUnit u = s.crash .useAfterFree := by simp [commitUnit, hy]
    rw [he, touchedBy_congr (crash_settles s _) rfl]
    exact ⟨id, .inr⟩
  | some y =>
    have hr := touchedBy_congr (registerUnit_settles s u y) (registerUnit_techniques s u y)
    have he : s.commitUnit u = y.listeners.foldl commitTechnique (s.registerUnit u y) := by
      simp [commitUnit, hy]
    rw [he]
    have hf := techniques_fan.foldl
    constructor
    · intro h
      obtain ⟨i, hi, h⟩ := hf.down (s.registerUnit u y) y.listeners [t] x ⟨t, by simp, h⟩
      rw [List.mem_singleton.mp hi, hr] at h
      exact h
    · intro h
      rw [← hr] at h
      have h1 := hf.up (s.registerUnit u y) y.listeners [t] x ⟨t, by simp, h⟩
      rcases h1 with ⟨i, hi, h⟩ | ⟨i, hi, h⟩
      · exact .inl ⟨y, hy, i, hi, (hr i x).mp h⟩
      · rw [List.mem_singleton.mp hi] at h
        exact .inr h

theorem commitApp_settles (s : Scene) (b : ℕ) : Settles (fun _ => False) s (s.commitApp b) := by
  unfold commitApp
  split
  · exact crash_settles s _
  · exact settles_none rfl rfl rfl ⟨[], by simp⟩

theorem notifyCommitted_settles (s : Scene) (l : CommitListener) :
    Settles (s.TouchedThrough l) s (s.notifyCommitted l) := by
  cases l with
  | app b => exact commitApp_settles s b
  | unit u =>
    cases hy : s.renderingUnits u with
    | none =>
      rw [notifyCommitted, commitUnit, hy]
      exact (crash_settles s _).congr fun x => by simp [TouchedThrough, hy]
    | some y =>
      have h1 := registerUnit_settles s u y
      have hr := touchedBy_congr h1 (registerUnit_techniques s u y)
      rw [notifyCommitted, commitUnit, hy]
      refine (h1.trans (techniques_fan.foldl.settles _ y.listeners)).congr fun x => ?_
      simp [TouchedThrough, hy, hr]

theorem notifyCommitted_touchedBy (s : Scene) (l : CommitListener) (t : ℕ) (x : Holder) :
    ((s.notifyCommitted l).TouchedBy t x → s.TouchedBy t x) ∧
      (s.TouchedBy t x → s.TouchedThrough l x ∨ (s.notifyCommitted l).TouchedBy t x) := by
  cases l with
  | unit u => exact commitUnit_touchedBy s u t x
  | app b =>
    have ht : (s.commitApp b).baseTechniques = s.baseTechniques := by
      unfold commitApp
      split <;> rfl
    rw [notifyCommitted, touchedBy_congr (commitApp_settles s b) ht]
    exact ⟨id, .inr⟩

theorem listeners_fan : Fans notifyCommitted TouchedThrough where
  settles := notifyCommitted_settles
  down := fun s l m x h => by
    have hk := (notifyCommitted_commits (scope_true s) (l := l) trivial).skeleton
    cases m with
    | app b => exact h
    | unit u =>
      rw [touchedThrough_unit, listeners_of_skeleton hk] at h
      obtain ⟨ts, hts, t, ht, h⟩ := h
      exact touchedThrough_unit.mpr
        ⟨ts, hts, t, ht, (notifyCommitted_touchedBy s l t x).1 h⟩
  up := fun s l m x h => by
    have hk := (notifyCommitted_commits (scope_true s) (l := l) trivial).skeleton
    cases m with
    | app b => exact h.elim
    | unit u =>
      obtain ⟨ts, hts, t, ht, h⟩ := touchedThrough_unit.mp h
      refine ((notifyCommitted_touchedBy s l t x).2 h).imp_right fun h => ?_
      rw [touchedThrough_unit, listeners_of_skeleton hk]
      exact ⟨ts, hts, t, ht, h⟩

/-- The technique belongs to a unit of the virtual object. -/
def BelongsTo (s : Scene) (z : GlBaseTechnique) (v : ℕ) : Prop :=
  s.ownerOf (.unit z.owner) = some v

/-- What a commit of the virtual object comes to. -/
def TouchedFrom (s : Scene) (v : ℕ) (x : Holder) : Prop :=
  ∃ t z, s.baseTechniques t = some z ∧ s.BelongsTo z v ∧ s.Touches z x

/-- `VirtualObject::commit` commits the buffers and the vertex arrays its techniques come to, and
no others. -/
theorem commitState_settles {s : Scene} (hw : Wired s) {v : ℕ}
    (hv : (s.virtualObjects v).isSome) : Settles (s.TouchedFrom v) s (s.commitState v) := by
  obtain ⟨x, hx⟩ := Option.isSome_iff_exists.mp hv
  have h1 : Settles (fun _ => False) s
      { s with virtualObjects := s.virtualObjects.set v x.commit } :=
    settles_none rfl rfl rfl ⟨[], by simp⟩
  rw [commitState, hx]
  refine (h1.trans (listeners_fan.foldl.settles _ x.listeners)).congr fun i => ?_
  have hl : s.objectWiring.lists v = some x.listeners := by simp [objectWiring, hx]
  simp only [false_or]
  constructor
  · rintro ⟨t, z, hz, ho, h⟩
    have hm := (hw.objects.mem v _ (.unit z.owner) hl).mpr ho
    obtain ⟨y, hy, -⟩ := Option.map_eq_some_iff.mp ho
    have ht : t ∈ y.listeners :=
      (hw.units.mem z.owner y.listeners t (by simp [unitWiring, hy])).mpr (by simp [unitWiring, hz])
    exact ⟨_, hm, y, hy, t, ht, z, hz, h⟩
  · rintro ⟨l, hm, h⟩
    cases l with
    | app b => exact h.elim
    | unit u =>
      obtain ⟨y, hy, t, ht, z, hz, h⟩ := h
      have hu : s.unitWiring.owner t = some u :=
        (hw.units.mem u y.listeners t
          (by simp [unitWiring, show s.renderingUnits u = some y from hy])).mp ht
      have hz' : s.baseTechniques t = some z := hz
      obtain rfl : z.owner = u := by simpa [unitWiring, hz'] using hu
      exact ⟨t, z, hz, (hw.objects.mem v _ _ hl).mp hm, h⟩

end Scene
end Yaza
