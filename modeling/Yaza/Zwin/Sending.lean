import Yaza.Zwin.Serving

/-! The vertex attributes and sampler parameters that a sync which is not forced sends: exactly
those it comes to, since their flags are never taken back. -/
namespace Yaza

/-- The remote object and the key of a call that sends a vertex attribute or a sampler
parameter. -/
def Call.tableKey? : Call → Option (ℕ × UInt32)
  | .glEnableVertexAttribArray va index | .glDisableVertexAttribArray va index
  | .glVertexAttribPointer va index _ _ _ _ _ _ => some (va, index)
  | .glSamplerParameter p _ pname _ => some (p, pname)
  | _ => none

theorem Call.tableKey_of_technique {c : Call} {t : ℕ} (h : c.technique? = some t) :
    c.tableKey? = none := by
  cases c <;> first | rfl | cases h

/-- An attribute that was given a buffer was marked, and stays so. -/
def GlVertexArray.Flagged (x : GlVertexArray) : Prop :=
  ∀ e ∈ x.pending ++ x.current, e.2.glBuffer.isSome → e.2.glBufferChanged = true

/-- A parameter was marked, and stays so. -/
def GlSampler.Flagged (x : GlSampler) : Prop :=
  ∀ e ∈ x.pending ++ x.current, e.2.changed = true

namespace Scene

structure Flagged (s : Scene) : Prop where
  vertexArrays : s.glVertexArrays.All fun _ x => x.Flagged
  samplers : s.glSamplers.All fun _ x => x.Flagged

/-- What was sent so far. -/
def sent (s : Scene) : List (ℕ × UInt32) := s.remote.calls.filterMap Call.tableKey?

/-- The entries in `E` were sent, to the proxies of their objects, and no others. -/
structure Forwards (E : Holder → UInt32 → Prop) (s s' : Scene) : Prop where
  syncs : AllSyncs s s'
  sent : s'.fault = none → ∃ l, s'.sent = s.sent ++ l ∧
    (∀ e ∈ l, ∃ h p, E h e.2 ∧ s'.proxyOf h = some p ∧ e.1 = p.id) ∧
    ∀ h k, E h k → ∃ p, s'.proxyOf h = some p ∧ (p.id, k) ∈ l

section Forwards
variable {E E' : Holder → UInt32 → Prop} {s s' s'' : Scene}

theorem Forwards.trans (h : Forwards E s s') (h' : Forwards E' s' s'') :
    Forwards (fun x k => E x k ∨ E' x k) s s'' where
  syncs := Relation.ReflTransGen.trans h.syncs h'.syncs
  sent := fun hf => by
    obtain ⟨l, hl, h1, h2⟩ := h.sent (Syncs.fault_none h'.syncs hf)
    obtain ⟨l', hl', h3, h4⟩ := h'.sent hf
    refine ⟨l ++ l', by rw [hl', hl, List.append_assoc], fun e he => ?_, fun x k hx => ?_⟩
    · rcases List.mem_append.mp he with he | he
      · obtain ⟨x, p, hx, hp, hi⟩ := h1 e he
        exact ⟨x, p, .inl hx, Syncs.proxyOf h'.syncs hp, hi⟩
      · obtain ⟨x, p, hx, hp, hi⟩ := h3 e he
        exact ⟨x, p, .inr hx, hp, hi⟩
    · rcases hx with hx | hx
      · obtain ⟨p, hp, he⟩ := h2 x k hx
        exact ⟨p, Syncs.proxyOf h'.syncs hp, List.mem_append_left _ he⟩
      · obtain ⟨p, hp, he⟩ := h4 x k hx
        exact ⟨p, hp, List.mem_append_right _ he⟩

theorem Forwards.congr (h : Forwards E s s') (he : ∀ x k, E' x k ↔ E x k) : Forwards E' s s' := by
  have : E' = E := funext fun x => funext fun k => propext (he x k)
  exact this ▸ h

/-- Nothing is sent. -/
theorem forwards_nothing (h : AllSyncs s s') (he : s'.sent = s.sent) :
    Forwards (fun _ _ => False) s s' where
  syncs := h
  sent := fun _ => ⟨[], by rw [he, List.append_nil], by simp, fun _ _ h => h.elim⟩

theorem forwards_crash (h : AllSyncs s s') (hf : s'.fault ≠ none) : Forwards E s s' where
  syncs := h
  sent := fun hn => absurd hn hf

/-- The rounds of a loop, in whatever scene they find. -/
theorem Forwards.foldl {ι : Type} {f : Scene → ι → Scene} {G : ι → Holder → UInt32 → Prop}
    {l : List ι} (hf : ∀ s', AllSyncs s s' → ∀ a ∈ l, Forwards (G a) s' (f s' a)) :
    Forwards (fun x k => ∃ a ∈ l, G a x k) s (l.foldl f s) := by
  induction l generalizing s with
  | nil => exact (forwards_nothing .refl rfl).congr fun x k => by simp
  | cons a l ih =>
    have h1 := hf s .refl a List.mem_cons_self
    have h2 := ih (s := f s a) fun s' h b hb =>
      hf s' (Relation.ReflTransGen.trans h1.syncs h) b (List.mem_cons_of_mem a hb)
    exact (h1.trans h2).congr fun x k => by simp

theorem call_sent (s : Scene) {c : Call} (hc : c.tableKey? = none) : (s.call c).sent = s.sent := by
  simp [sent, call, Remote.call, hc]

theorem withRemoteId_sent {h : Holder} {k : ℕ → Scene} (hk : ∀ id, (k id).sent = s.sent) :
    (s.withRemoteId h k).sent = s.sent := by
  unfold withRemoteId
  split
  · rfl
  · exact hk _

theorem ensureProxy_sent (s : Scene) (h : Holder) (mk : ℕ → Call)
    (hm : ∀ id, (mk id).tableKey? = none) : (s.ensureProxy h mk).sent = s.sent := by
  unfold ensureProxy
  split
  · rfl
  · split
    · rfl
    · next p r hr =>
      obtain ⟨channel, -, -, rfl⟩ := create_eq_some hr
      simp [sent, hm]

/-- What follows on the id of a proxy that is there while the program runs. -/
theorem Forwards.withRemoteId {h : Holder} (hp : s.Ready h) {k : ℕ → Scene}
    (hk : ∀ p, s.proxyOf h = some p → Forwards E s (k p.id)) :
    Forwards E s (s.withRemoteId h k) := by
  unfold Scene.withRemoteId
  split
  · next hn =>
    have hf : s.fault ≠ none := fun hf => by
      have := hp hf
      rw [hn] at this
      cases this
    rw [crash_of_fault (Option.isSome_iff_ne_none.mpr hf)]
    exact forwards_crash .refl hf
  · next p hq => exact hk p hq

/-- A call that sends an entry of the object. -/
theorem withRemoteId_forwards {h : Holder} (hp : s.Ready h) (mk : ℕ → Call) (key : UInt32)
    (hm : ∀ id, (mk id).tableKey? = some (id, key)) (hn : ∀ id, (mk id).shader? = none) :
    Forwards (fun x k => x = h ∧ k = key) s (s.withRemoteId h fun id => s.call (mk id)) := by
  have hk : AllSyncs s (s.withRemoteId h fun id => s.call (mk id)) :=
    withRemoteId_syncs hp fun _ _ => call_syncs s trivial (hn _)
  refine ⟨hk, fun hf => ?_⟩
  obtain ⟨p, hq, he⟩ := withRemoteId_running hf
  rw [he]
  refine ⟨[(p.id, key)], by simp [sent, call, Remote.call, hm], fun e h1 => ?_, fun x k hx => ?_⟩
  · rw [List.mem_singleton.mp h1]
    exact ⟨h, p, ⟨rfl, rfl⟩, hq, rfl⟩
  · obtain ⟨rfl, rfl⟩ := hx
    exact ⟨p, hq, List.mem_singleton_self _⟩

end Forwards

section Silent
variable (s : Scene)

theorem tellBuffer_sent (b : ℕ) (x : GlBuffer.Current) : (s.tellBuffer b x).sent = s.sent :=
  withRemoteId_sent fun _ => call_sent s rfl

theorem syncBuffer_sent (b : ℕ) (force : Bool) : (s.syncBuffer b force).sent = s.sent := by
  have h1 := ensureProxy_sent s (.buffer b) .createGlBuffer fun _ => rfl
  unfold syncBuffer
  split
  · rfl
  · split
    · exact h1
    · exact (tellBuffer_sent _ b _).trans h1

theorem tellImage_sent (t : ℕ) (x : GlTexture.Current) (force : Bool) :
    (s.tellImage t x force).sent = s.sent := by
  unfold tellImage
  split
  · exact withRemoteId_sent fun _ => call_sent s rfl
  · rfl

theorem tellMipmap_sent (t : ℕ) (x : GlTexture.Current) (force : Bool) :
    (s.tellMipmap t x force).sent = s.sent := by
  unfold tellMipmap
  split
  · exact withRemoteId_sent fun _ => call_sent s rfl
  · rfl

theorem syncTexture_sent (t : ℕ) (force : Bool) : (s.syncTexture t force).sent = s.sent := by
  unfold syncTexture
  split
  · rfl
  · rw [tellMipmap_sent, tellImage_sent]
    exact ensureProxy_sent s _ _ fun _ => rfl

theorem syncShader_sent (h : ℕ) : (s.syncShader h).sent = s.sent := by
  unfold syncShader
  split
  · rfl
  · split
    · rfl
    · split
      · rfl
      · exact ensureProxy_sent s _ _ fun _ => rfl

theorem syncAttached_sent (p : ℕ) (shouldAttach : Bool) (h : ℕ) :
    (syncAttached p shouldAttach s h).sent = s.sent := by
  refine Eq.trans ?_ (syncShader_sent s h)
  unfold syncAttached tellAttach
  split
  · exact withRemoteId_sent fun _ => withRemoteId_sent fun _ => call_sent _ rfl
  · rfl

theorem syncProgram_sent (p : ℕ) (force : Bool) : (s.syncProgram p force).sent = s.sent := by
  unfold syncProgram
  split
  · rfl
  · next x hx =>
    have h1 := ensureProxy_sent s (.program p) .createGlProgram fun _ => rfl
    have h2 := Path.foldl_const (g := sent) (P := fun _ _ => True)
      (f := syncAttached p (force || x.current.shouldLink))
      (l := x.current.shaders.filter s.shaderAlive)
      (s := (s.ensureProxy (.program p) .createGlProgram).dropExpiredShaders p)
      (fun s h _ => syncAttached_sent s p _ h) (fun _ _ _ _ _ => trivial) fun _ _ => trivial
    refine Eq.trans ?_ (h2.trans h1)
    unfold tellLink
    split
    · exact withRemoteId_sent fun _ => call_sent _ rfl
    · rfl

theorem callAll_sent {cs : List Call} (hc : ∀ c ∈ cs, c.tableKey? = none) :
    (s.callAll cs).sent = s.sent := by
  have h : cs.filterMap Call.tableKey? = [] := List.filterMap_eq_nil_iff.mpr hc
  simp [sent, callAll, h]

theorem syncDraw_sent (technique : ℕ) (d : DrawApiArgs) (force : Bool) :
    (s.syncDraw technique d force).sent = s.sent := by
  unfold syncDraw
  split
  · rfl
  · split
    · exact call_sent s rfl
    · rfl
  · next b _ =>
    split
    · refine Eq.trans ?_ (syncBuffer_sent s b force)
      unfold tellElements
      split
      · exact withRemoteId_sent fun _ => call_sent _ rfl
      · rfl
    · rfl

end Silent

section Tables
variable {s : Scene} (hs : s.remote.hasSession)
include hs

/-- One round of `GlVertexArray::sync`. -/
theorem syncAttribute_forwards {va : ℕ} (hp : s.Ready (.vertexArray va))
    {e : UInt32 × VertexAttribute}
    (hf : e.2.glBuffer.isSome → e.2.glBufferChanged = true) :
    Forwards (fun h k => (s.glBuffers.lock e.2.glBuffer).isSome ∧ h = .vertexArray va ∧ k = e.1)
      s (syncAttribute va false s e) := by
  unfold syncAttribute
  split
  · next hl =>
    refine (forwards_nothing .refl rfl).congr fun h k => ?_
    simp [hl]
  · next b hl =>
    obtain ⟨k1, r1⟩ := syncBuffer_syncs (A := fun _ => True) (C := fun _ => True)
      (fun _ _ => trivial) hs b false
    have h1 := forwards_nothing k1 (syncBuffer_sent s b false)
    have p1 := k1.ready hp
    have hc : e.2.glBufferChanged = true := hf (by rw [(Arena.lock_eq_some.mp hl).1]; rfl)
    have h2 : Forwards (fun h k => e.2.enabilityChanged ∧ h = .vertexArray va ∧ k = e.1)
        (s.syncBuffer b false) ((s.syncBuffer b false).tellEnability va e.1 e.2 false) := by
      unfold tellEnability
      cases he : e.2.enabilityChanged with
      | false => exact (forwards_nothing .refl rfl).congr fun h k => by simp
      | true =>
        refine (withRemoteId_forwards p1 (fun id =>
          if e.2.enabled then .glEnableVertexAttribArray id e.1
          else .glDisableVertexAttribArray id e.1) e.1 (fun id => ?_) fun id => ?_).congr
          fun h k => by simp
        · split <;> rfl
        · split <;> rfl
    have p2 := h2.syncs.ready p1
    have r2 := h2.syncs.ready r1
    have h3 : Forwards (fun h k => h = .vertexArray va ∧ k = e.1)
        ((s.syncBuffer b false).tellEnability va e.1 e.2 false)
        (((s.syncBuffer b false).tellEnability va e.1 e.2 false).tellPointer va b e.1 e.2 false)
        := by
      generalize (s.syncBuffer b false).tellEnability va e.1 e.2 false = s₂ at p2 r2
      refine ⟨tellPointer_syncs (fun _ _ => trivial) p2 r2 e.1 e.2 false, fun hn => ?_⟩
      unfold tellPointer at hn ⊢
      simp only [hc, Bool.or_true, if_true] at hn ⊢
      obtain ⟨p, hp, h4⟩ := withRemoteId_running hn
      rw [h4] at hn
      obtain ⟨q, hq, h5⟩ := withRemoteId_running hn
      rw [h4, h5]
      refine ⟨[(p.id, e.1)], by simp [sent, call, Remote.call, Call.tableKey?], fun x hx => ?_,
        fun h k hx => ?_⟩
      · rw [List.mem_singleton.mp hx]
        exact ⟨_, p, ⟨rfl, rfl⟩, hp, rfl⟩
      · obtain ⟨rfl, rfl⟩ := hx
        exact ⟨p, hp, List.mem_singleton_self _⟩
    refine ((h1.trans h2).trans h3).congr fun h k => ?_
    simp [hl]

/-- `GlVertexArray::sync`. -/
theorem syncVertexArray_forwards (hf : s.Flagged) (va : ℕ) :
    Forwards (fun h k => h = .vertexArray va ∧ k ∈ s.keys h) s (s.syncVertexArray va false) := by
  cases hx : s.glVertexArrays va with
  | none =>
    have he : s.syncVertexArray va false = s.crash .useAfterFree := by
      rw [syncVertexArray, hx]
    rw [he]
    exact forwards_crash (crash_syncs s) (crash_running s _)
  | some x =>
    rw [syncVertexArray, hx]
    have k1 : AllSyncs s (s.ensureProxy (.vertexArray va) .createGlVertexArray) :=
      ensureProxy_syncs hs (by simp) trivial rfl
    have r1 : (s.ensureProxy (.vertexArray va) .createGlVertexArray).Ready (.vertexArray va) :=
      ensureProxy_ready hs (by simp [live, hx])
    have h1 := forwards_nothing k1
      (ensureProxy_sent s (.vertexArray va) .createGlVertexArray fun _ => rfl)
    have h2 : Forwards (fun h k => ∃ e ∈ x.current, (s.glBuffers.lock e.2.glBuffer).isSome ∧
        h = .vertexArray va ∧ k = e.1) (s.ensureProxy (.vertexArray va) .createGlVertexArray)
        (x.current.foldl (syncAttribute va false)
          (s.ensureProxy (.vertexArray va) .createGlVertexArray)) := by
      refine Forwards.foldl fun s' h e he => ?_
      have k2 := Relation.ReflTransGen.trans k1 h
      have hl (o : Option ℕ) : s'.glBuffers.lock o = s.glBuffers.lock o := by
        have hl (i : ℕ) : (s'.glBuffers i).isSome = (s.glBuffers i).isSome :=
          Syncs.live k2 (.buffer i)
        simp only [Arena.lock, hl]
      refine (syncAttribute_forwards ((Syncs.hasSession k2).trans hs) (Syncs.ready h r1) ?_).congr
        fun h k => by rw [hl]
      exact hf.vertexArrays va x hx e (List.mem_append_right _ he)
    refine (h1.trans h2).congr fun h k => ?_
    constructor
    · rintro ⟨rfl, hk⟩
      simp only [keys, hx, Option.map_some, Option.getD_some, List.mem_map, List.mem_filter] at hk
      obtain ⟨e, ⟨he, hl⟩, rfl⟩ := hk
      exact .inr ⟨e, he, hl, rfl, rfl⟩
    · rintro (h | ⟨e, he, hl, rfl, rfl⟩)
      · exact h.elim
      · refine ⟨rfl, ?_⟩
        simp only [keys, hx, Option.map_some, Option.getD_some, List.mem_map, List.mem_filter]
        exact ⟨e, ⟨he, hl⟩, rfl⟩

/-- `GlSampler::sync`. -/
theorem syncSampler_forwards (hf : s.Flagged) (p : ℕ) :
    Forwards (fun h k => h = .sampler p ∧ k ∈ s.keys h) s (s.syncSampler p false) := by
  cases hx : s.glSamplers p with
  | none =>
    have he : s.syncSampler p false = s.crash .useAfterFree := by
      rw [syncSampler, hx]
    rw [he]
    exact forwards_crash (crash_syncs s) (crash_running s _)
  | some x =>
    rw [syncSampler, hx]
    have k1 : AllSyncs s (s.ensureProxy (.sampler p) .createGlSampler) :=
      ensureProxy_syncs hs (by simp) trivial rfl
    have r1 : (s.ensureProxy (.sampler p) .createGlSampler).Ready (.sampler p) :=
      ensureProxy_ready hs (by simp [live, hx])
    have h1 := forwards_nothing k1
      (ensureProxy_sent s (.sampler p) .createGlSampler fun _ => rfl)
    have h2 : Forwards (fun h k => ∃ e ∈ x.current, h = .sampler p ∧ k = e.1)
        (s.ensureProxy (.sampler p) .createGlSampler)
        (x.current.foldl (tellParameter p false)
          (s.ensureProxy (.sampler p) .createGlSampler)) := by
      apply Forwards.foldl
      intro s' h e he
      have hc := hf.samplers p x hx e (List.mem_append_right _ he)
      unfold tellParameter
      simp only [hc, Bool.not_true, Bool.and_false, Bool.false_eq_true, if_false]
      split
      · exact withRemoteId_forwards (Syncs.ready h r1) _ e.1 (fun _ => rfl) fun _ => rfl
      · exact forwards_crash (.single (.crash s' _ (.inr rfl))) (crash_running s' _)
    apply (h1.trans h2).congr
    intro h k
    constructor
    · rintro ⟨rfl, hk⟩
      simp only [keys, hx, Option.map_some, Option.getD_some, List.mem_map] at hk
      obtain ⟨e, he, rfl⟩ := hk
      exact .inr ⟨e, he, rfl, rfl⟩
    · rintro (h | ⟨e, he, rfl, rfl⟩)
      · exact h.elim
      · refine ⟨rfl, ?_⟩
        simp only [keys, hx, Option.map_some, Option.getD_some, List.mem_map]
        exact ⟨e, he, rfl⟩

end Tables

/-- Tables are marked as before. -/
theorem Flagged.of_content {s s' : Scene} (h : s'.content = s.content) (hf : s.Flagged) :
    s'.Flagged where
  vertexArrays := fun va x' hx' => by
    obtain ⟨x, hx, he⟩ := Arena.of_mapAll (congrArg Scene.glVertexArrays h) hx'
    have hp : x.pending = x'.pending := (congrArg GlVertexArray.pending he :)
    have hc : x.current = x'.current := (congrArg GlVertexArray.current he :)
    simpa only [GlVertexArray.Flagged, hp, hc] using hf.vertexArrays va x hx
  samplers := fun p x' hx' => by
    obtain ⟨x, hx, he⟩ := Arena.of_mapAll (congrArg Scene.glSamplers h) hx'
    have hp : x.pending = x'.pending := (congrArg GlSampler.pending he :)
    have hc : x.current = x'.current := (congrArg GlSampler.current he :)
    simpa only [GlSampler.Flagged, hp, hc] using hf.samplers p x hx

theorem AllSyncs.flagged {s s' : Scene} (h : AllSyncs s s') (hf : s.Flagged) : s'.Flagged :=
  hf.of_content (Syncs.content h)

section Techniques
variable {s : Scene} (hs : s.remote.hasSession)
include hs

omit hs in
/-- A call on the technique after the sync of what is bound. -/
theorem Forwards.tell {E : Holder → UInt32 → Prop} {s' s'' : Scene} (h : Forwards E s s')
    (h' : AllSyncs s' s'') (he : s''.sent = s'.sent) : Forwards E s s'' :=
  (h.trans (forwards_nothing h' he)).congr fun _ _ => by simp

theorem syncBoundVertexArray_forwards (hf : s.Flagged) (technique : ℕ) (x : TechniqueState) :
    Forwards (fun h k => (∃ va, s.glVertexArrays.lock x.vertexArray = some va ∧
        h = .vertexArray va) ∧ k ∈ s.keys h)
      s (s.syncBoundVertexArray technique x false) := by
  unfold syncBoundVertexArray
  split
  · next hl =>
    exact (forwards_nothing .refl rfl).congr fun h k => by simp [hl]
  · next va hl =>
    obtain ⟨-, r1⟩ := syncVertexArray_syncs (A := fun _ => True) (C := fun _ => True)
      (fun _ _ => trivial) hs va false
    have h1 := syncVertexArray_forwards hs hf va
    have h2 : Forwards (fun h k => h = .vertexArray va ∧ k ∈ s.keys h) s
        ((s.syncVertexArray va false).tellVertexArray technique va
          (false || x.vertexArrayChanged)) := by
      unfold tellVertexArray
      split
      · apply h1.tell
        · exact withRemoteId_syncs r1 fun _ _ => call_syncs _ trivial rfl
        · exact withRemoteId_sent fun _ => call_sent _ rfl
      · exact h1
    exact h2.congr fun h k => by simp [hl]

theorem syncBoundProgram_forwards (technique : ℕ) (x : TechniqueState) :
    Forwards (fun _ _ => False) s (s.syncBoundProgram technique x false) := by
  apply forwards_nothing
  · exact syncBoundProgram_syncs (fun _ _ => trivial) (fun _ _ => trivial) hs x false
  · unfold syncBoundProgram
    split
    · rfl
    · next p _ =>
      refine Eq.trans ?_ (syncProgram_sent s p false)
      unfold tellProgram
      split
      · exact withRemoteId_sent fun _ => call_sent _ rfl
      · rfl

theorem syncTextureBinding_forwards (hf : s.Flagged) (technique : ℕ) (changed : Bool)
    (b : TextureBinding) :
    Forwards (fun h k => h = .sampler b.sampler ∧ k ∈ s.keys h) s
      (syncTextureBinding technique false changed s b) := by
  obtain ⟨k1, r1⟩ := syncTexture_syncs (A := fun _ => True) (C := fun _ => True)
    (fun _ _ => trivial) hs b.texture false
  have s1 := k1.hasSession.trans hs
  obtain ⟨k2, r2⟩ := syncSampler_syncs (A := fun _ => True) (C := fun _ => True)
    (fun _ _ => trivial) s1 b.sampler false
  have h1 := forwards_nothing k1 (syncTexture_sent s b.texture false)
  have h2 : Forwards (fun h k => h = .sampler b.sampler ∧ k ∈ s.keys h) s
      ((s.syncTexture b.texture false).syncSampler b.sampler false) := by
    apply (h1.trans (syncSampler_forwards s1 (AllSyncs.flagged k1 hf) b.sampler)).congr
    intro h k
    rw [keys_of_content (Syncs.content k1)]
    simp
  unfold syncTextureBinding tellTexture
  split
  · apply h2.tell
    · exact withRemoteId_syncs (k2.ready r1) fun _ _ => withRemoteId_syncs r2 fun _ _ =>
        call_syncs _ trivial rfl
    · exact withRemoteId_sent fun _ => withRemoteId_sent fun _ => call_sent _ rfl
  · exact h2

theorem syncTextureBindings_forwards (hf : s.Flagged) (t technique : ℕ) (l : TextureBindingList) :
    Forwards (fun h k => (∃ b ∈ (l.removeExpired s.bindingAlive).list, h = .sampler b.sampler) ∧
        k ∈ s.keys h)
      s (s.syncTextureBindings t technique l false) := by
  have k1 : AllSyncs s (s.dropExpired t) := .single (.dropExpired s t)
  have h1 := forwards_nothing k1 rfl
  have h2 : Forwards (fun h k => ∃ b ∈ (l.removeExpired s.bindingAlive).list,
      h = .sampler b.sampler ∧ k ∈ s.keys h) (s.dropExpired t)
      ((l.removeExpired s.bindingAlive).list.foldl
        (syncTextureBinding technique false l.changed) (s.dropExpired t)) := by
    apply Forwards.foldl
    intro s' h b _
    have k2 : AllSyncs s s' := Relation.ReflTransGen.trans k1 h
    apply (syncTextureBinding_forwards ((Syncs.hasSession k2).trans hs) (AllSyncs.flagged k2 hf)
      technique l.changed b).congr
    intro h k
    rw [keys_of_content (Syncs.content k2)]
  apply (h1.trans h2).congr
  intro h k
  constructor
  · rintro ⟨⟨b, hb, rfl⟩, hk⟩
    exact .inr ⟨b, hb, rfl, hk⟩
  · rintro (h | ⟨b, hb, rfl, hk⟩)
    · exact h.elim
    · exact ⟨⟨b, hb, rfl⟩, hk⟩

/-- The sync of a technique, once its proxy is there. -/
theorem syncState_forwards (hf : s.Flagged) (t technique : ℕ) (x : TechniqueState) :
    Forwards (fun h k => h ∈ s.tables x ∧ k ∈ s.keys h) s
      (s.syncState t technique x false) := by
  have h1 := syncBoundVertexArray_forwards hs hf technique x
  have s1 := (Syncs.hasSession h1.syncs).trans hs
  have h2 := h1.trans (syncBoundProgram_forwards s1 technique x)
  have s2 := (Syncs.hasSession h2.syncs).trans hs
  have h3 := h2.trans (syncTextureBindings_forwards s2 (AllSyncs.flagged h2.syncs hf) t technique
    x.textureBindings)
  have s3 := (Syncs.hasSession h3.syncs).trans hs
  have k4 : AllSyncs _ ((((s.syncBoundVertexArray technique x false).syncBoundProgram technique x
      false).syncTextureBindings t technique x.textureBindings false).callAll
        (UniformVariableList.syncCalls technique false x.uniformVars)) :=
    callAll_syncs _ (syncCalls_spec (fun _ _ => trivial) false x.uniformVars)
  have h4 := h3.tell k4 (callAll_sent _ fun c hc => by
    obtain ⟨i, hi⟩ : ∃ i, c.technique? = some i :=
      ⟨technique, (syncCalls_spec (C := fun c => c.technique? = some technique)
        (fun _ h => h) false x.uniformVars c hc).1⟩
    exact Call.tableKey_of_technique hi)
  have s4 := (Syncs.hasSession h4.syncs).trans hs
  have h5 := h4.tell (syncDraw_syncs (fun _ _ => trivial) (fun _ _ => trivial) s4 x.drawApiArgs
    false) (syncDraw_sent _ technique x.drawApiArgs false)
  have hc := Syncs.content h2.syncs
  refine Forwards.congr h5 fun h k => ?_
  rw [bindingAlive_of_content hc, keys_of_content hc]
  simp only [tables, List.mem_append, List.mem_map, Option.mem_toList]
  constructor
  · rintro ⟨⟨va, hl, rfl⟩ | ⟨b, hb, rfl⟩, hk⟩
    · exact .inl (.inl ⟨⟨va, hl, rfl⟩, hk⟩)
    · exact .inr ⟨⟨b, hb, rfl⟩, hk⟩
  · rintro ((⟨⟨va, hl, rfl⟩, hk⟩ | h) | ⟨⟨b, hb, rfl⟩, hk⟩)
    · exact ⟨.inl ⟨va, hl, rfl⟩, hk⟩
    · exact h.elim
    · exact ⟨.inr ⟨b, hb, rfl⟩, hk⟩

omit hs in
/-- The technique comes to the entry. -/
def Carries (s : Scene) (t : ℕ) (h : Holder) (k : UInt32) : Prop :=
  ∃ z, s.baseTechniques t = some z ∧ h ∈ s.tables z.current ∧ k ∈ s.keys h

omit hs in
theorem carries_of_content {s' : Scene} (hc : s'.content = s.content) {t : ℕ} {h : Holder}
    {k : UInt32} : s'.Carries t h k ↔ s.Carries t h k := by
  have tables {z z' : GlBaseTechnique}
      (he : bareTechnique s.bindingAlive z = bareTechnique s.bindingAlive z') :
      h ∈ s'.tables z'.current ↔ h ∈ s.tables z.current := by
    rw [mem_tables, mem_tables, live_of_content hc, comes_of_content hc he]
  constructor
  · rintro ⟨z', hz', hh, hk⟩
    obtain ⟨z, hz, he⟩ := technique_of_content hc hz'
    exact ⟨z, hz, (tables he).mp hh, keys_of_content hc h ▸ hk⟩
  · rintro ⟨z, hz, hh, hk⟩
    obtain ⟨z', hz', he⟩ := technique_of_content hc.symm hz
    rw [bindingAlive_of_content hc] at he
    exact ⟨z', hz', (tables he.symm).mpr hh, (keys_of_content hc h).symm ▸ hk⟩

omit hs in
theorem ensureTechnique_sent (s : Scene) (t : ℕ) (z : GlBaseTechnique) :
    (s.ensureTechnique t z).sent = s.sent := by
  unfold ensureTechnique
  split
  · rfl
  · split
    · exact withRemoteId_sent fun _ => ensureProxy_sent s _ _ fun _ => rfl
    · rfl

omit hs in
theorem ensureUnit_sent (s : Scene) (u : ℕ) (y : RenderingUnit) :
    (s.ensureUnit u y).sent = s.sent := by
  unfold ensureUnit
  split
  · rfl
  · split
    · exact withRemoteId_sent fun _ => ensureProxy_sent s _ _ fun _ => rfl
    · rfl

/-- `GlBaseTechnique::sync`. -/
theorem syncTechnique_forwards (hf : s.Flagged) {t : ℕ} {z : GlBaseTechnique}
    (hz : s.baseTechniques t = some z) (hu : s.Ready (.renderingUnit z.owner)) :
    Forwards (s.Carries t) s (s.syncTechnique t false) := by
  have k1 : AllSyncs s (s.ensureTechnique t z) :=
    ensureTechnique_syncs hs hu trivial fun _ _ _ _ => trivial
  have h1 := forwards_nothing k1 (ensureTechnique_sent s t z)
  have s1 := k1.hasSession.trans hs
  have he : s.syncTechnique t false = (s.ensureTechnique t z).syncTechniqueState t z.current
      false := by rw [syncTechnique, hz]
  rw [he, syncTechniqueState]
  have h2 : Forwards (s.Carries t) (s.ensureTechnique t z)
      ((s.ensureTechnique t z).withRemoteId (.baseTechnique t) fun technique =>
        (s.ensureTechnique t z).syncState t technique z.current false) := by
    apply Forwards.withRemoteId (ensureTechnique_ready hs hz)
    intro p _
    apply (syncState_forwards s1 (AllSyncs.flagged k1 hf) t p.id z.current).congr
    intro h k
    have hc := Syncs.content k1
    rw [mem_tables, live_of_content hc, comes_congr (AllSyncs.bindingAlive k1), ← mem_tables,
      keys_of_content hc]
    simp [Carries, hz]
  exact (h1.trans h2).congr fun h k => by simp

/-- `RenderingUnit::sync`. -/
theorem syncUnit_forwards (hf : s.Flagged) (hk : SlotOk s) {u : ℕ}
    (hv : ∀ y, s.renderingUnits u = some y → s.Ready (.virtualObject y.owner)) :
    Forwards (fun h k => ∃ t, (s.renderingUnits u).bind RenderingUnit.technique = some t ∧
      s.Carries t h k) s (syncUnit false s u) := by
  cases hy : s.renderingUnits u with
  | none =>
    rw [syncUnit, hy]
    exact forwards_crash (crash_syncs s) (crash_running s _)
  | some y =>
    have k1 : AllSyncs s (s.ensureUnit u y) := ensureUnit_syncs (fun _ _ => trivial) hs (hv y hy)
    have h1 := forwards_nothing k1 (ensureUnit_sent s u y)
    cases ht : y.technique with
    | none =>
      simp only [syncUnit, hy, ht]
      exact h1.congr fun h k => by simp [ht]
    | some t =>
      simp only [syncUnit, hy, ht]
      obtain ⟨z, hz, hzu⟩ := hk u y t hy ht
      have hz1 : (s.ensureUnit u y).baseTechniques t = some z := by
        rw [ensureUnit_techniques]
        exact hz
      have hr : (s.ensureUnit u y).Ready (.renderingUnit z.owner) := by
        rw [hzu]
        exact ensureUnit_ready hs hy
      apply (h1.trans (syncTechnique_forwards (k1.hasSession.trans hs)
        (AllSyncs.flagged k1 hf) hz1 hr)).congr
      intro h k
      rw [carries_of_content (Syncs.content k1)]
      simp [ht]

end Techniques

/-- `VirtualObject::sync` sends the entries that it comes to, and no others. -/
theorem syncVirtualObject_forwards {s : Scene} (hs : s.remote.hasSession)
    (hg : s.forest.Registered) (hf : s.Flagged) {v : ℕ} {x : VirtualObject}
    (hx : s.virtualObjects v = some x) (ha : x.app.isSome) :
    Forwards (fun h k => (h, k) ∈ s.entries v) s (s.syncVirtualObject v false) := by
  obtain ⟨b, hb⟩ := Option.isSome_iff_exists.mp ha
  have i0 := syncStart hs hg hx
  have k1 : AllSyncs s (s.ensureProxy (.virtualObject v) .createVirtualObject) :=
    ensureProxy_syncs hs (by simp) trivial rfl
  have h1 := forwards_nothing k1 (ensureProxy_sent s (.virtualObject v) .createVirtualObject
    fun _ => rfl)
  have he : s.syncVirtualObject v false =
      (s.ensureProxy (.virtualObject v) .createVirtualObject).syncParts v b x.renderingUnitList
        false := by simp only [syncVirtualObject, hx, hb]
  generalize s.ensureProxy (.virtualObject v) .createVirtualObject = s₁ at i0 k1 h1 he
  rw [he, syncParts]
  split
  · exact forwards_crash (k1.tail (.crash _ _ (.inl rfl))) (crash_running _ _)
  · next app _ =>
    have h5 : Forwards (fun h k => ∃ u ∈ x.renderingUnitList, ∃ t,
        (s.renderingUnits u).bind RenderingUnit.technique = some t ∧ s.Carries t h k) s₁
        (s₁.withRemoteId (.virtualObject v) fun object =>
          (x.renderingUnitList.foldl (syncUnit false)
            (s₁.call (.move object app.polar app.azimuthal))).call (.commit object)) := by
      apply Forwards.withRemoteId i0.ready
      intro p _
      have k2 : AllSyncs s₁ (s₁.call (.move p.id app.polar app.azimuthal)) :=
        call_syncs _ trivial rfl
      have h2 := forwards_nothing k2 (call_sent s₁ rfl)
      have i1 := i0.next k2
      have h3 : Forwards (fun h k => ∃ u ∈ x.renderingUnitList, ∃ t,
          (s.renderingUnits u).bind RenderingUnit.technique = some t ∧ s.Carries t h k)
          (s₁.call (.move p.id app.polar app.azimuthal)) (x.renderingUnitList.foldl
            (syncUnit false) (s₁.call (.move p.id app.polar app.azimuthal))) := by
        apply Forwards.foldl
        intro s' h u hu
        have i2 := i1.next h
        have k3 : AllSyncs s s' := (Relation.ReflTransGen.trans k1 k2).trans h
        have hc := Syncs.content k3
        apply (syncUnit_forwards i2.session (AllSyncs.flagged k3 hf) i2.slot fun y hy => by
          rw [i2.owner u hu y hy]
          exact i2.ready).congr
        intro h k
        simp only [slot_of_content hc, carries_of_content hc]
      apply ((h2.trans h3).tell (call_syncs _ trivial rfl) (call_sent _ rfl)).congr
      simp
    apply (h1.trans h5).congr
    intro h k
    simp only [mem_entries, mem_tablesOf, mem_registered, Option.bind_eq_some_iff, Carries,
      unitsOf, hx, Option.map_some, Option.getD_some, false_or]
    constructor
    · rintro ⟨⟨t, z, ⟨u, hu, y, hy, ht⟩, hz, hh⟩, hk⟩
      exact ⟨u, hu, t, ⟨y, hy, ht⟩, z, hz, hh, hk⟩
    · rintro ⟨u, hu, t, ⟨y, hy, ht⟩, z, hz, hh, hk⟩
      exact ⟨⟨t, z, ⟨u, hu, y, hy, ht⟩, hz, hh⟩, hk⟩

end Scene
end Yaza
