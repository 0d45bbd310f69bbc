import Yaza.Lib.Path
import Yaza.Zwin.Content

/-! What `sync` can do, one small step at a time. With a session, and on a scene whose registered
objects belong to each other, no step of it asks for a proxy or a channel that is missing. -/
namespace Yaza

/-- The shader a call makes, with its source. -/
def Call.shader? : Call → Option (ℕ × Bytes)
  | .createGlShader id source _ => some (id, source)
  | _ => none

namespace Scene

/-- The source that a proxy of the object is made with: a shader reads its buffer. -/
def sourceOf (s : Scene) : Holder → Option Bytes
  | .shader h => (s.glShaders h).bind fun x => (s.shmBuffers x.buffer).map ShmBuffer.data
  | _ => none

/-- The object is alive. -/
def live (s : Scene) : Holder → Bool
  | .virtualObject i => (s.virtualObjects i).isSome
  | .renderingUnit i => (s.renderingUnits i).isSome
  | .baseTechnique i => (s.baseTechniques i).isSome
  | .program i => (s.glPrograms i).isSome
  | .shader i => (s.glShaders i).isSome
  | .vertexArray i => (s.glVertexArrays i).isSome
  | .buffer i => (s.glBuffers i).isSome
  | .texture i => (s.glTextures i).isSome
  | .sampler i => (s.glSamplers i).isSome

theorem proxyOf_giveProxy (s : Scene) (p : Proxy) (h h' : Holder) :
    (s.giveProxy p h).proxyOf h' = if h' = h ∧ s.live h then some p else s.proxyOf h' := by
  cases h <;> cases h' <;>
    simp only [giveProxy, proxyOf, live, reduceCtorEq, false_and, if_false,
      Holder.virtualObject.injEq, Holder.renderingUnit.injEq, Holder.baseTechnique.injEq,
      Holder.program.injEq, Holder.shader.injEq, Holder.vertexArray.injEq, Holder.buffer.injEq,
      Holder.texture.injEq, Holder.sampler.injEq]
  all_goals
    apply Arena.modify_bind
    intro _
    rfl

@[simp] theorem live_giveProxy (s : Scene) (p : Proxy) (h h' : Holder) :
    (s.giveProxy p h).live h' = s.live h' := by
  cases h <;> cases h' <;> simp [giveProxy, live]

/-- The steps of `sync`; `C` holds of the calls that are made, and `A` of the techniques that get
their proxy. -/
inductive SyncStep (A : ℕ → Prop) (C : Call → Prop) : Scene → Scene → Prop
  | crash (s : Scene) (f : Fault) (hf : f = .useAfterFree ∨ f = .badVariant) :
      SyncStep A C s (s.crash f)
  | call (s : Scene) (c : Call) (hc : C c) (hn : c.shader? = none) : SyncStep A C s (s.call c)
  | create (s : Scene) (h : Holder) (mk : ℕ → Call) (p : Proxy) (r : Remote)
      (hr : s.remote.create mk = some (p, r)) (hp : s.proxyOf h = none)
      (hh : ∀ t, h = .baseTechnique t → A t) (hc : C (mk s.remote.proxyCount))
      (hm : (mk s.remote.proxyCount).shader? =
        (s.sourceOf h).map fun source => (s.remote.proxyCount, source)) :
      SyncStep A C s ({ s with remote := r }.giveProxy p h)
  | clearData (s : Scene) (b : ℕ) :
      SyncStep A C s
        { s with
          glBuffers := s.glBuffers.modify b fun x => { x with current.dataDamaged := false } }
  | clearImage (s : Scene) (t : ℕ) :
      SyncStep A C s
        { s with
          glTextures := s.glTextures.modify t fun x =>
            { x with current.dataChanged := false } }
  | clearMipmap (s : Scene) (t : ℕ) :
      SyncStep A C s
        { s with
          glTextures := s.glTextures.modify t fun x =>
            { x with current.mipmapTargetChanged := false } }
  | clearLink (s : Scene) (p : ℕ) :
      SyncStep A C s
        { s with
          glPrograms := s.glPrograms.modify p fun x => { x with current.shouldLink := false } }
  | dropExpiredShaders (s : Scene) (p : ℕ) : SyncStep A C s (s.dropExpiredShaders p)
  | dropExpired (s : Scene) (t : ℕ) : SyncStep A C s (s.dropExpired t)

abbrev Syncs (A : ℕ → Prop) (C : Call → Prop) : Scene → Scene → Prop :=
  Relation.ReflTransGen (SyncStep A C)

section Keeps
variable {A : ℕ → Prop} {C : Call → Prop} {s s' : Scene}

theorem create_eq_some {r r' : Remote} {mk : ℕ → Call} {p : Proxy}
    (h : r.create mk = some (p, r')) :
    ∃ channel, r.currentSession = some channel ∧ p = ⟨r.proxyCount, channel⟩ ∧
      r' = { r with proxyCount := r.proxyCount + 1, calls := r.calls ++ [mk r.proxyCount] } := by
  cases hs : r.currentSession with
  | none => simp [Remote.create, hs] at h
  | some channel =>
    simp only [Remote.create, hs, Option.map_some, Option.some.injEq, Prod.mk.injEq] at h
    exact ⟨channel, rfl, h.1.symm, h.2.symm⟩

@[simp] theorem giveProxy_remote (s : Scene) (p : Proxy) (h : Holder) :
    (s.giveProxy p h).remote = s.remote := by cases h <;> rfl

@[simp] theorem giveProxy_fault (s : Scene) (p : Proxy) (h : Holder) :
    (s.giveProxy p h).fault = s.fault := by cases h <;> rfl

theorem SyncStep.session (h : SyncStep A C s s') :
    s'.remote.currentSession = s.remote.currentSession := by
  cases h with
  | create h mk p r hr =>
    obtain ⟨channel, -, -, rfl⟩ := create_eq_some hr
    simp
  | _ => rfl

theorem Syncs.session (h : Syncs A C s s') :
    s'.remote.currentSession = s.remote.currentSession :=
  Path.const (f := fun s => s.remote.currentSession) (fun _ _ h => h.session) h

theorem Syncs.hasSession (h : Syncs A C s s') : s'.remote.hasSession = s.remote.hasSession := by
  rw [Remote.hasSession, h.session, Remote.hasSession]

/-- The proxy of one object, changed only where it was missing. -/
theorem SyncStep.proxyOf (h : SyncStep A C s s') {x : Holder} {p : Proxy}
    (hp : s.proxyOf x = some p) : s'.proxyOf x = some p := by
  cases h with
  | crash | call => exact hp
  | create h mk q r hr hn =>
    rw [proxyOf_giveProxy, if_neg]
    · exact hp
    · rintro ⟨rfl, -⟩
      rw [hn] at hp
      cases hp
  | _ =>
    cases x <;> try exact hp
    all_goals
      rw [← hp]
      apply Arena.modify_bind_of_eq
      intro _
      rfl

theorem Syncs.proxyOf (h : Syncs A C s s') {x : Holder} {p : Proxy}
    (hp : s.proxyOf x = some p) : s'.proxyOf x = some p :=
  Path.preserves (P := fun s => s.proxyOf x = some p) (fun _ _ h => h.proxyOf) h hp

theorem Syncs.proxyOf_isSome (h : Syncs A C s s') {x : Holder} (hp : (s.proxyOf x).isSome) :
    (s'.proxyOf x).isSome := by
  obtain ⟨p, hp⟩ := Option.isSome_iff_exists.mp hp
  simp [h.proxyOf hp]

theorem SyncStep.live (h : SyncStep A C s s') (x : Holder) : s'.live x = s.live x := by
  cases h with
  | crash | call => rfl
  | create h mk p r hr hn => rw [live_giveProxy]; cases x <;> rfl
  | _ => cases x <;> first | rfl | exact Arena.modify_isSome ..

theorem Syncs.live (h : Syncs A C s s') (x : Holder) : s'.live x = s.live x :=
  Path.const (f := fun s => s.live x) (fun _ _ h => h.live x) h

/-- The steps of `sync` stop the program only for a freed object or a missing alternative. -/
theorem SyncStep.fault (h : SyncStep A C s s') {f : Fault} (hf : s'.fault = some f) :
    s.fault = some f ∨ f = .useAfterFree ∨ f = .badVariant := by
  cases h with
  | crash g hg =>
    cases hs : s.fault <;> simp_all [Scene.crash]
  | create h mk p r hr hn => exact .inl (by simpa using hf)
  | _ => exact .inl hf

theorem Syncs.fault (h : Syncs A C s s') {f : Fault} (hf : s'.fault = some f) :
    s.fault = some f ∨ f = .useAfterFree ∨ f = .badVariant := by
  induction h with
  | refl => exact .inl hf
  | tail _ hstep ih =>
    rcases hstep.fault hf with h1 | h2
    · exact ih h1
    · exact .inr h2

/-- A fault stays. -/
theorem SyncStep.fault_isSome (h : SyncStep A C s s') (hf : s.fault.isSome) :
    s'.fault.isSome := by
  cases h with
  | crash g hg => cases hs : s.fault <;> simp_all [Scene.crash]
  | create h mk p r hr hn => simpa using hf
  | _ => exact hf

theorem Syncs.fault_none (h : Syncs A C s s') (hf : s'.fault = none) : s.fault = none := by
  by_contra hs
  have := Path.preserves (P := fun s => s.fault.isSome) (fun _ _ h => h.fault_isSome) h
    (Option.isSome_iff_ne_none.mpr hs)
  simp [hf] at this

theorem SyncStep.content (h : SyncStep A C s s') : s'.content = s.content := by
  cases h with
  | crash | call => rfl
  | create h mk p r hr hn => rw [giveProxy_content]; rfl
  | clearData b => exact content_modifyBuffer s b fun _ => rfl
  | clearImage t => exact content_modifyTexture s t fun _ => rfl
  | clearMipmap t => exact content_modifyTexture s t fun _ => rfl
  | clearLink p => exact content_modifyProgram s p fun _ => rfl
  | dropExpiredShaders p => exact dropExpiredShaders_content s p
  | dropExpired t => exact dropExpired_content s t

theorem Syncs.content (h : Syncs A C s s') : s'.content = s.content :=
  Path.const (f := Scene.content) (fun _ _ h => h.content) h

theorem SyncStep.mono {B : ℕ → Prop} {D : Call → Prop} (hAB : ∀ t, A t → B t)
    (hCD : ∀ c, C c → D c) (h : SyncStep A C s s') : SyncStep B D s s' := by
  cases h with
  | crash f hf => exact .crash _ f hf
  | call c hc hn => exact .call _ c (hCD c hc) hn
  | create h mk p r hr hp hh hc hm =>
    exact .create _ h mk p r hr hp (fun t ht => hAB t (hh t ht)) (hCD _ hc) hm
  | clearData b => exact .clearData _ b
  | clearImage t => exact .clearImage _ t
  | clearMipmap t => exact .clearMipmap _ t
  | clearLink p => exact .clearLink _ p
  | dropExpiredShaders p => exact .dropExpiredShaders _ p
  | dropExpired t => exact .dropExpired _ t

theorem Syncs.mono {D : Call → Prop} (hCD : ∀ c, C c → D c) (h : Syncs A C s s') :
    Syncs A D s s' :=
  Relation.ReflTransGen.mono (fun _ _ h => SyncStep.mono (fun _ => id) hCD h) s s' h

/-- More techniques may get their proxy. -/
theorem Syncs.widen {B : ℕ → Prop} (hAB : ∀ t, A t → B t) (h : Syncs A C s s') :
    Syncs B C s s' :=
  Relation.ReflTransGen.mono (fun _ _ h => SyncStep.mono hAB (fun _ => id) h) s s' h

theorem SyncStep.proxyCount (h : SyncStep A C s s') :
    s.remote.proxyCount ≤ s'.remote.proxyCount := by
  cases h with
  | create h mk p r hr =>
    obtain ⟨channel, -, -, rfl⟩ := create_eq_some hr
    simp
  | _ => exact Nat.le_refl _

theorem Syncs.proxyCount (h : Syncs A C s s') :
    s.remote.proxyCount ≤ s'.remote.proxyCount :=
  Path.preserves (P := fun s' => s.remote.proxyCount ≤ s'.remote.proxyCount)
    (fun _ _ h hs => hs.trans h.proxyCount) h (Nat.le_refl _)

theorem SyncStep.signals (h : SyncStep A C s s') :
    s'.remote.emitted = s.remote.emitted ∧ s'.remote.sessionCount = s.remote.sessionCount := by
  cases h with
  | create h mk p r hr =>
    obtain ⟨channel, -, -, rfl⟩ := create_eq_some hr
    simp
  | _ => exact ⟨rfl, rfl⟩

/-- One step gives a proxy to one object at most. -/
theorem SyncStep.changes_one (h : SyncStep A C s s') :
    ∃ y, ∀ x, x ≠ y → s'.proxyOf x = s.proxyOf x := by
  cases h with
  | create h mk p r hr =>
    refine ⟨h, fun x hx => ?_⟩
    rw [proxyOf_giveProxy, if_neg fun hc => hx hc.1]
    cases x <;> rfl
  | _ =>
    refine ⟨.buffer 0, fun x _ => ?_⟩
    cases x <;> try rfl
    all_goals
      apply Arena.modify_bind_of_eq
      intro _
      rfl

/-- A proxy that is there after some steps was there before, or is a new one. -/
theorem SyncStep.proxyOf_new (h : SyncStep A C s s')
    {x : Holder} {p : Proxy} (hp : s'.proxyOf x = some p) :
    s.proxyOf x = some p ∨
      s.remote.proxyCount ≤ p.id ∧ s.remote.currentSession = some p.channel ∧
        p.id < s'.remote.proxyCount := by
  cases h with
  | crash | call => exact .inl hp
  | create h mk q r hr hn =>
    obtain ⟨channel, hch, rfl, rfl⟩ := create_eq_some hr
    rw [proxyOf_giveProxy] at hp
    split at hp
    · cases hp
      exact .inr ⟨Nat.le_refl _, hch, by simp⟩
    · exact .inl (by cases x <;> exact hp)
  | _ =>
    left
    cases x <;> try exact hp
    all_goals
      rw [← hp]
      symm
      apply Arena.modify_bind_of_eq
      intro _
      rfl

theorem Syncs.proxyOf_new (h : Syncs A C s s')
    {x : Holder} {p : Proxy} (hp : s'.proxyOf x = some p) :
    s.proxyOf x = some p ∨
      s.remote.proxyCount ≤ p.id ∧ s.remote.currentSession = some p.channel ∧
        p.id < s'.remote.proxyCount := by
  induction h with
  | refl => exact .inl hp
  | tail hsteps hstep ih =>
    rcases hstep.proxyOf_new hp with h1 | ⟨h1, h2, h3⟩
    · rcases ih h1 with h4 | ⟨h4, h5, h6⟩
      · exact .inl h4
      · exact .inr ⟨h4, h5, h6.trans_le hstep.proxyCount⟩
    · exact .inr ⟨(Syncs.proxyCount hsteps).trans h1, by rw [← Syncs.session hsteps]; exact h2, h3⟩

end Keeps

end Scene
end Yaza
