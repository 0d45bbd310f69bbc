import Yaza.Zwin.Reaching

/-! After a sync, all that it comes to has its proxy, and nothing of it waits to be told; further
syncs keep it so. The flags of vertex attributes and sampler parameters stay as they are. -/
namespace Yaza
namespace Scene

/-- Nothing of the object waits for a sync. -/
def Clear (s : Scene) : Holder → Prop
  | .buffer b => ∀ c, (s.glBuffers b).map GlBuffer.current = some c → c.dataDamaged = false
  | .texture t => ∀ c, (s.glTextures t).map GlTexture.current = some c →
      c.dataChanged = false ∧ c.mipmapTargetChanged = false
  | .program p => ∀ c, (s.glPrograms p).map GlProgram.current = some c →
      c.shouldLink = false ∧ ∀ h ∈ c.shaders, s.shaderAlive h ∧ (s.proxyOf (.shader h)).isSome
  | .baseTechnique t => ∀ c, (s.baseTechniques t).map GlBaseTechnique.current = some c →
      ∀ b ∈ c.textureBindings.list, s.bindingAlive b
  | _ => True

/-- While the program runs, the object has its proxy and is clear, unless it is gone. -/
def UpTo (s : Scene) (h : Holder) : Prop :=
  s.fault = none → s.live h → (s.proxyOf h).isSome ∧ s.Clear h

abbrev AllSyncs : Scene → Scene → Prop := Syncs (fun _ => True) fun _ => True

section Keeps
variable {A : ℕ → Prop} {C : Call → Prop} {s s' : Scene}

theorem giveProxy_currents (s : Scene) (p : Proxy) (h : Holder) :
    (s.giveProxy p h).glBuffers.mapAll GlBuffer.current = s.glBuffers.mapAll GlBuffer.current ∧
      (s.giveProxy p h).glTextures.mapAll GlTexture.current =
        s.glTextures.mapAll GlTexture.current ∧
      (s.giveProxy p h).glPrograms.mapAll GlProgram.current =
        s.glPrograms.mapAll GlProgram.current ∧
      (s.giveProxy p h).baseTechniques.mapAll GlBaseTechnique.current =
        s.baseTechniques.mapAll GlBaseTechnique.current := by
  cases h <;> refine ⟨?_, ?_, ?_, ?_⟩ <;>
    first | rfl | exact Arena.mapAll_modify fun _ => rfl

theorem SyncStep.shaderAlive (h : SyncStep A C s s') : s'.shaderAlive = s.shaderAlive :=
  funext fun i => h.live (.shader i)

theorem SyncStep.bindingAlive (h : SyncStep A C s s') : s'.bindingAlive = s.bindingAlive :=
  bindingAlive_congr (fun i => h.live (.texture i)) fun i => h.live (.sampler i)

/-- The current state of one object, changed only to clear it. -/
theorem SyncStep.clear (h : SyncStep A C s s') {x : Holder} (hx : s.Clear x) : s'.Clear x := by
  have hb := h.bindingAlive
  have ha := h.shaderAlive
  have hp {i : ℕ} (hi : (s.proxyOf (.shader i)).isSome) : (s'.proxyOf (.shader i)).isSome :=
    Syncs.proxyOf_isSome (.single h) hi
  have same (h1 : s'.glBuffers.mapAll GlBuffer.current = s.glBuffers.mapAll GlBuffer.current)
      (h2 : s'.glTextures.mapAll GlTexture.current = s.glTextures.mapAll GlTexture.current)
      (h3 : s'.glPrograms.mapAll GlProgram.current = s.glPrograms.mapAll GlProgram.current)
      (h4 : s'.baseTechniques.mapAll GlBaseTechnique.current =
        s.baseTechniques.mapAll GlBaseTechnique.current) : s'.Clear x := by
    cases x with
    | buffer b => exact fun c hc => hx c ((congrFun h1 b).symm.trans hc)
    | texture t => exact fun c hc => hx c ((congrFun h2 t).symm.trans hc)
    | program p =>
      intro c hc
      obtain ⟨h5, h6⟩ := hx c ((congrFun h3 p).symm.trans hc)
      exact ⟨h5, fun i hi => ⟨ha ▸ (h6 i hi).1, hp (h6 i hi).2⟩⟩
    | baseTechnique t =>
      intro c hc b hl
      rw [hb]
      exact hx c ((congrFun h4 t).symm.trans hc) b hl
    | _ => trivial
  cases h with
  | crash | call => exact same rfl rfl rfl rfl
  | create i mk q r hr hn =>
    obtain ⟨h1, h2, h3, h4⟩ := giveProxy_currents { s with remote := r } q i
    exact same h1 h2 h3 h4
  | clearData i =>
    cases x with
    | buffer b =>
      intro c hc
      obtain ⟨y, hy, rfl | rfl⟩ := Arena.of_modify_map hc
      · rfl
      · exact hx y.current (by simp [hy])
    | program p => exact fun c hc => hx c hc
    | _ => exact hx
  | clearImage i =>
    cases x with
    | texture t =>
      intro c hc
      obtain ⟨y, hy, rfl | rfl⟩ := Arena.of_modify_map hc
      · exact ⟨rfl, (hx y.current (by simp [hy])).2⟩
      · exact hx y.current (by simp [hy])
    | baseTechnique t => exact fun c hc b hl => hb ▸ hx c hc b hl
    | _ => exact hx
  | clearMipmap i =>
    cases x with
    | texture t =>
      intro c hc
      obtain ⟨y, hy, rfl | rfl⟩ := Arena.of_modify_map hc
      · exact ⟨(hx y.current (by simp [hy])).1, rfl⟩
      · exact hx y.current (by simp [hy])
    | baseTechnique t => exact fun c hc b hl => hb ▸ hx c hc b hl
    | _ => exact hx
  | clearLink i =>
    cases x with
    | program p =>
      intro c hc
      obtain ⟨y, hy, rfl | rfl⟩ := Arena.of_modify_map hc
      · exact ⟨rfl, (hx y.current (by simp [hy])).2⟩
      · exact hx y.current (by simp [hy])
    | _ => exact hx
  | dropExpiredShaders i =>
    cases x with
    | program p =>
      intro c hc
      obtain ⟨y, hy, rfl | rfl⟩ := Arena.of_modify_map hc
      · obtain ⟨h1, h2⟩ := hx y.current (by simp [hy])
        exact ⟨h1, fun j hj => h2 j (List.mem_of_mem_filter hj)⟩
      · exact hx y.current (by simp [hy])
    | _ => exact hx
  | dropExpired i =>
    cases x with
    | baseTechnique t =>
      intro c hc b hl
      obtain ⟨y, hy, rfl | rfl⟩ := Arena.of_modify_map hc
      · exact hx y.current (by simp [hy]) b (List.mem_of_mem_filter hl)
      · exact hx y.current (by simp [hy]) b hl
    | _ => exact hx

theorem Syncs.clear (h : Syncs A C s s') {x : Holder} (hx : s.Clear x) : s'.Clear x :=
  Path.preserves (P := fun s => s.Clear x) (fun _ _ h => h.clear) h hx

theorem SyncStep.upTo (h : SyncStep A C s s') {x : Holder} (hx : s.UpTo x) : s'.UpTo x := by
  intro hf hl
  rw [h.live x] at hl
  obtain ⟨h1, h2⟩ := hx (Syncs.fault_none (.single h) hf) hl
  exact ⟨Syncs.proxyOf_isSome (.single h) h1, h.clear h2⟩

theorem Syncs.upTo (h : Syncs A C s s') {x : Holder} (hx : s.UpTo x) : s'.UpTo x :=
  Path.preserves (P := fun s => s.UpTo x) (fun _ _ h => h.upTo) h hx

end Keeps

theorem crash_running (s : Scene) (f : Fault) : (s.crash f).fault ≠ none := by
  cases hs : s.fault <;> simp [crash, hs]

theorem crash_upTo (s : Scene) (f : Fault) (h : Holder) : (s.crash f).UpTo h :=
  fun hf => absurd hf (crash_running s f)

/-- The program runs on only if the proxy was there. -/
theorem withRemoteId_running {s : Scene} {h : Holder} {k : ℕ → Scene}
    (hf : (s.withRemoteId h k).fault = none) :
    ∃ p, s.proxyOf h = some p ∧ s.withRemoteId h k = k p.id := by
  unfold withRemoteId at hf ⊢
  split at hf
  · cases hs : s.fault <;> simp [crash, hs] at hf
  · next p hp => exact ⟨p, hp, rfl⟩

theorem ensureProxy_currents (s : Scene) (h : Holder) (mk : ℕ → Call) :
    (s.ensureProxy h mk).glBuffers.mapAll GlBuffer.current = s.glBuffers.mapAll GlBuffer.current ∧
      (s.ensureProxy h mk).glTextures.mapAll GlTexture.current =
        s.glTextures.mapAll GlTexture.current ∧
      (s.ensureProxy h mk).glPrograms.mapAll GlProgram.current =
        s.glPrograms.mapAll GlProgram.current ∧
      (s.ensureProxy h mk).baseTechniques.mapAll GlBaseTechnique.current =
        s.baseTechniques.mapAll GlBaseTechnique.current := by
  unfold ensureProxy
  split
  · exact ⟨rfl, rfl, rfl, rfl⟩
  · split
    · exact ⟨rfl, rfl, rfl, rfl⟩
    · exact giveProxy_currents _ _ _

section Brings
variable {s : Scene} (hs : s.remote.hasSession)
include hs

theorem syncBuffer_upTo (b : ℕ) (force : Bool) : (s.syncBuffer b force).UpTo (.buffer b) := by
  have hr := (syncBuffer_syncs (A := fun _ => True) (C := fun _ => True) (fun _ _ => trivial) hs b
    force).2
  intro hf _
  refine ⟨hr hf, fun c hc => ?_⟩
  unfold syncBuffer at hf hc
  split at hf
  · exact absurd hf (crash_running s _)
  · next x hx =>
    have h1 := congrFun (ensureProxy_currents s (.buffer b) .createGlBuffer).1 b
    simp only [hx] at hc
    split at hf
    · next hd =>
      rw [if_pos hd] at hc
      have he : some x.current = some c := by
        rw [← hc]
        simpa [hx] using h1.symm
      cases he
      simp only [Bool.and_eq_true, Bool.not_eq_eq_eq_not, Bool.not_true] at hd
      exact hd.2
    · next hd =>
      rw [if_neg hd] at hc
      obtain ⟨p, -, he⟩ := withRemoteId_running hf
      rw [tellBuffer, he] at hc
      obtain ⟨y, hy, rfl⟩ := Option.map_eq_some_iff.mp hc
      simp only [Arena.modify_self, Option.map_eq_some_iff] at hy
      obtain ⟨x', -, rfl⟩ := hy
      rfl

omit hs in
theorem tellImage_current {t : ℕ} {c : GlTexture.Current} {force : Bool}
    (hc : (s.glTextures t).map GlTexture.current = some c)
    (hf : (s.tellImage t c force).fault = none) :
    ((s.tellImage t c force).glTextures t).map GlTexture.current =
      some { c with dataChanged := false } := by
  unfold tellImage at hf ⊢
  split at hf
  · next hd =>
    rw [if_pos hd]
    obtain ⟨p, -, he⟩ := withRemoteId_running hf
    rw [he]
    obtain ⟨x, hx, rfl⟩ := Option.map_eq_some_iff.mp hc
    simp [hx]
  · next hd =>
    rw [if_neg hd, hc]
    simp only [Bool.or_eq_true, not_or, Bool.not_eq_true] at hd
    rw [← hd.2]

omit hs in
theorem tellMipmap_current {t : ℕ} {c d : GlTexture.Current} {force : Bool}
    (hc : (s.glTextures t).map GlTexture.current = some c)
    (hm : d.mipmapTargetChanged = c.mipmapTargetChanged)
    (hf : (s.tellMipmap t d force).fault = none) :
    ((s.tellMipmap t d force).glTextures t).map GlTexture.current =
      some { c with mipmapTargetChanged := false } := by
  unfold tellMipmap at hf ⊢
  split at hf
  · next hd =>
    rw [if_pos hd]
    obtain ⟨p, -, he⟩ := withRemoteId_running hf
    rw [he]
    obtain ⟨x, hx, rfl⟩ := Option.map_eq_some_iff.mp hc
    simp [hx]
  · next hd =>
    rw [if_neg hd, hc]
    simp only [Bool.or_eq_true, not_or, Bool.not_eq_true] at hd
    rw [← hd.2, hm]

theorem syncTexture_upTo (t : ℕ) (force : Bool) : (s.syncTexture t force).UpTo (.texture t) := by
  have hr := (syncTexture_syncs (A := fun _ => True) (C := fun _ => True) (fun _ _ => trivial) hs t
    force).2
  intro hf _
  refine ⟨hr hf, fun c hc => ?_⟩
  unfold syncTexture at hf hc
  split at hf
  · exact absurd hf (crash_running s _)
  · next x hx =>
    simp only [hx] at hc
    have h1 : ((s.ensureProxy (.texture t) .createGlTexture).glTextures t).map GlTexture.current =
        some x.current := by
      have := congrFun (ensureProxy_currents s (.texture t) .createGlTexture).2.1 t
      simpa [hx] using this
    have hr1 : (s.ensureProxy (.texture t) .createGlTexture).Ready (.texture t) :=
      ensureProxy_ready hs (by simp [live, hx])
    have k1 : AllSyncs _ ((s.ensureProxy (.texture t) .createGlTexture).tellImage t x.current
        force) := tellImage_syncs (fun _ _ => trivial) hr1 x.current force
    have k2 : AllSyncs _ (((s.ensureProxy (.texture t) .createGlTexture).tellImage t x.current
        force).tellMipmap t x.current force) :=
      tellMipmap_syncs (fun _ _ => trivial) (k1.ready hr1) x.current force
    have h2 := tellImage_current h1 (k2.fault_none hf)
    have h3 := tellMipmap_current (d := x.current) h2 rfl hf
    rw [h3, Option.some.injEq] at hc
    rw [← hc]
    exact ⟨rfl, rfl⟩

omit hs in
theorem syncAttached_programs (p : ℕ) (shouldAttach : Bool) (h : ℕ) :
    (syncAttached p shouldAttach s h).glPrograms = s.glPrograms := by
  have h1 : (s.syncShader h).glPrograms = s.glPrograms := by
    unfold syncShader
    split
    · rfl
    · split
      · rfl
      · split
        · rfl
        · unfold ensureProxy
          split
          · rfl
          · split <;> rfl
  unfold syncAttached tellAttach withRemoteId
  split
  · split
    · exact h1
    · split <;> exact h1
  · exact h1

/-- The shaders of a list get their proxies. -/
theorem syncAttached_ready {p : ℕ} (hp : s.Ready (.program p)) (shouldAttach : Bool) (l : List ℕ) :
    ∀ h ∈ l, (l.foldl (syncAttached p shouldAttach) s).Ready (.shader h) := by
  induction l generalizing s with
  | nil => simp
  | cons h l ih =>
    intro i hi
    obtain ⟨h1, r1⟩ := syncShader_syncs (A := fun _ => True) (C := fun _ => True)
      (fun _ _ => trivial) hs h
    have h2 : AllSyncs s (syncAttached p shouldAttach s h) :=
      syncAttached_syncs (fun _ _ => trivial) hs hp shouldAttach h
    have h3 : AllSyncs (s.syncShader h) (syncAttached p shouldAttach s h) :=
      tellAttach_syncs (fun _ _ => trivial) r1 (h1.ready hp) shouldAttach
    have hs' : (syncAttached p shouldAttach s h).remote.hasSession := h2.hasSession.trans hs
    have h4 : AllSyncs (syncAttached p shouldAttach s h)
        (l.foldl (syncAttached p shouldAttach) (syncAttached p shouldAttach s h)) :=
      Path.foldl (SyncStep.hasSession_ready)
        (fun s hp h _ => syncAttached_syncs (fun _ _ => trivial) hp.1 hp.2 _ h)
        ⟨hs', h2.ready hp⟩
    rcases List.mem_cons.mp hi with rfl | hi
    · exact h4.ready (h3.ready r1)
    · exact ih hs' (h2.ready hp) i hi

omit hs in
theorem tellLink_current {p : ℕ} {c : GlProgram.Current} {shouldAttach : Bool}
    (hc : (s.glPrograms p).map GlProgram.current = some c)
    (hl : shouldAttach = false → c.shouldLink = false)
    (hf : (s.tellLink p shouldAttach).fault = none) :
    ((s.tellLink p shouldAttach).glPrograms p).map GlProgram.current =
      some { c with shouldLink := false } := by
  unfold tellLink at hf ⊢
  split at hf
  · next hd =>
    rw [if_pos hd]
    obtain ⟨q, -, he⟩ := withRemoteId_running hf
    rw [he]
    obtain ⟨x, hx, rfl⟩ := Option.map_eq_some_iff.mp hc
    simp [hx]
  · next hd =>
    rw [if_neg hd, hc, ← hl (by simpa using hd)]

theorem syncProgram_upTo (p : ℕ) (force : Bool) : (s.syncProgram p force).UpTo (.program p) := by
  obtain ⟨k, hr⟩ := syncProgram_syncs (A := fun _ => True) (C := fun _ => True)
    (fun _ _ => trivial) hs p force
  intro hf _
  cases hx : s.glPrograms p with
  | none =>
    rw [syncProgram, hx] at hf
    exact absurd hf (crash_running s _)
  | some x =>
    refine ⟨hr hf, fun c hc => ?_⟩
    have k0 : AllSyncs s (s.ensureProxy (.program p) .createGlProgram) :=
      ensureProxy_syncs hs (by simp) trivial rfl
    have k1 : AllSyncs s ((s.ensureProxy (.program p) .createGlProgram).dropExpiredShaders p) :=
      k0.tail (.dropExpiredShaders _ p)
    have r1 : ((s.ensureProxy (.program p) .createGlProgram).dropExpiredShaders p).Ready
        (.program p) :=
      SyncStep.ready (A := fun _ => True) (C := fun _ => True) _ _ (.dropExpiredShaders _ p)
        (ensureProxy_ready hs (by simp [live, hx]))
    have s1 := k1.hasSession.trans hs
    have k2 : AllSyncs _ ((x.current.shaders.filter s.shaderAlive).foldl
        (syncAttached p (force || x.current.shouldLink))
        ((s.ensureProxy (.program p) .createGlProgram).dropExpiredShaders p)) :=
      Path.foldl (SyncStep.hasSession_ready)
        (fun s hp h _ => syncAttached_syncs (fun _ _ => trivial) hp.1 hp.2 _ h) ⟨s1, r1⟩
    have k3 := tellLink_syncs (A := fun _ => True) (C := fun _ => True) (fun _ _ => trivial)
      (k2.ready r1) (force || x.current.shouldLink)
    have he : s.syncProgram p force = ((x.current.shaders.filter s.shaderAlive).foldl
        (syncAttached p (force || x.current.shouldLink))
        ((s.ensureProxy (.program p) .createGlProgram).dropExpiredShaders p)).tellLink p
          (force || x.current.shouldLink) := by rw [syncProgram, hx]
    have h1 : (((s.ensureProxy (.program p) .createGlProgram).dropExpiredShaders p).glPrograms
        p).map GlProgram.current =
        some { x.current with shaders := x.current.shaders.filter s.shaderAlive } := by
      have ha : (s.ensureProxy (.program p) .createGlProgram).shaderAlive = s.shaderAlive :=
        funext fun i => k0.live (.shader i)
      have h0 := congrFun (ensureProxy_currents s (.program p) .createGlProgram).2.2.1 p
      simp only [Arena.mapAll_apply, hx, Option.map_some] at h0
      obtain ⟨y, hy, he⟩ := Option.map_eq_some_iff.mp h0
      simp [dropExpiredShaders, hy, he, ha]
    have hg : ((x.current.shaders.filter s.shaderAlive).foldl
        (syncAttached p (force || x.current.shouldLink))
        ((s.ensureProxy (.program p) .createGlProgram).dropExpiredShaders p)).glPrograms =
        ((s.ensureProxy (.program p) .createGlProgram).dropExpiredShaders p).glPrograms :=
      Path.foldl_const (g := Scene.glPrograms) (P := fun _ _ => True)
        (fun s h _ => syncAttached_programs p _ h) (fun _ _ _ _ _ => trivial) fun _ _ => trivial
    rw [he] at hf hc
    rw [← hg] at h1
    have h2 := tellLink_current h1 (fun hd => (Bool.or_eq_false_iff.mp hd).2) hf
    rw [h2, Option.some.injEq] at hc
    rw [← hc]
    refine ⟨rfl, fun h hh => ⟨?_, ?_⟩⟩
    · rw [show (s.syncProgram p force).shaderAlive h = s.shaderAlive h from k.live (.shader h)]
      exact (List.mem_filter.mp hh).2
    · rw [he]
      exact k3.ready (syncAttached_ready s1 r1 (force || x.current.shouldLink) _ h hh) hf

omit hs in
theorem Ready.upTo {h : Holder} (hr : s.Ready h) (hc : s.Clear h) : s.UpTo h :=
  fun hf _ => ⟨hr hf, hc⟩

theorem syncTextureBinding_upTo (technique : ℕ) (force changed : Bool) (b : TextureBinding) :
    (syncTextureBinding technique force changed s b).UpTo (.texture b.texture) ∧
      (syncTextureBinding technique force changed s b).UpTo (.sampler b.sampler) := by
  obtain ⟨h1, r1⟩ := syncTexture_syncs (A := fun _ => True) (C := fun _ => True)
    (fun _ _ => trivial) hs b.texture force
  obtain ⟨h2, r2⟩ := syncSampler_syncs (A := fun _ => True) (C := fun _ => True)
    (fun _ _ => trivial) (h1.hasSession.trans hs) b.sampler force
  have h3 : AllSyncs ((s.syncTexture b.texture force).syncSampler b.sampler force)
      (syncTextureBinding technique force changed s b) := by
    unfold syncTextureBinding tellTexture
    split
    · exact withRemoteId_syncs (h2.ready r1) fun _ _ =>
        withRemoteId_syncs r2 fun _ _ => call_syncs _ trivial rfl
    · exact .refl
  exact ⟨h3.upTo (h2.upTo (syncTexture_upTo hs b.texture force)), h3.upTo (r2.upTo trivial)⟩

/-- The loop of `TextureBindingList::sync`. -/
theorem syncBindings_syncs (technique : ℕ) (force changed : Bool) (l : List TextureBinding) :
    AllSyncs s (l.foldl (syncTextureBinding technique force changed) s) :=
  Path.foldl (P := fun s => s.remote.hasSession)
    (fun _ _ h hs => (Syncs.hasSession (.single h)).trans hs)
    (fun _ hs b _ => syncTextureBinding_syncs (fun _ _ => trivial) (fun _ _ => trivial) hs
      force changed b) hs

theorem syncTextureBindings_upTo (technique : ℕ) (force changed : Bool)
    (l : List TextureBinding) : ∀ b ∈ l,
      (l.foldl (syncTextureBinding technique force changed) s).UpTo (.texture b.texture) ∧
        (l.foldl (syncTextureBinding technique force changed) s).UpTo (.sampler b.sampler) := by
  induction l generalizing s with
  | nil => simp
  | cons d l ih =>
    intro b hb
    have h1 : AllSyncs s (syncTextureBinding technique force changed s d) :=
      syncTextureBinding_syncs (fun _ _ => trivial) (fun _ _ => trivial) hs force changed d
    have s1 := h1.hasSession.trans hs
    have h2 := syncBindings_syncs s1 technique force changed l
    rcases List.mem_cons.mp hb with rfl | hb
    · obtain ⟨u1, u2⟩ := syncTextureBinding_upTo hs technique force changed b
      exact ⟨h2.upTo u1, h2.upTo u2⟩
    · exact ih s1 b hb

omit hs in
theorem upTo_of_dead {s s' : Scene} (h : AllSyncs s s') {x : Holder} (hx : s.live x = false) :
    s'.UpTo x := by
  intro _ hl
  rw [h.live x, hx] at hl
  cases hl

theorem syncBoundVertexArray_upTo (technique : ℕ) {x : TechniqueState} {va : ℕ}
    (hx : x.vertexArray = some va) (force : Bool) :
    (s.syncBoundVertexArray technique x force).UpTo (.vertexArray va) := by
  unfold syncBoundVertexArray
  split
  · next hl =>
    exact upTo_of_dead .refl (by simp [live, Arena.none_of_lock hl hx])
  · next i hl =>
    cases hx.symm.trans (Arena.lock_eq_some.mp hl).1
    obtain ⟨-, r1⟩ := syncVertexArray_syncs (A := fun _ => True) (C := fun _ => True)
      (fun _ _ => trivial) hs va force
    unfold tellVertexArray
    split
    · have h2 : AllSyncs (s.syncVertexArray va force) ((s.syncVertexArray va force).withRemoteId
          (.vertexArray va) fun id => (s.syncVertexArray va force).call
            (.bindVertexArray technique id)) :=
        withRemoteId_syncs r1 fun _ _ => call_syncs _ trivial rfl
      exact h2.upTo (r1.upTo trivial)
    · exact r1.upTo trivial

theorem syncBoundProgram_upTo (technique : ℕ) {x : TechniqueState} {p : ℕ}
    (hx : x.program = some p) (force : Bool) :
    (s.syncBoundProgram technique x force).UpTo (.program p) := by
  unfold syncBoundProgram
  split
  · next hl =>
    exact upTo_of_dead .refl (by simp [live, Arena.none_of_lock hl hx])
  · next i hl =>
    cases hx.symm.trans (Arena.lock_eq_some.mp hl).1
    obtain ⟨-, r1⟩ := syncProgram_syncs (A := fun _ => True) (C := fun _ => True)
      (fun _ _ => trivial) hs p force
    unfold tellProgram
    split
    · have h2 : AllSyncs (s.syncProgram p force) ((s.syncProgram p force).withRemoteId
          (.program p) fun id => (s.syncProgram p force).call (.bindProgram technique id)) :=
        withRemoteId_syncs r1 fun _ _ => call_syncs _ trivial rfl
      exact h2.upTo (syncProgram_upTo hs p force)
    · exact syncProgram_upTo hs p force

theorem syncDraw_upTo (technique : ℕ) {d : DrawApiArgs} {b : ℕ} (hd : b ∈ d.refs) (force : Bool) :
    (s.syncDraw technique d force).UpTo (.buffer b) := by
  unfold syncDraw
  unfold DrawApiArgs.refs at hd
  split at hd
  · next mode count type offset i he =>
    obtain rfl := List.mem_singleton.mp hd
    simp only [he]
    split
    · obtain ⟨-, r1⟩ := syncBuffer_syncs (A := fun _ => True) (C := fun _ => True)
        (fun _ _ => trivial) hs b force
      unfold tellElements
      split
      · have h2 : AllSyncs (s.syncBuffer b force) ((s.syncBuffer b force).withRemoteId
            (.buffer b) fun id => (s.syncBuffer b force).call
              (.glDrawElements technique mode count type offset id)) :=
          withRemoteId_syncs r1 fun _ _ => call_syncs _ trivial rfl
        exact h2.upTo (syncBuffer_upTo hs b force)
      · exact syncBuffer_upTo hs b force
    · next hl => exact upTo_of_dead .refl (by simpa [live] using hl)
  · cases hd

omit hs in
theorem dropExpired_clear (s : Scene) (t : ℕ) : (s.dropExpired t).Clear (.baseTechnique t) := by
  intro c hc b hb
  obtain ⟨y, hy, rfl⟩ := Option.map_eq_some_iff.mp hc
  simp only [dropExpired, Arena.modify_self, Option.map_eq_some_iff] at hy
  obtain ⟨z, -, rfl⟩ := hy
  exact (List.mem_filter.mp hb).2

/-- The sync of a technique, once its proxy is there. -/
theorem syncState_upTo (t technique : ℕ) (x : TechniqueState) (force : Bool) :
    (∀ i, s.Comes x i → (s.syncState t technique x force).UpTo i) ∧
      (s.syncState t technique x force).Clear (.baseTechnique t) := by
  have h1 : AllSyncs s (s.syncBoundVertexArray technique x force) :=
    syncBoundVertexArray_syncs (fun _ _ => trivial) (fun _ _ => trivial) hs x force
  have s1 := h1.hasSession.trans hs
  have h2 : AllSyncs (s.syncBoundVertexArray technique x force)
      ((s.syncBoundVertexArray technique x force).syncBoundProgram technique x
        force) :=
    syncBoundProgram_syncs (fun _ _ => trivial) (fun _ _ => trivial) s1 x force
  have s2 := h2.hasSession.trans s1
  generalize hs₂ : (s.syncBoundVertexArray technique x force).syncBoundProgram technique
    x force = s₂ at h2 s2
  have h3 : AllSyncs s₂ (s₂.syncTextureBindings t technique x.textureBindings force) :=
    syncTextureBindings_syncs (fun _ _ => trivial) (fun _ _ => trivial) s2 t
      x.textureBindings force
  have s3 := h3.hasSession.trans s2
  generalize hs₃ : s₂.syncTextureBindings t technique x.textureBindings force = s₃ at h3 s3
  have h4 : AllSyncs s₃
      (s₃.callAll (UniformVariableList.syncCalls technique force x.uniformVars)) :=
    callAll_syncs s₃ (syncCalls_spec (fun _ _ => trivial) force x.uniformVars)
  have s4 := h4.hasSession.trans s3
  generalize hs₄ : s₃.callAll (UniformVariableList.syncCalls technique force
    x.uniformVars) = s₄ at h4 s4
  have h5 : AllSyncs s₄ (s₄.syncDraw technique x.drawApiArgs force) :=
    syncDraw_syncs (fun _ _ => trivial) (fun _ _ => trivial) s4 x.drawApiArgs force
  have he : s.syncState t technique x force =
      s₄.syncDraw technique x.drawApiArgs force := by
    simp only [syncState, hs₂, hs₃, hs₄]
  rw [he]
  have h12 : AllSyncs s s₂ := h1.trans h2
  have h35 : AllSyncs s₃ (s₄.syncDraw technique x.drawApiArgs force) := h4.trans h5
  have ha : s₂.bindingAlive = s.bindingAlive :=
    bindingAlive_congr (fun i => h12.live (.texture i)) fun i => h12.live (.sampler i)
  have hb : ∀ b ∈ x.textureBindings.list, s.bindingAlive b →
      s₃.UpTo (.texture b.texture) ∧ s₃.UpTo (.sampler b.sampler) := by
    intro b hl hb
    rw [← hs₃]
    have hd : AllSyncs s₂ (s₂.dropExpired t) := .single (.dropExpired s₂ t)
    refine syncTextureBindings_upTo (hd.hasSession.trans s2) technique force _ _ b ?_
    rw [ha]
    exact List.mem_filter.mpr ⟨hl, hb⟩
  constructor
  · intro i hi
    cases i with
    | vertexArray va =>
      exact h35.upTo (h3.upTo (h2.upTo (syncBoundVertexArray_upTo hs technique hi force)))
    | program p =>
      rw [← hs₂] at h3
      exact h35.upTo (h3.upTo (syncBoundProgram_upTo s1 technique hi force))
    | buffer b => exact syncDraw_upTo s4 technique hi force
    | texture j =>
      obtain ⟨b, hl, hal, rfl⟩ := hi
      exact h35.upTo (hb b hl hal).1
    | sampler j =>
      obtain ⟨b, hl, hal, rfl⟩ := hi
      exact h35.upTo (hb b hl hal).2
    | _ => exact hi.elim
  · refine h35.clear ?_
    have hd : AllSyncs s₂ (s₂.dropExpired t) := .single (.dropExpired s₂ t)
    rw [← hs₃]
    exact (syncBindings_syncs (hd.hasSession.trans s2) technique force _ _).clear
      (dropExpired_clear s₂ t)

omit hs in
theorem comes_congr {s' : Scene} (ha : s'.bindingAlive = s.bindingAlive) (x : TechniqueState)
    (i : Holder) : s'.Comes x i ↔ s.Comes x i := by
  cases i <;> simp only [Comes, ha]

omit hs in
theorem AllSyncs.bindingAlive {s' : Scene} (h : AllSyncs s s') :
    s'.bindingAlive = s.bindingAlive :=
  bindingAlive_congr (fun i => Syncs.live h (.texture i)) fun i => Syncs.live h (.sampler i)

theorem syncTechnique_upTo {t : ℕ} {z : GlBaseTechnique} (hz : s.baseTechniques t = some z)
    (hu : s.Ready (.renderingUnit z.owner)) (force : Bool) :
    (∀ i, s.Comes z.current i → (s.syncTechnique t force).UpTo i) ∧
      (s.syncTechnique t force).UpTo (.baseTechnique t) := by
  have h1 : AllSyncs s (s.ensureTechnique t z) :=
    ensureTechnique_syncs hs hu trivial fun _ _ _ _ => trivial
  have r1 := ensureTechnique_ready hs hz
  have s1 := h1.hasSession.trans hs
  have he : s.syncTechnique t force = (s.ensureTechnique t z).syncTechniqueState t z.current
      force := by rw [syncTechnique, hz]
  rw [he, syncTechniqueState]
  cases hp : (s.ensureTechnique t z).proxyOf (.baseTechnique t) with
  | none =>
    rw [withRemoteId, hp]
    exact ⟨fun i _ => crash_upTo _ _ i, crash_upTo _ _ _⟩
  | some p =>
    rw [withRemoteId, hp]
    obtain ⟨h2, h3⟩ := syncState_upTo s1 t p.id z.current force
    have h4 : AllSyncs (s.ensureTechnique t z)
        ((s.ensureTechnique t z).syncState t p.id z.current force) :=
      syncState_syncs (fun _ _ => trivial) (fun _ _ => trivial) s1 t z.current force
    exact ⟨fun i hi => h2 i ((comes_congr (AllSyncs.bindingAlive h1) z.current i).mpr hi),
      (h4.ready r1).upTo h3⟩

omit hs in
theorem ensureUnit_techniques (u : ℕ) (y : RenderingUnit) :
    (s.ensureUnit u y).baseTechniques = s.baseTechniques := by
  have h1 (mk : ℕ → Call) :
      (s.ensureProxy (.renderingUnit u) mk).baseTechniques = s.baseTechniques := by
    unfold ensureProxy
    split
    · rfl
    · split <;> rfl
  unfold ensureUnit withRemoteId
  split
  · rfl
  · split
    · split
      · rfl
      · exact h1 _
    · rfl

/-- What is registered in the unit comes up to date with it. -/
theorem syncUnit_upTo (hk : SlotOk s) {u : ℕ} {y : RenderingUnit}
    (hy : s.renderingUnits u = some y) (hv : s.Ready (.virtualObject y.owner)) (force : Bool) :
    (syncUnit force s u).UpTo (.renderingUnit u) ∧
      ∀ t, y.technique = some t → (syncUnit force s u).UpTo (.baseTechnique t) ∧
        ∀ z i, s.baseTechniques t = some z → s.Comes z.current i →
          (syncUnit force s u).UpTo i := by
  have h1 : AllSyncs s (s.ensureUnit u y) := ensureUnit_syncs (fun _ _ => trivial) hs hv
  have r1 := ensureUnit_ready hs hy
  have s1 := h1.hasSession.trans hs
  cases ht : y.technique with
  | none =>
    have he : syncUnit force s u = s.ensureUnit u y := by simp only [syncUnit, hy, ht]
    rw [he]
    exact ⟨r1.upTo trivial, fun t h => (by cases h)⟩
  | some t =>
    have he : syncUnit force s u = (s.ensureUnit u y).syncTechnique t force := by
      simp only [syncUnit, hy, ht]
    obtain ⟨z, hz, hzu⟩ := hk u y t hy ht
    have hz1 : (s.ensureUnit u y).baseTechniques t = some z := by
      rw [ensureUnit_techniques]
      exact hz
    have hr : (s.ensureUnit u y).Ready (.renderingUnit z.owner) := hzu ▸ r1
    have h2 : AllSyncs (s.ensureUnit u y) ((s.ensureUnit u y).syncTechnique t force) :=
      syncTechnique_syncs (fun _ _ => trivial) s1 hz1 hr trivial (fun _ _ _ _ => trivial) force
    obtain ⟨h3, h4⟩ := syncTechnique_upTo s1 hz1 hr force
    rw [he]
    refine ⟨(h2.ready r1).upTo trivial, fun t' ht' => ?_⟩
    cases ht'
    refine ⟨h4, fun z' i hz' hi => h3 i ?_⟩
    cases hz.symm.trans hz'
    exact (comes_congr (AllSyncs.bindingAlive h1) z.current i).mpr hi

end Brings

/-- What is true of one unit of a list, for every unit of it. -/
theorem syncUnits_upTo {v : ℕ} {units : List ℕ} {s : Scene}
    (hi : SyncStart (fun _ => True) (fun _ => True) v units s) (force : Bool) {l : List ℕ}
    (hl : ∀ u ∈ l, u ∈ units) : ∀ u ∈ l, ∀ y, s.renderingUnits u = some y →
      (l.foldl (syncUnit force) s).UpTo (.renderingUnit u) ∧
        ∀ t, y.technique = some t → (l.foldl (syncUnit force) s).UpTo (.baseTechnique t) ∧
          ∀ z i, s.baseTechniques t = some z → s.Comes z.current i →
            (l.foldl (syncUnit force) s).UpTo i := by
  induction l generalizing s with
  | nil => simp
  | cons w l ih =>
    intro u hu y hy
    have hw := hl w List.mem_cons_self
    have h1 : AllSyncs s (syncUnit force s w) :=
      syncUnit_syncs (fun _ _ => trivial) hi.session hi.slot
        (fun y hy => by rw [hi.owner w hw y hy]; exact hi.ready)
        (fun _ _ _ _ => ⟨trivial, fun _ _ _ _ => trivial⟩) force
    have i1 := hi.next h1
    have hl' : ∀ u ∈ l, u ∈ units := fun u hu => hl u (List.mem_cons_of_mem w hu)
    have h2 : AllSyncs (syncUnit force s w) (l.foldl (syncUnit force) (syncUnit force s w)) :=
      Path.foldl (P := SyncStart (fun _ => True) (fun _ => True) v units)
        (fun _ _ h hi => hi.next (.single h))
        (fun s hi u hu => syncUnit_syncs (fun _ _ => trivial) hi.session hi.slot
          (fun y hy => by rw [hi.owner u (hl' u hu) y hy]; exact hi.ready)
          (fun _ _ _ _ => ⟨trivial, fun _ _ _ _ => trivial⟩) force) i1
    rcases List.mem_cons.mp hu with rfl | hu
    · have hv : s.Ready (.virtualObject y.owner) := by
        rw [hi.owner u hw y hy]
        exact hi.ready
      obtain ⟨h3, h4⟩ := syncUnit_upTo hi.session hi.slot hy hv force
      refine ⟨h2.upTo h3, fun t ht => ⟨h2.upTo (h4 t ht).1, fun z i hz hc => ?_⟩⟩
      exact h2.upTo ((h4 t ht).2 z i hz hc)
    · have hc1 := Syncs.content h1
      obtain ⟨y', hy', he⟩ := unit_of_content hc1.symm hy
      have ht' : y'.technique = y.technique := (congrArg RenderingUnit.technique he :)
      obtain ⟨h3, h4⟩ := ih i1 hl' u hu y' hy'
      refine ⟨h3, fun t ht => ?_⟩
      obtain ⟨h5, h6⟩ := h4 t (ht'.trans ht)
      refine ⟨h5, fun z i hz hc => ?_⟩
      obtain ⟨z', hz', he'⟩ := technique_of_content hc1.symm hz
      rw [bindingAlive_of_content hc1] at he'
      exact h6 z' i hz' ((comes_of_content hc1 he'.symm i).mpr hc)

/-- What the rounds of `VirtualObject::sync` start from, in every scene that is in order. -/
theorem syncStart {s : Scene} (hs : s.remote.hasSession) (hg : s.forest.Registered) {v : ℕ}
    {x : VirtualObject} (hx : s.virtualObjects v = some x) :
    SyncStart (fun _ => True) (fun _ => True) v x.renderingUnitList
      (s.ensureProxy (.virtualObject v) .createVirtualObject) := by
  have h1 : AllSyncs s (s.ensureProxy (.virtualObject v) .createVirtualObject) :=
    ensureProxy_syncs hs (by simp) trivial rfl
  refine ⟨h1.hasSession.trans hs, ensureProxy_ready hs (by simp [live, hx]),
    slotOk_of_content (Syncs.content h1) (slotOk_of_registered hg), ?_,
    fun _ _ _ _ _ _ => ⟨trivial, fun _ _ _ _ => trivial⟩⟩
  intro u hu y' hy'
  obtain ⟨y, hy, hyv⟩ := listOk_of_registered hg v x u hx hu
  obtain ⟨y₀, hy₀, he⟩ := unit_of_content (Syncs.content h1) hy'
  cases hy.symm.trans hy₀
  exact (congrArg RenderingUnit.owner he :).symm.trans hyv

/-- After a sync all that it comes to is up to date. -/
theorem syncVirtualObject_upTo {s : Scene} (hs : s.remote.hasSession) (hg : s.forest.Registered)
    {v : ℕ} {x : VirtualObject} (hx : s.virtualObjects v = some x) (ha : x.app.isSome)
    (force : Bool) {i : Holder} (hi : s.Reached v i) : (s.syncVirtualObject v force).UpTo i := by
  obtain ⟨b, hb⟩ := Option.isSome_iff_exists.mp ha
  have hi0 := syncStart hs hg hx
  have h1 : AllSyncs s (s.ensureProxy (.virtualObject v) .createVirtualObject) :=
    ensureProxy_syncs hs (by simp) trivial rfl
  have he : s.syncVirtualObject v force =
      (s.ensureProxy (.virtualObject v) .createVirtualObject).syncParts v b x.renderingUnitList
        force := by simp only [syncVirtualObject, hx, hb]
  generalize s.ensureProxy (.virtualObject v) .createVirtualObject = s₁ at hi0 h1 he
  rw [he, syncParts]
  split
  · exact crash_upTo _ _ i
  · next app _ =>
    cases hp : s₁.proxyOf (.virtualObject v) with
    | none =>
      rw [withRemoteId, hp]
      exact crash_upTo _ _ i
    | some p =>
      rw [withRemoteId, hp]
      have h2 : AllSyncs s₁ (s₁.call (.move p.id app.polar app.azimuthal)) :=
        call_syncs _ trivial rfl
      have hi1 := hi0.next h2
      have h3 : AllSyncs (s₁.call (.move p.id app.polar app.azimuthal)) (x.renderingUnitList.foldl
          (syncUnit force) (s₁.call (.move p.id app.polar app.azimuthal))) :=
        syncUnits_syncs (fun _ _ => trivial) hi1 force
      have h4 : AllSyncs (x.renderingUnitList.foldl (syncUnit force)
          (s₁.call (.move p.id app.polar app.azimuthal))) ((x.renderingUnitList.foldl
            (syncUnit force) (s₁.call (.move p.id app.polar app.azimuthal))).call (.commit p.id)) :=
        call_syncs _ trivial rfl
      have hc := Syncs.content (Relation.ReflTransGen.trans h1 h2)
      have units := syncUnits_upTo hi1 force (l := x.renderingUnitList) fun _ h => h
      have ofUnit (u : ℕ) (hu : u ∈ s.unitsOf v) : u ∈ x.renderingUnitList := by
        simpa [unitsOf, hx] using hu
      have ofTechnique (t : ℕ) (ht : t ∈ s.registered v) :
          ∃ u ∈ x.renderingUnitList, ∃ y,
            (s₁.call (.move p.id app.polar app.azimuthal)).renderingUnits u = some y ∧
              y.technique = some t := by
        obtain ⟨u, hu, y, hy, ht⟩ := mem_registered.mp ht
        obtain ⟨y', hy', he⟩ := unit_of_content hc.symm hy
        exact ⟨u, ofUnit u hu, y', hy', (congrArg RenderingUnit.technique he :).trans ht⟩
      have leaf (hi : ∃ t z, t ∈ s.registered v ∧ s.baseTechniques t = some z ∧
          s.Comes z.current i) : (x.renderingUnitList.foldl (syncUnit force)
            (s₁.call (.move p.id app.polar app.azimuthal))).UpTo i := by
        obtain ⟨t, z, ht, hz, hcm⟩ := hi
        obtain ⟨u, hu, y, hy, ht⟩ := ofTechnique t ht
        obtain ⟨z', hz', he'⟩ := technique_of_content hc.symm hz
        rw [bindingAlive_of_content hc] at he'
        exact ((units u hu y hy).2 t ht).2 z' i hz' ((comes_of_content hc he'.symm i).mpr hcm)
      refine h4.upTo ?_
      cases i with
      | virtualObject j =>
        cases hi
        exact h3.upTo (hi1.ready.upTo trivial)
      | renderingUnit u =>
        have hu := ofUnit u hi
        have hl : s.live (.renderingUnit u) := by
          obtain ⟨y, hy, -⟩ := listOk_of_registered hg v x u hx hu
          simp [live, hy]
        rw [← live_of_content hc] at hl
        obtain ⟨y, hy⟩ := Option.isSome_iff_exists.mp hl
        exact (units u hu y hy).1
      | baseTechnique t =>
        obtain ⟨u, hu, y, hy, ht⟩ := ofTechnique t hi
        exact ((units u hu y hy).2 t ht).1
      | _ => exact leaf hi

end Scene
end Yaza
