import Yaza.Zwin.Sending
import Yaza.Zwin.Recommit
import Yaza.Gles.Direct

/-! The sync of a virtual object of which everything is up to date, and whose techniques were not
changed: with no vertex attribute and no sampler parameter to come to, it moves the remote object
and commits it, and makes no other call. -/
namespace Yaza

theorem UniformVariableList.syncCalls_of_old {technique : ℕ} {l : UniformVariableList}
    (h : ∀ v ∈ l, v.newlyComitted = false) : syncCalls technique false l = [] := by
  have hl : l.filter (fun v => false || v.newlyComitted) = [] := by
    apply List.filter_eq_nil_iff.mpr
    intro v hv
    simp [h v hv]
  rw [syncCalls, hl]
  rfl

namespace Scene

/-- The object is alive, has its proxy, and nothing of it waits to be told. -/
structure Told (s : Scene) (h : Holder) : Prop where
  live : s.live h
  proxy : (s.proxyOf h).isSome
  clear : s.Clear h

theorem UpTo.told {s : Scene} {h : Holder} (hu : s.UpTo h) (hf : s.fault = none)
    (hl : s.live h) : s.Told h :=
  ⟨hl, (hu hf hl).1, (hu hf hl).2⟩

theorem ensureProxy_of_proxy {s : Scene} {h : Holder} (hp : (s.proxyOf h).isSome)
    (mk : ℕ → Call) : s.ensureProxy h mk = s := by
  rw [ensureProxy, if_pos hp]

section Objects
variable {s : Scene}

theorem Told.syncBuffer {b : ℕ} (h : s.Told (.buffer b)) : s.syncBuffer b false = s := by
  obtain ⟨x, hx⟩ := Option.isSome_iff_exists.mp h.live
  have hd := h.clear x.current (by simp [hx])
  simp only [Scene.syncBuffer, hx, hd]
  exact ensureProxy_of_proxy h.proxy _

theorem Told.syncTexture {t : ℕ} (h : s.Told (.texture t)) : s.syncTexture t false = s := by
  obtain ⟨x, hx⟩ := Option.isSome_iff_exists.mp h.live
  obtain ⟨h1, h2⟩ := h.clear x.current (by simp [hx])
  simp [Scene.syncTexture, hx, ensureProxy_of_proxy h.proxy, tellImage, tellMipmap, h1, h2]

/-- A sampler with no parameters. -/
theorem Told.syncSampler {p : ℕ} (h : s.Told (.sampler p)) (hk : s.keys (.sampler p) = []) :
    s.syncSampler p false = s := by
  obtain ⟨x, hx⟩ := Option.isSome_iff_exists.mp h.live
  simp only [keys, hx, Option.map_some, Option.getD_some, List.map_eq_nil_iff] at hk
  simp [Scene.syncSampler, hx, hk, ensureProxy_of_proxy h.proxy]

theorem syncShader_of_proxy {h : ℕ} (hl : s.shaderAlive h)
    (hp : (s.proxyOf (.shader h)).isSome) : s.syncShader h = s := by
  obtain ⟨x, hx⟩ := Option.isSome_iff_exists.mp hl
  have hy : x.proxy.isSome := by simpa [proxyOf, hx] using hp
  rw [syncShader, hx]
  exact if_pos hy

theorem Told.syncProgram {p : ℕ} (h : s.Told (.program p)) : s.syncProgram p false = s := by
  obtain ⟨x, hx⟩ := Option.isSome_iff_exists.mp h.live
  obtain ⟨h1, h2⟩ := h.clear x.current (by simp [hx])
  have h3 : x.current.shaders.filter s.shaderAlive = x.current.shaders :=
    List.filter_eq_self.mpr fun i hi => (h2 i hi).1
  have h4 : s.dropExpiredShaders p = s := by
    have hm : (s.glPrograms.modify p fun x =>
        { x with current.shaders := x.current.shaders.filter s.shaderAlive }) = s.glPrograms := by
      apply Arena.modify_eq_self
      intro y hy
      cases hx.symm.trans hy
      simp only [h3]
    rw [dropExpiredShaders, hm]
  have h5 : x.current.shaders.foldl (syncAttached p false) s = s :=
    Path.foldl_const (g := id) (P := fun s h => s.shaderAlive h ∧ (s.proxyOf (.shader h)).isSome)
      (fun s h hp => by
        show syncAttached p false s h = s
        rw [syncAttached, syncShader_of_proxy hp.1 hp.2]
        rfl)
      (fun s s' h he hp => by
        obtain rfl : s' = s := he
        exact hp) h2
  simp only [Scene.syncProgram, hx, h1, h3, ensureProxy_of_proxy h.proxy, h4, Bool.or_false, h5]
  rfl

/-- A vertex array of which no attribute has a buffer. -/
theorem Told.syncVertexArray {va : ℕ} (h : s.Told (.vertexArray va))
    (hk : s.keys (.vertexArray va) = []) : s.syncVertexArray va false = s := by
  obtain ⟨x, hx⟩ := Option.isSome_iff_exists.mp h.live
  simp only [keys, hx, Option.map_some, Option.getD_some, List.map_eq_nil_iff,
    List.filter_eq_nil_iff, Bool.not_eq_true, Option.isSome_eq_false_iff,
    Option.isNone_iff_eq_none] at hk
  simp only [Scene.syncVertexArray, hx, ensureProxy_of_proxy h.proxy]
  exact Path.foldl_const (g := id) (P := fun s e => s.glBuffers.lock e.2.glBuffer = none)
    (fun s e he => by
      show syncAttribute va false s e = s
      rw [syncAttribute, he])
    (fun s s' e hs he => by
      obtain rfl : s' = s := hs
      exact he) hk

end Objects

/-- A sync of the technique has nothing to tell. -/
structure Settled (s : Scene) (x : TechniqueState) : Prop where
  told : ∀ h, s.Comes x h → s.live h → s.Told h
  unchanged : x.Unchanged
  bindings : ∀ b ∈ x.textureBindings.list, s.bindingAlive b
  keys : ∀ h ∈ s.tables x, s.keys h = []

section Techniques
variable {s : Scene} {x : TechniqueState} (hx : s.Settled x)
include hx

theorem Settled.syncBoundVertexArray (technique : ℕ) :
    s.syncBoundVertexArray technique x false = s := by
  unfold Scene.syncBoundVertexArray
  split
  · rfl
  · next va hl =>
    obtain ⟨hv, ha⟩ := Arena.lock_eq_some.mp hl
    have ht : Holder.vertexArray va ∈ s.tables x := by
      simp [tables, hl]
    rw [(hx.told (.vertexArray va) hv ha).syncVertexArray (hx.keys _ ht), hx.unchanged.vertexArray]
    rfl

theorem Settled.syncBoundProgram (technique : ℕ) : s.syncBoundProgram technique x false = s := by
  unfold Scene.syncBoundProgram
  split
  · rfl
  · next p hl =>
    obtain ⟨hp, ha⟩ := Arena.lock_eq_some.mp hl
    rw [(hx.told (.program p) hp ha).syncProgram, hx.unchanged.program]
    rfl

/-- The bindings of the technique `t`, whose current state this is. -/
theorem Settled.syncTextureBindings {t : ℕ} {z : GlBaseTechnique}
    (hz : s.baseTechniques t = some z) (hc : z.current = x) (technique : ℕ) :
    s.syncTextureBindings t technique x.textureBindings false = s := by
  have h1 : x.textureBindings.removeExpired s.bindingAlive = x.textureBindings := by
    have := List.filter_eq_self.mpr hx.bindings
    simp only [TextureBindingList.removeExpired, this]
  have h2 : s.dropExpired t = s := by
    have hm : (s.baseTechniques.modify t fun x => { x with
        current := { x.current with
          textureBindings := x.current.textureBindings.removeExpired s.bindingAlive } }) =
        s.baseTechniques := by
      apply Arena.modify_eq_self
      intro y hy
      cases hz.symm.trans hy
      simp only [hc, h1]
      rw [← hc]
    rw [dropExpired, hm]
  have h3 : ∀ b ∈ x.textureBindings.list, s.Told (.texture b.texture) ∧
      s.Told (.sampler b.sampler) ∧ s.keys (.sampler b.sampler) = [] := by
    intro b hb
    have ha := hx.bindings b hb
    simp only [bindingAlive, Bool.and_eq_true] at ha
    refine ⟨hx.told _ ⟨b, hb, hx.bindings b hb, rfl⟩ ha.1,
      hx.told _ ⟨b, hb, hx.bindings b hb, rfl⟩ ha.2, hx.keys _ ?_⟩
    apply mem_tables.mpr
    exact ⟨ha.2, ⟨b, hb, hx.bindings b hb, rfl⟩, .inr ⟨_, rfl⟩⟩
  rw [Scene.syncTextureBindings, h1, h2, hx.unchanged.textures]
  exact Path.foldl_const (g := id)
    (P := fun s b => s.Told (.texture b.texture) ∧ s.Told (.sampler b.sampler) ∧
      s.keys (.sampler b.sampler) = [])
    (fun s b hb => by
      show syncTextureBinding technique false false s b = s
      rw [syncTextureBinding, hb.1.syncTexture, hb.2.1.syncSampler hb.2.2]
      rfl)
    (fun s s' b hs hb => by
      obtain rfl : s' = s := hs
      exact hb) h3

theorem Settled.syncDraw (technique : ℕ) : s.syncDraw technique x.drawApiArgs false = s := by
  unfold Scene.syncDraw
  split
  · rfl
  · simp [hx.unchanged.draw]
  · next b hd =>
    split
    · next hl =>
      have hb : s.Told (.buffer b) := hx.told (.buffer b) (by simp [Comes, DrawApiArgs.refs, hd]) hl
      rw [hb.syncBuffer, hx.unchanged.draw]
      rfl
    · rfl

/-- The sync of a technique that has its proxy. -/
theorem Settled.syncTechnique {t : ℕ} {z : GlBaseTechnique} (hz : s.baseTechniques t = some z)
    (hc : z.current = x) (hp : (s.proxyOf (.baseTechnique t)).isSome) :
    s.syncTechnique t false = s := by
  obtain ⟨p, hq⟩ := Option.isSome_iff_exists.mp hp
  have hy : z.proxy.isSome := by simpa [proxyOf, hz] using hp
  have he : s.ensureTechnique t z = s := by rw [ensureTechnique, if_pos hy]
  simp only [Scene.syncTechnique, hz, he, hc, syncTechniqueState, withRemoteId, hq, syncState,
    hx.syncBoundVertexArray, hx.syncBoundProgram, hx.syncTextureBindings hz hc,
    UniformVariableList.syncCalls_of_old hx.unchanged.uniforms]
  have h2 : s.callAll [] = s := by simp [callAll]
  rw [h2, hx.syncDraw]

end Techniques

/-- A sync of the virtual object has nothing to tell but where it is. -/
structure Silent (s : Scene) (v : ℕ) : Prop where
  running : s.fault = none
  upTo : ∀ h, s.Reached v h → s.UpTo h
  unchanged : ∀ t z, t ∈ s.registered v → s.baseTechniques t = some z → z.current.Unchanged
  entries : s.entries v = []

namespace Silent
variable {s : Scene} {v : ℕ} (hv : s.Silent v)
include hv

theorem settled {t : ℕ} {z : GlBaseTechnique} (ht : t ∈ s.registered v)
    (hz : s.baseTechniques t = some z) : s.Settled z.current where
  told := fun h hc hl => by
    refine UpTo.told (hv.upTo h ?_) hv.running hl
    cases h with
    | virtualObject | renderingUnit | baseTechnique => exact hc.elim
    | _ => exact ⟨t, z, ht, hz, hc⟩
  unchanged := hv.unchanged t z ht hz
  bindings := ((hv.upTo (.baseTechnique t) ht).told hv.running (by simp [live, hz])).clear
    z.current (by simp [hz])
  keys := fun h hh => by
    apply List.eq_nil_iff_forall_not_mem.mpr
    intro k hk
    have he : (h, k) ∈ s.entries v := mem_entries.mpr ⟨mem_tablesOf.mpr ⟨t, z, ht, hz, hh⟩, hk⟩
    rw [hv.entries] at he
    cases he

theorem syncUnit (hk : SlotOk s) {u : ℕ} (hu : u ∈ s.unitsOf v) {y : RenderingUnit}
    (hy : s.renderingUnits u = some y) : syncUnit false s u = s := by
  have hp := ((hv.upTo (.renderingUnit u) hu).told hv.running (by simp [live, hy])).proxy
  have hq : y.proxy.isSome := by simpa [proxyOf, hy] using hp
  have he : s.ensureUnit u y = s := by rw [ensureUnit, if_pos hq]
  cases ht : y.technique with
  | none => simp only [Scene.syncUnit, hy, ht, he]
  | some t =>
    obtain ⟨z, hz, -⟩ := hk u y t hy ht
    have hr : t ∈ s.registered v := mem_registered.mpr ⟨u, hu, y, hy, ht⟩
    have h1 := ((hv.upTo (.baseTechnique t) hr).told hv.running (by simp [live, hz])).proxy
    simp only [Scene.syncUnit, hy, ht, he]
    exact (hv.settled hr hz).syncTechnique hz rfl h1

/-- A call on the session changes nothing of it. -/
theorem call (c : Call) : (s.call c).Silent v where
  running := hv.running
  upTo := fun h hh => by
    have hu := hv.upTo h (by cases h <;> exact hh)
    cases h <;> exact hu
  unchanged := hv.unchanged
  entries := hv.entries

/-- `VirtualObject::sync` moves the remote object and commits it. -/
theorem syncVirtualObject (hg : s.forest.Registered) {x : VirtualObject}
    (hx : s.virtualObjects v = some x) (ha : x.app.isSome)
    (hf : (s.syncVirtualObject v false).fault = none) :
    ∃ p polar azimuthal, s.proxyOf (.virtualObject v) = some p ∧
      s.syncVirtualObject v false =
        (s.call (.move p.id polar azimuthal)).call (.commit p.id) := by
  obtain ⟨b, hb⟩ := Option.isSome_iff_exists.mp ha
  have h1 := (hv.upTo (.virtualObject v) rfl).told hv.running (by simp [live, hx])
  obtain ⟨p, hp⟩ := Option.isSome_iff_exists.mp h1.proxy
  simp only [Scene.syncVirtualObject, hx, hb, ensureProxy_of_proxy h1.proxy] at hf ⊢
  unfold syncParts at hf ⊢
  split at hf
  · exact absurd hf (crash_running _ _)
  · next app ha =>
    refine ⟨p, app.polar, app.azimuthal, hp, ?_⟩
    have hc := hv.call (.move p.id app.polar app.azimuthal)
    have hk : SlotOk (s.call (.move p.id app.polar app.azimuthal)) := slotOk_of_registered hg
    have hl := listOk_of_registered hg v x
    have hu : x.renderingUnitList.foldl (Scene.syncUnit false)
        (s.call (.move p.id app.polar app.azimuthal)) =
        s.call (.move p.id app.polar app.azimuthal) :=
      Path.foldl_const (g := id)
        (P := fun s' u => s' = s.call (.move p.id app.polar app.azimuthal) ∧
          u ∈ x.renderingUnitList)
        (fun s' u h => by
          obtain ⟨rfl, hu⟩ := h
          obtain ⟨y, hy, -⟩ := hl u hx hu
          exact hc.syncUnit hk (by simpa [unitsOf, Scene.call, hx] using hu) hy)
        (fun s' s₂ u h hu => ⟨h.trans hu.1, hu.2⟩) fun u hu => ⟨rfl, hu⟩
    simp only [withRemoteId, hp, hu]

end Silent

section Recommit
variable {s : Scene} {v : ℕ}

/-- The commit of a technique of which nothing was requested comes to no other objects. -/
theorem comes_of_commit {s' : Scene} (ha : s'.bindingAlive = s.bindingAlive) {z : GlBaseTechnique}
    (hi : z.pending.Idle) {x : Holder} (h : s'.Comes (z.commit s.bindingAlive).current x) :
    s.Comes z.current x := by
  have hl (b : TextureBinding)
      (hb : b ∈ (z.commit s.bindingAlive).current.textureBindings.list) :
      b ∈ z.current.textureBindings.list := by
    simp only [GlBaseTechnique.commit, TechniqueState.commit, TextureBindingList.commit,
      hi.textureBindings] at hb
    exact List.mem_of_mem_filter hb
  cases x with
  | vertexArray va =>
    simpa [Comes, GlBaseTechnique.commit, TechniqueState.commit, hi.vertexArray] using h
  | program p => simpa [Comes, GlBaseTechnique.commit, TechniqueState.commit, hi.program] using h
  | buffer b =>
    simpa [Comes, GlBaseTechnique.commit, TechniqueState.commit, DrawApiArgs.commit,
      DrawApiArgs.refs, hi.drawApiArgs] using h
  | texture t =>
    obtain ⟨b, hb, hb', he⟩ := h
    exact ⟨b, hl b hb, ha ▸ hb', he⟩
  | sampler p =>
    obtain ⟨b, hb, hb', he⟩ := h
    exact ⟨b, hl b hb, ha ▸ hb', he⟩
  | _ => exact h

/-- A registered technique belongs to the virtual object. -/
theorem belongs_of_registered (hg : s.forest.Registered) {x : VirtualObject}
    (hx : s.virtualObjects v = some x) {t : ℕ} (ht : t ∈ s.registered v) :
    ∃ z, s.baseTechniques t = some z ∧ s.BelongsTo z v := by
  obtain ⟨u, hu, y, hy, hyt⟩ := mem_registered.mp ht
  obtain ⟨z, hz, hzu⟩ := slotOk_of_registered hg u y t hy hyt
  obtain ⟨y', hy', hv⟩ := listOk_of_registered hg v x u hx (by simpa [unitsOf, hx] using hu)
  cases hy.symm.trans hy'
  exact ⟨z, hz, by simp [BelongsTo, ownerOf, hzu, hy, hv]⟩

variable (hw : Wired s) (hr : s.Rests v)
include hw hr

theorem commitState_unitsOf : (s.commitState v).unitsOf v = s.unitsOf v := by
  have hm := congrArg (Option.map VirtualObject.renderingUnitList)
    (congrFun (congrArg Scene.virtualObjects (commitState_limbs hw hr)) v)
  simp only [limbs, Arena.mapAll_apply, Option.map_map] at hm
  exact congrArg (Option.getD · []) hm

theorem commitState_registered : (s.commitState v).registered v = s.registered v := by
  have hu : (s.commitState v).renderingUnits = s.renderingUnits :=
    (congrArg Scene.renderingUnits (commitState_limbs hw hr) :)
  simp only [registered, commitState_unitsOf hw hr, hu]

/-- What the commit leaves of an object that was told. -/
theorem commitState_clear {x : Holder} (hx : ∀ t, x ≠ .baseTechnique t) (h : s.Clear x) :
    (s.commitState v).Clear x := by
  have hl := commitState_limbs hw hr
  have hk := (commitState_commits_true s v).skeleton
  cases x with
  | baseTechnique t => exact absurd rfl (hx t)
  | buffer b =>
    have he : (s.commitState v).glBuffers = s.glBuffers := (congrArg Scene.glBuffers hl :)
    simpa only [Clear, he] using h
  | texture t =>
    have he : (s.commitState v).glTextures = s.glTextures := (congrArg Scene.glTextures hl :)
    simpa only [Clear, he] using h
  | program p =>
    have he : (s.commitState v).glPrograms = s.glPrograms := (congrArg Scene.glPrograms hl :)
    have hs : (s.commitState v).glShaders = s.glShaders := (congrArg Scene.glShaders hl :)
    simpa only [Clear, he, shaderAlive, hs, proxyOf_of_skeleton hk] using h
  | _ => trivial

theorem commitState_keys (x : Holder) : (s.commitState v).keys x = s.keys x := by
  have hl := commitState_limbs hw hr
  have hb : (s.commitState v).glBuffers = s.glBuffers := (congrArg Scene.glBuffers hl :)
  have ha : (s.commitState v).glVertexArrays = s.glVertexArrays :=
    (congrArg Scene.glVertexArrays hl :)
  have hp : (s.commitState v).glSamplers = s.glSamplers := (congrArg Scene.glSamplers hl :)
  cases x <;> simp only [keys, hb, ha, hp]

theorem commitState_live (x : Holder) : (s.commitState v).live x = s.live x := by
  have hl := commitState_limbs hw hr
  cases x with
  | virtualObject i => exact Arena.isSome_of_mapAll (congrArg Scene.virtualObjects hl) i
  | baseTechnique t =>
    exact Arena.isSome_of_mapAll
      (congrArg Scene.baseTechniques (commitState_commits_true s v).skeleton) t
  | renderingUnit i => exact congrArg (fun s => (s.renderingUnits i).isSome) hl
  | program i => exact congrArg (fun s => (s.glPrograms i).isSome) hl
  | shader i => exact congrArg (fun s => (s.glShaders i).isSome) hl
  | vertexArray i => exact congrArg (fun s => (s.glVertexArrays i).isSome) hl
  | buffer i => exact congrArg (fun s => (s.glBuffers i).isSome) hl
  | texture i => exact congrArg (fun s => (s.glTextures i).isSome) hl
  | sampler i => exact congrArg (fun s => (s.glSamplers i).isSome) hl

variable (hg : s.forest.Registered) (hv : (s.virtualObjects v).isSome)
include hg hv

/-- A registered technique is the same but for its flags and the bindings that expired. -/
theorem commitState_technique {t : ℕ} (ht : t ∈ s.registered v) :
    ∃ z, s.baseTechniques t = some z ∧ z.pending.Idle ∧
      (s.commitState v).baseTechniques t = some (z.commit s.bindingAlive) := by
  obtain ⟨x, hx⟩ := Option.isSome_iff_exists.mp hv
  obtain ⟨z, hz, hb⟩ := belongs_of_registered hg hx ht
  refine ⟨z, hz, (hr.techniques t z hz hb).pending, ?_⟩
  have ho : s.ownerOf (.unit z.owner) = some v := hb
  rw [commitState_techniques hw hv]
  simp [hz, ho]

theorem commitState_reached {x : Holder} (h : (s.commitState v).Reached v x) :
    s.Reached v x := by
  have hr' := commitState_registered hw hr
  have ha := bindingAlive_of_skeleton (commitState_commits_true s v).skeleton
  have leaf (h : ∃ t z, t ∈ (s.commitState v).registered v ∧
      (s.commitState v).baseTechniques t = some z ∧ (s.commitState v).Comes z.current x) :
      ∃ t z, t ∈ s.registered v ∧ s.baseTechniques t = some z ∧ s.Comes z.current x := by
    obtain ⟨t, z', ht, hz', hc⟩ := h
    rw [hr'] at ht
    obtain ⟨z, hz, hi, hz₁⟩ := commitState_technique hw hr hg hv ht
    cases hz'.symm.trans hz₁
    exact ⟨t, z, ht, hz, comes_of_commit ha hi hc⟩
  cases x with
  | virtualObject i => exact h
  | renderingUnit u => simpa only [Reached, commitState_unitsOf hw hr] using h
  | baseTechnique t => simpa only [Reached, hr'] using h
  | _ => exact leaf h

/-- The commit brings no entries. -/
theorem commitState_entries {e : Holder × UInt32} (he : e ∈ (s.commitState v).entries v) :
    e ∈ s.entries v := by
  obtain ⟨h1, h2⟩ := mem_entries.mp he
  rw [commitState_keys hw hr] at h2
  obtain ⟨t, z', ht, hz', hh⟩ := mem_tablesOf.mp h1
  rw [commitState_registered hw hr] at ht
  obtain ⟨z, hz, hi, hz₁⟩ := commitState_technique hw hr hg hv ht
  cases hz'.symm.trans hz₁
  obtain ⟨hl, hc, hk⟩ := mem_tables.mp hh
  rw [commitState_live hw hr] at hl
  have ha := bindingAlive_of_skeleton (commitState_commits_true s v).skeleton
  exact mem_entries.mpr ⟨mem_tablesOf.mpr ⟨t, z, ht, hz,
    mem_tables.mpr ⟨hl, comes_of_commit ha hi hc, hk⟩⟩, h2⟩

theorem commitState_upTo (hf : s.fault = none) {x : Holder} (h : (s.commitState v).Reached v x)
    (hu : s.UpTo x) : (s.commitState v).UpTo x := by
  have hk := commitState_commits_true s v
  intro _ hl
  rw [commitState_live hw hr] at hl
  obtain ⟨h1, h2⟩ := hu hf hl
  refine ⟨by rw [proxyOf_of_skeleton hk.skeleton]; exact h1, ?_⟩
  cases x with
  | baseTechnique t =>
    have ht : t ∈ s.registered v := commitState_reached hw hr hg hv h
    obtain ⟨z, hz, hi, hz₁⟩ := commitState_technique hw hr hg hv ht
    intro c hc b hb
    simp only [hz₁, Option.map_some, Option.some.injEq] at hc
    rw [← hc] at hb
    simp only [GlBaseTechnique.commit, TechniqueState.commit, TextureBindingList.commit,
      hi.textureBindings, TextureBindingList.removeExpired] at hb
    rw [bindingAlive_of_skeleton hk.skeleton]
    exact (List.mem_filter.mp hb).2
  | _ => exact commitState_clear hw hr (by simp) h2

/-- After a further commit there is nothing to tell, unless entries are left to come to. -/
theorem commitState_silent (hs : s.fault = none) (hu : ∀ x, s.Reached v x → s.UpTo x)
    (hf : (s.commitState v).fault = none) (he : (s.commitState v).entries v = []) :
    (s.commitState v).Silent v where
  running := hf
  upTo := fun x hx =>
    commitState_upTo hw hr hg hv hs hx (hu x (commitState_reached hw hr hg hv hx))
  unchanged := fun t z' ht hz' => by
    rw [commitState_registered hw hr] at ht
    obtain ⟨z, hz, hi, hz₁⟩ := commitState_technique hw hr hg hv ht
    cases hz'.symm.trans hz₁
    have hc : z.pending.Clean :=
      ⟨hi.program, hi.vertexArray, hi.drawApiArgs, hi.uniformVars, hi.textureBindings⟩
    exact hc.unchanged_commit s.bindingAlive z.current
  entries := he

end Recommit

end Scene
end Yaza
