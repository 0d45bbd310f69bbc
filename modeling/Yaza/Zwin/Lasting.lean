import Yaza.Zwin.Mirroring
import Yaza.Zwin.Bindings

/-! What a remote technique was told stays right while objects come and go: requests and
destructions make no call, the objects that are left keep their proxies, and none is revived. -/
namespace Yaza

/-- The address of an object that a setting can refer to. -/
def Scene.Holder.leaf? : Scene.Holder → Option ℕ
  | .program i | .vertexArray i | .buffer i | .texture i | .sampler i => some i
  | _ => none

/-- The objects that a setting refers to are alive. -/
def Setting.alive (live : Scene.Holder → Bool) (y : Setting) : Bool := y.holders.all live

def DrawData.settings : DrawData → List Setting
  | .none => []
  | .arrays mode first count => [.drawArrays mode first count]
  | .elements mode count type offset b => [.drawElements mode count type offset b]

/-- The state of a technique as settings, with what refers to an object that is gone. -/
def TechniqueState.settings (x : TechniqueState) : List Setting :=
  x.vertexArray.toList.map .vertexArray ++ x.program.toList.map .program ++
    x.textureBindings.list.map .texture ++ x.uniformVars.map UniformVariable.setting ++
      x.drawApiArgs.data.settings

namespace TechniqueState

theorem mem_settings {x : TechniqueState} {y : Setting} :
    y ∈ x.settings ↔ (∃ va, x.vertexArray = some va ∧ y = .vertexArray va) ∨
      (∃ p, x.program = some p ∧ y = .program p) ∨
      (∃ b ∈ x.textureBindings.list, y = .texture b) ∨
      (∃ v ∈ x.uniformVars, y = v.setting) ∨ y ∈ x.drawApiArgs.data.settings := by
  simp only [settings, List.mem_append, List.mem_map, Option.mem_toList, or_assoc, eq_comm]

theorem setting_holders (v : UniformVariable) : v.setting.holders = [] := by
  unfold UniformVariable.setting
  split <;> rfl

theorem setting_alive (v : UniformVariable) (live : Scene.Holder → Bool) :
    v.setting.alive live = true := by
  rw [Setting.alive, setting_holders]
  rfl

theorem draw_settings {d : DrawData} {y w : Setting} (hy : y ∈ d.settings) :
    y.part = .draw ∧ (w ∈ d.settings → w = y) := by
  unfold DrawData.settings at hy ⊢
  split at hy
  · cases hy
  · rw [List.mem_singleton.mp hy]
    exact ⟨rfl, List.mem_singleton.mp⟩
  · rw [List.mem_singleton.mp hy]
    exact ⟨rfl, List.mem_singleton.mp⟩

/-- A setting refers to what the state refers to. -/
theorem leaf_of_settings {x : TechniqueState} {y : Setting} (hy : y ∈ x.settings)
    {h : Scene.Holder} (hh : h ∈ y.holders) : ∃ i ∈ x.refs, h.leaf? = some i := by
  rcases mem_settings.mp hy with ⟨va, h1, rfl⟩ | ⟨p, h1, rfl⟩ | ⟨b, h1, rfl⟩ | ⟨v, -, rfl⟩ | h1
  · rw [List.mem_singleton.mp hh]
    exact ⟨va, vertexArray_mem_refs h1, rfl⟩
  · rw [List.mem_singleton.mp hh]
    exact ⟨p, program_mem_refs h1, rfl⟩
  · rcases List.mem_pair.mp hh with rfl | rfl
    · exact ⟨b.texture, (texture_mem_refs h1).1, rfl⟩
    · exact ⟨b.sampler, (texture_mem_refs h1).2, rfl⟩
  · rw [setting_holders] at hh
    cases hh
  · unfold DrawData.settings at h1
    split at h1
    · cases h1
    · rw [List.mem_singleton.mp h1] at hh
      cases hh
    · next hd =>
      rw [List.mem_singleton.mp h1] at hh
      rw [List.mem_singleton.mp hh]
      exact ⟨_, mem_refs.mpr (.inr (.inr (.inr (by simp [DrawApiArgs.refs, hd])))), rfl⟩

/-- No two bindings are for the same slot. -/
def Distinct (x : TechniqueState) : Prop :=
  (x.textureBindings.list.map TextureBinding.binding).Nodup

/-- What the part of a setting tells about it. -/
theorem of_part {x : TechniqueState} {y : Setting} (hy : y ∈ x.settings) :
    match y.part with
    | .vertexArray => ∃ va, x.vertexArray = some va ∧ y = .vertexArray va
    | .program => ∃ p, x.program = some p ∧ y = .program p
    | .texture i => ∃ b ∈ x.textureBindings.list, b.binding = i ∧ y = .texture b
    | .uniform _ => y.holders = []
    | .draw => y ∈ x.drawApiArgs.data.settings := by
  rcases mem_settings.mp hy with ⟨va, h, rfl⟩ | ⟨p, h, rfl⟩ | ⟨b, h, rfl⟩ | ⟨v, -, rfl⟩ | h
  · exact ⟨va, h, rfl⟩
  · exact ⟨p, h, rfl⟩
  · exact ⟨b, h, rfl, rfl⟩
  · rw [Scene.uniform_part]
    exact setting_holders v
  · rw [(draw_settings (w := y) h).1]
    exact h

/-- Only uniform variables share a part, and these refer to no object. -/
theorem Distinct.alive_of_part {x : TechniqueState} (hx : x.Distinct) {y w : Setting}
    (hy : y ∈ x.settings) (hw : w ∈ x.settings) (hp : y.part = w.part)
    {live : Scene.Holder → Bool} (ha : y.alive live) : w.alive live := by
  have h1 := of_part hy
  have h2 := of_part hw
  rw [← hp] at h2
  cases hk : y.part with
  | vertexArray =>
    rw [hk] at h1 h2
    obtain ⟨va, h, rfl⟩ := h1
    obtain ⟨va', h', rfl⟩ := h2
    cases h.symm.trans h'
    exact ha
  | program =>
    rw [hk] at h1 h2
    obtain ⟨p, h, rfl⟩ := h1
    obtain ⟨p', h', rfl⟩ := h2
    cases h.symm.trans h'
    exact ha
  | texture i =>
    rw [hk] at h1 h2
    obtain ⟨b, h, hi, rfl⟩ := h1
    obtain ⟨b', h', hi', rfl⟩ := h2
    cases List.inj_on_of_nodup_map hx h h' (hi.trans hi'.symm)
    exact ha
  | uniform =>
    rw [hk] at h2
    rw [Setting.alive, show w.holders = [] from h2]
    rfl
  | draw =>
    rw [hk] at h1 h2
    rw [(draw_settings h1).2 h2]
    exact ha

end TechniqueState

namespace Scene

/-- The settings of a state are those whose objects are alive. -/
theorem settings_eq_filter (s : Scene) (x : TechniqueState) :
    s.settings x = x.settings.filter (Setting.alive s.live) := by
  have h1 : s.vertexArrayOf x =
      (x.vertexArray.toList.map Setting.vertexArray).filter (Setting.alive s.live) := by
    rw [vertexArrayOf]
    cases x.vertexArray with
    | none => rfl
    | some va =>
      by_cases h : (s.glVertexArrays va).isSome <;>
        simp [Arena.lock, Option.filter, Setting.alive, Setting.holders, live, h]
  have h2 : s.programOf x =
      (x.program.toList.map Setting.program).filter (Setting.alive s.live) := by
    rw [programOf]
    cases x.program with
    | none => rfl
    | some p =>
      by_cases h : (s.glPrograms p).isSome <;>
        simp [Arena.lock, Option.filter, Setting.alive, Setting.holders, live, h]
  have h3 : s.texturesOf x =
      (x.textureBindings.list.map Setting.texture).filter (Setting.alive s.live) := by
    rw [texturesOf, TextureBindingList.removeExpired, List.filter_map]
    congr 1
    apply List.filter_congr
    intro b _
    simp [bindingAlive, Setting.alive, Setting.holders, live]
  have h4 : uniformsOf x =
      (x.uniformVars.map UniformVariable.setting).filter (Setting.alive s.live) := by
    symm
    apply List.filter_eq_self.mpr
    intro y hy
    obtain ⟨v, -, rfl⟩ := List.mem_map.mp hy
    exact TechniqueState.setting_alive v s.live
  have h5 : s.drawOf x = x.drawApiArgs.data.settings.filter (Setting.alive s.live) := by
    rw [drawOf]
    cases x.drawApiArgs.data with
    | none => rfl
    | arrays => rfl
    | elements mode count type offset b =>
      by_cases h : (s.glBuffers b).isSome <;>
        simp [DrawData.setting, DrawData.settings, Setting.alive, Setting.holders, live, h]
  rw [settings, h1, h2, h3, h4, h5, TechniqueState.settings]
  simp only [List.filter_append]

/-- The leaf objects that are left keep their proxies, and none is revived. -/
structure Spares (s s' : Scene) : Prop where
  nextId : s.nextId ≤ s'.nextId
  programs : Arena.Inherits s.nextId GlProgram.proxy s.glPrograms s'.glPrograms
  vertexArrays : Arena.Inherits s.nextId GlVertexArray.proxy s.glVertexArrays s'.glVertexArrays
  buffers : Arena.Inherits s.nextId GlBuffer.proxy s.glBuffers s'.glBuffers
  textures : Arena.Inherits s.nextId GlTexture.proxy s.glTextures s'.glTextures
  samplers : Arena.Inherits s.nextId GlSampler.proxy s.glSamplers s'.glSamplers

section Spares
variable {s s' s'' : Scene}

theorem Spares.refl (s : Scene) : Spares s s :=
  ⟨Nat.le_refl _, .refl, .refl, .refl, .refl, .refl⟩

theorem Spares.trans (h : Spares s s') (h' : Spares s' s'') : Spares s s'' where
  nextId := h.nextId.trans h'.nextId
  programs := h.programs.trans (h'.programs.mono h.nextId)
  vertexArrays := h.vertexArrays.trans (h'.vertexArrays.mono h.nextId)
  buffers := h.buffers.trans (h'.buffers.mono h.nextId)
  textures := h.textures.trans (h'.textures.mono h.nextId)
  samplers := h.samplers.trans (h'.samplers.mono h.nextId)

/-- An object that is left was there, with the same id. -/
theorem Spares.idOf (h : Spares s s') {x : Holder} {i : ℕ} (hi : x.leaf? = some i)
    (hn : i < s.nextId) (hl : s'.live x) : s.live x ∧ s'.idOf x = s.idOf x := by
  have one {α : Type} {g : α → Option Proxy} {k k' : Arena α}
      (hk : Arena.Inherits s.nextId g k k') (hl : (k' i).isSome) :
      (k i).isSome ∧ ((k' i).bind g).map Proxy.id = ((k i).bind g).map Proxy.id := by
    obtain ⟨x', hx'⟩ := Option.isSome_iff_exists.mp hl
    obtain ⟨x, hx, he⟩ := hk i hn x' hx'
    simp [hx, hx', he]
  cases x with
  | program => cases hi; exact one h.programs hl
  | vertexArray => cases hi; exact one h.vertexArrays hl
  | buffer => cases hi; exact one h.buffers hl
  | texture => cases hi; exact one h.textures hl
  | sampler => cases hi; exact one h.samplers hl
  | _ => cases hi

theorem RequestStep.spares {T : ℕ → Prop} {client : ℕ} (h : RequestStep T client s s') :
    Spares s s' := by
  have hn := h.fades.nextId
  cases h with
  | program => exact ⟨hn, .set_new (Nat.le_refl _) _, .refl, .refl, .refl, .refl⟩
  | vertexArray => exact ⟨hn, .refl, .set_new (Nat.le_refl _) _, .refl, .refl, .refl⟩
  | buffer g => exact ⟨hn, .refl, .refl, .set_new (Nat.le_refl _) _, .refl, .refl⟩
  | texture g => exact ⟨hn, .refl, .refl, .refl, .set_new (Nat.le_refl _) _, .refl⟩
  | sampler => exact ⟨hn, .refl, .refl, .refl, .refl, .set_new (Nat.le_refl _) _⟩
  | data b target usage d hb => exact ⟨hn, .refl, .refl, .modify fun _ => rfl, .refl, .refl⟩
  | image t i d ht => exact ⟨hn, .refl, .refl, .refl, .modify fun _ => rfl, .refl⟩
  | mipmap t target ht => exact ⟨hn, .refl, .refl, .refl, .modify fun _ => rfl, .refl⟩
  | parameter p pname v hp => exact ⟨hn, .refl, .refl, .refl, .refl, .modify fun _ => rfl⟩
  | attach p h hp hh => exact ⟨hn, .modify fun _ => rfl, .refl, .refl, .refl, .refl⟩
  | link p hp => exact ⟨hn, .modify fun _ => rfl, .refl, .refl, .refl, .refl⟩
  | attrib va index f hva hf => exact ⟨hn, .refl, .modify fun _ => rfl, .refl, .refl, .refl⟩
  | _ => exact ⟨hn, .refl, .refl, .refl, .refl, .refl⟩

/-- A request that is no commit spares what is there. -/
theorem handle_spares (hs : Tree s) (client : ℕ) {r : Request} (hr : ∀ v, r ≠ .commit v) :
    Spares s (s.handle client r) := by
  by_cases hf : ∃ v, r = .frame v
  · obtain ⟨v, rfl⟩ := hf
    exact ⟨Nat.le_succ _, .refl, .refl, .refl, .refl, .refl⟩
  · have hn : s.virtualObjects s.nextId = none := by
      simpa [forest] using (hs.fresh s.nextId (Nat.le_refl _)).1
    have h1 : RequestSteps (fun _ => True) client s (s.handle client r) :=
      handle_steps (fun _ _ => trivial) (fun _ _ _ => trivial) hn hr fun v h => hf ⟨v, h⟩
    exact Path.preserves (P := Spares s) (fun _ _ h ih => ih.trans h.spares) h1 (.refl s)

theorem spares_of_leaves (h : s'.leaves = s.leaves) : Spares s s' := by
  have hp {β : Type} (f : Scene → β) : f s'.leaves = f s.leaves := congrArg f h
  have h1 : s'.glPrograms = s.glPrograms := hp Scene.glPrograms
  have h2 : s'.glVertexArrays = s.glVertexArrays := hp Scene.glVertexArrays
  have h3 : s'.glBuffers = s.glBuffers := hp Scene.glBuffers
  have h4 : s'.glTextures = s.glTextures := hp Scene.glTextures
  have h5 : s'.glSamplers = s.glSamplers := hp Scene.glSamplers
  exact ⟨Nat.le_of_eq (hp Scene.nextId).symm, h1 ▸ .refl, h2 ▸ .refl, h3 ▸ .refl, h4 ▸ .refl,
    h5 ▸ .refl⟩

theorem destroyResource_spares (s : Scene) (r : ℕ) : Spares s (s.destroyResource r) := by
  have h1 (i : Interface) : Spares s (s.deleteObject r i) := by
    cases i with
    | virtualObject | bounded | renderingUnit | baseTechnique =>
      exact spares_of_leaves (deleteObject_leaves s r rfl)
    | glProgram => exact ⟨Nat.le_refl _, .erase, .refl, .refl, .refl, .refl⟩
    | glVertexArray => exact ⟨Nat.le_refl _, .refl, .erase, .refl, .refl, .refl⟩
    | glBuffer => exact ⟨Nat.le_refl _, .refl, .refl, .erase, .refl, .refl⟩
    | glTexture => exact ⟨Nat.le_refl _, .refl, .refl, .refl, .erase, .refl⟩
    | glSampler => exact ⟨Nat.le_refl _, .refl, .refl, .refl, .refl, .erase⟩
    | _ => exact ⟨Nat.le_refl _, .refl, .refl, .refl, .refl, .refl⟩
  unfold destroyResource
  split
  · exact .refl s
  · next x _ =>
    have h2 := h1 x.interface
    exact ⟨h2.nextId, h2.programs, h2.vertexArrays, h2.buffers, h2.textures, h2.samplers⟩

end Spares

section Frame
variable {s s' : Scene} {q : ℕ} {y : Setting} {c : Call}

/-- What has an id is alive. -/
theorem live_of_idOf {h : Holder} {i : ℕ} (hi : s.idOf h = some i) : s.live h := by
  obtain ⟨p, hp, -⟩ := Option.map_eq_some_iff.mp hi
  cases h <;>
  · obtain ⟨x, hx, -⟩ := Option.bind_eq_some_iff.mp hp
    exact Option.isSome_of_eq_some hx

/-- A call can be made for a setting only if its objects are alive. -/
theorem alive_of_callFor (h : s.callFor q y = some c) : y.alive s.live := by
  rw [Setting.alive, List.all_eq_true]
  intro x hx
  obtain ⟨i, -, hi⟩ := (ids_of_callFor h).1 x hx
  exact live_of_idOf hi

theorem Quiet.idOf (h : Quiet s s') {x : Holder} {i : ℕ} (hi : s'.idOf x = some i) :
    s.idOf x = some i := by
  obtain ⟨p, hp, rfl⟩ := Option.map_eq_some_iff.mp hi
  exact Option.map_eq_some_iff.mpr ⟨p, h.proxyOf x p hp, rfl⟩

theorem Quiet.told (h : Quiet s s') (k : Part) : s'.told q k = s.told q k := by
  rw [Scene.told, Scene.told, h.remote]

theorem Quiet.allKnown (h : Quiet s s') (hk : s.AllKnown) : s'.AllKnown := by
  intro c hc
  have h1 : s'.spoken = s.spoken := by rw [Scene.spoken, Scene.spoken, h.remote]
  have h2 := hk c (h1 ▸ hc)
  exact ⟨h.remote ▸ h2.technique, h.remote ▸ h2.given, h2.sent⟩

/-- The settings that are left. -/
theorem Spares.settings (h : Spares s s') {x : TechniqueState} (hr : ∀ i ∈ x.refs, i < s.nextId) :
    s'.settings x = (s.settings x).filter (Setting.alive s'.live) := by
  rw [settings_eq_filter, settings_eq_filter, List.filter_filter]
  apply List.filter_congr
  intro y hy
  have h1 : y.alive s'.live → y.alive s.live := by
    simp only [Setting.alive, List.all_eq_true]
    intro ha x hx
    obtain ⟨i, hi, hl⟩ := TechniqueState.leaf_of_settings hy hx
    exact (h.idOf hl (hr i hi) (ha x hx)).1
  cases ha : y.alive s'.live with
  | false => rfl
  | true => rw [h1 ha, Bool.and_self]

/-- Objects come and go: what was told of a state that does not change stays right. -/
theorem Mirrors.spared {x : TechniqueState} (hm : s.Mirrors q x) (h : Quiet s s')
    (hs : Spares s s') (hx : x.Distinct) (hr : ∀ i ∈ x.refs, i < s.nextId) : s'.Mirrors q x := by
  intro y
  have hmem {w : Setting} (hw : w ∈ s.settings x) : w ∈ x.settings := by
    rw [settings_eq_filter] at hw
    exact List.mem_of_mem_filter hw
  have hlast : LastWrite.latest Setting.part (s'.settings x) y.part = some y ↔
      LastWrite.latest Setting.part (s.settings x) y.part = some y ∧ y.alive s'.live := by
    rw [hs.settings hr]
    apply LastWrite.latest_filter_iff
    intro v hv w hw hk ha
    exact hx.alive_of_part (hmem hv) (hmem hw) hk ha
  rw [hlast, ← hm y]
  constructor
  · rintro ⟨c, h1, h2⟩
    rw [h.told] at h1
    exact ⟨⟨c, h1, callFor_mono (fun _ _ => h.idOf) h2⟩, alive_of_callFor h2⟩
  · rintro ⟨hy, ha⟩
    have hy1 : y ∈ x.settings := hmem (LastWrite.mem_of_latest ((hm y).mp hy)).1
    obtain ⟨c, h1, h2⟩ := hy
    refine ⟨c, (h.told _).trans h1, ?_⟩
    rw [← h2]
    apply callFor_congr
    intro z hz
    obtain ⟨i, hi, hl⟩ := TechniqueState.leaf_of_settings hy1 hz
    exact (hs.idOf hl (hr i hi) (List.all_eq_true.mp ha z hz)).2

end Frame

end Scene
end Yaza
