import Yaza.Lib.Scoping
import Yaza.Zwin.Ownership

/-! The remote objects that the calls of a sync make and name: each call names objects that have
their proxies when it is made. -/
namespace Yaza

namespace Call

/-- The remote object a call makes. -/
def makes : Call → Option (ℕ × Interface)
  | .createVirtualObject i => some (i, .virtualObject)
  | .createRenderingUnit i _ => some (i, .renderingUnit)
  | .createGlBaseTechnique i _ => some (i, .baseTechnique)
  | .createGlVertexArray i => some (i, .glVertexArray)
  | .createGlProgram i => some (i, .glProgram)
  | .createGlShader i _ _ => some (i, .glShader)
  | .createGlBuffer i => some (i, .glBuffer)
  | .createGlTexture i => some (i, .glTexture)
  | .createGlSampler i => some (i, .glSampler)
  | _ => none

/-- The remote objects a call is made on, or passes on. -/
def uses : Call → List (ℕ × Interface)
  | .createVirtualObject _ | .createGlVertexArray _ | .createGlProgram _ | .createGlShader _ _ _
  | .createGlBuffer _ | .createGlTexture _ | .createGlSampler _ => []
  | .move v _ _ | .commit v | .createRenderingUnit _ v => [(v, .virtualObject)]
  | .createGlBaseTechnique _ u => [(u, .renderingUnit)]
  | .bindVertexArray t va => [(t, .baseTechnique), (va, .glVertexArray)]
  | .bindProgram t p => [(t, .baseTechnique), (p, .glProgram)]
  | .bindTexture t _ _ x _ y => [(t, .baseTechnique), (x, .glTexture), (y, .glSampler)]
  | .glUniformVector t _ _ _ _ _ _ | .glUniformMatrix t _ _ _ _ _ _ _ | .glDrawArrays t _ _ _ =>
      [(t, .baseTechnique)]
  | .glDrawElements t _ _ _ _ b => [(t, .baseTechnique), (b, .glBuffer)]
  | .glEnableVertexAttribArray va _ | .glDisableVertexAttribArray va _ => [(va, .glVertexArray)]
  | .glVertexAttribPointer va _ _ _ _ _ _ b => [(va, .glVertexArray), (b, .glBuffer)]
  | .glAttachShader p h => [(p, .glProgram), (h, .glShader)]
  | .glLinkProgram p => [(p, .glProgram)]
  | .glBufferData b _ _ _ _ => [(b, .glBuffer)]
  | .glTexImage2D x _ _ | .glGenerateMipmap x _ => [(x, .glTexture)]
  | .glSamplerParameter y _ _ _ => [(y, .glSampler)]

/-- A call that makes nothing is made on something. -/
theorem uses_ne_nil {c : Call} (h : c.makes = none) : c.uses ≠ [] := by
  cases c <;> first | exact List.cons_ne_nil _ _ | cases h

/-- The names in the calls of a session. -/
def grammar : Scoping.Grammar Call ℕ Interface := ⟨makes, uses⟩

end Call

namespace Scene

def Holder.interface : Holder → Interface
  | .virtualObject _ => .virtualObject
  | .renderingUnit _ => .renderingUnit
  | .baseTechnique _ => .baseTechnique
  | .program _ => .glProgram
  | .shader _ => .glShader
  | .vertexArray _ => .glVertexArray
  | .buffer _ => .glBuffer
  | .texture _ => .glTexture
  | .sampler _ => .glSampler

def Holder.address : Holder → ℕ
  | .virtualObject i | .renderingUnit i | .baseTechnique i | .program i | .shader i
  | .vertexArray i | .buffer i | .texture i | .sampler i => i

/-- `owner_`: a unit and a technique are made on the proxy of theirs. -/
def parentOf (s : Scene) : Holder → Option Holder
  | .renderingUnit u => (s.forest.nodes u).map fun n => .virtualObject n.owner
  | .baseTechnique t => (s.forest.owners t).map .renderingUnit
  | _ => none

theorem parentOf_of_forest {s s' : Scene} (h : s'.forest = s.forest) :
    s'.parentOf = s.parentOf := by
  funext x
  cases x <;> simp [parentOf, h]

/-- A set of objects that holds, with an object, what its sync comes to. -/
structure Span (T : ℕ → Prop) (s : Scene) : Prop where
  objects : ∀ v x, s.virtualObjects v = some x → T v → ∀ u ∈ x.renderingUnitList, T u
  units : ∀ u y, s.renderingUnits u = some y → T u → T y.owner ∧ ∀ t, y.technique = some t → T t
  techniques : ∀ t z, s.baseTechniques t = some z → T t → T z.owner ∧ ∀ i ∈ z.current.refs, T i
  programs : ∀ p x, s.glPrograms p = some x → T p → ∀ h ∈ x.current.shaders, T h
  vertexArrays : ∀ va x, s.glVertexArrays va = some x → T va →
    ∀ e ∈ x.current, ∀ b, e.2.glBuffer = some b → T b

/-- The objects that a sync notes something of are those in `T`. -/
structure Books (T : ℕ → Prop) (s s' : Scene) : Prop where
  objects : Arena.SameOff T s.virtualObjects s'.virtualObjects
  units : Arena.SameOff T s.renderingUnits s'.renderingUnits
  techniques : Arena.SameOff T s.baseTechniques s'.baseTechniques
  programs : Arena.SameOff T s.glPrograms s'.glPrograms
  shaders : Arena.SameOff T s.glShaders s'.glShaders
  vertexArrays : Arena.SameOff T s.glVertexArrays s'.glVertexArrays
  buffers : Arena.SameOff T s.glBuffers s'.glBuffers
  textures : Arena.SameOff T s.glTextures s'.glTextures
  samplers : Arena.SameOff T s.glSamplers s'.glSamplers

/-- The name is that of an object in `T` that has its proxy. -/
def Named (T : ℕ → Prop) (s : Scene) (n : ℕ × Interface) : Prop :=
  ∃ h p, T h.address ∧ s.proxyOf h = some p ∧ n = (p.id, h.interface)

/-- The steps of `sync`, with what their calls name; they stay with the objects in `T`. -/
inductive Voice (T : ℕ → Prop) : Scene → Scene → Prop
  | silent {s s' : Scene} (hc : s'.content = s.content) (hr : s'.remote = s.remote)
      (hp : ∀ x, s'.proxyOf x = s.proxyOf x) (ho : Books T s s') : Voice T s s'
  | call (s : Scene) (c : Call) (hm : c.makes = none) (hu : ∀ n ∈ c.uses, s.Named T n) :
      Voice T s (s.call c)
  | create (s : Scene) (h : Holder) (mk : ℕ → Call) (p : Proxy) (r : Remote)
      (hr : s.remote.create mk = some (p, r)) (hp : s.proxyOf h = none) (ht : T h.address)
      (hm : (mk p.id).makes = some (p.id, h.interface))
      (hu : ∀ n ∈ (mk p.id).uses, s.Named T n)
      (hq : ∀ q, s.parentOf h = some q →
        ∃ p', s.proxyOf q = some p' ∧ (mk p.id).uses = [(p'.id, q.interface)]) :
      Voice T s ({ s with remote := r }.giveProxy p h)

abbrev Voices (T : ℕ → Prop) : Scene → Scene → Prop := Relation.ReflTransGen (Voice T)

section Keeps
variable {T : ℕ → Prop} {s s' : Scene}

theorem Voice.content (h : Voice T s s') : s'.content = s.content := by
  cases h with
  | silent hc => exact hc
  | call => rfl
  | create => rw [giveProxy_content]; rfl

theorem Voices.content (h : Voices T s s') : s'.content = s.content :=
  Path.const (f := Scene.content) (fun _ _ h => h.content) h

/-- An object keeps its proxy. -/
theorem Voice.proxyOf (h : Voice T s s') {x : Holder} {p : Proxy} (hp : s.proxyOf x = some p) :
    s'.proxyOf x = some p := by
  cases h with
  | silent hc hr hp' => rw [hp', hp]
  | call => exact hp
  | create h mk q r hr hn =>
    rw [proxyOf_giveProxy, if_neg]
    · cases x <;> exact hp
    · rintro ⟨rfl, -⟩
      rw [hn] at hp
      cases hp

theorem Voice.named (h : Voice T s s') {n : ℕ × Interface} (hn : s.Named T n) : s'.Named T n := by
  obtain ⟨x, p, ht, hp, rfl⟩ := hn
  exact ⟨x, p, ht, h.proxyOf hp, rfl⟩

theorem Voices.named (h : Voices T s s') {n : ℕ × Interface} (hn : s.Named T n) : s'.Named T n :=
  Path.preserves (P := fun s => s.Named T n) (fun _ _ h => h.named) h hn

theorem Voices.span (h : Voices T s s') (hs : Span T s.content) : Span T s'.content :=
  h.content ▸ hs

theorem Books.refl (T : ℕ → Prop) (s : Scene) : Books T s s :=
  ⟨.refl, .refl, .refl, .refl, .refl, .refl, .refl, .refl, .refl⟩

end Keeps

section Parts
variable {T : ℕ → Prop} {s : Scene}

theorem crash_voices (s : Scene) (f : Fault) : Voices T s (s.crash f) :=
  .single (.silent rfl rfl (fun x => by cases x <;> rfl)
    ⟨.refl, .refl, .refl, .refl, .refl, .refl, .refl, .refl, .refl⟩)

/-- A missing proxy stops the program before anything is said. -/
theorem withRemoteId_voices {h : Holder} {k : ℕ → Scene} (ht : T h.address)
    (hk : ∀ i, s.Named T (i, h.interface) → Voices T s (k i)) :
    Voices T s (s.withRemoteId h k) := by
  unfold withRemoteId
  split
  · exact crash_voices s _
  · next p hp => exact hk p.id ⟨h, p, ht, hp, rfl⟩

theorem call_voices {c : Call} (hm : c.makes = none) (hu : ∀ n ∈ c.uses, s.Named T n) :
    Voices T s (s.call c) := .single (.call s c hm hu)

/-- A call on one object, and what is noted of it afterwards. -/
theorem tell_voices {h : Holder} {c : ℕ → Call} {f : Scene → Scene} (ht : T h.address)
    (hm : ∀ i, (c i).makes = none) (hu : ∀ i, (c i).uses = [(i, h.interface)])
    (hf : ∀ s, Voices T s (f s)) : Voices T s (s.withRemoteId h fun i => f (s.call (c i))) := by
  refine withRemoteId_voices ht fun i hi => (call_voices (hm i) fun n hn => ?_).trans (hf _)
  rw [hu i, List.mem_singleton] at hn
  exact hn ▸ hi

/-- A call on one object that names another. -/
theorem tellBoth_voices {h h' : Holder} {c : ℕ → ℕ → Call} (ht : T h.address) (ht' : T h'.address)
    (hm : ∀ i j, (c i j).makes = none)
    (hu : ∀ i j, ∀ n ∈ (c i j).uses, n = (i, h.interface) ∨ n = (j, h'.interface)) :
    Voices T s (s.withRemoteId h fun i => s.withRemoteId h' fun j => s.call (c i j)) := by
  refine withRemoteId_voices ht fun i hi => withRemoteId_voices ht' fun j hj => ?_
  refine call_voices (hm i j) fun n hn => ?_
  rcases hu i j n hn with rfl | rfl
  · exact hi
  · exact hj

theorem ensureProxy_voices {h : Holder} {mk : ℕ → Call} (ht : T h.address)
    (hm : ∀ i, (mk i).makes = some (i, h.interface)) (hu : ∀ i, ∀ n ∈ (mk i).uses, s.Named T n)
    (hq : ∀ i, ∀ q, s.parentOf h = some q →
      ∃ p, s.proxyOf q = some p ∧ (mk i).uses = [(p.id, q.interface)]) :
    Voices T s (s.ensureProxy h mk) := by
  unfold ensureProxy
  split
  · exact .refl
  · next hp =>
    split
    · exact crash_voices s _
    · next p r hr =>
      have hn : s.proxyOf h = none := by simpa using hp
      exact .single (.create s h mk p r hr hn ht (hm p.id) (hu p.id) (hq p.id))

/-- A loop whose rounds say nothing out of place. -/
theorem loop_voices {α : Type*} {f : Scene → α → Scene} {l : List α}
    (hf : ∀ s', s'.content = s.content → ∀ a ∈ l, Voices T s' (f s' a)) :
    Voices T s (l.foldl f s) :=
  Path.foldl (P := fun s' => s'.content = s.content)
    (fun _ _ h hc => h.content.trans hc) hf rfl

/-- An object without a parent is made on the channel. -/
theorem ensureProxy_voices_of_root {h : Holder} {mk : ℕ → Call} (ht : T h.address)
    (hm : ∀ i, (mk i).makes = some (i, h.interface)) (hu : ∀ i, (mk i).uses = [])
    (hq : s.parentOf h = none) : Voices T s (s.ensureProxy h mk) :=
  ensureProxy_voices ht hm (fun i n hn => by simp [hu i] at hn) fun i q h => by simp [hq] at h

end Parts

section Leaves
variable {T : ℕ → Prop}

theorem clearData_voices {b : ℕ} (hb : T b) (s : Scene) :
    Voices T s { s with
      glBuffers := s.glBuffers.modify b fun x => { x with current.dataDamaged := false } } := by
  refine .single (.silent (content_modifyBuffer s b fun _ => rfl) rfl (fun x => ?_)
    ⟨.refl, .refl, .refl, .refl, .refl, .refl, .modify hb _, .refl, .refl⟩)
  cases x <;> try rfl
  apply Arena.modify_bind_of_eq
  intro _
  rfl

/-- `GlBuffer::sync`. -/
theorem syncBuffer_voices {b : ℕ} (hb : T b) (s : Scene) (force : Bool) :
    Voices T s (s.syncBuffer b force) := by
  have he : Voices T s (s.ensureProxy (.buffer b) .createGlBuffer) :=
    ensureProxy_voices_of_root hb (fun _ => rfl) (fun _ => rfl) rfl
  unfold syncBuffer
  split
  · exact crash_voices s _
  · split
    · exact he
    · exact he.trans (tell_voices hb (fun _ => rfl) (fun _ => rfl) (clearData_voices hb))

/-- A texture notes that something of it is sent. -/
theorem clearTexture_voices {t : ℕ} (ht : T t) (s : Scene) {f : GlTexture → GlTexture}
    (hf : ∀ x, bareTexture (f x) = bareTexture x) (hp : ∀ x, (f x).proxy = x.proxy) :
    Voices T s { s with glTextures := s.glTextures.modify t f } := by
  refine .single (.silent (content_modifyTexture s t hf) rfl (fun x => ?_)
    ⟨.refl, .refl, .refl, .refl, .refl, .refl, .refl, .modify ht _, .refl⟩)
  cases x <;> try rfl
  exact Arena.modify_bind_of_eq hp s.glTextures t _

theorem tellImage_voices {t : ℕ} (ht : T t) (s : Scene) (x : GlTexture.Current) (force : Bool) :
    Voices T s (s.tellImage t x force) := by
  unfold tellImage
  split
  · have hc (u : Scene) : Voices T u { u with
        glTextures := u.glTextures.modify t fun x => { x with current.dataChanged := false } } :=
      clearTexture_voices ht u (fun _ => rfl) fun _ => rfl
    exact tell_voices ht (fun _ => rfl) (fun _ => rfl) hc
  · exact .refl

theorem tellMipmap_voices {t : ℕ} (ht : T t) (s : Scene) (x : GlTexture.Current) (force : Bool) :
    Voices T s (s.tellMipmap t x force) := by
  unfold tellMipmap
  split
  · have hc (u : Scene) : Voices T u { u with
        glTextures := u.glTextures.modify t fun x =>
          { x with current.mipmapTargetChanged := false } } :=
      clearTexture_voices ht u (fun _ => rfl) fun _ => rfl
    exact tell_voices ht (fun _ => rfl) (fun _ => rfl) hc
  · exact .refl

/-- `GlTexture::sync`. -/
theorem syncTexture_voices {t : ℕ} (ht : T t) (s : Scene) (force : Bool) :
    Voices T s (s.syncTexture t force) := by
  have he : Voices T s (s.ensureProxy (.texture t) .createGlTexture) :=
    ensureProxy_voices_of_root ht (fun _ => rfl) (fun _ => rfl) rfl
  unfold syncTexture
  split
  · exact crash_voices s _
  · exact (he.trans (tellImage_voices ht _ _ force)).trans (tellMipmap_voices ht _ _ force)

theorem tellParameter_voices {p : ℕ} (hp : T p) (force : Bool) (s : Scene)
    (e : UInt32 × Parameter) : Voices T s (tellParameter p force s e) := by
  unfold tellParameter
  split
  · exact .refl
  · split
    · exact tell_voices hp (fun _ => rfl) (fun _ => rfl) fun _ => .refl
    · exact crash_voices s _

/-- `GlSampler::sync`. -/
theorem syncSampler_voices {p : ℕ} (hp : T p) (s : Scene) (force : Bool) :
    Voices T s (s.syncSampler p force) := by
  have he : Voices T s (s.ensureProxy (.sampler p) .createGlSampler) :=
    ensureProxy_voices_of_root hp (fun _ => rfl) (fun _ => rfl) rfl
  unfold syncSampler
  split
  · exact crash_voices s _
  · exact he.trans (loop_voices fun s _ e _ => tellParameter_voices hp force s e)

/-- `GlShader::sync`. -/
theorem syncShader_voices {h : ℕ} (hh : T h) (s : Scene) : Voices T s (s.syncShader h) := by
  unfold syncShader
  split
  · exact crash_voices s _
  · split
    · exact .refl
    · split
      · exact crash_voices s _
      · exact ensureProxy_voices_of_root hh (fun _ => rfl) (fun _ => rfl) rfl

theorem tellAttach_voices {p h : ℕ} (hp : T p) (hh : T h) (s : Scene) (shouldAttach : Bool) :
    Voices T s (s.tellAttach p h shouldAttach) := by
  unfold tellAttach
  split
  · exact tellBoth_voices hh hp (fun _ _ => rfl) fun i j n hn => (List.mem_pair.mp hn).symm
  · exact .refl

theorem clearLink_voices {p : ℕ} (hp : T p) (s : Scene) :
    Voices T s { s with
      glPrograms := s.glPrograms.modify p fun x => { x with current.shouldLink := false } } := by
  refine .single (.silent (content_modifyProgram s p fun _ => rfl) rfl (fun x => ?_)
    ⟨.refl, .refl, .refl, .modify hp _, .refl, .refl, .refl, .refl, .refl⟩)
  cases x <;> try rfl
  apply Arena.modify_bind_of_eq
  intro _
  rfl

theorem tellLink_voices {p : ℕ} (hp : T p) (s : Scene) (shouldAttach : Bool) :
    Voices T s (s.tellLink p shouldAttach) := by
  unfold tellLink
  split
  · exact tell_voices hp (fun _ => rfl) (fun _ => rfl) (clearLink_voices hp)
  · exact .refl

theorem dropExpiredShaders_voices {p : ℕ} (hp : T p) (s : Scene) :
    Voices T s (s.dropExpiredShaders p) := by
  refine .single (.silent (dropExpiredShaders_content s p) rfl (fun x => ?_)
    ⟨.refl, .refl, .refl, .modify hp _, .refl, .refl, .refl, .refl, .refl⟩)
  cases x <;> try rfl
  apply Arena.modify_bind_of_eq
  intro _
  rfl

/-- `GlProgram::sync`. -/
theorem syncProgram_voices {p : ℕ} (hp : T p) {s : Scene} (hs : Span T s.content) (force : Bool) :
    Voices T s (s.syncProgram p force) := by
  have he : Voices T s (s.ensureProxy (.program p) .createGlProgram) :=
    ensureProxy_voices_of_root hp (fun _ => rfl) (fun _ => rfl) rfl
  unfold syncProgram
  split
  · exact crash_voices s _
  · next x hx =>
    have hx' : s.content.glPrograms p = some (bareProgram s.shaderAlive x) := by simp [content, hx]
    refine ((he.trans (dropExpiredShaders_voices hp _)).trans ?_).trans (tellLink_voices hp ..)
    refine loop_voices fun s _ h hh => ?_
    have ht : T h := hs.programs p _ hx' hp h hh
    exact (syncShader_voices ht s).trans (tellAttach_voices hp ht _ _)

theorem tellEnability_voices {va : ℕ} (hva : T va) (s : Scene) (index : UInt32)
    (a : VertexAttribute) (force : Bool) : Voices T s (s.tellEnability va index a force) := by
  unfold tellEnability
  split
  · cases a.enabled <;> exact tell_voices hva (fun _ => rfl) (fun _ => rfl) fun _ => .refl
  · exact .refl

theorem tellPointer_voices {va b : ℕ} (hva : T va) (hb : T b) (s : Scene) (index : UInt32)
    (a : VertexAttribute) (force : Bool) : Voices T s (s.tellPointer va b index a force) := by
  unfold tellPointer
  split
  · exact tellBoth_voices hva hb (fun _ _ => rfl) fun i j n hn => List.mem_pair.mp hn
  · exact .refl

/-- One round of `GlVertexArray::sync`. -/
theorem syncAttribute_voices {va : ℕ} (hva : T va) (force : Bool) (s : Scene)
    {e : UInt32 × VertexAttribute} (he : ∀ b, e.2.glBuffer = some b → T b) :
    Voices T s (syncAttribute va force s e) := by
  unfold syncAttribute
  split
  · exact .refl
  · next b hb =>
    have ht := he b (Arena.lock_eq_some.mp hb).1
    have h1 := syncBuffer_voices ht s force
    exact (h1.trans (tellEnability_voices hva _ e.1 e.2 force)).trans
      (tellPointer_voices hva ht ..)

/-- `GlVertexArray::sync`. -/
theorem syncVertexArray_voices {va : ℕ} (hva : T va) {s : Scene} (hs : Span T s.content)
    (force : Bool) : Voices T s (s.syncVertexArray va force) := by
  have he : Voices T s (s.ensureProxy (.vertexArray va) .createGlVertexArray) :=
    ensureProxy_voices_of_root hva (fun _ => rfl) (fun _ => rfl) rfl
  unfold syncVertexArray
  split
  · exact crash_voices s _
  · next x hx =>
    have hx' : s.content.glVertexArrays va = some (bareVertexArray x) := by simp [content, hx]
    exact he.trans (loop_voices fun s _ e he =>
      syncAttribute_voices hva force s (hs.vertexArrays va _ hx' hva e he))

end Leaves

theorem syncCalls_names (technique : ℕ) (force : Bool) (l : UniformVariableList) :
    ∀ c ∈ UniformVariableList.syncCalls technique force l,
      c.makes = none ∧ c.uses = [(technique, .baseTechnique)] := by
  intro c hc
  simp only [UniformVariableList.syncCalls, List.mem_filterMap] at hc
  obtain ⟨v, -, hv⟩ := hc
  unfold UniformVariableList.syncCall at hv
  split at hv
  · split at hv
    · cases hv
    · cases hv
      exact ⟨rfl, rfl⟩
  · cases hv
    exact ⟨rfl, rfl⟩

section Techniques
variable {T : ℕ → Prop} {s : Scene} {technique : ℕ} (ht : s.Named T (technique, .baseTechnique))
include ht

/-- A call on the technique that names another object. -/
theorem tellOther_voices {h : Holder} {c : ℕ → Call} (hh : T h.address)
    (hm : ∀ i, (c i).makes = none)
    (hu : ∀ i, (c i).uses = [(technique, .baseTechnique), (i, h.interface)]) :
    Voices T s (s.withRemoteId h fun i => s.call (c i)) := by
  refine withRemoteId_voices hh fun i hi => call_voices (hm i) fun n hn => ?_
  rw [hu i, List.mem_pair] at hn
  rcases hn with rfl | rfl
  · exact ht
  · exact hi

theorem syncBoundVertexArray_voices (hs : Span T s.content) {x : TechniqueState}
    (hx : ∀ va, x.vertexArray = some va → T va) (force : Bool) :
    Voices T s (s.syncBoundVertexArray technique x force) := by
  unfold syncBoundVertexArray
  split
  · exact .refl
  · next va hva =>
    have hva := hx va (Arena.lock_eq_some.mp hva).1
    have h1 := syncVertexArray_voices hva hs force
    refine h1.trans ?_
    unfold tellVertexArray
    split
    · exact tellOther_voices (h1.named ht) hva (fun _ => rfl) fun _ => rfl
    · exact .refl

theorem syncBoundProgram_voices (hs : Span T s.content) {x : TechniqueState}
    (hx : ∀ p, x.program = some p → T p) (force : Bool) :
    Voices T s (s.syncBoundProgram technique x force) := by
  unfold syncBoundProgram
  split
  · exact .refl
  · next p hp =>
    have hp := hx p (Arena.lock_eq_some.mp hp).1
    have h1 := syncProgram_voices hp hs force
    refine h1.trans ?_
    unfold tellProgram
    split
    · exact tellOther_voices (h1.named ht) hp (fun _ => rfl) fun _ => rfl
    · exact .refl

theorem syncTextureBinding_voices (force changed : Bool) {b : TextureBinding}
    (hb : T b.texture ∧ T b.sampler) :
    Voices T s (syncTextureBinding technique force changed s b) := by
  have h1 : Voices T s ((s.syncTexture b.texture force).syncSampler b.sampler force) :=
    (syncTexture_voices hb.1 s force).trans (syncSampler_voices hb.2 _ force)
  unfold syncTextureBinding tellTexture
  refine h1.trans ?_
  split
  · refine withRemoteId_voices hb.1 fun i hi => withRemoteId_voices hb.2 fun j hj => ?_
    refine call_voices rfl fun n hn => ?_
    simp only [Call.uses, List.mem_cons, List.not_mem_nil, or_false] at hn
    rcases hn with rfl | rfl | rfl
    · exact h1.named ht
    · exact hi
    · exact hj
  · exact .refl

theorem syncTextureBindings_voices {t : ℕ} (htt : T t) {l : TextureBindingList}
    (hl : ∀ b ∈ (l.removeExpired s.bindingAlive).list, T b.texture ∧ T b.sampler) (force : Bool) :
    Voices T s (s.syncTextureBindings t technique l force) := by
  have hd : Voices T s (s.dropExpired t) := by
    refine .single (.silent (dropExpired_content s t) rfl (fun x => ?_)
      ⟨.refl, .refl, .modify htt _, .refl, .refl, .refl, .refl, .refl, .refl⟩)
    cases x <;> try rfl
    apply Arena.modify_bind_of_eq
    intro _
    rfl
  exact hd.trans (Path.foldl (P := fun s => s.Named T (technique, .baseTechnique))
    (fun _ _ h hn => h.named hn)
    (fun s hn b hb => syncTextureBinding_voices hn force _ (hl b hb)) (hd.named ht))

theorem callAll_voices {cs : List Call}
    (hc : ∀ c ∈ cs, c.makes = none ∧ c.uses = [(technique, .baseTechnique)]) :
    Voices T s (s.callAll cs) := by
  induction cs generalizing s with
  | nil =>
    have he : s.callAll [] = s := by simp [callAll]
    rw [he]
  | cons c cs ih =>
    obtain ⟨hm, hu⟩ := hc c List.mem_cons_self
    have h1 : Voices T s (s.call c) := call_voices hm fun n hn => by
      rw [hu, List.mem_singleton] at hn
      exact hn ▸ ht
    have he : s.callAll (c :: cs) = (s.call c).callAll cs := by
      simp [callAll, call, Remote.call]
    rw [he]
    exact h1.trans (ih (h1.named ht) fun c' hc' => hc c' (List.mem_cons_of_mem c hc'))

theorem syncDraw_voices {d : DrawApiArgs} (hd : ∀ b ∈ d.refs, T b) (force : Bool) :
    Voices T s (s.syncDraw technique d force) := by
  unfold syncDraw
  split
  · exact .refl
  · split
    · exact call_voices rfl fun n hn => List.mem_singleton.mp hn ▸ ht
    · exact .refl
  · next b he =>
    split
    · have hb : T b := hd b (by simp [DrawApiArgs.refs, he])
      have h1 := syncBuffer_voices hb s force
      refine h1.trans ?_
      unfold tellElements
      split
      · exact tellOther_voices (h1.named ht) hb (fun _ => rfl) fun _ => rfl
      · exact .refl
    · exact .refl

/-- `GlBaseTechnique::sync` once its proxy is there. -/
theorem syncState_voices (hs : Span T s.content) {t : ℕ} (htt : T t) {x y : TechniqueState}
    (hy : y = { x with textureBindings := x.textureBindings.removeExpired s.bindingAlive })
    (hr : ∀ i ∈ y.refs, T i) (force : Bool) : Voices T s (s.syncState t technique x force) := by
  have hv : ∀ va, x.vertexArray = some va → T va := fun va h =>
    hr va (TechniqueState.vertexArray_mem_refs (by rw [hy]; exact h))
  have hp : ∀ p, x.program = some p → T p := fun p h =>
    hr p (TechniqueState.program_mem_refs (by rw [hy]; exact h))
  have hb : ∀ b ∈ (x.textureBindings.removeExpired s.bindingAlive).list,
      T b.texture ∧ T b.sampler := fun b h =>
    have h := TechniqueState.texture_mem_refs (x := y) (b := b) (by rw [hy]; exact h)
    ⟨hr _ h.1, hr _ h.2⟩
  have hd : ∀ b ∈ x.drawApiArgs.refs, T b := fun b h =>
    hr b (TechniqueState.mem_refs.mpr (.inr (.inr (.inr (by rw [hy]; exact h)))))
  have h1 := syncBoundVertexArray_voices ht hs hv force
  have t1 := h1.named ht
  have h2 := syncBoundProgram_voices t1 (Voices.span h1 hs) hp force
  have t2 := Voices.named h2 t1
  rw [← bindingAlive_of_content (Voices.content (h1.trans h2))] at hb
  have h3 := syncTextureBindings_voices t2 htt hb force
  have t3 := Voices.named h3 t2
  have h4 := callAll_voices t3 (syncCalls_names technique force x.uniformVars)
  have h5 := syncDraw_voices (Voices.named h4 t3) hd force
  exact (((h1.trans h2).trans h3).trans h4).trans h5

end Techniques

section Objects
variable {T : ℕ → Prop} {s : Scene}

/-- A part is made on the proxy of its owner. -/
theorem ensurePart_voices {h q : Holder} {mk : ℕ → ℕ → Call} (ht : T h.address) (hqt : T q.address)
    (hq : s.parentOf h = some q) (hm : ∀ i j, (mk i j).makes = some (i, h.interface))
    (hu : ∀ i j, (mk i j).uses = [(j, q.interface)]) :
    Voices T s (s.withRemoteId q fun j => s.ensureProxy h fun i => mk i j) := by
  unfold withRemoteId
  split
  · exact crash_voices s _
  · next p hp =>
    refine ensureProxy_voices ht (fun i => hm i p.id) (fun i n hn => ?_) fun i q' hq' => ?_
    · rw [hu, List.mem_singleton] at hn
      exact ⟨q, p, hqt, hp, hn⟩
    · rw [hq, Option.some.injEq] at hq'
      subst hq'
      exact ⟨p, hp, hu i p.id⟩

/-- `GlBaseTechnique::sync`. -/
theorem syncTechnique_voices {t : ℕ} (ht : T t) (hs : Span T s.content) (force : Bool) :
    Voices T s (s.syncTechnique t force) := by
  unfold syncTechnique
  split
  · exact crash_voices s _
  · next x hx =>
    have hx' : s.content.baseTechniques t = some (bareTechnique s.bindingAlive x) := by
      simp [content, hx]
    obtain ⟨ho, hr⟩ := hs.techniques t _ hx' ht
    have hq : s.parentOf (.baseTechnique t) = some (.renderingUnit x.owner) := by
      simp [parentOf, forest_owners hx]
    have h1 : Voices T s (s.ensureTechnique t x) := by
      unfold ensureTechnique
      split
      · exact .refl
      · split
        · exact ensurePart_voices ht ho hq (fun _ _ => rfl) fun _ _ => rfl
        · exact crash_voices s _
    refine h1.trans (withRemoteId_voices ht fun i hi => ?_)
    refine syncState_voices hi (h1.span hs) ht rfl ?_ force
    rw [bindingAlive_of_content h1.content]
    exact hr

/-- `RenderingUnit::sync`. -/
theorem syncUnit_voices {u : ℕ} (hu : T u) (hs : Span T s.content) (force : Bool) :
    Voices T s (syncUnit force s u) := by
  unfold syncUnit
  split
  · exact crash_voices s _
  · next x hx =>
    have hx' : s.content.renderingUnits u = some (bareUnit x) := by simp [content, hx]
    obtain ⟨ho, hr⟩ := hs.units u _ hx' hu
    have hq : s.parentOf (.renderingUnit u) = some (.virtualObject x.owner) := by
      simp [parentOf, forest_nodes hx, nodeOf]
    have h1 : Voices T s (s.ensureUnit u x) := by
      unfold ensureUnit
      split
      · exact .refl
      · split
        · exact ensurePart_voices hu ho hq (fun _ _ => rfl) fun _ _ => rfl
        · exact crash_voices s _
    split
    · exact h1
    · next t ht => exact h1.trans (syncTechnique_voices (hr t ht) (h1.span hs) force)

theorem syncParts_voices {v : ℕ} (hv : T v) (hs : Span T s.content) (b : ℕ) {units : List ℕ}
    (hu : ∀ u ∈ units, T u) (force : Bool) : Voices T s (s.syncParts v b units force) := by
  unfold syncParts
  split
  · exact crash_voices s _
  · next app _ =>
    refine withRemoteId_voices hv fun i hi => ?_
    have h1 : Voices T s (s.call (.move i app.polar app.azimuthal)) :=
      call_voices rfl fun n hn => List.mem_singleton.mp hn ▸ hi
    have h2 : Voices T (s.call (.move i app.polar app.azimuthal))
        (units.foldl (syncUnit force) (s.call (.move i app.polar app.azimuthal))) :=
      loop_voices fun s' hc u hm => syncUnit_voices (hu u hm) (hc ▸ hs) force
    have h3 := h2.named (h1.named hi)
    exact (h1.trans h2).trans (call_voices rfl fun n hn => List.mem_singleton.mp hn ▸ h3)

/-- `VirtualObject::sync`. -/
theorem syncVirtualObject_voices {v : ℕ} (hv : T v) (hs : Span T s.content) (force : Bool) :
    Voices T s (s.syncVirtualObject v force) := by
  unfold syncVirtualObject
  split
  · exact crash_voices s _
  · next x hx =>
    have hx' : s.content.virtualObjects v = some (bareVirtualObject x) := by simp [content, hx]
    split
    · exact .refl
    · have he : Voices T s (s.ensureProxy (.virtualObject v) .createVirtualObject) :=
        ensureProxy_voices_of_root hv (fun _ => rfl) (fun _ => rfl) rfl
      exact he.trans (syncParts_voices hv (he.span hs) _ (hs.objects v _ hx' hv) force)

theorem syncIfSession_voices {v : ℕ} (hv : T v) (hs : Span T s.content) :
    Voices T s (s.syncIfSession v) := by
  unfold syncIfSession
  split
  · exact syncVirtualObject_voices hv hs false
  · exact .refl

theorem span_true (s : Scene) : Span (fun _ => True) s := by
  constructor <;> simp

/-- The handlers of one session. -/
theorem sessionEstablisheds_voices (s : Scene) (l : List ℕ) :
    Voices (fun _ => True) s (l.foldl sessionEstablished s) :=
  loop_voices fun s _ v _ => by
    unfold sessionEstablished
    split
    · exact .refl
    · split
      · exact syncVirtualObject_voices trivial (span_true _) true
      · exact .refl

end Objects

end Scene
end Yaza
