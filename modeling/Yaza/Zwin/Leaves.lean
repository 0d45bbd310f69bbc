import Yaza.Zwin.Leaf

/-! `GlBuffer` and `GlTexture` by themselves: when their remote objects hold what was committed. -/
namespace Yaza

/-- What `GlBufferData` is called with. -/
structure BufferData where
  data : Option Bytes
  target : UInt32
  size : ℕ
  usage : UInt32
  deriving DecidableEq, Repr

def Call.bufferData? : Call → Option (ℕ × BufferData)
  | .glBufferData b data target size usage => some (b, ⟨data, target, size, usage⟩)
  | _ => none

def GlBuffer.Current.args (x : GlBuffer.Current) : BufferData where
  data := x.data
  target := x.target
  size := x.dataSize
  usage := x.usage

/-- The arguments of `zwn_gl_buffer.data`. -/
structure DataRequest where
  target : UInt32
  usage : UInt32
  data : ℕ
  deriving DecidableEq, Repr

/-- The buffer shows its bytes at the commit. -/
def DataRequest.read (m : Arena ShmBuffer) (r : DataRequest) : Option BufferData :=
  (m r.data).map fun shm => ⟨some shm.data, r.target, shm.data.length, r.usage⟩

def noteBuffer (s : Scene) (k : Notes DataRequest BufferData) :
    LeafAction DataRequest → Notes DataRequest BufferData
  | .request r => { k with asked := some r }
  | .commit => k.commit (DataRequest.read s.shmBuffers)
  | _ => k

def bufferLeaf (client b : ℕ) : Leaf DataRequest (Notes DataRequest BufferData) where
  request r s := s.handle client (.bufferData b r.target r.data r.usage)
  commit s := s.commitBuffer b
  sync force s := s.syncBuffer b force
  note := noteBuffer

namespace Scene

section Buffer
variable {n b : ℕ} {s : Scene} {x : GlBuffer} {k : Notes DataRequest BufferData}

/-- The scene and the notes agree on the buffer `x`. -/
structure BufferBeside (n b : ℕ) (s : Scene) (k : Notes DataRequest BufferData) (x : GlBuffer) :
    Prop where
  object : s.glBuffers b = some x
  asked : match k.asked with
    | none => x.pending.data = none
    | some r => x.pending = ⟨r.target, r.usage, some r.data⟩
  data : Registered n Call.bufferData? (.buffer b) s x.current.args x.current.dataDamaged k.content

theorem proxyOf_buffer (hx : s.glBuffers b = some x) : s.proxyOf (.buffer b) = x.proxy := by
  simp [proxyOf, hx]

theorem ensureProxy_buffer (hx : s.glBuffers b = some x) (mk : ℕ → Call) :
    ∃ q, (s.ensureProxy (.buffer b) mk).glBuffers b = some { x with proxy := q } := by
  unfold ensureProxy
  split
  · exact ⟨x.proxy, hx⟩
  · split
    · exact ⟨x.proxy, hx⟩
    · next p r hr => exact ⟨some p, by simp [giveProxy, hx]⟩

theorem tellBuffer_eq {p : Proxy} (hp : s.proxyOf (.buffer b) = some p) (c : GlBuffer.Current) :
    s.tellBuffer b c = { s.call (.glBufferData p.id c.data c.target c.dataSize c.usage) with
      glBuffers := s.glBuffers.modify b fun x => { x with current.dataDamaged := false } } := by
  simp only [tellBuffer, withRemoteId, hp]

/-- `GlBuffer::sync` tells the data when it is forced to, or the buffer is damaged. -/
theorem syncBuffer_synced (hx : s.glBuffers b = some x)
    (ht : Traced n Call.bufferData? (.buffer b) s) (hs : s.remote.hasSession) (force : Bool) :
    Synced n Call.bufferData? (.buffer b) s (s.syncBuffer b force) x.current.args
        (force || x.current.dataDamaged) ∧
      (s.syncBuffer b force).fault = s.fault ∧
      ∃ q, (s.syncBuffer b force).glBuffers b =
        some { x with current.dataDamaged := false, proxy := q } := by
  have hlive : s.live (.buffer b) := by simp [live, hx]
  have h1 := ensureProxy_synced ht hs hlive .createGlBuffer (fun _ => rfl) x.current.args
  have h2 := (ensureProxy_copy ht hs hlive .createGlBuffer fun _ => rfl).2.1
  obtain ⟨q, hq⟩ := ensureProxy_buffer hx .createGlBuffer
  cases hd : force || x.current.dataDamaged with
  | false =>
    obtain ⟨hforce, hdamaged⟩ := Bool.or_eq_false_iff.mp hd
    have he : s.syncBuffer b force = s.ensureProxy (.buffer b) .createGlBuffer := by
      simp [syncBuffer, hx, hforce, hdamaged]
    rw [he]
    refine ⟨h1, h2, q, ?_⟩
    rw [hq, ← hdamaged]
  | true =>
    obtain ⟨p, hp⟩ := h1.proxy
    have he : s.syncBuffer b force =
        (s.ensureProxy (.buffer b) .createGlBuffer).tellBuffer b x.current := by
      have hn : (!force && !x.current.dataDamaged) = false := by
        rw [← Bool.not_or, hd]
        rfl
      simp only [syncBuffer, hx, hn]
      rfl
    rw [he, tellBuffer_eq hp]
    refine ⟨h1.tell hp rfl rfl ?_, h2, q, by simp [hq]⟩
    apply Arena.modify_bind_of_eq
    intro _
    rfl

theorem syncBuffer_crash (hx : s.glBuffers b = some x) (hn : s.proxyOf (.buffer b) = none)
    (hs : s.remote.hasSession = false) (force : Bool) : (s.syncBuffer b force).fault.isSome := by
  simp only [syncBuffer, hx, ensureProxy_crash hs hn]
  split
  · exact crash_isSome s _
  · have h2 : (s.crash .noSession).proxyOf (.buffer b) = none := hn
    simp only [tellBuffer, withRemoteId, h2]
    exact crash_isSome _ _

theorem commitBuffer_cases (hx : s.glBuffers b = some x) :
    (s.commitBuffer b = s ∧ ∀ r, x.pending.data = some r → s.shmBuffers r = none) ∨
      ∃ r shm, x.pending.data = some r ∧ s.shmBuffers r = some shm ∧
        s.commitBuffer b = { s with
          glBuffers := s.glBuffers.set b (x.commit shm.data)
          events := s.events ++ [.bufferRelease r] } := by
  simp only [commitBuffer, hx]
  cases hl : s.shmBuffers.lock x.pending.data with
  | none => exact .inl ⟨rfl, fun r hr => Arena.none_of_lock hl hr⟩
  | some r =>
    obtain ⟨h1, h2⟩ := Arena.lock_eq_some.mp hl
    obtain ⟨shm, hm⟩ := Option.isSome_iff_exists.mp h2
    exact .inr ⟨r, shm, h1, hm, by simp [hm]⟩

theorem commitBuffer_beside (h : BufferBeside n b s k x) :
    ∃ y, BufferBeside n b (s.commitBuffer b) (k.commit (DataRequest.read s.shmBuffers)) y := by
  have hask := h.asked
  rcases commitBuffer_cases h.object with ⟨h1, h2⟩ | ⟨r, shm, h1, h2, h3⟩
  · have hk : k.commit (DataRequest.read s.shmBuffers) = k := by
      cases hq : k.asked with
      | none => simp [Notes.commit, hq]
      | some r =>
        rw [hq] at hask
        have h3 : s.shmBuffers r.data = none := h2 r.data (by simp [hask])
        simp [Notes.commit, hq, DataRequest.read, h3]
    rw [h1, hk]
    exact ⟨x, h⟩
  · cases hq : k.asked with
    | none =>
      rw [hq] at hask
      simp [hask] at h1
    | some q =>
      rw [hq] at hask
      obtain rfl : q.data = r := by simpa [hask] using h1
      have hk : k.commit (DataRequest.read s.shmBuffers) =
          { content := some ⟨some shm.data, q.target, shm.data.length, q.usage⟩ } := by
        simp [Notes.commit, hq, DataRequest.read, h2]
      have hargs : (x.commit shm.data).current.args =
          ⟨some shm.data, q.target, shm.data.length, q.usage⟩ := by
        simp [GlBuffer.Current.args, GlBuffer.commit, hask]
      have hproxy : (s.commitBuffer b).proxyOf (.buffer b) = s.proxyOf (.buffer b) := by
        simp [h3, proxyOf, h.object, GlBuffer.commit]
      rw [hk, ← hargs]
      exact ⟨x.commit shm.data, by simp [h3], rfl, h.data.commit (by rw [h3]) hproxy _⟩

theorem data_beside (h : BufferBeside n b s k x) (client : ℕ) (r : DataRequest) :
    ∃ y, BufferBeside n b (s.handle client (.bufferData b r.target r.data r.usage))
      { k with asked := some r } y := by
  refine ⟨x.updatePendingData r.target r.usage r.data, by simp [handle, h.object], rfl,
    h.data.same rfl ?_⟩
  apply Arena.modify_bind_of_eq
  intro _
  rfl

theorem sessionDisconnect_buffer (hx : s.glBuffers b = some x) :
    ∃ q, s.sessionDisconnect.glBuffers b = some { x with proxy := q } := by
  unfold sessionDisconnect
  split
  · exact ⟨none, by simp [dropProxies, hx]⟩
  · exact ⟨x.proxy, hx⟩

def BufferReady (b : ℕ) (s : Scene × Notes DataRequest BufferData) (force : Bool) : Prop :=
  ∀ x, s.1.glBuffers b = some x →
    SyncReady s.2.content.isSome x.current.dataDamaged x.proxy.isSome force

theorem buffer_keeps (n client b : ℕ) : (bufferLeaf client b).Keeps
    (fun s => Holds n Call.bufferData? (.buffer b) s.1 s.2.content)
    (fun s => ∃ x, BufferBeside n b s.1 s.2 x) Leaf.InSession (BufferReady b) where
  other := fun s a ⟨x, hx⟩ _ ha _ => by
    cases a with
    | request r => exact data_beside hx client r
    | commit => exact commitBuffer_beside hx
    | sync force => exact absurd rfl (ha force)
    | connect =>
      simp only [Leaf.act]
      split
      · exact ⟨x, hx⟩
      · exact ⟨x, hx.object, hx.asked, hx.data.establish⟩
    | disconnect =>
      obtain ⟨q, hq⟩ := sessionDisconnect_buffer hx.object
      exact ⟨_, hq, hx.asked, hx.data.disconnect⟩
    | memory m => exact ⟨x, hx.object, hx.asked, hx.data.memory m⟩
  sync := fun s force ⟨x, hx⟩ hf hs => by
    obtain ⟨h1, h2, q, h3⟩ := syncBuffer_synced hx.object hx.data.traced hs force
    obtain ⟨h4, h5⟩ := hx.data.sync h1
    rw [proxyOf_buffer hx.object] at h4
    refine ⟨h2.trans hf, h4.trans ⟨fun hr y hy => ?_, fun hr => hr x hx.object⟩, fun hr => ?_⟩
    · cases hx.object.symm.trans hy
      exact hr
    · exact ⟨_, h3, hx.asked, h5 (h4.mpr (hr x hx.object))⟩
  crash := fun s force ⟨x, hx⟩ _ hs =>
    syncBuffer_crash hx.object (no_proxy hx.data.traced (by simpa [Leaf.InSession] using hs))
      (by simpa [Leaf.InSession] using hs) force

end Buffer
end Scene

/-- What `GlTexImage2D` is called with. -/
structure ImageData where
  image : Image2dData
  data : Option Bytes
  deriving DecidableEq, Repr

def Call.image? : Call → Option (ℕ × ImageData)
  | .glTexImage2D t image data => some (t, ⟨image, data⟩)
  | _ => none

def Call.mipmap? : Call → Option (ℕ × UInt32)
  | .glGenerateMipmap t target => some (t, target)
  | _ => none

def GlTexture.Current.args (x : GlTexture.Current) : ImageData where
  image := x.image2d
  data := x.data

inductive TextureRequest where
  | image2d (image : Image2dData) (data : ℕ)
  | generateMipmap (target : UInt32)
  deriving DecidableEq, Repr

def readImage (m : Arena ShmBuffer) (r : Image2dData × ℕ) : Option ImageData :=
  (m r.2).map fun shm => ⟨r.1, some shm.data⟩

/-- The notes of the two kinds of requests. -/
structure TextureNotes where
  image : Notes (Image2dData × ℕ) ImageData := {}
  mipmap : Notes UInt32 UInt32 := {}

/-- The target 0 stands for no request. -/
def noteTexture (s : Scene) (k : TextureNotes) : LeafAction TextureRequest → TextureNotes
  | .request (.image2d image data) => { k with image.asked := some (image, data) }
  | .request (.generateMipmap target) =>
      { k with mipmap.asked := if target = 0 then none else some target }
  | .commit => ⟨k.image.commit (readImage s.shmBuffers), k.mipmap.commit some⟩
  | _ => k

def textureLeaf (client t : ℕ) : Leaf TextureRequest TextureNotes where
  request r s :=
    match r with
    | .image2d image data => s.handle client (.image2d t image data)
    | .generateMipmap target => s.handle client (.generateMipmap t target)
  commit s := s.commitTexture t
  sync force s := s.syncTexture t force
  note := noteTexture

namespace Scene

section Texture
variable {n t : ℕ} {s : Scene} {x : GlTexture} {k : TextureNotes}

/-- The scene and the notes agree on the texture `x`. -/
structure TextureBeside (n t : ℕ) (s : Scene) (k : TextureNotes) (x : GlTexture) : Prop where
  object : s.glTextures t = some x
  askedImage : match k.image.asked with
    | none => x.pending.data = none
    | some r => x.pending.image2d = r.1 ∧ x.pending.data = some r.2
  askedMipmap : match k.mipmap.asked with
    | none => x.pending.mipmapTarget = 0
    | some target => target ≠ 0 ∧ x.pending.mipmapTarget = target
  image : Registered n Call.image? (.texture t) s x.current.args x.current.dataChanged
    k.image.content
  mipmap : Registered n Call.mipmap? (.texture t) s x.current.mipmapTarget
    x.current.mipmapTargetChanged k.mipmap.content

theorem proxyOf_texture (hx : s.glTextures t = some x) : s.proxyOf (.texture t) = x.proxy := by
  simp [proxyOf, hx]

theorem ensureProxy_texture (hx : s.glTextures t = some x) (mk : ℕ → Call) :
    ∃ q, (s.ensureProxy (.texture t) mk).glTextures t = some { x with proxy := q } := by
  unfold ensureProxy
  split
  · exact ⟨x.proxy, hx⟩
  · split
    · exact ⟨x.proxy, hx⟩
    · next p r hr => exact ⟨some p, by simp [giveProxy, hx]⟩

theorem tellImage_eq {p : Proxy} (hp : s.proxyOf (.texture t) = some p) (c : GlTexture.Current)
    (force : Bool) :
    s.tellImage t c force =
      if force || c.dataChanged then
        { s.call (.glTexImage2D p.id c.image2d c.data) with
          glTextures := s.glTextures.modify t fun x => { x with current.dataChanged := false } }
      else s := by
  simp only [tellImage, withRemoteId, hp]

theorem tellMipmap_eq {p : Proxy} (hp : s.proxyOf (.texture t) = some p) (c : GlTexture.Current)
    (force : Bool) :
    s.tellMipmap t c force =
      if force || c.mipmapTargetChanged then
        { s.call (.glGenerateMipmap p.id c.mipmapTarget) with
          glTextures := s.glTextures.modify t fun x =>
            { x with current.mipmapTargetChanged := false } }
      else s := by
  simp only [tellMipmap, withRemoteId, hp]

section Tell
variable {s₁ : Scene} {y : GlTexture} {force : Bool}

theorem modify_proxyOf_texture (s : Scene) {g : GlTexture → GlTexture}
    (hg : ∀ x, (g x).proxy = x.proxy) :
    { s with glTextures := s.glTextures.modify t g }.proxyOf (.texture t) =
      s.proxyOf (.texture t) :=
  Arena.modify_bind_of_eq hg ..

theorem tellImage_synced (force : Bool) (hy : s₁.glTextures t = some y) {mipmap : UInt32}
    (h1 : Synced n Call.image? (.texture t) s s₁ y.current.args false)
    (h2 : Synced n Call.mipmap? (.texture t) s s₁ mipmap false) :
    Synced n Call.image? (.texture t) s (s₁.tellImage t y.current force) y.current.args
        (force || y.current.dataChanged) ∧
      Synced n Call.mipmap? (.texture t) s (s₁.tellImage t y.current force) mipmap false ∧
      (s₁.tellImage t y.current force).fault = s₁.fault ∧
      (s₁.tellImage t y.current force).glTextures t =
        some { y with current.dataChanged := false } := by
  obtain ⟨p, hp⟩ := h1.proxy
  rw [tellImage_eq hp]
  cases hd : force || y.current.dataChanged with
  | false =>
    refine ⟨h1, h2, rfl, hy.trans (congrArg some ?_)⟩
    rw [← (Bool.or_eq_false_iff.mp hd).2]
  | true =>
    refine ⟨h1.tell hp rfl rfl ?_, h2.pass rfl rfl ?_, rfl, by simp [hy]⟩
    · exact modify_proxyOf_texture _ fun _ => rfl
    · exact modify_proxyOf_texture _ fun _ => rfl

theorem tellMipmap_synced (force : Bool) (hy : s₁.glTextures t = some y) {c : GlTexture.Current}
    (hc : c.mipmapTargetChanged = y.current.mipmapTargetChanged) {image : ImageData} {sends : Bool}
    (h1 : Synced n Call.image? (.texture t) s s₁ image sends)
    (h2 : Synced n Call.mipmap? (.texture t) s s₁ c.mipmapTarget false) :
    Synced n Call.image? (.texture t) s (s₁.tellMipmap t c force) image sends ∧
      Synced n Call.mipmap? (.texture t) s (s₁.tellMipmap t c force) c.mipmapTarget
        (force || c.mipmapTargetChanged) ∧
      (s₁.tellMipmap t c force).fault = s₁.fault ∧
      (s₁.tellMipmap t c force).glTextures t =
        some { y with current.mipmapTargetChanged := false } := by
  obtain ⟨p, hp⟩ := h1.proxy
  rw [tellMipmap_eq hp]
  cases hd : force || c.mipmapTargetChanged with
  | false =>
    refine ⟨h1, h2, rfl, hy.trans (congrArg some ?_)⟩
    rw [← (Bool.or_eq_false_iff.mp hd).2, hc]
  | true =>
    refine ⟨h1.pass rfl rfl ?_, h2.tell hp rfl rfl ?_, rfl, by simp [hy]⟩
    · exact modify_proxyOf_texture _ fun _ => rfl
    · exact modify_proxyOf_texture _ fun _ => rfl

end Tell

/-- `GlTexture::sync` tells the image and the mipmap request, each for itself. -/
theorem syncTexture_synced (hx : s.glTextures t = some x)
    (h1 : Traced n Call.image? (.texture t) s) (h2 : Traced n Call.mipmap? (.texture t) s)
    (hs : s.remote.hasSession) (force : Bool) :
    Synced n Call.image? (.texture t) s (s.syncTexture t force) x.current.args
        (force || x.current.dataChanged) ∧
      Synced n Call.mipmap? (.texture t) s (s.syncTexture t force) x.current.mipmapTarget
        (force || x.current.mipmapTargetChanged) ∧
      (s.syncTexture t force).fault = s.fault ∧
      ∃ q, (s.syncTexture t force).glTextures t =
        some { x with
          current.dataChanged := false, current.mipmapTargetChanged := false, proxy := q } := by
  have hlive : s.live (.texture t) := by simp [live, hx]
  have h3 := ensureProxy_synced h1 hs hlive .createGlTexture (fun _ => rfl) x.current.args
  have h4 := ensureProxy_synced h2 hs hlive .createGlTexture (fun _ => rfl)
    x.current.mipmapTarget
  have h5 := (ensureProxy_copy h1 hs hlive .createGlTexture fun _ => rfl).2.1
  obtain ⟨q, hq⟩ := ensureProxy_texture hx .createGlTexture
  obtain ⟨h6, h7, h8, h9⟩ := tellImage_synced force hq h3 h4
  obtain ⟨h10, h11, h12, h13⟩ :=
    tellMipmap_synced force (c := x.current) h9 rfl h6 h7
  have he : s.syncTexture t force =
      ((s.ensureProxy (.texture t) .createGlTexture).tellImage t x.current force).tellMipmap t
        x.current force := by simp only [syncTexture, hx]
  rw [he]
  exact ⟨h10, h11, h12.trans (h8.trans h5), q, h13⟩

theorem tellImage_crash {s : Scene} (hs : s.fault.isSome) (c : GlTexture.Current) (force : Bool) :
    (s.tellImage t c force).fault.isSome := by
  unfold tellImage
  split
  · unfold withRemoteId
    split
    · exact crash_isSome s _
    · exact hs
  · exact hs

theorem tellMipmap_crash {s : Scene} (hs : s.fault.isSome) (c : GlTexture.Current) (force : Bool) :
    (s.tellMipmap t c force).fault.isSome := by
  unfold tellMipmap
  split
  · unfold withRemoteId
    split
    · exact crash_isSome s _
    · exact hs
  · exact hs

theorem syncTexture_crash (hx : s.glTextures t = some x) (hn : s.proxyOf (.texture t) = none)
    (hs : s.remote.hasSession = false) (force : Bool) : (s.syncTexture t force).fault.isSome := by
  simp only [syncTexture, hx, ensureProxy_crash hs hn]
  exact tellMipmap_crash (tellImage_crash (crash_isSome s _) _ force) _ force

theorem commitTextureData_cases (hx : s.glTextures t = some x) :
    (s.commitTextureData t = s ∧ ∀ r, x.pending.data = some r → s.shmBuffers r = none) ∨
      ∃ r shm, x.pending.data = some r ∧ s.shmBuffers r = some shm ∧
        s.commitTextureData t = { s with
          glTextures := s.glTextures.set t (x.commitData shm.data)
          events := s.events ++ [.bufferRelease r] } := by
  simp only [commitTextureData, hx]
  cases hl : s.shmBuffers.lock x.pending.data with
  | none => exact .inl ⟨rfl, fun r hr => Arena.none_of_lock hl hr⟩
  | some r =>
    obtain ⟨h1, h2⟩ := Arena.lock_eq_some.mp hl
    obtain ⟨shm, hm⟩ := Option.isSome_iff_exists.mp h2
    exact .inr ⟨r, shm, h1, hm, by simp [hm]⟩

theorem commitTextureData_beside (h : TextureBeside n t s k x) :
    ∃ y, TextureBeside n t (s.commitTextureData t)
      { k with image := k.image.commit (readImage s.shmBuffers) } y := by
  have hask := h.askedImage
  rcases commitTextureData_cases h.object with ⟨h1, h2⟩ | ⟨r, shm, h1, h2, h3⟩
  · have hk : k.image.commit (readImage s.shmBuffers) = k.image := by
      cases hq : k.image.asked with
      | none => simp [Notes.commit, hq]
      | some r =>
        rw [hq] at hask
        have h3 : s.shmBuffers r.2 = none := h2 r.2 hask.2
        simp [Notes.commit, hq, readImage, h3]
    rw [h1, hk]
    exact ⟨x, h⟩
  · cases hq : k.image.asked with
    | none =>
      rw [hq] at hask
      rw [hask] at h1
      cases h1
    | some q =>
      rw [hq] at hask
      obtain rfl : q.2 = r := Option.some.inj (hask.2.symm.trans h1)
      have hargs : (x.commitData shm.data).current.args = ⟨q.1, some shm.data⟩ := by
        simp [GlTexture.Current.args, GlTexture.commitData, hask.1]
      have hk : k.image.commit (readImage s.shmBuffers) =
          { content := some (x.commitData shm.data).current.args } := by
        simp [Notes.commit, hq, readImage, h2, hargs]
      have hproxy : (s.commitTextureData t).proxyOf (.texture t) = s.proxyOf (.texture t) := by
        simp [h3, proxyOf, h.object, GlTexture.commitData]
      have hremote : (s.commitTextureData t).remote = s.remote := by rw [h3]
      rw [hk]
      exact ⟨x.commitData shm.data, by simp [h3], rfl, h.askedMipmap,
        h.image.commit hremote hproxy _, h.mipmap.same hremote hproxy⟩

theorem commitMipmap_beside (h : TextureBeside n t s k x) :
    ∃ y, TextureBeside n t (s.commitMipmap t) { k with mipmap := k.mipmap.commit some } y := by
  have hask := h.askedMipmap
  have hproxy : (s.commitMipmap t).proxyOf (.texture t) = s.proxyOf (.texture t) := by
    refine modify_proxyOf_texture s fun y => ?_
    unfold GlTexture.commitMipmap
    split <;> rfl
  have hobject : (s.commitMipmap t).glTextures t = some x.commitMipmap := by
    simp [commitMipmap, h.object]
  cases hq : k.mipmap.asked with
  | none =>
    rw [hq] at hask
    have hk : k.mipmap.commit some = k.mipmap := by simp [Notes.commit, hq]
    have hx : x.commitMipmap = x := by simp [GlTexture.commitMipmap, hask]
    rw [hx] at hobject
    rw [hk]
    exact ⟨x, hobject, h.askedImage, h.askedMipmap, h.image.same rfl hproxy,
      h.mipmap.same rfl hproxy⟩
  | some target =>
    rw [hq] at hask
    have hk : k.mipmap.commit some = { content := some target } := by simp [Notes.commit, hq]
    have hx : x.commitMipmap = { x with
        current := { x.current with mipmapTarget := target, mipmapTargetChanged := true }
        pending := { x.pending with mipmapTarget := 0 } } := by
      simp [GlTexture.commitMipmap, hask.1, hask.2]
    have hremote : (s.commitMipmap t).remote = s.remote := rfl
    rw [hx] at hobject
    rw [hk]
    exact ⟨_, hobject, h.askedImage, rfl, h.image.same hremote hproxy,
      h.mipmap.commit hremote hproxy _⟩

theorem commitTexture_beside (h : TextureBeside n t s k x) :
    ∃ y, TextureBeside n t (s.commitTexture t)
      ⟨k.image.commit (readImage s.shmBuffers), k.mipmap.commit some⟩ y := by
  obtain ⟨y, hy⟩ := commitTextureData_beside h
  exact commitMipmap_beside hy

theorem texture_request_beside (h : TextureBeside n t s k x) (client : ℕ) (r : TextureRequest) :
    ∃ y, TextureBeside n t ((textureLeaf client t).request r s)
      (noteTexture s k (.request r)) y := by
  cases r with
  | image2d image data =>
    have hproxy := modify_proxyOf_texture (t := t) s (g := fun y => y.newImage2d image data)
      fun _ => rfl
    exact ⟨x.newImage2d image data, by simp [textureLeaf, handle, h.object], ⟨rfl, rfl⟩,
      h.askedMipmap, h.image.same rfl hproxy, h.mipmap.same rfl hproxy⟩
  | generateMipmap target =>
    have hproxy := modify_proxyOf_texture (t := t) s
      (g := fun y => y.requestGenerateMipmap target) fun _ => rfl
    refine ⟨x.requestGenerateMipmap target, by simp [textureLeaf, handle, h.object],
      h.askedImage, ?_, h.image.same rfl hproxy, h.mipmap.same rfl hproxy⟩
    by_cases ht : target = 0
    · simp [noteTexture, ht, GlTexture.requestGenerateMipmap]
    · simp [noteTexture, ht, GlTexture.requestGenerateMipmap]

theorem sessionDisconnect_texture (hx : s.glTextures t = some x) :
    ∃ q, s.sessionDisconnect.glTextures t = some { x with proxy := q } := by
  unfold sessionDisconnect
  split
  · exact ⟨none, by simp [dropProxies, hx]⟩
  · exact ⟨x.proxy, hx⟩

/-- Both the image and the mipmap request are ready. -/
def TextureReady (t : ℕ) (s : Scene × TextureNotes) (force : Bool) : Prop :=
  ∀ x, s.1.glTextures t = some x →
    SyncReady s.2.image.content.isSome x.current.dataChanged x.proxy.isSome force ∧
      SyncReady s.2.mipmap.content.isSome x.current.mipmapTargetChanged x.proxy.isSome force

theorem texture_keeps (n client t : ℕ) : (textureLeaf client t).Keeps
    (fun s => Holds n Call.image? (.texture t) s.1 s.2.image.content ∧
      Holds n Call.mipmap? (.texture t) s.1 s.2.mipmap.content)
    (fun s => ∃ x, TextureBeside n t s.1 s.2 x) Leaf.InSession (TextureReady t) where
  other := fun s a ⟨x, hx⟩ _ ha _ => by
    cases a with
    | request r => exact texture_request_beside hx client r
    | commit => exact commitTexture_beside hx
    | sync force => exact absurd rfl (ha force)
    | connect =>
      simp only [Leaf.act]
      split
      · exact ⟨x, hx⟩
      · exact ⟨x, hx.object, hx.askedImage, hx.askedMipmap, hx.image.establish,
          hx.mipmap.establish⟩
    | disconnect =>
      obtain ⟨q, hq⟩ := sessionDisconnect_texture hx.object
      exact ⟨_, hq, hx.askedImage, hx.askedMipmap, hx.image.disconnect, hx.mipmap.disconnect⟩
    | memory m =>
      exact ⟨x, hx.object, hx.askedImage, hx.askedMipmap, hx.image.memory m, hx.mipmap.memory m⟩
  sync := fun s force ⟨x, hx⟩ hf hs => by
    obtain ⟨h1, h2, h3, q, h4⟩ :=
      syncTexture_synced hx.object hx.image.traced hx.mipmap.traced hs force
    obtain ⟨h5, h6⟩ := hx.image.sync h1
    obtain ⟨h7, h8⟩ := hx.mipmap.sync h2
    rw [proxyOf_texture hx.object] at h5 h7
    refine ⟨h3.trans hf, (and_congr h5 h7).trans ⟨fun hr y hy => ?_, fun hr => hr x hx.object⟩,
      fun hr => ?_⟩
    · cases hx.object.symm.trans hy
      exact hr
    · obtain ⟨h9, h10⟩ := hr x hx.object
      exact ⟨_, h4, hx.askedImage, hx.askedMipmap, h6 (h5.mpr h9), h8 (h7.mpr h10)⟩
  crash := fun s force ⟨x, hx⟩ _ hs =>
    syncTexture_crash hx.object (no_proxy hx.image.traced (by simpa [Leaf.InSession] using hs))
      (by simpa [Leaf.InSession] using hs) force

end Texture
end Scene

/-- A `GlBuffer` that was just constructed, in any scene. -/
def newBuffer (s : Scene) (b : ℕ) (g : GlBuffer.Garbage) : Scene :=
  { s with glBuffers := s.glBuffers.set b (.construct g) }

/-- A `GlTexture` that was just constructed, in any scene. -/
def newTexture (s : Scene) (t : ℕ) (g : GlTexture.Garbage) : Scene :=
  { s with glTextures := s.glTextures.set t (.construct g) }

/-- After each sync the remote buffer, and the remote texture, holds the committed content, and was
told nothing that was never committed, in exactly the runs all of whose syncs are ready. -/
theorem leaves_each_iff (s : Scene) (client i : ℕ) :
    (∀ (g : GlBuffer.Garbage) (as : List (LeafAction DataRequest)),
      Run.Each (bufferLeaf client i).step
          ((bufferLeaf client i).After fun u =>
            Scene.Holds s.remote.calls.length Call.bufferData? (.buffer i) u.1 u.2.content)
          (newBuffer s i g, {}) as ↔
        Run.Each (bufferLeaf client i).step (Leaf.Before Leaf.InSession (Scene.BufferReady i))
          (newBuffer s i g, {}) as) ∧
    ∀ (g : GlTexture.Garbage) (as : List (LeafAction TextureRequest)),
      Run.Each (textureLeaf client i).step
          ((textureLeaf client i).After fun u =>
            Scene.Holds s.remote.calls.length Call.image? (.texture i) u.1 u.2.image.content ∧
              Scene.Holds s.remote.calls.length Call.mipmap? (.texture i) u.1 u.2.mipmap.content)
          (newTexture s i g, {}) as ↔
        Run.Each (textureLeaf client i).step (Leaf.Before Leaf.InSession (Scene.TextureReady i))
          (newTexture s i g, {}) as := by
  constructor
  · intro g as
    have hp : (newBuffer s i g).proxyOf (.buffer i) = none := by
      simp [newBuffer, Scene.proxyOf, GlBuffer.construct]
    refine (Scene.buffer_keeps s.remote.calls.length client i).each_iff
      (fun _ => ⟨.construct g, ?_⟩) as
    exact ⟨by simp [newBuffer], rfl, Scene.registered_init hp _ _⟩
  · intro g as
    have hp : (newTexture s i g).proxyOf (.texture i) = none := by
      simp [newTexture, Scene.proxyOf, GlTexture.construct]
    refine (Scene.texture_keeps s.remote.calls.length client i).each_iff
      (fun _ => ⟨.construct g, ?_⟩) as
    exact ⟨by simp [newTexture], rfl, rfl, Scene.registered_init hp _ _,
      Scene.registered_init hp _ _⟩

/-- A buffer is in use in one session, and first used again in a later one without force. -/
def bufferReconnected : List (LeafAction DataRequest) :=
  [.memory (Arena.empty.set 1 ⟨[1]⟩), .request ⟨0, 0, 1⟩, .commit, .connect, .sync false,
    .disconnect, .connect, .sync false]

/-- A texture without mipmaps is there when the session begins. -/
def textureForced : List (LeafAction TextureRequest) :=
  [.memory (Arena.empty.set 1 ⟨[1]⟩), .request (.image2d ⟨0, 0, 0, 1, 1, 0, 0, 0⟩ 1), .commit,
    .connect, .sync true]

/-- The new remote buffer is empty, and a mipmap request is sent that nobody made. -/
theorem leaves_astray :
    ¬ Run.Each (bufferLeaf 0 0).step
        ((bufferLeaf 0 0).After fun u =>
          Scene.Holds 0 Call.bufferData? (.buffer 0) u.1 u.2.content)
        (newBuffer {} 0 {}, {}) bufferReconnected ∧
      ¬ Run.Each (textureLeaf 0 0).step
        ((textureLeaf 0 0).After fun u =>
          Scene.Holds 0 Call.image? (.texture 0) u.1 u.2.image.content ∧
            Scene.Holds 0 Call.mipmap? (.texture 0) u.1 u.2.mipmap.content)
        (newTexture {} 0 ⟨⟨0, 0, 0, 0, 0, 0, 0, 0⟩, ⟨0, 0, 0, 0, 0, 0, 0, 0⟩, 0⟩, {})
        textureForced := by
  constructor
  · intro h
    have h1 := (h (bufferReconnected.take 7) (.sync false) List.prefix_rfl false rfl rfl).copy
    cases h1
  · intro h
    have h1 := (h (textureForced.take 4) (.sync true) List.prefix_rfl true rfl rfl).2.silent rfl
    cases h1

end Yaza
