import Yaza.Util.Blocks

/-! When every write stays inside its block, and the buffers of the remote side keep what they
show: the commits only ever fill blocks that nobody else holds. -/
namespace Yaza
namespace Blocks
open Yaza.DataPool (malloc intMax Conversion.loop_safe_iff)

namespace State

/-- A block of the size is allocated, if one is needed. -/
def Allocates (memory : Option (ℕ → UInt8)) (size : ℕ) : Prop := 0 < size → memory.isSome

/-- The buffer consists of whole pixels, as many bytes as an `int` can count. -/
def IsWhole (b : WlShmBuffer) : Prop :=
  4 ∣ b.stride * b.height ∧ b.stride * b.height ≤ intMax

/-- Whether the pool has data once the buffer of a surface is committed. -/
def hasTexture (p : DataPool) : Option WlShmBuffer → Bool
  | none => p.hasData
  | some b => b.supported && decide (0 < b.stride * b.height)

/-- What an action must meet so that nothing leaves its block, and that no buffer is made of a block
whose pointer is already moved from. -/
def Allows (order : ArgumentOrder) (s : State) : Action → Prop
  | .createRendererBuffer data memory => ∀ d, data = some d →
    Allocates memory d.length ∧ (0 < d.length → order = .getFirst)
  | .commitSurface i buffer memory hasRenderer => ∀ p, s.poolOf i .surface = some p →
    (∀ b, buffer = some b → b.supported → 0 < b.stride * b.height → memory.isSome ∧ IsWhole b) ∧
      (hasRenderer → hasTexture p buffer → order = .getFirst)
  | .initRenderer i => ∀ p, s.poolOf i .surface = some p → p.hasData → order = .getFirst
  | .commitGlBuffer i data memory => ∀ p, s.poolOf i .glBuffer = some p →
    ∀ d, data = some d → Allocates memory d.length
  | .syncGlBuffer i => ∀ p, s.poolOf i .glBuffer = some p → p.hasData → order = .getFirst
  | .commitGlTexture i data memory => ∀ p, s.poolOf i .glTexture = some p →
    ∀ d, data = some d → Allocates memory d.length
  | .syncGlTexture i => ∀ p, s.poolOf i .glTexture = some p → p.hasData → order = .getFirst
  | _ => True

/-- The block of the pool has room for its size. -/
def Fits (s : State) (p : DataPool) : Prop :=
  (p.data = none ∧ p.size = 0) ∨ ∃ bytes, s.contents p.data = some bytes ∧ p.size ≤ bytes.length

/-- No access has left its block, every pool fits in its own, and every buffer shows the bytes it
had when it was created. -/
structure Intact (s : State) : Prop where
  fault : s.fault = false
  fits : ∀ i owner p, s.objects i = some (.pool owner p) → s.Fits p
  shown : ∀ i shown data bytes, s.objects i = some (.buffer shown data bytes) →
    s.contents shown = bytes

/-- What an object must find in its block. A buffer keeps the block that it shows. -/
def Good (s : State) : Object → Prop
  | .pool _ p => s.Fits p
  | .buffer shown data bytes => shown = data ∧ s.contents data = bytes

/-- The same, with blocks that count what holds them. -/
structure Sound (s : State) : Prop where
  fault : s.fault = false
  tally : Shared.Tally s.blocks s.objects Object.data s.nextId
  good : ∀ i o, s.objects i = some o → s.Good o

/-- The work is done without harm exactly if `C` holds. -/
structure Exactly (C : Prop) (r : Option State) : Prop where
  sound : C → ∃ t, r = some t ∧ Sound t
  needs : ∀ t, r = some t → Intact t → C

variable {s t : State} {i : ℕ} {o : Object} {owner : Owner} {p : DataPool} {order : ArgumentOrder}

theorem Sound.intact (h : Sound s) : Intact s where
  fault := h.fault
  fits i _ _ hi := h.good i _ hi
  shown i _ _ _ hi := by
    obtain ⟨rfl, hb⟩ := h.good i _ hi
    exact hb

/-- What does no harm if it is done. -/
theorem exactly_of_sound {C : Prop} {r : Option State} (hr : r.isSome ↔ C)
    (hs : ∀ t, r = some t → Sound t) : Exactly C r where
  sound hc := by
    obtain ⟨t, rfl⟩ := Option.isSome_iff_exists.mp (hr.mpr hc)
    exact ⟨t, rfl, hs t rfl⟩
  needs t ht _ := hr.mp (by rw [ht]; rfl)

theorem exactly_congr {C D : Prop} {r : Option State} (h : Exactly C r) (hcd : C ↔ D) :
    Exactly D r := ⟨fun hd => h.sound (hcd.mpr hd), fun t ht hi => hcd.mp (h.needs t ht hi)⟩

/-- Only its own block matters to an object. -/
theorem Good.congr (hg : s.Good o) (hc : t.contents o.data = s.contents o.data) : t.Good o := by
  cases o with
  | pool owner p =>
    rcases hg with hg | ⟨bytes, hb, hs⟩
    · exact .inl hg
    · exact .inr ⟨bytes, hc.trans hb, hs⟩
  | buffer shown data bytes => exact ⟨hg.1, hc.trans hg.2⟩

/-- A block that is still held holds the same as before. -/
theorem contents_of_kept (hk : Shared.Kept s.blocks t.blocks)
    (ht : Shared.Tally t.blocks t.objects Object.data t.nextId) (hi : t.objects i = some o) :
    t.contents o.data = s.contents o.data := by
  cases hd : o.data with
  | none => rfl
  | some b =>
    obtain ⟨x, hx⟩ := Option.isSome_iff_exists.mp (ht.live i o b hi hd)
    simp only [contents, Option.bind_some, hx, Option.map_some, hk b x hx]

namespace Sound

/-- What the objects find that do not change is the same: then only the others are in question. -/
theorem of_contents (h : Sound s) (hf : t.fault = s.fault)
    (ht : Shared.Tally t.blocks t.objects Object.data t.nextId)
    (hc : ∀ j o, s.objects j = some o → t.objects j = some o →
      t.contents o.data = s.contents o.data)
    (ho : ∀ j o, t.objects j = some o → s.objects j = some o ∨ t.Good o) : Sound t where
  fault := hf.trans h.fault
  tally := ht
  good j o hj := by
    rcases ho j o hj with hs | hg
    · exact (h.good j o hs).congr (hc j o hs hj)
    · exact hg

theorem of_set (h : Sound s) (hf : t.fault = s.fault)
    (ht : Shared.Tally t.blocks t.objects Object.data t.nextId)
    (hc : ∀ j o, s.objects j = some o → t.objects j = some o →
      t.contents o.data = s.contents o.data)
    (hi : t.objects = s.objects.set i o) (hg : t.Good o) : Sound t := by
  refine h.of_contents hf ht hc fun j o' hj => ?_
  rw [hi] at hj
  by_cases hji : j = i
  · subst hji
    rw [Arena.set_self] at hj
    exact .inr (Option.some.inj hj ▸ hg)
  · rw [Arena.set_of_ne _ _ hji] at hj
    exact .inl hj

theorem create (h : Sound s) (owner : Owner) : Sound (s.create owner) :=
  h.of_set (o := .pool owner {}) rfl (h.tally.add rfl) (fun _ _ _ _ => rfl) rfl (.inl ⟨rfl, rfl⟩)

/-- A pool lets go of its block. -/
theorem reset (h : Sound s) (hi : s.objects i = some (.pool owner p)) :
    ∃ t, s.reset i owner p = some (t, {}) ∧ Sound t ∧ t.objects i = some (.pool owner {}) := by
  obtain ⟨blocks, hr, ht, hk⟩ := h.tally.release hi (.pool owner {}) rfl
  refine ⟨{ s with blocks }.put i owner {}, ?_, ?_, Arena.set_self ..⟩
  · rw [State.reset, show p.data = (Object.pool owner p).data from rfl, hr, Option.map_some]
  · exact h.of_set (o := .pool owner {}) rfl ht (fun _ _ _ hj => contents_of_kept hk ht hj) rfl
      (.inl ⟨rfl, rfl⟩)

/-- After what each commit does first its pool has no block. -/
theorem clear (h : Sound s) (hi : s.objects i = some (.pool owner p)) :
    ∃ t, s.clear i owner p = some (t, {}) ∧ Sound t ∧ t.objects i = some (.pool owner {}) := by
  unfold State.clear
  split
  · exact h.reset hi
  · next hd =>
    have hnone : p.data = none := by simpa [DataPool.hasData] using hd
    have hp : p = {} := by
      rcases h.good i _ hi with ⟨-, hs⟩ | ⟨bytes, hb, -⟩
      · cases p
        simp_all
      · rw [hnone] at hb
        cases hb
    subst hp
    exact ⟨s, rfl, h, hi⟩

/-- A pool points to a block that is there. -/
theorem isSome_contents (h : Sound s) (hi : s.objects i = some (.pool owner p)) :
    (s.contents p.data).isSome = p.hasData := by
  cases hd : p.data with
  | none => simp [contents, DataPool.hasData, hd]
  | some b =>
    have hl := h.tally.live i _ b hi hd
    simp only [contents, Option.bind_some, Option.isSome_map, hl, DataPool.hasData, hd,
      Option.isSome_some]

theorem createBuffer (h : Sound s) (hi : s.objects i = some (.pool owner p)) :
    Exactly (p.hasData → order = .getFirst) (s.createBuffer order p) := by
  obtain ⟨blocks, hr, ht, hk⟩ :=
    h.tally.share hi (.buffer (order.get p.data) p.data (s.contents p.data)) rfl
  let o : Object := .buffer (order.get p.data) p.data (s.contents p.data)
  let t : State := { s with
    nextId := s.nextId + 1
    blocks
    objects := s.objects.set s.nextId o }
  have hn : t.objects s.nextId = some o := Arena.set_self ..
  have he : s.createBuffer order p = some t := by
    rw [State.createBuffer, show p.data = (Object.pool owner p).data from rfl, hr]
    rfl
  rw [he]
  constructor
  · intro hc
    have hg : t.Good o := by
      refine ⟨?_, contents_of_kept (s := s) hk ht hn⟩
      cases order with
      | getFirst => rfl
      | captureFirst =>
        cases hd : p.data with
        | none => rfl
        | some b => cases hc (by rw [DataPool.hasData, hd]; rfl)
    exact ⟨t, rfl, h.of_set rfl ht (fun _ _ _ hj => contents_of_kept hk ht hj) rfl hg⟩
  · intro u hu hui hp
    cases hu
    cases order with
    | getFirst => rfl
    | captureFirst =>
      -- the buffer shows nothing, and the pool had something
      have h1 := hui.shown s.nextId _ _ _ hn
      rw [← h.isSome_contents hi, ← h1] at hp
      cases hp

theorem destroy (h : Sound s) (hi : s.objects i = some o) :
    ∃ t, s.destroy i o = some t ∧ Sound t := by
  obtain ⟨blocks, hr, ht, hk⟩ := h.tally.release hi (.pool .surface {}) rfl
  refine ⟨{ s with blocks, objects := s.objects.erase i }, by rw [State.destroy, hr]; rfl, ?_⟩
  have hd := ht.drop (Arena.set_self ..) rfl
  rw [Arena.erase_set] at hd
  refine h.of_contents rfl hd (fun _ _ _ hj => contents_of_kept hk hd hj) fun j o hj => .inl ?_
  change s.objects.erase i j = some o at hj
  by_cases hji : j = i
  · rw [hji, Arena.erase_self] at hj
    cases hj
  · rwa [Arena.erase_of_ne _ hji] at hj

/-- Nothing that was there holds a new block. -/
theorem contents_of_alloc (h : Sound s) (hb : ∀ b, b ≠ s.nextId → t.blocks b = s.blocks b)
    (hi : s.objects i = some o) : t.contents o.data = s.contents o.data := by
  cases hd : o.data with
  | none => rfl
  | some b =>
    have hne : b ≠ s.nextId := by
      rintro rfl
      have hlive := h.tally.live i o _ hi hd
      rw [(h.tally.unused _ (Nat.le_refl _)).1] at hlive
      cases hlive
    simp only [contents, Option.bind_some, hb b hne]

/-- What a pool without a block is filled with comes into a new block, if there is one and the
bytes fit. -/
theorem fill (h : Sound s) (hi : s.objects i = some (.pool owner {}))
    (memory : Option (ℕ → UInt8)) (size : ℕ) {f : Bytes → Option Bytes}
    (hf : ∀ dst bytes, f dst = some bytes → bytes.length = dst.length) :
    ((s.fill i owner {} memory size f).isSome ↔
      0 < size → ∃ m, memory = some m ∧ (f (malloc m size)).isSome) ∧
    ∀ r, s.fill i owner {} memory size f = some r →
      (Sound r.1 ∧ r.1.objects i = some (.pool owner r.2)) ∧
        r.1.contents r.2.data =
          if size = 0 then none else memory.bind fun m => f (malloc m size) := by
  unfold State.fill ensureAndSetDataSize
  by_cases h0 : size ≤ 0
  · obtain rfl : size = 0 := Nat.le_zero.mp h0
    have hput : s.put i owner {} = s := by rw [put, Arena.set_eq_self hi]
    simp only [Nat.le_refl, if_true, Option.bind_some, hput, write, Option.map_some]
    refine ⟨by simp, fun r hr => ?_⟩
    cases hr
    exact ⟨⟨h, hi⟩, rfl⟩
  · have hne : size ≠ 0 := by omega
    rw [if_neg h0, if_neg hne]
    simp only [Shared.release, Option.map_some, Option.bind_some]
    cases memory with
    | none => simp [write, hne]
    | some m =>
      have hn := Arena.set_self s.blocks s.nextId (⟨malloc m size, 1⟩ : Shared Bytes)
      simp only [write, put, hn, Option.bind_some]
      cases hfm : f (malloc m size) with
      | none =>
        simp [hfm]
        omega
      | some bytes =>
        refine ⟨by simp [hfm], ?_⟩
        intro r hr
        have hl : bytes.length = size := by
          rw [hf _ _ hfm, malloc, List.length_map, List.length_range]
        obtain ⟨ht, hb⟩ := h.tally.alloc hi rfl
          (.pool owner { size, data := some s.nextId }) rfl bytes
        simp only [Option.map_some, Arena.set_set, Option.some.injEq] at hr
        subst hr
        exact ⟨⟨h.of_set rfl ht (fun _ _ hj _ => h.contents_of_alloc hb hj) rfl
          (.inr ⟨bytes, by simp [contents], Nat.le_of_eq hl.symm⟩), Arena.set_self ..⟩,
          by simp [contents]⟩

end Sound

theorem memcpy_length {src dst bytes : Bytes} (h : memcpy src dst = some bytes) :
    bytes.length = dst.length := by
  unfold memcpy at h
  split at h
  · next hl =>
    cases h
    simp only [List.length_append, List.length_drop]
    omega
  · cases h

theorem memcpy_malloc (m : ℕ → UInt8) (src : Bytes) :
    (memcpy src (malloc m src.length)).isSome := by
  simp [memcpy, malloc]

theorem eq_of_convert {src dst bytes : Bytes} {size : ℕ} (h : convert src size dst = some bytes) :
    bytes = (Yaza.DataPool.Conversion.loop src size 0 { dst }).dst := by
  unfold convert at h
  simp only at h
  split at h
  · exact (Option.some.inj h).symm
  · cases h

theorem convert_length {src dst bytes : Bytes} {size : ℕ} (h : convert src size dst = some bytes) :
    bytes.length = dst.length := by
  rw [eq_of_convert h, Yaza.DataPool.Conversion.loop_length]

/-- The loop stays inside a block of the size exactly if the size is that of whole pixels. -/
theorem convert_malloc (m : ℕ → UInt8) (src : Bytes) {size : ℕ} (h0 : 0 < size) :
    (convert src size (malloc m size)).isSome ↔ 4 ∣ size ∧ size ≤ intMax := by
  have hl : (malloc m size).length = size := by simp [malloc]
  have hc : ({ dst := malloc m size } : Yaza.DataPool.Conversion).Safe size :=
    ⟨by simp, by simp, rfl⟩
  have hs : (Yaza.DataPool.Conversion.loop src size 0 { dst := malloc m size }).Safe size ↔ _ :=
    Conversion.loop_safe_iff _
  simp only [hc, true_and, Nat.sub_zero] at hs
  have hle : ¬ size ≤ 0 := by omega
  rw [← or_iff_right hle (b := 4 ∣ size ∧ size ≤ intMax), ← hs]
  unfold convert
  rw [hl]
  constructor
  · intro h
    simp only [Option.isSome_ite] at h
    exact ⟨h.1, h.2.1, h.2.2⟩
  · intro h
    simp only [Option.isSome_ite]
    exact ⟨h.reads, h.writes, h.overflow⟩

namespace Sound

/-- It has a block then exactly if anything was to be written. -/
theorem fill_hasData (h : Sound s) (hi : s.objects i = some (.pool owner {}))
    {memory : Option (ℕ → UInt8)} {size : ℕ} {f : Bytes → Option Bytes}
    (hf : ∀ dst bytes, f dst = some bytes → bytes.length = dst.length) {r : State × DataPool}
    (hr : s.fill i owner {} memory size f = some r) : r.2.hasData = decide (0 < size) := by
  obtain ⟨hs, hc⟩ := h.fill hi memory size hf
  obtain ⟨⟨hrs, hri⟩, hc⟩ := hc r hr
  rw [← hrs.isSome_contents hri, hc]
  by_cases h0 : size = 0
  · simp [h0]
  · have hpos := Nat.pos_of_ne_zero h0
    obtain ⟨m, rfl, hm⟩ := hs.mp (by rw [hr]; rfl) hpos
    simpa [h0, hpos] using hm

/-- A pool without a block takes a copy of some bytes. -/
theorem fill_memcpy (h : Sound s) (hi : s.objects i = some (.pool owner {}))
    (memory : Option (ℕ → UInt8)) (data : Bytes) :
    ((s.fill i owner {} memory data.length (memcpy data)).isSome ↔
        Allocates memory data.length) ∧
      ∀ r, s.fill i owner {} memory data.length (memcpy data) = some r →
        Sound r.1 ∧ r.1.objects i = some (.pool owner r.2) := by
  obtain ⟨hf, hs⟩ := h.fill hi memory data.length fun _ _ => memcpy_length
  refine ⟨hf.trans (imp_congr_right fun _ => ?_), fun r hr => (hs r hr).1⟩
  constructor
  · rintro ⟨m, rfl, -⟩
    rfl
  · intro hm
    obtain ⟨m, rfl⟩ := Option.isSome_iff_exists.mp hm
    exact ⟨m, rfl, memcpy_malloc m data⟩

theorem commitData (h : Sound s) (hi : s.objects i = some (.pool owner p)) (data : Option Bytes)
    (memory : Option (ℕ → UInt8)) :
    Exactly (∀ d, data = some d → Allocates memory d.length)
      (s.commitData i owner p data memory) := by
  cases data with
  | none =>
    refine exactly_of_sound (by simp [State.commitData]) fun t ht => ?_
    exact Option.some.inj ht ▸ h
  | some d =>
    obtain ⟨u, hu, hus, hui⟩ := h.clear hi
    obtain ⟨hf, hs⟩ := hus.fill_memcpy hui memory d
    refine exactly_of_sound ?_ fun t ht => ?_
    · simp only [State.commitData, hu, Option.bind_some, fromWeakResource, Option.isSome_map, hf,
        Option.some.injEq, forall_eq']
    · simp only [State.commitData, hu, Option.bind_some, fromWeakResource] at ht
      obtain ⟨r, hr, rfl⟩ := Option.map_eq_some_iff.mp ht
      exact (hs r hr).1

theorem drawTexture (h : Sound s) (hi : s.objects i = some (.pool owner p)) (hasRenderer : Bool) :
    Exactly (hasRenderer → p.hasData → order = .getFirst) (s.drawTexture order p hasRenderer) := by
  unfold State.drawTexture
  split
  · next hd =>
    obtain ⟨hr, hp⟩ := Bool.and_eq_true_iff.mp hd
    exact exactly_congr (h.createBuffer hi) ⟨fun hc _ => hc, fun hc => hc hr⟩
  · next hd =>
    refine exactly_of_sound (iff_of_true rfl fun hr hp => ?_) fun t ht => Option.some.inj ht ▸ h
    exact absurd (Bool.and_eq_true_iff.mpr ⟨hr, hp⟩) hd

theorem commitTexture (h : Sound s) (hi : s.objects i = some (.pool .surface p))
    (buffer : Option WlShmBuffer) (memory : Option (ℕ → UInt8)) :
    ((s.commitTexture i p buffer memory).isSome ↔ ∀ b, buffer = some b → b.supported →
        0 < b.stride * b.height → memory.isSome ∧ IsWhole b) ∧
      ∀ r, s.commitTexture i p buffer memory = some r →
        (Sound r.1 ∧ r.1.objects i = some (.pool .surface r.2)) ∧
          r.2.hasData = hasTexture p buffer := by
  cases buffer with
  | none =>
    refine ⟨by simp [State.commitTexture], fun r hr => ?_⟩
    rw [← Option.some.inj hr]
    exact ⟨⟨h, hi⟩, rfl⟩
  | some b =>
    obtain ⟨u, hu, hus, hui⟩ := h.clear hi
    obtain ⟨hf, hs⟩ := hus.fill hui memory (b.stride * b.height) (f := convert b.data _)
      fun _ _ => convert_length
    simp only [State.commitTexture, hu, Option.bind_some, readWlSurfaceTexture,
      Option.some.injEq, forall_eq']
    split
    · next hb =>
      refine ⟨?_, fun r hr => ⟨(hs r hr).1, ?_⟩⟩
      · rw [hf]
        simp only [hb, forall_const]
        refine imp_congr_right fun h0 => ?_
        constructor
        · rintro ⟨m, rfl, hm⟩
          exact ⟨rfl, (convert_malloc m b.data h0).mp hm⟩
        · rintro ⟨hm, hw⟩
          obtain ⟨m, rfl⟩ := Option.isSome_iff_exists.mp hm
          exact ⟨m, rfl, (convert_malloc m b.data h0).mpr hw⟩
      · rw [hus.fill_hasData hui (fun _ _ => convert_length) hr, hasTexture, hb, Bool.true_and]
    · next hb =>
      refine ⟨by simp [hb], fun r hr => ?_⟩
      rw [← Option.some.inj hr]
      exact ⟨⟨hus, hui⟩, by simp [hasTexture, hb, DataPool.hasData]⟩

/-- What the texture holds after that is what the pool of a single surface holds. -/
theorem commitTexture_contents (h : Sound s) (hi : s.objects i = some (.pool .surface p))
    (b : WlShmBuffer) (m : ℕ → UInt8) (q : Yaza.DataPool) {r : State × DataPool}
    (hr : s.commitTexture i p (some b) (some m) = some r) :
    r.1.contents r.2.data = (q.commit m b).block := by
  obtain ⟨u, hu, hus, hui⟩ := h.clear hi
  obtain ⟨hf, hs⟩ := hus.fill hui (some m) (b.stride * b.height) (f := convert b.data _)
    fun _ _ => convert_length
  simp only [State.commitTexture, hu, Option.bind_some, readWlSurfaceTexture] at hr
  unfold Yaza.DataPool.commit
  split at hr
  · next hb =>
    obtain ⟨-, hc⟩ := hs r hr
    rw [hr] at hf
    rw [hc, if_pos hb]
    change _ = (q.target m b).block.map fun _ => ((q.target m b).convert b).dst
    by_cases h0 : b.stride * b.height = 0
    · have ht : (q.target m b).block = none := by
        simp [Yaza.DataPool.target, Yaza.DataPool.ensureAndSetDataSize, h0, q.cleared_block]
      rw [if_pos h0, ht, Option.map_none]
    · obtain ⟨hsize, hblock⟩ := q.target_of_pos m (Nat.pos_of_ne_zero h0)
      obtain ⟨m', hm', hi'⟩ := hf.mp rfl (Nat.pos_of_ne_zero h0)
      obtain ⟨bytes, hb'⟩ := Option.isSome_iff_exists.mp hi'
      cases hm'
      rw [if_neg h0, Option.bind_some, hb', hblock, Option.map_some, Yaza.DataPool.convert, hsize,
        hblock, eq_of_convert hb', Option.getD_some]
  · next hb =>
    rw [← Option.some.inj hr, if_neg hb, q.cleared_block]
    rfl

theorem commitSurface (h : Sound s) (hi : s.objects i = some (.pool .surface p))
    (buffer : Option WlShmBuffer) (memory : Option (ℕ → UInt8)) (hasRenderer : Bool) :
    Exactly
      ((∀ b, buffer = some b → b.supported → 0 < b.stride * b.height →
          memory.isSome ∧ IsWhole b) ∧
        (hasRenderer → hasTexture p buffer → order = .getFirst))
      (s.commitSurface order i p buffer memory hasRenderer) := by
  obtain ⟨hf, hs⟩ := h.commitTexture hi buffer memory
  refine exactly_congr ?_ (and_congr_left' hf)
  unfold State.commitSurface
  cases hr : s.commitTexture i p buffer memory with
  | none => exact exactly_of_sound (by simp) fun t ht => by cases ht
  | some r =>
    obtain ⟨⟨hrs, hri⟩, hd⟩ := hs r hr
    rw [← hd]
    exact exactly_congr (hrs.drawTexture hri hasRenderer) (by simp)

theorem createRendererBuffer (h : Sound s) (data : Option Bytes) (memory : Option (ℕ → UInt8)) :
    Exactly
      (∀ d, data = some d → Allocates memory d.length ∧ (0 < d.length → order = .getFirst))
      (s.createRendererBuffer order data memory) := by
  have hc := h.create .rendererBuffer
  have hi : (s.create .rendererBuffer).objects s.nextId = some (.pool .rendererBuffer {}) :=
    Arena.set_self ..
  cases data with
  | none =>
    refine exactly_of_sound (by simp [State.createRendererBuffer]) fun t ht => ?_
    exact Option.some.inj ht ▸ hc
  | some d =>
    obtain ⟨hf, hs⟩ := hc.fill_memcpy hi memory d
    simp only [Option.some.injEq, forall_eq']
    refine exactly_congr ?_ (and_congr_left' hf)
    simp only [State.createRendererBuffer, fromPtr]
    cases hr : (s.create .rendererBuffer).fill s.nextId .rendererBuffer {} memory d.length
      (memcpy d) with
    | none => exact exactly_of_sound (by simp) fun t ht => by cases ht
    | some r =>
      obtain ⟨hrs, hri⟩ := hs r hr
      have hd := hc.fill_hasData hi (fun _ _ => memcpy_length) hr
      refine exactly_congr (hrs.createBuffer hri) ?_
      simp [hd]

/-- An action on the pool of an owner. -/
theorem onPool (h : Sound s) {f : DataPool → Option State} {C : DataPool → Prop}
    (hf : ∀ p, s.objects i = some (.pool owner p) → Exactly (C p) (f p)) :
    Exactly (∀ p, s.poolOf i owner = some p → C p) (s.onPool i owner f) := by
  unfold State.onPool
  cases hp : s.poolOf i owner with
  | none => exact exactly_of_sound (by simp) fun t ht => Option.some.inj ht ▸ h
  | some p =>
    have hi : s.objects i = some (.pool owner p) := by
      unfold poolOf at hp
      split at hp
      · next o q ho =>
        split at hp
        · next he => rw [ho, he, Option.some.inj hp]
        · cases hp
      · cases hp
    exact exactly_congr (hf p hi) (by simp)

/-- Each action does its work exactly if it meets its condition. -/
theorem act (h : Sound s) (a : Action) : Exactly (s.Allows order a) (s.act order a) := by
  cases a with
  | create owner =>
    exact exactly_of_sound (by simp [State.act, Allows]) fun t ht =>
      Option.some.inj ht ▸ h.create owner
  | createRendererBuffer data memory => exact h.createRendererBuffer data memory
  | commitSurface i buffer memory hasRenderer =>
    exact h.onPool fun p hp => h.commitSurface hp buffer memory hasRenderer
  | initRenderer i =>
    exact h.onPool fun p hp => exactly_congr (h.drawTexture hp true) (by simp)
  | commitGlBuffer i data memory => exact h.onPool fun p hp => h.commitData hp data memory
  | syncGlBuffer i => exact h.onPool fun p hp => h.createBuffer hp
  | commitGlTexture i data memory => exact h.onPool fun p hp => h.commitData hp data memory
  | syncGlTexture i => exact h.onPool fun p hp => h.createBuffer hp
  | destroy i =>
    simp only [State.act, Allows]
    cases hi : s.objects i with
    | none => exact exactly_of_sound (by simp) fun t ht => Option.some.inj ht ▸ h
    | some o =>
      obtain ⟨t, ht, hts⟩ := h.destroy hi
      rw [Option.elim_some, ht]
      exact exactly_of_sound (by simp) fun u hu => Option.some.inj hu ▸ hts

theorem step_of_allows (h : Sound s) {a : Action} (ha : s.Allows order a) :
    Sound (s.step order a) := by
  obtain ⟨t, ht, hs⟩ := h.act a |>.sound ha
  have hf : ¬ s.fault = true := by simp [h.fault]
  rw [State.step, if_neg hf, ht]
  exact hs

theorem allows_of_step (h : Sound s) {a : Action} (hi : Intact (s.step order a)) :
    s.Allows order a := by
  have hs : ¬ s.fault = true := by simp [h.fault]
  rw [State.step, if_neg hs] at hi
  cases ht : s.act order a with
  | none =>
    rw [ht] at hi
    cases hi.fault
  | some t =>
    rw [ht] at hi
    exact (h.act a).needs t ht hi

end Sound

/-- The program at its start. -/
def init : State := {}

theorem init_sound : Sound init where
  fault := rfl
  tally := {
    unused := fun _ _ => ⟨rfl, rfl⟩
    live := fun i o b hi => by cases hi
    counted := fun b x hb => by cases hb }
  good i o hi := by cases hi

/-- Every pool fits in its block and every buffer keeps what it shows, throughout a run, exactly if
`malloc` never fails in it, every buffer of a surface that is read has whole pixels, and buffers are
made of blocks only where `data.get()` comes first. -/
theorem intact_throughout_iff (order : ArgumentOrder) (as : List Action) :
    Run.Always (step order) Intact init as ↔ Run.Each (step order) (Allows order) init as :=
  Run.always_iff_each_of init_sound (fun _ h => h.intact) (fun _ _ h ha => h.step_of_allows ha)
    (fun _ _ h hi => h.allows_of_step hi) as

/-- One pixel in a buffer of a stride of one byte. -/
def narrowCommit : List Action :=
  [.create .surface, .commitSurface 0 (some ⟨0, 1, 1, 1, [7]⟩) (some fun _ => 0) false]

/-- One byte that is sent. -/
def plainSync : List Action :=
  [.create .glBuffer, .commitGlBuffer 0 (some [7]) (some fun _ => 0), .syncGlBuffer 0]

/-- The pixel is written to four bytes, of which the block has one. A compiler that moves from
`data` first hands over null. -/
theorem narrowCommit_fault :
    ¬ Run.Always (step .getFirst) Intact init narrowCommit ∧
      WlShmBuffer.Admitted ⟨0, 1, 1, 1, [7]⟩ ∧
        ¬ Run.Always (step .captureFirst) Intact init plainSync := by
  refine ⟨fun h => ?_, ⟨by decide, by decide, by decide, by decide, by decide⟩, fun h => ?_⟩
  · have hs : Sound (step .getFirst init (.create .surface)) := init_sound.step_of_allows trivial
    have ha := hs.allows_of_step (h narrowCommit (List.prefix_refl _))
    exact absurd ((ha {} (by decide)).1 _ rfl (by decide) (by decide)).2.1 (by decide)
  · have hi := h plainSync (List.prefix_refl _)
    have h1 := hi.shown 2 none (some 1) (some [7]) (by decide)
    cases h1

end State
end Blocks
end Yaza
