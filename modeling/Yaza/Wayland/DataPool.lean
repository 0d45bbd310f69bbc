import Yaza.Wayland.Surface
import Mathlib.Data.List.GetD

/-! The memory of a surface's texture (`util/data_pool.cpp`), and the loop that converts a
`wl_shm` buffer into it: which bytes it touches, and what it leaves there. -/
namespace Yaza

/-- What libwayland guarantees of a buffer of its `wl_shm`. -/
structure WlShmBuffer.Admitted (b : WlShmBuffer) : Prop where
  width : 0 < b.width
  height : 0 < b.height
  stride : b.width ≤ b.stride
  size : b.stride * b.height ≤ 2147483647
  contents : b.stride * b.height ≤ b.data.length

theorem WlShmBuffer.Admitted.pos {b : WlShmBuffer} (hb : b.Admitted) : 0 < b.stride * b.height :=
  Nat.mul_pos (Nat.lt_of_lt_of_le hb.width hb.stride) hb.height

/-- `block` is what `malloc` returned; the first `size` bytes of it are in use. -/
structure DataPool where
  size : ℕ := 0
  block : Option Bytes := none
  unused : block = none → size = 0
  fits : ∀ bytes, block = some bytes → size ≤ bytes.length

namespace DataPool

def init : DataPool where
  unused := fun _ => rfl
  fits := fun _ h => by cases h

def hasData (p : DataPool) : Bool := p.block.isSome

/-- `DataPool::reset`. -/
def reset : DataPool := init

/-- `malloc`, in a memory that holds `memory`. -/
def malloc (memory : ℕ → UInt8) (size : ℕ) : Bytes := (List.range size).map memory

/-- `DataPool::ensure_and_set_data_size`. -/
def ensureAndSetDataSize (p : DataPool) (memory : ℕ → UInt8) (size : ℕ) : DataPool :=
  if h : size ≤ p.size then
    { p with
      size
      unused := fun hb => by have := p.unused hb; omega
      fits := fun bytes hb => Nat.le_trans h (p.fits bytes hb) }
  else
    { size
      block := some (malloc memory size)
      unused := nofun
      fits := by simp [malloc] }

/-- The largest `int`. -/
def intMax : ℕ := 2147483647

/-- What the loop has written, and the indices it has used. -/
structure Conversion where
  dst : Bytes
  reads : List ℕ := []
  writes : List ℕ := []
  overflow : Bool := false
  deriving DecidableEq, Repr

namespace Conversion

/-- The body of the loop. -/
def pixel (src : Bytes) (i : ℕ) (c : Conversion) : Conversion where
  dst := (((c.dst.set i (src.getD (i + 2) 0)).set (i + 1) (src.getD (i + 1) 0)).set (i + 2)
    (src.getD i 0)).set (i + 3) (src.getD (i + 3) 0)
  reads := c.reads ++ [i + 2, i + 1, i, i + 3]
  writes := c.writes ++ [i, i + 1, i + 2, i + 3]
  overflow := c.overflow

/-- The loop from `i` on; an index that no longer fits in an `int` ends it. -/
def loop (src : Bytes) (size i : ℕ) (c : Conversion) : Conversion :=
  if i < size then
    if i + 4 ≤ intMax then loop src size (i + 4) (c.pixel src i)
    else { c.pixel src i with overflow := true }
  else c
termination_by size - i

/-- The byte of a pixel that is stored at `i`. -/
def source (i : ℕ) : ℕ := if i % 4 = 0 then i + 2 else if i % 4 = 2 then i - 2 else i

/-- The loop is left with its index at a multiple of four that no access has passed. -/
structure Safe (size : ℕ) (c : Conversion) : Prop where
  reads : ∀ j ∈ c.reads, j < size
  writes : ∀ j ∈ c.writes, j < size
  overflow : c.overflow = false

theorem pixel_safe_iff {src : Bytes} {size i : ℕ} {c : Conversion} :
    (c.pixel src i).Safe size ↔ c.Safe size ∧ i + 3 < size := by
  constructor
  · rintro ⟨hr, hw, ho⟩
    simp only [pixel, List.mem_append] at hr hw ho
    exact ⟨⟨fun j hj => hr j (.inl hj), fun j hj => hw j (.inl hj), ho⟩,
      hr _ (.inr (by simp))⟩
  · rintro ⟨⟨hr, hw, ho⟩, hi⟩
    refine ⟨fun j hj => ?_, fun j hj => ?_, ho⟩
    · rcases List.mem_append.mp hj with h | h
      · exact hr j h
      · simp only [List.mem_cons, List.not_mem_nil, or_false] at h
        omega
    · rcases List.mem_append.mp hj with h | h
      · exact hw j h
      · simp only [List.mem_cons, List.not_mem_nil, or_false] at h
        omega

/-- The loop stays inside the block exactly when it ends at the size, and that is an `int`. -/
theorem loop_safe_iff {src : Bytes} {size i : ℕ} (c : Conversion) :
    (loop src size i c).Safe size ↔
      c.Safe size ∧ (size ≤ i ∨ (4 ∣ size - i ∧ size ≤ intMax)) := by
  fun_induction loop src size i c with
  | case1 i c hi ho ih =>
    rw [ih, pixel_safe_iff]
    constructor
    · rintro ⟨⟨hc, h3⟩, h⟩
      exact ⟨hc, .inr (by omega)⟩
    · rintro ⟨hc, h⟩
      exact ⟨⟨hc, by omega⟩, by omega⟩
  | case2 i c hi ho =>
    constructor
    · intro h
      exact absurd h.overflow (by simp)
    · rintro ⟨-, h⟩
      simp only [intMax] at h ho
      omega
  | case3 i c hi => exact ⟨fun h => ⟨h, .inl (by omega)⟩, fun h => h.1⟩

theorem pixel_length (src : Bytes) (i : ℕ) (c : Conversion) :
    (c.pixel src i).dst.length = c.dst.length := by
  simp [pixel]

/-- A pixel fills its four bytes and leaves the others. -/
theorem pixel_dst {src : Bytes} {i : ℕ} {c : Conversion} (h4 : 4 ∣ i)
    (hl : i + 3 < c.dst.length) (j : ℕ) :
    (c.pixel src i).dst.getD j 0 =
      if i ≤ j ∧ j < i + 4 then src.getD (source j) 0 else c.dst.getD j 0 := by
  have set (l : Bytes) (k : ℕ) (v : UInt8) (hk : k < l.length) :
      (l.set k v).getD j 0 = if j = k then v else l.getD j 0 := by
    rw [List.getD_eq_getElem?_getD, List.getD_eq_getElem?_getD, List.getElem?_set]
    by_cases h : k = j
    · subst h
      simp [hk]
    · simp [h, Ne.symm h]
  simp only [pixel]
  rw [set _ _ _ (by simpa using hl), set _ _ _ (by simp; omega), set _ _ _ (by simp; omega),
    set _ _ _ (by omega)]
  by_cases h : i ≤ j ∧ j < i + 4
  · rw [if_pos h]
    obtain rfl | rfl | rfl | rfl : j = i ∨ j = i + 1 ∨ j = i + 2 ∨ j = i + 3 := by omega
    · simp [source, show j % 4 = 0 by omega]
    · simp [source, show (i + 1) % 4 = 1 by omega]
    · simp [source, show (i + 2) % 4 = 2 by omega]
    · simp [source, show (i + 3) % 4 = 3 by omega]
  · rw [if_neg h, if_neg (by omega), if_neg (by omega), if_neg (by omega), if_neg (by omega)]

/-- Inside its block the loop converts every byte from `i` on. -/
theorem loop_dst (src : Bytes) {size i : ℕ} (hs : size ≤ intMax) (h4 : 4 ∣ i) (hd : 4 ∣ size)
    (c : Conversion) (hl : c.dst.length = size) (j : ℕ) :
    (loop src size i c).dst.getD j 0 =
      if i ≤ j ∧ j < size then src.getD (source j) 0 else c.dst.getD j 0 := by
  fun_induction loop src size i c with
  | case1 i c hi ho ih =>
    rw [ih (by omega) (by rw [pixel_length, hl]), pixel_dst h4 (by omega)]
    by_cases h : i + 4 ≤ j ∧ j < size
    · rw [if_pos h, if_pos (by omega)]
    · rw [if_neg h]
      by_cases h' : i ≤ j ∧ j < i + 4
      · rw [if_pos h', if_pos (by omega)]
      · rw [if_neg h', if_neg (by omega)]
  | case2 i c hi ho =>
    simp only [intMax] at hs ho
    omega
  | case3 i c hi => rw [if_neg (by omega)]

theorem loop_length {src : Bytes} {size i : ℕ} (c : Conversion) :
    (loop src size i c).dst.length = c.dst.length := by
  fun_induction loop src size i c with
  | case1 i c hi ho ih => rw [ih, pixel_length]
  | case2 i c hi ho => exact pixel_length ..
  | case3 i c hi => rfl

end Conversion

/-- The loop of `DataPool::read_wl_surface_texture` on the block that was ensured. -/
def convert (p : DataPool) (b : WlShmBuffer) : Conversion :=
  Conversion.loop b.data p.size 0 { dst := p.block.getD [] }

/-- `DataPool::read_wl_surface_texture`. -/
def readWlSurfaceTexture (p : DataPool) (memory : ℕ → UInt8) (b : WlShmBuffer) : DataPool :=
  let q := p.ensureAndSetDataSize memory (b.stride * b.height)
  { size := q.size
    block := q.block.map fun _ => (q.convert b).dst
    unused := fun h => q.unused (by simpa using h)
    fits := fun bytes h => by
      obtain ⟨block, hb, rfl⟩ := Option.map_eq_some_iff.mp h
      rw [convert, Conversion.loop_length, hb]
      exact q.fits block hb }

/-- The texture of a surface before `Surface::commit` reads the pending buffer. -/
def cleared (p : DataPool) : DataPool := if p.hasData then reset else p

/-- What `Surface::commit` does to the texture of the surface, for the buffer that is pending. -/
def commit (p : DataPool) (memory : ℕ → UInt8) (b : WlShmBuffer) : DataPool :=
  if b.supported then p.cleared.readWlSurfaceTexture memory b else p.cleared

/-- The block `Surface::commit` converts the buffer into. -/
def target (p : DataPool) (memory : ℕ → UInt8) (b : WlShmBuffer) : DataPool :=
  p.cleared.ensureAndSetDataSize memory (b.stride * b.height)

theorem cleared_block (p : DataPool) : p.cleared.block = none := by
  unfold cleared hasData
  split
  · rfl
  · next h => simpa using h

theorem cleared_size (p : DataPool) : p.cleared.size = 0 := p.cleared.unused p.cleared_block

/-- A buffer that is not empty always gets a new block of its own size. -/
theorem target_of_pos (p : DataPool) (memory : ℕ → UInt8) {b : WlShmBuffer}
    (h : 0 < b.stride * b.height) :
    (p.target memory b).size = b.stride * b.height ∧
      (p.target memory b).block = some (malloc memory (b.stride * b.height)) := by
  have hn : ¬ b.stride * b.height ≤ p.cleared.size := by rw [cleared_size]; omega
  simp [target, ensureAndSetDataSize, hn]

/-- The loop stays below the size of the buffer, which is that of the block, and its index stays
an `int`, exactly when the size is a whole number of pixels of four bytes. -/
theorem convert_safe_iff (p : DataPool) (memory : ℕ → UInt8) {b : WlShmBuffer}
    (hb : b.Admitted) :
    ((p.target memory b).block.map List.length = some (b.stride * b.height) ∧
        ((p.target memory b).convert b).Safe (b.stride * b.height)) ↔
      4 ∣ b.stride * b.height := by
  obtain ⟨hs, hk⟩ := p.target_of_pos memory hb.pos
  have hsafe : ({ dst := (p.target memory b).block.getD [] } : Conversion).Safe
      (b.stride * b.height) := ⟨by simp, by simp, rfl⟩
  have hpos := hb.pos
  rw [convert, hs, Conversion.loop_safe_iff, hk]
  constructor
  · rintro ⟨-, -, h | ⟨h, -⟩⟩
    · omega
    · simpa using h
  · intro h
    exact ⟨by simp [malloc], by simpa [hk] using hsafe, .inr ⟨by simpa using h, hb.size⟩⟩

/-- Two rows of a pixel, whose stride is no whole number of pixels. -/
def uneven : WlShmBuffer := ⟨0, 1, 2, 6, [1, 2, 3, 4, 0, 0, 5, 6, 7, 8, 0, 0]⟩

theorem convert_safe_iff_uneven :
    ((init.target (fun _ => 0) uneven).block.map List.length = some (6 * 2) ∧
        ((init.target (fun _ => 0) uneven).convert uneven).Safe (6 * 2)) ↔ 4 ∣ 6 * 2 :=
  convert_safe_iff init (fun _ => 0) (b := uneven)
    ⟨by decide, by decide, by decide, by decide, by decide⟩

/-- A buffer of one byte: three bytes behind it are read and written. -/
def narrow : WlShmBuffer := ⟨0, 1, 1, 1, [7]⟩

theorem narrow_outside : narrow.Admitted ∧
    3 ∈ ((init.target (fun _ => 0) narrow).convert narrow).reads ∧
    3 ∈ ((init.target (fun _ => 0) narrow).convert narrow).writes ∧
    ¬ 3 < narrow.stride * narrow.height := by
  refine ⟨⟨by decide, by decide, by decide, by decide, by decide⟩, ?_, ?_, by decide⟩ <;>
  · rw [convert, Conversion.loop, if_pos (by decide), if_pos (by decide), Conversion.loop,
      if_neg (by decide)]
    decide

/-- The buffer with the colours in the order of OpenGL. -/
def converted (b : WlShmBuffer) : Bytes :=
  (List.range (b.stride * b.height)).map fun i => b.data.getD (Conversion.source i) 0

/-- A buffer of whole pixels is converted entirely. -/
theorem commit_block (p : DataPool) (memory : ℕ → UInt8) {b : WlShmBuffer} (hb : b.Admitted)
    (hf : b.supported) (h4 : 4 ∣ b.stride * b.height) :
    (p.commit memory b).block = some (converted b) := by
  obtain ⟨hs, hk⟩ := p.target_of_pos memory hb.pos
  have hd : ((p.target memory b).convert b).dst = converted b := by
    have hlen : ((p.target memory b).convert b).dst.length = b.stride * b.height := by
      rw [convert, Conversion.loop_length, hk]
      simp [malloc]
    refine List.ext_getElem (by simp [hlen, converted]) fun j hj hj' => ?_
    have h := Conversion.loop_dst b.data hb.size (Nat.dvd_zero 4) h4
      { dst := (p.target memory b).block.getD [] } (by simp [hk, malloc]) j
    rw [hlen] at hj
    rw [if_pos ⟨Nat.zero_le j, hj⟩, ← hs] at h
    rw [← List.getD_eq_getElem _ 0, convert, h]
    simp [converted]
  rw [commit, if_pos hf]
  change (p.target memory b).block.map _ = _
  rw [hk]
  exact congrArg some hd

/-- The texture holds data exactly when the surface has content. -/
theorem commit_hasData (p : DataPool) (memory : ℕ → UInt8) {b : WlShmBuffer} (hb : b.Admitted)
    (x : Surface) : (p.commit memory b).hasData = (x.commitBuffer b).texture.isSome := by
  obtain ⟨-, hk⟩ := p.target_of_pos memory hb.pos
  unfold commit Surface.commitBuffer
  split
  · have h : (p.target memory b).block.isSome = true := by rw [hk]; rfl
    simpa [hasData, readWlSurfaceTexture, target, Surface.setTextureSize, Surface.syncGeom,
      Surface.tell] using h
  · simp [hasData, cleared_block]

end DataPool
end Yaza
