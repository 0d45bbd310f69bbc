import Yaza.Wayland.DataPool

/-! The pixels of a texture: what `GlTexImage2D` finds in the block that a committed buffer is
converted into, beside the pixels of the buffer. -/
namespace Yaza

/-- A pixel of `GL_RGBA`. -/
structure Texel where
  red : UInt8
  green : UInt8
  blue : UInt8
  alpha : UInt8
  deriving DecidableEq, Repr

/-- The pixel `(x, y)` of an image whose rows follow each other without padding. -/
def texel (image : Bytes) (width x y : ℕ) : Texel where
  red := image.getD ((y * width + x) * 4) 0
  green := image.getD ((y * width + x) * 4 + 1) 0
  blue := image.getD ((y * width + x) * 4 + 2) 0
  alpha := image.getD ((y * width + x) * 4 + 3) 0

namespace WlShmBuffer

/-- The four bytes from `i` on, as blue, green, red and alpha. -/
def bytesAt (b : WlShmBuffer) (i : ℕ) : Texel where
  red := b.data.getD (i + 2) 0
  green := b.data.getD (i + 1) 0
  blue := b.data.getD i 0
  alpha := b.data.getD (i + 3) 0

/-- The pixel that they are; only `WL_SHM_FORMAT_ARGB8888` has an alpha. -/
def colourAt (b : WlShmBuffer) (i : ℕ) : Texel :=
  { b.bytesAt i with alpha := if b.format = 0 then b.data.getD (i + 3) 0 else 255 }

/-- The image of this size has the pixels of the buffer. -/
def Shows (b : WlShmBuffer) (image : Bytes) (size : ℕ × ℕ) : Prop :=
  ∀ x y, x < size.1 → y < size.2 → texel image size.1 x y = b.colourAt (y * b.stride + 4 * x)

/-- Every pixel has the colour of the one that is where it would be without padding. -/
def RowsAgree (b : WlShmBuffer) : Prop :=
  ∀ x y, x < b.width → y < b.height →
    b.colourAt ((y * b.width + x) * 4) = b.colourAt (y * b.stride + 4 * x)

/-- Without an alpha, the unused byte of those pixels is that of an opaque one. -/
def Opaque (b : WlShmBuffer) : Prop :=
  b.format ≠ 0 → ∀ x y, x < b.width → y < b.height →
    b.data.getD ((y * b.width + x) * 4 + 3) 0 = 255

variable {b : WlShmBuffer}

theorem bytesAt_eq_colourAt_iff (i j : ℕ) : b.bytesAt i = b.colourAt j ↔
    b.colourAt i = b.colourAt j ∧ (b.format ≠ 0 → b.data.getD (i + 3) 0 = 255) := by
  by_cases hf : b.format = 0
  · have h1 : b.bytesAt i = b.colourAt i := by
      simp only [colourAt, hf, if_true]
      rfl
    simp [h1, hf]
  · simp only [colourAt, bytesAt, hf, if_false, Texel.mk.injEq, ne_eq, not_false_eq_true,
      true_implies]
    constructor
    · rintro ⟨h1, h2, h3, h4⟩
      exact ⟨⟨h1, h2, h3, trivial⟩, h4⟩
    · rintro ⟨⟨h1, h2, h3, -⟩, h4⟩
      exact ⟨h1, h2, h3, h4⟩

/-- The pixels that the conversion puts into a row of `width` pixels. -/
theorem texel_converted {x y : ℕ} (h : (y * b.width + x) * 4 + 3 < b.stride * b.height) :
    texel (DataPool.converted b) b.width x y = b.bytesAt ((y * b.width + x) * 4) := by
  have hget (i : ℕ) (hi : i < b.stride * b.height) :
      (DataPool.converted b).getD i 0 = b.data.getD (DataPool.Conversion.source i) 0 := by
    rw [List.getD_eq_getElem _ 0 (by simpa [DataPool.converted] using hi)]
    simp [DataPool.converted]
  generalize hi : (y * b.width + x) * 4 = i at h
  have h4 : i % 4 = 0 := by omega
  have h0 : DataPool.Conversion.source i = i + 2 := by simp [DataPool.Conversion.source, h4]
  have h1 : DataPool.Conversion.source (i + 1) = i + 1 := by
    simp [DataPool.Conversion.source, show (i + 1) % 4 = 1 by omega]
  have h2 : DataPool.Conversion.source (i + 2) = i := by
    simp [DataPool.Conversion.source, show (i + 2) % 4 = 2 by omega]
  have h3 : DataPool.Conversion.source (i + 3) = i + 3 := by
    simp [DataPool.Conversion.source, show (i + 3) % 4 = 3 by omega]
  simp only [texel, bytesAt, hi]
  rw [hget i (by omega), hget (i + 1) (by omega), hget (i + 2) (by omega), hget (i + 3) h, h0, h1,
    h2, h3]

/-- The pixels that the upload takes are inside the block. -/
theorem packed_lt (hs : 4 * b.width ≤ b.stride) {x y : ℕ} (hx : x < b.width) (hy : y < b.height) :
    (y * b.width + x) * 4 + 3 < b.stride * b.height := by
  have h1 : (y + 1) * (4 * b.width) ≤ b.height * b.stride := Nat.mul_le_mul hy hs
  calc (y * b.width + x) * 4 + 3 < 4 * (y * b.width) + 4 * b.width := by omega
    _ = (y + 1) * (4 * b.width) := by rw [Nat.add_mul, Nat.mul_left_comm, Nat.one_mul]
    _ ≤ b.height * b.stride := h1
    _ = b.stride * b.height := Nat.mul_comm ..

/-- The texture of a committed buffer shows it exactly when its rows agree with packed ones, and
the unused bytes are those of opaque pixels. -/
theorem commit_shows_iff (p : DataPool) (memory : ℕ → UInt8) (hb : b.Admitted)
    (hf : b.supported = true) (hs : 4 * b.width ≤ b.stride) (h4 : 4 ∣ b.stride) (s : Surface) :
    (∃ image, (p.commit memory b).block = some image ∧ b.Shows image (s.commitBuffer b).texSize) ↔
      b.RowsAgree ∧ b.Opaque := by
  have hsize : (s.commitBuffer b).texSize = (b.width, b.height) := by
    rw [Surface.commitBuffer, if_pos hf]
    rfl
  have hk := DataPool.commit_block p memory hb hf (Nat.dvd_mul_right_of_dvd h4 _)
  have hshows : b.Shows (DataPool.converted b) (b.width, b.height) ↔ b.RowsAgree ∧ b.Opaque := by
    have hpixel (x y : ℕ) (hx : x < b.width) (hy : y < b.height) :=
      (congrArg (· = b.colourAt (y * b.stride + 4 * x))
        (texel_converted (packed_lt hs hx hy))).to_iff.trans (bytesAt_eq_colourAt_iff _ _)
    constructor
    · intro h
      exact ⟨fun x y hx hy => ((hpixel x y hx hy).mp (h x y hx hy)).1,
        fun hf x y hx hy => ((hpixel x y hx hy).mp (h x y hx hy)).2 hf⟩
    · rintro ⟨hr, ho⟩ x y hx hy
      exact (hpixel x y hx hy).mpr ⟨hr x y hx hy, fun hf => ho hf x y hx hy⟩
  rw [hk, hsize]
  simp only [Option.some.injEq, exists_eq_left', hshows]

/-- Two rows of one opaque pixel. The padding of the first row is the pixel of the second. -/
def doubled : WlShmBuffer where
  format := 1
  width := 1
  height := 2
  stride := 8
  data := [1, 2, 3, 255, 5, 6, 7, 255, 5, 6, 7, 255, 0, 0, 0, 0]

theorem commit_shows_doubled : ∃ image,
    (DataPool.init.commit (fun _ => 0) doubled).block = some image ∧
      Shows doubled image (Surface.commitBuffer { texSize := (0, 0) } doubled).texSize := by
  have hy (x y : ℕ) (hx : x < 1) (hy : y < 2) : x = 0 ∧ (y = 0 ∨ y = 1) := by omega
  refine (commit_shows_iff DataPool.init (fun _ => 0) (b := doubled)
    ⟨by decide, by decide, by decide, by decide, by decide⟩ rfl (by decide) (by decide)
    { texSize := (0, 0) }).mpr ⟨fun x y hx hy' => ?_, fun _ x y hx hy' => ?_⟩
  · obtain ⟨rfl, rfl | rfl⟩ := hy x y hx hy' <;> rfl
  · obtain ⟨rfl, rfl | rfl⟩ := hy x y hx hy' <;> rfl

/-- Two rows of one pixel, each with a pixel of padding. -/
def padded : WlShmBuffer where
  format := 0
  width := 1
  height := 2
  stride := 8
  data := [0, 0, 0, 0, 9, 9, 9, 9, 1, 1, 1, 1, 0, 0, 0, 0]

/-- The padding of the first row is shown as the second one. -/
theorem padded_not_shown : padded.Admitted ∧ padded.supported = true ∧
    4 * padded.width ≤ padded.stride ∧ 4 ∣ padded.stride ∧
      ¬∃ image, (DataPool.init.commit (fun _ => 0) padded).block = some image ∧
        padded.Shows image (Surface.commitBuffer { texSize := (0, 0) } padded).texSize := by
  have hb : padded.Admitted := ⟨by decide, by decide, by decide, by decide, by decide⟩
  refine ⟨hb, rfl, by decide, by decide, ?_⟩
  rintro ⟨image, hk, hs⟩
  rw [DataPool.commit_block _ _ hb rfl (by decide)] at hk
  cases hk
  exact absurd (hs 0 1 (by decide) (by decide)) (by decide)

/-- Whatever the contents, the rows agree exactly when there is one or when nothing pads them. -/
theorem rowsAgree_always_iff (hw : 0 < b.width) (hh : 0 < b.height) (hs : 4 * b.width ≤ b.stride) :
    (∀ data : Bytes, b.stride * b.height ≤ data.length → RowsAgree { b with data }) ↔
      b.stride = 4 * b.width ∨ b.height = 1 := by
  constructor
  · intro h
    by_contra hn
    have hh2 : 1 < b.height := by omega
    have hpad : 4 * b.width < b.stride := by omega
    have h2 : b.stride * 2 ≤ b.stride * b.height := Nat.mul_le_mul_left _ hh2
    -- only the first pixel of the second row is red
    let data := (List.replicate (b.stride * b.height) (0 : UInt8)).set (b.stride + 2) 1
    have hget (i : ℕ) : data.getD i 0 = if i = b.stride + 2 then 1 else 0 := by
      rw [List.getD_eq_getElem?_getD, List.getElem?_set, List.getElem?_replicate]
      by_cases hi : b.stride + 2 = i
      · subst hi
        rw [if_pos rfl, if_pos rfl, if_pos (by rw [List.length_replicate]; omega)]
        rfl
      · rw [if_neg hi, if_neg (Ne.symm hi)]
        split <;> rfl
    have h1 := h data (by simp [data]) 0 1 hw hh2
    have hred : data.getD ((1 * b.width + 0) * 4 + 2) 0 = data.getD (1 * b.stride + 4 * 0 + 2) 0 :=
      congrArg Texel.red h1
    rw [hget, hget, if_neg (by omega), if_pos (by omega)] at hred
    exact absurd hred (by decide)
  · rintro h data - x y hx hy
    congr 1
    rcases h with h | h
    · change (y * b.width + x) * 4 = y * b.stride + 4 * x
      rw [h, Nat.mul_left_comm]
      omega
    · have hy : y < b.height := hy
      obtain rfl : y = 0 := by omega
      change (0 * b.width + x) * 4 = 0 * b.stride + 4 * x
      omega

/-- Whatever the contents, the pixels are opaque exactly when the alpha is theirs. -/
theorem opaque_always_iff (hw : 0 < b.width) (hh : 0 < b.height) :
    (∀ data : Bytes, b.stride * b.height ≤ data.length → Opaque { b with data }) ↔
      b.format = 0 := by
  constructor
  · intro h
    by_contra hn
    have h1 := h (List.replicate (b.stride * b.height) 0) (by simp) hn 0 0 hw hh
    rw [List.getD_eq_getElem?_getD, List.getElem?_replicate] at h1
    split at h1
    · exact absurd h1 (by decide)
    · exact absurd h1 (by decide)
  · exact fun h data _ hn => absurd h hn

end WlShmBuffer
end Yaza
