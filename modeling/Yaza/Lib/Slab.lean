import Mathlib.Algebra.Order.Field.Basic
import Mathlib.Order.WithBot
import Mathlib.Order.Bounds.Basic
import Mathlib.Tactic.Linarith

/-! Sets of parameters kept as a least bound and a largest one, which may be infinite: how they
are cut, and the slab that a line crosses. -/
namespace Slab
variable {α : Type*} [LinearOrder α]

/-- The points from a bound on, up to another. -/
def between (near : α) (far : WithTop α) : Set α := {s | near ≤ s ∧ (s : WithTop α) ≤ far}

/-- `r` is what there is to know of `S`: that it is empty, or its two bounds. -/
def Bounds (S : Set α) : Option (α × WithTop α) → Prop
  | none => S = ∅
  | some (near, far) => (near : WithTop α) ≤ far ∧ S = between near far

/-- The least point of `S`, if there is any. -/
def Least (S : Set α) : Option α → Prop
  | none => S = ∅
  | some t => IsLeast S t

theorem between_top (near : α) : between near ⊤ = Set.Ici near := by
  ext s
  simp [between]

theorem between_inter (near near' : α) (far far' : WithTop α) :
    between near far ∩ between near' far' = between (max near near') (min far far') := by
  ext s
  simp only [between, Set.mem_inter_iff, Set.mem_ofPred_eq, max_le_iff, le_min_iff]
  constructor
  · rintro ⟨⟨h1, h2⟩, h3, h4⟩
    exact ⟨⟨h1, h3⟩, h2, h4⟩
  · rintro ⟨⟨h1, h3⟩, h2, h4⟩
    exact ⟨⟨h1, h2⟩, h3, h4⟩

theorem between_eq_empty_iff {near : α} {far : WithTop α} :
    between near far = ∅ ↔ far < near := by
  rw [← not_iff_not, not_lt, ← ne_eq, ← Set.nonempty_iff_ne_empty]
  constructor
  · rintro ⟨s, h1, h2⟩
    exact (WithTop.coe_le_coe.mpr h1).trans h2
  · intro h
    exact ⟨near, le_refl near, h⟩

/-- The bounds of the points between two bounds. -/
theorem bounds_between (near : α) (far : WithTop α) :
    Bounds (between near far) (if far < near then none else some (near, far)) := by
  split
  next h => exact between_eq_empty_iff.mpr h
  next h => exact ⟨not_lt.mp h, rfl⟩

theorem bounds_Ici (near : α) : Bounds (Set.Ici near) (some (near, ⊤)) :=
  ⟨le_top, (between_top near).symm⟩

namespace Bounds
variable {S : Set α} {r : Option (α × WithTop α)}

/-- What is not empty has a least point, the lower bound. -/
theorem least (h : Bounds S r) : Least S (r.map Prod.fst) := by
  rcases r with _ | ⟨near, far⟩
  · exact h
  · obtain ⟨h1, h2⟩ := h
    have hn : near ∈ S := by
      rw [h2]
      exact ⟨le_refl near, h1⟩
    refine ⟨hn, fun s hs => ?_⟩
    rw [h2] at hs
    exact hs.1

/-- Cut in turn by the sets of a list, each cut finding the bounds of what it leaves. -/
theorem foldlM {β : Type*} {cut : α × WithTop α → β → Option (α × WithTop α)} {T : β → Set α}
    (hc : ∀ (near : α) (far : WithTop α) (b : β), near ≤ far →
      Bounds (between near far ∩ T b) (cut (near, far) b)) (l : List β)
    {near : α} {far : WithTop α} (h : Bounds S (some (near, far))) :
    Bounds (S ∩ {s | ∀ b ∈ l, s ∈ T b}) (l.foldlM cut (near, far)) := by
  induction l generalizing S near far with
  | nil => simpa using h
  | cons b l ih =>
    have h1 := hc near far b h.1
    have hs : S ∩ {s | ∀ c ∈ b :: l, s ∈ T c} =
        (between near far ∩ T b) ∩ {s | ∀ c ∈ l, s ∈ T c} := by
      ext s
      simp [h.2, and_assoc]
    rw [hs, List.foldlM_cons]
    cases hr : cut (near, far) b with
    | none =>
      have h0 : between near far ∩ T b = ∅ := by rw [hr] at h1; exact h1
      simp [Bounds, h0]
    | some b' =>
      rw [hr] at h1
      exact ih h1

end Bounds

namespace Least
variable {S T : Set α} {r r' : Option α}

theorem eq_some_iff (h : Least S r) (t : α) : r = some t ↔ IsLeast S t := by
  cases r with
  | none =>
    have h0 : S = ∅ := h
    simp [h0, IsLeast]
  | some n =>
    have hn : IsLeast S n := h
    rw [Option.some.injEq]
    constructor
    · rintro rfl
      exact hn
    · exact hn.unique

theorem isSome_iff (h : Least S r) : r.isSome ↔ S.Nonempty := by
  cases r with
  | none =>
    have h0 : S = ∅ := h
    simp [h0]
  | some n => exact ⟨fun _ => ⟨n, h.1⟩, fun _ => rfl⟩

/-- The sooner of two is the least of both sets. -/
theorem merge (h : Least S r) (h' : Least T r') : Least (S ∪ T) (Option.merge min r r') := by
  cases r with
  | none =>
    have h0 : S = ∅ := h
    simpa [h0] using h'
  | some n =>
    cases r' with
    | none =>
      have h0 : T = ∅ := h'
      simpa [h0] using h
    | some n' => exact IsLeast.union h h'

/-- The soonest of a list is the least of all its sets. -/
theorem foldl {β : Type*} {f : β → Option α} {F : β → Set α} {l : List β}
    (hf : ∀ b ∈ l, Least (F b) (f b)) (h : Least S r) :
    Least (S ∪ {s | ∃ b ∈ l, s ∈ F b}) (l.foldl (fun r b => Option.merge min r (f b)) r) := by
  induction l generalizing S r with
  | nil => simpa using h
  | cons b l ih =>
    have h1 := ih (fun c hc => hf c (List.mem_cons_of_mem b hc)) (h.merge (hf b List.mem_cons_self))
    have hs : S ∪ {s | ∃ c ∈ b :: l, s ∈ F c} = S ∪ F b ∪ {s | ∃ c ∈ l, s ∈ F c} := by
      ext s
      simp [or_assoc]
    rwa [hs]

end Least

section Field
variable {K : Type*} [Field K] [LinearOrder K] [IsStrictOrderedRing K] {e f h : K}

theorem slab_of_pos (hf : 0 < f) :
    {s | |s * f - e| ≤ h} = between ((e - h) / f) ((e + h) / f : K) := by
  ext s
  simp only [between, Set.mem_ofPred_eq, abs_le, WithTop.coe_le_coe, div_le_iff₀ hf, le_div_iff₀ hf]
  constructor
  · rintro ⟨h1, h2⟩
    exact ⟨by linarith, by linarith⟩
  · rintro ⟨h1, h2⟩
    exact ⟨by linarith, by linarith⟩

/-- Against the direction of the axis the bounds come the other way. -/
theorem slab_of_neg (hf : f < 0) :
    {s | |s * f - e| ≤ h} = between ((e + h) / f) ((e - h) / f : K) := by
  ext s
  simp only [between, Set.mem_ofPred_eq, abs_le, WithTop.coe_le_coe, div_le_iff_of_neg hf,
    le_div_iff_of_neg hf]
  constructor
  · rintro ⟨h1, h2⟩
    exact ⟨by linarith, by linarith⟩
  · rintro ⟨h1, h2⟩
    exact ⟨by linarith, by linarith⟩

/-- The smaller and the larger quotient bound the slab, whichever way it is crossed. -/
theorem slab_of_ne_zero (hf : f ≠ 0) (hh : 0 ≤ h) :
    {s | |s * f - e| ≤ h} = between (min ((e - h) / f) ((e + h) / f))
      (max ((e - h) / f) ((e + h) / f) : K) := by
  rcases lt_or_gt_of_ne hf with hn | hp
  · have h1 : (e + h) / f ≤ (e - h) / f := div_le_div_of_nonpos_of_le hn.le (by linarith)
    rw [slab_of_neg hn, min_eq_right h1, max_eq_left h1]
  · have h1 : (e - h) / f ≤ (e + h) / f := div_le_div_of_nonneg_right (by linarith) hp.le
    rw [slab_of_pos hp, min_eq_left h1, max_eq_right h1]

end Field

end Slab
