import Yaza.Lib.Arena

/-! Two kinds of objects that refer to each other, one to one: which changes of either side keep
the references right. -/

/-- The references of the live objects of one kind, which may be empty, and those of the other
kind, which are not. -/
structure Link where
  fore : Arena (Option ℕ)
  back : Arena ℕ

namespace Link

/-- Every reference is answered. -/
structure Tied (k : Link) : Prop where
  fore : ∀ v b, k.fore v = some (some b) → k.back b = some v
  back : ∀ b v, k.back b = some v → k.fore v = some (some b)

def newFore (k : Link) (v : ℕ) : Link := { k with fore := k.fore.set v none }

/-- A new object of the second kind takes the reference of `v`. -/
def attach (k : Link) (b v : ℕ) : Link where
  fore := k.fore.modify v fun _ => some b
  back := k.back.set b v

def dropBack (k : Link) (b : ℕ) : Link := { k with back := k.back.erase b }

/-- An object of the first kind goes, and what it refers to. -/
def dropFore (k : Link) (v : ℕ) (b : Option ℕ) : Link where
  fore := k.fore.erase v
  back := fun i => if b = some i then none else k.back i

variable {k : Link} (hk : k.Tied)
include hk

theorem newFore_tied {v : ℕ} (hv : k.fore v = none) : (k.newFore v).Tied where
  fore := by
    intro i b hi
    simp only [newFore, Arena.set_apply] at hi
    split at hi
    · simp at hi
    · exact hk.fore i b hi
  back := by
    intro b i hb
    have hi := hk.back b i hb
    have hne : i ≠ v := by rintro rfl; simp [hv] at hi
    simpa [newFore, hne] using hi

/-- The reference of a live object may be taken exactly when it is empty. -/
theorem attach_tied_iff {b v : ℕ} {o : Option ℕ} (hb : k.back b = none)
    (hv : k.fore v = some o) : (k.attach b v).Tied ↔ o = none := by
  constructor
  · intro h
    cases o with
    | none => rfl
    | some c =>
      have hc := hk.fore v c hv
      have hcb : c ≠ b := by rintro rfl; simp [hb] at hc
      have := h.back c v (by simpa [attach, hcb] using hc)
      simp only [attach, Arena.modify_self, hv, Option.map_some, Option.some.injEq] at this
      exact absurd this.symm hcb
  · rintro rfl
    refine ⟨fun i c hi => ?_, fun c i hc => ?_⟩
    · simp only [attach, Arena.modify_apply, Arena.set_apply] at hi ⊢
      split at hi
      · next hiv =>
        subst hiv
        simp only [hv, Option.map_some, Option.some.injEq] at hi
        simp [hi]
      · next hiv =>
        have hc := hk.fore i c hi
        have hcb : c ≠ b := by rintro rfl; simp [hb] at hc
        simpa [hcb] using hc
    · simp only [attach, Arena.modify_apply, Arena.set_apply] at hc ⊢
      split at hc
      · next hcb => cases hc; simp [hv, hcb]
      · have hi := hk.back c i hc
        have hiv : i ≠ v := by rintro rfl; simp [hv] at hi
        simpa [hiv] using hi

/-- An object of the second kind may not go on its own. -/
theorem dropBack_tied_iff (b : ℕ) : (k.dropBack b).Tied ↔ k.back b = none := by
  constructor
  · intro h
    cases hb : k.back b with
    | none => rfl
    | some v =>
      have := h.fore v b (hk.back b v hb)
      simp [dropBack] at this
  · intro hb
    rw [dropBack, Arena.erase_of_none hb]
    exact hk

theorem dropFore_tied {v : ℕ} {b : Option ℕ} (hv : k.fore v = some b) :
    (k.dropFore v b).Tied where
  fore := by
    intro i c hi
    simp only [dropFore, Arena.erase_apply, Option.ite_none_left_eq_some] at hi ⊢
    refine ⟨?_, hk.fore i c hi.2⟩
    rintro rfl
    have h1 := hk.fore v c hv
    have h2 := hk.fore i c hi.2
    rw [h1, Option.some.injEq] at h2
    exact hi.1 h2.symm
  back := by
    intro c i hc
    simp only [dropFore, Arena.erase_apply, Option.ite_none_left_eq_some] at hc ⊢
    have hi := hk.back c i hc.2
    refine ⟨?_, hi⟩
    rintro rfl
    rw [hv, Option.some.injEq] at hi
    exact hc.1 hi

end Link
