import Yaza.Lib.Arena

/-! Parents that list their children, and children that know their parent: the lists are right
whatever the order in which either side comes and goes. -/

/-- The children each live parent lists, and the parent each live child names. -/
structure Wiring (κ : Type*) where
  lists : Arena (List κ)
  owner : κ → Option ℕ

namespace Wiring
variable {κ : Type*}

/-- Every parent lists exactly the children that name it, once each. -/
structure Sound (w : Wiring κ) : Prop where
  nodup : ∀ v l, w.lists v = some l → l.Nodup
  mem : ∀ v l c, w.lists v = some l → (c ∈ l ↔ w.owner c = some v)

theorem empty_sound (o : κ → Option ℕ) : Sound ⟨Arena.empty, o⟩ where
  nodup := by simp
  mem := by simp

def newParent (w : Wiring κ) (v : ℕ) : Wiring κ := { w with lists := w.lists.set v [] }

def dropParent (w : Wiring κ) (v : ℕ) : Wiring κ := { w with lists := w.lists.erase v }

variable [DecidableEq κ]

def newChild (w : Wiring κ) (c : κ) (v : ℕ) : Wiring κ where
  lists := w.lists.modify v fun l => l ++ [c]
  owner := Function.update w.owner c (some v)

def dropChild (w : Wiring κ) (c : κ) (v : ℕ) : Wiring κ where
  lists := w.lists.modify v fun l => l.filter (· ≠ c)
  owner := Function.update w.owner c none

section Sound
variable {w : Wiring κ} (hw : w.Sound)
include hw

omit [DecidableEq κ] in
theorem newParent_sound {v : ℕ} (hv : ∀ c, w.owner c ≠ some v) : (w.newParent v).Sound where
  nodup := by
    intro i l hl
    simp only [newParent, Arena.set_apply] at hl
    split at hl
    · cases hl; exact List.nodup_nil
    · exact hw.nodup i l hl
  mem := by
    intro i l c hl
    simp only [newParent, Arena.set_apply] at hl ⊢
    split at hl
    · next hi => cases hl; subst hi; simp [hv c]
    · exact hw.mem i l c hl

omit [DecidableEq κ] in
theorem dropParent_sound (v : ℕ) : (w.dropParent v).Sound where
  nodup := by
    intro i l hl
    simp only [dropParent, Arena.erase_apply, Option.ite_none_left_eq_some] at hl
    exact hw.nodup i l hl.2
  mem := by
    intro i l c hl
    simp only [dropParent, Arena.erase_apply, Option.ite_none_left_eq_some] at hl
    exact hw.mem i l c hl.2

theorem newChild_sound {c : κ} (hc : w.owner c = none) (v : ℕ) : (w.newChild c v).Sound where
  nodup := by
    intro i l hl
    simp only [newChild, Arena.modify_apply] at hl
    split at hl
    · obtain ⟨l', hl', rfl⟩ := Option.map_eq_some_iff.mp hl
      have hn : c ∉ l' := by rw [hw.mem i l' c hl', hc]; simp
      exact List.nodup_append.mpr ⟨hw.nodup i l' hl', by simp, by
        rintro a ha b hb rfl
        rw [List.mem_singleton] at hb
        exact hn (hb ▸ ha)⟩
    · exact hw.nodup i l hl
  mem := by
    intro i l d hl
    simp only [newChild, Arena.modify_apply, Function.update_apply] at hl ⊢
    split at hl
    · next hi =>
      obtain ⟨l', hl', rfl⟩ := Option.map_eq_some_iff.mp hl
      by_cases hd : d = c
      · simp [hd, hi]
      · simp [hd, hw.mem i l' d hl']
    · next hi =>
      by_cases hd : d = c
      · subst hd
        simpa [hw.mem i l d hl, hc] using Ne.symm hi
      · simp [hd, hw.mem i l d hl]

theorem dropChild_sound {c : κ} {v : ℕ} (hc : w.owner c = some v) : (w.dropChild c v).Sound where
  nodup := by
    intro i l hl
    simp only [dropChild, Arena.modify_apply] at hl
    split at hl
    · obtain ⟨l', hl', rfl⟩ := Option.map_eq_some_iff.mp hl
      exact (hw.nodup i l' hl').filter _
    · exact hw.nodup i l hl
  mem := by
    intro i l d hl
    simp only [dropChild, Arena.modify_apply, Function.update_apply] at hl ⊢
    split at hl
    · obtain ⟨l', hl', rfl⟩ := Option.map_eq_some_iff.mp hl
      by_cases hd : d = c
      · simp [hd]
      · simp [hd, hw.mem i l' d hl']
    · next hi =>
      by_cases hd : d = c
      · subst hd
        simpa [hw.mem i l d hl, hc] using Ne.symm hi
      · simp [hd, hw.mem i l d hl]

end Sound
end Wiring
