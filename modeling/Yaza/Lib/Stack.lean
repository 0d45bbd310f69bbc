import Mathlib.Data.List.Nodup
import Mathlib.Order.Monotone.Defs
import Mathlib.Order.Nat
import Mathlib.Logic.Function.Basic
import Mathlib.Tactic.Common

/-! Stacks whose members have heights: raising a member to the top, and a loop that gives new
heights to the members that count, from the top down. -/
namespace Stack
variable {α β : Type*} [DecidableEq α]

/-- The member goes to the top. -/
def raise (a : α) (l : List α) : List α := a :: l.erase a

theorem raise_nodup {a : α} {l : List α} (hl : l.Nodup) : (raise a l).Nodup :=
  List.nodup_cons.mpr ⟨hl.not_mem_erase, hl.erase a⟩

theorem mem_raise {a b : α} {l : List α} (hb : b ∈ l) : b ∈ raise a l := by
  by_cases hba : b = a
  · exact hba ▸ List.mem_cons_self
  · exact List.mem_cons_of_mem _ ((List.mem_erase_of_ne hba).mpr hb)

/-- One round of the loop: a member that counts gets the height of the next level. -/
def relabel (p : α → Bool) (f : ℕ → β) (acc : (α → β) × ℕ) (a : α) : (α → β) × ℕ :=
  if p a then (Function.update acc.1 a (f acc.2), acc.2 + 1) else acc

section Relabel
variable {p : α → Bool} {f : ℕ → β}

/-- A member that is not in the list keeps its height. -/
theorem relabel_of_not_mem {l : List α} {b : α} (hb : b ∉ l) (acc : (α → β) × ℕ) :
    (l.foldl (relabel p f) acc).1 b = acc.1 b := by
  induction l generalizing acc with
  | nil => rfl
  | cons a l ih =>
    obtain ⟨hba, hbl⟩ := not_or.mp (mt List.mem_cons.mpr hb)
    rw [List.foldl_cons, ih hbl]
    unfold relabel
    split
    · exact Function.update_of_ne hba _ _
    · rfl

/-- The first member that counts gets the height of the first level. -/
theorem relabel_find? {l : List α} (hl : l.Nodup) {a : α} (ha : l.find? p = some a)
    (acc : (α → β) × ℕ) : (l.foldl (relabel p f) acc).1 a = f acc.2 := by
  induction l generalizing acc with
  | nil => cases ha
  | cons b l ih =>
    obtain ⟨hbl, hl⟩ := List.nodup_cons.mp hl
    rw [List.foldl_cons]
    cases hb : p b with
    | true =>
      rw [List.find?_cons_of_pos hb] at ha
      cases ha
      rw [relabel_of_not_mem hbl, relabel, if_pos hb]
      exact Function.update_self ..
    | false =>
      rw [List.find?_cons_of_neg (by simp [hb])] at ha
      rw [ih hl ha, relabel, if_neg (by simp [hb])]

variable [Preorder β]

/-- The heights the loop gives are those of the levels from its counter on. -/
theorem le_relabel (hf : StrictMono f) {l : List α} (hl : l.Nodup) {a : α} (ha : a ∈ l)
    (hp : p a = true) (acc : (α → β) × ℕ) : f acc.2 ≤ (l.foldl (relabel p f) acc).1 a := by
  induction l generalizing acc with
  | nil => cases ha
  | cons b l ih =>
    obtain ⟨hbl, hl⟩ := List.nodup_cons.mp hl
    rw [List.foldl_cons]
    rcases List.mem_cons.mp ha with rfl | ha
    · rw [relabel_of_not_mem hbl, relabel, if_pos hp]
      exact (Function.update_self a (f acc.2) acc.1).ge
    · refine le_trans ?_ (ih hl ha _)
      unfold relabel
      split
      · exact hf.monotone (Nat.le_succ _)
      · exact le_rfl

/-- After the loop the heights grow from the top down, among the members that count. -/
theorem relabel_pairwise (hf : StrictMono f) {l : List α} (hl : l.Nodup) (acc : (α → β) × ℕ) :
    l.Pairwise fun a b => p a = true → p b = true →
      (l.foldl (relabel p f) acc).1 a < (l.foldl (relabel p f) acc).1 b := by
  induction l generalizing acc with
  | nil => exact .nil
  | cons c l ih =>
    obtain ⟨hcl, hl⟩ := List.nodup_cons.mp hl
    refine List.pairwise_cons.mpr ⟨fun b hb hpc hpb => ?_, ih hl _⟩
    rw [List.foldl_cons, relabel_of_not_mem hcl]
    have h1 : relabel p f acc c = (Function.update acc.1 c (f acc.2), acc.2 + 1) := if_pos hpc
    rw [h1]
    calc Function.update acc.1 c (f acc.2) c = f acc.2 := Function.update_self ..
      _ < f (acc.2 + 1) := hf (Nat.lt_succ_self _)
      _ ≤ _ := le_relabel hf hl hb hpb (Function.update acc.1 c (f acc.2), acc.2 + 1)

end Relabel
end Stack
