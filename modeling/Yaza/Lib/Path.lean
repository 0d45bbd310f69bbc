import Mathlib.Logic.Relation
import Mathlib.Tactic.Common

/-! Paths of a step relation: what a step keeps a path keeps, and a loop is a path when each
of its rounds is one. -/
namespace Path
variable {σ α : Type*} {r : σ → σ → Prop}

open Relation (ReflTransGen)

theorem preserves {P : σ → Prop} (hr : ∀ s s', r s s' → P s → P s') {s s' : σ}
    (h : ReflTransGen r s s') (hs : P s) : P s' := by
  induction h with
  | refl => exact hs
  | tail _ hstep ih => exact hr _ _ hstep ih

/-- A quantity no step changes. -/
theorem const {β : Type*} {f : σ → β} (hr : ∀ s s', r s s' → f s' = f s) {s s' : σ}
    (h : ReflTransGen r s s') : f s' = f s :=
  preserves (P := fun s' => f s' = f s) (fun _ _ hstep ih => (hr _ _ hstep).trans ih) h rfl

/-- A loop whose rounds are paths wherever `P` holds, when paths keep `P`. -/
theorem foldl {P : σ → Prop} (hr : ∀ s s', r s s' → P s → P s') {f : σ → α → σ} {l : List α}
    (hf : ∀ s, P s → ∀ a ∈ l, ReflTransGen r s (f s a)) {s : σ} (hs : P s) :
    ReflTransGen r s (l.foldl f s) := by
  induction l generalizing s with
  | nil => exact .refl
  | cons a l ih =>
    have h1 := hf s hs a List.mem_cons_self
    have h2 := ih (fun s hs b hb => hf s hs b (List.mem_cons_of_mem a hb)) (preserves hr h1 hs)
    exact h1.trans h2

/-- A quantity no round of a loop changes, when what a round needs depends on it alone. -/
theorem foldl_const {β : Type*} {g : σ → β} {P : σ → α → Prop} {f : σ → α → σ}
    (hf : ∀ s a, P s a → g (f s a) = g s) (hP : ∀ s s' a, g s' = g s → P s a → P s' a)
    {l : List α} {s : σ} (hl : ∀ a ∈ l, P s a) : g (l.foldl f s) = g s := by
  induction l generalizing s with
  | nil => rfl
  | cons a l ih =>
    have h1 := hf s a (hl a List.mem_cons_self)
    exact (ih fun b hb => hP s _ b h1 (hl b (List.mem_cons_of_mem a hb))).trans h1

end Path
