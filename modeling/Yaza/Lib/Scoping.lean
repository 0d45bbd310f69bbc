import Mathlib.Data.List.Infix
import Mathlib.Tactic.Common

/-! Logs of messages that make names and use them: a name is made once, before it is used, and it
is used as what it was made. -/
namespace Scoping
variable {μ ν κ : Type*}

/-- The name a message makes and the names it uses, each with its sort. -/
structure Grammar (μ ν κ : Type*) where
  makes : μ → Option (ν × κ)
  uses : μ → List (ν × κ)

namespace Grammar
variable (g : Grammar μ ν κ)

/-- The names a log has made. -/
def made (l : List μ) : List (ν × κ) := l.filterMap g.makes

/-- Each message uses names that were made before it, and the name it makes is new. -/
def WellScoped (l : List μ) : Prop :=
  ∀ pre m, pre ++ [m] <+: l → (∀ u ∈ g.uses m, u ∈ g.made pre) ∧
    ∀ n, g.makes m = some n → n.1 ∉ (g.made pre).map Prod.fst

variable {g} {l l' : List μ} {m : μ}

theorem wellScoped_nil : g.WellScoped [] := fun pre m h => by simp at h

theorem made_concat_of_none (h : g.makes m = none) : g.made (l ++ [m]) = g.made l := by
  simp [made, h]

theorem made_concat_of_some {n : ν × κ} (h : g.makes m = some n) :
    g.made (l ++ [m]) = g.made l ++ [n] := by
  simp [made, h]

/-- One message more. -/
theorem wellScoped_concat : g.WellScoped (l ++ [m]) ↔
    g.WellScoped l ∧ (∀ u ∈ g.uses m, u ∈ g.made l) ∧
      ∀ n, g.makes m = some n → n.1 ∉ (g.made l).map Prod.fst := by
  constructor
  · intro h
    exact ⟨fun pre m' hp => h pre m' (hp.trans (List.prefix_append l [m])),
      h l m (List.prefix_refl _)⟩
  · rintro ⟨hl, hm⟩ pre m' hp
    rcases List.prefix_concat_iff.mp hp with h | h
    · obtain ⟨rfl, h1⟩ := List.append_inj' h rfl
      rw [List.singleton_inj.mp h1]
      exact hm
    · exact hl pre m' h

/-- A name is made by one message. -/
theorem WellScoped.maker_unique (h : g.WellScoped l) {m m' : μ} (hm : m ∈ l) (hm' : m' ∈ l)
    {n n' : ν × κ} (hn : g.makes m = some n) (hn' : g.makes m' = some n') (he : n.1 = n'.1) :
    m = m' := by
  induction l using List.reverseRecOn with
  | nil => cases hm
  | append_singleton l x ih =>
    obtain ⟨hl, -, hx⟩ := wellScoped_concat.mp h
    have old {y : μ} {k : ν × κ} (hy : y ∈ l) (hk : g.makes y = some k) :
        k.1 ∈ (g.made l).map Prod.fst :=
      List.mem_map_of_mem (List.mem_filterMap.mpr ⟨y, hy, hk⟩)
    rcases List.mem_append.mp hm with h1 | h1 <;> rcases List.mem_append.mp hm' with h2 | h2
    · exact ih hl h1 h2
    · rw [List.mem_singleton] at h2
      subst h2
      exact absurd (he ▸ old h1 hn) (hx n' hn')
    · rw [List.mem_singleton] at h1
      subst h1
      exact absurd (he ▸ old h2 hn') (hx n hn)
    · rw [List.mem_singleton.mp h1, List.mem_singleton.mp h2]

end Grammar
end Scoping
