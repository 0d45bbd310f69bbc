import Mathlib.Tactic.Common

/-! One thing that is taken and given back by members that may die while they have it: the history
of its moves, and who has it. -/
namespace Holder
variable {α : Type*} [DecidableEq α]

inductive Move (α : Type*) where
  | take (a : α)
  | give (a : α)

/-- The member has taken it, and has not given it back since. -/
def holds (past : List (Move α)) (a : α) : Bool :=
  past.foldl (fun b m => match m with
    | .take c => b || c = a
    | .give c => b && c ≠ a) false

@[simp] theorem holds_nil (a : α) : holds [] a = false := rfl

@[simp] theorem holds_take (past : List (Move α)) (a c : α) :
    holds (past ++ [.take c]) a = (holds past a || decide (c = a)) := by
  simp [holds]

@[simp] theorem holds_give (past : List (Move α)) (a c : α) :
    holds (past ++ [.give c]) a = (holds past a && decide (c ≠ a)) := by
  simp [holds]

/-- A live member may take it when no live member has it, and give it back when it is the only one
that has it. -/
def Allowed (live : α → Prop) (past : List (Move α)) : Move α → Prop
  | .take a => live a ∧ ∀ b, live b → holds past b = false
  | .give a => live a ∧ ∀ b, live b → (holds past b = true ↔ b = a)

/-- Each of the moves is allowed after those before it. -/
def Orderly (live : α → Prop) : List (Move α) → List (Move α) → Prop
  | _, [] => True
  | past, m :: ms => Allowed live past m ∧ Orderly live (past ++ [m]) ms

/-- Among the live members, this one and no other has it. -/
def Held (live : α → Prop) (past : List (Move α)) (h : Option α) : Prop :=
  ∀ a, live a → (holds past a = true ↔ h = some a)

variable {live live' : α → Prop} {past ms ms' : List (Move α)} {h : Option α} {a : α}

theorem orderly_append : Orderly live past (ms ++ ms') ↔
    Orderly live past ms ∧ Orderly live (past ++ ms) ms' := by
  induction ms generalizing past with
  | nil => simp [Orderly]
  | cons m ms ih => simp [Orderly, ih, and_assoc]

theorem Held.mono (hh : Held live past h) (hl : ∀ a, live' a → live a) : Held live' past h :=
  fun a ha => hh a (hl a ha)

/-- Only a live member takes it. -/
theorem Orderly.holds (ho : Orderly live past ms) (ha : holds (past ++ ms) a = true) :
    holds past a = true ∨ live a := by
  induction ms generalizing past with
  | nil => simpa using Or.inl ha
  | cons m ms ih =>
    rw [List.append_cons] at ha
    rcases ih ho.2 ha with h1 | h1
    · cases m with
      | take c =>
        simp only [holds_take, Bool.or_eq_true, decide_eq_true_eq] at h1
        rcases h1 with h1 | rfl
        · exact .inl h1
        · exact .inr ho.1.1
      | give c =>
        simp only [holds_give, Bool.and_eq_true] at h1
        exact .inl h1.1
    · exact .inr h1

/-- What a dead member had, nobody has. -/
theorem Held.expire (hh : Held live past (some a)) (ha : ¬ live a) : Held live past none := by
  intro b hb
  have hba : a ≠ b := fun h => ha (h ▸ hb)
  simp [hh b hb, hba]

theorem Held.take (hh : Held live past none) (ha : live a) :
    Orderly live past [.take a] ∧ Held live (past ++ [.take a]) (some a) := by
  have hf : ∀ b, live b → holds past b = false := fun b hb => by
    have := hh b hb
    simpa using this
  refine ⟨⟨⟨ha, hf⟩, trivial⟩, fun b hb => ?_⟩
  simp [hf b hb]

theorem Held.give (hh : Held live past (some a)) (ha : live a) :
    Orderly live past [.give a] ∧ Held live (past ++ [.give a]) none := by
  refine ⟨⟨⟨ha, fun b hb => ?_⟩, trivial⟩, fun b hb => ?_⟩
  · rw [hh b hb, Option.some.injEq, eq_comm]
  · have := hh b hb
    by_cases hab : a = b
    · simp [hab]
    · simp [this, hab]

end Holder
