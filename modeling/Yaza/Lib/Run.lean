import Mathlib.Tactic.Common
import Mathlib.Data.Nat.Notation
import Mathlib.Data.List.Infix

/-! Runs of a deterministic transition system: invariants, and properties of every
state or every step of one run. -/
namespace Run
variable {σ α : Type*} (step : σ → α → σ)

/-- The state a list of actions ends in. -/
def final (s : σ) (as : List α) : σ := as.foldl step s

/-- `P` holds in every state of the run, the first one included. -/
def Always (P : σ → Prop) (s : σ) (as : List α) : Prop :=
  ∀ pre, pre <+: as → P (final step s pre)

/-- `C` holds of every step of the run: of the action and the state it is taken in. -/
def Each (C : σ → α → Prop) (s : σ) (as : List α) : Prop :=
  ∀ pre a, pre ++ [a] <+: as → C (final step s pre) a

@[simp] theorem final_nil (s : σ) : final step s [] = s := rfl

@[simp] theorem final_cons (s : σ) (a : α) (as : List α) :
    final step s (a :: as) = final step (step s a) as := rfl

theorem final_append (s : σ) (as bs : List α) :
    final step s (as ++ bs) = final step (final step s as) bs := List.foldl_append

theorem final_concat (s : σ) (as : List α) (a : α) :
    final step s (as ++ [a]) = step (final step s as) a := by simp [final_append]

variable {step}

theorem always_cons {P : σ → Prop} {s : σ} {a : α} {as : List α} :
    Always step P s (a :: as) ↔ P s ∧ Always step P (step s a) as := by
  constructor
  · intro h
    refine ⟨h [] (List.nil_prefix), fun pre hp => ?_⟩
    exact h (a :: pre) (List.cons_prefix_cons.mpr ⟨rfl, hp⟩)
  · rintro ⟨h0, ht⟩ pre hp
    cases pre with
    | nil => exact h0
    | cons b pre =>
      obtain ⟨rfl, hp'⟩ := List.cons_prefix_cons.mp hp
      exact ht pre hp'

theorem always_nil {P : σ → Prop} {s : σ} : Always step P s [] ↔ P s := by
  simp [Always]

theorem each_nil {C : σ → α → Prop} {s : σ} : Each step C s [] ↔ True := by
  simp [Each]

theorem each_cons {C : σ → α → Prop} {s : σ} {a : α} {as : List α} :
    Each step C s (a :: as) ↔ C s a ∧ Each step C (step s a) as := by
  constructor
  · intro h
    refine ⟨h [] a (by simp), fun pre b hp => ?_⟩
    exact h (a :: pre) b (List.cons_prefix_cons.mpr ⟨rfl, hp⟩)
  · rintro ⟨h0, ht⟩ pre b hp
    cases pre with
    | nil =>
      obtain ⟨rfl, _⟩ := List.cons_prefix_cons.mp hp
      exact h0
    | cons c pre =>
      obtain ⟨rfl, hp'⟩ := List.cons_prefix_cons.mp hp
      exact ht pre b hp'

instance decidableAlways {P : σ → Prop} [DecidablePred P] :
    (s : σ) → (as : List α) → Decidable (Always step P s as)
  | s, [] => decidable_of_iff (P s) always_nil.symm
  | s, a :: as =>
    have := decidableAlways (P := P) (step s a) as
    decidable_of_iff (P s ∧ Always step P (step s a) as) always_cons.symm

instance decidableEach {C : σ → α → Prop} [∀ s a, Decidable (C s a)] :
    (s : σ) → (as : List α) → Decidable (Each step C s as)
  | _, [] => isTrue (each_nil.mpr trivial)
  | s, a :: as =>
    have := decidableEach (C := C) (step s a) as
    decidable_of_iff (C s a ∧ Each step C (step s a) as) each_cons.symm

theorem each_concat {C : σ → α → Prop} {s : σ} {as : List α} {a : α} :
    Each step C s (as ++ [a]) ↔ Each step C s as ∧ C (final step s as) a := by
  induction as generalizing s with
  | nil => simp [each_cons, each_nil]
  | cons b as ih => simp [each_cons, ih, and_assoc]

/-- A run that keeps a history beside the state. -/
theorem each_fst_iff {τ : Type*} {step' : σ × τ → α → σ × τ}
    (hf : ∀ s a, (step' s a).1 = step s.1 a) {C : σ → α → Prop} {s : σ × τ} {as : List α} :
    Each step' (fun s a => C s.1 a) s as ↔ Each step C s.1 as := by
  induction as generalizing s with
  | nil => simp [each_nil]
  | cons a as ih => rw [each_cons, each_cons, ih, hf]

/-- What one step preserves, a run preserves. -/
theorem final_induction {P : σ → Prop} {s : σ} (h0 : P s)
    (hs : ∀ s a, P s → P (step s a)) (as : List α) : P (final step s as) := by
  induction as generalizing s with
  | nil => exact h0
  | cons a as ih => exact ih (hs s a h0)

/-- The same for steps that meet a condition. -/
theorem final_induction_of_each {P : σ → Prop} {C : σ → α → Prop} {s : σ} (h0 : P s)
    (hs : ∀ s a, P s → C s a → P (step s a)) {as : List α} (hc : Each step C s as) :
    P (final step s as) := by
  induction as generalizing s with
  | nil => exact h0
  | cons a as ih =>
    obtain ⟨ha, hc⟩ := each_cons.mp hc
    exact ih (hs s a h0 ha) hc

theorem each_mono {C : σ → α → Prop} {s : σ} {as bs : List α} (hp : as <+: bs)
    (h : Each step C s bs) : Each step C s as :=
  fun pre a hpre => h pre a (hpre.trans hp)

theorem always_of_each {P : σ → Prop} {C : σ → α → Prop} {s : σ} (h0 : P s)
    (hs : ∀ s a, P s → C s a → P (step s a)) {as : List α} (hc : Each step C s as) :
    Always step P s as :=
  fun _ hp => final_induction_of_each h0 hs (each_mono hp hc)

/-- Steps that meet `C` keep an invariant that implies `P`, and a step from it that keeps `P` meets
`C`: then `P` holds throughout a run exactly when all its steps meet `C`. -/
theorem always_iff_each_of {P G : σ → Prop} {C : σ → α → Prop} {s : σ} (h0 : G s)
    (hP : ∀ s, G s → P s) (hG : ∀ s a, G s → C s a → G (step s a))
    (hC : ∀ s a, G s → P (step s a) → C s a) (as : List α) :
    Always step P s as ↔ Each step C s as := by
  refine ⟨fun h => ?_, fun h pre hp => hP _ (always_of_each h0 hG h pre hp)⟩
  induction as generalizing s with
  | nil => exact each_nil.mpr trivial
  | cons a as ih =>
    rw [always_cons] at h
    have hc := hC s a h0 (h.2 [] List.nil_prefix)
    exact each_cons.mpr ⟨hc, ih (hG s a h0 hc) h.2⟩

/-- A step that breaks `C` in a good state leads to a bad one, and every other step
keeps the state good: then a run is good throughout exactly when all its steps meet `C`. -/
theorem always_iff_each {P J : σ → Prop} {C : σ → α → Prop} {s : σ} (hJ : J s) (h0 : P s)
    (hJs : ∀ s a, J s → J (step s a))
    (hs : ∀ s a, J s → P s → (P (step s a) ↔ C s a)) (as : List α) :
    Always step P s as ↔ Each step C s as :=
  always_iff_each_of (G := fun s => J s ∧ P s) ⟨hJ, h0⟩ (fun _ h => h.2)
    (fun s a h hc => ⟨hJs s a h.1, (hs s a h.1 h.2).mpr hc⟩)
    (fun s a h hp => (hs s a h.1 h.2).mp hp) as

/-- The same in a run all of whose steps meet a condition besides. -/
theorem always_iff_each_under {P J : σ → Prop} {K C : σ → α → Prop} {s : σ} (hJ : J s) (h0 : P s)
    (hJs : ∀ s a, J s → P s → K s a → J (step s a))
    (hs : ∀ s a, J s → P s → K s a → (P (step s a) ↔ C s a)) {as : List α}
    (hK : Each step K s as) : Always step P s as ↔ Each step C s as := by
  induction as generalizing s with
  | nil =>
    refine ⟨fun _ => each_nil.mpr trivial, fun _ pre hp => ?_⟩
    rw [List.prefix_nil.mp hp]
    exact h0
  | cons a as ih =>
    obtain ⟨ha, hK⟩ := each_cons.mp hK
    rw [always_cons, each_cons, ← hs s a hJ h0 ha]
    constructor
    · rintro ⟨-, h⟩
      have h1 := h [] List.nil_prefix
      exact ⟨h1, (ih (hJs s a hJ h0 ha) h1 hK).mp h⟩
    · rintro ⟨h1, h⟩
      exact ⟨h0, (ih (hJs s a hJ h0 ha) h1 hK).mpr h⟩

/-- Two properties of steps that agree wherever `G` holds, when the steps with one of them keep
`G`: then they hold throughout the same runs. -/
theorem each_iff_each {G : σ → Prop} {Q C : σ → α → Prop} {s : σ} (h0 : G s)
    (hG : ∀ s a, G s → C s a → G (step s a)) (hQ : ∀ s a, G s → (Q s a ↔ C s a))
    (as : List α) : Each step Q s as ↔ Each step C s as := by
  induction as generalizing s with
  | nil => simp [each_nil]
  | cons a as ih =>
    rw [each_cons, each_cons, hQ s a h0]
    exact and_congr_right fun hc => ih (hG s a h0 hc)

end Run
