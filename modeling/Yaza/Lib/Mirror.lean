import Mathlib.Tactic.Common

/-! A value with a copy that can be lost: a flag says that the copy was not told yet, and a sync
tells it when the flag is set, or when it is forced to. -/

/-- `store` is what a sync sends; it means nothing until something was committed. -/
structure Mirror (α : Type*) where
  store : α
  committed : Bool
  dirty : Bool
  copy : Option (Option α)
  told : Bool

namespace Mirror
variable {α : Type*}

/-- What was committed last. -/
def value (m : Mirror α) : Option α := if m.committed then some m.store else none

def commit (m : Mirror α) (v : α) : Mirror α :=
  { m with store := v, committed := true, dirty := true }

/-- A copy that was lost is made again, and holds nothing until it is told. -/
def sync (m : Mirror α) (force : Bool) : Mirror α :=
  { m with
    dirty := false
    copy := some (if force || m.dirty then some m.store else m.copy.join)
    told := m.told || (force || m.dirty) }

def drop (m : Mirror α) : Mirror α := { m with copy := none }

/-- The copy holds what was committed, and was told nothing if nothing was. -/
structure Faithful (m : Mirror α) : Prop where
  copy : m.copy = some m.value
  silent : m.value = none → m.told = false

/-- A sync tells the copy what was committed, or leaves one that knows it. -/
def Ready (m : Mirror α) (force : Bool) : Prop :=
  if m.committed then force = true ∨ m.dirty = true ∨ m.copy.isSome
  else force = false ∧ m.dirty = false

/-- A copy that is there holds what was committed, or the flag is set. -/
structure Kept (m : Mirror α) : Prop where
  copy : ∀ h, m.copy = some h → h = m.value ∨ m.committed = true ∧ m.dirty = true
  silent : m.value = none → m.told = false

variable {m : Mirror α} {force : Bool}

@[simp] theorem value_commit (m : Mirror α) (v : α) : (m.commit v).value = some v := rfl

@[simp] theorem value_sync (m : Mirror α) (force : Bool) : (m.sync force).value = m.value := rfl

@[simp] theorem value_drop (m : Mirror α) : m.drop.value = m.value := rfl

theorem value_eq_none : m.value = none ↔ m.committed = false := by
  simp [value]

theorem Faithful.kept (h : m.Faithful) : m.Kept where
  copy := fun _ hx => .inl (Option.some.inj (hx.symm.trans h.copy))
  silent := h.silent

theorem Kept.commit (m : Mirror α) (v : α) : (m.commit v).Kept where
  copy := fun _ _ => .inr ⟨rfl, rfl⟩
  silent := fun hv => by cases hv

theorem Kept.drop (h : m.Kept) : m.drop.Kept where
  copy := fun _ hx => by cases hx
  silent := h.silent

theorem sync_faithful_of_told (hs : (force || m.dirty) = true) :
    (m.sync force).Faithful ↔ m.committed = true := by
  constructor
  · intro hf
    by_contra hc
    have h1 := hf.silent (value_eq_none.mpr (Bool.eq_false_iff.mpr hc))
    simp [sync, hs] at h1
  · intro hc
    have hv : m.value = some m.store := by simp [value, hc]
    refine ⟨?_, fun h1 => ?_⟩
    · simp [sync, hs, value, hc]
    · rw [value_sync, hv] at h1
      cases h1

theorem sync_faithful_of_silent (h : m.Kept) (hs : (force || m.dirty) = false) :
    (m.sync force).Faithful ↔ (m.committed = true → m.copy.isSome) := by
  have hd : m.dirty = false := (Bool.or_eq_false_iff.mp hs).2
  have hcopy : (m.sync force).copy = some m.copy.join := by simp [sync, hs]
  constructor
  · intro hf hc
    have h1 := hf.copy
    rw [hcopy, value_sync, value, if_pos hc] at h1
    cases hq : m.copy with
    | none => simp [hq] at h1
    | some x => rfl
  · intro hc
    refine ⟨?_, fun h1 => by simpa [sync, hs] using h.silent h1⟩
    rw [hcopy, value_sync]
    cases hq : m.copy with
    | none =>
      have h1 : m.committed = false := by simpa [hq] using hc
      simp [value, h1]
    | some x =>
      rcases h.copy x hq with h2 | h2
      · simp [h2]
      · simp [hd] at h2

/-- A sync is faithful exactly when it is ready. -/
theorem sync_faithful_iff (h : m.Kept) : (m.sync force).Faithful ↔ m.Ready force := by
  unfold Ready
  cases hs : force || m.dirty with
  | true =>
    rw [sync_faithful_of_told hs]
    rw [Bool.or_eq_true] at hs
    cases hc : m.committed with
    | true => simpa using hs.imp_right .inl
    | false => rcases hs with hs | hs <;> simp [hs]
  | false =>
    rw [sync_faithful_of_silent h hs]
    rw [Bool.or_eq_false_iff] at hs
    cases hc : m.committed <;> simp [hs.1, hs.2]

end Mirror
