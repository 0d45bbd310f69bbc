import Mathlib.Logic.Function.Basic
import Mathlib.Tactic.Common
import Mathlib.Data.Nat.Notation

/-! Live objects by address. An address is used once, so a pointer whose object is
gone never comes to denote another object. -/

/-- The objects alive now, each under its address. -/
abbrev Arena (α : Type*) := ℕ → Option α

namespace Arena
variable {α β γ : Type*}

def empty : Arena α := fun _ => none

/-- Store an object, whether or not the address held one. -/
def set (h : Arena α) (i : ℕ) (x : α) : Arena α := Function.update h i (some x)

def erase (h : Arena α) (i : ℕ) : Arena α := Function.update h i none

/-- Change the object at an address, if there is one. -/
def modify (h : Arena α) (i : ℕ) (f : α → α) : Arena α := Function.update h i ((h i).map f)

/-- Change every live object, or keep a part of each. -/
def mapAll (h : Arena α) (f : α → β) : Arena β := fun i => (h i).map f

/-- What a weak pointer locks to. -/
def lock (h : Arena α) (p : Option ℕ) : Option ℕ := p.filter fun i => (h i).isSome

@[simp] theorem empty_apply (i : ℕ) : (empty : Arena α) i = none := rfl

theorem set_apply (h : Arena α) (i j : ℕ) (x : α) :
    h.set i x j = if j = i then some x else h j := Function.update_apply ..

theorem erase_apply (h : Arena α) (i j : ℕ) :
    h.erase i j = if j = i then none else h j := Function.update_apply ..

theorem modify_apply (h : Arena α) (i j : ℕ) (f : α → α) :
    h.modify i f j = if j = i then (h j).map f else h j := by
  by_cases hj : j = i
  · subst hj; simp [modify]
  · simp [modify, hj]

@[simp] theorem mapAll_apply (h : Arena α) (f : α → β) (i : ℕ) :
    h.mapAll f i = (h i).map f := rfl

@[simp] theorem set_self (h : Arena α) (i : ℕ) (x : α) : h.set i x i = some x := by
  simp [set_apply]

@[simp] theorem erase_self (h : Arena α) (i : ℕ) : h.erase i i = none := by
  simp [erase_apply]

@[simp] theorem modify_self (h : Arena α) (i : ℕ) (f : α → α) :
    h.modify i f i = (h i).map f := by simp [modify_apply]

@[simp] theorem set_of_ne (h : Arena α) {i j : ℕ} (x : α) (hj : j ≠ i) :
    h.set i x j = h j := by simp [set_apply, hj]

@[simp] theorem erase_of_ne (h : Arena α) {i j : ℕ} (hj : j ≠ i) : h.erase i j = h j := by
  simp [erase_apply, hj]

@[simp] theorem modify_of_ne (h : Arena α) {i j : ℕ} (f : α → α) (hj : j ≠ i) :
    h.modify i f j = h j := by simp [modify_apply, hj]

/-- Changing an object in place keeps exactly the same addresses alive. -/
@[simp] theorem modify_isSome (h : Arena α) (i j : ℕ) (f : α → α) :
    (h.modify i f j).isSome = (h j).isSome := by
  by_cases hj : j = i <;> simp [hj]

@[simp] theorem mapAll_mapAll (h : Arena α) (f : α → β) (g : β → γ) :
    (h.mapAll f).mapAll g = h.mapAll (g ∘ f) := by
  funext i; simp

/-- The addresses that are alive after a new object is stored. -/
theorem isSome_set (h : Arena α) (i : ℕ) (x : α) :
    (fun j => (h.set i x j).isSome = true) = fun j => j = i ∨ (h j).isSome = true := by
  funext j
  by_cases hj : j = i <;> simp [hj]

theorem isSome_erase (h : Arena α) (i : ℕ) :
    (fun j => (h.erase i j).isSome = true) = fun j => j ≠ i ∧ (h j).isSome = true := by
  funext j
  by_cases hj : j = i <;> simp [hj]

/-- A part of the objects that an update leaves alone. -/
theorem mapAll_set {h : Arena α} {i : ℕ} {x y : α} {f : α → β} (hx : h i = some x)
    (hf : f y = f x) : (h.set i y).mapAll f = h.mapAll f := by
  funext j
  by_cases hj : j = i
  · subst hj; simp [hx, hf]
  · simp [hj]

theorem mapAll_modify {h : Arena α} {i : ℕ} {g : α → α} {f : α → β}
    (hf : ∀ x, f (g x) = f x) : (h.modify i g).mapAll f = h.mapAll f := by
  funext j
  by_cases hj : j = i
  · subst hj; cases hx : h j <;> simp [hx, hf]
  · simp [hj]

/-- A change that does not change what is there. -/
theorem modify_eq_self {h : Arena α} {i : ℕ} {f : α → α} (hf : ∀ x, h i = some x → f x = x) :
    h.modify i f = h := by
  funext j
  by_cases hj : j = i
  · subst hj
    cases hx : h j with
    | none => simp [hx]
    | some x => simp [hx, hf x hx]
  · simp [hj]

theorem modify_modify (h : Arena α) (i : ℕ) (f g : α → α) :
    (h.modify i f).modify i g = h.modify i (g ∘ f) := by
  funext j
  by_cases hj : j = i
  · subst hj
    simp
  · simp [hj]

/-- Storing over a live object is a change of it. -/
theorem set_eq_modify {h : Arena α} {i : ℕ} {x y : α} {g : α → α} (hx : h i = some x)
    (hy : y = g x) : h.set i y = h.modify i g := by
  funext j
  by_cases hj : j = i
  · subst hj; simp [hx, hy]
  · simp [hj]

theorem mapAll_set_apply (h : Arena α) (i : ℕ) (y : α) (f : α → β) :
    (h.set i y).mapAll f = (h.mapAll f).set i (f y) := by
  funext j
  by_cases hj : j = i
  · subst hj; simp
  · simp [hj]

theorem mapAll_modify_apply {g : α → α} {f : α → β} {k : β → β}
    (hk : ∀ x, f (g x) = k (f x)) (h : Arena α) (i : ℕ) :
    (h.modify i g).mapAll f = (h.mapAll f).modify i k := by
  funext j
  by_cases hj : j = i
  · subst hj; cases hx : h j <;> simp [hx, hk]
  · simp [hj]

theorem modify_bind {f : α → α} {g : α → Option β} {q : β} (hf : ∀ x, g (f x) = some q)
    (h : Arena α) (i j : ℕ) :
    (h.modify i f j).bind g = if j = i ∧ (h i).isSome then some q else (h j).bind g := by
  by_cases hj : j = i
  · subst hj
    cases hx : h j <;> simp [hx, hf]
  · simp [hj]

theorem modify_bind_of_eq {f : α → α} {g : α → Option β} (hf : ∀ x, g (f x) = g x)
    (h : Arena α) (i j : ℕ) : (h.modify i f j).bind g = (h j).bind g := by
  by_cases hj : j = i
  · subst hj
    cases hx : h j <;> simp [hx, hf]
  · simp [hj]

theorem bind_of_set {g : α → Option β} {x : α} {q : β} (hx : g x = none) {h : Arena α} {i j : ℕ}
    (hq : (h.set i x j).bind g = some q) : (h j).bind g = some q := by
  by_cases hj : j = i
  · subst hj
    simp [hx] at hq
  · simpa [hj] using hq

theorem bind_of_erase {g : α → Option β} {q : β} {h : Arena α} {i j : ℕ}
    (hq : (h.erase i j).bind g = some q) : (h j).bind g = some q := by
  by_cases hj : j = i
  · subst hj
    simp at hq
  · simpa [hj] using hq

theorem mapAll_erase (h : Arena α) (i : ℕ) (f : α → β) :
    (h.erase i).mapAll f = (h.mapAll f).erase i := by
  funext j
  by_cases hj : j = i
  · subst hj; simp
  · simp [hj]

/-- Equal parts mean that the same addresses are alive. -/
theorem isSome_of_mapAll {h h' : Arena α} {f : α → β} (hm : h'.mapAll f = h.mapAll f)
    (i : ℕ) : (h' i).isSome = (h i).isSome := by
  simpa using congrArg Option.isSome (congrFun hm i)

/-- Equal parts, read at one live address. -/
theorem of_mapAll {h h' : Arena α} {f : α → β} (hm : h'.mapAll f = h.mapAll f) {i : ℕ}
    {x' : α} (hx : h' i = some x') : ∃ x, h i = some x ∧ f x = f x' := by
  have hi := congrFun hm i
  simpa [hx] using hi.symm

@[simp] theorem erase_set (h : Arena α) (i : ℕ) (x : α) : (h.set i x).erase i = h.erase i :=
  Function.update_idem ..

@[simp] theorem set_set (h : Arena α) (i : ℕ) (x y : α) : (h.set i x).set i y = h.set i y :=
  Function.update_idem ..

theorem set_eq_self {h : Arena α} {i : ℕ} {x : α} (hx : h i = some x) : h.set i x = h := by
  rw [set, ← hx, Function.update_eq_self]

@[simp] theorem erase_of_none {h : Arena α} {i : ℕ} (hi : h i = none) : h.erase i = h := by
  funext j
  by_cases hj : j = i
  · subst hj; simp [hi]
  · simp [hj]

@[simp] theorem modify_of_none {h : Arena α} {i : ℕ} (hi : h i = none) (f : α → α) :
    h.modify i f = h := by
  funext j
  by_cases hj : j = i
  · subst hj; simp [hi]
  · simp [hj]

/-- A part of a changed object is that of the object it was, changed or not. -/
theorem of_modify_map {f : α → α} {g : α → β} {q : β} {h : Arena α} {i j : ℕ}
    (hq : (h.modify i f j).map g = some q) : ∃ x, h j = some x ∧ (q = g (f x) ∨ q = g x) := by
  rw [modify_apply] at hq
  split at hq
  · simp only [Option.map_map, Option.map_eq_some_iff] at hq
    obtain ⟨x, hx, rfl⟩ := hq
    exact ⟨x, hx, .inl rfl⟩
  · obtain ⟨x, hx, rfl⟩ := Option.map_eq_some_iff.mp hq
    exact ⟨x, hx, .inr rfl⟩

theorem lock_eq_some {h : Arena α} {p : Option ℕ} {i : ℕ} :
    h.lock p = some i ↔ p = some i ∧ (h i).isSome := by
  cases p with
  | none => simp [lock]
  | some j =>
    by_cases hj : (h j).isSome <;> simp [lock, Option.filter, hj]
    · rintro rfl; exact hj
    · rintro rfl; simpa using hj

theorem none_of_lock {h : Arena α} {p : Option ℕ} (hl : h.lock p = none) {i : ℕ}
    (hp : p = some i) : h i = none := by
  by_contra hn
  have h1 : h.lock p = some i := lock_eq_some.mpr ⟨hp, Option.isSome_iff_ne_none.mpr hn⟩
  rw [hl] at h1
  cases h1

/-- `P` holds of every live object and its address. -/
def All (P : ℕ → α → Prop) (h : Arena α) : Prop := ∀ i x, h i = some x → P i x

/-- The arenas hold the same outside of `P`. -/
def SameOff (P : ℕ → Prop) (h h' : Arena α) : Prop := ∀ i, ¬ P i → h' i = h i

section All
variable {P : ℕ → α → Prop} {h : Arena α} {i : ℕ}

theorem All.set (ha : All P h) {x : α} (hx : P i x) : All P (h.set i x) := by
  intro j y hy
  rw [set_apply] at hy
  split at hy
  · next hj =>
    cases hy
    exact hj ▸ hx
  · exact ha j y hy

theorem All.erase (ha : All P h) : All P (h.erase i) := by
  intro j y hy
  rw [erase_apply] at hy
  split at hy
  · cases hy
  · exact ha j y hy

theorem All.modify (ha : All P h) {f : α → α} (hf : ∀ x, h i = some x → P i x → P i (f x)) :
    All P (h.modify i f) := by
  intro j y hy
  rw [modify_apply] at hy
  split at hy
  · next hj =>
    subst hj
    obtain ⟨x, hx, rfl⟩ := Option.map_eq_some_iff.mp hy
    exact hf x hx (ha j x hx)
  · exact ha j y hy

theorem All.mapAll (ha : All P h) {f : α → α} (hf : ∀ i x, P i x → P i (f x)) :
    All P (h.mapAll f) := by
  intro j y hy
  obtain ⟨x, hx, rfl⟩ := Option.map_eq_some_iff.mp hy
  exact hf j x (ha j x hx)

end All

section SameOff
variable {P : ℕ → Prop} {h h' h'' : Arena α} {i : ℕ}

theorem SameOff.refl : SameOff P h h := fun _ _ => rfl

theorem SameOff.trans (h1 : SameOff P h h') (h2 : SameOff P h' h'') : SameOff P h h'' :=
  fun j hj => (h2 j hj).trans (h1 j hj)

theorem SameOff.set (hi : P i) (x : α) : SameOff P h (h.set i x) :=
  fun _ hj => set_of_ne h x fun he => hj (he ▸ hi)

theorem SameOff.erase (hi : P i) : SameOff P h (h.erase i) :=
  fun _ hj => erase_of_ne h fun he => hj (he ▸ hi)

theorem SameOff.modify (hi : P i) (f : α → α) : SameOff P h (h.modify i f) :=
  fun _ hj => modify_of_ne h f fun he => hj (he ▸ hi)

end SameOff

/-- Below `n`, what is there now was there before, and `g` of it is what it was. -/
def Inherits {β : Type*} (n : ℕ) (g : α → β) (h h' : Arena α) : Prop :=
  ∀ i, i < n → ∀ x', h' i = some x' → ∃ x, h i = some x ∧ g x = g x'

section Inherits
variable {β : Type*} {n : ℕ} {g : α → β} {h h' h'' : Arena α} {i : ℕ}

theorem Inherits.refl : Inherits n g h h := fun _ _ x hx => ⟨x, hx, rfl⟩

theorem Inherits.trans (h1 : Inherits n g h h') (h2 : Inherits n g h' h'') : Inherits n g h h'' :=
  fun j hj x'' hx => by
    obtain ⟨x', hx', he'⟩ := h2 j hj x'' hx
    obtain ⟨x, hx, he⟩ := h1 j hj x' hx'
    exact ⟨x, hx, he.trans he'⟩

theorem Inherits.mono {m : ℕ} (h1 : Inherits n g h h') (hm : m ≤ n) : Inherits m g h h' :=
  fun j hj => h1 j (Nat.lt_of_lt_of_le hj hm)

theorem Inherits.set_new (hi : n ≤ i) (x : α) : Inherits n g h (h.set i x) := fun j hj y hy => by
  rw [set_of_ne _ _ (by omega)] at hy
  exact ⟨y, hy, rfl⟩

theorem Inherits.set {x y : α} (hx : h i = some x) (hg : g x = g y) :
    Inherits n g h (h.set i y) := fun j _ z hz => by
  rw [set_apply] at hz
  split at hz
  · next hj =>
    cases hz
    exact ⟨x, hj ▸ hx, hg⟩
  · exact ⟨z, hz, rfl⟩

theorem Inherits.modify {f : α → α} (hf : ∀ x, g (f x) = g x) : Inherits n g h (h.modify i f) :=
  fun j _ y hy => by
    rw [modify_apply] at hy
    split at hy
    · next hj =>
      obtain ⟨x, hx, rfl⟩ := Option.map_eq_some_iff.mp hy
      exact ⟨x, hj ▸ hx, (hf x).symm⟩
    · exact ⟨y, hy, rfl⟩

theorem Inherits.erase : Inherits n g h (h.erase i) := fun j _ y hy => by
  rw [erase_apply] at hy
  split at hy
  · cases hy
  · exact ⟨y, hy, rfl⟩

end Inherits

end Arena
