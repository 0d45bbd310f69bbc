import Mathlib.Order.Lattice
import Mathlib.Data.List.Induction

/-! A walk over a list that drops what has expired, and a running minimum over what it meets. -/
namespace Yaza
namespace Walk
variable {α β σ : Type*}

/-- What is live is handled and kept, the rest is dropped. -/
def walk (live : α → Bool) (handler : σ → α → σ) : List α → σ → List α × σ
  | [], s => ([], s)
  | a :: l, s =>
    if live a then
      let r := walk live handler l (handler s a)
      (a :: r.1, r.2)
    else walk live handler l s

theorem walk_eq (live : α → Bool) (handler : σ → α → σ) (l : List α) (s : σ) :
    walk live handler l s = (l.filter live, (l.filter live).foldl handler s) := by
  induction l generalizing s with
  | nil => rfl
  | cons a l ih =>
    cases ha : live a with
    | true => simp [walk, ha, ih]
    | false => simp [walk, ha, ih]

section Closest
variable [LinearOrder β] (f : α → Option β)

/-- One round: the later of two equal ones is kept. -/
def closer (best : Option (α × β)) (a : α) : Option (α × β) :=
  match f a with
  | none => best
  | some b =>
    match best with
    | none => some (a, b)
    | some (_, b') => if b ≤ b' then some (a, b) else best

/-- At one place of the list is `a`, at `b`; nothing before it is nearer, and what comes after it
is farther away. -/
def Closest (l : List α) (a : α) (b : β) : Prop :=
  ∃ front back, l = front ++ a :: back ∧ f a = some b ∧
    (∀ p ∈ front, ∀ c, f p = some c → b ≤ c) ∧ ∀ p ∈ back, ∀ c, f p = some c → b < c

variable {f} {l : List α} {a a' : α} {b b' : β}

theorem Closest.mem (h : Closest f l a b) : a ∈ l := by
  obtain ⟨front, back, rfl, -⟩ := h
  simp

theorem Closest.value (h : Closest f l a b) : f a = some b := by
  obtain ⟨-, -, -, h1, -⟩ := h
  exact h1

/-- It is nearer than all others. -/
theorem Closest.le (h : Closest f l a b) {p : α} {c : β} (hp : p ∈ l) (hc : f p = some c) :
    b ≤ c := by
  obtain ⟨front, back, rfl, ha, h1, h2⟩ := h
  rcases List.mem_append.mp hp with h3 | h3
  · exact h1 p h3 c hc
  · rcases List.mem_cons.mp h3 with rfl | h4
    · rw [ha] at hc
      exact (Option.some.inj hc).le
    · exact (h2 p h4 c hc).le

theorem Closest.unique (h : Closest f l a b) (h' : Closest f l a' b') : a = a' ∧ b = b' := by
  have hb : b = b' := le_antisymm (h.le h'.mem h'.value) (h'.le h.mem h.value)
  obtain ⟨front, back, rfl, ha, -, h2⟩ := h
  obtain ⟨front', back', hl, ha', -, h2'⟩ := h'
  refine ⟨?_, hb⟩
  rcases List.append_eq_append_iff.mp hl with ⟨m, -, h3⟩ | ⟨m, -, h3⟩
  · cases m with
    | nil => exact (List.cons.inj h3).1
    | cons p m =>
      have h4 : a' ∈ back := by simp [(List.cons.inj h3).2]
      exact absurd (h2 a' h4 b' ha') (by simp [hb])
  · cases m with
    | nil => exact (List.cons.inj h3).1.symm
    | cons p m =>
      have h4 : a ∈ back' := by simp [(List.cons.inj h3).2]
      exact absurd (h2' a h4 b ha) (by simp [hb])

theorem Closest.concat_far (h : Closest f l a b) {p : α} (hp : ∀ c, f p = some c → b < c) :
    Closest f (l ++ [p]) a b := by
  obtain ⟨front, back, rfl, ha, h1, h2⟩ := h
  refine ⟨front, back ++ [p], by simp, ha, h1, fun q hq c hc => ?_⟩
  rcases List.mem_append.mp hq with h3 | h3
  · exact h2 q h3 c hc
  · rw [List.mem_singleton.mp h3] at hc
    exact hp c hc

theorem closest_concat (ha : f a = some b) (h : ∀ p ∈ l, ∀ c, f p = some c → b ≤ c) :
    Closest f (l ++ [a]) a b := ⟨l, [], rfl, ha, h, by simp⟩

/-- The running minimum finds the nearest of the list, if it has one. -/
theorem foldl_closer (l : List α) :
    match l.foldl (closer f) none with
    | none => ∀ a ∈ l, f a = none
    | some (a, b) => Closest f l a b := by
  induction l using List.reverseRecOn with
  | nil => simp
  | append_singleton l p ih =>
    rw [List.foldl_append, List.foldl_cons, List.foldl_nil]
    cases hl : l.foldl (closer f) none with
    | none =>
      simp only [hl] at ih
      cases hp : f p with
      | none =>
        simp only [closer, hp, List.mem_append, List.mem_singleton]
        rintro a (h | rfl)
        · exact ih a h
        · exact hp
      | some c =>
        simp only [closer, hp]
        exact closest_concat hp fun q hq c' hc => by simp [ih q hq] at hc
    | some best =>
      obtain ⟨a, b⟩ := best
      simp only [hl] at ih
      cases hp : f p with
      | none =>
        simp only [closer, hp]
        exact ih.concat_far (by simp [hp])
      | some c =>
        by_cases hcb : c ≤ b
        · simp only [closer, hp, hcb, if_true]
          exact closest_concat hp fun q hq c' hc => hcb.trans (ih.le hq hc)
        · simp only [closer, hp, hcb, if_false]
          refine ih.concat_far fun c' hc => ?_
          rw [hp] at hc
          cases hc
          exact not_le.mp hcb

/-- What does not count may as well be left out of the list. -/
theorem closest_filter (p : α → Bool) (hf : ∀ a, p a = false → f a = none) :
    Closest f (l.filter p) a b ↔ Closest f l a b := by
  constructor
  · rintro ⟨front, back, hl, ha, h1, h2⟩
    obtain ⟨l1, l2, rfl, rfl, h3⟩ := List.filter_eq_append_iff.mp hl
    obtain ⟨l3, l4, rfl, h4, h5, rfl⟩ := List.filter_eq_cons_iff.mp h3
    refine ⟨l1 ++ l3, l4, by simp, ha, fun q hq c hc => ?_, fun q hq c hc => ?_⟩
    · have hp : p q = true := by
        by_contra hq'
        simp [hf q (by simpa using hq')] at hc
      rcases List.mem_append.mp hq with h6 | h6
      · exact h1 q (List.mem_filter.mpr ⟨h6, hp⟩) c hc
      · exact absurd hp (by simpa using h4 q h6)
    · have hp : p q = true := by
        by_contra hq'
        simp [hf q (by simpa using hq')] at hc
      exact h2 q (List.mem_filter.mpr ⟨hq, hp⟩) c hc
  · rintro ⟨front, back, rfl, ha, h1, h2⟩
    have hp : p a = true := by
      by_contra ha'
      simp [hf a (by simpa using ha')] at ha
    refine ⟨front.filter p, back.filter p, by simp [hp], ha, fun q hq => ?_, fun q hq => ?_⟩
    · exact h1 q (List.mem_filter.mp hq).1
    · exact h2 q (List.mem_filter.mp hq).1

end Closest

end Walk
end Yaza
