import Mathlib.Tactic.Common
import Mathlib.Data.List.Induction
import Mathlib.Data.Nat.Notation

/-! Sequences of visits: each one opens, does anything inside, and closes before the next. -/
namespace Bracket

inductive Mark where
  | opens | inside | closes
  deriving DecidableEq, Repr

/-- The words `(opens inside* closes)*`. -/
inductive Word : List Mark → Prop
  | nil : Word []
  | visit {l : List Mark} (n : ℕ) :
      Word l → Word (l ++ .opens :: List.replicate n .inside ++ [.closes])

/-- The sequence can go on to a word. -/
def Bracketed (l : List Mark) : Prop := ∃ m, Word (l ++ m)

/-- The last visit has not closed yet. -/
def Open (l : List Mark) : Prop := ∃ u n, Word u ∧ l = u ++ .opens :: List.replicate n .inside

/-- One mark more: whether a visit is open then, if the mark is allowed. -/
def next : Bool → Mark → Option Bool
  | false, .opens => some true
  | true, .inside => some true
  | true, .closes => some false
  | _, _ => none

/-- Whether a visit is open at the end, if every mark was allowed. -/
def after (l : List Mark) : Option Bool :=
  l.foldl (fun s m => s.bind fun b => next b m) (some false)

@[simp] theorem after_nil : after [] = some false := rfl

theorem after_concat (l : List Mark) (m : Mark) :
    after (l ++ [m]) = (after l).bind fun b => next b m := by simp [after]

theorem after_append_of_none {l : List Mark} (h : after l = none) (m : List Mark) :
    after (l ++ m) = none := by
  induction m using List.reverseRecOn with
  | nil => simpa using h
  | append_singleton m x ih => rw [← List.append_assoc, after_concat, ih, Option.bind_none]

theorem after_opens {l : List Mark} (h : after l = some false) (n : ℕ) :
    after (l ++ .opens :: List.replicate n .inside) = some true := by
  induction n with
  | zero => simp [after_concat, h, next]
  | succ n ih =>
    rw [List.replicate_succ', ← List.cons_append, ← List.append_assoc, after_concat, ih]
    rfl

theorem Word.after_eq {l : List Mark} (h : Word l) : after l = some false := by
  induction h with
  | nil => rfl
  | visit n _ ih => rw [after_concat, after_opens ih]; rfl

/-- The state that `after` computes says how the sequence is made. -/
theorem after_spec (l : List Mark) :
    (after l = some false → Word l) ∧ (after l = some true → Open l) := by
  induction l using List.reverseRecOn with
  | nil => exact ⟨fun _ => .nil, fun h => by cases h⟩
  | append_singleton l m ih =>
    rw [after_concat]
    cases h : after l with
    | none => simp
    | some b =>
      cases b with
      | false =>
        have hl := ih.1 h
        cases m <;> simp only [Option.bind_some, next] <;> refine ⟨by simp, ?_⟩ <;> intro hm
        · exact ⟨l, 0, hl, rfl⟩
        · cases hm
        · cases hm
      | true =>
        obtain ⟨u, n, hu, rfl⟩ := ih.2 h
        cases m <;> simp only [Option.bind_some, next]
        · simp
        · refine ⟨by simp, fun _ => ⟨u, n + 1, hu, ?_⟩⟩
          rw [List.replicate_succ', ← List.cons_append, List.append_assoc]
        · exact ⟨fun _ => hu.visit n, by simp⟩

theorem word_iff {l : List Mark} : Word l ↔ after l = some false :=
  ⟨Word.after_eq, (after_spec l).1⟩

theorem open_iff {l : List Mark} : Open l ↔ after l = some true := by
  refine ⟨?_, (after_spec l).2⟩
  rintro ⟨u, n, hu, rfl⟩
  exact after_opens hu.after_eq n

theorem bracketed_iff {l : List Mark} : Bracketed l ↔ after l ≠ none := by
  constructor
  · rintro ⟨m, hm⟩ h
    have h1 := hm.after_eq
    rw [after_append_of_none h] at h1
    cases h1
  · intro h
    cases hb : after l with
    | none => exact absurd hb h
    | some b =>
      cases b with
      | false => exact ⟨[], by simpa using word_iff.mpr hb⟩
      | true => exact ⟨[.closes], word_iff.mpr (by rw [after_concat, hb]; rfl)⟩

end Bracket
