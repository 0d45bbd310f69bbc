import Mathlib.Data.List.Nodup
import Mathlib.Logic.Function.Basic
import Mathlib.Tactic.Common

/-! Items that are requested of objects, committed in batches and answered at ticks: what each
object is to be answered, and when an implementation with two lists does so. -/
namespace Batch
variable {α : Type*}

/-- What was asked of each object. An item moves from `requested` to `committed` to `done`. -/
structure Ledger (α : Type*) where
  issued : ℕ → List α := fun _ => []
  requested : ℕ → List α := fun _ => []
  committed : ℕ → List α := fun _ => []
  done : ℕ → List α := fun _ => []

inductive Op (α : Type*) where
  | request (object : ℕ) (item : α)
  | commit (object : ℕ)
  | tick
  | close (object : ℕ)

/-- First in, first out: a batch is committed behind those before it. -/
def Ledger.apply (k : Ledger α) : Op α → Ledger α
  | .request i c =>
    { k with
      issued := Function.update k.issued i (k.issued i ++ [c])
      requested := Function.update k.requested i (k.requested i ++ [c]) }
  | .commit i =>
    { k with
      requested := Function.update k.requested i []
      committed := Function.update k.committed i (k.committed i ++ k.requested i) }
  | .tick =>
    { k with
      committed := fun _ => []
      done := fun i => k.done i ++ k.committed i }
  | .close i =>
    { k with
      requested := Function.update k.requested i []
      committed := Function.update k.committed i [] }

def Ledger.record (k : Ledger α) (o : Option (Op α)) : Ledger α := o.elim k k.apply

variable [DecidableEq α]

/-- The items of each object were answered as the ledger says. -/
def Sent (done : List α) (k : Ledger α) : Prop := ∀ i, done.filter (· ∈ k.issued i) = k.done i

/-- The two lists of each object are those of the ledger, and no item belongs to two objects. -/
structure Matches (f : ℕ → List α × List α) (done : List α) (k : Ledger α) : Prop where
  sent : Sent done k
  lists : ∀ i, f i = (k.requested i, k.committed i)
  own : ∀ i c, c ∈ k.requested i ∨ c ∈ k.committed i → c ∈ k.issued i
  disjoint : ∀ i j c, c ∈ k.issued i → c ∈ k.issued j → i = j
  known : ∀ c ∈ done, ∃ i, c ∈ k.issued i

variable {f f' : ℕ → List α × List α} {done : List α} {k : Ledger α}

theorem Matches.same (h : Matches f done k) (hf : ∀ i, f' i = f i) : Matches f' done k :=
  { h with lists := fun i => (hf i).trans (h.lists i) }

/-- A new item joins the requested ones. -/
theorem Matches.request (h : Matches f done k) {i : ℕ} {c : α} (hc : ∀ j, c ∉ k.issued j)
    (hf : ∀ j, f' j = if j = i then ((f i).1 ++ [c], (f i).2) else f j) :
    Matches f' done (k.apply (.request i c)) := by
  have hd : c ∉ done := fun hm => (h.known c hm).elim fun j hj => hc j hj
  constructor
  · intro j
    refine (List.filter_congr fun x hx => ?_).trans (h.sent j)
    have hxc : x ≠ c := fun he => hd (he ▸ hx)
    by_cases hj : j = i
    · subst hj
      simp [Ledger.apply, hxc]
    · simp [Ledger.apply, hj]
  · intro j
    rw [hf, h.lists i, h.lists j]
    by_cases hj : j = i
    · subst hj
      simp [Ledger.apply]
    · simp [Ledger.apply, hj]
  · intro j x hx
    by_cases hj : j = i
    · subst hj
      simp only [Ledger.apply, Function.update_self, List.mem_append] at hx ⊢
      rcases hx with (h1 | h1) | h1
      · exact .inl (h.own j x (.inl h1))
      · exact .inr h1
      · exact .inl (h.own j x (.inr h1))
    · simp only [Ledger.apply, Function.update_of_ne hj] at hx ⊢
      exact h.own j x hx
  · intro j j' x hx hx'
    by_cases hxc : x = c
    · subst hxc
      have key {l : ℕ} (hl : x ∈ Function.update k.issued i (k.issued i ++ [x]) l) : l = i := by
        by_contra hn
        rw [Function.update_of_ne hn] at hl
        exact hc l hl
      exact (key hx).trans (key hx').symm
    · have key {l : ℕ} (hl : x ∈ Function.update k.issued i (k.issued i ++ [c]) l) :
          x ∈ k.issued l := by
        by_cases hn : l = i
        · subst hn
          simpa [hxc] using hl
        · rwa [Function.update_of_ne hn] at hl
      exact h.disjoint j j' x (key hx) (key hx')
  · intro x hx
    obtain ⟨j, hj⟩ := h.known x hx
    refine ⟨j, ?_⟩
    by_cases hn : j = i
    · subst hn
      simp [Ledger.apply, hj]
    · simpa [Ledger.apply, hn] using hj

/-- A batch is committed; that the code puts it in front makes no difference when one of the two
lists is empty. -/
theorem Matches.commit (h : Matches f done k) {i : ℕ} (hb : (f i).1 = [] ∨ (f i).2 = [])
    (hf : ∀ j, f' j = if j = i then ([], (f i).1 ++ (f i).2) else f j) :
    Matches f' done (k.apply (.commit i)) where
  sent := h.sent
  lists := by
    intro j
    rw [hf]
    rw [h.lists i] at hb ⊢
    rw [h.lists j]
    by_cases hj : j = i
    · subst hj
      rcases hb with hb | hb <;> simp_all [Ledger.apply]
    · simp [Ledger.apply, hj]
  own := by
    intro j x hx
    by_cases hj : j = i
    · subst hj
      simp only [Ledger.apply, Function.update_self, List.mem_append, List.not_mem_nil,
        false_or] at hx
      rcases hx with h1 | h1
      · exact h.own j x (.inr h1)
      · exact h.own j x (.inl h1)
    · simp only [Ledger.apply, Function.update_of_ne hj] at hx
      exact h.own j x hx
  disjoint := h.disjoint
  known := h.known

theorem filter_of_forall {l m : List α} (h : ∀ c ∈ l, c ∈ m) : l.filter (· ∈ m) = l :=
  List.filter_eq_self.mpr fun c hc => by simpa using h c hc

/-- What one object gets when all are answered, one after the other. -/
theorem filter_flatMap (h : Matches f done k) {l : List ℕ} (hl : l.Nodup) (i : ℕ) :
    (l.flatMap fun j => (f j).2).filter (· ∈ k.issued i) = if i ∈ l then (f i).2 else [] := by
  induction l with
  | nil => rfl
  | cons j l ih =>
    obtain ⟨hj, hl⟩ := List.nodup_cons.mp hl
    rw [List.flatMap_cons, List.filter_append, ih hl, h.lists j]
    by_cases hij : i = j
    · subst hij
      rw [filter_of_forall fun c hc => h.own i c (.inr hc)]
      simp [hj, h.lists i]
    · have hn : (k.committed j).filter (· ∈ k.issued i) = [] := by
        refine List.filter_eq_nil_iff.mpr fun c hc => ?_
        simpa using fun hi => hij (h.disjoint i j c hi (h.own j c (.inr hc)))
      simp [hn, hij]

/-- A tick answers every committed item. -/
theorem Matches.tick (h : Matches f done k) {l : List ℕ} (hl : l.Nodup)
    (hc : ∀ i, i ∉ l → (f i).2 = []) (hf : ∀ i, f' i = ((f i).1, [])) :
    Matches f' (done ++ l.flatMap fun i => (f i).2) (k.apply .tick) where
  sent := by
    intro i
    rw [List.filter_append]
    refine (congrArg₂ (· ++ ·) (h.sent i) (filter_flatMap h hl i)).trans ?_
    have hi : (if i ∈ l then (f i).2 else []) = (f i).2 := by
      split
      · rfl
      · next hn => exact (hc i hn).symm
    rw [hi, h.lists i]
    rfl
  lists := fun i => by rw [hf, h.lists i]; rfl
  own := fun i c hx => h.own i c (.inl (by simpa [Ledger.apply] using hx))
  disjoint := h.disjoint
  known := by
    intro c hm
    rcases List.mem_append.mp hm with h1 | h1
    · exact h.known c h1
    · obtain ⟨i, -, hi⟩ := List.mem_flatMap.mp h1
      exact ⟨i, h.own i c (.inr (by rwa [h.lists i] at hi))⟩

/-- An object goes, and what was asked of it. -/
theorem Matches.close (h : Matches f done k) {i : ℕ}
    (hf : ∀ j, f' j = if j = i then ([], []) else f j) :
    Matches f' done (k.apply (.close i)) where
  sent := h.sent
  lists := by
    intro j
    rw [hf, h.lists j]
    by_cases hj : j = i
    · subst hj
      simp [Ledger.apply]
    · simp [Ledger.apply, hj]
  own := by
    intro j x hx
    by_cases hj : j = i
    · subst hj
      simp [Ledger.apply] at hx
    · simp only [Ledger.apply, Function.update_of_ne hj] at hx
      exact h.own j x hx
  disjoint := h.disjoint
  known := h.known

/-- The items are numbers, issued in order. -/
structure Recorded (f : ℕ → List ℕ × List ℕ) (done : List ℕ) (next : ℕ) (k : Ledger ℕ) : Prop where
  lists : Matches f done k
  issued_lt : ∀ i c, c ∈ k.issued i → c < next

theorem recorded_empty {f : ℕ → List ℕ × List ℕ} (hf : ∀ i, f i = ([], [])) (next : ℕ) :
    Recorded f [] next {} where
  lists := by constructor <;> simp [Sent, hf]
  issued_lt := by simp

theorem Recorded.mono {f g : ℕ → List ℕ × List ℕ} {done : List ℕ} {next next' : ℕ} {k : Ledger ℕ}
    (h : Recorded f done next k) (hf : ∀ i, g i = f i) (hn : next ≤ next') :
    Recorded g done next' k :=
  ⟨h.lists.same hf, fun i c hc => Nat.lt_of_lt_of_le (h.issued_lt i c hc) hn⟩

theorem Recorded.request {f f' : ℕ → List ℕ × List ℕ} {done : List ℕ} {next i : ℕ} {k : Ledger ℕ}
    (h : Recorded f done next k)
    (hf : ∀ j, f' j = if j = i then ((f i).1 ++ [next], (f i).2) else f j) :
    Recorded f' done (next + 1) (k.apply (.request i next)) where
  lists := h.lists.request (fun j hj => absurd (h.issued_lt j _ hj) (Nat.lt_irrefl _)) hf
  issued_lt := fun j c hj => by
    by_cases hji : j = i
    · subst hji
      simp only [Ledger.apply, Function.update_self, List.mem_append, List.mem_singleton] at hj
      rcases hj with hj | hj
      · exact Nat.lt_succ_of_lt (h.issued_lt _ c hj)
      · omega
    · simp only [Ledger.apply, Function.update_of_ne hji] at hj
      exact Nat.lt_succ_of_lt (h.issued_lt _ c hj)

end Batch
