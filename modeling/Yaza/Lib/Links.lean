import Mathlib.Data.List.Nodup
import Mathlib.Logic.Function.Basic
import Mathlib.Tactic.Common

/-! Circular lists that are linked through their elements: the pointers of the elements and of the
heads, and which elements a head lists. -/

/-- The two pointers of every node; a node that is not set up has none. -/
structure Links (ν : Type*) where
  next : ν → Option ν
  prev : ν → Option ν

namespace Links
variable {ν : Type*} [DecidableEq ν]

/-- The node becomes a list without elements. -/
def init (m : Links ν) (e : ν) : Links ν where
  next := Function.update m.next e (some e)
  prev := Function.update m.prev e (some e)

/-- The node `e` comes behind `p`. -/
def insert (m : Links ν) (p e : ν) : Option (Links ν) :=
  (m.next p).map fun n =>
    { next := Function.update (Function.update m.next e (some n)) p (some e)
      prev := Function.update (Function.update m.prev e (some p)) n (some e) }

/-- The node `e` becomes the last one of the list. -/
def append (m : Links ν) (h e : ν) : Option (Links ν) := (m.prev h).bind fun p => m.insert p e

/-- The node `e` goes from between `p` and `n`, and is left without pointers. -/
def bypass (m : Links ν) (p e n : ν) : Links ν where
  next := Function.update (Function.update m.next p (some n)) e none
  prev := Function.update (Function.update m.prev n (some p)) e none

/-- The node is taken out of the list it is in. -/
def remove (m : Links ν) (e : ν) : Option (Links ν) :=
  (m.prev e).bind fun p => (m.next e).map fun n => m.bypass p e n

/-- The node is gone. -/
def free (m : Links ν) (e : ν) : Links ν where
  next := Function.update m.next e none
  prev := Function.update m.prev e none

/-- `b` comes directly behind `a`. -/
def Linked (m : Links ν) (a b : ν) : Prop := m.next a = some b ∧ m.prev b = some a

/-- Between `a` and `b` come the nodes of the list, in this order. -/
def Segment (m : Links ν) : ν → List ν → ν → Prop
  | a, [], b => m.Linked a b
  | a, x :: l, b => m.Linked a x ∧ m.Segment x l b

/-- The head `h` lists the nodes of `l`. -/
structure Circular (m : Links ν) (h : ν) (l : List ν) : Prop where
  nodup : (h :: l).Nodup
  segment : m.Segment h l h

/-- All pointers are the same but those of the nodes of `l`. -/
def Agrees (m m' : Links ν) (l : List ν) : Prop :=
  ∀ x, x ∉ l → m'.next x = m.next x ∧ m'.prev x = m.prev x

variable {m m' : Links ν} {a b e h x : ν} {l l' : List ν}

omit [DecidableEq ν] in
theorem segment_append : m.Segment a (l ++ x :: l') b ↔ m.Segment a l x ∧ m.Segment x l' b := by
  induction l generalizing a with
  | nil => simp only [List.nil_append, Segment]
  | cons y l ih => simp only [List.cons_append, Segment, ih, and_assoc]

omit [DecidableEq ν] in
theorem Segment.last (hs : m.Segment a l b) : m.Linked (l.getLastD a) b := by
  induction l generalizing a with
  | nil => exact hs
  | cons x l ih =>
    rw [List.getLastD_cons]
    exact ih hs.2

omit [DecidableEq ν] in
theorem Segment.first (hs : m.Segment a l b) : m.Linked a (l.headD b) := by
  cases l with
  | nil => exact hs
  | cons x l => exact hs.1

omit [DecidableEq ν] in
/-- Only the pointers along the way matter. -/
theorem Segment.congr (hs : m.Segment a l b) (hn : ∀ x ∈ a :: l, m'.next x = m.next x)
    (hp : ∀ x, x ∈ l ∨ x = b → m'.prev x = m.prev x) : m'.Segment a l b := by
  induction l generalizing a with
  | nil =>
    obtain ⟨h1, h2⟩ := hs
    exact ⟨(hn a (by simp)).trans h1, (hp b (.inr rfl)).trans h2⟩
  | cons x l ih =>
    obtain ⟨⟨h1, h2⟩, hs⟩ := hs
    refine ⟨⟨(hn a (by simp)).trans h1, (hp x (.inl (by simp))).trans h2⟩, ih hs ?_ ?_⟩
    · intro y hy
      exact hn y (List.mem_cons_of_mem a hy)
    · rintro y (hy | hy)
      · exact hp y (.inl (List.mem_cons_of_mem x hy))
      · exact hp y (.inr hy)

omit [DecidableEq ν] in
/-- The last node of a segment is linked to another one. -/
theorem Segment.retarget (hs : m.Segment a l b) (hd : (a :: l).Nodup) (m' : Links ν) (b' : ν)
    (hn : ∀ x ∈ a :: l, x ≠ l.getLastD a → m'.next x = m.next x)
    (hp : ∀ x ∈ l, m'.prev x = m.prev x) (hl : m'.Linked (l.getLastD a) b') :
    m'.Segment a l b' := by
  induction l generalizing a with
  | nil => exact hl
  | cons x l ih =>
    obtain ⟨⟨h1, h2⟩, hs⟩ := hs
    rw [List.getLastD_cons] at hn hl
    obtain ⟨ha, hd⟩ := List.nodup_cons.mp hd
    refine ⟨⟨(hn a (by simp) ?_).trans h1, (hp x (by simp)).trans h2⟩, ih hs hd ?_ ?_ hl⟩
    · intro hx
      exact ha (hx ▸ List.getLastD_mem_cons)
    · intro y hy
      exact hn y (List.mem_cons_of_mem a hy)
    · intro y hy
      exact hp y (List.mem_cons_of_mem x hy)

omit [DecidableEq ν] in
/-- What a head lists is determined by the pointers. -/
theorem Circular.unique (hl : m.Circular h l) (hl' : m.Circular h l') : l = l' := by
  -- from any node on, two ways to the head are the same
  have same {a : ν} {l l' : List ν} (hs : m.Segment a l h) (hs' : m.Segment a l' h) (hh : h ∉ l)
      (hh' : h ∉ l') : l = l' := by
    induction l generalizing a l' with
    | nil =>
      cases l' with
      | nil => rfl
      | cons x l' =>
        have hx : h = x := Option.some.inj (hs.1.symm.trans hs'.1.1)
        exact absurd (hx ▸ List.mem_cons_self) hh'
    | cons x l ih =>
      cases l' with
      | nil =>
        have hx : x = h := Option.some.inj (hs.1.1.symm.trans hs'.1)
        exact absurd (hx ▸ List.mem_cons_self) hh
      | cons y l' =>
        obtain rfl : x = y := Option.some.inj (hs.1.1.symm.trans hs'.1.1)
        rw [ih hs.2 hs'.2 (List.not_mem_of_not_mem_cons hh) (List.not_mem_of_not_mem_cons hh')]
  exact same hl.segment hl'.segment (List.nodup_cons.mp hl.nodup).1 (List.nodup_cons.mp hl'.nodup).1

omit [DecidableEq ν] in
theorem Circular.congr {s : List ν} (hl : m.Circular h l) (ha : m.Agrees m' s)
    (hd : ∀ x ∈ h :: l, x ∉ s) : m'.Circular h l where
  nodup := hl.nodup
  segment := by
    refine hl.segment.congr (fun x hx => (ha x (hd x hx)).1) ?_
    rintro x (hx | rfl)
    · exact (ha x (hd x (List.mem_cons_of_mem h hx))).2
    · exact (ha x (hd x List.mem_cons_self)).2

omit [DecidableEq ν] in
theorem Agrees.mono {s s' : List ν} (ha : m.Agrees m' s) (hs : s ⊆ s') : m.Agrees m' s' :=
  fun x hx => ha x fun h => hx (hs h)

omit [DecidableEq ν] in
theorem Agrees.trans {m'' : Links ν} {s : List ν} (ha : m.Agrees m' s) (hb : m'.Agrees m'' s) :
    m.Agrees m'' s :=
  fun x hx => ⟨(hb x hx).1.trans (ha x hx).1, (hb x hx).2.trans (ha x hx).2⟩

theorem init_circular (m : Links ν) (e : ν) : (m.init e).Circular e [] where
  nodup := List.nodup_singleton e
  segment := by simp [Segment, Linked, init]

theorem init_agrees (m : Links ν) (e : ν) : m.Agrees (m.init e) [e] := by
  intro x hx
  have hx : x ≠ e := by simpa using hx
  simp [init, hx]

theorem free_agrees (m : Links ν) (e : ν) : m.Agrees (m.free e) [e] := by
  intro x hx
  have hx : x ≠ e := by simpa using hx
  simp [free, hx]

theorem Circular.append (hl : m.Circular h l) (he : e ∉ h :: l) :
    ∃ m', m.append h e = some m' ∧ m'.Circular h (l ++ [e]) ∧ m.Agrees m' (e :: h :: l) := by
  obtain ⟨hn, hp⟩ := hl.segment.last
  have hret (m' : Links ν) := hl.segment.retarget hl.nodup m' e
  have hlast : l.getLastD h ∈ h :: l := List.getLastD_mem_cons
  generalize l.getLastD h = p at hn hp hret hlast
  have hne : e ≠ p := fun hx => he (hx ▸ hlast)
  have heh : e ≠ h := List.ne_of_not_mem_cons he
  refine ⟨_, by simp only [Links.append, hp, Option.bind_some, insert, hn, Option.map_some]; rfl,
    ⟨?_, ?_⟩, ?_⟩
  · rw [← List.cons_append]
    exact List.nodup_append.mpr ⟨hl.nodup, List.nodup_singleton e, fun a ha b hb hab =>
      he (by rw [← List.mem_singleton.mp hb, ← hab]; exact ha)⟩
  · refine segment_append.mpr ⟨hret _ ?_ ?_ ?_, ?_⟩
    · intro x hx hne'
      have hxe : x ≠ e := fun h => he (h ▸ hx)
      simp [hne', hxe]
    · intro x hx
      have hxe : x ≠ e := fun h => he (h ▸ List.mem_cons_of_mem _ hx)
      have hxh : x ≠ h := fun h' => (List.nodup_cons.mp hl.nodup).1 (h' ▸ hx)
      simp [hxe, hxh]
    · constructor
      · simp
      · simp [heh]
    · constructor
      · simp [hne]
      · simp
  · intro x hx
    have hxe : x ≠ e := fun h => hx (h ▸ List.mem_cons_self)
    have hxh : x ≠ h := fun h => hx (h ▸ List.mem_cons_of_mem _ List.mem_cons_self)
    have hxp : x ≠ p := fun h => hx (h ▸ List.mem_cons_of_mem _ hlast)
    simp [hxe, hxh, hxp]

theorem remove_eq {p n : ν} (hp : m.prev e = some p) (hn : m.next e = some n) :
    m.remove e = some (m.bypass p e n) := by
  simp [remove, hp, hn]

theorem bypass_agrees (m : Links ν) (p e n : ν) : m.Agrees (m.bypass p e n) [p, e, n] := by
  intro x hx
  simp only [List.mem_cons, List.not_mem_nil, or_false, not_or] at hx
  simp [bypass, hx.1, hx.2.1, hx.2.2]

/-- The node in front of the one that goes is linked to the one behind it. -/
theorem Segment.bypass {n : ν} (hs : m.Segment a l e) (hd : (a :: l).Nodup) (he : e ∉ a :: l)
    (hn : n ∉ l) (hne : n ≠ e) : (m.bypass (l.getLastD a) e n).Segment a l n := by
  have hret (m' : Links ν) := hs.retarget hd m' n
  have hlast : l.getLastD a ∈ a :: l := List.getLastD_mem_cons
  generalize l.getLastD a = p at hret hlast
  apply hret
  · intro x hx hxp
    have hxe : x ≠ e := fun h => he (h ▸ hx)
    simp [Links.bypass, hxe, hxp]
  · intro x hx
    have hxe : x ≠ e := fun h => he (h ▸ List.mem_cons_of_mem _ hx)
    have hxn : x ≠ n := fun h => hn (h ▸ hx)
    simp [Links.bypass, hxe, hxn]
  · have hpe : p ≠ e := fun h => he (h ▸ hlast)
    constructor
    · simp [Links.bypass, hpe]
    · simp [Links.bypass, hne]

/-- No list changes when a node is taken out that is a list of its own. -/
theorem Circular.remove_alone (he : m.Circular e []) :
    ∃ m', m.remove e = some m' ∧ m.Agrees m' [e] := by
  obtain ⟨hn, hp⟩ := he.segment
  exact ⟨_, remove_eq hp hn, (bypass_agrees m e e e).mono (by simp)⟩

theorem Circular.remove (hl : m.Circular h l) (he : e ∈ l) :
    ∃ m', m.remove e = some m' ∧ m'.Circular h (l.erase e) ∧ m.Agrees m' (h :: l) := by
  obtain ⟨l₁, l₂, rfl⟩ := List.append_of_mem he
  obtain ⟨hs₁, hs₂⟩ := segment_append.mp hl.segment
  have hd : (h :: l₁ ++ e :: l₂).Nodup := hl.nodup
  obtain ⟨hd₁, hd₂, hd₁₂⟩ := List.nodup_append.mp hd
  have he₁ : e ∉ h :: l₁ := fun h' => hd₁₂ e h' e List.mem_cons_self rfl
  have hlast : l₁.getLastD h ∈ h :: l₁ := List.getLastD_mem_cons
  have hsub : h :: l₁ ⊆ h :: (l₁ ++ e :: l₂) := List.cons_subset_cons h (by simp)
  refine ⟨_, remove_eq hs₁.last.2 hs₂.first.1, ⟨?_, ?_⟩,
    Agrees.mono (bypass_agrees m _ e _) ?_⟩
  · exact hl.nodup.sublist (List.Sublist.cons_cons h List.erase_sublist)
  · rw [List.erase_append_right _ (fun h' => he₁ (List.mem_cons_of_mem _ h')),
      List.erase_cons_head]
    cases l₂ with
    | nil =>
      rw [List.append_nil]
      exact hs₁.bypass hd₁ he₁ (List.nodup_cons.mp hd₁).1 (fun h' => he₁ (h' ▸ List.mem_cons_self))
    | cons n l₂ =>
      obtain ⟨hen, hd₃⟩ := List.nodup_cons.mp hd₂
      have hne : n ≠ e := fun h => hen (h ▸ List.mem_cons_self)
      have hn₁ : n ∉ h :: l₁ := fun h' => hd₁₂ n h' n (by simp) rfl
      have hn₂ : n ∉ l₂ := (List.nodup_cons.mp hd₃).1
      rw [List.headD_cons]
      refine segment_append.mpr ⟨hs₁.bypass hd₁ he₁ (fun h' => hn₁ (List.mem_cons_of_mem _ h')) hne,
        hs₂.2.congr ?_ ?_⟩
      · intro x hx
        have hxe : x ≠ e := fun h => hen (h ▸ hx)
        have hxp : x ≠ l₁.getLastD h := fun h =>
          hd₁₂ _ hlast x (List.mem_cons_of_mem e hx) h.symm
        simp only [Links.bypass, Function.update_of_ne hxe, Function.update_of_ne hxp]
      · intro x hx
        have hxe : x ≠ e := by
          rintro rfl
          rcases hx with hx | rfl
          · exact hen (List.mem_cons_of_mem n hx)
          · exact he₁ List.mem_cons_self
        have hxn : x ≠ n := by
          rintro rfl
          rcases hx with hx | rfl
          · exact hn₂ hx
          · exact hn₁ List.mem_cons_self
        simp only [Links.bypass, Function.update_of_ne hxe, Function.update_of_ne hxn]
  · intro x hx
    simp only [List.mem_cons, List.not_mem_nil, or_false] at hx
    rcases hx with rfl | rfl | rfl
    · exact hsub hlast
    · simp
    · cases l₂ with
      | nil => simp
      | cons n l₂ => simp

end Links
