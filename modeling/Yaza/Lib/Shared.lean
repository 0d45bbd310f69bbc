import Yaza.Lib.Census

/-! Things that are shared by counting who holds them: the count goes up with each holder and down
with each that lets go, and what nobody holds is gone. -/

/-- A thing, and how many hold it. -/
structure Shared (β : Type*) where
  content : β
  count : ℕ
  deriving DecidableEq, Repr

namespace Shared
variable {β κ : Type*}

/-- One more holds it; there is no answer if it is gone. -/
def retain (blocks : Arena (Shared β)) : Option ℕ → Option (Arena (Shared β))
  | none => some blocks
  | some b => (blocks b).map fun x => blocks.set b { x with count := x.count + 1 }

/-- One less holds it. -/
def release (blocks : Arena (Shared β)) : Option ℕ → Option (Arena (Shared β))
  | none => some blocks
  | some b => (blocks b).map fun x =>
    if x.count ≤ 1 then blocks.erase b else blocks.set b { x with count := x.count - 1 }

/-- Everything that is held is there, and counts its holders. Both are among the first `n`
addresses. -/
structure Tally (blocks : Arena (Shared β)) (objects : Arena κ) (data : κ → Option ℕ) (n : ℕ) :
    Prop where
  unused : ∀ i, n ≤ i → blocks i = none ∧ objects i = none
  live : ∀ i o b, objects i = some o → data o = some b → (blocks b).isSome
  counted : ∀ b x, blocks b = some x → x.count = objects.census (data · = some b) n ∧ 0 < x.count

/-- What is still there has not changed. -/
def Kept (blocks blocks' : Arena (Shared β)) : Prop :=
  ∀ b x, blocks' b = some x → (blocks b).map content = some x.content

variable {blocks blocks' : Arena (Shared β)} {objects : Arena κ} {data : κ → Option ℕ} {n i b : ℕ}
  {o o' : κ} {x : Shared β}

theorem kept_refl (blocks : Arena (Shared β)) : Kept blocks blocks := by
  intro c y hc
  rw [hc, Option.map_some]

theorem kept_erase (blocks : Arena (Shared β)) (b : ℕ) : Kept blocks (blocks.erase b) := by
  intro c y hc
  have hcb : c ≠ b := by
    rintro rfl
    rw [Arena.erase_self] at hc
    cases hc
  rw [Arena.erase_of_ne _ hcb] at hc
  rw [hc, Option.map_some]

/-- Another count does not change the thing. -/
theorem kept_set (hx : blocks b = some x) (count : ℕ) :
    Kept blocks (blocks.set b { x with count }) := by
  intro c y hc
  by_cases hcb : c = b
  · subst hcb
    rw [Arena.set_self] at hc
    cases hc
    rw [hx, Option.map_some]
  · rw [Arena.set_of_ne _ _ hcb] at hc
    rw [hc, Option.map_some]

namespace Tally

theorem lt_of_block (h : Tally blocks objects data n) (hb : blocks b = some x) : b < n := by
  by_contra hn
  rw [(h.unused b (by omega)).1] at hb
  cases hb

theorem lt_of_object (h : Tally blocks objects data n) (hi : objects i = some o) : i < n := by
  by_contra hn
  rw [(h.unused i (by omega)).2] at hi
  cases hi

theorem unused_set (h : Tally blocks objects data n) (hi : objects i = some o) (o' : κ) :
    ∀ j, n ≤ j → blocks j = none ∧ objects.set i o' j = none := by
  intro j hj
  have hne : j ≠ i := Nat.ne_of_gt (Nat.lt_of_lt_of_le (h.lt_of_object hi) hj)
  rw [Arena.set_of_ne _ _ hne]
  exact h.unused j hj

/-- A holder changes, but not what it holds. -/
theorem replace (h : Tally blocks objects data n) (hi : objects i = some o)
    (hd : data o' = data o) : Tally blocks (objects.set i o') data n where
  unused := h.unused_set hi o'
  live j y c hj hc := by
    by_cases hji : j = i
    · subst hji
      rw [Arena.set_self] at hj
      cases hj
      exact h.live j o c hi (hd ▸ hc)
    · rw [Arena.set_of_ne _ _ hji] at hj
      exact h.live j y c hj hc
  counted c y hc := by
    have hset := Arena.census_set (P := (data · = some c)) (h.lt_of_object hi) hi o'
    rw [hd] at hset
    have := h.counted c y hc
    omega

/-- A new holder that holds nothing. -/
theorem add (h : Tally blocks objects data n) (ho : data o = none) :
    Tally blocks (objects.set n o) data (n + 1) where
  unused j hj := by
    rw [Arena.set_of_ne _ _ (by omega)]
    exact h.unused j (by omega)
  live j y c hj hc := by
    by_cases hjn : j = n
    · subst hjn
      rw [Arena.set_self] at hj
      cases hj
      rw [ho] at hc
      cases hc
    · rw [Arena.set_of_ne _ _ hjn] at hj
      exact h.live j y c hj hc
  counted c y hc := by
    rw [Arena.census_set_new, ho]
    simpa using h.counted c y hc

section Release
variable (h : Tally blocks objects data n) (hi : objects i = some o) (hd : data o = some b)
  (ho' : data o' = none)
include h hi hd ho'

/-- Only what the holder lets go has a holder less. -/
theorem census_of_let_go (c : ℕ) :
    (objects.set i o').census (data · = some c) n + (if c = b then 1 else 0) =
      objects.census (data · = some c) n := by
  have hset := Arena.census_set (P := (data · = some c)) (h.lt_of_object hi) hi o'
  rw [hd, ho'] at hset
  by_cases hcb : c = b
  · subst hcb
    simpa using hset
  · have hbc : b ≠ c := Ne.symm hcb
    simpa [hcb, hbc] using hset

omit hd in
/-- The others hold what they held. -/
theorem live_of_let_go {j c : ℕ} {y : κ} (hj : objects.set i o' j = some y)
    (hc : data y = some c) :
    (blocks c).isSome ∧ 0 < (objects.set i o').census (data · = some c) n := by
  have hji : j ≠ i := by
    rintro rfl
    rw [Arena.set_self] at hj
    cases hj
    rw [ho'] at hc
    cases hc
  have hjo : objects j = some y := by rwa [Arena.set_of_ne _ _ hji] at hj
  exact ⟨h.live j y c hjo hc, Arena.census_pos (h.lt_of_object hjo) hj (decide_eq_true hc)⟩

/-- The last holder lets go. -/
theorem release_last (hx : blocks b = some x) (hone : x.count ≤ 1) :
    Tally (blocks.erase b) (objects.set i o') data n where
  unused j hj := by
    have hlt := h.lt_of_block hx
    rw [Arena.erase_of_ne _ (by omega)]
    exact ⟨(h.unused j hj).1, (h.unused_set hi o' j hj).2⟩
  live j y c hj hc := by
    obtain ⟨hl, hp⟩ := h.live_of_let_go hi ho' hj hc
    have hcb : c ≠ b := by
      rintro rfl
      have hcensus := h.census_of_let_go hi hd ho' c
      have hcount := (h.counted c x hx).1
      rw [if_pos rfl] at hcensus
      omega
    rwa [Arena.erase_of_ne _ hcb]
  counted c y hc := by
    have hcb : c ≠ b := by
      rintro rfl
      rw [Arena.erase_self] at hc
      cases hc
    rw [Arena.erase_of_ne _ hcb] at hc
    have hcensus := h.census_of_let_go hi hd ho' c
    have hcount := h.counted c y hc
    rw [if_neg hcb] at hcensus
    omega

/-- A holder lets go, and others are left. -/
theorem release_shared (hx : blocks b = some x) (hmany : ¬x.count ≤ 1) :
    Tally (blocks.set b { x with count := x.count - 1 }) (objects.set i o') data n where
  unused j hj := by
    have hlt := h.lt_of_block hx
    rw [Arena.set_of_ne _ _ (by omega)]
    exact ⟨(h.unused j hj).1, (h.unused_set hi o' j hj).2⟩
  live j y c hj hc := by
    by_cases hcb : c = b
    · rw [hcb, Arena.set_self]
      rfl
    · rw [Arena.set_of_ne _ _ hcb]
      exact (h.live_of_let_go hi ho' hj hc).1
  counted c y hc := by
    have hcensus := h.census_of_let_go hi hd ho' c
    by_cases hcb : c = b
    · subst hcb
      have hcount := (h.counted c x hx).1
      rw [Arena.set_self] at hc
      cases hc
      rw [if_pos rfl] at hcensus
      simp only
      omega
    · rw [Arena.set_of_ne _ _ hcb] at hc
      have hcount := h.counted c y hc
      rw [if_neg hcb] at hcensus
      omega

end Release

/-- A holder lets go of what it holds. -/
theorem release (h : Tally blocks objects data n) (hi : objects i = some o) (o' : κ)
    (ho' : data o' = none) : ∃ blocks', Shared.release blocks (data o) = some blocks' ∧
      Tally blocks' (objects.set i o') data n ∧ Kept blocks blocks' := by
  cases hd : data o with
  | none => exact ⟨blocks, rfl, h.replace hi (ho'.trans hd.symm), kept_refl blocks⟩
  | some b =>
    obtain ⟨x, hx⟩ := Option.isSome_iff_exists.mp (h.live i o b hi hd)
    by_cases hone : x.count ≤ 1
    · exact ⟨blocks.erase b, by simp [Shared.release, hx, hone],
        h.release_last hi hd ho' hx hone, kept_erase blocks b⟩
    · exact ⟨blocks.set b { x with count := x.count - 1 }, by simp [Shared.release, hx, hone],
        h.release_shared hi hd ho' hx hone, kept_set hx _⟩

/-- A new thing, with one holder that held nothing. -/
theorem alloc (h : Tally blocks objects data n) (hi : objects i = some o) (ho : data o = none)
    (o' : κ) (ho' : data o' = some n) (c : β) :
    Tally (blocks.set n ⟨c, 1⟩) (objects.set i o') data (n + 1) ∧
      ∀ b, b ≠ n → blocks.set n ⟨c, 1⟩ b = blocks b := by
  have hin := h.lt_of_object hi
  have hcensus (b : ℕ) : (objects.set i o').census (data · = some b) (n + 1) =
      objects.census (data · = some b) n + if b = n then 1 else 0 := by
    have hset := Arena.census_set (P := (data · = some b)) hin hi o'
    rw [ho, ho'] at hset
    rw [Arena.census_unused (by
      rw [Arena.set_of_ne _ _ (by omega)]
      exact (h.unused n (Nat.le_refl _)).2)]
    by_cases hb : b = n
    · subst hb
      simpa using hset
    · have hb' : n ≠ b := Ne.symm hb
      simpa [hb, hb'] using hset
  refine ⟨⟨?_, ?_, ?_⟩, fun b hb => Arena.set_of_ne _ _ hb⟩
  · intro j hj
    rw [Arena.set_of_ne _ _ (by omega)]
    exact ⟨(h.unused j (by omega)).1, (h.unused_set hi o' j (by omega)).2⟩
  · intro j y b hj hb
    by_cases hbn : b = n
    · rw [hbn, Arena.set_self]
      rfl
    · rw [Arena.set_of_ne _ _ hbn]
      by_cases hji : j = i
      · subst hji
        rw [Arena.set_self] at hj
        cases hj
        rw [ho'] at hb
        exact absurd (Option.some.inj hb).symm hbn
      · rw [Arena.set_of_ne _ _ hji] at hj
        exact h.live j y b hj hb
  · intro b y hb
    rw [hcensus]
    by_cases hbn : b = n
    · subst hbn
      rw [Arena.set_self] at hb
      cases hb
      have hzero : objects.census (data · = some b) b = 0 := by
        by_contra hne
        obtain ⟨j, o, hj, hjo⟩ := Arena.exists_of_census_pos (Nat.pos_of_ne_zero hne)
        have hl := h.live j o b hj (of_decide_eq_true hjo)
        rw [(h.unused b (Nat.le_refl _)).1] at hl
        cases hl
      rw [hzero]
      simp
    · rw [Arena.set_of_ne _ _ hbn] at hb
      have := h.counted b y hb
      simp only [hbn, if_false]
      omega

/-- A new holder of what another one holds. -/
theorem share (h : Tally blocks objects data n) (hi : objects i = some o) (o' : κ)
    (ho' : data o' = data o) : ∃ blocks', retain blocks (data o) = some blocks' ∧
      Tally blocks' (objects.set n o') data (n + 1) ∧ Kept blocks blocks' := by
  cases hd : data o with
  | none =>
    exact ⟨blocks, rfl, h.add (ho'.trans hd), kept_refl blocks⟩
  | some b =>
    obtain ⟨x, hx⟩ := Option.isSome_iff_exists.mp (h.live i o b hi hd)
    have hlt := h.lt_of_block hx
    refine ⟨blocks.set b { x with count := x.count + 1 }, by simp [retain, hx], ⟨?_, ?_, ?_⟩,
      kept_set hx _⟩
    · intro j hj
      rw [Arena.set_of_ne _ _ (by omega), Arena.set_of_ne _ _ (by omega)]
      exact h.unused j (by omega)
    · intro j y c hj hc
      by_cases hcb : c = b
      · rw [hcb, Arena.set_self]
        rfl
      · rw [Arena.set_of_ne _ _ hcb]
        by_cases hjn : j = n
        · subst hjn
          rw [Arena.set_self] at hj
          cases hj
          rw [ho', hd] at hc
          exact absurd (Option.some.inj hc).symm hcb
        · rw [Arena.set_of_ne _ _ hjn] at hj
          exact h.live j y c hj hc
    · intro c y hc
      rw [Arena.census_set_new, ho', hd]
      by_cases hcb : c = b
      · subst hcb
        rw [Arena.set_self] at hc
        cases hc
        have := h.counted c x hx
        simp only [decide_true, if_true]
        omega
      · rw [Arena.set_of_ne _ _ hcb] at hc
        have := h.counted c y hc
        have hbc : b ≠ c := Ne.symm hcb
        simp only [Option.some.injEq, hbc, decide_false, Bool.false_eq_true, if_false]
        omega

/-- A holder that holds nothing goes. -/
theorem drop (h : Tally blocks objects data n) (hi : objects i = some o) (ho : data o = none) :
    Tally blocks (objects.erase i) data n where
  unused j hj := by
    have hne : j ≠ i := Nat.ne_of_gt (Nat.lt_of_lt_of_le (h.lt_of_object hi) hj)
    rw [Arena.erase_of_ne _ hne]
    exact h.unused j hj
  live j y c hj hc := by
    have hji : j ≠ i := by
      rintro rfl
      rw [Arena.erase_self] at hj
      cases hj
    rw [Arena.erase_of_ne _ hji] at hj
    exact h.live j y c hj hc
  counted c y hc := by
    have herase := Arena.census_erase (P := (data · = some c)) (h.lt_of_object hi) hi
    rw [ho] at herase
    have := h.counted c y hc
    simp only [reduceCtorEq, decide_false, Bool.false_eq_true, if_false] at herase
    omega

/-- A thing is changed where it is. -/
theorem modify (h : Tally blocks objects data n) (hb : blocks b = some x) (c : β) :
    Tally (blocks.set b { x with content := c }) objects data n where
  unused j hj := by
    have := h.lt_of_block hb
    rw [Arena.set_of_ne _ _ (by omega)]
    exact h.unused j hj
  live j y d hj hd := by
    by_cases hdb : d = b
    · rw [hdb, Arena.set_self]
      rfl
    · rw [Arena.set_of_ne _ _ hdb]
      exact h.live j y d hj hd
  counted d y hd := by
    by_cases hdb : d = b
    · subst hdb
      rw [Arena.set_self] at hd
      cases hd
      exact h.counted d x hb
    · rw [Arena.set_of_ne _ _ hdb] at hd
      exact h.counted d y hd

end Tally
end Shared
