import Yaza.Lib.Arena

/-! The ownership of a scene in the abstract: objects hold lists of units, a unit has an owner and
a slot for a technique, a technique has an owner. Children know their parent from birth; the
parent learns of them when they join. -/
namespace Yaza

structure Node where
  owner : ℕ
  joined : Bool
  slot : Option ℕ
  deriving DecidableEq, Repr

structure Forest where
  lists : Arena (List ℕ)
  nodes : Arena Node
  owners : Arena ℕ

namespace Forest

/-- What parents know is true: a slot holds a live technique of its unit, and a list holds the
units of its object that have joined. -/
structure Registered (g : Forest) : Prop where
  slot : ∀ u n t, g.nodes u = some n → n.slot = some t → g.owners t = some u
  nodup : ∀ v l, g.lists v = some l → l.Nodup
  listed : ∀ v l u, g.lists v = some l →
    (u ∈ l ↔ ∃ n, g.nodes u = some n ∧ n.owner = v ∧ n.joined = true)

/-- No child outlives its parent. -/
structure Rooted (g : Forest) : Prop where
  units : ∀ u n, g.nodes u = some n → (g.lists n.owner).isSome
  techniques : ∀ t u, g.owners t = some u → (g.nodes u).isSome

/-- Every technique of a unit is in its slot. -/
def SlotHolds (g : Forest) (u : ℕ) : Prop :=
  ∀ t n, g.owners t = some u → g.nodes u = some n → n.slot = some t

def newObject (g : Forest) (v : ℕ) : Forest := { g with lists := g.lists.set v [] }

def newUnit (g : Forest) (u v : ℕ) : Forest := { g with nodes := g.nodes.set u ⟨v, false, none⟩ }

def newTechnique (g : Forest) (t u : ℕ) : Forest := { g with owners := g.owners.set t u }

def joinUnit (g : Forest) (u v : ℕ) : Forest where
  lists := g.lists.modify v fun l => l ++ [u]
  nodes := g.nodes.modify u fun n => { n with joined := true }
  owners := g.owners

def joinTechnique (g : Forest) (t u : ℕ) : Forest :=
  { g with nodes := g.nodes.modify u fun n => { n with slot := some t } }

def dropTechnique (g : Forest) (t u : ℕ) : Forest :=
  { g with
    nodes := g.nodes.modify u fun n => { n with slot := none }
    owners := g.owners.erase t }

/-- A unit goes with the technique in its slot. -/
def dropUnit (g : Forest) (u : ℕ) (n : Node) : Forest where
  lists := g.lists.modify n.owner fun l => l.filter (· ≠ u)
  nodes := g.nodes.erase u
  owners := fun t => if n.slot = some t then none else g.owners t

/-- The techniques in the slots of some units. -/
def slots (g : Forest) (l : List ℕ) : List ℕ := l.filterMap fun u => (g.nodes u).bind Node.slot

/-- An object goes with the units in its list. -/
def dropObject (g : Forest) (v : ℕ) (l : List ℕ) : Forest where
  lists := g.lists.erase v
  nodes := fun u => if u ∈ l then none else g.nodes u
  owners := fun t => if t ∈ g.slots l then none else g.owners t

theorem mem_slots {g : Forest} {l : List ℕ} {t : ℕ} :
    t ∈ g.slots l ↔ ∃ u ∈ l, ∃ n, g.nodes u = some n ∧ n.slot = some t := by
  simp [slots, Option.bind_eq_some_iff]

/-- A listed unit that is gone changes nothing. -/
theorem dropObject_cons_of_none {g : Forest} {u : ℕ} (hn : g.nodes u = none) (v : ℕ)
    (l : List ℕ) : g.dropObject v (u :: l) = g.dropObject v l := by
  have hs : g.slots (u :: l) = g.slots l := by simp [slots, hn]
  simp only [dropObject, hs, Forest.mk.injEq, true_and, and_true]
  funext w
  by_cases hw : w = u
  · subst hw; simp [hn]
  · simp [hw]

/-- The first listed unit goes, then the others. -/
theorem dropObject_cons {g : Forest} {u : ℕ} {n : Node} (hn : g.nodes u = some n) (v : ℕ)
    (l : List ℕ) :
    g.dropObject v (u :: l) =
      ({ g.dropUnit u n with lists := g.lists } : Forest).dropObject v l := by
  simp only [dropObject, Forest.mk.injEq, true_and]
  refine ⟨?_, ?_⟩
  · funext w
    by_cases hw : w = u
    · subst hw; simp [dropUnit]
    · simp [dropUnit, hw]
  · funext t
    by_cases hs : n.slot = some t
    · have h1 : t ∈ g.slots (u :: l) := mem_slots.mpr ⟨u, List.mem_cons_self, n, hn, hs⟩
      simp [h1, dropUnit, hs]
    · have hiff : t ∈ g.slots (u :: l) ↔
          t ∈ ({ g.dropUnit u n with lists := g.lists } : Forest).slots l := by
        rw [mem_slots, mem_slots]
        constructor
        · rintro ⟨w, hw, m, hm, hmt⟩
          have hwu : w ≠ u := by
            rintro rfl
            rw [hn, Option.some.injEq] at hm
            exact hs (hm ▸ hmt)
          exact ⟨w, (List.mem_cons.mp hw).resolve_left hwu, m, by simpa [dropUnit, hwu] using hm,
            hmt⟩
        · rintro ⟨w, hw, m, hm, hmt⟩
          have hwu : w ≠ u := by rintro rfl; simp [dropUnit] at hm
          exact ⟨w, List.mem_cons_of_mem u hw, m, by simpa [dropUnit, hwu] using hm, hmt⟩
      simp only [hiff]
      simp [dropUnit, hs]

section Registered
variable {g : Forest} (hg : g.Registered)
include hg

theorem newObject_registered {v : ℕ} (hv : ∀ u n, g.nodes u = some n → n.owner ≠ v) :
    (g.newObject v).Registered where
  slot := hg.slot
  nodup := by
    intro w l hl
    simp only [newObject, Arena.set_apply] at hl
    split at hl
    · cases hl; exact List.nodup_nil
    · exact hg.nodup w l hl
  listed := by
    intro w l u hl
    simp only [newObject, Arena.set_apply] at hl
    split at hl
    · next hw =>
      subst hw; cases hl
      simp only [List.not_mem_nil, false_iff]
      rintro ⟨n, hn, ho, -⟩
      exact hv u n hn ho
    · exact hg.listed w l u hl

theorem newUnit_registered {u v : ℕ} (hu : g.nodes u = none) : (g.newUnit u v).Registered where
  slot := by
    intro w n t hn ht
    simp only [newUnit, Arena.set_apply] at hn
    split at hn
    · cases hn; cases ht
    · exact hg.slot w n t hn ht
  nodup := hg.nodup
  listed := by
    intro w l i hl
    rw [hg.listed w l i hl]
    by_cases hi : i = u
    · subst hi; simp [newUnit, hu]
    · simp [newUnit, hi]

theorem newTechnique_registered {t u : ℕ} (ht : g.owners t = none) :
    (g.newTechnique t u).Registered where
  slot := by
    intro w n i hn hi
    have ho := hg.slot w n i hn hi
    have hit : i ≠ t := by rintro rfl; rw [ht] at ho; cases ho
    simpa [newTechnique, hit] using ho
  nodup := hg.nodup
  listed := hg.listed

theorem joinUnit_registered {u : ℕ} {n : Node} (hn : g.nodes u = some n)
    (hj : n.joined = false) : (g.joinUnit u n.owner).Registered where
  slot := by
    intro w m t hm ht
    by_cases hw : w = u
    · subst hw
      simp only [joinUnit, Arena.modify_self, hn, Option.map_some, Option.some.injEq] at hm
      subst hm
      exact hg.slot w n t hn ht
    · exact hg.slot w m t (by simpa [joinUnit, hw] using hm) ht
  nodup := by
    intro w l hl
    by_cases hw : w = n.owner
    · subst hw
      simp only [joinUnit, Arena.modify_self, Option.map_eq_some_iff] at hl
      obtain ⟨l₀, hl₀, rfl⟩ := hl
      refine List.nodup_append.mpr ⟨hg.nodup _ l₀ hl₀, List.pairwise_singleton _ _, ?_⟩
      rintro i hi j hju rfl
      obtain ⟨m, hm, -, hmj⟩ := (hg.listed _ l₀ i hl₀).mp hi
      rw [List.mem_singleton.mp hju, hn, Option.some.injEq] at hm
      subst hm
      rw [hj] at hmj
      cases hmj
    · exact hg.nodup w l (by simpa [joinUnit, hw] using hl)
  listed := by
    intro w l i hl
    by_cases hw : w = n.owner
    · subst hw
      simp only [joinUnit, Arena.modify_self, Option.map_eq_some_iff] at hl
      obtain ⟨l₀, hl₀, rfl⟩ := hl
      rw [List.mem_append, hg.listed _ l₀ i hl₀, List.mem_singleton]
      by_cases hi : i = u
      · subst hi; simp [joinUnit, hn]
      · simp [joinUnit, hi]
    · rw [hg.listed w l i (by simpa [joinUnit, hw] using hl)]
      by_cases hi : i = u
      · subst hi
        simp [joinUnit, hn, Ne.symm hw]
      · simp [joinUnit, hi]

theorem joinTechnique_registered {t u : ℕ} (ht : g.owners t = some u) :
    (g.joinTechnique t u).Registered where
  slot := by
    intro w m i hm hi
    by_cases hw : w = u
    · subst hw
      simp only [joinTechnique, Arena.modify_self, Option.map_eq_some_iff] at hm
      obtain ⟨m₀, -, rfl⟩ := hm
      cases hi
      exact ht
    · exact hg.slot w m i (by simpa [joinTechnique, hw] using hm) hi
  nodup := hg.nodup
  listed := by
    intro w l i hl
    rw [hg.listed w l i hl]
    by_cases hi : i = u
    · subst hi; simp [joinTechnique]
    · simp [joinTechnique, hi]

theorem dropTechnique_registered {t u : ℕ} (ht : g.owners t = some u) :
    (g.dropTechnique t u).Registered where
  slot := by
    intro w m i hm hi
    by_cases hw : w = u
    · subst hw
      simp only [dropTechnique, Arena.modify_self, Option.map_eq_some_iff] at hm
      obtain ⟨m₀, -, rfl⟩ := hm
      cases hi
    · have hm₀ : g.nodes w = some m := by simpa [dropTechnique, hw] using hm
      have ho := hg.slot w m i hm₀ hi
      have hit : i ≠ t := by
        rintro rfl
        rw [ht, Option.some.injEq] at ho
        exact hw ho.symm
      simpa [dropTechnique, hit] using ho
  nodup := hg.nodup
  listed := by
    intro w l i hl
    rw [hg.listed w l i hl]
    by_cases hi : i = u
    · subst hi; simp [dropTechnique]
    · simp [dropTechnique, hi]

theorem dropUnit_registered {u : ℕ} {n : Node} (hn : g.nodes u = some n) :
    (g.dropUnit u n).Registered where
  slot := by
    intro w m i hm hi
    have hw : w ≠ u := by rintro rfl; simp [dropUnit] at hm
    have hm₀ : g.nodes w = some m := by simpa [dropUnit, hw] using hm
    have ho := hg.slot w m i hm₀ hi
    have hne : n.slot ≠ some i := by
      intro hs
      have := hg.slot u n i hn hs
      rw [ho, Option.some.injEq] at this
      exact hw this
    simpa [dropUnit, hne] using ho
  nodup := by
    intro w l hl
    by_cases hw : w = n.owner
    · subst hw
      simp only [dropUnit, Arena.modify_self, Option.map_eq_some_iff] at hl
      obtain ⟨l₀, hl₀, rfl⟩ := hl
      exact (hg.nodup _ l₀ hl₀).filter _
    · exact hg.nodup w l (by simpa [dropUnit, hw] using hl)
  listed := by
    intro w l i hl
    by_cases hw : w = n.owner
    · subst hw
      simp only [dropUnit, Arena.modify_self, Option.map_eq_some_iff] at hl
      obtain ⟨l₀, hl₀, rfl⟩ := hl
      rw [List.mem_filter, hg.listed _ l₀ i hl₀]
      by_cases hi : i = u
      · subst hi; simp [dropUnit]
      · simp [dropUnit, hi]
    · rw [hg.listed w l i (by simpa [dropUnit, hw] using hl)]
      by_cases hi : i = u
      · subst hi
        simp [dropUnit, hn, Ne.symm hw]
      · simp [dropUnit, hi]

theorem dropObject_registered {v : ℕ} {l : List ℕ} (hl : g.lists v = some l) :
    (g.dropObject v l).Registered where
  slot := by
    intro w m i hm hi
    simp only [dropObject, Option.ite_none_left_eq_some] at hm ⊢
    have ho := hg.slot w m i hm.2 hi
    refine ⟨fun hs => ?_, ho⟩
    obtain ⟨u, hu, n, hn, hns⟩ := mem_slots.mp hs
    have := hg.slot u n i hn hns
    rw [ho, Option.some.injEq] at this
    exact hm.1 (this ▸ hu)
  nodup := by
    intro w k hk
    by_cases hw : w = v
    · subst hw; simp [dropObject] at hk
    · exact hg.nodup w k (by simpa [dropObject, hw] using hk)
  listed := by
    intro w k i hk
    have hw : w ≠ v := by rintro rfl; simp [dropObject] at hk
    have hk₀ : g.lists w = some k := by simpa [dropObject, hw] using hk
    rw [hg.listed w k i hk₀]
    simp only [dropObject, Option.ite_none_left_eq_some]
    constructor
    · rintro ⟨n, hn, ho, hj⟩
      refine ⟨n, ⟨fun hi => ?_, hn⟩, ho, hj⟩
      obtain ⟨m, hm, hmo, -⟩ := (hg.listed v l i hl).mp hi
      rw [hn, Option.some.injEq] at hm
      subst hm
      exact hw (ho.symm.trans hmo)
    · rintro ⟨n, ⟨-, hn⟩, ho, hj⟩
      exact ⟨n, hn, ho, hj⟩

/-- An object may go exactly when all its units have joined, and hold all their techniques. -/
theorem dropObject_rooted_iff (hr : g.Rooted) {v : ℕ} {l : List ℕ} (hl : g.lists v = some l) :
    (g.dropObject v l).Rooted ↔
      ∀ u n, g.nodes u = some n → n.owner = v → n.joined = true ∧ g.SlotHolds u := by
  constructor
  · intro h u n hn ho
    have hu : u ∈ l := by
      by_contra hu
      have := h.units u n (by simp [dropObject, hu, hn])
      simp [dropObject, ho] at this
    refine ⟨?_, fun t m ht hm => ?_⟩
    · obtain ⟨m, hm, -, hj⟩ := (hg.listed v l u hl).mp hu
      rw [hn, Option.some.injEq] at hm
      exact hm ▸ hj
    · by_contra hs
      have hts : t ∉ g.slots l := by
        intro hts
        obtain ⟨w, -, k, hk, hks⟩ := mem_slots.mp hts
        have := hg.slot w k t hk hks
        rw [ht, Option.some.injEq] at this
        subst this
        rw [hm, Option.some.injEq] at hk
        exact hs (hk ▸ hks)
      have := h.techniques t u (by simp [dropObject, hts, ht])
      simp [dropObject, hu] at this
  · intro hc
    refine ⟨fun u n hn => ?_, fun t u ht => ?_⟩
    · simp only [dropObject, Option.ite_none_left_eq_some] at hn
      have ho : n.owner ≠ v := by
        intro ho
        exact hn.1 ((hg.listed v l u hl).mpr ⟨n, hn.2, ho, (hc u n hn.2 ho).1⟩)
      simpa [dropObject, ho] using hr.units u n hn.2
    · simp only [dropObject, Option.ite_none_left_eq_some] at ht
      have hu : u ∉ l := by
        intro hu
        obtain ⟨n, hn, ho, -⟩ := (hg.listed v l u hl).mp hu
        exact ht.1 (mem_slots.mpr ⟨u, hu, n, hn, (hc u n hn ho).2 t n ht.2 hn⟩)
      simpa [dropObject, hu] using hr.techniques t u ht.2

end Registered

section Rooted
variable {g : Forest} (hr : g.Rooted)
include hr

theorem newObject_rooted (v : ℕ) : (g.newObject v).Rooted where
  units := by
    intro u n hn
    have := hr.units u n hn
    simp only [newObject, Arena.set_apply]
    split
    · rfl
    · exact this
  techniques := hr.techniques

theorem newUnit_rooted {u v : ℕ} (hv : (g.lists v).isSome) : (g.newUnit u v).Rooted where
  units := by
    intro w n hn
    simp only [newUnit, Arena.set_apply] at hn
    split at hn
    · cases hn; exact hv
    · exact hr.units w n hn
  techniques := by
    intro t w ht
    have := hr.techniques t w ht
    simp only [newUnit, Arena.set_apply]
    split
    · rfl
    · exact this

theorem newTechnique_rooted {t u : ℕ} (hu : (g.nodes u).isSome) :
    (g.newTechnique t u).Rooted where
  units := hr.units
  techniques := by
    intro i w hi
    simp only [newTechnique, Arena.set_apply] at hi
    split at hi
    · cases hi; exact hu
    · exact hr.techniques i w hi

theorem joinUnit_rooted (u v : ℕ) : (g.joinUnit u v).Rooted where
  units := by
    intro w n hn
    simp only [joinUnit, Arena.modify_isSome]
    simp only [joinUnit, Arena.modify_apply] at hn
    split at hn
    · obtain ⟨m, hm, rfl⟩ := Option.map_eq_some_iff.mp hn
      exact hr.units w m hm
    · exact hr.units w n hn
  techniques := fun t w ht => by simpa [joinUnit] using hr.techniques t w ht

theorem joinTechnique_rooted (t u : ℕ) : (g.joinTechnique t u).Rooted where
  units := by
    intro w n hn
    simp only [joinTechnique, Arena.modify_apply] at hn
    split at hn
    · obtain ⟨m, hm, rfl⟩ := Option.map_eq_some_iff.mp hn
      exact hr.units w m hm
    · exact hr.units w n hn
  techniques := fun t w ht => by simpa [joinTechnique] using hr.techniques t w ht

theorem dropTechnique_rooted (t u : ℕ) : (g.dropTechnique t u).Rooted where
  units := by
    intro w n hn
    simp only [dropTechnique, Arena.modify_apply] at hn
    split at hn
    · obtain ⟨m, hm, rfl⟩ := Option.map_eq_some_iff.mp hn
      exact hr.units w m hm
    · exact hr.units w n hn
  techniques := by
    intro i w hi
    have hit : i ≠ t := by rintro rfl; simp [dropTechnique] at hi
    simpa [dropTechnique] using hr.techniques i w (by simpa [dropTechnique, hit] using hi)

/-- A unit may go exactly when all its techniques go with it. -/
theorem dropUnit_rooted_iff {u : ℕ} {n : Node} (hn : g.nodes u = some n) :
    (g.dropUnit u n).Rooted ↔ g.SlotHolds u := by
  constructor
  · intro h t m ht hm
    rw [hn, Option.some.injEq] at hm
    subst hm
    by_contra hs
    have := h.techniques t u (by simpa [dropUnit, hs] using ht)
    simp [dropUnit] at this
  · intro hs
    refine ⟨fun w m hm => ?_, fun t w ht => ?_⟩
    · have hw : w ≠ u := by rintro rfl; simp [dropUnit] at hm
      have := hr.units w m (by simpa [dropUnit, hw] using hm)
      simpa [dropUnit] using this
    · simp only [dropUnit, Option.ite_none_left_eq_some] at ht
      have hw : w ≠ u := by
        rintro rfl
        exact ht.1 (hs t n ht.2 hn)
      simpa [dropUnit, hw] using hr.techniques t w ht.2

end Rooted
end Forest
end Yaza
