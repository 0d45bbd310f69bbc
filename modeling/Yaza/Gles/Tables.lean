import Mathlib.Data.List.Nodup
import Yaza.Gles.Objects

/-! The maps of the source: what is found in them after assignments and after a merge. -/
namespace Yaza
namespace Table
variable {α : Type} {m : Table α} {k : UInt32} {v : α}

theorem mem_insertOrAssign {e : UInt32 × α} (h : e ∈ m.insertOrAssign k v) :
    e ∈ m ∨ e = (k, v) := by
  unfold insertOrAssign at h
  split at h
  · obtain ⟨d, hd, rfl⟩ := List.mem_map.mp h
    split
    · exact .inr rfl
    · exact .inl hd
  · simpa using h

theorem mem_of_find? (h : m.find? k = some v) : ∃ e ∈ m, e.2 = v := by
  obtain ⟨e, he, rfl⟩ := Option.map_eq_some_iff.mp h
  exact ⟨e, List.mem_of_find?_eq_some he, rfl⟩

@[simp] theorem find?_nil (k : UInt32) : find? ([] : Table α) k = none := rfl

theorem find?_cons (e : UInt32 × α) (m : Table α) (k : UInt32) :
    find? (e :: m) k = if e.1 = k then some e.2 else m.find? k := by
  unfold find?
  rw [List.find?_cons]
  by_cases h : e.1 = k <;> simp [h]

theorem find?_replace (m : Table α) (k : UInt32) (v : α) (q : UInt32) :
    find? (m.map fun e => if e.1 = k then (k, v) else e) q =
      if q = k then (m.find? k).map fun _ => v else m.find? q := by
  induction m with
  | nil => simp
  | cons e m ih =>
    rw [List.map_cons, find?_cons, find?_cons, find?_cons, ih]
    by_cases he : e.1 = k
    · subst he
      by_cases hq : q = e.1
      · simp [hq]
      · simp [hq, Ne.symm hq]
    · by_cases hq : q = k
      · subst hq
        simp [he]
      · simp [he, hq]

theorem find?_append (m : Table α) (k : UInt32) (v : α) (q : UInt32) :
    find? (m ++ [(k, v)]) q = (m.find? q).or (if k = q then some v else none) := by
  induction m with
  | nil => simp [find?_cons]
  | cons e m ih =>
    rw [List.cons_append, find?_cons, find?_cons, ih]
    split <;> rfl

theorem find?_isSome (m : Table α) (k : UInt32) :
    (m.find? k).isSome = m.any fun e => e.1 = k := by
  rw [Bool.eq_iff_iff, find?, Option.isSome_map, List.find?_isSome, List.any_eq_true]

/-- Assigning changes what is found under one key. -/
theorem find?_insertOrAssign (m : Table α) (k : UInt32) (v : α) (q : UInt32) :
    (m.insertOrAssign k v).find? q = if q = k then some v else m.find? q := by
  unfold insertOrAssign
  rw [← find?_isSome]
  split
  · next h =>
    obtain ⟨v', hv⟩ := Option.isSome_iff_exists.mp h
    rw [find?_replace, hv]
    rfl
  · next h =>
    have h : m.find? k = none := by simpa using h
    rw [find?_append]
    by_cases hq : q = k
    · subst hq
      simp [h]
    · simp [hq, Ne.symm hq]

/-- A key occurs at most once. -/
def Distinct (m : Table α) : Prop := (m.map Prod.fst).Nodup

theorem Distinct.insertOrAssign (h : m.Distinct) (k : UInt32) (v : α) :
    (m.insertOrAssign k v).Distinct := by
  unfold Table.insertOrAssign Distinct
  split
  · have h1 : (m.map fun e => if e.1 = k then (k, v) else e).map Prod.fst = m.map Prod.fst := by
      rw [List.map_map]
      apply List.map_congr_left
      intro e _
      by_cases he : e.1 = k <;> simp [he]
    rw [h1]
    exact h
  · next hk =>
    rw [List.map_append, List.map_singleton, List.nodup_append]
    refine ⟨h, List.nodup_singleton k, fun a ha b hb hab => hk ?_⟩
    obtain ⟨e, he, rfl⟩ := List.mem_map.mp ha
    simp only [List.mem_singleton] at hb
    exact List.any_eq_true.mpr ⟨e, he, by simp [hab, hb]⟩

/-- All entries of one map are assigned in another one. -/
def merge (m p : Table α) : Table α := p.foldl (fun m e => m.insertOrAssign e.1 e.2) m

theorem Distinct.merge (h : m.Distinct) (p : Table α) : (m.merge p).Distinct := by
  unfold Table.merge
  induction p generalizing m with
  | nil => exact h
  | cons e p ih => exact ih (h.insertOrAssign e.1 e.2)

theorem mem_merge {p : Table α} {e : UInt32 × α} (h : e ∈ m.merge p) : e ∈ m ∨ e ∈ p := by
  unfold merge at h
  induction p generalizing m with
  | nil => exact .inl h
  | cons d p ih =>
    rcases ih h with h | h
    · rcases mem_insertOrAssign h with h | rfl
      · exact .inl h
      · exact .inr List.mem_cons_self
    · exact .inr (List.mem_cons_of_mem d h)

theorem find?_eq_none_of_not_mem (h : k ∉ m.map Prod.fst) : m.find? k = none := by
  induction m with
  | nil => rfl
  | cons e m ih =>
    simp only [List.map_cons, List.mem_cons, not_or] at h
    rw [find?_cons, if_neg (Ne.symm h.1), ih h.2]

/-- After a merge the new entries are found, and the old ones under the other keys. -/
theorem find?_merge {p : Table α} (hp : p.Distinct) (m : Table α) (q : UInt32) :
    (m.merge p).find? q = (p.find? q).or (m.find? q) := by
  induction p generalizing m with
  | nil => rfl
  | cons e p ih =>
    obtain ⟨he, hp⟩ := List.nodup_cons.mp hp
    have h1 : m.merge (e :: p) = (m.insertOrAssign e.1 e.2).merge p := rfl
    rw [h1, ih hp, find?_insertOrAssign, find?_cons]
    by_cases hq : e.1 = q
    · subst hq
      rw [find?_eq_none_of_not_mem he]
      simp
    · simp [hq, Ne.symm hq]

end Table
end Yaza
