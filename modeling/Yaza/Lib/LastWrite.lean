import Mathlib.Data.List.Induction
import Mathlib.Tactic.Common

/-! The last write wins: what a list of entries holds when a new entry drops the old ones it
replaces. -/
namespace LastWrite
variable {α : Type*}

/-- A new entry goes to the end, and the entries it replaces are dropped. -/
def insert (drops : α → α → Bool) (l : List α) (v : α) : List α :=
  l.filter (fun c => !drops v c) ++ [v]

variable {drops : α → α → Bool} {P : α → Bool}

theorem mem_insert {l : List α} {v w : α} (h : w ∈ insert drops l v) : w ∈ l ∨ w = v := by
  rw [insert, List.mem_append, List.mem_singleton] at h
  exact h.imp_left fun h => (List.mem_filter.mp h).1

/-- Every entry was there or was written. -/
theorem mem_foldl_insert {l vs : List α} {w : α} (h : w ∈ vs.foldl (insert drops) l) :
    w ∈ l ∨ w ∈ vs := by
  induction vs generalizing l with
  | nil => exact .inl h
  | cons v vs ih =>
    rw [List.mem_cons]
    rcases ih h with h1 | h1
    · exact (mem_insert h1).imp_right .inl
    · exact .inr (.inr h1)

/-- Where new entries replace all old ones with property `P`, the last one remains. -/
theorem filter_insert_of_drops (hd : ∀ v c, P c → drops v c = P v) (l vs : List α) :
    (vs.foldl (insert drops) l).filter P =
      match (vs.filter P).getLast? with
      | none => l.filter P
      | some v => [v] := by
  induction vs using List.reverseRecOn with
  | nil => rfl
  | append_singleton vs v ih =>
    rw [List.foldl_append, List.foldl_cons, List.foldl_nil, insert, List.filter_append,
      List.filter_filter, List.filter_append]
    by_cases hv : P v
    · have hn : ∀ c, (P c && !drops v c) = false := by
        intro c
        cases hc : P c
        · rfl
        · simp [hd v c hc, hv]
      simp [hn, hv]
    · have hs : ∀ c, (P c && !drops v c) = P c := by
        intro c
        cases hc : P c
        · rfl
        · simp [hd v c hc, hv]
      simp [hs, hv, ih]

/-- Where new entries replace no old one with property `P`, all remain, in order. -/
theorem filter_insert_of_keeps (hd : ∀ v c, P c → drops v c = false) (l vs : List α) :
    (vs.foldl (insert drops) l).filter P = l.filter P ++ vs.filter P := by
  induction vs using List.reverseRecOn with
  | nil => simp
  | append_singleton vs v ih =>
    have hs : ∀ c, (P c && !drops v c) = P c := by
      intro c
      cases hc : P c
      · rfl
      · simp [hd v c hc]
    rw [List.foldl_append, List.foldl_cons, List.foldl_nil, insert, List.filter_append,
      List.filter_filter, List.filter_append]
    simp [hs, ih, List.append_assoc]

section Standing
variable {β : Type*} [DecidableEq β] (key : α → β)

/-- The entries of a log that no later entry of the same key replaces. -/
def standing : List α → List α
  | [] => []
  | v :: l => if ∃ w ∈ l, key w = key v then standing l else v :: standing l

theorem standing_sublist (l : List α) : (standing key l).Sublist l := by
  induction l with
  | nil => exact .slnil
  | cons v l ih =>
    rw [standing]
    split
    · exact ih.cons v
    · exact ih.cons_cons v

/-- Each key stands once. -/
theorem standing_pairwise (l : List α) : (standing key l).Pairwise fun v w => key v ≠ key w := by
  induction l with
  | nil => exact .nil
  | cons v l ih =>
    rw [standing]
    split
    · exact ih
    · next h =>
      refine .cons (fun w hw he => h ⟨w, (standing_sublist key l).subset hw, he.symm⟩) ih

theorem standing_concat (l : List α) (v : α) :
    standing key (l ++ [v]) = (standing key l).filter (fun w => key w ≠ key v) ++ [v] := by
  induction l with
  | nil => simp [standing]
  | cons u l ih =>
    rw [List.cons_append, standing, standing, ih]
    by_cases hu : key v = key u
    · rw [if_pos ⟨v, by simp, hu⟩]
      split
      · rfl
      · rw [List.filter_cons_of_neg (by simp [hu])]
    · have he : (∃ w ∈ l ++ [v], key w = key u) ↔ ∃ w ∈ l, key w = key u := by
        simp [or_and_right, exists_or, hu]
      simp only [he]
      split
      · rfl
      · rw [List.filter_cons_of_pos (by simpa using Ne.symm hu), List.cons_append]

/-- What stands of a key is the last entry with it. -/
theorem standing_filter (l : List α) (k : β) :
    (standing key l).filter (fun v => key v = k) =
      ((l.filter fun v => key v = k).getLast?).toList := by
  induction l using List.reverseRecOn with
  | nil => rfl
  | append_singleton l v ih =>
    rw [standing_concat, List.filter_append, List.filter_filter, List.filter_append]
    by_cases hv : key v = k
    · simp [hv]
    · have hs : ∀ w, (decide (key w = k) && decide (key w ≠ key v)) = decide (key w = k) := by
        intro w
        by_cases hw : key w = k
        · simp [hw, Ne.symm hv]
        · simp [hw]
      simp only [hs, ih]
      simp [hv]

end Standing

section Latest
variable {β : Type*} [DecidableEq β] (key : α → β)

/-- The last entry of a log with the key. -/
def latest (l : List α) (k : β) : Option α := (l.filter fun v => key v = k).getLast?

variable {key} {l l' : List α} {k : β} {v : α}

theorem latest_append : latest key (l ++ l') k = (latest key l' k).or (latest key l k) := by
  rw [latest, List.filter_append, List.getLast?_append]
  rfl

theorem latest_singleton : latest key [v] k = if key v = k then some v else none := by
  by_cases h : key v = k <;> simp [latest, h]

theorem latest_eq_none : latest key l k = none ↔ ∀ v ∈ l, key v ≠ k := by
  simp [latest]

theorem mem_of_latest (h : latest key l k = some v) : v ∈ l ∧ key v = k := by
  have h1 := List.mem_filter.mp (List.mem_of_getLast? h)
  exact ⟨h1.1, by simpa using h1.2⟩

/-- Of several logs only one has entries of the key. -/
theorem latest_flatMap {ι : Type*} {g : ι → List α} {is : List ι} {i : ι} (hi : i ∈ is)
    (ho : ∀ j ∈ is, j ≠ i → latest key (g j) k = none) :
    latest key (is.flatMap g) k = latest key (g i) k := by
  classical
  induction is with
  | nil => cases hi
  | cons j is ih =>
    rw [List.flatMap_cons, latest_append]
    by_cases hm : i ∈ is
    · rw [ih hm fun j' hj' => ho j' (List.mem_cons_of_mem j hj')]
      by_cases hj : j = i
      · rw [hj, Option.or_self]
      · rw [ho j List.mem_cons_self hj, Option.or_none]
    · have hn : latest key (is.flatMap g) k = none := by
        rw [latest_eq_none]
        intro v hv
        obtain ⟨j', hj', hv⟩ := List.mem_flatMap.mp hv
        have hne : j' ≠ i := fun h => hm (h ▸ hj')
        exact latest_eq_none.mp (ho j' (List.mem_cons_of_mem j hj') hne) v hv
      rcases List.mem_cons.mp hi with rfl | h
      · rw [hn, Option.none_or]
      · exact absurd h hm

/-- What stands of a log is the last entry of each key. -/
theorem mem_standing_iff : v ∈ standing key l ↔ latest key l (key v) = some v := by
  have h1 : v ∈ standing key l ↔ v ∈ (standing key l).filter fun w => key w = key v := by
    simp [List.mem_filter]
  rw [h1, standing_filter, Option.mem_toList]
  exact Iff.rfl

/-- Entries that are left out come before. -/
theorem latest_filter {P : α → Bool} (h : latest key l k = some v) (hv : P v) :
    latest key (l.filter P) k = some v := by
  obtain ⟨l', hl⟩ := List.getLast?_eq_some_iff.mp h
  have hc : (l.filter P).filter (fun w => key w = k) =
      (l.filter fun w => key w = k).filter P := by
    simp only [List.filter_filter, Bool.and_comm]
  rw [latest, hc, hl, List.filter_append]
  simp [hv]

/-- Entries of one key are left out all or not at all. -/
theorem latest_filter_iff {P : α → Bool} (h : ∀ v ∈ l, ∀ w ∈ l, key v = key w → P v → P w) :
    latest key (l.filter P) k = some v ↔ latest key l k = some v ∧ P v := by
  constructor
  · intro hv
    obtain ⟨hm, rfl⟩ := mem_of_latest hv
    obtain ⟨hm, hp⟩ := List.mem_filter.mp hm
    cases hw : latest key l (key v) with
    | none => exact absurd rfl (latest_eq_none.mp hw v hm)
    | some w =>
      obtain ⟨hwm, hk⟩ := mem_of_latest hw
      have h1 := latest_filter hw (h v hm w hwm hk.symm hp)
      exact ⟨h1.symm.trans hv, hp⟩
  · rintro ⟨hv, hp⟩
    exact latest_filter hv hp

/-- The last entry of a log that is kept in code. -/
theorem latest_encode {γ δ : Type*} [DecidableEq δ] {key' : γ → δ} {k' : δ} {f : α → Option γ}
    {m : List γ} (h : m.map some = l.map f)
    (hk : ∀ v ∈ l, ∀ c, f v = some c → (key' c = k' ↔ key v = k)) :
    latest key' m k' = (latest key l k).bind f := by
  induction l using List.reverseRecOn generalizing m with
  | nil =>
    cases m with
    | nil => rfl
    | cons c m => simp at h
  | append_singleton l v ih =>
    induction m using List.reverseRecOn with
    | nil => simp at h
    | append_singleton m c _ =>
      simp only [List.map_append, List.map_cons, List.map_nil] at h
      obtain ⟨h1, h2⟩ := List.append_inj' h rfl
      have hc : f v = some c := (List.cons.inj h2).1.symm
      have hm := ih h1 fun w hw => hk w (List.mem_append_left _ hw)
      have hv := hk v (by simp) c hc
      rw [latest_append, latest_append, hm]
      by_cases he : key v = k
      · simp [latest, he, hv.mpr he, hc]
      · simp [latest, he, mt hv.mp he]

theorem latest_map {γ δ : Type*} [DecidableEq δ] {key' : γ → δ} {k' : δ} {f : α → γ}
    (hk : ∀ v ∈ l, (key' (f v) = k' ↔ key v = k)) :
    latest key' (l.map f) k' = (latest key l k).map f := by
  have h : latest key' (l.map f) k' = (latest key l k).bind fun v => some (f v) := by
    apply latest_encode (by rw [List.map_map]; rfl)
    intro v hv c hc
    cases hc
    exact hk v hv
  rw [h]
  cases latest key l k <;> rfl

end Latest
end LastWrite
