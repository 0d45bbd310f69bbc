import Yaza.Lib.Links

/-! Links whose two pointers agree everywhere. Their nodes form rings; what happens in one of them
leaves the others alone, also those that have lost their head. -/
namespace Links
variable {ν : Type*} {m m' : Links ν} {a b e h p n x y : ν} {l : List ν}

/-- `b` comes behind `a` exactly if `a` comes in front of `b`. -/
def Coherent (m : Links ν) : Prop := ∀ a b, m.next a = some b ↔ m.prev b = some a

/-- The node is in no list, or in one of its own. -/
def Alone (m : Links ν) (e : ν) : Prop := ∀ x, m.next e = some x ∨ m.prev e = some x → x = e

theorem Segment.next_mem (hs : m.Segment a l b) (hx : x ∈ a :: l) (hn : m.next x = some y) :
    y ∈ l ++ [b] := by
  induction l generalizing a with
  | nil =>
    rw [List.mem_singleton] at hx
    subst hx
    have h1 := hs.1.symm.trans hn
    simpa using (Option.some.inj h1).symm
  | cons c l ih =>
    rcases List.mem_cons.mp hx with rfl | hx
    · have h1 := hs.1.1.symm.trans hn
      simp [Option.some.inj h1]
    · exact List.mem_cons_of_mem c (ih hs.2 hx)

theorem Segment.prev_mem (hs : m.Segment a l b) (hx : x ∈ l ++ [b]) (hp : m.prev x = some y) :
    y ∈ a :: l := by
  induction l generalizing a with
  | nil =>
    rw [List.nil_append, List.mem_singleton] at hx
    subst hx
    have h1 := hs.2.symm.trans hp
    simpa using (Option.some.inj h1).symm
  | cons c l ih =>
    rcases List.mem_cons.mp hx with rfl | hx
    · have h1 := hs.1.2.symm.trans hp
      simp [Option.some.inj h1]
    · exact List.mem_cons_of_mem a (ih hs.2 hx)

section Circular
variable (hl : m.Circular h l)
include hl

/-- A ring is closed under its pointers. -/
theorem Circular.next_mem (hx : x ∈ h :: l) (hn : m.next x = some y) : y ∈ h :: l := by
  have h1 := hl.segment.next_mem hx hn
  simpa [or_comm] using h1

theorem Circular.prev_mem (hx : x ∈ h :: l) (hp : m.prev x = some y) : y ∈ h :: l := by
  refine hl.segment.prev_mem ?_ hp
  simpa [or_comm] using hx

theorem Circular.next_isSome (hx : x ∈ h :: l) : (m.next x).isSome := by
  rcases List.mem_cons.mp hx with rfl | hx
  · rw [hl.segment.first.1]
    rfl
  · obtain ⟨l₁, l₂, rfl⟩ := List.append_of_mem hx
    rw [(segment_append.mp hl.segment).2.first.1]
    rfl

/-- A node in a list of its own is in no other list. -/
theorem Circular.not_mem_of_alone (he : m.Alone e) (hne : e ≠ h) : e ∉ h :: l := by
  intro hm
  obtain ⟨l₁, l₂, rfl⟩ := List.append_of_mem ((List.mem_cons.mp hm).resolve_left hne)
  have hd : (h :: l₁ ++ e :: l₂).Nodup := hl.nodup
  have hn := he _ (.inl (segment_append.mp hl.segment).2.first.1)
  cases l₂ with
  | nil => exact hne hn.symm
  | cons c l₂ =>
    rw [List.headD_cons] at hn
    subst hn
    exact (List.nodup_cons.mp (List.nodup_append.mp hd).2.1).1 List.mem_cons_self

end Circular

theorem alone_of_none (hn : m.next e = none) (hp : m.prev e = none) : m.Alone e := by
  intro x hx
  rw [hn, hp] at hx
  rcases hx with hx | hx <;> cases hx

theorem insert_agrees [DecidableEq ν] (hn : m.next p = some n)
    (hm : m.insert p e = some m') : m.Agrees m' [p, e, n] := by
  rw [Links.insert, hn, Option.map_some] at hm
  cases hm
  intro x hx
  simp only [List.mem_cons, List.not_mem_nil, or_false, not_or] at hx
  simp [hx.1, hx.2.1, hx.2.2]

section Coherent
variable (hc : m.Coherent)
include hc

theorem Coherent.alone (he : m.next e = some e) : m.Alone e := by
  intro x hx
  rw [he, (hc e e).mp he] at hx
  rcases hx with hx | hx <;> exact (Option.some.inj hx).symm

/-- Nothing else is linked to a node in a list of its own. -/
theorem Coherent.eq_of_next (he : m.Alone e) (hx : m.next x = some e) : x = e :=
  he x (.inr ((hc x e).mp hx))

theorem Coherent.eq_of_prev (he : m.Alone e) (hx : m.prev x = some e) : x = e :=
  he x (.inl ((hc e x).mpr hx))

theorem Coherent.ne_of_next (he : m.Alone e) (hn : m.next p = some n) (hne : p ≠ e) : n ≠ e := by
  rintro rfl
  exact hne (hc.eq_of_next he hn)

variable [DecidableEq ν]

theorem Coherent.init (he : m.Alone e) : (m.init e).Coherent := by
  intro a b
  simp only [Links.init, Function.update_apply]
  split <;> split
  · next ha hb => simp [ha, hb]
  · next ha hb =>
    subst ha
    refine ⟨fun h => absurd (Option.some.inj h).symm hb, fun h => ?_⟩
    exact absurd (hc.eq_of_prev he h) hb
  · next ha hb =>
    subst hb
    refine ⟨fun h => absurd (hc.eq_of_next he h) ha, fun h => ?_⟩
    exact absurd (Option.some.inj h).symm ha
  · exact hc a b

theorem Coherent.free (he : m.Alone e) : (m.free e).Coherent := by
  intro a b
  simp only [Links.free, Function.update_apply]
  split <;> split
  · simp
  · next ha hb =>
    subst ha
    refine ⟨fun h => (by cases h), fun h => absurd (hc.eq_of_prev he h) hb⟩
  · next ha hb =>
    subst hb
    refine ⟨fun h => absurd (hc.eq_of_next he h) ha, fun h => by cases h⟩
  · exact hc a b

theorem Coherent.bypass (hp : m.prev e = some p) (hn : m.next e = some n) :
    (m.bypass p e n).Coherent := by
  have hpe := (hc p e).mpr hp
  have hen := (hc e n).mp hn
  intro a b
  simp only [Links.bypass, Function.update_apply]
  by_cases ha : a = e
  · subst ha
    rw [if_pos rfl]
    refine ⟨fun h => (by cases h), fun h => ?_⟩
    split at h
    · cases h
    · next hb =>
      split at h
      · next hbn =>
        -- the node in front of it is itself, so it is alone
        rw [Option.some.inj h, hn] at hpe
        exact absurd (hbn.trans (Option.some.inj hpe)) hb
      · next hbn =>
        rw [(hc a b).mpr h] at hn
        exact absurd (Option.some.inj hn) hbn
  rw [if_neg ha]
  by_cases hb : b = e
  · subst hb
    rw [if_pos rfl]
    refine ⟨fun h => ?_, fun h => by cases h⟩
    split at h
    · next hap =>
      rw [Option.some.inj h, hp] at hen
      exact absurd (hap.trans (Option.some.inj hen)) ha
    · next hap =>
      rw [(hc a b).mp h] at hp
      exact absurd (Option.some.inj hp) hap
  rw [if_neg hb]
  split <;> split
  · next hap hbn => simp [hap, hbn]
  · next hap hbn =>
    subst hap
    refine ⟨fun h => absurd (Option.some.inj h).symm hbn, fun h => ?_⟩
    rw [(hc a b).mpr h] at hpe
    exact absurd (Option.some.inj hpe) hb
  · next hap hbn =>
    subst hbn
    refine ⟨fun h => ?_, fun h => absurd (Option.some.inj h).symm hap⟩
    rw [(hc a b).mp h] at hen
    exact absurd (Option.some.inj hen) ha
  · exact hc a b

/-- The pointers agree where the node comes in. -/
theorem Coherent.of_insert (he : m.Alone e) (hn : m.next p = some n) (hne : p ≠ e)
    (hm : m.insert p e = some m') : m'.Coherent := by
  have hnp := (hc p n).mp hn
  have hnn := hc.ne_of_next he hn hne
  rw [Links.insert, hn, Option.map_some] at hm
  cases hm
  intro a b
  simp only [Function.update_apply]
  by_cases hap : a = p
  · subst hap
    rw [if_pos rfl]
    by_cases hbe : b = e
    · subst hbe
      simp [hnn.symm]
    · refine ⟨fun h => absurd (Option.some.inj h).symm hbe, fun h => ?_⟩
      rw [if_neg hbe] at h
      split at h
      · exact absurd (Option.some.inj h).symm hne
      · next hbn =>
        rw [(hc a b).mpr h] at hn
        exact absurd (Option.some.inj hn) hbn
  rw [if_neg hap]
  by_cases hae : a = e
  · subst hae
    rw [if_pos rfl]
    refine ⟨fun h => ?_, fun h => ?_⟩
    · rw [if_pos (Option.some.inj h).symm]
    · split at h
      · next hbn => rw [hbn]
      · next hbn =>
        split at h
        · exact absurd (Option.some.inj h).symm hap
        · next hbe => exact absurd (hc.eq_of_prev he h) hbe
  rw [if_neg hae]
  by_cases hbn : b = n
  · subst hbn
    rw [if_pos rfl]
    refine ⟨fun h => ?_, fun h => absurd (Option.some.inj h).symm hae⟩
    rw [(hc a b).mp h] at hnp
    exact absurd (Option.some.inj hnp) hap
  rw [if_neg hbn]
  split
  · next hbe =>
    subst hbe
    refine ⟨fun h => absurd (hc.eq_of_next he h) hae, fun h => ?_⟩
    exact absurd (Option.some.inj h).symm hap
  · exact hc a b

theorem Coherent.isSome_of_insert (he : m.Alone e) (hn : m.next p = some n) (hne : p ≠ e)
    (hm : m.insert p e = some m') :
    ∀ x, ((m'.next x).isSome ↔ x = e ∨ (m.next x).isSome) ∧
      ((m'.prev x).isSome ↔ x = e ∨ (m.prev x).isSome) := by
  have hnp := (hc p n).mp hn
  have hnn := hc.ne_of_next he hn hne
  rw [Links.insert, hn, Option.map_some] at hm
  cases hm
  intro x
  simp only [Function.update_apply]
  constructor
  · by_cases hxp : x = p
    · simp [hxp, hn]
    · by_cases hxe : x = e
      · simp [hxe, hne.symm]
      · simp [hxp, hxe]
  · by_cases hxn : x = n
    · simp [hxn, hnp]
    · by_cases hxe : x = e
      · simp [hxe, hnn.symm]
      · simp [hxn, hxe]

/-- A node in a list of its own comes behind another node. -/
theorem Coherent.insert (he : m.Alone e) (hn : m.next p = some n) (hne : p ≠ e) :
    ∃ m', m.insert p e = some m' ∧ m'.Coherent ∧ m.Agrees m' [p, e, n] ∧
      ∀ x, ((m'.next x).isSome ↔ x = e ∨ (m.next x).isSome) ∧
        ((m'.prev x).isSome ↔ x = e ∨ (m.prev x).isSome) := by
  obtain ⟨m', hm⟩ : ∃ m', m.insert p e = some m' := ⟨_, by rw [Links.insert, hn, Option.map_some]⟩
  refine ⟨m', hm, hc.of_insert he hn hne hm, insert_agrees hn hm, ?_⟩
  exact hc.isSome_of_insert he hn hne hm

/-- Only for a node in a list of its own do the pointers agree afterwards. -/
theorem Coherent.alone_of_insert (hm : m.insert p e = some m') (hc' : m'.Coherent)
    (hn : m.next p = some n) (hne : n ≠ e) {q : ν} (hq : m.prev e = some q) : q = e := by
  rw [Links.insert, hn, Option.map_some] at hm
  cases hm
  by_contra hqe
  have hnq := (hc q e).mpr hq
  have hqp : q ≠ p := by
    rintro rfl
    rw [hn] at hnq
    exact hne (Option.some.inj hnq)
  -- what was in front of the node still leads to it
  have h1 := (hc' q e).mp (by simp [hqp, hqe, hnq])
  simp [hne.symm] at h1
  exact hqp h1.symm

/-- A node is taken out of its ring, whether that has a head or not. -/
theorem Coherent.remove (hp : (m.prev e).isSome) (hn : (m.next e).isSome) :
    ∃ m', m.remove e = some m' ∧ m'.Coherent ∧ m'.Alone e ∧
      (∀ h l, h ≠ e → m.Circular h l → m'.Circular h (l.erase e)) ∧
      ∀ x, ((m'.next x).isSome ↔ x ≠ e ∧ (m.next x).isSome) ∧
        ((m'.prev x).isSome ↔ x ≠ e ∧ (m.prev x).isSome) := by
  obtain ⟨p, hp⟩ := Option.isSome_iff_exists.mp hp
  obtain ⟨n, hn⟩ := Option.isSome_iff_exists.mp hn
  have hpe := (hc p e).mpr hp
  have hen := (hc e n).mp hn
  refine ⟨_, remove_eq hp hn, hc.bypass hp hn, alone_of_none ?_ ?_, fun h l hne hl => ?_,
    fun x => ?_⟩
  · simp [Links.bypass]
  · simp [Links.bypass]
  · by_cases he : e ∈ l
    · obtain ⟨m', hm', hl', -⟩ := hl.remove he
      rw [remove_eq hp hn] at hm'
      cases hm'
      exact hl'
    · have he' : e ∉ h :: l := List.not_mem_cons_of_ne_of_not_mem hne.symm he
      rw [List.erase_of_not_mem he]
      refine hl.congr (bypass_agrees m p e n) fun x hx hm => ?_
      simp only [List.mem_cons, List.not_mem_nil, or_false] at hm
      rcases hm with rfl | rfl | rfl
      · exact he' (hl.next_mem hx hpe)
      · exact he' hx
      · exact he' (hl.prev_mem hx hen)
  · simp only [Links.bypass, Function.update_apply]
    by_cases hx : x = e
    · simp [hx]
    constructor
    · by_cases hxp : x = p
      · have h1 : p ≠ e := hxp ▸ hx
        simp [h1, hxp, hpe]
      · simp [hx, hxp]
    · by_cases hxn : x = n
      · have h1 : n ≠ e := hxn ▸ hx
        simp [h1, hxn, hen]
      · simp [hx, hxn]

/-- A node in a list of its own comes to the end of another list. -/
theorem Coherent.append (he : m.Alone e) (hl : m.Circular h l) (hne : h ≠ e) :
    ∃ m', m.append h e = some m' ∧ m'.Coherent ∧ m'.Circular h (l ++ [e]) ∧
      (∀ h' l', h' ≠ e → h ∉ h' :: l' → m.Circular h' l' → m'.Circular h' l') ∧
      ∀ x, ((m'.next x).isSome ↔ x = e ∨ (m.next x).isSome) ∧
        ((m'.prev x).isSome ↔ x = e ∨ (m.prev x).isSome) := by
  have hmem := hl.not_mem_of_alone he hne.symm
  obtain ⟨hn, hp⟩ := hl.segment.last
  have hpe : l.getLastD h ≠ e := fun h' => hmem (h' ▸ List.getLastD_mem_cons)
  obtain ⟨m', hm', hc', ha, hs⟩ := hc.insert he hn hpe
  have happ : m.append h e = some m' := by rw [Links.append, hp, Option.bind_some, hm']
  obtain ⟨m'', hm'', hl'', -⟩ := hl.append hmem
  rw [happ] at hm''
  cases hm''
  refine ⟨m', happ, hc', hl'', fun h' l' hne' hh hl' => ?_, hs⟩
  refine hl'.congr ha fun x hx hm => ?_
  simp only [List.mem_cons, List.not_mem_nil, or_false] at hm
  rcases hm with rfl | rfl | rfl
  · exact hh (hl'.next_mem hx hn)
  · exact hl'.not_mem_of_alone he hne'.symm hx
  · exact hh hx

end Coherent

/-- The links of the nodes that are `live`, and of no others. -/
structure Ringed (m : Links ν) (live : ν → Prop) : Prop where
  coherent : m.Coherent
  next : ∀ x, (m.next x).isSome ↔ live x
  prev : ∀ x, (m.prev x).isSome ↔ live x

section Ringed
variable {live : ν → Prop} (hr : m.Ringed live)
include hr

theorem Ringed.alone_of_not (he : ¬ live e) : m.Alone e := by
  refine alone_of_none ?_ ?_
  · simpa using mt (hr.next e).mp he
  · simpa using mt (hr.prev e).mp he

theorem Ringed.congr {live' : ν → Prop} (h : ∀ x, live x ↔ live' x) : m.Ringed live' where
  coherent := hr.coherent
  next := fun x => (hr.next x).trans (h x)
  prev := fun x => (hr.prev x).trans (h x)

theorem Ringed.mem_live (hl : m.Circular h l) (hx : x ∈ h :: l) : live x :=
  (hr.next x).mp (hl.next_isSome hx)

variable [DecidableEq ν]

/-- A new node. -/
theorem Ringed.init (he : ¬ live e) : (m.init e).Ringed (fun x => x = e ∨ live x) where
  coherent := hr.coherent.init (hr.alone_of_not he)
  next := fun x => by
    rw [← hr.next]
    simp only [Links.init, Function.update_apply]
    split <;> simp [*]
  prev := fun x => by
    rw [← hr.prev]
    simp only [Links.init, Function.update_apply]
    split <;> simp [*]

theorem Ringed.init_circular (he : ¬ live e) (hl : m.Circular h l) : (m.init e).Circular h l := by
  refine hl.congr (init_agrees m e) fun x hx hm => he ?_
  rw [List.mem_singleton] at hm
  exact hm ▸ hr.mem_live hl hx

/-- A node in a list of its own is gone. -/
theorem Ringed.free (ha : m.Alone e) : (m.free e).Ringed (fun x => x ≠ e ∧ live x) where
  coherent := hr.coherent.free ha
  next := fun x => by
    rw [← hr.next]
    by_cases hx : x = e <;> simp [Links.free, hx]
  prev := fun x => by
    rw [← hr.prev]
    by_cases hx : x = e <;> simp [Links.free, hx]

/-- A node is taken out of its ring and gone. -/
theorem Ringed.remove (he : live e) :
    ∃ m', m.remove e = some m' ∧ m'.Ringed (fun x => x ≠ e ∧ live x) ∧
      ∀ h l, h ≠ e → m.Circular h l → m'.Circular h (l.erase e) := by
  obtain ⟨m', hm', hc, -, hl, hs⟩ :=
    hr.coherent.remove ((hr.prev e).mpr he) ((hr.next e).mpr he)
  refine ⟨m', hm', ⟨hc, fun x => ?_, fun x => ?_⟩, hl⟩
  · rw [(hs x).1, hr.next]
  · rw [(hs x).2, hr.prev]

/-- A node leaves its ring, and is in a list of its own from then on. -/
theorem Ringed.detach (he : live e) :
    ∃ m', m.remove e = some m' ∧ (m'.init e).Ringed live ∧
      ∀ h l, h ≠ e → m.Circular h l → (m'.init e).Circular h (l.erase e) := by
  obtain ⟨m', hm', hr', hl'⟩ := hr.remove he
  have hne : ¬ (e ≠ e ∧ live e) := fun h => h.1 rfl
  refine ⟨m', hm', ?_, fun h l hhe hl => hr'.init_circular hne (hl' h l hhe hl)⟩
  have h1 := hr'.init hne
  have hsame : (fun x => x = e ∨ x ≠ e ∧ live x) = live := by
    funext x
    by_cases hx : x = e
    · simp [hx, he]
    · simp [hx]
  rwa [hsame] at h1

/-- A node in a list of its own joins the list of a head. -/
theorem Ringed.append (he : live e) (ha : m.Alone e) (hl : m.Circular h l) (hne : h ≠ e) :
    ∃ m', m.append h e = some m' ∧ m'.Ringed live ∧ m'.Circular h (l ++ [e]) ∧
      ∀ h' l', h' ≠ e → h ∉ h' :: l' → m.Circular h' l' → m'.Circular h' l' := by
  obtain ⟨m', hm', hc, hl', ho, hs⟩ := hr.coherent.append ha hl hne
  have hlive (x : ν) : x = e ∨ live x ↔ live x := or_iff_right_of_imp fun hx => hx ▸ he
  refine ⟨m', hm', ⟨hc, fun x => ?_, fun x => ?_⟩, hl', ho⟩
  · rw [(hs x).1, hr.next, hlive]
  · rw [(hs x).2, hr.prev, hlive]

end Ringed
end Links
