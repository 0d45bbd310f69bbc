import Yaza.Lib.Links

/-! Members that are each enrolled at one head or at none, by a link in the circular list of the
head: what the pointers have to keep in step with. -/

/-- The nodes: the heads, and the links of the members. -/
inductive Node (ρ ω : Type*) where
  | head (r : ρ)
  | item (w : ω)
  deriving DecidableEq

/-- Every live head lists the members whose place it is, once each, and a member without a place is
a list of its own. `place` says nothing of a member that is not there. -/
structure Enrolment {ρ ω : Type*} (m : Links (Node ρ ω)) (live : ρ → Prop)
    (place : ω → Option (Option ρ)) : Prop where
  listed : ∀ r, live r → ∃ l : List ω, m.Circular (.head r) (l.map .item) ∧
    ∀ w, w ∈ l ↔ place w = some (some r)
  alone : ∀ w, place w = some none → m.Circular (.item w) []
  live : ∀ w r, place w = some (some r) → live r

namespace Enrolment
variable {ρ ω : Type*} {m m' : Links (Node ρ ω)} {live : ρ → Prop} {place : ω → Option (Option ρ)}
  {r : ρ} {w : ω}

section Frame
variable {s : List (Node ρ ω)} (h : Enrolment m live place) (ha : m.Agrees m' s)
include h ha

/-- A change of other pointers leaves the list of a head alone. -/
theorem listed_of_agrees (hr : live r) (hh : .head r ∉ s)
    (hs : ∀ v, .item v ∈ s → place v ≠ some (some r)) :
    ∃ l : List ω, m'.Circular (.head r) (l.map .item) ∧
      ∀ v, v ∈ l ↔ place v = some (some r) := by
  obtain ⟨l, hl, hm⟩ := h.listed r hr
  refine ⟨l, hl.congr ha ?_, hm⟩
  intro x hx hxs
  rcases List.mem_cons.mp hx with rfl | hx
  · exact hh hxs
  · obtain ⟨v, hv, rfl⟩ := List.mem_map.mp hx
    exact hs v hxs ((hm v).mp hv)

theorem alone_of_agrees (hw : place w = some none) (hs : .item w ∉ s) :
    m'.Circular (.item w) [] := by
  refine (h.alone w hw).congr ha ?_
  intro x hx
  rw [List.mem_singleton.mp hx]
  exact hs

end Frame

variable [DecidableEq ω]

/-- One member changes its place: the lists of the heads that it neither leaves nor joins, and the
members besides it, need not change. -/
theorem update {p : Option (Option ρ)} {s : List (Node ρ ω)} (h : Enrolment m live place)
    (ha : m.Agrees m' s) (hp : ∀ r, p = some (some r) → live r)
    (hs : ∀ v, v ≠ w → place v = some none → .item v ∉ s)
    (hl : ∀ r, live r → (place w = some (some r) ∨ p = some (some r)) →
      ∃ l : List ω, m'.Circular (.head r) (l.map .item) ∧
        ∀ v, v ∈ l ↔ Function.update place w p v = some (some r))
    (hr : ∀ r, live r → place w ≠ some (some r) → p ≠ some (some r) →
      .head r ∉ s ∧ ∀ v, .item v ∈ s → place v ≠ some (some r))
    (hw : p = some none → m'.Circular (.item w) []) :
    Enrolment m' live (Function.update place w p) where
  listed r hlr := by
    by_cases hrw : place w = some (some r) ∨ p = some (some r)
    · exact hl r hlr hrw
    · obtain ⟨h1, h2⟩ := not_or.mp hrw
      obtain ⟨hh, hv⟩ := hr r hlr h1 h2
      obtain ⟨l, hc, hm⟩ := h.listed_of_agrees ha hlr hh hv
      refine ⟨l, hc, fun v => ?_⟩
      rw [hm]
      by_cases hvw : v = w
      · subst hvw
        simp [h1, h2]
      · rw [Function.update_of_ne hvw]
  alone v hv := by
    by_cases hvw : v = w
    · subst hvw
      rw [Function.update_self] at hv
      exact hw hv
    · rw [Function.update_of_ne hvw] at hv
      exact h.alone_of_agrees ha hv (hs v hvw hv)
  live v r hv := by
    by_cases hvw : v = w
    · subst hvw
      rw [Function.update_self] at hv
      exact hp r hv
    · rw [Function.update_of_ne hvw] at hv
      exact h.live v r hv

/-- A member that is in no list changes alone, and joins none. -/
theorem update_item {p : Option (Option ρ)} (h : Enrolment m live place)
    (ha : m.Agrees m' [.item w]) (hw : ∀ r, place w ≠ some (some r))
    (hp : ∀ r, p ≠ some (some r)) (hc : p = some none → m'.Circular (.item w) []) :
    Enrolment m' live (Function.update place w p) := by
  apply h.update ha
  · intro r hr
    exact absurd hr (hp r)
  · intro v hv _
    simpa using hv
  · rintro r - (hr | hr)
    · exact absurd hr (hw r)
    · exact absurd hr (hp r)
  · intro r _ _ _
    refine ⟨by simp, fun v hv => ?_⟩
    rw [Node.item.inj (List.mem_singleton.mp hv)]
    exact hw r
  · exact hc

omit [DecidableEq ω] in
/-- The members among the nodes of the list of a head. -/
theorem item_mem_nodes {l : List ω} {v : ω} :
    (.item v : Node ρ ω) ∈ .head r :: l.map .item ↔ v ∈ l := by simp

variable [DecidableEq ρ] (h : Enrolment m live place)
include h

/-- A new member has no place. -/
theorem newItem (hw : place w = none) :
    Enrolment (m.init (.item w)) live (Function.update place w (some none)) := by
  apply h.update_item (m.init_agrees _)
  · simp [hw]
  · simp
  · exact fun _ => m.init_circular _

/-- A member without a place may go. -/
theorem freeItem (hw : place w = some none) :
    Enrolment (m.free (.item w)) live (Function.update place w none) := by
  apply h.update_item (m.free_agrees _)
  · simp [hw]
  · simp
  · simp

/-- A member without a place is taken out of its own list. -/
theorem touch (hw : place w = some none) : ∃ m', m.remove (.item w) = some m' ∧
    Enrolment (m'.init (.item w)) live place := by
  obtain ⟨m', hm', ha⟩ := (h.alone w hw).remove_alone
  have hag : m.Agrees (m'.init (.item w)) [.item w] := ha.trans (m'.init_agrees _)
  refine ⟨m', hm', ?_⟩
  rw [← Function.update_eq_self w place, hw]
  apply h.update_item hag
  · simp [hw]
  · simp
  · exact fun _ => m'.init_circular _

/-- A member leaves its place. -/
theorem leave (hw : place w = some (some r)) : ∃ m', m.remove (.item w) = some m' ∧
    Enrolment (m'.init (.item w)) live (Function.update place w (some none)) := by
  obtain ⟨l, hl, hm⟩ := h.listed r (h.live w r hw)
  have hwl : w ∈ l := (hm w).mpr hw
  obtain ⟨m', hm', hc, ha⟩ := hl.remove (List.mem_map_of_mem hwl)
  have hag : m.Agrees (m'.init (.item w)) (.head r :: l.map .item) :=
    ha.trans ((m'.init_agrees _).mono (by simpa using hwl))
  have hnd : l.Nodup := (List.nodup_cons.mp hl.nodup).2.of_map _
  refine ⟨m', hm', h.update hag (by simp) ?_ ?_ ?_ ?_⟩
  · intro v hv hvn hvs
    rw [(hm v).mp (item_mem_nodes.mp hvs)] at hvn
    cases hvn
  · rintro r' - (hr | hr)
    · obtain rfl : r = r' := by
        rw [hw] at hr
        simpa using hr
      refine ⟨l.erase w, ?_, fun v => ?_⟩
      · have he : (l.map Node.item).erase (.item w : Node ρ ω) = (l.erase w).map .item := by
          rw [List.map_erase (fun _ _ => Node.item.inj)]
        rw [he] at hc
        refine hc.congr (m'.init_agrees _) ?_
        intro x hx
        simp only [List.mem_cons, List.mem_map] at hx
        rcases hx with rfl | ⟨v, hv, rfl⟩
        · simp
        · have hvw : v ≠ w := fun h => hnd.not_mem_erase (h ▸ hv)
          simpa using hvw
      · by_cases hvw : v = w
        · subst hvw
          simp [hnd.not_mem_erase]
        · rw [Function.update_of_ne hvw, List.mem_erase_of_ne hvw, hm]
    · cases hr
  · intro r' _ hr' _
    have hne : r' ≠ r := fun h => hr' (h ▸ hw)
    refine ⟨by simp [hne], fun v hv => ?_⟩
    rw [(hm v).mp (item_mem_nodes.mp hv)]
    simpa using hne.symm
  · intro _
    exact m'.init_circular _

/-- A member without a place takes one. -/
theorem join (hw : place w = some none) (hr : live r) :
    ∃ m', m.append (.head r) (.item w) = some m' ∧
      Enrolment m' live (Function.update place w (some (some r))) := by
  obtain ⟨l, hl, hm⟩ := h.listed r hr
  have hwl : w ∉ l := fun hwl => by
    rw [(hm w).mp hwl] at hw
    cases hw
  obtain ⟨m', hm', hc, ha⟩ := hl.append (e := .item w) (by simpa using hwl)
  refine ⟨m', hm', h.update ha ?_ ?_ ?_ ?_ (by simp)⟩
  · intro r' hr'
    simp only [Option.some.injEq] at hr'
    exact hr' ▸ hr
  · intro v hv hvn hvs
    rcases List.mem_cons.mp hvs with hvs | hvs
    · exact hv (Node.item.inj hvs)
    · rw [(hm v).mp (item_mem_nodes.mp hvs)] at hvn
      cases hvn
  · rintro r' - (hr' | hr')
    · rw [hw] at hr'
      cases hr'
    · obtain rfl : r = r' := by simpa using hr'
      refine ⟨l ++ [w], by simpa using hc, fun v => ?_⟩
      by_cases hvw : v = w
      · subst hvw
        simp
      · simp [hvw, hm]
  · intro r' _ _ hr'
    have hne : r' ≠ r := fun h => hr' (by rw [h])
    refine ⟨by simp [hne], fun v hv => ?_⟩
    rcases List.mem_cons.mp hv with hv | hv
    · rw [Node.item.inj hv, hw]
      nofun
    · rw [(hm v).mp (item_mem_nodes.mp hv)]
      simpa using hne.symm

/-- A new head lists nobody. -/
theorem newHead (hr : ¬ live r) :
    Enrolment (m.init (.head r)) (fun r' => r' = r ∨ live r') place where
  listed r' hr' := by
    by_cases hne : r' = r
    · subst hne
      refine ⟨[], m.init_circular _, fun w => ?_⟩
      simp only [List.not_mem_nil, false_iff]
      exact fun hw => hr (h.live w r' hw)
    · exact h.listed_of_agrees (m.init_agrees _) (hr'.resolve_left hne) (by simpa using hne)
        (by simp)
  alone w hw := h.alone_of_agrees (m.init_agrees _) hw (by simp)
  live w r' hw := .inr (h.live w r' hw)

/-- A head may go that lists nobody. -/
theorem freeHead (hr : ∀ w, place w ≠ some (some r)) :
    Enrolment (m.free (.head r)) (fun r' => r' ≠ r ∧ live r') place where
  listed r' hr' := h.listed_of_agrees (m.free_agrees _) hr'.2 (by simpa using hr'.1) (by simp)
  alone w hw := h.alone_of_agrees (m.free_agrees _) hw (by simp)
  live w r' hw := ⟨fun hne => hr w (hne ▸ hw), h.live w r' hw⟩

omit [DecidableEq ρ] [DecidableEq ω] in
/-- What comes behind a head: itself if it lists nobody, and otherwise a member of its list. -/
theorem next_head (hr : live r) :
    (m.next (.head r) = some (.head r) ∧ ∀ w, place w ≠ some (some r)) ∨
      ∃ w, m.next (.head r) = some (.item w) ∧ place w = some (some r) := by
  obtain ⟨l, hl, hm⟩ := h.listed r hr
  have hn := hl.segment.first.1
  cases l with
  | nil => exact .inl ⟨hn, fun w hw => by simpa using (hm w).mpr hw⟩
  | cons w l => exact .inr ⟨w, hn, (hm w).mp List.mem_cons_self⟩

/-- How often a head lists a member. -/
theorem count (hr : live r) :
    ∃ l : List ω, m.Circular (.head r) (l.map .item) ∧
      ∀ w, l.count w = if place w = some (some r) then 1 else 0 := by
  obtain ⟨l, hl, hm⟩ := h.listed r hr
  refine ⟨l, hl, fun w => ?_⟩
  have hnd : l.Nodup := (List.nodup_cons.mp hl.nodup).2.of_map _
  rw [hnd.count]
  simp only [hm]

end Enrolment
