import Yaza.Lib.Census
import Yaza.Lib.Path
import Yaza.Lib.Run
import Yaza.Shm.Pool

/-! Who keeps a pool: its count is that of the references to it, its mapping goes with the last of
them, and the buffers stay inside the pool. -/
namespace Yaza
namespace Shm

/-- The program at its start. -/
def init : Shm := {}

/-- The program after a run. -/
def run (as : List Action) : Shm := Run.final step init as

/-- What refers to a pool: its resource while that is alive, and its buffers. -/
def refs (s : Shm) (p : ℕ) : ℕ :=
  (if s.resources p = some (.pool p) then 1 else 0) + s.buffers.census (·.pool = p) s.nextId

/-- The extent of the buffer is inside the pool. -/
def Inside (y : ShmBuffer) (x : ShmPool) : Prop :=
  0 ≤ y.offset ∧ 0 < y.size ∧ y.offset.toInt + y.size.toInt ≤ x.size.toInt

/-- Every pool counts its references and has its mapping, every mapping that was made is released
once when nothing refers to its pool, and every buffer is inside a pool. -/
structure Kept (s : Shm) : Prop where
  fault : s.fault = none
  counted : ∀ p x, s.pools p = some x → x.internalRefcount = s.refs p
  mapping : ∀ p x, s.pools p = some x → s.mappings x.data = some x.size
  released : ∀ p, p ∈ s.mapped → s.unmapped.count p = if s.refs p = 0 then 1 else 0
  sized : ∀ p x, s.pools p = some x → x.size ≤ x.newSize
  inside : ∀ b y, s.buffers b = some y → ∃ x, s.pools y.pool = some x ∧ Inside y x

/-- The same with what its proof needs besides. -/
structure Sound (s : Shm) : Prop extends Kept s where
  typed : ∀ r v, s.resources r = some v → v = .pool r ∨ v = .buffer r ∧ (s.buffers r).isSome
  unused : ∀ i, s.nextId ≤ i → s.resources i = none ∧ s.buffers i = none ∧ i ∉ s.mapped
  live : ∀ p, (s.pools p).isSome ↔ 0 < s.refs p
  external : ∀ p x, s.pools p = some x → x.externalRefcount = 0
  data : ∀ p x, s.pools p = some x → x.data = p ∧ p ∈ s.mapped ∧ 0 < x.size
  unmapped : ∀ p, p ∈ s.unmapped → p ∈ s.mapped

variable {s : Shm} {p : ℕ} {x : ShmPool}

namespace Sound

theorem lt (h : Sound s) (hx : s.pools p = some x) : p < s.nextId := by
  by_contra hn
  exact (h.unused p (by omega)).2.2 (h.data p x hx).2.1

theorem refs_pos (h : Sound s) (hx : s.pools p = some x) : 0 < s.refs p :=
  (h.live p).mp (by rw [hx]; rfl)

theorem refs_unused (h : Sound s) : s.refs s.nextId = 0 := by
  by_contra hn
  obtain ⟨x, hx⟩ := Option.isSome_iff_exists.mp ((h.live _).mpr (Nat.pos_of_ne_zero hn))
  exact absurd (h.lt hx) (by omega)

theorem pool_of_resource (h : Sound s) {r q : ℕ} (hr : s.resources r = some (.pool q)) :
    q = r ∧ ∃ x, s.pools r = some x := by
  rcases h.typed r _ hr with he | ⟨he, -⟩
  · cases he
    refine ⟨rfl, Option.isSome_iff_exists.mp ((h.live r).mpr ?_)⟩
    rw [refs, if_pos hr]
    omega
  · cases he

theorem buffer_of_resource (h : Sound s) {r b : ℕ} (hr : s.resources r = some (.buffer b)) :
    b = r ∧ ∃ y, s.buffers r = some y := by
  rcases h.typed r _ hr with he | ⟨he, hb⟩
  · cases he
  · cases he
    exact ⟨rfl, Option.isSome_iff_exists.mp hb⟩

end Sound

/-- Errors change nothing else. -/
theorem Sound.post (h : Sound s) (e : ShmError) : Sound (s.post e) :=
  { fault := h.fault, counted := h.counted, mapping := h.mapping, released := h.released
    sized := h.sized, inside := h.inside, typed := h.typed, unused := h.unused, live := h.live
    external := h.external, data := h.data, unmapped := h.unmapped }

/-- One pool is another one, with as many references as it counts, and nothing is released. -/
structure Replaces (s t : Shm) (p : ℕ) (x x' : ShmPool) : Prop where
  fault : t.fault = s.fault
  logs : t.mapped = s.mapped ∧ t.unmapped = s.unmapped
  pools : t.pools = s.pools.set p x'
  same : x'.data = x.data ∧ x'.externalRefcount = x.externalRefcount
  sizes : x.size ≤ x'.size ∧ x'.size ≤ x'.newSize
  mapping : t.mappings x.data = some x'.size
  mappings : ∀ q, q ≠ x.data → t.mappings q = s.mappings q
  counted : x'.internalRefcount = t.refs p ∧ 0 < t.refs p
  refs : ∀ q, q ≠ p → t.refs q = s.refs q
  typed : ∀ r v, t.resources r = some v → v = .pool r ∨ v = .buffer r ∧ (t.buffers r).isSome
  unused : ∀ i, t.nextId ≤ i → t.resources i = none ∧ t.buffers i = none ∧ i ∉ s.mapped
  inside : ∀ b y, t.buffers b = some y → s.buffers b = some y ∨ y.pool = p ∧ Inside y x'

/-- A bigger pool has more room. -/
theorem Inside.mono {y : ShmBuffer} {x' : ShmPool} (h : Inside y x) (hx : x.size ≤ x'.size) :
    Inside y x' := by
  obtain ⟨h1, h2, h3⟩ := h
  exact ⟨h1, h2, Int.le_trans h3 (Int64.le_iff_toInt_le.mp hx)⟩

theorem Sound.replace {t : Shm} {x' : ShmPool} (h : Sound s) (hx : s.pools p = some x)
    (hr : Replaces s t p x x') : Sound t := by
  have hd := (h.data p x hx).1
  have cases_of {q : ℕ} {z : ShmPool} (hz : t.pools q = some z) :
      q = p ∧ z = x' ∨ q ≠ p ∧ s.pools q = some z := by
    rw [hr.pools, Arena.set_apply] at hz
    split at hz
    · next hq => exact .inl ⟨hq, (Option.some.inj hz).symm⟩
    · next hq => exact .inr ⟨hq, hz⟩
  exact {
    fault := hr.fault.trans h.fault
    counted := fun q z hz => by
      rcases cases_of hz with ⟨rfl, rfl⟩ | ⟨hq, hz⟩
      · exact hr.counted.1
      · rw [hr.refs q hq, h.counted q z hz]
    mapping := fun q z hz => by
      rcases cases_of hz with ⟨rfl, rfl⟩ | ⟨hq, hz⟩
      · rw [hr.same.1]
        exact hr.mapping
      · have hdq := (h.data q z hz).1
        rw [hr.mappings _ (by omega)]
        exact h.mapping q z hz
    released := fun q hq => by
      rw [hr.logs.1] at hq
      rw [hr.logs.2, h.released q hq]
      by_cases hqp : q = p
      · subst hqp
        have h1 := h.refs_pos hx
        have h2 := hr.counted.2
        rw [if_neg (by omega), if_neg (by omega)]
      · rw [hr.refs q hqp]
    sized := fun q z hz => by
      rcases cases_of hz with ⟨rfl, rfl⟩ | ⟨hq, hz⟩
      · exact hr.sizes.2
      · exact h.sized q z hz
    inside := fun b y hb => by
      rw [hr.pools]
      rcases hr.inside b y hb with hb | ⟨rfl, hi⟩
      · obtain ⟨z, hz, hi⟩ := h.inside b y hb
        rw [Arena.set_apply]
        split
        · next hq =>
          rw [hq, hx] at hz
          cases hz
          exact ⟨x', rfl, hi.mono hr.sizes.1⟩
        · exact ⟨z, hz, hi⟩
      · exact ⟨x', Arena.set_self .., hi⟩
    typed := hr.typed
    unused := fun i hi => by
      rw [hr.logs.1]
      exact hr.unused i hi
    live := fun q => by
      rw [hr.pools, Arena.set_apply]
      split
      · next hq => simpa [hq] using hr.counted.2
      · next hq =>
        rw [hr.refs q hq]
        exact h.live q
    external := fun q z hz => by
      rcases cases_of hz with ⟨rfl, rfl⟩ | ⟨hq, hz⟩
      · rw [hr.same.2, h.external q x hx]
      · exact h.external q z hz
    data := fun q z hz => by
      rw [hr.logs.1]
      rcases cases_of hz with ⟨rfl, rfl⟩ | ⟨hq, hz⟩
      · obtain ⟨h1, h2, h3⟩ := h.data q x hx
        exact ⟨hr.same.1.trans h1, h2, Int64.lt_of_lt_of_le h3 hr.sizes.1⟩
      · exact h.data q z hz
    unmapped := fun q hq => by
      rw [hr.logs.1]
      rw [hr.logs.2] at hq
      exact h.unmapped q hq }

/-- What is left of a pool when one of its references goes. -/
def less (s : Shm) (p : ℕ) (x : ShmPool) : Shm :=
  if s.refs p = 1 then
    { s with
      pools := s.pools.erase p
      mappings := s.mappings.erase p
      unmapped := s.unmapped ++ [p] }
  else { s with pools := s.pools.set p { x with internalRefcount := x.internalRefcount - 1 } }

theorem unref_eq (h : Sound s) (hx : s.pools p = some x) (sys : System) :
    s.unref p false sys = s.less p x := by
  have hc := h.counted p x hx
  have he := h.external p x hx
  have hd := (h.data p x hx).1
  have hm := h.mapping p x hx
  have hp := h.refs_pos hx
  have h0 : ¬x.internalRefcount - 1 < 0 := by omega
  simp only [unref, hx, dropInternal, h0, if_false, Bool.false_eq_true, releasePool,
    Arena.set_self, he]
  by_cases h1 : s.refs p = 1
  · rw [if_neg (by omega), less, if_pos h1, munmap, if_pos hm, hd]
    simp only [Arena.erase_set]
  · rw [if_pos (by omega), less, if_neg h1, he]

/-- The same state with other objects of the clients. -/
def withObjects (s : Shm) (R : Arena Resource) (B : Arena ShmBuffer) : Shm :=
  { s with resources := R, buffers := B }

/-- One object that refers to `p` is gone, and nothing else. -/
structure Loses (s : Shm) (p : ℕ) (R : Arena Resource) (B : Arena ShmBuffer) : Prop where
  resource : ∀ r v, R r = some v → s.resources r = some v
  buffer : ∀ b y, B b = some y → s.buffers b = some y
  user : ∀ r, R r = some (.buffer r) → (s.buffers r).isSome → (B r).isSome
  fewer : (s.withObjects R B).refs p + 1 = s.refs p
  same : ∀ q, q ≠ p → (s.withObjects R B).refs q = s.refs q

section Loses
variable {R : Arena Resource} {B : Arena ShmBuffer} (h : Sound s) (hl : Loses s p R B)
include h hl

theorem Loses.unused (i : ℕ) (hi : s.nextId ≤ i) : R i = none ∧ B i = none ∧ i ∉ s.mapped := by
  obtain ⟨h1, h2, h3⟩ := h.unused i hi
  refine ⟨Option.eq_none_iff_forall_ne_some.mpr fun v hv => ?_,
    Option.eq_none_iff_forall_ne_some.mpr fun y hy => ?_, h3⟩
  · rw [hl.resource i v hv] at h1
    cases h1
  · rw [hl.buffer i y hy] at h2
    cases h2

theorem Loses.typed (r : ℕ) (v : Resource) (hr : R r = some v) :
    v = .pool r ∨ v = .buffer r ∧ (B r).isSome := by
  rcases h.typed r v (hl.resource r v hr) with hv | ⟨hv, hb⟩
  · exact .inl hv
  · exact .inr ⟨hv, hl.user r (hv ▸ hr) hb⟩

/-- A buffer keeps its pool. -/
theorem Loses.kept {b : ℕ} {y : ShmBuffer} (hb : B b = some y) :
    0 < (s.withObjects R B).refs y.pool := by
  have hlt : b < s.nextId := by
    by_contra hn
    rw [(hl.unused h b (by omega)).2.1] at hb
    cases hb
  have h1 := Arena.census_pos (P := fun z => decide (z.pool = y.pool)) hlt hb (by simp)
  exact Nat.add_pos_right _ h1

/-- The last reference goes, and the pool with it. -/
theorem Loses.last (hx : s.pools p = some x) (h1 : s.refs p = 1) :
    Sound ((s.less p x).withObjects R B) := by
  have hp0 : (s.withObjects R B).refs p = 0 := by
    have := hl.fewer
    omega
  have hne {q : ℕ} {z : ShmPool} (hz : (s.pools.erase p) q = some z) :
      q ≠ p ∧ s.pools q = some z := by
    rw [Arena.erase_apply] at hz
    split at hz
    · cases hz
    · next hq => exact ⟨hq, hz⟩
  simp only [less, h1, if_true]
  exact {
    fault := h.fault
    counted := fun q z hz => by
      obtain ⟨hq, hz⟩ := hne hz
      rw [h.counted q z hz]
      exact congrArg Int.ofNat (hl.same q hq).symm
    mapping := fun q z hz => by
      obtain ⟨hq, hz⟩ := hne hz
      have hd := (h.data q z hz).1
      change s.mappings.erase p z.data = some z.size
      rw [Arena.erase_of_ne _ (by omega), h.mapping q z hz]
    released := fun q hq => by
      change (s.unmapped ++ [p]).count q = if (s.withObjects R B).refs q = 0 then 1 else 0
      rw [List.count_append, h.released q hq]
      by_cases hqp : q = p
      · subst hqp
        simp [h1, hp0]
      · simp [hl.same q hqp, Ne.symm hqp]
    sized := fun q z hz => h.sized q z (hne hz).2
    inside := fun b y hy => by
      obtain ⟨z, hz, hi⟩ := h.inside b y (hl.buffer b y hy)
      refine ⟨z, (Arena.erase_of_ne _ fun hyp => ?_).trans hz, hi⟩
      have := hl.kept h hy
      rw [hyp] at this
      omega
    typed := fun r v hr => hl.typed h r v hr
    unused := fun i hi => hl.unused h i hi
    live := fun q => by
      change (s.pools.erase p q).isSome ↔ 0 < (s.withObjects R B).refs q
      by_cases hqp : q = p
      · subst hqp
        simp [hp0]
      · rw [Arena.erase_of_ne _ hqp, hl.same q hqp]
        exact h.live q
    external := fun q z hz => h.external q z (hne hz).2
    data := fun q z hz => h.data q z (hne hz).2
    unmapped := fun q hq => by
      rcases List.mem_append.mp hq with hq | hq
      · exact h.unmapped q hq
      · rw [List.mem_singleton.mp hq]
        exact (h.data p x hx).2.1 }

/-- Other references remain, and so does the pool. -/
theorem Loses.notLast (hx : s.pools p = some x) (h1 : s.refs p ≠ 1) :
    Sound ((s.less p x).withObjects R B) := by
  have hf := hl.fewer
  have hc := h.counted p x hx
  have hr : Replaces s ((s.less p x).withObjects R B) p x
      { x with internalRefcount := x.internalRefcount - 1 } := by
    simp only [less, h1, if_false]
    exact {
      fault := rfl
      logs := ⟨rfl, rfl⟩
      pools := rfl
      same := ⟨rfl, rfl⟩
      sizes := ⟨Int64.le_refl _, h.sized p x hx⟩
      mapping := h.mapping p x hx
      mappings := fun _ _ => rfl
      counted := by
        change x.internalRefcount - 1 = ((s.withObjects R B).refs p : ℤ) ∧
          0 < (s.withObjects R B).refs p
        omega
      refs := hl.same
      typed := fun r v hr => hl.typed h r v hr
      unused := fun i hi => hl.unused h i hi
      inside := fun b y hy => .inl (hl.buffer b y hy) }
  exact h.replace hx hr

end Loses

theorem less_buffers (s : Shm) (p : ℕ) (x : ShmPool) : (s.less p x).buffers = s.buffers := by
  unfold less
  split <;> rfl

theorem Sound.less (h : Sound s) (hx : s.pools p = some x) {R : Arena Resource}
    {B : Arena ShmBuffer} (hl : Loses s p R B) : Sound ((s.less p x).withObjects R B) := by
  by_cases h1 : s.refs p = 1
  · exact hl.last h hx h1
  · exact hl.notLast h hx h1

/-- The resource of a pool refers to it. -/
theorem loses_pool (hr : s.resources p = some (.pool p)) :
    Loses s p (s.resources.erase p) s.buffers where
  resource := fun r v hv => by
    rw [Arena.erase_apply] at hv
    split at hv
    · cases hv
    · exact hv
  buffer := fun _ _ hb => hb
  user := fun _ _ hb => hb
  fewer := by
    simp only [refs, withObjects, Arena.erase_self, hr, if_true, reduceCtorEq, if_false]
    omega
  same := fun q hq => by
    simp only [refs, withObjects, Arena.erase_of_ne _ hq]

/-- A buffer refers to its pool. -/
theorem Sound.loses_buffer (h : Sound s) {b : ℕ} {y : ShmBuffer}
    (hr : s.resources b = some (.buffer b)) (hb : s.buffers b = some y) :
    Loses s y.pool (s.resources.erase b) (s.buffers.erase b) := by
  have hlt : b < s.nextId := by
    by_contra hn
    rw [(h.unused b (by omega)).1] at hr
    cases hr
  have hres (q : ℕ) : s.resources.erase b q = some (.pool q) ↔ s.resources q = some (.pool q) := by
    by_cases hq : q = b
    · subst hq
      simp [hr]
    · rw [Arena.erase_of_ne _ hq]
  have hcensus (q : ℕ) := Arena.census_erase (P := fun z => decide (z.pool = q)) hlt hb
  exact {
    resource := fun r v hv => by
      rw [Arena.erase_apply] at hv
      split at hv
      · cases hv
      · exact hv
    buffer := fun c z hz => by
      rw [Arena.erase_apply] at hz
      split at hz
      · cases hz
      · exact hz
    user := fun r hR hB => by
      rw [Arena.erase_apply] at hR ⊢
      split at hR
      · cases hR
      · next hne => rwa [if_neg hne]
    fewer := by
      have := hcensus y.pool
      simp only [refs, withObjects, hres]
      simp only [decide_true, if_true] at this
      omega
    same := fun q hq => by
      have := hcensus q
      simp only [refs, withObjects, hres]
      simp only [Ne.symm hq, decide_false, Bool.false_eq_true, if_false] at this
      omega }

/-- At a new address nothing refers to the old pools. -/
theorem Sound.refs_next (h : Sound s) {t : Shm} (hn : t.nextId = s.nextId + 1)
    (hb : t.buffers = s.buffers) {q : ℕ} (hr : t.resources q = s.resources q) :
    t.refs q = s.refs q := by
  rw [refs, refs, hn, hb, hr, Arena.census_unused (h.unused _ (Nat.le_refl _)).2.1]

/-- A new pool, with its mapping and its resource. -/
def addPool (s : Shm) (size : Int64) : Shm :=
  { s with
    nextId := s.nextId + 1
    mappings := s.mappings.set s.nextId size
    mapped := s.mapped ++ [s.nextId]
    resources := s.resources.set s.nextId (.pool s.nextId)
    pools := s.pools.set s.nextId { data := s.nextId, size, newSize := size } }

theorem Sound.addPool_refs (h : Sound s) (size : Int64) (q : ℕ) :
    (s.addPool size).refs q = if q = s.nextId then 1 else s.refs q := by
  split
  · next hq =>
    have h0 := h.refs_unused
    rw [refs] at h0
    rw [hq, refs, addPool]
    simp only [Arena.set_self, if_true, Arena.census_unused (h.unused _ (Nat.le_refl _)).2.1]
    omega
  · next hq => exact h.refs_next (t := s.addPool size) rfl rfl (Arena.set_of_ne _ _ hq)

theorem Sound.addPool (h : Sound s) {size : Int64} (hs : 0 < size) : Sound (s.addPool size) := by
  have cases_of {q : ℕ} {z : ShmPool} (hz : (s.addPool size).pools q = some z) :
      q = s.nextId ∧ z = { data := s.nextId, size, newSize := size } ∨
        q ≠ s.nextId ∧ s.pools q = some z := by
    simp only [Shm.addPool, Arena.set_apply] at hz
    split at hz
    · next hq => exact .inl ⟨hq, (Option.some.inj hz).symm⟩
    · next hq => exact .inr ⟨hq, hz⟩
  have hm {q : ℕ} : q ∈ (s.addPool size).mapped ↔ q ∈ s.mapped ∨ q = s.nextId := by
    simp [Shm.addPool]
  exact {
    fault := h.fault
    counted := fun q z hz => by
      rw [h.addPool_refs]
      rcases cases_of hz with ⟨rfl, rfl⟩ | ⟨hq, hz⟩
      · simp
      · rw [if_neg hq, h.counted q z hz]
    mapping := fun q z hz => by
      rcases cases_of hz with ⟨rfl, rfl⟩ | ⟨hq, hz⟩
      · exact Arena.set_self ..
      · have hd := (h.data q z hz).1
        exact (Arena.set_of_ne _ _ (by omega)).trans (h.mapping q z hz)
    released := fun q hq => by
      rw [h.addPool_refs]
      change s.unmapped.count q = _
      rcases hm.mp hq with hq | rfl
      · have hne : q ≠ s.nextId := by
          rintro rfl
          exact (h.unused _ (Nat.le_refl _)).2.2 hq
        rw [if_neg hne, h.released q hq]
      · rw [if_pos rfl, if_neg (by omega), List.count_eq_zero]
        exact fun hn => (h.unused _ (Nat.le_refl _)).2.2 (h.unmapped _ hn)
    sized := fun q z hz => by
      rcases cases_of hz with ⟨rfl, rfl⟩ | ⟨hq, hz⟩
      · exact Int64.le_refl _
      · exact h.sized q z hz
    inside := fun b y hy => by
      obtain ⟨z, hz, hi⟩ := h.inside b y hy
      have hlt := h.lt hz
      exact ⟨z, (Arena.set_of_ne _ _ (by omega)).trans hz, hi⟩
    typed := fun r v hr => by
      simp only [Shm.addPool, Arena.set_apply] at hr
      split at hr
      · next hn => exact .inl (hn ▸ (Option.some.inj hr).symm)
      · exact h.typed r v hr
    unused := fun i hi => by
      have hi' : s.nextId + 1 ≤ i := hi
      obtain ⟨h1, h2, h3⟩ := h.unused i (by omega)
      refine ⟨(Arena.set_of_ne _ _ (by omega)).trans h1, h2, fun hn => ?_⟩
      rcases hm.mp hn with hn | hn
      · exact h3 hn
      · omega
    live := fun q => by
      rw [h.addPool_refs]
      simp only [Shm.addPool, Arena.set_apply]
      split
      · simp
      · exact h.live q
    external := fun q z hz => by
      rcases cases_of hz with ⟨rfl, rfl⟩ | ⟨hq, hz⟩
      · rfl
      · exact h.external q z hz
    data := fun q z hz => by
      rcases cases_of hz with ⟨rfl, rfl⟩ | ⟨hq, hz⟩
      · exact ⟨rfl, hm.mpr (.inr rfl), hs⟩
      · obtain ⟨h1, h2, h3⟩ := h.data q z hz
        exact ⟨h1, hm.mpr (.inl h2), h3⟩
    unmapped := fun q hq => hm.mpr (.inl (h.unmapped q hq)) }

/-- A mapping that is made and released at once. -/
def addNothing (s : Shm) : Shm :=
  { s with
    nextId := s.nextId + 1
    mappings := s.mappings.erase s.nextId
    mapped := s.mapped ++ [s.nextId]
    unmapped := s.unmapped ++ [s.nextId] }

theorem Sound.addNothing_refs (h : Sound s) (q : ℕ) : s.addNothing.refs q = s.refs q :=
  h.refs_next (t := s.addNothing) rfl rfl rfl

theorem Sound.addNothing (h : Sound s) : Sound s.addNothing := by
  have hn := (h.unused _ (Nat.le_refl s.nextId)).2.2
  have hm {q : ℕ} : q ∈ s.addNothing.mapped ↔ q ∈ s.mapped ∨ q = s.nextId := by
    simp [Shm.addNothing]
  exact {
    fault := h.fault
    counted := fun q z hz => by
      rw [h.addNothing_refs]
      exact h.counted q z hz
    mapping := fun q z hz => by
      have hd := (h.data q z hz).1
      have hlt := h.lt hz
      exact (Arena.erase_of_ne _ (by omega)).trans (h.mapping q z hz)
    released := fun q hq => by
      rw [h.addNothing_refs]
      change (s.unmapped ++ [s.nextId]).count q = _
      rw [List.count_append]
      rcases hm.mp hq with hq | rfl
      · have hne : s.nextId ≠ q := by
          rintro rfl
          exact hn hq
        simp [h.released q hq, hne]
      · have h0 : s.unmapped.count s.nextId = 0 :=
          List.count_eq_zero.mpr fun hu => hn (h.unmapped _ hu)
        simp [h0, h.refs_unused]
    sized := h.sized
    inside := h.inside
    typed := h.typed
    unused := fun i hi => by
      have hi' : s.nextId + 1 ≤ i := hi
      obtain ⟨h1, h2, h3⟩ := h.unused i (by omega)
      refine ⟨h1, h2, fun hi => ?_⟩
      rcases hm.mp hi with hi | hi
      · exact h3 hi
      · omega
    live := fun q => by
      rw [h.addNothing_refs]
      exact h.live q
    external := h.external
    data := fun q z hz => by
      obtain ⟨h1, h2, h3⟩ := h.data q z hz
      exact ⟨h1, hm.mpr (.inl h2), h3⟩
    unmapped := fun q hq => by
      rcases List.mem_append.mp hq with hq | hq
      · exact hm.mpr (.inl (h.unmapped q hq))
      · exact hm.mpr (.inr (List.mem_singleton.mp hq)) }

/-- The check of `create_buffer` does not overflow, as both sizes are positive. -/
theorem outside_eq_false_iff {offset size : Int64} (hx : 0 < x.size) :
    outside x offset size = false ↔
      0 ≤ offset.toInt ∧ 0 < size.toInt ∧ offset.toInt + size.toInt ≤ x.size.toInt := by
  simp only [outside, Bool.or_eq_false_iff, decide_eq_false_iff_not, Int64.lt_iff_toInt_lt,
    Int64.le_iff_toInt_le, Int64.toInt_sub, Int64.toInt_zero, not_lt, not_le]
  rw [Int64.lt_iff_toInt_lt, Int64.toInt_zero] at hx
  have hs := size.toInt_lt
  have hl := x.size.toInt_lt
  constructor
  · rintro ⟨⟨h1, h2⟩, h3⟩
    rw [Int.bmod_eq_of_le (by omega) (by omega)] at h3
    omega
  · rintro ⟨h1, h2, h3⟩
    rw [Int.bmod_eq_of_le (by omega) (by omega)]
    omega

theorem inside_of_outside {offset size : Int64} (hx : 0 < x.size)
    (ho : outside x offset size = false) : Inside { size, offset, pool := p } x := by
  obtain ⟨h1, h2, h3⟩ := (outside_eq_false_iff hx).mp ho
  exact ⟨Int64.le_iff_toInt_le.mpr h1, Int64.lt_iff_toInt_lt.mpr h2, h3⟩

/-- A new buffer in the pool, which counts it. -/
def addBuffer (s : Shm) (p : ℕ) (x : ShmPool) (size offset : Int64) : Shm :=
  { s with
    nextId := s.nextId + 1
    resources := s.resources.set s.nextId (.buffer s.nextId)
    buffers := s.buffers.set s.nextId { size, offset, pool := p }
    pools := s.pools.set p { x with internalRefcount := x.internalRefcount + 1 } }

theorem Sound.addBuffer_refs (h : Sound s) {size offset : Int64} (q : ℕ) :
    (s.addBuffer p x size offset).refs q = s.refs q + if p = q then 1 else 0 := by
  have hr : (s.resources.set s.nextId (.buffer s.nextId)) q = some (.pool q) ↔
      s.resources q = some (.pool q) := by
    by_cases hq : q = s.nextId
    · subst hq
      simp [(h.unused _ (Nat.le_refl _)).1]
    · rw [Arena.set_of_ne _ _ hq]
  rw [refs, refs, addBuffer]
  simp only [hr, Arena.census_set_new, decide_eq_true_eq]
  omega

theorem Sound.addBuffer (h : Sound s) (hx : s.pools p = some x) {size offset : Int64}
    (ho : outside x offset size = false) : Sound (s.addBuffer p x size offset) := by
  have hlt := h.lt hx
  have hr : Replaces s (s.addBuffer p x size offset) p x
      { x with internalRefcount := x.internalRefcount + 1 } := {
    fault := rfl
    logs := ⟨rfl, rfl⟩
    pools := rfl
    same := ⟨rfl, rfl⟩
    sizes := ⟨Int64.le_refl _, h.sized p x hx⟩
    mapping := h.mapping p x hx
    mappings := fun _ _ => rfl
    counted := by
      have hc := h.counted p x hx
      rw [h.addBuffer_refs, if_pos rfl]
      change x.internalRefcount + 1 = _ ∧ _
      omega
    refs := fun q hq => by rw [h.addBuffer_refs, if_neg (Ne.symm hq), Nat.add_zero]
    typed := fun r v hr => by
      simp only [Shm.addBuffer, Arena.set_apply] at hr ⊢
      split at hr
      · next hn =>
        subst hn
        exact .inr ⟨(Option.some.inj hr).symm, by simp⟩
      · next hn =>
        rw [if_neg hn]
        exact h.typed r v hr
    unused := fun i hi => by
      have hi' : s.nextId + 1 ≤ i := hi
      obtain ⟨h1, h2, h3⟩ := h.unused i (by omega)
      exact ⟨(Arena.set_of_ne _ _ (by omega)).trans h1,
        (Arena.set_of_ne _ _ (by omega)).trans h2, h3⟩
    inside := fun b y hy => by
      simp only [Shm.addBuffer, Arena.set_apply] at hy
      split at hy
      · cases hy
        obtain ⟨h1, h2, h3⟩ := inside_of_outside (p := p) (h.data p x hx).2.2 ho
        exact .inr ⟨rfl, h1, h2, h3⟩
      · exact .inl hy }
  exact h.replace hx hr

/-- The pool and its mapping get bigger. -/
theorem Sound.resized (h : Sound s) (hx : s.pools p = some x) {n m : Int64} (hn : x.size ≤ n)
    (hm : n ≤ m) : Sound { s with
      mappings := s.mappings.set x.data n
      pools := s.pools.set p { x with size := n, newSize := m } } := by
  have hr : Replaces s { s with
      mappings := s.mappings.set x.data n
      pools := s.pools.set p { x with size := n, newSize := m } } p x
      { x with size := n, newSize := m } := {
    fault := rfl
    logs := ⟨rfl, rfl⟩
    pools := rfl
    same := ⟨rfl, rfl⟩
    sizes := ⟨hn, hm⟩
    mapping := Arena.set_self ..
    mappings := fun q hq => Arena.set_of_ne _ _ hq
    counted := ⟨h.counted p x hx, h.refs_pos hx⟩
    refs := fun _ _ => rfl
    typed := h.typed
    unused := h.unused
    inside := fun _ _ hy => .inl hy }
  exact h.replace hx hr

/-- What the requests do to the pools and the buffers. -/
inductive Change (s : Shm) : Shm → Prop
  | post (e : ShmError) : Change s (s.post e)
  | addPool {size : Int64} (hs : 0 < size) : Change s (s.addPool size)
  | addNothing : Change s s.addNothing
  | addBuffer {p : ℕ} {x : ShmPool} {size offset : Int64} (hx : s.pools p = some x)
      (ho : outside x offset size = false) : Change s (s.addBuffer p x size offset)
  | resized {p : ℕ} {x : ShmPool} {n m : Int64} (hx : s.pools p = some x) (hn : x.size ≤ n)
      (hm : n ≤ m) : Change s { s with
        mappings := s.mappings.set x.data n
        pools := s.pools.set p { x with size := n, newSize := m } }
  | less {p : ℕ} {x : ShmPool} {R : Arena Resource} {B : Arena ShmBuffer}
      (hx : s.pools p = some x) (hl : Loses s p R B) :
      Change s ((s.less p x).withObjects R B)

abbrev Changes : Shm → Shm → Prop := Relation.ReflTransGen Change

theorem Change.sound {t : Shm} (hc : Change s t) (h : Sound s) : Sound t := by
  cases hc with
  | post e => exact h.post e
  | addPool hs => exact h.addPool hs
  | addNothing => exact h.addNothing
  | addBuffer hx ho => exact h.addBuffer hx ho
  | resized hx hn hm => exact h.resized hx hn hm
  | less hx hl => exact h.less hx hl

theorem createPool_changes (s : Shm) (fd : ℤ) (sizeArray : List UInt8) (sys : System) :
    Changes s (s.createPool fd sizeArray sys) := by
  unfold Shm.createPool
  split
  · exact .single (.post _)
  · next size _ =>
    split
    · exact .single (.post _)
    · next hs =>
      unfold newPool
      split
      · exact .single (.post _)
      · split
        · exact .single (.post _)
        · split
          · exact .single (.addPool (by simpa using hs))
          · have h1 : Changes s (s.post .noMemory).addNothing :=
              .trans (.single (.post _)) (.single .addNothing)
            simp only [munmap, Shm.post, Arena.set_self, if_true, Arena.erase_set]
            exact h1

/-- After an error `create_buffer` goes on with the size zero. -/
theorem readExtent_cases (s : Shm) (offsetArray sizeArray : List UInt8) :
    (∃ e offset, s.readExtent offsetArray sizeArray = (s.post e, offset, 0)) ∨
      ∃ offset size, s.readExtent offsetArray sizeArray = (s, offset, size) := by
  unfold readExtent
  split
  · exact .inl ⟨_, _, rfl⟩
  · split
    · exact .inl ⟨_, _, rfl⟩
    · exact .inr ⟨_, _, rfl⟩

theorem createBuffer_changes (hx : s.pools p = some x) (offsetArray sizeArray : List UInt8)
    (sys : System) : Changes s (s.createBuffer p offsetArray sizeArray sys) := by
  unfold Shm.createBuffer
  simp only [hx]
  rcases s.readExtent_cases offsetArray sizeArray with ⟨e, offset, hr⟩ | ⟨offset, size, hr⟩
  · have ho : outside x offset 0 = true := by simp [outside]
    simp only [hr, ho, if_true]
    exact .trans (.single (.post _)) (.single (.post _))
  · simp only [hr]
    split
    · exact .single (.post _)
    · next ho =>
      unfold newBuffer
      split
      · exact .single (.addBuffer hx (by simpa using ho))
      · exact .single (.post _)

theorem resize_changes (h : Sound s) (hx : s.pools p = some x) (size : Int32) (sys : System) :
    Changes s (s.resize p size sys) := by
  have he := h.external p x hx
  unfold Shm.resize
  simp only [hx, he, if_true]
  split
  · exact .single (.post _)
  · next hs =>
    have hs' : x.size ≤ size.toInt64 := by simpa using hs
    have hm := h.mapping p x hx
    -- nothing is mapped anew
    have h1 := Change.resized hx (Int64.le_refl _) hs'
    rw [Arena.set_eq_self hm, he] at h1
    unfold finishResize
    split
    · exact .single h1
    · split
      · exact .trans (.single h1) (.single (.post _))
      · have h2 := Change.resized hx hs' (Int64.le_refl _)
        rw [Arena.set_eq_modify (g := fun _ => size.toInt64) hm rfl, he] at h2
        simp only [Arena.set_set]
        exact .single h2

theorem destroyResource_changes (h : Sound s) (r : ℕ) (sys : System) :
    Changes s (s.destroyResource r sys) := by
  cases hr : s.resources r with
  | none =>
    simp only [Shm.destroyResource, hr]
    exact .refl
  | some v =>
    cases v with
    | pool q =>
      obtain ⟨rfl, x, hx⟩ := h.pool_of_resource hr
      have h1 := Change.less hx (loses_pool hr)
      simp only [Shm.destroyResource, hr, unref_eq h hx]
      rw [withObjects, ← less_buffers s q x] at h1
      exact .single h1
    | buffer b =>
      obtain ⟨rfl, y, hy⟩ := h.buffer_of_resource hr
      obtain ⟨x, hx, -⟩ := h.inside b y hy
      simp only [Shm.destroyResource, hr, destroyBuffer, hy, unref_eq h hx]
      exact .single (.less hx (h.loses_buffer hr hy))

theorem step_changes (h : Sound s) (a : Action) : Changes s (s.step a) := by
  have onPool (r : ℕ) {f : ℕ → Shm} (hf : ∀ x, s.pools r = some x → Changes s (f r)) :
      Changes s (s.onPool r f) := by
    unfold Shm.onPool
    split
    · next q hq =>
      obtain ⟨rfl, x, hx⟩ := h.pool_of_resource hq
      exact hf x hx
    · exact .refl
  unfold Shm.step
  split
  · exact .refl
  · cases a with
    | createPool fd size sys => exact createPool_changes s fd size sys
    | createBuffer r offset size sys =>
      exact onPool r fun x hx => createBuffer_changes hx offset size sys
    | resize r size sys => exact onPool r fun x hx => resize_changes h hx size sys
    | destroy r sys => exact destroyResource_changes h r sys

theorem init_sound : Sound init where
  fault := rfl
  counted := fun _ _ h => by cases h
  mapping := fun _ _ h => by cases h
  released := fun _ h => by cases h
  sized := fun _ _ h => by cases h
  inside := fun _ _ h => by cases h
  typed := fun _ _ h => by cases h
  unused := fun _ _ => ⟨rfl, rfl, fun h => by cases h⟩
  live := fun p => by simp [init, refs]
  external := fun _ _ h => by cases h
  data := fun _ _ h => by cases h
  unmapped := fun _ h => by cases h

theorem run_sound (as : List Action) : Sound (run as) :=
  Run.final_induction init_sound
    (fun _ a h => Path.preserves (fun _ _ hc hs => hc.sound hs) (step_changes h a) h) as

/-- Addresses are not used twice, and the pools that remain are as big as they were. -/
structure Grows (s t : Shm) : Prop where
  nextId : s.nextId ≤ t.nextId
  pools : ∀ p y, p < s.nextId → t.pools p = some y → ∃ x, s.pools p = some x ∧ x.size ≤ y.size

theorem Grows.refl (s : Shm) : Grows s s :=
  ⟨Nat.le_refl _, fun _ y _ hy => ⟨y, hy, Int64.le_refl _⟩⟩

theorem Grows.trans {t u : Shm} (h : Grows s t) (h' : Grows t u) : Grows s u := by
  refine ⟨Nat.le_trans h.nextId h'.nextId, fun p z hp hz => ?_⟩
  obtain ⟨y, hy, hyz⟩ := h'.pools p z (Nat.lt_of_lt_of_le hp h.nextId) hz
  obtain ⟨x, hx, hxy⟩ := h.pools p y hp hy
  exact ⟨x, hx, Int64.le_trans hxy hyz⟩

/-- One pool is another one that is as big. -/
theorem grows_set {t : Shm} {y : ShmPool} (hx : s.pools p = some x) (hs : x.size ≤ y.size)
    (hn : s.nextId ≤ t.nextId) (ht : t.pools = s.pools.set p y) : Grows s t := by
  refine ⟨hn, fun q z _ hz => ?_⟩
  rw [ht, Arena.set_apply] at hz
  split at hz
  · next hq =>
    cases hz
    exact ⟨x, hq ▸ hx, hs⟩
  · exact ⟨z, hz, Int64.le_refl _⟩

theorem Change.grows {t : Shm} (hc : Change s t) : Grows s t := by
  have old {p : ℕ} {y : ShmPool} (hy : s.pools p = some y) :
      ∃ x, s.pools p = some x ∧ x.size ≤ y.size := ⟨y, hy, Int64.le_refl _⟩
  cases hc with
  | post e => exact ⟨Nat.le_refl _, fun p y _ hy => old hy⟩
  | addPool hs =>
    refine ⟨Nat.le_succ _, fun p y hp hy => ?_⟩
    exact old ((Arena.set_of_ne _ _ (Nat.ne_of_lt hp)).symm.trans hy)
  | addNothing => exact ⟨Nat.le_succ _, fun p y _ hy => old hy⟩
  | @addBuffer p x size offset hx ho =>
    exact grows_set (y := { x with internalRefcount := x.internalRefcount + 1 }) hx
      (Int64.le_refl _) (Nat.le_succ _) rfl
  | resized hx hn hm => exact grows_set hx hn (Nat.le_refl _) rfl
  | @less p x R B hx hl =>
    by_cases h1 : s.refs p = 1
    · simp only [Shm.less, h1, if_true]
      refine ⟨Nat.le_refl _, fun q y _ hy => ?_⟩
      change s.pools.erase p q = some y at hy
      rw [Arena.erase_apply] at hy
      split at hy
      · cases hy
      · exact old hy
    · simp only [Shm.less, h1, if_false]
      exact grows_set (y := { x with internalRefcount := x.internalRefcount - 1 }) hx
        (Int64.le_refl _) (Nat.le_refl _) rfl

/-- In every state of every run the pools are kept as long as anything refers to them, their
mappings are released once after that, the buffers are inside, and no pool has become smaller. -/
theorem kept_throughout (as bs : List Action) :
    Kept (run as) ∧ ∀ p x y, (run as).pools p = some x → (run (as ++ bs)).pools p = some y →
      x.size ≤ y.size := by
  refine ⟨(run_sound as).toKept, fun p x y hx hy => ?_⟩
  have hg : Sound (run (as ++ bs)) ∧ Grows (run as) (run (as ++ bs)) := by
    rw [run, Run.final_append]
    refine Run.final_induction (P := fun t => Sound t ∧ Grows (run as) t)
      ⟨run_sound as, .refl _⟩ (fun t a h => ?_) bs
    exact Path.preserves (P := fun u => Sound u ∧ Grows (run as) u)
      (fun u v hc hu => ⟨hc.sound hu.1, hu.2.trans hc.grows⟩) (step_changes h.1 a) h
  obtain ⟨z, hz, hle⟩ := hg.2.pools p y ((run_sound as).lt hx) hy
  rw [hx] at hz
  cases hz
  exact hle

-- A buffer keeps the pool whose resource is gone.
example :
    let s := run [.createPool 3 [64, 0, 0, 0, 0, 0, 0, 0] {},
      .createBuffer 0 [16, 0, 0, 0, 0, 0, 0, 0] [48, 0, 0, 0, 0, 0, 0, 0] {}, .destroy 0 {}]
    s.refs 0 = 1 ∧ s.unmapped = [] ∧ (s.step (.destroy 1 {})).unmapped = [0] := by decide

end Shm
end Yaza
