import Yaza.Shm.Keeping

/-! Which sizes and offsets the requests accept, and what a request that is turned away leaves. -/
namespace Yaza
namespace Shm
open LittleEndian

/-- The request is turned away: it leaves errors about its sizes, and changes nothing else. -/
def Rejects (s t : Shm) : Prop :=
  ∃ es ≠ [], (∀ e ∈ es, ∃ text, e = .invalidSize text) ∧ t = { s with errors := s.errors ++ es }

/-- What `create_pool` does with a size that it accepts, and otherwise. -/
def TakesSize (s t : Shm) (fd : ℤ) (sys : System) : Option ℤ → Prop
  | some n => if 0 < n then t = s.newPool fd (Int64.ofInt n) sys else Rejects s t
  | none => Rejects s t

/-- What `create_buffer` does with an extent that it accepts. -/
def takeBuffer (s : Shm) (p : ℕ) (x : ShmPool) (size offset : Int64) (sys : System) : Shm :=
  if sys.zalloc && sys.resourceCreate then s.addBuffer p x size offset else s.post .noMemory

/-- The same for `create_buffer`. -/
def TakesExtent (s t : Shm) (p : ℕ) (x : ShmPool) (sys : System) : Option ℤ → Option ℤ → Prop
  | some o, some n =>
    if 0 ≤ o ∧ 0 < n ∧ o + n ≤ x.size.toInt then
      t = s.takeBuffer p x (Int64.ofInt n) (Int64.ofInt o) sys
    else Rejects s t
  | _, _ => Rejects s t

/-- The arrays of a request that encode integers. -/
def Action.arrays : Action → List (List UInt8)
  | .createPool _ size _ => [size]
  | .createBuffer _ offset size _ => [offset, size]
  | .resize .. => []
  | .destroy .. => []

/-- The request is accepted exactly if the integers that its arrays encode are such that it may
be. -/
def Accepts (s : Shm) : Action → Prop
  | .createPool fd size sys =>
    TakesSize s (s.step (.createPool fd size sys)) fd sys (encoded size)
  | .createBuffer r offset size sys => ∀ p x, s.resources r = some (.pool p) →
    s.pools p = some x → TakesExtent s (s.step (.createBuffer r offset size sys)) p x sys
      (encoded offset) (encoded size)
  | .resize .. => True
  | .destroy .. => True

/-- Each array is decoded as the integer it encodes, and the request accepted as that allows. -/
def Decodes (s : Shm) (a : Action) : Prop :=
  (∀ array ∈ a.arrays, (fromWlArray array 0).map Int64.toInt = encoded array) ∧ s.Accepts a

variable {s : Shm} {p : ℕ} {x : ShmPool}

theorem rejects_post (s : Shm) (text : String) : Rejects s (s.post (.invalidSize text)) := by
  refine ⟨[.invalidSize text], by simp, ?_, rfl⟩
  intro e he
  exact ⟨text, List.mem_singleton.mp he⟩

theorem rejects_post_post (s : Shm) (text text' : String) :
    Rejects s ((s.post (.invalidSize text)).post (.invalidSize text')) := by
  refine ⟨[.invalidSize text, .invalidSize text'], by simp, ?_, ?_⟩
  · intro e he
    rcases List.mem_cons.mp he with rfl | he
    · exact ⟨text, rfl⟩
    · exact ⟨text', List.mem_singleton.mp he⟩
  · simp [post]

/-- What the decoder makes of an array that is not short and negative. -/
theorem decode_cases {array : List UInt8} (h : ¬ IsShortNegative array) :
    (fromWlArray array 0 = none ∧ encoded array = none) ∨
      ∃ v, fromWlArray array 0 = some v ∧ encoded array = some v.toInt := by
  have hd := (fromWlArray_encoded_iff array).mpr h
  cases hv : fromWlArray array 0 with
  | none =>
    rw [hv, Option.map_none] at hd
    exact .inl ⟨rfl, hd.symm⟩
  | some v =>
    rw [hv, Option.map_some] at hd
    exact .inr ⟨v, rfl, hd.symm⟩

theorem createPool_takesSize (s : Shm) (fd : ℤ) {size : List UInt8} (sys : System)
    (h : ¬ IsShortNegative size) :
    TakesSize s (s.createPool fd size sys) fd sys (encoded size) := by
  unfold Shm.createPool
  rcases decode_cases h with ⟨hv, he⟩ | ⟨v, hv, he⟩
  · rw [hv, he]
    exact rejects_post ..
  · simp only [hv, he, TakesSize, Int64.ofInt_toInt]
    have hpos : v ≤ 0 ↔ ¬ 0 < v.toInt := by rw [Int64.le_iff_toInt_le, Int64.toInt_zero, not_lt]
    by_cases hn : 0 < v.toInt
    · rw [if_pos hn, if_neg (by rw [hpos]; exact not_not.mpr hn)]
    · rw [if_neg hn, if_pos (hpos.mpr hn)]
      exact rejects_post ..

theorem createBuffer_eq (hx : s.pools p = some x) {offset size : List UInt8} {o n : Int64}
    (ho : fromWlArray offset 0 = some o) (hn : fromWlArray size 0 = some n) (sys : System) :
    s.createBuffer p offset size sys =
      if outside x o n then s.post (.invalidSize s!"requested size ({n}) is invalid")
      else s.takeBuffer p x n o sys := by
  simp only [Shm.createBuffer, hx, readExtent, ho, hn]
  split
  · rfl
  · unfold newBuffer takeBuffer
    split <;> rfl

theorem createBuffer_takesExtent (h : Sound s) (hx : s.pools p = some x)
    {offset size : List UInt8} (sys : System) (ho : ¬ IsShortNegative offset)
    (hn : ¬ IsShortNegative size) :
    TakesExtent s (s.createBuffer p offset size sys) p x sys (encoded offset) (encoded size) := by
  -- after an early error the size is zero, and the check turns the request away again
  have early {t : Shm} {o : Int64} (hr : s.readExtent offset size = (t, o, 0)) :
      s.createBuffer p offset size sys =
        t.post (.invalidSize s!"requested size ({(0 : Int64)}) is invalid") := by
    have hout : outside x o 0 = true := by simp [outside]
    simp only [Shm.createBuffer, hx, hr, hout, if_true]
  rcases decode_cases ho with ⟨hv, he⟩ | ⟨o, hv, he⟩
  · rw [early (by simp only [readExtent, hv]; rfl), he]
    exact rejects_post_post ..
  · rcases decode_cases hn with ⟨hw, hf⟩ | ⟨n, hw, hf⟩
    · rw [early (by simp only [readExtent, hv, hw]; rfl), he, hf]
      exact rejects_post_post ..
    · rw [createBuffer_eq hx hv hw, he, hf]
      have hout : outside x o n = false ↔ _ := outside_eq_false_iff (h.data p x hx).2.2
      simp only [TakesExtent, Int64.ofInt_toInt]
      cases hb : outside x o n with
      | false =>
        rw [if_pos (hout.mp hb), if_neg Bool.false_ne_true]
      | true =>
        rw [if_neg (fun hi => by rw [hout.mpr hi] at hb; cases hb), if_pos rfl]
        exact rejects_post ..

/-- In every reachable state a request is decoded and accepted rightly exactly if none of its
arrays is a short one of a negative integer. -/
theorem decodes_iff (as : List Action) (a : Action) :
    (run as).Decodes a ↔ ∀ array ∈ a.arrays, ¬ IsShortNegative array := by
  have h := run_sound as
  have hstep (a : Action) : (run as).step a = (run as).act a := by
    simp [Shm.step, h.fault]
  constructor
  · rintro ⟨hd, -⟩ array hm
    exact (fromWlArray_encoded_iff array).mp (hd array hm)
  · intro hs
    refine ⟨fun array hm => (fromWlArray_encoded_iff array).mpr (hs array hm), ?_⟩
    cases a with
    | createPool fd size sys =>
      simp only [Accepts, hstep]
      exact createPool_takesSize _ fd sys (hs size (by simp [Action.arrays]))
    | createBuffer r offset size sys =>
      intro p x hr hx
      rw [hstep]
      simp only [Shm.act, onPool, hr]
      exact createBuffer_takesExtent h hx sys (hs offset (by simp [Action.arrays]))
        (hs size (by simp [Action.arrays]))
    | resize r size sys => trivial
    | destroy r sys => trivial

/-- Four bytes that encode -1 make a pool of almost four gibibytes. -/
theorem shortNegative_accepted :
    ¬ (run []).Decodes (.createPool 3 [255, 255, 255, 255] {}) ∧
      encoded [255, 255, 255, 255] = some (-1) ∧
      ((run [.createPool 3 [255, 255, 255, 255] {}]).pools 0).map ShmPool.size =
        some 4294967295 := by
  refine ⟨?_, by decide, by decide⟩
  rintro ⟨h, -⟩
  exact absurd (h _ (List.mem_singleton.mpr rfl)) (by decide)

end Shm
end Yaza
