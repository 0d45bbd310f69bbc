import Yaza.Shm.Access

/-! When `sigbuf_is_impossible` may be trusted. A sealed file does not get shorter, so a pool that
was inside its file remains there until the client resizes it, and `resize` does not ask again. -/
namespace Yaza
namespace Shm
variable {s : Shm}

/-- A pool is replaced by one of its size. -/
theorem size_of_set {h : Arena ShmPool} {p q : ℕ} {x w y z : ShmPool} (hx : h p = some x)
    (hw : w.size = x.size) (hy : h q = some y) (hz : h.set p w q = some z) : z.size = y.size := by
  rw [Arena.set_apply] at hz
  split at hz
  · next hq =>
    rw [hq, hx] at hy
    cases hy
    cases hz
    exact hw
  · rw [hy] at hz
    cases hz
    rfl

theorem less_size (s : Shm) {p q : ℕ} {x y z : ShmPool} (hx : s.pools p = some x)
    (hz : (s.less p x).pools q = some z) (hy : s.pools q = some y) : z.size = y.size := by
  unfold less at hz
  split at hz
  · change s.pools.erase p q = some z at hz
    rw [Arena.erase_apply] at hz
    split at hz
    · cases hz
    · rw [hy] at hz
      cases hz
      rfl
  · exact size_of_set (w := { x with internalRefcount := x.internalRefcount - 1 }) hx rfl hy hz

/-- What `resize` leaves of a pool. -/
theorem resize_pools (h : Sound s) {p : ℕ} {x : ShmPool} (hx : s.pools p = some x) (n : Int32)
    (sys : System) :
    ∃ z : ShmPool, (s.resize p n sys).pools = s.pools.set p z ∧
      z.size = if x.size ≤ n.toInt64 ∧ sys.mapError = none then n.toInt64 else x.size := by
  have same : s.pools = s.pools.set p x := (Arena.set_eq_self hx).symm
  have he := h.external p x hx
  by_cases hs : n.toInt64 < x.size
  · refine ⟨x, ?_, ?_⟩
    · simp only [resize, hx, hs, if_true]
      exact same
    · rw [if_neg]
      rintro ⟨h1, -⟩
      exact absurd hs (Int64.not_lt.mpr h1)
  have h1 := Int64.not_lt.mp hs
  simp only [resize, hx, hs, if_false, he, if_true, finishResize]
  split
  · next h2 =>
    refine ⟨_, rfl, ?_⟩
    split
    · exact h2
    · rfl
  · cases hm : sys.mapError with
    | some e => exact ⟨_, rfl, by simp⟩
    | none =>
      refine ⟨_, by simp; rfl, ?_⟩
      simp [h1]

theorem createPool_pools (s : Shm) (fd : ℤ) (size : List UInt8) (sys : System) {p : ℕ}
    (hp : p ≠ s.nextId) : (s.createPool fd size sys).pools p = s.pools p := by
  unfold createPool newPool munmap
  dsimp only
  repeat' split
  all_goals first | rfl | exact Arena.set_of_ne _ _ hp

theorem createBuffer_size (s : Shm) {q : ℕ} {w : ShmPool} (hw : s.pools q = some w)
    (offset size : List UInt8) (sys : System) {p : ℕ} {x z : ShmPool} (hx : s.pools p = some x)
    (hz : (s.createBuffer q offset size sys).pools p = some z) : z.size = x.size := by
  have hc : (s.createBuffer q offset size sys).pools = s.pools ∨
      (s.createBuffer q offset size sys).pools =
        s.pools.set q { w with internalRefcount := w.internalRefcount + 1 } := by
    simp only [createBuffer, hw]
    rcases s.readExtent_cases offset size with ⟨e, o, hr⟩ | ⟨o, n, hr⟩ <;>
      simp only [hr, newBuffer] <;> repeat' split
    all_goals first | exact .inl rfl | exact .inr rfl
  rcases hc with hc | hc <;> rw [hc] at hz
  · rw [hx] at hz
    cases hz
    rfl
  · exact size_of_set (w := { w with internalRefcount := w.internalRefcount + 1 }) hw rfl hx hz

/-- Only a resize changes the size of a pool. -/
theorem step_size (h : Sound s) (a : Action) {p : ℕ} {z : ShmPool} (hp : p ≠ s.nextId)
    (hz : (s.step a).pools p = some z) :
    ∃ x, s.pools p = some x ∧ (z.size = x.size ∨
      ∃ n sys, a = .resize p n sys ∧ s.resources p = some (.pool p) ∧ sys.mapError = none ∧
        x.size ≤ n.toInt64 ∧ z.size = n.toInt64) := by
  obtain ⟨x, hx⟩ := Option.isSome_iff_exists.mp (step_pools h a hp (by rw [hz]; rfl))
  refine ⟨x, hx, ?_⟩
  have same {t : Shm} (ht : t.pools p = s.pools p) (hz' : t.pools p = some z) :
      z.size = x.size := by
    rw [ht, hx] at hz'
    cases hz'
    rfl
  unfold Shm.step at hz
  rw [if_neg (by rw [h.fault]; simp)] at hz
  cases a with
  | createPool fd size sys => exact .inl (same (s.createPool_pools fd size sys hp) hz)
  | createBuffer r offset size sys =>
    simp only [act, onPool] at hz
    split at hz
    · next q hq =>
      obtain ⟨rfl, w, hw⟩ := h.pool_of_resource hq
      exact .inl (s.createBuffer_size hw offset size sys hx hz)
    · exact .inl (same rfl hz)
  | resize r n sys =>
    simp only [act, onPool] at hz
    split at hz
    · next q hq =>
      obtain ⟨rfl, w, hw⟩ := h.pool_of_resource hq
      obtain ⟨v, hv, hvs⟩ := resize_pools h hw n sys
      rw [hv] at hz
      by_cases hpq : p = q
      · subst hpq
        rw [Arena.set_self] at hz
        cases hz
        rw [hx] at hw
        cases hw
        split at hvs
        · next hn => exact .inr ⟨n, sys, rfl, hq, hn.2, hn.1, hvs⟩
        · exact .inl hvs
      · rw [Arena.set_of_ne _ _ hpq] at hz
        exact .inl (same rfl hz)
    · exact .inl (same rfl hz)
  | destroy r sys =>
    simp only [act, destroyResource] at hz
    split at hz
    · exact .inl (same rfl hz)
    · next q hq =>
      obtain ⟨rfl, w, hw⟩ := h.pool_of_resource hq
      rw [unref_eq h hw] at hz
      exact .inl (s.less_size hw hz hx)
    · next b hb =>
      obtain ⟨rfl, y, hy⟩ := h.buffer_of_resource hb
      obtain ⟨w, hw, -⟩ := h.inside b y hy
      simp only [destroyBuffer, hy, unref_eq h hw] at hz
      exact .inl (s.less_size hw hz hx)

end Shm

namespace Reader

/-- No pool that `begin_access` skips reaches behind the end of its file. -/
def SealedInside (s : Reader) : Prop :=
  ∀ p f x, s.isImpossible p = true → s.backings p = some (.file f) → s.shm.pools p = some x →
    x.size.toInt ≤ ((s.files f).getD {}).data.length

/-- A resize of such a pool keeps inside the file. -/
def ResizesInside (s : Reader) : Action → Prop
  | .request (.resize p n sys) _ _ =>
    s.stopped = false → s.copy = none → s.shm.resources p = some (.pool p) →
      sys.mapError = none → s.isImpossible p = true →
      ∀ f x, s.backings p = some (.file f) → s.shm.pools p = some x → x.size ≤ n.toInt64 →
        n.toInt ≤ ((s.files f).getD {}).data.length
  | _ => True

/-- The file of such a pool is sealed. -/
structure Sealed (s : Reader) : Prop where
  sound : Shm.Sound s.shm
  kept : ∀ p f, s.isImpossible p = true → s.backings p = some (.file f) →
    ∃ x, s.files f = some x ∧ x.sealsShrink = true ∧
      ∀ z, s.shm.pools p = some z → z.size.toInt ≤ x.data.length

/-- The pools are as they were, and no pool has come to show a file. -/
structure Shows (s t : Reader) : Prop where
  shm : t.shm = s.shm
  files : t.files = s.files
  flags : t.sigbufIsImpossible = s.sigbufIsImpossible
  backings : ∀ p f, t.backings p = some (.file f) → s.backings p = some (.file f)

/-- What a step may be, apart from nothing. -/
inductive Moves (s : Reader) : Action → Reader → Prop where
  | changeFile (f : ℕ) (data : List UInt8) : Moves s (.changeFile f data) (s.changeFile f data)
  | sealFile (f : ℕ) : Moves s (.sealFile f) (s.sealFile f)
  | request (hc : s.copy = none) (a : Shm.Action) (f : ℕ) (stat : Bool) :
    Moves s (.request a f stat) (s.request a f stat)
  | readWl (hc : s.copy = none) (faults : Bool) : Moves s (.readWl faults) (s.readWl faults)
  | start (hc : s.copy = none) (b : ℕ) (zalloc : Bool) :
    Moves s (.start b zalloc) (s.start b zalloc)
  | load {c : Shm.Copy} (hc : s.copy = some c) (k : ℕ) (isMapped : Bool) :
    Moves s (.load k isMapped) (s.load c k isMapped)
  | finish {c : Shm.Copy} (hc : s.copy = some c) : Moves s .finish (s.finish c)

theorem step_moves (s : Reader) (a : Action) :
    s.step a = s ∨ s.stopped = false ∧ s.Moves a (s.step a) := by
  unfold step
  split
  · exact .inl rfl
  · next hs =>
    have hrun : s.stopped = false := by simpa using hs
    -- requests wait for the end of a copy, and without a copy nothing is read
    cases hc : s.copy with
    | none =>
      cases a with
      | changeFile f data => exact .inr ⟨hrun, .changeFile f data⟩
      | sealFile f => exact .inr ⟨hrun, .sealFile f⟩
      | request a f stat => exact .inr ⟨hrun, by simpa [act, hc] using .request hc a f stat⟩
      | readWl faults => exact .inr ⟨hrun, by simpa [act, hc] using .readWl hc faults⟩
      | start b zalloc => exact .inr ⟨hrun, by simpa [act, hc] using .start hc b zalloc⟩
      | load k isMapped => exact .inl (by simp [act, hc])
      | finish => exact .inl (by simp [act, hc])
    | some c =>
      cases a with
      | changeFile f data => exact .inr ⟨hrun, .changeFile f data⟩
      | sealFile f => exact .inr ⟨hrun, .sealFile f⟩
      | request a f stat => exact .inl (by simp [act, hc])
      | readWl faults => exact .inl (by simp [act, hc])
      | start b zalloc => exact .inl (by simp [act, hc])
      | load k isMapped => exact .inr ⟨hrun, by simpa [act, hc] using .load hc k isMapped⟩
      | finish => exact .inr ⟨hrun, by simpa [act, hc] using .finish hc⟩

section Sealed
variable {s t u : Reader}

theorem Sealed.inside (h : Sealed s) : SealedInside s := by
  intro p f z hi hf hz
  obtain ⟨x, hx, -, hk⟩ := h.kept p f hi hf
  rw [hx]
  exact hk z hz

theorem Shows.refl (s : Reader) : Shows s s := ⟨rfl, rfl, rfl, fun _ _ h => h⟩

theorem Sealed.shows (h : Sealed s) (hs : Shows s t) : Sealed t := by
  refine ⟨hs.shm ▸ h.sound, fun p f hi hf => ?_⟩
  rw [isImpossible, hs.flags] at hi
  rw [hs.files, hs.shm]
  exact h.kept p f hi (hs.backings p f hf)

theorem beginAccess_shows (s : Reader) (p : ℕ) (zalloc : Bool) :
    Shows s (s.beginAccess p zalloc) := by
  unfold beginAccess
  repeat' split
  all_goals exact ⟨rfl, rfl, rfl, fun _ _ h => h⟩

theorem endAccess_shows (s : Reader) (b p : ℕ) : Shows s (s.endAccess b p) := by
  unfold endAccess
  repeat' split
  all_goals exact ⟨rfl, rfl, rfl, fun _ _ h => h⟩

theorem start_shows (s : Reader) (b : ℕ) (zalloc : Bool) : Shows s (s.start b zalloc) := by
  unfold start
  split
  · exact .refl s
  · split
    · exact ⟨rfl, rfl, rfl, fun _ _ h => h⟩
    · have h1 (p : ℕ) := s.beginAccess_shows p zalloc
      exact ⟨(h1 _).shm, (h1 _).files, (h1 _).flags, (h1 _).backings⟩

theorem handleSigbus_shows (s : Reader) (data a : ℕ) (isMapped : Bool) :
    Shows s (s.handleSigbus data a isMapped) := by
  unfold handleSigbus
  repeat' split
  all_goals try exact ⟨rfl, rfl, rfl, fun _ _ h => h⟩
  refine ⟨rfl, rfl, rfl, fun p f h => ?_⟩
  change (s.backings.set _ .anonymous) p = some (.file f) at h
  rw [Arena.set_apply] at h
  split at h
  · cases h
  · exact h

theorem load_shows (s : Reader) (c : Shm.Copy) (k : ℕ) (isMapped : Bool) :
    Shows s (s.load c k isMapped) := by
  unfold load sigbus
  repeat' split
  all_goals try exact ⟨rfl, rfl, rfl, fun _ _ h => h⟩
  have h1 := handleSigbus_shows { s with copy := some { c with faulted := true } }
  exact ⟨(h1 _ _ _).shm, (h1 _ _ _).files, (h1 _ _ _).flags, (h1 _ _ _).backings⟩

theorem finish_shows (s : Reader) (c : Shm.Copy) : Shows s (s.finish c) := by
  unfold finish
  split
  · exact ⟨rfl, rfl, rfl, fun _ _ h => h⟩
  · split
    · have h1 := s.endAccess_shows c.buffer
      exact ⟨(h1 _).shm, (h1 _).files, (h1 _).flags, (h1 _).backings⟩
    · exact .refl s

theorem readWl_shows (s : Reader) (faults : Bool) : Shows s (s.readWl faults) := by
  unfold readWl
  dsimp only
  repeat' split
  all_goals exact ⟨rfl, rfl, rfl, fun _ _ h => h⟩

/-- A sealed file gets no shorter. -/
theorem changeFile_sealed (h : Sealed s) (f : ℕ) (data : List UInt8) :
    Sealed (s.changeFile f data) := by
  unfold changeFile
  split
  · next hn =>
    refine ⟨h.sound, fun p g hi hg => ?_⟩
    obtain ⟨x, hx, hk⟩ := h.kept p g hi hg
    refine ⟨x, (Arena.set_of_ne _ _ ?_).trans hx, hk⟩
    rintro rfl
    rw [hn] at hx
    cases hx
  · next w hw =>
    split
    · exact h
    · next hl =>
      refine ⟨h.sound, fun p g hi hg => ?_⟩
      obtain ⟨x, hx, hs, hk⟩ := h.kept p g hi hg
      by_cases hgf : g = f
      · subst hgf
        rw [hw] at hx
        cases hx
        refine ⟨{ w with data }, Arena.set_self .., hs, fun z hz => ?_⟩
        have h1 := hk z hz
        simp only [hs, Bool.true_and, decide_eq_true_eq] at hl
        have h2 : w.data.length ≤ data.length := Nat.not_lt.mp hl
        exact h1.trans (by exact_mod_cast h2)
      · exact ⟨x, (Arena.set_of_ne _ _ hgf).trans hx, hs, hk⟩

theorem sealFile_sealed (h : Sealed s) (f : ℕ) : Sealed (s.sealFile f) := by
  refine ⟨h.sound, fun p g hi hg => ?_⟩
  obtain ⟨x, hx, hs, hk⟩ := h.kept p g hi hg
  by_cases hgf : g = f
  · subst hgf
    refine ⟨{ x with sealsShrink := true }, ?_, rfl, hk⟩
    simp [sealFile, hx]
  · refine ⟨x, ?_, hs, hk⟩
    simpa [sealFile, hgf] using hx

/-- What is kept of an old pool by a request that resizes it inside its file. -/
theorem Sealed.kept_old (h : Sealed s) (hs : s.stopped = false) (hc : s.copy = none)
    {a : Shm.Action} {f : ℕ} {stat : Bool} (hr : s.ResizesInside (.request a f stat)) {p g : ℕ}
    (hp : p ≠ s.shm.nextId) (hi : s.isImpossible p = true) (hg : s.backings p = some (.file g)) :
    ∃ x, s.files g = some x ∧ x.sealsShrink = true ∧
      ∀ z, (s.shm.step a).pools p = some z → z.size.toInt ≤ x.data.length := by
  obtain ⟨w, hw, hws, hk⟩ := h.kept p g hi hg
  refine ⟨w, hw, hws, fun z hz => ?_⟩
  obtain ⟨x, hx, hsz⟩ := Shm.step_size h.sound a hp hz
  rcases hsz with hsz | ⟨n, sys, rfl, hres, hm, hle, hsz⟩
  · rw [hsz]
    exact hk x hx
  · have h1 := hr hs hc hres hm hi g x hg hx hle
    rw [hw] at h1
    rw [hsz, Int32.toInt_toInt64]
    exact h1

theorem request_sealed (h : Sealed s) (hs : s.stopped = false) (hc : s.copy = none)
    {a : Shm.Action} {f : ℕ} {stat : Bool} (hr : s.ResizesInside (.request a f stat)) :
    Sealed (s.request a f stat) := by
  unfold request
  split
  · next hn =>
    refine ⟨Shm.step_sound h.sound a, fun p g hi hg => ?_⟩
    by_cases hp : p = s.shm.nextId
    · subst hp
      obtain ⟨x, hx, hxs, -⟩ := h.kept _ g hi hg
      refine ⟨x, hx, hxs, fun z hz => ?_⟩
      change (s.shm.step a).pools _ = some z at hz
      rw [hn] at hz
      cases hz
    · exact h.kept_old hs hc hr hp hi hg
  · next x hx =>
    refine ⟨Shm.step_sound h.sound a, fun p g hi hg => ?_⟩
    change (s.backings.set s.shm.nextId (.file f)) p = some (.file g) at hg
    change ((s.sigbufIsImpossible.set s.shm.nextId (s.isSealed f x.size stat)) p).getD false =
      true at hi
    by_cases hp : p = s.shm.nextId
    · subst hp
      rw [Arena.set_self] at hg hi
      cases hg
      -- `create_pool` has asked the file
      obtain ⟨w, hw, hsz⟩ := (Option.any_eq_true ..).mp (show (s.files f).any _ = true from hi)
      simp only [Bool.and_eq_true, decide_eq_true_eq] at hsz
      refine ⟨w, hw, hsz.1.1, fun z hz => ?_⟩
      change (s.shm.step a).pools _ = some z at hz
      rw [hx] at hz
      cases hz
      exact hsz.2
    · rw [Arena.set_of_ne _ _ hp] at hg hi
      exact h.kept_old hs hc hr hp hi hg

/-- A resize that goes well shows in the pool. -/
theorem resizesInside_of_step (h : Sealed s) (a : Action) (hP : SealedInside (s.step a)) :
    s.ResizesInside a := by
  cases a with
  | request a f stat =>
    cases a with
    | resize p n sys =>
      intro hs hc hres hm hi g x hg hx hle
      obtain ⟨z, hz, hzs⟩ := Shm.resize_pools h.sound hx n sys
      rw [if_pos ⟨hle, hm⟩] at hzs
      have hlt := h.sound.lt hx
      have ht : s.shm.step (.resize p n sys) = s.shm.resize p n sys := by
        have h1 := h.sound.fault
        simp [Shm.step, Shm.act, Shm.onPool, hres, h1]
      have hnext : (s.shm.resize p n sys).pools s.shm.nextId = none := by
        rw [hz, Arena.set_of_ne _ _ (Nat.ne_of_gt hlt)]
        by_contra hn
        obtain ⟨v, hv⟩ := Option.ne_none_iff_exists'.mp hn
        exact absurd (h.sound.lt hv) (Nat.lt_irrefl _)
      have he : s.step (.request (.resize p n sys) f stat) =
          { s with shm := s.shm.resize p n sys } := by
        simp [Reader.step, Reader.act, request, hs, hc, ht, hnext]
      rw [he] at hP
      have h1 := hP p g z hi hg (by rw [hz, Arena.set_self])
      rw [hzs, Int32.toInt_toInt64] at h1
      exact h1
    | _ => trivial
  | _ => trivial

theorem step_sealed (h : Sealed s) (a : Action) (hr : s.ResizesInside a) : Sealed (s.step a) := by
  rcases s.step_moves a with he | ⟨hrun, hm⟩
  · rw [he]
    exact h
  generalize s.step a = t at hm
  cases hm with
  | changeFile f data => exact changeFile_sealed h f data
  | sealFile f => exact sealFile_sealed h f
  | request hc => exact request_sealed h hrun hc hr
  | readWl _ faults => exact h.shows (readWl_shows s faults)
  | start _ b zalloc => exact h.shows (start_shows s b zalloc)
  | load _ k isMapped => exact h.shows (load_shows s _ k isMapped)
  | finish => exact h.shows (finish_shows s _)

theorem init_sealed : Sealed init := ⟨Shm.init_sound, fun p f hi => by cases hi⟩

end Sealed

/-- `begin_access` may skip what it skips exactly as long as clients resize such pools inside their
files. -/
theorem sealed_throughout_iff (as : List Action) :
    Run.Always step SealedInside init as ↔ Run.Each step ResizesInside init as :=
  Run.always_iff_each_of (G := Sealed) init_sealed (fun _ h => h.inside)
    (fun _ a h hr => step_sealed h a hr) (fun _ a h hP => resizesInside_of_step h a hP) as

/-- The only handler is that of `shm_buffer.cpp`, and it is ready for the copy. -/
structure Equipped (s : Reader) : Prop where
  handlers : ∀ h ∈ s.handlers, h = Shm.Handler.own
  ready : ∀ c y, s.copy = some c → s.shm.buffers c.buffer = some y →
    s.isImpossible y.pool = false → .own ∈ s.handlers ∧ s.sigbusData.isSome

section Equipped
variable {s : Reader}

theorem Equipped.head (h : Equipped s) (ho : .own ∈ s.handlers) :
    s.handlers.head? = some .own := by
  cases hs : s.handlers with
  | nil =>
    rw [hs] at ho
    cases ho
  | cons k l =>
    have h1 := h.handlers k (by simp [hs])
    rw [h1, List.head?_cons]

/-- Between two copies nothing has to be ready. -/
theorem Equipped.idle (h : Equipped s) {t : Reader} (hh : t.handlers = s.handlers)
    (hc : t.copy = none) : Equipped t where
  handlers := hh ▸ h.handlers
  ready := fun c y hc' => by
    rw [hc] at hc'
    cases hc'

/-- A copy goes on. -/
theorem Equipped.keep (h : Equipped s) {t : Reader} {c c' : Shm.Copy} (hc : s.copy = some c)
    (hc' : t.copy = some c') (hb : c'.buffer = c.buffer) (hs : t.shm = s.shm)
    (hf : t.sigbufIsImpossible = s.sigbufIsImpossible) (hh : t.handlers = s.handlers)
    (hd : s.sigbusData.isSome → t.sigbusData.isSome) : Equipped t where
  handlers := hh ▸ h.handlers
  ready := fun k y hk hy hi => by
    rw [hc'] at hk
    cases hk
    rw [hb, hs] at hy
    rw [isImpossible, hf] at hi
    obtain ⟨h1, h2⟩ := h.ready c y hc hy hi
    exact ⟨hh ▸ h1, hd h2⟩

end Equipped

end Reader
end Yaza
