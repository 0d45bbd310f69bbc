import Yaza.Shm.Keeping

/-! Copies out of the memory the clients share (`shm_buffer.cpp`). A client may cut its file short
at any moment, and the handler of SIGBUS puts zeros in the place of what is missing. -/
namespace Yaza
namespace Shm

/-- A file of a client. -/
structure File where
  data : List UInt8 := []
  sealsShrink : Bool := false
  deriving DecidableEq, Repr

/-- What the pages of a pool show: a file, or the zeros of a private mapping. -/
inductive Backing where
  | file (f : ℕ)
  | anonymous
  deriving DecidableEq, Repr

/-- `ShmSigbusData`. -/
structure SigbusData where
  currentPool : Option ℕ := none
  accessCount : ℤ := 0
  fallbackMappingUsed : Bool := false
  deriving DecidableEq, Repr

/-- A handler of SIGBUS: that of `shm_buffer.cpp`, or the one libwayland has for the buffers of
`wl_shm`. -/
inductive Handler where
  | own | wayland
  deriving DecidableEq, Repr

/-- A `memcpy` out of a buffer: the bytes it has read so far, in whatever order, and whether a read
has raised SIGBUS. -/
structure Copy where
  buffer : ℕ
  bytes : Arena UInt8 := Arena.empty
  faulted : Bool := false

def pageSize : ℕ := 4096

/-- A byte of a mapped file. Behind its end the last page shows zeros, and there are no pages after
that. -/
def File.byte? (x : File) (a : ℕ) : Option UInt8 :=
  if x.data.length ≤ a / pageSize * pageSize then none else some (x.data.getD a 0)

end Shm

/-- The program as far as it reads shared memory. `handlers` are those installed, the last one
first. `told` are the buffers that an error was posted for, and `faulted` those of the copies that
raised SIGBUS, oldest first. -/
structure Reader where
  shm : Shm := {}
  files : Arena Shm.File := Arena.empty
  backings : Arena Shm.Backing := Arena.empty
  sigbufIsImpossible : Arena Bool := Arena.empty
  handlers : List Shm.Handler := []
  sigbusData : Option Shm.SigbusData := none
  copy : Option Shm.Copy := none
  told : List ℕ := []
  faulted : List ℕ := []
  fault : Option Shm.Fault := none
  killed : Bool := false

namespace Reader

def crash (s : Reader) (f : Shm.Fault) : Reader := { s with fault := s.fault.or (some f) }

def kill (s : Reader) : Reader := { s with killed := true }

/-- A client changes its file; one that is sealed does not get shorter. -/
def changeFile (s : Reader) (f : ℕ) (data : List UInt8) : Reader :=
  match s.files f with
  | none => { s with files := s.files.set f { data } }
  | some x =>
    if x.sealsShrink && data.length < x.data.length then s
    else { s with files := s.files.set f { x with data } }

def sealFile (s : Reader) (f : ℕ) : Reader :=
  { s with files := s.files.modify f fun x => { x with sealsShrink := true } }

/-- What `create_pool` asks of the file; `fstat` may fail. -/
def isSealed (s : Reader) (f : ℕ) (size : Int64) (stat : Bool) : Bool :=
  (s.files f).any fun x => x.sealsShrink && stat && size.toInt ≤ x.data.length

/-- A request, with the file that its descriptor stands for if it makes a pool. -/
def request (s : Reader) (a : Shm.Action) (f : ℕ) (stat : Bool) : Reader :=
  match (s.shm.step a).pools s.shm.nextId with
  | none => { s with shm := s.shm.step a }
  | some x =>
    { s with
      shm := s.shm.step a
      backings := s.backings.set s.shm.nextId (.file f)
      sigbufIsImpossible := s.sigbufIsImpossible.set s.shm.nextId (s.isSealed f x.size stat) }

def isImpossible (s : Reader) (p : ℕ) : Bool := (s.sigbufIsImpossible p).getD false

/-- The handler is installed once, and the data is there from then on unless `zalloc` fails. -/
def prepare (s : Reader) (zalloc : Bool) : Reader :=
  { s with
    handlers := if .own ∈ s.handlers then s.handlers else .own :: s.handlers
    sigbusData := s.sigbusData.or (if zalloc then some {} else none) }

/-- `begin_access`, for a buffer of the pool. -/
def beginAccess (s : Reader) (p : ℕ) (zalloc : Bool) : Reader :=
  if s.isImpossible p then s
  else
    match (s.prepare zalloc).sigbusData with
    | none => s.prepare zalloc
    | some d =>
      if d.currentPool = none ∨ d.currentPool = some p then
        { s.prepare zalloc with
          sigbusData := some { d with currentPool := some p, accessCount := d.accessCount + 1 } }
      else (s.prepare zalloc).crash .assertion

/-- `end_access`, for the buffer `b` of the pool. -/
def endAccess (s : Reader) (b p : ℕ) : Reader :=
  if s.isImpossible p then s
  else
    match s.sigbusData with
    | none => s.crash .assertion
    | some d =>
      if d.accessCount < 1 then s.crash .assertion
      else if d.accessCount - 1 = 0 then
        { s with
          told := if d.fallbackMappingUsed then s.told ++ [b] else s.told
          sigbusData := some
            { currentPool := none, accessCount := 0, fallbackMappingUsed := false } }
      else { s with sigbusData := some { d with accessCount := d.accessCount - 1 } }

/-- `handle_sigbus`, for a read at the position `a` of a mapping; `mmap` may fail. -/
def handleSigbus (s : Reader) (data a : ℕ) (isMapped : Bool) : Reader :=
  match s.sigbusData with
  | none => s.kill
  | some d =>
    match d.currentPool with
    | none => s.kill
    | some q =>
      match s.shm.pools q with
      | none => s.crash .useAfterFree
      | some y =>
        if y.data = data ∧ a < y.size.toInt then
          if isMapped then
            { s with
              sigbusData := some { d with fallbackMappingUsed := true }
              backings := s.backings.set q .anonymous }
          else s.kill
        else s.kill

/-- SIGBUS goes to the handler that was installed last. That of libwayland knows of no pool of
`zwn_shm`, and when it raises the signal again, the address is lost. -/
def sigbus (s : Reader) (data a : ℕ) (isMapped : Bool) : Reader :=
  match s.handlers.head? with
  | some .own => s.handleSigbus data a isMapped
  | _ => s.kill

/-- What a pool shows. -/
def byte? (s : Reader) (p a : ℕ) : Option UInt8 :=
  match s.backings p with
  | none => none
  | some .anonymous => some 0
  | some (.file f) => ((s.files f).getD {}).byte? a

/-- The copy begins. -/
def start (s : Reader) (b : ℕ) (zalloc : Bool) : Reader :=
  match s.shm.buffers b with
  | none => s
  | some y =>
    match s.shm.pools y.pool with
    | none => s.crash .useAfterFree
    | some _ => { s.beginAccess y.pool zalloc with copy := some { buffer := b } }

/-- The copy reads a byte. One that raises SIGBUS is read again once the handler has returned. -/
def load (s : Reader) (c : Shm.Copy) (k : ℕ) (isMapped : Bool) : Reader :=
  match s.shm.buffers c.buffer with
  | none => s.crash .useAfterFree
  | some y =>
    match s.shm.pools y.pool with
    | none => s.crash .useAfterFree
    | some x =>
      if y.size.toInt ≤ k then s
      else
        match s.byte? y.pool (y.offset.toInt.toNat + k) with
        | some v => { s with copy := some { c with bytes := c.bytes.set k v } }
        | none =>
          { s with copy := some { c with faulted := true } }.sigbus x.data
            (y.offset.toInt.toNat + k) isMapped

/-- The copy ends when every byte has been read. -/
def finish (s : Reader) (c : Shm.Copy) : Reader :=
  match s.shm.buffers c.buffer with
  | none => s.crash .useAfterFree
  | some y =>
    if (List.range y.size.toInt.toNat).all fun k => (c.bytes k).isSome then
      { s.endAccess c.buffer y.pool with
        copy := none
        faulted := if c.faulted then s.faulted ++ [c.buffer] else s.faulted }
    else s

/-- A read of a buffer of `wl_shm`, by libwayland's `begin_access`; it may raise SIGBUS too. -/
def readWl (s : Reader) (faults : Bool) : Reader :=
  let hs := if .wayland ∈ s.handlers then s.handlers else .wayland :: s.handlers
  if faults && hs.head? ≠ some .wayland then { s with handlers := hs }.kill
  else { s with handlers := hs }

/-- Clients change their files at any time. The program handles requests and reads buffers of
`wl_shm` only between two copies. -/
inductive Action where
  | changeFile (f : ℕ) (data : List UInt8)
  | sealFile (f : ℕ)
  | request (a : Shm.Action) (f : ℕ) (stat : Bool)
  | readWl (faults : Bool)
  | start (buffer : ℕ) (zalloc : Bool)
  | load (k : ℕ) (isMapped : Bool)
  | finish

def act (s : Reader) : Action → Reader
  | .changeFile f data => s.changeFile f data
  | .sealFile f => s.sealFile f
  | .request a f stat => if s.copy.isSome then s else s.request a f stat
  | .readWl faults => if s.copy.isSome then s else s.readWl faults
  | .start b zalloc => if s.copy.isSome then s else s.start b zalloc
  | .load k isMapped => s.copy.elim s fun c => s.load c k isMapped
  | .finish => s.copy.elim s fun c => s.finish c

def stopped (s : Reader) : Bool := s.killed || s.fault.isSome || s.shm.fault.isSome

/-- Nothing happens after the end. -/
def step (s : Reader) (a : Action) : Reader := if s.stopped then s else s.act a

def init : Reader := {}

/-- The next read of the copy is behind the last page of the file. -/
def PastEnd (s : Reader) (c : Shm.Copy) (k : ℕ) : Prop :=
  ∃ y, s.shm.buffers c.buffer = some y ∧ (k : ℤ) < y.size.toInt ∧
    s.byte? y.pool (y.offset.toInt.toNat + k) = none

/-- The program runs, an error was posted for exactly the copies that raised SIGBUS, and between two
copies no pool is named. -/
structure Robust (s : Reader) : Prop where
  running : s.stopped = false
  told : s.told = s.faulted
  idle : s.copy = none → ∀ d, s.sigbusData = some d → d = {}

/-- A read behind the end is one of a copy that has begun its access, the handler of
`shm_buffer.cpp` was installed last, and there is memory for the zeros; an access that is to end
has begun; and a read of `wl_shm` raises SIGBUS only when the handler of libwayland was installed
last. -/
def Guards (s : Reader) : Action → Prop
  | .load k isMapped => ∀ c, s.copy = some c → s.PastEnd c k →
      (∀ y, s.shm.buffers c.buffer = some y → s.isImpossible y.pool = false) ∧
        s.sigbusData.isSome ∧ s.handlers.head? = some .own ∧ isMapped = true
  | .finish => ∀ c y, s.copy = some c → s.shm.buffers c.buffer = some y →
      (∀ k : ℕ, (k : ℤ) < y.size.toInt → (c.bytes k).isSome) →
      s.isImpossible y.pool = true ∨ s.sigbusData.isSome
  | .readWl faults => s.copy = none → faults = true → .wayland ∈ s.handlers →
      s.handlers.head? = some .wayland
  | _ => True

/-- What `begin_access` has noted for the copy. -/
structure Accesses (s : Reader) (c : Shm.Copy) (p : ℕ) : Prop where
  skipped : s.isImpossible p = true → c.faulted = false ∧ ∀ d, s.sigbusData = some d → d = {}
  noted : s.isImpossible p = false → ∀ d, s.sigbusData = some d →
    d = { currentPool := some p, accessCount := 1, fallbackMappingUsed := c.faulted }
  unnoted : s.sigbusData = none → c.faulted = false

structure Fit (s : Reader) : Prop extends Robust s where
  sound : Shm.Sound s.shm
  backed : ∀ p, (s.shm.pools p).isSome → (s.backings p).isSome
  copying : ∀ c, s.copy = some c → ∃ y, s.shm.buffers c.buffer = some y ∧ s.Accesses c y.pool

end Reader

namespace Shm
variable {s : Shm}

theorem step_sound (h : Sound s) (a : Action) : Sound (s.step a) :=
  Path.preserves (fun _ _ hc hs => hc.sound hs) (step_changes h a) h

theorem unref_nextId (s : Shm) (p : ℕ) (isExternal : Bool) (sys : System) :
    (s.unref p isExternal sys).nextId = s.nextId := by
  have release (t : Shm) : (t.releasePool p).nextId = t.nextId := by
    unfold releasePool munmap
    repeat' split
    all_goals rfl
  unfold unref
  split
  · rfl
  · rw [release]
    split
    · unfold dropExternal finishResize
      dsimp only
      repeat' split
      all_goals rfl
    · unfold dropInternal
      dsimp only
      split <;> rfl

/-- A request uses one address at most. -/
theorem step_nextId (s : Shm) (a : Action) : (s.step a).nextId ≤ s.nextId + 1 := by
  have onPool (r : ℕ) {f : ℕ → Shm} (hf : ∀ p, (f p).nextId ≤ s.nextId + 1) :
      (s.onPool r f).nextId ≤ s.nextId + 1 := by
    unfold Shm.onPool
    split
    · exact hf _
    · exact Nat.le_succ _
  unfold Shm.step
  split
  · exact Nat.le_succ _
  · cases a with
    | createPool fd size sys =>
      simp only [act, createPool, newPool, munmap]
      repeat' split
      all_goals first | exact Nat.le_refl _ | exact Nat.le_succ _
    | createBuffer r offset size sys =>
      refine onPool r fun p => ?_
      unfold createBuffer
      split
      · exact Nat.le_succ _
      · rcases s.readExtent_cases offset size with ⟨e, o, hr⟩ | ⟨o, n, hr⟩ <;>
          simp only [hr, newBuffer] <;> repeat' split
        all_goals first | exact Nat.le_refl _ | exact Nat.le_succ _
    | resize r size sys =>
      refine onPool r fun p => ?_
      simp only [resize, finishResize]
      repeat' split
      all_goals exact Nat.le_succ _
    | destroy r sys =>
      simp only [act, destroyResource, destroyBuffer]
      repeat' split
      all_goals first
        | exact Nat.le_succ _
        | exact (unref_nextId ..).le.trans (Nat.le_succ _)

/-- A pool comes at the next address only. -/
theorem step_pools (h : Sound s) (a : Action) {p : ℕ} (hp : p ≠ s.nextId)
    (hx : ((s.step a).pools p).isSome) : (s.pools p).isSome := by
  obtain ⟨x, hx⟩ := Option.isSome_iff_exists.mp hx
  have hg : Grows s (s.step a) := by
    refine Path.preserves (P := fun t => Grows s t) (fun t u hc ht => ht.trans hc.grows)
      (step_changes h a) (.refl s)
  have h1 := (step_sound h a).lt hx
  have h2 := s.step_nextId a
  obtain ⟨y, hy, -⟩ := hg.pools p x (by omega) hx
  simp [hy]

end Shm

namespace Reader

section Fit
variable {s : Reader}

theorem running_iff : s.stopped = false ↔
    s.killed = false ∧ s.fault = none ∧ s.shm.fault = none := by
  simp [stopped, and_assoc]

@[simp] theorem crash_running (s : Reader) (f : Shm.Fault) : (s.crash f).stopped = true := by
  cases hf : s.fault <;> simp [crash, stopped, hf]

@[simp] theorem kill_running (s : Reader) : s.kill.stopped = true := by simp [kill, stopped]

theorem not_robust (h : s.stopped = true) : ¬ Robust s := fun hr => by
  have h1 := hr.running
  rw [h] at h1
  cases h1

/-- Files and handlers may change. -/
theorem Fit.changed (h : Fit s) (files : Arena Shm.File) (handlers : List Shm.Handler) :
    Fit { s with files, handlers } where
  running := h.running
  told := h.told
  idle := h.idle
  sound := h.sound
  backed := h.backed
  copying := fun c hc => by
    obtain ⟨y, hy, ha⟩ := h.copying c hc
    exact ⟨y, hy, ha.skipped, ha.noted, ha.unnoted⟩

theorem changeFile_fit (h : Fit s) (f : ℕ) (data : List UInt8) : Fit (s.changeFile f data) := by
  unfold changeFile
  split
  · exact h.changed _ s.handlers
  · split
    · exact h
    · exact h.changed _ s.handlers

theorem Fit.requested (h : Fit s) (hc : s.copy = none) (a : Shm.Action)
    {backings : Arena Shm.Backing} (isImpossible : Arena Bool)
    (hb : ∀ p, ((s.shm.step a).pools p).isSome → (backings p).isSome) :
    Fit { s with shm := s.shm.step a, backings, sigbufIsImpossible := isImpossible } where
  running := by
    obtain ⟨h1, h2, -⟩ := running_iff.mp h.running
    exact running_iff.mpr ⟨h1, h2, (Shm.step_sound h.sound a).fault⟩
  told := h.told
  idle := h.idle
  sound := Shm.step_sound h.sound a
  backed := hb
  copying := fun c hc' => by
    rw [hc] at hc'
    cases hc'

theorem request_fit (h : Fit s) (hc : s.copy = none) (a : Shm.Action) (f : ℕ) (stat : Bool) :
    Fit (s.request a f stat) := by
  unfold request
  split
  · next hn =>
    refine h.requested hc a s.sigbufIsImpossible fun p hp => h.backed p ?_
    refine Shm.step_pools h.sound a ?_ hp
    rintro rfl
    simp [hn] at hp
  · refine h.requested hc a _ fun p hp => ?_
    by_cases hpn : p = s.shm.nextId
    · subst hpn
      simp
    · rw [Arena.set_of_ne _ _ hpn]
      exact h.backed p (Shm.step_pools h.sound a hpn hp)

/-- The copy has begun its access. -/
theorem Fit.started (h : Fit s) {b : ℕ} {y : Shm.ShmBuffer} (hb : s.shm.buffers b = some y)
    (handlers : List Shm.Handler) {data : Option Shm.SigbusData}
    (hs : s.isImpossible y.pool = true → ∀ d, data = some d → d = {})
    (hn : s.isImpossible y.pool = false → ∀ d, data = some d →
      d = { currentPool := some y.pool, accessCount := 1 }) :
    Fit { s with handlers, sigbusData := data, copy := some { buffer := b } } where
  running := h.running
  told := h.told
  idle := fun hc => by cases hc
  sound := h.sound
  backed := h.backed
  copying := fun c hc => by
    cases hc
    exact ⟨y, hb, fun hi => ⟨rfl, hs hi⟩, hn, fun _ => rfl⟩

/-- The data of `begin_access` names no pool before. -/
theorem Fit.prepared (h : Fit s) (hc : s.copy = none) {zalloc : Bool} {d : Shm.SigbusData}
    (hd : (s.prepare zalloc).sigbusData = some d) : d = {} := by
  simp only [prepare, Option.or_eq_some_iff] at hd
  rcases hd with hd | ⟨-, hd⟩
  · exact h.idle hc d hd
  · split at hd
    · exact (Option.some.inj hd).symm
    · cases hd

theorem start_fit (h : Fit s) (hc : s.copy = none) (b : ℕ) (zalloc : Bool) :
    Fit (s.start b zalloc) := by
  cases hb : s.shm.buffers b with
  | none =>
    simp only [start, hb]
    exact h
  | some y =>
    obtain ⟨x, hx, -⟩ := h.sound.inside b y hb
    simp only [start, hb, hx, beginAccess]
    cases hi : s.isImpossible y.pool with
    | true =>
      refine h.started hb s.handlers (fun _ => h.idle hc) fun hf => ?_
      exact absurd (hi.symm.trans hf) (by simp)
    | false =>
      have skipped {P : Prop} (ht : s.isImpossible y.pool = true) : P := by
        rw [hi] at ht
        cases ht
      cases hd : (s.prepare zalloc).sigbusData with
      | none =>
        refine h.started hb _ skipped fun _ d h1 => ?_
        cases hd.symm.trans h1
      | some d =>
        have h0 := h.prepared hc hd
        subst h0
        exact h.started hb _ skipped fun _ d h1 => (Option.some.inj h1).symm

/-- A read of `wl_shm` that is guarded leaves all as it was; another one ends the program. -/
theorem readWl_fit_iff (h : Fit s) (hc : s.copy = none) (faults : Bool) :
    (s.Guards (.readWl faults) → Fit (s.readWl faults)) ∧
      (Robust (s.readWl faults) → s.Guards (.readWl faults)) := by
  by_cases hm : Shm.Handler.wayland ∈ s.handlers
  · by_cases hf : faults = true ∧ s.handlers.head? ≠ some .wayland
    · have he : s.readWl faults = s.kill := by
        simp only [readWl, hm, hf.1, hf.2, if_true, Bool.true_and, ne_eq, not_false_eq_true,
          decide_true]
      rw [he]
      refine ⟨fun hg => absurd (hg hc hf.1 hm) hf.2, fun hr => ?_⟩
      exact absurd hr (not_robust (kill_running s))
    · have he : s.readWl faults = s := by
        simp only [readWl, hm, if_true]
        rw [if_neg (by simpa using hf)]
      rw [he]
      exact ⟨fun _ => h, fun _ _ hf' _ => by_contra fun hh => hf ⟨hf', hh⟩⟩
  · have he : s.readWl faults = { s with handlers := .wayland :: s.handlers } := by
      simp [readWl, hm]
    rw [he]
    exact ⟨fun _ => h.changed s.files _, fun _ _ _ hm' => absurd hm' hm⟩

/-- The zeros are put in the place of the pool. -/
theorem handleSigbus_eq (h : Fit s) {c : Shm.Copy} {y : Shm.ShmBuffer} {x : Shm.ShmPool}
    (hc : s.copy = some c) (hy : s.shm.buffers c.buffer = some y)
    (hx : s.shm.pools y.pool = some x) (hi : s.isImpossible y.pool = false)
    (hd : s.sigbusData.isSome) {k : ℕ} (hk : (k : ℤ) < y.size.toInt) (c' : Shm.Copy) :
    { s with copy := some c' }.handleSigbus x.data (y.offset.toInt.toNat + k) true =
      { s with
        copy := some c'
        sigbusData := some
          { currentPool := some y.pool, accessCount := 1, fallbackMappingUsed := true }
        backings := s.backings.set y.pool .anonymous } := by
  obtain ⟨y', hy', ha⟩ := h.copying c hc
  rw [hy] at hy'
  cases hy'
  obtain ⟨d, hd⟩ := Option.isSome_iff_exists.mp hd
  have h1 := ha.noted hi d hd
  obtain ⟨x', hx', hin⟩ := h.sound.inside c.buffer y hy
  rw [hx] at hx'
  cases hx'
  have h2 : ((y.offset.toInt.toNat + k : ℕ) : ℤ) < x.size.toInt := by
    have h3 : (0 : ℤ) ≤ y.offset.toInt := by simpa [Int64.le_iff_toInt_le] using hin.1
    have h4 := hin.2.2
    omega
  simp only [handleSigbus, hd, h1, hx, h2, and_self, if_true]

/-- The handler of `shm_buffer.cpp` ends the program unless a pool is named and the zeros come. -/
theorem handleSigbus_running {data a : ℕ} {isMapped : Bool}
    (hr : (s.handleSigbus data a isMapped).stopped = false) :
    ∃ d, s.sigbusData = some d ∧ d.currentPool ≠ none ∧ isMapped = true := by
  have ends {P : Prop} {u : Reader} (hu : u.stopped = true) (hn : u.stopped = false) : P := by
    rw [hu] at hn
    cases hn
  unfold handleSigbus at hr
  split at hr
  · exact ends (kill_running s) hr
  · next d hd =>
    split at hr
    · exact ends (kill_running s) hr
    · next q hq =>
      split at hr
      · exact ends (crash_running s _) hr
      · split at hr
        · split at hr
          · next hm => exact ⟨d, hd, by simp [hq], hm⟩
          · exact ends (kill_running s) hr
        · exact ends (kill_running s) hr

theorem sigbus_running {data a : ℕ} {isMapped : Bool}
    (hr : (s.sigbus data a isMapped).stopped = false) :
    s.handlers.head? = some .own ∧
      ∃ d, s.sigbusData = some d ∧ d.currentPool ≠ none ∧ isMapped = true := by
  unfold sigbus at hr
  split at hr
  · next hh => exact ⟨hh, handleSigbus_running hr⟩
  · rw [kill_running] at hr
    cases hr

/-- The copy has read a byte. -/
theorem Fit.copied (h : Fit s) {c : Shm.Copy} (hc : s.copy = some c) (bytes : Arena UInt8) :
    Fit { s with copy := some { c with bytes } } where
  running := h.running
  told := h.told
  idle := fun hn => by cases hn
  sound := h.sound
  backed := h.backed
  copying := fun c' hc' => by
    cases hc'
    obtain ⟨y, hy, ha⟩ := h.copying c hc
    exact ⟨y, hy, ha.skipped, ha.noted, ha.unnoted⟩

/-- The copy goes on with zeros. -/
theorem Fit.zeroed (h : Fit s) {c : Shm.Copy} {y : Shm.ShmBuffer}
    (hy : s.shm.buffers c.buffer = some y) (hi : s.isImpossible y.pool = false) :
    Fit { s with
      copy := some { c with faulted := true }
      sigbusData := some
        { currentPool := some y.pool, accessCount := 1, fallbackMappingUsed := true }
      backings := s.backings.set y.pool .anonymous } where
  running := h.running
  told := h.told
  idle := fun hn => by cases hn
  sound := h.sound
  backed := fun p hp => by
    by_cases hpy : p = y.pool
    · simp [hpy]
    · refine Eq.trans ?_ (h.backed p hp)
      exact congrArg Option.isSome (Arena.set_of_ne _ _ hpy)
  copying := fun c' hc' => by
    cases hc'
    refine ⟨y, hy, fun ht => ?_, fun _ d hd => (Option.some.inj hd).symm, fun hn => by cases hn⟩
    exact absurd (hi.symm.trans ht) (by simp)

section Load
variable {c : Shm.Copy} {y : Shm.ShmBuffer} {x : Shm.ShmPool} {k : ℕ}

/-- There is no such byte in the buffer. -/
theorem load_eq_self (hy : s.shm.buffers c.buffer = some y) (hx : s.shm.pools y.pool = some x)
    (hk : y.size.toInt ≤ k) (isMapped : Bool) : s.load c k isMapped = s := by
  simp only [load, hy, hx, hk, if_true]

theorem load_of_some (hy : s.shm.buffers c.buffer = some y) (hx : s.shm.pools y.pool = some x)
    (hk : ¬ y.size.toInt ≤ k) {v : UInt8}
    (hv : s.byte? y.pool (y.offset.toInt.toNat + k) = some v) (isMapped : Bool) :
    s.load c k isMapped = { s with copy := some { c with bytes := c.bytes.set k v } } := by
  simp only [load, hy, hx, hk, if_false, hv]

theorem load_of_none (hy : s.shm.buffers c.buffer = some y) (hx : s.shm.pools y.pool = some x)
    (hk : ¬ y.size.toInt ≤ k) (hv : s.byte? y.pool (y.offset.toInt.toNat + k) = none)
    (isMapped : Bool) :
    s.load c k isMapped = { s with copy := some { c with faulted := true } }.sigbus x.data
      (y.offset.toInt.toNat + k) isMapped := by
  simp only [load, hy, hx, hk, if_false, hv]

end Load

/-- A read of a byte goes well if and only if it is guarded. -/
theorem load_fit_iff (h : Fit s) {c : Shm.Copy} (hc : s.copy = some c) (k : ℕ) (isMapped : Bool) :
    (s.Guards (.load k isMapped) → Fit (s.load c k isMapped)) ∧
      (Robust (s.load c k isMapped) → s.Guards (.load k isMapped)) := by
  obtain ⟨y, hy, ha⟩ := h.copying c hc
  obtain ⟨x, hx, hin⟩ := h.sound.inside c.buffer y hy
  -- when nothing is behind the end, there is nothing to guard
  have inside (hk : ¬ s.PastEnd c k) : s.Guards (.load k isMapped) := fun c' hc' hp => by
    rw [hc] at hc'
    cases hc'
    exact absurd hp hk
  by_cases hk : y.size.toInt ≤ k
  · rw [load_eq_self hy hx hk]
    refine ⟨fun _ => h, fun _ => inside fun ⟨y', hy', hk', _⟩ => ?_⟩
    rw [hy] at hy'
    cases hy'
    exact absurd hk (not_le.mpr hk')
  cases hv : s.byte? y.pool (y.offset.toInt.toNat + k) with
  | some v =>
    rw [load_of_some hy hx hk hv]
    refine ⟨fun _ => h.copied hc _, fun _ => inside fun hp => ?_⟩
    obtain ⟨y', hy', -, hn⟩ := hp
    rw [hy] at hy'
    cases hy'
    rw [hv] at hn
    cases hn
  | none =>
    have hp : s.PastEnd c k := ⟨y, hy, not_le.mp hk, hv⟩
    rw [load_of_none hy hx hk hv]
    constructor
    · intro hg
      obtain ⟨hi, hd, hh, rfl⟩ := hg c hc hp
      have hs : { s with copy := some { c with faulted := true } }.sigbus x.data
          (y.offset.toInt.toNat + k) true =
          { s with copy := some { c with faulted := true } }.handleSigbus x.data
            (y.offset.toInt.toNat + k) true := by
        simp only [sigbus, hh]
      rw [hs, handleSigbus_eq h hc hy hx (hi y hy) hd (not_le.mp hk)]
      exact h.zeroed hy (hi y hy)
    · intro hr c' hc' _
      rw [hc] at hc'
      cases hc'
      obtain ⟨hh, d, hd, hq, hm⟩ := sigbus_running hr.running
      refine ⟨fun y' hy' => ?_, Option.isSome_iff_exists.mpr ⟨d, hd⟩, hh, hm⟩
      rw [hy] at hy'
      cases hy'
      by_contra hi
      -- nothing was noted for a pool whose file is thought to be sealed
      have h1 := (ha.skipped (by simpa using hi)).2 d hd
      subst h1
      exact hq rfl

/-- The copy is over. -/
theorem Fit.finished (h : Fit s) {data : Option Shm.SigbusData} (told : List ℕ)
    (hd : ∀ d, data = some d → d = {}) :
    Fit { s with sigbusData := data, copy := none, told, faulted := told } where
  running := h.running
  told := rfl
  idle := fun _ => hd
  sound := h.sound
  backed := h.backed
  copying := fun c hc => by cases hc

/-- Every byte of the buffer has been read. -/
theorem finish_eq {c : Shm.Copy} {y : Shm.ShmBuffer} (hy : s.shm.buffers c.buffer = some y)
    (hall : ∀ k : ℕ, (k : ℤ) < y.size.toInt → (c.bytes k).isSome) :
    s.finish c =
      { s.endAccess c.buffer y.pool with
        copy := none
        faulted := if c.faulted then s.faulted ++ [c.buffer] else s.faulted } := by
  simp only [finish, hy]
  refine if_pos (List.all_eq_true.mpr fun k hk => hall k ?_)
  have h1 := List.mem_range.mp hk
  omega

/-- A copy does not end before that. -/
theorem finish_eq_self {c : Shm.Copy} {y : Shm.ShmBuffer} (hy : s.shm.buffers c.buffer = some y)
    (hall : ¬ ∀ k : ℕ, (k : ℤ) < y.size.toInt → (c.bytes k).isSome) : s.finish c = s := by
  simp only [finish, hy]
  refine if_neg fun h1 => hall fun k hk => List.all_eq_true.mp h1 k ?_
  rw [List.mem_range]
  omega

/-- The end of a copy goes well if and only if it is guarded. -/
theorem finish_fit_iff (h : Fit s) {c : Shm.Copy} (hc : s.copy = some c) :
    (s.Guards .finish → Fit (s.finish c)) ∧ (Robust (s.finish c) → s.Guards .finish) := by
  obtain ⟨y, hy, ha⟩ := h.copying c hc
  -- it is about this copy and this buffer that something is asked
  have guards {P : Prop} (hP : P → s.isImpossible y.pool = true ∨ s.sigbusData.isSome)
      (hall : (∀ k : ℕ, (k : ℤ) < y.size.toInt → (c.bytes k).isSome) → P) : s.Guards .finish := by
    intro c' y' hc' hy' hr
    rw [hc] at hc'
    cases hc'
    rw [hy] at hy'
    cases hy'
    exact hP (hall hr)
  by_cases hall : ∀ k : ℕ, (k : ℤ) < y.size.toInt → (c.bytes k).isSome
  · rw [finish_eq hy hall]
    cases hi : s.isImpossible y.pool with
    | true =>
      obtain ⟨hf, hd⟩ := ha.skipped hi
      refine ⟨fun _ => ?_, fun _ => guards (fun _ => .inl hi) fun _ => trivial⟩
      have h1 := h.finished s.told hd
      rw [hf, if_neg (by simp), ← h.told, endAccess, if_pos hi]
      exact h1
    | false =>
      cases hd : s.sigbusData with
      | none =>
        have hs : s.endAccess c.buffer y.pool = s.crash .assertion := by
          simp only [endAccess, hi, hd]
          rfl
        rw [hs]
        constructor
        · intro hg
          have h1 := hg c y hc hy hall
          rw [hi, hd] at h1
          rcases h1 with h1 | h1 <;> cases h1
        · intro hr
          exact absurd hr (not_robust (crash_running s .assertion))
      | some d =>
        have h1 := ha.noted hi d hd
        subst h1
        refine ⟨fun _ => ?_, fun _ => guards (fun _ => .inr (by rw [hd]; rfl)) fun _ => trivial⟩
        have hs : s.endAccess c.buffer y.pool =
            { s with
              told := if c.faulted then s.told ++ [c.buffer] else s.told
              sigbusData := some {} } := by
          simp only [endAccess, hi, hd]
          rfl
        rw [hs, ← h.told]
        exact h.finished _ fun d hd => (Option.some.inj hd).symm
  · rw [finish_eq_self hy hall]
    exact ⟨fun _ => h, fun _ => guards False.elim hall⟩

theorem init_fit : Fit init where
  running := rfl
  told := rfl
  idle := fun _ d hd => by cases hd
  sound := Shm.init_sound
  backed := fun p hp => by cases hp
  copying := fun c hc => by cases hc

/-- One step goes well if and only if it is guarded. -/
theorem step_fit_iff (h : Fit s) (a : Action) :
    (s.Guards a → Fit (s.step a)) ∧ (Robust (s.step a) → s.Guards a) := by
  have he : s.step a = s.act a := by
    unfold step
    rw [if_neg (by rw [h.running]; simp)]
  rw [he]
  cases a with
  | changeFile f data => exact ⟨fun _ => changeFile_fit h f data, fun _ => trivial⟩
  | sealFile f => exact ⟨fun _ => h.changed _ s.handlers, fun _ => trivial⟩
  | request a f stat =>
    refine ⟨fun _ => ?_, fun _ => trivial⟩
    cases hc : s.copy with
    | none => simpa only [act, hc, Option.isSome_none, Bool.false_eq_true, if_false] using
        request_fit h hc a f stat
    | some c => simpa only [act, hc, Option.isSome_some, if_true] using h
  | start b zalloc =>
    refine ⟨fun _ => ?_, fun _ => trivial⟩
    cases hc : s.copy with
    | none => simpa only [act, hc, Option.isSome_none, Bool.false_eq_true, if_false] using
        start_fit h hc b zalloc
    | some c => simpa only [act, hc, Option.isSome_some, if_true] using h
  | readWl faults =>
    cases hc : s.copy with
    | none => simpa only [act, hc, Option.isSome_none, Bool.false_eq_true, if_false] using
        readWl_fit_iff h hc faults
    | some c =>
      have h1 : s.act (.readWl faults) = s := by simp [act, hc]
      rw [h1]
      refine ⟨fun _ => h, fun _ hn => ?_⟩
      rw [hc] at hn
      cases hn
  | load k isMapped =>
    cases hc : s.copy with
    | none =>
      have h1 : s.act (.load k isMapped) = s := by simp [act, hc]
      rw [h1]
      refine ⟨fun _ => h, fun _ c hn => ?_⟩
      rw [hc] at hn
      cases hn
    | some c =>
      have h1 : s.act (.load k isMapped) = s.load c k isMapped := by simp [act, hc]
      rw [h1]
      exact load_fit_iff h hc k isMapped
  | finish =>
    cases hc : s.copy with
    | none =>
      have h1 : s.act .finish = s := by simp [act, hc]
      rw [h1]
      refine ⟨fun _ => h, fun _ c y hn => ?_⟩
      rw [hc] at hn
      cases hn
    | some c =>
      have h1 : s.act .finish = s.finish c := by simp [act, hc]
      rw [h1]
      exact finish_fit_iff h hc

end Fit

/-- The program survives what clients do to their files, and tells them, exactly when every read
behind the end of a file is one that `begin_access` has prepared for. -/
theorem robust_throughout_iff (as : List Action) :
    Run.Always step Robust init as ↔ Run.Each step Guards init as :=
  Run.always_iff_each_of (G := Fit) init_fit (fun _ h => h.toRobust)
    (fun _ a h hg => (step_fit_iff h a).1 hg) (fun _ a h hr => (step_fit_iff h a).2 hr) as

end Reader
end Yaza
