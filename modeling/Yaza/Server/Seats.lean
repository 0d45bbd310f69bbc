import Yaza.Server.Reach

/-! The entries of `client_seats`: which binds and releases keep them right, and that then no
lookup fails. -/
namespace Yaza
namespace World

/-- The client has a `wl_seat` that is alive. -/
def HasSeat (w : World) (client : ℕ) : Prop := ∃ i, w.ownsSeat client i

/-- Every lookup so far found a live `wl_seat` of its client, and every client that has one has
an entry for one. -/
structure Seated (w : World) : Prop where
  lookups : ∀ l ∈ w.lookups, l.live = true
  entry : ∀ c, w.HasSeat c → w.Served c

/-- The addresses of resources and of seats. -/
structure Placed (w : World) : Prop where
  fresh : w.Fresh
  interface : ∀ i, (w.clientSeats i).isSome → ∃ c, w.resources i = some ⟨c, .seat⟩

structure Seating (w : World) : Prop extends Placed w where
  lookups : ∀ l ∈ w.lookups, l.live = true
  entry : ∀ c, w.HasSeat c → w.Served c
  /-- No entry is null or stale. -/
  listed : ∀ c, w.seat.clientSeats c ≠ none → w.Served c

theorem Seating.seated {w : World} (h : Seating w) : Seated w := ⟨h.lookups, h.entry⟩

/-- A step that binds and releases no seat, and finds what it looks up. -/
structure SeatsKept (w w' : World) : Prop where
  seats : ∀ i, (w'.clientSeats i).isSome = (w.clientSeats i).isSome
  resources : ∀ i, (w.clientSeats i).isSome → w'.resources i = w.resources i
  entries : w'.seat.clientSeats = w.seat.clientSeats
  lookups : ∀ l ∈ w'.lookups, l ∈ w.lookups ∨ l.live = true

section Kept
variable {w w' w'' : World}

theorem SeatsKept.refl (w : World) : SeatsKept w w :=
  ⟨fun _ => rfl, fun _ _ => rfl, rfl, fun _ => .inl⟩

theorem SeatsKept.trans (h : SeatsKept w w') (h' : SeatsKept w' w'') : SeatsKept w w'' where
  seats := fun i => (h'.seats i).trans (h.seats i)
  resources := fun i hi => (h'.resources i (by rwa [h.seats])).trans (h.resources i hi)
  entries := h'.entries.trans h.entries
  lookups := fun l hl => by
    rcases h'.lookups l hl with h1 | h1
    · exact h.lookups l h1
    · exact .inr h1

theorem SeatsKept.andThen {k : World → World} (h : SeatsKept w w') (hk : SeatsKept w' (k w')) :
    SeatsKept w (w'.andThen k) := by
  unfold World.andThen
  split
  · exact h
  · exact h.trans hk

theorem SeatsKept.ownsSeat (h : SeatsKept w w') (c i : ℕ) : w'.ownsSeat c i = w.ownsSeat c i := by
  unfold World.ownsSeat
  rw [h.seats]
  cases hi : (w.clientSeats i).isSome with
  | false => rfl
  | true => rw [h.resources i hi]

theorem SeatsKept.served (h : SeatsKept w w') {c : ℕ} (hc : w.Served c) : w'.Served c := by
  obtain ⟨i, hi, ho⟩ := hc
  exact ⟨i, h.entries ▸ hi, h.ownsSeat c i ▸ ho⟩

theorem Placed.kept (hp : Placed w) (h : SeatsKept w w') (hf : w'.Fresh) : Placed w' where
  fresh := hf
  interface := fun i hi => by
    rw [h.seats] at hi
    rw [h.resources i hi]
    exact hp.interface i hi

theorem Seating.kept (hw : Seating w) (h : SeatsKept w w') (hf : w'.Fresh) : Seating w' where
  toPlaced := hw.toPlaced.kept h hf
  lookups := fun l hl => (h.lookups l hl).elim (hw.lookups l) id
  entry := fun c ⟨i, hi⟩ => h.served (hw.entry c ⟨i, h.ownsSeat c i ▸ hi⟩)
  listed := fun c hc => h.served (hw.listed c (h.entries ▸ hc))

/-- What the seat does when it looks up the clients in `S` only. -/
theorem Base.kept {S : ℕ → Prop} (h : Base S w w') (hp : Placed w)
    (hS : ∀ c, S c → w.Served c) : SeatsKept w w' where
  seats := fun i => by rw [h.clientSeats]
  resources := fun i hi => by
    obtain ⟨c, hc⟩ := hp.interface i hi
    exact h.resources i (hp.fresh.lt hc)
  entries := (h.looks hp.fresh hS).1
  lookups := (h.looks hp.fresh hS).2

/-- The same when it looks up none. -/
theorem Aside.kept (h : Aside (fun _ => False) w w') (hp : Placed w) : SeatsKept w w' :=
  h.toBase.kept hp fun _ hc => hc.elim

/-- The parts of the program that `SeatsKept` speaks of. -/
def seatParts (w : World) := (w.resources, w.clientSeats, w.seat.clientSeats, w.lookups)

theorem kept_of_eq (hp : w'.seatParts = w.seatParts) : SeatsKept w w' := by
  simp only [seatParts, Prod.mk.injEq] at hp
  obtain ⟨hr, hc, hm, hl⟩ := hp
  exact ⟨fun i => by rw [hc], fun i _ => by rw [hr], hm, fun l h => .inl (hl ▸ h)⟩

theorem Placed.newResource (hw : Placed w) (client : ℕ) (interface : DeskInterface) :
    SeatsKept w (w.newResource client interface) where
  seats := fun _ => rfl
  resources := fun i hi => by
    obtain ⟨c, hc⟩ := hw.interface i hi
    exact Arena.set_of_ne _ _ (Nat.ne_of_lt (hw.fresh.lt hc))
  entries := rfl
  lookups := fun _ => .inl

/-- A lookup of a client that has a seat. -/
theorem withClientSeat_kept {client : ℕ} (hc : w.Served client)
    {k : World → ℕ → ClientSeat → World} (hk : ∀ w i x, SeatsKept w (k w i x)) :
    SeatsKept w (w.withClientSeat client k) := by
  obtain ⟨i, hi, ho⟩ := hc
  have hs : (w.clientSeats i).isSome := by
    simp only [World.ownsSeat, Bool.and_eq_true] at ho
    exact ho.1
  obtain ⟨x, hx⟩ := Option.isSome_iff_exists.mp hs
  simp only [withClientSeat, hi, Option.join_some, hx, ho]
  have h1 : SeatsKept w (w.logLookup client (some i) true) := by
    refine ⟨fun _ => rfl, fun _ _ => rfl, rfl, fun l hl => ?_⟩
    rcases List.mem_append.mp hl with h | h
    · exact .inl h
    · rw [List.mem_singleton.mp h]
      exact .inr rfl
  exact h1.trans (hk _ i x)

theorem joinSeat_kept {client : ℕ} (hc : w.Served client) (f : ClientSeat → ClientSeat) :
    SeatsKept w (w.joinSeat client f) :=
  withClientSeat_kept hc fun w i _ =>
    ⟨fun j => Arena.modify_isSome w.clientSeats i j f, fun _ _ => rfl, rfl, fun _ => .inl⟩

/-- A new resource joins a list of the seat of its client. -/
theorem Seating.newMember (hw : Seating w) {client : ℕ} (hc : w.HasSeat client)
    (interface : DeskInterface) (f : ClientSeat → ClientSeat) :
    SeatsKept w ((w.newResource client interface).joinSeat client f) :=
  (hw.toPlaced.newResource client interface).trans
    (joinSeat_kept ((hw.toPlaced.newResource client interface).served (hw.entry client hc)) f)

end Kept

section Requests
variable {w : World}

/-- A request that looks up the seat of its client. -/
def DeskRequest.joins : DeskRequest → Bool
  | .getPointer _ | .getKeyboard _ | .getRay | .getDataDevice => true
  | _ => false

theorem Seating.createDataDevice (hw : Seating w) {client : ℕ} (hc : w.HasSeat client) :
    SeatsKept w (w.createDataDevice client) := by
  have h1 := hw.toPlaced.newResource client .dataDevice
  have h2 : SeatsKept w { w.newResource client .dataDevice with
      dataDevices := w.dataDevices.set w.nextId {} } := h1.trans (kept_of_eq rfl)
  have h3 := h2.trans (joinSeat_kept (h2.served (hw.entry client hc)) fun x =>
    { x with dataDevices := w.nextId :: x.dataDevices })
  have hf : World.Fresh ({ w.newResource client .dataDevice with
      dataDevices := w.dataDevices.set w.nextId {} }.joinSeat client fun x =>
        { x with dataDevices := w.nextId :: x.dataDevices }) :=
    (joinSeat_idle client _).fresh ((newResource_idle w client .dataDevice).fresh hw.fresh)
  refine h3.andThen ?_
  split
  · exact (sendSelection_aside _ _).kept (hw.toPlaced.kept h3 hf)
  · exact .refl _

theorem Seating.createSurface (hw : Seating w) (client : ℕ) (texSize : ℕ × ℕ) :
    SeatsKept w (w.createSurface client texSize) := by
  have h1 := hw.toPlaced.newResource client .surface
  have hp := hw.toPlaced.kept h1 ((newResource_idle w client .surface).fresh hw.fresh)
  refine h1.trans ?_
  have h2 : SeatsKept (w.newResource client .surface)
      { w.newResource client .surface with
        surfaces := w.surfaces.set w.nextId (w.newSurface texSize)
        surfaceList := w.nextId :: w.surfaceList } := kept_of_eq rfl
  exact h2.trans ((reorderSurfaces_aside _).kept (hp.kept h2 hp.fresh))

theorem commitSurface_kept (i : ℕ) : SeatsKept w (w.commitSurface i) := by
  have h1 (x : Surface) : SeatsKept w (w.commitBuffer i x) := by
    unfold commitBuffer
    split
    · exact kept_of_eq rfl
    · split <;> exact kept_of_eq rfl
  unfold commitSurface
  split
  · exact kept_of_eq rfl
  · exact (h1 _).andThen (kept_of_eq rfl)

theorem setSelection_kept (device : ℕ) (source : Option ℕ) :
    SeatsKept w (w.setSelection device source) := by
  unfold setSelection
  split <;> exact kept_of_eq rfl

theorem askSource_kept (offer : ℕ) (e : ℕ → DeskEvent) : SeatsKept w (w.askSource offer e) := by
  unfold askSource
  split
  · exact kept_of_eq rfl
  · split <;> exact kept_of_eq rfl

theorem Seating.createToplevel (hw : Seating w) (client x : ℕ) :
    SeatsKept w (w.createToplevel client x) := by
  unfold World.createToplevel
  split
  · exact kept_of_eq rfl
  · exact (hw.toPlaced.newResource client .xdgToplevel).trans (kept_of_eq rfl)

theorem Seating.handle (hw : Seating w) {client : ℕ} {r : DeskRequest}
    (hj : r.joins = true → w.HasSeat client) (hb : r ≠ .bindSeat)
    (hm : ∀ t, r ≠ .moveToplevel t) : SeatsKept w (w.handle client r) := by
  cases r with
  | createWlBuffer b => exact (hw.toPlaced.newResource client .wlBuffer).trans (kept_of_eq rfl)
  | createSurface texSize => exact hw.createSurface client texSize
  | attach s b d => exact kept_of_eq rfl
  | offset s d => exact kept_of_eq rfl
  | frame s => exact kept_of_eq rfl
  | commit s => exact commitSurface_kept s
  | getXdgSurface s => exact (hw.toPlaced.newResource client .xdgSurface).trans (kept_of_eq rfl)
  | getToplevel x => exact hw.createToplevel client x
  | moveToplevel t => exact absurd rfl (hm t)
  | bindSeat => exact absurd rfl hb
  | getPointer _ | getKeyboard _ | getRay => exact hw.newMember (hj rfl) _ _
  | setCursor _ s hotspot => exact (setSurfaceAsCursor_aside w s hotspot).kept hw.toPlaced
  | createDataSource => exact (hw.toPlaced.newResource client .dataSource).trans (kept_of_eq rfl)
  | offer s mimeType => exact kept_of_eq rfl
  | getDataDevice => exact hw.createDataDevice (hj rfl)
  | setSelection d s => exact setSelection_kept d s
  | accept o mimeType => exact askSource_kept o fun s => .sourceTarget s mimeType
  | receive o mimeType => exact askSource_kept o fun s => .sourceSend s mimeType

end Requests

section Seats
variable {w : World}

theorem ownsSeat_iff {c i : ℕ} : w.ownsSeat c i ↔
    (w.clientSeats i).isSome ∧ ∃ r, w.resources i = some r ∧ r.client = c := by
  simp [ownsSeat, Option.any_eq_true]

theorem Seating.bindSeat (hw : Seating w) (client : ℕ) : Seating (w.bindSeat client) := by
  have old {c i : ℕ} (h : w.ownsSeat c i) : (w.bindSeat client).ownsSeat c i := by
    obtain ⟨hi, r, hr, hc⟩ := ownsSeat_iff.mp h
    have hne := Nat.ne_of_lt (hw.fresh.lt hr)
    exact ownsSeat_iff.mpr ⟨by simpa [World.bindSeat, hne] using hi, r, by
      simpa [World.bindSeat, World.newResource, hne] using hr, hc⟩
  have served {c : ℕ} (h : w.Served c) : (w.bindSeat client).Served c := by
    obtain ⟨i, hi, ho⟩ := h
    refine ⟨i, ?_, old ho⟩
    by_cases hc : c = client
    · subst hc
      simp [World.bindSeat, hi]
    · simp only [World.bindSeat]
      split
      · exact hi
      · rwa [Arena.set_of_ne _ _ hc]
  have own : (w.bindSeat client).Served client := by
    by_cases he : w.seat.clientSeats client = none
    · exact ⟨w.nextId, by simp [World.bindSeat, he],
        ownsSeat_iff.mpr ⟨by simp [World.bindSeat], _, Arena.set_self .., rfl⟩⟩
    · exact served (hw.listed client he)
  constructor
  · refine ⟨(handle_idle client (r := .bindSeat) rfl).fresh hw.fresh, fun i hi => ?_⟩
    by_cases hn : i = w.nextId
    · subst hn
      exact ⟨client, Arena.set_self ..⟩
    · obtain ⟨c, hc⟩ := hw.interface i (by simpa [World.bindSeat, hn] using hi)
      exact ⟨c, by simpa [World.bindSeat, World.newResource, hn] using hc⟩
  · exact hw.lookups
  · rintro c ⟨i, hi⟩
    obtain ⟨h1, r, h2, h3⟩ := ownsSeat_iff.mp hi
    by_cases hn : i = w.nextId
    · subst hn
      simp only [World.bindSeat, World.newResource, Arena.set_self, Option.some.injEq] at h2
      subst h2
      exact h3 ▸ own
    · refine served (hw.entry c ⟨i, ownsSeat_iff.mpr ⟨?_, r, ?_, h3⟩⟩)
      · simpa [World.bindSeat, hn] using h1
      · simpa [World.bindSeat, World.newResource, hn] using h2
  · intro c hc
    by_cases hcl : c = client
    · exact hcl ▸ own
    · refine served (hw.listed c ?_)
      simp only [World.bindSeat] at hc
      split at hc
      · exact hc
      · rwa [Arena.set_of_ne _ _ hcl] at hc

/-- The release of the only `wl_seat` of a client. -/
theorem Seating.releaseSeat (hw : Seating w) {client i : ℕ}
    (hr : w.resources i = some ⟨client, .seat⟩) (ho : ∀ j, w.ownsSeat client j → j = i) :
    Seating (w.destroyResource i) := by
  have hf := (destroyResource_keyed hr).fresh hw.fresh
  simp only [destroyResource, hr, deleteObject] at hf ⊢
  have served {c : ℕ} (hc : c ≠ client) (h : w.Served c) : World.Served { w with
      seat.clientSeats := w.seat.clientSeats.erase client
      clientSeats := w.clientSeats.erase i
      resources := w.resources.erase i } c := by
    obtain ⟨k, hk, hok⟩ := h
    obtain ⟨h1, r, h2, h3⟩ := ownsSeat_iff.mp hok
    have hki : k ≠ i := by
      rintro rfl
      rw [hr] at h2
      cases h2
      exact hc h3.symm
    exact ⟨k, by simpa [hc] using hk,
      ownsSeat_iff.mpr ⟨by simpa [hki] using h1, r, by simpa [hki] using h2, h3⟩⟩
  constructor
  · refine ⟨hf, fun j hj => ?_⟩
    have hji : j ≠ i := by
      rintro rfl
      simp at hj
    obtain ⟨c, hc⟩ := hw.interface j (by simpa [hji] using hj)
    exact ⟨c, by simpa [hji] using hc⟩
  · exact hw.lookups
  · rintro c ⟨j, hj⟩
    obtain ⟨h1, r, h2, h3⟩ := ownsSeat_iff.mp hj
    have hji : j ≠ i := by
      rintro rfl
      simp at h1
    have h4 : w.ownsSeat c j :=
      ownsSeat_iff.mpr ⟨by simpa [hji] using h1, r, by simpa [hji] using h2, h3⟩
    refine served ?_ (hw.entry c ⟨j, h4⟩)
    rintro rfl
    exact hji (ho j h4)
  · intro c hc
    have hcl : c ≠ client := by
      rintro rfl
      simp at hc
    exact served hcl (hw.listed c (by simpa [hcl] using hc))

theorem Seating.destroyOther (hw : Seating w) {i : ℕ} {r : DeskResource}
    (hr : w.resources i = some r) (hi : r.interface ≠ .seat) :
    SeatsKept w (w.destroyResource i) := by
  have res (j : ℕ) (hj : (w.clientSeats j).isSome) : w.resources.erase i j = w.resources j := by
    refine Arena.erase_of_ne _ ?_
    rintro rfl
    obtain ⟨c, hc⟩ := hw.interface j hj
    rw [hr] at hc
    cases hc
    exact hi rfl
  simp only [destroyResource, hr]
  cases hi' : r.interface with
  | seat => exact absurd hi' hi
  | pointer | keyboard | ray | dataDevice =>
    exact ⟨fun j => by simp [deleteObject], res, rfl, fun _ => .inl⟩
  | _ => exact ⟨fun _ => rfl, res, rfl, fun _ => .inl⟩

end Seats

/-- The client of a live object. -/
def ClientAt (w : World) (o : Option BoundedObject) (c : ℕ) : Prop :=
  ∃ p, w.lock o = some p ∧ w.clientOf p = some c

/-- The client of the object that the ray meets. -/
def ClientHit (w : World) (hits : Hits) (c : ℕ) : Prop :=
  ∃ p d, w.nearest hits = some (p, d) ∧ w.clientOf p = some c

/-- The clients whose entry of `client_seats` is used, one list for each kind of step. -/
def Asked (w : World) : Action → ℕ → Prop
  | .desk client (.moveToplevel t), c =>
    w.admits client (.moveToplevel t) ∧ c = client ∧ w.ClientAt w.seat.focusedObj c
  | .desk client r, c => w.admits client r ∧ r.joins ∧ c = client
  | .moveBounded client b, c =>
    w.scene.cutOff client = false ∧ w.scene.resources b = some ⟨client, .bounded⟩ ∧ c = client ∧
      w.ClientAt w.seat.focusedObj c
  | .mouseMove _ _ hits, c =>
    w.seat.objState = .default ∧ (w.ClientAt w.seat.focusedObj c ∨ w.ClientHit hits c)
  | .mouseButton _ isPressed hits, c =>
    if w.seat.objState = .moving ∧ isPressed = false then w.ClientHit hits c
    else w.ClientAt w.seat.focusedObj c ∨
      isPressed = true ∧ (∀ b, w.lock w.seat.focusedObj ≠ some (.app b)) ∧
        w.ClientAt (w.seat.keyboardFocusedSurface.map .surface) c
  | .mouseWheel _, c => w.ClientAt w.seat.focusedObj c
  | _, _ => False

/-- A release leaves its client no other `wl_seat`, and a client whose entry is used has a
`wl_seat`. -/
def KeepsSeats (w : World) (a : Action) : Prop :=
  w.stopped = false →
    (∀ client i, a = .destroy client i → w.resources i = some ⟨client, .seat⟩ →
      ∀ j, w.ownsSeat client j → j = i) ∧
    ∀ c, w.Asked a c → w.HasSeat c

section Steps
variable {w : World} (hs : Sane w)
include hs

theorem asks_of_clientAt {S : ℕ → Prop} {p : Option BoundedObject}
    (hS : ∀ c, w.ClientAt p c → S c) : ∀ o, w.lock p = some o → Asks S w o := fun o ho =>
  asks_of_issued (hs.issued (lock_eq_some.mp ho).2) fun c hc => hS c ⟨o, ho, hc⟩

theorem asks_of_clientHit {S : ℕ → Prop} {hits : Hits} (hS : ∀ c, w.ClientHit hits c → S c) :
    ∀ o d, w.nearest hits = some (o, d) → Asks S w o := fun o d ho =>
  asks_of_issued (hs.issued (nearest_alive ho)) fun c hc => hS c ⟨o, d, ho, hc⟩

theorem asksKeyboard_of {S : ℕ → Prop}
    (hS : ∀ c, w.ClientAt (w.seat.keyboardFocusedSurface.map .surface) c → S c) :
    AsksKeyboard S w := fun i hi => by
  refine asks_of_clientAt hs hS (.surface i) ?_
  obtain ⟨h1, h2⟩ := Arena.lock_eq_some.mp hi
  exact lock_eq_some.mpr ⟨by rw [h1]; rfl, h2⟩

variable (hw : Seating w)
include hw

theorem startMove_kept {client : ℕ}
    (hc : w.ClientAt w.seat.focusedObj client → w.HasSeat client) :
    SeatsKept w (w.requestStartMove client) := by
  refine (requestStartMove_base (S := fun c => c = client ∧ w.ClientAt w.seat.focusedObj c)
    fun o ho hco => ?_).kept hw.toPlaced ?_
  · refine asks_of_issued (hs.issued (lock_eq_some.mp ho).2) fun c hc' => ?_
    rw [hco] at hc'
    cases hc'
    exact ⟨rfl, o, ho, hco⟩
  · rintro c ⟨rfl, h⟩
    exact hw.entry c (hc h)

theorem moveRelPointing_kept {polar azimuthal : ℚ} {hits : Hits}
    (hc : ∀ c, w.Asked (.mouseMove polar azimuthal hits) c → w.HasSeat c) :
    SeatsKept w (w.moveRelPointing polar azimuthal hits) := by
  cases hd : w.seat.objState with
  | default =>
    refine (moveDefault_base (S := w.Asked (.mouseMove polar azimuthal hits)) polar azimuthal hd
      ?_ ?_).kept
      hw.toPlaced fun c h => hw.entry c (hc c h)
    · exact asks_of_clientAt hs fun c h => ⟨hd, .inl h⟩
    · exact asks_of_clientHit hs fun c h => ⟨hd, .inr h⟩
  | moving =>
    simp only [moveRelPointing, hd]
    have h1 : SeatsKept w ((w.moveRay polar azimuthal).dragFocused
        (clampPolar (w.ray.polar + polar) - w.ray.polar) azimuthal) := by
      unfold dragFocused
      split
      · exact kept_of_eq rfl
      · next o _ => cases o <;> exact kept_of_eq rfl
    refine h1.andThen ?_
    unfold moveCursor
    split
    · exact .refl _
    · exact kept_of_eq rfl

theorem handleMouseButton_kept {b : UInt32} {isPressed : Bool} {hits : Hits}
    (hc : ∀ c, w.Asked (.mouseButton b isPressed hits) c → w.HasSeat c) :
    SeatsKept w (w.handleMouseButton b isPressed hits) := by
  by_cases hm : w.seat.objState = .moving ∧ isPressed = false
  · have h1 (c : ℕ) (h : w.ClientHit hits c) : w.Asked (.mouseButton b isPressed hits) c := by
      simpa only [Asked, if_pos hm] using h
    obtain ⟨hmo, rfl⟩ := hm
    exact (endMove_base hmo (asks_of_clientHit hs h1)).kept hw.toPlaced
      fun c h => hw.entry c (hc c h)
  · have h1 (c : ℕ) (h : w.ClientAt w.seat.focusedObj c) :
        w.Asked (.mouseButton b isPressed hits) c := by
      simpa only [Asked, if_neg hm] using .inl h
    have h2 (hp : isPressed = true) (hf : ∀ b, w.lock w.seat.focusedObj ≠ some (.app b)) (c : ℕ)
        (h : w.ClientAt (w.seat.keyboardFocusedSurface.map .surface) c) :
        w.Asked (.mouseButton b isPressed hits) c := by
      simpa only [Asked, if_neg hm] using .inr ⟨hp, hf, h⟩
    exact (pressButton_base (asks_of_clientAt hs h1)
      (fun hp hf => asksKeyboard_of hs (h2 hp hf)) hits hm).kept hw.toPlaced
        fun c h => hw.entry c (hc c h)

theorem act_seating (hr : w.stopped = false) {a : Action} (ha : KeepsSeats w a)
    (hf : (w.act a).Fresh) : Seating (w.act a) := by
  obtain ⟨hrel, hask⟩ := ha hr
  cases a with
  | zwin client r =>
    refine hw.kept ?_ hf
    simp only [act, addBoundedApp]
    split <;> exact kept_of_eq rfl
  | destroyZwin client r => exact hw.kept (kept_of_eq rfl) hf
  | desk client r =>
    simp only [act] at hf ⊢
    split
    · next had =>
      rw [if_pos had] at hf
      by_cases hb : r = .bindSeat
      · exact hb ▸ hw.bindSeat client
      by_cases hm : ∃ t, r = .moveToplevel t
      · obtain ⟨t, rfl⟩ := hm
        exact hw.kept (startMove_kept hs hw fun h => hask client ⟨had, rfl, h⟩) hf
      · refine hw.kept (hw.handle (fun hj => hask client ?_) hb fun t ht => hm ⟨t, ht⟩) hf
        cases r with
        | moveToplevel t => exact absurd ⟨t, rfl⟩ hm
        | _ => exact ⟨had, hj, rfl⟩
    · exact hw
  | destroy client i =>
    simp only [act] at hf ⊢
    split
    · next h =>
      rw [if_pos h] at hf
      cases hri : w.resources i with
      | none => simp [hri] at h
      | some r =>
        have hc : r.client = client := by simpa [hri] using h
        by_cases hi : r.interface = .seat
        · have hri' : w.resources i = some ⟨client, .seat⟩ := by rw [hri, ← hc, ← hi]
          exact hw.releaseSeat hri' (hrel client i rfl hri')
        · exact hw.kept (hw.destroyOther hri hi) hf
    · exact hw
  | moveBounded client b =>
    simp only [act] at hf ⊢
    split
    · next h =>
      rw [if_pos h] at hf
      simp only [Bool.and_eq_true, Bool.not_eq_true', decide_eq_true_eq] at h
      exact hw.kept (startMove_kept hs hw fun hat => hask client ⟨h.1, h.2, rfl, hat⟩) hf
    · exact hw
  | peerDiscover connected =>
    refine hw.kept ?_ hf
    simp only [act, peerDiscover]
    split <;> exact kept_of_eq rfl
  | sessionDisconnect =>
    refine hw.kept ?_ hf
    simp only [act, sessionDisconnect]
    split <;> exact kept_of_eq rfl
  | frameTimer busyness =>
    refine hw.kept ?_ hf
    simp only [act, frameTimer]
    split <;> exact kept_of_eq rfl
  | mouseMove polar azimuthal hits => exact hw.kept (moveRelPointing_kept hs hw hask) hf
  | mouseButton button isPressed hits => exact hw.kept (handleMouseButton_kept hs hw hask) hf
  | mouseWheel amount =>
    exact hw.kept ((handleMouseWheel_base (asks_of_clientAt hs fun c h => h) amount).kept
      hw.toPlaced fun c h => hw.entry c (hask c h)) hf

end Steps

theorem init_seating : Seating init where
  fresh := init_sane.fresh
  interface := fun _ h => by cases h
  lookups := fun _ h => by cases h
  entry := fun c ⟨i, hi⟩ => by cases hi
  listed := fun c h => absurd rfl h

theorem step_seating (w : World) (a : Action) (h : Sane w ∧ Seating w) (ha : KeepsSeats w a) :
    Sane (w.step a) ∧ Seating (w.step a) := by
  have hs := step_sane w a h.1
  refine ⟨hs, ?_⟩
  unfold step at hs ⊢
  split
  · exact h.2
  · next hr =>
    rw [if_neg hr] at hs
    exact act_seating h.1 h.2 (by simpa using hr) ha hs.fresh

/-- In a run whose releases leave no second `wl_seat` behind, and whose steps ask only for clients
that have one, every lookup finds a live seat of its client. -/
theorem seated_throughout (as : List Action) (h : Run.Each step KeepsSeats init as) :
    Run.Always step Seated init as := fun pre hp =>
  (Run.always_of_each (P := fun w => Sane w ∧ Seating w) ⟨init_sane, init_seating⟩ step_seating h
    pre hp).2.seated

/-- Two clients bind a seat, and one of them releases its own. -/
def leaveRun : List Action :=
  [.desk 0 .bindSeat, .desk 1 .bindSeat, .desk 0 (.getPointer 0), .destroy 0 0,
    .desk 1 (.getPointer 1)]

theorem ownsSeat_leaveRun {j : ℕ} (hj : (run (leaveRun.take 3)).ownsSeat 0 j = true) : j = 0 := by
  have hlt : j < 3 := by
    by_contra hn
    have h1 := (run_sane (leaveRun.take 3)).fresh j (Nat.not_lt.mp hn)
    simp [ownsSeat, h1] at hj
  have h1 : ∀ j < 3, (run (leaveRun.take 3)).ownsSeat 0 j = true → j = 0 := by decide
  exact h1 j hlt hj

theorem seated_throughout_leave : Run.Always step Seated init leaveRun :=
  seated_throughout _ <| by
    rw [leaveRun, Run.each_cons, Run.each_cons, Run.each_cons, Run.each_cons, Run.each_cons]
    refine ⟨fun _ => ⟨fun _ _ h => (by cases h), fun c hc => ?_⟩,
      fun _ => ⟨fun _ _ h => (by cases h), fun c hc => ?_⟩,
      fun _ => ⟨fun _ _ h => (by cases h), fun c hc => ?_⟩,
      fun _ => ⟨fun client i h _ j hj => ?_, fun _ hc => hc.elim⟩,
      fun _ => ⟨fun _ _ h => (by cases h), fun c hc => ?_⟩, Run.each_nil.mpr trivial⟩
    · cases hc.2.1
    · cases hc.2.1
    · rw [hc.2.2]
      exact ⟨0, by decide⟩
    · cases h
      exact ownsSeat_leaveRun hj
    · rw [hc.2.2]
      exact ⟨1, by decide⟩

/-- A client binds a second `wl_seat`, releases it, and asks the first for a pointer. -/
def releaseRun : List Action :=
  [.desk 0 .bindSeat, .desk 0 .bindSeat, .destroy 0 1, .desk 0 (.getPointer 0)]

theorem released_second_seat : ¬Run.Always step Seated init releaseRun := fun h => by
  have h1 := (h releaseRun List.prefix_rfl).lookups ⟨0, none, false⟩ (by decide)
  cases h1

end World
end Yaza
