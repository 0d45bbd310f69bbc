import Yaza.Lib.Walk
import Yaza.Server.Devices
import Yaza.Server.Visits

/-! Where `check_intersection` leaves the pointer, and which calls it makes on the way. -/
namespace Yaza
namespace World

section Walks
variable {w : World} {hits : Hits}

/-- `Server::foreach_surface`, with what its handler gathers. -/
def foreachSurface {σ : Type} (w : World) (handler : σ → BoundedObject → σ) (s : σ) : World × σ :=
  let r := Walk.walk (fun i => (w.surfaces i).isSome) (fun s i => handler s (.surface i))
    w.surfaceList s
  ({ w with surfaceList := r.1 }, r.2)

/-- `Server::foreach_bounded_app`. -/
def foreachBoundedApp {σ : Type} (w : World) (handler : σ → BoundedObject → σ) (s : σ) :
    World × σ :=
  let r := Walk.walk (fun i => (w.scene.boundedApps i).isSome) (fun s i => handler s (.app i))
    w.boundedApps s
  ({ w with boundedApps := r.1 }, r.2)

/-- The walks drop what has expired, and together they test the candidates. -/
theorem foreach_nearest (w : World) (hits : Hits) :
    let r := w.foreachSurface (w.nearer hits) none
    r.1.foreachBoundedApp (w.nearer hits) r.2 =
      (w.dropExpiredSurfaces.dropExpiredApps, w.nearest hits) := by
  simp only [foreachSurface, foreachBoundedApp, Walk.walk_eq, nearest, candidates,
    List.filter_append, List.foldl_append, List.filter_map, List.foldl_map]
  rfl

/-- The objects in the order they are visited, live or not. -/
def visited (w : World) : List BoundedObject :=
  w.surfaceList.map BoundedObject.surface ++ w.boundedApps.map BoundedObject.app

/-- The distance at which the ray hits an object that is alive. -/
def seen (w : World) (hits : Hits) (o : BoundedObject) : Option ℚ :=
  if w.alive o then w.hit hits o else none

/-- Where the pointer belongs: on the nearest live object, the last visited of equal ones. -/
def Target (w : World) (hits : Hits) : Option BoundedObject → Prop
  | some o => ∃ d, Walk.Closest (w.seen hits) w.visited o d
  | none => ∀ o ∈ w.visited, w.seen hits o = none

theorem Target.alive {o : BoundedObject} (h : w.Target hits (some o)) : w.alive o = true := by
  obtain ⟨d, hd⟩ := h
  have h1 := hd.value
  unfold seen at h1
  split at h1
  · assumption
  · cases h1

theorem Target.unique {t t' : Option BoundedObject} (h : w.Target hits t)
    (h' : w.Target hits t') : t = t' := by
  have clash {o : BoundedObject} (ho : w.Target hits (some o)) (hn : w.Target hits none) :
      False := by
    obtain ⟨d, hd⟩ := ho
    have h1 := hn o hd.mem
    rw [hd.value] at h1
    cases h1
  cases t with
  | none =>
    cases t' with
    | none => rfl
    | some o' => exact (clash h' h).elim
  | some o =>
    cases t' with
    | none => exact (clash h h').elim
    | some o' =>
      obtain ⟨d, hd⟩ := h
      obtain ⟨d', hd'⟩ := h'
      rw [(hd.unique hd').1]

theorem nearest_target (w : World) (hits : Hits) :
    w.Target hits ((w.nearest hits).map Prod.fst) := by
  have hc : w.candidates = w.visited.filter w.alive := rfl
  -- the candidates are alive, so what is seen of them is what is hit
  have hf : w.nearest hits = w.candidates.foldl (Walk.closer (w.seen hits)) none := by
    refine List.foldl_ext _ _ _ fun best o ho => ?_
    have ha : w.alive o = true := (List.mem_filter.mp ho).2
    simp only [nearer, Walk.closer, seen, ha, if_true]
    cases w.hit hits o with
    | none => rfl
    | some d =>
      cases best with
      | none => rfl
      | some b => by_cases hd : d ≤ b.2 <;> simp [hd]
  have h := Walk.foldl_closer (f := w.seen hits) w.candidates
  rw [← hf] at h
  have hs (o : BoundedObject) (ho : w.alive o = false) : w.seen hits o = none := by
    simp [seen, ho]
  cases hn : w.nearest hits with
  | none =>
    simp only [hn] at h
    intro o ho
    cases ha : w.alive o with
    | true => exact h o (List.mem_filter.mpr ⟨ho, ha⟩)
    | false => exact hs o ha
  | some b =>
    obtain ⟨o, d⟩ := b
    simp only [hn, hc] at h
    exact ⟨d, (Walk.closest_filter w.alive hs).mp h⟩

end Walks

/-- The seat that a call on the object is sent through. -/
def seatOf (w : World) (o : BoundedObject) : Option ClientSeat :=
  (w.clientOf o).bind fun c => (w.seat.clientSeats c).join.bind w.clientSeats

/-- The client of the object has a live seat, and what the call names is alive. -/
def Takes (w : World) (o : BoundedObject) (c : ObjectCall) : Prop :=
  ∃ x, w.seatOf o = some x ∧ (receivers x o = [] ∨ w.namesFreed o c = false)

/-- There is no selection, or it is one of a live device with a live source. -/
def Sendable (w : World) : Prop :=
  ∀ d, w.seat.currentSelection = some d →
    ∃ x s, w.dataDevices d = some x ∧ x.dataSource = some s ∧ (w.dataSources s).isSome = true

/-- The selection can be sent to the client of the object, if the object is an app. -/
def Selectable (w : World) (o : BoundedObject) : Prop :=
  ∀ b, o = .app b → ∃ x, w.seatOf o = some x ∧ (x.dataDevices = [] ∨ w.Sendable)

/-- What the calls depend on. -/
def callParts (w : World) :=
  (w.scene, w.fault, w.surfaces, w.surfaceList, w.boundedApps, w.clientSeats, w.dataDevices,
    w.dataSources, w.seat.clientSeats, w.seat.currentSelection)

/-- These calls are made, and nothing changes that another call depends on. -/
structure Makes (cs : List (BoundedObject × ObjectCall)) (w w' : World) : Prop where
  calls : w'.calls = w.calls ++ cs
  parts : w'.callParts = w.callParts
  resources : w.Fresh → w'.Fresh ∧ ∀ i, (w.resources i).isSome = true →
    w'.resources i = w.resources i

section Makes
variable {cs cs' : List (BoundedObject × ObjectCall)} {w w' w'' : World} {o : BoundedObject}
  {c : ObjectCall}

theorem makes_of_eq (hc : w'.calls = w.calls ++ cs) (hp : w'.callParts = w.callParts)
    (hn : w'.nextId = w.nextId) (hr : w'.resources = w.resources) : Makes cs w w' where
  calls := hc
  parts := hp
  resources := fun hf => ⟨fun i hi => by rw [hr]; exact hf i (hn ▸ hi), fun i _ => by rw [hr]⟩

theorem Makes.refl (w : World) : Makes [] w w := makes_of_eq (by simp) rfl rfl rfl

theorem Makes.trans (h : Makes cs w w') (h' : Makes cs' w' w'') : Makes (cs ++ cs') w w'' where
  calls := by rw [h'.calls, h.calls, List.append_assoc]
  parts := h'.parts.trans h.parts
  resources := fun hf => by
    obtain ⟨h1, h2⟩ := h.resources hf
    obtain ⟨h3, h4⟩ := h'.resources h1
    refine ⟨h3, fun i hi => ?_⟩
    rw [h4 i (by rwa [h2 i hi]), h2 i hi]

theorem Makes.stopped (h : Makes cs w w') : w'.stopped = w.stopped := by
  have hp := h.parts
  simp only [callParts, Prod.mk.injEq] at hp
  simp only [World.stopped, hp.1, hp.2.1]

theorem Makes.lists (h : Makes cs w w') :
    w'.surfaceList = w.surfaceList ∧ w'.boundedApps = w.boundedApps := by
  have hp := h.parts
  simp only [callParts, Prod.mk.injEq] at hp
  exact ⟨hp.2.2.2.1, hp.2.2.2.2.1⟩

theorem Makes.lock (h : Makes cs w w') (p : Option BoundedObject) : w'.lock p = w.lock p := by
  have hp := h.parts
  simp only [callParts, Prod.mk.injEq] at hp
  obtain ⟨hs, -, hx, -⟩ := hp
  have ha (o : BoundedObject) : w'.alive o = w.alive o := by
    cases o <;> simp only [World.alive, hs, hx]
  rw [World.lock, World.lock, funext ha]

theorem Makes.sendable (h : Makes cs w w') : w'.Sendable ↔ w.Sendable := by
  have hp := h.parts
  simp only [callParts, Prod.mk.injEq] at hp
  obtain ⟨-, -, -, -, -, -, hd, hs, -, hc⟩ := hp
  simp only [Sendable, hd, hs, hc]

/-- The resource of the object is there, if it is a surface. -/
def Backed (w : World) (o : BoundedObject) : Prop :=
  ∀ i, o = .surface i → (w.resources i).isSome = true

theorem Makes.seatOf (h : Makes cs w w') (hf : w.Fresh) (ho : w.Backed o) :
    w'.seatOf o = w.seatOf o := by
  have hp := h.parts
  simp only [callParts, Prod.mk.injEq] at hp
  obtain ⟨hs, -, -, -, -, hc, -, -, he, -⟩ := hp
  have h1 : w'.clientOf o = w.clientOf o := by
    cases o with
    | surface i => simp only [World.clientOf, (h.resources hf).2 i (ho i rfl)]
    | app b => simp only [World.clientOf, hs]
  simp only [World.seatOf, h1, he, hc]

theorem Makes.takes (h : Makes cs w w') (hf : w.Fresh) (ho : w.Backed o) :
    w'.Takes o c ↔ w.Takes o c := by
  have hp := h.parts
  simp only [callParts, Prod.mk.injEq] at hp
  have h1 : w'.namesFreed o c = w.namesFreed o c := by
    cases o <;> cases c <;> simp only [World.namesFreed, hp.1]
  simp only [Takes, h.seatOf hf ho, h1]

/-- The data devices in the seat of the object have resources. -/
def Enlists (w : World) (o : BoundedObject) : Prop :=
  ∀ x, w.seatOf o = some x → ∀ d ∈ x.dataDevices, (w.resources d).isSome = true

theorem Makes.enlists (h : Makes cs w w') (hf : w.Fresh) (ho : w.Backed o) (hd : w.Enlists o) :
    w'.Enlists o := fun x hx d hxd => by
  rw [h.seatOf hf ho] at hx
  have h1 := hd x hx d hxd
  rwa [(h.resources hf).2 d h1]

theorem Makes.selectable (h : Makes cs w w') (hf : w.Fresh) (ho : w.Backed o) :
    w'.Selectable o ↔ w.Selectable o := by
  simp only [Selectable, h.seatOf hf ho, h.sendable]

end Makes

theorem andThen_running_iff {w : World} {f : World → World} :
    (w.andThen f).stopped = false ↔ w.stopped = false ∧ (f w).stopped = false := by
  unfold World.andThen
  cases hs : w.stopped with
  | true => simp [hs]
  | false => simp

section Calls
variable {w : World} {o : BoundedObject} {c : ObjectCall}

/-- A lookup that finds a seat goes on with it. -/
theorem withSeatOf_found {x : ClientSeat} (h : w.seatOf o = some x)
    (k : World → ClientSeat → World) :
    ∃ ls, w.withSeatOf o k = k { w with lookups := ls } x := by
  simp only [seatOf, Option.bind_eq_some_iff] at h
  obtain ⟨client, hc, i, hi, hx⟩ := h
  simp only [withSeatOf, hc, withClientSeat, hi, hx]
  exact ⟨_, rfl⟩

theorem withSeatOf_seat {k : World → ClientSeat → World}
    (h : (w.withSeatOf o k).stopped = false) : ∃ x, w.seatOf o = some x := by
  obtain ⟨client, i, x, hc, hx, -⟩ := withSeatOf_running h
  exact ⟨x, by simp only [seatOf, hc, Option.bind_some, hx]⟩

theorem point_found {x : ClientSeat} (h : w.seatOf o = some x) (c : ObjectCall) :
    ∃ ls, w.point o c =
      if receivers x o ≠ [] ∧ w.namesFreed o c = true then
        { w.logCall o c with lookups := ls }.crash .useAfterFree
      else { w.logCall o c with lookups := ls }.emit (.pointing (receivers x o) o c) := by
  have h1 : (w.logCall o c).seatOf o = some x := by cases o <;> exact h
  obtain ⟨ls, h2⟩ := withSeatOf_found h1 fun w x =>
    if !(receivers x o).isEmpty && w.namesFreed o c then w.crash .useAfterFree
    else w.emit (.pointing (receivers x o) o c)
  have h3 : World.namesFreed { w.logCall o c with lookups := ls } o c = w.namesFreed o c := by
    cases o <;> cases c <;> rfl
  refine ⟨ls, h2.trans ?_⟩
  rw [h3]
  simp

/-- A call comes through exactly when the object takes it. -/
theorem point_running_iff (hr : w.stopped = false) :
    (w.point o c).stopped = false ↔ w.Takes o c := by
  constructor
  · intro h
    obtain ⟨x, hx⟩ := withSeatOf_seat h
    have hx' : w.seatOf o = some x := by cases o <;> exact hx
    refine ⟨x, hx', ?_⟩
    obtain ⟨ls, h1⟩ := point_found hx' c
    rw [h1] at h
    split at h
    · rw [crash_stopped] at h
      cases h
    · next hn => simpa [or_iff_not_imp_left] using hn
  · rintro ⟨x, hx, hn⟩
    obtain ⟨ls, h1⟩ := point_found hx c
    rw [h1, if_neg]
    · exact hr
    · rintro ⟨h2, h3⟩
      rcases hn with h4 | h4
      · exact h2 h4
      · simp [h3] at h4

theorem point_makes (h : w.Takes o c) : Makes [(o, c)] w (w.point o c) := by
  obtain ⟨x, hx, hn⟩ := h
  obtain ⟨ls, h1⟩ := point_found hx c
  rw [h1, if_neg]
  · exact makes_of_eq rfl rfl rfl rfl
  · rintro ⟨h2, h3⟩
    rcases hn with h4 | h4
    · exact h2 h4
    · simp [h3] at h4

/-- What takes any call takes a frame. -/
theorem Takes.frame (h : w.Takes o c) : w.Takes o .frame := by
  obtain ⟨x, hx, -⟩ := h
  exact ⟨x, hx, .inr (by cases o <;> rfl)⟩

theorem Takes.motion (h : w.Takes o c) : w.Takes o .motion := by
  obtain ⟨x, hx, -⟩ := h
  exact ⟨x, hx, .inr (by cases o <;> rfl)⟩

/-- The calls on an object that is left. -/
def leaving (p : Option BoundedObject) : List (BoundedObject × ObjectCall) :=
  p.toList.flatMap fun o => [(o, .leave), (o, .frame)]

section Leave
variable (hf : w.Fresh)
include hf

theorem leave_makes (hr : w.stopped = false) (ho : w.Backed o) (h : w.Takes o .leave) :
    Makes [(o, .leave), (o, .frame)] w (w.leave o) := by
  have h1 := point_makes h
  have h2 := point_makes ((h1.takes hf ho).mpr h.frame)
  unfold leave World.andThen
  rw [h1.stopped, hr]
  exact h1.trans h2

theorem leave_running_iff (hr : w.stopped = false) (ho : w.Backed o) :
    (w.leave o).stopped = false ↔ w.Takes o .leave := by
  constructor
  · intro h
    exact (point_running_iff hr).mp (andThen_running_iff.mp h).1
  · intro h
    rw [(leave_makes hf hr ho h).stopped, hr]

theorem leaveFocused_makes (hr : w.stopped = false)
    (ho : ∀ p, w.lock w.seat.focusedObj = some p → w.Backed p)
    (h : ∀ p, w.lock w.seat.focusedObj = some p → w.Takes p .leave) :
    Makes (leaving (w.lock w.seat.focusedObj)) w w.leaveFocused := by
  unfold leaveFocused
  cases hp : w.lock w.seat.focusedObj with
  | none => exact .refl w
  | some p => exact leave_makes hf hr (ho p hp) (h p hp)

theorem leaveFocused_running_iff (hr : w.stopped = false)
    (ho : ∀ p, w.lock w.seat.focusedObj = some p → w.Backed p) :
    w.leaveFocused.stopped = false ↔
      ∀ p, w.lock w.seat.focusedObj = some p → w.Takes p .leave := by
  constructor
  · intro h p hp
    simp only [leaveFocused, hp] at h
    exact (leave_running_iff hf hr (ho p hp)).mp h
  · intro h
    rw [(leaveFocused_makes hf hr ho h).stopped, hr]

end Leave

/-- The selection is sent to one device. -/
theorem sendSelection_makes (h : w.Sendable) {d : ℕ} (hd : (w.resources d).isSome = true) :
    Makes [] w (w.sendSelection d) := by
  cases hc : w.seat.currentSelection with
  | none =>
    have h1 : w.sendSelection d = w.emit (.selection d none) := by simp only [sendSelection, hc]
    rw [h1]
    exact makes_of_eq (by simp [World.emit]) rfl rfl rfl
  | some e =>
    obtain ⟨x, s, hx, hs, hy⟩ := h e hc
    obtain ⟨y, hy⟩ := Option.isSome_iff_exists.mp hy
    obtain ⟨r, hr⟩ := Option.isSome_iff_exists.mp hd
    have h1 : w.sendSelection d = w.createOffer d s := by
      simp only [sendSelection, hc, hx, hs]
    rw [h1]
    unfold createOffer
    simp only [hr, hy]
    refine ⟨by simp, rfl, fun hf => ⟨fun i hi => hf.set_eq_none _ hi, fun i hi => ?_⟩⟩
    obtain ⟨q, hq⟩ := Option.isSome_iff_exists.mp hi
    exact Arena.set_of_ne _ _ (Nat.ne_of_lt (hf.lt hq))

theorem sendSelections_makes (hf : w.Fresh) (h : w.Sendable) {ds : List ℕ}
    (hd : ∀ d ∈ ds, (w.resources d).isSome = true) (hr : w.stopped = false) :
    Makes [] w (w.sendSelections ds) := by
  induction ds generalizing w with
  | nil => exact .refl w
  | cons d ds ih =>
    have h1 := sendSelection_makes h (hd d List.mem_cons_self)
    have h2 : w.sendSelections (d :: ds) = (w.sendSelection d).sendSelections ds := by
      simp [sendSelections, World.andThen, hr]
    rw [h2]
    refine h1.trans (ih (h1.resources hf).1 (h1.sendable.mpr h) (fun e he => ?_) ?_)
    · have h3 := hd e (List.mem_cons_of_mem d he)
      rwa [(h1.resources hf).2 e h3]
    · rw [h1.stopped, hr]

/-- A selection that was sent could be. -/
theorem sendable_of_running {d : ℕ} (h : (w.sendSelection d).stopped = false) : w.Sendable := by
  intro e he
  simp only [sendSelection, he] at h
  cases hx : w.dataDevices e with
  | none =>
    simp only [hx, crash_stopped] at h
    cases h
  | some x =>
    cases hs : x.dataSource with
    | none =>
      simp only [hx, hs, crash_stopped] at h
      cases h
    | some s =>
      simp only [hx, hs] at h
      rcases createOffer_cases w d s with h1 | ⟨r, y, -, hy, -⟩
      · rw [h1, crash_stopped] at h
        cases h
      · exact ⟨x, s, rfl, hs, by rw [hy]; rfl⟩

theorem sendSelections_stopped (hs : w.stopped = true) (ds : List ℕ) :
    (w.sendSelections ds).stopped = true := by
  unfold sendSelections
  induction ds with
  | nil => exact hs
  | cons d ds ih => simpa [World.andThen, hs] using ih

theorem sendable_of_running_all {ds : List ℕ} (hr : w.stopped = false)
    (h : (w.sendSelections ds).stopped = false) : ds = [] ∨ w.Sendable := by
  cases ds with
  | nil => exact .inl rfl
  | cons d ds =>
    refine .inr ?_
    have h2 : w.sendSelections (d :: ds) = (w.sendSelection d).sendSelections ds := by
      simp [sendSelections, World.andThen, hr]
    cases hs : (w.sendSelection d).stopped with
    | false => exact sendable_of_running hs
    | true =>
      rw [h2, sendSelections_stopped hs] at h
      cases h

section Select
variable (hf : w.Fresh) (hr : w.stopped = false)
include hf hr

theorem selectFor_makes (hd : w.Enlists o) (h : w.Selectable o) :
    Makes [] w (w.selectFor o) := by
  cases o with
  | surface i => exact .refl w
  | app b =>
    obtain ⟨x, hx, hs⟩ := h b rfl
    obtain ⟨ls, h1⟩ := withSeatOf_found hx fun w x => w.sendSelections x.dataDevices
    have h2 : Makes [] w { w with lookups := ls } := makes_of_eq (by simp) rfl rfl rfl
    have h3 : w.selectFor (.app b) = World.sendSelections { w with lookups := ls } x.dataDevices :=
      h1
    rw [h3]
    rcases hs with hs | hs
    · rw [hs]
      exact h2
    · exact h2.trans (sendSelections_makes (h2.resources hf).1 (h2.sendable.mpr hs) (hd x hx) hr)

theorem selectFor_running_iff (hd : w.Enlists o) :
    (w.selectFor o).stopped = false ↔ w.Selectable o := by
  constructor
  · rintro h b rfl
    obtain ⟨x, hx⟩ := withSeatOf_seat h
    obtain ⟨ls, h1⟩ := withSeatOf_found hx fun w x => w.sendSelections x.dataDevices
    have h2 : Makes [] w { w with lookups := ls } := makes_of_eq (by simp) rfl rfl rfl
    have h3 : (World.sendSelections { w with lookups := ls } x.dataDevices).stopped = false := by
      rw [← h1]
      exact h
    have h4 := sendable_of_running_all (w := { w with lookups := ls }) hr h3
    exact ⟨x, hx, h4.imp_right h2.sendable.mp⟩
  · intro h
    rw [(selectFor_makes hf hr hd h).stopped, hr]

end Select

/-- The old object takes its leave, and the new one what it is entered with. -/
def Changeable (w : World) (o : BoundedObject) : Prop :=
  (∀ p, w.lock w.seat.focusedObj = some p → w.Takes p .leave) ∧ w.Selectable o ∧ w.Takes o .enter

/-- The calls when the new object gets the pointer. -/
def entering (old : Option BoundedObject) (o : BoundedObject) :
    List (BoundedObject × ObjectCall) :=
  if old = some o then [] else leaving old ++ [(o, .enter)]

section Focus
variable (hf : w.Fresh) (hr : w.stopped = false)
  (hp : ∀ p, w.lock w.seat.focusedObj = some p → w.Backed p) (ho : w.Backed o)
  (hd : w.Enlists o)
include hf hr hp ho hd

theorem changeFocus_makes (h : w.Changeable o) :
    Makes (leaving (w.lock w.seat.focusedObj) ++ [(o, .enter)]) w (w.changeFocus o) ∧
      (w.changeFocus o).seat.focusedObj = some o := by
  obtain ⟨hl, hs, he⟩ := h
  have h1 := leaveFocused_makes hf hr hp hl
  have hd1 := h1.enlists hf ho hd
  have hr1 : w.leaveFocused.stopped = false := by rw [h1.stopped, hr]
  have h2 := selectFor_makes (h1.resources hf).1 hr1 hd1 ((h1.selectable hf ho).mpr hs)
  have hr2 : (w.leaveFocused.selectFor o).stopped = false := by rw [h2.stopped, hr1]
  have h3 : Makes [] (w.leaveFocused.selectFor o)
      { w.leaveFocused.selectFor o with seat.focusedObj := some o } :=
    makes_of_eq (by simp) rfl rfl rfl
  have h4 := (h1.trans h2).trans h3
  have h5 := point_makes ((h4.takes hf ho).mpr he)
  have h6 : w.changeFocus o =
      World.point { w.leaveFocused.selectFor o with seat.focusedObj := some o } o .enter := by
    simp [changeFocus, World.andThen, hr1, hr2]
  rw [h6]
  refine ⟨by simpa using h4.trans h5, (point_follows _ o .enter).focusedObj⟩

theorem changeFocus_running_iff : (w.changeFocus o).stopped = false ↔ w.Changeable o := by
  constructor
  · intro h
    obtain ⟨hr1, h1⟩ := andThen_running_iff.mp h
    obtain ⟨hr2, h2⟩ := andThen_running_iff.mp h1
    have hl := (leaveFocused_running_iff hf hr hp).mp hr1
    have m1 := leaveFocused_makes hf hr hp hl
    have hd1 := m1.enlists hf ho hd
    have hs := (selectFor_running_iff (m1.resources hf).1 hr1 hd1).mp hr2
    have m2 := selectFor_makes (m1.resources hf).1 hr1 hd1 hs
    have m3 : Makes [] (w.leaveFocused.selectFor o)
        { w.leaveFocused.selectFor o with seat.focusedObj := some o } :=
      makes_of_eq (by simp) rfl rfl rfl
    have he := (point_running_iff (w := { w.leaveFocused.selectFor o with
      seat.focusedObj := some o }) hr2).mp h2
    exact ⟨hl, (m1.selectable hf ho).mp hs, (((m1.trans m2).trans m3).takes hf ho).mp he⟩
  · intro h
    rw [(changeFocus_makes hf hr hp ho hd h).1.stopped, hr]

theorem setFocusedObj_makes
    (h : w.lock w.seat.focusedObj ≠ some o → w.Changeable o) :
    Makes (entering (w.lock w.seat.focusedObj) o) w (w.setFocusedObj o) ∧
      (w.setFocusedObj o).seat.focusedObj = some o := by
  by_cases hc : w.lock w.seat.focusedObj = some o
  · simp only [setFocusedObj, entering, hc, if_true]
    exact ⟨.refl w, (lock_eq_some.mp hc).1⟩
  · simp only [setFocusedObj, entering, hc, if_false]
    exact changeFocus_makes hf hr hp ho hd (h hc)

theorem setFocusedObj_running_iff : (w.setFocusedObj o).stopped = false ↔
    (w.lock w.seat.focusedObj ≠ some o → w.Changeable o) := by
  by_cases hc : w.lock w.seat.focusedObj = some o
  · simp [setFocusedObj, hc, hr]
  · simp only [setFocusedObj, hc, if_false, ne_eq, not_false_eq_true, forall_true_left]
    exact changeFocus_running_iff hf hr hp ho hd

theorem focusOn_makes (d : ℚ) (h : w.lock w.seat.focusedObj ≠ some o → w.Changeable o)
    (hm : w.Takes o .motion) :
    Makes (entering (w.lock w.seat.focusedObj) o ++ [(o, .motion), (o, .frame)]) w
      (w.focusOn o d) ∧ (w.focusOn o d).seat.focusedObj = some o := by
  obtain ⟨h1, hfo⟩ := setFocusedObj_makes hf hr hp ho hd h
  have h2 := point_makes ((h1.takes hf ho).mpr hm)
  have h12 := h1.trans h2
  have h3 := point_makes ((h12.takes hf ho).mpr hm.frame)
  have h123 := h12.trans h3
  have hs1 : (w.setFocusedObj o).stopped = false := by rw [h1.stopped, hr]
  have hs2 : ((w.setFocusedObj o).point o .motion).stopped = false := by rw [h12.stopped, hr]
  have hs3 : (((w.setFocusedObj o).point o .motion).point o .frame).stopped = false := by
    rw [h123.stopped, hr]
  have hw : w.focusOn o d = { ((w.setFocusedObj o).point o .motion).point o .frame with
      seat.cursorDistance := d * (98 / 100)
      ray.length := d * (98 / 100) * (9 / 10) } := by
    simp [focusOn, World.andThen, hs1, hs2, hs3]
  rw [hw]
  have h4 : Makes [] (((w.setFocusedObj o).point o .motion).point o .frame)
      { ((w.setFocusedObj o).point o .motion).point o .frame with
        seat.cursorDistance := d * (98 / 100)
        ray.length := d * (98 / 100) * (9 / 10) } := makes_of_eq (by simp) rfl rfl rfl
  refine ⟨by simpa using h123.trans h4, ?_⟩
  exact (point_follows _ o .frame).focusedObj.trans
    ((point_follows _ o .motion).focusedObj.trans hfo)

theorem focusOn_running_iff (d : ℚ) : (w.focusOn o d).stopped = false ↔
    (w.lock w.seat.focusedObj ≠ some o → w.Changeable o) ∧ w.Takes o .motion := by
  constructor
  · intro h
    obtain ⟨hs1, h1⟩ := andThen_running_iff.mp h
    obtain ⟨hs2, -⟩ := andThen_running_iff.mp h1
    have hc := (setFocusedObj_running_iff hf hr hp ho hd).mp hs1
    have m1 := (setFocusedObj_makes hf hr hp ho hd hc).1
    exact ⟨hc, (m1.takes hf ho).mp ((point_running_iff hs1).mp hs2)⟩
  · rintro ⟨hc, hm⟩
    rw [(focusOn_makes hf hr hp ho hd d hc hm).1.stopped, hr]

end Focus

/-- Without a cursor nothing else is touched. -/
theorem setNoCursor (w : World) (hotspot : ℤ × ℤ) :
    ∃ S q, w.setSurfaceAsCursor none hotspot = { w with surfaces := S, seat := q } ∧
      q.focusedObj = w.seat.focusedObj ∧ ∀ i, (S i).isSome = (w.surfaces i).isSome := by
  unfold setSurfaceAsCursor
  split
  · exact ⟨_, _, rfl, rfl, fun _ => rfl⟩
  · next i _ =>
    refine ⟨_, _, rfl, rfl, fun j => ?_⟩
    exact Arena.modify_isSome w.surfaces i j _

end Calls

/-- The calls that take the pointer from one object to another, or move it where it is. -/
def transition (old new : Option BoundedObject) : List (BoundedObject × ObjectCall) :=
  match new with
  | some o => entering old o ++ [(o, .motion), (o, .frame)]
  | none => leaving old

/-- The pointer is on `t`, and went there by the calls it should; the lists hold what is alive. -/
structure Refocused (w w' : World) (t : Option BoundedObject) : Prop where
  running : w'.stopped = false
  focus : w'.seat.focusedObj = t
  live : ∀ o, t = some o → w'.alive o = true
  calls : w'.calls = w.calls ++ transition (w.lock w.seat.focusedObj) t
  surfaces : w'.surfaceList = w.surfaceList.filter fun i => w.alive (.surface i)
  apps : w'.boundedApps = w.boundedApps.filter fun i => w.alive (.app i)

/-- Who is called on the way to `t` takes the call. -/
structure Callable (w : World) (t : Option BoundedObject) : Prop where
  left : ∀ p, w.lock w.seat.focusedObj = some p → t ≠ some p → w.Takes p .leave
  entered : ∀ o, t = some o → w.lock w.seat.focusedObj ≠ some o →
    w.Selectable o ∧ w.Takes o .enter
  moved : ∀ o, t = some o → w.Takes o .motion

/-- What the calls rely on: the resources of live surfaces and of listed data devices are there. -/
structure Founded (w : World) : Prop where
  fresh : w.Fresh
  backed : ∀ o, w.alive o = true → w.Backed o
  enlists : ∀ o, w.Enlists o

theorem Founded.focused {w : World} (hw : w.Founded) (p : BoundedObject)
    (hp : w.lock w.seat.focusedObj = some p) : w.Backed p := hw.backed p (lock_eq_some.mp hp).2

/-- The program with the expired entries gone from its lists. -/
theorem dropExpired_founded {w : World} (hw : w.Founded) :
    w.dropExpiredSurfaces.dropExpiredApps.Founded where
  fresh := hw.fresh
  backed := hw.backed
  enlists := hw.enlists

theorem dropExpired_callable {w : World} {t : Option BoundedObject} :
    w.dropExpiredSurfaces.dropExpiredApps.Callable t ↔ w.Callable t :=
  ⟨fun h => ⟨h.left, h.entered, h.moved⟩, fun h => ⟨h.left, h.entered, h.moved⟩⟩

section Whole
variable {w : World} (hw : w.Founded) (hr : w.stopped = false)
include hw hr

theorem focusOn_callable_iff {o : BoundedObject} (ho : w.alive o = true) (d : ℚ) :
    (w.focusOn o d).stopped = false ↔ w.Callable (some o) := by
  rw [focusOn_running_iff hw.fresh hr hw.focused (hw.backed o ho) (hw.enlists o)]
  constructor
  · rintro ⟨hc, hm⟩
    refine ⟨fun p hp hn => (hc fun h => hn ?_).1 p hp, ?_, ?_⟩
    · rw [← h, hp]
    · rintro q hq hn
      cases hq
      exact (hc hn).2
    · rintro q hq
      cases hq
      exact hm
  · intro h
    refine ⟨fun hn => ⟨fun p hp => h.left p hp fun hpo => hn ?_, h.entered o rfl hn⟩, h.moved o rfl⟩
    rw [hp, hpo]

theorem focusNothing_callable_iff : w.focusNothing.stopped = false ↔ w.Callable none := by
  unfold focusNothing
  rw [andThen_running_iff, leaveFocused_running_iff hw.fresh hr hw.focused]
  constructor
  · rintro ⟨h, -⟩
    exact ⟨fun p hp _ => h p hp, fun _ ho => (by cases ho), fun _ ho => (by cases ho)⟩
  · intro h
    have hl : ∀ p, w.lock w.seat.focusedObj = some p → w.Takes p .leave :=
      fun p hp => h.left p hp (by simp)
    refine ⟨hl, ?_⟩
    obtain ⟨S, q, h1, -⟩ :=
      setNoCursor { w.leaveFocused with seat.focusedObj := none } (0, 0)
    have h2 := (leaveFocused_makes hw.fresh hr hw.focused hl).stopped
    rw [h1]
    exact h2.trans hr

theorem focusOn_refocuses {o : BoundedObject} (ho : w.alive o = true) (d : ℚ)
    (h : w.Callable (some o)) :
    Makes (transition (w.lock w.seat.focusedObj) (some o)) w (w.focusOn o d) ∧
      (w.focusOn o d).seat.focusedObj = some o := by
  have h1 := (focusOn_callable_iff hw hr ho d).mpr h
  obtain ⟨hc, hm⟩ := (focusOn_running_iff hw.fresh hr hw.focused (hw.backed o ho)
    (hw.enlists o) d).mp h1
  exact focusOn_makes hw.fresh hr hw.focused (hw.backed o ho) (hw.enlists o) d hc hm

theorem focusNothing_refocuses (h : w.Callable none) :
    w.focusNothing.seat.focusedObj = none ∧
      w.focusNothing.calls = w.calls ++ transition (w.lock w.seat.focusedObj) none ∧
      w.focusNothing.surfaceList = w.surfaceList ∧ w.focusNothing.boundedApps = w.boundedApps := by
  have hl : ∀ p, w.lock w.seat.focusedObj = some p → w.Takes p .leave :=
    fun p hp => h.left p hp (by simp)
  have m := leaveFocused_makes hw.fresh hr hw.focused hl
  have hs : w.leaveFocused.stopped = false := by rw [m.stopped, hr]
  obtain ⟨S, q, h1, hq, -⟩ := setNoCursor { w.leaveFocused with seat.focusedObj := none } (0, 0)
  have h2 : w.focusNothing = { w.leaveFocused with surfaces := S, seat := q } := by
    simp only [focusNothing, World.andThen, hs]
    exact h1
  rw [h2]
  exact ⟨hq, m.calls, m.lists⟩

theorem checkIntersection_callable_iff (hits : Hits) {t : Option BoundedObject}
    (ht : w.Target hits t) :
    (w.checkIntersection hits).stopped = false ↔ w.Callable t := by
  obtain rfl := ht.unique (nearest_target w hits)
  have hu := dropExpired_founded hw
  have hru : w.dropExpiredSurfaces.dropExpiredApps.stopped = false := hr
  rw [← dropExpired_callable]
  unfold checkIntersection
  cases hn : w.nearest hits with
  | none => exact focusNothing_callable_iff hu hru
  | some b =>
    have ha : w.alive b.1 = true := nearest_alive hn
    exact focusOn_callable_iff hu hru ha b.2

theorem checkIntersection_refocused (hits : Hits) {t : Option BoundedObject}
    (ht : w.Target hits t) (h : w.Callable t) : Refocused w (w.checkIntersection hits) t := by
  have hrun := (checkIntersection_callable_iff hw hr hits ht).mpr h
  have hc : Calm w (w.checkIntersection hits) :=
    (checkIntersection_base (S := fun _ => True) hits (fun p _ => asks_true w p)
      fun p _ _ => asks_true w p).toCalm
  have hl : ∀ o, t = some o → (w.checkIntersection hits).alive o = true := by
    rintro o rfl
    rw [hc.alive]
    exact ht.alive
  obtain rfl := ht.unique (nearest_target w hits)
  have hu := dropExpired_founded hw
  have hru : w.dropExpiredSurfaces.dropExpiredApps.stopped = false := hr
  have key : (w.checkIntersection hits).seat.focusedObj = (w.nearest hits).map Prod.fst ∧
      (w.checkIntersection hits).calls =
        w.calls ++ transition (w.lock w.seat.focusedObj) ((w.nearest hits).map Prod.fst) ∧
      (w.checkIntersection hits).surfaceList =
        w.dropExpiredSurfaces.dropExpiredApps.surfaceList ∧
      (w.checkIntersection hits).boundedApps =
        w.dropExpiredSurfaces.dropExpiredApps.boundedApps := by
    rw [← dropExpired_callable] at h
    unfold checkIntersection
    cases hn : w.nearest hits with
    | none =>
      rw [hn] at h
      exact focusNothing_refocuses hu hru h
    | some b =>
      have ha : w.alive b.1 = true := nearest_alive hn
      rw [hn] at h
      obtain ⟨m, hf⟩ := focusOn_refocuses hu hru ha b.2 h
      exact ⟨hf, m.calls, m.lists⟩
  exact ⟨hrun, key.1, hl, key.2.1, key.2.2.1, key.2.2.2⟩

end Whole

/-- The program as a call may find it: with any lists, any focus and any ray. -/
def picking (w : World) (surfaceList boundedApps : List ℕ) (focusedObj : Option BoundedObject)
    (ray : RayCaster) : World :=
  { w with surfaceList, boundedApps, seat.focusedObj := focusedObj, ray }

theorem run_founded (as : List Action) (ss bs : List ℕ) (f : Option BoundedObject)
    (r : RayCaster) : ((run as).picking ss bs f r).Founded where
  fresh := (run_sane as).fresh
  backed := by
    rintro o ho i rfl
    obtain ⟨c, hc⟩ := (run_typed as).resource .surface i ho
    exact Option.isSome_iff_exists.mpr ⟨_, hc⟩
  enlists := by
    intro o x hx d hd
    simp only [seatOf, Option.bind_eq_some_iff] at hx
    obtain ⟨c, -, i, -, hx⟩ := hx
    have h1 := run_devices as i _ (Option.map_eq_some_iff.mpr ⟨x, hx, rfl⟩) d hd
    obtain ⟨e, he⟩ := (run_typed as).resource .dataDevice d h1
    exact Option.isSome_iff_exists.mpr ⟨_, he⟩

/-- The pointer goes where it belongs, by the calls it should, exactly when those who are called
on the way have a live seat and what the calls name is alive. -/
theorem checkIntersection_iff (as : List Action) (hr : (run as).stopped = false)
    (ss bs : List ℕ) (f : Option BoundedObject) (r : RayCaster) (hits : Hits) :
    (∃ t, ((run as).picking ss bs f r).Target hits t ∧
      Refocused ((run as).picking ss bs f r)
        (((run as).picking ss bs f r).checkIntersection hits) t) ↔
      ∀ t, ((run as).picking ss bs f r).Target hits t →
        ((run as).picking ss bs f r).Callable t := by
  have hw := run_founded as ss bs f r
  constructor
  · rintro ⟨t, ht, h⟩ t' ht'
    obtain rfl := ht.unique ht'
    exact (checkIntersection_callable_iff hw hr hits ht).mp h.running
  · intro h
    have ht := nearest_target ((run as).picking ss bs f r) hits
    exact ⟨_, ht, checkIntersection_refocused hw hr hits ht (h _ ht)⟩

/-- A client with a `wl_seat` commits a surface of one pixel. -/
def seatedContent : List Action :=
  [.desk 0 .bindSeat,
    .desk 0 (.createWlBuffer
      { format := 0, width := 1, height := 1, stride := 4, data := [0, 0, 0, 255] }),
    .desk 0 (.createSurface (0, 0)), .desk 0 (.attach 2 (some 1) (0, 0)), .desk 0 (.commit 2)]

/-- Another surface is on the list, but it is gone. -/
theorem checkIntersection_seated :
    ∃ t, ((run seatedContent).picking [5, 2] [] none {}).Target (fun _ => some 1) t ∧
      Refocused ((run seatedContent).picking [5, 2] [] none {})
        (((run seatedContent).picking [5, 2] [] none {}).checkIntersection fun _ => some 1) t := by
  refine (checkIntersection_iff seatedContent (by decide +kernel) [5, 2] [] none {}
    fun _ => some 1).mpr fun t ht => ?_
  have hn : ((run seatedContent).picking [5, 2] [] none {}).nearest (fun _ => some 1) =
      some (.surface 2, 1) := by decide +kernel
  have hs : ((run seatedContent).picking [5, 2] [] none {}).seatOf (.surface 2) = some {} := by
    decide +kernel
  have h2 := ht.unique (nearest_target _ _)
  rw [hn] at h2
  obtain rfl := h2
  refine ⟨fun p hp => (by cases hp), fun o ho _ => ?_, fun o ho => ?_⟩
  · cases ho
    exact ⟨fun b hb => (by cases hb), {}, hs, .inl rfl⟩
  · cases ho
    exact ⟨{}, hs, .inl rfl⟩

/-- The same without a `wl_seat`. -/
def seatlessContent : List Action :=
  [.desk 0 (.createWlBuffer
      { format := 0, width := 1, height := 1, stride := 4, data := [0, 0, 0, 255] }),
    .desk 0 (.createSurface (0, 0)), .desk 0 (.attach 1 (some 0) (0, 0)), .desk 0 (.commit 1)]

theorem seatless_crash :
    ¬ ∃ t, ((run seatlessContent).picking [1] [] none {}).Target (fun _ => some 1) t ∧
      Refocused ((run seatlessContent).picking [1] [] none {})
        (((run seatlessContent).picking [1] [] none {}).checkIntersection fun _ => some 1) t := by
  rintro ⟨t, -, h⟩
  have h1 : (((run seatlessContent).picking [1] [] none {}).checkIntersection
      fun _ => some 1).stopped = true := by decide +kernel
  rw [h.running] at h1
  cases h1

end World
end Yaza
