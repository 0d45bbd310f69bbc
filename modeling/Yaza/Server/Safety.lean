import Yaza.Server.Focusing
import Yaza.Server.Handles
import Yaza.Server.Layers
import Yaza.Server.Roles
import Yaza.Server.Seats
import Yaza.Server.Selection
import Yaza.Zwin.Safety

/-! Which clients keep the whole program running: what no client may do for it never to stop, in any
order of requests, destructions, sessions, ticks and input events. -/
namespace Yaza
namespace World

/-- What the functions of the seat rely on, and keep. -/
structure Able (w : World) : Prop where
  typed : w.Typed
  devices : w.DevicesLive
  sorted : w.Sorted fun _ => True
  seating : Seating w
  selection : w.SelectionLive
  roles : w.RolesLive
  deeds : w.scene.Deeds
  linked : w.scene.Linked

/-- The client of the object has a `wl_seat`. -/
def Met (w : World) (o : BoundedObject) : Prop := ∀ c, w.clientOf o = some c → w.HasSeat c

section Able
variable {w w' : World} {o : BoundedObject}

theorem Able.issued (h : Able w) (ho : w.alive o) : w.issued o := by
  cases o with
  | surface i => exact h.typed.lt (k := .surface) ho
  | app b =>
    obtain ⟨c, hc⟩ := h.deeds.apps b ho
    exact h.deeds.issued b (by simp [hc])

theorem Able.client (h : Able w) (ho : w.alive o) : ∃ c, w.clientOf o = some c := by
  cases o with
  | surface i =>
    obtain ⟨c, hc⟩ := h.typed.resource .surface i ho
    exact ⟨c, by simp [clientOf, hc]⟩
  | app b =>
    obtain ⟨c, hc⟩ := h.deeds.apps b ho
    exact ⟨c, by simp [clientOf, hc]⟩

theorem Able.founded (h : Able w) : w.Founded where
  fresh := h.typed.fresh
  backed := by
    rintro o ho i rfl
    obtain ⟨c, hc⟩ := h.typed.resource .surface i ho
    simp [hc]
  enlists := by
    intro o x hx d hd
    simp only [seatOf, Option.bind_eq_some_iff] at hx
    obtain ⟨c, -, i, -, hx⟩ := hx
    have h1 := h.devices i _ (Option.map_eq_some_iff.mpr ⟨x, hx, rfl⟩) d hd
    obtain ⟨e, he⟩ := h.typed.resource .dataDevice d h1
    simp [he]

theorem Able.sendable (h : Able w) : w.Sendable := h.selection.device

/-- An app that is alive names a virtual object that is. -/
theorem Able.named (h : Able w) (ho : w.alive o) (c : ObjectCall) : w.namesFreed o c = false := by
  cases o with
  | surface i => rfl
  | app b =>
    obtain ⟨x, hx⟩ := Option.isSome_iff_exists.mp (show (w.scene.boundedApps b).isSome from ho)
    obtain ⟨y, hy, -⟩ := h.linked.virtualObject b x hx
    cases c <;> simp [namesFreed, hx, hy]

/-- A lookup of a client finds a seat exactly when the client has one. -/
theorem Able.entry_iff (h : Able w) (c : ℕ) :
    (∃ x, (w.seat.clientSeats c).join.bind w.clientSeats = some x) ↔ w.HasSeat c := by
  constructor
  · rintro ⟨x, hx⟩
    obtain ⟨i, hi, -⟩ := Option.bind_eq_some_iff.mp hx
    obtain ⟨i, -, ho⟩ := h.seating.listed c fun hn => by simp [hn] at hi
    exact ⟨i, ho⟩
  · intro hc
    obtain ⟨i, hi, ho⟩ := h.seating.entry c hc
    obtain ⟨x, hx⟩ := Option.isSome_iff_exists.mp (ownsSeat_iff.mp ho).1
    exact ⟨x, by simp [hi, hx]⟩

theorem Able.seatOf_iff (h : Able w) (ho : w.alive o) : (∃ x, w.seatOf o = some x) ↔ w.Met o := by
  obtain ⟨c, hc⟩ := h.client ho
  have h1 := h.entry_iff c
  simp only [Met, seatOf, hc, Option.bind_some, Option.some.injEq] at h1 ⊢
  rw [h1]
  constructor
  · rintro hs _ rfl
    exact hs
  · exact fun hm => hm c rfl

theorem Able.takes_iff (h : Able w) (ho : w.alive o) (c : ObjectCall) :
    w.Takes o c ↔ w.Met o := by
  rw [← h.seatOf_iff ho]
  constructor
  · rintro ⟨x, hx, -⟩
    exact ⟨x, hx⟩
  · rintro ⟨x, hx⟩
    exact ⟨x, hx, .inr (h.named ho c)⟩

section After
variable {S : ℕ → Prop} (h : Able w) (hb : Base S w w') (hS : ∀ c, S c → w.HasSeat c)
include h hb hS

theorem Able.kept : SeatsKept w w' :=
  hb.kept h.seating.toPlaced fun c hc => h.seating.entry c (hS c hc)

/-- What the seat does for clients that have one leaves everything as able as it was. -/
theorem Able.after {k t : Bool} (he : Effects k t w w') : Able w' where
  typed := Path.preserves (fun _ _ h ht => h.typed ht) he.changes h.typed
  devices := he.retains.live h.devices
  sorted := he.changes.sorted h.sorted
  seating := h.seating.kept (h.kept hb hS) (hb.fresh h.typed.fresh)
  selection := Path.preserves (fun _ _ h hs => h.selection hs) he.changes h.selection
  roles := Path.preserves (fun _ _ h hr => h.roles hr) he.changes h.roles
  deeds := hb.scene ▸ h.deeds
  linked := hb.scene ▸ h.linked

theorem Able.hasSeat_after (c : ℕ) : w'.HasSeat c ↔ w.HasSeat c := by
  simp only [HasSeat, (h.kept hb hS).ownsSeat]

theorem Able.met_after (ho : w.alive o) : w'.Met o ↔ w.Met o := by
  simp only [Met, hb.clientOf (h.issued ho), h.hasSeat_after hb hS]

end After
end Able

/-- What looks up no seat. -/
theorem Able.same {w w' : World} (h : Able w) (hb : Base (fun _ => False) w w')
    (he : Effect true true w w') : Able w' := h.after hb (fun _ hc => hc.elim) (.single he)

section Calls
variable {w : World} {o : BoundedObject}

theorem point_alive (w : World) (o : BoundedObject) (c : ObjectCall) (p : BoundedObject) :
    (w.point o c).alive p = w.alive p := (point_follows w o c).calm.alive p

theorem point_looks (w : World) (o : BoundedObject) (c : ObjectCall) :
    Base (fun c => w.clientOf o = some c) w (w.point o c) := point_base (fun _ hc => hc) c

theorem Able.point (h : Able w) (hm : w.Met o) (c : ObjectCall) : Able (w.point o c) :=
  h.after (point_looks w o c) hm (point_effects (k := false) (t := false) w o c)

theorem Able.point_met (h : Able w) (hm : w.Met o) (c : ObjectCall) {p : BoundedObject}
    (hp : w.alive p) : (w.point o c).Met p ↔ w.Met p := h.met_after (point_looks w o c) hm hp

variable (h : Able w) (hr : w.stopped = false) (ho : w.alive o)
include h hr ho

theorem Able.point_running (c : ObjectCall) : (w.point o c).stopped = false ↔ w.Met o :=
  (point_running_iff hr).trans (h.takes_iff ho c)

theorem Able.leave_running : (w.leave o).stopped = false ↔ w.Met o :=
  (leave_running_iff h.typed.fresh hr (h.founded.backed o ho)).trans (h.takes_iff ho .leave)

/-- A call and the frame that comes after it. -/
theorem Able.framed_running (c : ObjectCall) :
    ((w.point o c).andThen fun w => w.point o .frame).stopped = false ↔ w.Met o := by
  rw [andThen_running_iff, h.point_running hr ho]
  constructor
  · exact fun hm => hm.1
  · intro hm
    have ho' : (w.point o c).alive o := by rw [point_alive]; exact ho
    exact ⟨hm, ((h.point hm c).point_running ((h.point_running hr ho c).mpr hm) ho' .frame).mpr
      ((h.point_met hm c ho).mpr hm)⟩

end Calls

section Keyboard
variable {w : World} {i : ℕ}

theorem setActivated_running {t : ℕ} {y : XdgTopLevel} (hy : w.toplevels t = some y)
    (hx : (w.xdgSurfaces y.xdgSurface).isSome) (hr : w.stopped = false) (activated : Bool) :
    (w.setActivated t activated).stopped = false := by
  simp only [setActivated, hy, hx, if_true]
  exact hr

/-- `on_unfocus` finds the role object. -/
theorem Able.onUnfocus_running (h : Able w) (hr : w.stopped = false) (i : ℕ) :
    (w.onUnfocus i).stopped = false := by
  unfold onUnfocus
  split
  · exact hr
  · next t ht =>
    obtain ⟨y, hy, hx⟩ := h.roles i t ht
    exact setActivated_running hy hx hr false

/-- `on_focus` finds it too, after the surface was raised. -/
theorem Able.onFocus_running (h : Able w) (hr : w.stopped = false) (i : ℕ) :
    (w.onFocus i).stopped = false := by
  unfold onFocus
  split
  · exact hr
  · next t ht =>
    obtain ⟨y, hy, hx⟩ := h.roles i t ht
    obtain ⟨l, S, he, -⟩ := raiseSurfaceTop_eq w i
    rw [he]
    exact setActivated_running (w := { w with surfaceList := l, surfaces := S }) hy hx hr true

/-- The functions about the keyboard look up no seat but those they are asked to. -/
theorem Able.aside (h : Able w) {w' : World} (ha : Aside (fun _ => False) w w')
    (he : Effects true true w w') : Able w' := h.after ha.toBase (fun _ hc => hc.elim) he

theorem Able.withSeat_running (h : Able w) {o : BoundedObject} (ho : w.alive o)
    {k : World → ClientSeat → World}
    (hk : ∀ ls x, w.seatOf o = some x → (k { w with lookups := ls } x).stopped = false) :
    (w.withSeatOf o k).stopped = false ↔ w.Met o := by
  rw [← h.seatOf_iff ho]
  constructor
  · exact withSeatOf_seat
  · rintro ⟨x, hx⟩
    obtain ⟨ls, he⟩ := withSeatOf_found hx k
    rw [he]
    exact hk ls x hx

theorem Able.tryLeaveKeyboard_running (h : Able w) (hr : w.stopped = false) :
    w.tryLeaveKeyboard.stopped = false ↔
      ∀ i, w.surfaces.lock w.seat.keyboardFocusedSurface = some i → w.Met (.surface i) := by
  unfold tryLeaveKeyboard
  split
  · next hn => simp [hn, hr]
  · next i hi =>
    have ha : w.alive (.surface i) := (Arena.lock_eq_some.mp hi).2
    have hb := onUnfocus_aside (S := fun _ => False) w i
    have h1 : Able (w.onUnfocus i) := h.aside hb (onUnfocus_effects w i)
    have hr1 := h.onUnfocus_running hr i
    have ha1 : (w.onUnfocus i).alive (.surface i) := by rw [hb.alive]; exact ha
    have hm := h.met_after hb.toBase (fun _ hc => hc.elim) ha
    rw [andThen_running_iff, andThen_running_iff, h1.withSeat_running ha1 fun _ _ _ => hr1, hm]
    constructor
    · rintro ⟨-, h2, -⟩ j hj
      rw [hi] at hj
      cases hj
      exact h2
    · intro h2
      refine ⟨hr1, h2 i hi, ?_⟩
      exact (h1.withSeat_running ha1 fun _ _ _ => hr1).mpr (hm.mpr (h2 i hi))

theorem Able.enterKeyboard_running (h : Able w) (hr : w.stopped = false)
    (ha : w.alive (.surface i)) : (w.enterKeyboard i).stopped = false ↔ w.Met (.surface i) := by
  refine h.withSeat_running ha fun ls x hx => ?_
  refine (sendSelections_makes (w := World.emit { w with lookups := ls } _) h.typed.fresh
    h.sendable (h.founded.enlists (.surface i) _ hx) hr).stopped.trans hr

/-- The keyboard leaves one surface and comes to another. -/
theorem Able.setKeyboard_running (h : Able w) (hr : w.stopped = false)
    (ha : w.alive (.surface i)) (hm : w.Met (.surface i)) :
    (w.setKeyboardFocusedSurface i).stopped = false ↔
      ∀ j, w.surfaces.lock w.seat.keyboardFocusedSurface = some j → w.Met (.surface j) := by
  unfold setKeyboardFocusedSurface
  split
  · next hi =>
    refine iff_of_true hr fun j hj => ?_
    rw [hi] at hj
    cases hj
    exact hm
  · rw [andThen_running_iff, h.tryLeaveKeyboard_running hr]
    refine ⟨fun hs => hs.1, fun hs => ⟨hs, ?_⟩⟩
    have hr1 := (h.tryLeaveKeyboard_running hr).mpr hs
    have hb1 : Aside w.HasSeat w w.tryLeaveKeyboard := tryLeaveKeyboard_aside fun j hj =>
      asks_of_issued (h.issued (Arena.lock_eq_some.mp hj).2) (hs j hj)
    have h1 : Able w.tryLeaveKeyboard :=
      h.after hb1.toBase (fun _ hc => hc) (tryLeaveKeyboard_effects (t := true) w)
    have ha1 : w.tryLeaveKeyboard.alive (.surface i) := by rw [hb1.alive]; exact ha
    have hm1 := (h.met_after hb1.toBase (fun _ hc => hc) ha).mpr hm
    have hr2 := h1.onFocus_running hr1 i
    have hb2 := onFocus_aside (S := fun _ => False) w.tryLeaveKeyboard i
    have h2 := h1.aside hb2 (onFocus_effects _ i)
    have ha2 : (w.tryLeaveKeyboard.onFocus i).alive (.surface i) := by rw [hb2.alive]; exact ha1
    have hm2 := (h1.met_after hb2.toBase (fun _ hc => hc.elim) ha1).mpr hm1
    have hr3 := (h2.enterKeyboard_running hr2 ha2).mpr hm2
    rw [andThen_running_iff, andThen_running_iff]
    exact ⟨hr2, hr3, hr3⟩

/-- A press on a surface takes the keyboard from whoever has it. -/
theorem Able.pressed_running (h : Able w) (hr : w.stopped = false) {o : BoundedObject}
    (ha : w.alive o) (hm : w.Met o) (isPressed : Bool) :
    (w.pressed o isPressed).stopped = false ↔
      (isPressed = true → (∀ b, o ≠ .app b) →
        ∀ j, w.surfaces.lock w.seat.keyboardFocusedSurface = some j → w.Met (.surface j)) := by
  cases o with
  | app b => exact iff_of_true hr fun _ hn => absurd rfl (hn b)
  | surface i =>
    cases isPressed with
    | false => exact iff_of_true hr fun h => by cases h
    | true =>
      simp only [pressed, h.sorted.getSurfaceFromResource ha, Option.isSome_some, Bool.and_self,
        if_true, h.setKeyboard_running hr ha hm]
      exact ⟨fun hs _ _ => hs, fun hs => hs trivial fun _ h => by cases h⟩

end Keyboard

/-- A button on an object, and the frame that comes after it. -/
theorem Able.button_running {w : World} (h : Able w) (hr : w.stopped = false) {o : BoundedObject}
    (ha : w.alive o) (b : UInt32) (isPressed : Bool) :
    ((w.button o b isPressed).andThen fun w => w.point o .frame).stopped = false ↔
      w.Met o ∧ (isPressed = true → (∀ b, o ≠ .app b) →
        ∀ j, w.surfaces.lock w.seat.keyboardFocusedSurface = some j → w.Met (.surface j)) := by
  have hp := h.point_running hr ha (.button b isPressed)
  -- the keyboard is what it was before the call
  have hk (hm : w.Met o) : ((w.point o (.button b isPressed)).pressed o isPressed).stopped = false ↔
      (isPressed = true → (∀ b, o ≠ .app b) →
        ∀ j, w.surfaces.lock w.seat.keyboardFocusedSurface = some j → w.Met (.surface j)) := by
    have hc := (point_looks w o (.button b isPressed)).lockSurface
      w.seat.keyboardFocusedSurface
    have ha1 : (w.point o (.button b isPressed)).alive o := by rw [point_alive]; exact ha
    rw [(h.point hm _).pressed_running (hp.mpr hm) ha1 ((h.point_met hm _ ha).mpr hm),
      point_keyboard, hc]
    refine forall_congr' fun _ => forall_congr' fun _ => forall_congr' fun j =>
      forall_congr' fun hj => ?_
    exact h.point_met hm _ (p := .surface j) (Arena.lock_eq_some.mp hj).2
  rw [andThen_running_iff, button, andThen_running_iff, hp]
  constructor
  · rintro ⟨⟨hm, h1⟩, -⟩
    exact ⟨hm, (hk hm).mp h1⟩
  · rintro ⟨hm, h1⟩
    have hr1 : (w.button o b isPressed).stopped = false := by
      rw [button, andThen_running_iff]
      exact ⟨hp.mpr hm, (hk hm).mpr h1⟩
    have hb : Base w.HasSeat w (w.button o b isPressed) :=
      button_base (asks_of_issued (h.issued ha) hm) fun i hi hpr j hj =>
        asks_of_issued (h.issued (o := .surface j) (Arena.lock_eq_some.mp hj).2)
          (h1 hpr (fun b hb => by rw [hi] at hb; cases hb) j hj)
    have h2 : Able (w.button o b isPressed) := h.after hb (fun _ hc => hc)
      ((point_effects (t := true) w o _).andThen (pressed_effects _ o isPressed))
    have ha2 : (w.button o b isPressed).alive o := by rw [hb.alive]; exact ha
    exact ⟨⟨hm, (hk hm).mpr h1⟩, (h2.point_running hr1 ha2 .frame).mpr
      ((h.met_after hb (fun _ hc => hc) ha).mpr hm)⟩

section Asked
variable {w : World}

theorem met_iff_clientAt {p : Option BoundedObject} :
    (∀ o, w.lock p = some o → w.Met o) ↔ ∀ c, w.ClientAt p c → w.HasSeat c :=
  ⟨fun h c ⟨o, ho, hc⟩ => h o ho c hc, fun h o ho c hc => h c ⟨o, ho, hc⟩⟩

theorem met_iff_clientHit {hits : Hits} :
    (∀ o d, w.nearest hits = some (o, d) → w.Met o) ↔
      ∀ c, w.ClientHit hits c → w.HasSeat c :=
  ⟨fun h c ⟨o, d, ho, hc⟩ => h o d ho c hc, fun h o d ho c hc => h c ⟨o, d, ho, hc⟩⟩

theorem met_iff_keyboard :
    (∀ i, w.surfaces.lock w.seat.keyboardFocusedSurface = some i → w.Met (.surface i)) ↔
      ∀ c, w.ClientAt (w.seat.keyboardFocusedSurface.map .surface) c → w.HasSeat c := by
  rw [← met_iff_clientAt]
  constructor
  · intro h o ho
    obtain ⟨hp, ha⟩ := lock_eq_some.mp ho
    obtain ⟨i, hi, rfl⟩ := Option.map_eq_some_iff.mp hp
    exact h i (Arena.lock_eq_some.mpr ⟨hi, ha⟩)
  · intro h i hi
    obtain ⟨hk, ha⟩ := Arena.lock_eq_some.mp hi
    exact h (.surface i) (lock_eq_some.mpr ⟨by rw [hk]; rfl, ha⟩)

end Asked

theorem moveCursor_stopped (w : World) : w.moveCursor.stopped = w.stopped := by
  unfold moveCursor
  split <;> rfl

section Entries
variable {w : World} (h : Able w) (hr : w.stopped = false)
include h hr

theorem Able.handleMouseWheel_running (amount : ℚ) :
    (w.handleMouseWheel amount).stopped = false ↔
      ∀ o, w.lock w.seat.focusedObj = some o → w.Met o := by
  unfold handleMouseWheel
  split
  · next hn => simp [hn, hr]
  · next o ho =>
    rw [h.framed_running hr (lock_eq_some.mp ho).2]
    simp [ho]

/-- The start of a move leaves the object, if it is one of the client. -/
theorem Able.requestStartMove_running (client : ℕ) :
    (w.requestStartMove client).stopped = false ↔
      (w.ClientAt w.seat.focusedObj client → w.HasSeat client) := by
  unfold requestStartMove
  split
  · next hn =>
    refine iff_of_true hr ?_
    rintro ⟨o, ho, -⟩
    simp [hn] at ho
  · next o ho =>
    split
    · next hc =>
      have hl := h.leave_running hr (lock_eq_some.mp ho).2
      rw [andThen_running_iff]
      refine ⟨fun hs _ => hl.mp hs.1 client hc, fun hs => ?_⟩
      have hm : w.Met o := fun c hc' => by
        obtain rfl : client = c := Option.some.inj (hc.symm.trans hc')
        exact hs ⟨o, ho, hc⟩
      exact ⟨hl.mpr hm, hl.mpr hm⟩
    · next hc =>
      refine iff_of_true hr ?_
      rintro ⟨p, hp, hpc⟩
      refine absurd ?_ hc
      rw [ho] at hp
      cases hp
      exact hpc

/-- `check_intersection` calls who is under the pointer, and who was. -/
theorem Able.checkIntersection_running (hits : Hits) :
    (w.checkIntersection hits).stopped = false ↔
      (∀ o, w.lock w.seat.focusedObj = some o → w.Met o) ∧
        ∀ o d, w.nearest hits = some (o, d) → w.Met o := by
  have ht := nearest_target w hits
  have near {o : BoundedObject} (ho : (w.nearest hits).map Prod.fst = some o) :
      ∃ d, w.nearest hits = some (o, d) := by
    obtain ⟨⟨p, d⟩, hp, rfl⟩ := Option.map_eq_some_iff.mp ho
    exact ⟨d, hp⟩
  rw [checkIntersection_callable_iff h.founded hr hits ht]
  constructor
  · intro hc
    have hit (o : BoundedObject) (d : ℚ) (ho : w.nearest hits = some (o, d)) : w.Met o :=
      (h.takes_iff (nearest_alive ho) .motion).mp (hc.moved o (by rw [ho]; rfl))
    refine ⟨fun o ho => ?_, hit⟩
    by_cases he : (w.nearest hits).map Prod.fst = some o
    · obtain ⟨d, hd⟩ := near he
      exact hit o d hd
    · exact (h.takes_iff (lock_eq_some.mp ho).2 .leave).mp (hc.left o ho he)
  · rintro ⟨hl, hh⟩
    refine ⟨fun o ho _ => (h.takes_iff (lock_eq_some.mp ho).2 .leave).mpr (hl o ho),
      fun o ho _ => ?_, fun o ho => ?_⟩
    · obtain ⟨d, hd⟩ := near ho
      have ha := nearest_alive hd
      refine ⟨fun b _ => ?_, (h.takes_iff ha .enter).mpr (hh o d hd)⟩
      obtain ⟨x, hx⟩ := (h.seatOf_iff ha).mpr (hh o d hd)
      exact ⟨x, hx, .inr h.sendable⟩
    · obtain ⟨d, hd⟩ := near ho
      exact (h.takes_iff (nearest_alive hd) .motion).mpr (hh o d hd)

theorem Able.handleMouseButton_running (b : UInt32) (isPressed : Bool) (hits : Hits) :
    (w.handleMouseButton b isPressed hits).stopped = false ↔
      ∀ c, w.Asked (.mouseButton b isPressed hits) c → w.HasSeat c := by
  unfold handleMouseButton
  by_cases hm : w.seat.objState = .moving ∧ isPressed = false
  · simp only [if_pos hm, Asked]
    have h1 : Able { w with seat.objState := .default, seat.focusedObj := none } :=
      h.same (base_of_eq rfl rfl rfl) (.seat rfl)
    rw [h1.checkIntersection_running hr, ← met_iff_clientHit]
    exact ⟨fun hs => hs.2, fun hs => ⟨fun o ho => (by cases ho), hs⟩⟩
  · have hk : (∀ c, w.Asked (.mouseButton b isPressed hits) c → w.HasSeat c) ↔
        (∀ o, w.lock w.seat.focusedObj = some o → w.Met o) ∧
          (isPressed = true → (∀ b, w.lock w.seat.focusedObj ≠ some (.app b)) →
            ∀ j, w.surfaces.lock w.seat.keyboardFocusedSurface = some j → w.Met (.surface j)) := by
      simp only [Asked, if_neg hm, or_imp, forall_and, met_iff_clientAt, met_iff_keyboard, and_imp]
      exact and_congr_right' ⟨fun hs hp hn c => hs c hp hn, fun hs c hp hn => hs hp hn c⟩
    rw [if_neg hm, hk]
    split
    · next o ho =>
      have ha := (lock_eq_some.mp ho).2
      rw [h.button_running hr ha]
      simp [ho]
    · next hn =>
      cases isPressed with
      | false => exact iff_of_true hr ⟨by simp [hn], fun h => by cases h⟩
      | true =>
        simp only [if_true, h.tryLeaveKeyboard_running hr]
        exact ⟨fun hs => ⟨by simp [hn], fun _ _ => hs⟩, fun hs => hs.2 trivial (by simp [hn])⟩

/-- A motion, or a drag that the scene survives. -/
theorem Able.moveRelPointing_running {polar azimuthal : ℚ} {hits : Hits}
    (hs : ∀ b, w.sceneAction (.mouseMove polar azimuthal hits) = some b →
      (w.scene.step b).fault = none) :
    (w.moveRelPointing polar azimuthal hits).stopped = false ↔
      ∀ c, w.Asked (.mouseMove polar azimuthal hits) c → w.HasSeat c := by
  cases hd : w.seat.objState with
  | default =>
    have h1 : Able (w.moveRay polar azimuthal) := h.same (base_of_eq rfl rfl rfl) (.ray rfl)
    have h2 := h1.checkIntersection_running hr hits
    rw [met_iff_clientAt, met_iff_clientHit] at h2
    simp only [moveRelPointing, hd, Asked, andThen_running_iff, moveCursor_stopped, and_self, h2,
      true_and, or_imp, forall_and]
    rfl
  | moving =>
    simp only [moveRelPointing, hd, Asked, andThen_running_iff, moveCursor_stopped, and_self]
    refine iff_of_true ?_ fun c hc => by cases hc.1
    unfold dragFocused
    split
    · exact hr
    · next o ho =>
      cases o with
      | surface i => exact hr
      | app b =>
        have ho' : w.lock w.seat.focusedObj = some (.app b) := ho
        have hf := hs (.moveApp b (clampPolar (w.ray.polar + polar) - w.ray.polar) azimuthal)
          (by simp only [sceneAction, hd, ho'])
        simp only [stopped, Bool.or_eq_false_iff] at hr ⊢
        exact ⟨hr.1, by rw [moveObject]; exact (congrArg Option.isSome hf).trans rfl⟩

end Entries

theorem commitSurface_running {w : World} (hr : w.stopped = false) (hp : w.PendingLive) {i : ℕ}
    (hi : (w.surfaces i).isSome) : (w.commitSurface i).stopped = false := by
  obtain ⟨x, hx⟩ := Option.isSome_iff_exists.mp hi
  have h1 : (w.commitBuffer i x).stopped = false := by
    unfold commitBuffer
    split
    · exact hr
    · next b hb =>
      obtain ⟨y, hy⟩ := Option.isSome_iff_exists.mp (hp i x b hx hb)
      simp only [hy]
      exact hr
  simp only [commitSurface, hx]
  rw [andThen_running_iff]
  exact ⟨h1, h1⟩

theorem setSurfaceAsCursor_stopped (w : World) (surface : Option ℕ)
    (hotspot : ℤ × ℤ) : (w.setSurfaceAsCursor surface hotspot).stopped = w.stopped := by
  have take (w : World) : (w.takeCursor surface).stopped = w.stopped := by
    unfold takeCursor
    split
    · rfl
    · exact moveCursor_stopped _
  unfold setSurfaceAsCursor
  split
  · exact take _
  · split
    · rfl
    · exact take _

/-- The requests that may look up a seat. -/
def DeskRequest.asks : DeskRequest → Bool
  | .moveToplevel _ => true
  | r => r.joins

theorem asked_desk {w : World} {client c : ℕ} {r : DeskRequest} (h : w.Asked (.desk client r) c) :
    w.admits client r ∧ r.asks := by
  cases r with
  | moveToplevel t => exact ⟨h.1, rfl⟩
  | _ => exact ⟨h.1, h.2.1⟩

section Requests
variable {w : World} (h : Able w)
include h

/-- A resource joins the seat of its client, if the client has one. -/
theorem Able.joinSeat_found {u : World} (hs : u.seat.clientSeats = w.seat.clientSeats)
    (hc : u.clientSeats = w.clientSeats) {client : ℕ} (hm : w.HasSeat client)
    (f : ClientSeat → ClientSeat) :
    ∃ ls cs, u.joinSeat client f = { u with lookups := ls, clientSeats := cs } := by
  obtain ⟨x, hx⟩ := (h.entry_iff client).mpr hm
  obtain ⟨i, hi, hx⟩ := Option.bind_eq_some_iff.mp hx
  simp only [joinSeat, withClientSeat, hs, hc, hi, hx]
  exact ⟨_, _, rfl⟩

theorem Able.hasSeat_of_joinSeat {u : World} (hs : u.seat.clientSeats = w.seat.clientSeats)
    (hc : u.clientSeats = w.clientSeats) {client : ℕ} {f : ClientSeat → ClientSeat}
    (hr : (u.joinSeat client f).stopped = false) : w.HasSeat client := by
  rw [← h.entry_iff]
  simp only [joinSeat, withClientSeat, hs, hc] at hr
  split at hr
  · simp only [crash_stopped] at hr
    cases hr
  · next i hi =>
    split at hr
    · simp only [crash_stopped] at hr
      cases hr
    · next x hx => exact ⟨x, by rw [hi]; exact hx⟩

variable (hr : w.stopped = false)
include hr

theorem Able.newMember_running (client : ℕ) (interface : DeskInterface)
    (f : ClientSeat → ClientSeat) :
    ((w.newResource client interface).joinSeat client f).stopped = false ↔ w.HasSeat client := by
  refine ⟨h.hasSeat_of_joinSeat (u := w.newResource client interface) rfl rfl, fun hm => ?_⟩
  obtain ⟨ls, cs, he⟩ := h.joinSeat_found (u := w.newResource client interface) rfl rfl hm f
  rw [he]
  exact hr

/-- A new data device is sent a selection that is alive. -/
theorem Able.createDataDevice_running (client : ℕ) :
    (w.createDataDevice client).stopped = false ↔ w.HasSeat client := by
  have hsel : (w.direct client .getDataDevice).SelectionLive :=
    h.selection.mono rfl (fun d x hd => by
      refine (Arena.set_of_ne _ _ ?_).trans hd
      exact Nat.ne_of_lt (h.typed.lt (k := .dataDevice) (by simp [holds, hd])))
      (fun s hs => hs) fun o x ho => ho
  have he : w.createDataDevice client = (w.joinDevice client).andThen fun u =>
      if u.isFocusedClient client then u.sendSelection w.nextId else u := rfl
  rw [he, andThen_running_iff]
  refine ⟨fun hs => h.hasSeat_of_joinSeat (u := w.direct client .getDataDevice) rfl rfl hs.1,
    fun hm => ?_⟩
  obtain ⟨ls, cs, hj⟩ := h.joinSeat_found (u := w.direct client .getDataDevice) rfl rfl hm
    fun x => { x with dataDevices := w.nextId :: x.dataDevices }
  have hj : w.joinDevice client = _ := hj
  have hr1 : (w.joinDevice client).stopped = false := (congrArg stopped hj).trans hr
  have hs : (w.joinDevice client).Sendable := by rw [hj]; exact hsel.device
  have hd : ((w.joinDevice client).resources w.nextId).isSome := by
    rw [hj]
    simp [direct, newResource]
  refine ⟨hr1, ?_⟩
  split
  · exact (sendSelection_makes hs hd).stopped.trans hr1
  · exact hr1

theorem Able.askSource_running {o client : ℕ} (ho : w.resources o = some ⟨client, .dataOffer⟩)
    (e : ℕ → DeskEvent) : (w.askSource o e).stopped = false := by
  obtain ⟨x, hx⟩ := Option.isSome_iff_exists.mp
    (show (w.dataOffers o).isSome from h.typed.object o client .dataOffer ho rfl)
  simp only [askSource, hx, h.selection.offer o x hx, if_true]
  exact hr

/-- The handler of a request that names what the client has stops the program only for want of a
seat, or for a null source. -/
theorem Able.handle_running (hp : w.PendingLive) {client : ℕ} {r : DeskRequest}
    (ha : w.admits client r) (hn : ∀ d, r ≠ .setSelection d none) :
    (w.handle client r).stopped = false ↔ ∀ c, w.Asked (.desk client r) c → w.HasSeat c := by
  have joined (hk : ∀ c, w.Asked (.desk client r) c ↔ w.admits client r ∧ r.joins ∧ c = client)
      (hj : r.joins) : (∀ c, w.Asked (.desk client r) c → w.HasSeat c) ↔ w.HasSeat client := by
    simp only [hk, ha, hj, true_and, forall_eq]
  have alone (hj : r.asks = false) (hs : (w.handle client r).stopped = false) :
      (w.handle client r).stopped = false ↔ ∀ c, w.Asked (.desk client r) c → w.HasSeat c := by
    refine iff_of_true hs fun c hc => ?_
    rw [(asked_desk hc).2] at hj
    cases hj
  cases r with
  | moveToplevel t =>
    have h1 := h.requestStartMove_running hr client
    simp only [handle, h1, Asked, ha, true_and, and_imp]
    exact ⟨fun hs c hc hat => hc ▸ hs (hc ▸ hat), fun hs hat => hs client rfl hat⟩
  | getPointer | getKeyboard | getRay =>
    rw [joined (fun _ => Iff.rfl) rfl]
    exact h.newMember_running hr client _ _
  | getDataDevice =>
    rw [joined (fun _ => Iff.rfl) rfl]
    exact h.createDataDevice_running hr client
  | createSurface texSize =>
    obtain ⟨l, S, he, -⟩ := createSurface_eq w client texSize
    exact alone rfl (by rw [handle, he]; exact hr)
  | commit i =>
    have hi := h.typed.object i client .surface
      (admits_object ha (by simp [DeskRequest.objects])) rfl
    exact alone rfl (commitSurface_running hr hp hi)
  | getToplevel j =>
    obtain ⟨y, hy⟩ := Option.isSome_iff_exists.mp (show (w.xdgSurfaces j).isSome from
      h.typed.object j client .xdgSurface (admits_object ha (by simp [DeskRequest.objects])) rfl)
    exact alone rfl (by simp only [handle, createToplevel, hy]; exact hr)
  | setCursor p i hotspot =>
    exact alone rfl (by rw [handle, setSurfaceAsCursor_stopped]; exact hr)
  | setSelection d s =>
    cases s with
    | none => exact absurd rfl (hn d)
    | some s => exact alone rfl hr
  | accept o mimeType | receive o mimeType =>
    exact alone rfl (h.askSource_running hr
      (admits_object ha (by simp [DeskRequest.objects])) _)
  | _ => exact alone rfl hr

end Requests

/-- The program runs, and no pointer that the code follows without a check dangles: in the scene;
from surfaces to the buffers that are pending on them, and to the objects of their roles; from the
selection and the offers to their sources; from clients to their seats. -/
structure Upright (w : World) : Prop where
  running : w.stopped = false
  scene : w.scene.Upright
  pending : w.PendingLive
  roles : w.RolesLive
  selection : w.SelectionLive
  seats : Seated w

/-- What clients keep: the rules of the scene; no buffer goes while it is in use, and no role
object, source or data device while something refers to it; no selection is set to null; and who
has an object has exactly one seat whenever the program looks it up. -/
structure Minds (w : World) (a : Action) : Prop where
  scene : ∀ b, w.sceneAction a = some b → w.scene.Minds b
  buffers : KeepsLive w a
  roles : KeepsRoles w a
  selection : w.KeepsSelection a
  seats : KeepsSeats w a

/-- An upright state, with what holds of every state. -/
structure Fit (w : World) : Prop where
  fault : w.fault = none
  scene : w.scene.Fit
  sane : Sane w
  typed : w.Typed
  devices : w.DevicesLive
  sorted : w.Sorted fun _ => True
  seating : Seating w
  pending : w.PendingLive
  roles : w.RolesLive
  selection : w.SelectionLive

section Fit
variable {w : World}

theorem running_iff : w.stopped = false ↔ w.fault = none ∧ w.scene.fault = none := by
  simp [stopped]

theorem Fit.running (h : Fit w) : w.stopped = false := running_iff.mpr ⟨h.fault, h.scene.running⟩

theorem Fit.able (h : Fit w) : Able w where
  typed := h.typed
  devices := h.devices
  sorted := h.sorted
  seating := h.seating
  selection := h.selection
  roles := h.roles
  deeds := h.scene.deeds
  linked := h.scene.upright.apps

theorem Fit.upright (h : Fit w) : Upright w where
  running := h.running
  scene := h.scene.upright
  pending := h.pending
  roles := h.roles
  selection := h.selection
  seats := h.seating.seated

/-- The part of the program outside of the scene. -/
theorem running_of_scene {a : Action} (hf : (w.act a).fault = none)
    (hr : w.stopped = false)
    (hs : ∀ b, w.sceneAction a = some b → (w.scene.step b).fault = none) :
    (w.act a).stopped = false := by
  refine running_iff.mpr ⟨hf, ?_⟩
  rw [act_scene]
  cases hb : w.sceneAction a with
  | none => exact (running_iff.mp hr).2
  | some b => exact hs b hb

theorem destroyResource_fault (w : World) (i : ℕ) : (w.destroyResource i).fault = w.fault := by
  unfold destroyResource
  split
  · rfl
  · next r _ => cases hi : r.interface <;> rfl

/-- A step that the scene survives and that sets no null selection goes through exactly when the
clients whose seats it looks up have one. -/
theorem Fit.act_running (h : Fit w) {a : Action}
    (hs : ∀ b, w.sceneAction a = some b → (w.scene.step b).fault = none)
    (hn : w.KeepsSelection a) :
    (w.act a).stopped = false ↔ ∀ c, w.Asked a c → w.HasSeat c := by
  have hr := h.running
  cases a with
  | zwin client r =>
    refine iff_of_true (running_of_scene ?_ hr hs) fun _ hc => hc.elim
    simp only [act, addBoundedApp]
    split <;> exact h.fault
  | destroyZwin client r => exact iff_of_true (running_of_scene h.fault hr hs) fun _ hc => hc.elim
  | desk client r =>
    by_cases ha : w.admits client r = true
    · simp only [act, if_pos ha]
      refine h.able.handle_running hr h.pending ha ?_
      rintro d rfl
      simp [hn hr] at ha
    · simp only [act, if_neg ha]
      exact iff_of_true hr fun c hc => absurd (asked_desk hc).1 ha
  | destroy client i =>
    refine iff_of_true (running_of_scene ?_ hr hs) fun _ hc => hc.elim
    simp only [act]
    split
    · exact (destroyResource_fault w i).trans h.fault
    · exact h.fault
  | moveBounded client b =>
    simp only [act, Asked]
    split
    · next hb =>
      simp only [Bool.and_eq_true, Bool.not_eq_true', decide_eq_true_eq] at hb
      simp only [h.able.requestStartMove_running hr, hb, true_and, and_imp]
      exact ⟨fun hs c hc hat => hc ▸ hs (hc ▸ hat), fun hs hat => hs client rfl hat⟩
    · next hb =>
      exact iff_of_true hr fun c hc => absurd (by simp [hc.1, hc.2.1]) hb
  | peerDiscover connected =>
    refine iff_of_true (running_of_scene ?_ hr hs) fun _ hc => hc.elim
    simp only [act, peerDiscover]
    split <;> exact h.fault
  | sessionDisconnect =>
    refine iff_of_true (running_of_scene ?_ hr hs) fun _ hc => hc.elim
    simp only [act, sessionDisconnect]
    split <;> exact h.fault
  | frameTimer busyness =>
    refine iff_of_true (running_of_scene ?_ hr hs) fun _ hc => hc.elim
    simp only [act, frameTimer]
    split <;> exact h.fault
  | mouseMove polar azimuthal hits => exact h.able.moveRelPointing_running hr hs
  | mouseButton b isPressed hits => exact h.able.handleMouseButton_running hr b isPressed hits
  | mouseWheel amount =>
    exact (h.able.handleMouseWheel_running hr amount).trans met_iff_clientAt

/-- The scene after the step. -/
theorem Fit.act_scene_fit (h : Fit w) {a : Action} (ha : Minds w a) : (w.act a).scene.Fit := by
  rw [act_scene]
  cases hb : w.sceneAction a with
  | none => exact h.scene
  | some b => exact h.scene.next (ha.scene b hb)

/-- A step that minds the rules leaves the program as fit as it was. -/
theorem Fit.next (h : Fit w) {a : Action} (ha : Minds w a) : Fit (w.step a) := by
  have hr := h.running
  have he : w.step a = w.act a := step_of_running hr a
  have hrun : (w.act a).stopped = false :=
    (h.act_running (fun b hb => (h.scene.next (ha.scene b hb)).running) ha.selection).mpr
      (ha.seats hr).2
  obtain ⟨hsane, hseat⟩ := step_seating w a ⟨h.sane, h.seating⟩ ha.seats
  exact {
    fault := (running_iff.mp (he ▸ hrun)).1
    scene := he ▸ h.act_scene_fit ha
    sane := hsane
    typed := step_typed h.typed a
    devices := he ▸ act_live h.devices a
    sorted := step_sorted h.sorted (fun _ _ _ _ => trivial) a
    seating := hseat
    pending := step_pendingLive h.typed h.pending ha.buffers
    roles := (step_roles_iff h.typed h.roles a).mpr ha.roles
    selection := ((selects_iff h.typed h.selection a).mpr ha.selection).1 }

theorem init_fit : Fit init where
  fault := rfl
  scene := Scene.init_fit
  sane := init_sane
  typed := init_typed
  devices := fun _ _ h => by cases h
  sorted := (run_sorted []).mono fun _ _ => trivial
  seating := init_seating
  pending := fun i x b hx => by cases hx
  roles := init_roles
  selection := init_selection

end Fit

end World
end Yaza
