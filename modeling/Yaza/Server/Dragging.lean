import Yaza.Server.Visits

/-! The calls on the bounded objects are visits of the pointer exactly as long as nothing is asked
of an object that is being dragged. -/
namespace Yaza
namespace World

/-- The object the pointer is in. -/
def inFocus (w : World) : Option BoundedObject :=
  if w.seat.objState = .default then w.lock w.seat.focusedObj else none

/-- The object that is being dragged. -/
def dragged (w : World) : Option BoundedObject :=
  if w.seat.objState = .moving then w.lock w.seat.focusedObj else none

theorem inFocus_eq_some {w : World} {o : BoundedObject} : w.inFocus = some o ↔
    w.seat.objState = .default ∧ w.seat.focusedObj = some o ∧ w.alive o := by
  unfold inFocus
  split
  · next h => simp [lock_eq_some, h]
  · next h => simp [h]

structure Good (w : World) : Prop where
  sane : Sane w
  holds : ∃ f, Holds w f
  running : w.stopped = false →
    Holds w w.inFocus ∧ ∀ o, w.seat.focusedObj = some o → w.issued o

theorem Focuses.good {w : World} {f : Option BoundedObject} (h : Focuses w f) (hs : Sane w)
    (hf : ∀ o, f = some o → w.alive o) : Good w where
  sane := hs
  holds := h.holds
  running := fun hr => by
    obtain ⟨h1, h2, h3⟩ := h.running hr
    have hi : w.inFocus = f := by
      rw [inFocus, if_pos h3, h2]
      cases f with
      | none => rfl
      | some o => exact lock_eq_some.mpr ⟨rfl, hf o rfl⟩
    refine ⟨hi ▸ h1, fun o ho => hs.issued (hf o ?_)⟩
    rw [← h2, ho]

/-- A step that makes no calls and does not turn the pointer to another object. -/
structure Unpointed (w w' : World) : Prop where
  calls : w'.calls = w.calls
  objState : w'.seat.objState = w.seat.objState
  focusedObj : w'.seat.focusedObj = w.seat.focusedObj
  nextId : w.nextId ≤ w'.nextId
  surfaces : ∀ i, (w'.surfaces i).isSome → (w.surfaces i).isSome ∨ w.nextId ≤ i
  scene : w'.scene = w.scene ∨ ∃ a, w'.scene = w.scene.step a

section Unpointed
variable {w w' : World} (hu : Unpointed w w')
include hu

theorem Unpointed.alive (hs : Sane w) {o : BoundedObject} (ho : w'.alive o) :
    w.alive o ∨ ¬w.issued o := by
  cases o with
  | surface i =>
    rcases hu.surfaces i ho with h | h
    · exact .inl h
    · exact .inr (Nat.not_lt.mpr h)
  | app i =>
    rcases hu.scene with h | ⟨a, h⟩
    · exact .inl (by simpa [World.alive, h] using ho)
    · simp only [World.alive, h] at ho
      rcases Scene.step_apps hs.tree a ho with h1 | h1
      · exact .inl h1
      · exact .inr (by simp [World.issued, h1])

theorem Unpointed.issued (hs : Sane w) {o : BoundedObject} (ho : w.issued o) : w'.issued o := by
  cases o with
  | surface i => exact ho.trans_le hu.nextId
  | app i =>
    rcases hu.scene with h | ⟨a, h⟩
    · simpa [World.issued, h] using ho
    · exact (show i < w.scene.nextId from ho).trans_le
        (by rw [h]; exact Scene.nextId_le_step hs.tree a)

theorem Unpointed.current (hs : Sane w) {o : BoundedObject} (ho : w'.Current o) :
    w.Current o := by
  rcases ho with ho | ho
  · exact hu.alive hs ho
  · exact .inr fun hi => ho (hu.issued hs hi)

theorem Unpointed.marks (o : BoundedObject) : w'.marks o = w.marks o := by
  rw [World.marks, hu.calls, World.marks]

/-- The pointer stays where it is, or its object is gone. -/
theorem Good.unpointed (h : Good w) (hr : w.stopped = false) (hs' : Sane w') : Good w' := by
  obtain ⟨h1, h2⟩ := h.running hr
  have focus {o : BoundedObject} (ho : w'.Current o) :
      decide (w.inFocus = some o) = decide (w'.inFocus = some o) := by
    simp only [inFocus_eq_some, hu.objState, hu.focusedObj, decide_eq_decide]
    refine and_congr_right fun _ => and_congr_right fun hf => ?_
    have hi := h2 o hf
    constructor
    · intro _
      exact ho.resolve_right fun hn => hn (hu.issued h.sane hi)
    · intro ha
      exact (hu.alive h.sane ha).resolve_right fun hn => hn hi
  have hold : Holds w' w'.inFocus := by
    constructor
    · intro o
      rw [hu.marks]
      exact h1.unbroken o
    · intro o ho
      rw [hu.marks, h1.state o (hu.current h.sane ho), focus ho]
  refine ⟨hs', ⟨_, hold⟩, fun _ => ⟨hold, fun o ho => hu.issued h.sane (h2 o ?_)⟩⟩
  rw [← hu.focusedObj, ho]

end Unpointed

theorem Keyed.unpointed {w w' : World} {K : Arena ((List ℕ × List ℕ) × Option ℕ)}
    (h : Keyed K w w') (hK : ∀ i, (K i).isSome → (w.keys i).isSome ∨ w.nextId ≤ i) :
    Unpointed w w' where
  calls := h.calls
  objState := h.objState
  focusedObj := h.focusedObj
  nextId := h.nextId
  surfaces := fun i hi => by simpa [World.keys] using hK i (h.isSome i ▸ hi)
  scene := .inl h.scene

theorem Idle.unpointed {w w' : World} (h : Idle w w') : Unpointed w w' :=
  Keyed.unpointed h fun _ => .inl

/-- A step of the scene, and of the surfaces that are there. -/
theorem unpointed_of_scene {w w' : World} (a : Scene.Action) (hs : w'.scene = w.scene.step a)
    (hk : ∀ i, (w'.surfaces i).isSome = (w.surfaces i).isSome)
    (hc : w'.calls = w.calls) (ho : w'.seat = w.seat) (hn : w'.nextId = w.nextId) :
    Unpointed w w' where
  calls := hc
  objState := by rw [ho]
  focusedObj := by rw [ho]
  nextId := hn.ge
  surfaces := fun i hi => .inl (hk i ▸ hi)
  scene := .inr ⟨a, hs⟩

section Good
variable {w : World} (h : Good w) (hr : w.stopped = false)
include h hr

theorem Good.holds_lock (hd : w.seat.objState = .default) :
    Holds w (w.lock w.seat.focusedObj) := by
  have h1 := (h.running hr).1
  rwa [inFocus, if_pos hd] at h1

theorem Good.moveDefault (hd : w.seat.objState = .default) (polar azimuthal : ℚ) (hits : Hits) :
    Good (w.moveRelPointing polar azimuthal hits) := by
  have hs : Sane (w.moveRelPointing polar azimuthal hits) := h.sane.moveRelPointing ..
  have c1 : Calm w (w.moveRay polar azimuthal) :=
    Base.toCalm (S := fun _ => True) (base_of_eq rfl rfl rfl)
  have h1 : Holds (w.moveRay polar azimuthal)
      ((w.moveRay polar azimuthal).lock (w.moveRay polar azimuthal).seat.focusedObj) := by
    rw [c1.lock]
    exact (h.holds_lock hr hd).calm c1 rfl
  obtain ⟨f, hf, h2⟩ := checkIntersection_focuses (w := w.moveRay polar azimuthal) hd h1 hits
  have a3 := moveCursor_aside (S := fun _ => True)
    ((w.moveRay polar azimuthal).checkIntersection hits)
  have h3 : Focuses (w.moveRelPointing polar azimuthal hits) f := by
    simp only [World.moveRelPointing, hd]
    exact h2.andThen fun k1 k2 k3 =>
      .of_holds (k1.calm a3.toCalm a3.calls) (a3.focusedObj.trans k2) (a3.objState.trans k3)
  have c3 : Calm w (w.moveRelPointing polar azimuthal hits) :=
    moveDefault_calm polar azimuthal hits hd
  exact h3.good hs fun o ho => (c3.alive o).trans ((c1.alive o) ▸ hf o ho)

theorem Good.moveDragged (hm : w.seat.objState = .moving) (polar azimuthal : ℚ) (hits : Hits) :
    Good (w.moveRelPointing polar azimuthal hits) := by
  refine Good.unpointed (w := w) ?_ h hr (h.sane.moveRelPointing ..)
  simp only [World.moveRelPointing, hm]
  have h2 : Unpointed w ((w.moveRay polar azimuthal).dragFocused
      (clampPolar (w.ray.polar + polar) - w.ray.polar) azimuthal) := by
    unfold dragFocused
    split
    · exact Idle.unpointed (keyed_of_eq rfl rfl rfl)
    · next o _ =>
      cases o with
      | surface i =>
        exact Idle.unpointed (keyed_of_eq (Arena.mapAll_modify fun x => x.move_key _ _) rfl rfl)
      | app b => exact unpointed_of_scene _ rfl (fun _ => rfl) rfl rfl rfl
  unfold World.andThen
  split
  · exact h2
  · have a3 := moveCursor_aside (S := fun _ => True) ((w.moveRay polar azimuthal).dragFocused
      (clampPolar (w.ray.polar + polar) - w.ray.polar) azimuthal)
    refine ⟨a3.calls.trans h2.calls, a3.objState.trans h2.objState,
      a3.focusedObj.trans h2.focusedObj, h2.nextId.trans a3.nextId, fun i hi => ?_, ?_⟩
    · exact h2.surfaces i (Arena.isSome_of_mapAll a3.surfaces i ▸ hi)
    · rw [a3.scene]
      exact h2.scene

theorem Good.endMove (hm : w.seat.objState = .moving) (b : UInt32) (hits : Hits) :
    Good (w.handleMouseButton b false hits) := by
  have hs : Sane (w.handleMouseButton b false hits) := h.sane.handleMouseButton ..
  have c1 : Calm w { w with seat.objState := .default, seat.focusedObj := none } :=
    Base.toCalm (S := fun _ => True) (base_of_eq rfl rfl rfl)
  have h1 : Holds w none := by
    have h1 := (h.running hr).1
    rwa [inFocus, if_neg (by simp [hm])] at h1
  obtain ⟨f, hf, h2⟩ := checkIntersection_focuses
    (w := { w with seat.objState := .default, seat.focusedObj := none }) rfl (h1.calm c1 rfl) hits
  have c2 := (checkIntersection_base hits
    (w := { w with seat.objState := .default, seat.focusedObj := none })
    (S := fun _ => True) (fun o _ => asks_true _ o) fun o _ _ => asks_true _ o).toCalm
  rw [handleMouseButton, if_pos ⟨hm, rfl⟩] at hs ⊢
  exact h2.good hs fun o ho => (c2.alive o).trans (hf o ho)

/-- Calls inside the visit of the focused object. -/
theorem Good.inside {o : BoundedObject} (hd : w.seat.objState = .default)
    (ho : w.lock w.seat.focusedObj = some o) {c : ObjectCall} (hc : c.mark? = some .inside)
    {k : World → World} (hk : ∀ w, Aside (fun _ => True) w (k w)) :
    Good (((w.point o c).andThen k).andThen fun w => w.point o .frame) := by
  obtain ⟨hf, ha⟩ := lock_eq_some.mp ho
  have h1 := h.holds_lock hr hd
  rw [ho] at h1
  have f1 := point_follows w o c
  have a2 := hk (w.point o c)
  have h2 : Focuses ((w.point o c).andThen k) (some o) :=
    (Focuses.of_holds (h1.inside ha hc) (f1.focusedObj.trans hf) (f1.objState.trans hd)).andThen
      fun k1 k2 k3 =>
        .of_holds (k1.calm a2.toCalm a2.calls) (a2.focusedObj.trans k2) (a2.objState.trans k3)
  have f2 : Follows (w.point o c) ((w.point o c).andThen k) :=
    Follows.andThen ⟨.refl _, rfl, rfl⟩ ⟨a2.toCalm, a2.objState, a2.focusedObj⟩
  have f3 := point_follows ((w.point o c).andThen k) o .frame
  have h3 : Focuses (((w.point o c).andThen k).andThen fun w => w.point o .frame) (some o) :=
    h2.andThen fun k1 k2 k3 =>
      .of_holds (k1.frame o).point (f3.focusedObj.trans k2) (f3.objState.trans k3)
  have f4 : Follows w (((w.point o c).andThen k).andThen fun w => w.point o .frame) :=
    (f1.trans f2).andThen f3
  exact h3.good (h.sane.calm f4.calm) fun p hp => by
    cases hp
    exact (f4.calm.alive o).trans ha

theorem Good.startMove {client : ℕ}
    (hc : ∀ o, w.dragged = some o → w.clientOf o ≠ some client) :
    Good (w.requestStartMove client) := by
  have hs : Sane (w.requestStartMove client) :=
    h.sane.calm (w.requestStartMove_calm client)
  unfold requestStartMove at hs ⊢
  split
  · exact h
  · next o ho =>
    split
    · next hco =>
      simp only [ho, if_pos hco] at hs
      obtain ⟨hf, ha⟩ := lock_eq_some.mp ho
      have hd : w.seat.objState = .default := by
        cases hm : w.seat.objState with
        | default => rfl
        | moving => exact absurd hco (hc o (by rw [dragged, if_pos hm, ho]))
      have h1 := h.holds_lock hr hd
      rw [ho] at h1
      have h2 := h1.leave ha
      have f2 := leave_follows w o
      unfold World.andThen at hs ⊢
      split
      · next hst => exact ⟨by simpa [hst] using hs, ⟨_, h2⟩, fun hn => by simp [hst] at hn⟩
      · next hst =>
        rw [if_neg hst] at hs
        have h3 : Holds { w.leave o with seat.objState := .moving } none :=
          h2.calm (Base.toCalm (S := fun _ => True) (base_of_eq rfl rfl rfl)) rfl
        refine ⟨hs, ⟨_, h3⟩, fun _ => ⟨h3, fun p hp => hs.issued ?_⟩⟩
        have hpo : p = o := by
          have h4 : w.seat.focusedObj = some p := f2.focusedObj ▸ hp
          rw [hf] at h4
          exact (Option.some.inj h4).symm
        exact hpo ▸ (f2.calm.alive o).trans ha
    · exact h

end Good

/-- While a live object is dragged, no button is pressed, the wheel is not turned, and the client
of the object does not ask for another move. -/
def SparesDragged (w : World) : Action → Prop
  | .mouseButton _ isPressed _ => w.stopped = false → isPressed = true → w.dragged = none
  | .mouseWheel _ => w.stopped = false → w.dragged = none
  | .desk client (.moveToplevel t) => w.stopped = false → w.admits client (.moveToplevel t) →
      ∀ o, w.dragged = some o → w.clientOf o ≠ some client
  | .moveBounded client b => w.stopped = false → w.scene.cutOff client = false →
      w.scene.resources b = some ⟨client, .bounded⟩ →
        ∀ o, w.dragged = some o → w.clientOf o ≠ some client
  | _ => True

theorem dragged_eq_none {w : World} {o : BoundedObject} (hl : w.lock w.seat.focusedObj = some o) :
    w.dragged = none ↔ w.seat.objState = .default := by
  unfold dragged
  cases hm : w.seat.objState <;> simp [hl]

theorem handle_unpointed {w : World} {client : ℕ} {r : DeskRequest}
    (hm : ∀ t, r ≠ .moveToplevel t) : Unpointed w (w.handle client r) := by
  by_cases hi : r.isIdle = true
  · exact (handle_idle client hi).unpointed
  cases r with
  | createSurface texSize =>
    refine (createSurface_keyed client texSize).unpointed fun j hj => ?_
    rw [Arena.set_apply] at hj
    split at hj
    · next he => exact .inr he.ge
    · exact .inl hj
  | frame s =>
    exact (queueFrameCallback_keyed s).unpointed fun j hj => .inl (by simpa using hj)
  | commit s =>
    rcases commitSurface_keyed (w := w) s with ⟨-, hc⟩ | hc
    · exact hc.unpointed
    · exact hc.unpointed fun j hj => .inl (by simpa using hj)
  | moveToplevel t => exact absurd rfl (hm t)
  | _ => exact absurd rfl hi

theorem destroyResource_unpointed (w : World) (i : ℕ) : Unpointed w (w.destroyResource i) := by
  cases hr : w.resources i with
  | none =>
    rw [destroyResource, hr]
    exact (Idle.refl w).unpointed
  | some r =>
    refine (destroyResource_keyed hr).unpointed fun j hj => .inl ?_
    split at hj
    · rw [Arena.erase_apply] at hj
      split at hj
      · cases hj
      · exact hj
    · exact hj

theorem frameTimer_unpointed (w : World) (busyness : ℕ) : Unpointed w (w.frameTimer busyness) := by
  unfold frameTimer
  split
  · exact unpointed_of_scene (.frameTimer busyness) rfl (fun i => by simp [sessionFrame])
      rfl rfl rfl
  · exact (Idle.refl w).unpointed

theorem peerDiscover_unpointed (w : World) (connected : Bool) :
    Unpointed w (w.peerDiscover connected) := by
  unfold peerDiscover
  split
  · exact (Idle.refl w).unpointed
  · exact unpointed_of_scene (.peerDiscover connected) rfl (fun i => by simp) rfl rfl rfl

theorem sessionDisconnect_unpointed (w : World) : Unpointed w w.sessionDisconnect := by
  unfold sessionDisconnect
  split
  · exact unpointed_of_scene .sessionDisconnect rfl (fun i => by simp) rfl rfl rfl
  · exact (Idle.refl w).unpointed

theorem Good.handleMouseButton {w : World} (h : Good w) (hr : w.stopped = false) {b : UInt32}
    {isPressed : Bool} {hits : Hits} (hc : isPressed = true → w.dragged = none) :
    Good (w.handleMouseButton b isPressed hits) := by
  by_cases hm : w.seat.objState = .moving ∧ isPressed = false
  · obtain ⟨hm, rfl⟩ := hm
    exact h.endMove hr hm b hits
  rw [World.handleMouseButton, if_neg hm]
  split
  · next o ho =>
    have hd : w.seat.objState = .default := by
      cases isPressed with
      | true => exact (dragged_eq_none ho).mp (hc rfl)
      | false => cases hs : w.seat.objState <;> simp_all
    exact h.inside hr hd ho rfl (k := fun w => w.pressed o isPressed) fun w =>
      pressed_aside (asks_true w o) fun _ _ _ _ _ => asks_true w _
  · split
    · have ha := tryLeaveKeyboard_aside (S := fun _ => True) (w := w) fun _ _ => asks_true w _
      exact Good.unpointed ha.idle.unpointed h hr (h.sane.calm ha.toCalm)
    · exact h

theorem andThen_id (w : World) : w.andThen id = w := by simp [andThen]

theorem Good.handleMouseWheel {w : World} (h : Good w) (hr : w.stopped = false) {amount : ℚ}
    (hc : w.dragged = none) : Good (w.handleMouseWheel amount) := by
  unfold World.handleMouseWheel
  split
  · exact h
  · next o ho =>
    have h1 := h.inside hr ((dragged_eq_none ho).mp hc) ho (c := .axis amount) rfl (k := id)
      fun w => .refl w
    rwa [andThen_id] at h1

theorem step_good (w : World) (a : Action) (h : Good w) (hc : SparesDragged w a) :
    Good (w.step a) := by
  have hs' := step_sane w a h.sane
  unfold step at hs' ⊢
  split
  · exact h
  next hst =>
  have hr : w.stopped = false := by simpa using hst
  rw [if_neg hst] at hs'
  cases a with
  | zwin client r =>
    refine Good.unpointed ?_ h hr hs'
    simp only [act, addBoundedApp]
    split
    · exact unpointed_of_scene (.request client r) rfl (fun _ => rfl) rfl rfl rfl
    · exact unpointed_of_scene (.request client r) rfl (fun _ => rfl) rfl rfl rfl
  | destroyZwin client r =>
    exact Good.unpointed
      (unpointed_of_scene (.destroy client r) rfl (fun _ => rfl) rfl rfl rfl) h hr hs'
  | desk client r =>
    simp only [act] at hs' ⊢
    split
    · next ha =>
      by_cases hm : ∃ t, r = .moveToplevel t
      · obtain ⟨t, rfl⟩ := hm
        exact h.startMove hr (hc hr ha)
      · rw [if_pos ha] at hs'
        exact Good.unpointed (handle_unpointed fun t ht => hm ⟨t, ht⟩) h hr hs'
    · exact h
  | destroy client i =>
    simp only [act] at hs' ⊢
    split
    · next ha =>
      rw [if_pos ha] at hs'
      exact Good.unpointed (destroyResource_unpointed w i) h hr hs'
    · exact h
  | moveBounded client b =>
    simp only [act]
    split
    · next ha =>
      simp only [Bool.and_eq_true, Bool.not_eq_true', decide_eq_true_eq] at ha
      exact h.startMove hr (hc hr ha.1 ha.2)
    · exact h
  | peerDiscover connected => exact Good.unpointed (peerDiscover_unpointed w connected) h hr hs'
  | sessionDisconnect => exact Good.unpointed (sessionDisconnect_unpointed w) h hr hs'
  | frameTimer busyness => exact Good.unpointed (frameTimer_unpointed w busyness) h hr hs'
  | mouseMove polar azimuthal hits =>
    cases hd : w.seat.objState with
    | default => exact h.moveDefault hr hd polar azimuthal hits
    | moving => exact h.moveDragged hr hd polar azimuthal hits
  | mouseButton button isPressed hits => exact h.handleMouseButton hr (hc hr)
  | mouseWheel amount => exact h.handleMouseWheel hr (hc hr)

theorem init_good : Good init where
  sane := init_sane
  holds := ⟨none, fun o => by simp [marks, init], fun o _ => rfl⟩
  running := fun _ => ⟨⟨fun o => by simp [marks, init], fun o _ => rfl⟩, fun o ho => by cases ho⟩

section Broken
variable {w w' : World} {o : BoundedObject}

theorem point_calls (w : World) (o : BoundedObject) (c : ObjectCall) :
    (w.point o c).calls = w.calls ++ [(o, c)] :=
  (point_aside (asks_true w o).needs c).calls

theorem prefix_andThen {k : World → World} (hk : ∀ w, w.calls <+: (k w).calls) :
    w.calls <+: (w.andThen k).calls := by
  unfold World.andThen
  split
  · exact List.prefix_rfl
  · exact hk w

theorem point_prefix (w : World) (o : BoundedObject) (c : ObjectCall) :
    w.calls <+: (w.point o c).calls := by
  rw [point_calls]
  exact List.prefix_append ..

/-- A call on an object that the pointer is not in can not be made up for. -/
theorem not_visits_of_call {c : ObjectCall} {m : Bracket.Mark} (h : Holds w none)
    (ho : w.alive o) (hm : c.mark? = some m) (hn : m ≠ .opens)
    (hp : (w.point o c).calls <+: w'.calls) : ¬Visits w' := by
  intro hv
  obtain ⟨more, hmore⟩ := hp
  refine Bracket.bracketed_iff.mp (hv.bracketed o) ?_
  have h1 : (w.point o c).marks o = w.marks o ++ [m] := by
    have h2 := marks_logCall w o o c
    rw [marks] at h2 ⊢
    rw [point_calls]
    rw [logCall] at h2
    simpa [hm] using h2
  have h3 : w'.marks o = w.marks o ++ [m] ++ more.filterMap
      fun x => if x.1 = o then x.2.mark? else none := by
    rw [← h1, marks, ← hmore, List.filterMap_append, marks]
  rw [h3]
  refine Bracket.after_append_of_none ?_ _
  rw [Bracket.after_concat, h.state o (.inl ho)]
  cases m <;> simp_all [Bracket.next]

theorem Good.holds_none (h : Good w) (hr : w.stopped = false) (hd : w.dragged = some o) :
    Holds w none := by
  have h1 := (h.running hr).1
  rw [inFocus, if_neg] at h1
  · exact h1
  · unfold dragged at hd
    split at hd
    · next hm => simp [hm]
    · cases hd

theorem dragged_eq_some (hd : w.dragged = some o) :
    w.seat.objState = .moving ∧ w.lock w.seat.focusedObj = some o := by
  unfold dragged at hd
  split at hd
  · next hm => exact ⟨hm, hd⟩
  · cases hd

theorem startMove_broken (h : Good w) (hr : w.stopped = false) {client : ℕ}
    (hd : w.dragged = some o) (hc : w.clientOf o = some client) :
    ¬Visits (w.requestStartMove client) := by
  obtain ⟨-, hl⟩ := dragged_eq_some hd
  refine not_visits_of_call (h.holds_none hr hd) (lock_eq_some.mp hl).2 (c := .leave) rfl
    (by simp) ?_
  simp only [requestStartMove, hl, if_pos hc, leave]
  refine .trans ?_ (prefix_andThen fun w => List.prefix_rfl)
  exact prefix_andThen fun w => point_prefix w o .frame

theorem button_broken (h : Good w) (hr : w.stopped = false) (b : UInt32) (hits : Hits)
    (hd : w.dragged = some o) : ¬Visits (w.handleMouseButton b true hits) := by
  obtain ⟨-, hl⟩ := dragged_eq_some hd
  refine not_visits_of_call (h.holds_none hr hd) (lock_eq_some.mp hl).2 (c := .button b true) rfl
    (by simp) ?_
  rw [handleMouseButton, if_neg (by simp), hl]
  refine .trans (prefix_andThen fun w => ?_) (prefix_andThen fun w => point_prefix w o .frame)
  have ha : Aside (fun _ => True) w (w.pressed o true) :=
    pressed_aside (asks_true w o) fun _ _ _ _ _ => asks_true w _
  exact ha.calls ▸ List.prefix_rfl

theorem wheel_broken (h : Good w) (hr : w.stopped = false) (amount : ℚ)
    (hd : w.dragged = some o) : ¬Visits (w.handleMouseWheel amount) := by
  obtain ⟨-, hl⟩ := dragged_eq_some hd
  refine not_visits_of_call (h.holds_none hr hd) (lock_eq_some.mp hl).2 (c := .axis amount) rfl
    (by simp) ?_
  rw [handleMouseWheel, hl]
  exact prefix_andThen fun w => point_prefix w o .frame

end Broken

theorem spares_of_visits (w : World) (a : Action) (h : Good w) (hv : Visits (w.step a)) :
    SparesDragged w a := by
  have run (hr : w.stopped = false) : Visits (w.act a) := by
    rwa [step, if_neg (by simp [hr])] at hv
  unfold SparesDragged
  split
  · next b isPressed hits =>
    intro hr hp
    subst hp
    by_contra hd
    obtain ⟨o, ho⟩ := Option.ne_none_iff_exists'.mp hd
    exact button_broken h hr b hits ho (run hr)
  · next amount =>
    intro hr
    by_contra hd
    obtain ⟨o, ho⟩ := Option.ne_none_iff_exists'.mp hd
    exact wheel_broken h hr amount ho (run hr)
  · next client t =>
    intro hr ha o ho hc
    have h1 := run hr
    simp only [act, if_pos ha] at h1
    exact startMove_broken h hr ho hc h1
  · next client b =>
    intro hr hcut hres o ho hc
    have h1 := run hr
    simp only [act, hcut, hres] at h1
    exact startMove_broken h hr ho hc (by simpa using h1)
  · trivial

/-- The calls on the bounded objects are visits throughout a run exactly when nothing is asked of
an object that is being dragged. -/
theorem visits_throughout_iff (as : List Action) :
    Run.Always step Visits init as ↔ Run.Each step SparesDragged init as :=
  Run.always_iff_each_of init_good (fun _ h => h.holds.choose_spec.visits) step_good
    spares_of_visits as

/-- A client moves its window, and a second button is pressed before the first is released. -/
def dragRun : List Action :=
  [.desk 0 .bindSeat, .desk 0 (.createSurface (0, 0)),
    .desk 0 (.createWlBuffer ⟨0, 1, 1, 4, [0, 0, 0, 0]⟩), .desk 0 (.attach 1 (some 2) (0, 0)),
    .desk 0 (.commit 1), .desk 0 (.getXdgSurface 1), .desk 0 (.getToplevel 3),
    .mouseMove 0 0 fun o => if o = .surface 1 then some 1 else none,
    .desk 0 (.moveToplevel 4), .mouseButton 273 true fun _ => none]

theorem pressed_while_dragged : ¬Run.Always step Visits init dragRun := fun h =>
  Bracket.bracketed_iff.mp ((h dragRun List.prefix_rfl).bracketed (.surface 1)) (by decide)

end World
end Yaza
