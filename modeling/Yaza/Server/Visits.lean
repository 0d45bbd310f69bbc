import Yaza.Lib.Bracket
import Yaza.Server.Reach

/-! The calls on each bounded object, as visits of the pointer: who breaks them, and that nobody
else does. -/
namespace Yaza

/-- What a call means for the visits of an object. -/
def ObjectCall.mark? : ObjectCall → Option Bracket.Mark
  | .enter => some .opens
  | .leave => some .closes
  | .motion | .button _ _ | .axis _ => some .inside
  | .frame => none

namespace World

/-- The calls on one object; the frames are left out. -/
def marks (w : World) (o : BoundedObject) : List Bracket.Mark :=
  w.calls.filterMap fun x => if x.1 = o then x.2.mark? else none

/-- Every object is entered and left in turn, and at most one that is alive is entered. -/
structure Visits (w : World) : Prop where
  bracketed : ∀ o, Bracket.Bracketed (w.marks o)
  unique : ∀ o o', w.alive o → w.alive o' → Bracket.Open (w.marks o) →
    Bracket.Open (w.marks o') → o = o'

/-- The object is alive, or does not exist yet. -/
def Current (w : World) (o : BoundedObject) : Prop := w.alive o ∨ ¬w.issued o

/-- Among these objects, the one the pointer is in is `f`. -/
structure Holds (w : World) (f : Option BoundedObject) : Prop where
  unbroken : ∀ o, Bracket.after (w.marks o) ≠ none
  state : ∀ o, w.Current o → Bracket.after (w.marks o) = some (decide (f = some o))

theorem Holds.visits {w : World} {f : Option BoundedObject} (h : Holds w f) : Visits w where
  bracketed := fun o => Bracket.bracketed_iff.mpr (h.unbroken o)
  unique := fun o o' ho ho' hm hm' => by
    have key {o : BoundedObject} (ho : w.alive o) (hm : Bracket.Open (w.marks o)) :
        f = some o := by
      rw [Bracket.open_iff, h.state o (.inl ho)] at hm
      simpa using hm
    have h1 := key ho hm
    rw [key ho' hm'] at h1
    exact (Option.some.inj h1).symm

section Calls
variable {w w' : World} {f : Option BoundedObject} {o : BoundedObject}

theorem marks_logCall (w : World) (o p : BoundedObject) (c : ObjectCall) :
    (w.logCall o c).marks p = w.marks p ++ if o = p then c.mark?.toList else [] := by
  simp only [marks, logCall, List.filterMap_append]
  congr 1
  by_cases hp : o = p
  · cases hc : c.mark? <;> simp [hp, hc]
  · simp [hp]

theorem Holds.frame (h : Holds w f) (o : BoundedObject) : Holds (w.logCall o .frame) f := by
  have hm (p : BoundedObject) : (w.logCall o .frame).marks p = w.marks p := by
    rw [marks_logCall]
    simp [ObjectCall.mark?]
  exact ⟨fun p => hm p ▸ h.unbroken p, fun p hp => hm p ▸ h.state p hp⟩

/-- A call that its object is ready for. -/
theorem Holds.call {c : ObjectCall} {m : Bracket.Mark} {g : Option BoundedObject}
    (h : Holds w f) (ho : w.alive o) (hm : c.mark? = some m)
    (hn : Bracket.next (decide (f = some o)) m = some (decide (g = some o)))
    (hg : ∀ p, p ≠ o → (f = some p ↔ g = some p)) : Holds (w.logCall o c) g := by
  have ho' : Bracket.after ((w.logCall o c).marks o) = some (decide (g = some o)) := by
    rw [marks_logCall, if_pos rfl, hm, Option.toList_some, Bracket.after_concat,
      h.state o (.inl ho), Option.bind_some, hn]
  have hp (p : BoundedObject) (hp : p ≠ o) : (w.logCall o c).marks p = w.marks p := by
    rw [marks_logCall, if_neg (Ne.symm hp), List.append_nil]
  constructor
  · intro p
    by_cases h1 : p = o
    · rw [h1, ho']
      simp
    · exact hp p h1 ▸ h.unbroken p
  · intro p hc
    by_cases h1 : p = o
    · rw [h1, ho']
    · rw [hp p h1, h.state p hc]
      simp [hg p h1]

/-- What the pieces of a pointer event leave alone: the objects and the focus. -/
structure Follows (w w' : World) : Prop where
  calm : Calm w w'
  objState : w'.seat.objState = w.seat.objState
  focusedObj : w'.seat.focusedObj = w.seat.focusedObj

theorem Follows.trans {w'' : World} (h : Follows w w') (h' : Follows w' w'') : Follows w w'' :=
  ⟨h.calm.trans h'.calm, h'.objState.trans h.objState, h'.focusedObj.trans h.focusedObj⟩

theorem Follows.andThen {k : World → World} (h : Follows w w') (hk : Follows w' (k w')) :
    Follows w (w'.andThen k) := by
  unfold World.andThen
  split
  · exact h
  · exact h.trans hk

theorem point_follows (w : World) (o : BoundedObject) (c : ObjectCall) :
    Follows w (w.point o c) := by
  have h := point_aside (asks_true w o).needs c
  exact ⟨(point_base (asks_true w o).needs c).toCalm, h.objState, h.focusedObj⟩

theorem leave_follows (w : World) (o : BoundedObject) : Follows w (w.leave o) :=
  (point_follows w o .leave).andThen (point_follows _ o .frame)

theorem Calm.current (h : Calm w w') (ho : w'.Current o) : w.Current o := by
  rcases ho with ho | ho
  · exact .inl (h.alive o ▸ ho)
  · refine .inr fun hi => ho ?_
    cases o with
    | surface i => exact hi.trans_le h.nextId
    | app i => simpa [issued, h.scene] using hi

/-- Without new calls the visits stay what they are. -/
theorem Holds.calm (h : Holds w f) (hc : Calm w w') (ha : w'.calls = w.calls) : Holds w' f := by
  have hm (p : BoundedObject) : w'.marks p = w.marks p := by rw [marks, ha, marks]
  exact ⟨fun p => hm p ▸ h.unbroken p, fun p hp => hm p ▸ h.state p (hc.current hp)⟩

theorem Holds.point {c : ObjectCall} (h : Holds (w.logCall o c) f) : Holds (w.point o c) f := by
  have h1 := point_aside (asks_true w o).needs c
  exact h.calm h1.toCalm h1.calls

theorem Holds.leave (h : Holds w (some o)) (ho : w.alive o) : Holds (w.leave o) none := by
  have h1 : Holds (w.point o .leave) none :=
    (h.call ho rfl (by simp [Bracket.next]) fun p hp => by simp [Ne.symm hp]).point
  unfold World.leave World.andThen
  split
  · exact h1
  · exact (h1.frame o).point

theorem Holds.enter (h : Holds w none) (ho : w.alive o) : Holds (w.point o .enter) (some o) :=
  (h.call ho rfl (by simp [Bracket.next]) fun p hp => by simp [Ne.symm hp]).point

theorem Holds.inside {c : ObjectCall} (h : Holds w (some o)) (ho : w.alive o)
    (hc : c.mark? = some .inside) : Holds (w.point o c) (some o) :=
  (h.call ho hc (by simp [Bracket.next]) fun _ _ => Iff.rfl).point

theorem leaveFocused_follows (w : World) : Follows w w.leaveFocused := by
  unfold leaveFocused
  split
  · exact ⟨.refl w, rfl, rfl⟩
  · exact leave_follows w _

theorem Holds.leaveFocused (h : Holds w (w.lock w.seat.focusedObj)) :
    Holds w.leaveFocused none := by
  unfold World.leaveFocused
  split
  · next hn => rwa [hn] at h
  · next o ho =>
    rw [ho] at h
    refine h.leave ?_
    simp only [lock, Option.filter_eq_some_iff] at ho
    exact ho.2

end Calls

/-- The pointer is in `f`, unless the program stopped before it got there. -/
structure Focuses (w : World) (f : Option BoundedObject) : Prop where
  holds : ∃ g, Holds w g
  running : w.stopped = false → Holds w f ∧ w.seat.focusedObj = f ∧ w.seat.objState = .default

/-- What follows, when nothing stops the program. -/
theorem Focuses.andThen {w : World} {f g : Option BoundedObject} {k : World → World}
    (h : Focuses w f) (hk : Holds w f → w.seat.focusedObj = f → w.seat.objState = .default →
      Focuses (k w) g) : Focuses (w.andThen k) g := by
  unfold World.andThen
  split
  · next hs => exact ⟨h.holds, fun hn => by simp [hs] at hn⟩
  · next hs =>
    obtain ⟨h1, h2, h3⟩ := h.running (by simpa using hs)
    exact hk h1 h2 h3

theorem Focuses.of_holds {w : World} {f : Option BoundedObject} (h : Holds w f)
    (hf : w.seat.focusedObj = f) (hd : w.seat.objState = .default) : Focuses w f :=
  ⟨⟨f, h⟩, fun _ => ⟨h, hf, hd⟩⟩

section Focus
variable {w : World} {o : BoundedObject}

/-- The pointer leaves one object and enters another. -/
theorem changeFocus_focuses (hd : w.seat.objState = .default)
    (h : Holds w (w.lock w.seat.focusedObj)) (ho : w.alive o) :
    Focuses (w.changeFocus o) (some o) := by
  have h1 := h.leaveFocused
  have f1 := leaveFocused_follows w
  unfold changeFocus World.andThen
  split
  · next hs => exact ⟨⟨_, h1⟩, fun hn => by simp [hs] at hn⟩
  · have a2 := selectFor_aside (asks_true w.leaveFocused o).needs
    have h2 := h1.calm a2.toCalm a2.calls
    dsimp only
    split
    · next hs => exact ⟨⟨_, h2⟩, fun hn => by simp [hs] at hn⟩
    · have h3 : Holds { w.leaveFocused.selectFor o with seat.focusedObj := some o } none :=
        h2.calm (Base.toCalm (S := fun _ => True) (base_of_eq rfl rfl rfl)) rfl
      have f3 :=
        point_follows { w.leaveFocused.selectFor o with seat.focusedObj := some o } o .enter
      have ho3 : World.alive { w.leaveFocused.selectFor o with seat.focusedObj := some o } o :=
        ((f1.calm.trans a2.toCalm).alive o).trans ho
      exact .of_holds (h3.enter ho3) f3.focusedObj
        (f3.objState.trans (a2.objState.trans (f1.objState.trans hd)))

theorem setFocusedObj_focuses (hd : w.seat.objState = .default)
    (h : Holds w (w.lock w.seat.focusedObj)) (ho : w.alive o) :
    Focuses (w.setFocusedObj o) (some o) := by
  unfold setFocusedObj
  split
  · next he =>
    rw [he] at h
    refine .of_holds h ?_ hd
    simp only [lock, Option.filter_eq_some_iff] at he
    exact he.1
  · exact changeFocus_focuses hd h ho

theorem setFocusedObj_calm : Calm w (w.setFocusedObj o) :=
  (setFocusedObj_base (S := fun _ => True) (fun p _ => asks_true w p) (asks_true w o)).toCalm

/-- The pointer moves in the object it is in. -/
theorem focusOn_focuses (hd : w.seat.objState = .default)
    (h : Holds w (w.lock w.seat.focusedObj)) (ho : w.alive o) (distance : ℚ) :
    Focuses (w.focusOn o distance) (some o) := by
  refine (setFocusedObj_focuses hd h ho).andThen fun h1 hf1 hd1 => ?_
  have ho1 : (w.setFocusedObj o).alive o := (setFocusedObj_calm.alive o).trans ho
  have f2 := point_follows (w.setFocusedObj o) o .motion
  refine (Focuses.of_holds (h1.inside (c := .motion) ho1 rfl) (f2.focusedObj.trans hf1)
    (f2.objState.trans hd1)).andThen fun h2 hf2 hd2 => ?_
  have f3 := point_follows ((w.setFocusedObj o).point o .motion) o .frame
  refine (Focuses.of_holds (h2.frame o).point (f3.focusedObj.trans hf2)
    (f3.objState.trans hd2)).andThen fun h3 hf3 hd3 => ?_
  exact .of_holds (h3.calm (Base.toCalm (S := fun _ => True) (base_of_eq rfl rfl rfl)) rfl) hf3 hd3

theorem focusNothing_focuses (hd : w.seat.objState = .default)
    (h : Holds w (w.lock w.seat.focusedObj)) : Focuses w.focusNothing none := by
  have f1 := leaveFocused_follows w
  unfold focusNothing World.andThen
  split
  · next hs => exact ⟨⟨_, h.leaveFocused⟩, fun hn => by simp [hs] at hn⟩
  · have h2 : Holds { w.leaveFocused with seat.focusedObj := none } none :=
      h.leaveFocused.calm (Base.toCalm (S := fun _ => True) (base_of_eq rfl rfl rfl)) rfl
    have a3 := setSurfaceAsCursor_aside (S := fun _ => True)
      { w.leaveFocused with seat.focusedObj := none } none (0, 0)
    exact .of_holds (h2.calm a3.toCalm a3.calls) a3.focusedObj
      (a3.objState.trans (f1.objState.trans hd))

/-- A motion over the objects, or the end of a move. -/
theorem checkIntersection_focuses (hd : w.seat.objState = .default)
    (h : Holds w (w.lock w.seat.focusedObj)) (hits : Hits) :
    ∃ f, (∀ o, f = some o → w.alive o) ∧ Focuses (w.checkIntersection hits) f := by
  have a1 := dropExpired_aside (S := fun _ => True) w
  have h1 : Holds w.dropExpiredSurfaces.dropExpiredApps
      (w.dropExpiredSurfaces.dropExpiredApps.lock
        w.dropExpiredSurfaces.dropExpiredApps.seat.focusedObj) := by
    rw [a1.lock, a1.focusedObj]
    exact h.calm a1.toCalm a1.calls
  unfold checkIntersection
  split
  · next o d hn =>
    refine ⟨some o, fun p hp => by cases hp; exact nearest_alive hn, ?_⟩
    exact focusOn_focuses (a1.objState.trans hd) h1
      ((a1.alive o).trans (nearest_alive hn)) d
  · exact ⟨none, by simp, focusNothing_focuses (a1.objState.trans hd) h1⟩

end Focus

end World
end Yaza
