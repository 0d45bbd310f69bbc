import Yaza.Server.Objects
import Yaza.Lib.Holder

/-! The keyboard focus as the clients see it: of the live surfaces, the one that has got an enter
and no leave since is the one the server remembers. -/
namespace Yaza

/-- An enter takes the keyboard, a leave gives it back. -/
def DeskEvent.move? : DeskEvent → Option (Holder.Move ℕ)
  | .keyboardEnter _ i => some (.take i)
  | .keyboardLeave _ i => some (.give i)
  | _ => none

namespace World

/-- The enters and leaves that were broadcast, in order. -/
def moves (w : World) : List (Holder.Move ℕ) := w.events.filterMap DeskEvent.move?

def Live (w : World) (i : ℕ) : Prop := (w.surfaces i).isSome = true

/-- The server knows which of the live surfaces has the keyboard. -/
def Focused (w : World) : Prop :=
  Holder.Held w.Live w.moves w.seat.keyboardFocusedSurface

section Moves
variable {w w' w'' : World}

theorem moves_eq (w : World) : w.moves = w.keyEvents.filterMap DeskEvent.move? := by
  unfold moves keyEvents
  rw [List.filterMap_filter]
  congr 1
  funext e
  cases e <;> rfl

theorem moves_emit (w : World) (e : DeskEvent) :
    (w.emit e).moves = w.moves ++ e.move?.toList := by
  unfold moves emit
  rw [List.filterMap_append]
  cases h : e.move? <;> simp [h]

theorem focus_of_keyboard (h : w'.keyboard = w.keyboard) :
    w'.moves = w.moves ∧
      w'.seat.keyboardFocusedSurface = w.seat.keyboardFocusedSurface := by
  simp only [keyboard, Prod.mk.injEq] at h
  exact ⟨by rw [moves_eq, moves_eq, h.2], h.1⟩

/-- What keeps the surfaces alive, and does not touch the keyboard. -/
structure Unkeyed (w w' : World) : Prop where
  alive : w'.Live = w.Live
  nextId : w.nextId ≤ w'.nextId
  selection : w'.seat.currentSelection = w.seat.currentSelection
  keyboard : w'.keyboard = w.keyboard

theorem Unkeyed.trans (h : Unkeyed w w') (h' : Unkeyed w' w'') : Unkeyed w w'' where
  alive := h'.alive.trans h.alive
  nextId := h.nextId.trans h'.nextId
  selection := h'.selection.trans h.selection
  keyboard := h'.keyboard.trans h.keyboard

theorem Unkeyed.held (h : Unkeyed w w') {o : Option ℕ} (hh : Holder.Held w.Live w.moves o) :
    Holder.Held w'.Live w'.moves o := by
  rw [h.alive, (focus_of_keyboard h.keyboard).1]
  exact hh

theorem Unkeyed.focused (h : Unkeyed w w') (hf : w.Focused) : w'.Focused := by
  unfold Focused
  rw [(focus_of_keyboard h.keyboard).2]
  exact h.held hf

theorem live_of_shape {S : Arena Surface}
    (h : S.mapAll Surface.shape = w.surfaces.mapAll Surface.shape) :
    (fun i => (S i).isSome = true) = w.Live :=
  funext fun i => congrArg (· = true) (Arena.isSome_of_mapAll h i)

/-- Surfaces stay alive, and no other becomes so. -/
theorem Change.live {k : Bool} (h : Change k w w') : w'.Live = w.Live := by
  cases h with
  | other hd | focus _ hd =>
    simp only [desk, Prod.mk.injEq] at hd
    exact funext fun i => congrArg (· = true) (Arena.isSome_of_mapAll hd.1 i)
  | expire => rfl
  | raise i =>
    obtain ⟨l, S, h1, h2⟩ := raiseSurfaceTop_eq w i
    rw [h1]
    exact live_of_shape h2
  | offer d s =>
    rcases createOffer_cases w d s with h1 | ⟨r, x, -, -, h1⟩
    · rw [h1]
      rfl
    · rw [h1]
      rfl
  | cursor i => exact funext fun j => congrArg (· = true) (Arena.modify_isSome ..)

theorem Changes.live {k : Bool} (h : Changes k w w') : w'.Live = w.Live :=
  Path.const (fun _ _ h => h.live) h

theorem Change.nextId {k : Bool} (h : Change k w w') : w.nextId ≤ w'.nextId := by
  cases h with
  | other _ _ hg | focus _ _ hg => exact hg.nextId
  | expire => exact Nat.le_refl _
  | raise i =>
    obtain ⟨l, S, h1, -⟩ := raiseSurfaceTop_eq w i
    rw [h1]
  | offer d s =>
    rcases createOffer_cases w d s with h1 | ⟨r, x, -, -, h1⟩
    · rw [h1]
      exact Nat.le_refl _
    · rw [h1]
      exact Nat.le_succ _
  | cursor i => exact Nat.le_refl _

theorem Change.selection_eq {k : Bool} (h : Change k w w') :
    w'.seat.currentSelection = w.seat.currentSelection := by
  cases h with
  | other hd =>
    simp only [desk, Prod.mk.injEq] at hd
    exact hd.2.2.2.2.2.2.2.2.1
  | focus _ hd =>
    simp only [desk, Prod.mk.injEq] at hd
    exact hd.2.2.2.2.2.2.2.2.1
  | expire => rfl
  | raise i =>
    obtain ⟨l, S, h1, -⟩ := raiseSurfaceTop_eq w i
    rw [h1]
  | offer d s =>
    rcases createOffer_cases w d s with h1 | ⟨r, x, -, -, h1⟩
    · rw [h1]
      rfl
    · rw [h1]
  | cursor i => rfl

theorem Change.unkeyed (h : Change false w w') : Unkeyed w w' := by
  refine ⟨h.live, h.nextId, h.selection_eq, ?_⟩
  cases h with
  | other _ hk => exact hk
  | focus hk => cases hk
  | expire => rfl
  | raise i =>
    obtain ⟨l, S, h1, -⟩ := raiseSurfaceTop_eq w i
    rw [h1]
    rfl
  | offer d s =>
    rcases createOffer_cases w d s with h1 | ⟨r, x, -, -, h1⟩
    · rw [h1]
      rfl
    · rw [h1]
      simp [keyboard, keyEvents, DeskEvent.isKey]
  | cursor i => rfl

theorem Changes.unkeyed (h : Changes false w w') : Unkeyed w w' := by
  induction h with
  | refl => exact ⟨rfl, Nat.le_refl _, rfl, rfl⟩
  | tail _ hc ih => exact ih.trans hc.unkeyed

/-- What a function of the seat broadcasts about the keyboard is in order, and it keeps track of
who has it, unless the program stops while the selection is sent. -/
structure Keys (w w' : World) : Prop where
  alive : w'.Live = w.Live
  nextId : w.nextId ≤ w'.nextId
  selection : w'.seat.currentSelection = w.seat.currentSelection
  focus : ∀ i, w'.seat.keyboardFocusedSurface = some i →
    w.seat.keyboardFocusedSurface = some i ∨ w.Live i
  moves : ∃ ms, w'.moves = w.moves ++ ms ∧ Holder.Orderly w.Live w.moves ms
  focused : w'.stopped = false ∨ w.seat.currentSelection = none → w'.Focused

theorem Unkeyed.keys (h : Unkeyed w w') (hf : w.Focused) : Keys w w' where
  alive := h.alive
  nextId := h.nextId
  selection := h.selection
  focus := fun i hi => .inl ((focus_of_keyboard h.keyboard).2 ▸ hi)
  moves := ⟨[], by simp [(focus_of_keyboard h.keyboard).1], trivial⟩
  focused := fun _ => h.focused hf

theorem Keys.trans (h : Keys w w') (h' : Keys w' w'') : Keys w w'' where
  alive := h'.alive.trans h.alive
  nextId := h.nextId.trans h'.nextId
  selection := h'.selection.trans h.selection
  focus := fun i hi => by
    rcases h'.focus i hi with h1 | h1
    · exact h.focus i h1
    · exact .inr (h.alive ▸ h1)
  moves := by
    obtain ⟨ms, h1, h2⟩ := h.moves
    obtain ⟨ms', h3, h4⟩ := h'.moves
    rw [h.alive, h1] at h4
    exact ⟨ms ++ ms', by rw [h3, h1, List.append_assoc], Holder.orderly_append.mpr ⟨h2, h4⟩⟩
  focused := fun hs => h'.focused (h.selection ▸ hs)

theorem Keys.andThen (h : Keys w w') {f : World → World}
    (hf : w'.stopped = false → w'.Focused → Keys w' (f w')) : Keys w (w'.andThen f) := by
  unfold World.andThen
  cases hs : w'.stopped with
  | true => exact h
  | false => exact h.trans (hf hs (h.focused (.inl hs)))

/-- The seat is not found, and the program stops; or something is done with it. -/
theorem withSeatOf_cases (w : World) (o : BoundedObject) :
    (∃ w', Unkeyed w w' ∧ w'.stopped = true ∧ ∀ f, w.withSeatOf o f = w') ∨
      ∃ w' x, Unkeyed w w' ∧ w'.stopped = w.stopped ∧ ∀ f, w.withSeatOf o f = f w' x := by
  have same {u : World} (ha : u.surfaces = w.surfaces) (hn : u.nextId = w.nextId)
      (hc : u.seat.currentSelection = w.seat.currentSelection) (hk : u.keyboard = w.keyboard) :
      Unkeyed w u := ⟨by unfold Live; rw [ha], hn.ge, hc, hk⟩
  unfold withSeatOf withClientSeat
  split
  · refine .inl ⟨_, ?_, crash_stopped w _, fun _ => rfl⟩
    exact same rfl rfl rfl rfl
  · next client _ =>
    split
    · refine .inl ⟨_, ?_, crash_stopped _ _, fun _ => rfl⟩
      exact same rfl rfl rfl rfl
    · next i _ =>
      split
      · refine .inl ⟨_, ?_, crash_stopped _ _, fun _ => rfl⟩
        exact same rfl rfl rfl rfl
      · next x _ =>
        refine .inr ⟨_, x, ?_, ?_, fun _ => rfl⟩
        · exact same rfl rfl rfl rfl
        · rfl

theorem Focused.of_lock_none (hf : w.Focused)
    (hl : w.surfaces.lock w.seat.keyboardFocusedSurface = none) :
    Holder.Held w.Live w.moves none := by
  unfold Focused at hf
  cases hk : w.seat.keyboardFocusedSurface with
  | none => rwa [hk] at hf
  | some i =>
    rw [hk] at hf
    refine hf.expire fun hi => ?_
    have h1 := Arena.lock_eq_some.mpr ⟨hk, hi⟩
    rw [hl] at h1
    cases h1

/-- The surface that has the keyboard gives it back. -/
theorem leaveSurface_keys (hf : w.Focused) (hs : w.stopped = false) {i : ℕ}
    (hk : w.seat.keyboardFocusedSurface = some i) (hi : w.Live i) :
    Keys w ((w.withSeatOf (.surface i) fun w x => w.emit (.keyboardLeave x.keyboards i)).andThen
      fun w => { w with seat.keyboardFocusedSurface := none }) := by
  rcases w.withSeatOf_cases (.surface i) with ⟨w', hu, hs', h1⟩ | ⟨w', x, hu, hs', h1⟩
  · rw [h1, World.andThen, if_pos hs']
    exact hu.keys hf
  · have he : (w'.emit (.keyboardLeave x.keyboards i)).stopped = false := hs'.trans hs
    rw [h1, World.andThen, if_neg (by simp [he])]
    have hm : (w'.emit (.keyboardLeave x.keyboards i)).moves = w.moves ++ [.give i] := by
      rw [moves_emit, (focus_of_keyboard hu.keyboard).1]
      rfl
    unfold Focused at hf
    rw [hk] at hf
    obtain ⟨ho, hh⟩ := hf.give hi
    refine ⟨hu.alive, hu.nextId, hu.selection, fun j hj => ?_, ⟨_, hm, ho⟩, fun _ => ?_⟩
    · cases hj
    · unfold Focused
      rw [← hm, ← hu.alive] at hh
      exact hh

theorem tryLeaveKeyboard_keys (hf : w.Focused) : Keys w w.tryLeaveKeyboard := by
  have refl : Unkeyed w w := ⟨rfl, Nat.le_refl _, rfl, rfl⟩
  unfold tryLeaveKeyboard
  split
  · exact refl.keys hf
  · next i hl =>
    obtain ⟨hk, hi⟩ := Arena.lock_eq_some.mp hl
    have hu := (onUnfocus_effects (k := false) (t := false) w i).changes.unkeyed
    refine (hu.keys hf).andThen fun hs hf' => leaveSurface_keys hf' hs ?_ ?_
    · rw [(focus_of_keyboard hu.keyboard).2, hk]
    · rw [hu.alive]
      exact hi

theorem andThen_of_running {f : World → World} (h : (w.andThen f).stopped = false) :
    w.andThen f = f w := by
  unfold World.andThen at h ⊢
  split
  · next hs =>
    rw [if_pos hs, hs] at h
    cases h
  · rfl

/-- After it no live surface has the keyboard. -/
theorem tryLeaveKeyboard_lock (hs : w.tryLeaveKeyboard.stopped = false) :
    w.tryLeaveKeyboard.surfaces.lock w.tryLeaveKeyboard.seat.keyboardFocusedSurface = none := by
  unfold tryLeaveKeyboard at hs ⊢
  cases hl : w.surfaces.lock w.seat.keyboardFocusedSurface with
  | none => exact hl
  | some i =>
    simp only [hl] at hs ⊢
    have h1 := andThen_of_running hs
    rw [h1] at hs ⊢
    rw [andThen_of_running hs]
    rfl

/-- Without a selection there is nothing that could stop the program. -/
theorem sendSelections_of_none (hc : w.seat.currentSelection = none) (devices : List ℕ) :
    (w.sendSelections devices).stopped = w.stopped := by
  unfold sendSelections
  induction devices generalizing w with
  | nil => rfl
  | cons d l ih =>
    have h1 : (w.andThen fun w => w.sendSelection d).seat.currentSelection = none ∧
        (w.andThen fun w => w.sendSelection d).stopped = w.stopped := by
      simp only [World.andThen, sendSelection, hc]
      split
      · exact ⟨hc, rfl⟩
      · exact ⟨hc, rfl⟩
    rw [List.foldl_cons, ih h1.1, h1.2]

/-- A live surface takes the keyboard when no live surface has it. -/
theorem enterSurface_keys (hn : Holder.Held w.Live w.moves none) (hf : w.Focused)
    (hs : w.stopped = false) {i : ℕ} (hi : w.Live i) :
    Keys w ((w.enterKeyboard i).andThen
      fun w => { w with seat.keyboardFocusedSurface := some i }) := by
  unfold enterKeyboard
  rcases w.withSeatOf_cases (.surface i) with ⟨w', hu, hs', h1⟩ | ⟨w', x, hu, hs', h1⟩
  · rw [h1, World.andThen, if_pos hs']
    exact hu.keys hf
  · rw [h1]
    have hm : (w'.emit (.keyboardEnter x.keyboards i)).moves = w.moves ++ [.take i] := by
      rw [moves_emit, (focus_of_keyboard hu.keyboard).1]
      rfl
    have hu' := (sendSelections_effects (k := false)
      (w'.emit (.keyboardEnter x.keyboards i)) x.dataDevices).changes.unkeyed
    have hf' := focus_of_keyboard hu'.keyboard
    obtain ⟨ho, hh⟩ := hn.take hi
    have ha := hu'.alive.trans hu.alive
    have hm' := hf'.1.trans hm
    unfold World.andThen
    split
    · next hst =>
      refine ⟨ha, hu.nextId.trans hu'.nextId, hu'.selection.trans hu.selection, fun j hj => ?_,
        ⟨_, hm', ho⟩, fun h => ?_⟩
      · rw [hf'.2] at hj
        exact .inl ((focus_of_keyboard hu.keyboard).2 ▸ hj)
      · rcases h with h | h
        · rw [h] at hst
          cases hst
        · have h2 : (w'.emit (.keyboardEnter x.keyboards i)).stopped = false := hs'.trans hs
          rw [sendSelections_of_none (w := w'.emit _) (hu.selection.trans h), h2] at hst
          cases hst
    · refine ⟨ha, hu.nextId.trans hu'.nextId, hu'.selection.trans hu.selection, fun j hj => ?_,
        ⟨_, hm', ho⟩, fun _ => ?_⟩
      · cases hj
        exact .inr hi
      · unfold Focused
        rw [← hm', ← ha] at hh
        exact hh

theorem setKeyboardFocusedSurface_keys (hf : w.Focused) {i : ℕ} (hi : w.Live i) :
    Keys w (w.setKeyboardFocusedSurface i) := by
  have refl : Unkeyed w w := ⟨rfl, Nat.le_refl _, rfl, rfl⟩
  unfold setKeyboardFocusedSurface
  split
  · exact refl.keys hf
  · have h1 := tryLeaveKeyboard_keys hf
    refine h1.andThen fun hs1 hf1 => ?_
    have hn := hf1.of_lock_none (tryLeaveKeyboard_lock hs1)
    have hu := (onFocus_effects (k := false) (t := false) w.tryLeaveKeyboard i).changes.unkeyed
    refine (hu.keys hf1).andThen fun hs2 hf2 => enterSurface_keys (hu.held hn) hf2 hs2 ?_
    rw [hu.alive, h1.alive]
    exact hi

theorem pressed_keys (hf : w.Focused) (o : BoundedObject) (isPressed : Bool) :
    Keys w (w.pressed o isPressed) := by
  have refl : Unkeyed w w := ⟨rfl, Nat.le_refl _, rfl, rfl⟩
  cases o with
  | app b => exact refl.keys hf
  | surface i =>
    simp only [pressed]
    split
    · next h =>
      rcases w.getSurfaceFromResource_eq i with h1 | ⟨-, -, h1⟩
      · simp [h1] at h
      · exact setKeyboardFocusedSurface_keys hf h1
    · exact refl.keys hf

theorem point_keys (hf : w.Focused) (o : BoundedObject) (c : ObjectCall) : Keys w (w.point o c) :=
  (point_effects (t := false) w o c).changes.unkeyed.keys hf

/-- A click moves the keyboard to the surface that is pressed, or takes it away. -/
theorem handleMouseButton_keys (hf : w.Focused) (button : UInt32) (isPressed : Bool)
    (hits : Hits) : Keys w (w.handleMouseButton button isPressed hits) := by
  have refl : Unkeyed w w := ⟨rfl, Nat.le_refl _, rfl, rfl⟩
  unfold handleMouseButton
  split
  · exact (endMove_effects (k := false) w hits).changes.unkeyed.keys hf
  · split
    · next o _ =>
      refine Keys.andThen ?_ fun _ hf => point_keys hf o _
      exact (point_keys hf o _).andThen fun _ hf => pressed_keys hf o isPressed
    · split
      · exact tryLeaveKeyboard_keys hf
      · exact refl.keys hf

/-- Who has the keyboard, and who had it, are surfaces that were created. -/
structure Issued (w : World) : Prop where
  moves : ∀ i, Holder.holds w.moves i = true → i < w.nextId
  focus : ∀ i, w.seat.keyboardFocusedSurface = some i → i < w.nextId

/-- What a client does to its objects directly may kill surfaces or make one, at an address that
was not used yet. -/
structure Apart (w w' : World) : Prop where
  alive : ∀ i, w'.Live i → w.Live i ∨ i = w.nextId
  nextId : w.nextId ≤ w'.nextId
  keyboard : w'.keyboard = w.keyboard

theorem Unkeyed.apart (h : Unkeyed w w') : Apart w w' where
  alive := fun _ hi => .inl (h.alive ▸ hi)
  nextId := h.nextId
  keyboard := h.keyboard

theorem Apart.issued (h : Apart w w') (hi : w.Issued) : w'.Issued := by
  obtain ⟨hm, hk⟩ := focus_of_keyboard h.keyboard
  refine ⟨fun i h1 => ?_, fun i h1 => ?_⟩
  · rw [hm] at h1
    exact Nat.lt_of_lt_of_le (hi.moves i h1) h.nextId
  · rw [hk] at h1
    exact Nat.lt_of_lt_of_le (hi.focus i h1) h.nextId

theorem Apart.focused (h : Apart w w') (hi : w.Issued) (hf : w.Focused) : w'.Focused := by
  obtain ⟨hm, hk⟩ := focus_of_keyboard h.keyboard
  intro i hl
  rw [hm, hk]
  rcases h.alive i hl with h1 | h1
  · exact hf i h1
  · -- the new surface neither has the keyboard nor is remembered
    constructor
    · intro h2
      exact absurd h1 (Nat.ne_of_lt (hi.moves i h2))
    · intro h2
      exact absurd h1 (Nat.ne_of_lt (hi.focus i h2))

theorem createSurface_apart (w : World) (client : ℕ) (texSize : ℕ × ℕ) :
    Apart w (w.createSurface client texSize) := by
  obtain ⟨l, S, h1, h2⟩ := w.createSurface_eq client texSize
  rw [h1]
  refine ⟨fun i hi => ?_, Nat.le_succ _, rfl⟩
  by_cases hin : i = w.nextId
  · exact .inr hin
  · have h3 := congrArg Option.isSome (congrFun h2 i)
    rw [Arena.set_of_ne _ _ hin] at h3
    simp only [Arena.mapAll_apply, Option.isSome_map] at h3
    exact .inl (h3.symm.trans hi)

theorem commitSurface_keyboard (w : World) (i : ℕ) : (w.commitSurface i).keyboard = w.keyboard := by
  have hb (x : Surface) : (w.commitBuffer i x).keyboard = w.keyboard := by
    unfold commitBuffer
    split
    · rfl
    · split
      · rfl
      · simp [keyboard, keyEvents, emit, modifySurface, DeskEvent.isKey]
  have hx (l : List ℕ) : (l.map DeskEvent.xdgConfigure).filter DeskEvent.isKey = [] := by
    simp [DeskEvent.isKey]
  unfold commitSurface
  split
  · rfl
  · next x _ =>
    unfold World.andThen
    split
    · exact hb x
    · refine Eq.trans ?_ (hb x)
      simp only [keyboard, keyEvents, notifyXdg, modifySurface, List.filter_append, hx,
        List.append_nil]

theorem direct_apart (w : World) (client : ℕ) (r : DeskRequest) : Apart w (w.direct client r) := by
  cases r with
  | createSurface texSize => exact createSurface_apart w client texSize
  | attach s b d =>
    exact ⟨fun i hi => .inl ((Arena.modify_isSome ..).symm.trans hi), Nat.le_refl _, rfl⟩
  | commit s =>
    obtain ⟨-, -, -, -, -, -, hn, -⟩ := w.commitSurface_rest s
    refine ⟨fun i hi => .inl ?_, hn.ge, w.commitSurface_keyboard s⟩
    have hl := Arena.isSome_of_mapAll (commitSurface_mapAll (g := fun _ => ()) (fun _ => rfl)
      (fun _ _ => rfl) (fun _ => rfl) w s) i
    exact hl.symm.trans hi
  | getToplevel x =>
    simp only [direct, handle, createToplevel]
    split
    · exact ⟨fun i hi => .inl hi, Nat.le_refl _, rfl⟩
    · exact ⟨fun i hi => .inl ((Arena.modify_isSome ..).symm.trans hi), Nat.le_succ _, rfl⟩
  | setSelection d source =>
    cases source <;> exact ⟨fun i hi => .inl hi, Nat.le_refl _, rfl⟩
  | createWlBuffer b => exact ⟨fun i hi => .inl hi, Nat.le_succ _, rfl⟩
  | getXdgSurface s => exact ⟨fun i hi => .inl hi, Nat.le_succ _, rfl⟩
  | createDataSource => exact ⟨fun i hi => .inl hi, Nat.le_succ _, rfl⟩
  | getDataDevice => exact ⟨fun i hi => .inl hi, Nat.le_succ _, rfl⟩
  | _ => exact ⟨fun i hi => .inl hi, Nat.le_refl _, rfl⟩

theorem destroyResource_apart (w : World) (i : ℕ) : Apart w (w.destroyResource i) := by
  unfold destroyResource
  split
  · exact ⟨fun i hi => .inl hi, Nat.le_refl _, rfl⟩
  · next r _ =>
    cases r.interface with
    | surface =>
      refine ⟨fun j hj => .inl ?_, Nat.le_refl _, rfl⟩
      unfold Live at hj ⊢
      by_cases hji : j = i
      · simp [deleteObject, hji] at hj
      · simpa [deleteObject, hji] using hj
    | _ => exact ⟨fun _ hj => .inl hj, Nat.le_refl _, rfl⟩

theorem directly_apart (w : World) (a : Action) : Apart w (w.directly a) := by
  have refl : Apart w w := ⟨fun i hi => .inl hi, Nat.le_refl _, rfl⟩
  cases a with
  | desk client r =>
    simp only [directly]
    split
    · exact direct_apart w client r
    · exact refl
  | destroy client i =>
    simp only [directly]
    split
    · exact destroyResource_apart w i
    · exact refl
  | _ => exact refl

/-- What the step broadcasts about the keyboard is in order, and a step that broadcasts about it
leaves the same surfaces alive. -/
def Broadcasts (w : World) (a : Action) : Prop :=
  ∃ ms, (w.step a).moves = w.moves ++ ms ∧ Holder.Orderly w.Live w.moves ms ∧
    (ms ≠ [] → (w.step a).Live = w.Live)

theorem Keys.issued (h : Keys w w') (ht : w.Typed) (hi : w.Issued) : w'.Issued := by
  have live {i : ℕ} (hl : w.Live i) : i < w'.nextId :=
    Nat.lt_of_lt_of_le (ht.lt (k := .surface) hl) h.nextId
  obtain ⟨ms, h1, h2⟩ := h.moves
  refine ⟨fun i hm => ?_, fun i hk => ?_⟩
  · rw [h1] at hm
    rcases h2.holds hm with h3 | h3
    · exact Nat.lt_of_lt_of_le (hi.moves i h3) h.nextId
    · exact live h3
  · rcases h.focus i hk with h3 | h3
    · exact Nat.lt_of_lt_of_le (hi.focus i h3) h.nextId
    · exact live h3

theorem step_keyboard (ht : w.Typed) (hi : w.Issued) (hf : w.Focused) (hs : w.stopped = false)
    (a : Action) :
    Broadcasts w a ∧ (w.step a).Issued ∧
      ((w.step a).stopped = false ∨ w.seat.currentSelection = none → (w.step a).Focused) := by
  unfold Broadcasts
  rw [step_of_running hs]
  cases hb : a.isButton with
  | false =>
    have hu : Unkeyed (w.directly a) (w.act a) := by
      have h := act_changes w a
      rw [hb] at h
      exact h.unkeyed
    have hd := directly_apart w a
    refine ⟨⟨[], ?_, trivial, fun h => absurd rfl h⟩, hu.apart.issued (hd.issued hi),
      fun _ => hu.focused (hd.focused hi hf)⟩
    rw [(focus_of_keyboard hu.keyboard).1, (focus_of_keyboard hd.keyboard).1, List.append_nil]
  | true =>
    cases a with
    | mouseButton button isPressed hits =>
      have hk := handleMouseButton_keys hf button isPressed hits
      obtain ⟨ms, h1, h2⟩ := hk.moves
      exact ⟨⟨ms, h1, h2, fun _ => hk.alive⟩, hk.issued ht hi, hk.focused⟩
    | _ => cases hb

/-- No client has set a selection. -/
def NoSelection (as : List Action) : Prop :=
  ∀ client device source, Action.desk client (.setSelection device source) ∉ as

theorem directly_selection {a : Action}
    (ha : ∀ client device source, a ≠ .desk client (.setSelection device source)) :
    (w.directly a).seat.currentSelection = w.seat.currentSelection := by
  cases a with
  | desk client r =>
    simp only [directly]
    split
    · cases r with
      | setSelection d s => exact absurd rfl (ha client d s)
      | createSurface texSize =>
        obtain ⟨l, S, h1, -⟩ := w.createSurface_eq client texSize
        simp only [direct, handle, h1]
        rfl
      | commit s => exact congrArg ServerSeat.currentSelection (w.commitSurface_rest s).2.2.1
      | getToplevel x =>
        simp only [direct, handle, createToplevel]
        split <;> rfl
      | _ => rfl
    · rfl
  | destroy client i =>
    simp only [directly]
    split
    · unfold destroyResource
      split
      · rfl
      · next r _ => cases r.interface <;> rfl
    · rfl
  | _ => rfl

theorem run_selection {as : List Action} (h : NoSelection as) :
    (run as).seat.currentSelection = none := by
  induction as using List.reverseRecOn with
  | nil => rfl
  | append_singleton as a ih =>
    rw [run_concat]
    have h1 := ih fun c d s hm => h c d s (List.mem_append_left _ hm)
    refine step_keeps (P := fun w => w.seat.currentSelection = none)
      (fun _ _ hc hw => hc.selection_eq.trans hw) ?_ h1
    rw [directly_selection fun c d s he => h c d s (by simp [he]), h1]

theorem run_keyboard (as : List Action) :
    (run as).Issued ∧ ((run as).stopped = false ∨ NoSelection as → (run as).Focused) := by
  induction as using List.reverseRecOn with
  | nil =>
    refine ⟨⟨fun i hi => ?_, fun i hi => ?_⟩, fun _ i hi => ?_⟩
    · cases hi
    · cases hi
    · cases hi
  | append_singleton as a ih =>
    have hno : NoSelection (as ++ [a]) → NoSelection as :=
      fun h c d s hm => h c d s (List.mem_append_left _ hm)
    rw [run_concat]
    cases hs : (run as).stopped with
    | true =>
      rw [step_of_stopped hs]
      exact ⟨ih.1, fun h => ih.2 (h.imp_right hno)⟩
    | false =>
      obtain ⟨-, h1, h2⟩ := step_keyboard (run_typed as) ih.1 (ih.2 (.inl hs)) hs a
      exact ⟨h1, fun h => h2 (h.imp_right fun hn => run_selection (hno hn))⟩

end Moves

/-- The server remembers the live surface that has been entered and not left. -/
structure Remembers (w : World) : Prop where
  surface : ∀ i, w.Live i →
    (Holder.holds w.moves i = true ↔ w.surfaces.lock w.seat.keyboardFocusedSurface = some i)
  client : ∀ client, w.isFocusedClient client = true ↔
    ∃ i, w.Live i ∧ Holder.holds w.moves i = true ∧ w.clientOf (.surface i) = some client

theorem Focused.remembers {w : World} (h : w.Focused) : w.Remembers := by
  have hs (i : ℕ) (hi : w.Live i) : Holder.holds w.moves i = true ↔
      w.surfaces.lock w.seat.keyboardFocusedSurface = some i := by
    rw [h i hi, Arena.lock_eq_some]
    exact ⟨fun hk => ⟨hk, hi⟩, fun hk => hk.1⟩
  refine ⟨hs, fun client => ?_⟩
  unfold isFocusedClient
  constructor
  · intro hc
    split at hc
    · cases hc
    · next i hl =>
      have hi : w.Live i := (Arena.lock_eq_some.mp hl).2
      exact ⟨i, hi, (hs i hi).mpr hl, of_decide_eq_true hc⟩
  · rintro ⟨i, hi, hh, hc⟩
    rw [(hs i hi).mp hh]
    exact decide_eq_true hc

/-- In every run the enters and leaves are in order, and the server remembers who has the keyboard
as long as it runs; where no client sets a selection, a fault does not change that. -/
theorem keyboard_throughout (as : List Action) :
    Run.Each step Broadcasts init as ∧
      ((run as).stopped = false ∨ NoSelection as → (run as).Remembers) := by
  refine ⟨fun pre a _ => ?_, fun h => ((run_keyboard as).2 h).remembers⟩
  change Broadcasts (run pre) a
  cases hs : (run pre).stopped with
  | true => exact ⟨[], by simp [step_of_stopped hs], trivial, fun h => absurd rfl h⟩
  | false =>
    obtain ⟨h1, h2⟩ := run_keyboard pre
    exact (step_keyboard (run_typed pre) h1 (h2 (.inl hs)) hs a).1

end World
end Yaza
