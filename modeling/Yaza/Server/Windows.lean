import Yaza.Server.Delivery
import Yaza.Server.Focusing
import Yaza.Server.Roles
import Mathlib.Data.List.Nodup

/-! What clients are told of their windows: the events of xdg-shell come in whole sequences, each
`xdg_surface` is configured once on its own, and no toplevel is wrong about being activated. -/
namespace Yaza

/-- What the events of xdg-shell tell whoever reads them: a toplevel that was told something that
no `xdg_surface.configure` has ended yet; what each toplevel was last told, and the `xdg_surface`
that ended it; and how often an `xdg_surface` was configured on its own. A toplevel that is told
something before the last sequence has ended is `broken`. -/
structure Windows where
  latched : Option (ℕ × Bool) := none
  activated : Arena (Bool × ℕ) := Arena.empty
  alone : ℕ → ℕ := fun _ => 0
  broken : Bool := false

namespace Windows

def see (v : Windows) : DeskEvent → Windows
  | .toplevelConfigure t activated =>
    { v with latched := some (t, activated), broken := v.broken || v.latched.isSome }
  | .xdgConfigure x =>
    match v.latched with
    | none => { v with alone := fun j => v.alone j + if j = x then 1 else 0 }
    | some (t, activated) =>
      { v with latched := none, activated := v.activated.set t (activated, x) }
  | _ => v

/-- A sequence that tells a toplevel whether it is activated. -/
def tell (v : Windows) (t : ℕ) (activated : Bool) (x : ℕ) : Windows :=
  { v with activated := v.activated.set t (activated, x) }

/-- More configures of `xdg_surface`s on their own. -/
def add (v : Windows) (n : ℕ → ℕ) : Windows := { v with alone := fun j => v.alone j + n j }

end Windows

/-- The events of xdg-shell. -/
def DeskEvent.isConfigure : DeskEvent → Bool
  | .xdgConfigure _ | .toplevelConfigure _ _ => true
  | _ => false

namespace World

/-- What the clients have been told so far. -/
def windows (w : World) : Windows := w.events.foldl Windows.see {}

/-- No sequence is open or was cut short; no toplevel that is the role of a live surface was last
told something else about its activation than what the keyboard focus says, and what it was told
was ended by its own `xdg_surface`; and each `xdg_surface` was configured on its own once its
surface was committed, and then never again. -/
structure Windowed (w : World) : Prop where
  whole : w.windows.broken = false ∧ w.windows.latched = none
  activated : ∀ i t a x, w.roleObj i = some t → w.windows.activated t = some (a, x) →
    (a = true ↔ w.seat.keyboardFocusedSurface = some i)
  ended : ∀ t a x y, w.windows.activated t = some (a, x) → w.toplevels t = some y →
    y.xdgSurface = x
  alone : ∀ j x, w.xdgSurfaces j = some x →
    w.windows.alone j = if x.isFirstCommit then 0 else 1

section Windows
variable {w : World}

theorem windows_of_events {w' : World} (h : w'.events = w.events) : w'.windows = w.windows := by
  rw [windows, windows, h]

theorem windows_append {w' : World} {l : List DeskEvent} (h : w'.events = w.events ++ l) :
    w'.windows = l.foldl Windows.see w.windows := by rw [windows, h, List.foldl_append, windows]

theorem see_other {v : Windows} {e : DeskEvent} (he : e.isConfigure = false) : v.see e = v := by
  cases e <;> first | rfl | cases he

theorem see_others {l : List DeskEvent} (hl : ∀ e ∈ l, e.isConfigure = false) (v : Windows) :
    l.foldl Windows.see v = v := by
  induction l generalizing v with
  | nil => rfl
  | cons e l ih =>
    rw [List.foldl_cons, see_other (hl e List.mem_cons_self)]
    exact ih (fun e he => hl e (List.mem_cons_of_mem _ he)) v

theorem windows_of_others {w' : World} {l : List DeskEvent} (h : w'.events = w.events ++ l)
    (hl : ∀ e ∈ l, e.isConfigure = false) : w'.windows = w.windows := by
  rw [windows_append h, see_others hl]

theorem emit_windows {e : DeskEvent} (he : e.isConfigure = false) :
    (w.emit e).windows = w.windows :=
  windows_of_others (l := [e]) rfl (by simpa using he)

theorem andThen_windows {f : World → World} (hf : ∀ w, (f w).windows = w.windows) :
    (w.andThen f).windows = w.windows := by
  unfold andThen
  split
  · rfl
  · exact hf w

theorem withSeatOf_windows {o : BoundedObject} {k : World → ClientSeat → World}
    (hk : ∀ w x, (k w x).windows = w.windows) : (w.withSeatOf o k).windows = w.windows := by
  unfold withSeatOf withClientSeat
  split
  · rfl
  · split
    · rfl
    · split
      · rfl
      · exact hk _ _

theorem point_windows (w : World) (o : BoundedObject) (c : ObjectCall) :
    (w.point o c).windows = w.windows := by
  refine (withSeatOf_windows fun w x => ?_).trans (windows_of_events rfl)
  split
  · rfl
  · exact emit_windows rfl

theorem leave_windows (w : World) (o : BoundedObject) : (w.leave o).windows = w.windows :=
  (andThen_windows fun w => point_windows w o _).trans (point_windows w o _)

theorem createOffer_windows (w : World) (device source : ℕ) :
    (w.createOffer device source).windows = w.windows := by
  rcases createOffer_cases w device source with h | ⟨r, x, -, -, h⟩
  · rw [h]
    rfl
  · rw [h]
    exact windows_of_others (l := [.dataOffer device w.nextId x.mimeTypes,
      .selection device (some w.nextId)]) rfl (by simp [DeskEvent.isConfigure])

theorem sendSelection_windows (w : World) (d : ℕ) : (w.sendSelection d).windows = w.windows := by
  unfold sendSelection
  split
  · exact emit_windows rfl
  · split
    · rfl
    · split
      · rfl
      · exact createOffer_windows w d _

theorem sendSelections_windows (w : World) (ds : List ℕ) :
    (w.sendSelections ds).windows = w.windows := by
  induction ds generalizing w with
  | nil => rfl
  | cons d ds ih =>
    exact (ih _).trans (andThen_windows fun w => sendSelection_windows w d)

theorem selectFor_windows (w : World) (o : BoundedObject) :
    (w.selectFor o).windows = w.windows := by
  cases o with
  | surface i => rfl
  | app b => exact withSeatOf_windows fun w x => sendSelections_windows w _

theorem leaveFocused_windows (w : World) : w.leaveFocused.windows = w.windows := by
  unfold leaveFocused
  split
  · rfl
  · exact leave_windows w _

theorem setFocusedObj_windows (w : World) (o : BoundedObject) :
    (w.setFocusedObj o).windows = w.windows := by
  unfold setFocusedObj
  split
  · rfl
  · refine (andThen_windows fun w => (andThen_windows fun w => ?_).trans
      (selectFor_windows w o)).trans (leaveFocused_windows w)
    exact (point_windows _ o _).trans (windows_of_events rfl)

theorem focusOn_windows (w : World) (o : BoundedObject) (distance : ℚ) :
    (w.focusOn o distance).windows = w.windows := by
  refine (andThen_windows fun w => (andThen_windows fun w => (andThen_windows fun w => ?_).trans
    (point_windows w o _)).trans (point_windows w o _)).trans (setFocusedObj_windows w o)
  exact windows_of_events rfl

theorem focusNothing_windows (w : World) : w.focusNothing.windows = w.windows :=
  (andThen_windows fun w => windows_of_events (setSurfaceAsCursor_events
    { w with seat.focusedObj := none } none (0, 0))).trans (leaveFocused_windows w)

theorem checkIntersection_windows (w : World) (hits : Hits) :
    (w.checkIntersection hits).windows = w.windows := by
  unfold checkIntersection
  split
  · exact (focusOn_windows _ _ _).trans (windows_of_events rfl)
  · exact (focusNothing_windows _).trans (windows_of_events rfl)

theorem handleMouseWheel_windows (w : World) (amount : ℚ) :
    (w.handleMouseWheel amount).windows = w.windows := by
  unfold handleMouseWheel
  split
  · rfl
  · exact (andThen_windows fun w => point_windows w _ _).trans (point_windows w _ _)

theorem requestStartMove_windows (w : World) (client : ℕ) :
    (w.requestStartMove client).windows = w.windows := by
  unfold requestStartMove
  split
  · rfl
  · split
    · refine (andThen_windows fun w => ?_).trans (leave_windows w _)
      exact windows_of_events rfl
    · rfl

theorem moveRelPointing_windows (w : World) (polar azimuthal : ℚ) (hits : Hits) :
    (w.moveRelPointing polar azimuthal hits).windows = w.windows := by
  refine (andThen_windows fun w => windows_of_events (moveCursor_events w)).trans ?_
  cases w.seat.objState with
  | default => exact (checkIntersection_windows _ hits).trans (windows_of_events rfl)
  | moving => exact windows_of_events (dragFocused_events _ _ _)

end Windows

/-- The keyboard and the objects of xdg-shell stay, but surfaces may lose their roles. -/
structure Aloof (w w' : World) : Prop where
  focus : w'.seat.keyboardFocusedSurface = w.seat.keyboardFocusedSurface
  roles : ∀ i t, w'.roleObj i = some t → w.roleObj i = some t
  toplevels : w'.toplevels = w.toplevels
  xdgSurfaces : w'.xdgSurfaces = w.xdgSurfaces
  nextId : w.nextId ≤ w'.nextId

section Aloof
variable {w w' w'' : World}

theorem Aloof.refl (w : World) : Aloof w w := ⟨rfl, fun _ _ h => h, rfl, rfl, Nat.le_refl _⟩

theorem Aloof.trans (h : Aloof w w') (h' : Aloof w' w'') : Aloof w w'' where
  focus := h'.focus.trans h.focus
  roles := fun i t hi => h.roles i t (h'.roles i t hi)
  toplevels := h'.toplevels.trans h.toplevels
  xdgSurfaces := h'.xdgSurfaces.trans h.xdgSurfaces
  nextId := h.nextId.trans h'.nextId

theorem roleObj_of_core {w w' : World}
    (h : w'.surfaces.mapAll Surface.core = w.surfaces.mapAll Surface.core) (i : ℕ) :
    w'.roleObj i = w.roleObj i := by
  have h1 := congrFun h i
  simp only [Arena.mapAll_apply] at h1
  unfold roleObj
  cases hx : w'.surfaces i with
  | none =>
    rw [hx, Option.map_none, eq_comm, Option.map_eq_none_iff] at h1
    rw [h1]
  | some x =>
    rw [hx] at h1
    obtain ⟨y, hy, hyx⟩ := Option.map_eq_some_iff.mp h1.symm
    simp only [Surface.core, Prod.mk.injEq] at hyx
    rw [hy]
    exact hyx.2.2.2.1.symm

theorem Change.aloof (h : Change false w w') : Aloof w w' := by
  cases h with
  | other hd hk hg =>
    simp only [desk, Prod.mk.injEq] at hd
    exact ⟨(Prod.mk.inj hk).1, fun i t hi => roleObj_of_core hd.1 i ▸ hi, hd.2.2.2.1, hd.2.2.1,
      hg.nextId⟩
  | focus h => cases h
  | expire => exact ⟨rfl, fun _ _ h => h, rfl, rfl, Nat.le_refl _⟩
  | raise i =>
    obtain ⟨l, S, h1, h2⟩ := raiseSurfaceTop_eq w i
    rw [h1]
    exact ⟨rfl, fun i t hi => (roleObj_of_shape h2 i).symm.trans hi, rfl, rfl, Nat.le_refl _⟩
  | offer d s =>
    rcases createOffer_cases w d s with h1 | ⟨r, x, -, -, h1⟩
    · rw [h1]
      exact ⟨rfl, fun _ _ h => h, rfl, rfl, Nat.le_refl _⟩
    · rw [h1]
      exact ⟨rfl, fun _ _ h => h, rfl, rfl, Nat.le_succ _⟩
  | cursor i =>
    refine ⟨rfl, fun j t hj => ?_, rfl, rfl, Nat.le_refl _⟩
    unfold roleObj modifySurface at hj
    by_cases hji : j = i
    · subst hji
      cases hx : w.surfaces j <;> simp [hx, Surface.setRole] at hj
    · simpa [roleObj, hji] using hj

theorem Changes.aloof (h : Changes false w w') : Aloof w w' := by
  induction h with
  | refl => exact .refl w
  | tail _ hc ih => exact ih.trans hc.aloof

end Aloof

/-- What holds of the windows between the steps. -/
structure Fitted (w : World) : Prop extends Windowed w where
  unique : ∀ i j t, w.roleObj i = some t → w.roleObj j = some t → i = j
  role_lt : ∀ i t, w.roleObj i = some t → t < w.nextId
  activated_lt : ∀ t, (w.windows.activated t).isSome → t < w.nextId
  alone_lt : ∀ j, w.nextId ≤ j → w.windows.alone j = 0

section Fitted
variable {w w' : World}

/-- A step that says nothing of windows; it may give one surface a new toplevel, and make a new
`xdg_surface`. -/
theorem Fitted.keep (h : Fitted w) (hw : w'.windows = w.windows)
    (hf : w'.seat.keyboardFocusedSurface = w.seat.keyboardFocusedSurface) {s : ℕ}
    (hr : ∀ i t, w'.roleObj i = some t →
      w.roleObj i = some t ∨ i = s ∧ t = w.nextId ∧ t < w'.nextId)
    (ht : ∀ t y, w'.toplevels t = some y → w.toplevels t = some y ∨ t = w.nextId)
    (hx : ∀ j x, w'.xdgSurfaces j = some x →
      w.xdgSurfaces j = some x ∨ j = w.nextId ∧ x.isFirstCommit = true)
    (hn : w.nextId ≤ w'.nextId) : Fitted w' where
  whole := hw ▸ h.whole
  activated := fun i t a x hi ha => by
    rw [hw] at ha
    rw [hf]
    rcases hr i t hi with hi | ⟨-, rfl, -⟩
    · exact h.activated i t a x hi ha
    · exact absurd (h.activated_lt _ (by simp [ha])) (Nat.lt_irrefl _)
  ended := fun t a x y ha hy => by
    rw [hw] at ha
    rcases ht t y hy with hy | rfl
    · exact h.ended t a x y ha hy
    · exact absurd (h.activated_lt _ (by simp [ha])) (Nat.lt_irrefl _)
  alone := fun j x hj => by
    rw [hw]
    rcases hx j x hj with hj | ⟨rfl, hf⟩
    · exact h.alone j x hj
    · rw [h.alone_lt _ (Nat.le_refl _), if_pos hf]
  unique := fun i j t hi hj => by
    rcases hr i t hi with hi | ⟨rfl, rfl, -⟩ <;> rcases hr j _ hj with hj | ⟨rfl, ht, -⟩
    · exact h.unique i j t hi hj
    · exact absurd (ht ▸ h.role_lt i t hi) (Nat.lt_irrefl _)
    · exact absurd (h.role_lt j _ hj) (Nat.lt_irrefl _)
    · rfl
  role_lt := fun i t hi => by
    rcases hr i t hi with hi | ⟨-, -, ht⟩
    · exact Nat.lt_of_lt_of_le (h.role_lt i t hi) hn
    · exact ht
  activated_lt := fun t ha => Nat.lt_of_lt_of_le (h.activated_lt t (hw ▸ ha)) hn
  alone_lt := fun j hj => by
    rw [hw]
    exact h.alone_lt j (hn.trans hj)

theorem Fitted.aloof (h : Fitted w) (ha : Aloof w w') (hw : w'.windows = w.windows) : Fitted w' :=
  h.keep (s := 0) hw ha.focus (fun i t hi => .inl (ha.roles i t hi))
    (fun _ _ hy => .inl (ha.toplevels ▸ hy)) (fun _ _ hx => .inl (ha.xdgSurfaces ▸ hx)) ha.nextId

end Fitted

/-- The role object of the surface is told whether it is activated, if there is one. -/
structure Advises (i : ℕ) (activated : Bool) (w w' : World) : Prop where
  aloof : Aloof w w'
  none : w.roleObj i = none → w'.windows = w.windows
  some : ∀ t, w.roleObj i = some t → ∃ x, w.toplevels t = some ⟨x⟩ ∧
    w'.windows = w.windows.tell t activated x

section Focus
variable {w w' w'' : World} {i : ℕ} {a : Bool}

theorem withSeatOf_aloof {o : BoundedObject} {k : World → ClientSeat → World}
    (hk : ∀ w x, Aloof w (k w x)) : Aloof w (w.withSeatOf o k) := by
  have same {w' : World} (hs : w'.surfaces = w.surfaces) (hx : w'.xdgSurfaces = w.xdgSurfaces)
      (ht : w'.toplevels = w.toplevels) (hn : w'.nextId = w.nextId)
      (hf : w'.seat.keyboardFocusedSurface = w.seat.keyboardFocusedSurface) : Aloof w w' :=
    ⟨hf, fun i t hi => by rwa [roleObj, hs] at hi, ht, hx, hn.ge⟩
  unfold withSeatOf withClientSeat
  split
  · exact same rfl rfl rfl rfl rfl
  · split
    · exact same rfl rfl rfl rfl rfl
    · split
      · exact same rfl rfl rfl rfl rfl
      · refine Aloof.trans (?_ : Aloof w (w.logLookup _ _ _)) (hk _ _)
        exact same rfl rfl rfl rfl rfl

theorem emit_aloof (w : World) (e : DeskEvent) : Aloof w (w.emit e) :=
  ⟨rfl, fun _ _ h => h, rfl, rfl, Nat.le_refl _⟩

theorem Advises.trans (h : Advises i a w w') (ha : Aloof w' w'') (hw : w''.windows = w'.windows) :
    Advises i a w w'' where
  aloof := h.aloof.trans ha
  none := fun hi => hw.trans (h.none hi)
  some := fun t hi => by
    rw [hw]
    exact h.some t hi

theorem see_sequence {v : Windows} (hb : v.latched = none) (t x : ℕ) (activated : Bool) :
    [DeskEvent.toplevelConfigure t activated, .xdgConfigure x].foldl Windows.see v =
      v.tell t activated x := by
  cases v
  cases hb
  simp [Windows.see, Windows.tell]

theorem setActivated_advises (hf : w.windows.latched = none) {t : ℕ} (hi : w.roleObj i = some t)
    (hr : (w.setActivated t a).stopped = false) : Advises i a w (w.setActivated t a) := by
  unfold setActivated at hr ⊢
  split at hr
  · simp only [crash_stopped] at hr
    cases hr
  · next y hy =>
    split at hr
    · next hx =>
      simp only [hx, if_true]
      refine ⟨⟨rfl, fun _ _ h => h, rfl, rfl, Nat.le_refl _⟩, fun hn => ?_, fun t' ht' => ?_⟩
      · rw [hi] at hn
        cases hn
      · rw [hi] at ht'
        cases ht'
        refine ⟨y.xdgSurface, hy, ?_⟩
        rw [windows_append (w := w) (l := [.toplevelConfigure t a, .xdgConfigure y.xdgSurface])
          (by simp [emit]), see_sequence hf]
    · simp only [crash_stopped] at hr
      cases hr

theorem onUnfocus_advises (h : Fitted w) (hr : (w.onUnfocus i).stopped = false) :
    Advises i false w (w.onUnfocus i) := by
  cases hi : w.roleObj i with
  | none =>
    have he : w.onUnfocus i = w := by
      simp only [onUnfocus, show (w.surfaces i).bind _ = none from hi]
    rw [he]
    exact ⟨.refl w, fun _ => rfl, fun t ht => absurd (hi.symm.trans ht) (by simp)⟩
  | some t =>
    have he : w.onUnfocus i = w.setActivated t false := by
      simp only [onUnfocus, show (w.surfaces i).bind _ = some t from hi]
    rw [he] at hr ⊢
    exact setActivated_advises h.whole.2 hi hr

theorem onFocus_advises (h : Fitted w) (hr : (w.onFocus i).stopped = false) :
    Advises i true w (w.onFocus i) := by
  cases hi : w.roleObj i with
  | none =>
    have he : w.onFocus i = w := by simp only [onFocus, show (w.surfaces i).bind _ = none from hi]
    rw [he]
    exact ⟨.refl w, fun _ => rfl, fun t ht => absurd (hi.symm.trans ht) (by simp)⟩
  | some t =>
    have he : w.onFocus i = (w.raiseSurfaceTop i).setActivated t true := by
      simp only [onFocus, show (w.surfaces i).bind _ = some t from hi]
    obtain ⟨l, S, h1, h2⟩ := raiseSurfaceTop_eq w i
    have ha : Aloof w (w.raiseSurfaceTop i) := Change.aloof (.raise i)
    have hw : (w.raiseSurfaceTop i).windows = w.windows := by rw [h1]; rfl
    have hi' : (w.raiseSurfaceTop i).roleObj i = some t := by
      rw [h1]
      exact (roleObj_of_shape h2 i).trans hi
    rw [he] at hr ⊢
    have ht := setActivated_advises (hw ▸ h.whole.2) hi' hr
    obtain ⟨x, hx, hxw⟩ := ht.some t hi'
    refine ⟨ha.trans ht.aloof, fun hn => absurd (hi.symm.trans hn) (by simp), fun t' ht' => ?_⟩
    rw [hi] at ht'
    cases ht'
    exact ⟨x, ha.toplevels ▸ hx, by rw [hxw, hw]⟩

/-- What the toplevel of a surface was told last. -/
theorem advises_told (ht : Advises i a w w') (h : Fitted w) {j t x : ℕ} {b : Bool}
    (hj : w.roleObj j = some t) (hb : w'.windows.activated t = some (b, x)) :
    j = i ∧ b = a ∨ j ≠ i ∧ w.windows.activated t = some (b, x) := by
  cases hi : w.roleObj i with
  | none =>
    refine .inr ⟨fun he => ?_, ht.none hi ▸ hb⟩
    rw [he, hi] at hj
    cases hj
  | some t' =>
    obtain ⟨y, -, hw⟩ := ht.some t' hi
    simp only [hw, Windows.tell, Arena.set_apply] at hb
    split at hb
    · next he =>
      subst he
      exact .inl ⟨h.unique j i t hj hi, (Prod.mk.inj (Option.some.inj hb)).1.symm⟩
    · next hne =>
      refine .inr ⟨fun he => hne ?_, hb⟩
      rw [he, hi] at hj
      exact (Option.some.inj hj).symm

/-- Only the toplevel in the role of the surface is told. -/
theorem advises_others (ht : Advises i a w w') {t x : ℕ} {b : Bool}
    (hb : w'.windows.activated t = some (b, x)) :
    w.windows.activated t = some (b, x) ∨ w.roleObj i = some t ∧ w.toplevels t = some ⟨x⟩ := by
  cases hi : w.roleObj i with
  | none => exact .inl (ht.none hi ▸ hb)
  | some t' =>
    obtain ⟨y, hy, hw⟩ := ht.some t' hi
    simp only [hw, Windows.tell, Arena.set_apply] at hb
    split at hb
    · next he =>
      subst he
      cases hb
      exact .inr ⟨rfl, hy⟩
    · exact .inl hb

theorem advises_same (ht : Advises i a w w') :
    w'.windows.broken = w.windows.broken ∧ w'.windows.latched = w.windows.latched ∧
      w'.windows.alone = w.windows.alone := by
  cases hi : w.roleObj i with
  | none =>
    rw [ht.none hi]
    exact ⟨rfl, rfl, rfl⟩
  | some t =>
    obtain ⟨x, -, hw⟩ := ht.some t hi
    rw [hw]
    exact ⟨rfl, rfl, rfl⟩

/-- The keyboard changes hands once the toplevel is told. -/
theorem Fitted.refocus (h : Fitted w) (ht : Advises i a w w') {f : Option ℕ}
    (ha : a = true ↔ f = some i)
    (ho : ∀ j t, j ≠ i → w.roleObj j = some t →
      (w.seat.keyboardFocusedSurface = some j ↔ f = some j)) :
    Fitted { w' with seat.keyboardFocusedSurface := f } := by
  have roles (j t : ℕ) (hj : w'.roleObj j = some t) : w.roleObj j = some t := ht.aloof.roles j t hj
  obtain ⟨hbroken, hlatched, halone⟩ := advises_same ht
  exact {
    whole := ⟨hbroken.trans h.whole.1, hlatched.trans h.whole.2⟩
    activated := fun j t b x hj hb => by
      rcases advises_told ht h (roles j t hj) hb with ⟨rfl, rfl⟩ | ⟨hne, hb⟩
      · exact ha
      · exact (h.activated j t b x (roles j t hj) hb).trans (ho j t hne (roles j t hj))
    ended := fun t b x y hb hy => by
      have hy : w.toplevels t = some y := ht.aloof.toplevels ▸ hy
      rcases advises_others ht hb with hb | ⟨-, hx⟩
      · exact h.ended t b x y hb hy
      · rw [hx] at hy
        cases hy
        rfl
    alone := fun j x hj => (congrFun halone j).trans (h.alone j x (ht.aloof.xdgSurfaces ▸ hj))
    unique := fun j k t hj hk => h.unique j k t (roles j t hj) (roles k t hk)
    role_lt := fun j t hj => Nat.lt_of_lt_of_le (h.role_lt j t (roles j t hj)) ht.aloof.nextId
    activated_lt := fun t hb => by
      obtain ⟨⟨b, x⟩, hb⟩ := Option.isSome_iff_exists.mp hb
      refine Nat.lt_of_lt_of_le ?_ ht.aloof.nextId
      rcases advises_others ht hb with hb | ⟨hi, -⟩
      · exact h.activated_lt t (by simp [hb])
      · exact h.role_lt i t hi
    alone_lt := fun j hj => (congrFun halone j).trans (h.alone_lt j (ht.aloof.nextId.trans hj)) }

theorem andThen_goes {f : World → World} (h : (w.andThen f).stopped = false) :
    w.stopped = false ∧ w.andThen f = f w := ⟨(andThen_running_iff.mp h).1, andThen_of_running h⟩

/-- `try_leave_keyboard`, when it goes through. -/
theorem tryLeaveKeyboard_fitted (h : Fitted w) (hr : w.tryLeaveKeyboard.stopped = false) :
    Fitted w.tryLeaveKeyboard ∧
      w.tryLeaveKeyboard.surfaces.lock w.tryLeaveKeyboard.seat.keyboardFocusedSurface = none := by
  cases hl : w.surfaces.lock w.seat.keyboardFocusedSurface with
  | none =>
    have he : w.tryLeaveKeyboard = w := by simp only [tryLeaveKeyboard, hl]
    rw [he]
    exact ⟨h, hl⟩
  | some i =>
    have hi := (Arena.lock_eq_some.mp hl).1
    simp only [tryLeaveKeyboard, hl] at hr ⊢
    have h1 := andThen_goes hr
    rw [h1.2] at hr ⊢
    have h2 := andThen_goes hr
    rw [h2.2]
    have ht := (onUnfocus_advises h h1.1).trans
      (withSeatOf_aloof (o := .surface i) fun w x => emit_aloof w (.keyboardLeave x.keyboards i))
      (withSeatOf_windows fun w x => emit_windows rfl)
    refine ⟨h.refocus ht (by simp) fun j t hj _ => ?_, rfl⟩
    simp [hi, Ne.symm hj]

theorem enterKeyboard_aloof (w : World) (i : ℕ) : Aloof w (w.enterKeyboard i) :=
  withSeatOf_aloof fun w _ =>
    (emit_aloof w _).trans (sendSelections_effects (k := false) _ _).changes.aloof

theorem enterKeyboard_windows (w : World) (i : ℕ) : (w.enterKeyboard i).windows = w.windows :=
  withSeatOf_windows fun _ _ => (sendSelections_windows _ _).trans (emit_windows rfl)

/-- `set_keyboard_focused_surface`, when it goes through. -/
theorem setKeyboardFocusedSurface_fitted (h : Fitted w)
    (hr : (w.setKeyboardFocusedSurface i).stopped = false) :
    Fitted (w.setKeyboardFocusedSurface i) := by
  unfold setKeyboardFocusedSurface at hr ⊢
  split at hr
  · next hl =>
    rw [if_pos hl]
    exact h
  · next hl =>
    rw [if_neg hl]
    have h1 := andThen_goes hr
    rw [h1.2] at hr ⊢
    obtain ⟨hf, hn⟩ := tryLeaveKeyboard_fitted h h1.1
    have h2 := andThen_goes hr
    rw [h2.2] at hr ⊢
    have h3 := andThen_goes hr
    rw [h3.2]
    have ht := (onFocus_advises hf h2.1).trans (enterKeyboard_aloof _ i)
      (enterKeyboard_windows _ i)
    refine hf.refocus ht (by simp) fun j t hj hjt => ?_
    -- whoever had the keyboard is dead, or has lost it
    have h4 : w.tryLeaveKeyboard.seat.keyboardFocusedSurface ≠ some j := fun hk => by
      obtain ⟨x, hx, -⟩ := Option.bind_eq_some_iff.mp hjt
      have h5 := Arena.lock_eq_some.mpr
        ⟨hk, show (w.tryLeaveKeyboard.surfaces j).isSome by simp [hx]⟩
      rw [hn] at h5
      cases h5
    simp [h4, Ne.symm hj]

theorem pressed_fitted (h : Fitted w) {o : BoundedObject} {isPressed : Bool}
    (hr : (w.pressed o isPressed).stopped = false) : Fitted (w.pressed o isPressed) := by
  cases o with
  | app b => exact h
  | surface i =>
    simp only [pressed] at hr ⊢
    split at hr
    · next hp =>
      rw [if_pos hp]
      exact setKeyboardFocusedSurface_fitted h hr
    · next hp =>
      rw [if_neg hp]
      exact h

theorem point_fitted (h : Fitted w) (o : BoundedObject) (c : ObjectCall) :
    Fitted (w.point o c) :=
  h.aloof (point_effects (k := false) (t := false) w o c).changes.aloof (point_windows w o c)

theorem handleMouseButton_fitted (h : Fitted w) {b : UInt32} {isPressed : Bool} {hits : Hits}
    (hr : (w.handleMouseButton b isPressed hits).stopped = false) :
    Fitted (w.handleMouseButton b isPressed hits) := by
  by_cases hm : w.seat.objState = .moving ∧ isPressed = false
  · simp only [handleMouseButton, if_pos hm]
    exact h.aloof (endMove_effects (k := false) w hits).changes.aloof
      ((checkIntersection_windows _ hits).trans (windows_of_events rfl))
  · simp only [handleMouseButton, if_neg hm] at hr ⊢
    cases ho : w.lock w.seat.focusedObj with
    | some o =>
      simp only [ho] at hr ⊢
      have h1 := andThen_goes hr
      rw [h1.2]
      have h2 := andThen_goes h1.1
      have h3 : Fitted (w.button o b isPressed) := by
        rw [button, h2.2]
        exact pressed_fitted (point_fitted h o _) (h2.2 ▸ h1.1)
      exact point_fitted h3 o _
    | none =>
      cases isPressed with
      | true =>
        simp only [ho, if_true] at hr ⊢
        exact (tryLeaveKeyboard_fitted h hr).1
      | false => exact h

end Focus

section Requests
variable {w : World}

theorem modifySurface_aloof (w : World) (i : ℕ) {f : Surface → Surface}
    (hf : ∀ x, (f x).roleObj = x.roleObj) : Aloof w (w.modifySurface i f) :=
  ⟨rfl, fun j _ hj => (roleObj_modify hf j).symm.trans hj, rfl, rfl, Nat.le_refl _⟩

/-- `xdg_surface`s that are configured while no sequence is open. -/
theorem see_alone {v : Windows} (hv : v.latched = none) (l : List ℕ) :
    (l.map DeskEvent.xdgConfigure).foldl Windows.see v = v.add fun j => l.count j := by
  induction l generalizing v with
  | nil => rfl
  | cons x l ih =>
    have h1 : v.see (.xdgConfigure x) = v.add fun j => if j = x then 1 else 0 := by
      simp only [Windows.see, hv, Windows.add]
    rw [List.map_cons, List.foldl_cons, h1, ih (v := v.add _) hv]
    refine congrArg (fun n : ℕ → ℕ => ({ v with alone := n } : Windows)) (funext fun j => ?_)
    simp only [Windows.add]
    rw [List.count_cons]
    by_cases hj : j = x
    · subst hj
      simp only [if_true, beq_self_eq_true]
      omega
    · simp [hj, Ne.symm hj]

/-- The `xdg_surface`s that a commit of the surface configures. -/
theorem count_firstCommit (w : World) (hx : ∀ j, (w.xdgSurfaces j).isSome → j < w.nextId)
    (i j : ℕ) :
    ((List.range w.nextId).filter fun j => (w.xdgSurfaces j).any (firstCommit i)).count j =
      if (w.xdgSurfaces j).any (firstCommit i) then 1 else 0 := by
  split
  · next hj =>
    rw [List.count_filter (p := fun j => (w.xdgSurfaces j).any (firstCommit i)) hj]
    exact List.count_eq_one_of_mem List.nodup_range
      (List.mem_range.mpr (hx j (Option.isSome_of_any hj)))
  · next hj => exact List.count_eq_zero.mpr fun hm => hj (List.mem_filter.mp hm).2

theorem notifyXdg_fitted (h : Fitted w) (hx : ∀ j, (w.xdgSurfaces j).isSome → j < w.nextId)
    (i : ℕ) : Fitted (w.notifyXdg i) := by
  have hw : (w.notifyXdg i).windows =
      w.windows.add fun j => if (w.xdgSurfaces j).any (firstCommit i) then 1 else 0 := by
    rw [windows_append (w := w) rfl, see_alone h.whole.2]
    exact congrArg w.windows.add (funext (count_firstCommit w hx i))
  exact {
    whole := by
      rw [hw]
      exact h.whole
    activated := by
      rw [hw]
      exact h.activated
    ended := by
      rw [hw]
      exact h.ended
    alone := fun j y hj => by
      rw [hw]
      simp only [notifyXdg, Arena.mapAll_apply, Option.map_eq_some_iff] at hj
      obtain ⟨x, hxj, rfl⟩ := hj
      simp only [Windows.add, h.alone j x hxj, hxj, Option.any_some]
      by_cases hf : firstCommit i x = true
      · have h1 : x.isFirstCommit = true := by
          simp only [firstCommit, Bool.and_eq_true] at hf
          exact hf.1
        simp [hf, h1]
      · simp [hf]
    unique := h.unique
    role_lt := h.role_lt
    activated_lt := by
      rw [hw]
      exact h.activated_lt
    alone_lt := fun j hj => by
      rw [hw]
      have h1 : ¬ (w.xdgSurfaces j).any (firstCommit i) = true := fun hy =>
        absurd (hx j (Option.isSome_of_any hy)) (Nat.not_lt_of_le hj)
      simp only [Windows.add, h.alone_lt j hj, if_neg h1] }

theorem roleObj_of_fixed {x y : Surface} (h : y.fixed = x.fixed) : y.roleObj = x.roleObj :=
  (Prod.mk.inj (Prod.mk.inj h).2).1

theorem commitBuffer_aloof (w : World) (i : ℕ) (x : Surface) : Aloof w (w.commitBuffer i x) := by
  unfold commitBuffer
  split
  · exact modifySurface_aloof w i fun y => roleObj_of_fixed y.commitOffset_fixed
  · split
    · exact (modifySurface_aloof w i fun y => roleObj_of_fixed y.commitOffset_fixed).trans
        (Change.aloof (.other rfl rfl (.same rfl rfl)))
    · next b _ =>
      refine (modifySurface_aloof w i fun y => ?_).trans (emit_aloof _ _)
      exact roleObj_of_fixed ((y.commitOffset.commitBuffer_fixed b).trans y.commitOffset_fixed)

theorem commitSurface_fitted (h : Fitted w) (ht : w.Typed) (i : ℕ) :
    Fitted (w.commitSurface i) := by
  unfold commitSurface
  split
  · exact h.aloof (Change.aloof (.other rfl rfl (.same rfl rfl))) rfl
  · next x _ =>
    have ha := commitBuffer_aloof w i x
    have hw : (w.commitBuffer i x).windows = w.windows := by
      obtain ⟨l, hl, hr⟩ := commitBuffer_sends ht i x
      refine windows_of_others hl fun e he => ?_
      obtain ⟨b, c, rfl, -⟩ := hr e he
      rfl
    have h1 := h.aloof ha hw
    unfold andThen
    split
    · exact h1
    · have h2 := modifySurface_aloof (w.commitBuffer i x) i fun y =>
        roleObj_of_fixed y.commitFrames_fixed
      refine notifyXdg_fitted (h1.aloof h2 rfl) (fun j hj => ?_) i
      refine Nat.lt_of_lt_of_le (ht.lt (k := .xdgSurface) ?_) (ha.trans h2).nextId
      exact (congrArg (fun a : Arena XdgSurface => (a j).isSome)
        (ha.trans h2).xdgSurfaces).symm.trans hj

/-- A new surface has no role. -/
theorem createSurface_fitted (h : Fitted w) (client : ℕ) (texSize : ℕ × ℕ) :
    Fitted (w.createSurface client texSize) := by
  obtain ⟨l, S, h1, h2⟩ := w.createSurface_eq client texSize
  rw [h1]
  refine h.keep (s := 0) rfl rfl (fun i t hi => .inl ?_) (fun _ _ hy => .inl hy)
    (fun _ _ hx => .inl hx) (Nat.le_succ _)
  have hi2 := congrFun h2 i
  obtain ⟨x, hx, hxt⟩ := Option.bind_eq_some_iff.mp
    (show (S i).bind Surface.roleObj = some t from hi)
  by_cases hin : i = w.nextId
  · subst hin
    have hs : x.shape = (none, none, .default, none, texSize) := by simpa [hx] using hi2
    simp only [Surface.shape, Prod.mk.injEq] at hs
    simp [hs.2.2.2.1] at hxt
  · rw [Arena.set_of_ne _ _ hin] at hi2
    obtain ⟨y, hy, hyx⟩ : ∃ y, w.surfaces i = some y ∧ y.shape = x.shape := by
      simpa [hx] using hi2.symm
    simp only [Surface.shape, Prod.mk.injEq] at hyx
    simp [roleObj, hy, hyx.2.2.2.1, hxt]

/-- A new toplevel becomes the role object of the surface, and nobody has told it anything. -/
theorem createToplevel_fitted (h : Fitted w) (client x : ℕ) :
    Fitted (w.createToplevel client x) := by
  unfold createToplevel
  split
  · exact h.aloof (Change.aloof (.other rfl rfl (.same rfl rfl))) rfl
  · next y _ =>
    refine h.keep (s := y.wlSurface) rfl rfl (fun i t hi => ?_) (fun t z hz => ?_)
      (fun _ _ hx => .inl hx) (Nat.le_succ _)
    · have hi : (w.surfaces.modify y.wlSurface (fun s => s.setRole .xdgToplevel w.nextId) i).bind
          Surface.roleObj = some t := hi
      rw [Arena.modify_bind (g := Surface.roleObj) (q := w.nextId) (fun _ => rfl)] at hi
      split at hi
      · next hc =>
        cases hi
        exact .inr ⟨hc.1, rfl, Nat.lt_succ_self _⟩
      · exact .inl hi
    · have hz : w.toplevels.set w.nextId { xdgSurface := x } t = some z := hz
      rw [Arena.set_apply] at hz
      split at hz
      · next ht => exact .inr ht
      · exact .inl hz

theorem direct_fitted (h : Fitted w) (ht : w.Typed) (client : ℕ) (r : DeskRequest) :
    Fitted (w.direct client r) := by
  have new (c : ℕ) (k : DeskInterface) : Aloof w (w.newResource c k) :=
    ⟨rfl, fun _ _ h => h, rfl, rfl, Nat.le_succ _⟩
  cases r with
  | createSurface texSize => exact createSurface_fitted h client texSize
  | attach s b d => exact h.aloof (modifySurface_aloof w s fun _ => rfl) rfl
  | commit s => exact commitSurface_fitted h ht s
  | getXdgSurface s =>
    refine h.keep (s := 0) rfl rfl (fun _ _ hi => .inl hi) (fun _ _ hy => .inl hy)
      (fun j x hx => ?_) (Nat.le_succ _)
    have hx : w.xdgSurfaces.set w.nextId { wlSurface := s } j = some x := hx
    rw [Arena.set_apply] at hx
    split at hx
    · next hj =>
      cases hx
      exact .inr ⟨hj, rfl⟩
    · exact .inl hx
  | getToplevel x => exact createToplevel_fitted h client x
  | createWlBuffer | createDataSource | getDataDevice =>
    exact Fitted.aloof h ⟨rfl, fun _ _ h => h, rfl, rfl, Nat.le_succ _⟩ rfl
  | setSelection d s =>
    cases s with
    | none => exact h.aloof (Change.aloof (.other rfl rfl (.same rfl rfl))) rfl
    | some s => exact h.aloof ⟨rfl, fun _ _ h => h, rfl, rfl, Nat.le_refl _⟩ rfl
  | _ => exact h

theorem destroyResource_fitted (h : Fitted w) (i : ℕ) : Fitted (w.destroyResource i) := by
  cases hr : w.resources i with
  | none =>
    simp only [destroyResource, hr]
    exact h
  | some r =>
    have erase {α : Type} {a : Arena α} {j : ℕ} {x : α} (hj : a.erase i j = some x) :
        a j = some x := by
      rw [Arena.erase_apply] at hj
      split at hj
      · cases hj
      · exact hj
    simp only [destroyResource, hr]
    refine h.keep (s := 0) (windows_of_events ?_) ?_ (fun j t hj => .inl ?_)
      (fun t y hy => .inl ?_) (fun j x hx => .inl ?_) ?_
    · cases r.interface <;> rfl
    · cases r.interface <;> rfl
    · obtain ⟨x, hx, hxt⟩ := Option.bind_eq_some_iff.mp hj
      have : w.surfaces j = some x := by
        cases hi : r.interface <;> rw [hi] at hx <;> first | exact hx | exact erase hx
      simp [roleObj, this, hxt]
    · cases hi : r.interface <;> rw [hi] at hy <;> first | exact hy | exact erase hy
    · cases hi : r.interface <;> rw [hi] at hx <;> first | exact hx | exact erase hx
    · cases r.interface <;> exact Nat.le_refl _

theorem joinSeat_windows (w : World) (client : ℕ) (f : ClientSeat → ClientSeat) :
    (w.joinSeat client f).windows = w.windows := windows_of_events (joinSeat_same w client f).1

/-- What a request does after it has made its objects says nothing of windows. -/
theorem handle_windows (w : World) (client : ℕ) (r : DeskRequest) :
    (w.handle client r).windows = (w.direct client r).windows := by
  cases r with
  | moveToplevel t => exact requestStartMove_windows w client
  | getPointer | getKeyboard | getRay => exact joinSeat_windows _ client _
  | getDataDevice =>
    have he : w.createDataDevice client = (w.joinDevice client).andThen fun u =>
        if u.isFocusedClient client then u.sendSelection w.nextId else u := rfl
    rw [handle, he]
    refine (andThen_windows fun u => ?_).trans (joinSeat_windows _ client _)
    split
    · exact sendSelection_windows u _
    · rfl
  | setCursor p s hotspot => exact windows_of_events (setSurfaceAsCursor_events w s hotspot)
  | accept o mimeType | receive o mimeType =>
    simp only [handle, direct, askSource]
    split
    · rfl
    · split
      · exact emit_windows rfl
      · rfl
  | _ => rfl

theorem frameTimer_windows (w : World) (busyness : ℕ) :
    (w.frameTimer busyness).windows = w.windows := by
  unfold frameTimer
  split
  · refine windows_of_others rfl fun e he => ?_
    obtain ⟨c, -, rfl⟩ := List.mem_map.mp he
    rfl
  · rfl

theorem act_windows {a : Action} (ha : a.isButton = false) :
    (w.act a).windows = (w.directly a).windows := by
  cases a with
  | zwin client r =>
    simp only [act, addBoundedApp]
    split <;> rfl
  | desk client r =>
    simp only [act, directly]
    split
    · exact handle_windows w client r
    · rfl
  | moveBounded client b =>
    simp only [act]
    split
    · exact requestStartMove_windows w client
    · rfl
  | peerDiscover connected =>
    simp only [act, peerDiscover]
    split <;> rfl
  | sessionDisconnect =>
    simp only [act, sessionDisconnect]
    split <;> rfl
  | frameTimer busyness => exact frameTimer_windows w busyness
  | mouseMove polar azimuthal hits => exact moveRelPointing_windows w polar azimuthal hits
  | mouseButton b isPressed hits => cases ha
  | mouseWheel amount => exact handleMouseWheel_windows w amount
  | _ => rfl

theorem directly_fitted (h : Fitted w) (ht : w.Typed) (a : Action) : Fitted (w.directly a) := by
  cases a with
  | desk client r =>
    simp only [directly]
    split
    · exact direct_fitted h ht client r
    · exact h
  | destroy client i =>
    simp only [directly]
    split
    · exact destroyResource_fitted h i
    · exact h
  | _ => exact h

theorem act_fitted (h : Fitted w) (ht : w.Typed) {a : Action}
    (hr : (w.act a).stopped = false) : Fitted (w.act a) := by
  cases hb : a.isButton with
  | false =>
    have hc : Changes false (w.directly a) (w.act a) := hb ▸ act_changes w a
    exact (directly_fitted h ht a).aloof hc.aloof (act_windows hb)
  | true =>
    cases a with
    | mouseButton b isPressed hits => exact handleMouseButton_fitted h hr
    | _ => cases hb

end Requests

theorem init_fitted : Fitted init where
  whole := ⟨rfl, rfl⟩
  activated := fun _ _ _ _ h => by cases h
  ended := fun _ _ _ _ h => by cases h
  alone := fun _ _ h => by cases h
  unique := fun _ _ _ h => by cases h
  role_lt := fun _ _ h => by cases h
  activated_lt := fun _ h => by cases h
  alone_lt := fun _ _ => rfl

theorem step_fitted {w : World} (a : Action)
    (h : w.Typed ∧ (w.stopped = false → Fitted w)) :
    (w.step a).Typed ∧ ((w.step a).stopped = false → Fitted (w.step a)) := by
  refine ⟨step_typed h.1 a, fun hr => ?_⟩
  cases hs : w.stopped with
  | true =>
    rw [step_of_stopped hs, hs] at hr
    cases hr
  | false =>
    rw [step_of_running hs] at hr ⊢
    exact act_fitted (h.2 hs) h.1 hr

/-- In every run, as long as the program runs: the configure events come in whole sequences, each
ended by the `xdg_surface` of its toplevel; what the toplevel of a live surface was last told of
its activation is what the keyboard focus says; and an `xdg_surface` was configured on its own
exactly when a commit of its surface has been seen, and once. -/
theorem windowed_throughout (as : List Action) :
    Run.Always step (fun w => w.stopped = false → Windowed w) init as := fun pre _ hr =>
  ((Run.final_induction (P := fun w => w.Typed ∧ (w.stopped = false → Fitted w))
    ⟨init_typed, fun _ => init_fitted⟩ (fun _ a h => step_fitted a h) pre).2 hr).toWindowed

end World
end Yaza
