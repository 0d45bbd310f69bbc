import Yaza.Server.Offers
import Yaza.Server.Reach
import Yaza.Zwin.Naming

/-! Who is sent what: an event about an object goes to resources of the client of that object, and
the selection is offered only to the client that has the keyboard, or the pointer on its app. -/
namespace Yaza

/-- The resources that the calls on an object are sent to. -/
def BoundedObject.device : BoundedObject → DeskInterface
  | .surface _ => .pointer
  | .app _ => .ray

namespace World

/-- The client has a resource of this interface at the address. -/
def Has (w : World) (client : ℕ) (k : DeskInterface) (i : ℕ) : Prop :=
  w.resources i = some ⟨client, k⟩

/-- Those who get the event are of the client it is about; `R` says which clients may be told of the
selection. -/
def Delivered (R : ℕ → Prop) (w : World) : DeskEvent → Prop
  | .pointing receivers o _ =>
    ∃ c, w.clientOf o = some c ∧ ∀ p ∈ receivers, w.Has c o.device p
  | .keyboardEnter keyboards i | .keyboardLeave keyboards i =>
    ∃ c, w.clientOf (.surface i) = some c ∧ ∀ k ∈ keyboards, w.Has c .keyboard k
  | .dataOffer d o _ => ∃ c, R c ∧ w.Has c .dataDevice d ∧ w.Has c .dataOffer o
  | .selection d o => ∃ c, R c ∧ w.Has c .dataDevice d ∧ ∀ i, o = some i → w.Has c .dataOffer i
  | .bufferRelease b => ∃ c, w.Has c .wlBuffer b
  | .xdgConfigure x => ∃ c, w.Has c .xdgSurface x
  | .toplevelConfigure t _ => ∃ c, w.Has c .xdgToplevel t
  | .sourceTarget s _ | .sourceSend s _ => ∃ c, w.Has c .dataSource s
  | .callbackDone _ => True

/-- The lists of a seat hold resources of its client. -/
structure SeatOf (w : World) (c : ℕ) (x : ClientSeat) : Prop where
  pointers : ∀ p ∈ x.pointers, w.Has c .pointer p
  keyboards : ∀ k ∈ x.keyboards, w.Has c .keyboard k
  dataDevices : ∀ d ∈ x.dataDevices, w.Has c .dataDevice d
  rays : ∀ r ∈ x.rays, w.Has c .ray r

/-- Seats and the entries for them are of the clients they stand for. -/
structure Crewed (w : World) : Prop where
  seat : ∀ i x, w.clientSeats i = some x → ∃ c, w.Has c .seat i ∧ w.SeatOf c x
  entry : ∀ c i, w.seat.clientSeats c = some (some i) → (w.clientSeats i).isSome → w.Has c .seat i
  entry_lt : ∀ c i, w.seat.clientSeats c = some (some i) → i < w.nextId

structure Staffed (w : World) : Prop extends Crewed w where
  typed : w.Typed

section Frame
variable {R : ℕ → Prop} {w w' : World} {c i : ℕ} {k : DeskInterface} {o : BoundedObject}

theorem Has.unique {c' : ℕ} {k' : DeskInterface} (h : w.Has c k i) (h' : w.Has c' k' i) :
    c' = c ∧ k' = k := by
  have := h'.symm.trans h
  simpa using this

/-- The seat that `client_seats[c]` finds. -/
theorem Staffed.found (hs : w.Staffed) {x : ClientSeat}
    (he : w.seat.clientSeats c = some (some i)) (hx : w.clientSeats i = some x) : w.SeatOf c x := by
  obtain ⟨c', hc', hx'⟩ := hs.seat i x hx
  obtain ⟨rfl, -⟩ := Has.unique (hs.entry c i he (by simp [hx])) hc'
  exact hx'

/-- An address that is in use keeps its resource. -/
theorem Effects.resources (h : Effects true true w w') (hi : i < w.nextId) :
    w'.resources i = w.resources i := h.changes.resources hi

theorem Effects.has (h : Effects true true w w') (hs : w.Staffed) (hi : w.Has c k i) :
    w'.Has c k i := (h.resources (hs.typed.fresh.lt hi)).trans hi

/-- A selection that is sent leaves the scene and the seats alone. -/
theorem sendSelection_rest (w : World) (d : ℕ) :
    (w.sendSelection d).scene = w.scene ∧ (w.sendSelection d).seat = w.seat := by
  unfold sendSelection
  split
  · exact ⟨rfl, rfl⟩
  · split
    · exact ⟨rfl, rfl⟩
    · split
      · exact ⟨rfl, rfl⟩
      · next s _ =>
        rcases createOffer_cases w d s with h | ⟨r, x, -, -, h⟩ <;> rw [h] <;> exact ⟨rfl, rfl⟩

theorem moveApp_resources (s : Scene) (b : ℕ) (polar azimuthal : ℚ) :
    (s.step (.moveApp b polar azimuthal)).resources = s.resources := by
  have h1 (s : Scene) (v : ℕ) : (s.commitVirtualObject v).resources = s.resources := by
    have hc := Scene.resources_of_skeleton (Scene.commitState_commits_true s v).skeleton
    have hu := Scene.syncIfSession_voices (s := s.commitState v) (v := v) trivial
      (Scene.span_true _)
    exact (congrArg Scene.resources (Scene.Voices.content hu)).trans hc
  unfold Scene.step
  split
  · rfl
  · simp only [Scene.act, Scene.moveApp]
    split
    · rfl
    · exact h1 _ _

theorem Effect.scene_resources (h : Effect true true w w') :
    w'.scene.resources = w.scene.resources := by
  cases h with
  | raise i =>
    obtain ⟨l, S, h1, -⟩ := raiseSurfaceTop_eq w i
    rw [h1]
  | send _ d => rw [(sendSelection_rest w d).1]
  | dragApp b polar azimuthal => exact moveApp_resources ..
  | _ => rfl

theorem Effects.scene_resources (h : Effects true true w w') :
    w'.scene.resources = w.scene.resources :=
  Path.const (f := fun w => w.scene.resources) (fun _ _ h => h.scene_resources) h

theorem Effect.entry (h : Effect true true w w')
    (he : w'.seat.clientSeats c = some (some i)) : w.seat.clientSeats c = some (some i) := by
  cases h with
  | noSeat client =>
    have he : w.seat.clientSeats.set client none c = some (some i) := he
    by_cases hc : c = client
    · simp [hc] at he
    · rwa [Arena.set_of_ne _ _ hc] at he
  | seat hs =>
    simp only [ServerSeat.held, Prod.mk.injEq] at hs
    rwa [← hs.1]
  | raise i =>
    obtain ⟨l, S, h1, -⟩ := raiseSurfaceTop_eq w i
    rwa [h1] at he
  | send _ d => rwa [(sendSelection_rest w d).2] at he
  | _ => exact he

theorem Effects.entry (h : Effects true true w w')
    (he : w'.seat.clientSeats c = some (some i)) : w.seat.clientSeats c = some (some i) := by
  induction h with
  | refl => exact he
  | tail _ h ih => exact ih (h.entry he)

theorem SeatOf.mono {x : ClientSeat} (h : w.SeatOf c x)
    (hh : ∀ k i, w.Has c k i → w'.Has c k i) : w'.SeatOf c x :=
  ⟨fun p hp => hh _ p (h.pointers p hp), fun p hp => hh _ p (h.keyboards p hp),
    fun p hp => hh _ p (h.dataDevices p hp), fun p hp => hh _ p (h.rays p hp)⟩

/-- No seat comes or goes, and no resource goes. -/
theorem Crewed.mono (hs : w.Crewed) (hc : w'.clientSeats = w.clientSeats)
    (he : ∀ c i, w'.seat.clientSeats c = some (some i) → w.seat.clientSeats c = some (some i))
    (hn : w.nextId ≤ w'.nextId) (hh : ∀ c k i, w.Has c k i → w'.Has c k i) : w'.Crewed where
  seat := fun i x hx => by
    obtain ⟨c, hi, hx⟩ := hs.seat i x (hc ▸ hx)
    exact ⟨c, hh c _ i hi, hx.mono (hh c)⟩
  entry := fun c i h hi => hh c _ i (hs.entry c i (he c i h) (hc ▸ hi))
  entry_lt := fun c i h => Nat.lt_of_lt_of_le (hs.entry_lt c i (he c i h)) hn

theorem Effects.staffed (h : Effects true true w w') (hs : w.Staffed) : w'.Staffed where
  toCrewed := hs.mono (h.sends hs.typed).1.seats (fun _ _ => h.entry) h.changes.framed.nextId
    fun _ _ _ => h.has hs
  typed := h.typed hs.typed

/-- The object is an app, or a surface at an address that is in use. -/
def Known (w : World) : BoundedObject → Prop
  | .surface i => i < w.nextId
  | .app _ => True

theorem Effects.known (h : Effects true true w w') (ho : w.Known o) : w'.Known o := by
  cases o with
  | surface i => exact Nat.lt_of_lt_of_le ho h.changes.framed.nextId
  | app b => trivial

theorem Effects.clientOf (h : Effects true true w w') (ho : w.Known o) :
    w'.clientOf o = w.clientOf o := by
  cases o with
  | surface i => simp only [World.clientOf, h.resources ho]
  | app b => simp only [World.clientOf, h.scene_resources]

theorem known_of_clientOf (hs : w.Staffed) (ho : w.clientOf o = some c) : w.Known o := by
  cases o with
  | surface i =>
    obtain ⟨r, hr, -⟩ := Option.map_eq_some_iff.mp ho
    exact hs.typed.fresh.lt hr
  | app b => trivial

theorem Effects.delivered (h : Effects true true w w') (hs : w.Staffed) {e : DeskEvent}
    (he : w.Delivered R e) : w'.Delivered R e := by
  have client {o : BoundedObject} {c : ℕ} (ho : w.clientOf o = some c) :
      w'.clientOf o = some c := (h.clientOf (known_of_clientOf hs ho)).trans ho
  cases e with
  | callbackDone => trivial
  | pointing receivers o call =>
    obtain ⟨c, ho, hr⟩ := he
    exact ⟨c, client ho, fun p hp => h.has hs (hr p hp)⟩
  | keyboardEnter keyboards i | keyboardLeave keyboards i =>
    obtain ⟨c, ho, hr⟩ := he
    exact ⟨c, client ho, fun p hp => h.has hs (hr p hp)⟩
  | dataOffer d o types =>
    obtain ⟨c, hR, hd, ho⟩ := he
    exact ⟨c, hR, h.has hs hd, h.has hs ho⟩
  | selection d o =>
    obtain ⟨c, hR, hd, ho⟩ := he
    exact ⟨c, hR, h.has hs hd, fun i hi => h.has hs (ho i hi)⟩
  | _ =>
    obtain ⟨c, hc⟩ := he
    exact ⟨c, h.has hs hc⟩

end Frame

/-- Effects of the seat, with all that is sent delivered. -/
structure Posts (R : ℕ → Prop) (w w' : World) : Prop where
  effects : Effects true true w w'
  events : ∃ l, w'.events = w.events ++ l ∧ ∀ e ∈ l, w'.Delivered R e

section Posts
variable {R : ℕ → Prop} {w w' w'' : World} {c i : ℕ} {o : BoundedObject}

theorem Posts.refl (R : ℕ → Prop) (w : World) : Posts R w w := ⟨.refl, [], by simp, by simp⟩

theorem Posts.staffed (h : Posts R w w') (hs : w.Staffed) : w'.Staffed := h.effects.staffed hs

theorem Posts.trans (hs : w.Staffed) (h : Posts R w w') (h' : Posts R w' w'') :
    Posts R w w'' := by
  refine ⟨h.effects.trans h'.effects, ?_⟩
  obtain ⟨l, hl, hd⟩ := h.events
  obtain ⟨l', hl', hd'⟩ := h'.events
  refine ⟨l ++ l', by rw [hl', hl, List.append_assoc], fun e he => ?_⟩
  rcases List.mem_append.mp he with he | he
  · exact h'.effects.delivered (h.staffed hs) (hd e he)
  · exact hd' e he

theorem Posts.andThen {f : World → World} (hs : w.Staffed) (h : Posts R w w')
    (hf : Posts R w' (f w')) : Posts R w (w'.andThen f) := by
  unfold World.andThen
  split
  · exact h
  · exact h.trans hs hf

theorem posts_of_events (h : Effects true true w w') (he : w'.events = w.events) : Posts R w w' :=
  ⟨h, [], by simp [he], by simp⟩

theorem crash_posts (w : World) (f : Fault) : Posts R w (w.crash f) :=
  posts_of_events (.single (.crash f)) rfl

theorem emit_posts {e : DeskEvent} (hp : e.isPlain = true ∨ e.isKey = true)
    (he : w.Delivered R e) : Posts R w (w.emit e) := by
  refine ⟨?_, [e], rfl, fun e' he' => ?_⟩
  · rcases hp with hp | hp
    · exact .single (.emit hp)
    · exact .single (.keyEvent rfl hp)
  · rw [List.mem_singleton.mp he']
    cases e <;> exact he

theorem setActivated_posts (hs : w.Staffed) (t : ℕ) (activated : Bool) :
    Posts R w (w.setActivated t activated) := by
  unfold setActivated
  split
  · exact crash_posts w _
  · next x hx =>
    have h1 : Posts R w (w.emit (.toplevelConfigure t activated)) :=
      emit_posts (.inl rfl) (hs.typed.resource .xdgToplevel t (by simp [holds, hx]))
    refine h1.trans hs ?_
    split
    · next hx' => exact emit_posts (.inl rfl) (hs.typed.resource .xdgSurface _ hx')
    · exact crash_posts _ _

theorem onFocus_posts (hs : w.Staffed) (i : ℕ) : Posts R w (w.onFocus i) := by
  unfold onFocus
  split
  · exact .refl R w
  · have h1 : Posts R w (w.raiseSurfaceTop i) := by
      refine posts_of_events (.single (.raise i)) ?_
      obtain ⟨l, S, h1, -⟩ := raiseSurfaceTop_eq w i
      rw [h1]
    exact h1.trans hs (setActivated_posts (h1.staffed hs) _ _)

theorem onUnfocus_posts (hs : w.Staffed) (i : ℕ) : Posts R w (w.onUnfocus i) := by
  unfold onUnfocus
  split
  · exact .refl R w
  · exact setActivated_posts hs _ _

/-- The selection is sent to a device of a client that may be told of it. -/
theorem sendSelection_posts (hR : R c) {d : ℕ} (hd : w.Has c .dataDevice d) (hs : w.Staffed) :
    Posts R w (w.sendSelection d) := by
  refine ⟨.single (.send rfl d), ?_⟩
  unfold sendSelection
  split
  · refine ⟨[_], rfl, fun e he => ?_⟩
    rw [List.mem_singleton.mp he]
    exact ⟨c, hR, hd, fun i hi => by cases hi⟩
  · split
    · exact ⟨[], by simp [crash], by simp⟩
    · split
      · exact ⟨[], by simp [crash], by simp⟩
      · next s _ =>
        rcases createOffer_cases w d s with h | ⟨r, x, hr, hx, h⟩
        · rw [h]
          exact ⟨[], by simp [crash], by simp⟩
        · obtain rfl : r = ⟨c, .dataDevice⟩ := Option.some.inj (hr.symm.trans hd)
          rw [h]
          have hn : d ≠ w.nextId := Nat.ne_of_lt (hs.typed.fresh.lt hd)
          refine ⟨_, rfl, fun e he => ?_⟩
          have hd' : w.resources.set w.nextId ⟨c, .dataOffer⟩ d = some ⟨c, .dataDevice⟩ := by
            rwa [Arena.set_of_ne _ _ hn]
          rcases List.mem_pair.mp he with rfl | rfl
          · exact ⟨c, hR, hd', Arena.set_self ..⟩
          · refine ⟨c, hR, hd', fun i hi => ?_⟩
            cases hi
            exact Arena.set_self ..

theorem sendSelections_posts (hR : R c) {ds : List ℕ} (hs : w.Staffed)
    (hd : ∀ d ∈ ds, w.Has c .dataDevice d) : Posts R w (w.sendSelections ds) := by
  unfold sendSelections
  induction ds generalizing w with
  | nil => exact .refl R w
  | cons d l ih =>
    have h1 : Posts R w (w.andThen fun w => w.sendSelection d) :=
      Posts.andThen hs (.refl R w) (sendSelection_posts hR (hd d List.mem_cons_self) hs)
    exact h1.trans hs (ih (h1.staffed hs) fun d' hd' =>
      h1.effects.has hs (hd d' (List.mem_cons_of_mem d hd')))

/-- What is done with the seat of the client of an object. -/
theorem withSeatOf_posts (hs : w.Staffed) {f : World → ClientSeat → World}
    (hf : ∀ u, u.Staffed → ∀ c x, w.clientOf o = some c → u.clientOf o = some c →
      u.SeatOf c x → Posts R u (f u x)) : Posts R w (w.withSeatOf o f) := by
  unfold withSeatOf withClientSeat
  split
  · exact crash_posts w _
  · next c hc =>
    split
    · exact posts_of_events (.single (.noSeat c)) rfl
    · next i he =>
      have log (live : Bool) : Posts R w (w.logLookup c (some i) live) :=
        posts_of_events (.single (.log _ _)) rfl
      split
      · exact (log false).trans hs (crash_posts _ _)
      · next x hx =>
        have h1 := log (w.ownsSeat c i)
        have hx' : w.SeatOf c x := hs.found (Option.join_eq_some_iff.mp he) hx
        exact h1.trans hs (hf _ (h1.staffed hs) c x hc hc (hx'.mono fun _ _ h => h))

theorem tryLeaveKeyboard_posts (hs : w.Staffed) : Posts R w w.tryLeaveKeyboard := by
  unfold tryLeaveKeyboard
  split
  · exact .refl R w
  · next i _ =>
    have h1 := onUnfocus_posts (R := R) hs i
    refine h1.andThen hs (Posts.andThen (h1.staffed hs) (withSeatOf_posts (h1.staffed hs) ?_) ?_)
    · exact fun u _ c x _ hc hx => emit_posts (.inr rfl) ⟨c, hc, hx.keyboards⟩
    · exact posts_of_events (.single (.keyFocus rfl none)) rfl

theorem enterKeyboard_posts (hs : w.Staffed)
    (hR : ∀ c, w.clientOf (.surface i) = some c → R c) : Posts R w (w.enterKeyboard i) := by
  refine withSeatOf_posts hs fun u hu c x hc hc' hx => ?_
  have h1 : Posts R u (u.emit (.keyboardEnter x.keyboards i)) :=
    emit_posts (.inr rfl) ⟨c, hc', hx.keyboards⟩
  exact h1.trans hu (sendSelections_posts (hR c hc) (h1.staffed hu) hx.dataDevices)

theorem setKeyboardFocusedSurface_posts (hs : w.Staffed) (hi : i < w.nextId)
    (hR : ∀ c, w.clientOf (.surface i) = some c → R c) :
    Posts R w (w.setKeyboardFocusedSurface i) := by
  unfold setKeyboardFocusedSurface
  split
  · exact .refl R w
  · have h1 := tryLeaveKeyboard_posts (R := R) hs
    have s1 := h1.staffed hs
    have h2 := onFocus_posts (R := R) s1 i
    have s2 := h2.staffed s1
    have hR2 : ∀ c, (w.tryLeaveKeyboard.onFocus i).clientOf (.surface i) = some c → R c := by
      have h12 := h1.effects.trans h2.effects
      rw [Effects.clientOf (o := .surface i) h12 hi]
      exact hR
    have h3 := enterKeyboard_posts s2 hR2
    refine h1.andThen hs (h2.andThen s1 (h3.andThen s2 ?_))
    exact posts_of_events (.single (.keyFocus rfl (some i))) rfl

theorem point_posts (hs : w.Staffed) (o : BoundedObject) (call : ObjectCall) :
    Posts R w (w.point o call) := by
  have h1 : Posts R w { w with calls := w.calls ++ [(o, call)] } :=
    posts_of_events (.single (.log _ _)) rfl
  refine h1.trans hs (withSeatOf_posts (h1.staffed hs) fun u _ c x _ hc hx => ?_)
  split
  · exact crash_posts u _
  · refine emit_posts (.inl rfl) ⟨c, hc, ?_⟩
    cases o with
    | surface i => exact hx.pointers
    | app b => exact hx.rays

theorem leave_posts (hs : w.Staffed) (o : BoundedObject) : Posts R w (w.leave o) := by
  have h1 := point_posts (R := R) hs o .leave
  exact h1.andThen hs (point_posts (h1.staffed hs) o .frame)

theorem pressed_posts (hs : w.Staffed) (ho : w.Known o) {isPressed : Bool}
    (hR : ∀ i c, o = .surface i → isPressed = true → w.clientOf o = some c → R c) :
    Posts R w (w.pressed o isPressed) := by
  cases o with
  | app b => exact .refl R w
  | surface i =>
    simp only [pressed]
    split
    · next hp =>
      refine setKeyboardFocusedSurface_posts hs ho fun c hc => hR i c rfl ?_ hc
      exact (Bool.and_eq_true_iff.mp hp).1
    · exact .refl R w

theorem setSurfaceAsCursor_events (w : World) (surface : Option ℕ) (hotspot : ℤ × ℤ) :
    (w.setSurfaceAsCursor surface hotspot).events = w.events := by
  have move (w : World) : w.moveCursor.events = w.events := by
    unfold moveCursor
    split
    · rfl
    · rfl
  have take (w : World) (s : Option ℕ) : (w.takeCursor s).events = w.events := by
    unfold takeCursor
    split
    · rfl
    · rw [move]
      rfl
  unfold setSurfaceAsCursor
  split
  · rw [take]
  · split
    · rfl
    · rw [take]
      rfl

theorem selectFor_posts (hs : w.Staffed)
    (hR : ∀ b c, o = .app b → w.clientOf o = some c → R c) : Posts R w (w.selectFor o) := by
  cases o with
  | surface i => exact .refl R w
  | app b =>
    exact withSeatOf_posts hs fun u hu c x hc _ hx =>
      sendSelections_posts (hR b c rfl hc) hu hx.dataDevices

theorem leaveFocused_posts (hs : w.Staffed) : Posts R w w.leaveFocused := by
  unfold leaveFocused
  split
  · exact .refl R w
  · exact leave_posts hs _

theorem setFocusedObj_posts (hs : w.Staffed) (ho : w.Known o)
    (hR : ∀ b c, o = .app b → w.clientOf o = some c → R c) :
    Posts R w (w.setFocusedObj o) := by
  unfold setFocusedObj
  split
  · exact .refl R w
  · have h1 := leaveFocused_posts (R := R) hs
    have s1 := h1.staffed hs
    have h2 := selectFor_posts (R := R) (o := o) s1 fun b c hb hc =>
      hR b c hb (by rwa [h1.effects.clientOf ho] at hc)
    refine h1.andThen hs (h2.andThen s1 ?_)
    have h3 : Posts R (w.leaveFocused.selectFor o)
        { w.leaveFocused.selectFor o with seat.focusedObj := some o } :=
      posts_of_events (.single (.seat rfl)) rfl
    have s2 := h2.staffed s1
    exact h3.trans s2 (point_posts (h3.staffed s2) o .enter)

theorem focusOn_posts (hs : w.Staffed) (ho : w.Known o) (distance : ℚ)
    (hR : ∀ b c, o = .app b → w.clientOf o = some c → R c) : Posts R w (w.focusOn o distance) := by
  have h1 := setFocusedObj_posts hs ho hR
  have s1 := h1.staffed hs
  have h2 := point_posts (R := R) s1 o .motion
  have s2 := h2.staffed s1
  have h3 := point_posts (R := R) s2 o .frame
  refine h1.andThen hs (h2.andThen s1 (h3.andThen (h2.staffed s1) (posts_of_events ?_ rfl)))
  refine .trans (.single (.seat (s := { (World.point _ o .frame).seat with
    cursorDistance := distance * (98 / 100) }) rfl)) (.single (.ray rfl))

theorem focusNothing_posts (hs : w.Staffed) : Posts R w w.focusNothing := by
  have h1 := leaveFocused_posts (R := R) hs
  refine h1.andThen hs (posts_of_events ?_ (setSurfaceAsCursor_events ..))
  have h2 (w : World) : Effects true true w { w with seat.focusedObj := none } :=
    .single (.seat rfl)
  exact (h2 _).trans (setSurfaceAsCursor_effects _ _ _)

theorem nearest_known (hs : w.Staffed) {hits : Hits} {d : ℚ}
    (hn : w.nearest hits = some (o, d)) : w.Known o := by
  cases o with
  | surface i =>
    obtain ⟨c, hc⟩ := hs.typed.resource .surface i (nearest_alive hn)
    exact hs.typed.fresh.lt hc
  | app b => trivial

theorem checkIntersection_posts (hs : w.Staffed) (hits : Hits)
    (hR : ∀ b c d, w.nearest hits = some (.app b, d) → w.clientOf (.app b) = some c → R c) :
    Posts R w (w.checkIntersection hits) := by
  have h1 : Posts R w w.dropExpiredSurfaces.dropExpiredApps :=
    posts_of_events (.single .expire) rfl
  have s1 := h1.staffed hs
  unfold checkIntersection
  split
  · next o d hn =>
    refine h1.trans hs (focusOn_posts s1 (h1.effects.known (nearest_known hs hn)) d ?_)
    rintro b c rfl hc
    exact hR b c d hn hc
  · exact h1.trans hs (focusNothing_posts s1)

theorem dragFocused_events (w : World) (polar azimuthal : ℚ) :
    (w.dragFocused polar azimuthal).events = w.events := by
  unfold dragFocused
  split
  · rfl
  · next o _ => cases o <;> rfl

theorem moveCursor_events (w : World) : w.moveCursor.events = w.events := by
  unfold moveCursor
  split
  · rfl
  · rfl

theorem lock_known (hs : w.Staffed) (ho : w.lock w.seat.focusedObj = some o) : w.Known o := by
  cases o with
  | surface i =>
    obtain ⟨c, hc⟩ := hs.typed.resource .surface i (lock_eq_some.mp ho).2
    exact hs.typed.fresh.lt hc
  | app b => trivial

/-- The clients that may be told of the selection in a step: who makes a data device while it has
the keyboard, whose surface is pressed, and whose app the pointer meets. -/
def MayLearn (w : World) (c : ℕ) : Action → Prop
  | .desk client .getDataDevice => c = client ∧ w.isFocusedClient client = true
  | .mouseButton _ isPressed hits =>
    (isPressed = true ∧ ∃ i, w.lock w.seat.focusedObj = some (.surface i) ∧
      w.clientOf (.surface i) = some c) ∨
    w.seat.objState = .moving ∧
      ∃ b d, w.nearest hits = some (.app b, d) ∧ w.clientOf (.app b) = some c
  | .mouseMove _ _ hits =>
    w.seat.objState = .default ∧
      ∃ b d, w.nearest hits = some (.app b, d) ∧ w.clientOf (.app b) = some c
  | _ => False

theorem handleMouseButton_posts (hs : w.Staffed) (button : UInt32) (isPressed : Bool)
    (hits : Hits) :
    Posts (fun c => w.MayLearn c (.mouseButton button isPressed hits)) w
      (w.handleMouseButton button isPressed hits) := by
  unfold handleMouseButton World.button
  split
  · next hm =>
    have h1 : Posts (fun c => w.MayLearn c (.mouseButton button isPressed hits)) w
        { w with seat.objState := .default, seat.focusedObj := none } :=
      posts_of_events (.single (.seat rfl)) rfl
    exact h1.trans hs (checkIntersection_posts (h1.staffed hs) hits
      fun b c d hn hc => .inr ⟨hm.1, b, d, hn, hc⟩)
  · split
    · next o ho =>
      have hk := lock_known hs ho
      have h1 := point_posts (R := fun c => w.MayLearn c (.mouseButton button isPressed hits)) hs o
        (.button button isPressed)
      have s1 := h1.staffed hs
      have hR : ∀ i c, o = .surface i → isPressed = true →
          (w.point o (.button button isPressed)).clientOf o = some c →
            w.MayLearn c (.mouseButton button isPressed hits) := fun i c hi hp hc => by
        rw [h1.effects.clientOf hk] at hc
        subst hi
        exact .inl ⟨hp, i, ho, hc⟩
      have h2 := pressed_posts s1 (h1.effects.known hk) hR
      have h3 := Posts.andThen (f := fun w => w.pressed o isPressed) hs h1 h2
      exact h3.andThen hs (point_posts (h3.staffed hs) o .frame)
    · split
      · exact tryLeaveKeyboard_posts hs
      · exact .refl _ w

theorem handleMouseWheel_posts (hs : w.Staffed) (amount : ℚ) :
    Posts R w (w.handleMouseWheel amount) := by
  unfold handleMouseWheel
  split
  · exact .refl R w
  · next o _ =>
    have h1 := point_posts (R := R) hs o (.axis amount)
    exact h1.andThen hs (point_posts (h1.staffed hs) o .frame)

theorem requestStartMove_posts (hs : w.Staffed) (client : ℕ) :
    Posts R w (w.requestStartMove client) := by
  unfold requestStartMove
  split
  · exact .refl R w
  · split
    · exact (leave_posts hs _).andThen hs (posts_of_events (.single (.seat rfl)) rfl)
    · exact .refl R w

theorem moveRelPointing_posts (hs : w.Staffed) (polar azimuthal : ℚ) (hits : Hits) :
    Posts (fun c => w.MayLearn c (.mouseMove polar azimuthal hits)) w
      (w.moveRelPointing polar azimuthal hits) := by
  have h1 : Posts (fun c => w.MayLearn c (.mouseMove polar azimuthal hits)) w
      (w.moveRay polar azimuthal) := posts_of_events (.single (.ray rfl)) rfl
  unfold moveRelPointing
  refine Posts.andThen hs ?_ (posts_of_events (moveCursor_minors _).effects (moveCursor_events _))
  split
  · next hm =>
    exact h1.trans hs (checkIntersection_posts (h1.staffed hs) hits
      fun b c d hn hc => ⟨hm, b, d, hn, hc⟩)
  · exact h1.trans hs
      (posts_of_events (dragFocused_effects _ _ _) (dragFocused_events _ _ _))

end Posts

section Requests
variable {w w' : World} {c client i : ℕ} {k : DeskInterface}

theorem newResource_has (hs : w.Staffed) {interface : DeskInterface} (h : w.Has c k i) :
    (w.newResource client interface).Has c k i :=
  (Arena.set_of_ne _ _ (Nat.ne_of_lt (hs.typed.fresh.lt h))).trans h

theorem newResource_crewed (hs : w.Staffed) (interface : DeskInterface) :
    (w.newResource client interface).Crewed :=
  hs.toCrewed.mono rfl (fun _ _ h => h) (Nat.le_succ _) fun _ _ _ => newResource_has hs

/-- A list of the seat of the client gets a member of the client. -/
theorem joinSeat_crewed (h : w.Crewed) {f : ClientSeat → ClientSeat}
    (hf : ∀ x, w.SeatOf client x → w.SeatOf client (f x)) : (w.joinSeat client f).Crewed := by
  unfold joinSeat withClientSeat
  split
  · refine h.mono rfl (fun c i he => ?_) (Nat.le_refl _) fun _ _ _ h => h
    have he : w.seat.clientSeats.set client none c = some (some i) := he
    by_cases hc : c = client
    · simp [hc] at he
    · rwa [Arena.set_of_ne _ _ hc] at he
  · next j he =>
    split
    · exact h.mono rfl (fun _ _ h => h) (Nat.le_refl _) fun _ _ _ h => h
    · next x hx =>
      have hj : w.Has client .seat j := h.entry client j (Option.join_eq_some_iff.mp he) (by
        simp [hx])
      refine ⟨fun i y hy => ?_, fun c i he hi => ?_, h.entry_lt⟩
      · have hy' : w.clientSeats.modify j f i = some y := hy
        by_cases hij : i = j
        · subst hij
          rw [Arena.modify_self, hx, Option.map_some, Option.some.injEq] at hy'
          obtain ⟨c, hc, hx'⟩ := h.seat i x hx
          obtain ⟨rfl, -⟩ := Has.unique hj hc
          subst hy'
          exact ⟨c, hc, (hf x hx').mono fun _ _ h => h⟩
        · rw [Arena.modify_of_ne _ _ hij] at hy'
          obtain ⟨c, hc, hy⟩ := h.seat i y hy'
          exact ⟨c, hc, hy.mono fun _ _ h => h⟩
      · exact h.entry c i he (by rwa [Arena.modify_isSome] at hi)

theorem bindSeat_crewed (hs : w.Staffed) (client : ℕ) : (w.bindSeat client).Crewed where
  seat := fun i x hx => by
    have hx : w.clientSeats.set w.nextId {} i = some x := hx
    by_cases hi : i = w.nextId
    · subst hi
      obtain rfl : ({} : ClientSeat) = x := by simpa using hx
      exact ⟨client, Arena.set_self .., ⟨by simp, by simp, by simp, by simp⟩⟩
    · rw [Arena.set_of_ne _ _ hi] at hx
      obtain ⟨c, hc, hx⟩ := hs.seat i x hx
      exact ⟨c, newResource_has hs hc, hx.mono fun _ _ => newResource_has hs⟩
  entry := fun c i he hi => by
    have old (he : w.seat.clientSeats c = some (some i)) : (w.bindSeat client).Has c .seat i := by
      have hlt := hs.entry_lt c i he
      have hi : (w.clientSeats.set w.nextId {} i).isSome := hi
      rw [Arena.set_of_ne _ _ (Nat.ne_of_lt hlt)] at hi
      exact newResource_has hs (hs.entry c i he hi)
    have he : (if (w.seat.clientSeats client).isSome then w.seat.clientSeats
        else w.seat.clientSeats.set client (some w.nextId)) c = some (some i) := he
    split at he
    · exact old he
    · by_cases hc : c = client
      · subst hc
        obtain rfl : w.nextId = i := by simpa using he
        exact Arena.set_self ..
      · rw [Arena.set_of_ne _ _ hc] at he
        exact old he
  entry_lt := fun c i he => by
    have he : (if (w.seat.clientSeats client).isSome then w.seat.clientSeats
        else w.seat.clientSeats.set client (some w.nextId)) c = some (some i) := he
    have old (he : w.seat.clientSeats c = some (some i)) : i < w.nextId + 1 :=
      (hs.entry_lt c i he).trans (Nat.lt_succ_self _)
    split at he
    · exact old he
    · by_cases hc : c = client
      · obtain rfl : w.nextId = i := by simpa [hc] using he
        exact Nat.lt_succ_self _
      · rw [Arena.set_of_ne _ _ hc] at he
        exact old he

/-- A resource goes, from the lists of the seats too. -/
theorem Crewed.remove (hs : w.Crewed) {j : ℕ} (hr : w'.resources = w.resources.erase j)
    (hn : w'.nextId = w.nextId)
    (he : ∀ c i, w'.seat.clientSeats c = some (some i) → w.seat.clientSeats c = some (some i))
    (hc : ∀ i y, w'.clientSeats i = some y →
      i ≠ j ∧ ∃ x, w.clientSeats i = some x ∧ y = leaveLists j x) : w'.Crewed := by
  have keep {c i : ℕ} {k : DeskInterface} (hi : w.Has c k i) (hij : i ≠ j) : w'.Has c k i := by
    rw [Has, hr, Arena.erase_of_ne _ hij]
    exact hi
  have member {c : ℕ} {k : DeskInterface} {l : List ℕ} (hl : ∀ p ∈ l, w.Has c k p) :
      ∀ p ∈ l.filter (· ≠ j), w'.Has c k p := fun p hp => by
    simp only [List.mem_filter, decide_eq_true_eq] at hp
    exact keep (hl p hp.1) hp.2
  refine ⟨fun i y hy => ?_, fun c i h hi => ?_, fun c i h => hn ▸ hs.entry_lt c i (he c i h)⟩
  · obtain ⟨hij, x, hx, rfl⟩ := hc i y hy
    obtain ⟨c, hi, hx⟩ := hs.seat i x hx
    exact ⟨c, keep hi hij,
      ⟨member hx.pointers, member hx.keyboards, member hx.dataDevices, member hx.rays⟩⟩
  · obtain ⟨y, hy⟩ := Option.isSome_iff_exists.mp hi
    obtain ⟨hij, x, hx, -⟩ := hc i y hy
    exact keep (hs.entry c i (he c i h) (by simp [hx])) hij

/-- A resource that is in none of the lists. -/
theorem SeatOf.leaveLists_eq {x : ClientSeat} (h : w.SeatOf c x) {j : ℕ}
    (hp : k ≠ .pointer) (hk : k ≠ .keyboard) (hd : k ≠ .dataDevice) (hr : k ≠ .ray)
    {c' : ℕ} (hj : w.Has c' k j) : leaveLists j x = x := by
  have out {k' : DeskInterface} {l : List ℕ} (hne : k ≠ k') (hl : ∀ p ∈ l, w.Has c k' p) :
      l.filter (· ≠ j) = l := by
    refine List.filter_eq_self.mpr fun p hp => decide_eq_true fun he => ?_
    exact hne (Has.unique (hl p hp) (he ▸ hj)).2
  simp only [leaveLists, out hp h.pointers, out hk h.keyboards, out hd h.dataDevices,
    out hr h.rays]

theorem destroyResource_crewed (hs : w.Crewed) (j : ℕ) : (w.destroyResource j).Crewed := by
  unfold destroyResource
  split
  · exact hs
  · next r hr =>
    obtain ⟨client, k⟩ := r
    have hj : w.Has client k j := hr
    have left (hk : k ≠ .seat) (i : ℕ) (x : ClientSeat) (hx : w.clientSeats i = some x) :
        i ≠ j := by
      rintro rfl
      obtain ⟨c, hc, -⟩ := hs.seat i x hx
      exact hk (Has.unique hc hj).2
    have other (hp : k ≠ .pointer) (hk : k ≠ .keyboard) (hd : k ≠ .dataDevice) (hr : k ≠ .ray)
        (i : ℕ) (x : ClientSeat) (hx : w.clientSeats i = some x) : x = leaveLists j x := by
      obtain ⟨c, -, hx⟩ := hs.seat i x hx
      exact (hx.leaveLists_eq hp hk hd hr hj).symm
    have listed (hk : k ≠ .seat) (i : ℕ) (y : ClientSeat)
        (hy : w.clientSeats.mapAll (leaveLists j) i = some y) :
        i ≠ j ∧ ∃ x, w.clientSeats i = some x ∧ y = leaveLists j x := by
      obtain ⟨x, hx, rfl⟩ := Option.map_eq_some_iff.mp hy
      exact ⟨left hk i x hx, x, hx, rfl⟩
    cases k with
    | seat =>
      refine hs.remove rfl rfl (fun c i he => ?_) fun i y hy => ?_
      · have he : w.seat.clientSeats.erase client c = some (some i) := he
        by_cases hc : c = client
        · simp [hc] at he
        · rwa [Arena.erase_of_ne _ hc] at he
      · have hy : w.clientSeats.erase j i = some y := hy
        by_cases hij : i = j
        · simp [hij] at hy
        · rw [Arena.erase_of_ne _ hij] at hy
          exact ⟨hij, y, hy, other (by simp) (by simp) (by simp) (by simp) i y hy⟩
    | pointer | keyboard | ray | dataDevice =>
      exact hs.remove rfl rfl (fun _ _ h => h) (listed (by simp))
    | _ =>
      exact hs.remove rfl rfl (fun _ _ h => h) fun i y hy =>
        ⟨left (by simp) i y hy, y, hy, other (by simp) (by simp) (by simp) (by simp) i y hy⟩

/-- A buffer that is found is that of a live `wl_buffer`. -/
theorem commitBuffer_sends (hs : w.Typed) (i : ℕ) (x : Surface) :
    ∃ l, (w.commitBuffer i x).events = w.events ++ l ∧
      ∀ e ∈ l, ∃ b c, e = .bufferRelease b ∧ w.Has c .wlBuffer b := by
  unfold commitBuffer
  split
  · exact ⟨[], by simp [modifySurface], by simp⟩
  · next b _ =>
    split
    · exact ⟨[], by simp [modifySurface, crash], by simp⟩
    · next hb =>
      obtain ⟨c, hc⟩ := hs.resource .wlBuffer b (by simp [holds, hb])
      exact ⟨[.bufferRelease b], rfl, fun e he => ⟨b, c, List.mem_singleton.mp he, hc⟩⟩

theorem commitBuffer_xdgSurfaces (w : World) (i : ℕ) (x : Surface) :
    (w.commitBuffer i x).xdgSurfaces = w.xdgSurfaces := by
  unfold commitBuffer
  split
  · rfl
  · split <;> rfl

theorem commitSurface_clientSeats (w : World) (i : ℕ) :
    (w.commitSurface i).clientSeats = w.clientSeats := by
  unfold commitSurface World.andThen commitBuffer
  repeat' split
  all_goals rfl

/-- A `wl_surface.commit` releases a live buffer, and configures live `xdg_surface`s. -/
theorem commitSurface_sends (hs : w.Typed) {R : ℕ → Prop} (i : ℕ) :
    ∃ l, (w.commitSurface i).events = w.events ++ l ∧
      ∀ e ∈ l, (w.commitSurface i).Delivered R e := by
  have hr := (w.commitSurface_rest i).2.2.2.2.2.2.2.1
  have keep {c i' : ℕ} {k : DeskInterface} (h : w.Has c k i') : (w.commitSurface i).Has c k i' := by
    rwa [Has, hr]
  cases hx : w.surfaces i with
  | none =>
    refine ⟨[], ?_, by simp⟩
    simp only [commitSurface, hx, crash, List.append_nil]
  | some x =>
    obtain ⟨l, hl, hb⟩ := commitBuffer_sends hs i x
    have released : ∀ e ∈ l, (w.commitSurface i).Delivered R e := fun e he => by
      obtain ⟨b, c, rfl, hc⟩ := hb e he
      exact ⟨c, keep hc⟩
    have he : w.commitSurface i = (w.commitBuffer i x).andThen fun w =>
        (w.modifySurface i fun x => x.tellTexture.commitFrames).notifyXdg i := by
      simp only [commitSurface, hx]
    rcases Bool.eq_false_or_eq_true (w.commitBuffer i x).stopped with hst | hst
    · exact ⟨l, by rw [he, andThen, if_pos hst, hl], released⟩
    · have hn : (w.commitSurface i).events = (w.commitBuffer i x).events ++
          ((List.range (w.commitBuffer i x).nextId).filter fun j =>
            (w.xdgSurfaces j).any (firstCommit i)).map .xdgConfigure := by
        rw [he, andThen, if_neg (by simp [hst]), ← commitBuffer_xdgSurfaces w i x]
        rfl
      refine ⟨_, by rw [hn, hl, List.append_assoc], fun e he => ?_⟩
      rcases List.mem_append.mp he with he | he
      · exact released e he
      · obtain ⟨j, hj, rfl⟩ := List.mem_map.mp he
        have hj := (List.mem_filter.mp hj).2
        obtain ⟨c, hc⟩ := hs.resource .xdgSurface j (by
          cases hxj : w.xdgSurfaces j with
          | none => simp [hxj] at hj
          | some y => simp [holds, hxj])
        exact ⟨c, keep hc⟩

/-- What a new member of a list changes besides the lists. -/
theorem joinSeat_same (w : World) (client : ℕ) (f : ClientSeat → ClientSeat) :
    (w.joinSeat client f).events = w.events ∧ (w.joinSeat client f).surfaces = w.surfaces ∧
      (w.joinSeat client f).resources = w.resources ∧
      (w.joinSeat client f).seat.keyboardFocusedSurface = w.seat.keyboardFocusedSurface := by
  unfold joinSeat withClientSeat
  split
  · exact ⟨rfl, rfl, rfl, rfl⟩
  · split <;> exact ⟨rfl, rfl, rfl, rfl⟩

/-- A client that has the keyboard had it before its data device was made. -/
theorem joinDevice_focused (hs : w.Typed) {c' : ℕ}
    (hf : (w.joinDevice client).isFocusedClient c' = true) : w.isFocusedClient c' = true := by
  obtain ⟨i, hl, hc⟩ := isFocusedClient_iff.mp hf
  obtain ⟨-, h1, h2, h3⟩ := joinSeat_same { w.newResource client .dataDevice with
    dataDevices := w.dataDevices.set w.nextId {} } client fun x =>
      { x with dataDevices := w.nextId :: x.dataDevices }
  simp only [joinDevice, h1, h3] at hl
  refine isFocusedClient_iff.mpr ⟨i, hl, ?_⟩
  have hi : i < w.nextId := hs.lt (k := .surface) (Arena.lock_eq_some.mp hl).2
  simp only [joinDevice, World.clientOf, h2] at hc
  have hc : (w.resources.set w.nextId ⟨client, .dataDevice⟩ i).map DeskResource.client =
    some c' := hc
  rwa [Arena.set_of_ne _ _ (Nat.ne_of_lt hi)] at hc

theorem joinDevice_staffed (hs : w.Staffed) (client : ℕ) : (w.joinDevice client).Staffed where
  toCrewed := by
    have h1 : Crewed { w.newResource client .dataDevice with
        dataDevices := w.dataDevices.set w.nextId {} } :=
      (newResource_crewed hs .dataDevice).mono rfl (fun _ _ h => h) (Nat.le_refl _)
        fun _ _ _ h => h
    refine joinSeat_crewed h1 fun x hx => ?_
    refine { hx with dataDevices := fun d hd => ?_ }
    rcases List.mem_cons.mp hd with rfl | hd
    · exact Arena.set_self ..
    · exact hx.dataDevices d hd
  typed := joinDevice_typed hs.typed client

/-- A new data device is told of the selection when its client has the keyboard. -/
theorem createDataDevice_posts (hs : w.Staffed) (client : ℕ) :
    (w.createDataDevice client).Staffed ∧
      ∃ l, (w.createDataDevice client).events = w.events ++ l ∧
        ∀ e ∈ l, (w.createDataDevice client).Delivered
          (fun c => w.MayLearn c (.desk client .getDataDevice)) e := by
  have h1 := joinDevice_staffed hs client
  obtain ⟨he, -, hr, -⟩ := joinSeat_same { w.newResource client .dataDevice with
    dataDevices := w.dataDevices.set w.nextId {} } client fun x =>
      { x with dataDevices := w.nextId :: x.dataDevices }
  have hd : (w.joinDevice client).Has client .dataDevice w.nextId :=
    (congrFun hr w.nextId).trans (Arena.set_self ..)
  have h2 : Posts (fun c => w.MayLearn c (.desk client .getDataDevice)) (w.joinDevice client)
      (w.createDataDevice client) := by
    refine Posts.andThen (f := fun w' =>
      if w'.isFocusedClient client then w'.sendSelection w.nextId else w') h1 (.refl _ _) ?_
    split
    · next hf => exact sendSelection_posts ⟨rfl, joinDevice_focused hs.typed hf⟩ hd h1
    · exact .refl _ _
  obtain ⟨l, hl, hl'⟩ := h2.events
  exact ⟨h2.staffed h1, l, hl.trans (congrArg (· ++ l) he), hl'⟩

/-- The source of an offer is asked when it is there. -/
theorem askSource_sends (hs : w.Typed) {R : ℕ → Prop} (o : ℕ) {e : ℕ → DeskEvent}
    (he : ∀ s c, w.Has c .dataSource s → (w.emit (e s)).Delivered R (e s)) :
    (w.askSource o e).clientSeats = w.clientSeats ∧
      (w.askSource o e).seat = w.seat ∧ (w.askSource o e).nextId = w.nextId ∧
      (w.askSource o e).resources = w.resources ∧
      ∃ l, (w.askSource o e).events = w.events ++ l ∧ ∀ e' ∈ l, (w.askSource o e).Delivered R e' := by
  unfold askSource
  split
  · exact ⟨rfl, rfl, rfl, rfl, [], by simp [crash], by simp⟩
  · next x _ =>
    split
    · next hx =>
      obtain ⟨c, hc⟩ := hs.resource .dataSource x.dataSource hx
      refine ⟨rfl, rfl, rfl, rfl, [e x.dataSource], rfl, fun e' he' => ?_⟩
      rw [List.mem_singleton.mp he']
      exact he _ c hc
    · exact ⟨rfl, rfl, rfl, rfl, [], by simp [crash], by simp⟩

theorem handle_delivers (hs : w.Staffed) (r : DeskRequest) :
    (w.handle client r).Crewed ∧ ∃ l, (w.handle client r).events = w.events ++ l ∧
      ∀ e ∈ l, (w.handle client r).Delivered (fun c => w.MayLearn c (.desk client r)) e := by
  have nothing {w' : World} {R : ℕ → Prop} (h : w'.events = w.events) :
      ∃ l, w'.events = w.events ++ l ∧ ∀ e ∈ l, w'.Delivered R e := ⟨[], by simp [h], by simp⟩
  have same {w' : World} (hc : w'.clientSeats = w.clientSeats)
      (he : w'.seat.clientSeats = w.seat.clientSeats) (hn : w'.nextId = w.nextId)
      (hr : w'.resources = w.resources) : w'.Crewed :=
    hs.toCrewed.mono hc (fun _ _ h => he ▸ h) hn.ge fun c k i h => by rwa [Has, hr]
  have fresh {w' : World} {k : DeskInterface} (hc : w'.clientSeats = w.clientSeats)
      (he : w'.seat.clientSeats = w.seat.clientSeats) (hn : w'.nextId = w.nextId + 1)
      (hr : w'.resources = (w.newResource client k).resources) : w'.Crewed :=
    (newResource_crewed hs k).mono hc (fun _ _ h => he ▸ h) hn.ge fun c k i h => by
      rwa [Has, hr]
  have joined {k : DeskInterface} {f : ClientSeat → ClientSeat}
      (hf : ∀ x, (w.newResource client k).SeatOf client x →
        (w.newResource client k).SeatOf client (f x)) :
      ((w.newResource client k).joinSeat client f).Crewed :=
    joinSeat_crewed (newResource_crewed hs k) hf
  cases r with
  | createWlBuffer b => exact ⟨fresh (k := .wlBuffer) rfl rfl rfl rfl, nothing rfl⟩
  | createSurface texSize =>
    obtain ⟨l, S, h1, -⟩ := w.createSurface_eq client texSize
    simp only [handle]
    rw [h1]
    exact ⟨fresh (k := .surface) rfl rfl rfl rfl, nothing rfl⟩
  | attach s b d => exact ⟨same rfl rfl rfl rfl, nothing rfl⟩
  | offset s d => exact ⟨same rfl rfl rfl rfl, nothing rfl⟩
  | frame s =>
    exact ⟨hs.toCrewed.mono rfl (fun _ _ h => h) (Nat.le_succ _) fun _ _ _ h => h, nothing rfl⟩
  | commit s =>
    obtain ⟨-, -, hseat, -, -, -, hn, hres, -⟩ := w.commitSurface_rest s
    exact ⟨same (commitSurface_clientSeats w s) (congrArg ServerSeat.clientSeats hseat) hn hres,
      commitSurface_sends hs.typed s⟩
  | getXdgSurface s => exact ⟨fresh (k := .xdgSurface) rfl rfl rfl rfl, nothing rfl⟩
  | getToplevel x =>
    simp only [handle, createToplevel]
    split
    · exact ⟨same rfl rfl rfl rfl, nothing rfl⟩
    · exact ⟨fresh (k := .xdgToplevel) rfl rfl rfl rfl, nothing rfl⟩
  | moveToplevel t =>
    have h1 := requestStartMove_posts (R := fun c => w.MayLearn c (.desk client (.moveToplevel t)))
      hs client
    exact ⟨(h1.staffed hs).toCrewed, h1.events⟩
  | bindSeat => exact ⟨bindSeat_crewed hs client, nothing rfl⟩
  | getPointer j =>
    refine ⟨joined fun x hx => { hx with pointers := ?_ }, nothing (joinSeat_same ..).1⟩
    exact fun p hp => (List.mem_cons.mp hp).elim (fun h => h ▸ Arena.set_self ..) (hx.pointers p)
  | getKeyboard j =>
    refine ⟨joined fun x hx => { hx with keyboards := ?_ }, nothing (joinSeat_same ..).1⟩
    exact fun p hp => (List.mem_cons.mp hp).elim (fun h => h ▸ Arena.set_self ..) (hx.keyboards p)
  | getRay =>
    refine ⟨joined fun x hx => { hx with rays := ?_ }, nothing (joinSeat_same ..).1⟩
    exact fun p hp => (List.mem_cons.mp hp).elim (fun h => h ▸ Arena.set_self ..) (hx.rays p)
  | setCursor p s hotspot =>
    have h1 : Effects true true w (w.setSurfaceAsCursor s hotspot) :=
      setSurfaceAsCursor_effects w s hotspot
    exact ⟨(h1.staffed hs).toCrewed, nothing (setSurfaceAsCursor_events w s hotspot)⟩
  | createDataSource => exact ⟨fresh (k := .dataSource) rfl rfl rfl rfl, nothing rfl⟩
  | offer s mimeType => exact ⟨same rfl rfl rfl rfl, nothing rfl⟩
  | getDataDevice =>
    obtain ⟨h1, h2⟩ := createDataDevice_posts hs client
    exact ⟨h1.toCrewed, h2⟩
  | setSelection d s =>
    cases s with
    | none => exact ⟨same rfl rfl rfl rfl, nothing rfl⟩
    | some s => exact ⟨same rfl rfl rfl rfl, nothing rfl⟩
  | accept o mimeType =>
    obtain ⟨hc, hseat, hn, hres, hl⟩ :=
      askSource_sends (e := fun s => .sourceTarget s mimeType) hs.typed o fun s c h => ⟨c, h⟩
    exact ⟨same hc (congrArg ServerSeat.clientSeats hseat) hn hres, hl⟩
  | receive o mimeType =>
    obtain ⟨hc, hseat, hn, hres, hl⟩ :=
      askSource_sends (e := fun s => .sourceSend s mimeType) hs.typed o fun s c h => ⟨c, h⟩
    exact ⟨same hc (congrArg ServerSeat.clientSeats hseat) hn hres, hl⟩

theorem destroyResource_events (w : World) (i : ℕ) : (w.destroyResource i).events = w.events := by
  unfold destroyResource
  split
  · rfl
  · next r _ => cases r.interface <;> rfl

theorem act_delivers (hs : w.Staffed) (a : Action) :
    (w.act a).Crewed ∧ ∃ l, (w.act a).events = w.events ++ l ∧
      ∀ e ∈ l, (w.act a).Delivered (fun c => w.MayLearn c a) e := by
  have nothing {w' : World} {R : ℕ → Prop} (h : w'.events = w.events) :
      ∃ l, w'.events = w.events ++ l ∧ ∀ e ∈ l, w'.Delivered R e := ⟨[], by simp [h], by simp⟩
  have same {w' : World} (hc : w'.clientSeats = w.clientSeats) (he : w'.seat = w.seat)
      (hn : w'.nextId = w.nextId) (hr : w'.resources = w.resources) : w'.Crewed :=
    hs.toCrewed.mono hc (fun _ _ h => he ▸ h) hn.ge fun c k i h => by rwa [Has, hr]
  have posts {w' : World} {R : ℕ → Prop} (h : Posts R w w') : w'.Crewed ∧
      ∃ l, w'.events = w.events ++ l ∧ ∀ e ∈ l, w'.Delivered R e :=
    ⟨(h.staffed hs).toCrewed, h.events⟩
  cases a with
  | zwin client r =>
    simp only [act, addBoundedApp]
    split <;> exact ⟨same rfl rfl rfl rfl, nothing rfl⟩
  | destroyZwin client r => exact ⟨same rfl rfl rfl rfl, nothing rfl⟩
  | desk client r =>
    by_cases had : w.admits client r = true
    · rw [act_desk had]
      exact handle_delivers hs r
    · simp only [act, had]
      exact ⟨hs.toCrewed, nothing rfl⟩
  | destroy client i =>
    simp only [act]
    split
    · exact ⟨destroyResource_crewed hs.toCrewed i, nothing (destroyResource_events w i)⟩
    · exact ⟨hs.toCrewed, nothing rfl⟩
  | moveBounded client b =>
    simp only [act]
    split
    · exact posts (requestStartMove_posts hs client)
    · exact ⟨hs.toCrewed, nothing rfl⟩
  | peerDiscover connected =>
    simp only [act, peerDiscover]
    split
    · exact ⟨hs.toCrewed, nothing rfl⟩
    · exact ⟨same rfl rfl rfl rfl, nothing rfl⟩
  | sessionDisconnect =>
    simp only [act, sessionDisconnect]
    split
    · exact ⟨same rfl rfl rfl rfl, nothing rfl⟩
    · exact ⟨hs.toCrewed, nothing rfl⟩
  | frameTimer busyness =>
    simp only [act, frameTimer]
    split
    · refine ⟨same rfl rfl rfl rfl, _, rfl, fun e he => ?_⟩
      obtain ⟨c, -, rfl⟩ := List.mem_map.mp he
      trivial
    · exact ⟨hs.toCrewed, nothing rfl⟩
  | mouseMove polar azimuthal hits => exact posts (moveRelPointing_posts hs polar azimuthal hits)
  | mouseButton button isPressed hits =>
    exact posts (handleMouseButton_posts hs button isPressed hits)
  | mouseWheel amount => exact posts (handleMouseWheel_posts hs amount)

end Requests

/-- What a step sends is delivered to those who may get it. -/
def StepDelivers (w : World) (a : Action) : Prop :=
  ∃ l, (w.step a).events = w.events ++ l ∧
    ∀ e ∈ l, (w.step a).Delivered (fun c => w.MayLearn c a) e

theorem step_delivers {w : World} (hs : w.Staffed) (a : Action) :
    (w.step a).Staffed ∧ w.StepDelivers a := by
  have ht := step_typed hs.typed a
  unfold StepDelivers
  cases hst : w.stopped with
  | true =>
    rw [step_of_stopped hst]
    exact ⟨hs, [], by simp, by simp⟩
  | false =>
    rw [step_of_running hst] at ht ⊢
    obtain ⟨hc, hl⟩ := act_delivers hs a
    exact ⟨⟨hc, ht⟩, hl⟩

theorem init_staffed : init.Staffed where
  seat := fun i x hx => by simp [init] at hx
  entry := fun c i he => by simp [init] at he
  entry_lt := fun c i he => by simp [init] at he
  typed := init_typed

theorem run_staffed (as : List Action) : (run as).Staffed :=
  Run.final_induction init_staffed (fun _ a h => (step_delivers h a).1) as

/-- In every run an event about an object reaches only resources of the client that the object
belongs to, and the selection is offered only to a client that makes a data device while it has the
keyboard, whose surface is pressed, or whose app the pointer comes to. -/
theorem delivered_throughout (as : List Action) :
    Run.Each step StepDelivers init as :=
  fun pre a _ => (step_delivers (run_staffed pre) a).2

end World
end Yaza
