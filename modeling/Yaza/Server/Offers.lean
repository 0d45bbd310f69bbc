import Yaza.Server.Keyboard
import Yaza.Server.Pointing

/-! What the functions of the seat tell the data devices about the selection, and to whom. -/
namespace Yaza

/-- A data device is told of a selection, or that there is none. -/
def DeskEvent.told? : DeskEvent → Option (ℕ × Option ℕ)
  | .selection d o => some (d, o)
  | _ => none

namespace World

def told (w : World) : List (ℕ × Option ℕ) := w.events.filterMap DeskEvent.told?

/-- What the data device was told last. -/
def lastTold (w : World) (d : ℕ) : Option (Option ℕ) :=
  ((w.told.filter fun t => t.1 = d).getLast?).map Prod.snd

/-- The data device is alive, and one of the client. -/
def OwnsDevice (w : World) (client d : ℕ) : Prop := w.resources d = some ⟨client, .dataDevice⟩

/-- No data device and no source is destroyed. -/
def KeepsDevices (w : World) : Action → Prop
  | .destroy client j =>
    w.resources j ≠ some ⟨client, .dataDevice⟩ ∧ w.resources j ≠ some ⟨client, .dataSource⟩
  | _ => True

/-- The data devices in the seat that `client_seats[client]` finds. -/
def listedDevices (w : World) (client : ℕ) : List ℕ :=
  (((w.seat.clientSeats client).join.bind w.clientSeats).map ClientSeat.dataDevices).getD []

/-- A selection from this source is set. -/
def Sets (w : World) (a : Action) (s : ℕ) : Prop :=
  ∃ client d, a = .desk client (.setSelection d (some s)) ∧ w.stopped = false ∧
    w.admits client (.setSelection d (some s)) = true

section Frame
variable {w w' w'' : World}

/-- What every step keeps but the destruction of data devices and sources, and `set_selection`. -/
structure Framed (w w' : World) : Prop where
  nextId : w.nextId ≤ w'.nextId
  alive : ∀ i, i < w.nextId → w'.Live i → w.Live i
  resources : ∀ i, i < w.nextId → ∀ r, w'.resources i = some r → w.resources i = some r
  selection : w'.seat.currentSelection = w.seat.currentSelection
  devices : ∀ d x, w.dataDevices d = some x → w'.dataDevices d = some x
  offers : ∀ o x, w'.dataOffers o = some x → w.dataOffers o = some x ∨ w.nextId ≤ o

theorem Framed.trans (h : Framed w w') (h' : Framed w' w'') : Framed w w'' where
  nextId := h.nextId.trans h'.nextId
  alive := fun i hi hl => h.alive i hi (h'.alive i (hi.trans_le h.nextId) hl)
  resources := fun i hi r hr => h.resources i hi r (h'.resources i (hi.trans_le h.nextId) r hr)
  selection := h'.selection.trans h.selection
  devices := fun d x hx => h'.devices d x (h.devices d x hx)
  offers := fun o x hx => by
    rcases h'.offers o x hx with h1 | h1
    · exact h.offers o x h1
    · exact .inr (h.nextId.trans h1)

theorem Framed.refl (w : World) : Framed w w :=
  ⟨Nat.le_refl _, fun _ _ h => h, fun _ _ _ h => h, rfl, fun _ _ h => h, fun _ _ h => .inl h⟩

/-- Addresses that were used keep their resources. -/
theorem Change.resources {k : Bool} (h : Change k w w') {i : ℕ} (hi : i < w.nextId) :
    w'.resources i = w.resources i := by
  cases h with
  | other _ _ hg | focus _ _ hg => exact hg.resources i hi
  | expire => rfl
  | raise j =>
    obtain ⟨l, S, h1, -⟩ := raiseSurfaceTop_eq w j
    rw [h1]
  | offer d s =>
    rcases createOffer_cases w d s with h1 | ⟨r, x, -, -, h1⟩
    · rw [h1]
      rfl
    · rw [h1]
      exact Arena.set_of_ne _ _ (Nat.ne_of_lt hi)
  | cursor j => rfl

theorem Change.framed {k : Bool} (h : Change k w w') : Framed w w' where
  nextId := h.nextId
  alive := fun i _ hl => h.live ▸ hl
  resources := fun i hi r hr => h.resources hi ▸ hr
  selection := h.selection_eq
  devices := fun d x hx => by
    cases h with
    | other hd | focus _ hd =>
      simp only [desk, Prod.mk.injEq] at hd
      exact hd.2.2.2.2.2.1 ▸ hx
    | expire => exact hx
    | raise j =>
      obtain ⟨l, S, h1, -⟩ := raiseSurfaceTop_eq w j
      rwa [h1]
    | offer d s =>
      rcases createOffer_cases w d s with h1 | ⟨r, x, -, -, h1⟩ <;> rwa [h1]
    | cursor j => exact hx
  offers := fun o x hx => by
    cases h with
    | other hd | focus _ hd =>
      simp only [desk, Prod.mk.injEq] at hd
      exact .inl (hd.2.2.2.2.2.2.2.1 ▸ hx)
    | expire => exact .inl hx
    | raise j =>
      obtain ⟨l, S, h1, -⟩ := raiseSurfaceTop_eq w j
      rw [h1] at hx
      exact .inl hx
    | offer d s =>
      rcases createOffer_cases w d s with h1 | ⟨r, y, -, -, h1⟩
      · rw [h1] at hx
        exact .inl hx
      · rw [h1] at hx
        by_cases ho : o = w.nextId
        · exact .inr ho.ge
        · exact .inl ((Arena.set_of_ne _ _ ho).symm.trans hx)
    | cursor j => exact .inl hx

theorem Changes.framed {k : Bool} (h : Changes k w w') : Framed w w' := by
  induction h with
  | refl => exact .refl w
  | tail _ hc ih => exact ih.trans hc.framed

theorem Changes.resources {k : Bool} (h : Changes k w w') {i : ℕ} (hi : i < w.nextId) :
    w'.resources i = w.resources i := by
  induction h with
  | refl => rfl
  | tail hp hc ih => exact (hc.resources (hi.trans_le (Changes.framed hp).nextId)).trans ih

/-- The parts that `Framed` speaks of, but for the surfaces. -/
def selectionParts (w : World) :=
  (w.nextId, w.resources, w.seat.currentSelection, w.dataDevices, w.dataOffers)

theorem framed_of_eq (hl : ∀ i, w'.Live i → w.Live i)
    (hp : w'.selectionParts = w.selectionParts) : Framed w w' := by
  simp only [selectionParts, Prod.mk.injEq] at hp
  obtain ⟨hn, hr, hc, hd, ho⟩ := hp
  exact ⟨hn.ge, fun i _ h => hl i h, fun _ _ _ h => hr ▸ h, hc, fun _ _ h => hd ▸ h,
    fun _ _ h => .inl (ho ▸ h)⟩

theorem newResource_framed (w : World) (client : ℕ) (interface : DeskInterface) :
    Framed w (w.newResource client interface) where
  nextId := Nat.le_succ _
  alive := fun _ _ h => h
  resources := fun _ hi _ hr => (Arena.set_of_ne _ _ (Nat.ne_of_lt hi)).symm.trans hr
  selection := rfl
  devices := fun _ _ h => h
  offers := fun _ _ h => .inl h

theorem commitSurface_framed (w : World) (i : ℕ) : Framed w (w.commitSurface i) := by
  obtain ⟨-, -, hc, hd, -, ho, hn, hr, -⟩ := w.commitSurface_rest i
  refine framed_of_eq (fun j hj => ?_) ?_
  · have h1 := Arena.isSome_of_mapAll (commitSurface_mapAll (g := fun _ => ()) (fun _ => rfl)
      (fun _ _ => rfl) (fun _ => rfl) w i) j
    exact h1.symm.trans hj
  · simp only [selectionParts, hc, hd, ho, hn, hr]

theorem direct_framed (ht : w.Typed) {client : ℕ} {r : DeskRequest}
    (hr : ∀ d s, r ≠ .setSelection d (some s)) : Framed w (w.direct client r) := by
  have new (interface : DeskInterface) {u : World}
      (hl : ∀ i, u.Live i → w.Live i)
      (hp : u.selectionParts = (w.newResource client interface).selectionParts) : Framed w u :=
    (newResource_framed w client interface).trans (framed_of_eq hl hp)
  cases r with
  | createWlBuffer b => exact new .wlBuffer (fun _ h => h) rfl
  | createSurface texSize =>
    have ha := createSurface_apart w client texSize
    obtain ⟨l, S, h1, -⟩ := w.createSurface_eq client texSize
    have hf := newResource_framed w client .surface
    simp only [direct, handle]
    rw [h1] at ha ⊢
    exact { hf with alive := fun i hi hl => (ha.alive i hl).resolve_right (Nat.ne_of_lt hi) }
  | attach s b d =>
    exact framed_of_eq (fun _ h => (Arena.modify_isSome ..).symm.trans h) rfl
  | commit s => exact commitSurface_framed w s
  | getXdgSurface s => exact new .xdgSurface (fun _ h => h) rfl
  | getToplevel x =>
    simp only [direct, handle, createToplevel]
    split
    · exact framed_of_eq (fun _ h => h) rfl
    · exact new .xdgToplevel (fun _ h => (Arena.modify_isSome ..).symm.trans h) rfl
  | createDataSource => exact new .dataSource (fun _ h => h) rfl
  | getDataDevice =>
    refine { newResource_framed w client .dataDevice with devices := fun d x hx => ?_ }
    have hd : d < w.nextId := ht.lt (k := .dataDevice) (by simp [World.holds, hx])
    exact (Arena.set_of_ne _ _ (Nat.ne_of_lt hd)).trans hx
  | setSelection d s =>
    cases s with
    | none => exact framed_of_eq (fun _ h => h) rfl
    | some s => exact absurd rfl (hr d s)
  | _ => exact .refl w

theorem destroyResource_framed (ht : w.Typed) {j : ℕ}
    (hd : ∀ c, w.resources j ≠ some ⟨c, .dataDevice⟩) : Framed w (w.destroyResource j) where
  nextId := (destroyResource_apart w j).nextId
  alive := fun i _ hl => (ht.destroyed j (k := .surface) hl).1
  resources := fun i _ r hr => by
    unfold destroyResource at hr
    split at hr
    · exact hr
    · by_cases hij : i = j
      · simp [hij] at hr
      · exact (Arena.erase_of_ne _ hij).symm.trans hr
  selection := by
    unfold destroyResource
    split
    · rfl
    · next r _ => cases r.interface <;> rfl
  devices := fun d x hx => by
    unfold destroyResource
    split
    · exact hx
    · next r hr =>
      obtain ⟨c, k⟩ := r
      cases k with
      | dataDevice => exact absurd hr (hd c)
      | _ => exact hx
  offers := fun o x hx => by
    refine .inl ?_
    unfold destroyResource at hx
    split at hx
    · exact hx
    · next r _ =>
      cases hk : r.interface with
      | dataOffer =>
        simp only [hk, deleteObject] at hx
        by_cases hoj : o = j
        · simp [hoj] at hx
        · exact (Arena.erase_of_ne _ hoj).symm.trans hx
      | _ =>
        simp only [hk, deleteObject] at hx
        exact hx

theorem step_framed (ht : w.Typed) {a : Action} (ha : ∀ s, ¬ w.Sets a s)
    (hk : w.KeepsDevices a) : Framed w (w.step a) := by
  cases hs : w.stopped with
  | true =>
    rw [step_of_stopped hs]
    exact .refl w
  | false =>
    rw [step_of_running hs]
    refine Framed.trans ?_ (act_changes w a).framed
    cases a with
    | desk client r =>
      simp only [directly]
      split
      · next had =>
        refine direct_framed ht fun d s hr => ha s ⟨client, d, by rw [hr], hs, ?_⟩
        rwa [← hr]
      · exact .refl w
    | destroy client j =>
      simp only [directly]
      split
      · next hj =>
        obtain ⟨r, hr, hc⟩ := Option.any_eq_true _ _ |>.mp hj
        refine destroyResource_framed ht fun c hjc => hk.1 ?_
        rw [hr] at hjc ⊢
        cases hjc
        obtain rfl : c = client := of_decide_eq_true hc
        rfl
      · exact .refl w
    | _ => exact .refl w

end Frame

section Telling
variable {w w' w'' : World} {d : ℕ} {ds : List ℕ}

/-- No offer when there is no selection, and else an offer of its source. -/
def Right (w : World) (o : Option ℕ) : Prop :=
  match w.seat.currentSelection with
  | none => o = none
  | some d => ∃ i x s, o = some i ∧ w.dataDevices d = some x ∧ x.dataSource = some s ∧
      w.dataOffers i = some ⟨s⟩

/-- These devices are told, and what they are told is right. -/
def Tells (w w' : World) (ds : List ℕ) : Prop :=
  ∃ ts, w'.told = w.told ++ ts ∧ (∀ t ∈ ts, w'.Right t.2) ∧ ts.map Prod.fst = ds

/-- The offers that are alive stay so, and a lookup that fails stops the program. -/
structure Sends (w w' : World) : Prop where
  framed : Framed w w'
  live : w'.Live = w.Live
  stays : w.stopped = true → w'.stopped = true
  seats : w'.clientSeats = w.clientSeats
  entries : w'.stopped = false → w'.seat.clientSeats = w.seat.clientSeats
  offers : ∀ o x, w.dataOffers o = some x → w'.dataOffers o = some x
  tells : ∃ ds, Tells w w' ds

theorem tells_of_eq (h : w'.told = w.told) : Tells w w' [] := ⟨[], by simp [h], by simp, rfl⟩

/-- One device is told. -/
theorem tells_one {d : ℕ} {o : Option ℕ} (ht : w'.told = w.told ++ [(d, o)]) (hr : w'.Right o) :
    Tells w w' [d] := by
  refine ⟨_, ht, fun t h => ?_, rfl⟩
  rw [List.mem_singleton.mp h]
  exact hr

theorem Sends.right (h : Sends w w') {o : Option ℕ} (ho : w.Right o) : w'.Right o := by
  unfold Right at ho ⊢
  rw [h.framed.selection]
  cases hc : w.seat.currentSelection with
  | none => rwa [hc] at ho
  | some d =>
    rw [hc] at ho
    obtain ⟨i, x, s, h1, h2, h3, h4⟩ := ho
    exact ⟨i, x, s, h1, h.framed.devices d x h2, h3, h.offers i _ h4⟩

theorem Tells.trans {ds' : List ℕ} (h : Tells w w' ds) (h' : Tells w' w'' ds')
    (hs : Sends w' w'') : Tells w w'' (ds ++ ds') := by
  obtain ⟨ts, h1, h2, h3⟩ := h
  obtain ⟨ts', h4, h5, h6⟩ := h'
  refine ⟨ts ++ ts', by rw [h4, h1, List.append_assoc], fun t ht => ?_, ?_⟩
  · rcases List.mem_append.mp ht with ht | ht
    · exact hs.right (h2 t ht)
    · exact h5 t ht
  · rw [List.map_append, h3, h6]

theorem Sends.running (h : Sends w w') (hs : w'.stopped = false) : w.stopped = false := by
  cases hw : w.stopped with
  | false => rfl
  | true =>
    rw [h.stays hw] at hs
    cases hs

theorem Sends.trans (h : Sends w w') (h' : Sends w' w'') : Sends w w'' where
  framed := h.framed.trans h'.framed
  live := h'.live.trans h.live
  stays := fun hs => h'.stays (h.stays hs)
  seats := h'.seats.trans h.seats
  entries := fun hs => (h'.entries hs).trans (h.entries (h'.running hs))
  offers := fun o x hx => h'.offers o x (h.offers o x hx)
  tells := by
    obtain ⟨ds, hd⟩ := h.tells
    obtain ⟨ds', hd'⟩ := h'.tells
    exact ⟨_, hd.trans hd' h'⟩

/-- The parts that a device is told of, and those that a lookup uses. -/
def sendParts (w : World) := (w.clientSeats, w.seat.clientSeats, w.dataOffers, w.told)

theorem sends_of_eq (hf : Framed w w') (hl : w'.Live = w.Live)
    (hs : w.stopped = true → w'.stopped = true) (hp : w'.sendParts = w.sendParts) : Sends w w' := by
  simp only [sendParts, Prod.mk.injEq] at hp
  obtain ⟨hc, he, ho, ht⟩ := hp
  exact ⟨hf, hl, hs, hc, fun _ => he, fun _ _ h => ho ▸ h, [], tells_of_eq ht⟩

theorem told_emit (w : World) {e : DeskEvent} (he : e.told? = none) : (w.emit e).told = w.told := by
  simp [told, emit, he]

theorem createOffer_sends (ht : w.Typed) {d device : ℕ} {x : DataDevice} {s : ℕ}
    (hc : w.seat.currentSelection = some d) (hx : w.dataDevices d = some x)
    (hs : x.dataSource = some s) : Sends w (w.createOffer device s) ∧
      ((w.createOffer device s).stopped = false → Tells w (w.createOffer device s) [device]) := by
  have hf : Framed w (w.createOffer device s) := (Change.offer (k := false) device s).framed
  have hl : (w.createOffer device s).Live = w.Live := (Change.offer (k := false) device s).live
  rcases createOffer_cases w device s with h1 | ⟨r, y, -, -, h1⟩
  · rw [h1] at hf ⊢
    refine ⟨sends_of_eq hf rfl (fun _ => crash_stopped w _) rfl, fun h => ?_⟩
    rw [crash_stopped] at h
    cases h
  · have hn : ∀ o z, w.dataOffers o = some z → o ≠ w.nextId := fun o z hz =>
      Nat.ne_of_lt (ht.lt (k := .dataOffer) (by simp [World.holds, hz]))
    have hT : Tells w (w.createOffer device s) [device] := by
      rw [h1]
      refine tells_one (o := some w.nextId) ?_ ?_
      · simp only [told, List.filterMap_append]
        rfl
      · simp only [Right, hc]
        exact ⟨w.nextId, x, s, rfl, hx, hs, Arena.set_self ..⟩
    refine ⟨⟨hf, hl, fun h => ?_, ?_, fun _ => ?_, fun o z hz => ?_, _, hT⟩, fun _ => hT⟩
    · rw [h1]
      exact h
    · rw [h1]
    · rw [h1]
    · rw [h1]
      exact (Arena.set_of_ne _ _ (hn o z hz)).trans hz

theorem sendSelection_sends (ht : w.Typed) (d : ℕ) : Sends w (w.sendSelection d) ∧
    ((w.sendSelection d).stopped = false → Tells w (w.sendSelection d) [d]) := by
  have hf : Framed w (w.sendSelection d) := (sendSelection_changes (k := false) w d).framed
  have crashed {f : Fault} (h : w.sendSelection d = w.crash f) : Sends w (w.sendSelection d) ∧
      ((w.sendSelection d).stopped = false → Tells w (w.sendSelection d) [d]) := by
    rw [h] at hf ⊢
    refine ⟨sends_of_eq hf rfl (fun _ => crash_stopped w _) rfl, fun h => ?_⟩
    rw [crash_stopped] at h
    cases h
  cases hc : w.seat.currentSelection with
  | none =>
    have h1 : w.sendSelection d = w.emit (.selection d none) := by simp only [sendSelection, hc]
    rw [h1] at hf ⊢
    have hT : Tells w (w.emit (.selection d none)) [d] := by
      refine tells_one (o := none) ?_ ?_
      · simp only [told, World.emit, List.filterMap_append]
        rfl
      · have hc' : (w.emit (.selection d none)).seat.currentSelection = none := hc
        simp only [Right, hc']
    exact ⟨⟨hf, rfl, fun h => h, rfl, fun _ => rfl, fun _ _ h => h, _, hT⟩, fun _ => hT⟩
  | some e =>
    cases hx : w.dataDevices e with
    | none => exact crashed (f := .useAfterFree) (by simp only [sendSelection, hc, hx])
    | some x =>
      cases hs : x.dataSource with
      | none => exact crashed (f := .noDataSource) (by simp only [sendSelection, hc, hx, hs])
      | some s =>
        have h1 : w.sendSelection d = w.createOffer d s := by
          simp only [sendSelection, hc, hx, hs]
        rw [h1]
        exact createOffer_sends ht hc hx hs

theorem Effect.sends {k t : Bool} (ht : w.Typed) (h : Effect k t w w') :
    Sends w w' ∧ (t = false → Tells w w' []) := by
  have hf : Framed w w' := h.changes.framed
  have hl : w'.Live = w.Live := h.changes.live
  have told_of {e : DeskEvent} (h : e.isPlain = true ∨ e.isKey = true) : e.told? = none := by
    cases e <;> first | rfl | simp [DeskEvent.isPlain, DeskEvent.isKey] at h
  have still (hs : w.stopped = true → w'.stopped = true) (hp : w'.sendParts = w.sendParts) :
      Sends w w' ∧ (t = false → Tells w w' []) := by
    refine ⟨sends_of_eq hf hl hs hp, fun _ => ?_⟩
    simp only [sendParts, Prod.mk.injEq] at hp
    exact tells_of_eq hp.2.2.2
  cases h with
  | crash f => exact still (fun _ => crash_stopped w f) rfl
  | noSeat client =>
    refine ⟨⟨hf, rfl, fun _ => crash_stopped _ _, rfl, fun h => ?_, fun _ _ h => h, [],
      tells_of_eq rfl⟩, fun _ => tells_of_eq rfl⟩
    rw [crash_stopped] at h
    cases h
  | emit he =>
    refine still (fun h => h) ?_
    simp only [sendParts, told_emit w (told_of (.inl he))]
    rfl
  | keyEvent _ he =>
    refine still (fun h => h) ?_
    simp only [sendParts, told_emit w (told_of (.inr he))]
    rfl
  | seat hs =>
    simp only [ServerSeat.held, Prod.mk.injEq] at hs
    refine still (fun h => h) ?_
    simp only [sendParts, hs, told]
  | raise i =>
    obtain ⟨l, S, h1, -⟩ := raiseSurfaceTop_eq w i
    refine still (fun h => ?_) ?_
    · rw [h1]
      exact h
    · rw [h1]
      rfl
  | dragApp b polar azimuthal =>
    refine still (fun h => ?_) rfl
    simp only [stopped, Bool.or_eq_true] at h ⊢
    refine h.imp_right fun h => ?_
    simp only [Scene.step, h, if_true]
  | send hs d =>
    subst hs
    exact ⟨(sendSelection_sends ht d).1, fun h => by cases h⟩
  | log | keyFocus | ray | expire | drag | followRay | becomeCursor | hide =>
    exact still (fun h => h) rfl

theorem Effects.typed {k t : Bool} (ht : w.Typed) (h : Effects k t w w') : w'.Typed :=
  Path.preserves (fun _ _ hc h => hc.typed h) h.changes ht

theorem Effects.sends {k t : Bool} (ht : w.Typed) (h : Effects k t w w') :
    Sends w w' ∧ (t = false → Tells w w' []) := by
  induction h with
  | refl => exact ⟨sends_of_eq (.refl w) rfl (fun h => h) rfl, fun _ => tells_of_eq rfl⟩
  | tail hp he ih =>
    obtain ⟨h1, h2⟩ := he.sends (Effects.typed ht hp)
    exact ⟨ih.1.trans h1, fun hf => (ih.2 hf).trans (h2 hf) h1⟩

/-- In a program that goes on, all devices in the list are told. -/
theorem sendSelections_tells (ht : w.Typed) (hs : (w.sendSelections ds).stopped = false) :
    Tells w (w.sendSelections ds) ds := by
  induction ds generalizing w with
  | nil => exact tells_of_eq rfl
  | cons d l ih =>
    have h1 : w.sendSelections (d :: l) =
        (w.andThen fun w => w.sendSelection d).sendSelections l := rfl
    have hp : Effects false true w (w.andThen fun w => w.sendSelection d) :=
      Effects.andThen .refl (.single (.send rfl d))
    have hrest := ((sendSelections_effects (k := false)
      (w.andThen fun w => w.sendSelection d) l).sends (hp.typed ht)).1
    rw [h1] at hs ⊢
    have hr := hrest.running hs
    have htd : Tells w (w.andThen fun w => w.sendSelection d) [d] := by
      have h2 := andThen_of_running hr
      rw [h2] at hr ⊢
      exact (sendSelection_sends ht d).2 hr
    exact htd.trans (ih (hp.typed ht) hs) hrest

/-- In a program that goes on, the seat was found. -/
theorem withSeatOf_running {o : BoundedObject} {f : World → ClientSeat → World}
    (hs : (w.withSeatOf o f).stopped = false) :
    ∃ client i x, w.clientOf o = some client ∧
      (w.seat.clientSeats client).join.bind w.clientSeats = some x ∧
      w.withSeatOf o f = f (w.logLookup client (some i) (w.ownsSeat client i)) x := by
  unfold withSeatOf at hs ⊢
  cases hc : w.clientOf o with
  | none =>
    simp only [hc, crash_stopped] at hs
    cases hs
  | some client =>
    simp only [hc, withClientSeat] at hs ⊢
    cases hj : (w.seat.clientSeats client).join with
    | none =>
      simp only [hj, crash_stopped] at hs
      cases hs
    | some i =>
      simp only [hj] at hs ⊢
      cases hx : w.clientSeats i with
      | none =>
        simp only [hx, crash_stopped] at hs
        cases hs
      | some x => exact ⟨client, i, x, rfl, by simp [hj, hx], rfl⟩

/-- The client of a surface that gets the keyboard is told. -/
theorem enterKeyboard_tells (ht : w.Typed) {i client : ℕ}
    (hc : w.clientOf (.surface i) = some client) (hs : (w.enterKeyboard i).stopped = false) :
    Tells w (w.enterKeyboard i) (w.listedDevices client) := by
  obtain ⟨c, j, x, hc', hx, h1⟩ := withSeatOf_running hs
  obtain rfl : c = client := Option.some.inj (hc'.symm.trans hc)
  have hl : w.listedDevices c = x.dataDevices := by
    simp only [listedDevices, hx]
    rfl
  unfold enterKeyboard at hs ⊢
  rw [h1] at hs ⊢
  rw [hl]
  have hp : Effects true false w ((w.logLookup c (some j) (w.ownsSeat c j)).emit
      (.keyboardEnter x.keyboards i)) :=
    .trans (.single (.log _ _)) (.single (.keyEvent rfl rfl))
  have hrest := ((sendSelections_effects (k := false)
    ((w.logLookup c (some j) (w.ownsSeat c j)).emit (.keyboardEnter x.keyboards i))
    x.dataDevices).sends (hp.typed ht)).1
  exact ((hp.sends ht).2 rfl).trans (sendSelections_tells (hp.typed ht) hs) hrest

theorem Sends.listed (h : Sends w w') (hs : w'.stopped = false) (client : ℕ) :
    w'.listedDevices client = w.listedDevices client := by
  simp only [listedDevices, h.seats, h.entries hs]

theorem Framed.clientOf (h : Framed w w') {i c : ℕ} (hi : i < w.nextId)
    (hc : w'.clientOf (.surface i) = some c) : w.clientOf (.surface i) = some c := by
  simp only [World.clientOf, Option.map_eq_some_iff] at hc ⊢
  obtain ⟨r, hr, hrc⟩ := hc
  exact ⟨r, h.resources i hi r hr, hrc⟩

/-- A surface that gets the keyboard has it afterwards, and its client is told. -/
theorem setKeyboardFocusedSurface_tells (ht : w.Typed) {i : ℕ} (hi : i < w.nextId)
    (hk : w.surfaces.lock w.seat.keyboardFocusedSurface ≠ some i)
    (hs : (w.setKeyboardFocusedSurface i).stopped = false) :
    (w.setKeyboardFocusedSurface i).seat.keyboardFocusedSurface = some i ∧
      ∃ client, w.clientOf (.surface i) = some client ∧
        Tells w (w.setKeyboardFocusedSurface i) (w.listedDevices client) := by
  unfold setKeyboardFocusedSurface at hs ⊢
  rw [if_neg hk] at hs ⊢
  have h1 := andThen_of_running hs
  rw [h1] at hs ⊢
  have h2 := andThen_of_running hs
  rw [h2] at hs ⊢
  have h3 := andThen_of_running hs
  rw [h3] at hs ⊢
  have hs' : ((w.tryLeaveKeyboard.onFocus i).enterKeyboard i).stopped = false := hs
  -- nobody is told before the surface is entered
  have hp : Effects true false w (w.tryLeaveKeyboard.onFocus i) :=
    (tryLeaveKeyboard_effects w).trans (onFocus_effects _ i)
  have hq := ((enterKeyboard_effects (w.tryLeaveKeyboard.onFocus i) i).sends (hp.typed ht)).1
  obtain ⟨h4, h5⟩ := hp.sends ht
  obtain ⟨c, -, -, hc, -⟩ := withSeatOf_running hs'
  have h6 := (h5 rfl).trans (enterKeyboard_tells (hp.typed ht) hc hs') hq
  rw [h4.listed (hq.running hs')] at h6
  exact ⟨rfl, c, h4.framed.clientOf hi hc, h6⟩

theorem point_surfaces (w : World) (o : BoundedObject) (c : ObjectCall) :
    (w.point o c).surfaces = w.surfaces ∧ (w.point o c).surfaceList = w.surfaceList := by
  unfold point withSeatOf withClientSeat
  split
  · exact ⟨rfl, rfl⟩
  · split
    · exact ⟨rfl, rfl⟩
    · split
      · exact ⟨rfl, rfl⟩
      · dsimp only
        split <;> exact ⟨rfl, rfl⟩

/-- A press on a surface leaves the keyboard with it, and its client is told when it did not have
it. -/
theorem press_tells (ht : w.Typed) {button : UInt32} {hits : Hits} {i : ℕ}
    (ho : w.lock w.seat.focusedObj = some (.surface i))
    (hl : (w.getSurfaceFromResource i).isSome = true)
    (hs : (w.handleMouseButton button true hits).stopped = false) :
    (w.handleMouseButton button true hits).seat.keyboardFocusedSurface = some i ∧
      if w.surfaces.lock w.seat.keyboardFocusedSurface = some i then
        Tells w (w.handleMouseButton button true hits) []
      else ∃ client, w.clientOf (.surface i) = some client ∧
        Tells w (w.handleMouseButton button true hits) (w.listedDevices client) := by
  have hi : i < w.nextId := by
    rcases w.getSurfaceFromResource_eq i with h1 | ⟨-, -, h1⟩
    · simp [h1] at hl
    · exact ht.lt (k := .surface) h1
  have h0 : w.handleMouseButton button true hits =
      (w.button (.surface i) button true).andThen fun w => w.point (.surface i) .frame := by
    unfold handleMouseButton
    rw [if_neg (by simp), ho]
  rw [h0] at hs ⊢
  have h1 := andThen_of_running hs
  rw [h1] at hs ⊢
  have hq (u : World) : Effects true false u (u.point (.surface i) .frame) := point_effects _ _ _
  have hb : (w.button (.surface i) button true).Typed :=
    Effects.typed ht
      ((point_effects (k := true) (t := true) w _ _).andThen (pressed_effects _ _ true))
  have hs1 : (w.button (.surface i) button true).stopped = false := ((hq _).sends hb).1.running hs
  have h2 : w.button (.surface i) button true =
      (w.point (.surface i) (.button button true)).setKeyboardFocusedSurface i := by
    have h3 := andThen_of_running hs1
    have hl' : ((w.point (.surface i) (.button button true)).getSurfaceFromResource i).isSome := by
      unfold getSurfaceFromResource at hl ⊢
      rwa [(point_surfaces w _ _).1, (point_surfaces w _ _).2]
    refine h3.trans ?_
    simp only [pressed, hl', Bool.and_self, if_true]
  rw [h2] at hs hs1 hb ⊢
  have hp : Effects true false w (w.point (.surface i) (.button button true)) := point_effects _ _ _
  obtain ⟨hps, hpt⟩ := hp.sends ht
  have hk : (w.point (.surface i) (.button button true)).surfaces.lock
      (w.point (.surface i) (.button button true)).seat.keyboardFocusedSurface =
      w.surfaces.lock w.seat.keyboardFocusedSurface := by
    rw [(point_surfaces w _ _).1, point_keyboard]
  have hend := ((hq _).sends hb).2 rfl
  rw [point_keyboard]
  by_cases hf : w.surfaces.lock w.seat.keyboardFocusedSurface = some i
  · have h4 : (w.point (.surface i) (.button button true)).setKeyboardFocusedSurface i =
        w.point (.surface i) (.button button true) := if_pos (hk.trans hf)
    rw [h4] at hend hb ⊢
    rw [if_pos hf]
    refine ⟨?_, (hpt rfl).trans hend ((hq _).sends hb).1⟩
    rw [point_keyboard]
    exact (Arena.lock_eq_some.mp hf).1
  · obtain ⟨h5, c, hc, h6⟩ := setKeyboardFocusedSurface_tells (hp.typed ht)
      (hi.trans_le hps.framed.nextId) (by rwa [hk]) hs1
    have hset := ((setKeyboardFocusedSurface_effects
      (w.point (.surface i) (.button button true)) i).sends (hp.typed ht)).1
    have h7 := ((hpt rfl).trans h6 hset).trans hend ((hq _).sends hb).1
    rw [hps.listed (hset.running hs1)] at h7
    rw [if_neg hf]
    exact ⟨h5, c, hps.framed.clientOf hi hc, by simpa using h7⟩

theorem tryLeaveKeyboard_keyboard (hs : w.tryLeaveKeyboard.stopped = false) :
    w.tryLeaveKeyboard.seat.keyboardFocusedSurface = w.seat.keyboardFocusedSurface ∨
      w.tryLeaveKeyboard.seat.keyboardFocusedSurface = none := by
  unfold tryLeaveKeyboard at hs ⊢
  cases hl : w.surfaces.lock w.seat.keyboardFocusedSurface with
  | none => exact .inl rfl
  | some i =>
    simp only [hl] at hs ⊢
    have h1 := andThen_of_running hs
    rw [h1] at hs ⊢
    rw [andThen_of_running hs]
    exact .inr rfl

/-- Without a press on a surface the keyboard stays or is taken away. -/
theorem handleMouseButton_keyboard {button : UInt32} {isPressed : Bool} {hits : Hits}
    (hn : ∀ i, w.lock w.seat.focusedObj = some (.surface i) →
      (w.getSurfaceFromResource i).isSome = true → isPressed = false)
    (hs : (w.handleMouseButton button isPressed hits).stopped = false) :
    (w.handleMouseButton button isPressed hits).seat.keyboardFocusedSurface =
        w.seat.keyboardFocusedSurface ∨
      (w.handleMouseButton button isPressed hits).seat.keyboardFocusedSurface = none := by
  have kept {u u' : World} {t : Bool} (h : Effects false t u u') :
      u'.seat.keyboardFocusedSurface = u.seat.keyboardFocusedSurface :=
    (focus_of_keyboard h.changes.unkeyed.keyboard).2
  unfold handleMouseButton at hs ⊢
  by_cases hm : w.seat.objState = .moving ∧ isPressed = false
  · rw [if_pos hm]
    exact .inl (kept (endMove_effects w hits))
  · rw [if_neg hm] at hs ⊢
    cases ho : w.lock w.seat.focusedObj with
    | some o =>
      simp only [ho] at hs ⊢
      have hp (u : World) : Effects false true u (u.pressed o isPressed) ∨
          ∃ i, o = .surface i ∧ isPressed = true ∧ (u.getSurfaceFromResource i).isSome = true := by
        cases o with
        | app b => exact .inl .refl
        | surface i =>
          by_cases h : isPressed = true ∧ (u.getSurfaceFromResource i).isSome = true
          · exact .inr ⟨i, rfl, h⟩
          · have h1 : u.pressed (.surface i) isPressed = u := if_neg (by simpa using h)
            rw [h1]
            exact .inl .refl
      refine .inl (kept (t := true) (Effects.andThen (Effects.andThen (point_effects w o _) ?_)
        (point_effects _ o _)))
      rcases hp (w.point o (.button button isPressed)) with h | ⟨i, rfl, hi, hl⟩
      · exact h
      · have hl' : (w.getSurfaceFromResource i).isSome = true := by
          unfold getSurfaceFromResource at hl ⊢
          rwa [(point_surfaces w _ _).1, (point_surfaces w _ _).2] at hl
        rw [hn i ho hl'] at hi
        cases hi
    | none =>
      simp only [ho] at hs ⊢
      split at hs
      · next hi =>
        rw [if_pos hi]
        exact tryLeaveKeyboard_keyboard hs
      · next hi =>
        rw [if_neg hi]
        exact .inl rfl

theorem Right.offer {o : ℕ} (h : w.Right (some o)) : (w.dataOffers o).isSome = true := by
  unfold Right at h
  split at h
  · cases h
  · obtain ⟨i, x, s, h1, -, -, h2⟩ := h
    cases h1
    simp [h2]

theorem mem_told_of_last {o : Option ℕ} (h : w.lastTold d = some o) :
    (d, o) ∈ w.told := by
  obtain ⟨t, ht, rfl⟩ := Option.map_eq_some_iff.mp h
  obtain ⟨h1, h2⟩ := List.mem_filter.mp (List.mem_of_getLast? ht)
  rwa [← of_decide_eq_true h2]

theorem lastTold_append {ts : List (ℕ × Option ℕ)} (ht : w'.told = w.told ++ ts) :
    w'.lastTold d = (((ts.filter fun t => t.1 = d).getLast?).map Prod.snd).or (w.lastTold d) := by
  simp only [lastTold, ht, List.filter_append, List.getLast?_append]
  cases (ts.filter fun t => t.1 = d).getLast? <;> rfl

theorem Tells.lastTold_of_notMem (h : Tells w w' ds) (hd : d ∉ ds) :
    w'.lastTold d = w.lastTold d := by
  obtain ⟨ts, h1, -, rfl⟩ := h
  have h2 : ts.filter (fun t => t.1 = d) = [] := by
    refine List.filter_eq_nil_iff.mpr fun t ht htd => hd ?_
    exact List.mem_map.mpr ⟨t, ht, of_decide_eq_true htd⟩
  simp [lastTold_append h1, h2]

theorem Tells.lastTold_of_mem (h : Tells w w' ds) (hd : d ∈ ds) :
    ∃ o, w'.lastTold d = some o ∧ w'.Right o := by
  obtain ⟨ts, h1, h2, rfl⟩ := h
  obtain ⟨t, ht, rfl⟩ := List.mem_map.mp hd
  obtain ⟨u, hu⟩ : ∃ u, (ts.filter fun u => u.1 = t.1).getLast? = some u := by
    refine Option.ne_none_iff_exists'.mp fun hn => ?_
    have h3 := List.getLast?_eq_none_iff.mp hn
    exact List.filter_eq_nil_iff.mp h3 t ht (by simp)
  refine ⟨u.2, by simp [lastTold_append h1, hu], h2 u ?_⟩
  exact (List.mem_filter.mp (List.mem_of_getLast? hu)).1

end Telling

section Steps
variable {w w' : World} {a : Action}

theorem commitSurface_told (i : ℕ) : (w.commitSurface i).told = w.told := by
  have hb (x : Surface) : (w.commitBuffer i x).told = w.told := by
    unfold commitBuffer
    split
    · rfl
    · split
      · rfl
      · exact told_emit _ rfl
  have hx (l : List ℕ) : (l.map DeskEvent.xdgConfigure).filterMap DeskEvent.told? = [] := by
    simp [List.filterMap_map, Function.comp_def, DeskEvent.told?]
  unfold commitSurface
  split
  · rfl
  · next x _ =>
    unfold World.andThen
    split
    · exact hb x
    · refine Eq.trans ?_ (hb x)
      simp only [told, notifyXdg, modifySurface, List.filterMap_append, hx, List.append_nil]

theorem joinSeat_told (client : ℕ) (f : ClientSeat → ClientSeat) :
    (w.joinSeat client f).told = w.told := by
  unfold joinSeat withClientSeat
  split
  · rfl
  · split <;> rfl

theorem askSource_told (o : ℕ) {e : ℕ → DeskEvent} (he : ∀ s, (e s).told? = none) :
    (w.askSource o e).told = w.told := by
  unfold askSource
  split
  · rfl
  · split
    · exact told_emit w (he _)
    · rfl

theorem frameTimer_told (busyness : ℕ) : (w.frameTimer busyness).told = w.told := by
  have hx (l : List ℕ) : (l.map DeskEvent.callbackDone).filterMap DeskEvent.told? = [] := by
    simp [List.filterMap_map, Function.comp_def, DeskEvent.told?]
  unfold frameTimer
  split
  · simp only [told, sessionFrame, List.filterMap_append, hx, List.append_nil]
  · rfl

/-- Nobody is told of anything by a request, but for that of a data device. -/
theorem handle_told (ht : w.Typed) (client : ℕ) {r : DeskRequest} (hr : r ≠ .getDataDevice) :
    Tells w (w.handle client r) [] := by
  cases r with
  | createSurface texSize =>
    obtain ⟨l, S, h1, -⟩ := w.createSurface_eq client texSize
    exact tells_of_eq (by simp only [handle, h1]; rfl)
  | commit s => exact tells_of_eq (commitSurface_told s)
  | getToplevel x =>
    simp only [handle, createToplevel]
    split <;> exact tells_of_eq rfl
  | moveToplevel t => exact ((requestStartMove_effects (k := false) w client).sends ht).2 rfl
  | setCursor p s hotspot =>
    exact ((setSurfaceAsCursor_effects (k := false) w s hotspot).sends ht).2 rfl
  | getPointer i => exact tells_of_eq (joinSeat_told client _)
  | getKeyboard i => exact tells_of_eq (joinSeat_told client _)
  | getRay => exact tells_of_eq (joinSeat_told client _)
  | getDataDevice => exact absurd rfl hr
  | setSelection d s =>
    cases s <;> exact tells_of_eq rfl
  | accept o mimeType =>
    exact tells_of_eq (askSource_told o (e := fun s => .sourceTarget s mimeType) fun _ => rfl)
  | receive o mimeType =>
    exact tells_of_eq (askSource_told o (e := fun s => .sourceSend s mimeType) fun _ => rfl)
  | _ => exact tells_of_eq rfl

/-- A new data device. -/
def joinDevice (w : World) (client : ℕ) : World :=
  { w.newResource client .dataDevice with
    dataDevices := w.dataDevices.set w.nextId {} }.joinSeat client fun x =>
      { x with dataDevices := w.nextId :: x.dataDevices }

theorem joinDevice_typed (ht : w.Typed) (client : ℕ) : (w.joinDevice client).Typed :=
  Path.preserves (fun _ _ hc h => hc.typed h) (joinSeat_changes (k := false) _ client _)
    (direct_typed ht client .getDataDevice)

/-- A new data device is told of the selection when its client has the keyboard. -/
theorem createDataDevice_tells (ht : w.Typed) (client : ℕ) :
    ∃ ds, Tells w (w.createDataDevice client) ds ∧
      ((w.createDataDevice client).stopped = false →
        (w.createDataDevice client).isFocusedClient client = true → w.nextId ∈ ds) := by
  have h0 : w.createDataDevice client = (w.joinDevice client).andThen fun w' =>
      if w'.isFocusedClient client then w'.sendSelection w.nextId else w' := rfl
  have h1 : Tells w (w.joinDevice client) [] := tells_of_eq (joinSeat_told client _)
  rw [h0]
  unfold World.andThen
  split
  · next hs =>
    refine ⟨[], h1, fun h => ?_⟩
    rw [hs] at h
    cases h
  · obtain ⟨h2, h3⟩ := sendSelection_sends (joinDevice_typed ht client) w.nextId
    dsimp only
    split
    · cases hs : ((w.joinDevice client).sendSelection w.nextId).stopped with
      | true =>
        obtain ⟨ds, h4⟩ := h2.tells
        exact ⟨_, h1.trans h4 h2, fun h => by cases h⟩
      | false => exact ⟨_, h1.trans (h3 hs) h2, fun _ _ => List.mem_singleton_self _⟩
    · next hf => exact ⟨[], h1, fun _ h => absurd h hf⟩

/-- What a step tells to whom, but for the buttons. -/
theorem act_tells (ht : w.Typed) (hb : a.isButton = false) :
    ∃ ds, Tells w (w.act a) ds ∧ ∀ client, a = .desk client .getDataDevice →
      w.admits client .getDataDevice = true → (w.act a).stopped = false →
        (w.act a).isFocusedClient client = true → w.nextId ∈ ds := by
  have quiet (h : Tells w (w.act a) []) (hd : ∀ client, a ≠ .desk client .getDataDevice) :
      ∃ ds, Tells w (w.act a) ds ∧ ∀ client, a = .desk client .getDataDevice →
        w.admits client .getDataDevice = true → (w.act a).stopped = false →
          (w.act a).isFocusedClient client = true → w.nextId ∈ ds :=
    ⟨[], h, fun client hc => absurd hc (hd client)⟩
  have sent {t : Bool} (h : Effects false t w (w.act a))
      (hd : ∀ client, a ≠ .desk client .getDataDevice) :
      ∃ ds, Tells w (w.act a) ds ∧ ∀ client, a = .desk client .getDataDevice →
        w.admits client .getDataDevice = true → (w.act a).stopped = false →
          (w.act a).isFocusedClient client = true → w.nextId ∈ ds := by
    obtain ⟨ds, h1⟩ := (h.sends ht).1.tells
    exact ⟨ds, h1, fun client hc => absurd hc (hd client)⟩
  cases a with
  | desk client r =>
    by_cases had : w.admits client r = true
    · by_cases hr : r = .getDataDevice
      · subst hr
        obtain ⟨ds, h1, h2⟩ := createDataDevice_tells ht client
        have he : w.act (.desk client .getDataDevice) = w.createDataDevice client := act_desk had
        rw [he]
        refine ⟨ds, h1, fun c hc _ => ?_⟩
        obtain ⟨rfl, -⟩ := Action.desk.inj hc
        exact h2
      · refine quiet ?_ fun c hc => hr (Action.desk.inj hc).2
        rw [act_desk had]
        exact handle_told ht client hr
    · refine ⟨[], ?_, fun c hc hc' => ?_⟩
      · simp only [act, had]
        exact tells_of_eq rfl
      · obtain ⟨rfl, rfl⟩ := Action.desk.inj hc
        exact absurd hc' had
  | zwin client r =>
    refine quiet ?_ fun c hc => by cases hc
    simp only [act, addBoundedApp]
    split <;> exact tells_of_eq rfl
  | destroyZwin client r => exact quiet (tells_of_eq rfl) fun c hc => by cases hc
  | destroy client i =>
    refine quiet ?_ fun c hc => by cases hc
    simp only [act]
    split
    · unfold destroyResource
      split
      · exact tells_of_eq rfl
      · next r _ => cases r.interface <;> exact tells_of_eq rfl
    · exact tells_of_eq rfl
  | moveBounded client b =>
    refine quiet ?_ fun c hc => by cases hc
    simp only [act]
    split
    · exact ((requestStartMove_effects (k := false) w client).sends ht).2 rfl
    · exact tells_of_eq rfl
  | peerDiscover connected =>
    refine quiet ?_ fun c hc => by cases hc
    simp only [act, peerDiscover]
    split <;> exact tells_of_eq rfl
  | sessionDisconnect =>
    refine quiet ?_ fun c hc => by cases hc
    simp only [act, sessionDisconnect]
    split <;> exact tells_of_eq rfl
  | frameTimer busyness =>
    exact quiet (tells_of_eq (frameTimer_told busyness)) fun c hc => by cases hc
  | mouseMove polar azimuthal hits =>
    exact sent (moveRelPointing_effects w polar azimuthal hits) fun c hc => by cases hc
  | mouseButton button isPressed hits => cases hb
  | mouseWheel amount =>
    exact sent (t := false) (handleMouseWheel_effects w amount) fun c hc => by cases hc

theorem Change.owns {k : Bool} (h : Change k w w') {c d : ℕ} (hd : w'.OwnsDevice c d) :
    w.OwnsDevice c d := by
  unfold OwnsDevice at hd ⊢
  cases h with
  | other _ _ hg | focus _ _ hg =>
    rcases hg.bare d _ hd with h1 | h1
    · exact h1
    · cases h1
  | expire => exact hd
  | raise i =>
    obtain ⟨l, S, h1, -⟩ := raiseSurfaceTop_eq w i
    rwa [h1] at hd
  | offer e s =>
    rcases createOffer_cases w e s with h1 | ⟨r, x, -, -, h1⟩
    · rwa [h1] at hd
    · simp only [h1, Arena.set_apply] at hd
      split at hd
      · cases hd
      · exact hd
  | cursor i => exact hd

theorem Changes.owns {k : Bool} (h : Changes k w w') {c d : ℕ} (hd : w'.OwnsDevice c d) :
    w.OwnsDevice c d := by
  induction h with
  | refl => exact hd
  | tail _ hc ih => exact ih (hc.owns hd)

theorem newResource_owns {client : ℕ} (interface : DeskInterface) (hi : interface ≠ .dataDevice)
    {c d : ℕ} (hd : (w.newResource client interface).OwnsDevice c d) : w.OwnsDevice c d := by
  unfold OwnsDevice at hd ⊢
  simp only [newResource, Arena.set_apply] at hd
  split at hd
  · cases hd
    exact absurd rfl hi
  · exact hd

theorem direct_owns {client : ℕ} {r : DeskRequest} {c d : ℕ}
    (hd : (w.direct client r).OwnsDevice c d) :
    w.OwnsDevice c d ∨ r = .getDataDevice ∧ c = client ∧ d = w.nextId := by
  cases r with
  | createWlBuffer b => exact .inl (newResource_owns .wlBuffer (by simp) hd)
  | createSurface texSize =>
    obtain ⟨l, S, h1, -⟩ := w.createSurface_eq client texSize
    simp only [direct, handle, h1] at hd
    exact .inl (newResource_owns .surface (by simp) hd)
  | commit s =>
    obtain ⟨-, -, -, -, -, -, -, hr, -⟩ := w.commitSurface_rest s
    simp only [direct, handle, OwnsDevice, hr] at hd
    exact .inl hd
  | getXdgSurface s => exact .inl (newResource_owns .xdgSurface (by simp) hd)
  | getToplevel x =>
    simp only [direct, handle, createToplevel] at hd
    split at hd
    · exact .inl hd
    · exact .inl (newResource_owns .xdgToplevel (by simp) hd)
  | createDataSource => exact .inl (newResource_owns .dataSource (by simp) hd)
  | getDataDevice =>
    simp only [direct, OwnsDevice, newResource, Arena.set_apply] at hd
    split at hd
    · next hdn =>
      cases hd
      exact .inr ⟨rfl, rfl, hdn⟩
    · exact .inl hd
  | setSelection d s => cases s <;> exact .inl hd
  | _ => exact .inl hd

/-- A data device is there before a step, or made by it. -/
theorem act_owns {c d : ℕ} (hd : (w.act a).OwnsDevice c d) : w.OwnsDevice c d ∨
    a = .desk c .getDataDevice ∧ w.admits c .getDataDevice = true ∧ d = w.nextId := by
  have h1 := (act_changes w a).owns hd
  cases a with
  | desk client r =>
    simp only [directly] at h1
    split at h1
    · next had =>
      rcases direct_owns h1 with h2 | ⟨rfl, rfl, h2⟩
      · exact .inl h2
      · exact .inr ⟨rfl, had, h2⟩
    · exact .inl h1
  | destroy client j =>
    refine .inl ?_
    simp only [directly] at h1
    split at h1
    · unfold OwnsDevice destroyResource at h1
      split at h1
      · exact h1
      · simp only [Arena.erase_apply] at h1
        split at h1
        · cases h1
        · exact h1
    · exact h1
  | _ => exact .inl h1

theorem isFocusedClient_iff {c : ℕ} : w.isFocusedClient c = true ↔
    ∃ i, w.surfaces.lock w.seat.keyboardFocusedSurface = some i ∧
      w.clientOf (.surface i) = some c := by
  unfold isFocusedClient
  cases hl : w.surfaces.lock w.seat.keyboardFocusedSurface with
  | none => simp
  | some i => simp

theorem act_keyboardFocus (hb : a.isButton = false) :
    (w.act a).seat.keyboardFocusedSurface = w.seat.keyboardFocusedSurface := by
  have h := act_changes w a
  rw [hb] at h
  exact (focus_of_keyboard h.unkeyed.keyboard).2.trans
    (focus_of_keyboard (directly_apart w a).keyboard).2

/-- A client that has the keyboard had it, where the keyboard stays. -/
theorem Framed.focusedClient (h : Framed w w')
    (hk : w'.seat.keyboardFocusedSurface = w.seat.keyboardFocusedSurface)
    (hi : ∀ i, w.seat.keyboardFocusedSurface = some i → i < w.nextId) {c : ℕ}
    (hc : w'.isFocusedClient c = true) : w.isFocusedClient c = true := by
  obtain ⟨i, hl, hc⟩ := isFocusedClient_iff.mp hc
  obtain ⟨h1, h2⟩ := Arena.lock_eq_some.mp hl
  rw [hk] at h1
  have h3 := hi i h1
  exact isFocusedClient_iff.mpr ⟨i, Arena.lock_eq_some.mpr ⟨h1, h.alive i h3 h2⟩,
    h.clientOf h3 hc⟩

end Steps

end World
end Yaza
