import Yaza.Server.Objects

/-! The raw pointers of the selection: from the seat to a data device, from that and from the offers
to a data source, and in which runs they are always alive. -/
namespace Yaza
namespace World

/-- Whatever uses the selection or an offer next, finds what it follows alive, and a source. -/
structure SelectionLive (w : World) : Prop where
  device : ∀ d, w.seat.currentSelection = some d → ∃ x s, w.dataDevices d = some x ∧
    x.dataSource = some s ∧ (w.dataSources s).isSome
  offer : ∀ o x, w.dataOffers o = some x → (w.dataSources x.dataSource).isSome

/-- The object is neither the current selection nor its source, nor that of another live offer. -/
structure SelectionFree (w : World) (j : ℕ) : Prop where
  device : w.seat.currentSelection ≠ some j
  source : ∀ d x, w.seat.currentSelection = some d → w.dataDevices d = some x →
    x.dataSource ≠ some j
  offer : ∀ o x, o ≠ j → w.dataOffers o = some x → x.dataSource ≠ j

/-- No selection is made of a null source, and no object in use is destroyed. -/
def KeepsSelection (w : World) : Action → Prop
  | .desk client (.setSelection d none) =>
    w.stopped = false → w.admits client (.setSelection d none) = false
  | .destroy client j =>
    w.stopped = false → (w.resources j).any (fun r => r.client = client) = true →
      w.SelectionFree j
  | _ => True

/-- The step leaves the selection alive, and it does not stop in `set_selection`. -/
def Selects (w : World) (a : Action) : Prop :=
  (w.step a).SelectionLive ∧
    ∀ client d s, a = .desk client (.setSelection d s) → w.stopped = false →
      (w.step a).stopped = false

section Steps
variable {w w' : World}

/-- The selection stays as it is, and what it refers to stays alive. -/
theorem SelectionLive.mono (h : w.SelectionLive)
    (hc : w'.seat.currentSelection = w.seat.currentSelection)
    (hd : ∀ d x, w.dataDevices d = some x → w'.dataDevices d = some x)
    (hs : ∀ s, (w.dataSources s).isSome → (w'.dataSources s).isSome)
    (ho : ∀ o x, w'.dataOffers o = some x → w.dataOffers o = some x) : w'.SelectionLive where
  device := fun d hd' => by
    obtain ⟨x, s, hx, hxs, hl⟩ := h.device d (hc ▸ hd')
    exact ⟨x, s, hd d x hx, hxs, hs s hl⟩
  offer := fun o x hx => hs _ (h.offer o x (ho o x hx))

theorem SelectionLive.of_desk (hw : w.SelectionLive) (h : w'.desk = w.desk) :
    w'.SelectionLive := by
  simp only [desk, Prod.mk.injEq] at h
  obtain ⟨-, -, -, -, -, hd, hs, ho, hc, -⟩ := h
  exact hw.mono hc (fun d x hx => hd ▸ hx) (fun s hl => Arena.isSome_of_mapAll hs s ▸ hl)
    fun o x hx => ho ▸ hx

/-- Offers are made of sources that are alive. -/
theorem Change.selection {b : Bool} (h : Change b w w') (hw : w.SelectionLive) :
    w'.SelectionLive := by
  cases h with
  | other hd => exact hw.of_desk hd
  | focus _ hd => exact hw.of_desk hd
  | expire => exact hw.mono rfl (fun _ _ h => h) (fun _ h => h) fun _ _ h => h
  | raise i =>
    obtain ⟨l, S, h1, -⟩ := raiseSurfaceTop_eq w i
    rw [h1]
    exact hw.mono rfl (fun _ _ h => h) (fun _ h => h) fun _ _ h => h
  | offer d s =>
    rcases createOffer_cases w d s with h1 | ⟨r, y, -, hy, h1⟩
    · rw [h1]
      exact hw.mono rfl (fun _ _ h => h) (fun _ h => h) fun _ _ h => h
    · rw [h1]
      refine ⟨hw.device, fun o x hx => ?_⟩
      simp only [Arena.set_apply] at hx
      split at hx
      · cases hx
        simp [hy]
      · exact hw.offer o x hx
  | cursor i => exact hw.mono rfl (fun _ _ h => h) (fun _ h => h) fun _ _ h => h

theorem commitSurface_selection (hw : w.SelectionLive) (i : ℕ) :
    (w.commitSurface i).SelectionLive := by
  obtain ⟨-, -, h1, h2, h3, h4, -⟩ := w.commitSurface_rest i
  exact hw.mono (by rw [h1]) (fun _ _ h => h2 ▸ h) (fun _ h => h3 ▸ h) fun _ _ h => h4 ▸ h

/-- What a client asks for keeps the selection alive, a null source apart. -/
theorem direct_selection (ht : w.Typed) (hw : w.SelectionLive) {client : ℕ} {r : DeskRequest}
    (ha : w.admits client r = true) : (w.direct client r).SelectionLive := by
  cases r with
  | createWlBuffer b => exact hw.mono rfl (fun _ _ h => h) (fun _ h => h) fun _ _ h => h
  | createSurface texSize =>
    obtain ⟨l, S, h1, -⟩ := w.createSurface_eq client texSize
    simp only [direct, handle, h1]
    exact hw.mono rfl (fun _ _ h => h) (fun _ h => h) fun _ _ h => h
  | attach s b d => exact hw.mono rfl (fun _ _ h => h) (fun _ h => h) fun _ _ h => h
  | commit s => exact commitSurface_selection hw s
  | getXdgSurface s => exact hw.mono rfl (fun _ _ h => h) (fun _ h => h) fun _ _ h => h
  | getToplevel x =>
    simp only [direct, handle, createToplevel]
    split <;> exact hw.mono rfl (fun _ _ h => h) (fun _ h => h) fun _ _ h => h
  | createDataSource =>
    refine hw.mono rfl (fun _ _ h => h) (fun s hs => ?_) fun _ _ h => h
    change (w.dataSources.set w.nextId {} s).isSome
    rw [Arena.set_apply]
    split
    · rfl
    · exact hs
  | getDataDevice =>
    refine hw.mono rfl (fun d x hx => ?_) (fun _ h => h) fun _ _ h => h
    have hn : w.dataDevices w.nextId = none := by simpa [World.holds] using ht.unused .dataDevice
    have hdn : d ≠ w.nextId := by
      rintro rfl
      simp [hn] at hx
    exact (Arena.set_of_ne w.dataDevices _ hdn).trans hx
  | setSelection d source =>
    cases source with
    | none => exact hw.mono rfl (fun _ _ h => h) (fun _ h => h) fun _ _ h => h
    | some s =>
      have hrd := admits_object ha (i := d) (k := .dataDevice) (by simp [DeskRequest.objects])
      have hrs := admits_object ha (i := s) (k := .dataSource) (by simp [DeskRequest.objects])
      have hdl := ht.object d client _ hrd rfl
      have hsl := ht.object s client _ hrs rfl
      obtain ⟨x, hx⟩ := Option.isSome_iff_exists.mp hdl
      refine ⟨fun d' hd' => ?_, hw.offer⟩
      cases hd'
      exact ⟨{ x with dataSource := some s }, s, by simp [direct, handle, setSelection, hx],
        rfl, hsl⟩
  | _ => exact hw

/-- A destroyed object leaves the selection alive exactly when it is not in use. -/
theorem destroyResource_selection (ht : w.Typed) (hw : w.SelectionLive) {j : ℕ}
    (hj : (w.resources j).isSome) :
    (w.destroyResource j).SelectionLive ↔ w.SelectionFree j := by
  obtain ⟨r, hr⟩ := Option.isSome_iff_exists.mp hj
  have gone (k : DeskInterface) : (w.destroyResource j).holds k j = false := by
    simp [ht.holds_destroy j]
  have kept : ∀ i, i ≠ j → (w.destroyResource j).dataDevices i = w.dataDevices i ∧
      (w.destroyResource j).dataSources i = w.dataSources i ∧
      (w.destroyResource j).dataOffers i = w.dataOffers i := fun i hi => by
    simp only [destroyResource, hr]
    cases r.interface <;> simp [deleteObject, hi]
  have current : (w.destroyResource j).seat.currentSelection = w.seat.currentSelection := by
    simp only [destroyResource, hr]
    cases r.interface <;> rfl
  constructor
  · intro h
    have hd : w.seat.currentSelection ≠ some j := fun hc => by
      obtain ⟨x, s, hx, -, -⟩ := h.device j (current.trans hc)
      simpa [World.holds, hx] using gone .dataDevice
    refine ⟨hd, fun d x hc hx hxj => ?_, fun o x hoj hx hxj => ?_⟩
    · have hdj : d ≠ j := by
        rintro rfl
        exact hd hc
      obtain ⟨x', s, hx', hs, hl⟩ := h.device d (current.trans hc)
      rw [(kept d hdj).1, hx] at hx'
      cases hx'
      rw [hxj] at hs
      cases hs
      simpa [World.holds, hl] using gone .dataSource
    · have hl := h.offer o x ((kept o hoj).2.2.trans hx)
      rw [hxj] at hl
      simpa [World.holds, hl] using gone .dataSource
  · intro h
    refine ⟨fun d hc => ?_, fun o x hx => ?_⟩
    · rw [current] at hc
      have hdj : d ≠ j := by
        rintro rfl
        exact h.device hc
      obtain ⟨x, s, hx, hs, hl⟩ := hw.device d hc
      have hsj : s ≠ j := by
        rintro rfl
        exact h.source d x hc hx hs
      exact ⟨x, s, by rw [(kept d hdj).1, hx], hs, by rwa [(kept s hsj).2.1]⟩
    · have hoj : o ≠ j := by
        rintro rfl
        simpa [World.holds, hx] using gone .dataOffer
      rw [(kept o hoj).2.2] at hx
      rw [(kept _ (h.offer o x hoj hx)).2.1]
      exact hw.offer o x hx

end Steps

theorem init_selection : World.init.SelectionLive where
  device := fun d hd => by simp [World.init] at hd
  offer := fun o x hx => by simp [World.init] at hx

/-- A step leaves the selection alive exactly when it makes none of a null source and destroys none
that is in use. -/
theorem selects_iff {w : World} (ht : w.Typed) (hw : w.SelectionLive) (a : Action) :
    w.Selects a ↔ w.KeepsSelection a := by
  cases hs : w.stopped with
  | true =>
    have hstep := step_of_stopped hs a
    refine ⟨fun _ => ?_, fun _ => ⟨by rwa [hstep], fun _ _ _ _ h => by simp [hs] at h⟩⟩
    unfold KeepsSelection
    split <;> simp [hs]
  | false =>
    have live (hd : (w.directly a).SelectionLive) : (w.step a).SelectionLive :=
      step_keeps (fun _ _ hc hw => hc.selection hw) hd hw
    cases a with
    | desk client r =>
      by_cases ha : w.admits client r = true
      · have hd := direct_selection ht hw ha
        have hl := live (by simpa only [directly, ha, if_true] using hd)
        by_cases hn : ∃ d, r = .setSelection d none
        · obtain ⟨d, rfl⟩ := hn
          constructor
          · intro h
            have h1 := h.2 client d none rfl hs
            rw [step_of_running hs, act_desk ha] at h1
            simp [handle, setSelection, crash, stopped] at h1
          · intro h
            simp [h hs] at ha
        · have hk : w.KeepsSelection (.desk client r) := by
            unfold KeepsSelection
            split
            · next d heq => exact absurd ⟨d, (Action.desk.inj heq).2⟩ hn
            · next heq => cases heq
            · trivial
          refine ⟨fun _ => hk, fun _ => ⟨hl, fun c d s heq _ => ?_⟩⟩
          obtain ⟨rfl, rfl⟩ := Action.desk.inj heq
          cases s with
          | none => exact absurd ⟨d, rfl⟩ hn
          | some s =>
            rw [step_of_running hs, act_desk ha]
            exact hs
      · have hst : w.step (.desk client r) = w := by
          simp [step_of_running hs, act, ha]
        constructor
        · intro _
          unfold KeepsSelection
          split
          · next heq =>
            obtain ⟨rfl, rfl⟩ := Action.desk.inj heq
            intro _
            simpa using ha
          · next heq => cases heq
          · trivial
        · exact fun _ => ⟨by rwa [hst], fun _ _ _ _ _ => by rwa [hst]⟩
    | destroy client j =>
      by_cases hj : (w.resources j).any (fun r => r.client = client) = true
      · have hst : w.step (.destroy client j) = w.destroyResource j := by
          simp only [step_of_running hs, act, hj, if_true]
        have hiff := destroyResource_selection ht hw (Option.isSome_of_any hj)
        exact ⟨fun h _ _ => hiff.mp (hst ▸ h.1),
          fun h => ⟨hst ▸ hiff.mpr (h hs hj), fun _ _ _ heq => by cases heq⟩⟩
      · have hst : w.step (.destroy client j) = w := by
          simp only [step_of_running hs, act, hj, Bool.false_eq_true, if_false]
        exact ⟨fun _ _ h => absurd h hj, fun _ => ⟨by rwa [hst], fun _ _ _ heq => by cases heq⟩⟩
    | _ => exact ⟨fun _ => trivial, fun _ => ⟨live hw, fun _ _ _ heq => by cases heq⟩⟩

/-- In a run the selection is always alive, and every request for one is served, exactly when no
step breaks one of the two rules. -/
theorem selection_throughout_iff (as : List Action) :
    Run.Each World.step Selects World.init as ↔
      Run.Each World.step KeepsSelection World.init as :=
  Run.each_iff_each (G := fun w => w.Typed ∧ w.SelectionLive) ⟨init_typed, init_selection⟩
    (fun _ a h hc => ⟨step_typed h.1 a, ((selects_iff h.1 h.2 a).mpr hc).1⟩)
    (fun _ a h => selects_iff h.1 h.2 a) as

/-- A client destroys the source of its selection. -/
def sourceGone : List Action :=
  [.desk 0 .bindSeat, .desk 0 .getDataDevice, .desk 0 .createDataSource,
    .desk 0 (.setSelection 1 (some 2)), .destroy 0 2]

/-- A client takes its selection back. -/
def nullSource : List Action :=
  [.desk 0 .bindSeat, .desk 0 .getDataDevice, .desk 0 (.setSelection 1 none)]

/-- The next `send_selection` uses the freed source. With a null one the handler of `set_selection`
itself stops the program. -/
theorem sourceGone_dangling : ¬ (World.run sourceGone).SelectionLive ∧
    (World.run sourceGone).fault = none ∧
    ((World.run sourceGone).sendSelection 1).fault = some .useAfterFree ∧
    (World.run nullSource).fault = some .nullPointer := by
  refine ⟨fun h => ?_, rfl, rfl, rfl⟩
  obtain ⟨x, s, hx, hs, hl⟩ := h.device 1 rfl
  cases hx
  cases hs
  cases hl

end World
end Yaza
