import Yaza.Server.Offers

/-! The data devices in the lists of the seats: they are alive in every state. -/
namespace Yaza
namespace World

/-- The data devices in the list of each seat. -/
def enlisted (w : World) : Arena (List ℕ) := w.clientSeats.mapAll ClientSeat.dataDevices

/-- What is in a list of data devices is one. -/
def DevicesLive (w : World) : Prop :=
  ∀ i l, w.enlisted i = some l → ∀ d ∈ l, (w.dataDevices d).isSome = true

/-- The lists stay, and so do the data devices. -/
structure Retains (w w' : World) : Prop where
  enlisted : w'.enlisted = w.enlisted
  devices : ∀ d, (w.dataDevices d).isSome = true → (w'.dataDevices d).isSome = true

section Retains
variable {w w' w'' : World}

theorem Retains.refl (w : World) : Retains w w := ⟨rfl, fun _ => id⟩

theorem Retains.trans (h : Retains w w') (h' : Retains w' w'') : Retains w w'' :=
  ⟨h'.enlisted.trans h.enlisted, fun d hd => h'.devices d (h.devices d hd)⟩

theorem Retains.andThen {f : World → World} (h : Retains w w') (hf : Retains w' (f w')) :
    Retains w (w'.andThen f) := by
  unfold World.andThen
  split
  · exact h
  · exact h.trans hf

theorem Retains.live (h : Retains w w') (hw : w.DevicesLive) : w'.DevicesLive :=
  fun i l hl d hd => h.devices d (hw i l (h.enlisted ▸ hl) d hd)

theorem retains_of_eq (hc : w'.clientSeats = w.clientSeats) (hd : w'.dataDevices = w.dataDevices) :
    Retains w w' := ⟨by rw [enlisted, hc, enlisted], fun _ h => hd ▸ h⟩

theorem raiseSurfaceTop_retains (i : ℕ) : Retains w (w.raiseSurfaceTop i) := by
  obtain ⟨l, S, h1, -⟩ := raiseSurfaceTop_eq w i
  rw [h1]
  exact retains_of_eq rfl rfl

theorem sendSelection_retains (d : ℕ) : Retains w (w.sendSelection d) := by
  unfold sendSelection
  split
  · exact retains_of_eq rfl rfl
  · split
    · exact retains_of_eq rfl rfl
    · split
      · exact retains_of_eq rfl rfl
      · next s _ =>
        rcases createOffer_cases w d s with h1 | ⟨r, x, -, -, h1⟩ <;> rw [h1] <;>
          exact retains_of_eq rfl rfl

theorem Effects.retains {k t : Bool} (h : Effects k t w w') : Retains w w' := by
  induction h with
  | refl => exact .refl w
  | tail _ he ih =>
    refine ih.trans ?_
    cases he with
    | raise i => exact raiseSurfaceTop_retains i
    | send _ d => exact sendSelection_retains d
    | _ => exact retains_of_eq rfl rfl

theorem joinSeat_retains (client : ℕ) {f : ClientSeat → ClientSeat}
    (hf : ∀ x, (f x).dataDevices = x.dataDevices) : Retains w (w.joinSeat client f) := by
  unfold joinSeat withClientSeat
  split
  · exact retains_of_eq rfl rfl
  · split
    · exact retains_of_eq rfl rfl
    · exact ⟨Arena.mapAll_modify hf, fun _ => id⟩

theorem commitSurface_retains (i : ℕ) : Retains w (w.commitSurface i) := by
  obtain ⟨-, -, -, hd, -⟩ := w.commitSurface_rest i
  refine retains_of_eq ?_ hd
  unfold commitSurface andThen commitBuffer
  repeat' split
  all_goals rfl

theorem askSource_retains (o : ℕ) (e : ℕ → DeskEvent) : Retains w (w.askSource o e) := by
  unfold askSource
  split
  · exact retains_of_eq rfl rfl
  · split <;> exact retains_of_eq rfl rfl

end Retains

section Steps
variable {w : World}

/-- A new seat has no data devices. -/
theorem bindSeat_live (hw : w.DevicesLive) (client : ℕ) : (w.bindSeat client).DevicesLive := by
  intro i l hl d hd
  simp only [enlisted, bindSeat, Arena.mapAll_set_apply, Arena.set_apply] at hl
  split at hl
  · cases hl
    cases hd
  · exact hw i l hl d hd

/-- A new data device is alive. -/
theorem joinDevice_live (hw : w.DevicesLive) (client : ℕ) : (w.joinDevice client).DevicesLive := by
  have alive {d : ℕ} (h : (w.dataDevices d).isSome = true ∨ d = w.nextId) :
      ((w.dataDevices.set w.nextId {}) d).isSome = true := by
    rw [Arena.set_apply]
    split
    · rfl
    · next hd => exact h.resolve_right hd
  have kept (i : ℕ) (l : List ℕ) (hl : w.enlisted i = some l) :
      ∀ d ∈ l, ((w.dataDevices.set w.nextId {}) d).isSome = true :=
    fun d hd => alive (.inl (hw i l hl d hd))
  unfold joinDevice joinSeat withClientSeat
  split
  · exact kept
  · split
    · exact kept
    · next j _ _ _ =>
      intro i l hl d hd
      simp only [enlisted, Arena.mapAll_apply, Arena.modify_apply] at hl
      refine alive ?_
      split at hl
      · simp only [Option.map_map, Option.map_eq_some_iff] at hl
        obtain ⟨x, hx, rfl⟩ := hl
        rcases List.mem_cons.mp hd with h1 | h1
        · exact .inr h1
        · exact .inl (hw i _ (Option.map_eq_some_iff.mpr ⟨x, hx, rfl⟩) d h1)
      · exact .inl (hw i l hl d hd)

theorem newMember_live (hw : w.DevicesLive) (client : ℕ) (interface : DeskInterface)
    {f : ClientSeat → ClientSeat} (hf : ∀ x, (f x).dataDevices = x.dataDevices) :
    ((w.newResource client interface).joinSeat client f).DevicesLive := by
  have h1 : Retains w (w.newResource client interface) := retains_of_eq rfl rfl
  exact (h1.trans (joinSeat_retains client hf)).live hw

theorem handle_live (hw : w.DevicesLive) (client : ℕ) (r : DeskRequest) :
    (w.handle client r).DevicesLive := by
  cases r with
  | createSurface texSize =>
    obtain ⟨l, S, h1, -⟩ := w.createSurface_eq client texSize
    simp only [handle, h1]
    exact (retains_of_eq rfl rfl : Retains w _).live hw
  | commit s => exact (commitSurface_retains s).live hw
  | getToplevel x =>
    refine Retains.live (w := w) ?_ hw
    unfold handle createToplevel
    dsimp only
    split <;> exact retains_of_eq rfl rfl
  | moveToplevel t =>
    exact (requestStartMove_effects (k := false) (t := false) w client).retains.live hw
  | bindSeat => exact bindSeat_live hw client
  | getPointer i => exact newMember_live hw client .pointer fun _ => rfl
  | getKeyboard i => exact newMember_live hw client .keyboard fun _ => rfl
  | getRay => exact newMember_live hw client .ray fun _ => rfl
  | setCursor p s hotspot =>
    exact (setSurfaceAsCursor_effects (k := false) (t := false) w s hotspot).retains.live hw
  | getDataDevice =>
    have h1 := joinDevice_live hw client
    unfold handle createDataDevice andThen
    dsimp only
    split
    · exact h1
    · split
      · exact (sendSelection_retains _).live h1
      · exact h1
  | setSelection d s =>
    refine Retains.live (w := w) ?_ hw
    cases s with
    | none => exact retains_of_eq rfl rfl
    | some s => exact ⟨rfl, fun e he => by simpa [handle, setSelection] using he⟩
  | accept o mimeType => exact (askSource_retains o fun s => .sourceTarget s mimeType).live hw
  | receive o mimeType => exact (askSource_retains o fun s => .sourceSend s mimeType).live hw
  | _ => exact (retains_of_eq rfl rfl : Retains w _).live hw

/-- What is destroyed leaves the lists. -/
theorem destroyResource_live (hw : w.DevicesLive) (j : ℕ) : (w.destroyResource j).DevicesLive := by
  have kept (i : ℕ) (l : List ℕ)
      (hl : (w.clientSeats.mapAll (leaveLists j)).mapAll ClientSeat.dataDevices i = some l) :
      ∀ d ∈ l, (w.dataDevices d).isSome = true ∧ d ≠ j := by
    intro d hd
    simp only [Arena.mapAll_apply, Option.map_map, Option.map_eq_some_iff] at hl
    obtain ⟨x, hx, rfl⟩ := hl
    obtain ⟨h1, h2⟩ := List.mem_filter.mp hd
    exact ⟨hw i _ (Option.map_eq_some_iff.mpr ⟨x, hx, rfl⟩) d h1, by simpa using h2⟩
  unfold destroyResource
  split
  · exact hw
  · next r _ =>
    cases hi : r.interface with
    | seat =>
      intro i l hl d hd
      simp only [enlisted, deleteObject, Arena.mapAll_apply, Arena.erase_apply] at hl
      split at hl
      · cases hl
      · exact hw i l hl d hd
    | pointer => exact fun i l hl d hd => (kept i l hl d hd).1
    | keyboard => exact fun i l hl d hd => (kept i l hl d hd).1
    | ray => exact fun i l hl d hd => (kept i l hl d hd).1
    | dataDevice =>
      intro i l hl d hd
      obtain ⟨h1, h2⟩ := kept i l hl d hd
      exact (congrArg Option.isSome (Arena.erase_of_ne w.dataDevices h2)).trans h1
    | _ => exact hw

theorem act_live (hw : w.DevicesLive) (a : Action) : (w.act a).DevicesLive := by
  cases a with
  | zwin client r =>
    refine Retains.live (w := w) ?_ hw
    unfold act addBoundedApp
    dsimp only
    split <;> exact retains_of_eq rfl rfl
  | destroyZwin client r => exact (retains_of_eq rfl rfl : Retains w _).live hw
  | desk client r =>
    unfold act
    dsimp only
    split
    · exact handle_live hw client r
    · exact hw
  | destroy client i =>
    unfold act
    dsimp only
    split
    · exact destroyResource_live hw i
    · exact hw
  | moveBounded client b =>
    unfold act
    dsimp only
    split
    · exact (requestStartMove_effects (k := false) (t := false) w client).retains.live hw
    · exact hw
  | peerDiscover connected =>
    refine Retains.live (w := w) ?_ hw
    unfold act peerDiscover
    dsimp only
    split <;> exact retains_of_eq rfl rfl
  | sessionDisconnect =>
    refine Retains.live (w := w) ?_ hw
    unfold act sessionDisconnect
    dsimp only
    split <;> exact retains_of_eq rfl rfl
  | frameTimer busyness =>
    refine Retains.live (w := w) ?_ hw
    unfold act frameTimer
    dsimp only
    split <;> exact retains_of_eq rfl rfl
  | mouseMove polar azimuthal hits =>
    exact (moveRelPointing_effects (k := false) w polar azimuthal hits).retains.live hw
  | mouseButton button pressed hits =>
    exact (handleMouseButton_effects w button pressed hits).retains.live hw
  | mouseWheel amount =>
    exact (handleMouseWheel_effects (k := false) (t := false) w amount).retains.live hw

theorem run_devices (as : List Action) : (World.run as).DevicesLive := by
  refine Run.final_induction (fun i l hl => ?_) (fun w a hw => ?_) as
  · cases hl
  · unfold step
    split
    · exact hw
    · exact act_live hw a

end Steps

end World
end Yaza
