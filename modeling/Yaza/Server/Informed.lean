import Yaza.Server.Offers

/-! Whether the client that has the keyboard was told of the last selection. -/
namespace Yaza
namespace World

/-- The source of the last `set_selection`, and the source that each offer was made of. -/
structure SelectionHistory where
  latest : Option ℕ := none
  backing : ℕ → Option ℕ := fun _ => none

/-- The history goes on with a step. -/
def noteSelection (w : World) (a : Action) (h : SelectionHistory) : SelectionHistory where
  latest :=
    match a with
    | .desk client (.setSelection d (some s)) =>
      if w.stopped = false ∧ w.admits client (.setSelection d (some s)) = true then some s
      else h.latest
    | _ => h.latest
  backing := fun o => (((w.step a).dataOffers o).map DataOffer.dataSource).or (h.backing o)

def selectionStep (p : World × SelectionHistory) (a : Action) : World × SelectionHistory :=
  (p.1.step a, p.1.noteSelection a p.2)

/-- The last selection the data device was sent is the current one. -/
def Informed (p : World × SelectionHistory) (d : ℕ) : Prop :=
  match p.2.latest with
  | none => p.1.lastTold d = none ∨ p.1.lastTold d = some none
  | some s => ∃ o, p.1.lastTold d = some (some o) ∧ p.2.backing o = some s

/-- Every live data device of the client that has the keyboard is informed. -/
def FocusInformed (p : World × SelectionHistory) : Prop :=
  p.1.stopped = false → ∀ client, p.1.isFocusedClient client = true →
    ∀ d, p.1.OwnsDevice client d → Informed p d

/-- A press that gives the keyboard to the surface, if it does not have it. -/
def Presses (w : World) (a : Action) (i : ℕ) : Prop :=
  ∃ button hits, a = .mouseButton button true hits ∧
    w.lock w.seat.focusedObj = some (.surface i) ∧ (w.getSurfaceFromResource i).isSome = true

/-- A selection that is set while a client with a data device has the keyboard is one of the same
source as before, and the seat of a client that gets the keyboard lists its data devices, but for
those that are informed. -/
def Pushes (p : World × SelectionHistory) (a : Action) : Prop :=
  (p.1.step a).stopped = false →
    (∀ s, p.1.Sets a s → p.2.latest = some s ∨
      ∀ c, p.1.isFocusedClient c = true → ∀ d, ¬ p.1.OwnsDevice c d) ∧
    ∀ i, p.1.Presses a i → ∀ client, p.1.clientOf (.surface i) = some client →
      ∀ d, p.1.OwnsDevice client d → d ∈ p.1.listedDevices client ∨ Informed p d

section History
variable {p : World × SelectionHistory} {w' : World} {a : Action} {d : ℕ}

/-- The history knows the selection and the offers. -/
structure Tracked (p : World × SelectionHistory) : Prop where
  typed : p.1.Typed
  focus : p.1.stopped = false → ∀ i, p.1.seat.keyboardFocusedSurface = some i → i < p.1.nextId
  current : match p.1.seat.currentSelection with
    | none => p.2.latest = none
    | some d => ∃ x s, p.1.dataDevices d = some x ∧ x.dataSource = some s ∧ p.2.latest = some s
  backed : ∀ o x, p.1.dataOffers o = some x → p.2.backing o = some x.dataSource
  fresh : ∀ o, p.1.nextId ≤ o → p.2.backing o = none
  told : ∀ d o, (d, some o) ∈ p.1.told → (p.2.backing o).isSome = true

/-- An offer keeps the source it was made of. -/
theorem Tracked.backing (h : Tracked p) (hf : Framed p.1 (p.1.step a)) {o s : ℕ}
    (ho : p.2.backing o = some s) : (selectionStep p a).2.backing o = some s := by
  simp only [selectionStep, noteSelection]
  cases hx : (p.1.step a).dataOffers o with
  | none => simpa using ho
  | some x =>
    rcases hf.offers o x hx with h1 | h1
    · rw [h.backed o x h1] at ho
      simpa using ho
    · rw [h.fresh o h1] at ho
      cases ho

theorem noteSelection_latest {w : World} {h : SelectionHistory} (ha : ∀ s, ¬ w.Sets a s) :
    (w.noteSelection a h).latest = h.latest := by
  unfold noteSelection
  dsimp only
  split
  · next client d s =>
    exact if_neg fun hs => ha s ⟨client, d, rfl, hs⟩
  · rfl

theorem noteSelection_sets {w : World} {h : SelectionHistory} {s : ℕ} (ha : w.Sets a s) :
    (w.noteSelection a h).latest = some s := by
  obtain ⟨client, d, rfl, hs⟩ := ha
  exact if_pos hs

theorem backing_step (o : ℕ) (x : DataOffer) (hx : (p.1.step a).dataOffers o = some x) :
    (selectionStep p a).2.backing o = some x.dataSource := by
  simp [selectionStep, noteSelection, hx]

theorem Tracked.step (h : Tracked p) (ha : ∀ s, ¬ p.1.Sets a s)
    (hf : Framed p.1 (p.1.step a)) {ds : List ℕ} (ht : Tells p.1 (p.1.step a) ds)
    (hk : (p.1.step a).stopped = false → ∀ i, (p.1.step a).seat.keyboardFocusedSurface = some i →
      p.1.seat.keyboardFocusedSurface = some i ∨ p.1.Live i) : Tracked (selectionStep p a) where
  typed := step_typed h.typed a
  focus := fun hs i hi => by
    refine Nat.lt_of_lt_of_le ?_ hf.nextId
    have hs' : p.1.stopped = false := by
      cases hp : p.1.stopped with
      | false => rfl
      | true =>
        have h1 : (p.1.step a).stopped = false := hs
        rw [step_of_stopped hp, hp] at h1
        cases h1
    rcases hk hs i hi with h1 | h1
    · exact h.focus hs' i h1
    · exact h.typed.lt (k := .surface) h1
  current := by
    have hc := h.current
    have hl : (selectionStep p a).2.latest = p.2.latest := noteSelection_latest ha
    have hs : (selectionStep p a).1.seat.currentSelection = p.1.seat.currentSelection :=
      hf.selection
    rw [hs, hl]
    cases hcs : p.1.seat.currentSelection with
    | none => simpa [hcs] using hc
    | some d =>
      rw [hcs] at hc
      obtain ⟨x, s, h1, h2, h3⟩ := hc
      exact ⟨x, s, hf.devices d x h1, h2, h3⟩
  backed := backing_step
  fresh := fun o ho => by
    have h1 : (p.1.step a).dataOffers o = none := by
      cases hx : (p.1.step a).dataOffers o with
      | none => rfl
      | some x =>
        have hlt := (step_typed h.typed a).lt (k := .dataOffer) (i := o) (by simp [World.holds, hx])
        exact absurd ho (Nat.not_le_of_lt hlt)
    simp only [selectionStep, noteSelection, h1]
    simpa using h.fresh o (hf.nextId.trans ho)
  told := fun d o ho => by
    obtain ⟨ts, h1, h2, -⟩ := ht
    have ho' : (d, some o) ∈ p.1.told ++ ts := h1 ▸ ho
    rcases List.mem_append.mp ho' with h3 | h3
    · obtain ⟨s, hs⟩ := Option.isSome_iff_exists.mp (h.told d o h3)
      rw [h.backing hf hs]
      rfl
    · obtain ⟨x, hx⟩ := Option.isSome_iff_exists.mp (h2 _ h3).offer
      rw [backing_step o x hx]
      rfl

/-- A device that is told is informed. -/
theorem Tracked.informed_of_right (h : Tracked p) {o : Option ℕ} (hl : p.1.lastTold d = some o)
    (ho : p.1.Right o) : Informed p d := by
  have hc := h.current
  unfold Right at ho
  cases hcs : p.1.seat.currentSelection with
  | none =>
    simp only [hcs] at hc ho
    simp only [Informed, hc]
    exact .inr (ho ▸ hl)
  | some e =>
    simp only [hcs] at hc ho
    obtain ⟨x, s, h1, h2, h3⟩ := hc
    obtain ⟨i, y, s', rfl, h4, h5, h6⟩ := ho
    obtain rfl : x = y := Option.some.inj (h1.symm.trans h4)
    obtain rfl : s = s' := Option.some.inj (h2.symm.trans h5)
    simp only [Informed, h3]
    exact ⟨i, hl, h.backed i _ h6⟩

/-- A device that is not told of anything is informed as before. -/
theorem Tracked.informed_iff (h : Tracked p) (ha : ∀ s, ¬ p.1.Sets a s)
    (hf : Framed p.1 (p.1.step a)) (hl : (p.1.step a).lastTold d = p.1.lastTold d) :
    Informed (selectionStep p a) d ↔ Informed p d := by
  have h1 : (selectionStep p a).2.latest = p.2.latest := noteSelection_latest ha
  have h2 : (selectionStep p a).1.lastTold d = p.1.lastTold d := hl
  unfold Informed
  rw [h1, h2]
  cases hs : p.2.latest with
  | none => exact Iff.rfl
  | some s =>
    refine exists_congr fun o => and_congr_right fun ho => ⟨fun hb => ?_, h.backing hf⟩
    obtain ⟨s', hs'⟩ := Option.isSome_iff_exists.mp (h.told d o (mem_told_of_last ho))
    rw [h.backing hf hs'] at hb
    rwa [hs']

end History

section Informed
variable {p : World × SelectionHistory} {a : Action}

/-- Who is told is informed, and the others are as before. -/
theorem Tracked.informed (h : Tracked p) (h' : Tracked (selectionStep p a))
    (ha : ∀ s, ¬ p.1.Sets a s) (hf : Framed p.1 (p.1.step a)) {ds : List ℕ}
    (ht : Tells p.1 (p.1.step a) ds) (d : ℕ) :
    Informed (selectionStep p a) d ↔ d ∈ ds ∨ Informed p d := by
  by_cases hd : d ∈ ds
  · obtain ⟨o, h1, h2⟩ := ht.lastTold_of_mem hd
    exact ⟨fun _ => .inl hd, fun _ => h'.informed_of_right h1 h2⟩
  · rw [h.informed_iff ha hf (ht.lastTold_of_notMem hd)]
    exact ⟨.inr, fun h1 => h1.resolve_left hd⟩

/-- A step that is no press and sets no selection. -/
theorem informed_step (h : Tracked p) (hs : p.1.stopped = false) (hi : FocusInformed p)
    (ha : ∀ s, ¬ p.1.Sets a s) (hb : a.isButton = false) (hk : p.1.KeepsDevices a) :
    Tracked (selectionStep p a) ∧ FocusInformed (selectionStep p a) := by
  have hf := step_framed h.typed ha hk
  have hst : p.1.step a = p.1.act a := step_of_running hs a
  have hkf : (p.1.step a).seat.keyboardFocusedSurface = p.1.seat.keyboardFocusedSurface := by
    rw [hst]
    exact act_keyboardFocus hb
  obtain ⟨ds, h1, h2⟩ := act_tells h.typed hb
  rw [← hst] at h1 h2
  have ht : Tracked (selectionStep p a) := h.step ha hf h1 fun _ i hi => .inl (hkf ▸ hi)
  refine ⟨ht, fun hs' c hc d hd => ?_⟩
  rw [h.informed ht ha hf h1]
  have hd' : (p.1.act a).OwnsDevice c d := hst ▸ hd
  rcases act_owns hd' with h3 | ⟨rfl, had, rfl⟩
  · exact .inr (hi hs c (hf.focusedClient hkf (h.focus hs) hc) d h3)
  · exact .inl (h2 c rfl had hs' hc)

/-- A button that is no press on a surface. -/
theorem informed_noPress (h : Tracked p) (hs : p.1.stopped = false) (hi : FocusInformed p)
    (hb : a.isButton = true) (hn : ∀ i, ¬ p.1.Presses a i) :
    Tracked (selectionStep p a) ∧ FocusInformed (selectionStep p a) := by
  cases a with
  | mouseButton button isPressed hits =>
    have ha : ∀ s, ¬ p.1.Sets (.mouseButton button isPressed hits) s := by
      rintro s ⟨c, d, hc, -⟩
      cases hc
    have hf := step_framed h.typed ha trivial
    have hst : p.1.step (.mouseButton button isPressed hits) =
        p.1.handleMouseButton button isPressed hits := step_of_running hs _
    have he := (handleMouseButton_effects p.1 button isPressed hits)
    have hk : (p.1.step (.mouseButton button isPressed hits)).stopped = false →
        (p.1.step (.mouseButton button isPressed hits)).seat.keyboardFocusedSurface =
            p.1.seat.keyboardFocusedSurface ∨
          (p.1.step (.mouseButton button isPressed hits)).seat.keyboardFocusedSurface = none := by
      rw [hst]
      refine handleMouseButton_keyboard fun i ho hl => ?_
      cases isPressed with
      | false => rfl
      | true => exact absurd ⟨button, hits, rfl, ho, hl⟩ (hn i)
    obtain ⟨ds, h1⟩ := (he.sends h.typed).1.tells
    rw [← hst] at h1
    have ht : Tracked (selectionStep p (.mouseButton button isPressed hits)) := by
      refine h.step ha hf h1 fun hs' i hi' => ?_
      rcases hk hs' with h2 | h2
      · exact .inl (h2.symm.trans hi')
      · have h3 : none = some i := h2.symm.trans hi'
        cases h3
    refine ⟨ht, fun hs' c hc d hd => ?_⟩
    rw [h.informed ht ha hf h1]
    have hd' : (p.1.handleMouseButton button isPressed hits).OwnsDevice c d := hst ▸ hd
    have hc' : p.1.isFocusedClient c = true := by
      rcases hk hs' with h2 | h2
      · exact hf.focusedClient h2 (h.focus hs) hc
      · obtain ⟨i, hl, -⟩ := isFocusedClient_iff.mp hc
        have h3 : none = some i := h2.symm.trans (Arena.lock_eq_some.mp hl).1
        cases h3
    exact .inr (hi hs c hc' d (he.changes.owns hd'))
  | _ => cases hb

/-- The devices of the client that has the focus now. -/
theorem Tracked.focus_iff (h : Tracked p) {w : World} (hc : Changes true p.1 w) {i : ℕ}
    (hl : p.1.Live i) (hf : w.surfaces.lock w.seat.keyboardFocusedSurface = some i)
    {P : ℕ → Prop} :
    (∀ c, w.isFocusedClient c = true → ∀ d, w.OwnsDevice c d → P d) ↔
      ∀ c, p.1.clientOf (.surface i) = some c → ∀ d, p.1.OwnsDevice c d → P d := by
  have hlt : i < p.1.nextId := h.typed.lt (k := .surface) hl
  have hclient (c : ℕ) : w.isFocusedClient c = true ↔ p.1.clientOf (.surface i) = some c := by
    have h1 : w.clientOf (.surface i) = p.1.clientOf (.surface i) :=
      congrArg (Option.map DeskResource.client) (hc.resources hlt)
    rw [isFocusedClient_iff, hf, ← h1]
    exact ⟨fun ⟨j, hj, hc⟩ => Option.some.inj hj ▸ hc, fun hc => ⟨i, rfl, hc⟩⟩
  have howns (c d : ℕ) : w.OwnsDevice c d ↔ p.1.OwnsDevice c d := by
    refine ⟨hc.owns, fun hd => ?_⟩
    unfold OwnsDevice at hd ⊢
    rw [hc.resources (h.typed.fresh.lt hd), hd]
  constructor
  · intro h1 c hc d hd
    exact h1 c ((hclient c).mpr hc) d ((howns c d).mpr hd)
  · intro h1 c hc d hd
    exact h1 c ((hclient c).mp hc) d ((howns c d).mp hd)

/-- A press on a surface. -/
theorem informed_press (h : Tracked p) (hs : p.1.stopped = false) (hi : FocusInformed p) {i : ℕ}
    (hp : p.1.Presses a i) : Tracked (selectionStep p a) ∧
      (FocusInformed (selectionStep p a) ↔ ((p.1.step a).stopped = false →
        ∀ client, p.1.clientOf (.surface i) = some client →
          ∀ d, p.1.OwnsDevice client d → d ∈ p.1.listedDevices client ∨ Informed p d)) := by
  obtain ⟨button, hits, rfl, ho, hl⟩ := hp
  have ha : ∀ s, ¬ p.1.Sets (.mouseButton button true hits) s := by
    rintro s ⟨c, d, hc, -⟩
    cases hc
  have hf := step_framed h.typed ha trivial
  have hst : p.1.step (.mouseButton button true hits) =
      p.1.handleMouseButton button true hits := step_of_running hs _
  have he : Effects true true p.1 (p.1.step (.mouseButton button true hits)) := by
    rw [hst]
    exact handleMouseButton_effects p.1 button true hits
  have hlive : p.1.Live i := by
    rcases p.1.getSurfaceFromResource_eq i with h1 | ⟨-, -, h1⟩
    · simp [h1] at hl
    · exact h1
  cases hs' : (p.1.step (.mouseButton button true hits)).stopped with
  | true =>
    obtain ⟨ds, h1⟩ := (he.sends h.typed).1.tells
    refine ⟨h.step ha hf h1 fun h2 => ?_, fun _ h2 => ?_, fun _ h2 => ?_⟩
    · rw [hs'] at h2
      cases h2
    · cases h2
    · rw [show (selectionStep p _).1 = p.1.step (.mouseButton button true hits) from rfl, hs'] at h2
      cases h2
  | false =>
    have hs1 := hs'
    rw [hst] at hs1
    obtain ⟨hk, htell⟩ := press_tells h.typed ho hl hs1
    rw [← hst] at hk htell
    have hfocus : (p.1.step (.mouseButton button true hits)).surfaces.lock
        (p.1.step (.mouseButton button true hits)).seat.keyboardFocusedSurface = some i :=
      Arena.lock_eq_some.mpr ⟨hk, (congrFun he.changes.live i).mpr hlive⟩
    have hfi : FocusInformed (selectionStep p (.mouseButton button true hits)) ↔
        ∀ c, p.1.clientOf (.surface i) = some c → ∀ d, p.1.OwnsDevice c d →
          Informed (selectionStep p (.mouseButton button true hits)) d :=
      ⟨fun h1 => (h.focus_iff he.changes hlive hfocus).mp (h1 hs'),
        fun h1 _ => (h.focus_iff he.changes hlive hfocus).mpr h1⟩
    have htracked {ds : List ℕ} (h1 : Tells p.1 (p.1.step (.mouseButton button true hits)) ds) :
        Tracked (selectionStep p (.mouseButton button true hits)) := by
      refine h.step ha hf h1 fun _ j hj => .inr ?_
      obtain rfl : i = j := Option.some.inj (hk.symm.trans hj)
      exact hlive
    rw [hfi]
    by_cases hf0 : p.1.surfaces.lock p.1.seat.keyboardFocusedSurface = some i
    · -- the surface had the keyboard, and its client was informed
      rw [if_pos hf0] at htell
      have hinf (c : ℕ) (hc : p.1.clientOf (.surface i) = some c) (d : ℕ)
          (hd : p.1.OwnsDevice c d) : Informed p d :=
        hi hs c (isFocusedClient_iff.mpr ⟨i, hf0, hc⟩) d hd
      refine ⟨htracked htell, fun _ _ c hc d hd => .inr (hinf c hc d hd), fun _ c hc d hd => ?_⟩
      exact (h.informed (htracked htell) ha hf htell d).mpr (.inr (hinf c hc d hd))
    · rw [if_neg hf0] at htell
      obtain ⟨c, hc, h1⟩ := htell
      refine ⟨htracked h1, fun h2 _ c' hc' d hd => ?_, fun h2 c' hc' d hd => ?_⟩
      · obtain rfl : c = c' := Option.some.inj (hc.symm.trans hc')
        exact (h.informed (htracked h1) ha hf h1 d).mp (h2 c hc d hd)
      · obtain rfl : c = c' := Option.some.inj (hc.symm.trans hc')
        exact (h.informed (htracked h1) ha hf h1 d).mpr (h2 rfl c hc d hd)

/-- Who is informed of an offer knows the latest selection. -/
theorem Informed.latest {e o s : ℕ} (h : Informed p e) (ht : p.1.lastTold e = some (some o))
    (hb : p.2.backing o = some s) : p.2.latest = some s := by
  unfold Informed at h
  cases hl : p.2.latest with
  | none =>
    rw [hl] at h
    rcases h with h | h <;> rw [ht] at h <;> cases h
  | some s' =>
    rw [hl] at h
    obtain ⟨o', h1, h2⟩ := h
    rw [ht] at h1
    cases h1
    rw [← h2, hb]

/-- The step that sets a selection. -/
theorem Tracked.sets (h : Tracked p) {s : ℕ} (ha : p.1.Sets a s) :
    ∃ d, p.1.stopped = false ∧ p.1.step a = p.1.setSelection d (some s) ∧
      (∃ x, p.1.dataDevices d = some x) ∧ (selectionStep p a).2.backing = p.2.backing := by
  obtain ⟨client, d, rfl, hs, had⟩ := ha
  have hstep : p.1.step (.desk client (.setSelection d (some s))) =
      p.1.setSelection d (some s) := by
    rw [step_of_running hs, act_desk had]
    rfl
  refine ⟨d, hs, hstep, ?_, ?_⟩
  · have h1 := admits_object had (i := d) (k := .dataDevice) List.mem_cons_self
    exact Option.isSome_iff_exists.mp (h.typed.object d client .dataDevice h1 rfl)
  · funext o
    simp only [selectionStep, noteSelection, hstep, setSelection]
    cases hx : p.1.dataOffers o with
    | none => rfl
    | some x => rw [h.backed o x hx]; rfl

/-- A selection is set: the devices are told nothing. -/
theorem informed_set (h : Tracked p) (hi : FocusInformed p) {s : ℕ} (ha : p.1.Sets a s) :
    Tracked (selectionStep p a) ∧ (FocusInformed (selectionStep p a) ↔
      (p.2.latest = some s ∨ ∀ c, p.1.isFocusedClient c = true → ∀ d, ¬ p.1.OwnsDevice c d)) := by
  have hlatest : (selectionStep p a).2.latest = some s := noteSelection_sets ha
  have ht := step_typed h.typed a
  obtain ⟨d, hs, hstep, ⟨x, hx⟩, hbacking⟩ := h.sets ha
  have hworld : (selectionStep p a).1 = p.1.setSelection d (some s) := hstep
  have hinf (e : ℕ) : Informed (selectionStep p a) e ↔
      ∃ o, p.1.lastTold e = some (some o) ∧ p.2.backing o = some s := by
    unfold Informed
    rw [hlatest, hbacking, hworld]
    rfl
  have hfi : FocusInformed (selectionStep p a) ↔
      ∀ c, p.1.isFocusedClient c = true → ∀ e, p.1.OwnsDevice c e →
        ∃ o, p.1.lastTold e = some (some o) ∧ p.2.backing o = some s := by
    unfold FocusInformed
    simp only [hinf, hworld]
    exact ⟨fun h1 => h1 hs, fun h1 _ => h1⟩
  constructor
  · refine ⟨ht, fun _ => ?_, ?_, ?_, ?_, ?_⟩
    · rw [hworld]
      exact h.focus hs
    · rw [hworld, hlatest]
      exact ⟨{ x with dataSource := some s }, s, by simp [setSelection, hx], rfl, rfl⟩
    · rw [hbacking, hworld]
      exact h.backed
    · rw [hbacking, hworld]
      exact h.fresh
    · rw [hbacking, hworld]
      exact h.told
  · rw [hfi]
    constructor
    · intro h1
      by_cases hl : p.2.latest = some s
      · exact .inl hl
      · refine .inr fun c hc e he => hl ?_
        obtain ⟨o, h2, h3⟩ := h1 c hc e he
        exact (hi hs c hc e he).latest h2 h3
    · rintro (hl | hn) c hc e he
      · have h4 := hi hs c hc e he
        unfold Informed at h4
        rwa [hl] at h4
      · exact absurd he (hn c hc e)

theorem tracked_stopped (h : Tracked p) (hs : p.1.stopped = true) :
    Tracked (selectionStep p a) ∧ FocusInformed (selectionStep p a) ∧ Pushes p a := by
  have hst : p.1.step a = p.1 := step_of_stopped hs a
  have ha : ∀ s, ¬ p.1.Sets a s := by
    rintro s ⟨c, d, -, h1, -⟩
    rw [hs] at h1
    cases h1
  have hf : Framed p.1 (p.1.step a) := by
    rw [hst]
    exact .refl _
  refine ⟨h.step ha hf (tells_of_eq (by rw [hst])) fun h1 => ?_, fun h1 => ?_, fun h1 => ?_⟩
  · rw [hst, hs] at h1
    cases h1
  · rw [show (selectionStep p a).1 = p.1.step a from rfl, hst, hs] at h1
    cases h1
  · rw [hst, hs] at h1
    cases h1

/-- A step leaves the client that has the keyboard informed exactly when it pushes the selection
where it has to. -/
theorem informed_step_iff (h : Tracked p) (hi : FocusInformed p) (hk : p.1.KeepsDevices a) :
    Tracked (selectionStep p a) ∧ (FocusInformed (selectionStep p a) ↔ Pushes p a) := by
  cases hs : p.1.stopped with
  | true =>
    obtain ⟨h1, h2, h3⟩ := tracked_stopped h hs
    exact ⟨h1, fun _ => h3, fun _ => h2⟩
  | false =>
    by_cases ha : ∃ s, p.1.Sets a s
    · obtain ⟨s, ha⟩ := ha
      obtain ⟨h1, h2⟩ := informed_set h hi ha
      have hrun : (p.1.step a).stopped = false := by
        obtain ⟨client, d, rfl, -, had⟩ := ha
        rw [step_of_running hs, act_desk had]
        exact hs
      refine ⟨h1, h2.trans ⟨fun h3 _ => ⟨fun s' hs' => ?_, fun i hp => ?_⟩, fun h3 =>
        (h3 hrun).1 s ha⟩⟩
      · have h4 := (noteSelection_sets (h := p.2) ha).symm.trans (noteSelection_sets hs')
        rw [← Option.some.inj h4]
        exact h3
      · obtain ⟨_, _, h4, _⟩ := hp
        obtain ⟨_, _, h5, _⟩ := ha
        rw [h4] at h5
        cases h5
    · have ha : ∀ s, ¬ p.1.Sets a s := fun s hs => ha ⟨s, hs⟩
      by_cases hp : ∃ i, p.1.Presses a i
      · obtain ⟨i, hp⟩ := hp
        obtain ⟨h1, h2⟩ := informed_press h hs hi hp
        refine ⟨h1, h2.trans ⟨fun h3 hrun => ⟨fun s hs => absurd hs (ha s), fun j hj => ?_⟩,
          fun h3 hrun => (h3 hrun).2 i hp⟩⟩
        have hij : i = j := by
          obtain ⟨_, _, _, h4, _⟩ := hp
          obtain ⟨_, _, _, h5, _⟩ := hj
          rw [h4] at h5
          cases h5
          rfl
        exact hij ▸ h3 hrun
      · have hp : ∀ i, ¬ p.1.Presses a i := fun i hi => hp ⟨i, hi⟩
        have hpush : Pushes p a := fun _ =>
          ⟨fun s hs => absurd hs (ha s), fun i hi => absurd hi (hp i)⟩
        have hall : Tracked (selectionStep p a) ∧ FocusInformed (selectionStep p a) := by
          cases hb : a.isButton with
          | false => exact informed_step h hs hi ha hb hk
          | true => exact informed_noPress h hs hi hb hp
        exact ⟨hall.1, fun _ => hpush, fun _ => hall.2⟩

theorem init_tracked : Tracked (init, {}) where
  typed := init_typed
  focus := fun _ i hi => by cases hi
  current := rfl
  backed := fun o x hx => by cases hx
  fresh := fun _ _ => rfl
  told := fun d o ho => by cases ho

/-- In a run that destroys no data device and no source, every live data device of the client with
the keyboard was sent the current selection last, in every state, exactly when every step pushes
the selection where it has to: no other source becomes the selection while such a device is there,
and a client that gets the keyboard has all its devices in the seat that is found for it. -/
theorem informed_throughout_iff (as : List Action) (hk : Run.Each step KeepsDevices init as) :
    Run.Always selectionStep FocusInformed (init, {}) as ↔
      Run.Each selectionStep Pushes (init, {}) as := by
  refine Run.always_iff_each_under (J := Tracked) (K := fun p a => p.1.KeepsDevices a)
    init_tracked ?_ (fun p a h hi ha => (informed_step_iff h hi ha).1)
    (fun p a h hi ha => (informed_step_iff h hi ha).2) ?_
  · intro _ c hc
    cases hc
  · exact (Run.each_fst_iff fun _ _ => rfl).mpr hk

/-- A client gets the keyboard, and sets a selection. -/
def selectFocused : List Action :=
  [.desk 0 .bindSeat, .desk 0 .getDataDevice, .desk 0 (.createSurface (0, 0)),
    .desk 0 (.createWlBuffer ⟨0, 1, 1, 4, [0, 0, 0, 0]⟩), .desk 0 (.attach 2 (some 3) (0, 0)),
    .desk 0 (.commit 2), .mouseMove 0 0 fun o => if o = .surface 2 then some 1 else none,
    .mouseButton 272 true fun _ => none, .desk 0 .createDataSource,
    .desk 0 (.setSelection 1 (some 4))]

theorem informed_throughout_selectFocused :
    (run selectFocused).isFocusedClient 0 = true ∧
      (Run.Always selectionStep FocusInformed (init, {}) selectFocused ↔
        Run.Each selectionStep Pushes (init, {}) selectFocused) := by
  refine ⟨rfl, informed_throughout_iff selectFocused ?_⟩
  simp [selectFocused, Run.each_cons, Run.each_nil, KeepsDevices]

/-- It has the keyboard, and was last told that there is no selection. -/
theorem selectFocused_stale : Run.Each step KeepsDevices init selectFocused ∧
    ¬ Run.Always selectionStep FocusInformed (init, {}) selectFocused ∧
      (run selectFocused).lastTold 1 = some none := by
  refine ⟨by simp [selectFocused, Run.each_cons, Run.each_nil, KeepsDevices], fun h => ?_, rfl⟩
  obtain ⟨o, ho, -⟩ := h selectFocused List.prefix_rfl rfl 0 rfl 1 rfl
  cases ho

end Informed
end World
end Yaza
