import Mathlib.Algebra.Group.Prod
import Yaza.Server.Parts

/-! What the commits of a surface add to its offset, against what its client asked for: the last
`offset` since the commit before. -/
namespace Yaza

/-- A request that sets the pending offset of a surface. -/
inductive OffsetRequest where
  | offset (d : ℤ × ℤ)
  | attach (d : ℤ × ℤ)
  deriving DecidableEq, Repr

namespace OffsetRequest

/-- What a request asks the next commit to add. An `attach` at (0, 0) is about a buffer only. -/
def asks : OffsetRequest → Option (ℤ × ℤ)
  | .offset d => some d
  | .attach d => if d = (0, 0) then none else some d

def amount : OffsetRequest → ℤ × ℤ
  | .offset d | .attach d => d

/-- What the last request that asks for an offset asks for. -/
def asked (l : List OffsetRequest) : ℤ × ℤ := (l.filterMap asks).getLast?.getD (0, 0)

/-- The offset that is pending. -/
def pending (l : List OffsetRequest) : ℤ × ℤ := (l.getLast?.map amount).getD (0, 0)

/-- An `attach` at (0, 0) comes after the last request for another offset. -/
def Overwritten (l : List OffsetRequest) : Prop :=
  l.getLast? = some (.attach (0, 0)) ∧ asked l ≠ (0, 0)

/-- The offset that is pending is the one asked for unless it was overwritten. -/
theorem pending_eq_asked_iff (l : List OffsetRequest) : pending l = asked l ↔ ¬Overwritten l := by
  obtain rfl | ⟨l, r, rfl⟩ := l.eq_nil_or_concat'
  · simp [pending, asked, Overwritten]
  · cases r with
    | offset d => simp [pending, asked, Overwritten, asks, amount]
    | attach d =>
      by_cases hd : d = (0, 0)
      · subst hd
        simp [pending, asked, Overwritten, asks, amount, eq_comm]
      · simp [pending, asked, Overwritten, asks, amount, hd]

end OffsetRequest

open OffsetRequest

/-- Both amounts are values of `int32_t`. -/
def InInt32 (d : ℤ × ℤ) : Prop :=
  (-2 ^ 31 ≤ d.1 ∧ d.1 < 2 ^ 31) ∧ -2 ^ 31 ≤ d.2 ∧ d.2 < 2 ^ 31

/-- `offset_`, `pending_.offset` and `pending_.offset_changed`. -/
def Surface.drift (x : Surface) : (ℤ × ℤ) × (ℤ × ℤ) × Bool :=
  (x.offset, x.pendingOffset, x.offsetChanged)

/-- What `set_offset` does to them. -/
def aim (d : ℤ × ℤ) (s : (ℤ × ℤ) × (ℤ × ℤ) × Bool) : (ℤ × ℤ) × (ℤ × ℤ) × Bool := (s.1, d, true)

/-- What `commit` does to them. -/
def settle (s : (ℤ × ℤ) × (ℤ × ℤ) × Bool) : (ℤ × ℤ) × (ℤ × ℤ) × Bool :=
  if s.2.2 then (s.1 + s.2.1, s.2.1, false) else s

namespace Surface

theorem tellTexture_drift (x : Surface) : x.tellTexture.drift = x.drift := by
  unfold tellTexture
  split <;> rfl

theorem move_drift (x : Surface) (polar azimuthal : ℚ) : (x.move polar azimuthal).drift = x.drift :=
  rfl

theorem roleless_drift : Roleless drift where
  updateDistance := by
    intro x y index h
    unfold updateDistanceByLayerIndex at h
    split at h
    · cases h
    · rw [← Option.some.inj h]
      split <;> rfl
  moveCursor := fun _ _ _ _ _ => rfl
  initRenderer := fun _ _ => tellTexture_drift _
  noRenderer := fun _ => rfl
  sessionFrame := fun _ => rfl
  queueFrameCallback := fun _ _ => rfl
  setRole := fun _ _ _ => rfl
  setActive := fun _ _ => rfl

theorem setOffset_drift (x : Surface) (d : ℤ × ℤ) : (x.setOffset d).drift = aim d x.drift := rfl

theorem commitOffset_drift (x : Surface) : x.commitOffset.drift = settle x.drift := by
  unfold commitOffset settle
  cases h : x.offsetChanged <;> simp [drift, syncGeom, tell, h]
  rfl

theorem commitBuffer_drift (x : Surface) (b : WlShmBuffer) :
    (x.commitBuffer b).drift = x.drift := by
  unfold commitBuffer
  split <;> rfl

end Surface

namespace World

/-- The requests for each surface since its last commit. -/
abbrev OffsetNotes := ℕ → List OffsetRequest

/-- A request that is handled is noted; a commit starts anew. -/
def noteOffset (w : World) (k : OffsetNotes) : Action → OffsetNotes
  | .desk client (.attach i b d) =>
    if w.admits client (.attach i b d) then Function.update k i (k i ++ [.attach d]) else k
  | .desk client (.offset i d) =>
    if w.admits client (.offset i d) then Function.update k i (k i ++ [.offset d]) else k
  | .desk client (.commit i) =>
    if w.admits client (.commit i) then Function.update k i [] else k
  | _ => k

/-- A step of the program beside the notes. -/
def drifting (s : World × OffsetNotes) (a : Action) : World × OffsetNotes :=
  (s.1.step a, if s.1.stopped then s.2 else s.1.noteOffset s.2 a)

/-- What an action should add to the offset of a surface. -/
def due (s : World × OffsetNotes) (i : ℕ) : Action → ℤ × ℤ
  | .desk client (.commit j) =>
    if s.1.stopped = false ∧ s.1.admits client (.commit j) = true ∧ j = i then asked (s.2 i)
    else (0, 0)
  | _ => (0, 0)

/-- A commit adds to the offset of its surface what was asked for since the one before, nothing
else changes an offset, and none overflows. -/
def AddsAsked (s : World × OffsetNotes) (a : Action) : Prop :=
  ∀ i y, (s.1.step a).surfaces i = some y →
    InInt32 y.offset ∧ ∀ x, s.1.surfaces i = some x → y.offset = x.offset + due s i a

/-- At a commit no `attach` at (0, 0) came after the last request for another offset, and there is
room for what was asked for. -/
def Heeded (s : World × OffsetNotes) : Action → Prop
  | .desk client (.commit i) =>
    s.1.stopped = false → s.1.admits client (.commit i) = true →
      ¬Overwritten (s.2 i) ∧
        ∀ x, s.1.surfaces i = some x → InInt32 (x.offset + asked (s.2 i))
  | _ => True

section Steps
variable {w w' : World} {k : OffsetNotes} {client i : ℕ} {a : Action}

/-- The code's offsets of a surface after these requests. -/
structure Pends (l : List OffsetRequest) (s : (ℤ × ℤ) × (ℤ × ℤ) × Bool) : Prop where
  room : InInt32 s.1
  changed : s.2.2 = !l.isEmpty
  last : l ≠ [] → s.2.1 = pending l

theorem Pends.aim {l : List OffsetRequest} {s : (ℤ × ℤ) × (ℤ × ℤ) × Bool} (h : Pends l s)
    (r : OffsetRequest) : Pends (l ++ [r]) (aim r.amount s) where
  room := h.room
  changed := by simp [Yaza.aim]
  last := fun _ => by simp [Yaza.aim, pending]

/-- What a commit adds is what is pending. -/
theorem Pends.settle_fst {l : List OffsetRequest} {s : (ℤ × ℤ) × (ℤ × ℤ) × Bool}
    (h : Pends l s) : (settle s).1 = s.1 + pending l := by
  have hc := h.changed
  unfold settle
  cases l with
  | nil =>
    rw [if_neg (by simp [hc])]
    exact (add_zero s.1).symm
  | cons r l =>
    have hp := h.last (List.cons_ne_nil r l)
    simp_all

theorem settle_changed (s : (ℤ × ℤ) × (ℤ × ℤ) × Bool) : (settle s).2.2 = false := by
  unfold settle
  cases h : s.2.2 <;> simp [h]

/-- The code and the notes agree. -/
structure Drifts (w : World) (k : OffsetNotes) : Prop where
  typed : w.Typed
  fresh : ∀ i, w.nextId ≤ i → k i = []
  pends : ∀ i x, w.surfaces i = some x → Pends (k i) x.drift

/-- What every other action does. -/
theorem Drifts.descends (h : Drifts w k) (ht : w'.Typed) (hn : w.nextId ≤ w'.nextId)
    (hd : Descends Surface.drift w w') : Drifts w' k where
  typed := ht
  fresh := fun i hi => h.fresh i (hn.trans hi)
  pends := fun i y hy => by
    rcases hd i y hy with ⟨x, hx, hxy⟩ | ⟨hi, texSize, hy⟩
    · rw [← hxy]
      exact h.pends i x hx
    · rw [h.fresh i hi, hy]
      exact ⟨by simp [Surface.drift, InInt32], rfl, fun hne => absurd rfl hne⟩

theorem act_offsets (ha : ∀ client r, a = .desk client r → w.admits client r = true →
    r.commits = false) : Descends Surface.drift w (w.act a) := by
  apply act_descends Surface.roleless_drift
  · intro client r h1 h2 h3
    rw [ha client r h1 h2] at h3
    cases h3
  · rintro polar azimuthal hits rfl
    exact descends_of_mapAll
      (moveRelPointing_mapAll Surface.roleless_drift Surface.move_drift w polar azimuthal hits)

/-- The offsets that a commit leaves. -/
theorem commitSurface_drift (w : World) (i : ℕ) :
    (w.commitSurface i).surfaces.mapAll Surface.drift =
      (w.surfaces.mapAll Surface.drift).modify i settle := by
  unfold commitSurface
  split
  · next hx =>
    have hn : w.surfaces.mapAll Surface.drift i = none := by simp [hx]
    exact (Arena.modify_of_none hn _).symm
  · next x hx =>
    have hb : (w.commitBuffer i x).surfaces.mapAll Surface.drift =
        (w.surfaces.mapAll Surface.drift).modify i settle := by
      unfold commitBuffer
      split
      · exact Arena.mapAll_modify_apply Surface.commitOffset_drift _ _
      · split
        · exact Arena.mapAll_modify_apply Surface.commitOffset_drift _ _
        · exact Arena.mapAll_modify_apply (fun y =>
            (Surface.commitBuffer_drift _ _).trans (Surface.commitOffset_drift y)) _ _
    unfold andThen
    split
    · exact hb
    · have h1 (y : Surface) : y.tellTexture.commitFrames.drift = y.drift := y.tellTexture_drift
      exact (Arena.mapAll_modify h1).trans hb

/-- A request that is handled has the surface it names. -/
theorem Drifts.surface_lt (h : Drifts w k) {r : DeskRequest} (ha : w.admits client r = true)
    (hr : (i, .surface) ∈ r.objects) : i < w.nextId :=
  h.typed.fresh.lt (admits_object ha hr)

/-- One surface changes, and the notes of it. -/
theorem Drifts.modify (h : Drifts w k) (ht : w'.Typed) (hn : w'.nextId = w.nextId)
    (hi : i < w.nextId) {f : (ℤ × ℤ) × (ℤ × ℤ) × Bool → (ℤ × ℤ) × (ℤ × ℤ) × Bool}
    (hs : w'.surfaces.mapAll Surface.drift = (w.surfaces.mapAll Surface.drift).modify i f)
    {l : List OffsetRequest}
    (hf : ∀ x, w.surfaces i = some x → Pends (k i) x.drift → Pends l (f x.drift)) :
    Drifts w' (Function.update k i l) where
  typed := ht
  fresh := fun j hj => by
    rw [hn] at hj
    rw [Function.update_of_ne (Nat.ne_of_gt (Nat.lt_of_lt_of_le hi hj))]
    exact h.fresh j hj
  pends := fun j y hy => by
    have hj := congrFun hs j
    rw [Arena.mapAll_apply, hy, Option.map_some] at hj
    by_cases hji : j = i
    · subst hji
      obtain ⟨x, hx, hxy⟩ : ∃ x, w.surfaces j = some x ∧ f x.drift = y.drift := by
        simpa using hj.symm
      rw [Function.update_self, ← hxy]
      exact hf x hx (h.pends j x hx)
    · obtain ⟨x, hx, hxy⟩ : ∃ x, w.surfaces j = some x ∧ x.drift = y.drift := by
        simpa [hji] using hj.symm
      rw [Function.update_of_ne hji, ← hxy]
      exact h.pends j x hx

theorem Drifts.note (h : Drifts w k) {r : DeskRequest} (ha : w.admits client r = true)
    (hr : (i, .surface) ∈ r.objects) {q : OffsetRequest} {f : Surface → Surface}
    (hf : ∀ x, (f x).drift = aim q.amount x.drift) :
    Drifts (w.modifySurface i f) (Function.update k i (k i ++ [q])) :=
  h.modify (modifySurface_typed h.typed i f) rfl (h.surface_lt ha hr)
    (Arena.mapAll_modify_apply hf _ _) fun _ _ hx => hx.aim q

/-- A commit with room for what is pending. -/
theorem Drifts.commit (h : Drifts w k) (ha : w.admits client (.commit i) = true)
    (hc : ∀ x, w.surfaces i = some x → InInt32 (x.offset + pending (k i))) :
    Drifts (w.commitSurface i) (Function.update k i []) := by
  refine h.modify (commitSurface_typed h.typed i) (w.commitSurface_rest i).2.2.2.2.2.2.1
    (h.surface_lt ha (by simp [DeskRequest.objects])) (commitSurface_drift w i) fun x hx hp => ?_
  refine ⟨?_, settle_changed _, fun hn => absurd rfl hn⟩
  rw [hp.settle_fst]
  exact hc x hx

/-- Offsets and notes agree after every step that is not a commit, and after one that has room. -/
theorem drifts_step {s : World × OffsetNotes} (h : Drifts s.1 s.2) (a : Action)
    (hc : Heeded s a) : Drifts (drifting s a).1 (drifting s a).2 := by
  obtain ⟨w, k⟩ := s
  unfold drifting
  cases hs : w.stopped with
  | true =>
    simp only [step_of_stopped hs]
    exact h
  | false =>
    have ht := step_typed h.typed a
    have hn := nextId_le_step w a
    simp only [step_of_running hs] at ht hn ⊢
    have rest (h1 : ∀ client r, a = .desk client r → w.admits client r = true →
        r.commits = false) (h2 : w.noteOffset k a = k) : Drifts (w.act a) (w.noteOffset k a) := by
      rw [h2]
      exact h.descends ht hn (act_offsets h1)
    cases a with
    | desk client r =>
      by_cases ha : w.admits client r = true
      · cases r with
        | attach i b d =>
          simp only [act_desk ha, noteOffset, ha, if_true]
          exact h.note ha (by simp [DeskRequest.objects]) fun x => rfl
        | offset i d =>
          simp only [act_desk ha, noteOffset, ha, if_true]
          exact h.note ha (by simp [DeskRequest.objects]) fun x => x.setOffset_drift d
        | commit i =>
          obtain ⟨h1, h2⟩ := hc hs ha
          simp only [act_desk ha, noteOffset, ha, if_true]
          refine h.commit ha fun x hx => ?_
          rw [(pending_eq_asked_iff (k i)).mpr h1]
          exact h2 x hx
        | _ => exact rest (by rintro _ _ ⟨⟩ _; rfl) rfl
      · exact rest (by rintro _ _ ⟨⟩ h1; exact absurd h1 ha)
          (by cases r <;> simp [noteOffset, ha])
    | _ => exact rest (by rintro _ _ ⟨⟩) rfl

/-- Nothing but a commit changes an offset. -/
theorem act_offset (ha : ∀ client i, a = .desk client (.commit i) →
    w.admits client (.commit i) = false) : Descends Surface.offset w (w.act a) := by
  apply act_descends (Surface.roleless_drift.map Prod.fst)
  · intro client r h1 h2 h3
    cases r with
    | attach i b d => exact descends_of_mapAll (Arena.mapAll_modify fun _ => rfl)
    | offset i d => exact descends_of_mapAll (Arena.mapAll_modify fun _ => rfl)
    | commit i =>
      rw [ha client i h1] at h2
      cases h2
    | _ => cases h3
  · rintro polar azimuthal hits rfl
    exact descends_of_mapAll (moveRelPointing_mapAll (Surface.roleless_drift.map Prod.fst)
      (fun _ _ _ => rfl) w polar azimuthal hits)

/-- A step that is no commit adds nothing. -/
theorem addsAsked_of_kept {s : World × OffsetNotes} {a : Action} (h : Drifts s.1 s.2)
    (hd : Descends Surface.offset s.1 (s.1.step a)) (hz : ∀ i, due s i a = (0, 0)) :
    AddsAsked s a := by
  intro i y hy
  have he : ∀ x, s.1.surfaces i = some x → y.offset = x.offset := by
    intro x hx
    rcases hd i y hy with ⟨x', hx', hxy⟩ | ⟨hi, -⟩
    · rw [hx] at hx'
      rw [← hxy, Option.some.inj hx']
    · have hl := h.typed.lt (k := .surface) (i := i) (by simp [World.holds, hx])
      omega
  refine ⟨?_, fun x hx => ?_⟩
  · rcases hd i y hy with ⟨x, hx, hxy⟩ | ⟨-, texSize, hy⟩
    · rw [← hxy]
      exact (h.pends i x hx).room
    · rw [hy]
      simp [InInt32]
  · rw [hz, he x hx]
    exact (add_zero x.offset).symm

/-- A commit adds what is pending, to the offset of its surface alone. -/
theorem Drifts.commit_offset (h : Drifts w k) {j : ℕ} {x y : Surface}
    (hx : w.surfaces j = some x) (hy : (w.commitSurface i).surfaces j = some y) :
    y.offset = if j = i then x.offset + pending (k i) else x.offset := by
  have hj := congrFun (commitSurface_drift w i) j
  rw [Arena.mapAll_apply, hy, Option.map_some, Arena.modify_apply, Arena.mapAll_apply, hx,
    Option.map_some] at hj
  split at hj
  · next hji =>
    subst hji
    have h1 : y.drift = settle x.drift := Option.some.inj hj
    rw [if_pos rfl]
    exact (congrArg Prod.fst h1).trans (h.pends j x hx).settle_fst
  · next hji =>
    rw [if_neg hji]
    exact congrArg Prod.fst (Option.some.inj hj)

theorem addsAsked_commit_iff (h : Drifts w k) (hs : w.stopped = false)
    (ha : w.admits client (.commit i) = true) :
    AddsAsked (w, k) (.desk client (.commit i)) ↔ Heeded (w, k) (.desk client (.commit i)) := by
  have hw : w.step (.desk client (.commit i)) = w.commitSurface i := by
    rw [step_of_running hs, act_desk ha, handle]
  have hdue (j : ℕ) : due (w, k) j (.desk client (.commit i)) =
      if i = j then asked (k j) else (0, 0) := by
    simp [due, hs, ha]
  have alive (j : ℕ) : ((w.commitSurface i).surfaces j).isSome = (w.surfaces j).isSome := by
    have hj := congrArg Option.isSome (congrFun (commitSurface_drift w i) j)
    simpa using hj
  obtain ⟨x, hx⟩ := Option.isSome_iff_exists.mp
    (h.typed.object i client .surface (admits_object ha (by simp [DeskRequest.objects])) rfl)
  constructor
  · intro hp _ _
    obtain ⟨y, hy⟩ := Option.isSome_iff_exists.mp ((alive i).trans (by rw [hx]; rfl))
    obtain ⟨hroom, hadd⟩ := hp i y (hw ▸ hy)
    have h1 := hadd x hx
    rw [h.commit_offset hx hy, if_pos rfl, hdue, if_pos rfl] at h1
    have h2 : pending (k i) = asked (k i) := add_left_cancel h1
    refine ⟨(pending_eq_asked_iff _).mp h2, fun x' hx' => ?_⟩
    rw [hx] at hx'
    rw [h.commit_offset hx hy, if_pos rfl, h2] at hroom
    rwa [← Option.some.inj hx']
  · intro hp j y hy
    obtain ⟨h1, h2⟩ := hp hs ha
    rw [hw] at hy
    obtain ⟨z, hz⟩ := Option.isSome_iff_exists.mp ((alive j).symm.trans (by rw [hy]; rfl))
    have hyz := h.commit_offset hz hy
    by_cases hji : j = i
    · subst hji
      rw [if_pos rfl, (pending_eq_asked_iff _).mpr h1] at hyz
      rw [hyz]
      refine ⟨h2 z hz, fun z' hz' => ?_⟩
      rw [hz] at hz'
      rw [hdue, if_pos rfl, Option.some.inj hz']
    · rw [if_neg hji] at hyz
      rw [hyz]
      refine ⟨(h.pends j z hz).room, fun z' hz' => ?_⟩
      rw [hz] at hz'
      rw [hdue, if_neg (Ne.symm hji), Option.some.inj hz']
      exact (add_zero z'.offset).symm

theorem addsAsked_iff {s : World × OffsetNotes} (h : Drifts s.1 s.2) (a : Action) :
    AddsAsked s a ↔ Heeded s a := by
  obtain ⟨w, k⟩ := s
  by_cases hc : ∃ client i, a = .desk client (.commit i) ∧ w.stopped = false ∧
      w.admits client (.commit i) = true
  · obtain ⟨client, i, rfl, hs, ha⟩ := hc
    exact addsAsked_commit_iff h hs ha
  · have hnot : ∀ client i, a = .desk client (.commit i) → w.stopped = false →
        w.admits client (.commit i) = false := by
      intro client i h1 h2
      cases ha : w.admits client (.commit i) with
      | false => rfl
      | true => exact absurd ⟨client, i, h1, h2, ha⟩ hc
    have hz (i : ℕ) : due (w, k) i a = (0, 0) := by
      unfold due
      split
      · rw [if_neg]
        rintro ⟨h1, h2, -⟩
        simp [hnot _ _ rfl h1] at h2
      · rfl
    have hd : Descends Surface.offset w (w.step a) := by
      cases hs : w.stopped with
      | true =>
        rw [step_of_stopped hs]
        exact descends_of_mapAll rfl
      | false =>
        rw [step_of_running hs]
        exact act_offset fun client i h1 => hnot client i h1 hs
    refine iff_of_true (addsAsked_of_kept h hd hz) ?_
    unfold Heeded
    split
    · intro h1 h2
      simp [hnot _ _ rfl h1] at h2
    · trivial

theorem init_drifts : Drifts init fun _ => [] where
  typed := init_typed
  fresh := fun _ _ => rfl
  pends := fun i x hx => by cases hx

end Steps

/-- In a run every commit adds what was asked for since the one before, and no offset overflows,
exactly when every commit has room and comes without an `attach` at (0, 0) after what it asks. -/
theorem adds_throughout_iff (as : List Action) :
    Run.Each drifting AddsAsked (init, fun _ => []) as ↔
      Run.Each drifting Heeded (init, fun _ => []) as :=
  Run.each_iff_each (G := fun s : World × OffsetNotes => Drifts s.1 s.2) init_drifts
    (fun _ a h hc => drifts_step h a hc) (fun _ a h => addsAsked_iff h a) as

/-- A client moves its surface with its next content, and attaches that. -/
def offsetThenAttach : List Action :=
  [.desk 0 (.createWlBuffer ⟨0, 1, 1, 4, [1, 2, 3, 4]⟩), .desk 0 (.createSurface (0, 0)),
    .desk 0 (.offset 1 (3, 4)), .desk 0 (.attach 1 (some 0) (0, 0)), .desk 0 (.commit 1)]

/-- The surface is not moved. -/
theorem offsetThenAttach_lost :
    ¬Run.Each drifting AddsAsked (init, fun _ => []) offsetThenAttach ∧
      ((run offsetThenAttach).surfaces 1).map Surface.offset = some (0, 0) := by
  refine ⟨fun h => ?_, rfl⟩
  have h1 := h (offsetThenAttach.take 4) (.desk 0 (.commit 1)) List.prefix_rfl
  have h2 := (h1 1 _ rfl).2 _ rfl
  revert h2
  decide

end World
end Yaza
