import Yaza.Server.Reach
import Yaza.Zwin.Callbacks

/-! The frame callbacks of surfaces and virtual objects against the ledgers of what the clients
asked for. -/
namespace Yaza
namespace World

open Batch (Op Ledger)

/-- The frame callbacks of a surface; none when it is gone. -/
def framesOf (w : World) (i : ℕ) : List ℕ × List ℕ :=
  ((w.surfaces i).map Surface.frames).getD ([], [])

theorem framesOf_eq (w : World) (i : ℕ) :
    w.framesOf i = ((w.keys i).map Prod.fst).getD ([], []) := by
  cases hx : w.surfaces i <;> simp [framesOf, keys, hx, Surface.key]

/-- What the clients ask of the callbacks of a surface. -/
def callbackOp (w : World) : Action → Option (Op ℕ)
  | .desk client (.frame s) =>
    if w.admits client (.frame s) && (w.surfaces s).isSome then some (.request s w.nextId) else none
  | .desk client (.commit s) => if w.admits client (.commit s) then some (.commit s) else none
  | .destroy client i =>
    if w.resources i = some ⟨client, .surface⟩ then some (.close i) else none
  | .frameTimer busyness =>
    if !w.scene.remote.hasSession || busyness < Scene.busynessThreshold then some .tick else none
  | _ => none

/-- What was asked of the surfaces and of the virtual objects. -/
structure Ledgers where
  surfaces : Ledger ℕ := {}
  objects : Ledger ℕ := {}

/-- What a step asks for. -/
def Ledgers.note (k : Ledgers) (w : World) (a : Action) : Ledgers :=
  if w.stopped then k
  else
    { surfaces := k.surfaces.record (w.callbackOp a)
      objects := k.objects.record ((w.sceneAction a).bind w.scene.callbackOp) }

/-- The program, and what it was asked for so far. -/
def noted (s : World × Ledgers) (a : Action) : World × Ledgers := (s.1.step a, s.2.note s.1 a)

/-- Each object was sent `done` for what was committed before a tick, once and in order. -/
def Answered (s : World × Ledgers) : Prop :=
  Batch.Sent s.1.doneCallbacks s.2.surfaces ∧ Batch.Sent s.1.scene.doneCallbacks s.2.objects

/-- No callbacks are committed while others are waiting for the tick, and none by a drag. -/
def CommitsInTurn (w : World) (a : Action) : Prop :=
  w.stopped = false →
    (∀ client s, a = .desk client (.commit s) → w.admits client (.commit s) →
      (w.framesOf s).1 = [] ∨ (w.framesOf s).2 = []) ∧
    ∀ b, w.sceneAction a = some b → w.scene.CommitsInTurn b

/-- The callbacks of the surfaces are those of the ledger. -/
abbrev Recorded (w : World) (k : Ledger ℕ) : Prop :=
  Batch.Recorded w.framesOf w.doneCallbacks w.nextId k

section Surfaces
variable {w w' : World} {k : Ledger ℕ}

theorem Recorded.same (h : w.Recorded k) (hk : w'.keys = w.keys)
    (hd : w'.doneCallbacks = w.doneCallbacks) (hn : w.nextId ≤ w'.nextId) : w'.Recorded k := by
  have h1 := Batch.Recorded.mono h (g := w'.framesOf)
    (fun i => by rw [framesOf_eq, framesOf_eq, hk]) hn
  rwa [← hd] at h1

theorem Recorded.calm (h : w.Recorded k) (hc : Calm w w') : w'.Recorded k :=
  h.same hc.surfaces hc.done hc.nextId

theorem Recorded.idle (h : w.Recorded k) (hc : Idle w w') : w'.Recorded k :=
  h.same hc.keys hc.done hc.nextId

theorem Sane.framesOf_of_le (hs : Sane w) {i : ℕ} (hi : w.nextId ≤ i) :
    w.framesOf i = ([], []) := by
  cases hx : w.surfaces i with
  | none => simp [framesOf, hx]
  | some x => exact absurd (hs.surface_lt i (by simp [hx])) (Nat.not_lt.mpr hi)

theorem Recorded.create (hs : Sane w) (h : w.Recorded k) (client : ℕ) (texSize : ℕ × ℕ) :
    (w.createSurface client texSize).Recorded k := by
  have hc := createSurface_keyed (w := w) client texSize
  have h1 := Batch.Recorded.mono h (g := (w.createSurface client texSize).framesOf)
    (fun i => ?_) hc.nextId
  · rwa [← hc.done] at h1
  · rw [framesOf_eq, hc.keys]
    by_cases hi : i = w.nextId
    · subst hi
      simp [hs.framesOf_of_le (Nat.le_refl _)]
    · rw [Arena.set_of_ne _ _ hi, framesOf_eq]

theorem queueFrameCallback_frames {s : ℕ} (hl : (w.surfaces s).isSome) (i : ℕ) :
    (w.queueFrameCallback s).framesOf i =
      if i = s then ((w.framesOf s).1 ++ [w.nextId], (w.framesOf s).2) else w.framesOf i := by
  obtain ⟨x, hx⟩ := Option.isSome_iff_exists.mp hl
  by_cases hi : i = s
  · subst hi
    simp [framesOf, queueFrameCallback, modifySurface, hx, Surface.frames,
      Surface.queueFrameCallback]
  · simp [framesOf, queueFrameCallback, modifySurface, hi]

theorem Recorded.frame (h : w.Recorded k) (s : ℕ) :
    (w.queueFrameCallback s).Recorded
      (k.record (if (w.surfaces s).isSome then some (.request s w.nextId) else none)) := by
  by_cases hl : (w.surfaces s).isSome
  · rw [if_pos hl]
    exact Batch.Recorded.request h (queueFrameCallback_frames hl)
  · rw [if_neg hl]
    have hc := queueFrameCallback_keyed (w := w) s
    refine h.same ?_ rfl (Nat.le_succ _)
    rw [hc.keys]
    exact Arena.modify_of_none (by simpa [keys] using hl) _

theorem Recorded.commit (h : w.Recorded k) {s : ℕ}
    (hb : (w.framesOf s).1 = [] ∨ (w.framesOf s).2 = [])
    (hc : Keyed (w.keys.modify s commitKey) w w') : w'.Recorded (k.apply (.commit s)) := by
  refine ⟨?_, fun i c hi => (h.issued_lt i c hi).trans_le hc.nextId⟩
  rw [hc.done]
  refine h.lists.commit hb fun i => ?_
  rw [framesOf_eq, hc.keys]
  by_cases hi : i = s
  · subst hi
    simp only [Arena.modify_self, if_true, framesOf_eq]
    cases w.keys i <;> rfl
  · simp [hi, framesOf_eq]

theorem Recorded.destroy (h : w.Recorded k) (i : ℕ) :
    ((w.destroyResource i).Recorded (k.record
      (if (w.resources i).map DeskResource.interface = some .surface then some (.close i)
        else none))) := by
  cases hr : w.resources i with
  | none =>
    rw [destroyResource, hr]
    exact h
  | some r =>
    have hc := destroyResource_keyed hr
    simp only [Option.map_some, Option.some.injEq]
    split
    · next hi =>
      rw [if_pos hi] at hc
      refine ⟨?_, fun i c hi => (h.issued_lt i c hi).trans_le hc.nextId⟩
      rw [hc.done]
      refine h.lists.close fun j => ?_
      rw [framesOf_eq, hc.keys]
      by_cases hj : j = i
      · subst hj
        simp
      · simp [hj, framesOf_eq]
    · next hi =>
      rw [if_neg hi] at hc
      exact h.idle hc

theorem dueCallbacks_eq (w : World) : w.dueCallbacks = fun i => (w.framesOf i).2 := by
  funext i
  cases hx : w.surfaces i <;> simp [framesOf, dueCallbacks, hx, Surface.frames]

theorem sessionFrame_done (w : World) : w.sessionFrame.doneCallbacks =
    w.doneCallbacks ++ (List.range w.nextId).flatMap fun i => (w.framesOf i).2 := by
  have h : DeskEvent.callback? ∘ DeskEvent.callbackDone = some := rfl
  simp only [doneCallbacks, sessionFrame, List.filterMap_append, List.filterMap_map, h,
    List.filterMap_some, dueCallbacks_eq]

theorem Recorded.tick (hs : Sane w) (h : w.Recorded k) :
    w.sessionFrame.Recorded (k.apply .tick) := by
  refine ⟨?_, fun i c hi => h.issued_lt i c hi⟩
  rw [sessionFrame_done]
  refine h.lists.tick List.nodup_range (fun i hi => by
    rw [hs.framesOf_of_le (by simpa using hi)]) fun i => ?_
  cases hx : w.surfaces i <;> simp [framesOf, sessionFrame, hx, Surface.frames]

/-- Every surface gets or loses its renderer. -/
theorem Recorded.renew (h : w.Recorded k) {f : Surface → Surface}
    (hw : w'.surfaces = w.surfaces.mapAll f) (hf : ∀ x, (f x).frames = x.frames)
    (he : w'.events = w.events) (hn : w'.nextId = w.nextId) : w'.Recorded k := by
  have h1 := Batch.Recorded.mono h (g := w'.framesOf) (fun i => ?_) hn.ge
  · rwa [show w.doneCallbacks = w'.doneCallbacks by rw [doneCallbacks, doneCallbacks, he]] at h1
  · cases hx : w.surfaces i <;> simp [framesOf, hw, hx, hf]

end Surfaces

section Steps
variable {w : World} {k : Ledger ℕ} (h : w.Recorded k)
include h

theorem handle_recorded (hs : Sane w) {client : ℕ} {r : DeskRequest} (ha : w.admits client r)
    (hc : ∀ s, r = .commit s → (w.framesOf s).1 = [] ∨ (w.framesOf s).2 = []) :
    (w.handle client r).Recorded (k.record (w.callbackOp (.desk client r))) ∨
      (w.handle client r).stopped ∧ (w.handle client r).doneCallbacks = w.doneCallbacks ∧
        ∃ s, w.callbackOp (.desk client r) = some (.commit s) := by
  by_cases hi : r.isIdle = true
  · have ho : w.callbackOp (.desk client r) = none := by
      cases r <;> first | rfl | cases hi
    rw [ho]
    exact .inl (h.idle (handle_idle client hi))
  cases r with
  | createSurface texSize => exact .inl (h.create hs client texSize)
  | frame s =>
    refine .inl ?_
    simp only [callbackOp, ha, Bool.true_and]
    exact h.frame s
  | commit s =>
    simp only [callbackOp, ha, if_true]
    rcases commitSurface_keyed (w := w) s with ⟨hst, hk⟩ | hk
    · exact .inr ⟨hst, hk.done, s, rfl⟩
    · exact .inl (h.commit (hc s rfl) hk)
  | moveToplevel t =>
    exact .inl (h.calm (w.requestStartMove_calm client))
  | _ => exact absurd rfl hi

theorem frameTimer_recorded (hs : Sane w) (busyness : ℕ) :
    (w.frameTimer busyness).Recorded (k.record (w.callbackOp (.frameTimer busyness))) := by
  simp only [frameTimer, callbackOp]
  split
  · exact h.tick hs
  · exact h

theorem moveRelPointing_recorded (polar azimuthal : ℚ) (hits : Hits) :
    (w.moveRelPointing polar azimuthal hits).Recorded k := by
  rcases w.moveRelPointing_calm polar azimuthal hits with hc | hc
  · exact h.calm hc
  · refine World.Recorded.calm ?_ hc
    unfold dragFocused
    split
    · exact h
    · next o _ =>
      cases o with
      | surface i =>
        exact h.same (Arena.mapAll_modify fun x => x.move_key _ _) rfl (Nat.le_refl _)
      | app b => exact h

theorem act_recorded (hs : Sane w) {a : Action}
    (hc : ∀ client s, a = .desk client (.commit s) → w.admits client (.commit s) →
      (w.framesOf s).1 = [] ∨ (w.framesOf s).2 = []) :
    (w.act a).Recorded (k.record (w.callbackOp a)) ∨
      (w.act a).stopped ∧ (w.act a).doneCallbacks = w.doneCallbacks ∧
        ∃ s, w.callbackOp a = some (.commit s) := by
  cases a with
  | desk client r =>
    simp only [act]
    split
    · next ha => exact handle_recorded h hs ha fun s hr => hc client s (by rw [hr]) (hr ▸ ha)
    · next ha =>
      have ho : w.callbackOp (.desk client r) = none := by
        cases r <;> simp [callbackOp, ha]
      rw [ho]
      exact .inl h
  | destroy client i =>
    refine .inl ?_
    simp only [act, callbackOp]
    cases hr : w.resources i with
    | none =>
      simp only [Option.any_none, Bool.false_eq_true, if_false, reduceCtorEq]
      exact h
    | some r =>
      have h1 := h.destroy i
      simp only [hr, Option.map_some, Option.some.injEq] at h1
      by_cases hcl : r.client = client
      · have he : r = ⟨client, .surface⟩ ↔ r.interface = .surface := by
          subst hcl
          cases r
          simp
        simpa [hcl, he] using h1
      · have he : r ≠ ⟨client, .surface⟩ := fun he => hcl (by rw [he])
        simp only [Option.any_some, hcl, decide_false, Bool.false_eq_true, if_false,
          Option.some.injEq, he]
        exact h
  | zwin client r =>
    refine .inl ?_
    simp only [act, addBoundedApp]
    split <;> exact h
  | moveBounded client b =>
    refine .inl ?_
    simp only [act]
    split
    · exact h.calm (w.requestStartMove_calm client)
    · exact h
  | peerDiscover connected =>
    refine .inl ?_
    simp only [act, peerDiscover]
    split
    · exact h
    · exact h.renew rfl (fun x => congrArg Prod.fst (x.initRenderer_key _)) rfl rfl
  | sessionDisconnect =>
    refine .inl ?_
    simp only [act, sessionDisconnect]
    split
    · exact h.renew rfl (fun _ => rfl) rfl rfl
    · exact h
  | frameTimer busyness => exact .inl (frameTimer_recorded h hs busyness)
  | mouseMove polar azimuthal hits => exact .inl (moveRelPointing_recorded h ..)
  | mouseButton button isPressed hits => exact .inl (h.calm (w.handleMouseButton_calm ..))
  | mouseWheel amount =>
    exact .inl (h.calm (w.handleMouseWheel_calm amount))
  | destroyZwin client r => exact .inl h

end Steps

/-- What a run whose commits are in turn keeps. -/
structure Answers (s : World × Ledgers) : Prop where
  sane : Sane s.1
  sent : Batch.Sent s.1.doneCallbacks s.2.surfaces
  surfaces : s.1.stopped = false → s.1.Recorded s.2.surfaces
  objects : s.1.scene.Recorded s.2.objects

theorem Answers.answered {s : World × Ledgers} (h : Answers s) : Answered s :=
  ⟨h.sent, h.objects.lists.sent⟩

theorem init_answers : Answers (init, {}) where
  sane := init_sane
  sent := fun _ => rfl
  surfaces := fun _ => Batch.recorded_empty (fun _ => rfl) 0
  objects := Batch.recorded_empty (fun _ => rfl) 0

theorem noted_answers (s : World × Ledgers) (a : Action) (h : Answers s)
    (hc : CommitsInTurn s.1 a) : Answers (noted s a) := by
  obtain ⟨w, k⟩ := s
  have hsane := step_sane w a h.sane
  cases hr : w.stopped with
  | true =>
    have hw : noted (w, k) a = (w, k) := by simp [noted, step, Ledgers.note, hr]
    rw [hw]
    exact h
  | false =>
    obtain ⟨hc1, hc2⟩ := hc hr
    have hf : w.scene.fault = none := by simp_all [stopped]
    have hw : noted (w, k) a = (w.act a, ⟨k.surfaces.record (w.callbackOp a),
        k.objects.record ((w.sceneAction a).bind w.scene.callbackOp)⟩) := by
      simp [noted, step, Ledgers.note, hr]
    rw [step, if_neg (by simp [hr])] at hsane
    have hobj : (w.act a).scene.Recorded
        (k.objects.record ((w.sceneAction a).bind w.scene.callbackOp)) := by
      rw [act_scene]
      cases hb : w.sceneAction a with
      | none => exact h.objects
      | some b => exact Scene.step_recorded h.sane.tree hf h.objects (hc2 b hb)
    rw [hw]
    rcases act_recorded (h.surfaces hr) h.sane hc1 with h1 | ⟨hst, hd, t, ho⟩
    · exact ⟨hsane, h1.lists.sent, fun _ => h1, hobj⟩
    · refine ⟨hsane, ?_, fun hn => by simp [hst] at hn, hobj⟩
      rw [hd, ho]
      exact h.sent

/-- The run of the program is the same whether or not it is written down what it was asked for. -/
theorem noted_fst (s : World × Ledgers) (a : Action) : (noted s a).1 = s.1.step a := rfl

/-- In a run whose commits are in turn every object is answered as its ledger says. -/
theorem answered_throughout (as : List Action) (h : Run.Each step CommitsInTurn init as) :
    Run.Always noted Answered (init, {}) as := fun pre hp =>
  (Run.always_of_each init_answers noted_answers
    ((Run.each_fst_iff noted_fst).mpr h) pre hp).answered

theorem answered_throughout_once :
    Run.Always noted Answered (init, {})
      [.desk 0 (.createSurface (0, 0)), .desk 0 (.frame 0), .desk 0 (.commit 0), .frameTimer 0] :=
  answered_throughout _ <| by
    simp only [Run.each_cons, Run.each_nil, and_true]
    refine ⟨fun _ => ⟨fun _ _ h => (by cases h), fun _ h => (by cases h)⟩,
      fun _ => ⟨fun _ _ h => (by cases h), fun _ h => (by cases h)⟩,
      fun _ => ⟨fun _ _ h _ => ?_, fun _ h => (by cases h)⟩,
      fun _ => ⟨fun _ _ h => (by cases h), fun _ h => ?_⟩⟩
    · cases h
      exact .inr rfl
    · cases h
      trivial

/-- Two commits of a surface between two ticks, each with a frame request. -/
def overtakingRun : List Action :=
  [.desk 0 (.createSurface (0, 0)), .desk 0 (.frame 0), .desk 0 (.commit 0), .desk 0 (.frame 0),
    .desk 0 (.commit 0), .frameTimer 0]

theorem overtaken : ¬Run.Always noted Answered (init, {}) overtakingRun := fun h =>
  absurd ((h overtakingRun List.prefix_rfl).1 0) (by decide)

end World
end Yaza
