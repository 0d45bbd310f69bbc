import Yaza.Lib.Batch
import Yaza.Zwin.Fanout
import Yaza.Zwin.Still

/-! The frame callbacks of the virtual objects: what each action does to them, and the ledger of
what the clients asked for. -/
namespace Yaza
namespace Scene

theorem framesOf_congr {s s' : Scene}
    (h : s'.virtualObjects.mapAll VirtualObject.frames =
      s.virtualObjects.mapAll VirtualObject.frames)
    (v : ℕ) : s'.framesOf v = s.framesOf v :=
  congrArg (fun o => Option.getD o ([], [])) (congrFun h v)

theorem framesOf_of_content {s s' : Scene} (h : s'.content = s.content) (v : ℕ) :
    s'.framesOf v = s.framesOf v := by
  have h1 := congrArg (fun s => s.virtualObjects.mapAll VirtualObject.frames) h
  simp only [content, Arena.mapAll_mapAll] at h1
  exact framesOf_congr h1 v

theorem done_of_content {s s' : Scene} (h : s'.content = s.content) :
    s'.doneCallbacks = s.doneCallbacks :=
  show s'.content.doneCallbacks = s.content.doneCallbacks by rw [h]

theorem registerUnit_frames (s : Scene) (u : ℕ) (y : RenderingUnit) :
    (s.registerUnit u y).virtualObjects.mapAll VirtualObject.frames =
      s.virtualObjects.mapAll VirtualObject.frames := by
  unfold registerUnit
  split
  · rfl
  · rcases addRenderingUnit_cases s y.owner u with h | ⟨x, hx, h⟩ <;> rw [h]
    · rfl
    · exact Arena.mapAll_set hx rfl

theorem setTechnique_objects (s : Scene) (u : ℕ) (t : Option ℕ) :
    (s.setTechnique u t).virtualObjects = s.virtualObjects := by
  unfold setTechnique
  split
  · rfl
  · split
    · rcases postError_cases s u .technique ("new (nonnull) technique tried to set, " ++
        "but RenderingUnit already has another technique") with h | ⟨e, h⟩
      · rw [h]
        rfl
      · rw [h]
    · rfl

theorem commitTechnique_objects (s : Scene) (t : ℕ) :
    (s.commitTechnique t).virtualObjects = s.virtualObjects := by
  unfold commitTechnique
  split
  · rfl
  · next x _ =>
    refine (congrArg Scene.virtualObjects (commitLeaves_trunk
      ((s.registerTechnique t x).storeTechnique t (x.commit s.bindingAlive)) x
        (x.commit s.bindingAlive))).trans ?_
    unfold registerTechnique
    split
    · rfl
    · exact setTechnique_objects s _ _

/-- A listener changes no callback. -/
theorem notifyCommitted_frames (s : Scene) (c : CommitListener) :
    (s.notifyCommitted c).virtualObjects.mapAll VirtualObject.frames =
      s.virtualObjects.mapAll VirtualObject.frames := by
  have fold (l : List ℕ) (s : Scene) :
      (l.foldl commitTechnique s).virtualObjects = s.virtualObjects := by
    induction l generalizing s with
    | nil => rfl
    | cons t l ih => rw [List.foldl_cons, ih, commitTechnique_objects]
  cases c with
  | unit u =>
    simp only [notifyCommitted, commitUnit]
    split
    · rfl
    · rw [fold, registerUnit_frames]
  | app b =>
    simp only [notifyCommitted, commitApp]
    split <;> rfl

/-- The requested callbacks of the object are committed, in front of those that are. -/
theorem commitState_frames (s : Scene) (v i : ℕ) :
    (s.commitState v).framesOf i =
      if i = v then ([], (s.framesOf v).1 ++ (s.framesOf v).2) else s.framesOf i := by
  unfold commitState
  split
  · next hn =>
    split
    · next hi => simp [framesOf, crash, hi, hn]
    · rfl
  · next x hx =>
    have fold (l : List CommitListener) (s : Scene) :
        (l.foldl notifyCommitted s).virtualObjects.mapAll VirtualObject.frames =
          s.virtualObjects.mapAll VirtualObject.frames := by
      induction l generalizing s with
      | nil => rfl
      | cons c l ih => rw [List.foldl_cons, ih, notifyCommitted_frames]
    rw [framesOf_congr (fold x.listeners _)]
    by_cases hi : i = v
    · subst hi
      simp [framesOf, hx, VirtualObject.commit, VirtualObject.frames]
    · simp [framesOf, hi]

theorem CommitStep.done {T : ℕ → Prop} {s s' : Scene} (h : CommitStep T s s') :
    s'.doneCallbacks = s.doneCallbacks := by
  cases h with
  | buffer | textureData => simp [doneCallbacks, SceneEvent.callback?]
  | error i code text =>
    rcases postError_cases s i code text with h | ⟨e, h⟩ <;> rw [h] <;> rfl
  | unit u y hu hy hc =>
    simp only [doneCallbacks, registerUnit]
    split
    · rfl
    · rcases addRenderingUnit_cases s y.owner u with h | ⟨x, hx, h⟩
      · rw [h]
        rfl
      · rw [h]
  | mipmap t ht =>
    simp only [doneCallbacks, commitMipmap]
  | _ => rfl

theorem commitState_done (s : Scene) (v : ℕ) :
    (s.commitState v).doneCallbacks = s.doneCallbacks :=
  Path.const (f := doneCallbacks) (fun _ _ h => h.done) (commitState_commits_true s v)

theorem commitVirtualObject_frames {s : Scene} (hs : Tree s) (v i : ℕ) :
    (s.commitVirtualObject v).framesOf i =
      if i = v then ([], (s.framesOf v).1 ++ (s.framesOf v).2) else s.framesOf i :=
  (framesOf_of_content (syncIfSession_steps
    ((commitState_commits_true s v).tree hs).registered v).content i).trans
      (commitState_frames s v i)

theorem commitVirtualObject_done {s : Scene} (hs : Tree s) (v : ℕ) :
    (s.commitVirtualObject v).doneCallbacks = s.doneCallbacks :=
  (done_of_content (syncIfSession_steps
    ((commitState_commits_true s v).tree hs).registered v).content).trans (commitState_done s v)

theorem queueFrameCallback_frames {s : Scene} {v : ℕ} (hv : (s.virtualObjects v).isSome) (i : ℕ) :
    (s.queueFrameCallback v).framesOf i =
      if i = v then ((s.framesOf v).1 ++ [s.nextId], (s.framesOf v).2) else s.framesOf i := by
  obtain ⟨x, hx⟩ := Option.isSome_iff_exists.mp hv
  by_cases hi : i = v
  · subst hi
    simp [framesOf, queueFrameCallback, hx, VirtualObject.frames]
  · simp [framesOf, queueFrameCallback, hi]

theorem sessionFrame_frames (s : Scene) (i : ℕ) :
    s.sessionFrame.framesOf i = ((s.framesOf i).1, []) := by
  cases hx : s.virtualObjects i <;> simp [framesOf, sessionFrame, hx, VirtualObject.frames]

theorem dueCallbacks_eq (s : Scene) : s.dueCallbacks = fun i => (s.framesOf i).2 := by
  funext i
  cases hx : s.virtualObjects i <;> simp [framesOf, dueCallbacks, hx, VirtualObject.frames]

theorem sessionFrame_done (s : Scene) : s.sessionFrame.doneCallbacks =
    s.doneCallbacks ++ (List.range s.nextId).flatMap fun i => (s.framesOf i).2 := by
  have h : SceneEvent.callback? ∘ SceneEvent.callbackDone = some := rfl
  simp only [doneCallbacks, sessionFrame, List.filterMap_append, List.filterMap_map, h,
    List.filterMap_some, dueCallbacks_eq]

open Batch (Ledger Op)

/-- What the clients ask of the callbacks of a virtual object. Only a commit of its client commits
them. -/
def callbackOp (s : Scene) : Action → Option (Op ℕ)
  | .request client (.frame v) =>
    if s.admits client (.frame v) then some (.request v s.nextId) else none
  | .request client (.commit v) => if s.admits client (.commit v) then some (.commit v) else none
  | .destroy client r =>
    if s.resources r = some ⟨client, .virtualObject⟩ then some (.close r) else none
  | .frameTimer busyness =>
    if !s.remote.hasSession || busyness < busynessThreshold then some .tick else none
  | _ => none

/-- No callbacks are committed while others are waiting for the tick, and none by a drag. -/
def CommitsInTurn (s : Scene) : Action → Prop
  | .request client (.commit v) => s.admits client (.commit v) →
      (s.framesOf v).1 = [] ∨ (s.framesOf v).2 = []
  | .moveApp b _ _ => ∀ x, s.boundedApps b = some x → (s.framesOf x.virtualObject).1 = []
  | _ => True

/-- The callbacks are those of the ledger. -/
abbrev Recorded (s : Scene) (k : Ledger ℕ) : Prop :=
  Batch.Recorded s.framesOf s.doneCallbacks s.nextId k

theorem Recorded.same {s s' : Scene} {k : Ledger ℕ} (h : s.Recorded k)
    (hf : ∀ i, s'.framesOf i = s.framesOf i) (hd : s'.doneCallbacks = s.doneCallbacks)
    (hn : s.nextId ≤ s'.nextId) : s'.Recorded k := by
  have h1 := Batch.Recorded.mono h hf hn
  rwa [← hd] at h1

theorem framesOf_of_le {s : Scene} (hs : Tree s) {i : ℕ} (hi : s.nextId ≤ i) :
    s.framesOf i = ([], []) := by
  have h := (hs.fresh i hi).1
  simp only [forest, Arena.mapAll_apply, Option.map_eq_none_iff] at h
  simp [framesOf, h]

theorem step_recorded {s : Scene} (hs : Tree s) (hr : s.fault = none) {k : Ledger ℕ}
    (h : s.Recorded k) {a : Action} (hc : s.CommitsInTurn a) :
    (s.step a).Recorded (k.record (s.callbackOp a)) := by
  have hn := nextId_le_step hs a
  rw [step, if_neg (by simp [hr])] at hn ⊢
  cases a with
  | request client r =>
    simp only [act] at hn ⊢
    by_cases ha : s.admits client r
    · rw [if_pos ha] at hn ⊢
      by_cases hf : ∃ v, r = .frame v
      · obtain ⟨v, rfl⟩ := hf
        simp only [callbackOp, ha, if_true, Ledger.record, Option.elim_some]
        have hv : (s.virtualObjects v).isSome := hs.objects v client (by
          simp only [admits, Bool.and_eq_true, List.all_eq_true, decide_eq_true_eq] at ha
          exact ha.2 _ List.mem_cons_self)
        exact Batch.Recorded.request h (queueFrameCallback_frames hv)
      by_cases hm : ∃ v, r = .commit v
      · obtain ⟨v, rfl⟩ := hm
        simp only [callbackOp, ha, if_true, Ledger.record, Option.elim_some]
        refine ⟨?_, fun i c hi => (h.issued_lt i c hi).trans_le hn⟩
        have h1 := h.lists.commit (hc ha) (commitVirtualObject_frames hs v)
        rwa [← commitVirtualObject_done hs v] at h1
      · have hst := handle_still hs client (fun v h => hm ⟨v, h⟩) fun v h => hf ⟨v, h⟩
        have ho : s.callbackOp (.request client r) = none := by
          cases r <;> simp_all [callbackOp]
        rw [ho]
        exact h.same hst.frames hst.done hn
    · rw [if_neg ha]
      have ho : s.callbackOp (.request client r) = none := by
        cases r <;> simp [callbackOp, ha]
      rw [ho]
      exact h
  | destroy client r =>
    simp only [act, callbackOp] at hn ⊢
    split
    · next hx =>
      rw [if_pos hx] at hn
      rcases destroyResource_cases hs r with ⟨hi, hst⟩ | ⟨hi, hg⟩
      · rw [if_neg fun he => hi (by rw [he]; rfl)]
        exact h.same hst.frames hst.done hn
      · have he : s.resources r = some ⟨client, .virtualObject⟩ := by
          cases hres : s.resources r with
          | none => simp [hres] at hx
          | some x =>
            simp only [hres, Option.map_some, Option.some.injEq, Option.any_some,
              decide_eq_true_eq] at hi hx
            rw [← hi, ← hx]
        rw [if_pos he]
        refine ⟨?_, fun i c hi => (h.issued_lt i c hi).trans_le hn⟩
        have h1 := h.lists.close hg.frames
        rwa [← hg.done] at h1
    · next hx =>
      rw [if_neg fun he => hx (by simp [he])]
      exact h
  | peerDiscover connected =>
    have h1 := peerDiscover_content hs.registered connected
    exact h.same (framesOf_of_content h1) (done_of_content h1) hn
  | sessionDisconnect =>
    have h1 := sessionDisconnect_content s
    exact h.same (framesOf_of_content h1) (done_of_content h1) hn
  | frameTimer busyness =>
    simp only [act, frameTimer, callbackOp, Ledger.record] at hn ⊢
    split
    · refine ⟨?_, fun i c hi => h.issued_lt i c hi⟩
      rw [sessionFrame_done]
      exact h.lists.tick List.nodup_range (fun i hi => by
        rw [framesOf_of_le hs (by simpa using hi)]) s.sessionFrame_frames
    · exact h
  | moveApp b polar azimuthal =>
    simp only [act, moveApp] at hn ⊢
    split
    · exact h
    · next x hx =>
      rw [hx] at hn
      have ht := turnApp_still s b x polar azimuthal
      have hs' := hs.same (turnApp_same s b x polar azimuthal)
      refine h.same (fun i => ?_)
        ((commitVirtualObject_done hs' x.virtualObject).trans ht.done) hn
      rw [commitVirtualObject_frames hs', ht.frames, ht.frames]
      split
      · next hi =>
        subst hi
        have h1 := hc x hx
        rw [h1, List.nil_append]
        exact Prod.ext h1.symm rfl
      · rfl

end Scene
end Yaza
