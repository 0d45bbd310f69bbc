import Yaza.Zwin.Owned
import Yaza.Zwin.RequestSteps

/-! What the requests and destructions leave alone: the session and its proxies, and the frame
callbacks of the virtual objects. -/
namespace Yaza

/-- The callbacks that are requested, and those that are committed. -/
def VirtualObject.frames (x : VirtualObject) : List ℕ × List ℕ := (x.pendingFrames, x.currentFrames)

def SceneEvent.callback? : SceneEvent → Option ℕ
  | .callbackDone c => some c
  | _ => none

namespace Scene

/-- The frame callbacks of a virtual object; none when it is gone. -/
def framesOf (s : Scene) (v : ℕ) : List ℕ × List ℕ :=
  ((s.virtualObjects v).map VirtualObject.frames).getD ([], [])

/-- The callbacks that were sent `done`, in order. -/
def doneCallbacks (s : Scene) : List ℕ := s.events.filterMap SceneEvent.callback?

/-- A change that gives no proxy and makes no call. -/
structure Quiet (s s' : Scene) : Prop where
  remote : s'.remote = s.remote
  proxyOf : ∀ h p, s'.proxyOf h = some p → s.proxyOf h = some p
  fault : ∀ f, s'.fault = some f → s.fault = some f ∨ f = .useAfterFree ∨ f = .nullPointer

/-- A quiet change that leaves the frame callbacks alone. -/
structure Still (s s' : Scene) : Prop extends Quiet s s' where
  frames : ∀ v, s'.framesOf v = s.framesOf v
  done : s'.doneCallbacks = s.doneCallbacks

theorem Quiet.refl (s : Scene) : Quiet s s := ⟨rfl, fun _ _ h => h, fun _ h => .inl h⟩

theorem Quiet.trans {s s' s'' : Scene} (h : Quiet s s') (h' : Quiet s' s'') : Quiet s s'' where
  remote := h'.remote.trans h.remote
  proxyOf := fun x p hp => h.proxyOf x p (h'.proxyOf x p hp)
  fault := fun f hf => by
    rcases h'.fault f hf with h1 | h1
    · exact h.fault f h1
    · exact .inr h1

theorem Still.refl (s : Scene) : Still s s := ⟨.refl s, fun _ => rfl, rfl⟩

theorem Still.trans {s s' s'' : Scene} (h : Still s s') (h' : Still s' s'') : Still s s'' where
  toQuiet := h.toQuiet.trans h'.toQuiet
  frames := fun v => (h'.frames v).trans (h.frames v)
  done := h'.done.trans h.done

section Updates
variable (s : Scene)

theorem crash_still {f : Fault} (hf : f = .useAfterFree ∨ f = .nullPointer) :
    Still s (s.crash f) where
  remote := rfl
  proxyOf := fun x _ hp => by cases x <;> exact hp
  fault := by
    intro g hg
    cases hs : s.fault with
    | none =>
      simp only [crash, hs, Option.none_or, Option.some.injEq] at hg
      exact .inr (hg ▸ hf)
    | some e => exact .inl (by simpa [crash, hs] using hg)
  frames := fun _ => rfl
  done := rfl

/-- Proxies may be lost, and new objects have none. -/
theorem still_of_lost {s' : Scene} (hr : s'.remote = s.remote) (hf : s'.fault = s.fault)
    (hv : ∀ v, s'.framesOf v = s.framesOf v) (he : s'.doneCallbacks = s.doneCallbacks)
    (hp : ∀ h p, s'.proxyOf h = some p → s.proxyOf h = some p) : Still s s' :=
  ⟨⟨hr, hp, fun _ h => .inl (hf ▸ h)⟩, hv, he⟩

/-- Parts of the scene that hold no proxy may change. -/
theorem still_of_proxies {s' : Scene} (hr : s'.remote = s.remote) (hf : s'.fault = s.fault)
    (hv : ∀ v, s'.framesOf v = s.framesOf v) (he : s'.doneCallbacks = s.doneCallbacks)
    (hp : ∀ h, s'.proxyOf h = s.proxyOf h) : Still s s' :=
  still_of_lost s hr hf hv he fun h _ => hp h ▸ id

theorem postError_still (i : ℕ) (code : ErrorCode) (text : String) :
    Still s (s.postError i code text) := by
  rcases postError_cases s i code text with h | ⟨e, h⟩ <;> rw [h]
  · exact crash_still s (.inl rfl)
  · exact still_of_proxies s rfl rfl (fun _ => rfl) rfl fun x => by cases x <;> rfl

section Modify
variable (i : ℕ)

theorem modifyVirtualObject_quiet {f : VirtualObject → VirtualObject}
    (hf : ∀ x, (f x).proxy = x.proxy) :
    Quiet s { s with virtualObjects := s.virtualObjects.modify i f } where
  remote := rfl
  proxyOf := fun x p hp => by
    cases x with
    | virtualObject j => rwa [proxyOf, Arena.modify_bind_of_eq hf] at hp
    | _ => exact hp
  fault := fun _ h => .inl h

theorem modifyVirtualObject_still {f : VirtualObject → VirtualObject}
    (hf : ∀ x, (f x).proxy = x.proxy) (hg : ∀ x, (f x).frames = x.frames) :
    Still s { s with virtualObjects := s.virtualObjects.modify i f } where
  toQuiet := modifyVirtualObject_quiet s i hf
  frames := fun v => by
    have h := congrFun (Arena.mapAll_modify (h := s.virtualObjects) (i := i) hg) v
    simp only [Arena.mapAll_apply] at h
    rw [framesOf, framesOf, h]
  done := rfl

theorem modifyUnit_still {f : RenderingUnit → RenderingUnit} (hf : ∀ x, (f x).proxy = x.proxy) :
    Still s { s with renderingUnits := s.renderingUnits.modify i f } :=
  still_of_proxies s rfl rfl (fun _ => rfl) rfl fun x => by
    cases x <;> first | rfl | exact Arena.modify_bind_of_eq hf ..

theorem techniqueRequest_still (r : TechniqueRequest) : Still s (s.techniqueRequest i r) :=
  still_of_proxies s rfl rfl (fun _ => rfl) rfl fun x => by
    cases x <;> first
      | rfl
      | exact Arena.modify_bind_of_eq (f := fun z : GlBaseTechnique => z.request r)
          (fun _ => rfl) ..

theorem modifyProgram_still {f : GlProgram → GlProgram} (hf : ∀ x, (f x).proxy = x.proxy) :
    Still s { s with glPrograms := s.glPrograms.modify i f } :=
  still_of_proxies s rfl rfl (fun _ => rfl) rfl fun x => by
    cases x <;> first | rfl | exact Arena.modify_bind_of_eq hf ..

theorem modifyVertexArray_still {f : GlVertexArray → GlVertexArray}
    (hf : ∀ x, (f x).proxy = x.proxy) :
    Still s { s with glVertexArrays := s.glVertexArrays.modify i f } :=
  still_of_proxies s rfl rfl (fun _ => rfl) rfl fun x => by
    cases x <;> first | rfl | exact Arena.modify_bind_of_eq hf ..

theorem modifyBuffer_still {f : GlBuffer → GlBuffer} (hf : ∀ x, (f x).proxy = x.proxy) :
    Still s { s with glBuffers := s.glBuffers.modify i f } :=
  still_of_proxies s rfl rfl (fun _ => rfl) rfl fun x => by
    cases x <;> first | rfl | exact Arena.modify_bind_of_eq hf ..

theorem modifyTexture_still {f : GlTexture → GlTexture} (hf : ∀ x, (f x).proxy = x.proxy) :
    Still s { s with glTextures := s.glTextures.modify i f } :=
  still_of_proxies s rfl rfl (fun _ => rfl) rfl fun x => by
    cases x <;> first | rfl | exact Arena.modify_bind_of_eq hf ..

theorem modifySampler_still {f : GlSampler → GlSampler} (hf : ∀ x, (f x).proxy = x.proxy) :
    Still s { s with glSamplers := s.glSamplers.modify i f } :=
  still_of_proxies s rfl rfl (fun _ => rfl) rfl fun x => by
    cases x <;> first | rfl | exact Arena.modify_bind_of_eq hf ..

/-- A unit is stored again with another technique. -/
theorem setTechnique_still (t : Option ℕ) : Still s (s.setTechnique i t) := by
  unfold setTechnique
  split
  · exact crash_still s (.inl rfl)
  · next y hy =>
    split
    · exact postError_still ..
    · rw [Arena.set_eq_modify (g := fun y => { y with technique := t }) hy rfl]
      exact modifyUnit_still s i fun _ => rfl

end Modify

end Updates

theorem queueFrameCallback_quiet (s : Scene) (v : ℕ) : Quiet s (s.queueFrameCallback v) := by
  refine (modifyVirtualObject_quiet s v
    (f := fun x => { x with pendingFrames := x.pendingFrames ++ [s.nextId] }) fun _ => rfl).trans
    ⟨rfl, fun x p hp => ?_, fun _ h => .inl h⟩
  cases x <;> exact hp

theorem RequestStep.still {T : ℕ → Prop} {client : ℕ} {s s' : Scene}
    (h : RequestStep T client s s') : Still s s' := by
  cases h with
  | crash f hf => exact crash_still s hf
  | virtualObject hn =>
    refine still_of_lost s rfl rfl (fun v => ?_) rfl fun x p hp => ?_
    · by_cases hv : v = s.nextId
      · simp [framesOf, createVirtualObject, hv, hn, VirtualObject.frames]
      · simp [framesOf, createVirtualObject, hv]
    · cases x <;> first | exact hp | exact Arena.bind_of_set (g := VirtualObject.proxy) rfl hp
  | unit v hv =>
    refine .trans (modifyVirtualObject_still s v
      (f := fun x => { x with listeners := x.listeners ++ [.unit s.nextId] }) (fun _ => rfl)
      fun _ => rfl) (still_of_lost _ rfl rfl (fun _ => rfl) rfl fun x p hp => ?_)
    cases x <;> first | exact hp | exact Arena.bind_of_set (g := RenderingUnit.proxy) rfl hp
  | technique u hu =>
    refine .trans (modifyUnit_still s u
      (f := fun x => { x with listeners := x.listeners ++ [s.nextId] }) fun _ => rfl)
      (still_of_lost _ rfl rfl (fun _ => rfl) rfl fun x p hp => ?_)
    cases x <;> first | exact hp | exact Arena.bind_of_set (g := GlBaseTechnique.proxy) rfl hp
  | bounded v hv =>
    exact (modifyVirtualObject_still s v
      (f := fun x => { x with listeners := x.listeners ++ [.app s.nextId] }) (fun _ => rfl)
      fun _ => rfl).trans
        (still_of_proxies _ rfl rfl (fun _ => rfl) rfl fun x => by cases x <;> rfl)
  | program =>
    refine still_of_lost s rfl rfl (fun _ => rfl) rfl fun x p hp => ?_
    cases x <;> first | exact hp | exact Arena.bind_of_set (g := GlProgram.proxy) rfl hp
  | shader b type hb =>
    refine still_of_lost s rfl rfl (fun _ => rfl) rfl fun x p hp => ?_
    cases x <;> first | exact hp | exact Arena.bind_of_set (g := GlShader.proxy) rfl hp
  | vertexArray =>
    refine still_of_lost s rfl rfl (fun _ => rfl) rfl fun x p hp => ?_
    cases x <;> first | exact hp | exact Arena.bind_of_set (g := GlVertexArray.proxy) rfl hp
  | buffer g =>
    refine still_of_lost s rfl rfl (fun _ => rfl) rfl fun x p hp => ?_
    cases x <;> first | exact hp | exact Arena.bind_of_set (g := GlBuffer.proxy) rfl hp
  | texture g =>
    refine still_of_lost s rfl rfl (fun _ => rfl) rfl fun x p hp => ?_
    cases x <;> first | exact hp | exact Arena.bind_of_set (g := GlTexture.proxy) rfl hp
  | sampler =>
    refine still_of_lost s rfl rfl (fun _ => rfl) rfl fun x p hp => ?_
    cases x <;> first | exact hp | exact Arena.bind_of_set (g := GlSampler.proxy) rfl hp
  | configure b bytes hb =>
    exact still_of_lost s rfl rfl (fun _ => rfl)
      (by simp [doneCallbacks, SceneEvent.callback?]) fun x _ hp => by cases x <;> exact hp
  | app v b hv hb => exact modifyVirtualObject_still s v (fun _ => rfl) fun _ => rfl
  | ask t r ht hr => exact techniqueRequest_still s t r
  | data b target usage d hb => exact modifyBuffer_still s b fun _ => rfl
  | image t i d ht => exact modifyTexture_still s t fun _ => rfl
  | mipmap t target ht => exact modifyTexture_still s t fun _ => rfl
  | parameter p pname v hp => exact modifySampler_still s p fun _ => rfl
  | attach p h hp hh => exact modifyProgram_still s p fun _ => rfl
  | link p hp => exact modifyProgram_still s p fun _ => rfl
  | attrib va index f hva hf => exact modifyVertexArray_still s va fun _ => rfl
  | _ => exact still_of_proxies s rfl rfl (fun _ => rfl) rfl fun x => by cases x <;> rfl

/-- A request that is no commit and asks for no frame leaves proxies and callbacks alone. -/
theorem handle_still {s : Scene} (hs : Tree s) (client : ℕ) {r : Request}
    (hr : ∀ v, r ≠ .commit v) (hfr : ∀ v, r ≠ .frame v) : Still s (s.handle client r) := by
  have hn : s.virtualObjects s.nextId = none := by
    simpa [forest] using (hs.fresh s.nextId (Nat.le_refl _)).1
  have hsteps : RequestSteps (fun _ => True) client s (s.handle client r) :=
    handle_steps (fun _ _ => trivial) (fun _ _ _ => trivial) hn hr hfr
  exact Path.preserves (P := Still s) (fun _ _ h ih => ih.trans h.still) hsteps (.refl s)

theorem deleteTechnique_still (s : Scene) (t : ℕ) : Still s (s.deleteTechnique t) := by
  unfold deleteTechnique
  split
  · exact crash_still s (.inl rfl)
  · next z _ =>
    refine (setTechnique_still s z.owner none).trans (.trans (modifyUnit_still _ z.owner
      (f := fun x => { x with listeners := x.listeners.filter (· ≠ t) }) fun _ => rfl)
      (still_of_lost _ rfl rfl (fun _ => rfl) rfl fun x p hp => ?_))
    cases x <;> first | exact hp | exact Arena.bind_of_erase hp

theorem removeRenderingUnit_still (s : Scene) (v u : ℕ) : Still s (s.removeRenderingUnit v u) := by
  unfold removeRenderingUnit
  split
  · exact crash_still s (.inl rfl)
  · next x hx =>
    split
    · exact .refl s
    · rw [Arena.set_eq_modify (g := fun x =>
        { x with renderingUnitList := x.renderingUnitList.filter (· ≠ u) }) hx rfl]
      exact modifyVirtualObject_still s v (fun _ => rfl) fun _ => rfl

theorem deleteRenderingUnit_still (s : Scene) (u : ℕ) : Still s (s.deleteRenderingUnit u) := by
  unfold deleteRenderingUnit
  split
  · exact crash_still s (.inl rfl)
  · next y _ =>
    have h1 : Still s ((s.removeRenderingUnit y.owner u).deleteTechnique? y.technique) := by
      refine (removeRenderingUnit_still s y.owner u).trans ?_
      cases y.technique with
      | none => exact .refl _
      | some t => exact deleteTechnique_still _ t
    refine h1.trans (.trans (modifyVirtualObject_still _ y.owner
      (f := fun x => { x with listeners := x.listeners.filter (· ≠ .unit u) }) (fun _ => rfl)
      fun _ => rfl) (still_of_lost _ rfl rfl (fun _ => rfl) rfl fun x p hp => ?_))
    cases x <;> first | exact hp | exact Arena.bind_of_erase hp

theorem deleteUnits_still (s : Scene) (l : List ℕ) : Still s (l.foldl deleteRenderingUnit s) := by
  induction l generalizing s with
  | nil => exact .refl s
  | cons u l ih => exact (deleteRenderingUnit_still s u).trans (ih _)

theorem deleteBoundedApp_still (s : Scene) (b : ℕ) : Still s (s.deleteBoundedApp b) := by
  unfold deleteBoundedApp
  split
  · exact crash_still s (.inl rfl)
  · next x _ =>
    exact (modifyVirtualObject_still s x.virtualObject
      (f := fun v => { v with listeners := v.listeners.filter (· ≠ .app b) }) (fun _ => rfl)
      fun _ => rfl).trans
        (still_of_proxies _ rfl rfl (fun _ => rfl) rfl fun x => by cases x <;> rfl)

/-- All of `~VirtualObject` but the end of the object itself. -/
theorem deleteParts_still (s : Scene) (v : ℕ) (x : VirtualObject) :
    Still s ((x.renderingUnitList.foldl deleteRenderingUnit
      (s.markDestroying v)).deleteBoundedApp? x.app) := by
  have h1 := (modifyVirtualObject_still s v
    (f := fun x => { x with destroying := true }) (fun _ => rfl) fun _ => rfl).trans
    (deleteUnits_still (s.markDestroying v) x.renderingUnitList)
  refine h1.trans ?_
  cases x.app with
  | none => exact .refl _
  | some b => exact deleteBoundedApp_still _ b

/-- The virtual object that goes takes its callbacks along. -/
structure Gone (v : ℕ) (s s' : Scene) : Prop extends Quiet s s' where
  frames : ∀ j, s'.framesOf j = if j = v then ([], []) else s.framesOf j
  done : s'.doneCallbacks = s.doneCallbacks

theorem deleteVirtualObject_gone {s : Scene} {v : ℕ} (hv : (s.virtualObjects v).isSome) :
    Gone v s (s.deleteVirtualObject v) := by
  obtain ⟨x, hx⟩ := Option.isSome_iff_exists.mp hv
  have h1 := deleteParts_still s v x
  rw [deleteVirtualObject, hx]
  refine ⟨h1.toQuiet.trans ⟨rfl, fun y p hp => ?_, fun _ h => .inl h⟩, fun j => ?_, h1.done⟩
  · cases y <;> first | exact hp | exact Arena.bind_of_erase hp
  · by_cases hj : j = v
    · simp [framesOf, dropVirtualObject, hj]
    · rw [if_neg hj, ← h1.frames j]
      simp [framesOf, dropVirtualObject, hj]

theorem deleteObject_still (s : Scene) (r : ℕ) {i : Interface} (hi : i ≠ .virtualObject) :
    Still s (s.deleteObject r i) := by
  cases i with
  | virtualObject => exact absurd rfl hi
  | bounded =>
    simp only [deleteObject]
    split
    · exact deleteBoundedApp_still s r
    · exact .refl s
  | renderingUnit =>
    simp only [deleteObject]
    split
    · exact deleteRenderingUnit_still s r
    · exact .refl s
  | baseTechnique =>
    simp only [deleteObject]
    split
    · exact deleteTechnique_still s r
    · exact .refl s
  | _ =>
    refine still_of_lost s rfl rfl (fun _ => rfl) rfl fun x p hp => ?_
    cases x <;> first | exact hp | exact Arena.bind_of_erase hp

theorem setResources_still (s : Scene) (k : Arena Resource) : Still s { s with resources := k } :=
  still_of_proxies s rfl rfl (fun _ => rfl) rfl fun x => by cases x <;> rfl

/-- A destruction leaves the callbacks of all other virtual objects alone. -/
theorem destroyResource_cases {s : Scene} (hs : Tree s) (r : ℕ) :
    (s.resources r).map Resource.interface ≠ some .virtualObject ∧ Still s (s.destroyResource r) ∨
      (s.resources r).map Resource.interface = some .virtualObject ∧
        Gone r s (s.destroyResource r) := by
  unfold destroyResource
  split
  · next hn => exact .inl ⟨by simp [hn], .refl s⟩
  · next x hx =>
    by_cases hi : x.interface = .virtualObject
    · refine .inr ⟨by rw [hx, Option.map_some, hi], ?_⟩
      have hv : (s.virtualObjects r).isSome := hs.objects r x.client (hi ▸ hx)
      have h1 := deleteVirtualObject_gone hv
      have h2 := setResources_still (s.deleteObject r x.interface) (s.resources.erase r)
      rw [hi] at h2 ⊢
      exact ⟨h1.toQuiet.trans h2.toQuiet, fun j => (h2.frames j).trans (h1.frames j),
        h2.done.trans h1.done⟩
    · exact .inl ⟨by simpa [hx] using hi,
        (deleteObject_still s r hi).trans (setResources_still _ _)⟩

theorem turnApp_still (s : Scene) (b : ℕ) (x : BoundedApp) (polar azimuthal : ℚ) :
    Still s (s.turnApp b x polar azimuthal) :=
  still_of_lost s rfl rfl (fun _ => rfl) rfl fun y _ hp => by cases y <;> exact hp

theorem Commits.quiet {T : ℕ → Prop} {s s' : Scene} (h : Commits T s s') : Quiet s s' where
  remote := remote_of_skeleton h.skeleton
  proxyOf := fun x p hp => by rwa [proxyOf_of_skeleton h.skeleton] at hp
  fault := fun f hf => (h.fault hf).imp_right .inl

theorem commitState_quiet (s : Scene) (v : ℕ) : Quiet s (s.commitState v) :=
  (commitState_commits_true s v).quiet

theorem sessionFrame_quiet (s : Scene) : Quiet s s.sessionFrame where
  remote := rfl
  proxyOf := fun x p hp => by
    cases x <;> try exact hp
    simp only [proxyOf, sessionFrame, Arena.mapAll_apply, Option.bind_map] at hp
    exact hp
  fault := fun _ h => .inl h

end Scene
end Yaza
