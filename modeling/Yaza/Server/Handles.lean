import Yaza.Server.Contents
import Yaza.Server.Reach
import Yaza.Zwin.Leaves
import Yaza.Zwin.Memory

/-! The handles of client buffers that are kept for a later commit or sync, and the sources of the
shaders: what is read is alive, and every session is sent the same source. -/
namespace Yaza
namespace World

/-- Every handle that is kept names a buffer that is alive, and what a commit of a `GlBuffer` or a
`GlTexture` reads, whose handles are weak, is alive then. -/
structure HandlesLive (w : World) : Prop where
  surface : ∀ i x b, w.surfaces i = some x → x.pendingBuffer = some b → (w.wlBuffers b).isSome
  buffer : ∀ i x, w.scene.glBuffers i = some x →
    w.scene.commitBuffer i = w.scene ∨ ∃ b shm, x.pending.data = some b ∧
      w.scene.shmBuffers b = some shm ∧
        (w.scene.commitBuffer i).glBuffers i = some (x.commit shm.data)
  texture : ∀ i x, w.scene.glTextures i = some x →
    w.scene.commitTextureData i = w.scene ∨ ∃ b shm, x.pending.data = some b ∧
      w.scene.shmBuffers b = some shm ∧
        (w.scene.commitTextureData i).glTextures i = some (x.commitData shm.data)
  shader : ∀ h x, w.scene.glShaders h = some x → (w.scene.shmBuffers x.buffer).isSome

/-- A session of the run was sent this source for the shader. -/
def SentTo (as : List Action) (h : ℕ) (source : Bytes) : Prop :=
  ∃ pre, pre <+: as ∧ (run pre).scene.MadeFrom h source

def Sent (as : List Action) (h : ℕ) : Prop := ∃ source, SentTo as h source

/-- No buffer is destroyed while it is pending on a surface or a shader reads it. -/
def KeepsLive (w : World) (a : Action) : Prop :=
  w.stopped = false →
    match a with
    | .destroy client b => w.resources b = some ⟨client, .wlBuffer⟩ →
        ∀ i x, w.surfaces i = some x → x.pendingBuffer ≠ some b
    | .destroyZwin client b => w.scene.resources b = some ⟨client, .shmBuffer⟩ →
        ∀ h x, w.scene.glShaders h = some x → x.buffer ≠ b
    | _ => True

/-- No buffer is written with something else once the source of a shader was sent from it. -/
def KeepsText (as : List Action) (a : Action) : Prop :=
  (run as).stopped = false →
    match a with
    | .zwin client (.writeBuffer b data) =>
        (run as).scene.admits client (.writeBuffer b data) = true →
          ∀ h x shm, (run as).scene.glShaders h = some x → x.buffer = b → Sent as h →
            (run as).scene.shmBuffers b = some shm → data.length = shm.data.length →
              data = shm.data
    | _ => True

/-- The buffers that are pending on surfaces are alive. -/
def PendingLive (w : World) : Prop :=
  ∀ i x b, w.surfaces i = some x → x.pendingBuffer = some b → (w.wlBuffers b).isSome

section Steps
variable {w w' : World}

theorem PendingLive.keep (h : w.PendingLive)
    (hs : ∀ i x b, w'.surfaces i = some x → x.pendingBuffer = some b →
      ∃ y, w.surfaces i = some y ∧ y.pendingBuffer = some b)
    (hb : ∀ b, (w.wlBuffers b).isSome → (w'.wlBuffers b).isSome) : w'.PendingLive := by
  intro i x b hx hp
  obtain ⟨y, hy, hyp⟩ := hs i x b hx hp
  exact hb b (h i y b hy hyp)

theorem PendingLive.same (h : w.PendingLive)
    (hs : w'.surfaces.mapAll Surface.front = w.surfaces.mapAll Surface.front)
    (hb : w'.wlBuffers = w.wlBuffers) : w'.PendingLive := by
  refine h.keep (fun i x b hx hp => ?_) fun b hl => hb ▸ hl
  obtain ⟨y, hy, hyx⟩ := Arena.of_mapAll hs hx
  exact ⟨y, hy, (congrArg Prod.snd hyx).trans hp⟩

theorem Change.pendingLive {k : Bool} (h : Change k w w') (hw : w.PendingLive) :
    w'.PendingLive := by
  cases h with
  | other hd =>
    simp only [desk, Prod.mk.injEq] at hd
    exact hw.same (front_of_core hd.1) hd.2.2.2.2.1
  | focus _ hd =>
    simp only [desk, Prod.mk.injEq] at hd
    exact hw.same (front_of_core hd.1) hd.2.2.2.2.1
  | expire => exact hw
  | raise i =>
    obtain ⟨l, S, h1, h2⟩ := raiseSurfaceTop_eq w i
    rw [h1]
    exact hw.same (front_of_shape h2) rfl
  | offer d s =>
    rcases createOffer_cases w d s with h1 | ⟨r, x, -, -, h1⟩
    · rw [h1]
      exact hw
    · rw [h1]
      exact hw
  | cursor i => exact hw.same (Arena.mapAll_modify fun _ => rfl) rfl

theorem createSurface_pendingLive (hw : w.PendingLive) (client : ℕ) (texSize : ℕ × ℕ) :
    (w.createSurface client texSize).PendingLive := by
  obtain ⟨l, S, h1, h2⟩ := w.createSurface_eq client texSize
  rw [h1]
  refine hw.keep (fun i x b hx hp => ?_) fun _ h => h
  have hi := congrFun h2 i
  have hxi : S i = some x := hx
  rw [Arena.mapAll_apply, hxi] at hi
  by_cases hin : i = w.nextId
  · simp [hin, Surface.shape, hp] at hi
  · rw [Arena.set_of_ne _ _ hin] at hi
    obtain ⟨y, hy, hyx⟩ : ∃ y, w.surfaces i = some y ∧ y.shape = x.shape := by simpa using hi.symm
    simp only [Surface.shape, Prod.mk.injEq] at hyx
    exact ⟨y, hy, hyx.1.trans hp⟩

/-- A commit takes the pending buffer, or leaves it. -/
theorem commitSurface_pendingLive (hw : w.PendingLive) (i : ℕ) :
    (w.commitSurface i).PendingLive := by
  have hb := (w.commitSurface_rest i).2.2.2.2.2.2.2.2.1
  cases hx : w.surfaces i with
  | none =>
    unfold commitSurface
    rw [hx]
    exact hw
  | some x =>
    refine hw.keep (fun j y b hy hp => ?_) fun b hl => hb ▸ hl
    have hj := congrFun (commitSurface_front hx).1 j
    rw [Arena.mapAll_apply, hy] at hj
    by_cases hji : j = i
    · subst hji
      have hf : y.front = w.commitFront x := by simpa using hj
      have h2 : (w.commitFront x).2 = some b := (congrArg Prod.snd hf).symm.trans hp
      refine ⟨x, hx, ?_⟩
      unfold commitFront at h2
      split at h2
      · exact h2
      · cases h2
    · rw [Arena.set_of_ne _ _ hji] at hj
      obtain ⟨z, hz, hzy⟩ : ∃ z, w.surfaces j = some z ∧ z.front = y.front := by
        simpa using hj.symm
      exact ⟨z, hz, (congrArg Prod.snd hzy).trans hp⟩

theorem attach_pendingLive (ht : w.Typed) (hw : w.PendingLive) {client s : ℕ} {b : Option ℕ}
    {d : ℤ × ℤ} (ha : w.admits client (.attach s b d) = true) :
    (w.handle client (.attach s b d)).PendingLive := by
  intro i x c hx hp
  simp only [handle, modifySurface] at hx ⊢
  by_cases his : i = s
  · subst his
    cases hy : w.surfaces i with
    | none => simp [hy] at hx
    | some y =>
      rw [Arena.modify_self, hy] at hx
      cases hx
      have hbc : b = some c := hp
      subst hbc
      have hc := admits_object ha (i := c) (k := .wlBuffer) (by simp [DeskRequest.objects])
      exact ht.object c client .wlBuffer hc rfl
  · rw [Arena.modify_of_ne _ _ his] at hx
    exact hw i x c hx hp

theorem direct_pendingLive (ht : w.Typed) (hw : w.PendingLive) {client : ℕ} {r : DeskRequest}
    (ha : w.admits client r = true) : (w.direct client r).PendingLive := by
  cases r with
  | attach s b d => exact attach_pendingLive ht hw ha
  | commit s => exact commitSurface_pendingLive hw s
  | createSurface texSize => exact createSurface_pendingLive hw client texSize
  | createWlBuffer b =>
    refine hw.keep (fun i x c hx hp => ⟨x, hx, hp⟩) fun c hc => ?_
    simp only [direct, handle]
    rw [Arena.set_apply]
    split
    · rfl
    · exact hc
  | getToplevel x =>
    simp only [direct, handle, createToplevel]
    split
    · exact hw
    · exact hw.same (Arena.mapAll_modify fun _ => rfl) rfl
  | setSelection d source => cases source <;> exact hw
  | getXdgSurface s => exact hw
  | createDataSource => exact hw
  | getDataDevice => exact hw
  | _ => exact hw

theorem destroyResource_pendingLive (hw : w.PendingLive) {b : ℕ}
    (hc : ∀ c, w.resources b = some ⟨c, .wlBuffer⟩ →
      ∀ i x, w.surfaces i = some x → x.pendingBuffer ≠ some b) :
    (w.destroyResource b).PendingLive := by
  unfold destroyResource
  split
  · exact hw
  · next r hr =>
    obtain ⟨c, f⟩ := r
    cases f with
    | wlBuffer =>
      intro i x j hx hp
      have hne : j ≠ b := fun h => hc c hr i x hx (h ▸ hp)
      simp only [deleteObject]
      rw [Arena.erase_of_ne _ hne]
      exact hw i x j hx hp
    | surface =>
      refine hw.keep (fun i x j hx hp => ?_) fun _ h => h
      simp only [deleteObject] at hx
      rw [Arena.erase_apply] at hx
      split at hx
      · cases hx
      · exact ⟨x, hx, hp⟩
    | _ => exact hw

theorem step_pendingLive (ht : w.Typed) (hw : w.PendingLive) {a : Action}
    (hc : KeepsLive w a) : (w.step a).PendingLive := by
  cases hs : w.stopped with
  | true =>
    rw [step_of_stopped hs]
    exact hw
  | false =>
    refine step_keeps (fun _ _ hc hw => hc.pendingLive hw) ?_ hw
    have hc := hc hs
    cases a with
    | desk client r =>
      simp only [directly]
      split
      · next ha => exact direct_pendingLive ht hw ha
      · exact hw
    | destroy client b =>
      simp only [directly]
      split
      · next hcl =>
        refine destroyResource_pendingLive hw fun c hr => hc ?_
        obtain rfl : c = client := by simpa [hr] using hcl
        exact hr
      · exact hw
    | _ => exact hw

end Steps

section Sources
variable {w : World}

theorem step_scene (w : World) (a : Action) : (w.step a).scene = w.scene ∨
    w.stopped = false ∧ ∃ b, w.sceneAction a = some b ∧ (w.step a).scene = w.scene.step b := by
  unfold step
  cases hs : w.stopped with
  | true => exact .inl rfl
  | false =>
    have h1 := w.act_scene a
    cases ha : w.sceneAction a with
    | none =>
      rw [ha] at h1
      exact .inl h1
    | some b =>
      rw [ha] at h1
      exact .inr ⟨rfl, b, rfl, h1⟩

/-- The requests and the destructions reach the scene as they are. -/
theorem sceneAction_request {a : Action} {client : ℕ} {r : Scene.Request}
    (h : w.sceneAction a = some (.request client r)) : a = .zwin client r := by
  cases a with
  | zwin c q =>
    simp only [sceneAction, Option.some.injEq, Scene.Action.request.injEq] at h
    rw [h.1, h.2]
  | mouseMove polar azimuthal hits =>
    simp only [sceneAction] at h
    split at h <;> cases h
  | peerDiscover | sessionDisconnect | frameTimer =>
    simp only [sceneAction] at h
    split at h <;> cases h
  | _ => cases h

theorem sceneAction_destroy {a : Action} {client r : ℕ}
    (h : w.sceneAction a = some (.destroy client r)) : a = .destroyZwin client r := by
  cases a with
  | destroyZwin c q =>
    simp only [sceneAction, Option.some.injEq, Scene.Action.destroy.injEq] at h
    rw [h.1, h.2]
  | mouseMove polar azimuthal hits =>
    simp only [sceneAction] at h
    split at h <;> cases h
  | peerDiscover | sessionDisconnect | frameTimer =>
    simp only [sceneAction] at h
    split at h <;> cases h
  | _ => cases h

theorem keepsSources_of {a : Action} {b : Scene.Action} {Q : ℕ → Prop} (hs : w.stopped = false)
    (hb : w.sceneAction a = some b) (hl : KeepsLive w a)
    (ht : ∀ client i data, a = .zwin client (.writeBuffer i data) →
      w.scene.KeepsSources Q (.request client (.writeBuffer i data))) :
    w.scene.KeepsSources Q b := by
  cases b with
  | request client r =>
    obtain rfl := sceneAction_request hb
    cases r with
    | writeBuffer i data => exact ht client i data rfl
    | _ => trivial
  | destroy client i =>
    obtain rfl := sceneAction_destroy hb
    exact hl hs
  | _ => trivial

/-- The scene of a run in which no buffer is destroyed too early. -/
theorem step_sourced (h : w.scene.Sound) (hs : w.scene.Sourced) {a : Action}
    (hl : KeepsLive w a) : (w.step a).scene.Sound ∧ (w.step a).scene.Sourced := by
  rcases w.step_scene a with h1 | ⟨hw, b, hb, h1⟩
  · rw [h1]
    exact ⟨h, hs⟩
  · rw [h1]
    have hc : w.scene.KeepsSources (fun _ => False) b :=
      keepsSources_of hw hb hl fun _ _ _ _ _ _ _ _ _ _ hf => hf.elim
    obtain ⟨h2, h3, -⟩ := Scene.step_sound h hs hc
    exact ⟨h2, h3.sourced⟩

/-- A shader reads what was sent for it, as long as it lives. -/
structure Told (as : List Action) : Prop where
  sound : (run as).scene.Sound
  sourced : (run as).scene.Sourced
  issued : ∀ h source, SentTo as h source → h < (run as).scene.nextId
  reads : ∀ h source, SentTo as h source → ((run as).scene.glShaders h).isSome →
    (run as).scene.sourceOf (.shader h) = some source
  same : ∀ h source source', SentTo as h source → SentTo as h source' → source = source'

theorem sentTo_concat {as : List Action} {a : Action} {h : ℕ} {source : Bytes} :
    SentTo (as ++ [a]) h source ↔
      SentTo as h source ∨ ((run as).step a).scene.MadeFrom h source := by
  constructor
  · rintro ⟨pre, hp, hm⟩
    rcases List.prefix_concat_iff.mp hp with rfl | hp
    · rw [run_concat] at hm
      exact .inr hm
    · exact .inl ⟨pre, hp, hm⟩
  · rintro (⟨pre, hp, hm⟩ | hm)
    · exact ⟨pre, hp.trans (List.prefix_append _ _), hm⟩
    · exact ⟨as ++ [a], List.prefix_rfl, by rwa [run_concat]⟩

theorem sentTo_of_made {as : List Action} {h : ℕ} {source : Bytes}
    (hm : (run as).scene.MadeFrom h source) : SentTo as h source := ⟨as, List.prefix_rfl, hm⟩

theorem shader_of_made {s : Scene} {h : ℕ} {source : Bytes} (hm : s.MadeFrom h source) :
    (s.glShaders h).isSome := by
  obtain ⟨p, hp, -⟩ := hm
  cases hx : s.glShaders h with
  | none => simp [Scene.proxyOf, hx] at hp
  | some x => rfl

theorem shader_of_source {s : Scene} {h : ℕ} {source : Bytes}
    (hs : s.sourceOf (.shader h) = some source) : (s.glShaders h).isSome := by
  cases hx : s.glShaders h with
  | none => simp [Scene.sourceOf, hx] at hs
  | some x => rfl

theorem source_of_shader {s : Scene} (hs : s.Sourced) {h : ℕ} (hh : (s.glShaders h).isSome) :
    ∃ source, s.sourceOf (.shader h) = some source := by
  obtain ⟨x, hx⟩ := Option.isSome_iff_exists.mp hh
  obtain ⟨shm, hm⟩ := Option.isSome_iff_exists.mp (hs.shaders h x hx)
  exact ⟨shm.data, by simp [Scene.sourceOf, hx, hm]⟩

theorem init_told : Told [] where
  sound := Scene.init_sound
  sourced := Scene.init_sourced
  issued := fun h source ⟨pre, hp, hm⟩ => by
    obtain rfl := List.prefix_nil.mp hp
    cases shader_of_made hm
  reads := fun h source _ hh => by cases hh
  same := fun h source source' ⟨pre, hp, hm⟩ => by
    obtain rfl := List.prefix_nil.mp hp
    cases shader_of_made hm

theorem Told.same_scene {as : List Action} (h : Told as) {a : Action}
    (hs : ((run as).step a).scene = (run as).scene) : Told (as ++ [a]) := by
  have hsent {i : ℕ} {source : Bytes} (hm : SentTo (as ++ [a]) i source) : SentTo as i source := by
    rcases sentTo_concat.mp hm with hm | hm
    · exact hm
    · exact sentTo_of_made (hs ▸ hm)
  have hrun : (run (as ++ [a])).scene = (run as).scene := by rw [run_concat, hs]
  exact
    { sound := hrun ▸ h.sound
      sourced := hrun ▸ h.sourced
      issued := fun i source hm => hrun ▸ h.issued i source (hsent hm)
      reads := fun i source hm => by
        rw [hrun]
        exact h.reads i source (hsent hm)
      same := fun i source source' hm hm' => h.same i source source' (hsent hm) (hsent hm') }

theorem Told.step {as : List Action} (h : Told as) {a : Action} (hl : KeepsLive (run as) a)
    (ht : KeepsText as a) : Told (as ++ [a]) := by
  rcases (run as).step_scene a with h1 | ⟨hw, b, hb, h1⟩
  · exact h.same_scene h1
  have hc : (run as).scene.KeepsSources (Sent as) b := by
    refine keepsSources_of hw hb hl fun client i data ha => ?_
    subst ha
    exact ht hw
  obtain ⟨h2, h3, h4⟩ := Scene.step_sound h.sound h.sourced hc
  rw [← h1] at h2 h3 h4
  have hold {i : ℕ} {source : Bytes} (hm : SentTo as i source)
      (hi : (((run as).step a).scene.glShaders i).isSome) :
      ((run as).step a).scene.sourceOf (.shader i) = some source := by
    have h5 := h3.same i hi ⟨source, hm⟩ (h.issued i source hm)
    obtain ⟨source', h6⟩ := source_of_shader h3.sourced hi
    rw [h5]
    exact h.reads i source hm (shader_of_source (h5 ▸ h6))
  have hreads {i : ℕ} {source : Bytes} (hm : SentTo (as ++ [a]) i source)
      (hi : (((run as).step a).scene.glShaders i).isSome) :
      ((run as).step a).scene.sourceOf (.shader i) = some source := by
    rcases sentTo_concat.mp hm with hm | hm
    · exact hold hm hi
    · rcases h4.made i source hm with h5 | h5
      · exact hold (sentTo_of_made h5) hi
      · exact h5
  have hgone {i : ℕ} {source : Bytes} (hm : SentTo (as ++ [a]) i source)
      (hi : ¬ (((run as).step a).scene.glShaders i).isSome) : SentTo as i source :=
    (sentTo_concat.mp hm).resolve_right fun h5 => hi (shader_of_made h5)
  have hrun : (run (as ++ [a])).scene = ((run as).step a).scene := by rw [run_concat]
  refine ⟨hrun ▸ h2, hrun ▸ h3.sourced, fun i source hm => ?_, fun i source hm hi => ?_,
    fun i source source' hm hm' => ?_⟩
  · rw [hrun]
    rcases sentTo_concat.mp hm with hm | hm
    · exact Nat.lt_of_lt_of_le (h.issued i source hm) h3.nextId
    · exact h3.sourced.issued i (shader_of_made hm)
  · rw [hrun] at hi ⊢
    exact hreads hm hi
  · by_cases hi : (((run as).step a).scene.glShaders i).isSome
    · exact Option.some.inj ((hreads hm hi).symm.trans (hreads hm' hi))
    · exact h.same i source source' (hgone hm hi) (hgone hm' hi)

end Sources

/-- The weak handles need nothing: a commit locks them before it reads. -/
theorem handlesLive_of_strong {w : World} (hp : w.PendingLive)
    (hs : ∀ h x, w.scene.glShaders h = some x → (w.scene.shmBuffers x.buffer).isSome) :
    w.HandlesLive where
  surface := hp
  buffer := fun i x hx => by
    rcases Scene.commitBuffer_cases hx with ⟨hs, -⟩ | ⟨b, shm, hb, hm, hs⟩
    · exact .inl hs
    · exact .inr ⟨b, shm, hb, hm, by simp [hs]⟩
  texture := fun i x hx => by
    rcases Scene.commitTextureData_cases hx with ⟨hs, -⟩ | ⟨b, shm, hb, hm, hs⟩
    · exact .inl hs
    · exact .inr ⟨b, shm, hb, hm, by simp [hs]⟩
  shader := hs

/-- What is kept alive. -/
structure KeptLive (w : World) : Prop where
  typed : w.Typed
  pending : w.PendingLive
  sound : w.scene.Sound
  sourced : w.scene.Sourced

theorem KeptLive.handles {w : World} (h : w.KeptLive) : w.HandlesLive :=
  handlesLive_of_strong h.pending h.sourced.shaders

theorem init_keptLive : KeptLive init where
  typed := init_typed
  pending := fun i x b hx => by cases hx
  sound := Scene.init_sound
  sourced := Scene.init_sourced

theorem step_keptLive {w : World} {a : Action} (h : w.KeptLive) (hc : KeepsLive w a) :
    (w.step a).KeptLive := by
  obtain ⟨h1, h2⟩ := step_sourced h.sound h.sourced hc
  exact ⟨step_typed h.typed a, step_pendingLive h.typed h.pending hc, h1, h2⟩

/-- A buffer that is destroyed too early leaves a handle behind. -/
theorem keepsLive_of_handles {w : World} {a : Action} (h : (w.step a).HandlesLive) :
    KeepsLive w a := by
  intro hs
  cases a with
  | destroy client b =>
    intro hb i x hx hp
    have h1 : w.step (.destroy client b) =
        { w with wlBuffers := w.wlBuffers.erase b, resources := w.resources.erase b } := by
      simp [step, hs, act, destroyResource, hb, deleteObject]
    rw [h1] at h
    have h2 := h.surface i x b hx hp
    simp at h2
  | destroyZwin client b =>
    intro hb i x hx hxb
    have hf : w.scene.fault = none := by
      simp only [stopped, Bool.or_eq_false_iff, Option.isSome_eq_false_iff,
        Option.isNone_iff_eq_none] at hs
      exact hs.2
    have h1 : (w.step (.destroyZwin client b)).scene =
        { w.scene with
          shmBuffers := w.scene.shmBuffers.erase b
          resources := w.scene.resources.erase b } := by
      simp [step, hs, act, Scene.step, hf, Scene.act, Scene.destroyResource, hb,
        Scene.deleteObject]
    have h2 := h.shader i x
    rw [h1] at h2
    have h3 := h2 hx
    simp [hxb] at h3
  | _ => trivial

theorem run_told {as : List Action} (hl : Run.Each step KeepsLive init as)
    (ht : ∀ pre a, pre ++ [a] <+: as → KeepsText pre a) : Told as := by
  induction as using List.reverseRecOn with
  | nil => exact init_told
  | append_singleton as a ih =>
    obtain ⟨hl, ha⟩ := Run.each_concat.mp hl
    have h1 := ih hl fun pre b hp => ht pre b (hp.trans (List.prefix_append _ _))
    exact h1.step ha (ht as a List.prefix_rfl)

/-- The handles are alive throughout exactly the runs that destroy no buffer while it is pending
on a surface or read by a shader. When no such buffer is written with something else either, all
sessions are sent the same sources. -/
theorem handles_throughout (as : List Action) :
    (Run.Always step HandlesLive init as ↔ Run.Each step KeepsLive init as) ∧
      (Run.Each step KeepsLive init as ∧ (∀ pre a, pre ++ [a] <+: as → KeepsText pre a) →
        ∀ h source source', SentTo as h source → SentTo as h source' → source = source') :=
  ⟨Run.always_iff_each_of init_keptLive (fun _ h => h.handles) (fun _ _ h hc => step_keptLive h hc)
    (fun _ _ _ hp => keepsLive_of_handles hp) as, fun h => (run_told h.1 h.2).same⟩

/-- A client destroys a buffer that it has attached, and commits. -/
def bufferGone : List Action :=
  [.desk 0 (.createWlBuffer ⟨0, 1, 1, 4, [1, 2, 3, 4]⟩), .desk 0 (.createSurface (0, 0)),
    .desk 0 (.attach 1 (some 0) (0, 0)), .destroy 0 0, .desk 0 (.commit 1)]

/-- The shader of a program that is in use, and the buffer it was made from. -/
def shaderInUse : List Action :=
  [.zwin 0 (.createBuffer [1]), .zwin 0 (.createGlShader 0 0), .zwin 0 .createGlProgram,
    .zwin 0 (.attachShader 2 1), .zwin 0 .createVirtualObject, .zwin 0 (.createRenderingUnit 3),
    .zwin 0 (.createGlBaseTechnique 4), .zwin 0 (.bindProgram 5 2),
    .zwin 0 (.getBounded 3 ⟨12, fun _ => 0⟩), .zwin 0 (.commit 3)]

/-- The client writes the buffer between two sessions. -/
def sourceRewritten : List Action :=
  shaderInUse ++ [.peerDiscover true, .sessionDisconnect, .zwin 0 (.writeBuffer 0 [2]),
    .peerDiscover true]

/-- The commit reads the buffer that is gone, and the two sessions are sent two sources. -/
theorem bufferGone_handles :
    ¬ Run.Always step HandlesLive init bufferGone ∧
      (run bufferGone).fault = some .useAfterFree ∧
      SentTo sourceRewritten 1 [1] ∧ SentTo sourceRewritten 1 [2] := by
  refine ⟨fun h => ?_, rfl, ?_, ?_⟩
  · have h1 := (h (bufferGone.take 4) (List.take_prefix _ _)).surface 1 _ 0 rfl rfl
    cases h1
  · exact ⟨sourceRewritten.take 11, List.take_prefix _ _, ⟨4, 0⟩, rfl, by decide⟩
  · exact ⟨sourceRewritten, List.prefix_rfl, ⟨9, 1⟩, rfl, by decide⟩

end World
end Yaza
