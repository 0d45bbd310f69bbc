import Yaza.Server.Objects

/-! The content of the surfaces beside that of double-buffered ones: what is attached is shown from
the next commit on, and its buffer is released by that commit. -/
namespace Yaza

/-- An ideal surface: its content, and what was attached since the last commit, if anything was. -/
structure Sheet where
  pending : Option (Option ℕ) := none
  content : Option (WlShmBuffer × (ℕ × ℕ)) := none

namespace Sheet

/-- A buffer, or null, is attached. -/
def attach (s : Sheet) (buffer : Option ℕ) : Sheet := { s with pending := some buffer }

/-- The buffer that the next commit shows and releases. -/
def taken (s : Sheet) (buffers : Arena WlShmBuffer) : Option ℕ :=
  s.pending.join.filter fun b => (buffers b).isSome

/-- Nothing is said about a buffer that is gone. -/
def commit (s : Sheet) (buffers : Arena WlShmBuffer) : Sheet :=
  match s.pending with
  | none => s
  | some none => {}
  | some (some b) =>
    match buffers b with
    | none => s
    | some t => { content := some (t, (t.width, t.height)) }

end Sheet

/-- `texture_`, `tex_width_` and `tex_height_`. -/
def Surface.content (x : Surface) : Option (WlShmBuffer × (ℕ × ℕ)) :=
  x.texture.map fun t => (t, x.texSize)

/-- The content and the buffer that is pending. -/
def Surface.front (x : Surface) := (x.content, x.pendingBuffer)

namespace World

/-- The ideal surfaces, and the buffers they release. -/
structure Ideal where
  sheets : ℕ → Sheet := fun _ => {}
  released : List ℕ := []

/-- What a request does to the ideal surfaces. -/
def Ideal.note (k : Ideal) (w : World) : Action → Ideal
  | .desk client (.attach s b d) =>
    if w.admits client (.attach s b d) then
      { k with sheets := Function.update k.sheets s ((k.sheets s).attach b) }
    else k
  | .desk client (.commit s) =>
    if w.admits client (.commit s) then
      { sheets := Function.update k.sheets s ((k.sheets s).commit w.wlBuffers)
        released := k.released ++ ((k.sheets s).taken w.wlBuffers).toList }
    else k
  | _ => k

/-- A step of the program beside the ideal surfaces. -/
def beside (s : World × Ideal) (a : Action) : World × Ideal :=
  (s.1.step a, if s.1.stopped then s.2 else s.2.note s.1 a)

/-- The surfaces show what the ideal ones show, the same buffers were released, and the ray does
not meet a surface without content. -/
structure Shown (s : World × Ideal) : Prop where
  content : ∀ i x, s.1.surfaces i = some x → x.content = (s.2.sheets i).content
  released : s.1.releases = s.2.released
  missed : ∀ i x hits, s.1.surfaces i = some x → x.content = none →
    s.1.hit hits (.surface i) = none

/-- No commit follows an `attach` of null, unless the surface is empty already, and what is
attached has one of the two formats that libwayland admits. -/
def ShowsAttached (s : World × Ideal) : Action → Prop
  | .desk client (.commit i) =>
    s.1.stopped = false → s.1.admits client (.commit i) = true →
      match (s.2.sheets i).pending with
      | none => True
      | some none => ∀ x, s.1.surfaces i = some x → x.content = none
      | some (some b) => ∀ t, s.1.wlBuffers b = some t → t.supported = true
  | _ => True

theorem hit_of_empty {w : World} {i : ℕ} {x : Surface} (hits : Hits) (hx : w.surfaces i = some x)
    (hc : x.content = none) : w.hit hits (.surface i) = none := by
  have ht : x.texture = none := by simpa [Surface.content] using hc
  simp [hit, World.pickable, hx, Surface.pickable, ht]

/-- The code's surfaces agree with the ideal ones, also in what is pending. -/
structure Beside (w : World) (k : Ideal) : Prop where
  typed : w.Typed
  fresh : ∀ i, w.nextId ≤ i → k.sheets i = {}
  front : ∀ i x, w.surfaces i = some x →
    x.front = ((k.sheets i).content, (k.sheets i).pending.join)
  released : w.releases = k.released

section Steps
variable {w w' : World} {k : Ideal}

theorem Beside.shown (h : Beside w k) : Shown (w, k) where
  content := fun i x hx => congrArg Prod.fst (h.front i x hx)
  released := h.released
  missed := fun _ _ hits hx hc => hit_of_empty hits hx hc

/-- Nothing happens to the contents, and surfaces may be gone. -/
theorem Beside.keep (h : Beside w k) (ht : w'.Typed) (hn : w.nextId ≤ w'.nextId)
    (hs : ∀ i x, w'.surfaces i = some x → ∃ y, w.surfaces i = some y ∧ y.front = x.front)
    (hr : w'.releases = w.releases) : Beside w' k where
  typed := ht
  fresh := fun i hi => h.fresh i (hn.trans hi)
  front := fun i x hx => by
    obtain ⟨y, hy, hyx⟩ := hs i x hx
    rw [← hyx]
    exact h.front i y hy
  released := hr.trans h.released

theorem Beside.same (h : Beside w k) (ht : w'.Typed) (hn : w.nextId ≤ w'.nextId)
    (hs : w'.surfaces.mapAll Surface.front = w.surfaces.mapAll Surface.front)
    (hr : w'.releases = w.releases) : Beside w' k :=
  h.keep ht hn (fun _ _ hx => Arena.of_mapAll hs hx) hr

theorem front_of_shape {S S' : Arena Surface}
    (h : S'.mapAll Surface.shape = S.mapAll Surface.shape) :
    S'.mapAll Surface.front = S.mapAll Surface.front := by
  have h1 := congrArg (fun A => A.mapAll fun c =>
    (c.2.1.map fun t => (t, c.2.2.2.2), c.1)) h
  simp only [Arena.mapAll_mapAll] at h1
  exact h1

theorem front_of_core {S S' : Arena Surface} (h : S'.mapAll Surface.core = S.mapAll Surface.core) :
    S'.mapAll Surface.front = S.mapAll Surface.front := by
  have h1 := congrArg (fun A => A.mapAll fun c =>
    (c.2.1.map fun t => (t, c.2.2.2.2.2), c.1)) h
  simp only [Arena.mapAll_mapAll] at h1
  exact h1

theorem Change.beside {b : Bool} (h : Change b w w') (hw : Beside w k) : Beside w' k := by
  have ht := h.typed hw.typed
  cases h with
  | other hd _ hg =>
    simp only [desk, Prod.mk.injEq] at hd
    exact hw.same ht hg.nextId (front_of_core hd.1) hd.2.2.2.2.2.2.2.2.2
  | focus _ hd hg =>
    simp only [desk, Prod.mk.injEq] at hd
    exact hw.same ht hg.nextId (front_of_core hd.1) hd.2.2.2.2.2.2.2.2.2
  | expire => exact hw.same ht (Nat.le_refl _) rfl rfl
  | raise i =>
    obtain ⟨l, S, h1, h2⟩ := raiseSurfaceTop_eq w i
    rw [h1] at ht ⊢
    exact hw.same ht (Nat.le_refl _) (front_of_shape h2) rfl
  | offer d s =>
    rcases createOffer_cases w d s with h1 | ⟨r, x, -, -, h1⟩
    · rw [h1] at ht ⊢
      exact hw.same ht (Nat.le_refl _) rfl rfl
    · rw [h1] at ht ⊢
      exact hw.same ht (Nat.le_succ _) rfl (by simp [releases, DeskEvent.release?])
  | cursor i => exact hw.same ht (Nat.le_refl _) (Arena.mapAll_modify fun _ => rfl) rfl

/-- Content and pending buffer after a commit. -/
def commitFront (w : World) (x : Surface) : Option (WlShmBuffer × (ℕ × ℕ)) × Option ℕ :=
  match x.pendingBuffer.bind w.wlBuffers with
  | none => x.front
  | some t => (if t.supported then some (t, (t.width, t.height)) else none, none)

theorem commitBuffer_front (x : Surface) (t : WlShmBuffer) :
    (x.commitOffset.commitBuffer t).front =
      (if t.supported then some (t, (t.width, t.height)) else none, none) := by
  unfold Surface.commitBuffer
  split <;> rfl

theorem commitOffset_front (x : Surface) : x.commitOffset.front = x.front := by
  unfold Surface.commitOffset
  split <;> rfl

theorem tellTexture_front (x : Surface) : x.tellTexture.commitFrames.front = x.front := by
  unfold Surface.tellTexture
  split <;> rfl

/-- What a commit shows and releases. -/
theorem commitSurface_front {i : ℕ} {x : Surface} (hx : w.surfaces i = some x) :
    (w.commitSurface i).surfaces.mapAll Surface.front =
        (w.surfaces.mapAll Surface.front).set i (w.commitFront x) ∧
      (w.commitSurface i).releases = w.releases ++
        (x.pendingBuffer.filter fun b => (w.wlBuffers b).isSome).toList := by
  have hsame : (w.surfaces.mapAll Surface.front).set i x.front =
      w.surfaces.mapAll Surface.front := by
    funext j
    by_cases hj : j = i
    · simp [hj, hx]
    · simp [hj]
  have hb : (w.commitBuffer i x).surfaces.mapAll Surface.front =
        (w.surfaces.mapAll Surface.front).set i (w.commitFront x) ∧
      (w.commitBuffer i x).releases = w.releases ++
        (x.pendingBuffer.filter fun b => (w.wlBuffers b).isSome).toList := by
    unfold commitBuffer commitFront
    cases hp : x.pendingBuffer with
    | none =>
      refine ⟨?_, by simp [releases, modifySurface]⟩
      simp only [Option.bind_none, hsame]
      exact Arena.mapAll_modify commitOffset_front
    | some b =>
      cases ht : w.wlBuffers b with
      | none =>
        refine ⟨?_, by simp [releases, modifySurface, crash, ht]⟩
        simp only [Option.bind_some, ht, hsame]
        exact Arena.mapAll_modify commitOffset_front
      | some t =>
        refine ⟨?_, by simp [releases, modifySurface, emit, DeskEvent.release?, ht, Option.filter]⟩
        simp only [Option.bind_some, ht]
        funext j
        by_cases hj : j = i
        · subst hj
          simp [emit, modifySurface, hx, commitBuffer_front]
        · simp [emit, modifySurface, hj]
  have hn (l : List ℕ) : (l.map DeskEvent.xdgConfigure).filterMap DeskEvent.release? = [] := by
    simp [List.filterMap_map, Function.comp_def, DeskEvent.release?]
  unfold commitSurface andThen
  simp only [hx]
  split
  · exact hb
  · constructor
    · rw [← hb.1]
      exact Arena.mapAll_modify tellTexture_front
    · rw [← hb.2]
      simp only [releases, notifyXdg, modifySurface, List.filterMap_append, hn, List.append_nil]

/-- The condition for a commit, on the surface and what was attached to it. -/
def ShowsSheet (w : World) (x : Surface) (s : Sheet) : Prop :=
  match s.pending with
  | none => True
  | some none => x.content = none
  | some (some b) => ∀ t, w.wlBuffers b = some t → t.supported = true

/-- A commit of the code is the ideal one exactly when what was attached can be shown. -/
theorem commitFront_iff {x : Surface} {s : Sheet} (h : x.front = (s.content, s.pending.join)) :
    (w.commitFront x).1 = (s.commit w.wlBuffers).content ↔ w.ShowsSheet x s := by
  obtain ⟨hc, hp⟩ : x.content = s.content ∧ x.pendingBuffer = s.pending.join := by
    simpa [Surface.front] using h
  unfold commitFront Sheet.commit ShowsSheet
  rw [hp]
  cases hs : s.pending with
  | none => simp [h]
  | some o =>
    cases o with
    | none => simp [h, hc]
    | some b => cases ht : w.wlBuffers b <;> simp [ht, h]

theorem commitFront_pending {x : Surface} {s : Sheet} (h : x.front = (s.content, s.pending.join)) :
    (w.commitFront x).2 = (s.commit w.wlBuffers).pending.join := by
  obtain ⟨hc, hp⟩ : x.content = s.content ∧ x.pendingBuffer = s.pending.join := by
    simpa [Surface.front] using h
  unfold commitFront Sheet.commit
  rw [hp]
  cases hs : s.pending with
  | none => simp [h, hs]
  | some o =>
    cases o with
    | none => simp [h, hs]
    | some b => cases ht : w.wlBuffers b <;> simp [ht, h, hs]

/-- The sheet of one surface that is alive changes with its front. -/
theorem Beside.update (h : Beside w k) (ht : w'.Typed) (hn : w'.nextId = w.nextId) {i : ℕ}
    (hi : i < w.nextId) {s : Sheet}
    (hs : w'.surfaces.mapAll Surface.front =
      (w.surfaces.mapAll Surface.front).set i (s.content, s.pending.join))
    {l : List ℕ} (hr : w'.releases = l) :
    Beside w' { sheets := Function.update k.sheets i s, released := l } where
  typed := ht
  fresh := fun j hj => by
    rw [hn] at hj
    dsimp only
    rw [Function.update_of_ne (Nat.ne_of_gt (Nat.lt_of_lt_of_le hi hj))]
    exact h.fresh j hj
  front := fun j y hy => by
    have hj := congrFun hs j
    rw [Arena.mapAll_apply, hy] at hj
    by_cases hji : j = i
    · subst hji
      simpa using hj
    · rw [Arena.set_of_ne _ _ hji] at hj
      obtain ⟨x, hx, hxy⟩ : ∃ x, w.surfaces j = some x ∧ x.front = y.front := by
        simpa using hj.symm
      dsimp only
      rw [← hxy, Function.update_of_ne hji]
      exact h.front j x hx
  released := hr

/-- A request that is handled has the surface it names. -/
theorem Beside.surface (h : Beside w k) {client i : ℕ} {r : DeskRequest}
    (ha : w.admits client r = true) (hr : (i, .surface) ∈ r.objects) :
    ∃ x, w.surfaces i = some x ∧ i < w.nextId := by
  obtain ⟨x, hx⟩ := Option.isSome_iff_exists.mp
    (h.typed.object i client .surface (admits_object ha hr) rfl)
  exact ⟨x, hx, h.typed.lt (k := .surface) (by simp [World.holds, hx])⟩

theorem Beside.attach (h : Beside w k) {client i : ℕ} {b : Option ℕ} {d : ℤ × ℤ}
    (ha : w.admits client (.attach i b d) = true) :
    Beside (w.direct client (.attach i b d)) (k.note w (.desk client (.attach i b d))) := by
  obtain ⟨x, hx, hi⟩ := h.surface (i := i) ha (by simp [DeskRequest.objects])
  simp only [Ideal.note, ha, if_true]
  refine h.update (direct_typed h.typed client _) rfl hi ?_ h.released
  funext j
  by_cases hj : j = i
  · subst hj
    have hc := congrArg Prod.fst (h.front j x hx)
    simp only [Surface.front] at hc
    simp [direct, handle, modifySurface, hx, Surface.front, Surface.content, Surface.attach,
      Surface.setOffset, Sheet.attach, ← hc]
  · simp [direct, handle, modifySurface, hj]

theorem Beside.commit (h : Beside w k) {client i : ℕ} (ha : w.admits client (.commit i) = true)
    (hc : ∀ x, w.surfaces i = some x → w.ShowsSheet x (k.sheets i)) :
    Beside (w.direct client (.commit i)) (k.note w (.desk client (.commit i))) := by
  obtain ⟨x, hx, hi⟩ := h.surface (i := i) ha (by simp [DeskRequest.objects])
  have hf := h.front i x hx
  obtain ⟨h1, h2⟩ := commitSurface_front hx
  simp only [Ideal.note, ha, if_true]
  change Beside (w.commitSurface i) _
  refine h.update (commitSurface_typed h.typed i) (w.commitSurface_rest i).2.2.2.2.2.2.1 hi ?_ ?_
  · rw [h1]
    exact congrArg _ (Prod.ext ((commitFront_iff hf).mpr (hc x hx)) (commitFront_pending hf))
  · have hp : x.pendingBuffer = (k.sheets i).pending.join := congrArg Prod.snd hf
    rw [h2, h.released, hp]
    rfl

theorem Beside.createSurface (h : Beside w k) (client : ℕ) (texSize : ℕ × ℕ) :
    Beside (w.createSurface client texSize) k := by
  have ht := direct_typed h.typed client (.createSurface texSize)
  obtain ⟨l, S, h1, h2⟩ := w.createSurface_eq client texSize
  simp only [direct, handle] at ht
  rw [h1] at ht ⊢
  refine ⟨ht, fun i hi => h.fresh i (Nat.le_of_succ_le hi), fun i x hx => ?_, h.released⟩
  have hi := congrFun h2 i
  have hxi : S i = some x := hx
  rw [Arena.mapAll_apply, hxi] at hi
  by_cases hin : i = w.nextId
  · subst hin
    obtain ⟨hp, hc⟩ : x.pendingBuffer = none ∧ x.texture = none := by
      simp only [Option.map_some, Arena.set_self, Option.some.injEq, Surface.shape,
        Prod.mk.injEq] at hi
      exact ⟨hi.1, hi.2.1⟩
    simp [Surface.front, Surface.content, hp, hc, h.fresh w.nextId (Nat.le_refl _)]
  · rw [Arena.set_of_ne _ _ hin] at hi
    obtain ⟨y, hy, hyx⟩ : ∃ y, w.surfaces i = some y ∧ y.shape = x.shape := by
      simpa using hi.symm
    have hfr : y.front = x.front := by
      simp only [Surface.shape, Prod.mk.injEq] at hyx
      simp [Surface.front, Surface.content, hyx]
    rw [← hfr]
    exact h.front i y hy

theorem direct_beside (h : Beside w k) {client : ℕ} {r : DeskRequest}
    (ha : w.admits client r = true)
    (hc : ∀ i x, r = .commit i → w.surfaces i = some x → w.ShowsSheet x (k.sheets i)) :
    Beside (w.direct client r) (k.note w (.desk client r)) := by
  have ht := direct_typed h.typed client r
  cases r with
  | attach i b d => exact h.attach ha
  | commit i => exact h.commit ha fun x hx => hc i x rfl hx
  | createSurface texSize => exact h.createSurface client texSize
  | getToplevel j =>
    simp only [direct, handle, createToplevel] at ht ⊢
    split at ht
    · exact h.same ht (Nat.le_refl _) rfl rfl
    · exact h.same ht (Nat.le_succ _) (Arena.mapAll_modify fun _ => rfl) rfl
  | setSelection d source => cases source <;> exact h.same ht (Nat.le_refl _) rfl rfl
  | createWlBuffer b => exact h.same ht (Nat.le_succ _) rfl rfl
  | getXdgSurface i => exact h.same ht (Nat.le_succ _) rfl rfl
  | createDataSource => exact h.same ht (Nat.le_succ _) rfl rfl
  | getDataDevice => exact h.same ht (Nat.le_succ _) rfl rfl
  | _ => exact h

theorem destroyResource_beside (h : Beside w k) (i : ℕ) : Beside (w.destroyResource i) k := by
  have ht := destroyResource_typed h.typed i
  unfold destroyResource at ht ⊢
  cases hr : w.resources i with
  | none => exact h
  | some r =>
    simp only [hr] at ht ⊢
    obtain ⟨c, f⟩ := r
    cases f with
    | surface =>
      refine h.keep ht (Nat.le_refl _) (fun j x hx => ?_) rfl
      by_cases hji : j = i
      · simp [deleteObject, hji] at hx
      · exact ⟨x, by simpa [deleteObject, hji] using hx, rfl⟩
    | _ => exact h.same ht (Nat.le_refl _) rfl rfl

theorem directly_beside (h : Beside w k) (hs : w.stopped = false) {a : Action}
    (hc : ShowsAttached (w, k) a) : Beside (w.directly a) (k.note w a) := by
  cases a with
  | desk client r =>
    simp only [directly]
    split
    · next ha =>
      refine direct_beside h ha fun i x hr hx => ?_
      subst hr
      have h1 := hc hs ha
      unfold ShowsSheet
      cases hp : (k.sheets i).pending with
      | none => trivial
      | some o =>
        simp only [hp] at h1
        cases o with
        | none => exact h1 x hx
        | some b => exact h1
    · next ha => cases r <;> simp only [Ideal.note, ha, if_false, Bool.false_eq_true] <;> exact h
  | destroy client i =>
    simp only [directly]
    split
    · exact destroyResource_beside h i
    · exact h
  | _ => exact h

theorem beside_step {s : World × Ideal} (h : Beside s.1 s.2) (a : Action)
    (hc : ShowsAttached s a) : Beside (beside s a).1 (beside s a).2 := by
  obtain ⟨w, k⟩ := s
  unfold beside
  cases hs : w.stopped with
  | true =>
    simp only [step_of_stopped hs]
    exact h
  | false =>
    simp only [step_of_running hs]
    exact Path.preserves (P := fun u => Beside u (k.note w a)) (fun _ _ hc hw => hc.beside hw)
      (act_changes w a) (directly_beside h hs hc)

/-- A commit that shows what was attached meets the condition. -/
theorem showsAttached_of_shown {s : World × Ideal} (h : Beside s.1 s.2) (a : Action)
    (hp : Shown (beside s a)) : ShowsAttached s a := by
  obtain ⟨w, k⟩ := s
  cases a with
  | desk client r =>
    cases r with
    | commit i =>
      intro hs ha
      obtain ⟨x, hx, -⟩ := h.surface (i := i) ha (by simp [DeskRequest.objects])
      have h1 := congrFun (commitSurface_front hx).1 i
      obtain ⟨y, hy, hyf⟩ : ∃ y, (w.commitSurface i).surfaces i = some y ∧
          y.front = w.commitFront x := by simpa using h1
      have hb : beside (w, k) (.desk client (.commit i)) =
          (w.commitSurface i, k.note w (.desk client (.commit i))) := by
        simp [beside, step, hs, act, ha, handle]
      rw [hb] at hp
      have h2 := hp.content i y hy
      simp only [Ideal.note, ha, if_true, Function.update_self] at h2
      have h3 : (w.commitFront x).1 = ((k.sheets i).commit w.wlBuffers).content := by
        rw [← hyf]
        exact h2
      have h4 := (commitFront_iff (h.front i x hx)).mp h3
      unfold ShowsSheet at h4
      dsimp only
      cases hq : (k.sheets i).pending with
      | none => trivial
      | some o =>
        simp only [hq] at h4
        cases o with
        | none =>
          intro x' hx'
          rw [hx] at hx'
          cases hx'
          exact h4
        | some b => exact h4
    | _ => trivial
  | _ => trivial

theorem init_beside : Beside init {} where
  typed := init_typed
  fresh := fun _ _ => rfl
  front := fun i x hx => by cases hx
  released := rfl

end Steps

/-- The surfaces are double-buffered throughout exactly the runs whose commits can show what was
attached: `attach` of null is taken for no `attach` at all. -/
theorem shown_throughout_iff (as : List Action) :
    Run.Always beside Shown (init, {}) as ↔ Run.Each beside ShowsAttached (init, {}) as :=
  Run.always_iff_each_of (G := fun s : World × Ideal => Beside s.1 s.2) init_beside
    (fun _ h => h.shown)
    (fun _ a h hc => beside_step h a hc) (fun _ a h hp => showsAttached_of_shown h a hp) as

/-- A client takes the content of its surface back. -/
def attachNull : List Action :=
  [.desk 0 (.createWlBuffer ⟨0, 1, 1, 4, [1, 2, 3, 4]⟩), .desk 0 (.createSurface (0, 0)),
    .desk 0 (.attach 1 (some 0) (0, 0)), .desk 0 (.commit 1), .desk 0 (.attach 1 none (0, 0)),
    .desk 0 (.commit 1)]

/-- The surface keeps it. -/
theorem attachNull_shown : ¬ Run.Always beside Shown (init, {}) attachNull ∧
    ((run attachNull).surfaces 1).bind Surface.content =
      some (⟨0, 1, 1, 4, [1, 2, 3, 4]⟩, (1, 1)) := by
  refine ⟨fun h => ?_, rfl⟩
  have h1 := (h attachNull List.prefix_rfl).content 1 _ rfl
  cases h1

end World
end Yaza
