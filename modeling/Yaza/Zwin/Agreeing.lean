import Yaza.Zwin.Mirroring

/-! When a sync leaves a remote technique with the committed state: after a commit, for each kind
of state, and when a session was just established. -/
namespace Yaza
namespace Scene

/-- What the commit of a technique and the sync after it must tell, for the two states to agree. -/
structure Tells (s : Scene) (z : GlBaseTechnique) : Prop where
  vertexArray : Covers z.proxy.isSome z.pending.vertexArrayChanged (s.vertexArrayOf z.current)
    (s.vertexArrayOf z.pending)
  program : Covers z.proxy.isSome z.pending.programChanged (s.programOf z.current)
    (s.programOf z.pending)
  textures : Covers z.proxy.isSome z.pending.textureBindings.changed (s.texturesOf z.current)
    (s.texturesOf z.pending)
  draw : Covers z.proxy.isSome z.pending.drawApiArgs.changed (s.drawOf z.current)
    (s.drawOf z.pending)
  uniforms : z.proxy.isSome = false → ∀ y ∈ uniformsOf z.current,
    ∃ w ∈ uniformsOf z.pending, w.part = y.part
  sent : ∀ y ∈ LastWrite.standing Setting.part (uniformsOf z.current ++ uniformsOf z.pending),
    y.sent

section Commit
variable (s : Scene) (pending current : TechniqueState)

theorem vertexArrayOf_commit : s.vertexArrayOf (pending.commit s.bindingAlive current) =
    if pending.vertexArrayChanged then s.vertexArrayOf pending else s.vertexArrayOf current := by
  cases h : pending.vertexArrayChanged <;> simp [vertexArrayOf, TechniqueState.commit, h]

theorem programOf_commit : s.programOf (pending.commit s.bindingAlive current) =
    if pending.programChanged then s.programOf pending else s.programOf current := by
  cases h : pending.programChanged <;> simp [programOf, TechniqueState.commit, h]

theorem texturesOf_commit : s.texturesOf (pending.commit s.bindingAlive current) =
    if pending.textureBindings.changed then s.texturesOf pending else s.texturesOf current := by
  cases h : pending.textureBindings.changed <;>
    simp [texturesOf, TechniqueState.commit, TextureBindingList.commit,
      TextureBindingList.removeExpired, h]

omit s in
theorem texturesChanged_commit (alive : TextureBinding → Bool) :
    (pending.commit alive current).textureBindings.changed = pending.textureBindings.changed := by
  cases h : pending.textureBindings.changed <;>
    simp [TechniqueState.commit, TextureBindingList.commit, h]

omit s in
theorem drawChanged_commit (alive : TextureBinding → Bool) :
    (pending.commit alive current).drawApiArgs.changed = pending.drawApiArgs.changed := by
  cases h : pending.drawApiArgs.changed <;> simp [TechniqueState.commit, DrawApiArgs.commit, h]

variable {pending} in
/-- The draw arguments that are asked for are not empty. -/
theorem drawOf_commit (hd : pending.drawApiArgs.changed → pending.drawApiArgs.data ≠ .none) :
    s.drawOf (pending.commit s.bindingAlive current) =
      if pending.drawApiArgs.changed then s.drawOf pending else s.drawOf current := by
  cases h : pending.drawApiArgs.changed with
  | false => simp [drawOf, TechniqueState.commit, DrawApiArgs.commit, h]
  | true =>
    have hd' := hd h
    cases hp : pending.drawApiArgs.data with
    | none => exact absurd hp hd'
    | arrays => simp [drawOf, TechniqueState.commit, DrawApiArgs.commit, h, hp]
    | elements => simp [drawOf, TechniqueState.commit, DrawApiArgs.commit, h, hp]

section Uniforms
variable (alive : TextureBinding → Bool) (i : UInt32 ⊕ String)

/-- The uniform variables that are committed are those that were, and those asked for since. -/
theorem latest_uniforms_commit :
    LastWrite.latest Setting.part (uniformsOf (pending.commit alive current)) (.uniform i) =
      LastWrite.latest Setting.part (uniformsOf current ++ uniformsOf pending) (.uniform i) := by
  have h1 : LastWrite.latest UniformVariable.key
      (current.uniformVars.map fun c => { c with newlyComitted := false }) i =
        (LastWrite.latest UniformVariable.key current.uniformVars i).map
          fun c => { c with newlyComitted := false } :=
    LastWrite.latest_map fun c _ => by rw [key_mark]
  rw [LastWrite.latest_append, uniformsOf, uniformsOf, uniformsOf, latest_uniforms,
    latest_uniforms, latest_uniforms, TechniqueState.commit, UniformVariableList.commit,
    latest_merges, h1]
  cases LastWrite.latest UniformVariable.key pending.uniformVars i with
  | some v => rfl
  | none => cases LastWrite.latest UniformVariable.key current.uniformVars i <;> rfl

/-- The variables that are marked are those asked for since the last commit. -/
theorem latest_marked : LastWrite.latest Setting.part
    (((pending.commit alive current).uniformVars.filter fun v => v.newlyComitted).map
      UniformVariable.setting) (.uniform i) =
      LastWrite.latest Setting.part (uniformsOf pending) (.uniform i) := by
  have h1 : (current.uniformVars.map fun c => { c with newlyComitted := false }).filter
      (fun v => v.newlyComitted) = [] := by simp
  rw [uniformsOf, latest_uniforms, latest_uniforms, TechniqueState.commit,
    UniformVariableList.commit, filter_merges, h1, latest_merges, Option.map_or, Option.map_map]
  have h2 : LastWrite.latest UniformVariable.key [] i = none := rfl
  rw [h2, Option.map_none, Option.or_none]
  rfl

theorem latest_newUniforms {w : Setting}
    (h : LastWrite.latest Setting.part (uniformsOf pending) (.uniform i) = some w) (hw : w.sent) :
    LastWrite.latest Setting.part (newUniforms (pending.commit alive current) false)
      (.uniform i) = some w := by
  rw [newUniforms]
  simp only [Bool.false_or]
  apply LastWrite.latest_filter
  · rw [latest_marked, h]
  · exact hw

theorem latest_newUniforms_none
    (h : LastWrite.latest Setting.part (uniformsOf pending) (.uniform i) = none) :
    LastWrite.latest Setting.part (newUniforms (pending.commit alive current) false)
      (.uniform i) = none := by
  rw [← latest_marked pending current alive, LastWrite.latest_eq_none] at h
  apply LastWrite.latest_eq_none.mpr
  intro v hv
  simp only [newUniforms, Bool.false_or] at hv
  exact h v (List.mem_of_mem_filter hv)

end Uniforms

end Commit

/-- All settings, one kind after another. -/
theorem forall_kinds {Q : Setting → Prop} :
    (∀ y, Q y) ↔ (∀ y, y.part = .vertexArray → Q y) ∧ (∀ y, y.part = .program → Q y) ∧
      (∀ y, (∃ i, y.part = .texture i) → Q y) ∧ (∀ y, (∃ i, y.part = .uniform i) → Q y) ∧
      ∀ y, y.part = .draw → Q y := by
  constructor
  · intro h
    exact ⟨fun y _ => h y, fun y _ => h y, fun y _ => h y, fun y _ => h y, fun y _ => h y⟩
  · rintro ⟨h1, h2, h3, h4, h5⟩ y
    cases hy : y.part with
    | vertexArray => exact h1 y hy
    | program => exact h2 y hy
    | texture i => exact h3 y ⟨i, hy⟩
    | uniform i => exact h4 y ⟨i, hy⟩
    | draw => exact h5 y hy

section Kind
variable {P P' : Setting → Prop} {told changed : Bool} {before after sends : List Setting}
  (hP : ∀ y, P y ↔ told ∧ LastWrite.latest Setting.part before y.part = some y)
  (hsent : ∀ y w, LastWrite.latest Setting.part sends y.part = some w → (P' y ↔ y = w))
  (hkept : ∀ y, LastWrite.latest Setting.part sends y.part = none → (P' y ↔ P y))
include hP hsent hkept

/-- One kind of setting that is told as a whole. -/
theorem kind_iff (kind : Part → Prop) {old new : List Setting} (hold : ∀ y ∈ old, kind y.part)
    (hb : ∀ k, kind k →
      LastWrite.latest Setting.part before k = LastWrite.latest Setting.part old k)
    (ha : ∀ k, kind k → LastWrite.latest Setting.part after k =
      LastWrite.latest Setting.part (if changed then new else old) k)
    (hs : ∀ k, kind k → LastWrite.latest Setting.part sends k =
      LastWrite.latest Setting.part (if changed then new else []) k) :
    (∀ y, kind y.part → (P' y ↔ LastWrite.latest Setting.part after y.part = some y)) ↔
      Covers told changed old new := by
  have h1 (y : Setting) (hy : kind y.part) :
      P y ↔ told ∧ LastWrite.latest Setting.part old y.part = some y := by
    rw [hP, hb _ hy]
  have h2 (hc : changed) (y w : Setting) (hy : kind y.part)
      (hw : LastWrite.latest Setting.part new y.part = some w) : P' y ↔ y = w := by
    apply hsent
    rw [hs _ hy, if_pos hc, hw]
  have h3 (y : Setting) (hy : kind y.part)
      (hn : changed → LastWrite.latest Setting.part new y.part = none) : P' y ↔ P y := by
    apply hkept
    rw [hs _ hy]
    split
    · next hc => exact hn hc
    · rfl
  rw [← covers_iff hold h1 h2 h3]
  apply forall_congr'
  intro y
  apply forall_congr'
  intro hy
  rw [ha _ hy]

end Kind

section Sync
variable {s s' : Scene} {t q : ℕ} {told : Bool} {pending current : TechniqueState}
  (hP : ∀ y, s.Shows q y ↔
    told ∧ LastWrite.latest Setting.part (s.settings current) y.part = some y)

/-- What a technique is told by a sync, part by part. -/
structure Hears (s s' : Scene) (q : ℕ) (sends : List Setting) : Prop where
  sent : ∀ y w, LastWrite.latest Setting.part sends y.part = some w → (s'.Shows q y ↔ y = w)
  kept : ∀ y, LastWrite.latest Setting.part sends y.part = none →
    (s'.Shows q y ↔ s.Shows q y)
  known : ∀ y, s'.Shows q y → y.sent
  settings : ∀ x, s'.settings x = s.settings x

section Commit
variable (h : Hears s s' q (s.sends (pending.commit s.bindingAlive current) false))
include hP h

/-- One kind of setting after a commit and its sync. -/
theorem Hears.whole_iff (kind : Part → Prop) {changed : Bool}
    {settingsOf : TechniqueState → List Setting} (hk : ∀ y ∈ settingsOf current, kind y.part)
    (hl : ∀ x k, kind k → LastWrite.latest Setting.part (s.settings x) k =
      LastWrite.latest Setting.part (settingsOf x) k)
    (hc : settingsOf (pending.commit s.bindingAlive current) =
      if changed then settingsOf pending else settingsOf current)
    (hs : ∀ k, kind k → LastWrite.latest Setting.part
      (s.sends (pending.commit s.bindingAlive current) false) k =
        LastWrite.latest Setting.part
          (if changed then settingsOf (pending.commit s.bindingAlive current) else []) k) :
    (∀ y, kind y.part → (s'.Shows q y ↔ LastWrite.latest Setting.part
      (s.settings (pending.commit s.bindingAlive current)) y.part = some y)) ↔
        Covers told changed (settingsOf current) (settingsOf pending) := by
  apply kind_iff hP h.sent h.kept kind hk (hl current)
  · intro k hk
    rw [hl _ k hk, hc]
  · intro k hk
    rw [hs k hk, hc]
    cases changed <;> rfl

/-- The uniform variables after a commit and its sync. -/
theorem Hears.uniforms_iff :
    (∀ y, (∃ i, y.part = .uniform i) → (s'.Shows q y ↔ LastWrite.latest Setting.part
      (s.settings (pending.commit s.bindingAlive current)) y.part = some y)) ↔
        (told = false → ∀ y ∈ uniformsOf current, ∃ w ∈ uniformsOf pending, w.part = y.part) ∧
          ∀ y ∈ LastWrite.standing Setting.part (uniformsOf current ++ uniformsOf pending),
            y.sent := by
  have kc := s.kinds_settings current
  have kp := s.kinds_settings pending
  have kx := s.kinds_settings (pending.commit s.bindingAlive current)
  have lu (i) : LastWrite.latest Setting.part (s.settings current) (.uniform i) =
      LastWrite.latest Setting.part (uniformsOf current) (.uniform i) := kc.latest _
  have lv (i) : LastWrite.latest Setting.part
      (s.settings (pending.commit s.bindingAlive current)) (.uniform i) =
        LastWrite.latest Setting.part
          (uniformsOf (pending.commit s.bindingAlive current)) (.uniform i) := kx.latest _
  have ls (i) := latest_sends s (pending.commit s.bindingAlive current) false (.uniform i)
  refine Iff.trans ?_ (covers_uniforms_iff (fun k => ∃ i, k = .uniform i) (P := s.Shows q)
    ?_ ?_ ?_ ?_ h.known)
  · apply forall_congr'
    intro y
    apply forall_congr'
    rintro ⟨i, hi⟩
    rw [hi, lv, ← latest_uniforms_commit pending current s.bindingAlive]
  · intro y hy
    exact (List.mem_append.mp hy).elim (kc.uniforms y) (kp.uniforms y)
  · rintro y ⟨i, hi⟩
    rw [hP, hi, lu]
  · rintro y w ⟨i, hi⟩ hw hws
    apply h.sent
    rw [hi] at hw ⊢
    rw [ls]
    exact latest_newUniforms pending current s.bindingAlive i hw hws
  · rintro y ⟨i, hi⟩ hn
    apply h.kept
    rw [hi] at hn ⊢
    rw [ls]
    exact latest_newUniforms_none pending current s.bindingAlive i hn

/-- After a commit and a sync the two states agree exactly when the sync told all that it must. -/
theorem Hears.mirrors_iff
    (hd : pending.drawApiArgs.changed → pending.drawApiArgs.data ≠ .none) :
    s'.Mirrors q (pending.commit s.bindingAlive current) ↔
      Covers told pending.vertexArrayChanged (s.vertexArrayOf current) (s.vertexArrayOf pending) ∧
      Covers told pending.programChanged (s.programOf current) (s.programOf pending) ∧
      Covers told pending.textureBindings.changed (s.texturesOf current) (s.texturesOf pending) ∧
      ((told = false → ∀ y ∈ uniformsOf current, ∃ w ∈ uniformsOf pending, w.part = y.part) ∧
        ∀ y ∈ LastWrite.standing Setting.part (uniformsOf current ++ uniformsOf pending), y.sent) ∧
      Covers told pending.drawApiArgs.changed (s.drawOf current) (s.drawOf pending) := by
  have kc := s.kinds_settings current
  have kx (x) := s.kinds_settings x
  have ls (k) := latest_sends s (pending.commit s.bindingAlive current) false k
  rw [Mirrors, forall_kinds]
  simp only [h.settings]
  refine and_congr ?_ (and_congr ?_ (and_congr ?_ (and_congr ?_ ?_)))
  · apply h.whole_iff hP (· = .vertexArray) kc.vertexArrays
    · rintro x k rfl
      exact (kx x).latest _
    · exact vertexArrayOf_commit ..
    · rintro k rfl
      exact ls _
  · apply h.whole_iff hP (· = .program) kc.programs
    · rintro x k rfl
      exact (kx x).latest _
    · exact programOf_commit ..
    · rintro k rfl
      exact ls _
  · apply h.whole_iff hP (fun k => ∃ i, k = .texture i) kc.textures
    · rintro x k ⟨i, rfl⟩
      exact (kx x).latest _
    · exact texturesOf_commit ..
    · rintro k ⟨i, rfl⟩
      simp only [ls, texturesChanged_commit, Bool.false_or]
  · exact h.uniforms_iff hP
  · apply h.whole_iff hP (· = .draw) kc.draws
    · rintro x k rfl
      exact (kx x).latest _
    · exact drawOf_commit s current hd
    · rintro k rfl
      simp only [ls, drawChanged_commit, Bool.false_or]

end Commit

/-- A technique that was told nothing agrees after a sync by force exactly when all its uniform
variables can be sent. -/
theorem Hears.mirrors_forced {x : TechniqueState} (h : Hears s s' q (s.sends x true))
    (hn : ∀ y, ¬ s.Shows q y) :
    s'.Mirrors q x ↔ ∀ y ∈ LastWrite.standing Setting.part (uniformsOf x), y.sent := by
  have kx := s.kinds_settings x
  have ls (k) := latest_sends s x true k
  have one {y : Setting} (hs : LastWrite.latest Setting.part (s.sends x true) y.part =
      LastWrite.latest Setting.part (s.settings x) y.part) :
      s'.Shows q y ↔ LastWrite.latest Setting.part (s.settings x) y.part = some y := by
    cases hl : LastWrite.latest Setting.part (s.settings x) y.part with
    | some w => simp [h.sent y w (hs.trans hl), eq_comm]
    | none => simp [h.kept y (hs.trans hl), hn y]
  have lu (i : UInt32 ⊕ String) : LastWrite.latest Setting.part (s.settings x) (.uniform i) =
      LastWrite.latest Setting.part (uniformsOf x) (.uniform i) := kx.latest _
  have marked : newUniforms x true = (uniformsOf x).filter Setting.sent := by
    simp [newUniforms, uniformsOf]
  rw [Mirrors]
  simp only [h.settings]
  constructor
  · intro hm y hy
    obtain ⟨i, hi⟩ := kx.uniforms y ((LastWrite.standing_sublist _ _).subset hy)
    apply h.known y
    rw [hm y, hi, lu, ← hi]
    exact LastWrite.mem_standing_iff.mp hy
  · intro hu y
    apply one
    cases hy : y.part with
    | uniform i =>
      rw [ls, marked, lu]
      cases hl : LastWrite.latest Setting.part (uniformsOf x) (.uniform i) with
      | some w =>
        have hw := (LastWrite.mem_of_latest hl).2
        exact LastWrite.latest_filter hl (hu w (LastWrite.mem_standing_iff.mpr (hw ▸ hl)))
      | none =>
        apply LastWrite.latest_eq_none.mpr
        intro v hv
        exact LastWrite.latest_eq_none.mp hl v (List.mem_of_mem_filter hv)
    | vertexArray => exact (ls _).trans (kx.latest .vertexArray).symm
    | program => exact (ls _).trans (kx.latest .program).symm
    | texture i => exact (ls _).trans (kx.latest (.texture i)).symm
    | draw => exact (ls _).trans (kx.latest .draw).symm

/-- What is said of one technique among others. -/
theorem Utters.hears {l : List (ℕ × Setting)} (hu : Utters l s s') (hf : s'.fault = none)
    (ha : Attached s') (hk : s.AllKnown) (hl : ∀ e ∈ l, e.2.sent)
    (hq : s'.idOf (.baseTechnique t) = some q) {sends : List Setting}
    (hs : ∀ k, LastWrite.latest (fun e => (e.1, e.2.part)) l (t, k) =
      (LastWrite.latest Setting.part sends k).map fun y => (t, y)) : Hears s s' q sends where
  sent := fun y w hw => hu.shows_sent hf ha hq (by rw [hs, hw]; rfl)
  kept := fun y hn => hu.shows_kept hf ha hq hk (by rw [hs, hn]; rfl)
  known := fun y hy => (hu.allKnown hf ha hk hl).sent hy
  settings := settings_congr (Syncs.live hu.syncs)

end Sync

end Scene
end Yaza
