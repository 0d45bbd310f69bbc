import Yaza.Zwin.Owned

/-! What a step makes of one technique: a request on it, a commit of its virtual object, or
nothing that its buffered state shows. -/
namespace Yaza
namespace Scene

/-- The technique a request is for and what it asks of it, if it passes the checks. -/
def Request.toTechnique : Request → Option (ℕ × TechniqueRequest)
  | .bindProgram t p => some (t, .bindProgram p)
  | .bindVertexArray t va => some (t, .bindVertexArray va)
  | .bindTexture t binding name texture target sampler =>
      some (t, .bindTexture ⟨binding, name, target, texture, sampler⟩)
  | .uniformVector t type location name size count value =>
      if size = 0 ∨ 4 < size then none
      else if value.size < 4 * size.toNat * count.toNat then none
      else some (t, .uniform (.construct type location name 1 size count false value))
  | .uniformMatrix t location name col row count transpose value =>
      if col = 0 ∨ 4 < col then none
      else if row = 0 ∨ 4 < row then none
      else if value.size < 4 * col.toNat * row.toNat * count.toNat then none
      else some (t, .uniform (.construct .float location name col row count (transpose ≠ 0) value))
  | .drawArrays t mode first count => some (t, .drawArrays mode first count)
  | .drawElements t mode count type offset b =>
      (offset.decode 8).map fun bytes => (t, .drawElements mode count type (uint64OfBytes bytes) b)
  | _ => none

/-- The request an action makes on a live technique. -/
def accepted (s : Scene) (t : ℕ) : Action → Option TechniqueRequest
  | .request client r =>
      if s.fault.isNone && s.admits client r && (s.baseTechniques t).isSome then
        (r.toTechnique.filter fun q => q.1 = t).map Prod.snd
      else none
  | _ => none

/-- The virtual object of the unit of a technique. -/
def objectOfTechnique (s : Scene) (t : ℕ) : Option ℕ :=
  (s.baseTechniques t).bind fun z => s.ownerOf (.unit z.owner)

theorem objectOfTechnique_congr {s s' : Scene} (h : SameWiring s s')
    (ht : s'.baseTechniques = s.baseTechniques) (t : ℕ) :
    s'.objectOfTechnique t = s.objectOfTechnique t := by
  have ho : s'.ownerOf = s.ownerOf := congrArg Wiring.owner h.objects
  simp only [objectOfTechnique, ht, ho]

/-- The action commits the virtual object of the technique. -/
def Reaches (s : Scene) (a : Action) (t : ℕ) : Prop :=
  ∃ v, s.committedBy a = some v ∧ s.objectOfTechnique t = some v

/-- A commit asks nothing of a technique. -/
theorem reaches_accepted {s : Scene} {a : Action} {t : ℕ} (h : s.Reaches a t) :
    s.accepted t a = none := by
  obtain ⟨v, hv, -⟩ := h
  unfold committedBy at hv
  split at hv
  · simp [accepted, Request.toTechnique]
  · rfl
  · cases hv

/-- A technique without its proxy and its committed bindings: the former comes and goes with the
session, and a sync drops the latter when they expire. -/
def core (z : GlBaseTechnique) : GlBaseTechnique :=
  { z with proxy := none, current.textureBindings.list := [] }

/-- `z'` is `z` but for its proxy, and but for committed bindings that have expired. -/
structure Trimmed (alive : TextureBinding → Bool) (z z' : GlBaseTechnique) : Prop where
  same : bareTechnique alive z' = bareTechnique alive z
  sub : z'.current.textureBindings.list.Sublist z.current.textureBindings.list

theorem Trimmed.refl (alive : TextureBinding → Bool) (z : GlBaseTechnique) : Trimmed alive z z :=
  ⟨rfl, .refl _⟩

theorem Trimmed.trans {alive : TextureBinding → Bool} {z z' z'' : GlBaseTechnique}
    (h : Trimmed alive z z') (h' : Trimmed alive z' z'') : Trimmed alive z z'' :=
  ⟨h'.same.trans h.same, h'.sub.trans h.sub⟩

theorem Trimmed.core {alive : TextureBinding → Bool} {z z' : GlBaseTechnique}
    (h : Trimmed alive z z') : core z' = core z := by
  have hc (z : GlBaseTechnique) : Scene.core (bareTechnique alive z) = Scene.core z := rfl
  rw [← hc z', h.same, hc]

theorem postError_techniques (s : Scene) (i : ℕ) (code : ErrorCode) (text : String) :
    (s.postError i code text).baseTechniques = s.baseTechniques := by
  rcases postError_cases s i code text with h | ⟨e, h⟩ <;> rw [h]
  rfl

theorem withTechnique_techniques {s : Scene} {t : ℕ} {k : Scene → Scene}
    {f : GlBaseTechnique → GlBaseTechnique}
    (hk : (k s).baseTechniques = s.baseTechniques.modify t f) :
    (s.withTechnique t k).baseTechniques = s.baseTechniques.modify t f := by
  unfold withTechnique
  split
  · exact hk
  · next h => rw [Arena.modify_of_none (by simpa using h)]

theorem withTechnique_techniques_same {s : Scene} {t : ℕ} {k : Scene → Scene}
    (hk : (k s).baseTechniques = s.baseTechniques) :
    (s.withTechnique t k).baseTechniques = s.baseTechniques := by
  unfold withTechnique
  split
  · exact hk
  · rfl

theorem setParamater_techniques (s : Scene) (p : ℕ) (type : ParamType) (pname : UInt32)
    (arg : SamplerArg) (garbage : Bytes) :
    (s.setParamater p type pname arg garbage).baseTechniques = s.baseTechniques := by
  unfold setParamater
  split
  · exact postError_techniques ..
  · split
    · exact postError_techniques ..
    · rfl

theorem createBounded_techniques (s : Scene) (client v : ℕ) (halfSize : WlArray) :
    (s.createBounded client v halfSize).baseTechniques = s.baseTechniques := by
  have h : ((s.newBounded client v).configure s.nextId halfSize).baseTechniques =
      s.baseTechniques := by
    unfold configure
    split
    · exact postError_techniques ..
    · rfl
  exact h

/-- The handlers make the checks of `toTechnique`. -/
theorem handle_techniques (s : Scene) (client : ℕ) {r : Request} (hr : r.plain) :
    (s.handle client r).baseTechniques =
      match r.toTechnique with
      | none => s.baseTechniques
      | some (t, q) => s.baseTechniques.modify t fun z => z.request q := by
  cases r with
  | createVirtualObject | createRenderingUnit | createGlBaseTechnique | commit => cases hr
  | uniformVector t type location name size count value =>
    simp only [handle, Request.toTechnique]
    by_cases h1 : size = 0 ∨ 4 < size
    · rw [if_pos h1]
      apply withTechnique_techniques_same
      rw [uniformVector, if_pos h1, postError_techniques]
    · by_cases h2 : value.size < 4 * size.toNat * count.toNat
      · rw [if_neg h1, if_pos h2]
        apply withTechnique_techniques_same
        rw [uniformVector, if_neg h1, if_pos h2, postError_techniques]
      · rw [if_neg h1, if_neg h2]
        apply withTechnique_techniques
        rw [uniformVector, if_neg h1, if_neg h2]
        rfl
  | uniformMatrix t location name col row count transpose value =>
    simp only [handle, Request.toTechnique]
    by_cases h1 : col = 0 ∨ 4 < col
    · rw [if_pos h1]
      apply withTechnique_techniques_same
      rw [uniformMatrix, if_pos h1, postError_techniques]
    · by_cases h2 : row = 0 ∨ 4 < row
      · rw [if_neg h1, if_pos h2]
        apply withTechnique_techniques_same
        rw [uniformMatrix, if_neg h1, if_pos h2, postError_techniques]
      · by_cases h3 : value.size < 4 * col.toNat * row.toNat * count.toNat
        · rw [if_neg h1, if_neg h2, if_pos h3]
          apply withTechnique_techniques_same
          rw [uniformMatrix, if_neg h1, if_neg h2, if_pos h3, postError_techniques]
        · rw [if_neg h1, if_neg h2, if_neg h3]
          apply withTechnique_techniques
          rw [uniformMatrix, if_neg h1, if_neg h2, if_neg h3]
          rfl
  | drawElements t mode count type offset b =>
    simp only [handle, Request.toTechnique]
    cases ho : offset.decode 8 with
    | none =>
      apply withTechnique_techniques_same
      rw [drawElements, ho]
      exact postError_techniques ..
    | some bytes =>
      apply withTechnique_techniques
      rw [drawElements, ho]
      rfl
  | getBounded v halfSize => exact createBounded_techniques ..
  | ackConfigure b serial =>
    simp only [handle, ackConfigure, Request.toTechnique]
    split
    · rfl
    · split <;> rfl
  | setRegion b region =>
    simp only [handle, setRegion, Request.toTechnique]
    split
    · rfl
    · split <;> rfl
  | addCuboid region halfSize center quat =>
    simp only [handle, addCuboid, Request.toTechnique]
    split
    · exact postError_techniques ..
    · exact postError_techniques ..
    · exact postError_techniques ..
    · rfl
  | parameterF p pname param =>
    simp only [handle, parameterF, Request.toTechnique]
    split
    · exact postError_techniques ..
    · exact setParamater_techniques ..
  | parameterI | parameterV => exact setParamater_techniques ..
  | vertexAttribPointer va index size type normalized stride offset b =>
    simp only [handle, vertexAttribPointer, Request.toTechnique]
    split
    · exact postError_techniques ..
    · rfl
  | _ => rfl

/-- The techniques left are as they were. -/
def Erases (s s' : Scene) : Prop :=
  ∀ t z, s'.baseTechniques t = some z → s.baseTechniques t = some z

theorem Erases.trans {s s' s'' : Scene} (h : Erases s s') (h' : Erases s' s'') : Erases s s'' :=
  fun t z hz => h t z (h' t z hz)

theorem Erases.of_eq {s s' : Scene} (h : s'.baseTechniques = s.baseTechniques) : Erases s s' :=
  fun _ _ hz => h ▸ hz

theorem setTechnique_techniques (s : Scene) (u : ℕ) (t : Option ℕ) :
    (s.setTechnique u t).baseTechniques = s.baseTechniques := by
  unfold setTechnique
  split
  · rfl
  · split
    · exact postError_techniques ..
    · rfl

theorem deleteTechnique_erases (s : Scene) (t : ℕ) : Erases s (s.deleteTechnique t) := by
  unfold deleteTechnique
  split
  · exact .of_eq rfl
  · next x _ =>
    intro i z hz
    simp only [dropTechnique, setTechnique_techniques, Arena.erase_apply,
      Option.ite_none_left_eq_some] at hz
    exact hz.2

theorem deleteRenderingUnit_erases (s : Scene) (u : ℕ) : Erases s (s.deleteRenderingUnit u) := by
  unfold deleteRenderingUnit
  split
  · exact .of_eq rfl
  · next y _ =>
    have h1 : Erases s (s.removeRenderingUnit y.owner u) :=
      .of_eq (removeRenderingUnit_techniques s y.owner u).1
    refine h1.trans ?_
    cases y.technique with
    | none => exact .of_eq rfl
    | some t => exact deleteTechnique_erases _ t

theorem deleteUnits_erases (s : Scene) (l : List ℕ) : Erases s (l.foldl deleteRenderingUnit s) := by
  induction l generalizing s with
  | nil => exact .of_eq rfl
  | cons u l ih => exact (deleteRenderingUnit_erases s u).trans (ih _)

theorem deleteBoundedApp_erases (s : Scene) (b : ℕ) : Erases s (s.deleteBoundedApp b) := by
  unfold deleteBoundedApp
  split <;> exact .of_eq rfl

theorem deleteVirtualObject_erases (s : Scene) (v : ℕ) : Erases s (s.deleteVirtualObject v) := by
  unfold deleteVirtualObject
  split
  · exact .of_eq rfl
  · next x _ =>
    have h1 : Erases s (s.markDestroying v) := .of_eq rfl
    refine (h1.trans (deleteUnits_erases _ x.renderingUnitList)).trans ?_
    cases x.app with
    | none => exact .of_eq rfl
    | some b => exact deleteBoundedApp_erases _ b

theorem destroyResource_erases (s : Scene) (r : ℕ) : Erases s (s.destroyResource r) := by
  unfold destroyResource
  split
  · exact .of_eq rfl
  · next x _ =>
    suffices h : Erases s (s.deleteObject r x.interface) from h
    cases x.interface with
    | virtualObject => exact deleteVirtualObject_erases s r
    | bounded =>
      simp only [deleteObject]
      split
      · exact deleteBoundedApp_erases s r
      · exact .of_eq rfl
    | renderingUnit =>
      simp only [deleteObject]
      split
      · exact deleteRenderingUnit_erases s r
      · exact .of_eq rfl
    | baseTechnique =>
      simp only [deleteObject]
      split
      · exact deleteTechnique_erases s r
      · exact .of_eq rfl
    | glProgram | glShader | glVertexArray | glBuffer | glTexture | glSampler | region
    | shmBuffer => exact .of_eq rfl

theorem SyncStep.trimmed {A : ℕ → Prop} {C : Call → Prop} {s s' : Scene} (h : SyncStep A C s s')
    {t : ℕ} {z' : GlBaseTechnique} (hz' : s'.baseTechniques t = some z') :
    ∃ z, s.baseTechniques t = some z ∧ Trimmed s.bindingAlive z z' := by
  cases h with
  | create h mk p r hr hp hh hc hm =>
    cases h with
    | baseTechnique i =>
      simp only [giveProxy, Arena.modify_apply] at hz'
      split at hz'
      · obtain ⟨z, hz, rfl⟩ := Option.map_eq_some_iff.mp hz'
        exact ⟨z, hz, rfl, .refl _⟩
      · exact ⟨z', hz', .refl _ _⟩
    | _ => exact ⟨z', hz', .refl _ _⟩
  | dropExpired i =>
    simp only [Scene.dropExpired, Arena.modify_apply] at hz'
    split at hz'
    · obtain ⟨z, hz, rfl⟩ := Option.map_eq_some_iff.mp hz'
      refine ⟨z, hz, ?_, List.filter_sublist⟩
      simp [bareTechnique, TextureBindingList.removeExpired]
    · exact ⟨z', hz', .refl _ _⟩
  | _ => exact ⟨z', hz', .refl _ _⟩

theorem Syncs.trimmed {A : ℕ → Prop} {C : Call → Prop} {s s' : Scene} (h : Syncs A C s s')
    {t : ℕ} {z' : GlBaseTechnique} (hz' : s'.baseTechniques t = some z') :
    ∃ z, s.baseTechniques t = some z ∧ Trimmed s.bindingAlive z z' := by
  induction h generalizing z' with
  | refl => exact ⟨z', hz', .refl _ _⟩
  | tail hsteps hstep ih =>
    obtain ⟨z₁, hz₁, h1⟩ := hstep.trimmed hz'
    obtain ⟨z, hz, h2⟩ := ih hz₁
    rw [bindingAlive_of_content (Syncs.content hsteps)] at h1
    exact ⟨z, hz, h2.trans h1⟩

theorem peerDiscover_trimmed {s : Scene} (hg : s.forest.Registered) (connected : Bool) {t : ℕ}
    {z' : GlBaseTechnique} (hz' : (s.peerDiscover connected).baseTechniques t = some z') :
    ∃ z, s.baseTechniques t = some z ∧ Trimmed s.bindingAlive z z' := by
  rcases peerDiscover_cases hg connected with ⟨h, -⟩ | ⟨-, h⟩
  · rw [h] at hz'
    exact ⟨z', hz', .refl _ _⟩
  · exact Syncs.trimmed h hz'

theorem sessionDisconnect_trimmed {s : Scene} {t : ℕ} {z' : GlBaseTechnique}
    (hz' : s.sessionDisconnect.baseTechniques t = some z') :
    ∃ z, s.baseTechniques t = some z ∧ Trimmed s.bindingAlive z z' := by
  unfold sessionDisconnect at hz'
  split at hz'
  · simp only [dropProxies, Arena.mapAll_apply] at hz'
    obtain ⟨z, hz, rfl⟩ := Option.map_eq_some_iff.mp hz'
    exact ⟨z, hz, rfl, .refl _⟩
  · exact ⟨z', hz', .refl _ _⟩

/-- What a step makes of a technique that was there: what the action says, less bindings that have
expired. -/
structure TrimmedStep (s : Scene) (a : Action) (t : ℕ) (z z' : GlBaseTechnique) : Prop where
  reached : s.Reaches a t → Trimmed s.bindingAlive (z.commit s.bindingAlive) z'
  other : ¬ s.Reaches a t →
    Trimmed s.bindingAlive (match s.accepted t a with
      | none => z
      | some q => z.request q) z'

/-- A step that commits nothing and asks nothing of the technique. -/
theorem TrimmedStep.of_trimmed {s : Scene} {a : Action} {t : ℕ} {z z' : GlBaseTechnique}
    (hc : s.committedBy a = none) (ha : s.accepted t a = none)
    (h : Trimmed s.bindingAlive z z') : TrimmedStep s a t z z' where
  reached := by rintro ⟨v, hv, -⟩; simp [hc] at hv
  other := fun _ => by simpa [ha] using h

theorem commitVirtualObject_trimmed {s : Scene} (hs : Tree s) (hw : Wired s) {v : ℕ}
    (hv : (s.virtualObjects v).isSome) {t : ℕ} {z' : GlBaseTechnique}
    (hz' : (s.commitVirtualObject v).baseTechniques t = some z') :
    ∃ z, s.baseTechniques t = some z ∧
      Trimmed s.bindingAlive
        (if s.objectOfTechnique t = some v then z.commit s.bindingAlive else z) z' := by
  have hc := (commitState_commits_true s v).tree hs
  obtain ⟨z₁, hz₁, he⟩ := Syncs.trimmed (syncIfSession_steps hc.registered v) hz'
  rw [bindingAlive_of_skeleton (commitState_commits_true s v).skeleton] at he
  rw [commitState_techniques hw hv, Arena.mapAll_apply, Option.map_eq_some_iff] at hz₁
  obtain ⟨z, hz, rfl⟩ := hz₁
  refine ⟨z, hz, ?_⟩
  have ho : s.objectOfTechnique t = s.ownerOf (.unit z.owner) := by
    simp [objectOfTechnique, hz]
  rw [ho]
  exact he

/-- A commit of the object `v`, with what it makes of each technique. -/
theorem TrimmedStep.of_commit {s : Scene} {a : Action} {t v : ℕ} {z z' : GlBaseTechnique}
    (hc : s.committedBy a = some v) (ha : s.accepted t a = none)
    (h : Trimmed s.bindingAlive
      (if s.objectOfTechnique t = some v then z.commit s.bindingAlive else z) z') :
    TrimmedStep s a t z z' where
  reached := by
    rintro ⟨w, hw, ht⟩
    rw [hc, Option.some.injEq] at hw
    rwa [if_pos (hw ▸ ht)] at h
  other := fun hn => by
    rw [if_neg fun ht => hn ⟨v, hc, ht⟩] at h
    simpa [ha] using h

theorem handle_trimmed {s : Scene} (hs : Tree s) (hw : Wired s) (hf : s.fault = none)
    {client : ℕ} {r : Request} (hr : s.admits client r) {t : ℕ} {z' : GlBaseTechnique}
    (hz' : (s.handle client r).baseTechniques t = some z') :
    (t = s.nextId ∧ ∃ u, z' = { owner := u }) ∨
      ∃ z, s.baseTechniques t = some z ∧ TrimmedStep s (.request client r) t z z' := by
  by_cases hp : r.plain
  · have hc : s.committedBy (.request client r) = none := by
      cases r <;> first | rfl | cases hp
    have hnr : ¬ s.Reaches (.request client r) t := by rintro ⟨v, hv, -⟩; simp [hc] at hv
    rw [handle_techniques s client hp] at hz'
    right
    cases hq : r.toTechnique with
    | none =>
      rw [hq] at hz'
      exact ⟨z', hz', .of_trimmed hc (by simp [accepted, hq]) (.refl _ _)⟩
    | some tq =>
      obtain ⟨t₀, q⟩ := tq
      simp only [hq, Arena.modify_apply] at hz'
      split at hz'
      · next ht =>
        obtain ⟨z, hz, rfl⟩ := Option.map_eq_some_iff.mp hz'
        refine ⟨z, hz, fun h => absurd h hnr, fun _ => ?_⟩
        have ha : s.accepted t (.request client r) = some q := by
          simp [accepted, hf, hr, hq, ← ht, hz, Option.filter]
        rw [ha]
        exact .refl _ _
      · next ht =>
        refine ⟨z', hz', .of_trimmed hc ?_ (.refl _ _)⟩
        simp [accepted, hq, Ne.symm ht]
  have hres := hr
  simp only [admits, Bool.and_eq_true, List.all_eq_true, decide_eq_true_eq] at hres
  cases r with
  | createVirtualObject | createRenderingUnit =>
    exact .inr ⟨z', hz', .of_trimmed rfl (by simp [accepted, Request.toTechnique]) (.refl _ _)⟩
  | createGlBaseTechnique u =>
    have ha : s.accepted t (.request client (.createGlBaseTechnique u)) = none := by
      simp [accepted, Request.toTechnique]
    simp only [handle, createGlBaseTechnique] at hz'
    split at hz'
    · simp only [Arena.set_apply] at hz'
      split at hz'
      · next ht => cases hz'; exact .inl ⟨ht, u, rfl⟩
      · exact .inr ⟨z', hz', .of_trimmed rfl ha (.refl _ _)⟩
    · exact .inr ⟨z', hz', .of_trimmed rfl ha (.refl _ _)⟩
  | commit v =>
    have hv := hs.objects v client (hres.2 _ List.mem_cons_self)
    obtain ⟨z, hz, he⟩ := commitVirtualObject_trimmed hs hw hv hz'
    exact .inr ⟨z, hz, .of_commit (by simp [committedBy, hf, hr])
      (by simp [accepted, Request.toTechnique]) he⟩
  | _ => exact absurd trivial hp

theorem moveApp_trimmed {s : Scene} (hs : Tree s) (hw : Wired s) (hf : s.fault = none) (b : ℕ)
    (polar azimuthal : ℚ) {t : ℕ} {z' : GlBaseTechnique}
    (hz' : (s.moveApp b polar azimuthal).baseTechniques t = some z') :
    ∃ z, s.baseTechniques t = some z ∧ TrimmedStep s (.moveApp b polar azimuthal) t z z' := by
  cases hx : s.boundedApps b with
  | none =>
    rw [moveApp, hx] at hz'
    exact ⟨z', hz', .of_trimmed (by simp [committedBy, hx, Arena.lock]) rfl (.refl _ _)⟩
  | some x =>
    simp only [moveApp, hx] at hz'
    have hs1 := hs.same (turnApp_same s b x polar azimuthal)
    have hsw := turnApp_wiring hx polar azimuthal
    have hw1 := hw.same hsw (Nat.le_refl _)
    cases hv : s.virtualObjects x.virtualObject with
    | none =>
      have hc : s.committedBy (.moveApp b polar azimuthal) = none := by
        simp [committedBy, hx, Arena.lock, hv]
      have hc1 := (commitState_commits_true _ x.virtualObject).tree hs1
      obtain ⟨z, hz, he⟩ :=
        Syncs.trimmed (syncIfSession_steps hc1.registered x.virtualObject) hz'
      rw [commitState, show (s.turnApp b x polar azimuthal).virtualObjects _ = none from hv]
        at hz he
      exact ⟨z, hz, .of_trimmed hc rfl he⟩
    | some o =>
      obtain ⟨z, hz, he⟩ := commitVirtualObject_trimmed hs1 hw1 (by simp [turnApp, hv]) hz'
      rw [objectOfTechnique_congr hsw rfl] at he
      exact ⟨z, hz, .of_commit (by simp [committedBy, hf, hx, Arena.lock, hv]) rfl he⟩

/-- What a step makes of each technique: it is new, or it was there and did what the action says. -/
theorem step_trimmed {s : Scene} (hs : Tree s) (hw : Wired s) (a : Action) {t : ℕ}
    {z' : GlBaseTechnique} (hz' : (s.step a).baseTechniques t = some z') :
    (t = s.nextId ∧ ∃ u, z' = { owner := u }) ∨
      ∃ z, s.baseTechniques t = some z ∧ TrimmedStep s a t z z' := by
  cases hf : s.fault with
  | some f =>
    rw [step, if_pos (by simp [hf])] at hz'
    have hc : s.committedBy a = none := by unfold committedBy; split <;> simp [hf]
    have ha : s.accepted t a = none := by unfold accepted; split <;> simp [hf]
    exact .inr ⟨z', hz', .of_trimmed hc ha (.refl _ _)⟩
  | none =>
    rw [step, if_neg (by simp [hf])] at hz'
    cases a with
    | request client r =>
      simp only [act] at hz'
      split at hz'
      · next hr => exact handle_trimmed hs hw hf hr hz'
      · next hr =>
        refine .inr ⟨z', hz', .of_trimmed ?_ (by simp [accepted, hr]) (.refl _ _)⟩
        cases r <;> simp_all [committedBy]
    | destroy client r =>
      simp only [act] at hz'
      split at hz'
      · exact .inr ⟨z', destroyResource_erases s r t z' hz', .of_trimmed rfl rfl (.refl _ _)⟩
      · exact .inr ⟨z', hz', .of_trimmed rfl rfl (.refl _ _)⟩
    | peerDiscover connected =>
      obtain ⟨z, hz, he⟩ := peerDiscover_trimmed hs.registered connected hz'
      exact .inr ⟨z, hz, .of_trimmed rfl rfl he⟩
    | sessionDisconnect =>
      obtain ⟨z, hz, he⟩ := sessionDisconnect_trimmed hz'
      exact .inr ⟨z, hz, .of_trimmed rfl rfl he⟩
    | frameTimer busyness =>
      simp only [act, frameTimer] at hz'
      split at hz' <;> exact .inr ⟨z', hz', .of_trimmed rfl rfl (.refl _ _)⟩
    | moveApp b polar azimuthal => exact .inr (moveApp_trimmed hs hw hf b polar azimuthal hz')

/-- The same, but for the committed bindings. -/
structure TechniqueStep (s : Scene) (a : Action) (t : ℕ) (z z' : GlBaseTechnique) : Prop where
  reached : s.Reaches a t → core z' = core (z.commit s.bindingAlive)
  other : ¬ s.Reaches a t →
    core z' = core (match s.accepted t a with
      | none => z
      | some q => z.request q)

theorem TrimmedStep.technique {s : Scene} {a : Action} {t : ℕ} {z z' : GlBaseTechnique}
    (h : TrimmedStep s a t z z') : TechniqueStep s a t z z' where
  reached := fun hr => (h.reached hr).core
  other := fun hr => (h.other hr).core

theorem step_technique {s : Scene} (hs : Tree s) (hw : Wired s) (a : Action) {t : ℕ}
    {z' : GlBaseTechnique} (hz' : (s.step a).baseTechniques t = some z') :
    (t = s.nextId ∧ ∃ u, z' = { owner := u }) ∨
      ∃ z, s.baseTechniques t = some z ∧ TechniqueStep s a t z z' := by
  rcases step_trimmed hs hw a hz' with h | ⟨z, hz, h⟩
  · exact .inl h
  · exact .inr ⟨z, hz, h.technique⟩

end Scene
end Yaza
