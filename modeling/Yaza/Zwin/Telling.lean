import Yaza.Zwin.Settings

/-! What the remote techniques are told by a sync: the settings that are marked, or all of them, of
each technique it comes to, in order; nothing else that a sync does is about a technique. -/
namespace Yaza
namespace Scene

/-- The calls that set a part of a remote technique. -/
def spoken (s : Scene) : List Call := s.remote.calls.filter fun c => c.part?.isSome

/-- The call that makes the setting of the technique. -/
def callOf (s : Scene) (e : ℕ × Setting) : Option Call :=
  (s.idOf (.baseTechnique e.1)).bind fun technique => s.callFor technique e.2

/-- The settings were made, in this order, and no others. -/
structure Utters (l : List (ℕ × Setting)) (s s' : Scene) : Prop where
  syncs : AllSyncs s s'
  spoken : s'.fault = none → ∃ cs, s'.spoken = s.spoken ++ cs ∧ cs.map some = l.map s'.callOf

section Calls
variable {s s' : Scene} {technique : ℕ} {y : Setting} {c : Call}

theorem callFor_spec (h : s.callFor technique y = some c) :
    c.part? = some (technique, y.part) ∧ c.shader? = none := by
  cases y with
  | vertexArray va =>
    obtain ⟨i, -, rfl⟩ := Option.map_eq_some_iff.mp h
    exact ⟨rfl, rfl⟩
  | program p =>
    obtain ⟨i, -, rfl⟩ := Option.map_eq_some_iff.mp h
    exact ⟨rfl, rfl⟩
  | texture b =>
    obtain ⟨i, -, h⟩ := Option.bind_eq_some_iff.mp h
    obtain ⟨j, -, rfl⟩ := Option.map_eq_some_iff.mp h
    exact ⟨rfl, rfl⟩
  | drawElements mode count type offset b =>
    obtain ⟨i, -, rfl⟩ := Option.map_eq_some_iff.mp h
    exact ⟨rfl, rfl⟩
  | _ =>
    cases h
    exact ⟨rfl, rfl⟩

theorem callFor_congr (hi : ∀ h ∈ y.holders, s'.idOf h = s.idOf h) :
    s'.callFor technique y = s.callFor technique y := by
  cases y with
  | vertexArray va => rw [callFor, callFor, hi _ List.mem_cons_self]
  | program p => rw [callFor, callFor, hi _ List.mem_cons_self]
  | texture b =>
    rw [callFor, callFor, hi _ List.mem_cons_self, hi _ (List.mem_cons_of_mem _ List.mem_cons_self)]
  | drawElements mode count type offset b => rw [callFor, callFor, hi _ List.mem_cons_self]
  | _ => rfl

/-- A call gives the ids of the objects that its setting refers to. -/
theorem ids_of_callFor (h : s.callFor technique y = some c) :
    (∀ x ∈ y.holders, ∃ i ∈ c.given, s.idOf x = some i) ∧
      ∀ i ∈ c.given, ∃ x ∈ y.holders, s.idOf x = some i := by
  cases y with
  | vertexArray va =>
    obtain ⟨i, hi, rfl⟩ := Option.map_eq_some_iff.mp h
    simp [Setting.holders, Call.given, hi]
  | program p =>
    obtain ⟨i, hi, rfl⟩ := Option.map_eq_some_iff.mp h
    simp [Setting.holders, Call.given, hi]
  | texture b =>
    obtain ⟨i, hi, h⟩ := Option.bind_eq_some_iff.mp h
    obtain ⟨j, hj, rfl⟩ := Option.map_eq_some_iff.mp h
    simp [Setting.holders, Call.given, hi, hj]
  | drawElements mode count type offset b =>
    obtain ⟨i, hi, rfl⟩ := Option.map_eq_some_iff.mp h
    simp [Setting.holders, Call.given, hi]
  | _ =>
    cases h
    simp [Setting.holders, Call.given]

/-- Where the ids that a call gives are the same, the call is made for the same setting. -/
theorem callFor_of_ids (hi : ∀ x, ∀ i ∈ c.given, s.idOf x = some i → s'.idOf x = some i)
    (h : s.callFor technique y = some c) : s'.callFor technique y = some c := by
  rw [← h]
  apply callFor_congr
  intro x hx
  obtain ⟨i, hm, he⟩ := (ids_of_callFor h).1 x hx
  rw [he, hi x i hm he]

/-- The ids stay as they are once they are there. -/
theorem callFor_mono (hi : ∀ x i, s.idOf x = some i → s'.idOf x = some i)
    (h : s.callFor technique y = some c) : s'.callFor technique y = some c :=
  callFor_of_ids (fun x i _ => hi x i) h

theorem Syncs.idOf {A : ℕ → Prop} {C : Call → Prop} (h : Syncs A C s s') {x : Holder} {i : ℕ}
    (hi : s.idOf x = some i) : s'.idOf x = some i := by
  obtain ⟨p, hp, rfl⟩ := Option.map_eq_some_iff.mp hi
  exact Option.map_eq_some_iff.mpr ⟨p, Syncs.proxyOf h hp, rfl⟩

theorem Syncs.callOf {A : ℕ → Prop} {C : Call → Prop} (h : Syncs A C s s') {e : ℕ × Setting}
    (he : s.callOf e = some c) : s'.callOf e = some c := by
  obtain ⟨i, hi, h1⟩ := Option.bind_eq_some_iff.mp he
  exact Option.bind_eq_some_iff.mpr
    ⟨i, Syncs.idOf h hi, callFor_mono (fun _ _ => Syncs.idOf h) h1⟩

theorem Syncs.map_callOf {A : ℕ → Prop} {C : Call → Prop} (h : Syncs A C s s')
    {l : List (ℕ × Setting)} {cs : List Call} (hl : cs.map some = l.map s.callOf) :
    cs.map some = l.map s'.callOf := by
  rw [hl]
  apply List.map_congr_left
  intro e he
  have h1 : s.callOf e ∈ cs.map some := hl ▸ List.mem_map_of_mem he
  obtain ⟨c, -, hc⟩ := List.mem_map.mp h1
  rw [← hc]
  exact (Syncs.callOf h hc.symm).symm

end Calls

section Utters
variable {l l' : List (ℕ × Setting)} {s s' s'' : Scene}

theorem Utters.trans (h : Utters l s s') (h' : Utters l' s' s'') : Utters (l ++ l') s s'' where
  syncs := Relation.ReflTransGen.trans h.syncs h'.syncs
  spoken := fun hf => by
    obtain ⟨cs, h1, h2⟩ := h.spoken (Syncs.fault_none h'.syncs hf)
    obtain ⟨cs', h3, h4⟩ := h'.spoken hf
    refine ⟨cs ++ cs', by rw [h3, h1, List.append_assoc], ?_⟩
    rw [List.map_append, List.map_append, Syncs.map_callOf h'.syncs h2, h4]

/-- Nothing is said of a technique. -/
theorem utters_nothing (h : AllSyncs s s') (he : s'.spoken = s.spoken) : Utters [] s s' where
  syncs := h
  spoken := fun _ => ⟨[], by rw [he, List.append_nil], rfl⟩

theorem SyncStep.silent {A : ℕ → Prop} (h : SyncStep A (fun c => c.part? = none) s s') :
    s'.spoken = s.spoken := by
  cases h with
  | call c hc hn => simp [Scene.spoken, Scene.call, Remote.call, hc]
  | create h mk p r hr hp hh hc hm =>
    obtain ⟨channel, -, -, rfl⟩ := create_eq_some hr
    simp [Scene.spoken, hc]
  | _ => rfl

/-- What makes no call on a technique says nothing of it. -/
theorem utters_silent (h : Syncs (fun _ => True) (fun c => c.part? = none) s s') :
    Utters [] s s' := by
  apply utters_nothing
  · exact Syncs.mono (fun _ _ => trivial) h
  · exact Path.preserves (P := fun s' => s'.spoken = s.spoken)
      (fun _ _ h hp => h.silent.trans hp) h rfl

theorem utters_crash (h : AllSyncs s s') (hf : s'.fault ≠ none) : Utters l s s' where
  syncs := h
  spoken := fun hn => absurd hn hf

/-- The rounds of a loop, in whatever scene they find. -/
theorem Utters.foldl {ι : Type} {f : Scene → ι → Scene} {g : ι → List (ℕ × Setting)}
    {as : List ι} (hf : ∀ s', AllSyncs s s' → ∀ a ∈ as, Utters (g a) s' (f s' a)) :
    Utters (as.flatMap g) s (as.foldl f s) := by
  induction as generalizing s with
  | nil => exact utters_nothing .refl rfl
  | cons a as ih =>
    have h1 := hf s .refl a List.mem_cons_self
    have h2 := ih (s := f s a) fun s' h b hb =>
      hf s' (Relation.ReflTransGen.trans h1.syncs h) b (List.mem_cons_of_mem a hb)
    exact h1.trans h2

/-- What follows on the id of a proxy that is there while the program runs. -/
theorem Utters.withRemoteId {h : Holder} (hp : s.Ready h) {k : ℕ → Scene}
    (hk : ∀ i, s.idOf h = some i → Utters l s (k i)) : Utters l s (s.withRemoteId h k) := by
  unfold Scene.withRemoteId
  split
  · next hn =>
    have hf : s.fault ≠ none := fun hf => by
      have := hp hf
      rw [hn] at this
      cases this
    rw [crash_of_fault (Option.isSome_iff_ne_none.mpr hf)]
    exact utters_crash .refl hf
  · next p hq =>
    apply hk
    rw [Scene.idOf, hq]
    rfl

/-- A call that makes one setting. -/
theorem utters_call {t technique : ℕ} (ht : s.idOf (.baseTechnique t) = some technique)
    {y : Setting} {c : Call} (hc : s.callFor technique y = some c) :
    Utters [(t, y)] s (s.call c) := by
  obtain ⟨h1, h2⟩ := callFor_spec hc
  refine ⟨call_syncs s trivial h2, fun _ => ⟨[c], ?_, ?_⟩⟩
  · simp [Scene.spoken, Scene.call, Remote.call, h1]
  · have hs : s.callOf (t, y) = some c := by
      rw [Scene.callOf, ht]
      exact hc
    simpa using (Syncs.callOf (call_syncs (A := fun _ => True) (C := fun _ => True) s trivial h2)
      hs).symm

end Utters

theorem part_of_technique {c : Call} (h : c.technique? = none) : c.part? = none := by
  cases c <;> first | rfl | cases h

section Technique
variable {s : Scene} (hs : s.remote.hasSession) {t technique : ℕ}
  (ht : s.idOf (.baseTechnique t) = some technique)

/-- The settings of the technique `t`. -/
def ofTechnique (t : ℕ) (l : List Setting) : List (ℕ × Setting) := l.map fun y => (t, y)

theorem ofTechnique_append (t : ℕ) (l l' : List Setting) :
    ofTechnique t (l ++ l') = ofTechnique t l ++ ofTechnique t l' := List.map_append

include hs ht

theorem syncBoundVertexArray_utters (x : TechniqueState) (force : Bool) :
    Utters (ofTechnique t (if force || x.vertexArrayChanged then s.vertexArrayOf x else [])) s
      (s.syncBoundVertexArray technique x force) := by
  unfold syncBoundVertexArray vertexArrayOf
  cases hl : s.glVertexArrays.lock x.vertexArray with
  | none =>
    simp only [Option.toList_none, List.map_nil, ite_self]
    exact utters_nothing .refl rfl
  | some va =>
    obtain ⟨k1, r1⟩ := syncVertexArray_syncs (A := fun _ => True) (C := fun c => c.part? = none)
      (fun _ => part_of_technique) hs va force
    have h1 := utters_silent k1
    have t1 := Syncs.idOf k1 ht
    unfold tellVertexArray
    split
    · apply h1.trans
      apply Utters.withRemoteId r1
      intro i hi
      apply utters_call t1
      rw [callFor, hi]
      rfl
    · exact h1

theorem syncBoundProgram_utters (x : TechniqueState) (force : Bool) :
    Utters (ofTechnique t (if force || x.programChanged then s.programOf x else [])) s
      (s.syncBoundProgram technique x force) := by
  unfold syncBoundProgram programOf
  cases hl : s.glPrograms.lock x.program with
  | none =>
    simp only [Option.toList_none, List.map_nil, ite_self]
    exact utters_nothing .refl rfl
  | some p =>
    obtain ⟨k1, r1⟩ := syncProgram_syncs (A := fun _ => True) (C := fun c => c.part? = none)
      (fun _ => part_of_technique) hs p force
    have h1 := utters_silent k1
    have t1 := Syncs.idOf k1 ht
    unfold tellProgram
    split
    · apply h1.trans
      apply Utters.withRemoteId r1
      intro i hi
      apply utters_call t1
      rw [callFor, hi]
      rfl
    · exact h1

theorem syncTextureBinding_utters (force changed : Bool) (b : TextureBinding) :
    Utters (ofTechnique t (if force || changed then [.texture b] else [])) s
      (syncTextureBinding technique force changed s b) := by
  obtain ⟨k1, r1⟩ := syncTexture_syncs (A := fun _ => True) (C := fun c => c.part? = none)
    (fun _ => part_of_technique) hs b.texture force
  have s1 := k1.hasSession.trans hs
  obtain ⟨k2, r2⟩ := syncSampler_syncs (A := fun _ => True) (C := fun c => c.part? = none)
    (fun _ => part_of_technique) s1 b.sampler force
  have h1 := (utters_silent k1).trans (utters_silent k2)
  have t2 := Syncs.idOf k2 (Syncs.idOf k1 ht)
  unfold syncTextureBinding tellTexture
  split
  · apply h1.trans
    apply Utters.withRemoteId (k2.ready r1)
    intro i hi
    apply Utters.withRemoteId r2
    intro j hj
    apply utters_call t2
    rw [callFor, hi, hj]
    rfl
  · exact h1

theorem syncTextureBindings_utters (l : TextureBindingList) (force : Bool) :
    Utters (ofTechnique t (if force || l.changed then
        (l.removeExpired s.bindingAlive).list.map .texture else [])) s
      (s.syncTextureBindings t technique l force) := by
  have k1 : AllSyncs s (s.dropExpired t) := .single (.dropExpired s t)
  have h1 := utters_nothing k1 rfl
  have h2 : Utters ((l.removeExpired s.bindingAlive).list.flatMap fun b =>
      ofTechnique t (if force || l.changed then [.texture b] else [])) (s.dropExpired t)
      ((l.removeExpired s.bindingAlive).list.foldl
        (syncTextureBinding technique force l.changed) (s.dropExpired t)) := by
    apply Utters.foldl
    intro s' h b _
    have k2 : AllSyncs s s' := Relation.ReflTransGen.trans k1 h
    exact syncTextureBinding_utters ((Syncs.hasSession k2).trans hs) (Syncs.idOf k2 ht) force
      l.changed b
  have he : ((l.removeExpired s.bindingAlive).list.flatMap fun b =>
      ofTechnique t (if force || l.changed then [.texture b] else [])) =
      ofTechnique t (if force || l.changed then
        (l.removeExpired s.bindingAlive).list.map .texture else []) := by
    split
    · rw [ofTechnique, List.map_map]
      exact List.flatMap_pure_eq_map _ _
    · simp [ofTechnique]
  rw [← he]
  exact h1.trans h2

omit hs ht in
/-- The calls for the uniform variables, one for each that is told. -/
theorem syncCalls_callFor (x : TechniqueState) (force : Bool) :
    (UniformVariableList.syncCalls technique force x.uniformVars).map some =
      (newUniforms x force).map (s.callFor technique) := by
  have one (v : UniformVariable) : UniformVariableList.syncCall technique v =
      if v.setting.sent then s.callFor technique v.setting else none := by
    unfold UniformVariableList.syncCall UniformVariable.setting
    split
    · cases v.type <;> rfl
    · rfl
  have two (v : UniformVariable) : (s.callFor technique v.setting).isSome := by
    unfold UniformVariable.setting
    split <;> rfl
  unfold UniformVariableList.syncCalls newUniforms
  induction x.uniformVars.filter fun v => force || v.newlyComitted with
  | nil => rfl
  | cons v l ih =>
    rw [List.map_cons, List.filterMap_cons, List.filter_cons, one v]
    cases hv : v.setting.sent with
    | false => simpa using ih
    | true =>
      obtain ⟨c, hc⟩ := Option.isSome_iff_exists.mp (two v)
      simpa [hc] using ih

omit hs in
theorem syncUniforms_utters (x : TechniqueState) (force : Bool) :
    Utters (ofTechnique t (newUniforms x force)) s
      (s.callAll (UniformVariableList.syncCalls technique force x.uniformVars)) := by
  have hk (c) (hc : c ∈ UniformVariableList.syncCalls technique force x.uniformVars) :
      c.part?.isSome ∧ c.shader? = none := by
    have h1 := List.mem_map_of_mem (f := some) hc
    rw [syncCalls_callFor (s := s)] at h1
    obtain ⟨y, -, hy⟩ := List.mem_map.mp h1
    obtain ⟨h2, h3⟩ := callFor_spec hy
    exact ⟨by rw [h2]; rfl, h3⟩
  have h1 : AllSyncs s (s.callAll (UniformVariableList.syncCalls technique force x.uniformVars)) :=
    callAll_syncs s fun c hc => ⟨trivial, (hk c hc).2⟩
  refine ⟨h1, fun _ => ⟨UniformVariableList.syncCalls technique force x.uniformVars, ?_, ?_⟩⟩
  · rw [Scene.spoken, Scene.callAll, List.filter_append]
    congr 1
    exact List.filter_eq_self.mpr fun c hc => (hk c hc).1
  · apply Syncs.map_callOf h1
    rw [syncCalls_callFor (s := s), ofTechnique, List.map_map]
    apply List.map_congr_left
    intro y _
    simp [callOf, ht]

theorem syncDraw_utters (d : DrawApiArgs) (force : Bool) :
    Utters (ofTechnique t (if force || d.changed then
        (d.data.setting fun b => (s.glBuffers b).isSome).toList else [])) s
      (s.syncDraw technique d force) := by
  unfold syncDraw
  cases d.data with
  | none =>
    simp only [DrawData.setting, Option.toList_none, ite_self]
    exact utters_nothing .refl rfl
  | arrays mode first count =>
    simp only [DrawData.setting]
    split
    · exact utters_call ht rfl
    · exact utters_nothing .refl rfl
  | elements mode count type offset b =>
    simp only [DrawData.setting]
    by_cases hb : (s.glBuffers b).isSome
    · obtain ⟨k1, r1⟩ := syncBuffer_syncs (A := fun _ => True) (C := fun c => c.part? = none)
        (fun _ => part_of_technique) hs b force
      have h1 := utters_silent k1
      have t1 := Syncs.idOf k1 ht
      rw [if_pos hb, if_pos hb]
      unfold tellElements
      split
      · apply h1.trans
        apply Utters.withRemoteId r1
        intro i hi
        apply utters_call t1
        rw [callFor, hi]
        rfl
      · exact h1
    · rw [if_neg hb, if_neg hb, Option.toList_none, ite_self]
      exact utters_nothing .refl rfl

/-- The sync of a technique, once its proxy is there. -/
theorem syncState_utters (x : TechniqueState) (force : Bool) :
    Utters (ofTechnique t (s.sends x force)) s (s.syncState t technique x force) := by
  have h1 := syncBoundVertexArray_utters hs ht x force
  have h2 := syncBoundProgram_utters ((Syncs.hasSession h1.syncs).trans hs)
    (Syncs.idOf h1.syncs ht) x force
  rw [programOf_congr (Syncs.live h1.syncs)] at h2
  have k2 := (h1.trans h2).syncs
  have h3 := syncTextureBindings_utters ((Syncs.hasSession k2).trans hs) (Syncs.idOf k2 ht)
    x.textureBindings force
  rw [bindingAlive_of_live (Syncs.live k2)] at h3
  have k3 := ((h1.trans h2).trans h3).syncs
  have h4 := syncUniforms_utters (Syncs.idOf k3 ht) x force
  have k4 := (((h1.trans h2).trans h3).trans h4).syncs
  have h5 := syncDraw_utters ((Syncs.hasSession k4).trans hs) (Syncs.idOf k4 ht) x.drawApiArgs
    force
  have hb : (fun b => (Scene.glBuffers _ b).isSome) = fun b => (s.glBuffers b).isSome :=
    funext fun b => Syncs.live k4 (.buffer b)
  rw [hb] at h5
  have h6 := (((h1.trans h2).trans h3).trans h4).trans h5
  simp only [← ofTechnique_append] at h6
  exact h6

end Technique

/-- What a sync says of the technique `t`. -/
def sendsOf (s : Scene) (force : Bool) (t : ℕ) : List Setting :=
  ((s.baseTechniques t).map fun z => s.sends z.current force).getD []

theorem sendsOf_of_content {s s' : Scene} (h : s'.content = s.content) (force : Bool) (t : ℕ) :
    s'.sendsOf force t = s.sendsOf force t := by
  have hl : ∀ x, s'.live x = s.live x := live_of_content h
  have hb := bindingAlive_of_content h
  have he : (s'.baseTechniques t).map (bareTechnique s.bindingAlive) =
      (s.baseTechniques t).map (bareTechnique s.bindingAlive) := by
    have h1 := congrFun (congrArg Scene.baseTechniques h) t
    simpa [content, hb] using h1
  have hm (o : Option GlBaseTechnique) : (o.map fun z => s.sends z.current force) =
      (o.map (bareTechnique s.bindingAlive)).map fun z => s.sends z.current force := by
    rw [Option.map_map]
    congr 1
    exact funext fun z => (s.sends_bare z force).symm
  simp only [sendsOf, sends_congr hl]
  rw [hm, he, ← hm]

/-- What a sync says of the technique in the slot of a unit. -/
def tellsOf (s : Scene) (force : Bool) (u : ℕ) : List (ℕ × Setting) :=
  ((s.renderingUnits u).bind RenderingUnit.technique).toList.flatMap fun t =>
    ofTechnique t (s.sendsOf force t)

theorem tellsOf_of_content {s s' : Scene} (h : s'.content = s.content) (force : Bool) (u : ℕ) :
    s'.tellsOf force u = s.tellsOf force u := by
  simp only [tellsOf, slot_of_content h, sendsOf_of_content h]

/-- What a sync says of the techniques of a virtual object. -/
def tells (s : Scene) (force : Bool) (v : ℕ) : List (ℕ × Setting) :=
  (s.unitsOf v).flatMap (s.tellsOf force)

section Objects
variable {s : Scene} (hs : s.remote.hasSession) (force : Bool)
include hs

theorem ensureTechnique_silent {t : ℕ} {z : GlBaseTechnique}
    (hu : s.Ready (.renderingUnit z.owner)) :
    Syncs (fun _ => True) (fun c => c.part? = none) s (s.ensureTechnique t z) := by
  unfold ensureTechnique
  split
  · exact .refl
  · split
    · exact withRemoteId_syncs hu fun _ _ => ensureProxy_syncs hs (fun _ _ => trivial) rfl rfl
    · exact crash_syncs s

/-- `GlBaseTechnique::sync`. -/
theorem syncTechnique_utters {t : ℕ} {z : GlBaseTechnique} (hz : s.baseTechniques t = some z)
    (hu : s.Ready (.renderingUnit z.owner)) :
    Utters (ofTechnique t (s.sendsOf force t)) s (s.syncTechnique t force) := by
  have k1 := ensureTechnique_silent hs (t := t) hu
  have h1 := utters_silent k1
  have he : s.syncTechnique t force = (s.ensureTechnique t z).syncTechniqueState t z.current
      force := by rw [syncTechnique, hz]
  have hl : s.sendsOf force t = (s.ensureTechnique t z).sends z.current force := by
    rw [sends_congr (Syncs.live k1), sendsOf, hz]
    rfl
  rw [he, hl]
  apply h1.trans
  apply Utters.withRemoteId (ensureTechnique_ready hs hz)
  intro i hi
  exact syncState_utters (k1.hasSession.trans hs) hi z.current force

/-- `RenderingUnit::sync`. -/
theorem syncUnit_utters (hk : SlotOk s) {u : ℕ}
    (hv : ∀ y, s.renderingUnits u = some y → s.Ready (.virtualObject y.owner)) :
    Utters (s.tellsOf force u) s (syncUnit force s u) := by
  cases hy : s.renderingUnits u with
  | none =>
    rw [syncUnit, hy]
    exact utters_crash (crash_syncs s) (crash_running s _)
  | some y =>
    have k1 : Syncs (fun _ => True) (fun c => c.part? = none) s (s.ensureUnit u y) :=
      ensureUnit_syncs (fun _ => part_of_technique) hs (hv y hy)
    have h1 := utters_silent k1
    cases ht : y.technique with
    | none =>
      simp only [syncUnit, tellsOf, hy, ht, Option.bind_some, Option.toList_none, List.flatMap_nil]
      exact h1
    | some t =>
      obtain ⟨z, hz, hzu⟩ := hk u y t hy ht
      have hz1 : (s.ensureUnit u y).baseTechniques t = some z := by
        rw [ensureUnit_techniques]
        exact hz
      have hr : (s.ensureUnit u y).Ready (.renderingUnit z.owner) := by
        rw [hzu]
        exact ensureUnit_ready hs hy
      have h2 := syncTechnique_utters (k1.hasSession.trans hs) force hz1 hr
      rw [sendsOf_of_content (Syncs.content k1)] at h2
      simp only [syncUnit, tellsOf, hy, ht, Option.bind_some, Option.toList_some,
        List.flatMap_cons, List.flatMap_nil, List.append_nil]
      exact h1.trans h2

end Objects

/-- `VirtualObject::sync` says what is marked of the techniques of its units, in order. -/
theorem syncVirtualObject_utters {s : Scene} (hs : s.remote.hasSession)
    (hg : s.forest.Registered) {v : ℕ} {x : VirtualObject} (hx : s.virtualObjects v = some x)
    (ha : x.app.isSome) (force : Bool) :
    Utters (s.tells force v) s (s.syncVirtualObject v force) := by
  obtain ⟨b, hb⟩ := Option.isSome_iff_exists.mp ha
  have i0 := syncStart hs hg hx
  have k1 : Syncs (fun _ => True) (fun c => c.part? = none) s
      (s.ensureProxy (.virtualObject v) .createVirtualObject) :=
    ensureProxy_syncs hs (by simp) rfl rfl
  have h1 := utters_silent k1
  have he : s.syncVirtualObject v force =
      (s.ensureProxy (.virtualObject v) .createVirtualObject).syncParts v b x.renderingUnitList
        force := by simp only [syncVirtualObject, hx, hb]
  have hu : s.tells force v = x.renderingUnitList.flatMap (s.tellsOf force) := by
    simp [tells, unitsOf, hx]
  have c1 := Syncs.content k1
  generalize s.ensureProxy (.virtualObject v) .createVirtualObject = s₁ at i0 h1 he c1
  rw [he, hu, syncParts]
  split
  · exact utters_crash (h1.syncs.tail (.crash _ _ (.inl rfl))) (crash_running _ _)
  · next app _ =>
    apply h1.trans
    apply Utters.withRemoteId i0.ready
    intro i _
    have h2 : Utters [] s₁ (s₁.call (.move i app.polar app.azimuthal)) :=
      utters_silent (call_syncs _ rfl rfl)
    have i1 := i0.next h2.syncs
    have h3 : Utters (x.renderingUnitList.flatMap (s.tellsOf force))
        (s₁.call (.move i app.polar app.azimuthal)) (x.renderingUnitList.foldl
          (syncUnit force) (s₁.call (.move i app.polar app.azimuthal))) := by
      apply Utters.foldl
      intro s' h u hu
      have i2 := i1.next h
      have hc : s'.content = s.content :=
        (Syncs.content (Relation.ReflTransGen.trans h2.syncs h)).trans c1
      rw [← tellsOf_of_content hc]
      apply syncUnit_utters i2.session force i2.slot
      intro y hy
      rw [i2.owner u hu y hy]
      exact i2.ready
    have h4 : Utters [] _ _ := utters_silent
      (call_syncs (x.renderingUnitList.foldl (syncUnit force)
        (s₁.call (.move i app.polar app.azimuthal))) (c := .commit i) rfl rfl)
    have h5 := (h2.trans h3).trans h4
    rw [List.nil_append, List.append_nil] at h5
    exact h5

end Scene
end Yaza
