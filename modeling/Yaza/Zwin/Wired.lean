import Yaza.Lib.Wiring
import Yaza.Zwin.Rooted

/-! The committed signals: a virtual object notifies exactly its live units and apps, a unit
exactly its live techniques, each once. -/
namespace Yaza
namespace Scene

def objectOf (x : VirtualObject) : VirtualObject := { x with pendingFrames := [] }

def techniqueOf (z : GlBaseTechnique) : GlBaseTechnique := { z with pending := {} }

/-- The objects of the tree without what is pending, and the remote session. -/
def graph (s : Scene) : Scene where
  remote := s.remote
  virtualObjects := s.virtualObjects.mapAll objectOf
  boundedApps := s.boundedApps.mapAll fun x => { x with pending := {}, configureList := [] }
  renderingUnits := s.renderingUnits
  baseTechniques := s.baseTechniques.mapAll techniqueOf

theorem postError_graph (s : Scene) (i : ℕ) (code : ErrorCode) (text : String) :
    (s.postError i code text).graph = s.graph := by
  rcases postError_cases s i code text with h | ⟨e, h⟩ <;> rw [h] <;> rfl

theorem techniqueRequest_graph (s : Scene) (t : ℕ) (r : TechniqueRequest) :
    (s.techniqueRequest t r).graph = s.graph := by
  have h := Arena.mapAll_modify (f := techniqueOf) (h := s.baseTechniques) (i := t)
    (g := fun x => x.request r) fun _ => rfl
  simp only [graph, techniqueRequest, h]

theorem withTechnique_graph {s : Scene} {t : ℕ} {k : Scene → Scene}
    (hk : (k s).graph = s.graph) : (s.withTechnique t k).graph = s.graph := by
  unfold withTechnique
  split
  · exact hk
  · rfl

theorem setParamater_graph (s : Scene) (p : ℕ) (type : ParamType) (pname : UInt32)
    (arg : SamplerArg) (garbage : Bytes) :
    (s.setParamater p type pname arg garbage).graph = s.graph := by
  unfold setParamater
  split
  · exact postError_graph ..
  · split
    · exact postError_graph ..
    · rfl

theorem setApp_graph {s : Scene} {b : ℕ} {x y : BoundedApp} (hx : s.boundedApps b = some x)
    (hy : { y with pending := {}, configureList := [] } =
      ({ x with pending := {}, configureList := [] } : BoundedApp)) :
    { s with boundedApps := s.boundedApps.set b y }.graph = s.graph := by
  simp only [graph]
  rw [Arena.mapAll_set hx hy]

/-- A plain request, other than for a bounded app, changes only what is pending. -/
theorem handle_graph (s : Scene) (client : ℕ) {r : Request} (hr : r.plain)
    (hb : ∀ v halfSize, r ≠ .getBounded v halfSize) : (s.handle client r).graph = s.graph := by
  cases r with
  | createVirtualObject | createRenderingUnit | createGlBaseTechnique | commit => cases hr
  | getBounded v halfSize => exact absurd rfl (hb v halfSize)
  | frame v =>
    have h := Arena.mapAll_modify (f := objectOf) (h := s.virtualObjects) (i := v)
      (g := fun x => { x with pendingFrames := x.pendingFrames ++ [s.nextId] }) fun _ => rfl
    simp only [handle, queueFrameCallback, graph, h]
  | ackConfigure b serial =>
    simp only [handle, ackConfigure]
    split
    · rfl
    · next x hx =>
      split
      · rfl
      · exact setApp_graph hx rfl
  | setRegion b region =>
    simp only [handle, setRegion]
    split
    · rfl
    · next x hx =>
      split
      · rfl
      · exact setApp_graph hx rfl
  | addCuboid region halfSize center quat =>
    simp only [handle, addCuboid]
    split
    · exact postError_graph ..
    · exact postError_graph ..
    · exact postError_graph ..
    · rfl
  | bindProgram | bindVertexArray | bindTexture | drawArrays => exact techniqueRequest_graph ..
  | uniformVector =>
    apply withTechnique_graph
    unfold uniformVector
    split
    · exact postError_graph ..
    · split
      · exact postError_graph ..
      · exact techniqueRequest_graph ..
  | uniformMatrix =>
    apply withTechnique_graph
    unfold uniformMatrix
    split
    · exact postError_graph ..
    · split
      · exact postError_graph ..
      · split
        · exact postError_graph ..
        · exact techniqueRequest_graph ..
  | drawElements =>
    apply withTechnique_graph
    unfold drawElements
    split
    · exact postError_graph ..
    · exact techniqueRequest_graph ..
  | parameterF p pname param =>
    simp only [handle, parameterF]
    split
    · exact postError_graph ..
    · exact setParamater_graph ..
  | parameterI | parameterV => exact setParamater_graph ..
  | vertexAttribPointer va index size type normalized stride offset b =>
    simp only [handle, vertexAttribPointer]
    split
    · exact postError_graph ..
    · rfl
  | createRegion | createGlBuffer | createGlShader | createGlProgram | createGlTexture
  | createGlSampler | createGlVertexArray | createBuffer | writeBuffer | bufferData | image2d
  | generateMipmap | attachShader | link | setAttribEnability => rfl

/-- The parent a listener of a virtual object names. -/
def ownerOf (s : Scene) : CommitListener → Option ℕ
  | .unit u => (s.renderingUnits u).map RenderingUnit.owner
  | .app b => (s.boundedApps b).map BoundedApp.virtualObject

/-- Virtual objects, and what listens to their commits. -/
def objectWiring (s : Scene) : Wiring CommitListener where
  lists := s.virtualObjects.mapAll VirtualObject.listeners
  owner := s.ownerOf

/-- Rendering units, and the techniques that listen to their commits. -/
def unitWiring (s : Scene) : Wiring ℕ where
  lists := s.renderingUnits.mapAll RenderingUnit.listeners
  owner := s.baseTechniques.mapAll GlBaseTechnique.owner

theorem ownerOf_congr {s s' : Scene}
    (hu : s'.renderingUnits.mapAll RenderingUnit.owner =
      s.renderingUnits.mapAll RenderingUnit.owner)
    (hb : s'.boundedApps.mapAll BoundedApp.virtualObject =
      s.boundedApps.mapAll BoundedApp.virtualObject) : s'.ownerOf = s.ownerOf := by
  funext c
  cases c with
  | unit u => exact congrFun hu u
  | app b => exact congrFun hb b

/-- The two signals agree. -/
structure SameWiring (s s' : Scene) : Prop where
  objects : s'.objectWiring = s.objectWiring
  units : s'.unitWiring = s.unitWiring

theorem SameWiring.trans {s s' s'' : Scene} (h : SameWiring s s') (h' : SameWiring s' s'') :
    SameWiring s s'' := ⟨h'.objects.trans h.objects, h'.units.trans h.units⟩

theorem SameWiring.of_maps {s s' : Scene}
    (hv : s'.virtualObjects.mapAll VirtualObject.listeners =
      s.virtualObjects.mapAll VirtualObject.listeners)
    (hb : s'.boundedApps.mapAll BoundedApp.virtualObject =
      s.boundedApps.mapAll BoundedApp.virtualObject)
    (ho : s'.renderingUnits.mapAll RenderingUnit.owner =
      s.renderingUnits.mapAll RenderingUnit.owner)
    (hl : s'.renderingUnits.mapAll RenderingUnit.listeners =
      s.renderingUnits.mapAll RenderingUnit.listeners)
    (ht : s'.baseTechniques.mapAll GlBaseTechnique.owner =
      s.baseTechniques.mapAll GlBaseTechnique.owner) : SameWiring s s' where
  objects := by simp only [objectWiring, hv, ownerOf_congr ho hb]
  units := by simp only [unitWiring, hl, ht]

theorem sameWiring_of_graph {s s' : Scene} (h : s'.graph = s.graph) : SameWiring s s' := by
  have hu : s'.renderingUnits = s.renderingUnits :=
    show s'.graph.renderingUnits = s.graph.renderingUnits from by rw [h]
  have hv := congrArg (fun s => s.virtualObjects.mapAll VirtualObject.listeners) h
  have hb := congrArg (fun s => s.boundedApps.mapAll BoundedApp.virtualObject) h
  have ht := congrArg (fun s => s.baseTechniques.mapAll GlBaseTechnique.owner) h
  simp only [graph, Arena.mapAll_mapAll] at hv hb ht
  exact .of_maps hv hb (by rw [hu]) (by rw [hu]) ht

theorem sameWiring_of_content {s s' : Scene} (h : s'.content = s.content) : SameWiring s s' := by
  have hv := congrArg (fun s => s.virtualObjects.mapAll VirtualObject.listeners) h
  have ho := congrArg (fun s => s.renderingUnits.mapAll RenderingUnit.owner) h
  have hl := congrArg (fun s => s.renderingUnits.mapAll RenderingUnit.listeners) h
  have ht := congrArg (fun s => s.baseTechniques.mapAll GlBaseTechnique.owner) h
  simp only [content, Arena.mapAll_mapAll] at hv ho hl ht
  exact .of_maps hv (by rw [boundedApps_of_content h]) ho hl ht

theorem sameWiring_of_skeleton {s s' : Scene} (h : s'.skeleton = s.skeleton) :
    SameWiring s s' := by
  have hv := congrArg (fun s => s.virtualObjects.mapAll VirtualObject.listeners) h
  have hb := congrArg (fun s => s.boundedApps.mapAll BoundedApp.virtualObject) h
  have ho := congrArg (fun s => s.renderingUnits.mapAll RenderingUnit.owner) h
  have hl := congrArg (fun s => s.renderingUnits.mapAll RenderingUnit.listeners) h
  have ht := congrArg (fun s => s.baseTechniques.mapAll GlBaseTechnique.owner) h
  simp only [skeleton, Arena.mapAll_mapAll] at hv hb ho hl ht
  exact .of_maps hv hb ho hl ht

/-- What holds of the signals in every reachable scene. -/
structure Wired (s : Scene) : Prop where
  objects : s.objectWiring.Sound
  units : s.unitWiring.Sound
  apps : ∀ b, s.nextId ≤ b → s.boundedApps b = none
  object_lt : ∀ c v, s.ownerOf c = some v → v < s.nextId
  unit_lt : ∀ t u, s.unitWiring.owner t = some u → u < s.nextId

theorem Wired.same {s s' : Scene} (hw : Wired s) (h : SameWiring s s')
    (hn : s.nextId ≤ s'.nextId) : Wired s' where
  objects := h.objects ▸ hw.objects
  units := h.units ▸ hw.units
  apps := by
    intro b hb
    have ho : s'.ownerOf (.app b) = s.ownerOf (.app b) :=
      congrFun (congrArg Wiring.owner h.objects) (.app b)
    simpa [ownerOf, hw.apps b (hn.trans hb)] using ho
  object_lt := fun c v hc => by
    have ho : s'.ownerOf = s.ownerOf := congrArg Wiring.owner h.objects
    exact (hw.object_lt c v (ho ▸ hc)).trans_le hn
  unit_lt := fun t u ht => (hw.unit_lt t u (h.units ▸ ht)).trans_le hn

/-- Children go. -/
theorem Wired.shrink {s s' : Scene} (hw : Wired s) (ho : s'.objectWiring.Sound)
    (hu : s'.unitWiring.Sound) (hn : s'.nextId = s.nextId)
    (hc : ∀ c v, s'.ownerOf c = some v → s.ownerOf c = some v)
    (ht : ∀ t u, s'.unitWiring.owner t = some u → s.unitWiring.owner t = some u) : Wired s' where
  objects := ho
  units := hu
  apps := by
    intro b hb
    cases hx : s'.boundedApps b with
    | none => rfl
    | some x =>
      have := hc (.app b) x.virtualObject (by simp [ownerOf, hx])
      simp [ownerOf, hw.apps b (hn ▸ hb)] at this
  object_lt := fun c v h => hn ▸ hw.object_lt c v (hc c v h)
  unit_lt := fun t u h => hn ▸ hw.unit_lt t u (ht t u h)

theorem setTechnique_none_wiring (s : Scene) (u : ℕ) : SameWiring s (s.setTechnique u none) := by
  unfold setTechnique
  split
  · exact ⟨rfl, rfl⟩
  · next y hy =>
    simp only [Option.isSome_none, Bool.false_and, Bool.false_eq_true, if_false]
    exact .of_maps rfl rfl (Arena.mapAll_set hy rfl) (Arena.mapAll_set hy rfl) rfl

theorem setTechnique_none_nextId (s : Scene) (u : ℕ) :
    (s.setTechnique u none).nextId = s.nextId := by
  unfold setTechnique
  split
  · rfl
  · simp

theorem dropTechnique_objectWiring (s : Scene) (t u : ℕ) :
    (s.dropTechnique t u).objectWiring = s.objectWiring := by
  have h := Arena.mapAll_modify (f := RenderingUnit.owner) (h := s.renderingUnits) (i := u)
    (g := fun x => { x with listeners := x.listeners.filter (· ≠ t) }) fun _ => rfl
  have hc : (s.dropTechnique t u).ownerOf = s.ownerOf := ownerOf_congr h rfl
  simp only [objectWiring, hc]
  rfl

theorem dropTechnique_unitWiring (s : Scene) (t u : ℕ) :
    (s.dropTechnique t u).unitWiring = s.unitWiring.dropChild t u := by
  have h := Arena.mapAll_modify_apply (f := RenderingUnit.listeners)
    (g := fun x => { x with listeners := x.listeners.filter (· ≠ t) })
    (k := fun l => l.filter (· ≠ t)) (fun _ => rfl) s.renderingUnits u
  simp only [unitWiring, dropTechnique, Wiring.dropChild, Arena.mapAll_erase, h]
  rfl

theorem deleteTechnique_wired {s : Scene} (hw : Wired s) (t : ℕ) :
    Wired (s.deleteTechnique t) := by
  unfold deleteTechnique
  split
  · exact hw.same ⟨rfl, rfl⟩ (Nat.le_refl _)
  · next z hz =>
    have h := setTechnique_none_wiring s z.owner
    have ho : s.unitWiring.owner t = some z.owner := by simp [unitWiring, hz]
    have hobj := (dropTechnique_objectWiring (s.setTechnique z.owner none) t z.owner).trans
      h.objects
    have huni := dropTechnique_unitWiring (s.setTechnique z.owner none) t z.owner
    rw [h.units] at huni
    refine hw.shrink (hobj ▸ hw.objects) (huni ▸ Wiring.dropChild_sound hw.units ho)
      (setTechnique_none_nextId s z.owner) (fun c v hc => ?_) fun i u hi => ?_
    · rwa [show ownerOf _ = s.ownerOf from congrArg Wiring.owner hobj] at hc
    · rw [huni] at hi
      simp only [Wiring.dropChild, Function.update_apply, Option.ite_none_left_eq_some] at hi
      exact hi.2

theorem deleteTechnique?_wired {s : Scene} (hw : Wired s) (t : Option ℕ) :
    Wired (s.deleteTechnique? t) := by
  cases t with
  | none => exact hw
  | some t => exact deleteTechnique_wired hw t

theorem removeRenderingUnit_wired {s : Scene} (hw : Wired s) (v u : ℕ) :
    Wired (s.removeRenderingUnit v u) := by
  unfold removeRenderingUnit
  split
  · exact hw.same ⟨rfl, rfl⟩ (Nat.le_refl _)
  · next x hx =>
    split
    · exact hw
    · exact hw.same (.of_maps (Arena.mapAll_set hx rfl) rfl rfl rfl rfl) (Nat.le_refl _)

/-- A listener of a virtual object is destroyed. -/
theorem dropListener_listeners (h : Arena VirtualObject) (v : ℕ) (c : CommitListener) :
    (h.modify v fun x => { x with listeners := x.listeners.filter (· ≠ c) }).mapAll
        VirtualObject.listeners =
      (h.mapAll VirtualObject.listeners).modify v fun l => l.filter (· ≠ c) :=
  Arena.mapAll_modify_apply (f := VirtualObject.listeners)
    (g := fun x => { x with listeners := x.listeners.filter (· ≠ c) })
    (k := fun l => l.filter (· ≠ c)) (fun _ => rfl) h v

theorem dropUnit_wired {s : Scene} (hw : Wired s) {u v : ℕ}
    (hu : s.ownerOf (.unit u) = some v) : Wired (s.dropUnit u v) := by
  have hobj : (s.dropUnit u v).objectWiring = s.objectWiring.dropChild (.unit u) v := by
    have ho : (s.dropUnit u v).ownerOf = Function.update s.ownerOf (.unit u) none := by
      funext c
      cases c with
      | unit w => by_cases hw : w = u <;> simp [ownerOf, dropUnit, hw]
      | app b => simp [ownerOf, dropUnit]
    simp only [objectWiring, ho, Wiring.dropChild]
    simp only [dropUnit, dropListener_listeners]
  have huni : (s.dropUnit u v).unitWiring = s.unitWiring.dropParent u := by
    simp only [unitWiring, dropUnit, Wiring.dropParent, Arena.mapAll_erase]
  refine hw.shrink (hobj ▸ Wiring.dropChild_sound hw.objects hu)
    (huni ▸ Wiring.dropParent_sound hw.units u) rfl (fun c w hc => ?_) fun i w hi => ?_
  · have hc' : (s.dropUnit u v).objectWiring.owner c = some w := hc
    rw [hobj] at hc'
    simp only [Wiring.dropChild, Function.update_apply, Option.ite_none_left_eq_some] at hc'
    exact hc'.2
  · rw [huni] at hi
    exact hi

theorem deleteTechnique?_ownerOf (s : Scene) (t : Option ℕ) :
    (s.deleteTechnique? t).ownerOf = s.ownerOf := by
  cases t with
  | none => rfl
  | some t =>
    simp only [deleteTechnique?, deleteTechnique]
    split
    · rfl
    · next z hz =>
      exact congrArg Wiring.owner ((dropTechnique_objectWiring _ t z.owner).trans
        (setTechnique_none_wiring s z.owner).objects)

theorem removeRenderingUnit_ownerOf (s : Scene) (v u : ℕ) :
    (s.removeRenderingUnit v u).ownerOf = s.ownerOf := by
  unfold removeRenderingUnit
  split
  · rfl
  · split <;> rfl

theorem deleteRenderingUnit_wired {s : Scene} (hw : Wired s) (u : ℕ) :
    Wired (s.deleteRenderingUnit u) := by
  unfold deleteRenderingUnit
  split
  · exact hw.same ⟨rfl, rfl⟩ (Nat.le_refl _)
  · next y hy =>
    refine dropUnit_wired
      (deleteTechnique?_wired (removeRenderingUnit_wired hw y.owner u) y.technique) ?_
    rw [deleteTechnique?_ownerOf, removeRenderingUnit_ownerOf]
    simp [ownerOf, hy]

theorem deleteUnits_wired {s : Scene} (hw : Wired s) (l : List ℕ) :
    Wired (l.foldl deleteRenderingUnit s) := by
  induction l generalizing s with
  | nil => exact hw
  | cons u l ih => exact ih (deleteRenderingUnit_wired hw u)

theorem deleteBoundedApp_wired {s : Scene} (hw : Wired s) (b : ℕ) :
    Wired (s.deleteBoundedApp b) := by
  cases hx : s.boundedApps b with
  | none =>
    rw [deleteBoundedApp, hx]
    exact hw.same ⟨rfl, rfl⟩ (Nat.le_refl _)
  | some x =>
    have ho : (s.deleteBoundedApp b).ownerOf = Function.update s.ownerOf (.app b) none := by
      rw [deleteBoundedApp, hx]
      funext c
      cases c with
      | unit w => simp [ownerOf]
      | app b' => by_cases hb : b' = b <;> simp [ownerOf, hb]
    have hobj : (s.deleteBoundedApp b).objectWiring =
        s.objectWiring.dropChild (.app b) x.virtualObject := by
      simp only [objectWiring, ho, Wiring.dropChild]
      rw [deleteBoundedApp, hx]
      simp only [dropListener_listeners]
    have huni : (s.deleteBoundedApp b).unitWiring = s.unitWiring := by
      rw [deleteBoundedApp, hx]
      rfl
    refine hw.shrink
      (hobj ▸ Wiring.dropChild_sound hw.objects (by simp [objectWiring, ownerOf, hx]))
      (huni ▸ hw.units) (by rw [deleteBoundedApp, hx]) (fun c w hc => ?_)
      fun i w hi => huni ▸ hi
    rw [ho] at hc
    simp only [Function.update_apply, Option.ite_none_left_eq_some] at hc
    exact hc.2

theorem dropVirtualObject_objectWiring (s : Scene) (v : ℕ) :
    (s.dropVirtualObject v).objectWiring = s.objectWiring.dropParent v := by
  simp only [objectWiring, dropVirtualObject, Wiring.dropParent, Arena.mapAll_erase]
  rfl

theorem deleteVirtualObject_wired {s : Scene} (hw : Wired s) (v : ℕ) :
    Wired (s.deleteVirtualObject v) := by
  unfold deleteVirtualObject
  split
  · exact hw.same ⟨rfl, rfl⟩ (Nat.le_refl _)
  · next x hx =>
    have h0 : Wired (s.markDestroying v) :=
      hw.same (.of_maps (Arena.mapAll_modify fun _ => rfl) rfl rfl rfl rfl) (Nat.le_refl _)
    have h1 := deleteUnits_wired h0 x.renderingUnitList
    have h2 : Wired ((x.renderingUnitList.foldl deleteRenderingUnit
        (s.markDestroying v)).deleteBoundedApp? x.app) := by
      cases x.app with
      | none => exact h1
      | some b => exact deleteBoundedApp_wired h1 b
    refine h2.shrink ?_ h2.units rfl (fun _ _ h => h) fun _ _ h => h
    rw [dropVirtualObject_objectWiring]
    exact Wiring.dropParent_sound h2.objects v

theorem destroyResource_wired {s : Scene} (hw : Wired s) (r : ℕ) :
    Wired (s.destroyResource r) := by
  unfold destroyResource
  split
  · exact hw
  · next x _ =>
    have key {s' : Scene} (hs' : Wired s') :
        Wired { s' with resources := s.resources.erase r } :=
      hs'.same ⟨rfl, rfl⟩ (Nat.le_refl _)
    refine key ?_
    cases x.interface with
    | virtualObject => exact deleteVirtualObject_wired hw r
    | bounded =>
      simp only [deleteObject]
      split
      · exact deleteBoundedApp_wired hw r
      · exact hw
    | renderingUnit =>
      simp only [deleteObject]
      split
      · exact deleteRenderingUnit_wired hw r
      · exact hw
    | baseTechnique =>
      simp only [deleteObject]
      split
      · exact deleteTechnique_wired hw r
      · exact hw
    | glProgram | glShader | glVertexArray | glBuffer | glTexture | glSampler | region
    | shmBuffer => exact hw.same ⟨rfl, rfl⟩ (Nat.le_refl _)

/-- A new listener of a virtual object. -/
theorem addListener_listeners (h : Arena VirtualObject) (v : ℕ) (c : CommitListener) :
    (h.modify v fun x => { x with listeners := x.listeners ++ [c] }).mapAll
        VirtualObject.listeners =
      (h.mapAll VirtualObject.listeners).modify v fun l => l ++ [c] :=
  Arena.mapAll_modify_apply (f := VirtualObject.listeners)
    (g := fun x => { x with listeners := x.listeners ++ [c] }) (k := fun l => l ++ [c])
    (fun _ => rfl) h v

theorem createVirtualObject_wired {s : Scene} (hw : Wired s) (client : ℕ) :
    Wired (s.createVirtualObject client) where
  objects := by
    have he : (s.createVirtualObject client).objectWiring =
        s.objectWiring.newParent s.nextId := by
      simp only [objectWiring, createVirtualObject, Wiring.newParent, Arena.mapAll_set_apply]
      rfl
    rw [he]
    exact Wiring.newParent_sound hw.objects fun c hc =>
      absurd (hw.object_lt c s.nextId hc) (lt_irrefl _)
  units := hw.units
  apps := fun b hb => hw.apps b (Nat.le_of_succ_le hb)
  object_lt := fun c v hc => (hw.object_lt c v hc).trans (Nat.lt_succ_self _)
  unit_lt := fun t u ht => (hw.unit_lt t u ht).trans (Nat.lt_succ_self _)

theorem createRenderingUnit_ownerOf (s : Scene) (client v : ℕ) :
    (s.createRenderingUnit client v).ownerOf =
      Function.update s.ownerOf (.unit s.nextId) (some v) := by
  funext c
  cases c with
  | unit w => by_cases h : w = s.nextId <;> simp [ownerOf, createRenderingUnit, h]
  | app b => simp [ownerOf, createRenderingUnit, newResource]

theorem createRenderingUnit_wired {s : Scene} (hs : Tree s) (hw : Wired s) {v : ℕ}
    (client : ℕ) (hv : v < s.nextId) : Wired (s.createRenderingUnit client v) where
  objects := by
    have hu : s.ownerOf (.unit s.nextId) = none := by
      simpa [forest, ownerOf] using (hs.fresh s.nextId (Nat.le_refl _)).2.1
    have he : (s.createRenderingUnit client v).objectWiring =
        s.objectWiring.newChild (.unit s.nextId) v := by
      simp only [objectWiring, createRenderingUnit_ownerOf, Wiring.newChild]
      simp only [createRenderingUnit, addListener_listeners]
    rw [he]
    exact Wiring.newChild_sound (c := .unit s.nextId) hw.objects hu v
  units := by
    have he : (s.createRenderingUnit client v).unitWiring = s.unitWiring.newParent s.nextId := by
      simp only [unitWiring, createRenderingUnit, Wiring.newParent, Arena.mapAll_set_apply]
      rfl
    rw [he]
    exact Wiring.newParent_sound hw.units fun t ht =>
      absurd (hw.unit_lt t s.nextId ht) (lt_irrefl _)
  apps := fun b hb => hw.apps b (Nat.le_of_succ_le hb)
  object_lt := by
    intro c w hc
    rw [createRenderingUnit_ownerOf, Function.update_apply] at hc
    split at hc
    · cases hc; exact hv.trans (Nat.lt_succ_self _)
    · exact (hw.object_lt c w hc).trans (Nat.lt_succ_self _)
  unit_lt := fun t u ht => (hw.unit_lt t u ht).trans (Nat.lt_succ_self _)

theorem createGlBaseTechnique_wiring {s : Scene} {u : ℕ} (hu : (s.renderingUnits u).isSome)
    (client : ℕ) :
    (s.createGlBaseTechnique client u).objectWiring = s.objectWiring ∧
      (s.createGlBaseTechnique client u).unitWiring = s.unitWiring.newChild s.nextId u := by
  have ho := Arena.mapAll_modify (f := RenderingUnit.owner) (h := s.renderingUnits) (i := u)
    (g := fun x => { x with listeners := x.listeners ++ [s.nextId] }) fun _ => rfl
  have hl := Arena.mapAll_modify_apply (f := RenderingUnit.listeners)
    (g := fun x => { x with listeners := x.listeners ++ [s.nextId] })
    (k := fun l => l ++ [s.nextId]) (fun _ => rfl) s.renderingUnits u
  simp only [createGlBaseTechnique, if_pos hu]
  constructor
  · have hc : ownerOf { s with
        renderingUnits := s.renderingUnits.modify u fun x =>
          { x with listeners := x.listeners ++ [s.nextId] } } = s.ownerOf := ownerOf_congr ho rfl
    exact congrArg (Wiring.mk (s.virtualObjects.mapAll VirtualObject.listeners)) hc
  · simp only [unitWiring, hl, Arena.mapAll_set_apply]
    rfl

theorem createGlBaseTechnique_wired {s : Scene} (hs : Tree s) (hw : Wired s) (client u : ℕ) :
    Wired (s.createGlBaseTechnique client u) := by
  by_cases hu : (s.renderingUnits u).isSome
  · obtain ⟨hobj, huni⟩ := createGlBaseTechnique_wiring hu client
    have hlt : u < s.nextId := by
      by_contra hge
      have := (hs.fresh u (by omega)).2.1
      simp only [forest, Arena.mapAll_apply, Option.map_eq_none_iff] at this
      simp [this] at hu
    have hid : (s.createGlBaseTechnique client u).nextId = s.nextId + 1 := by
      simp only [createGlBaseTechnique, if_pos hu]
      rfl
    have ht : s.unitWiring.owner s.nextId = none := (hs.fresh s.nextId (Nat.le_refl _)).2.2
    refine ⟨hobj ▸ hw.objects, huni ▸ Wiring.newChild_sound hw.units ht u, fun b hb => ?_,
      fun c w hc => ?_, fun i w hi => ?_⟩
    · simp only [createGlBaseTechnique, if_pos hu] at hb ⊢
      exact hw.apps b (Nat.le_of_succ_le hb)
    · rw [show ownerOf _ = s.ownerOf from congrArg Wiring.owner hobj] at hc
      exact hid ▸ (hw.object_lt c w hc).trans (Nat.lt_succ_self _)
    · rw [huni] at hi
      simp only [Wiring.newChild, Function.update_apply] at hi
      rw [hid]
      split at hi
      · cases hi; exact hlt.trans (Nat.lt_succ_self _)
      · exact (hw.unit_lt i w hi).trans (Nat.lt_succ_self _)
  · simp only [createGlBaseTechnique, if_neg hu]
    exact hw.same ⟨rfl, rfl⟩ (Nat.le_refl _)

theorem newBounded_ownerOf (s : Scene) (client v : ℕ) :
    (s.newBounded client v).ownerOf = Function.update s.ownerOf (.app s.nextId) (some v) := by
  funext c
  cases c with
  | unit w => simp [ownerOf, newBounded, newResource]
  | app b => by_cases h : b = s.nextId <;> simp [ownerOf, newBounded, h]

theorem newBounded_wired {s : Scene} (hw : Wired s) {v : ℕ} (client : ℕ) (hv : v < s.nextId) :
    Wired (s.newBounded client v) where
  objects := by
    have hb : s.ownerOf (.app s.nextId) = none := by
      simp [ownerOf, hw.apps s.nextId (Nat.le_refl _)]
    have he : (s.newBounded client v).objectWiring =
        s.objectWiring.newChild (.app s.nextId) v := by
      simp only [objectWiring, newBounded_ownerOf, Wiring.newChild]
      simp only [newBounded, addListener_listeners]
    rw [he]
    exact Wiring.newChild_sound (c := .app s.nextId) hw.objects hb v
  units := hw.units
  apps := by
    intro b hb
    have hb' : s.nextId + 1 ≤ b := hb
    simpa [newBounded, newResource, show b ≠ s.nextId by omega] using hw.apps b (by omega)
  object_lt := by
    intro c w hc
    rw [newBounded_ownerOf, Function.update_apply] at hc
    split at hc
    · cases hc; exact hv.trans (Nat.lt_succ_self _)
    · exact (hw.object_lt c w hc).trans (Nat.lt_succ_self _)
  unit_lt := fun t u ht => (hw.unit_lt t u ht).trans (Nat.lt_succ_self _)

theorem configure_wiring (s : Scene) (b : ℕ) (halfSize : WlArray) :
    SameWiring s (s.configure b halfSize) := by
  unfold configure
  split
  · exact sameWiring_of_graph (postError_graph ..)
  · exact .of_maps rfl (Arena.mapAll_modify fun _ => rfl) rfl rfl rfl

theorem configure_nextId (s : Scene) (b : ℕ) (halfSize : WlArray) :
    (s.configure b halfSize).nextId = s.nextId := by
  unfold configure
  split
  · rcases postError_cases s b .wlArraySize
      "half_size array size (%ld) does not equal expeted size (%ld)" with h | ⟨e, h⟩ <;> rw [h]
    rfl
  · rfl

theorem createBounded_wired {s : Scene} (hw : Wired s) {v : ℕ} (client : ℕ) (hv : v < s.nextId)
    (halfSize : WlArray) : Wired (s.createBounded client v halfSize) := by
  have h1 := newBounded_wired hw client hv
  have h2 := h1.same (configure_wiring _ s.nextId halfSize)
    (Nat.le_of_eq (configure_nextId _ s.nextId halfSize).symm)
  exact h2.same (.of_maps (Arena.mapAll_modify fun _ => rfl) rfl rfl rfl rfl) (Nat.le_refl _)

theorem commitVirtualObject_wired {s : Scene} (hs : Tree s) (hw : Wired s) (v : ℕ) :
    Wired (s.commitVirtualObject v) := by
  have hc := commitState_commits_true s v
  have h1 := hw.same (sameWiring_of_skeleton hc.skeleton)
    (Nat.le_of_eq (nextId_of_skeleton hc.skeleton).symm)
  have h2 := (syncIfSession_steps (hc.tree hs).registered v).content
  exact h1.same (sameWiring_of_content h2) (sameTree_of_content h2).nextId

theorem lt_of_resource {s : Scene} (hs : Tree s) {v client : ℕ}
    (hv : s.resources v = some ⟨client, .virtualObject⟩) : v < s.nextId := by
  by_contra hge
  have h1 := (hs.fresh v (by omega)).1
  have h2 := hs.objects v client hv
  simp only [forest, Arena.mapAll_apply, Option.map_eq_none_iff] at h1
  simp [h1] at h2

theorem handle_wired {s : Scene} (hs : Tree s) (hw : Wired s) {client : ℕ} {r : Request}
    (hr : s.admits client r) : Wired (s.handle client r) := by
  simp only [admits, Bool.and_eq_true, List.all_eq_true, decide_eq_true_eq] at hr
  obtain ⟨-, hr⟩ := hr
  by_cases hp : r.plain ∧ ∀ v halfSize, r ≠ .getBounded v halfSize
  · exact hw.same (sameWiring_of_graph (handle_graph s client hp.1 hp.2))
      (handle_same s client hp.1).nextId
  cases r with
  | createVirtualObject => exact createVirtualObject_wired hw client
  | createRenderingUnit v =>
    exact createRenderingUnit_wired hs hw client (lt_of_resource hs (hr _ List.mem_cons_self))
  | createGlBaseTechnique u => exact createGlBaseTechnique_wired hs hw client u
  | commit v => exact commitVirtualObject_wired hs hw v
  | getBounded v halfSize =>
    exact createBounded_wired hw client (lt_of_resource hs (hr _ List.mem_cons_self)) halfSize
  | _ => exact absurd ⟨trivial, by simp⟩ hp

theorem turnApp_wiring {s : Scene} {b : ℕ} {x : BoundedApp} (hx : s.boundedApps b = some x)
    (polar azimuthal : ℚ) : SameWiring s (s.turnApp b x polar azimuthal) :=
  .of_maps rfl (Arena.mapAll_set hx rfl) rfl rfl rfl

theorem act_wired {s : Scene} (hs : Tree s) (hw : Wired s) (a : Action) : Wired (s.act a) := by
  cases a with
  | request client r =>
    simp only [act]
    split
    · next hr => exact handle_wired hs hw hr
    · exact hw
  | destroy client r =>
    simp only [act]
    split
    · exact destroyResource_wired hw r
    · exact hw
  | peerDiscover connected =>
    have h := peerDiscover_content hs.registered connected
    exact hw.same (sameWiring_of_content h) (sameTree_of_content h).nextId
  | sessionDisconnect =>
    have h := sessionDisconnect_content s
    exact hw.same (sameWiring_of_content h) (sameTree_of_content h).nextId
  | frameTimer busyness =>
    simp only [act, frameTimer]
    split
    · refine hw.same (.of_maps ?_ rfl rfl rfl rfl) (Nat.le_refl _)
      simp only [sessionFrame, Arena.mapAll_mapAll]
      rfl
    · exact hw
  | moveApp b polar azimuthal =>
    simp only [act, moveApp]
    split
    · exact hw
    · next x hx =>
      exact commitVirtualObject_wired (hs.same (turnApp_same ..))
        (hw.same (turnApp_wiring hx polar azimuthal) (Nat.le_refl _)) _

theorem step_wired (s : Scene) (a : Action) (h : Tree s ∧ Wired s) :
    Tree (s.step a) ∧ Wired (s.step a) := by
  refine ⟨step_tree s a h.1, ?_⟩
  unfold step
  split
  · exact h.2
  · exact act_wired h.1 h.2 a

theorem init_wired : Wired init where
  objects := by
    have he : init.objectWiring = ⟨Arena.empty, init.ownerOf⟩ := rfl
    rw [he]
    exact Wiring.empty_sound _
  units := by
    have he : init.unitWiring = ⟨Arena.empty, fun _ => none⟩ := rfl
    rw [he]
    exact Wiring.empty_sound _
  apps := fun _ _ => rfl
  object_lt := by
    intro c v hc
    cases c <;> cases hc
  unit_lt := by
    intro t u ht
    cases ht

theorem run_wired (as : List Action) : Wired (run as) :=
  (Run.final_induction ⟨init_tree, init_wired⟩ step_wired as).2

end Scene
end Yaza
