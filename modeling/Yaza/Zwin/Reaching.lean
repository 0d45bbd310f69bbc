import Yaza.Zwin.Proxies

/-! What a sync of a virtual object comes to: the registered techniques of its units, the objects
these are bound to, and the vertex attributes and sampler parameters that are kept in tables. -/
namespace Yaza
namespace Scene

/-- The units in the list of a virtual object. -/
def unitsOf (s : Scene) (v : ℕ) : List ℕ :=
  ((s.virtualObjects v).map VirtualObject.renderingUnitList).getD []

/-- The techniques registered in those units. -/
def registered (s : Scene) (v : ℕ) : List ℕ :=
  (s.unitsOf v).filterMap fun u => (s.renderingUnits u).bind RenderingUnit.technique

/-- The vertex array and the samplers that the sync of a technique comes to. -/
def tables (s : Scene) (x : TechniqueState) : List Holder :=
  (s.glVertexArrays.lock x.vertexArray).toList.map .vertexArray ++
    (x.textureBindings.removeExpired s.bindingAlive).list.map fun b => .sampler b.sampler

def tablesOf (s : Scene) (v : ℕ) : List Holder :=
  (s.registered v).flatMap fun t =>
    ((s.baseTechniques t).map fun z => s.tables z.current).getD []

/-- The committed attributes whose buffer is alive, or the committed parameters. -/
def keys (s : Scene) : Holder → List UInt32
  | .vertexArray va =>
      ((((s.glVertexArrays va).map GlVertexArray.current).getD []).filter fun e =>
        (s.glBuffers.lock e.2.glBuffer).isSome).map Prod.fst
  | .sampler p => (((s.glSamplers p).map GlSampler.current).getD []).map Prod.fst
  | _ => []

/-- The vertex attributes and sampler parameters that a sync of the virtual object comes to. -/
def entries (s : Scene) (v : ℕ) : List (Holder × UInt32) :=
  (s.tablesOf v).flatMap fun h => (s.keys h).map fun k => (h, k)

/-- The objects that the sync of a technique comes to, but for the buffers of attributes. -/
def Comes (s : Scene) (x : TechniqueState) : Holder → Prop
  | .vertexArray va => x.vertexArray = some va
  | .program p => x.program = some p
  | .buffer b => b ∈ x.drawApiArgs.refs
  | .texture t => ∃ b ∈ x.textureBindings.list, s.bindingAlive b ∧ b.texture = t
  | .sampler p => ∃ b ∈ x.textureBindings.list, s.bindingAlive b ∧ b.sampler = p
  | _ => False

/-- The objects that a sync of the virtual object comes to. -/
def Reached (s : Scene) (v : ℕ) : Holder → Prop
  | .virtualObject i => i = v
  | .renderingUnit u => u ∈ s.unitsOf v
  | .baseTechnique t => t ∈ s.registered v
  | h => ∃ t z, t ∈ s.registered v ∧ s.baseTechniques t = some z ∧ s.Comes z.current h

theorem mem_tables {s : Scene} {x : TechniqueState} {h : Holder} :
    h ∈ s.tables x ↔ s.live h ∧ s.Comes x h ∧
      ((∃ va, h = .vertexArray va) ∨ ∃ p, h = .sampler p) := by
  simp only [tables, List.mem_append, List.mem_map, Option.mem_toList, Arena.lock_eq_some,
    TextureBindingList.removeExpired, List.mem_filter]
  constructor
  · rintro (⟨va, ⟨hx, hl⟩, rfl⟩ | ⟨b, ⟨hb, ha⟩, rfl⟩)
    · exact ⟨hl, hx, .inl ⟨va, rfl⟩⟩
    · refine ⟨?_, ⟨b, hb, ha, rfl⟩, .inr ⟨_, rfl⟩⟩
      simp only [bindingAlive, Bool.and_eq_true] at ha
      exact ha.2
  · rintro ⟨hl, hc, ⟨va, rfl⟩ | ⟨p, rfl⟩⟩
    · exact .inl ⟨va, ⟨hc, hl⟩, rfl⟩
    · obtain ⟨b, hb, ha, rfl⟩ := hc
      exact .inr ⟨b, ⟨hb, ha⟩, rfl⟩

theorem mem_registered {s : Scene} {v t : ℕ} :
    t ∈ s.registered v ↔ ∃ u ∈ s.unitsOf v, ∃ y, s.renderingUnits u = some y ∧
      y.technique = some t := by
  simp only [registered, List.mem_filterMap, Option.bind_eq_some_iff]

theorem mem_tablesOf {s : Scene} {v : ℕ} {h : Holder} :
    h ∈ s.tablesOf v ↔
      ∃ t z, t ∈ s.registered v ∧ s.baseTechniques t = some z ∧ h ∈ s.tables z.current := by
  simp only [tablesOf, List.mem_flatMap]
  constructor
  · rintro ⟨t, ht, hh⟩
    cases hz : s.baseTechniques t with
    | none => simp [hz] at hh
    | some z => exact ⟨t, z, ht, hz, by simpa [hz] using hh⟩
  · rintro ⟨t, z, ht, hz, hh⟩
    exact ⟨t, ht, by simpa [hz] using hh⟩

theorem mem_entries {s : Scene} {v : ℕ} {e : Holder × UInt32} :
    e ∈ s.entries v ↔ e.1 ∈ s.tablesOf v ∧ e.2 ∈ s.keys e.1 := by
  simp only [entries, List.mem_flatMap, List.mem_map]
  constructor
  · rintro ⟨h, hh, k, hk, rfl⟩
    exact ⟨hh, hk⟩
  · rintro ⟨hh, hk⟩
    exact ⟨e.1, hh, e.2, hk, rfl⟩

section Content
variable {s s' : Scene} (h : s'.content = s.content)
include h

theorem unitsOf_of_content (v : ℕ) : s'.unitsOf v = s.unitsOf v := by
  have hm := congrArg (Option.map VirtualObject.renderingUnitList)
    (congrFun (congrArg Scene.virtualObjects h) v)
  simp only [content, Arena.mapAll_apply, Option.map_map] at hm
  exact congrArg (Option.getD · []) hm

theorem slot_of_content (u : ℕ) : (s'.renderingUnits u).bind RenderingUnit.technique =
    (s.renderingUnits u).bind RenderingUnit.technique := by
  have hm := congrArg (Option.bind · RenderingUnit.technique)
    (congrFun (congrArg Scene.renderingUnits h) u)
  simpa [content, Option.bind_map, Function.comp_def, bareUnit] using hm

theorem registered_of_content (v : ℕ) : s'.registered v = s.registered v := by
  simp only [registered, unitsOf_of_content h, slot_of_content h]

theorem live_of_content (x : Holder) : s'.live x = s.live x := by
  cases x with
  | virtualObject i => exact Arena.isSome_of_mapAll (congrArg Scene.virtualObjects h) i
  | renderingUnit i => exact Arena.isSome_of_mapAll (congrArg Scene.renderingUnits h) i
  | baseTechnique i =>
    have hm := congrArg Scene.baseTechniques h
    simp only [content, bindingAlive_of_content h] at hm
    exact Arena.isSome_of_mapAll hm i
  | program i =>
    have hm := congrArg (Option.isSome ·) (congrFun (congrArg Scene.glPrograms h) i)
    simpa [content, live] using hm
  | shader i => exact Arena.isSome_of_mapAll (congrArg Scene.glShaders h) i
  | vertexArray i => exact Arena.isSome_of_mapAll (congrArg Scene.glVertexArrays h) i
  | buffer i => exact Arena.isSome_of_mapAll (congrArg Scene.glBuffers h) i
  | texture i => exact Arena.isSome_of_mapAll (congrArg Scene.glTextures h) i
  | sampler i => exact Arena.isSome_of_mapAll (congrArg Scene.glSamplers h) i

/-- A technique comes to the same objects. -/
theorem comes_of_content {z z' : GlBaseTechnique}
    (he : bareTechnique s.bindingAlive z = bareTechnique s.bindingAlive z') (x : Holder) :
    s'.Comes z'.current x ↔ s.Comes z.current x := by
  have ha := bindingAlive_of_content h
  have hl : z'.current.textureBindings.list.filter s.bindingAlive =
      z.current.textureBindings.list.filter s.bindingAlive :=
    congrArg (fun z => z.current.textureBindings.list) he.symm
  have hb (b : TextureBinding) :
      (b ∈ z'.current.textureBindings.list ∧ s.bindingAlive b) ↔
        b ∈ z.current.textureBindings.list ∧ s.bindingAlive b := by
    rw [← List.mem_filter, ← List.mem_filter, hl]
  cases x with
  | vertexArray va =>
    have hv : z'.current.vertexArray = z.current.vertexArray :=
      congrArg (fun z => z.current.vertexArray) he.symm
    simp only [Comes, hv]
  | program p =>
    have hp : z'.current.program = z.current.program :=
      congrArg (fun z => z.current.program) he.symm
    simp only [Comes, hp]
  | buffer b =>
    have hd : z'.current.drawApiArgs = z.current.drawApiArgs :=
      congrArg (fun z => z.current.drawApiArgs) he.symm
    simp only [Comes, hd]
  | texture t => simp only [Comes, ha, ← and_assoc, hb]
  | sampler p => simp only [Comes, ha, ← and_assoc, hb]
  | _ => rfl

theorem reached_of_content {v : ℕ} {x : Holder} (hx : s'.Reached v x) : s.Reached v x := by
  have leaf (hx : ∃ t z, t ∈ s'.registered v ∧ s'.baseTechniques t = some z ∧
      s'.Comes z.current x) :
      ∃ t z, t ∈ s.registered v ∧ s.baseTechniques t = some z ∧ s.Comes z.current x := by
    obtain ⟨t, z', ht, hz', hc⟩ := hx
    obtain ⟨z, hz, he⟩ := technique_of_content h hz'
    rw [registered_of_content h] at ht
    exact ⟨t, z, ht, hz, (comes_of_content h he x).mp hc⟩
  cases x with
  | virtualObject i => exact hx
  | renderingUnit u =>
    rw [Reached, unitsOf_of_content h] at hx
    exact hx
  | baseTechnique t =>
    rw [Reached, registered_of_content h] at hx
    exact hx
  | _ => exact leaf hx

theorem mem_tablesOf_of_content {v : ℕ} {x : Holder} (hx : x ∈ s'.tablesOf v) :
    x ∈ s.tablesOf v := by
  obtain ⟨t, z', ht, hz', hc⟩ := mem_tablesOf.mp hx
  obtain ⟨z, hz, he⟩ := technique_of_content h hz'
  obtain ⟨hl, hc, hk⟩ := mem_tables.mp hc
  refine mem_tablesOf.mpr ⟨t, z, registered_of_content h v ▸ ht, hz, mem_tables.mpr ⟨?_, ?_, hk⟩⟩
  · rw [← live_of_content h]
    exact hl
  · exact (comes_of_content h he x).mp hc

theorem keys_of_content (x : Holder) : s'.keys x = s.keys x := by
  cases x with
  | vertexArray va =>
    have hm := congrArg (Option.map GlVertexArray.current)
      (congrFun (congrArg Scene.glVertexArrays h) va)
    simp only [content, Arena.mapAll_apply, Option.map_map] at hm
    have hb (o : Option ℕ) : s'.glBuffers.lock o = s.glBuffers.lock o := by
      simp only [Arena.lock, Arena.isSome_of_mapAll (congrArg Scene.glBuffers h)]
    have hc : (s'.glVertexArrays va).map GlVertexArray.current =
        (s.glVertexArrays va).map GlVertexArray.current := hm
    simp only [keys, hb, hc]
  | sampler p =>
    have hm := congrArg (Option.map GlSampler.current)
      (congrFun (congrArg Scene.glSamplers h) p)
    simp only [content, Arena.mapAll_apply, Option.map_map] at hm
    have hc : (s'.glSamplers p).map GlSampler.current = (s.glSamplers p).map GlSampler.current :=
      hm
    simp only [keys, hc]
  | _ => rfl

theorem mem_entries_of_content {v : ℕ} {e : Holder × UInt32} (he : e ∈ s'.entries v) :
    e ∈ s.entries v := by
  obtain ⟨h1, h2⟩ := mem_entries.mp he
  exact mem_entries.mpr ⟨mem_tablesOf_of_content h h1, keys_of_content h e.1 ▸ h2⟩

end Content

end Scene
end Yaza
