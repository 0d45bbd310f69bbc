import Yaza.Gles.Tables
import Yaza.Zwin.RequestSteps
import Yaza.Zwin.Wired

/-! The clients of a scene apart from each other: no object of one refers to an object of another,
and what a client does leaves the objects of the others alone. -/
namespace Yaza

def VirtualObject.refs (x : VirtualObject) : List ℕ :=
  x.listeners.map CommitListener.id ++ x.renderingUnitList ++ x.app.toList

def RenderingUnit.refs (y : RenderingUnit) : List ℕ :=
  y.owner :: (y.technique.toList ++ y.listeners)

def GlBaseTechnique.refs (z : GlBaseTechnique) : List ℕ :=
  z.owner :: (z.pending.refs ++ z.current.refs)

def GlVertexArray.refs (x : GlVertexArray) : List ℕ :=
  x.pending.flatMap fun e => e.2.glBuffer.toList

theorem GlBaseTechnique.refs_commit {alive : TextureBinding → Bool} {z : GlBaseTechnique} {i : ℕ}
    (h : i ∈ (z.commit alive).refs) : i ∈ z.refs := by
  simp only [refs, commit, List.mem_cons, List.mem_append] at h ⊢
  rcases h with h | h | h
  · exact .inl h
  · exact .inr (.inl (TechniqueState.refs_afterCommit h))
  · exact .inr (TechniqueState.refs_commit h)

/-- A request adds the objects it names. -/
theorem TechniqueState.refs_request {p : TechniqueState} {r : TechniqueRequest} {i : ℕ}
    (h : i ∈ (p.request r).refs) : i ∈ p.refs ∨ i ∈ r.refs := by
  rw [mem_refs] at h
  rw [mem_refs]
  cases r with
  | bindTexture b =>
    simp only [request, TextureBindingList.emplace, List.mem_append, List.mem_filter,
      List.mem_singleton] at h
    rcases h with h | h | ⟨e, he | rfl, h⟩ | h
    · exact .inl (.inl h)
    · exact .inl (.inr (.inl h))
    · exact .inl (.inr (.inr (.inl ⟨e, he.1, h⟩)))
    · exact .inr (by simpa [TechniqueRequest.refs] using h)
    · exact .inl (.inr (.inr (.inr h)))
  | bindProgram q =>
    simp only [request, Option.some.injEq] at h
    rcases h with h | h
    · exact .inr (by simp [TechniqueRequest.refs, h])
    · exact .inl (.inr h)
  | bindVertexArray va =>
    simp only [request, Option.some.injEq] at h
    rcases h with h | h | h
    · exact .inl (.inl h)
    · exact .inr (by simp [TechniqueRequest.refs, h])
    · exact .inl (.inr (.inr h))
  | uniform v => exact .inl h
  | drawArrays mode first count =>
    simp only [request, DrawApiArgs.setArraysArgs, DrawApiArgs.refs, List.not_mem_nil,
      or_false] at h
    exact .inl (h.imp_right (Or.imp_right .inl))
  | drawElements mode count type offset b =>
    simp only [request, DrawApiArgs.setElementsArgs, DrawApiArgs.refs] at h
    rcases h with h | h | h | h
    · exact .inl (.inl h)
    · exact .inl (.inr (.inl h))
    · exact .inl (.inr (.inr (.inl h)))
    · exact .inr h

/-- A changed attribute refers to what it did, or to what the change says. -/
theorem GlVertexArray.refs_updatePendingAttribute {x : GlVertexArray} {index : UInt32}
    {f : VertexAttribute → VertexAttribute} {T : ℕ → Prop}
    (hf : ∀ a b, (f a).glBuffer = some b → a.glBuffer = some b ∨ T b) {i : ℕ}
    (h : i ∈ (x.updatePendingAttribute index f).refs) : i ∈ x.refs ∨ T i := by
  simp only [refs, List.mem_flatMap, Option.mem_toList] at h ⊢
  obtain ⟨e, he, hi⟩ := h
  rcases Table.mem_insertOrAssign he with he | rfl
  · exact .inl ⟨e, he, hi⟩
  · refine (hf _ i hi).imp_left fun ha => ?_
    cases hk : x.pending.find? index with
    | none =>
      rw [hk] at ha
      cases ha
    | some a =>
      obtain ⟨e, he, rfl⟩ := Table.mem_of_find? hk
      rw [hk] at ha
      exact ⟨e, he, ha⟩

namespace Scene

/-- `f` gives the references of the object `i` to the client it gives `i` to. -/
def Near (f : ℕ → ℕ) (i : ℕ) (l : List ℕ) : Prop := ∀ j ∈ l, f j = f i

/-- `f` says whose object each address is, and no object refers to one of another client. -/
structure Segregated (f : ℕ → ℕ) (s : Scene) : Prop where
  resources : s.resources.All fun i r => r.client = f i
  objects : s.virtualObjects.All fun i x => Near f i x.refs
  apps : s.boundedApps.All fun i x => f x.virtualObject = f i
  units : s.renderingUnits.All fun i y => Near f i y.refs
  techniques : s.baseTechniques.All fun i z => Near f i z.refs
  vertexArrays : s.glVertexArrays.All fun i x => Near f i x.refs

/-- Nothing is requested of, or committed to, an object outside of `P`. -/
structure Local (P : ℕ → Prop) (s s' : Scene) : Prop where
  objects : Arena.SameOff P s.virtualObjects s'.virtualObjects
  apps : Arena.SameOff P s.boundedApps s'.boundedApps
  techniques : Arena.SameOff P s.baseTechniques s'.baseTechniques
  buffers : Arena.SameOff P s.glBuffers s'.glBuffers
  textures : Arena.SameOff P s.glTextures s'.glTextures
  samplers : Arena.SameOff P s.glSamplers s'.glSamplers

theorem Local.refl (P : ℕ → Prop) (s : Scene) : Local P s s :=
  ⟨.refl, .refl, .refl, .refl, .refl, .refl⟩

theorem Local.trans {P : ℕ → Prop} {s s' s'' : Scene} (h : Local P s s') (h' : Local P s' s'') :
    Local P s s'' where
  objects := h.objects.trans h'.objects
  apps := h.apps.trans h'.apps
  techniques := h.techniques.trans h'.techniques
  buffers := h.buffers.trans h'.buffers
  textures := h.textures.trans h'.textures
  samplers := h.samplers.trans h'.samplers

section Steps
variable {f : ℕ → ℕ} {client : ℕ} {s s' : Scene}

theorem crash_segregated (h : Segregated f s) (e : Fault) : Segregated f (s.crash e) :=
  ⟨h.resources, h.objects, h.apps, h.units, h.techniques, h.vertexArrays⟩

theorem postError_segregated (h : Segregated f s) (i : ℕ) (code : ErrorCode) (text : String) :
    Segregated f (s.postError i code text) := by
  rcases postError_cases s i code text with he | ⟨e, he⟩ <;> rw [he]
  · exact crash_segregated h _
  · exact ⟨h.resources, h.objects, h.apps, h.units, h.techniques, h.vertexArrays⟩

theorem postError_local (P : ℕ → Prop) (s : Scene) (i : ℕ) (code : ErrorCode) (text : String) :
    Local P s (s.postError i code text) := by
  rcases postError_cases s i code text with he | ⟨e, he⟩ <;> rw [he]
  · exact ⟨.refl, .refl, .refl, .refl, .refl, .refl⟩
  · exact ⟨.refl, .refl, .refl, .refl, .refl, .refl⟩

/-- What a commit comes to belongs to one client. -/
theorem Segregated.scope (h : Segregated f s) (c : ℕ) : Scope (fun i => f i = c) s where
  objects := fun v x hx hv l hl =>
    (h.objects v x hx l.id (by
      simp only [VirtualObject.refs, List.mem_append, List.mem_map]
      exact .inl (.inl ⟨l, hl, rfl⟩))).trans hv
  units := fun u y hy hu => by
    have hr := h.units u y hy
    refine ⟨(hr _ List.mem_cons_self).trans hu, fun t ht => (hr t ?_).trans hu⟩
    simp [RenderingUnit.refs, ht]
  techniques := fun t z hz ht => by
    have hr := h.techniques t z hz
    refine ⟨(hr _ List.mem_cons_self).trans ht, fun i hi => (hr i ?_).trans ht,
      fun i hi => (hr i ?_).trans ht⟩
    · simp [GlBaseTechnique.refs, hi]
    · simp [GlBaseTechnique.refs, hi]
  vertexArrays := fun va x hx hva e he b hb =>
    (h.vertexArrays va x hx b (by
      simp only [GlVertexArray.refs, List.mem_flatMap, Option.mem_toList]
      exact ⟨e, he, hb⟩)).trans hva

theorem addRenderingUnit_segregated (h : Segregated f s) {v u : ℕ} (hu : f u = f v) :
    Segregated f (s.addRenderingUnit v u) := by
  rcases addRenderingUnit_cases s v u with he | ⟨x, hx, he⟩ <;> rw [he]
  · exact crash_segregated h _
  · refine ⟨h.resources, h.objects.set fun j hj => ?_, h.apps, h.units, h.techniques,
      h.vertexArrays⟩
    simp only [VirtualObject.refs, List.mem_append, List.mem_singleton] at hj
    rcases hj with (hj | hj | rfl) | hj
    · exact h.objects v x hx j (by simp [VirtualObject.refs, hj])
    · exact h.objects v x hx j (by simp [VirtualObject.refs, hj])
    · exact hu
    · exact h.objects v x hx j (by simp only [VirtualObject.refs, List.mem_append, hj, or_true])

theorem CommitStep.segregated {T : ℕ → Prop} (h : CommitStep T s s') (hs : Segregated f s) :
    Segregated f s' := by
  cases h with
  | error i code text => exact postError_segregated hs i code text
  | vertexArray va x hva hx =>
    exact ⟨hs.resources, hs.objects, hs.apps, hs.units, hs.techniques,
      hs.vertexArrays.set (hs.vertexArrays va x hx)⟩
  | technique t z ht hz =>
    refine ⟨hs.resources, hs.objects, hs.apps, hs.units, hs.techniques.set fun i hi => ?_,
      hs.vertexArrays⟩
    exact hs.techniques t z hz i (GlBaseTechnique.refs_commit hi)
  | register t z y ht hz hy hn =>
    refine ⟨hs.resources, hs.objects, hs.apps, hs.units.set fun i hi => ?_, hs.techniques,
      hs.vertexArrays⟩
    simp only [RenderingUnit.refs, Option.toList_some, List.mem_cons, List.mem_append,
      List.not_mem_nil, or_false] at hi
    rcases hi with rfl | rfl | hi
    · exact hs.units _ y hy _ List.mem_cons_self
    · exact (hs.techniques i z hz _ List.mem_cons_self).symm
    · exact hs.units _ y hy i (by simp [RenderingUnit.refs, hi])
  | unit u y hu hy hc =>
    have ho := hs.units u y hy
    have h1 := addRenderingUnit_segregated hs (ho _ List.mem_cons_self).symm
    rw [registerUnit, if_neg (by simp [hc])]
    exact ⟨h1.resources, h1.objects, h1.apps,
      hs.units.set ho, h1.techniques, h1.vertexArrays⟩
  | app b x hb hx =>
    exact ⟨hs.resources, hs.objects, hs.apps.set (hs.apps b x hx), hs.units, hs.techniques,
      hs.vertexArrays⟩
  | object v x hv hx =>
    exact ⟨hs.resources, hs.objects.set (hs.objects v x hx), hs.apps, hs.units, hs.techniques,
      hs.vertexArrays⟩
  | _ => exact ⟨hs.resources, hs.objects, hs.apps, hs.units, hs.techniques, hs.vertexArrays⟩

theorem CommitStep.others {T : ℕ → Prop} (h : CommitStep T s s') (hs : Scope T s) :
    Local T s s' := by
  cases h with
  | error i code text => exact postError_local T s i code text
  | buffer b r x shm hb hx =>
    exact ⟨.refl, .refl, .refl, .set hb _, .refl, .refl⟩
  | textureData t r x shm ht hx =>
    exact ⟨.refl, .refl, .refl, .refl, .set ht _, .refl⟩
  | mipmap t ht => exact ⟨.refl, .refl, .refl, .refl, .modify ht _, .refl⟩
  | sampler p x hp hx => exact ⟨.refl, .refl, .refl, .refl, .refl, .set hp _⟩
  | technique t z ht hz => exact ⟨.refl, .refl, .set ht _, .refl, .refl, .refl⟩
  | unit u y hu hy hc =>
    have ho : T y.owner := (hs.units u y hy hu).1
    rw [registerUnit, if_neg (by simp [hc])]
    rcases addRenderingUnit_cases s y.owner u with he | ⟨x, hx, he⟩ <;> rw [he]
    · exact ⟨.refl, .refl, .refl, .refl, .refl, .refl⟩
    · exact ⟨.set ho _, .refl, .refl, .refl, .refl, .refl⟩
  | app b x hb hx => exact ⟨.refl, .set hb _, .refl, .refl, .refl, .refl⟩
  | object v x hv hx => exact ⟨.set hv _, .refl, .refl, .refl, .refl, .refl⟩
  | _ => exact ⟨.refl, .refl, .refl, .refl, .refl, .refl⟩

theorem Commits.segregated {T : ℕ → Prop} (h : Commits T s s') (hs : Segregated f s) :
    Segregated f s' :=
  Path.preserves (fun _ _ h hs => h.segregated hs) h hs

/-- A commit stays with the client of the object it is called for. -/
theorem Commits.others {T : ℕ → Prop} (h : Commits T s s') (hs : Scope T s) : Local T s s' := by
  have h1 : Scope T s' ∧ Local T s s' :=
    Path.preserves (P := fun s' => Scope T s' ∧ Local T s s')
      (fun _ _ h ih => ⟨CommitStep.scope _ _ h ih.1, ih.2.trans (h.others ih.1)⟩) h
      ⟨hs, .refl T s⟩
  exact h1.2

theorem giveProxy_segregated (hs : Segregated f s) (p : Proxy) (x : Holder) :
    Segregated f (s.giveProxy p x) := by
  cases x with
  | virtualObject i =>
    exact ⟨hs.resources, hs.objects.modify fun _ _ h => h, hs.apps, hs.units, hs.techniques,
      hs.vertexArrays⟩
  | renderingUnit i =>
    exact ⟨hs.resources, hs.objects, hs.apps, hs.units.modify fun _ _ h => h, hs.techniques,
      hs.vertexArrays⟩
  | baseTechnique i =>
    exact ⟨hs.resources, hs.objects, hs.apps, hs.units, hs.techniques.modify fun _ _ h => h,
      hs.vertexArrays⟩
  | vertexArray i =>
    exact ⟨hs.resources, hs.objects, hs.apps, hs.units, hs.techniques,
      hs.vertexArrays.modify fun _ _ h => h⟩
  | _ => exact ⟨hs.resources, hs.objects, hs.apps, hs.units, hs.techniques, hs.vertexArrays⟩

theorem SyncStep.segregated {A : ℕ → Prop} {C : Call → Prop} (h : SyncStep A C s s')
    (hs : Segregated f s) : Segregated f s' := by
  cases h with
  | create h mk p r hr hp hh hc hm =>
    exact giveProxy_segregated (s := { s with remote := r })
      ⟨hs.resources, hs.objects, hs.apps, hs.units, hs.techniques, hs.vertexArrays⟩ p h
  | dropExpired t =>
    refine ⟨hs.resources, hs.objects, hs.apps, hs.units, hs.techniques.modify ?_,
      hs.vertexArrays⟩
    intro z _ hn i hi
    simp only [GlBaseTechnique.refs, List.mem_cons, List.mem_append] at hi
    rcases hi with hi | hi | hi
    · exact hn i (by simp [GlBaseTechnique.refs, hi])
    · exact hn i (by simp [GlBaseTechnique.refs, hi])
    · rw [TechniqueState.mem_refs] at hi
      refine hn i (by
        simp only [GlBaseTechnique.refs, List.mem_cons, List.mem_append]
        refine .inr (.inr (TechniqueState.mem_refs.mpr ?_))
        rcases hi with hi | hi | ⟨b, hb, hi⟩ | hi
        · exact .inl hi
        · exact .inr (.inl hi)
        · exact .inr (.inr (.inl ⟨b, List.mem_of_mem_filter hb, hi⟩))
        · exact .inr (.inr (.inr hi)))
  | _ => exact ⟨hs.resources, hs.objects, hs.apps, hs.units, hs.techniques, hs.vertexArrays⟩

theorem Syncs.segregated {A : ℕ → Prop} {C : Call → Prop} (h : Syncs A C s s')
    (hs : Segregated f s) : Segregated f s' :=
  Path.preserves (fun _ _ h hs => h.segregated hs) h hs

theorem newResource_segregated (hs : Segregated f s) (i : Interface) (hn : f s.nextId = client) :
    Segregated f (s.newResource client i) :=
  ⟨hs.resources.set hn.symm, hs.objects, hs.apps, hs.units, hs.techniques, hs.vertexArrays⟩

/-- A virtual object gets a listener of its own client. -/
theorem addListener_near {v : ℕ} {x : VirtualObject} {l : CommitListener} (hl : f l.id = f v)
    (h : Near f v x.refs) : Near f v { x with listeners := x.listeners ++ [l] }.refs := by
  intro j hj
  simp only [VirtualObject.refs, List.map_append, List.map_cons, List.map_nil, List.mem_append,
    List.mem_singleton] at hj
  rcases hj with ((hj | rfl) | hj) | hj
  · exact h j (by simp only [VirtualObject.refs, List.mem_append, hj, true_or])
  · exact hl
  · exact h j (by simp only [VirtualObject.refs, List.mem_append, hj, true_or, or_true])
  · exact h j (by simp only [VirtualObject.refs, List.mem_append, hj, or_true])

/-- A request of a client on its own objects leads to no object of another. -/
theorem RequestStep.segregated {T : ℕ → Prop} (h : RequestStep T client s s')
    (hs : Segregated f s) (hT : ∀ i, T i → f i = client)
    (hn : s.nextId < s'.nextId → f s.nextId = client) : Segregated f s' := by
  cases h with
  | virtualObject hv =>
    have hc := hn (Nat.lt_succ_self _)
    have h1 := newResource_segregated hs .virtualObject hc
    exact ⟨h1.resources, hs.objects.set fun j hj => (by cases hj), hs.apps, hs.units,
      hs.techniques, hs.vertexArrays⟩
  | unit v hv =>
    have hc := hn (Nat.lt_succ_self _)
    have hvc : f s.nextId = f v := hc.trans (hT v hv).symm
    have h1 := newResource_segregated hs .renderingUnit hc
    refine ⟨h1.resources, hs.objects.modify fun x _ hx => addListener_near hvc hx, hs.apps,
      hs.units.set fun j hj => ?_, hs.techniques, hs.vertexArrays⟩
    rw [List.mem_singleton.mp hj]
    exact hvc.symm
  | technique u hu =>
    have hc := hn (Nat.lt_succ_self _)
    have huc : f s.nextId = f u := hc.trans (hT u hu).symm
    have h1 := newResource_segregated hs .baseTechnique hc
    refine ⟨h1.resources, hs.objects, hs.apps, hs.units.modify fun y _ hy j hj => ?_,
      hs.techniques.set fun j hj => ?_, hs.vertexArrays⟩
    · simp only [RenderingUnit.refs, List.mem_cons, List.mem_append, List.not_mem_nil,
        or_false] at hj
      rcases hj with hj | hj | hj | rfl
      · exact hy j (by simp [RenderingUnit.refs, hj])
      · exact hy j (by simp only [RenderingUnit.refs, List.mem_cons, List.mem_append, hj, true_or,
          or_true])
      · exact hy j (by simp [RenderingUnit.refs, hj])
      · exact huc
    · have hj' : j = u := by simpa [GlBaseTechnique.refs, TechniqueState.mem_refs,
        DrawApiArgs.refs] using hj
      rw [hj']
      exact huc.symm
  | bounded v hv =>
    have hc := hn (Nat.lt_succ_self _)
    have hvc : f s.nextId = f v := hc.trans (hT v hv).symm
    have h1 := newResource_segregated hs .bounded hc
    exact ⟨h1.resources, hs.objects.modify fun x _ hx => addListener_near hvc hx,
      hs.apps.set hvc.symm, hs.units, hs.techniques, hs.vertexArrays⟩
  | vertexArray =>
    have h1 := newResource_segregated hs .glVertexArray (hn (Nat.lt_succ_self _))
    exact ⟨h1.resources, hs.objects, hs.apps, hs.units, hs.techniques,
      hs.vertexArrays.set fun j hj => (by cases hj)⟩
  | program | shader | buffer | texture | sampler | region | shmBuffer =>
    have hc := hn (Nat.lt_succ_self _)
    exact ⟨hs.resources.set hc.symm, hs.objects, hs.apps, hs.units, hs.techniques,
      hs.vertexArrays⟩
  | configure b bytes hb =>
    exact ⟨hs.resources, hs.objects, hs.apps.modify fun _ _ h => h, hs.units, hs.techniques,
      hs.vertexArrays⟩
  | app v b hv hb =>
    refine ⟨hs.resources, hs.objects.modify fun x _ hx j hj => ?_, hs.apps, hs.units,
      hs.techniques, hs.vertexArrays⟩
    simp only [VirtualObject.refs, Option.toList_some, List.mem_append, List.mem_singleton] at hj
    rcases hj with hj | rfl
    · exact hx j (by simp only [VirtualObject.refs, List.mem_append, hj, true_or])
    · exact (hT j hb).trans (hT v hv).symm
  | bound b x p hb hx =>
    exact ⟨hs.resources, hs.objects, hs.apps.set (hs.apps b x hx), hs.units, hs.techniques,
      hs.vertexArrays⟩
  | ask t r ht hr =>
    refine ⟨hs.resources, hs.objects, hs.apps, hs.units, hs.techniques.modify fun z _ hz i hi => ?_,
      hs.vertexArrays⟩
    simp only [GlBaseTechnique.refs, GlBaseTechnique.request, List.mem_cons, List.mem_append] at hi
    rcases hi with hi | hi | hi
    · exact hz i (by simp [GlBaseTechnique.refs, hi])
    · rcases TechniqueState.refs_request hi with hi | hi
      · exact hz i (by simp [GlBaseTechnique.refs, hi])
      · exact (hT i (hr i hi)).trans (hT t ht).symm
    · exact hz i (by simp [GlBaseTechnique.refs, hi])
  | attrib va index g hva hg =>
    refine ⟨hs.resources, hs.objects, hs.apps, hs.units, hs.techniques,
      hs.vertexArrays.modify fun x _ hx i hi => ?_⟩
    rcases GlVertexArray.refs_updatePendingAttribute hg hi with hi | hi
    · exact hx i hi
    · exact (hT i hi).trans (hT va hva).symm
  | _ => exact ⟨hs.resources, hs.objects, hs.apps, hs.units, hs.techniques, hs.vertexArrays⟩

theorem RequestStep.nextId_le {T : ℕ → Prop} (h : RequestStep T client s s') :
    s.nextId ≤ s'.nextId := by
  cases h <;> first | exact Nat.le_refl _ | exact Nat.le_succ _

/-- What relates the two ends of each step of a request relates those of the request, unless that
is a commit. A frame request is one step of its own. -/
theorem handle_relates {R : Scene → Scene → Prop} (hrefl : ∀ s, R s s)
    (htrans : ∀ {s s' s''}, R s s' → R s' s'' → R s s'') (hs : Tree s)
    (hstep : ∀ u u', RequestStep (fun _ => True) client u u' → s.nextId ≤ u.nextId → R u u')
    {r : Request} (hc : ∀ v, r ≠ .commit v)
    (hf : ∀ v, r = .frame v → R s (s.handle client (.frame v))) : R s (s.handle client r) := by
  by_cases hfr : ∃ v, r = .frame v
  · obtain ⟨v, rfl⟩ := hfr
    exact hf v rfl
  · have hn : s.virtualObjects s.nextId = none := by
      simpa [forest] using (hs.fresh s.nextId (Nat.le_refl _)).1
    have h1 : RequestSteps (fun _ => True) client s (s.handle client r) :=
      handle_steps (fun _ _ => trivial) (fun _ _ _ => trivial) hn hc fun v h => hfr ⟨v, h⟩
    have h2 : R s (s.handle client r) ∧ s.nextId ≤ (s.handle client r).nextId :=
      Path.preserves (P := fun u => R s u ∧ s.nextId ≤ u.nextId)
        (fun u u' h ih => ⟨htrans ih.1 (hstep u u' h ih.2), ih.2.trans h.nextId_le⟩) h1
        ⟨hrefl s, Nat.le_refl _⟩
    exact h2.1

theorem RequestStep.others {T : ℕ → Prop} (h : RequestStep T client s s') {P : ℕ → Prop}
    (hT : ∀ i, T i → P i) (hn : s.nextId < s'.nextId → P s.nextId) : Local P s s' := by
  cases h with
  | virtualObject hv =>
    exact ⟨.set (hn (Nat.lt_succ_self _)) _, .refl, .refl, .refl, .refl, .refl⟩
  | unit v hv => exact ⟨.modify (hT v hv) _, .refl, .refl, .refl, .refl, .refl⟩
  | technique u hu =>
    exact ⟨.refl, .refl, .set (hn (Nat.lt_succ_self _)) _, .refl, .refl, .refl⟩
  | bounded v hv =>
    exact ⟨.modify (hT v hv) _, .set (hn (Nat.lt_succ_self _)) _, .refl, .refl, .refl, .refl⟩
  | buffer g => exact ⟨.refl, .refl, .refl, .set (hn (Nat.lt_succ_self _)) _, .refl, .refl⟩
  | texture g => exact ⟨.refl, .refl, .refl, .refl, .set (hn (Nat.lt_succ_self _)) _, .refl⟩
  | sampler => exact ⟨.refl, .refl, .refl, .refl, .refl, .set (hn (Nat.lt_succ_self _)) _⟩
  | configure b bytes hb => exact ⟨.refl, .modify (hT b hb) _, .refl, .refl, .refl, .refl⟩
  | app v b hv hb => exact ⟨.modify (hT v hv) _, .refl, .refl, .refl, .refl, .refl⟩
  | bound b x p hb hx => exact ⟨.refl, .set (hT b hb) _, .refl, .refl, .refl, .refl⟩
  | ask t r ht hr => exact ⟨.refl, .refl, .modify (hT t ht) _, .refl, .refl, .refl⟩
  | data b target usage d hb => exact ⟨.refl, .refl, .refl, .modify (hT b hb) _, .refl, .refl⟩
  | image t i d ht => exact ⟨.refl, .refl, .refl, .refl, .modify (hT t ht) _, .refl⟩
  | mipmap t target ht => exact ⟨.refl, .refl, .refl, .refl, .modify (hT t ht) _, .refl⟩
  | parameter p pname v hp => exact ⟨.refl, .refl, .refl, .refl, .refl, .modify (hT p hp) _⟩
  | _ => exact ⟨.refl, .refl, .refl, .refl, .refl, .refl⟩

/-- What a client does: no reference leads to another client afterwards, and the objects of the
others are as they were. -/
structure Within (f : ℕ → ℕ) (client : ℕ) (s s' : Scene) : Prop where
  segregated : Segregated f s'
  others : Local (fun i => f i = client) s s'

theorem Within.refl (hs : Segregated f s) : Within f client s s := ⟨hs, .refl _ s⟩

theorem Within.trans {s'' : Scene} (h : Within f client s s') (h' : Within f client s' s'') :
    Within f client s s'' := ⟨h'.segregated, h.others.trans h'.others⟩

/-- `f` gives the addresses of the new objects to the client. -/
def Gives (f : ℕ → ℕ) (client n m : ℕ) : Prop := ∀ i, n ≤ i → i < m → f i = client

theorem RequestSteps.within {T : ℕ → Prop} (h : RequestSteps T client s s') (hs : Segregated f s)
    (hT : ∀ i, T i → f i = client) (hg : Gives f client s.nextId s'.nextId) :
    Within f client s s' := by
  have h1 : s.nextId ≤ s'.nextId ∧ (s'.nextId ≤ s'.nextId → Within f client s s') := by
    refine Path.preserves (P := fun u => s.nextId ≤ u.nextId ∧
      (u.nextId ≤ s'.nextId → Within f client s u)) (fun u u' h ih => ?_) h
      ⟨Nat.le_refl _, fun _ => .refl hs⟩
    have hle := h.nextId_le
    refine ⟨ih.1.trans hle, fun hu => ?_⟩
    have hw := ih.2 (hle.trans hu)
    have hn (hlt : u.nextId < u'.nextId) : f u.nextId = client :=
      hg u.nextId ih.1 (Nat.lt_of_lt_of_le hlt hu)
    exact hw.trans ⟨h.segregated hw.segregated hT hn, h.others hT hn⟩
  exact h1.2 (Nat.le_refl _)

theorem queueFrameCallback_within (hs : Segregated f s) {v : ℕ} (hv : f v = client) :
    Within f client s (s.queueFrameCallback v) where
  segregated := ⟨hs.resources, hs.objects.modify fun _ _ h => h, hs.apps, hs.units,
    hs.techniques, hs.vertexArrays⟩
  others := ⟨.modify (P := fun i => f i = client) hv _, .refl, .refl, .refl, .refl, .refl⟩

theorem setTechnique_none_within (hs : Segregated f s) (u : ℕ) :
    Within f client s (s.setTechnique u none) := by
  unfold setTechnique
  split
  · exact ⟨crash_segregated hs _, ⟨.refl, .refl, .refl, .refl, .refl, .refl⟩⟩
  · next y hy =>
    rw [if_neg (by simp)]
    refine ⟨⟨hs.resources, hs.objects, hs.apps, hs.units.set fun j hj => ?_, hs.techniques,
      hs.vertexArrays⟩, ⟨.refl, .refl, .refl, .refl, .refl, .refl⟩⟩
    refine hs.units u y hy j ?_
    simp only [RenderingUnit.refs, Option.toList_none, List.nil_append, List.mem_cons] at hj
    rcases hj with hj | hj
    · simp [RenderingUnit.refs, hj]
    · simp [RenderingUnit.refs, hj]

theorem dropTechnique_within (hs : Segregated f s) {t : ℕ} (ht : f t = client) (u : ℕ) :
    Within f client s (s.dropTechnique t u) := by
  refine ⟨⟨hs.resources, hs.objects, hs.apps, hs.units.modify fun y _ hy j hj => ?_,
    hs.techniques.erase, hs.vertexArrays⟩, ⟨.refl, .refl, .erase ht, .refl, .refl, .refl⟩⟩
  refine hy j ?_
  simp only [RenderingUnit.refs, List.mem_cons, List.mem_append, List.mem_filter] at hj ⊢
  exact hj.imp_right (Or.imp_right And.left)

theorem deleteTechnique_within (hs : Segregated f s) {t : ℕ} (ht : f t = client) :
    Within f client s (s.deleteTechnique t) := by
  unfold deleteTechnique
  split
  · exact ⟨crash_segregated hs _, ⟨.refl, .refl, .refl, .refl, .refl, .refl⟩⟩
  · next x hx =>
    have h1 : Within f client s (s.setTechnique x.owner none) := setTechnique_none_within hs _
    exact h1.trans (dropTechnique_within h1.segregated ht _)

/-- Less is left of a virtual object. -/
theorem modifyVirtualObject_within (hs : Segregated f s) {v : ℕ} (hv : f v = client)
    {g : VirtualObject → VirtualObject} (hg : ∀ x, ∀ i ∈ (g x).refs, i ∈ x.refs) :
    Within f client s { s with virtualObjects := s.virtualObjects.modify v g } where
  segregated := ⟨hs.resources, hs.objects.modify fun x _ h i hi => h i (hg x i hi), hs.apps,
    hs.units, hs.techniques, hs.vertexArrays⟩
  others := ⟨.modify (P := fun i => f i = client) hv _, .refl, .refl, .refl, .refl, .refl⟩

theorem removeRenderingUnit_within (hs : Segregated f s) {v : ℕ} (hv : f v = client) (u : ℕ) :
    Within f client s (s.removeRenderingUnit v u) := by
  unfold removeRenderingUnit
  split
  · exact ⟨crash_segregated hs _, ⟨.refl, .refl, .refl, .refl, .refl, .refl⟩⟩
  · next x hx =>
    split
    · exact .refl hs
    · rw [Arena.set_eq_modify (g := fun x =>
        { x with renderingUnitList := x.renderingUnitList.filter (· ≠ u) }) hx rfl]
      refine modifyVirtualObject_within hs hv fun x i hi => ?_
      simp only [VirtualObject.refs, List.mem_append, List.mem_filter] at hi ⊢
      exact hi.imp_left (Or.imp_right And.left)

/-- A listener of a virtual object goes. -/
theorem dropListener_within (hs : Segregated f s) {v : ℕ} (hv : f v = client)
    (l : CommitListener) :
    Within f client s
      { s with
        virtualObjects := s.virtualObjects.modify v fun x =>
          { x with listeners := x.listeners.filter (· ≠ l) } } := by
  refine modifyVirtualObject_within hs hv fun x i hi => ?_
  simp only [VirtualObject.refs, List.mem_append, List.mem_map, List.mem_filter] at hi ⊢
  refine hi.imp_left (Or.imp_left fun h => ?_)
  obtain ⟨m, hm, he⟩ := h
  exact ⟨m, hm.1, he⟩

theorem deleteRenderingUnit_within (hs : Segregated f s) {u : ℕ} (hu : f u = client) :
    Within f client s (s.deleteRenderingUnit u) := by
  unfold deleteRenderingUnit
  split
  · exact ⟨crash_segregated hs _, ⟨.refl, .refl, .refl, .refl, .refl, .refl⟩⟩
  · next y hy =>
    have ho : f y.owner = client := (hs.units u y hy _ List.mem_cons_self).trans hu
    have h1 := removeRenderingUnit_within hs ho u
    have h2 : Within f client (s.removeRenderingUnit y.owner u)
        ((s.removeRenderingUnit y.owner u).deleteTechnique? y.technique) := by
      cases ht : y.technique with
      | none => exact .refl h1.segregated
      | some t =>
        exact deleteTechnique_within h1.segregated
          ((hs.units u y hy t (by simp [RenderingUnit.refs, ht])).trans hu)
    have h3 := dropListener_within h2.segregated ho (.unit u)
    refine (h1.trans (h2.trans h3)).trans ⟨?_, ⟨.refl, .refl, .refl, .refl, .refl, .refl⟩⟩
    have hs3 := h3.segregated
    exact ⟨hs3.resources, hs3.objects, hs3.apps, hs3.units.erase, hs3.techniques,
      hs3.vertexArrays⟩

theorem deleteUnits_within {l : List ℕ} (hl : ∀ u ∈ l, f u = client) (hs : Segregated f s) :
    Within f client s (l.foldl deleteRenderingUnit s) := by
  induction l generalizing s with
  | nil => exact .refl hs
  | cons u l ih =>
    have h1 := deleteRenderingUnit_within hs (hl u List.mem_cons_self)
    exact h1.trans (ih (fun w hw => hl w (List.mem_cons_of_mem u hw)) h1.segregated)

theorem deleteBoundedApp_within (hs : Segregated f s) {b : ℕ} (hb : f b = client) :
    Within f client s (s.deleteBoundedApp b) := by
  unfold deleteBoundedApp
  split
  · exact ⟨crash_segregated hs _, ⟨.refl, .refl, .refl, .refl, .refl, .refl⟩⟩
  · next x hx =>
    have h1 := dropListener_within hs ((hs.apps b x hx).trans hb) (.app b)
    refine h1.trans ⟨?_, ⟨.refl, .erase hb, .refl, .refl, .refl, .refl⟩⟩
    have hs1 := h1.segregated
    exact ⟨hs1.resources, hs1.objects, hs1.apps.erase, hs1.units, hs1.techniques,
      hs1.vertexArrays⟩

theorem deleteVirtualObject_within (hs : Segregated f s) {v : ℕ} (hv : f v = client) :
    Within f client s (s.deleteVirtualObject v) := by
  unfold deleteVirtualObject
  split
  · exact ⟨crash_segregated hs _, ⟨.refl, .refl, .refl, .refl, .refl, .refl⟩⟩
  · next x hx =>
    have hr : ∀ i ∈ x.refs, f i = client := fun i hi => (hs.objects v x hx i hi).trans hv
    have h1 := modifyVirtualObject_within hs hv (g := fun x => { x with destroying := true })
      fun _ _ h => h
    have h2 := deleteUnits_within (s := s.markDestroying v) (l := x.renderingUnitList)
      (fun u hu => hr u (by simp [VirtualObject.refs, hu])) h1.segregated
    have h3 : Within f client (x.renderingUnitList.foldl deleteRenderingUnit (s.markDestroying v))
        ((x.renderingUnitList.foldl deleteRenderingUnit (s.markDestroying v)).deleteBoundedApp?
          x.app) := by
      cases hb : x.app with
      | none => exact .refl h2.segregated
      | some b =>
        exact deleteBoundedApp_within h2.segregated (hr b (by simp [VirtualObject.refs, hb]))
    have h4 := (Within.trans h1 h2).trans h3
    refine h4.trans ⟨?_, ⟨.erase hv, .refl, .refl, .refl, .refl, .refl⟩⟩
    have hs4 := h4.segregated
    exact ⟨hs4.resources, hs4.objects.erase, hs4.apps, hs4.units, hs4.techniques,
      hs4.vertexArrays⟩

theorem deleteObject_within (hs : Segregated f s) {r : ℕ} (hr : f r = client) (i : Interface) :
    Within f client s (s.deleteObject r i) := by
  cases i with
  | virtualObject => exact deleteVirtualObject_within hs hr
  | bounded =>
    simp only [deleteObject]
    split
    · exact deleteBoundedApp_within hs hr
    · exact .refl hs
  | renderingUnit =>
    simp only [deleteObject]
    split
    · exact deleteRenderingUnit_within hs hr
    · exact .refl hs
  | baseTechnique =>
    simp only [deleteObject]
    split
    · exact deleteTechnique_within hs hr
    · exact .refl hs
  | glVertexArray =>
    exact ⟨⟨hs.resources, hs.objects, hs.apps, hs.units, hs.techniques, hs.vertexArrays.erase⟩,
      ⟨.refl, .refl, .refl, .refl, .refl, .refl⟩⟩
  | glBuffer =>
    exact ⟨⟨hs.resources, hs.objects, hs.apps, hs.units, hs.techniques, hs.vertexArrays⟩,
      ⟨.refl, .refl, .refl, .erase hr, .refl, .refl⟩⟩
  | glTexture =>
    exact ⟨⟨hs.resources, hs.objects, hs.apps, hs.units, hs.techniques, hs.vertexArrays⟩,
      ⟨.refl, .refl, .refl, .refl, .erase hr, .refl⟩⟩
  | glSampler =>
    exact ⟨⟨hs.resources, hs.objects, hs.apps, hs.units, hs.techniques, hs.vertexArrays⟩,
      ⟨.refl, .refl, .refl, .refl, .refl, .erase hr⟩⟩
  | _ =>
    exact ⟨⟨hs.resources, hs.objects, hs.apps, hs.units, hs.techniques, hs.vertexArrays⟩,
      ⟨.refl, .refl, .refl, .refl, .refl, .refl⟩⟩

theorem destroyResource_within (hs : Segregated f s) {r : ℕ} (hr : f r = client) :
    Within f client s (s.destroyResource r) := by
  unfold destroyResource
  split
  · exact .refl hs
  · next x _ =>
    have h1 := deleteObject_within hs hr x.interface
    refine h1.trans ⟨?_, ⟨.refl, .refl, .refl, .refl, .refl, .refl⟩⟩
    have hs1 := h1.segregated
    exact ⟨hs.resources.erase, hs1.objects, hs1.apps, hs1.units, hs1.techniques,
      hs1.vertexArrays⟩

end Steps

end Scene
end Yaza
