import Yaza.Wayland.Surface

/-! What the renderer of a surface was told last: the geometry of the surface, and its content if
it has any. -/
namespace Yaza

def RendererCall.localModel? : RendererCall → Option LocalModel
  | .setUniformMatrix m => some m
  | _ => none

def RendererCall.texture? : RendererCall → Option (WlShmBuffer × (ℕ × ℕ))
  | .setTexture texture size => some (texture, size)
  | _ => none

namespace Renderer
variable (r : Renderer) (cs : List RendererCall)

/-- `local_model`, as it was set last. -/
def localModel : Option LocalModel := (r.calls.filterMap RendererCall.localModel?).getLast?

/-- The texture and its size, as they were set last. -/
def texture : Option (WlShmBuffer × (ℕ × ℕ)) :=
  (r.calls.filterMap RendererCall.texture?).getLast?

def tell : Renderer := { r with calls := r.calls ++ cs }

theorem tell_localModel : (r.tell cs).localModel =
    (cs.filterMap RendererCall.localModel?).getLast?.or r.localModel := by
  simp only [localModel, tell, List.filterMap_append, List.getLast?_append]

theorem tell_texture : (r.tell cs).texture =
    (cs.filterMap RendererCall.texture?).getLast?.or r.texture := by
  simp only [texture, tell, List.filterMap_append, List.getLast?_append]

end Renderer

namespace Surface

/-- The surface is where its polar coordinates place it, or where a cursor was. -/
def Placed (x : Surface) : Prop :=
  x.geom.place = .sphere x.distance x.polar x.azimuthal ∨
    ∃ distance polar azimuthal hotspot texSize,
      x.geom.place = .cursor distance polar azimuthal hotspot texSize

/-- The renderer has the geometry of the surface. -/
structure Modelled (x : Surface) (r : Renderer) : Prop where
  localModel : r.localModel = some ⟨x.geom, x.offset, x.isActive⟩
  placed : x.Placed

/-- It also has the content, if there is any. -/
structure Told (x : Surface) (r : Renderer) : Prop extends Modelled x r where
  texture : ∀ t, x.texture = some t → r.texture = some (t, x.texSize)

/-- What there is of a renderer has been told everything. -/
def Synced (x : Surface) : Prop := ∀ r, x.renderer = some r → x.Told r

variable {x y : Surface} {r : Renderer}

theorem tell_renderer {cs : List RendererCall} :
    (x.tell cs).renderer = some r ↔ ∃ q, x.renderer = some q ∧ q.tell cs = r :=
  Option.map_eq_some_iff

/-- `local_model` is set for a surface that has its place. -/
theorem syncGeom_modelled (hp : (x.renderer).isSome → x.Placed)
    (hr : x.syncGeom.renderer = some r) : x.syncGeom.Modelled r := by
  obtain ⟨q, hq, rfl⟩ := tell_renderer.mp hr
  refine ⟨?_, hp (by rw [hq]; rfl)⟩
  rw [Renderer.tell_localModel]
  rfl

/-- The same for a renderer that had the content already. -/
theorem syncGeom_synced (hp : (x.renderer).isSome → x.Placed)
    (ht : ∀ q t, x.renderer = some q → x.texture = some t → q.texture = some (t, x.texSize)) :
    x.syncGeom.Synced := by
  intro r hr
  refine ⟨syncGeom_modelled hp hr, fun t hxt => ?_⟩
  obtain ⟨q, hq, rfl⟩ := tell_renderer.mp hr
  rw [Renderer.tell_texture]
  exact ht q t hq hxt

theorem Synced.commit (h : x.Synced) : (x.tell [.commit]).Synced := by
  intro r hr
  obtain ⟨q, hq, rfl⟩ := tell_renderer.mp hr
  obtain ⟨⟨h1, h2⟩, h3⟩ := h q hq
  refine ⟨⟨?_, h2⟩, fun t ht => ?_⟩
  · rw [Renderer.tell_localModel]
    exact h1
  · rw [Renderer.tell_texture]
    exact h3 t ht

/-- Only the fields that the renderer draws matter. -/
theorem Synced.same (h : x.Synced) (hr : y.renderer = x.renderer) (hg : y.geom = x.geom)
    (hm : (y.offset, y.isActive) = (x.offset, x.isActive))
    (hp : (y.distance, y.polar, y.azimuthal) = (x.distance, x.polar, x.azimuthal))
    (ht : (y.texture, y.texSize) = (x.texture, x.texSize)) : y.Synced := by
  simp only [Prod.mk.injEq] at hm hp ht
  intro r hy
  obtain ⟨⟨h1, h2⟩, h3⟩ := h r (hr ▸ hy)
  refine ⟨⟨?_, ?_⟩, ?_⟩
  · rw [hg, hm.1, hm.2]
    exact h1
  · simp only [Placed, hg, hp]
    exact h2
  · rw [ht.1, ht.2]
    exact h3

/-- `sync_geom` after the geometry has changed, the content being what it was. -/
theorem Synced.syncGeom (h : x.Synced) (hr : y.renderer = x.renderer) (hp : x.Placed → y.Placed)
    (ht : (y.texture, y.texSize) = (x.texture, x.texSize)) : y.syncGeom.Synced := by
  simp only [Prod.mk.injEq] at ht
  refine syncGeom_synced (fun hy => ?_) fun q t hq hyt => ?_
  · obtain ⟨q, hq⟩ := Option.isSome_iff_exists.mp hy
    exact hp (h q (hr ▸ hq)).placed
  · rw [ht.2]
    exact (h q (hr ▸ hq)).texture t (ht.1 ▸ hyt)

/-- The same for `update_pos_and_rot`, which gives the surface its place. -/
theorem Synced.updatePosAndRot (h : x.Synced) (hr : y.renderer = x.renderer)
    (ht : (y.texture, y.texSize) = (x.texture, x.texSize)) : y.updatePosAndRot.Synced :=
  h.syncGeom (y := { y with geom.place := .sphere y.distance y.polar y.azimuthal }) hr
    (fun _ => .inl rfl) ht

theorem Synced.move (h : x.Synced) (polar azimuthal : ℚ) : (x.move polar azimuthal).Synced :=
  (h.updatePosAndRot (y := { x with
      polar := x.polar + polar
      azimuthal := x.azimuthal + azimuthal }) rfl rfl).commit

theorem Synced.moveCursor (h : x.Synced) (distance polar azimuthal : ℚ) (hotspot : ℤ × ℤ) :
    (x.moveCursor distance polar azimuthal hotspot).Synced :=
  (h.syncGeom (y := { x with
      geom.place := .cursor distance polar azimuthal hotspot (x.texSize.1, x.texSize.2) })
    rfl (fun _ => .inr ⟨_, _, _, _, _, rfl⟩) rfl).commit

theorem Synced.setActive (h : x.Synced) (active : Bool) : (x.setActive active).Synced :=
  (h.syncGeom (y := { x with isActive := active }) rfl id rfl).commit

theorem Synced.setRole (h : x.Synced) (role : Role) (roleObj : Option ℕ) :
    (x.setRole role roleObj).Synced := h.same rfl rfl rfl rfl rfl

theorem Synced.updateDistance (h : x.Synced) {index : ℕ}
    (hy : x.updateDistanceByLayerIndex index = some y) : y.Synced := by
  simp only [updateDistanceByLayerIndex] at hy
  split at hy
  · cases hy
  · have h1 := h.updatePosAndRot (y := { x with distance := minDistance + layerZOffset * index })
      rfl rfl
    cases hy
    split
    · exact h1.commit
    · exact h1

theorem Synced.commitOffset (h : x.Synced) : x.commitOffset.Synced := by
  unfold Surface.commitOffset
  split
  · exact h.syncGeom rfl id rfl
  · exact h

/-- The size changes before the content is sent. -/
theorem Synced.commitBuffer (h : x.Synced) (b : WlShmBuffer)
    (hr : (x.commitBuffer b).renderer = some r) : (x.commitBuffer b).Modelled r := by
  unfold Surface.commitBuffer at hr ⊢
  split at hr
  · next hb =>
    rw [if_pos hb]
    have hp : (x.renderer).isSome → x.Placed := fun hx => by
      obtain ⟨q, hq⟩ := Option.isSome_iff_exists.mp hx
      exact (h q hq).placed
    obtain ⟨h1, h2⟩ := syncGeom_modelled (x := { x with
      texture := some b, texSize := (b.width, b.height), geom.size := some (b.width, b.height) })
      hp hr
    exact ⟨h1, h2⟩
  · next hb =>
    rw [if_neg hb]
    exact ⟨(h r hr).localModel, (h r hr).placed⟩

/-- The content is sent. -/
theorem tellTexture_synced (h : ∀ q, x.renderer = some q → x.Modelled q) :
    x.tellTexture.Synced := by
  unfold tellTexture
  split
  · next hx => exact fun r hr => ⟨h r hr, fun t ht => by rw [hx] at ht; cases ht⟩
  · next b hx =>
    intro r hr
    obtain ⟨q, hq, rfl⟩ := tell_renderer.mp hr
    refine ⟨⟨?_, (h q hq).placed⟩, fun t ht => ?_⟩
    · rw [Renderer.tell_localModel]
      exact (h q hq).localModel
    · rw [Renderer.tell_texture]
      have hbt : x.texture = some t := ht
      rw [hx] at hbt
      cases hbt
      rfl

theorem Synced.tellTexture (h : x.Synced) : x.tellTexture.Synced :=
  tellTexture_synced fun q hq => (h q hq).toModelled

theorem Synced.commitFrames (h : x.Synced) : x.commitFrames.Synced := h.same rfl rfl rfl rfl rfl

/-- A new renderer has everything. -/
theorem initRenderer_synced (x : Surface) (channel : ℕ) : (x.initRenderer channel).Synced :=
  tellTexture_synced fun _ hq => syncGeom_modelled (fun _ => .inl rfl) hq

theorem tellTexture_renderer (x : Surface) : x.tellTexture.renderer = x.renderer.map fun r =>
    r.tell (match x.texture with
      | none => []
      | some t => [.setTexture t x.texSize, .commit]) := by
  unfold tellTexture
  cases x.texture with
  | none => cases x.renderer <;> simp [Renderer.tell]
  | some t => rfl

/-- What a new renderer is told. -/
theorem initRenderer_renderer (x : Surface) (channel : ℕ) :
    ∃ r, (x.initRenderer channel).renderer = some r ∧
      r.localModel = some ⟨x.updatePosAndRot.geom, x.offset, x.isActive⟩ ∧
      r.texture = x.texture.map fun t => (t, x.texSize) := by
  refine ⟨_, tellTexture_renderer _, ?_, ?_⟩
  · rw [Renderer.tell_localModel]
    cases hx : x.texture <;> simp only [updatePosAndRot, syncGeom, Surface.tell, hx] <;> rfl
  · rw [Renderer.tell_texture]
    cases x.texture <;> simp only [updatePosAndRot, syncGeom, Surface.tell] <;> rfl

end Surface
end Yaza
