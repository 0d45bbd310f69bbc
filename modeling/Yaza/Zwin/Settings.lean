import Yaza.Zwin.Serving
import Yaza.Zwin.Uniforms

/-! The state of a technique, part by part: what its remote object was told last, and what is
committed, less the objects that are gone. -/
namespace Yaza

/-- The parts of the state of a technique; each holds what it was set to last. -/
inductive Part where
  | vertexArray
  | program
  | texture (binding : UInt32)
  | uniform (key : UInt32 ⊕ String)
  | draw
  deriving DecidableEq

/-- What a part is set to. -/
inductive Setting where
  | vertexArray (va : ℕ)
  | program (p : ℕ)
  | texture (b : TextureBinding)
  | uniformVector (type : UniformType) (location : UInt32) (name : String)
      (size count : UInt32) (value : Bytes)
  | uniformMatrix (location : UInt32) (name : String) (col row count : UInt32)
      (transpose : Bool) (value : Bytes)
  | drawArrays (mode : UInt32) (first : Int32) (count : UInt32)
  | drawElements (mode count type : UInt32) (offset : UInt64) (elementArrayBuffer : ℕ)
  deriving DecidableEq

/-- What names a uniform variable: its name, or its location if it has none. -/
def uniformKey (location : UInt32) (name : String) : UInt32 ⊕ String :=
  if name = "" then .inl location else .inr name

def Setting.part : Setting → Part
  | .vertexArray _ => .vertexArray
  | .program _ => .program
  | .texture b => .texture b.binding
  | .uniformVector _ location name _ _ _ | .uniformMatrix location name _ _ _ _ _ =>
      .uniform (uniformKey location name)
  | .drawArrays _ _ _ | .drawElements _ _ _ _ _ => .draw

/-- A vector of an unknown type is not sent. -/
def Setting.sent : Setting → Bool
  | .uniformVector (.other _) _ _ _ _ _ => false
  | _ => true

/-- A matrix of one column is sent as a vector. -/
def UniformVariable.setting (v : UniformVariable) : Setting :=
  if v.col = 1 then .uniformVector v.type v.location v.name v.row v.count v.value
  else .uniformMatrix v.location v.name v.col v.row v.count v.transpose v.value

/-- The remote technique that a call is made on, and the part of it that is set. -/
def Call.part? : Call → Option (ℕ × Part)
  | .bindVertexArray t _ => some (t, .vertexArray)
  | .bindProgram t _ => some (t, .program)
  | .bindTexture t binding _ _ _ _ => some (t, .texture binding)
  | .glUniformVector t _ location name _ _ _ | .glUniformMatrix t location name _ _ _ _ _ =>
      some (t, .uniform (uniformKey location name))
  | .glDrawArrays t _ _ _ | .glDrawElements t _ _ _ _ _ => some (t, .draw)
  | _ => none

/-- The objects that a setting refers to. -/
def Setting.holders : Setting → List Scene.Holder
  | .vertexArray va => [.vertexArray va]
  | .program p => [.program p]
  | .texture b => [.texture b.texture, .sampler b.sampler]
  | .drawElements _ _ _ _ b => [.buffer b]
  | _ => []

/-- The ids of the remote objects that a call gives to a technique. -/
def Call.given : Call → List ℕ
  | .bindVertexArray _ i | .bindProgram _ i | .glDrawElements _ _ _ _ _ i => [i]
  | .bindTexture _ _ _ i _ j => [i, j]
  | _ => []

/-- What the draw arguments say, if their buffer is alive. -/
def DrawData.setting (alive : ℕ → Bool) : DrawData → Option Setting
  | .none => Option.none
  | .arrays mode first count => some (.drawArrays mode first count)
  | .elements mode count type offset b =>
      if alive b then some (.drawElements mode count type offset b) else Option.none

namespace Scene

/-- `remote_id()`. -/
def idOf (s : Scene) (h : Holder) : Option ℕ := (s.proxyOf h).map Proxy.id

/-- The call on the remote technique `technique` that makes the setting. -/
def callFor (s : Scene) (technique : ℕ) : Setting → Option Call
  | .vertexArray va => (s.idOf (.vertexArray va)).map (.bindVertexArray technique)
  | .program p => (s.idOf (.program p)).map (.bindProgram technique)
  | .texture b =>
      (s.idOf (.texture b.texture)).bind fun texture =>
        (s.idOf (.sampler b.sampler)).map (.bindTexture technique b.binding b.name texture b.target)
  | .uniformVector type location name size count value =>
      some (.glUniformVector technique type location name size count value)
  | .uniformMatrix location name col row count transpose value =>
      some (.glUniformMatrix technique location name col row count transpose value)
  | .drawArrays mode first count => some (.glDrawArrays technique mode first count)
  | .drawElements mode count type offset b =>
      (s.idOf (.buffer b)).map (.glDrawElements technique mode count type offset)

/-- What the remote technique was told last about the part; a fresh proxy was told nothing. -/
def told (s : Scene) (technique : ℕ) (k : Part) : Option Call :=
  LastWrite.latest Call.part? s.remote.calls (some (technique, k))

def vertexArrayOf (s : Scene) (x : TechniqueState) : List Setting :=
  (s.glVertexArrays.lock x.vertexArray).toList.map .vertexArray

def programOf (s : Scene) (x : TechniqueState) : List Setting :=
  (s.glPrograms.lock x.program).toList.map .program

def texturesOf (s : Scene) (x : TechniqueState) : List Setting :=
  (x.textureBindings.removeExpired s.bindingAlive).list.map .texture

def uniformsOf (x : TechniqueState) : List Setting := x.uniformVars.map UniformVariable.setting

def drawOf (s : Scene) (x : TechniqueState) : List Setting :=
  (x.drawApiArgs.data.setting fun b => (s.glBuffers b).isSome).toList

/-- The state of a technique as settings, in the order of `GlBaseTechnique::sync`, less what
refers to an object that is gone. -/
def settings (s : Scene) (x : TechniqueState) : List Setting :=
  s.vertexArrayOf x ++ s.programOf x ++ s.texturesOf x ++ uniformsOf x ++ s.drawOf x

/-- The uniform variables that a sync tells. -/
def newUniforms (x : TechniqueState) (force : Bool) : List Setting :=
  ((x.uniformVars.filter fun v => force || v.newlyComitted).map UniformVariable.setting).filter
    Setting.sent

/-- The settings that a sync makes, in its order. -/
def sends (s : Scene) (x : TechniqueState) (force : Bool) : List Setting :=
  (if force || x.vertexArrayChanged then s.vertexArrayOf x else []) ++
    (if force || x.programChanged then s.programOf x else []) ++
    (if force || x.textureBindings.changed then s.texturesOf x else []) ++
    newUniforms x force ++
    (if force || x.drawApiArgs.changed then s.drawOf x else [])

/-- The setting is what the remote technique was told last about its part. -/
def Shows (s : Scene) (technique : ℕ) (y : Setting) : Prop :=
  ∃ c, s.told technique y.part = some c ∧ s.callFor technique y = some c

/-- The remote technique was told the state `x`: of each part, what it was told last is what the
part is set to. What refers to an object that is gone counts on neither side. -/
def Mirrors (s : Scene) (technique : ℕ) (x : TechniqueState) : Prop :=
  ∀ y, s.Shows technique y ↔ LastWrite.latest Setting.part (s.settings x) y.part = some y

section Live
variable {s s' : Scene} (hl : ∀ h, s'.live h = s.live h) (x : TechniqueState)
include hl

theorem bindingAlive_of_live : s'.bindingAlive = s.bindingAlive :=
  bindingAlive_congr (fun i => hl (.texture i)) fun i => hl (.sampler i)

theorem vertexArrayOf_congr : s'.vertexArrayOf x = s.vertexArrayOf x := by
  have h1 (i : ℕ) : (s'.glVertexArrays i).isSome = (s.glVertexArrays i).isSome :=
    hl (.vertexArray i)
  simp only [vertexArrayOf, Arena.lock, h1]

theorem programOf_congr : s'.programOf x = s.programOf x := by
  have h1 (i : ℕ) : (s'.glPrograms i).isSome = (s.glPrograms i).isSome := hl (.program i)
  simp only [programOf, Arena.lock, h1]

theorem texturesOf_congr : s'.texturesOf x = s.texturesOf x := by
  rw [texturesOf, bindingAlive_of_live hl, texturesOf]

theorem drawOf_congr : s'.drawOf x = s.drawOf x := by
  have h1 : (fun i => (s'.glBuffers i).isSome) = fun i => (s.glBuffers i).isSome :=
    funext fun i => hl (.buffer i)
  simp only [drawOf, h1]

theorem settings_congr : s'.settings x = s.settings x := by
  rw [settings, vertexArrayOf_congr hl, programOf_congr hl, texturesOf_congr hl, drawOf_congr hl,
    settings]

theorem sends_congr (force : Bool) : s'.sends x force = s.sends x force := by
  rw [sends, vertexArrayOf_congr hl, programOf_congr hl, texturesOf_congr hl, drawOf_congr hl,
    sends]

end Live

section Bare
variable (s : Scene) (z : GlBaseTechnique)

theorem settings_bare :
    s.settings (bareTechnique s.bindingAlive z).current = s.settings z.current := by
  simp [settings, bareTechnique, vertexArrayOf, programOf, texturesOf, uniformsOf, drawOf,
    TextureBindingList.removeExpired]

theorem sends_bare (force : Bool) :
    s.sends (bareTechnique s.bindingAlive z).current force = s.sends z.current force := by
  simp [sends, bareTechnique, vertexArrayOf, programOf, texturesOf, newUniforms, drawOf,
    TextureBindingList.removeExpired]

end Bare

/-- Lists of settings of each kind. -/
structure Kinds (vertexArrays programs textures uniforms draws : List Setting) : Prop where
  vertexArrays : ∀ y ∈ vertexArrays, y.part = .vertexArray
  programs : ∀ y ∈ programs, y.part = .program
  textures : ∀ y ∈ textures, ∃ i, y.part = .texture i
  uniforms : ∀ y ∈ uniforms, ∃ i, y.part = .uniform i
  draws : ∀ y ∈ draws, y.part = .draw

/-- The last setting of a part is among those of its kind. -/
theorem Kinds.latest {a b c d e : List Setting} (h : Kinds a b c d e) (k : Part) :
    LastWrite.latest Setting.part (a ++ b ++ c ++ d ++ e) k =
      match k with
      | .vertexArray => LastWrite.latest Setting.part a k
      | .program => LastWrite.latest Setting.part b k
      | .texture _ => LastWrite.latest Setting.part c k
      | .uniform _ => LastWrite.latest Setting.part d k
      | .draw => LastWrite.latest Setting.part e k := by
  have other {l : List Setting} (hl : ∀ y ∈ l, y.part ≠ k) :
      LastWrite.latest Setting.part l k = none := LastWrite.latest_eq_none.mpr hl
  have ha (hk : k ≠ .vertexArray) : LastWrite.latest Setting.part a k = none :=
    other fun y hy he => hk (he.symm.trans (h.vertexArrays y hy))
  have hb (hk : k ≠ .program) : LastWrite.latest Setting.part b k = none :=
    other fun y hy he => hk (he.symm.trans (h.programs y hy))
  have hc (hk : ∀ i, k ≠ .texture i) : LastWrite.latest Setting.part c k = none :=
    other fun y hy he => by
      obtain ⟨i, hi⟩ := h.textures y hy
      exact hk i (he.symm.trans hi)
  have hd (hk : ∀ i, k ≠ .uniform i) : LastWrite.latest Setting.part d k = none :=
    other fun y hy he => by
      obtain ⟨i, hi⟩ := h.uniforms y hy
      exact hk i (he.symm.trans hi)
  have he (hk : k ≠ .draw) : LastWrite.latest Setting.part e k = none :=
    other fun y hy he => hk (he.symm.trans (h.draws y hy))
  simp only [LastWrite.latest_append]
  cases k <;> simp [ha, hb, hc, hd, he]

theorem uniform_part (v : UniformVariable) : v.setting.part = .uniform v.key := by
  unfold UniformVariable.setting
  split <;> rfl

theorem kinds_settings (s : Scene) (x : TechniqueState) :
    Kinds (s.vertexArrayOf x) (s.programOf x) (s.texturesOf x) (uniformsOf x) (s.drawOf x) where
  vertexArrays := fun y hy => by
    obtain ⟨va, -, rfl⟩ := List.mem_map.mp hy
    rfl
  programs := fun y hy => by
    obtain ⟨p, -, rfl⟩ := List.mem_map.mp hy
    rfl
  textures := fun y hy => by
    obtain ⟨b, -, rfl⟩ := List.mem_map.mp hy
    exact ⟨_, rfl⟩
  uniforms := fun y hy => by
    obtain ⟨v, -, rfl⟩ := List.mem_map.mp hy
    exact ⟨_, uniform_part v⟩
  draws := fun y hy => by
    rw [drawOf, Option.mem_toList] at hy
    unfold DrawData.setting at hy
    split at hy
    · cases hy
    · cases hy
      rfl
    · split at hy
      · cases hy
        rfl
      · cases hy

/-- Some of the settings of each kind. -/
theorem Kinds.mono {a b c d e a' b' c' d' e' : List Setting} (h : Kinds a b c d e) (ha : a' ⊆ a)
    (hb : b' ⊆ b) (hc : c' ⊆ c) (hd : d' ⊆ d) (he : e' ⊆ e) : Kinds a' b' c' d' e' where
  vertexArrays := fun y hy => h.vertexArrays y (ha hy)
  programs := fun y hy => h.programs y (hb hy)
  textures := fun y hy => h.textures y (hc hy)
  uniforms := fun y hy => h.uniforms y (hd hy)
  draws := fun y hy => h.draws y (he hy)

theorem ite_nil_subset {α : Type*} (b : Bool) (l : List α) : (if b then l else []) ⊆ l := by
  cases b
  · exact List.nil_subset _
  · exact List.Subset.refl _

theorem newUniforms_sublist (x : TechniqueState) (force : Bool) :
    (newUniforms x force).Sublist (uniformsOf x) := by
  apply List.Sublist.trans List.filter_sublist
  exact List.Sublist.map _ List.filter_sublist

/-- The settings of a part that a sync makes. -/
theorem latest_sends (s : Scene) (x : TechniqueState) (force : Bool) (k : Part) :
    LastWrite.latest Setting.part (s.sends x force) k =
      match k with
      | .vertexArray => LastWrite.latest Setting.part
          (if force || x.vertexArrayChanged then s.vertexArrayOf x else []) k
      | .program => LastWrite.latest Setting.part
          (if force || x.programChanged then s.programOf x else []) k
      | .texture _ => LastWrite.latest Setting.part
          (if force || x.textureBindings.changed then s.texturesOf x else []) k
      | .uniform _ => LastWrite.latest Setting.part (newUniforms x force) k
      | .draw => LastWrite.latest Setting.part
          (if force || x.drawApiArgs.changed then s.drawOf x else []) k := by
  have h := (s.kinds_settings x).mono (ite_nil_subset (force || x.vertexArrayChanged) _)
    (ite_nil_subset (force || x.programChanged) _)
    (ite_nil_subset (force || x.textureBindings.changed) _)
    (newUniforms_sublist x force).subset
    (ite_nil_subset (force || x.drawApiArgs.changed) _)
  exact h.latest k

end Scene
end Yaza
