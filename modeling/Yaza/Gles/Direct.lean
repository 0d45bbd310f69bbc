import Yaza.Lib.LastWrite
import Yaza.Gles.Technique

/-! The purpose of double buffering: a technique executes the requests made on it directly and in
order, as seen at its commits. -/
namespace Yaza

/-- A technique without buffering. -/
structure DirectTechnique where
  program : Option ℕ := none
  vertexArray : Option ℕ := none
  draw : DrawData := .none
  uniforms : List UniformVariable := []
  deriving DecidableEq, Repr

def UniformVariable.plain (v : UniformVariable) : UniformVariable :=
  { v with newlyComitted := false }

namespace TechniqueRequest

def program? : TechniqueRequest → Option ℕ
  | .bindProgram p => some p
  | _ => none

def vertexArray? : TechniqueRequest → Option ℕ
  | .bindVertexArray va => some va
  | _ => none

def draw? : TechniqueRequest → Option DrawData
  | .drawArrays mode first count => some (.arrays mode first count)
  | .drawElements mode count type offset b => some (.elements mode count type offset b)
  | _ => none

def uniform? : TechniqueRequest → Option UniformVariable
  | .uniform v => some v.plain
  | _ => none

end TechniqueRequest

namespace DirectTechnique

/-- A request takes effect at once. -/
def execute (d : DirectTechnique) : TechniqueRequest → DirectTechnique
  | .bindProgram p => { d with program := some p }
  | .bindVertexArray va => { d with vertexArray := some va }
  | .bindTexture _ => d
  | .uniform v =>
      { d with uniforms := LastWrite.insert UniformVariable.replaces d.uniforms v.plain }
  | .drawArrays mode first count => { d with draw := .arrays mode first count }
  | .drawElements mode count type offset b => { d with draw := .elements mode count type offset b }

/-- The requests take effect in order, on a fresh technique. -/
def executeAll (qs : List TechniqueRequest) : DirectTechnique := qs.foldl execute {}

theorem executeAll_concat (qs : List TechniqueRequest) (q : TechniqueRequest) :
    executeAll (qs ++ [q]) = (executeAll qs).execute q := by simp [executeAll]

section Last
variable (qs : List TechniqueRequest)

theorem executeAll_program :
    (executeAll qs).program = (qs.filterMap TechniqueRequest.program?).getLast? := by
  induction qs using List.reverseRecOn with
  | nil => rfl
  | append_singleton qs q ih =>
    rw [executeAll_concat, List.filterMap_append]
    cases q <;> simp [execute, TechniqueRequest.program?, ih]

theorem executeAll_vertexArray :
    (executeAll qs).vertexArray = (qs.filterMap TechniqueRequest.vertexArray?).getLast? := by
  induction qs using List.reverseRecOn with
  | nil => rfl
  | append_singleton qs q ih =>
    rw [executeAll_concat, List.filterMap_append]
    cases q <;> simp [execute, TechniqueRequest.vertexArray?, ih]

theorem executeAll_draw :
    (executeAll qs).draw = ((qs.filterMap TechniqueRequest.draw?).getLast?).getD .none := by
  induction qs using List.reverseRecOn with
  | nil => rfl
  | append_singleton qs q ih =>
    rw [executeAll_concat, List.filterMap_append]
    cases q <;> simp [execute, TechniqueRequest.draw?, ih]

theorem executeAll_uniforms :
    (executeAll qs).uniforms =
      (qs.filterMap TechniqueRequest.uniform?).foldl
        (LastWrite.insert UniformVariable.replaces) [] := by
  induction qs using List.reverseRecOn with
  | nil => rfl
  | append_singleton qs q ih =>
    rw [executeAll_concat, List.filterMap_append]
    cases q <;> simp [execute, TechniqueRequest.uniform?, ih, List.filterMap_cons]

/-- A named uniform has one entry, the last one requested. -/
theorem executeAll_named {name : String} (hn : name ≠ "") :
    (executeAll qs).uniforms.filter (fun v => v.name = name) =
      ((qs.filterMap TechniqueRequest.uniform?).filter fun v => v.name = name).getLast?.toList := by
  have hd : ∀ v c : UniformVariable, decide (c.name = name) = true →
      v.replaces c = decide (v.name = name) := by
    intro v c hc
    rw [decide_eq_true_eq] at hc
    by_cases hv : v.name = ""
    · simp [UniformVariable.replaces, hv, Ne.symm hn]
    · simp [UniformVariable.replaces, hv, hc, hn]
  rw [executeAll_uniforms, LastWrite.filter_insert_of_drops hd]
  cases ((qs.filterMap TechniqueRequest.uniform?).filter fun v => v.name = name).getLast? <;> rfl

/-- The entries of an unnamed location are all kept, so the last one is the last requested. -/
theorem executeAll_unnamed (location : UInt32) :
    (executeAll qs).uniforms.filter (fun v => v.name = "" ∧ v.location = location) =
      (qs.filterMap TechniqueRequest.uniform?).filter
        fun v => v.name = "" ∧ v.location = location := by
  have hd : ∀ v c : UniformVariable, decide (c.name = "" ∧ c.location = location) = true →
      v.replaces c = false := by
    intro v c hc
    rw [decide_eq_true_eq] at hc
    simp [UniformVariable.replaces, hc.1]
  rw [executeAll_uniforms, LastWrite.filter_insert_of_keeps hd]
  rfl

/-- A technique that says what the last request of each kind asked for. -/
structure SaysLast (d : DirectTechnique) : Prop where
  program : d.program = (qs.filterMap TechniqueRequest.program?).getLast?
  vertexArray : d.vertexArray = (qs.filterMap TechniqueRequest.vertexArray?).getLast?
  draw : d.draw = ((qs.filterMap TechniqueRequest.draw?).getLast?).getD .none
  named : ∀ name, name ≠ "" → d.uniforms.filter (fun v => v.name = name) =
    ((qs.filterMap TechniqueRequest.uniform?).filter fun v => v.name = name).getLast?.toList
  unnamed : ∀ location,
    (d.uniforms.filter fun v => v.name = "" ∧ v.location = location).getLast? =
      ((qs.filterMap TechniqueRequest.uniform?).filter
        fun v => v.name = "" ∧ v.location = location).getLast?

theorem executeAll_saysLast : SaysLast qs (executeAll qs) where
  program := executeAll_program qs
  vertexArray := executeAll_vertexArray qs
  draw := executeAll_draw qs
  named := fun _ hn => executeAll_named qs hn
  unnamed := fun location => by rw [executeAll_unnamed]

end Last
end DirectTechnique

namespace TechniqueState

/-- What a technique state says, without the change flags and the textures. -/
def view (x : TechniqueState) : DirectTechnique where
  program := x.program
  vertexArray := x.vertexArray
  draw := x.drawApiArgs.data
  uniforms := x.uniformVars.map UniformVariable.plain

theorem map_plain_merge (l : UniformVariableList) (v : UniformVariable) :
    (UniformVariableList.merge l v).map UniformVariable.plain =
      LastWrite.insert UniformVariable.replaces (l.map UniformVariable.plain) v.plain := by
  simp only [UniformVariableList.merge, LastWrite.insert, List.map_append, List.map_cons,
    List.map_nil, List.filter_map]
  rfl

/-- One more request before the commit is one more step of the direct technique. -/
theorem view_commit_request (alive : TextureBinding → Bool) (p c : TechniqueState)
    (q : TechniqueRequest) :
    ((p.request q).commit alive c).view = ((p.commit alive c).view).execute q := by
  cases q with
  | uniform v =>
    have h : (UniformVariableList.commit (p.uniformVars ++ [v]) c.uniformVars).map
        UniformVariable.plain =
          LastWrite.insert UniformVariable.replaces
            ((p.uniformVars.commit c.uniformVars).map UniformVariable.plain) v.plain := by
      rw [UniformVariableList.commit, List.foldl_append]
      exact map_plain_merge _ v
    simp only [view, commit, request, h, DirectTechnique.execute]
    rfl
  | _ => rfl

/-- A pending state right after a commit, or of a new technique. -/
structure Clean (p : TechniqueState) : Prop where
  program : p.programChanged = false
  vertexArray : p.vertexArrayChanged = false
  draw : p.drawApiArgs.changed = false
  uniforms : p.uniformVars = []
  textures : p.textureBindings.changed = false

theorem clean_new : Clean {} := ⟨rfl, rfl, rfl, rfl, rfl⟩

theorem clean_afterCommit (alive : TextureBinding → Bool) (p : TechniqueState) :
    (p.afterCommit alive).Clean where
  program := rfl
  vertexArray := rfl
  draw := by
    simp only [afterCommit, DrawApiArgs.afterCommit]
    split
    · rfl
    · next h => simpa using h
  uniforms := rfl
  textures := rfl

/-- A commit without requests keeps what the technique says. -/
theorem Clean.view_commit {p : TechniqueState} (hp : p.Clean) (alive : TextureBinding → Bool)
    (c : TechniqueState) : (p.commit alive c).view = c.view := by
  simp only [view, commit, hp.program, hp.vertexArray, hp.uniforms, DrawApiArgs.commit, hp.draw,
    UniformVariableList.commit, List.foldl_nil, List.map_map, Bool.false_eq_true, if_false]
  rfl

/-- A commit after some requests executes them. -/
theorem Clean.view_commit_requests {p : TechniqueState} (hp : p.Clean)
    (alive : TextureBinding → Bool) (c : TechniqueState) (qs : List TechniqueRequest) :
    ((qs.foldl request p).commit alive c).view = qs.foldl DirectTechnique.execute c.view := by
  induction qs using List.reverseRecOn with
  | nil => exact hp.view_commit alive c
  | append_singleton qs q ih =>
    rw [List.foldl_append, List.foldl_append, ← ih]
    exact view_commit_request alive _ c q

/-- No change flag is set. -/
structure Unchanged (x : TechniqueState) : Prop where
  program : x.programChanged = false
  vertexArray : x.vertexArrayChanged = false
  draw : x.drawApiArgs.changed = false
  textures : x.textureBindings.changed = false
  uniforms : ∀ v ∈ x.uniformVars, v.newlyComitted = false

/-- A commit without requests clears every change flag. -/
theorem Clean.unchanged_commit {p : TechniqueState} (hp : p.Clean)
    (alive : TextureBinding → Bool) (c : TechniqueState) : (p.commit alive c).Unchanged := by
  refine ⟨hp.program, hp.vertexArray, hp.draw, hp.textures, fun v hv => ?_⟩
  simp only [commit, hp.uniforms, UniformVariableList.commit, List.foldl_nil, List.mem_map] at hv
  obtain ⟨w, -, rfl⟩ := hv
  rfl

end TechniqueState
end Yaza
