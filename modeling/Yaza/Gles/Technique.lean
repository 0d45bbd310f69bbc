import Yaza.Gles.Objects

/-! The state of a base technique (`gl_base_technique.cpp` and `base_technique/`): what was
requested, what is committed, and how the first becomes the second. -/
namespace Yaza

/-- The variant `data_`. -/
inductive DrawData where
  | none
  | arrays (mode : UInt32) (first : Int32) (count : UInt32)
  | elements (mode count type : UInt32) (offset : UInt64) (elementArrayBuffer : ℕ)
  deriving DecidableEq, Repr

structure DrawApiArgs where
  data : DrawData := .none
  changed : Bool := false
  deriving DecidableEq, Repr

namespace DrawApiArgs

def setArraysArgs (mode : UInt32) (first : Int32) (count : UInt32) : DrawApiArgs :=
  { data := .arrays mode first count, changed := true }

def setElementsArgs (mode count type : UInt32) (offset : UInt64) (buffer : ℕ) : DrawApiArgs :=
  { data := .elements mode count type offset buffer, changed := true }

/-- `DrawApiArgs::commit` on `current`. No visitor takes a reference to `nullopt_t`, so empty
arguments would leave `data_` alone. -/
def commit (pending current : DrawApiArgs) : DrawApiArgs where
  data :=
    if pending.changed then
      match pending.data with
      | .none => current.data
      | d => d
    else current.data
  changed := pending.changed

/-- `DrawApiArgs::commit` on `pending`. -/
def afterCommit (pending : DrawApiArgs) : DrawApiArgs :=
  if pending.changed then {} else pending

/-- The buffer `DrawApiArgs::commit` commits, if it is still alive. -/
def committedBuffer (pending : DrawApiArgs) : Option ℕ :=
  if pending.changed then
    match pending.data with
    | .elements _ _ _ _ b => some b
    | _ => Option.none
  else Option.none

end DrawApiArgs

structure UniformVariable where
  type : UniformType
  location : UInt32
  name : String
  col : UInt32
  row : UInt32
  count : UInt32
  transpose : Bool
  value : Bytes
  newlyComitted : Bool := false
  deriving DecidableEq, Repr

namespace UniformVariable

/-- The constructor: a null name becomes the empty one, and `4 * col * row` bytes are copied,
whatever `count` is. -/
def construct (type : UniformType) (location : UInt32) (name : Option String)
    (col row count : UInt32) (transpose : Bool) (value : WlArray) : UniformVariable where
  type := type
  location := location
  name := name.getD ""
  col := col
  row := row
  count := count
  transpose := transpose
  value := value.read (4 * col.toNat * row.toNat)

/-- The test by which `UniformVariableList::commit` drops a current entry for a pending one.
The comparison of locations is never reached. -/
def replaces (pendingVar currentVar : UniformVariable) : Bool :=
  if pendingVar.name ≠ "" ∧ currentVar.name ≠ "" then pendingVar.name = currentVar.name
  else if pendingVar.name = "" ∨ currentVar.name = "" then false
  else pendingVar.location = currentVar.location

end UniformVariable

abbrev UniformVariableList := List UniformVariable

namespace UniformVariableList

/-- One round of the merge loop. -/
def merge (current : UniformVariableList) (v : UniformVariable) : UniformVariableList :=
  current.filter (fun c => !v.replaces c) ++ [{ v with newlyComitted := true }]

/-- `UniformVariableList::commit` on `current`; `pending` ends empty. -/
def commit (pending current : UniformVariableList) : UniformVariableList :=
  pending.foldl merge (current.map fun c => { c with newlyComitted := false })

/-- The call that tells the technique `technique` one variable. A vector of an unknown type
is not sent. -/
def syncCall (technique : ℕ) (v : UniformVariable) : Option Call :=
  if v.col = 1 then
    match v.type with
    | .other _ => none
    | _ => some (.glUniformVector technique v.type v.location v.name v.row v.count v.value)
  else
    some (.glUniformMatrix technique v.location v.name v.col v.row v.count v.transpose v.value)

/-- `UniformVariableList::sync`. -/
def syncCalls (technique : ℕ) (force : Bool) (l : UniformVariableList) : List Call :=
  (l.filter fun v => force || v.newlyComitted).filterMap (syncCall technique)

end UniformVariableList

structure TextureBinding where
  binding : UInt32
  name : String
  target : UInt32
  texture : ℕ
  sampler : ℕ
  deriving DecidableEq, Repr

structure TextureBindingList where
  list : List TextureBinding := []
  changed : Bool := false
  deriving DecidableEq, Repr

namespace TextureBindingList

def emplace (l : TextureBindingList) (b : TextureBinding) : TextureBindingList where
  list := l.list.filter (fun e => e.binding ≠ b.binding) ++ [b]
  changed := true

/-- `alive` says of a binding that its texture and its sampler both lock. -/
def removeExpired (alive : TextureBinding → Bool) (l : TextureBindingList) :
    TextureBindingList := { l with list := l.list.filter alive }

/-- `TextureBindingList::commit` on `current`. -/
def commit (alive : TextureBinding → Bool) (pending current : TextureBindingList) :
    TextureBindingList where
  list :=
    if pending.changed then (pending.removeExpired alive).list
    else (current.removeExpired alive).list
  changed := pending.changed

/-- `TextureBindingList::commit` on `pending`. -/
def afterCommit (alive : TextureBinding → Bool) (pending : TextureBindingList) :
    TextureBindingList where
  list := (pending.removeExpired alive).list
  changed := false

end TextureBindingList

/-- The state that is kept twice. -/
structure TechniqueState where
  programChanged : Bool := false
  program : Option ℕ := none
  vertexArrayChanged : Bool := false
  vertexArray : Option ℕ := none
  textureBindings : TextureBindingList := {}
  drawApiArgs : DrawApiArgs := {}
  uniformVars : UniformVariableList := []
  deriving DecidableEq, Repr

structure GlBaseTechnique where
  pending : TechniqueState := {}
  current : TechniqueState := {}
  commited : Bool := false
  owner : ℕ
  proxy : Option Proxy := none
  deriving DecidableEq, Repr

/-- A request on a technique that passed the checks of its handler. -/
inductive TechniqueRequest where
  | bindProgram (program : ℕ)
  | bindVertexArray (vertexArray : ℕ)
  | bindTexture (binding : TextureBinding)
  | uniform (var : UniformVariable)
  | drawArrays (mode : UInt32) (first : Int32) (count : UInt32)
  | drawElements (mode count type : UInt32) (offset : UInt64) (elementArrayBuffer : ℕ)
  deriving DecidableEq, Repr

namespace TechniqueState

/-- `request_bind_program`, `request_bind_vertex_array`, `request_bind_texture`,
`new_uniform_var`, `request_draw_arrays` and `request_draw_elements`. -/
def request (p : TechniqueState) : TechniqueRequest → TechniqueState
  | .bindProgram program => { p with program := some program, programChanged := true }
  | .bindVertexArray va => { p with vertexArray := some va, vertexArrayChanged := true }
  | .bindTexture b => { p with textureBindings := p.textureBindings.emplace b }
  | .uniform v => { p with uniformVars := p.uniformVars ++ [v] }
  | .drawArrays mode first count =>
      { p with drawApiArgs := .setArraysArgs mode first count }
  | .drawElements mode count type offset b =>
      { p with drawApiArgs := .setElementsArgs mode count type offset b }

/-- What a commit makes of `current_`. -/
def commit (alive : TextureBinding → Bool) (pending current : TechniqueState) :
    TechniqueState where
  programChanged := pending.programChanged
  program := if pending.programChanged then pending.program else current.program
  vertexArrayChanged := pending.vertexArrayChanged
  vertexArray :=
    if pending.vertexArrayChanged then pending.vertexArray else current.vertexArray
  drawApiArgs := pending.drawApiArgs.commit current.drawApiArgs
  uniformVars := pending.uniformVars.commit current.uniformVars
  textureBindings := pending.textureBindings.commit alive current.textureBindings

/-- What a commit makes of `pending_`. -/
def afterCommit (alive : TextureBinding → Bool) (pending : TechniqueState) :
    TechniqueState :=
  { pending with
    programChanged := false
    vertexArrayChanged := false
    drawApiArgs := pending.drawApiArgs.afterCommit
    uniformVars := []
    textureBindings := pending.textureBindings.afterCommit alive }

end TechniqueState

namespace GlBaseTechnique

def request (x : GlBaseTechnique) (r : TechniqueRequest) : GlBaseTechnique :=
  { x with pending := x.pending.request r }

/-- The technique's own part of `GlBaseTechnique::commit`. -/
def commit (alive : TextureBinding → Bool) (x : GlBaseTechnique) : GlBaseTechnique :=
  { x with
    pending := x.pending.afterCommit alive
    current := x.pending.commit alive x.current
    commited := true }

end GlBaseTechnique
end Yaza
