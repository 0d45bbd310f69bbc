import Yaza.Lib.Arena
import Mathlib.Data.Rat.Init

/-! What the compositor tells zen-remote. A proxy stands for one remote object of one
session; the calls made on proxies are recorded in the order they are made. -/
namespace Yaza

abbrev Bytes := List UInt8

/-- The reasons for which the program stops: a freed object is used, a null pointer is
dereferenced, an assertion fails (`remote_id`, `channel_nonnull`, `data_offer::create`), or
`std::get` asks for an alternative that is not held. -/
inductive Fault where
  | useAfterFree
  | nullPointer
  | noProxy
  | noSession
  | noDataSource
  | badVariant
  deriving DecidableEq, Repr

/-- A remote object: its id, and the session on whose channel it was created. -/
structure Proxy where
  id : ℕ
  channel : ℕ
  deriving DecidableEq, Repr

inductive UniformType where
  | int
  | uint
  | float
  | other (value : UInt32)
  deriving DecidableEq, Repr

inductive ParamType where
  | f | i | fv | iv | iiv | iuiv
  deriving DecidableEq, Repr

/-- The payload of a sampler parameter; a float is kept as its bits. -/
inductive ParamValue where
  | int (value : Int32)
  | float (value : UInt32)
  | array (value : Bytes)
  deriving DecidableEq, Repr

structure Image2dData where
  target : UInt32
  level : Int32
  internalFormat : Int32
  width : UInt32
  height : UInt32
  border : Int32
  format : UInt32
  type : UInt32
  deriving DecidableEq, Repr

/-- A call on a proxy. Proxies are named by their ids, pointers by the bytes behind them. -/
inductive Call where
  | createVirtualObject (object : ℕ)
  | move (object : ℕ) (polar azimuthal : ℚ)
  | commit (object : ℕ)
  | createRenderingUnit (unit object : ℕ)
  | createGlBaseTechnique (technique unit : ℕ)
  | bindVertexArray (technique vertexArray : ℕ)
  | bindProgram (technique program : ℕ)
  | bindTexture (technique : ℕ) (binding : UInt32) (name : String) (texture : ℕ)
      (target : UInt32) (sampler : ℕ)
  | glUniformVector (technique : ℕ) (type : UniformType) (location : UInt32) (name : String)
      (size count : UInt32) (value : Bytes)
  | glUniformMatrix (technique : ℕ) (location : UInt32) (name : String)
      (col row count : UInt32) (transpose : Bool) (value : Bytes)
  | glDrawArrays (technique : ℕ) (mode : UInt32) (first : Int32) (count : UInt32)
  | glDrawElements (technique : ℕ) (mode count type : UInt32) (offset : UInt64) (buffer : ℕ)
  | createGlVertexArray (vertexArray : ℕ)
  | glEnableVertexAttribArray (vertexArray : ℕ) (index : UInt32)
  | glDisableVertexAttribArray (vertexArray : ℕ) (index : UInt32)
  | glVertexAttribPointer (vertexArray : ℕ) (index : UInt32) (size : Int32) (type : UInt32)
      (normalized : Bool) (stride : Int32) (offset : UInt64) (buffer : ℕ)
  | createGlProgram (program : ℕ)
  | glAttachShader (program shader : ℕ)
  | glLinkProgram (program : ℕ)
  | createGlShader (shader : ℕ) (source : Bytes) (type : UInt32)
  | createGlBuffer (buffer : ℕ)
  | glBufferData (buffer : ℕ) (data : Option Bytes) (target : UInt32) (size : ℕ)
      (usage : UInt32)
  | createGlTexture (texture : ℕ)
  | glTexImage2D (texture : ℕ) (image : Image2dData) (data : Option Bytes)
  | glGenerateMipmap (texture : ℕ) (target : UInt32)
  | createGlSampler (sampler : ℕ)
  | glSamplerParameter (sampler : ℕ) (type : ParamType) (pname : UInt32)
      (value : ParamValue)
  deriving DecidableEq, Repr

/-- The technique a call is made on. -/
def Call.technique? : Call → Option ℕ
  | .createGlBaseTechnique t _ | .bindVertexArray t _ | .bindProgram t _
  | .bindTexture t _ _ _ _ _ | .glUniformVector t _ _ _ _ _ _
  | .glUniformMatrix t _ _ _ _ _ _ _ | .glDrawArrays t _ _ _ | .glDrawElements t _ _ _ _ _ =>
      some t
  | _ => none

/-- The signals `Remote` emits about its session. -/
inductive SessionSignal where
  | established
  | disconnected
  deriving DecidableEq, Repr

/-- The part of `Remote` that the scene sees. Sessions are numbered in the order of their
construction; `calls` and `emitted` are histories, oldest first. -/
structure Remote where
  currentSession : Option ℕ := none
  sessionCount : ℕ := 0
  emitted : List SessionSignal := []
  proxyCount : ℕ := 0
  calls : List Call := []
  deriving Repr

namespace Remote

def hasSession (r : Remote) : Bool := r.currentSession.isSome

/-- `zen::remote::server::Create...(channel_nonnull(), ...)`: the new proxy, or nothing when
`channel_nonnull` finds no session. -/
def create (r : Remote) (mk : ℕ → Call) : Option (Proxy × Remote) :=
  r.currentSession.map fun channel =>
    (⟨r.proxyCount, channel⟩,
      { r with proxyCount := r.proxyCount + 1, calls := r.calls ++ [mk r.proxyCount] })

def call (r : Remote) (c : Call) : Remote := { r with calls := r.calls ++ [c] }

/-- The session constructed by the peer discover handler, and its signal. -/
def establish (r : Remote) : Remote :=
  { r with
    currentSession := some r.sessionCount
    sessionCount := r.sessionCount + 1
    emitted := r.emitted ++ [.established] }

/-- `Remote::disconnect`: the session is dropped before the signal is emitted. -/
def disconnect (r : Remote) : Remote :=
  { r with currentSession := none, emitted := r.emitted ++ [.disconnected] }

end Remote
end Yaza
