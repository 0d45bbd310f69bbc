import Yaza.Gles.Tables
import Yaza.Zwin.Leaf

/-! `GlSampler` by itself: which parameter requests are accepted, what they leave, and that each
stored payload is the one its type names. -/
namespace Yaza

/-- The parameter requests of `zwn_gl_sampler`. `garbage` is what is in the array of 16 bytes
before anything is copied to it. -/
inductive SamplerRequest where
  | parameterF (pname : UInt32) (param : WlArray)
  | parameterI (pname : UInt32) (param : Int32)
  | parameterFv (pname : UInt32) (params : WlArray) (garbage : Fin 16 → UInt8)
  | parameterIv (pname : UInt32) (params : WlArray) (garbage : Fin 16 → UInt8)
  | parameterIiv (pname : UInt32) (params : WlArray) (garbage : Fin 16 → UInt8)
  | parameterIuiv (pname : UInt32) (params : WlArray) (garbage : Fin 16 → UInt8)

namespace SamplerRequest

/-- The request on one sampler. -/
def on (p : ℕ) : SamplerRequest → Scene.Request
  | .parameterF pname param => .parameterF p pname param
  | .parameterI pname param => .parameterI p pname param
  | .parameterFv pname params g => .parameterV p .fv pname params (List.ofFn g)
  | .parameterIv pname params g => .parameterV p .iv pname params (List.ofFn g)
  | .parameterIiv pname params g => .parameterV p .iiv pname params (List.ofFn g)
  | .parameterIuiv pname params g => .parameterV p .iuiv pname params (List.ofFn g)

def pname : SamplerRequest → UInt32
  | .parameterF k _ | .parameterI k _ | .parameterFv k _ _ | .parameterIv k _ _
  | .parameterIiv k _ _ | .parameterIuiv k _ _ => k

def type : SamplerRequest → ParamType
  | .parameterF _ _ => .f
  | .parameterI _ _ => .i
  | .parameterFv _ _ _ => .fv
  | .parameterIv _ _ _ => .iv
  | .parameterIiv _ _ _ => .iiv
  | .parameterIuiv _ _ _ => .iuiv

/-- The size of a `wl_array` that comes with the request. -/
def arraySize? : SamplerRequest → Option ℕ
  | .parameterI _ _ => none
  | .parameterF _ a | .parameterFv _ a _ | .parameterIv _ a _ | .parameterIiv _ a _
  | .parameterIuiv _ a _ => some a.size

/-- The pname is known and the size is right: that of a number for the two scalars, that of the
parameter for the arrays. -/
def accepted (r : SamplerRequest) : Bool :=
  match r with
  | .parameterF pname param => GlSampler.parameterSizeMap.find? pname = some 4 && param.size = 4
  | .parameterI pname _ => GlSampler.parameterSizeMap.find? pname = some 4
  | .parameterFv pname a _ | .parameterIv pname a _ | .parameterIiv pname a _
  | .parameterIuiv pname a _ => GlSampler.parameterSizeMap.find? pname = some a.size

/-- The array is copied over the first bytes of what was there. -/
def copied (a : WlArray) (g : Fin 16 → UInt8) : ParamValue :=
  .array (a.read a.size ++ (List.ofFn g).drop a.size)

/-- The payload of the request. -/
def param : SamplerRequest → ParamValue
  | .parameterF _ a => .float ((a.read 4).foldr (fun b acc => acc * 256 + b.toUInt32) 0)
  | .parameterI _ i => .int i
  | .parameterFv _ a g | .parameterIv _ a g | .parameterIiv _ a g | .parameterIuiv _ a g =>
    copied a g

/-- What is stored when the request is accepted. -/
def parameter (r : SamplerRequest) : Parameter where
  changed := true
  type := r.type
  pname := r.pname
  param := r.param

theorem matches_parameter (r : SamplerRequest) : Scene.paramMatches r.parameter = true := by
  cases r <;> rfl

/-- The sizes of the parameters are those of one or four numbers. -/
theorem parameterSize_le {k : UInt32} {n : ℕ} (h : GlSampler.parameterSizeMap.find? k = some n) :
    n ≤ 16 := by
  have hall : ∀ e ∈ GlSampler.parameterSizeMap, e.2 ≤ 16 := by decide
  obtain ⟨e, he, rfl⟩ := Table.mem_of_find? h
  exact hall e he

/-- What is copied of an accepted request fits. -/
theorem arraySize_le {r : SamplerRequest} (h : r.accepted = true) {n : ℕ}
    (hn : r.arraySize? = some n) : n ≤ 16 := by
  cases r with
  | parameterI pname param => cases hn
  | parameterF pname a =>
    cases hn
    simp only [accepted, Bool.and_eq_true, decide_eq_true_eq] at h
    omega
  | _ =>
    cases hn
    exact parameterSize_le (by simpa [accepted] using h)

/-- The array that is stored has 16 bytes. -/
theorem length_copied {a : WlArray} (g : Fin 16 → UInt8) (ha : a.size ≤ 16) :
    ∃ bs, copied a g = .array bs ∧ bs.length = 16 := by
  refine ⟨_, rfl, ?_⟩
  simp only [WlArray.read, List.length_append, List.length_map, List.length_range,
    List.length_drop, List.length_ofFn]
  omega

end SamplerRequest

namespace Scene
variable {s : Scene} {p : ℕ}

/-- A parameter is pending. -/
def assign (s : Scene) (p : ℕ) (v : Parameter) : Scene :=
  { s with
    glSamplers := s.glSamplers.modify p fun x =>
      { x with pending := x.pending.insertOrAssign v.pname v } }

theorem setParamater_of_size (type : ParamType) {k : UInt32} {arg : SamplerArg} (garbage : Bytes)
    (h : GlSampler.parameterSizeMap.find? k = some arg.size) :
    s.setParamater p type k arg garbage = s.assign p ⟨true, type, k, arg.value garbage⟩ := by
  simp only [setParamater, h, ne_eq, not_true_eq_false, if_false]
  rfl

theorem setParamater_of_ne (type : ParamType) {k : UInt32} {arg : SamplerArg} (garbage : Bytes)
    (h : GlSampler.parameterSizeMap.find? k ≠ some arg.size) :
    ∃ code text, s.setParamater p type k arg garbage = s.postError p code text := by
  unfold setParamater
  split
  · exact ⟨_, _, rfl⟩
  · next n hn =>
    have ha : arg.size ≠ n := fun ha => h (ha ▸ hn)
    rw [if_pos ha]
    exact ⟨_, _, rfl⟩

/-- An accepted request assigns its parameter. -/
theorem handle_of_accepted (s : Scene) (client p : ℕ) {r : SamplerRequest}
    (h : r.accepted = true) : s.handle client (r.on p) = s.assign p r.parameter := by
  cases r with
  | parameterF k a =>
    simp only [SamplerRequest.accepted, Bool.and_eq_true, decide_eq_true_eq] at h
    simp only [SamplerRequest.on, handle, parameterF, WlArray.decode, h.2, if_true]
    exact setParamater_of_size .f [] h.1
  | parameterI k i =>
    exact setParamater_of_size .i [] (by simpa [SamplerRequest.accepted, SamplerArg.size] using h)
  | parameterFv k a g | parameterIv k a g | parameterIiv k a g | parameterIuiv k a g =>
    exact setParamater_of_size _ _ (by simpa [SamplerRequest.accepted, SamplerArg.size] using h)

/-- Another one posts an error. -/
theorem handle_of_rejected (s : Scene) (client p : ℕ) {r : SamplerRequest}
    (h : r.accepted = false) :
    ∃ code text, s.handle client (r.on p) = s.postError p code text := by
  cases r with
  | parameterF k a =>
    simp only [SamplerRequest.on, handle, parameterF, WlArray.decode]
    by_cases ha : a.size = 4
    · rw [if_pos ha]
      exact setParamater_of_ne .f []
        (by simpa [SamplerRequest.accepted, SamplerArg.size, ha] using h)
    · rw [if_neg ha]
      exact ⟨_, _, rfl⟩
  | parameterI k i =>
    exact setParamater_of_ne .i [] (by simpa [SamplerRequest.accepted, SamplerArg.size] using h)
  | parameterFv k a g | parameterIv k a g | parameterIiv k a g | parameterIuiv k a g =>
    exact setParamater_of_ne _ _ (by simpa [SamplerRequest.accepted, SamplerArg.size] using h)

theorem commitSampler_eq {x : GlSampler} (hx : s.glSamplers p = some x) :
    s.commitSampler p = { s with
      glSamplers := s.glSamplers.set p
        { x with current := x.current.merge x.pending, pending := [] } } := by
  simp only [commitSampler, hx]
  rfl

/-- A call that finds the sampler as it is, and no more than its proxy missing. -/
theorem tellParameter_kept (s : Scene) (p : ℕ) (force : Bool) {e : UInt32 × Parameter}
    (he : paramMatches e.2 = true) :
    (tellParameter p force s e).glSamplers = s.glSamplers ∧
      ((tellParameter p force s e).fault = some .badVariant → s.fault = some .badVariant) := by
  unfold tellParameter withRemoteId
  rw [if_pos he]
  split
  · exact ⟨rfl, id⟩
  · split
    · refine ⟨rfl, fun h => ?_⟩
      cases hf : s.fault with
      | none => simp [crash, hf] at h
      | some f => simpa [crash, hf] using h
    · exact ⟨rfl, id⟩

/-- A sync of well-formed parameters gives the sampler a proxy and finds every payload. -/
theorem syncSampler_kept {x : GlSampler} (hx : s.glSamplers p = some x) (force : Bool)
    (hm : ∀ e ∈ x.current, paramMatches e.2 = true) :
    (∃ q, (s.syncSampler p force).glSamplers p = some { x with proxy := q }) ∧
      ((s.syncSampler p force).fault = some .badVariant → s.fault = some .badVariant) := by
  have h1 : (∃ q, (s.ensureProxy (.sampler p) .createGlSampler).glSamplers p =
      some { x with proxy := q }) ∧
      ((s.ensureProxy (.sampler p) .createGlSampler).fault = some .badVariant →
        s.fault = some .badVariant) := by
    unfold ensureProxy
    split
    · exact ⟨⟨x.proxy, hx⟩, id⟩
    · split
      · refine ⟨⟨x.proxy, hx⟩, fun h => ?_⟩
        cases hf : s.fault with
        | none => simp [crash, hf] at h
        | some f => simpa [crash, hf] using h
      · next q r hr => exact ⟨⟨some q, by simp [giveProxy, hx]⟩, by simp [giveProxy]⟩
  have h2 (l : Table Parameter) (hl : ∀ e ∈ l, paramMatches e.2 = true) (u : Scene) :
      (l.foldl (tellParameter p force) u).glSamplers = u.glSamplers ∧
        ((l.foldl (tellParameter p force) u).fault = some .badVariant →
          u.fault = some .badVariant) := by
    induction l generalizing u with
    | nil => exact ⟨rfl, id⟩
    | cons e l ih =>
      obtain ⟨h3, h4⟩ := tellParameter_kept u p force (hl e List.mem_cons_self)
      obtain ⟨h5, h6⟩ := ih (fun d hd => hl d (List.mem_cons_of_mem e hd))
        (tellParameter p force u e)
      exact ⟨h5.trans h3, fun h => h4 (h6 h)⟩
  obtain ⟨h3, h4⟩ := h2 x.current hm (s.ensureProxy (.sampler p) .createGlSampler)
  simp only [syncSampler, hx]
  exact ⟨by rw [h3]; exact h1.1, fun h => h1.2 (h4 h)⟩

end Scene

/-- The requests since the last commit, and those before it. -/
structure SamplerNotes where
  since : List SamplerRequest := []
  before : List SamplerRequest := []

def noteSampler (k : SamplerNotes) : LeafAction SamplerRequest → SamplerNotes
  | .request r => { k with since := k.since ++ [r] }
  | .commit => { before := k.before ++ k.since }
  | _ => k

def samplerLeaf (client p : ℕ) : Leaf SamplerRequest SamplerNotes where
  request r s := s.handle client (r.on p)
  commit s := s.commitSampler p
  sync force s := s.syncSampler p force
  note _ k := noteSampler k

/-- What the last accepted request for a pname asked for. -/
def lastAccepted (l : List SamplerRequest) (q : UInt32) : Option Parameter :=
  l.foldl (fun h r => if r.accepted = true ∧ r.pname = q then some r.parameter else h) none

theorem lastAccepted_concat (l : List SamplerRequest) (r : SamplerRequest) (q : UInt32) :
    lastAccepted (l ++ [r]) q =
      if r.accepted = true ∧ r.pname = q then some r.parameter else lastAccepted l q := by
  simp [lastAccepted]

theorem lastAccepted_append (l l' : List SamplerRequest) (q : UInt32) :
    lastAccepted (l ++ l') q = (lastAccepted l' q).or (lastAccepted l q) := by
  induction l' using List.reverseRecOn with
  | nil => simp [lastAccepted]
  | append_singleton l' r ih =>
    rw [← List.append_assoc, lastAccepted_concat, lastAccepted_concat, ih]
    split <;> rfl

/-- The sampler holds what was requested and what was committed, each payload as its type names
it. -/
structure ParametersHeld (p : ℕ) (u : Scene × SamplerNotes) (x : GlSampler) : Prop where
  object : u.1.glSamplers p = some x
  distinctPending : x.pending.Distinct
  distinctCurrent : x.current.Distinct
  pending : ∀ q, x.pending.find? q = lastAccepted u.2.since q
  current : ∀ q, x.current.find? q = lastAccepted u.2.before q
  typed : ∀ e ∈ x.pending ++ x.current, Scene.paramMatches e.2 = true ∧ e.2.pname = e.1

/-- A rejected request leaves the sampler as it is; an accepted one assigns one pending parameter,
and copies no more than the 16 bytes it has room for. -/
def RequestKept (client p : ℕ) (u : Scene × SamplerNotes) (a : LeafAction SamplerRequest) : Prop :=
  ∀ r x, a = .request r → u.1.fault = none → u.1.glSamplers p = some x →
    (r.accepted = false → ((samplerLeaf client p).step u a).1.glSamplers p = some x) ∧
    (r.accepted = true → (∀ n, r.arraySize? = some n → n ≤ 16) ∧
      (∀ bs, r.param = .array bs → bs.length = 16) ∧
      ∃ x', ((samplerLeaf client p).step u a).1.glSamplers p = some x' ∧ x'.current = x.current ∧
        ∀ q, x'.pending.find? q =
          if q = r.pname then some r.parameter else x.pending.find? q)

section Runs
variable {client p : ℕ} {u : Scene × SamplerNotes} {x : GlSampler}

theorem postError_sampler (s : Scene) (i : ℕ) (code : ErrorCode) (text : String) :
    (s.postError i code text).glSamplers = s.glSamplers ∧
      ((s.postError i code text).fault = some .badVariant → s.fault = some .badVariant) := by
  rcases Scene.postError_cases s i code text with h | ⟨e, h⟩
  · rw [h]
    refine ⟨rfl, fun hf => ?_⟩
    cases hs : s.fault with
    | none => simp [Scene.crash, hs] at hf
    | some f => simpa [Scene.crash, hs] using hf
  · rw [h]
    exact ⟨rfl, id⟩

theorem requestKept (u : Scene × SamplerNotes) (a : LeafAction SamplerRequest) :
    RequestKept client p u a := by
  rintro r x rfl hf hx
  rw [Leaf.step_of_running _ hf]
  refine ⟨fun hr => ?_, fun hr => ⟨fun n => SamplerRequest.arraySize_le hr, fun bs hbs => ?_, ?_⟩⟩
  · obtain ⟨code, text, h⟩ := Scene.handle_of_rejected u.1 client p hr
    change (u.1.handle client (r.on p)).glSamplers p = some x
    rw [h, (postError_sampler u.1 p code text).1, hx]
  · have size (a : WlArray) (g : Fin 16 → UInt8) (ha : r.arraySize? = some a.size)
        (hc : SamplerRequest.copied a g = .array bs) : bs.length = 16 := by
      obtain ⟨bs', h1, h2⟩ := SamplerRequest.length_copied g (SamplerRequest.arraySize_le hr ha)
      rw [h1] at hc
      cases hc
      exact h2
    cases r with
    | parameterF k a => cases hbs
    | parameterI k i => cases hbs
    | parameterFv k a g | parameterIv k a g | parameterIiv k a g | parameterIuiv k a g =>
      exact size a g rfl hbs
  · refine ⟨{ x with pending := x.pending.insertOrAssign r.pname r.parameter }, ?_, rfl,
      Table.find?_insertOrAssign x.pending r.pname r.parameter⟩
    change (u.1.handle client (r.on p)).glSamplers p = _
    rw [Scene.handle_of_accepted u.1 client p hr]
    simp [Scene.assign, hx, SamplerRequest.parameter]

/-- Nothing but the proxy of the sampler changes. -/
theorem ParametersHeld.proxy (h : ParametersHeld p u x) {s : Scene} {q : Option Proxy}
    (hs : s.glSamplers p = some { x with proxy := q }) :
    ParametersHeld p (s, u.2) { x with proxy := q } :=
  ⟨hs, h.distinctPending, h.distinctCurrent, h.pending, h.current, h.typed⟩

theorem ParametersHeld.request (h : ParametersHeld p u x) (r : SamplerRequest) :
    (∃ x', ParametersHeld p (u.1.handle client (r.on p), noteSampler u.2 (.request r)) x') ∧
      ((u.1.handle client (r.on p)).fault = some .badVariant →
        u.1.fault = some .badVariant) := by
  have noted (q : UInt32) : lastAccepted (noteSampler u.2 (.request r)).since q =
      if r.accepted = true ∧ r.pname = q then some r.parameter else lastAccepted u.2.since q :=
    lastAccepted_concat u.2.since r q
  cases hr : r.accepted with
  | false =>
    obtain ⟨code, text, he⟩ := Scene.handle_of_rejected u.1 client p hr
    obtain ⟨h1, h2⟩ := postError_sampler u.1 p code text
    rw [he]
    refine ⟨⟨x, h1 ▸ h.object, h.distinctPending, h.distinctCurrent, fun q => ?_, h.current,
      h.typed⟩, h2⟩
    rw [noted, if_neg (by simp [hr])]
    exact h.pending q
  | true =>
    rw [Scene.handle_of_accepted u.1 client p hr]
    refine ⟨⟨{ x with pending := x.pending.insertOrAssign r.pname r.parameter }, ?_,
      h.distinctPending.insertOrAssign _ _, h.distinctCurrent, fun q => ?_, h.current,
      fun e he => ?_⟩, id⟩
    · simp [Scene.assign, h.object, SamplerRequest.parameter]
    · rw [noted, Table.find?_insertOrAssign, h.pending]
      simp [hr, eq_comm]
    · rcases List.mem_append.mp he with he | he
      · rcases Table.mem_insertOrAssign he with he | rfl
        · exact h.typed e (List.mem_append_left _ he)
        · exact ⟨r.matches_parameter, rfl⟩
      · exact h.typed e (List.mem_append_right _ he)

theorem ParametersHeld.commit (h : ParametersHeld p u x) :
    ∃ x', ParametersHeld p (u.1.commitSampler p, noteSampler u.2 .commit) x' := by
  rw [Scene.commitSampler_eq h.object]
  refine ⟨{ x with current := x.current.merge x.pending, pending := [] }, ?_, List.nodup_nil,
    h.distinctCurrent.merge x.pending, fun q => rfl, fun q => ?_, fun e he => ?_⟩
  · simp
  · rw [Table.find?_merge h.distinctPending, h.pending, h.current]
    exact (lastAccepted_append u.2.before u.2.since q).symm
  · rcases Table.mem_merge (by simpa using he) with he | he
    · exact h.typed e (List.mem_append_right _ he)
    · exact h.typed e (List.mem_append_left _ he)

theorem step_held (client : ℕ) (h : ParametersHeld p u x) (a : LeafAction SamplerRequest) :
    (∃ x', ParametersHeld p ((samplerLeaf client p).step u a) x') ∧
      (((samplerLeaf client p).step u a).1.fault = some .badVariant →
        u.1.fault = some .badVariant) := by
  cases hf : u.1.fault with
  | some f =>
    rw [Leaf.step_of_fault _ (by simp [hf]), hf]
    exact ⟨⟨x, h⟩, id⟩
  | none =>
    rw [Leaf.step_of_running _ hf, ← hf]
    cases a with
    | request r => exact h.request r
    | commit =>
      refine ⟨h.commit, fun hb => ?_⟩
      rw [← hb]
      change u.1.fault = (u.1.commitSampler p).fault
      rw [Scene.commitSampler_eq h.object]
    | sync force =>
      obtain ⟨⟨q, h1⟩, h2⟩ := Scene.syncSampler_kept h.object force fun e he =>
        (h.typed e (List.mem_append_right _ he)).1
      exact ⟨⟨_, h.proxy h1⟩, h2⟩
    | connect =>
      simp only [Leaf.act]
      split <;> exact ⟨⟨x, h.proxy (q := x.proxy) h.object⟩, id⟩
    | disconnect =>
      simp only [Leaf.act, Scene.sessionDisconnect]
      split
      · exact ⟨⟨_, h.proxy (q := none) (by simp [Scene.dropProxies, h.object])⟩, id⟩
      · exact ⟨⟨x, h.proxy (q := x.proxy) h.object⟩, id⟩
    | memory m => exact ⟨⟨x, h.proxy (q := x.proxy) h.object⟩, id⟩

end Runs

/-- A `GlSampler` that was just constructed, in any scene. -/
def newSampler (s : Scene) (p : ℕ) : Scene := { s with glSamplers := s.glSamplers.set p {} }

/-- In every run of parameter requests, commits and syncs, each request is accepted as a whole or
changes nothing, the sampler holds the last accepted requests, and no sync looks for a payload of
another type. -/
theorem samplers_throughout (s : Scene) (client p : ℕ) (as : List (LeafAction SamplerRequest)) :
    Run.Each (samplerLeaf client p).step (RequestKept client p) (newSampler s p, {}) as ∧
    Run.Always (samplerLeaf client p).step
      (fun u => (∃ x, ParametersHeld p u x) ∧
        (u.1.fault = some .badVariant → s.fault = some .badVariant)) (newSampler s p, {}) as := by
  refine ⟨fun pre a _ => requestKept _ a, fun pre _ => ?_⟩
  refine Run.final_induction (P := fun u => (∃ x, ParametersHeld p u x) ∧
    (u.1.fault = some .badVariant → s.fault = some .badVariant)) ?_ ?_ pre
  · exact ⟨⟨{}, by simp [newSampler], List.nodup_nil, List.nodup_nil, fun _ => rfl, fun _ => rfl,
      fun e he => by cases he⟩, id⟩
  · rintro u a ⟨⟨x, hx⟩, hb⟩
    obtain ⟨h1, h2⟩ := step_held client hx a
    exact ⟨h1, fun hf => hb (h2 hf)⟩

end Yaza
