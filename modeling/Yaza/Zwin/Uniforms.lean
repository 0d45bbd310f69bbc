import Mathlib.Data.Finset.Card
import Yaza.Zwin.Refinement

/-! The uniform variables of a technique: one entry for each variable, with the value that was set
last, and as many bytes of it as are sent. -/
namespace Yaza

/-- What names a uniform variable: its name, or its location if it has none. -/
def UniformVariable.key (v : UniformVariable) : UInt32 ⊕ String :=
  if v.name = "" then .inl v.location else .inr v.name

@[simp] theorem UniformVariable.key_plain (v : UniformVariable) : v.plain.key = v.key := rfl

theorem UniformVariable.key_eq_inr {v : UniformVariable} {name : String} (hn : name ≠ "") :
    v.key = .inr name ↔ v.name = name := by
  unfold key
  split
  · next h => simp [h, Ne.symm hn]
  · simp

theorem UniformVariable.key_eq_inl {v : UniformVariable} {location : UInt32} :
    v.key = .inl location ↔ v.name = "" ∧ v.location = location := by
  unfold key
  split
  · next h => simp [h]
  · next h => simp [h]

theorem UniformVariable.key_ne_empty (v : UniformVariable) : v.key ≠ .inr "" := by
  unfold key
  split
  · simp
  · next h => simpa using h

namespace Scene

/-- The uniform variables some requests set. -/
def uniforms (qs : List TechniqueRequest) : List UniformVariable :=
  qs.filterMap TechniqueRequest.uniform?

/-- The list `l` has one entry for each variable that `qs` set, with the value it was set to
last. -/
structure OneEach (qs : List TechniqueRequest) (l : UniformVariableList) : Prop where
  unique : (l.map UniformVariable.key).Nodup
  bounded : l.length ≤ ((uniforms qs).map UniformVariable.key).toFinset.card
  last : ∀ v ∈ l, ((uniforms qs).filter fun w => w.key = v.key).getLast? = some v.plain

/-- No location is set twice without a name. -/
def UnnamedOnce (qs : List TechniqueRequest) : Prop :=
  (((uniforms qs).filter fun v => v.name = "").map UniformVariable.location).Nodup

section Lists
variable {α β : Type*} [DecidableEq β] {f : α → β} {l : List α}

theorem nodup_map_iff : (l.map f).Nodup ↔ ∀ k, (l.filter fun v => f v = k).length ≤ 1 := by
  rw [List.nodup_iff_count_le_one]
  refine forall_congr' fun k => ?_
  rw [List.count_eq_countP, List.countP_map, List.countP_eq_length_filter]
  rfl

end Lists

section OneEach
variable {qs : List TechniqueRequest} {l : UniformVariableList}

/-- The committed list, by what it says. -/
def Says (qs : List TechniqueRequest) (l : UniformVariableList) : Prop :=
  l.map UniformVariable.plain = (DirectTechnique.executeAll qs).uniforms

theorem filter_key_inl (l : UniformVariableList) (location : UInt32) :
    (l.filter fun v => v.key = .inl location) =
      l.filter fun v => v.name = "" ∧ v.location = location :=
  List.filter_congr fun v _ => by simp only [UniformVariable.key_eq_inl]

theorem filter_key_inr (l : UniformVariableList) {name : String} (hn : name ≠ "") :
    (l.filter fun v => v.key = .inr name) = l.filter fun v => v.name = name :=
  List.filter_congr fun v _ => by simp only [UniformVariable.key_eq_inr hn]

theorem unnamedOnce_iff : UnnamedOnce qs ↔
    ∀ location, ((uniforms qs).filter fun v => v.key = .inl location).length ≤ 1 := by
  rw [UnnamedOnce, nodup_map_iff]
  refine forall_congr' fun location => ?_
  rw [filter_key_inl, List.filter_filter]
  simp only [Bool.decide_and, Bool.and_comm]

/-- The entries of one key: all requests for an unnamed location, the last one for a name. -/
theorem Says.filter (h : Says qs l) (k : UInt32 ⊕ String) :
    (l.map UniformVariable.plain).filter (fun v => v.key = k) =
      match k with
      | .inl _ => (uniforms qs).filter fun v => v.key = k
      | .inr _ => ((uniforms qs).filter fun v => v.key = k).getLast?.toList := by
  rw [h]
  cases k with
  | inl location =>
    rw [filter_key_inl, DirectTechnique.executeAll_unnamed, ← filter_key_inl]
    rfl
  | inr name =>
    by_cases hn : name = ""
    · have he (l : UniformVariableList) : (l.filter fun v => v.key = .inr name) = [] := by
        rw [List.filter_eq_nil_iff]
        intro v _
        simpa [hn] using v.key_ne_empty
      rw [he, he]
      rfl
    · rw [filter_key_inr _ hn, DirectTechnique.executeAll_named _ hn, ← filter_key_inr _ hn]
      rfl

/-- The list has one entry for each variable exactly when no location is set twice without a
name. -/
theorem Says.oneEach_iff (h : Says qs l) : OneEach qs l ↔ UnnamedOnce qs := by
  have hk : (l.map UniformVariable.plain).map UniformVariable.key = l.map UniformVariable.key := by
    rw [List.map_map]
    rfl
  constructor
  · intro ho
    rw [unnamedOnce_iff]
    intro location
    have h1 := nodup_map_iff.mp (hk ▸ ho.unique) (.inl location)
    rw [h.filter] at h1
    exact h1
  · intro hu
    rw [unnamedOnce_iff] at hu
    have h1 (k : UInt32 ⊕ String) : (l.map UniformVariable.plain).filter (fun v => v.key = k) =
        ((uniforms qs).filter fun v => v.key = k).getLast?.toList := by
      rw [h.filter]
      cases k with
      | inr name => rfl
      | inl location =>
        have h2 := hu location
        cases hl : (uniforms qs).filter fun v => v.key = .inl location with
        | nil => rfl
        | cons v l =>
          rw [hl, List.length_cons] at h2
          rw [List.eq_nil_of_length_eq_zero (l := l) (by omega)]
          rfl
    have hn : (l.map UniformVariable.key).Nodup := by
      rw [← hk, nodup_map_iff]
      intro k
      rw [h1]
      cases ((uniforms qs).filter fun v => v.key = k).getLast? <;> simp
    have hl : ∀ v ∈ l, ((uniforms qs).filter fun w => w.key = v.key).getLast? = some v.plain := by
      intro v hv
      have h2 : v.plain ∈ (l.map UniformVariable.plain).filter (fun w => w.key = v.key) := by
        simp only [List.mem_filter, List.mem_map, UniformVariable.key_plain, decide_true, and_true]
        exact ⟨v, hv, rfl⟩
      rw [h1, Option.mem_toList] at h2
      exact h2
    refine ⟨hn, ?_, hl⟩
    have hs : (l.map UniformVariable.key).toFinset ⊆
        ((uniforms qs).map UniformVariable.key).toFinset := by
      intro k hk
      rw [List.mem_toFinset] at hk ⊢
      obtain ⟨v, hv, rfl⟩ := List.mem_map.mp hk
      have h2 := List.mem_of_getLast? (hl v hv)
      exact List.mem_map.mpr ⟨v.plain, (List.mem_filter.mp h2).1, rfl⟩
    calc l.length = (l.map UniformVariable.key).toFinset.card := by
          rw [List.toFinset_card_of_nodup hn, List.length_map]
      _ ≤ ((uniforms qs).map UniformVariable.key).toFinset.card := Finset.card_le_card hs

end OneEach

/-- After a commit, a technique has one entry for each uniform variable that was set, with the
value set last, exactly when no location was set twice without a name. -/
theorem uniforms_oneEach_iff {t : ℕ} {as : List Action} {a : Action} {z : GlBaseTechnique}
    (ha : (run as).Reaches a t) (hz : (run (as ++ [a])).baseTechniques t = some z) :
    OneEach (requests t init as) z.current.uniformVars ↔ UnnamedOnce (requests t init as) := by
  have h1 : Says (requests t init as) z.current.uniformVars :=
    congrArg DirectTechnique.uniforms (view_after_commit ha hz)
  exact h1.oneEach_iff

/-- A technique for which a uniform is asked. -/
def freshTechnique : List Action :=
  [.request 0 .createVirtualObject, .request 0 (.createRenderingUnit 0),
    .request 0 (.createGlBaseTechnique 1)]

/-- A named uniform that is set twice. -/
def namedTwice : List Action :=
  freshTechnique ++
    [.request 0 (.uniformVector 2 .float 0 (some "a") 1 1 ⟨4, fun _ => 0⟩),
      .request 0 (.uniformVector 2 .float 0 (some "a") 1 1 ⟨4, fun _ => 1⟩)]

theorem uniforms_oneEach_namedTwice :
    ∃ z, (run (namedTwice ++ [.request 0 (.commit 0)])).baseTechniques 2 = some z ∧
      OneEach (requests 2 init namedTwice) z.current.uniformVars := by
  refine ⟨_, rfl, (uniforms_oneEach_iff (a := .request 0 (.commit 0)) ⟨0, rfl, rfl⟩ rfl).mpr ?_⟩
  exact List.nodup_nil

/-- The same without a name. -/
def unnamedTwice : List Action :=
  freshTechnique ++
    [.request 0 (.uniformVector 2 .float 0 (some "") 1 1 ⟨4, fun _ => 0⟩),
      .request 0 (.uniformVector 2 .float 0 (some "") 1 1 ⟨4, fun _ => 1⟩)]

/-- Both entries stay. -/
theorem uniforms_twice :
    (run unnamedTwice).Reaches (.request 0 (.commit 0)) 2 ∧
      ∃ z, (run (unnamedTwice ++ [.request 0 (.commit 0)])).baseTechniques 2 = some z ∧
        ¬ OneEach (requests 2 init unnamedTwice) z.current.uniformVars := by
  refine ⟨⟨0, rfl, rfl⟩, _, rfl, fun h => ?_⟩
  exact absurd h.unique (by decide)

end Scene

/-- What a `uniform_vector` or `uniform_matrix` request says; a vector has one column. -/
structure UniformArgs where
  type : UniformType
  location : UInt32
  name : Option String
  col : UInt32
  row : UInt32
  count : UInt32
  transpose : Bool
  value : WlArray

namespace UniformArgs

/-- The size of `count` elements. -/
def bytes (a : UniformArgs) : ℕ := 4 * a.col.toNat * a.row.toNat * a.count.toNat

/-- The dimensions are in range, and the array holds all elements. -/
def Fits (a : UniformArgs) : Prop :=
  (1 ≤ a.col.toNat ∧ a.col.toNat ≤ 4) ∧ (1 ≤ a.row.toNat ∧ a.row.toNat ≤ 4) ∧
    a.bytes ≤ a.value.size

instance (a : UniformArgs) : Decidable a.Fits := by unfold Fits; infer_instance

/-- The elements of the client. -/
def elements (a : UniformArgs) : Bytes := a.value.read a.bytes

/-- The variable that holds them. -/
def wanted (a : UniformArgs) : UniformVariable where
  type := a.type
  location := a.location
  name := a.name.getD ""
  col := a.col
  row := a.row
  count := a.count
  transpose := a.transpose
  value := a.elements

/-- The variable that is stored. -/
def stored (a : UniformArgs) : UniformVariable :=
  .construct a.type a.location a.name a.col a.row a.count a.transpose a.value

/-- The call that passes the elements of the client. -/
def call (technique : ℕ) (a : UniformArgs) : Call :=
  if a.col = 1 then
    .glUniformVector technique a.type a.location (a.name.getD "") a.row a.count a.elements
  else
    .glUniformMatrix technique a.location (a.name.getD "") a.col a.row a.count a.transpose
      a.elements

/-- The product that the handlers compute in 64 bits does not wrap around. -/
theorem bytes_toUInt64 {a : UniformArgs} (hc : a.col.toNat ≤ 4) (hr : a.row.toNat ≤ 4) :
    (4 * a.col.toUInt64 * a.row.toUInt64 * a.count.toUInt64).toNat = a.bytes := by
  have h1 : 4 * a.col.toNat ≤ 16 := by omega
  have h2 : 4 * a.col.toNat * a.row.toNat ≤ 16 * 4 := Nat.mul_le_mul h1 hr
  have h3 := a.count.toNat_lt
  have h4 : a.bytes ≤ 64 * (2 ^ 32 - 1) := Nat.mul_le_mul h2 (by omega)
  simp only [UInt64.toNat_mul, UInt32.toNat_toUInt64]
  rw [show (4 : UInt64).toNat = 4 from rfl, Nat.mod_eq_of_lt (a := 4 * a.col.toNat) (by omega),
    Nat.mod_eq_of_lt (a := 4 * a.col.toNat * a.row.toNat) (by omega)]
  exact Nat.mod_eq_of_lt (show a.bytes < 2 ^ 64 by omega)

theorem read_inj {a : WlArray} {n m : ℕ} : a.read n = a.read m ↔ n = m := by
  refine ⟨fun h => ?_, fun h => h ▸ rfl⟩
  simpa [WlArray.read] using congrArg List.length h

/-- One element is stored, whatever their number. -/
theorem stored_value_iff {a : UniformArgs} (h : a.Fits) :
    a.stored.value = a.elements ↔ a.count = 1 := by
  obtain ⟨⟨hc, -⟩, ⟨hr, -⟩, -⟩ := h
  have hp : 0 < 4 * a.col.toNat * a.row.toNat := Nat.mul_pos (Nat.mul_pos (by decide) hc) hr
  rw [show a.stored.value = a.value.read (4 * a.col.toNat * a.row.toNat) from rfl, elements,
    read_inj, bytes, eq_comm, Nat.mul_eq_left (by omega)]
  exact ⟨fun h => UInt32.toNat_inj.mp h, fun h => h ▸ rfl⟩

theorem stored_eq_wanted_iff {a : UniformArgs} (h : a.Fits) :
    a.stored = a.wanted ↔ a.count = 1 := by
  rw [← stored_value_iff h]
  refine ⟨fun h => congrArg UniformVariable.value h, fun h => ?_⟩
  rw [wanted, ← h]
  rfl

/-- A sync passes the elements of the client exactly when there is one. -/
theorem syncCall_iff {a : UniformArgs} (h : a.Fits) {v : UniformVariable} (hv : v.plain = a.stored)
    {technique : ℕ} {c : Call} (hc : UniformVariableList.syncCall technique v = some c) :
    c = a.call technique ↔ a.count = 1 := by
  have hp {β : Type} (f : UniformVariable → β) : f v.plain = f a.stored := congrArg f hv
  have h1 : v.col = a.col := hp UniformVariable.col
  have h2 : v.type = a.type := hp UniformVariable.type
  have h3 : v.location = a.location := hp UniformVariable.location
  have h4 : v.name = a.name.getD "" := hp UniformVariable.name
  have h5 : v.row = a.row := hp UniformVariable.row
  have h6 : v.count = a.count := hp UniformVariable.count
  have h7 : v.transpose = a.transpose := hp UniformVariable.transpose
  have h8 : v.value = a.stored.value := hp UniformVariable.value
  rw [← stored_value_iff h, call]
  simp only [UniformVariableList.syncCall, h1, h2, h3, h4, h5, h6, h7, h8] at hc
  split at hc
  · next hcol =>
    rw [if_pos hcol]
    split at hc
    · cases hc
    · cases hc
      simp
  · next hcol =>
    rw [if_neg hcol]
    cases hc
    simp

end UniformArgs

namespace Scene

def Request.uniform? : Request → Option (ℕ × UniformArgs)
  | .uniformVector t type location name size count value =>
      some (t, ⟨type, location, name, 1, size, count, false, value⟩)
  | .uniformMatrix t location name col row count transpose value =>
      some (t, ⟨.float, location, name, col, row, count, transpose ≠ 0, value⟩)
  | _ => none

theorem out_of_range {n : UInt32} : n = 0 ∨ 4 < n ↔ ¬ (1 ≤ n.toNat ∧ n.toNat ≤ 4) := by
  have h1 : n = 0 ↔ n.toNat = 0 := by rw [← UInt32.toNat_inj]; rfl
  have h2 : 4 < n ↔ 4 < n.toNat := UInt32.lt_iff_toNat_lt
  rw [h1, h2]
  omega

theorem fits_vector {type : UniformType} {location : UInt32} {name : Option String}
    {size count : UInt32} {value : WlArray} :
    UniformArgs.Fits ⟨type, location, name, 1, size, count, false, value⟩ ↔
      ¬ (size = 0 ∨ 4 < size) ∧ ¬ value.size < 4 * size.toNat * count.toNat := by
  simp [out_of_range, UniformArgs.Fits, UniformArgs.bytes]

theorem fits_matrix {location : UInt32} {name : Option String} {col row count : UInt32}
    {transpose : Bool} {value : WlArray} :
    UniformArgs.Fits ⟨.float, location, name, col, row, count, transpose, value⟩ ↔
      ¬ (col = 0 ∨ 4 < col) ∧ ¬ (row = 0 ∨ 4 < row) ∧
        ¬ value.size < 4 * col.toNat * row.toNat * count.toNat := by
  simp [out_of_range, UniformArgs.Fits, UniformArgs.bytes]

section Requests
variable {s : Scene} {client t : ℕ} {r : Request} {a : UniformArgs}

theorem toTechnique_uniform (h : r.uniform? = some (t, a)) :
    r.toTechnique = if a.Fits then some (t, .uniform a.stored) else none := by
  cases r with
  | uniformVector t type location name size count value =>
    cases h
    simp only [Request.toTechnique, fits_vector]
    by_cases h1 : size = 0 ∨ 4 < size
    · rw [if_pos h1, if_neg fun h => h.1 h1]
    · rw [if_neg h1]
      by_cases h2 : value.size < 4 * size.toNat * count.toNat
      · rw [if_pos h2, if_neg fun h => h.2 h2]
      · rw [if_neg h2, if_pos ⟨h1, h2⟩]
        rfl
  | uniformMatrix t location name col row count transpose value =>
    cases h
    simp only [Request.toTechnique, fits_matrix]
    by_cases h1 : col = 0 ∨ 4 < col
    · rw [if_pos h1, if_neg fun h => h.1 h1]
    · rw [if_neg h1]
      by_cases h2 : row = 0 ∨ 4 < row
      · rw [if_pos h2, if_neg fun h => h.2.1 h2]
      · rw [if_neg h2]
        by_cases h3 : value.size < 4 * col.toNat * row.toNat * count.toNat
        · rw [if_pos h3, if_neg fun h => h.2.2 h3]
        · rw [if_neg h3, if_pos ⟨h1, h2, h3⟩]
          rfl
  | _ => cases h

/-- A request that does not fit posts an error, one that does is stored. -/
theorem handle_uniform (h : r.uniform? = some (t, a)) (hz : (s.baseTechniques t).isSome) :
    if a.Fits then s.handle client r = s.techniqueRequest t (.uniform a.stored)
    else ∃ code text, s.handle client r = s.postError t code text := by
  cases r with
  | uniformVector t type location name size count value =>
    cases h
    simp only [handle, withTechnique, if_pos hz, uniformVector, fits_vector]
    by_cases h1 : size = 0 ∨ 4 < size
    · rw [if_pos h1, if_neg fun h => h.1 h1]
      exact ⟨_, _, rfl⟩
    · rw [if_neg h1]
      by_cases h2 : value.size < 4 * size.toNat * count.toNat
      · rw [if_pos h2, if_neg fun h => h.2 h2]
        exact ⟨_, _, rfl⟩
      · rw [if_neg h2, if_pos ⟨h1, h2⟩]
        rfl
  | uniformMatrix t location name col row count transpose value =>
    cases h
    simp only [handle, withTechnique, if_pos hz, uniformMatrix, fits_matrix]
    by_cases h1 : col = 0 ∨ 4 < col
    · rw [if_pos h1, if_neg fun h => h.1 h1]
      exact ⟨_, _, rfl⟩
    · rw [if_neg h1]
      by_cases h2 : row = 0 ∨ 4 < row
      · rw [if_pos h2, if_neg fun h => h.2.1 h2]
        exact ⟨_, _, rfl⟩
      · rw [if_neg h2]
        by_cases h3 : value.size < 4 * col.toNat * row.toNat * count.toNat
        · rw [if_pos h3, if_neg fun h => h.2.2 h3]
          exact ⟨_, _, rfl⟩
        · rw [if_neg h3, if_pos ⟨h1, h2, h3⟩]
          rfl
  | _ => cases h

/-- A uniform request is taken if it fits, with the elements of the client, and changes nothing
otherwise but for the error. -/
structure TakesUniform (s : Scene) (client : ℕ) (r : Request) (t : ℕ) (a : UniformArgs) : Prop where
  taken : a.Fits → s.step (.request client r) = s.techniqueRequest t (.uniform a.wanted)
  refused : ¬ a.Fits → ∃ e, s.step (.request client r) = { s with errors := s.errors ++ [e] }

theorem techniqueRequest_inj {v w : UniformVariable} (hz : (s.baseTechniques t).isSome) :
    s.techniqueRequest t (.uniform v) = s.techniqueRequest t (.uniform w) ↔ v = w := by
  refine ⟨fun h => ?_, fun h => h ▸ rfl⟩
  obtain ⟨z, hz⟩ := Option.isSome_iff_exists.mp hz
  have h1 := congrFun (congrArg Scene.baseTechniques h) t
  simp only [techniqueRequest, Arena.modify_self, hz, Option.map_some, Option.some.injEq,
    GlBaseTechnique.request, TechniqueState.request] at h1
  have h2 := congrArg (fun z : GlBaseTechnique => z.pending.uniformVars) h1
  simpa using h2

theorem takesUniform_iff (h : r.uniform? = some (t, a)) (hf : s.fault = none)
    (hr : s.admits client r) (hz : (s.baseTechniques t).isSome) :
    TakesUniform s client r t a ↔ (a.Fits → a.count = 1) := by
  have hs : s.step (.request client r) = s.handle client r := by
    rw [step, if_neg (by simp [hf]), act, if_pos hr]
  have h1 : if a.Fits then s.handle client r = s.techniqueRequest t (.uniform a.stored)
      else ∃ code text, s.handle client r = s.postError t code text := handle_uniform h hz
  by_cases ha : a.Fits
  · rw [if_pos ha] at h1
    constructor
    · intro ht _
      have h2 := ht.taken ha
      rw [hs, h1, techniqueRequest_inj hz] at h2
      exact (UniformArgs.stored_eq_wanted_iff ha).mp h2
    · intro hc
      refine ⟨fun _ => ?_, fun hn => absurd ha hn⟩
      rw [hs, h1, (UniformArgs.stored_eq_wanted_iff ha).mpr (hc ha)]
  · rw [if_neg ha] at h1
    refine ⟨fun _ h => absurd h ha, fun _ => ⟨fun h => absurd h ha, fun _ => ?_⟩⟩
    obtain ⟨code, text, h1⟩ := h1
    have hres : (s.resources t).isSome := by
      simp only [admits, Bool.and_eq_true, List.all_eq_true, decide_eq_true_eq] at hr
      have hm : (t, Interface.baseTechnique) ∈ r.objects := by
        cases r <;> cases h <;> exact List.mem_cons_self
      rw [hr.2 _ hm]
      rfl
    obtain ⟨x, hx⟩ := Option.isSome_iff_exists.mp hres
    exact ⟨_, by rw [hs, h1, postError, hx]⟩

theorem uniform_of_toTechnique {v : UniformVariable}
    (h : r.toTechnique = some (t, .uniform v)) :
    ∃ a, r.uniform? = some (t, a) ∧ a.Fits ∧ v = a.stored := by
  have hu {t' : ℕ} {a : UniformArgs} (hr : r.uniform? = some (t', a)) :
      ∃ a, r.uniform? = some (t, a) ∧ a.Fits ∧ v = a.stored := by
    rw [toTechnique_uniform hr] at h
    split at h
    · next ha =>
      simp only [Option.some.injEq, Prod.mk.injEq, TechniqueRequest.uniform.injEq] at h
      exact ⟨a, by rw [hr, h.1], ha, h.2.symm⟩
    · cases h
  cases r with
  | uniformVector => exact hu rfl
  | uniformMatrix => exact hu rfl
  | _ => simp [Request.toTechnique] at h

/-- A uniform among the requests on a technique comes from a request of a client that fits. -/
theorem uniform_of_requests {v : UniformVariable} {as : List Action}
    (h : .uniform v ∈ requests t s as) :
    ∃ client r a, Action.request client r ∈ as ∧ r.uniform? = some (t, a) ∧ a.Fits ∧
      v = a.stored := by
  induction as generalizing s with
  | nil => simp [requests] at h
  | cons b as ih =>
    rw [requests, List.mem_append] at h
    rcases h with h | h
    · rw [Option.mem_toList] at h
      unfold accepted at h
      split at h
      · next client r =>
        split at h
        · obtain ⟨⟨t', q⟩, hq, rfl⟩ := Option.map_eq_some_iff.mp h
          obtain ⟨h1, ht⟩ := Option.filter_eq_some_iff.mp hq
          obtain rfl : t' = t := by simpa using ht
          obtain ⟨a, ha⟩ := uniform_of_toTechnique h1
          exact ⟨client, r, a, List.mem_cons_self, ha⟩
        · cases h
      · cases h
    · obtain ⟨client, r, a, hm, ha⟩ := ih h
      exact ⟨client, r, a, List.mem_cons_of_mem b hm, ha⟩

/-- Every committed entry comes from such a request, and a sync passes what its client sent exactly
when that is one element. -/
theorem committed_uniform {as : List Action} {z : GlBaseTechnique}
    (hz : (run as).baseTechniques t = some z) {v : UniformVariable}
    (hv : v ∈ z.current.uniformVars) :
    ∃ client r a, Action.request client r ∈ as ∧ r.uniform? = some (t, a) ∧
      ∀ technique c, UniformVariableList.syncCall technique v = some c →
        (c = a.call technique ↔ a.count = 1) := by
  obtain ⟨old, new, hr, hb⟩ := run_buffered hz
  have h1 : v.plain ∈ (DirectTechnique.executeAll old).uniforms := by
    rw [← hb.current]
    exact List.mem_map.mpr ⟨v, hv, rfl⟩
  rw [DirectTechnique.executeAll_uniforms] at h1
  obtain ⟨q, hq, he⟩ :=
    List.mem_filterMap.mp ((LastWrite.mem_foldl_insert h1).resolve_left (by simp))
  cases q with
  | uniform w =>
    have hw : .uniform w ∈ requests t init as := by
      rw [hr]
      exact List.mem_append_left _ hq
    obtain ⟨client, r, a, hm, ha, hf, rfl⟩ := uniform_of_requests hw
    have hp : v.plain = a.stored := (Option.some.inj he).symm
    exact ⟨client, r, a, hm, ha, fun technique c hc => UniformArgs.syncCall_iff hf hp hc⟩
  | _ => cases he

end Requests

/-- A uniform request is taken as it should exactly when it asks for one element, or does not fit.
The product that its check computes does not wrap around. And of the entries a technique has
committed, a sync passes the elements their clients sent exactly when they are one. -/
theorem uniform_elements_iff (as : List Action) :
    (∀ (s : Scene) client r t a, r.uniform? = some (t, a) → s.fault = none → s.admits client r →
      (s.baseTechniques t).isSome →
        (TakesUniform s client r t a ↔ (a.Fits → a.count = 1))) ∧
    (∀ a : UniformArgs, a.col.toNat ≤ 4 → a.row.toNat ≤ 4 →
      (4 * a.col.toUInt64 * a.row.toUInt64 * a.count.toUInt64).toNat = a.bytes) ∧
    ∀ t z, (run as).baseTechniques t = some z → ∀ v ∈ z.current.uniformVars,
      ∃ client r a, Action.request client r ∈ as ∧ r.uniform? = some (t, a) ∧
        ∀ technique c, UniformVariableList.syncCall technique v = some c →
          (c = a.call technique ↔ a.count = 1) :=
  ⟨fun _ _ _ _ _ h hf hr hz => takesUniform_iff h hf hr hz, fun _ => UniformArgs.bytes_toUInt64,
    fun _ _ hz _ hv => committed_uniform hz hv⟩

/-- One vector of two numbers. -/
theorem uniform_elements_one :
    TakesUniform (run freshTechnique) 0 (.uniformVector 2 .float 0 (some "a") 2 1 ⟨8, fun _ => 7⟩) 2
      ⟨.float, 0, some "a", 1, 2, 1, false, ⟨8, fun _ => 7⟩⟩ ∧
    ∃ z, (run (namedTwice ++ [.request 0 (.commit 0)])).baseTechniques 2 = some z ∧
      ∀ v ∈ z.current.uniformVars, ∃ client r a,
        Action.request client r ∈ namedTwice ++ [.request 0 (.commit 0)] ∧
          r.uniform? = some (2, a) := by
  obtain ⟨z, hz⟩ : ∃ z, (run (namedTwice ++ [.request 0 (.commit 0)])).baseTechniques 2 = some z :=
    ⟨_, rfl⟩
  refine ⟨((uniform_elements_iff []).1 _ _ _ _ _ rfl rfl rfl rfl).mpr fun _ => rfl, z, hz,
    fun v hv => ?_⟩
  obtain ⟨client, r, a, hm, ha, -⟩ := (uniform_elements_iff _).2.2 2 z hz v hv
  exact ⟨client, r, a, hm, ha⟩

/-- Of two numbers, each a vector of its own, the second is not stored. -/
theorem uniform_elements_lost :
    ¬ TakesUniform (run freshTechnique) 0
      (.uniformVector 2 .float 0 (some "a") 1 2 ⟨8, fun _ => 7⟩) 2
      ⟨.float, 0, some "a", 1, 1, 2, false, ⟨8, fun _ => 7⟩⟩ := by
  intro h
  have h1 := congrArg (fun s : Scene => (s.baseTechniques 2).map fun z =>
    z.pending.uniformVars.map fun v => v.value.length) (h.taken (by decide))
  exact absurd h1 (by decide)

end Scene
end Yaza
