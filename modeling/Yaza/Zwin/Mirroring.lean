import Yaza.Zwin.Telling

/-! When what a remote technique was told is what is committed: what a sync of its virtual object
makes of it, and what it takes for the two to agree afterwards. -/
namespace Yaza
namespace Scene

/-- What can have been said of a technique so far: on ids that were given out, and no vector of an
unknown type. -/
structure Known (s : Scene) (c : Call) : Prop where
  technique : ∀ q k, c.part? = some (q, k) → q < s.remote.proxyCount
  given : ∀ i ∈ c.given, i < s.remote.proxyCount
  sent : ∀ q location name size count value n,
    c ≠ .glUniformVector q (.other n) location name size count value

section Settings
variable {s s' : Scene} {q : ℕ} {y y' : Setting} {c : Call}

theorem Attached.idOf_lt (ha : Attached s) {x : Holder} {i : ℕ} (h : s.idOf x = some i) :
    i < s.remote.proxyCount := by
  obtain ⟨p, hp, rfl⟩ := Option.map_eq_some_iff.mp h
  exact ha.id_lt x p hp

theorem Attached.idOf_inj (ha : Attached s) {x x' : Holder} {i : ℕ} (h : s.idOf x = some i)
    (h' : s.idOf x' = some i) : x = x' := by
  obtain ⟨p, hp, hi⟩ := Option.map_eq_some_iff.mp h
  obtain ⟨p', hp', hi'⟩ := Option.map_eq_some_iff.mp h'
  exact ha.distinct x x' p p' hp hp' (hi.trans hi'.symm)

/-- The call for a setting tells which it is. -/
theorem Attached.callFor_inj (ha : Attached s) (h : s.callFor q y = some c)
    (h' : s.callFor q y' = some c) : y = y' := by
  cases y with
  | vertexArray va =>
    obtain ⟨i, hi, rfl⟩ := Option.map_eq_some_iff.mp h
    cases y' with
    | vertexArray va' =>
      obtain ⟨j, hj, he⟩ := Option.map_eq_some_iff.mp h'
      cases he
      cases ha.idOf_inj hi hj
      rfl
    | _ => simp [callFor, Option.bind_eq_some_iff] at h'
  | program p =>
    obtain ⟨i, hi, rfl⟩ := Option.map_eq_some_iff.mp h
    cases y' with
    | program p' =>
      obtain ⟨j, hj, he⟩ := Option.map_eq_some_iff.mp h'
      cases he
      cases ha.idOf_inj hi hj
      rfl
    | _ => simp [callFor, Option.bind_eq_some_iff] at h'
  | texture b =>
    obtain ⟨i, hi, h⟩ := Option.bind_eq_some_iff.mp h
    obtain ⟨j, hj, rfl⟩ := Option.map_eq_some_iff.mp h
    cases y' with
    | texture b' =>
      obtain ⟨i', hi', h'⟩ := Option.bind_eq_some_iff.mp h'
      obtain ⟨j', hj', he⟩ := Option.map_eq_some_iff.mp h'
      obtain ⟨binding, name, target, texture, sampler⟩ := b
      obtain ⟨binding', name', target', texture', sampler'⟩ := b'
      cases he
      cases ha.idOf_inj hi hi'
      cases ha.idOf_inj hj hj'
      rfl
    | _ => simp [callFor] at h'
  | drawElements mode count type offset b =>
    obtain ⟨i, hi, rfl⟩ := Option.map_eq_some_iff.mp h
    cases y' with
    | drawElements mode' count' type' offset' b' =>
      obtain ⟨j, hj, he⟩ := Option.map_eq_some_iff.mp h'
      cases he
      cases ha.idOf_inj hi hj
      rfl
    | _ => simp [callFor, Option.bind_eq_some_iff] at h'
  | _ =>
    cases h
    cases y' <;> simp [callFor, Option.bind_eq_some_iff] at h' ⊢
    all_goals simp [h']

theorem callFor_known (ha : Attached s) (hq : q < s.remote.proxyCount) (hy : y.sent)
    (h : s.callFor q y = some c) : s.Known c := by
  refine ⟨fun i k hi => ?_, ?_, ?_⟩
  · rw [(callFor_spec h).1] at hi
    cases hi
    exact hq
  · intro i hi
    obtain ⟨x, -, hx⟩ := (ids_of_callFor h).2 i hi
    exact ha.idOf_lt hx
  · rintro q' location name size count value n rfl
    cases y with
    | uniformVector type =>
      cases h
      cases hy
    | texture b => simp [callFor, Option.bind_eq_some_iff] at h
    | _ => simp [callFor] at h

/-- A setting that was told before keeps its call. -/
theorem callFor_back (hi : ∀ x i, s'.idOf x = some i → i < s.remote.proxyCount →
    s.idOf x = some i) (hc : s.Known c) (h : s'.callFor q y = some c) :
    s.callFor q y = some c :=
  callFor_of_ids (fun x i hm he => hi x i he (hc.given i hm)) h

end Settings

section Told
variable {s s' : Scene} {q : ℕ} {k : Part} {y w : Setting} {c : Call}

/-- Everything that was said is known. -/
def AllKnown (s : Scene) : Prop := ∀ c ∈ s.spoken, s.Known c

theorem told_eq_spoken (s : Scene) (q : ℕ) (k : Part) :
    s.told q k = LastWrite.latest Call.part? s.spoken (some (q, k)) := by
  rw [told, LastWrite.latest, LastWrite.latest, spoken, List.filter_filter]
  congr 1
  apply List.filter_congr
  intro c _
  by_cases hc : c.part? = some (q, k) <;> simp [hc]

theorem AllKnown.told (hk : s.AllKnown) (h : s.told q k = some c) :
    s.Known c ∧ c.part? = some (q, k) := by
  rw [told_eq_spoken] at h
  obtain ⟨h1, h2⟩ := LastWrite.mem_of_latest h
  exact ⟨hk c h1, h2⟩

/-- A fresh proxy was told nothing. -/
theorem AllKnown.told_fresh (hk : s.AllKnown) (hq : s.remote.proxyCount ≤ q) (k : Part) :
    s.told q k = none := by
  cases h : s.told q k with
  | none => rfl
  | some c =>
    obtain ⟨h1, h2⟩ := hk.told h
    have := h1.technique q k h2
    omega

theorem AllKnown.sent (hk : s.AllKnown) (h : s.Shows q y) : y.sent := by
  obtain ⟨c, h1, h2⟩ := h
  have h3 := (hk.told h1).1.sent
  cases y with
  | uniformVector type location name size count value =>
    cases h2
    cases type with
    | other n => exact absurd rfl (h3 q location name size count value n)
    | _ => rfl
  | _ => rfl

theorem Syncs.idOf_back {A : ℕ → Prop} {C : Call → Prop} (h : Syncs A C s s') {x : Holder} {i : ℕ}
    (hi : s'.idOf x = some i) (hn : i < s.remote.proxyCount) : s.idOf x = some i := by
  obtain ⟨p, hp, rfl⟩ := Option.map_eq_some_iff.mp hi
  rcases Syncs.proxyOf_new h hp with h1 | ⟨h1, -⟩
  · exact Option.map_eq_some_iff.mpr ⟨p, h1, rfl⟩
  · omega

variable {l : List (ℕ × Setting)} (h : Utters l s s') (hf : s'.fault = none) (ha : Attached s')
include h hf ha

theorem Utters.allKnown (hk : s.AllKnown) (hl : ∀ e ∈ l, e.2.sent) : s'.AllKnown := by
  obtain ⟨cs, h1, h2⟩ := h.spoken hf
  intro c hc
  rw [h1] at hc
  rcases List.mem_append.mp hc with hc | hc
  · have h3 := hk c hc
    have hn := Syncs.proxyCount h.syncs
    exact ⟨fun i k hi => (h3.technique i k hi).trans_le hn,
      fun i hi => (h3.given i hi).trans_le hn, h3.sent⟩
  · have h3 : some c ∈ l.map s'.callOf := h2 ▸ List.mem_map_of_mem hc
    obtain ⟨e, he, h4⟩ := List.mem_map.mp h3
    obtain ⟨i, hi, h5⟩ := Option.bind_eq_some_iff.mp h4
    exact callFor_known ha (ha.idOf_lt hi) (hl e he) h5

variable {t : ℕ} (hq : s'.idOf (.baseTechnique t) = some q)
include hq

/-- What the technique is told last, if anything. -/
theorem Utters.told (k : Part) :
    s'.told q k = ((LastWrite.latest (fun e => (e.1, e.2.part)) l (t, k)).bind s'.callOf).or
      (s.told q k) := by
  obtain ⟨cs, h1, h2⟩ := h.spoken hf
  rw [told_eq_spoken, told_eq_spoken, h1, LastWrite.latest_append]
  congr 1
  apply LastWrite.latest_encode h2
  intro e _ c hc
  obtain ⟨i, hi, h3⟩ := Option.bind_eq_some_iff.mp hc
  rw [(callFor_spec h3).1, Option.some.injEq, Prod.mk.injEq, Prod.mk.injEq]
  apply and_congr_left'
  constructor
  · rintro rfl
    cases ha.idOf_inj hi hq
    rfl
  · intro he
    rw [he, hq] at hi
    exact (Option.some.inj hi).symm

/-- A part that is not told shows what it did. -/
theorem Utters.shows_kept (hk : s.AllKnown)
    (hn : LastWrite.latest (fun e => (e.1, e.2.part)) l (t, y.part) = none) :
    s'.Shows q y ↔ s.Shows q y := by
  have ht := h.told hf ha hq y.part
  rw [hn, Option.bind_none, Option.none_or] at ht
  simp only [Shows, ht]
  apply exists_congr
  intro c
  apply and_congr_right
  intro hc
  constructor
  · exact callFor_back (fun _ _ => Syncs.idOf_back h.syncs) (hk.told hc).1
  · exact callFor_mono fun _ _ => Syncs.idOf h.syncs

/-- A part that is told shows the last of it. -/
theorem Utters.shows_sent
    (hn : LastWrite.latest (fun e => (e.1, e.2.part)) l (t, y.part) = some (t, w)) :
    s'.Shows q y ↔ y = w := by
  obtain ⟨cs, -, h2⟩ := h.spoken hf
  have hm : s'.callOf (t, w) ∈ cs.map some :=
    h2 ▸ List.mem_map_of_mem (LastWrite.mem_of_latest hn).1
  obtain ⟨c, -, hc⟩ := List.mem_map.mp hm
  have hw : s'.callFor q w = some c := by
    simpa [callOf, hq] using hc.symm
  have ht := h.told hf ha hq y.part
  rw [hn, Option.bind_some, ← hc, Option.some_or] at ht
  simp only [Shows, ht, Option.some.injEq]
  constructor
  · rintro ⟨_, rfl, h3⟩
    exact ha.callFor_inj h3 hw
  · rintro rfl
    exact ⟨c, rfl, hw⟩

end Told

section Tells
variable (s : Scene) (force : Bool) (v t : ℕ) (k : Part)

theorem tells_eq : s.tells force v =
    (s.registered v).flatMap fun t => ofTechnique t (s.sendsOf force t) := by
  rw [tells, registered]
  induction s.unitsOf v with
  | nil => rfl
  | cons u l ih =>
    rw [List.flatMap_cons, ih, List.filterMap_cons, tellsOf]
    cases (s.renderingUnits u).bind RenderingUnit.technique <;> simp

theorem latest_ofTechnique (l : List Setting) :
    LastWrite.latest (fun e => (e.1, e.2.part)) (ofTechnique t l) (t, k) =
      (LastWrite.latest Setting.part l k).map fun y => (t, y) := by
  apply LastWrite.latest_map
  intro y _
  simp

theorem latest_other {t' : ℕ} (h : t' ≠ t) (l : List Setting) :
    LastWrite.latest (fun e => (e.1, e.2.part)) (ofTechnique t' l) (t, k) = none := by
  apply LastWrite.latest_eq_none.mpr
  intro e he hk
  obtain ⟨y, -, rfl⟩ := List.mem_map.mp he
  exact h (congrArg Prod.fst hk)

/-- A registered technique is told what is marked of it, any other nothing. -/
theorem latest_tells : LastWrite.latest (fun e => (e.1, e.2.part)) (s.tells force v) (t, k) =
    if t ∈ s.registered v then
      (LastWrite.latest Setting.part (s.sendsOf force t) k).map fun y => (t, y)
    else none := by
  rw [tells_eq]
  induction s.registered v with
  | nil => rfl
  | cons t' l ih =>
    rw [List.flatMap_cons, LastWrite.latest_append, ih]
    by_cases ht : t' = t
    · subst ht
      rw [latest_ofTechnique]
      split <;> simp
    · rw [latest_other t k ht]
      simp [Ne.symm ht]

theorem sent_of_sends {x : TechniqueState} {y : Setting} (hy : y ∈ s.sends x force) : y.sent := by
  have h := (s.kinds_settings x).mono (ite_nil_subset (force || x.vertexArrayChanged) _)
    (ite_nil_subset (force || x.programChanged) _)
    (ite_nil_subset (force || x.textureBindings.changed) _)
    (newUniforms_sublist x force).subset
    (ite_nil_subset (force || x.drawApiArgs.changed) _)
  simp only [sends, List.mem_append] at hy
  have other (h1 : ∀ i, y.part ≠ .uniform i) : y.sent := by
    cases y with
    | uniformVector => exact absurd rfl (h1 _)
    | _ => rfl
  rcases hy with (((hy | hy) | hy) | hy) | hy
  · exact other fun i hi => by cases hi.symm.trans (h.vertexArrays y hy)
  · exact other fun i hi => by cases hi.symm.trans (h.programs y hy)
  · exact other fun i hi => by
      obtain ⟨j, hj⟩ := h.textures y hy
      cases hi.symm.trans hj
  · exact (List.mem_filter.mp hy).2
  · exact other fun i hi => by cases hi.symm.trans (h.draws y hy)

theorem sent_of_tells {e : ℕ × Setting} (he : e ∈ s.tells force v) : e.2.sent := by
  rw [tells_eq] at he
  obtain ⟨t, -, he⟩ := List.mem_flatMap.mp he
  obtain ⟨y, hy, rfl⟩ := List.mem_map.mp he
  rw [sendsOf] at hy
  cases hz : s.baseTechniques t with
  | none => simp [hz] at hy
  | some z => exact sent_of_sends s force (by simpa [hz] using hy)

end Tells

/-- Of some settings of one kind, `old` as committed and `new` as requested: the remote object was
not told yet, and none of them is left out of this sync; or it was told, and whatever it was told
is replaced by something that is still alive, if it is replaced. -/
def Covers (told changed : Bool) (old new : List Setting) : Prop :=
  if told then changed → ∀ y ∈ old, ∃ w ∈ new, w.part = y.part else changed ∨ old = []

section Covers
variable {kind : Part → Prop} {told changed : Bool} {old new : List Setting}
  {P P' : Setting → Prop}

/-- `P` is what was shown before a sync, `P'` what is shown after it. -/
theorem covers_iff (hk : ∀ y ∈ old, kind y.part)
    (hP : ∀ y, kind y.part → (P y ↔ told ∧ LastWrite.latest Setting.part old y.part = some y))
    (hsent : changed → ∀ y w, kind y.part → LastWrite.latest Setting.part new y.part = some w →
      (P' y ↔ y = w))
    (hkept : ∀ y, kind y.part →
      (changed → LastWrite.latest Setting.part new y.part = none) → (P' y ↔ P y)) :
    (∀ y, kind y.part →
      (P' y ↔ LastWrite.latest Setting.part (if changed then new else old) y.part = some y)) ↔
      Covers told changed old new := by
  have last {l : List Setting} {y : Setting} (hy : y ∈ l) :
      ∃ w, LastWrite.latest Setting.part l y.part = some w ∧ w ∈ l ∧ w.part = y.part := by
    cases h : LastWrite.latest Setting.part l y.part with
    | none => exact absurd rfl (LastWrite.latest_eq_none.mp h y hy)
    | some w =>
      obtain ⟨h1, h2⟩ := LastWrite.mem_of_latest h
      exact ⟨w, rfl, h1, h2⟩
  cases changed with
  | false =>
    have hkept' (y) (hy : kind y.part) : P' y ↔ P y := hkept y hy (by simp)
    simp only [Covers, Bool.false_eq_true, if_false, false_imp_iff, false_or]
    cases told with
    | true =>
      simp only [if_true, iff_true]
      intro y hy
      rw [hkept' y hy, hP y hy]
      simp
    | false =>
      simp only [Bool.false_eq_true, if_false]
      constructor
      · intro h
        apply List.eq_nil_iff_forall_not_mem.mpr
        intro y hy
        obtain ⟨w, h1, h2, h3⟩ := last hy
        have hw := hk w h2
        have h4 := (h w hw).mpr (by rw [h3]; exact h1)
        rw [hkept' w hw, hP w hw] at h4
        cases h4.1
      · rintro rfl y hy
        rw [hkept' y hy, hP y hy]
        simp [LastWrite.latest]
  | true =>
    have agrees (y) (hy : kind y.part) :
        (P' y ↔ LastWrite.latest Setting.part new y.part = some y) ↔
          (LastWrite.latest Setting.part new y.part = none → ¬ P y) := by
      cases h : LastWrite.latest Setting.part new y.part with
      | none =>
        rw [hkept y hy fun _ => h]
        simp
      | some w =>
        rw [hsent rfl y w hy h]
        simp [eq_comm]
    simp only [Covers, if_true, true_imp_iff, true_or]
    have h1 : (∀ y, kind y.part →
        (P' y ↔ LastWrite.latest Setting.part new y.part = some y)) ↔
        ∀ y, kind y.part → LastWrite.latest Setting.part new y.part = none → ¬ P y :=
      forall_congr' fun y => forall_congr' fun hy => agrees y hy
    rw [h1]
    cases told with
    | false =>
      simp only [Bool.false_eq_true, if_false, iff_true]
      intro y hy _ hp
      rw [hP y hy] at hp
      cases hp.1
    | true =>
      simp only [if_true]
      constructor
      · intro h y hy
        by_contra hn
        simp only [not_exists, not_and] at hn
        have h2 : LastWrite.latest Setting.part new y.part = none :=
          LastWrite.latest_eq_none.mpr hn
        obtain ⟨w, h3, h4, h5⟩ := last hy
        apply h w (hk w h4) (by rw [h5]; exact h2)
        rw [hP w (hk w h4), h5]
        exact ⟨rfl, h3⟩
      · intro h y hy hn hp
        rw [hP y hy] at hp
        obtain ⟨w, hw, he⟩ := h y (LastWrite.mem_of_latest hp.2).1
        exact LastWrite.latest_eq_none.mp hn w hw he

/-- The same for uniform variables, which are marked one by one. -/
theorem covers_uniforms_iff (kind : Part → Prop) (hk : ∀ y ∈ old ++ new, kind y.part)
    (hP : ∀ y, kind y.part → (P y ↔ told ∧ LastWrite.latest Setting.part old y.part = some y))
    (hsent : ∀ y w, kind y.part → LastWrite.latest Setting.part new y.part = some w → w.sent →
      (P' y ↔ y = w))
    (hkept : ∀ y, kind y.part → LastWrite.latest Setting.part new y.part = none → (P' y ↔ P y))
    (hs : ∀ y, P' y → y.sent) :
    (∀ y, kind y.part →
      (P' y ↔ LastWrite.latest Setting.part (old ++ new) y.part = some y)) ↔
      (told = false → ∀ y ∈ old, ∃ w ∈ new, w.part = y.part) ∧
        ∀ y ∈ LastWrite.standing Setting.part (old ++ new), y.sent := by
  simp only [LastWrite.mem_standing_iff, LastWrite.latest_append]
  constructor
  · intro h
    constructor
    · rintro rfl y hy
      by_contra hn
      simp only [not_exists, not_and] at hn
      have h1 : LastWrite.latest Setting.part new y.part = none := LastWrite.latest_eq_none.mpr hn
      cases h2 : LastWrite.latest Setting.part old y.part with
      | none => exact LastWrite.latest_eq_none.mp h2 y hy rfl
      | some w =>
        obtain ⟨h3, h4⟩ := LastWrite.mem_of_latest h2
        have hw := hk w (List.mem_append_left _ h3)
        rw [← h4] at h1 h2
        have h5 := (h w hw).mpr (by rw [h1, h2]; rfl)
        rw [hkept w hw h1, hP w hw] at h5
        cases h5.1
    · intro y hy
      have hm : y ∈ old ++ new := by
        rw [← LastWrite.latest_append] at hy
        exact (LastWrite.mem_of_latest hy).1
      exact hs y ((h y (hk y hm)).mpr hy)
  · rintro ⟨h1, h2⟩ y hy
    cases h3 : LastWrite.latest Setting.part new y.part with
    | some w =>
      have h4 := (LastWrite.mem_of_latest h3).2
      have hw : w.sent := h2 w (by rw [h4, h3]; rfl)
      rw [hsent y w hy h3 hw]
      simp [eq_comm]
    | none =>
      rw [hkept y hy h3, hP y hy, Option.none_or]
      cases told with
      | true => simp
      | false =>
        simp only [Bool.false_eq_true, false_and, false_iff]
        intro h4
        obtain ⟨w, hw, he⟩ := h1 rfl y (LastWrite.mem_of_latest h4).1
        exact LastWrite.latest_eq_none.mp h3 w hw he

end Covers

section Uniforms
variable {l pending current : UniformVariableList} {k : UInt32 ⊕ String} {i : UInt32 ⊕ String}

theorem key_of_replaces {v c : UniformVariable} (h : v.replaces c) : c.key = v.key := by
  unfold UniformVariable.replaces at h
  split at h
  · next hn =>
    have he : v.name = c.name := by simpa using h
    rw [UniformVariable.key, UniformVariable.key, if_neg hn.2, if_neg hn.1, he]
  · split at h
    · cases h
    · next h1 h2 => exact absurd h2 (by simpa [not_or, imp_false, and_comm] using h1)

theorem key_mark (v : UniformVariable) (b : Bool) :
    UniformVariable.key { v with newlyComitted := b } = v.key := rfl

theorem latest_merge (l : UniformVariableList) (v : UniformVariable) (k : UInt32 ⊕ String) :
    LastWrite.latest UniformVariable.key (UniformVariableList.merge l v) k =
      if v.key = k then some { v with newlyComitted := true }
      else LastWrite.latest UniformVariable.key l k := by
  rw [UniformVariableList.merge, LastWrite.latest_append, LastWrite.latest_singleton, key_mark]
  by_cases hv : v.key = k
  · rw [if_pos hv, if_pos hv, Option.some_or]
  · rw [if_neg hv, if_neg hv, Option.none_or, LastWrite.latest, LastWrite.latest,
      List.filter_filter]
    congr 1
    apply List.filter_congr
    intro c _
    by_cases hc : c.key = k
    · have h2 : v.replaces c = false := by
        rw [Bool.eq_false_iff]
        exact fun h => hv ((key_of_replaces h).symm.trans hc)
      simp [hc, h2]
    · simp [hc]

theorem latest_merges (pending l : UniformVariableList) (k : UInt32 ⊕ String) :
    LastWrite.latest UniformVariable.key (pending.foldl UniformVariableList.merge l) k =
      ((LastWrite.latest UniformVariable.key pending k).map fun v =>
        { v with newlyComitted := true }).or (LastWrite.latest UniformVariable.key l k) := by
  induction pending using List.reverseRecOn with
  | nil => rfl
  | append_singleton pending v ih =>
    rw [List.foldl_append, List.foldl_cons, List.foldl_nil, latest_merge, ih,
      LastWrite.latest_append]
    rw [LastWrite.latest_singleton]
    by_cases hv : v.key = k <;> simp [hv]

/-- What is marked comes from what was pending. -/
theorem filter_merges (pending l : UniformVariableList) :
    (pending.foldl UniformVariableList.merge l).filter (fun v => v.newlyComitted) =
      pending.foldl UniformVariableList.merge (l.filter fun v => v.newlyComitted) := by
  induction pending using List.reverseRecOn with
  | nil => rfl
  | append_singleton pending v ih =>
    simp only [List.foldl_append, List.foldl_cons, List.foldl_nil, UniformVariableList.merge,
      List.filter_append]
    rw [← ih]
    congr 1
    simp only [List.filter_filter, Bool.and_comm]

theorem latest_uniforms (l : UniformVariableList) (i : UInt32 ⊕ String) :
    LastWrite.latest Setting.part (l.map UniformVariable.setting) (.uniform i) =
      (LastWrite.latest UniformVariable.key l i).map UniformVariable.setting := by
  apply LastWrite.latest_map
  intro v _
  rw [uniform_part, Part.uniform.injEq]

end Uniforms

end Scene
end Yaza
