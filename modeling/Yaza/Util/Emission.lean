import Yaza.Util.Signal
import Mathlib.Data.List.Forall2

/-! The loops of `emit` notify those they should, whatever the handlers do in between, as long as no
handler takes away what a loop has in its hand. -/
namespace Yaza
namespace Signals

/-- The nodes that are there. -/
def State.alive (s : State) : Node ℕ ℕ → Prop
  | .head r => (s.signals r).isSome
  | .item w => (s.listeners w).isSome

/-- The same with what its proof needs besides. -/
structure Fit (s : State) (t : Spec) : Prop extends Refines s t where
  nextId : s.nextId = t.nextId
  unused : ∀ i, s.nextId ≤ i → s.signals i = none ∧ s.listeners i = none
  ringed : s.links.Ringed s.alive

section Fit
variable {s : State} {t : Spec}

theorem Emission.Goes.of_lists {t' : Spec} {e : Emission} {f : Round} (h : e.Goes t f)
    (ht : t'.lists f.signal = t.lists f.signal) : e.Goes t' f := by
  obtain ⟨hs, hh, hn, done, hl⟩ := h
  exact ⟨hs, hh, hn, done, ht.trans hl⟩

theorem Fit.nodup (h : Fit s t) {r : ℕ} {l : List ℕ} (hl : t.lists r = some l) : l.Nodup :=
  (List.nodup_cons.mp (h.listed r l hl).nodup).2.of_map _

/-- What holds of an emission before and after a step. -/
theorem forall_of_goes {t' : Spec} {es : List Emission} {fs : List Round} {g : Round → Round}
    {P : Emission → Prop} (h : List.Forall₂ (Emission.Goes t) es fs)
    (h' : List.Forall₂ (Emission.Goes t') es (fs.map g))
    (hP : ∀ e f, e.Goes t f → e.Goes t' (g f) → P e) : ∀ e ∈ es, P e := by
  induction h with
  | nil =>
    intro e he
    cases he
  | cons h1 _ ih =>
    rw [List.map_cons, List.forall₂_cons] at h'
    intro e he
    rcases List.mem_cons.mp he with rfl | he
    · exact hP _ _ h1 h'.1
    · exact ih h'.2 e he

theorem admits_eq (h : Refines s t) (a : Action) : s.admits a = t.admits a := by
  have h1 : s.emissions.head?.all (·.isHandling) = t.rounds.head?.all (·.isHandling) := by
    have hg := h.emissions
    generalize s.emissions = es, t.rounds = fs at hg ⊢
    cases hg with
    | nil => rfl
    | cons hg _ => exact hg.handling
  have h2 : s.emissions.isEmpty = t.rounds.isEmpty := by
    rw [Bool.eq_iff_iff, List.isEmpty_iff_length_eq_zero, List.isEmpty_iff_length_eq_zero,
      h.emissions.length_eq]
  cases a <;> simp [State.admits, Spec.admits, h1, h2, h.signals, h.listeners]

theorem newListener_fit (h : Fit s t) : Fit s.newListener (t.act .newListener) := by
  have hn : ¬ s.alive (.item s.nextId) := by
    simp [State.alive, (h.unused s.nextId (Nat.le_refl _)).2]
  have hr : (s.links.init (.item s.nextId)).Ringed s.newListener.alive := by
    refine (h.ringed.init hn).congr fun x => ?_
    cases x with
    | head r => simp [State.alive, State.newListener]
    | item w => by_cases hw : w = s.nextId <;> simp [State.alive, State.newListener, hw]
  refine ⟨⟨h.crashed, hr.coherent, h.signals, ?_, fun r l hl => ?_, ?_, h.calls⟩, ?_,
    fun i hi => ?_, hr⟩
  · show s.listeners.set s.nextId {} = t.listeners.set t.nextId {}
    rw [h.listeners, h.nextId]
  · exact h.ringed.init_circular hn (h.listed r l hl)
  · exact h.emissions.imp fun e f hg => hg.of_lists rfl
  · exact congrArg (· + 1) h.nextId
  · have hi' : s.nextId < i := hi
    refine ⟨(h.unused i hi'.le).1, ?_⟩
    exact (Arena.set_of_ne _ _ hi'.ne').trans (h.unused i hi'.le).2

theorem newSignal_fit (h : Fit s t) : Fit s.newSignal (t.act .newSignal) := by
  have hu := h.unused s.nextId (Nat.le_refl _)
  have hn : ¬ s.alive (.head s.nextId) := by simp [State.alive, hu.1]
  have hr : (s.links.init (.head s.nextId)).Ringed s.newSignal.alive := by
    refine (h.ringed.init hn).congr fun x => ?_
    cases x with
    | head r => by_cases hr : r = s.nextId <;> simp [State.alive, State.newSignal, hr]
    | item w => simp [State.alive, State.newSignal]
  have hnone : t.lists s.nextId = none := by
    have h1 := h.signals s.nextId
    rw [hu.1] at h1
    exact Option.not_isSome_iff_eq_none.mp (by rw [← h1]; simp)
  refine ⟨⟨h.crashed, hr.coherent, fun r => ?_, h.listeners, fun r l hl => ?_, ?_, h.calls⟩, ?_,
    fun i hi => ?_, hr⟩
  · show (s.signals.set s.nextId () r).isSome = (t.lists.set t.nextId [] r).isSome
    rw [h.nextId]
    by_cases hr : r = t.nextId <;> simp [hr, h.signals]
  · change t.lists.set t.nextId [] r = some l at hl
    rw [← h.nextId, Arena.set_apply] at hl
    split at hl
    · next hrn =>
      cases hl
      subst hrn
      exact Links.init_circular _ _
    · exact h.ringed.init_circular hn (h.listed r l hl)
  · refine h.emissions.imp fun e f hg => hg.of_lists ?_
    refine Arena.set_of_ne _ _ ?_
    rintro hf
    obtain ⟨done, hl⟩ := hg.listed
    rw [hf, ← h.nextId, hnone] at hl
    cases hl
  · exact congrArg (· + 1) h.nextId
  · have hi' : s.nextId < i := hi
    refine ⟨?_, (h.unused i hi'.le).2⟩
    exact (Arena.set_of_ne _ _ hi'.ne').trans (h.unused i hi'.le).1

theorem setHandler_fit (h : Fit s t) {w : ℕ} (hw : (s.listeners w).isSome) :
    Fit (s.setHandler w) (t.act (.setHandler w)) := by
  refine ⟨⟨h.crashed, h.coherent, h.signals, ?_, h.listed, ?_, h.calls⟩, h.nextId,
    fun i hi => ?_, ?_⟩
  · exact congrArg (fun a : Arena Listener => a.set w { hasHandler := true }) h.listeners
  · exact h.emissions.imp fun e f hg => hg.of_lists rfl
  · refine ⟨(h.unused i hi).1, (Arena.set_of_ne _ _ ?_).trans (h.unused i hi).2⟩
    rintro rfl
    rw [(h.unused i hi).2] at hw
    cases hw
  · refine h.ringed.congr fun x => ?_
    cases x with
    | head r => rfl
    | item v =>
      by_cases hv : v = w
      · simp [State.alive, State.setHandler, hv, hw]
      · simp [State.alive, State.setHandler, hv]

theorem erase_item (l : List ℕ) (w : ℕ) :
    (l.map (Node.item (ρ := ℕ))).erase (.item w) = (l.erase w).map .item :=
  (List.map_erase (fun _ _ h => Node.item.inj h) l).symm

/-- A round that has another listener to notify next goes on without this one. -/
theorem Emission.Goes.erase {e : Emission} {f : Round} (h : e.Goes t f) {l : List ℕ}
    (hl : t.lists f.signal = some l) (hd : l.Nodup) {w : ℕ} (hw : e.next ≠ .item w) :
    e.Goes (t.remove w) { f with todo := f.todo.erase w } := by
  obtain ⟨done, hdone⟩ := h.listed
  rw [hl] at hdone
  cases hdone
  refine ⟨h.signal, h.handling, ?_, ?_⟩
  · have hn := h.next
    cases hf : f.todo with
    | nil =>
      rw [hf] at hn
      exact hn
    | cons v todo =>
      rw [hf] at hn
      have hvw : v ≠ w := by
        rintro rfl
        exact hw hn
      rw [List.erase_cons_tail (by simpa using hvw)]
      exact hn
  · have he : (t.remove w).lists f.signal = some ((done ++ f.todo).erase w) := by
      simp [Spec.remove, hl]
    by_cases hwd : w ∈ done
    · have hwt : w ∉ f.todo := fun hwt => (List.nodup_append.mp hd).2.2 w hwd w hwt rfl
      refine ⟨done.erase w, ?_⟩
      rw [he, List.erase_append_left _ hwd, List.erase_of_not_mem hwt]
    · exact ⟨done, by rw [he, List.erase_append_right _ hwd]⟩

theorem remove_eq (h : Fit s t) {w : ℕ} (hw : (s.listeners w).isSome) :
    ∃ m', s.remove w = some { s with links := m' } ∧ m'.Ringed s.alive ∧
      m'.next (.item w) = some (.item w) ∧
      ∀ r l, (t.remove w).lists r = some l → m'.Circular (.head r) (l.map .item) := by
  have hw' : s.alive (.item w) := hw
  obtain ⟨m', hm', hr, hl⟩ := h.ringed.detach hw'
  refine ⟨_, by rw [State.remove, hm']; rfl, hr, by simp [Links.init], fun r l hrl => ?_⟩
  obtain ⟨l', hl', rfl⟩ :=
    Option.map_eq_some_iff.mp (show (t.lists r).map (·.erase w) = some l from hrl)
  rw [← erase_item]
  exact hl _ _ (by simp) (h.listed r l' hl')

/-- A listener is removed that no loop has in its hand. -/
theorem remove_fit (h : Fit s t) {w : ℕ} (hw : (s.listeners w).isSome)
    (hg : ∀ e ∈ s.emissions, e.next ≠ .item w) :
    ∃ m', s.remove w = some { s with links := m' } ∧ Fit { s with links := m' } (t.remove w) ∧
      m'.next (.item w) = some (.item w) := by
  obtain ⟨m', hm', hr, hn, hl⟩ := remove_eq h hw
  refine ⟨m', hm', ⟨⟨h.crashed, hr.coherent, fun r => ?_, h.listeners, hl, ?_, h.calls⟩, h.nextId,
    h.unused, hr⟩, hn⟩
  · rw [h.signals]
    simp [Spec.remove]
  · refine List.forall₂_map_right_iff.mpr ?_
    refine ((List.forall₂_and_left _ _).mpr ⟨hg, h.emissions⟩).imp fun e f hef => ?_
    obtain ⟨done, hdone⟩ := hef.2.listed
    exact hef.2.erase hdone (h.nodup hdone) hef.1

theorem deleteListener_fit (h : Fit s t) {w : ℕ} (hw : (s.listeners w).isSome)
    (hg : ∀ e ∈ s.emissions, e.next ≠ .item w) :
    ∃ s', s.deleteListener w = some s' ∧ Fit s' (t.act (.deleteListener w)) := by
  obtain ⟨m', hm', hf, hn⟩ := remove_fit h hw hg
  have ha := hf.coherent.alone hn
  refine ⟨{ s with listeners := s.listeners.erase w, links := m'.free (.item w) },
    by rw [State.deleteListener, hm']; rfl, ⟨⟨h.crashed, ?_, hf.signals, ?_,
    fun r l hl => ?_, ?_, h.calls⟩, h.nextId, fun i hi => ⟨(h.unused i hi).1, ?_⟩, ?_⟩⟩
  · exact hf.coherent.free ha
  · exact congrArg (fun a : Arena Listener => a.erase w) h.listeners
  · have hc := hf.listed r l hl
    refine hc.congr (Links.free_agrees m' _) fun x hx hm => ?_
    rw [List.mem_singleton] at hm
    exact hc.not_mem_of_alone ha (by simp) (hm ▸ hx)
  · exact hf.emissions.imp fun e f hef => hef.of_lists rfl
  · show s.listeners.erase w i = none
    rw [Arena.erase_apply, (h.unused i hi).2, ite_self]
  · refine (hf.ringed.free ha).congr fun x => ?_
    cases x with
    | head r => simp [State.alive]
    | item v => by_cases hv : v = w <;> simp [State.alive, hv]

/-- A listener without a signal is added to one. -/
theorem addListener_fit (h : Fit s t) {r w : ℕ} (hr : (s.signals r).isSome)
    (hw : (s.listeners w).isSome) (ha : s.links.next (.item w) = some (.item w)) :
    ∃ s', s.addListener r w = some s' ∧ Fit s' (t.addListener r w) := by
  obtain ⟨l, hl⟩ := Option.isSome_iff_exists.mp ((h.signals r).symm.trans hr)
  have hw' : s.alive (.item w) := hw
  obtain ⟨m', hm', hr', hc, ho⟩ :=
    h.ringed.append hw' (h.coherent.alone ha) (h.listed r l hl) (by simp)
  have hlists (q : ℕ) : (t.addListener r w).lists q =
      if q = r then some (l ++ [w]) else t.lists q := by
    simp only [Spec.addListener, Arena.modify_apply]
    split
    · next hq => simp [hq, hl]
    · rfl
  refine ⟨{ s with links := m' }, by rw [State.addListener, hm']; rfl, ⟨⟨h.crashed, hr'.coherent,
    fun q => ?_, h.listeners, fun q k hk => ?_, ?_, h.calls⟩, h.nextId, h.unused, hr'⟩⟩
  · rw [hlists, h.signals]
    split
    · next hq => simp [hq, hl]
    · rfl
  · rw [hlists] at hk
    split at hk
    · next hq =>
      cases hk
      subst hq
      rw [List.map_append]
      exact hc
    · next hq => exact ho _ _ (by simp) (by simpa using fun h => hq h.symm) (h.listed q k hk)
  · refine List.forall₂_map_right_iff.mpr (h.emissions.imp fun e f hg => ?_)
    obtain ⟨done, hdone⟩ := hg.listed
    split
    · next hf =>
      -- the round has others to notify before
      obtain ⟨hfr, hft⟩ := hf
      rw [hfr, hl] at hdone
      refine ⟨hg.signal, hg.handling, ?_, done, ?_⟩
      · rw [hg.next, List.head?_append_of_ne_nil _ hft]
      · rw [hlists, if_pos hfr, Option.some.inj hdone, List.append_assoc]
    · next hf =>
      by_cases hfr : f.signal = r
      · have hft : f.todo = [] := by
          by_contra hft
          exact hf ⟨hfr, hft⟩
        rw [hfr, hl, hft, List.append_nil] at hdone
        refine ⟨hg.signal, hg.handling, hg.next, done ++ [w], ?_⟩
        rw [hlists, if_pos hfr, hft, List.append_nil, Option.some.inj hdone]
      · exact hg.of_lists ((hlists f.signal).trans (if_neg hfr))

/-- A signal goes that is not emitting. -/
theorem deleteSignal_fit (h : Fit s t) {r : ℕ} (hr : (s.signals r).isSome)
    (hg : ∀ e ∈ s.emissions, e.signal ≠ r) :
    ∃ s', s.deleteSignal r = some s' ∧ Fit s' (t.act (.deleteSignal r)) := by
  have hr' : s.alive (.head r) := hr
  obtain ⟨m', hm', hr'', hl⟩ := h.ringed.remove hr'
  refine ⟨{ s with signals := s.signals.erase r, links := m' },
    by rw [State.deleteSignal, hm']; rfl, ⟨⟨h.crashed, hr''.coherent, fun q => ?_,
    h.listeners, fun q k hk => ?_, ?_, h.calls⟩, h.nextId, fun i hi => ⟨?_, (h.unused i hi).2⟩,
    ?_⟩⟩
  · show (s.signals.erase r q).isSome = (t.lists.erase r q).isSome
    by_cases hq : q = r <;> simp [hq, h.signals]
  · change t.lists.erase r q = some k at hk
    rw [Arena.erase_apply] at hk
    split at hk
    · cases hk
    · next hq =>
      have h1 := hl _ _ (by simpa using hq) (h.listed q k hk)
      rwa [List.erase_of_not_mem (by simp)] at h1
  · refine ((List.forall₂_and_left _ _).mpr ⟨hg, h.emissions⟩).imp fun e f hef => ?_
    exact hef.2.of_lists (Arena.erase_of_ne _ (hef.2.signal ▸ hef.1))
  · show s.signals.erase r i = none
    rw [Arena.erase_apply, (h.unused i hi).1, ite_self]
  · refine hr''.congr fun x => ?_
    cases x with
    | head q => by_cases hq : q = r <;> simp [State.alive, hq]
    | item v => simp [State.alive]

/-- What comes behind a listener of a list. -/
theorem next_item (h : Fit s t) {r w : ℕ} {done todo : List ℕ}
    (hl : t.lists r = some (done ++ w :: todo)) :
    s.links.next (.item w) = some (todo.head?.elim (.head r) .item) := by
  have hc := (h.listed r _ hl).segment
  rw [List.map_append, List.map_cons] at hc
  rw [(Links.segment_append.mp hc).2.first.1]
  cases todo <;> rfl

/-- The loop comes to the next listener of its list, or to the end. -/
theorem visit_fit (h : Fit s t) {r : ℕ} {done todo : List ℕ}
    (hl : t.lists r = some (done ++ todo)) :
    ∃ s', s.visit r (todo.head?.elim (.head r) .item) = some s' ∧ Fit s' (t.visit r todo) := by
  cases todo with
  | nil =>
    have hr : s.alive (.head r) := by
      show (s.signals r).isSome
      rw [h.signals, hl]
      rfl
    obtain ⟨n, hn⟩ := Option.isSome_iff_exists.mp ((h.ringed.next _).mpr hr)
    refine ⟨s, ?_, h⟩
    simp [State.visit, hn]
  | cons w todo =>
    have hw : s.alive (.item w) :=
      h.ringed.mem_live (h.listed r _ hl) (by simp)
    obtain ⟨x, hx⟩ := Option.isSome_iff_exists.mp (show (s.listeners w).isSome from hw)
    have hx' : t.listeners w = some x := h.listeners ▸ hx
    refine ⟨{ s with
        emissions := { signal := r, next := todo.head?.elim (.head r) .item,
                       isHandling := x.hasHandler } :: s.emissions
        calls := if x.hasHandler then s.calls ++ [(r, w)] else s.calls }, ?_, ?_⟩
    · simp only [List.head?_cons, Option.elim_some, State.visit, next_item h hl, hx,
        Option.bind_some, Option.map_some]
    refine ⟨⟨h.crashed, h.coherent, h.signals, h.listeners, h.listed, ?_, ?_⟩, h.nextId, h.unused,
      h.ringed⟩
    · refine List.forall₂_cons.mpr ⟨⟨rfl, ?_, rfl, done ++ [w], ?_⟩, ?_⟩
      · simp [hx']
      · rw [List.append_assoc]
        exact hl
      · exact h.emissions.imp fun e f hef => hef.of_lists rfl
    · simp only [Spec.visit, hx', Option.any_some, h.calls]

theorem emit_fit (h : Fit s t) {r : ℕ} (hr : (s.signals r).isSome) :
    ∃ s', s.emit r = some s' ∧ Fit s' (t.act (.emit r)) := by
  obtain ⟨l, hl⟩ := Option.isSome_iff_exists.mp ((h.signals r).symm.trans hr)
  have hn : s.links.next (.head r) = some (l.head?.elim (.head r) .item) := by
    rw [(h.listed r l hl).segment.first.1]
    cases l <;> rfl
  have hl' : t.lists r = some ([] ++ l) := hl
  obtain ⟨s', hs', hf⟩ := visit_fit h hl'
  refine ⟨s', ?_, ?_⟩
  · rw [State.emit, hn, Option.bind_some, hs']
  · simpa [Spec.act, hl] using hf

theorem advance_fit (h : Fit s t) (he : s.emissions ≠ []) :
    ∃ s', s.advance = some s' ∧ Fit s' (t.act .advance) := by
  have hg := h.emissions
  cases hes : s.emissions with
  | nil => exact absurd hes he
  | cons e es =>
    rw [hes] at hg
    obtain ⟨f, fs, hef, hg, hfs⟩ := List.forall₂_cons_left_iff.mp hg
    obtain ⟨done, hdone⟩ := hef.listed
    have h1 : Fit { s with emissions := es } { t with rounds := fs } :=
      ⟨⟨h.crashed, h.coherent, h.signals, h.listeners, h.listed,
        hg.imp fun e f hef => hef.of_lists rfl, h.calls⟩, h.nextId, h.unused, h.ringed⟩
    obtain ⟨s', hs', hf⟩ := visit_fit h1 hdone
    refine ⟨s', ?_, ?_⟩
    · simp only [State.advance, hes, hef.signal, hef.next]
      exact hs'
    · simpa only [Spec.act, hfs] using hf

theorem step_eq (h : Fit s t) {a : Action} (ha : s.admits a = true) :
    s.step a = (s.act a).getD { s with crashed := true } ∧ t.step a = t.act a := by
  refine ⟨?_, ?_⟩
  · rw [State.step, if_neg (by simp [h.crashed, ha])]
  · rw [Spec.step, if_pos ((admits_eq h.toRefines a).symm.trans ha)]

theorem act_fit (h : Fit s t) {a : Action} (ha : s.admits a = true) (hr : Rules s a) :
    ∃ s', s.act a = some s' ∧ Fit s' (t.act a) := by
  have hg := hr ha
  simp only [State.admits, Bool.and_eq_true] at ha
  have hadm := ha.2
  cases a with
  | newListener => exact ⟨_, rfl, newListener_fit h⟩
  | newSignal => exact ⟨_, rfl, newSignal_fit h⟩
  | setHandler w => exact ⟨_, rfl, setHandler_fit h hadm⟩
  | remove w =>
    obtain ⟨m', hm', hf, -⟩ := remove_fit h hadm hg
    exact ⟨_, hm', hf⟩
  | deleteListener w => exact deleteListener_fit h hadm hg
  | addListener r w =>
    obtain ⟨hr', hw⟩ := Bool.and_eq_true_iff.mp hadm
    exact addListener_fit h hr' hw hg
  | deleteSignal r => exact deleteSignal_fit h hadm hg
  | emit r => exact emit_fit h hadm
  | advance => exact advance_fit h (by simpa using hadm)

theorem step_fit (h : Fit s t) {a : Action} (hr : Rules s a) : Fit (s.step a) (t.step a) := by
  cases ha : s.admits a with
  | true =>
    obtain ⟨s', hs', hf⟩ := act_fit h ha hr
    obtain ⟨h1, h2⟩ := step_eq h ha
    rw [h1, h2, hs']
    exact hf
  | false =>
    have ht := (admits_eq h.toRefines a).symm.trans ha
    rw [State.step, Spec.step, if_pos (by simp [ha]), if_neg (by simp [ht])]
    exact h

/-- A round does not come to the same listener twice. -/
theorem next_ne_of_erase (h : Fit s t) {t' : Spec} {e : Emission} {f : Round} {w : ℕ}
    (hg : e.Goes t f) (hg' : e.Goes t' { f with todo := f.todo.erase w }) :
    e.next ≠ .item w := by
  intro hw
  obtain ⟨done, hdone⟩ := hg.listed
  have hd := (List.nodup_append.mp (h.nodup hdone)).2.1
  have hn := hg.next
  have hn' := hg'.next
  rw [hw] at hn hn'
  cases hf : f.todo with
  | nil =>
    rw [hf] at hn
    cases hn
  | cons v todo =>
    rw [hf] at hn hn' hd
    cases hn
    rw [List.erase_cons_head] at hn'
    cases todo with
    | nil => cases hn'
    | cons u todo =>
      cases hn'
      simp at hd

/-- A step after which the pointers are not those of the lists has broken a rule. -/
theorem rules_of_refines (h : Fit s t) (a : Action) (hr : Refines (s.step a) (t.step a)) :
    Rules s a := by
  intro ha
  obtain ⟨h1, h2⟩ := step_eq h ha
  rw [h1, h2] at hr
  simp only [State.admits, Bool.and_eq_true] at ha
  have hadm := ha.2
  cases a with
  | addListener r w =>
    obtain ⟨hr', hw⟩ := Bool.and_eq_true_iff.mp hadm
    obtain ⟨l, hl⟩ := Option.isSome_iff_exists.mp ((h.signals r).symm.trans hr')
    obtain ⟨hn, hp⟩ := (h.listed r l hl).segment.last
    have hw' : s.alive (.item w) := hw
    obtain ⟨q, hq⟩ := Option.isSome_iff_exists.mp ((h.ringed.prev _).mpr hw')
    cases hm : s.links.append (.head r) (.item w) with
    | none =>
      simp only [State.act, State.addListener, hm] at hr
      exact absurd hr.crashed (by simp)
    | some m' =>
      simp only [State.act, State.addListener, hm] at hr
      rw [Links.append, hp, Option.bind_some] at hm
      have hqe := h.coherent.alone_of_insert hm hr.coherent hn (by simp) hq
      rw [hqe] at hq
      exact (h.coherent _ _).mpr hq
  | remove w =>
    obtain ⟨m', hm', -⟩ := remove_eq h hadm
    simp only [State.act, hm'] at hr
    exact forall_of_goes h.emissions hr.emissions fun e f => next_ne_of_erase h
  | deleteListener w =>
    obtain ⟨m', hm', -⟩ := remove_eq h hadm
    simp only [State.act, State.deleteListener, hm'] at hr
    exact forall_of_goes h.emissions hr.emissions fun e f => next_ne_of_erase h
  | deleteSignal r =>
    have hr' : s.alive (.head r) := hadm
    obtain ⟨m', hm', -⟩ := h.ringed.remove hr'
    simp only [State.act, State.deleteSignal, hm'] at hr
    have he := hr.emissions
    rw [← List.map_id (Spec.rounds _)] at he
    refine forall_of_goes h.emissions he fun e f hg hg' hsig => ?_
    obtain ⟨done, hdone⟩ := hg'.listed
    change t.lists.erase r f.signal = _ at hdone
    rw [← hg.signal, hsig, Arena.erase_self] at hdone
    cases hdone
  | _ => trivial

/-- A round that nothing happens to calls the handlers of its listeners. -/
theorem visit_advances (t : Spec) (r : ℕ) (l : List ℕ) :
    Run.final Spec.step (t.visit r l) (List.replicate l.length .advance) =
      { t with
        calls := t.calls ++
          (l.filter fun w => (t.listeners w).any (·.hasHandler)).map fun w => (r, w) } := by
  induction l generalizing t with
  | nil => simp [Spec.visit]
  | cons w l ih =>
    rw [List.length_cons, List.replicate_succ, Run.final_cons]
    have hs : (t.visit r (w :: l)).step .advance =
        { t.visit r (w :: l) with rounds := t.rounds }.visit r l := by
      simp [Spec.step, Spec.admits, Spec.act, Spec.visit]
    rw [hs, ih]
    by_cases hw : (t.listeners w).any (·.hasHandler) = true
    · simp [Spec.visit, hw]
    · simp [Spec.visit, hw]

theorem advances_fit (h : Fit s t) (n : ℕ) :
    Fit (Run.final State.step s (List.replicate n .advance))
      (Run.final Spec.step t (List.replicate n .advance)) := by
  induction n generalizing s t with
  | zero => exact h
  | succ n ih => exact ih (step_fit h fun _ => trivial)

/-- An emission that nobody interferes with is a walk over the list of the signal. -/
theorem emit_calls (h : Fit s t) {r : ℕ} {l : List ℕ} (hl : t.lists r = some l)
    (ha : s.admits (.emit r) = true) :
    (Run.final State.step s (.emit r :: List.replicate l.length .advance)).calls =
      s.calls ++ (l.filter fun w => (s.listeners w).any (·.hasHandler)).map fun w => (r, w) := by
  have h1 := advances_fit (step_fit h (a := .emit r) fun _ => trivial) l.length
  have h2 : t.step (.emit r) = t.visit r l := by
    rw [(step_eq h ha).2]
    simp [Spec.act, hl]
  rw [h2] at h1
  rw [Run.final_cons, h1.calls, visit_advances, h.calls, h.listeners]

end Fit

theorem init_fit : Fit {} {} where
  crashed := rfl
  coherent := fun a b => ⟨fun h => (by cases h), fun h => by cases h⟩
  signals := fun _ => rfl
  listeners := rfl
  listed := fun _ _ h => by cases h
  emissions := .nil
  calls := rfl
  nextId := rfl
  unused := fun _ _ => ⟨rfl, rfl⟩
  ringed :=
    { coherent := fun a b => ⟨fun h => (by cases h), fun h => by cases h⟩
      next := fun x => by cases x <;> simp [State.alive]
      prev := fun x => by cases x <;> simp [State.alive] }

/-- Signals do what they are for, in every emission and whatever the handlers do, exactly when the
rules are kept. -/
theorem refines_throughout_iff (as : List Action) :
    Run.Always both (fun p => Refines p.1 p.2) ({}, {}) as ↔ Run.Each State.step Rules {} as := by
  rw [Run.always_iff_each_of (G := fun p : State × Spec => Fit p.1 p.2)
    (C := fun p a => Rules p.1 a) init_fit (fun _ h => h.toRefines)
    (fun _ _ h hr => step_fit h hr) (fun _ a h hr => rules_of_refines h a hr)]
  exact Run.each_fst_iff fun _ _ => rfl

/-- A handler removes the listener that comes next, and the loop never gets away from it. -/
def removeNext : List Action :=
  [.newSignal, .newListener, .newListener, .setHandler 1, .setHandler 2, .addListener 0 1,
    .addListener 0 2, .emit 0, .remove 2, .advance, .advance, .advance]

example : (Run.final State.step {} removeNext).calls = [(0, 1), (0, 2), (0, 2), (0, 2)] := by
  decide

end Signals
end Yaza
