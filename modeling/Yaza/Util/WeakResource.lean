import Yaza.Lib.Arena
import Yaza.Lib.Enrolment
import Yaza.Lib.Run

/-! References to resources that are emptied when the resource goes (`util/weak_resource.hpp`), with
the lists of listeners that libwayland keeps. -/
namespace Yaza

/-- `WeakResource`; its listener is linked by the node of its address. -/
structure WeakResource where
  resource : Option ℕ := none
  deriving DecidableEq, Repr

namespace WeakResource

/-- The resources alive, each with whether it is being destroyed, the references, and the links of
the lists: the head of the destroy listeners of a resource, and the link of a listener. -/
structure State where
  crashed : Bool := false
  nextId : ℕ := 0
  resources : Arena Bool := Arena.empty
  weaks : Arena WeakResource := Arena.empty
  links : Links (Node ℕ ℕ) := ⟨fun _ => none, fun _ => none⟩

namespace State

/-- `wl_list_remove` and `wl_list_init`, of the link of a listener. -/
def detach (s : State) (w : ℕ) : Option State :=
  (s.links.remove (.item w)).map fun links => { s with links := links.init (.item w) }

/-- `wl_resource_add_destroy_listener`. -/
def addDestroyListener (s : State) (r w : ℕ) : Option State :=
  (s.links.append (.head r) (.item w)).map fun links => { s with links }

/-- `link`. -/
def link (s : State) (w : ℕ) (resource : Option ℕ) : Option State :=
  (s.weaks w).bind fun x =>
    (if x.resource.isSome then s.detach w else some s).bind fun t =>
      (resource.elim (some t) fun r => t.addDestroyListener r w).map fun u =>
        { u with weaks := u.weaks.set w { x with resource } }

/-- `unlink`. -/
def unlink (s : State) (w : ℕ) : Option State := s.link w none

/-- `has_resource`. -/
def hasResource (s : State) (w : ℕ) : Bool := (s.weaks w).any (·.resource.isSome)

/-- The constructor. -/
def construct (s : State) : State :=
  { s with
    nextId := s.nextId + 1
    weaks := s.weaks.set s.nextId {}
    links := s.links.init (.item s.nextId) }

/-- The copy constructor. -/
def copyConstruct (s : State) (other : ℕ) : Option State :=
  (s.weaks other).bind fun y => s.construct.link s.nextId y.resource

/-- The move constructor; `other` keeps its resource. -/
def moveConstruct (s : State) (other : ℕ) : Option State :=
  (s.weaks other).bind fun y => s.construct.link s.nextId y.resource

/-- The assignment of a copy. -/
def copyAssign (s : State) (w other : ℕ) : Option State :=
  if w ≠ other then (s.weaks other).bind fun y => s.link w y.resource else some s

/-- The assignment of what moves; `other` keeps its resource. -/
def moveAssign (s : State) (w other : ℕ) : Option State :=
  if w ≠ other then (s.weaks other).bind fun y => s.link w y.resource else some s

/-- The destructor. -/
def destruct (s : State) (w : ℕ) : Option State :=
  (s.unlink w).map fun t => { t with weaks := t.weaks.erase w, links := t.links.free (.item w) }

def createResource (s : State) : State :=
  { s with
    nextId := s.nextId + 1
    resources := s.resources.set s.nextId false
    links := s.links.init (.head s.nextId) }

/-- What `wl_resource_destroy` does next. The first of the listeners that are left is taken out of
the list and notified, and when none is left the resource is gone. -/
def emitDestroy (s : State) (r : ℕ) : Option State :=
  match s.links.next (.head r) with
  | none => none
  | some (.item w) => (s.detach w).bind fun t => t.unlink w
  | some (.head _) =>
    some { s with resources := s.resources.erase r, links := s.links.free (.head r) }

inductive Action where
  | createResource
  | construct
  | copyConstruct (other : ℕ)
  | moveConstruct (other : ℕ)
  | copyAssign (w other : ℕ)
  | moveAssign (w other : ℕ)
  | link (w : ℕ) (resource : Option ℕ)
  | unlink (w : ℕ)
  | destruct (w : ℕ)
  | destroyResource (r : ℕ)
  | emitDestroy (r : ℕ)
  deriving DecidableEq, Repr

/-- What the action names is there, and a resource is destroyed once. -/
def admits (s : State) : Action → Bool
  | .createResource => true
  | .construct => true
  | .copyConstruct other => (s.weaks other).isSome
  | .moveConstruct other => (s.weaks other).isSome
  | .copyAssign w other => (s.weaks w).isSome && (s.weaks other).isSome
  | .moveAssign w other => (s.weaks w).isSome && (s.weaks other).isSome
  | .link w resource => (s.weaks w).isSome && resource.all fun r => (s.resources r).isSome
  | .unlink w => (s.weaks w).isSome
  | .destruct w => (s.weaks w).isSome
  | .destroyResource r => s.resources r = some false
  | .emitDestroy r => s.resources r = some true

def act (s : State) : Action → Option State
  | .createResource => some s.createResource
  | .construct => some s.construct
  | .copyConstruct other => s.copyConstruct other
  | .moveConstruct other => s.moveConstruct other
  | .copyAssign w other => s.copyAssign w other
  | .moveAssign w other => s.moveAssign w other
  | .link w resource => s.link w resource
  | .unlink w => s.unlink w
  | .destruct w => s.destruct w
  | .destroyResource r => some { s with resources := s.resources.set r true }
  | .emitDestroy r => s.emitDestroy r

/-- A pointer that leads nowhere ends the program. -/
def step (s : State) (a : Action) : State :=
  if s.crashed || !s.admits a then s else (s.act a).getD { s with crashed := true }

/-- The program after a run. -/
def run (as : List Action) : State := Run.final step {} as

/-- Which resource a reference has, for those that are there. -/
def place (s : State) (w : ℕ) : Option (Option ℕ) := (s.weaks w).map (·.resource)

/-- The destroy listeners of a resource, in order. -/
def Listens (s : State) (r : ℕ) (ws : List ℕ) : Prop :=
  s.links.Circular (.head r) (ws.map .item)

/-- The lists are those that the references ask for. -/
structure Sound (s : State) : Prop where
  crashed : s.crashed = false
  unused : ∀ i, s.nextId ≤ i → s.resources i = none ∧ s.weaks i = none
  enrolled : Enrolment s.links (fun r => (s.resources r).isSome) s.place

variable {s t : State} {w r : ℕ} {x : WeakResource} {links : Links (Node ℕ ℕ)}

theorem place_of (hw : s.weaks w = some x) : s.place w = some x.resource := by simp [place, hw]

theorem place_eq_some_iff {o : Option ℕ} :
    s.place w = some o ↔ ∃ x, s.weaks w = some x ∧ x.resource = o := by
  simp [place]

theorem place_set (s : State) (w : ℕ) (x : WeakResource) :
    State.place { s with weaks := s.weaks.set w x } =
      Function.update s.place w (some x.resource) := by
  funext v
  by_cases hv : v = w
  · subst hv
    simp [place]
  · simp [place, hv]

theorem place_erase (s : State) (w : ℕ) :
    State.place { s with weaks := s.weaks.erase w } = Function.update s.place w none := by
  funext v
  by_cases hv : v = w
  · subst hv
    simp [place]
  · simp [place, hv]

namespace Sound

theorem lt_of_weak (h : Sound s) (hw : s.weaks w = some x) : w < s.nextId := by
  by_contra hn
  rw [(h.unused w (by omega)).2] at hw
  cases hw

/-- A reference that is there gets another place. -/
theorem set_weak (h : Sound s) (hw : s.weaks w = some x) {y : WeakResource}
    (he : Enrolment links (fun r => (s.resources r).isSome)
      (Function.update s.place w (some y.resource))) :
    Sound { s with weaks := s.weaks.set w y, links } where
  crashed := h.crashed
  unused i hi := by
    have hne : i ≠ w := Nat.ne_of_gt (Nat.lt_of_lt_of_le (h.lt_of_weak hw) hi)
    simpa [hne] using h.unused i hi
  enrolled := by
    rw [← place_set] at he
    exact he

/-- The link of a reference whose place is `o` is taken out of the list it is in. -/
theorem detach {s : State} {live : ℕ → Prop} {place : ℕ → Option (Option ℕ)} {o : Option ℕ}
    (he : Enrolment s.links live place) (hw : place w = some o) : ∃ links,
      s.detach w = some { s with links } ∧
        Enrolment links live (Function.update place w (some none)) := by
  cases o with
  | none =>
    obtain ⟨m, hm, he'⟩ := he.touch hw
    refine ⟨m.init (.item w), by simp [State.detach, hm], ?_⟩
    rwa [← hw, Function.update_eq_self]
  | some r =>
    obtain ⟨m, hm, he'⟩ := he.leave hw
    exact ⟨m.init (.item w), by simp [State.detach, hm], he'⟩

/-- `link` registers the reference where it says, whatever it was registered for before. -/
theorem link (h : Sound s) (hw : s.weaks w = some x) {o : Option ℕ}
    (hr : ∀ r, o = some r → (s.resources r).isSome) : ∃ links,
      s.link w o = some { s with weaks := s.weaks.set w { x with resource := o }, links } ∧
        Enrolment links (fun r => (s.resources r).isSome)
          (Function.update s.place w (some o)) := by
  have hp := place_of hw
  obtain ⟨m, hm, he⟩ : ∃ m, (if x.resource.isSome then s.detach w else some s) =
      some { s with links := m } ∧
        Enrolment m (fun r => (s.resources r).isSome) (Function.update s.place w (some none)) := by
    cases hx : x.resource with
    | none =>
      refine ⟨s.links, rfl, ?_⟩
      rw [hx] at hp
      rw [← hp, Function.update_eq_self]
      exact h.enrolled
    | some r => exact detach h.enrolled hp
  cases o with
  | none =>
    refine ⟨m, ?_, he⟩
    simp only [State.link, hw, hm, Option.bind_some, Option.elim_none, Option.map_some]
  | some r =>
    obtain ⟨m', hm', he'⟩ := he.join (Function.update_self ..) (hr r rfl)
    refine ⟨m', ?_, by rwa [Function.update_idem] at he'⟩
    simp only [State.link, hw, hm, Option.bind_some, Option.elim_some, addDestroyListener, hm',
      Option.map_some]

theorem unlink (h : Sound s) (hw : s.weaks w = some x) : ∃ links,
    s.unlink w = some { s with weaks := s.weaks.set w { x with resource := none }, links } ∧
      Enrolment links (fun r => (s.resources r).isSome)
        (Function.update s.place w (some none)) :=
  h.link hw nofun

theorem construct (h : Sound s) : Sound s.construct where
  crashed := h.crashed
  unused i hi := by
    change s.nextId + 1 ≤ i at hi
    have hne : i ≠ s.nextId := by omega
    simpa [State.construct, hne] using h.unused i (by omega)
  enrolled := by
    have hp : s.place s.nextId = none := by simp [place, (h.unused _ (Nat.le_refl _)).2]
    have he := h.enrolled.newItem hp
    rw [← place_set s s.nextId {}] at he
    exact he

theorem createResource (h : Sound s) : Sound s.createResource where
  crashed := h.crashed
  unused i hi := by
    change s.nextId + 1 ≤ i at hi
    have hne : i ≠ s.nextId := by omega
    simpa [State.createResource, hne] using h.unused i (by omega)
  enrolled := by
    have hr : ¬ (s.resources s.nextId).isSome := by simp [(h.unused _ (Nat.le_refl _)).1]
    have he := h.enrolled.newHead hr
    rw [← Arena.isSome_set s.resources s.nextId false] at he
    exact he

theorem link_sound (h : Sound s) (hw : s.weaks w = some x) {o : Option ℕ}
    (hr : ∀ r, o = some r → (s.resources r).isSome) : ∃ t, s.link w o = some t ∧ Sound t := by
  obtain ⟨links, hl, he⟩ := h.link hw hr
  exact ⟨_, hl, h.set_weak hw he⟩

/-- A new reference takes the place of another one. -/
theorem construct_link_sound (h : Sound s) {v : ℕ} (hv : s.weaks v = some x) :
    ∃ t, s.construct.link s.nextId x.resource = some t ∧ Sound t := by
  refine h.construct.link_sound (x := {}) (by simp [State.construct]) fun r hr => ?_
  exact h.enrolled.live v r (by rw [place_of hv, hr])

/-- So does one that is there already. -/
theorem assign_sound (h : Sound s) {v : ℕ} (hw : (s.weaks w).isSome) (hv : s.weaks v = some x) :
    ∃ t, (if w ≠ v then s.link w x.resource else some s) = some t ∧ Sound t := by
  obtain ⟨y, hy⟩ := Option.isSome_iff_exists.mp hw
  split
  · exact h.link_sound hy fun r hr => h.enrolled.live v r (by rw [place_of hv, hr])
  · exact ⟨s, rfl, h⟩

theorem destruct_sound (h : Sound s) (hw : s.weaks w = some x) :
    ∃ t, s.destruct w = some t ∧ Sound t := by
  obtain ⟨links, hl, he⟩ := h.unlink hw
  have he' := he.freeItem (Function.update_self ..)
  rw [Function.update_idem, ← place_erase] at he'
  refine ⟨{ s with weaks := s.weaks.erase w, links := links.free (.item w) }, ?_, ?_⟩
  · simp only [State.destruct, hl, Option.map_some, Arena.erase_set]
  · exact {
      crashed := h.crashed
      unused i hi := by
        have hne : i ≠ w := Nat.ne_of_gt (Nat.lt_of_lt_of_le (h.lt_of_weak hw) hi)
        simpa [hne] using h.unused i hi
      enrolled := he' }

/-- A listener is notified after it was taken out of the list, and empties its reference. -/
theorem notify_sound (h : Sound s) (hw : s.place w = some (some r)) :
    ∃ t, ((s.detach w).bind fun t => t.unlink w) = some t ∧ Sound t := by
  obtain ⟨x, hx, hxr⟩ := place_eq_some_iff.mp hw
  obtain ⟨m, hm, he⟩ := detach h.enrolled hw
  obtain ⟨m', hm', he'⟩ := detach (s := { s with links := m }) he (Function.update_self ..)
  rw [Function.update_idem] at he'
  refine ⟨{ s with weaks := s.weaks.set w { x with resource := none }, links := m' }, ?_,
    h.set_weak hx he'⟩
  simp only [hm, Option.bind_some, State.unlink, State.link, hx, hxr, Option.isSome_some, if_true,
    hm', Option.elim_none, Option.map_some]

theorem emitDestroy_sound (h : Sound s) (hr : (s.resources r).isSome) :
    ∃ t, s.emitDestroy r = some t ∧ Sound t := by
  rcases h.enrolled.next_head hr with ⟨hn, hno⟩ | ⟨w, hn, hw⟩
  · refine ⟨_, by rw [State.emitDestroy, hn], ?_⟩
    exact {
      crashed := h.crashed
      unused i hi := by
        obtain ⟨h1, h2⟩ := h.unused i hi
        refine ⟨?_, h2⟩
        change s.resources.erase r i = none
        by_cases hne : i = r
        · rw [hne, Arena.erase_self]
        · rw [Arena.erase_of_ne _ hne, h1]
      enrolled := by
        have he := h.enrolled.freeHead hno
        rw [← Arena.isSome_erase] at he
        exact he }
  · obtain ⟨t, ht, hs⟩ := h.notify_sound hw
    exact ⟨t, by simpa only [State.emitDestroy, hn] using ht, hs⟩

theorem destroyResource (h : Sound s) (hr : (s.resources r).isSome) :
    Sound { s with resources := s.resources.set r true } where
  crashed := h.crashed
  unused i hi := by
    obtain ⟨h1, h2⟩ := h.unused i hi
    have hne : i ≠ r := by
      rintro rfl
      rw [h1] at hr
      cases hr
    exact ⟨(Arena.set_of_ne _ _ hne).trans h1, h2⟩
  enrolled := by
    have hl : (fun r' => r' = r ∨ (s.resources r').isSome = true) =
        fun r' => (s.resources r').isSome = true := by
      funext r'
      by_cases hne : r' = r <;> simp [hne, hr]
    have he := h.enrolled
    rw [← hl, ← Arena.isSome_set s.resources r true] at he
    exact he

/-- Whatever is done leads to a sound state again, and to no crash. -/
theorem act (h : Sound s) (a : Action) (ha : s.admits a) : ∃ t, s.act a = some t ∧ Sound t := by
  cases a with
  | createResource => exact ⟨_, rfl, h.createResource⟩
  | construct => exact ⟨_, rfl, h.construct⟩
  | copyConstruct other =>
    obtain ⟨y, hy⟩ := Option.isSome_iff_exists.mp ha
    simp only [State.act, copyConstruct, hy, Option.bind_some]
    exact h.construct_link_sound hy
  | moveConstruct other =>
    obtain ⟨y, hy⟩ := Option.isSome_iff_exists.mp ha
    simp only [State.act, moveConstruct, hy, Option.bind_some]
    exact h.construct_link_sound hy
  | copyAssign w other =>
    obtain ⟨hw, ho⟩ := Bool.and_eq_true_iff.mp ha
    obtain ⟨y, hy⟩ := Option.isSome_iff_exists.mp ho
    simp only [State.act, copyAssign, hy, Option.bind_some]
    exact h.assign_sound hw hy
  | moveAssign w other =>
    obtain ⟨hw, ho⟩ := Bool.and_eq_true_iff.mp ha
    obtain ⟨y, hy⟩ := Option.isSome_iff_exists.mp ho
    simp only [State.act, moveAssign, hy, Option.bind_some]
    exact h.assign_sound hw hy
  | link w resource =>
    obtain ⟨hw, hr⟩ := Bool.and_eq_true_iff.mp ha
    obtain ⟨x, hx⟩ := Option.isSome_iff_exists.mp hw
    refine h.link_sound hx fun r ho => ?_
    rw [ho] at hr
    exact hr
  | unlink w =>
    obtain ⟨x, hx⟩ := Option.isSome_iff_exists.mp ha
    exact h.link_sound hx nofun
  | destruct w =>
    obtain ⟨x, hx⟩ := Option.isSome_iff_exists.mp ha
    exact h.destruct_sound hx
  | destroyResource r =>
    have hr : s.resources r = some false := by simpa [admits] using ha
    exact ⟨_, rfl, h.destroyResource (by rw [hr]; rfl)⟩
  | emitDestroy r =>
    have hr : s.resources r = some true := by simpa [admits] using ha
    exact h.emitDestroy_sound (by rw [hr]; rfl)

end Sound

theorem init_sound : Sound {} where
  crashed := rfl
  unused _ _ := ⟨rfl, rfl⟩
  enrolled := {
    listed := fun r hr => by cases hr
    alone := fun w hw => by cases hw
    live := fun w r hw => by cases hw }

theorem run_sound (as : List Action) : Sound (run as) := by
  refine Run.final_induction init_sound (fun s a h => ?_) as
  unfold step
  split
  · exact h
  · next hn =>
    have ha : s.admits a = true := by
      rw [h.crashed] at hn
      simpa using hn
    obtain ⟨t, ht, hs⟩ := h.act a ha
    rwa [ht]

/-- In every run each live resource lists the references to it once each and no other reference,
one without a resource is linked to nothing, and one with a resource has one that is alive. -/
theorem registered_throughout (as : List Action) :
    (run as).crashed = false ∧
    (∀ r, ((run as).resources r).isSome → ∃! ws, (run as).Listens r ws) ∧
    (∀ r ws w, ((run as).resources r).isSome → (run as).Listens r ws →
      ws.count w = if (run as).place w = some (some r) then 1 else 0) ∧
    (∀ w, (run as).place w = some none → (run as).links.Circular (.item w) []) ∧
    ∀ w, (run as).hasResource w → ∃ r, (run as).place w = some (some r) ∧
      ((run as).resources r).isSome := by
  have h := run_sound as
  have unique {r ws ws'} (hl : (run as).Listens r ws) (hl' : (run as).Listens r ws') : ws = ws' :=
    List.map_injective_iff.mpr (fun _ _ => Node.item.inj) (hl.unique hl')
  refine ⟨h.crashed, ?_, ?_, h.enrolled.alone, ?_⟩
  · intro r hr
    obtain ⟨ws, hl, -⟩ := h.enrolled.count hr
    exact ⟨ws, hl, fun ws' hl' => unique hl' hl⟩
  · intro r ws w hr hl
    obtain ⟨ws', hl', hc⟩ := h.enrolled.count hr
    rw [unique hl hl', hc]
  · intro w hw
    cases hx : (run as).weaks w with
    | none => simp [hasResource, hx] at hw
    | some x =>
      simp only [hasResource, hx, Option.any_some] at hw
      obtain ⟨r, hr⟩ := Option.isSome_iff_exists.mp hw
      have hp : (run as).place w = some (some r) := by rw [place_of hx, hr]
      exact ⟨r, hp, h.enrolled.live w r hp⟩

-- What is moved from stays registered, and both references are emptied with the resource.
example :
    let s := run [.createResource, .construct, .link 1 (some 0), .moveConstruct 1, .link 1 (some 0)]
    s.place 1 = some (some 0) ∧ s.place 2 = some (some 0) ∧
      s.links.next (.head 0) = some (.item 2) ∧
      let t := Run.final step s [.destroyResource 0, .emitDestroy 0, .emitDestroy 0, .emitDestroy 0]
      t.place 1 = some none ∧ t.place 2 = some none ∧ t.resources 0 = none := by decide

end State
end WeakResource
end Yaza
