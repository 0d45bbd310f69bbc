import Yaza.Lib.Arena
import Yaza.Lib.Enrolment
import Yaza.Lib.Rings
import Yaza.Lib.Run

/-! Signals and their listeners (`util/signal.hpp`), on the lists of libwayland. A handler may do
with them what it likes while the loop that called it waits with the next node in its hand. -/
namespace Yaza
namespace Signals

/-- `Listener`, by whether its handler is set. -/
structure Listener where
  hasHandler : Bool := false
  deriving DecidableEq, Repr

/-- A `wl_signal_emit` that has notified a listener: the node that its loop goes on with, and
whether the notified listener had a handler. -/
structure Emission where
  signal : ℕ
  next : Node ℕ ℕ
  isHandling : Bool
  deriving DecidableEq

/-- The links are those of `listener_list` of a signal and of `link` of a listener. The innermost
emission comes first; `calls` are the calls of handlers, oldest first. -/
structure State where
  crashed : Bool := false
  nextId : ℕ := 0
  signals : Arena Unit := Arena.empty
  listeners : Arena Listener := Arena.empty
  links : Links (Node ℕ ℕ) := ⟨fun _ => none, fun _ => none⟩
  emissions : List Emission := []
  calls : List (ℕ × ℕ) := []

namespace State

/-- The constructor. -/
def newListener (s : State) : State :=
  { s with
    nextId := s.nextId + 1
    listeners := s.listeners.set s.nextId {}
    links := s.links.init (.item s.nextId) }

/-- `set_handler`. -/
def setHandler (s : State) (w : ℕ) : State :=
  { s with listeners := s.listeners.set w { hasHandler := true } }

/-- `remove`. -/
def remove (s : State) (w : ℕ) : Option State :=
  (s.links.remove (.item w)).map fun links => { s with links := links.init (.item w) }

/-- The destructor. -/
def deleteListener (s : State) (w : ℕ) : Option State :=
  (s.remove w).map fun t =>
    { t with listeners := t.listeners.erase w, links := t.links.free (.item w) }

/-- The constructor. -/
def newSignal (s : State) : State :=
  { s with
    nextId := s.nextId + 1
    signals := s.signals.set s.nextId ()
    links := s.links.init (.head s.nextId) }

/-- `add_listener`. -/
def addListener (s : State) (r w : ℕ) : Option State :=
  (s.links.append (.head r) (.item w)).map fun links => { s with links }

/-- The destructor. The listeners that are left remain linked to each other. -/
def deleteSignal (s : State) (r : ℕ) : Option State :=
  (s.links.remove (.head r)).map fun links => { s with signals := s.signals.erase r, links }

/-- The loop of an emission comes to a node, of which it reads first what is behind it. It is over
at the head of its list. -/
def visit (s : State) (r : ℕ) (pos : Node ℕ ℕ) : Option State :=
  (s.links.next pos).bind fun next =>
    match pos with
    | .head r' => if r' = r then some s else none
    | .item w =>
      (s.listeners w).map fun x =>
        { s with
          emissions := { signal := r, next, isHandling := x.hasHandler } :: s.emissions
          calls := if x.hasHandler then s.calls ++ [(r, w)] else s.calls }

/-- `emit`, up to the first listener. -/
def emit (s : State) (r : ℕ) : Option State := (s.links.next (.head r)).bind (s.visit r)

/-- The listener that was notified last returns, and the loop goes on. -/
def advance (s : State) : Option State :=
  match s.emissions with
  | [] => none
  | e :: es => { s with emissions := es }.visit e.signal e.next

end State

inductive Action where
  | newListener
  | setHandler (w : ℕ)
  | remove (w : ℕ)
  | deleteListener (w : ℕ)
  | newSignal
  | addListener (r w : ℕ)
  | deleteSignal (r : ℕ)
  | emit (r : ℕ)
  | advance
  deriving DecidableEq, Repr

namespace State

/-- What the action names is there, and only a handler does something during an emission. -/
def admits (s : State) (a : Action) : Bool :=
  (a = .advance || s.emissions.head?.all (·.isHandling)) &&
    match a with
    | .newListener | .newSignal => true
    | .setHandler w | .remove w | .deleteListener w => (s.listeners w).isSome
    | .addListener r w => (s.signals r).isSome && (s.listeners w).isSome
    | .deleteSignal r | .emit r => (s.signals r).isSome
    | .advance => !s.emissions.isEmpty

def act (s : State) : Action → Option State
  | .newListener => some s.newListener
  | .setHandler w => some (s.setHandler w)
  | .remove w => s.remove w
  | .deleteListener w => s.deleteListener w
  | .newSignal => some s.newSignal
  | .addListener r w => s.addListener r w
  | .deleteSignal r => s.deleteSignal r
  | .emit r => s.emit r
  | .advance => s.advance

/-- A pointer that leads nowhere ends the program. -/
def step (s : State) (a : Action) : State :=
  if s.crashed || !s.admits a then s else (s.act a).getD { s with crashed := true }

end State

/-- An emission, with the listeners that it has still to notify. -/
structure Round where
  signal : ℕ
  todo : List ℕ
  isHandling : Bool
  deriving DecidableEq, Repr

/-- The listeners of every signal, in the order in which they were added. -/
structure Spec where
  nextId : ℕ := 0
  lists : Arena (List ℕ) := Arena.empty
  listeners : Arena Listener := Arena.empty
  rounds : List Round := []
  calls : List (ℕ × ℕ) := []

namespace Spec

/-- A listener is added to the end of a list. A round of the signal that has others to notify still
comes to it. -/
def addListener (t : Spec) (r w : ℕ) : Spec :=
  { t with
    lists := t.lists.modify r (· ++ [w])
    rounds := t.rounds.map fun e =>
      if e.signal = r ∧ e.todo ≠ [] then { e with todo := e.todo ++ [w] } else e }

/-- A listener is in no list any more, and no round comes to it. -/
def remove (t : Spec) (w : ℕ) : Spec :=
  { t with
    lists := t.lists.mapAll (·.erase w)
    rounds := t.rounds.map fun e => { e with todo := e.todo.erase w } }

/-- A round goes on with the listeners of the list. -/
def visit (t : Spec) (r : ℕ) : List ℕ → Spec
  | [] => t
  | w :: todo =>
    let isHandling := (t.listeners w).any (·.hasHandler)
    { t with
      rounds := { signal := r, todo, isHandling } :: t.rounds
      calls := if isHandling then t.calls ++ [(r, w)] else t.calls }

def act (t : Spec) : Action → Spec
  | .newListener => { t with nextId := t.nextId + 1, listeners := t.listeners.set t.nextId {} }
  | .setHandler w => { t with listeners := t.listeners.set w { hasHandler := true } }
  | .remove w => t.remove w
  | .deleteListener w => { t.remove w with listeners := t.listeners.erase w }
  | .newSignal => { t with nextId := t.nextId + 1, lists := t.lists.set t.nextId [] }
  | .addListener r w => t.addListener r w
  | .deleteSignal r => { t with lists := t.lists.erase r }
  | .emit r => t.visit r ((t.lists r).getD [])
  | .advance =>
    match t.rounds with
    | [] => t
    | e :: es => { t with rounds := es }.visit e.signal e.todo

/-- What the action names is there, and only a handler does something during an emission. -/
def admits (t : Spec) (a : Action) : Bool :=
  (a = .advance || t.rounds.head?.all (·.isHandling)) &&
    match a with
    | .newListener | .newSignal => true
    | .setHandler w | .remove w | .deleteListener w => (t.listeners w).isSome
    | .addListener r w => (t.lists r).isSome && (t.listeners w).isSome
    | .deleteSignal r | .emit r => (t.lists r).isSome
    | .advance => !t.rounds.isEmpty

def step (t : Spec) (a : Action) : Spec := if t.admits a then t.act a else t

end Spec

/-- The emission is the round: what its loop has in its hand is the next listener to notify, or the
head when there is none. -/
structure Emission.Goes (t : Spec) (e : Emission) (f : Round) : Prop where
  signal : e.signal = f.signal
  handling : e.isHandling = f.isHandling
  next : e.next = f.todo.head?.elim (.head f.signal) .item
  listed : ∃ done, t.lists f.signal = some (done ++ f.todo)

/-- The pointers are those of the lists, every emission in progress is the round that it should be,
and the same handlers have been called. -/
structure Refines (s : State) (t : Spec) : Prop where
  crashed : s.crashed = false
  coherent : s.links.Coherent
  signals : ∀ r, (s.signals r).isSome = (t.lists r).isSome
  listeners : s.listeners = t.listeners
  listed : ∀ r l, t.lists r = some l → s.links.Circular (.head r) (l.map .item)
  emissions : List.Forall₂ (Emission.Goes t) s.emissions t.rounds
  calls : s.calls = t.calls

/-- Only a listener without a signal is added to one. A listener is not removed that a loop has in
its hand, and a signal is not destroyed that is emitting. -/
def Rules (s : State) (a : Action) : Prop :=
  s.admits a = true →
    match a with
    | .addListener _ w => s.links.next (.item w) = some (.item w)
    | .remove w | .deleteListener w => ∀ e ∈ s.emissions, e.next ≠ .item w
    | .deleteSignal r => ∀ e ∈ s.emissions, e.signal ≠ r
    | _ => True

/-- Both programs side by side. -/
def both (p : State × Spec) (a : Action) : State × Spec := (p.1.step a, p.2.step a)

end Signals
end Yaza
