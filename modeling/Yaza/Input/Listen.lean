import Yaza.Remote.Link
import Mathlib.Algebra.Ring.Nat
import Mathlib.Data.List.Count

/-! The input events that `InputListenServer::handle_events` reads from a byte stream, and what
it passes to the seat. -/
namespace Yaza
namespace Input

/-- The four bytes of a word, the lowest first. -/
def wordBytes (w : UInt32) : Bytes := (List.range 4).map fun i => UInt8.ofNat (w.toNat / 256 ^ i)

def wordOf (bs : Bytes) : UInt32 :=
  UInt32.ofNat (bs.foldr (fun b acc => b.toNat + 256 * acc) 0)

theorem wordOf_wordBytes (w : UInt32) : wordOf (wordBytes w) = w := by
  have hw := w.toNat_lt
  apply UInt32.toNat_inj.mp
  simp only [wordOf, wordBytes, List.range_succ, List.range_zero, List.nil_append,
    List.cons_append, List.map_cons, List.map_nil, List.foldr_cons, List.foldr_nil,
    UInt8.toNat_ofNat', UInt32.toNat_ofNat']
  omega

@[simp] theorem wordBytes_length (w : UInt32) : (wordBytes w).length = 4 := by simp [wordBytes]

/-- `Event` behind its magic. `data0` is the first word of the union: `movement[0]`, `button` or
`wheel_amount`; `data1` is `movement[1]`. A float is kept as its bits. -/
structure Event where
  type : UInt32
  data0 : UInt32
  data1 : UInt32
  deriving DecidableEq, Repr

/-- The calls on `ServerSeat`. A pointer moves by its two words, negated and divided by
`kMouseMovementDivider`. -/
inductive Dispatch where
  | moveRelPointing (movement1 movement0 : UInt32)
  | handleMouseButton (button : UInt32) (pressed : Bool)
  | handleMouseWheel (amount : UInt32)
  deriving DecidableEq, Repr

def btnLeft : UInt32 := 0x110

def btnRight : UInt32 := 0x111

namespace Event

/-- `MOUSE_MOVE`, `MOUSE_DOWN`, `MOUSE_UP` and `MOUSE_WHEEL` are 1 to 4. -/
def dispatch (e : Event) : Option Dispatch :=
  if e.type = 1 then some (.moveRelPointing e.data1 e.data0)
  else if e.type = 2 then
    if e.data0 = btnLeft ∨ e.data0 = btnRight then some (.handleMouseButton e.data0 true) else none
  else if e.type = 3 then
    if e.data0 = btnLeft ∨ e.data0 = btnRight then some (.handleMouseButton e.data0 false)
    else none
  else if e.type = 4 then some (.handleMouseWheel e.data0)
  else none

/-- `(Event*)buf.data()`. -/
def ofBytes (buf : Bytes) : Event where
  type := wordOf ((buf.drop 4).take 4)
  data0 := wordOf ((buf.drop 8).take 4)
  data1 := wordOf ((buf.drop 12).take 4)

end Event

/-- `'y'`, `'a'`, `'z'`, `'a'`. -/
def magicBytes : Bytes := [0x79, 0x61, 0x7a, 0x61]

/-- The sixteen bytes that are sent for an event. -/
def Event.encode (e : Event) : Bytes :=
  magicBytes ++ wordBytes e.type ++ wordBytes e.data0 ++ wordBytes e.data1

@[simp] theorem Event.encode_length (e : Event) : e.encode.length = 16 := by
  simp [Event.encode, magicBytes]

/-- The stream that is sent for a list of events. -/
def encode (es : List Event) : Bytes := es.flatMap Event.encode

@[simp] theorem encode_cons (e : Event) (es : List Event) :
    encode (e :: es) = e.encode ++ encode es := List.flatMap_cons

theorem encode_length (es : List Event) : (encode es).length = 16 * es.length := by
  induction es with
  | nil => rfl
  | cons e es ih => simp [ih]; omega

theorem ofBytes_encode (e : Event) (rest : Bytes) : Event.ofBytes (e.encode ++ rest) = e := by
  obtain ⟨t, d0, d1⟩ := e
  have h4 (w : UInt32) (bs : Bytes) : (wordBytes w ++ bs).drop 4 = bs :=
    List.drop_left' (wordBytes_length w)
  have t4 (w : UInt32) (bs : Bytes) : (wordBytes w ++ bs).take 4 = wordBytes w :=
    List.take_left' (wordBytes_length w)
  have h0 : (Event.encode ⟨t, d0, d1⟩ ++ rest).drop 4 =
      wordBytes t ++ (wordBytes d0 ++ (wordBytes d1 ++ rest)) := by
    simp [Event.encode, magicBytes]
  have h8 : (Event.encode ⟨t, d0, d1⟩ ++ rest).drop 8 =
      wordBytes d0 ++ (wordBytes d1 ++ rest) := by
    rw [show 8 = 4 + 4 from rfl, ← List.drop_drop, h0, h4]
  have h12 : (Event.encode ⟨t, d0, d1⟩ ++ rest).drop 12 = wordBytes d1 ++ rest := by
    rw [show 12 = 8 + 4 from rfl, ← List.drop_drop, h8, h4]
  simp only [Event.ofBytes, h0, h8, h12, t4, wordOf_wordBytes]

/-- What `recv` returns: some bytes, none of them when the connection was closed;
`EAGAIN`; or another error. -/
inductive Recv where
  | data (bytes : Bytes)
  | again
  | failed
  deriving DecidableEq, Repr

/-- The bytes of one `recv` are written over the front of the buffer. -/
def fill (buf bytes : Bytes) : Bytes := bytes ++ buf.drop bytes.length

def kMagic : ℕ := 0x79617a61

/-- The first four bytes of the buffer, shifted together. -/
def receivedMagic (buf : Bytes) : ℕ :=
  (buf.getD 0 0).toNat * 2 ^ 24 + (buf.getD 1 0).toNat * 2 ^ 16 + (buf.getD 2 0).toNat * 2 ^ 8 +
    (buf.getD 3 0).toNat

/-- What is done with a buffer of which `size` bytes were just received. -/
def received (size : ℕ) (buf : Bytes) : Option Dispatch :=
  if size < 4 then none
  else if receivedMagic buf ≠ kMagic then none
  else (Event.ofBytes buf).dispatch

/-- The loop of `InputListenServer::handle_events` on the results of its calls of `recv`, up to
the one after which it was asked to terminate. -/
def handleEvents (buf : Bytes) : List Recv → List Dispatch
  | [] => []
  | .again :: rs => handleEvents buf rs
  | .failed :: _ => []
  | .data bytes :: rs =>
      if bytes.length = 0 then []
      else
        (received bytes.length (fill buf bytes)).toList ++ handleEvents (fill buf bytes) rs

/-- The buffer before the first `recv`. -/
def emptyBuffer : Bytes := List.replicate 512 0

/-- The results of `recv` that a stream gives when it is cut into pieces of the given sizes;
`none` is an `EAGAIN`. -/
def deliver : List (Option ℕ) → Bytes → List Recv
  | [], _ => []
  | none :: cuts, bs => .again :: deliver cuts bs
  | some n :: cuts, bs => .data (bs.take n) :: deliver cuts (bs.drop n)

/-- How a stream of `length` bytes may be cut: every piece fits the buffer, and the pieces are
the whole stream. -/
structure Cut (length : ℕ) where
  pieces : List (Option ℕ)
  size : ∀ n, some n ∈ pieces → 1 ≤ n ∧ n ≤ 512
  total : (pieces.map fun n => n.getD 0).sum = length

/-- The events are dispatched, once each, in order and with their bytes. -/
def Exact (pieces : List (Option ℕ)) (es : List Event) : Prop :=
  handleEvents emptyBuffer (deliver pieces (encode es)) = es.filterMap Event.dispatch

instance (pieces : List (Option ℕ)) (es : List Event) : Decidable (Exact pieces es) :=
  inferInstanceAs (Decidable (_ = _))

theorem receivedMagic_encode (e : Event) (rest : Bytes) :
    receivedMagic (e.encode ++ rest) = kMagic := by
  simp [receivedMagic, kMagic, Event.encode, magicBytes]

theorem received_encode (e : Event) (rest : Bytes) :
    received 16 (e.encode ++ rest) = e.dispatch := by
  simp [received, receivedMagic_encode, ofBytes_encode]

theorem deliver_encode_cons (pieces : List (Option ℕ)) (e : Event) (es : List Event) :
    deliver (some 16 :: pieces) (encode (e :: es)) =
      .data e.encode :: deliver pieces (encode es) := by
  rw [deliver, encode_cons, List.take_left' e.encode_length, List.drop_left' e.encode_length]

/-- A piece that is one event is dispatched, and leaves its bytes in the buffer. -/
theorem handleEvents_encode (buf : Bytes) (e : Event) (rs : List Recv) :
    handleEvents buf (.data e.encode :: rs) =
      e.dispatch.toList ++ handleEvents (e.encode ++ buf.drop 16) rs := by
  simp [handleEvents, fill, received_encode]

theorem handleEvents_of_sixteen {pieces : List (Option ℕ)} (h16 : ∀ n, some n ∈ pieces → n = 16)
    (buf : Bytes) {es : List Event} (ht : (pieces.map fun n => n.getD 0).sum = 16 * es.length) :
    handleEvents buf (deliver pieces (encode es)) = es.filterMap Event.dispatch := by
  induction pieces generalizing buf es with
  | nil =>
    have he : es = [] := by
      rw [List.map_nil, List.sum_nil] at ht
      exact List.length_eq_zero_iff.mp (by omega)
    simp [he, deliver, handleEvents]
  | cons n pieces ih =>
    have hp : ∀ m, some m ∈ pieces → m = 16 := fun m hm => h16 m (List.mem_cons_of_mem n hm)
    cases n with
    | none => exact ih hp buf (by simpa using ht)
    | some n =>
      obtain rfl : n = 16 := h16 n List.mem_cons_self
      cases es with
      | nil => simp at ht
      | cons e es =>
        have ht' : (pieces.map fun n => n.getD 0).sum = 16 * es.length := by
          simp only [List.map_cons, Option.getD_some, List.sum_cons, List.length_cons] at ht
          omega
        rw [deliver_encode_cons, handleEvents_encode, ih hp _ ht']
        cases hd : e.dispatch <;> simp [hd]

/-- Every dispatched piece starts with a `'y'`, so a stream that has one `'y'` in each event must
have each event at the start of a piece. -/
theorem receivedMagic_head (buf : Bytes) (h : receivedMagic buf = kMagic) :
    buf.getD 0 0 = 0x79 := by
  have h0 := (buf.getD 0 0).toNat_lt
  have h1 := (buf.getD 1 0).toNat_lt
  have h2 := (buf.getD 2 0).toNat_lt
  have h3 := (buf.getD 3 0).toNat_lt
  apply UInt8.toNat_inj.mp
  simp only [receivedMagic, kMagic] at h
  show _ = 0x79
  omega

theorem received_length_le (buf bytes : Bytes) :
    (received bytes.length (fill buf bytes)).toList.length ≤ bytes.count 0x79 := by
  unfold received
  split
  · simp
  · split
    · simp
    · next hl hm =>
      cases bytes with
      | nil => simp at hl
      | cons b bytes =>
        have hb : b = 0x79 := receivedMagic_head (fill buf (b :: bytes)) (by simpa using hm)
        have h1 : (Event.ofBytes (fill buf (b :: bytes))).dispatch.toList.length ≤ 1 := by
          cases (Event.ofBytes (fill buf (b :: bytes))).dispatch <;> simp
        rw [hb, List.count_cons_self]
        exact Nat.le_trans (hb ▸ h1) (Nat.succ_le_succ (Nat.zero_le _))

theorem handleEvents_length_le (pieces : List (Option ℕ)) (buf bs : Bytes) :
    (handleEvents buf (deliver pieces bs)).length ≤ bs.count 0x79 := by
  induction pieces generalizing buf bs with
  | nil => simp [deliver, handleEvents]
  | cons n pieces ih =>
    cases n with
    | none => exact ih buf bs
    | some n =>
      simp only [deliver, handleEvents]
      split
      · simp
      · have h1 := received_length_le buf (bs.take n)
        have h2 := ih (fill buf (bs.take n)) (bs.drop n)
        have h3 : bs.count 0x79 = (bs.take n).count 0x79 + (bs.drop n).count 0x79 := by
          rw [← List.count_append, List.take_append_drop]
        rw [List.length_append, h3]
        exact Nat.add_le_add h1 h2

/-- A motion all of whose bytes are zero. -/
def stillMove : Event := ⟨1, 0, 0⟩

/-- A motion whose last byte is not zero. -/
def lastByteMove : Event := ⟨1, 0, 0x01000000⟩

theorem count_encode_replicate (k : ℕ) :
    (encode (List.replicate k stillMove)).count 0x79 = k := by
  induction k with
  | zero => rfl
  | succ k ih =>
    rw [List.replicate_succ, encode_cons, List.count_append, ih,
      show stillMove.encode.count 0x79 = 1 from by decide, Nat.add_comm]

theorem filterMap_replicate (k : ℕ) :
    (List.replicate k stillMove).filterMap Event.dispatch =
      List.replicate k (.moveRelPointing 0 0) :=
  List.filterMap_replicate_of_some rfl

/-- A word whose last byte is zero is not the one of `lastByteMove`. -/
theorem wordOf_ne {buf : Bytes} (h : buf.getD 15 0 = 0) :
    wordOf ((buf.drop 12).take 4) ≠ 0x01000000 := by
  have hd : (buf.drop 12).getD 3 0 = 0 := by simpa [List.getD_eq_getElem?_getD] using h
  intro hw
  have hn := congrArg UInt32.toNat hw
  match hb : buf.drop 12 with
  | [] => simp [hb, wordOf] at hn
  | [a] =>
    have ha := a.toNat_lt
    simp [hb, wordOf] at hn
    omega
  | [a, b] =>
    have ha := a.toNat_lt
    have hb' := b.toNat_lt
    simp [hb, wordOf] at hn
    omega
  | [a, b, c] =>
    have ha := a.toNat_lt
    have hb' := b.toNat_lt
    have hc := c.toNat_lt
    simp [hb, wordOf] at hn
    omega
  | a :: b :: c :: d :: l =>
    have ha := a.toNat_lt
    have hb' := b.toNat_lt
    have hc := c.toNat_lt
    have hd0 : d = 0 := by simpa [hb] using hd
    simp [hb, hd0, wordOf] at hn
    omega

theorem received_ne {size : ℕ} {buf : Bytes} (h : buf.getD 15 0 = 0) :
    received size buf ≠ some (.moveRelPointing 0x01000000 0) := by
  unfold received
  split
  · simp
  · split
    · simp
    · intro hd
      simp only [Event.dispatch] at hd
      split at hd
      · simp only [Event.ofBytes, Option.some.injEq, Dispatch.moveRelPointing.injEq] at hd
        exact wordOf_ne h hd.1
      · split_ifs at hd <;> simp at hd

theorem received_length_le_one (size : ℕ) (buf : Bytes) :
    (received size buf).toList.length ≤ 1 := by
  cases received size buf <;> simp

/-- A motion that was not still, and still ones. -/
def probe (k : ℕ) : List Event := lastByteMove :: List.replicate k stillMove

theorem count_probe (k n : ℕ) :
    ((encode (probe k)).take n).count 0x79 + ((encode (probe k)).drop n).count 0x79 = k + 1 := by
  rw [← List.count_append, List.take_append_drop, probe, encode_cons, List.count_append,
    count_encode_replicate, show lastByteMove.encode.count 0x79 = 1 from by decide, Nat.add_comm]

theorem count_take_probe {k n : ℕ} (hn : 1 ≤ n) :
    1 ≤ ((encode (probe k)).take n).count 0x79 := by
  obtain ⟨n, rfl⟩ := Nat.exists_eq_add_of_le' hn
  exact List.count_pos_iff.mpr (by simp [probe, Event.encode, magicBytes])

/-- A piece longer than one event holds the start of the next. -/
theorem count_take_probe_of_long {k n : ℕ} (hn : 16 < n) :
    2 ≤ ((encode (probe (k + 1))).take n).count 0x79 := by
  have hs : stillMove.encode = 0x79 :: stillMove.encode.tail := rfl
  have hc : (lastByteMove.encode ++ [0x79]).count 0x79 = 2 := by decide
  have hr : encode (probe (k + 1)) = (lastByteMove.encode ++ [0x79]) ++
      (stillMove.encode.tail ++ encode (List.replicate k stillMove)) := by
    rw [probe, encode_cons, List.replicate_succ, encode_cons, hs]
    simp
  rw [hr, List.take_append, List.take_of_length_le (by simp; omega), List.count_append, hc]
  exact Nat.le_add_right ..

theorem fill_getD {buf bytes : Bytes} {i : ℕ} (h : bytes.length ≤ i) :
    (fill buf bytes).getD i 0 = buf.getD i 0 := by
  simp only [fill, List.getD_eq_getElem?_getD]
  rw [List.getElem?_append_right h, List.getElem?_drop, Nat.add_sub_cancel' h]

/-- The probe, with a first piece that is not one event, is not dispatched as it was sent. -/
theorem probe_misread {pieces : List (Option ℕ)} {n k : ℕ} (h1 : 1 ≤ n) (h16 : n ≠ 16)
    (hn : n ≤ 16 * (k + 1)) {buf : Bytes} (hb : buf.getD 15 0 = 0) :
    handleEvents buf (deliver (some n :: pieces) (encode (probe k))) ≠
      (probe k).filterMap Event.dispatch := by
  intro heq
  have he : (probe k).filterMap Event.dispatch =
      .moveRelPointing 0x01000000 0 :: List.replicate k (.moveRelPointing 0 0) := by
    have hd : lastByteMove.dispatch = some (.moveRelPointing 0x01000000 0) := rfl
    rw [probe, List.filterMap_cons_some hd, filterMap_replicate]
  have hlen : ((encode (probe k)).take n).length = n := by
    rw [List.length_take, encode_length, probe, List.length_cons, List.length_replicate]
    omega
  rw [he, deliver, handleEvents, if_neg (by omega), hlen] at heq
  have hrest := handleEvents_length_le pieces (fill buf ((encode (probe k)).take n))
    ((encode (probe k)).drop n)
  have hc := count_probe k n
  have hl := congrArg List.length heq
  simp only [List.length_append, List.length_cons, List.length_replicate] at hl
  rcases Nat.lt_or_gt_of_ne h16 with hlt | hgt
  · have ht := count_take_probe (k := k) h1
    cases hr : received n (fill buf ((encode (probe k)).take n)) with
    | none =>
      rw [hr, Option.toList_none, List.length_nil] at hl
      omega
    | some d =>
      -- the last byte of the event is still that of the event before
      rw [hr, Option.toList_some, List.singleton_append, List.cons.injEq] at heq
      have h15 : (fill buf ((encode (probe k)).take n)).getD 15 0 = 0 := by
        rw [fill_getD (by omega), hb]
      exact received_ne h15 (hr.trans (congrArg some heq.1))
  · obtain ⟨k, rfl⟩ : ∃ k', k = k' + 1 := ⟨k - 1, by omega⟩
    have ht := count_take_probe_of_long (k := k) hgt
    have h2 := received_length_le_one n (fill buf ((encode (probe (k + 1))).take n))
    omega

/-- The last byte of an event was zero, and a piece is not one event: then some events are not
dispatched as they were sent. -/
theorem exists_misread {pieces : List (Option ℕ)} (hs : ∀ n, some n ∈ pieces → 1 ≤ n)
    (hx : ∃ n, some n ∈ pieces ∧ n ≠ 16) {k : ℕ}
    (ht : (pieces.map fun n => n.getD 0).sum = 16 * k) {buf : Bytes} (hb : buf.getD 15 0 = 0) :
    ∃ es : List Event, es.length = k ∧
      handleEvents buf (deliver pieces (encode es)) ≠ es.filterMap Event.dispatch := by
  induction pieces generalizing k buf with
  | nil => simp at hx
  | cons n pieces ih =>
    have hp : ∀ m, some m ∈ pieces → 1 ≤ m := fun m hm => hs m (List.mem_cons_of_mem n hm)
    cases n with
    | none => exact ih hp (by simpa using hx) (by simpa using ht) hb
    | some n =>
      have hn : 1 ≤ n := hs n List.mem_cons_self
      simp only [List.map_cons, Option.getD_some, List.sum_cons] at ht
      obtain ⟨k, rfl⟩ : ∃ k', k = k' + 1 := ⟨k - 1, by omega⟩
      by_cases h16 : n = 16
      · subst h16
        obtain ⟨es, hl, hne⟩ := ih (k := k) hp (by simpa using hx) (by omega)
          (show (stillMove.encode ++ buf.drop 16).getD 15 0 = 0 from rfl)
        refine ⟨stillMove :: es, by simp [hl], ?_⟩
        rw [deliver_encode_cons, handleEvents_encode]
        simpa [stillMove, Event.dispatch] using hne
      · refine ⟨probe k, by simp [probe], fun heq => ?_⟩
        exact probe_misread hn h16 (by omega) hb heq

/-- The events of a stream are dispatched as they were sent, whatever they are, exactly when
every piece is one event. -/
theorem exact_iff_pieces (k : ℕ) (c : Cut (16 * k)) :
    (∀ es : List Event, es.length = k → Exact c.pieces es) ↔
      ∀ n, some n ∈ c.pieces → n = 16 := by
  constructor
  · intro h n hn
    by_contra h16
    obtain ⟨es, hl, hne⟩ := exists_misread (fun n hn => (c.size n hn).1) ⟨n, hn, h16⟩ c.total
      (show emptyBuffer.getD 15 0 = 0 by decide)
    exact hne (h es hl)
  · rintro h es rfl
    exact handleEvents_of_sixteen h emptyBuffer c.total

/-- Two events that arrive together. -/
def together : Cut 32 where
  pieces := [some 32]
  size := by simp
  total := rfl

/-- Of a button that is pressed and released, only the press is dispatched. -/
theorem together_misread :
    ¬ ∀ (k : ℕ) (c : Cut (16 * k)) (es : List Event), es.length = k → Exact c.pieces es := by
  intro h
  have h2 := h 2 together [⟨2, btnLeft, 0⟩, ⟨3, btnLeft, 0⟩] rfl
  exact absurd h2 (by decide)

end Input
end Yaza
