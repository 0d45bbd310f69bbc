import Yaza.Lib.Grid
import Yaza.Lib.Run
import Mathlib.Data.Int.Init

/-! The frame timer of `Remote`: each callback arms the timer for the next point of a grid of frame
times. Times are in nanoseconds of the steady clock. -/
namespace Yaza
namespace FrameTimer

/-- `kRefreshIntervalNsec`: the quotient of the floats `1'000'000'000.F` and `60.F`. Floats of this
size are whole numbers, and this one is the nearest. -/
def refreshIntervalNsec : ℕ := 16666667

/-- `kNsecPerMsec`. -/
def nsecPerMsec : ℤ := 1000000

example : refreshIntervalNsec < 2 ^ 24 ∧
    |1000000000 - 60 * (refreshIntervalNsec : ℤ)| ≤ 60 / 2 := by
  decide

/-- A conversion to `int`. -/
def toInt (n : ℤ) : ℤ := n.bmod (2 ^ 32)

/-- `duration_msec` of the callback. -/
def durationMsec (duration : ℤ) : ℤ :=
  if (toInt duration).tdiv nsecPerMsec ≤ 0 then 1 else (toInt duration).tdiv nsecPerMsec

/-- `prevFrame` is `prev_frame_`. The timer was armed at `armed` for `delay` milliseconds, and the
clock was read last at `read`. -/
structure State where
  prevFrame : ℤ
  read : ℤ
  armed : ℤ
  delay : ℤ
  deriving DecidableEq, Repr

/-- The constructor of `Remote` arms the timer before it reads the clock. -/
def construct (armed start : ℤ) : State where
  prevFrame := start
  read := start
  armed := armed
  delay := (refreshIntervalNsec : ℤ) / nsecPerMsec + 1

/-- A callback: it reads the clock at `now`, and the timer is armed at `armed`. -/
structure Tick where
  now : ℤ
  armed : ℤ
  deriving DecidableEq, Repr

/-- `next` of the callback. -/
def next (s : State) (t : Tick) : ℤ :=
  Grid.catchUp refreshIntervalNsec (by decide) t.now s.prevFrame

/-- The callback of the frame timer, but for the `session_frame` signal. -/
def callback (s : State) (t : Tick) : State where
  prevFrame := next s t
  read := t.now
  armed := t.armed
  delay := durationMsec (next s t - t.now)

/-- The clock does not go back, and the callback does not come before the delay is over. -/
structure OnTime (s : State) (t : Tick) : Prop where
  read : s.read ≤ t.now
  delay : s.armed + s.delay * nsecPerMsec ≤ t.now
  armed : t.now ≤ t.armed

/-- What a callback is to do, in a program that was started at `start`. -/
structure Paced (start : ℤ) (s : State) (t : Tick) : Prop where
  rounds : ∃ n : ℕ, 1 ≤ n ∧ next s t = s.prevFrame + n * refreshIntervalNsec ∧
    ∀ m : ℕ, 1 ≤ m → m < n → s.prevFrame + m * refreshIntervalNsec < t.now
  grid : ∃ k : ℕ, (callback s t).prevFrame = start + k * refreshIntervalNsec
  increases : s.prevFrame < (callback s t).prevFrame
  ahead : t.now ≤ (callback s t).prevFrame
  fits : -2 ^ 31 ≤ next s t - t.now ∧ next s t - t.now < 2 ^ 31
  delay : 1 ≤ (callback s t).delay ∧
    (callback s t).delay ≤ (refreshIntervalNsec : ℤ) / nsecPerMsec + 1

/-- The next frame time is on the grid, and less than a millisecond after the end of the delay. -/
structure Armed (start : ℤ) (s : State) : Prop where
  grid : ∃ k : ℕ, s.prevFrame = start + k * refreshIntervalNsec
  soon : s.prevFrame ≤ s.read ∨ s.prevFrame < s.armed + s.delay * nsecPerMsec + nsecPerMsec

theorem toInt_of_fits {n : ℤ} (h : -2 ^ 31 ≤ n ∧ n < 2 ^ 31) : toInt n = n := by
  unfold toInt
  apply Int.bmod_eq_of_le <;> omega

/-- The milliseconds of a duration, rounded down, but one at least. -/
theorem durationMsec_bounds {d : ℤ} (h0 : 0 ≤ d) (hd : d < 2 ^ 31) :
    d < durationMsec d * nsecPerMsec + nsecPerMsec ∧ 1 ≤ durationMsec d ∧
      (durationMsec d = 1 ∨ durationMsec d * nsecPerMsec ≤ d) := by
  unfold durationMsec
  rw [toInt_of_fits ⟨by omega, hd⟩, Int.tdiv_eq_ediv_of_nonneg h0]
  unfold nsecPerMsec
  split <;> omega

section Callback
variable {start : ℤ} {s : State} {t : Tick}

/-- A callback is early by less than a millisecond. -/
theorem early (h : Armed start s) (ht : OnTime s t) : s.prevFrame < t.now + nsecPerMsec := by
  have h1 := ht.read
  have h2 := ht.delay
  rcases h.soon with h3 | h3
  · have h4 : 0 < nsecPerMsec := by decide
    omega
  · omega

theorem duration_bounds (h : Armed start s) (ht : OnTime s t) :
    0 ≤ next s t - t.now ∧ next s t - t.now < refreshIntervalNsec + nsecPerMsec := by
  have h1 := early h ht
  have h2 : t.now ≤ next s t := Grid.le_catchUp
  have h3 : next s t ≤ max s.prevFrame t.now + refreshIntervalNsec := Grid.catchUp_sub_le
  have h4 : 0 < nsecPerMsec := by decide
  constructor
  · omega
  · rcases max_choice s.prevFrame t.now with h5 | h5 <;> rw [h5] at h3 <;> omega

theorem callback_grid (h : Armed start s) :
    ∃ k : ℕ, (callback s t).prevFrame = start + k * refreshIntervalNsec := by
  obtain ⟨k, hk⟩ := h.grid
  obtain ⟨n, -, hn, -⟩ := Grid.catchUp_rounds refreshIntervalNsec (by decide) t.now s.prevFrame
  refine ⟨k + n, ?_⟩
  change next s t = _
  rw [next, hn, hk]
  push_cast
  ring

theorem callback_paced (h : Armed start s) (ht : OnTime s t) : Paced start s t := by
  obtain ⟨h1, h2⟩ := duration_bounds h ht
  have h3 : (refreshIntervalNsec : ℤ) + nsecPerMsec = 17666667 := by decide
  have h4 : (refreshIntervalNsec : ℤ) / nsecPerMsec + 1 = 17 := by decide
  obtain ⟨-, h6, h7⟩ := durationMsec_bounds h1 (by omega)
  obtain ⟨n, hn, he, -, hm⟩ :=
    Grid.catchUp_rounds refreshIntervalNsec (by decide) t.now s.prevFrame
  refine ⟨⟨n, hn, he, hm⟩, callback_grid h, Grid.lt_catchUp, Grid.le_catchUp, ⟨by omega, by omega⟩,
    h6, ?_⟩
  rw [h4]
  change durationMsec (next s t - t.now) ≤ 17
  unfold nsecPerMsec at h7
  omega

theorem callback_armed (h : Armed start s) (ht : OnTime s t) : Armed start (callback s t) := by
  obtain ⟨h1, h2⟩ := duration_bounds h ht
  have h3 : (refreshIntervalNsec : ℤ) + nsecPerMsec = 17666667 := by decide
  obtain ⟨h5, -, -⟩ := durationMsec_bounds h1 (by omega)
  refine ⟨callback_grid h, .inr ?_⟩
  have h6 := ht.armed
  change next s t < t.armed + durationMsec (next s t - t.now) * nsecPerMsec + nsecPerMsec
  omega

end Callback

theorem construct_armed (armed start : ℤ) : Armed start (construct armed start) :=
  ⟨⟨0, by simp [construct]⟩, .inl (le_refl start)⟩

/-- In every run whose callbacks do not come too early, however late they are, the frame times stay
on their grid and ahead of the clock, and the delays are between one and 17 milliseconds. -/
theorem paced_throughout (armed start : ℤ) (ts : List Tick)
    (h : Run.Each callback OnTime (construct armed start) ts) :
    Run.Each callback (Paced start) (construct armed start) ts := by
  intro pre t hp
  have h1 : Run.Each callback OnTime (construct armed start) pre :=
    Run.each_mono ((List.prefix_append pre [t]).trans hp) h
  have h2 : Armed start (Run.final callback (construct armed start) pre) :=
    Run.final_induction_of_each (construct_armed armed start)
      (fun _ _ hs ht => callback_armed hs ht) h1
  exact callback_paced h2 (h pre t hp)

/-- Two callbacks that come as soon as they may: the second one is early for its frame. -/
theorem paced_throughout_early :
    Run.Each callback (Paced 0) (construct 0 0) [⟨17000000, 17000000⟩, ⟨33000000, 33000000⟩] := by
  have h1 : next (construct 0 0) ⟨17000000, 17000000⟩ = 33333334 := by
    simp [next, Grid.catchUp, construct, refreshIntervalNsec]
  have h2 : callback (construct 0 0) ⟨17000000, 17000000⟩ = ⟨33333334, 17000000, 17000000, 16⟩ := by
    simp only [callback, h1]
    decide
  refine paced_throughout 0 0 _ (Run.each_cons.mpr ⟨?_, Run.each_cons.mpr ⟨?_, ?_⟩⟩)
  · constructor <;> decide
  · rw [h2]
    constructor <;> decide
  · exact Run.each_nil.mpr trivial

end FrameTimer
end Yaza
