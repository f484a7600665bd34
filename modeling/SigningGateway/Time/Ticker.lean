import SigningGateway.Time.Clock

/-!
# Tickers

A ticker is due at once and then once a period.  When a tick comes late, the next one is due a
period after the late one (`delay`) or a period after the time it was due at (`catchUp`).

    (t.run now).2.due > now, for a positive period         (run_due)
-/

namespace SigningGateway

/-- When the tick after a late one is due. -/
inductive LateTick
  | delay
  | catchUp
  deriving DecidableEq, Repr

/-- A periodic event. -/
structure Ticker where
  period : Nat
  late : LateTick
  due : Nat

namespace Ticker

/-- A ticker whose first tick is due now. -/
def start (period : Nat) (late : LateTick) (now : Nat) : Ticker := ⟨period, late, now⟩

/-- A tick that comes at most so many milliseconds late counts as punctual. -/
def tolerance : Nat := 5

/-- When the next tick is due if the current one is taken now. -/
def next (t : Ticker) (now : Nat) : Nat :=
  match t.late with
  | .delay => if t.due + tolerance < now then now + t.period else t.due + t.period
  | .catchUp => t.due + t.period

/-- Takes the ticks that are due, at most `fuel`, and counts them on. -/
def runFor (now : Nat) : Nat → Nat → Ticker → Nat × Ticker
  | 0, count, t => (count, t)
  | fuel + 1, count, t =>
    if t.due ≤ now then runFor now fuel (count + 1) { t with due := t.next now }
    else (count, t)

/-- Takes all ticks that are due and counts them; with a positive period they lie at least a
millisecond apart. -/
def run (t : Ticker) (now : Nat) : Nat × Ticker := runFor now (now + 1 - t.due) 0 t

/-! ## Lemmas -/

theorem due_lt_next (t : Ticker) (now : Nat) (hp : 0 < t.period) : t.due < t.next now := by
  unfold next
  split
  · split
    · have : tolerance = 5 := rfl
      omega
    · omega
  · omega

theorem runFor_due (now fuel count : Nat) (t : Ticker) (hp : 0 < t.period)
    (h : now + 1 ≤ t.due + fuel) : now < (runFor now fuel count t).2.due := by
  induction fuel generalizing t count with
  | zero => simp [runFor]; omega
  | succ fuel ih =>
    unfold runFor
    split
    · have hlt := due_lt_next t now hp
      exact ih (count + 1) { t with due := t.next now } hp (by simp only; omega)
    · next hd => exact Nat.lt_of_not_le hd

@[simp] theorem period_runFor (now fuel count : Nat) (t : Ticker) :
    (runFor now fuel count t).2.period = t.period := by
  induction fuel generalizing t count with
  | zero => rfl
  | succ fuel ih =>
    unfold runFor
    split
    · exact ih _ _
    · rfl

@[simp] theorem period_run (t : Ticker) (now : Nat) : (t.run now).2.period = t.period :=
  period_runFor now _ 0 t

/-- The next tick is due a period after the current one is taken at the latest. -/
theorem next_le (t : Ticker) (now : Nat) (h : t.due ≤ now) : t.next now ≤ now + t.period := by
  unfold next
  split
  · split <;> omega
  · omega

theorem runFor_due_le (now fuel count : Nat) (t : Ticker) (h : t.due ≤ now + t.period) :
    count ≤ (runFor now fuel count t).1 ∧
      (runFor now fuel count t).2.due ≤ now + t.period := by
  induction fuel generalizing t count with
  | zero => exact ⟨Nat.le_refl _, h⟩
  | succ fuel ih =>
    unfold runFor
    split
    · next hd =>
      obtain ⟨hcount, hdue⟩ := ih (count + 1) { t with due := t.next now } (t.next_le now hd)
      exact ⟨Nat.le_of_succ_le hcount, hdue⟩
    · exact ⟨Nat.le_refl _, h⟩

/-- Nothing is taken before a tick is due. -/
theorem run_of_lt (t : Ticker) (now : Nat) (h : now < t.due) : t.run now = (0, t) := by
  have hfuel : now + 1 - t.due = 0 := by omega
  rw [run, hfuel, runFor]

/-- Of the ticks that are due at least one is taken, and the next one is due within a period. -/
theorem run_of_le (t : Ticker) (now : Nat) (h : t.due ≤ now) :
    0 < (t.run now).1 ∧ (t.run now).2.due ≤ now + t.period := by
  have hfuel : now + 1 - t.due = now - t.due + 1 := by omega
  rw [run, hfuel, runFor, if_pos h]
  exact runFor_due_le now (now - t.due) 1 { t with due := t.next now } (t.next_le now h)

theorem run_due (t : Ticker) (now : Nat) (hp : 0 < t.period) : now < (t.run now).2.due :=
  runFor_due now _ 0 t hp (by omega)

end Ticker

end SigningGateway
