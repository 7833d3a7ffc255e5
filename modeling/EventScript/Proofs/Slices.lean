import EventScript.Proofs.Beats

/-!
# Ticks in slices

An owner may hand out its ticks in slices. Where one slice ends has no effect on the game.

* `lead_of_waiting`: while a message waits, no tick is taken, however many there are.
* `ne_running_of_advance`: a tick is never refused for the reason that the ticks are used up.
* `lead_add`: ticks in one go lead to the same director as two slices, of which the second is handed
  out only if the first one was used up, and stop for the same reason.
-/

namespace EventScript.Director

variable {d d' : Director} {stop : Stop}

/-- Leads the game on with more ticks, unless there was a reason to stop before. -/
def leadAfter (stop : Stop) (n : Nat) : Directing Stop :=
  if stop = .running then lead n else return stop

theorem lead_succ_of_stop (h : advance d = .ok (some stop, d')) (n : Nat) :
    lead (n + 1) d = .ok (stop, d') := by
  rw [lead, bind_of_ok h]
  rfl

theorem lead_succ_of_none (h : advance d = .ok (none, d')) (n : Nat) :
    lead (n + 1) d = lead n d' := by
  rw [lead, bind_of_ok h]

theorem lead_of_waiting (h : d.game.message.waiting = true) (n : Nat) :
    lead n d = .ok (.message, d) := by
  have hround : advance d = .ok (some .message, d) := by
    change (if d.game.message.waiting then _ else _ : Directing (Option Stop)) d = _
    rw [if_pos h]
    rfl
  cases n with
  | zero =>
    change Except.ok (if d.game.message.waiting then Stop.message else .running, d) = _
    rw [if_pos h]
  | succ n => exact lead_succ_of_stop hround n

theorem lead_zero (h : d.game.message.waiting = false) : lead 0 d = .ok (.running, d) := by
  change Except.ok (if d.game.message.waiting then Stop.message else .running, d) = _
  rw [h]
  rfl

/-- A scene does not ask for more ticks. -/
theorem ne_running_of_request? {s : Scene} (h : s.request? = some stop) : stop ≠ .running := by
  unfold Scene.request? at h
  repeat' split at h
  all_goals cases h
  all_goals decide

theorem ne_running_of_advance (h : advance d = .ok (some stop, d')) : stop ≠ .running := by
  have hround := advances_of_advance d _ d' h
  generalize hreason : some stop = reason at hround
  cases hround with
  | reads =>
    cases hreason
    decide
  | asks _ _ hasked =>
    cases hreason
    exact ne_running_of_request? hasked
  | fights | ticks =>
    split at hreason
    all_goals cases hreason
    all_goals decide

/-- Slices change nothing. To lead a game on by some ticks at once is to lead it on by a first part
of them and, only if these were used up, by the rest: both leave the same director, stop for the
same reason, or fail in the same way. -/
theorem lead_add (a b : Nat) : lead (a + b) = (do leadAfter (← lead a) b) := by
  funext d
  induction a generalizing d with
  | zero =>
    rw [Nat.zero_add]
    cases hread : d.game.message.waiting with
    | true => rw [lead_of_waiting hread b, bind_of_ok (lead_of_waiting hread 0)]; rfl
    | false => rw [bind_of_ok (lead_zero hread)]; rfl
  | succ a ih =>
    rw [Nat.succ_add]
    cases hround : advance d with
    | error e =>
      have hfails (n : Nat) : lead (n + 1) d = .error e := bind_of_error hround
      rw [hfails, bind_of_error (hfails a)]
    | ok p =>
      obtain ⟨stop?, d₁⟩ := p
      cases stop? with
      | none =>
        have hgoes (f : Stop → Directing Stop) : (lead (a + 1) >>= f) d = (lead a >>= f) d₁ := by
          change Except.bind _ _ = Except.bind _ _
          rw [lead_succ_of_none hround]
        rw [lead_succ_of_none hround, hgoes, ih]
      | some stop =>
        rw [lead_succ_of_stop hround, bind_of_ok (lead_succ_of_stop hround a), leadAfter,
          if_neg (ne_running_of_advance hround)]
        rfl

end EventScript.Director
