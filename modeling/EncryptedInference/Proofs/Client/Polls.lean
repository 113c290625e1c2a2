import EncryptedInference.Proofs.Client.PendingWait

/-!
# Following a wait

A wait is followed for a number of polls.  If it comes to an end within them, following it for more
makes no difference (`TimedClient.wait_of_le`, `TimedClient.run_of_le`).  After so many polls it
goes on exactly if so many answers said that the request is pending, and came in time
(`PendingWait.wait_ongoing_iff`); a wait with a bound does not go on for ever
(`PendingWait.IsCalm.le`).
-/

namespace EncryptedInference

variable {σ : Type}

namespace TimedClient

variable {t : Transport σ} {s : TimedClient σ} {policy : PollPolicy} {r : Request}
  {polls more : Nat}

/-! ## More polls -/

theorem waitFrom_of_le {interval due : Nat} {deadline : Option Deadline} (hle : polls ≤ more)
    (h : (waitFrom t interval deadline polls due s).1 ≠ .ongoing) :
    waitFrom t interval deadline more due s = waitFrom t interval deadline polls due s := by
  induction polls generalizing more due s with
  | zero => exact absurd rfl h
  | succ polls ih =>
    obtain ⟨more, rfl⟩ : ∃ k, more = k + 1 := ⟨more - 1, by omega⟩
    unfold waitFrom at h ⊢
    dsimp only at h ⊢
    cases hstrikes : Deadline.strikesBefore deadline (max due s.clock) with
    | some d => rfl
    | none =>
      simp only [hstrikes] at h
      dsimp only
      generalize pollBefore t deadline { s with clock := max due s.clock } = polled at h ⊢
      obtain ⟨_ | _ | _, s'⟩ := polled
      · rfl
      · exact ih (by omega) h
      · rfl

/-- A wait that does not go on after some polls is the same when it is followed for more. -/
theorem wait_of_le {cancel : Option Nat} (hle : polls ≤ more)
    (h : (s.wait t polls policy cancel).1 ≠ .ongoing) :
    s.wait t more policy cancel = s.wait t polls policy cancel := by
  unfold wait at h ⊢
  cases hflight : s.inFlight "wait_for_completion" with
  | error e => rfl
  | ok found =>
    rw [hflight] at h
    dsimp only at h ⊢
    split_ifs at h ⊢ with hinterval
    · rfl
    · exact waitFrom_of_le hle h

/-- A run goes on while it waits for the request that it has submitted. -/
theorem run_ongoing_iff : (s.run t polls policy r).1 = .ongoing ↔
    ∃ id, (s.send t r).1 = .ok id ∧ ((s.send t r).2.wait t polls policy none).1 = .ongoing := by
  unfold run
  generalize s.send t r = sent
  obtain ⟨e | id, s₁⟩ := sent
  · simp
  · dsimp only
    generalize s₁.wait t polls policy none = waited
    obtain ⟨(_ | _) | _ | _, s₂⟩ := waited <;> simp

theorem run_of_le (hle : polls ≤ more) (h : (s.run t polls policy r).1 ≠ .ongoing) :
    s.run t more policy r = s.run t polls policy r := by
  have hwaited : ∀ id, (s.send t r).1 = .ok id →
      (s.send t r).2.wait t more policy none = (s.send t r).2.wait t polls policy none := by
    intro id hid
    exact wait_of_le hle fun hongoing => h (run_ongoing_iff.2 ⟨id, hid, hongoing⟩)
  unfold run
  generalize s.send t r = sent at hwaited
  obtain ⟨e | id, s₁⟩ := sent
  · rfl
  · dsimp only
    rw [hwaited id rfl]

/-! ## Panics -/

/-- The timer panics only if there is no time between two polls. -/
theorem wait_ne_panicked (hinterval : policy.interval ≠ 0) (cancel : Option Nat) :
    (s.wait t polls policy cancel).1 ≠ .panicked := by
  rcases wait_cases t s polls policy cancel with ⟨e, heq, -⟩ | ⟨hzero, -⟩ | ⟨deadline, -, heq⟩
  · rw [heq]
    nofun
  · exact absurd hzero hinterval
  · rw [heq]
    refine waitFrom_elim (I := fun _ => True) (P := fun o => o.1 ≠ .panicked) ?_
      (fun _ _ _ => trivial) (fun _ _ _ _ _ => nofun) (fun _ _ => nofun) _ _ _ trivial
    intro s s' result _ _
    obtain _ | _ | _ := result
    · exact nofun
    · trivial
    · exact nofun

theorem run_ne_panicked (hinterval : policy.interval ≠ 0) :
    (s.run t polls policy r).1 ≠ .panicked := by
  unfold run
  generalize s.send t r = sent
  obtain ⟨e | id, s₁⟩ := sent
  · nofun
  · have hwaited : (s₁.wait t polls policy none).1 ≠ .panicked := wait_ne_panicked hinterval none
    dsimp only
    generalize s₁.wait t polls policy none = waited at hwaited
    obtain ⟨(_ | _) | _ | _, s₂⟩ := waited
    · nofun
    · nofun
    · exact absurd rfl hwaited
    · nofun

end TimedClient

/-! ## Waits that go on -/

namespace PendingWait

open TimedClient

variable {t : Transport σ} {v : PendingWait t} {n : Nat}

/-- After so many polls a wait goes on if so many answers said that the request is pending, and came
before the deadline. -/
theorem wait_ongoing_iff {polls : Nat} :
    (v.wait polls).1 = .ongoing ↔ v.IsCalm v.deadline polls := by
  rcases v.wait_cases polls with ⟨hcalm, hwait⟩ | ⟨n, hn, d, -, hd, hlt, hwait⟩ |
      ⟨n, hn, verdict, client, -, hreport, -, hwait⟩
  · simp [hwait, hcalm]
  · rw [hwait]
    refine ⟨nofun, fun hcalm => ?_⟩
    exact absurd ((hcalm n hn).2 d hd) (Nat.not_le_of_lt hlt)
  · rw [hwait]
    refine ⟨nofun, fun hcalm => ?_⟩
    rw [(hcalm n hn).1] at hreport
    cases hreport

/-- There is at least a millisecond between two polls, so no more of them than there are
milliseconds are answered before a deadline. -/
theorem IsCalm.le {d : Deadline} (h : v.IsCalm (some d) n) :
    n ≤ d.time - v.origin.clock + 1 := by
  cases n with
  | zero => exact Nat.zero_le _
  | succ n =>
    have hstart := v.start_add_le_arrival n
    have harrival : v.times.arrival n ≤ d.time := (h n (Nat.lt_succ_self n)).2 d rfl
    omega

/-- The client that has submitted a request waits for it. -/
theorem exists_of_send {s : TimedClient σ} {r : Request} {id : String} {policy : PollPolicy}
    (h : (s.send t r).1 = .ok id) (hinterval : 0 < policy.interval) (cancel : Option Nat) :
    ∃ v : PendingWait t, v.origin = (s.send t r).2 ∧ v.id = id ∧ v.policy = policy ∧
      v.cancel = cancel := by
  obtain ⟨channel, backend, hlive⟩ := live_of_send h
  exact ⟨⟨(s.send t r).2, ⟨channel, backend, .sent id⟩, id, policy, cancel, hlive, rfl, rfl,
    hinterval⟩, rfl, rfl, rfl, rfl⟩

end PendingWait

end EncryptedInference
