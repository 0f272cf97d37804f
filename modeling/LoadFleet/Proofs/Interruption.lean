import LoadFleet.Proofs.FailingRequests
import LoadFleet.Rehearsal

/-!
# A failing request ends a run

A rehearsal in which one request is to fail is compared with the rehearsal of the same script
without a failure.  Up to the failing request both do the same.  There a procedure that hands
failures on ends with the injected failure, and whatever the undisturbed run does afterwards does
not happen.
-/

namespace LoadFleet

namespace Script

/-!
## Scripts with and without a failure
-/

def undisturbed (s : Script) : Script := { s with failing := none }

def failingAt (s : Script) (n : Nat) (failure : Failure) : Script :=
  { s with failing := some (n, failure) }

theorem answer_undisturbed (s : Script) (request : Request) (p : Progress) :
    s.undisturbed.answer request p =
      (.ok (s.hand { p with requests := p.requests + 1 } request).1,
        (s.hand { p with requests := p.requests + 1 } request).2) := by
  cases request <;> rfl

theorem answer_failingAt_here (s : Script) (failure : Failure) (request : Request)
    (p : Progress) :
    (s.failingAt p.requests failure).answer request p =
      (.error failure, { p with requests := p.requests + 1 }) := by
  simp [answer, failingAt, failure?]

theorem answer_failingAt_later (s : Script) (failure : Failure) (request : Request)
    (p : Progress) (n : Nat) :
    (s.failingAt (p.requests + (n + 1)) failure).answer request p =
      s.undisturbed.answer request p := by
  cases request <;> simp [answer, failingAt, undisturbed, failure?, hand]

theorem hand_requests (s : Script) (p : Progress) (request : Request) :
    (s.hand p request).2.requests = p.requests := by
  cases request <;> rfl

end Script

namespace Procedure

/-!
## Runs cut at a request
-/

/-- How a run without a failure and a run whose request with index `n` fails compare. -/
structure Run.CutAt (n : Nat) (failure : Failure) (calm cut : Run σ α) : Prop where
  /-- If the request is made, the run ends with it. -/
  reached : n < (requests calm.events).length ->
    exists before request after,
      calm.events = before ++ .asked request :: after ∧
      (requests before).length = n ∧
      cut.events = before ++ [.asked request] ∧
      cut.result = .error failure
  /-- If it is not made, nothing changes. -/
  missed : (requests calm.events).length ≤ n ->
    cut.events = calm.events ∧ cut.result = calm.result

theorem Run.cutAt_same_of_no_requests {n : Nat} {failure : Failure} {r : Run σ α}
    (hnone : requests r.events = []) :
    Run.CutAt n failure r r where
  reached := by
    intro hlt
    rw [hnone] at hlt
    exact absurd hlt (Nat.not_lt_zero n)
  missed := by
    intro _
    exact ⟨rfl, rfl⟩

theorem Run.CutAt.after_paused {n : Nat} {failure : Failure} {calm cut : Run σ α}
    (h : Run.CutAt n failure calm cut) (span : Duration) :
    Run.CutAt n failure (calm.after (.paused span)) (cut.after (.paused span)) where
  reached := by
    intro hlt
    rcases h.reached hlt with ⟨before, request, after, hcalm, hcount, hcut, hresult⟩
    refine ⟨.paused span :: before, request, after, ?_, hcount, ?_, hresult⟩
    · simp [Run.after, hcalm]
    · simp [Run.after, hcut]
  missed := by
    intro hle
    rcases h.missed hle with ⟨hevents, hresult⟩
    exact ⟨congrArg (Event.paused span :: ·) hevents, hresult⟩

theorem Run.CutAt.after_asked {n : Nat} {failure : Failure} {calm cut : Run σ α}
    (h : Run.CutAt n failure calm cut) (request : Request) :
    Run.CutAt (n + 1) failure (calm.after (.asked request)) (cut.after (.asked request)) where
  reached := by
    intro hlt
    have hlt' : n < (requests calm.events).length := Nat.lt_of_succ_lt_succ hlt
    rcases h.reached hlt' with ⟨before, failed, after, hcalm, hcount, hcut, hresult⟩
    refine ⟨.asked request :: before, failed, after, ?_, ?_, ?_, hresult⟩
    · simp [Run.after, hcalm]
    · simp [hcount]
    · simp [Run.after, hcut]
  missed := by
    intro hle
    have hle' : (requests calm.events).length ≤ n := Nat.le_of_succ_le_succ hle
    rcases h.missed hle' with ⟨hevents, hresult⟩
    exact ⟨congrArg (Event.asked request :: ·) hevents, hresult⟩

theorem Run.cutAt_zero (failure : Failure) (request : Request) (calm : Run σ α) (fleet : σ) :
    Run.CutAt 0 failure (calm.after (.asked request))
      (Run.after (.asked request) ⟨[], .error failure, fleet⟩) where
  reached := by
    intro _
    exact ⟨[], request, calm.events, rfl, rfl, rfl, rfl⟩
  missed := by
    intro hle
    exact absurd hle (Nat.not_succ_le_zero _)

/-!
## Rehearsals

The induction follows the steps of the procedure; the index of the failing request is counted from
the requests that were made before.
-/

theorem rehearse_cutAt (s : Script) (failure : Failure) {p : Procedure (Except Failure α)}
    (hp : Strict p) (n : Nat) (progress : Script.Progress) :
    Run.CutAt n failure (p.rehearse s.undisturbed progress)
      (p.rehearse (s.failingAt (progress.requests + n) failure) progress) := by
  induction hp generalizing n progress with
  | done result => exact Run.cutAt_same_of_no_requests rfl
  | @wait span next _ ih => exact (ih n progress).after_paused span
  | @ask request next hnext _ ih =>
      simp only [rehearse, run, Script.answer_undisturbed]
      cases n with
      | zero =>
          simp only [Nat.add_zero, Script.answer_failingAt_here]
          rw [hnext failure]
          exact Run.cutAt_zero failure request _ _
      | succ n =>
          simp only [Script.answer_failingAt_later, Script.answer_undisturbed]
          apply Run.CutAt.after_asked
          have hrest := ih (s.hand { progress with requests := progress.requests + 1 } request).1 n
            (s.hand { progress with requests := progress.requests + 1 } request).2
          rw [Script.hand_requests, show progress.requests + 1 + n = progress.requests + (n + 1) by
            omega] at hrest
          exact hrest

end Procedure

/-!
## Load patterns
-/

/-- Of any load pattern, with any agents and settings and from any point of a script, the request
with index `n` ends the run when it fails: nothing is asked or waited for after it, what came before
is as without the failure, and no point is returned.  A failure that is never reached changes
nothing. -/
theorem Pattern.failing_request_ends_run (p : Pattern) (count : Group -> Nat)
    (settings : MeasurementSettings) (s : Script) (progress : Script.Progress)
    (n : Nat) (failure : Failure) :
    Procedure.Run.CutAt n failure
      ((p.procedure count settings).rehearse s.undisturbed progress)
      ((p.procedure count settings).rehearse
        (s.failingAt (progress.requests + n) failure) progress) :=
  Procedure.rehearse_cutAt s failure (p.strict_procedure count settings) n progress

end LoadFleet
