import LoadFleet.Proofs.Procedures
import LoadFleet.Rehearsal
import Mathlib.Data.List.Basic

/-!
# Two runs side by side

Two procedures are parallel if they ask and wait for the same things as long as they are given the
same reports, in whatever order each of them gets these, or the same failures, and end in related
values.  Over scripts that hand out the same reports their runs are the same before they end.
-/

namespace LoadFleet

/-- The same reports in any order. -/
def Request.SameReports : (request : Request) -> request.Answer -> request.Answer -> Prop
  | .startLoad _ _, _, _ => True
  | .startMeasure _ _ _, _, _ => True
  | .reportThroughput _, reports, others => reports.Perm others
  | .reportLatency _, reports, others => reports.Perm others

namespace Procedure

/-!
## Results and procedures that correspond
-/

/-- Two results are related values or the same failure. -/
inductive SameResult (related : α -> β -> Prop) : Except Failure α -> Except Failure β -> Prop
  | ok {value : α} {other : β} (h : related value other) :
      SameResult related (.ok value) (.ok other)
  | error (failure : Failure) : SameResult related (.error failure) (.error failure)

theorem SameResult.cases {related : α -> β -> Prop} {result : Except Failure α}
    {other : Except Failure β} (h : SameResult related result other) :
    (exists failure, result = .error failure ∧ other = .error failure) ∨
      exists value otherValue,
        result = .ok value ∧ other = .ok otherValue ∧ related value otherValue := by
  cases h with
  | ok hvalue => exact .inr ⟨_, _, rfl, rfl, hvalue⟩
  | error failure => exact .inl ⟨failure, rfl, rfl⟩

/-- Two procedures take the same steps, whether requests are answered with the same reports or fail
alike, and end in related values. -/
inductive Parallel (related : α -> β -> Prop) : Procedure α -> Procedure β -> Prop
  | done {value : α} {other : β} (h : related value other) :
      Parallel related (.done value) (.done other)
  | ask (request : Request) {next : Except Failure request.Answer -> Procedure α}
      {otherNext : Except Failure request.Answer -> Procedure β}
      (h : forall given other, SameResult request.SameReports given other ->
        Parallel related (next given) (otherNext other)) :
      Parallel related (.ask request next) (.ask request otherNext)
  | wait (span : Duration) {next : Procedure α} {otherNext : Procedure β}
      (h : Parallel related next otherNext) :
      Parallel related (.wait span next) (.wait span otherNext)

namespace Parallel

/-!
## Steps and sequences
-/

theorem fail {related : α -> β -> Prop} (failure : Failure) :
    Parallel (SameResult related) (.done (.error failure)) (.done (.error failure)) :=
  .done (.error failure)

/-- A request whose failure is handed on, so that only its answers have to be compared. -/
theorem asked {related : α -> β -> Prop} {request : Request}
    {next : Except Failure request.Answer -> Procedure (Except Failure α)}
    {otherNext : Except Failure request.Answer -> Procedure (Except Failure β)}
    (hnext : Passes next) (hother : Passes otherNext)
    (h : forall given other, request.SameReports given other ->
      Parallel (SameResult related) (next (.ok given)) (otherNext (.ok other))) :
    Parallel (SameResult related) (.ask request next) (.ask request otherNext) := by
  refine .ask request ?_
  intro given other hsame
  cases hsame with
  | ok hsame => exact h _ _ hsame
  | error failure =>
      rw [hnext failure, hother failure]
      exact .fail failure

theorem bind {related : α -> β -> Prop} {related' : γ -> δ -> Prop} {p : Procedure α}
    {q : Procedure β} {f : α -> Procedure γ} {g : β -> Procedure δ} (h : Parallel related p q)
    (hnext : forall value other, related value other -> Parallel related' (f value) (g other)) :
    Parallel related' (p.bind f) (q.bind g) := by
  induction h with
  | done hvalue => exact hnext _ _ hvalue
  | ask request _ ih => exact .ask request fun given other hsame => ih given other hsame
  | wait span _ ih => exact .wait span ih

theorem sequence {related : α -> α -> Prop} {related' : β -> β -> Prop}
    {p : Procedure (Except Failure α)} {f : Except Failure α -> Procedure (Except Failure β)}
    (h : Parallel (SameResult related) p p) (hf : Passes f)
    (hnext : forall value other, related value other ->
      Parallel (SameResult related') (f (.ok value)) (f (.ok other))) :
    Parallel (SameResult related') (p.bind f) (p.bind f) := by
  refine h.bind ?_
  intro result other hresult
  cases hresult with
  | ok hvalue => exact hnext _ _ hvalue
  | error failure =>
      rw [hf failure]
      exact .fail failure

theorem each {related : β -> β -> Prop} {f : α -> Procedure (Except Failure β)}
    (h : forall item, Parallel (SameResult related) (f item) (f item)) (items : List α) :
    Parallel (SameResult (List.Forall₂ related)) (Procedure.each f items)
      (Procedure.each f items) := by
  induction items with
  | nil => exact .done (.ok .nil)
  | cons item rest ih =>
      refine (h item).sequence (fun _ => rfl) fun value other hvalue => ?_
      refine ih.bind fun results others hresults => ?_
      cases hresults with
      | ok hvalues => exact .done (.ok (.cons hvalue hvalues))
      | error failure => exact .fail failure

end Parallel

/-!
## Runs
-/

/-- Two runs show the same events and end in related values or the same failure. -/
structure Run.Alike (related : α -> β -> Prop) (r : Run σ α) (r' : Run τ β) : Prop where
  events : r.events = r'.events
  result : SameResult related r.result r'.result

theorem Run.Alike.after {related : α -> β -> Prop} {r : Run σ α} {r' : Run τ β}
    (h : r.Alike related r') (event : Event) :
    (r.after event).Alike related (r'.after event) where
  events := congrArg (event :: ·) h.events
  result := h.result

end Procedure

/-- Two scripts hand out the same reports each time, in any order, and fail at the same request. -/
structure Script.Reordered (s other : Script) : Prop where
  throughput : forall n, (s.throughput n).Perm (other.throughput n)
  latency : forall n, (s.latency n).Perm (other.latency n)
  failing : s.failing = other.failing

namespace Script.Reordered

variable {s other : Script}

theorem failure? (h : s.Reordered other) (index : Nat) :
    s.failure? index = other.failure? index := by
  unfold Script.failure?
  rw [h.failing]

theorem hand (h : s.Reordered other) (p : Progress) (request : Request) :
    request.SameReports (s.hand p request).1 (other.hand p request).1 ∧
      (s.hand p request).2 = (other.hand p request).2 := by
  cases request with
  | startLoad group load => exact ⟨trivial, rfl⟩
  | startMeasure group sampleCount samplingRate => exact ⟨trivial, rfl⟩
  | reportThroughput group => exact ⟨h.throughput p.throughputs, rfl⟩
  | reportLatency group => exact ⟨h.latency p.latencies, rfl⟩

end Script.Reordered

namespace Procedure

theorem Parallel.rehearse {related : α -> β -> Prop} {p : Procedure (Except Failure α)}
    {q : Procedure (Except Failure β)} (h : Parallel (SameResult related) p q) {s other : Script}
    (hscript : s.Reordered other) (progress : Script.Progress) :
    (p.rehearse s progress).Alike related (q.rehearse other progress) := by
  induction h generalizing progress with
  | done hvalue => exact ⟨rfl, hvalue⟩
  | wait span _ ih => exact (ih progress).after (.paused span)
  | ask request _ ih =>
      have hfailure := hscript.failure? progress.requests
      rcases hscript.hand { progress with requests := progress.requests + 1 } request with
        ⟨hsame, hprogress⟩
      simp only [Procedure.rehearse, run, Script.answer, ← hfailure]
      cases s.failure? progress.requests with
      | some failure => exact (ih _ _ (.error failure) _).after (.asked request)
      | none =>
          rw [← hprogress]
          exact (ih _ _ (.ok hsame) _).after (.asked request)

end Procedure
end LoadFleet
