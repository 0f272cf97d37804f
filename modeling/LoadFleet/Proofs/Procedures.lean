import LoadFleet.Procedure

/-!
# Laws of procedures

A sequence of procedures is carried out by carrying out its parts one after the other.  Most parts
may fail, and what follows them is only for their value.  These facts let a run of a long procedure
be read off the runs of its steps.
-/

namespace LoadFleet
namespace Procedure

/-!
## Sequencing
-/

/-- What follows a step hands on its failure, and does nothing else with it. -/
def Passes (next : Except Failure α -> Procedure (Except Failure β)) : Prop :=
  forall failure, next (.error failure) = .done (.error failure)

/-!
## Runs in sequence
-/

/-- A run with earlier events before its own. -/
def Run.afterAll (events : List Event) (r : Run σ α) : Run σ α :=
  { r with events := events ++ r.events }

theorem Run.afterAll_afterAll (first second : List Event) (r : Run σ α) :
    (r.afterAll second).afterAll first = r.afterAll (first ++ second) := by
  simp [Run.afterAll]

/-- A run that goes on where it ended in a value. -/
def Run.andThen (r : Run σ α) (next : α -> σ -> Run σ β) : Run σ β :=
  match r.result with
  | .ok value => (next value r.fleet).afterAll r.events
  | .error failure => ⟨r.events, .error failure, r.fleet⟩

theorem Run.andThen_after (event : Event) (r : Run σ α) (next : α -> σ -> Run σ β) :
    (r.after event).andThen next = (r.andThen next).after event := by
  cases hresult : r.result with
  | ok value => simp [Run.andThen, Run.after, Run.afterAll, hresult]
  | error failure => simp [Run.andThen, Run.after, hresult]

def Run.map (f : α -> β) (r : Run σ α) : Run σ β :=
  ⟨r.events, r.result.map f, r.fleet⟩

theorem Run.map_map (f : α -> β) (g : β -> γ) (r : Run σ α) :
    (r.map f).map g = r.map fun value => g (f value) := by
  rcases r with ⟨events, failure | value, fleet⟩
  · rfl
  · rfl

theorem Run.andThen_done (r : Run σ α) (f : α -> β) :
    (r.andThen fun value fleet => ⟨[], .ok (f value), fleet⟩) = r.map f := by
  rcases r with ⟨events, failure | value, fleet⟩
  · rfl
  · show Run.afterAll events ⟨[], .ok (f value), fleet⟩ = ⟨events, .ok (f value), fleet⟩
    rw [Run.afterAll, List.append_nil]

section

variable {answer : (request : Request) -> σ -> Except Failure request.Answer × σ}

theorem run_bind {p : Procedure (Except Failure α)}
    {f : Except Failure α -> Procedure (Except Failure β)} (hf : Passes f) {fleet : σ} :
    (p.bind f).run answer fleet =
      (p.run answer fleet).andThen fun value fleet => (f (.ok value)).run answer fleet := by
  induction p generalizing fleet with
  | done result =>
      cases result with
      | ok value => rfl
      | error failure =>
          rw [bind, hf failure]
          rfl
  | wait span next ih =>
      simp only [bind, run, Run.andThen_after]
      rw [ih]
  | ask request next ih =>
      simp only [bind, run, Run.andThen_after]
      rw [ih]

/-- What follows a step turns its value into another. -/
theorem run_bind_done {p : Procedure (Except Failure α)} {f : α -> β}
    {next : Except Failure α -> Procedure (Except Failure β)} (hnext : Passes next)
    (hvalue : forall value, next (.ok value) = .done (.ok (f value))) {fleet : σ} :
    (p.bind next).run answer fleet = (p.run answer fleet).map f := by
  rw [run_bind hnext, ← Run.andThen_done]
  congr 1
  funext value after
  rw [hvalue value]
  rfl

end

/-!
## Procedures that stop at a failure
-/

/-- Wherever a request fails, its failure is what the procedure ends in, and at once. -/
inductive Strict : Procedure (Except Failure α) -> Prop
  | done (result : Except Failure α) : Strict (.done result)
  | ask {request : Request} {next : Except Failure request.Answer -> Procedure (Except Failure α)}
      (hnext : Passes next) (h : forall given, Strict (next (.ok given))) :
      Strict (.ask request next)
  | wait {span : Duration} {next : Procedure (Except Failure α)} (h : Strict next) :
      Strict (.wait span next)

namespace Strict

theorem bind {p : Procedure (Except Failure α)}
    {f : Except Failure α -> Procedure (Except Failure β)} (h : Strict p) (hf : Passes f)
    (hnext : forall value, Strict (f (.ok value))) : Strict (p.bind f) := by
  induction h with
  | done result =>
      cases result with
      | ok value => exact hnext value
      | error failure =>
          rw [Procedure.bind, hf failure]
          exact .done (.error failure)
  | @ask request next hpasses _ ih =>
      refine .ask ?_ ih
      intro failure
      show (next (.error failure)).bind f = .done (.error failure)
      rw [hpasses failure, Procedure.bind, hf failure]
  | wait _ ih => exact .wait ih

theorem each {f : α -> Procedure (Except Failure β)} (h : forall item, Strict (f item))
    (items : List α) : Strict (Procedure.each f items) := by
  induction items with
  | nil => exact .done _
  | cons item rest ih =>
      refine (h item).bind (fun _ => rfl) fun value => ?_
      exact ih.bind (fun _ => rfl) fun values => .done _

end Strict

/-!
## Requests among the events
-/

def Event.request? : Event -> Option Request
  | .asked request => some request
  | .paused _ => none

def requests (events : List Event) : List Request :=
  events.filterMap Event.request?

@[simp]
theorem requests_nil : requests [] = [] :=
  rfl

@[simp]
theorem requests_paused (span : Duration) (rest : List Event) :
    requests (.paused span :: rest) = requests rest :=
  rfl

@[simp]
theorem requests_asked (request : Request) (rest : List Event) :
    requests (.asked request :: rest) = request :: requests rest :=
  rfl

end Procedure
end LoadFleet
