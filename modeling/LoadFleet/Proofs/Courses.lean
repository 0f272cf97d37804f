import LoadFleet.Proofs.Procedures
import Mathlib.Data.List.Forall2

/-!
# Courses of procedures

A course lists what a procedure does while all its requests are answered: every request with its
answer, and every pause, in order.  A run over a fleet keeps to a course of its procedure unless a
request fails, so what a procedure can do is read off its courses.
-/

namespace LoadFleet
namespace Procedure

inductive Entry where
  | answered (request : Request) (given : request.Answer)
  | paused (span : Duration)

def Entry.event : Entry -> Event
  | .answered request _ => .asked request
  | .paused span => .paused span

/-- Along these steps the procedure comes to this result. -/
inductive Course : Procedure α -> List Entry -> α -> Prop
  | done (result : α) : Course (.done result) [] result
  | answered {request : Request} {next : Except Failure request.Answer -> Procedure α}
      {entries : List Entry} {result : α} (given : request.Answer)
      (h : Course (next (.ok given)) entries result) :
      Course (.ask request next) (.answered request given :: entries) result
  | paused {span : Duration} {next : Procedure α} {entries : List Entry} {result : α}
      (h : Course next entries result) :
      Course (.wait span next) (.paused span :: entries) result

namespace Course

variable {entries : List Entry}

/-!
## Single steps
-/

theorem of_done {value result : α} (h : Course (.done value) entries result) :
    entries = [] ∧ result = value := by
  cases h
  exact ⟨rfl, rfl⟩

theorem of_ask {request : Request} {next : Except Failure request.Answer -> Procedure α}
    {result : α} (h : Course (.ask request next) entries result) :
    exists given rest,
      entries = .answered request given :: rest ∧ Course (next (.ok given)) rest result := by
  cases h with
  | answered given h => exact ⟨given, _, rfl, h⟩

theorem of_wait {span : Duration} {next : Procedure α} {result : α}
    (h : Course (.wait span next) entries result) :
    exists rest, entries = .paused span :: rest ∧ Course next rest result := by
  cases h with
  | paused h => exact ⟨_, rfl, h⟩

/-!
## Sequences
-/

theorem of_bind {p : Procedure α} {f : α -> Procedure β} {result : β}
    (h : Course (p.bind f) entries result) :
    exists value first rest,
      entries = first ++ rest ∧ Course p first value ∧ Course (f value) rest result := by
  induction p generalizing entries with
  | done value => exact ⟨value, [], entries, rfl, .done value, h⟩
  | wait span next ih =>
      rcases of_wait h with ⟨rest, rfl, hrest⟩
      rcases ih hrest with ⟨value, first, last, rfl, hfirst, hlast⟩
      exact ⟨value, .paused span :: first, last, rfl, .paused hfirst, hlast⟩
  | ask request next ih =>
      rcases of_ask h with ⟨given, rest, rfl, hrest⟩
      rcases ih (.ok given) hrest with ⟨value, first, last, rfl, hfirst, hlast⟩
      exact ⟨value, .answered request given :: first, last, rfl, .answered given hfirst, hlast⟩

/-- A sequence ends in the failure of its first part, or goes on from the value of it. -/
theorem of_sequence {p : Procedure (Except Failure α)}
    {f : Except Failure α -> Procedure (Except Failure β)} {result : Except Failure β}
    (h : Course (p.bind f) entries result) (hf : Passes f) :
    (exists value first rest,
        entries = first ++ rest ∧ Course p first (.ok value) ∧ Course (f (.ok value)) rest result) ∨
      exists failure, Course p entries (.error failure) ∧ result = .error failure := by
  rcases of_bind h with ⟨failure | value, first, rest, rfl, hfirst, hrest⟩
  · rw [hf failure] at hrest
    rcases of_done hrest with ⟨rfl, rfl⟩
    rw [List.append_nil]
    exact .inr ⟨failure, hfirst, rfl⟩
  · exact .inl ⟨value, first, rest, rfl, hfirst, hrest⟩

/-- One procedure for each item goes through a stretch of the course for each value. -/
theorem of_each {f : α -> Procedure (Except Failure β)} {items : List α} {values : List β}
    (h : Course (each f items) entries (.ok values)) :
    exists stretches : List (List Entry),
      entries = stretches.flatten ∧
        List.Forall₂ (fun value stretch => exists item, Course (f item) stretch (.ok value)) values
          stretches := by
  induction items generalizing entries values with
  | nil =>
      rcases of_done h with ⟨rfl, hvalues⟩
      cases hvalues
      exact ⟨[], rfl, .nil⟩
  | cons item rest ih =>
      rcases of_sequence h fun _ => rfl with
        ⟨value, first, others, rfl, hfirst, hothers⟩ | ⟨failure, -, hresult⟩
      · rcases of_sequence hothers fun _ => rfl with
          ⟨values', middle, last, rfl, hmiddle, hlast⟩ | ⟨failure, -, hresult⟩
        · rcases of_done hlast with ⟨rfl, hvalues⟩
          cases hvalues
          rcases ih hmiddle with ⟨stretches, rfl, hstretches⟩
          exact ⟨first :: stretches, by simp, .cons ⟨item, hfirst⟩ hstretches⟩
        · cases hresult
      · cases hresult

/-- One procedure for each item fails in one of them. -/
theorem of_each_error {f : α -> Procedure (Except Failure β)} {items : List α} {failure : Failure}
    (h : Course (each f items) entries (.error failure)) :
    exists item before last,
      item ∈ items ∧ entries = before ++ last ∧ Course (f item) last (.error failure) := by
  induction items generalizing entries with
  | nil => cases h
  | cons item rest ih =>
      -- Either the first item fails, or what follows it does.
      rcases of_sequence h fun _ => rfl with
        ⟨value, first, others, rfl, hfirst, hothers⟩ | ⟨failed, hfailed, hresult⟩
      · rcases of_sequence hothers fun _ => rfl with
          ⟨values, middle, last, rfl, -, hlast⟩ | ⟨failed, hrest, hresult⟩
        · cases hlast
        · cases hresult
          rcases ih hrest with ⟨other, before, last, hmem, rfl, hlast⟩
          exact ⟨other, first ++ before, last, List.mem_cons_of_mem item hmem,
            (List.append_assoc _ _ _).symm, hlast⟩
      · cases hresult
        exact ⟨item, [], entries, List.mem_cons_self, rfl, hfailed⟩

end Course

/-!
## Runs
-/

section

variable (answer : (request : Request) -> σ -> Except Failure request.Answer × σ)

def transcript : Procedure (Except Failure α) -> σ -> List Entry
  | .done _, _ => []
  | .wait span next, fleet => .paused span :: transcript next fleet
  | .ask request next, fleet =>
      match answer request fleet with
      | (.error _, _) => []
      | (.ok given, fleet) => .answered request given :: transcript (next (.ok given)) fleet

/-- A run keeps to a course of its procedure, or ends with the failure of a request. -/
theorem run_course {p : Procedure (Except Failure α)} (hp : Strict p) (fleet : σ) :
    (Course p (p.transcript answer fleet) (p.run answer fleet).result ∧
        (p.transcript answer fleet).map Entry.event = (p.run answer fleet).events) ∨
      exists request before failure after,
        answer request before = (.error failure, after) ∧
          (p.run answer fleet).result = .error failure := by
  induction hp generalizing fleet with
  | done result => exact .inl ⟨.done result, rfl⟩
  | @wait span next _ ih =>
      rcases ih fleet with ⟨hcourse, hevents⟩ | hfailed
      · exact .inl ⟨.paused hcourse, congrArg (Event.paused span :: ·) hevents⟩
      · exact .inr hfailed
  | @ask request next hnext _ ih =>
      simp only [run, transcript]
      rcases hanswer : answer request fleet with ⟨failure | given, rest⟩
      · refine .inr ⟨request, fleet, failure, rest, hanswer, ?_⟩
        rw [hnext failure]
        rfl
      · rcases ih given rest with ⟨hcourse, hevents⟩ | hfailed
        · exact .inl ⟨.answered given hcourse, congrArg (Event.asked request :: ·) hevents⟩
        · exact .inr hfailed

theorem run_course_ok {p : Procedure (Except Failure α)} (hp : Strict p) {fleet : σ} {value : α}
    (h : (p.run answer fleet).result = .ok value) :
    Course p (p.transcript answer fleet) (.ok value) ∧
      (p.transcript answer fleet).map Entry.event = (p.run answer fleet).events := by
  rcases run_course answer hp fleet with hcourse | ⟨request, before, failure, after, -, hresult⟩
  · rw [h] at hcourse
    exact hcourse
  · rw [h] at hresult
    cases hresult

/-- A failure that no request fails with comes from the procedure. -/
theorem run_course_error {p : Procedure (Except Failure α)} (hp : Strict p) {fleet : σ}
    {failure : Failure} (h : (p.run answer fleet).result = .error failure)
    (hanswer : forall request before after, answer request before ≠ (.error failure, after)) :
    Course p (p.transcript answer fleet) (.error failure) ∧
      (p.transcript answer fleet).map Entry.event = (p.run answer fleet).events := by
  rcases run_course answer hp fleet with hcourse | ⟨request, before, other, after, hfails, hresult⟩
  · rw [h] at hcourse
    exact hcourse
  · rw [h] at hresult
    cases hresult
    exact absurd hfails (hanswer request before after)

end

end Procedure
end LoadFleet
