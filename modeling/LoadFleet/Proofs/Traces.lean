import LoadFleet.Proofs.Procedures

/-!
# What may come after what

A rule says which event may come after which earlier ones.  Over any fleet, a run of a procedure
that keeps a rule shows no event out of place, wherever the run ends.
-/

namespace LoadFleet
namespace Procedure

/-- After a past, every event is allowed after all that come before it. -/
def Orderly (allowed : List Event -> Event -> Prop) (past events : List Event) : Prop :=
  forall before event after, events = before ++ event :: after -> allowed (past ++ before) event

/-- Every step is allowed after all events before it, also behind a request that has failed, and so
is the value at the end. -/
inductive Keeps (allowed : List Event -> Event -> Prop) (post : α -> List Event -> Prop) :
    Procedure (Except Failure α) -> List Event -> Prop
  | done {value : α} {past : List Event} (h : post value past) :
      Keeps allowed post (.done (.ok value)) past
  | fail (failure : Failure) (past : List Event) :
      Keeps allowed post (.done (.error failure)) past
  | ask {request : Request} {next : Except Failure request.Answer -> Procedure (Except Failure α)}
      {past : List Event} (hallowed : allowed past (.asked request))
      (h : forall given, Keeps allowed post (next given) (past ++ [.asked request])) :
      Keeps allowed post (.ask request next) past
  | wait {span : Duration} {next : Procedure (Except Failure α)} {past : List Event}
      (hallowed : allowed past (.paused span))
      (h : Keeps allowed post next (past ++ [.paused span])) :
      Keeps allowed post (.wait span next) past

namespace Keeps

variable {allowed : List Event -> Event -> Prop} {past : List Event}

/-!
## Steps and sequences
-/

/-- A request whose failure is handed on, so that only its answers have to be followed. -/
theorem asked {post : α -> List Event -> Prop} {request : Request}
    {next : Except Failure request.Answer -> Procedure (Except Failure α)}
    (hallowed : allowed past (.asked request)) (hnext : Passes next)
    (h : forall given, Keeps allowed post (next (.ok given)) (past ++ [.asked request])) :
    Keeps allowed post (.ask request next) past := by
  refine .ask hallowed ?_
  intro given
  cases given with
  | error failure =>
      rw [hnext failure]
      exact .fail failure _
  | ok given => exact h given

theorem bind {mid : α -> List Event -> Prop} {post : β -> List Event -> Prop}
    {p : Procedure (Except Failure α)} {f : Except Failure α -> Procedure (Except Failure β)}
    (h : Keeps allowed mid p past) (hf : Passes f)
    (hnext : forall value now, mid value now -> Keeps allowed post (f (.ok value)) now) :
    Keeps allowed post (p.bind f) past := by
  induction h with
  | done hvalue => exact hnext _ _ hvalue
  | fail failure past =>
      rw [Procedure.bind, hf failure]
      exact .fail failure past
  | ask hallowed _ ih => exact .ask hallowed ih
  | wait hallowed _ ih => exact .wait hallowed ih

theorem mono {post post' : α -> List Event -> Prop} {p : Procedure (Except Failure α)}
    (h : Keeps allowed post p past) (hpost : forall value now, post value now -> post' value now) :
    Keeps allowed post' p past := by
  induction h with
  | done hvalue => exact .done (hpost _ _ hvalue)
  | fail failure past => exact .fail failure past
  | ask hallowed _ ih => exact .ask hallowed ih
  | wait hallowed _ ih => exact .wait hallowed ih

theorem weaken {allowed' : List Event -> Event -> Prop} {post : α -> List Event -> Prop}
    {p : Procedure (Except Failure α)} (h : Keeps allowed post p past)
    (hallowed : forall past event, allowed past event -> allowed' past event) :
    Keeps allowed' post p past := by
  induction h with
  | done hvalue => exact .done hvalue
  | fail failure past => exact .fail failure past
  | ask hask _ ih => exact .ask (hallowed _ _ hask) ih
  | wait hwait _ ih => exact .wait (hallowed _ _ hwait) ih

/-- What every item of a list leaves as it finds it is so after all of them. -/
theorem each_of_mem {invariant : List Event -> Prop} {f : α -> Procedure (Except Failure β)}
    {items : List α}
    (h : forall item, item ∈ items -> forall now, invariant now ->
      Keeps allowed (fun _ => invariant) (f item) now) (hpast : invariant past) :
    Keeps allowed (fun _ => invariant) (Procedure.each f items) past := by
  induction items generalizing past with
  | nil => exact .done hpast
  | cons item rest ih =>
      refine (h item List.mem_cons_self past hpast).bind (fun _ => rfl) ?_
      intro value now hnow
      refine (ih (fun other hother => h other (List.mem_cons_of_mem item hother)) hnow).bind
        (fun _ => rfl) ?_
      intro values last hlast
      exact .done hlast

theorem each {invariant : List Event -> Prop} {f : α -> Procedure (Except Failure β)}
    (h : forall item now, invariant now -> Keeps allowed (fun _ => invariant) (f item) now)
    (items : List α) (hpast : invariant past) :
    Keeps allowed (fun _ => invariant) (Procedure.each f items) past :=
  each_of_mem (fun item _ => h item) hpast

/-!
## Runs
-/

theorem orderly_nil : Orderly allowed past [] := by
  intro before event after hsplit
  cases before <;> cases hsplit

theorem orderly_cons {event : Event} {rest : List Event} (hevent : allowed past event)
    (hrest : Orderly allowed (past ++ [event]) rest) : Orderly allowed past (event :: rest) := by
  intro before next after hsplit
  cases before with
  | nil =>
      rcases List.cons.inj hsplit with ⟨rfl, -⟩
      rw [List.append_nil]
      exact hevent
  | cons first before =>
      rw [List.cons_append] at hsplit
      rcases List.cons.inj hsplit with ⟨rfl, htail⟩
      have hnext := hrest before next after htail
      rw [List.append_assoc] at hnext
      exact hnext

/-- Whatever the fleet answers, and wherever the run ends. -/
theorem orderly {post : α -> List Event -> Prop} {p : Procedure (Except Failure α)}
    (h : Keeps allowed post p past)
    (answer : (request : Request) -> σ -> Except Failure request.Answer × σ) (fleet : σ) :
    Orderly allowed past (p.run answer fleet).events := by
  induction h generalizing fleet with
  | done _ => exact orderly_nil
  | fail _ _ => exact orderly_nil
  | wait hallowed _ ih => exact orderly_cons hallowed (ih fleet)
  | ask hallowed _ ih => exact orderly_cons hallowed (ih _ _)

end Keeps
end Procedure
end LoadFleet
