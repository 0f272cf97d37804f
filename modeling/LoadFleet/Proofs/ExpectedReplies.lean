import LoadFleet.Machine.Staged
import LoadFleet.Proofs.DescribedFleets

/-!
# Replies of the expected kind

Over a medium that reads from every connection it is given and joins the reads lawfully, an
operation on a fleet that reads and succeeds has brought in one reply of the expected kind for each
link.  No operation and no run ends in a failure of the coordinator's own making.
-/

namespace LoadFleet

/-!
## Failures of the coordinator's own making
-/

/-- Failures that say nothing of an agent: a command does not fit its frame, or a reply that was
accepted is of another kind than expected. -/
inductive Failure.Internal : Failure -> Prop
  | encode (fault : WireFault) : Internal (.protocol (.encode fault))
  | replyKind (fault : WireFault) : Internal (.protocol (.replyKind fault))

inductive Failure.Concluding : Failure -> Prop
  | config (fault : ConfigFault) : Concluding (.config fault)
  | experiment (fault : ExperimentFault) : Concluding (.experiment fault)

theorem Failure.not_internal {failure : Failure} (h : failure.OfAgent ∨ failure.Concluding) :
    ¬ failure.Internal := by
  intro hinternal
  cases hinternal <;> exact h.elim nofun nofun

theorem Always.mono {property other : α -> Prop} {act : StateM W α} (h : Always property act)
    (hother : forall value, property value -> other value) : Always other act :=
  fun world => hother _ (h world)

/-!
## Links
-/

/-- A medium that brings in one reading of every connection. -/
def Medium.ReadsEach (medium : Medium (StateM W) κ) : Prop :=
  forall connections limit deadline world,
    ((medium.readEach connections limit deadline).run world).1.length = connections.length

namespace Link

def OneEach (kind : ReplyKind) (count : Nat) (replies : List Reply) : Prop :=
  replies.length = count ∧ OfKind kind replies

theorem Kept.length_eq {links after : List (Link κ)} (h : Kept links after) :
    after.length = links.length := by
  have hlength := congrArg List.length h
  rw [List.length_map, List.length_map] at hlength
  exact hlength

theorem kept_zipWith {readings : List (Heard × κ)} {links : List (Link κ)}
    (hlength : readings.length = links.length) :
    Kept links (links.zipWith (fun link reading => { link with connection := reading.2 })
      readings) := by
  induction links generalizing readings with
  | nil => rfl
  | cons link rest ih =>
      cases readings with
      | nil => cases hlength
      | cons reading others => exact congrArg (link.entry :: ·) (ih (Nat.succ.inj hlength))

section

variable {medium : Medium (StateM W) κ}

theorem oneEach_readReplies (hmedium : medium.ReadsEach) (hjoin : LawfulJoin medium.join)
    (kind : ReplyKind) (limit : Nat) (deadline : Duration) (links : List (Link κ)) :
    Always (fun heard => Sound (OneEach kind links.length) heard.1 ∧ Kept links heard.2)
      (readReplies medium kind limit deadline links) := by
  have hread : Always (fun readings => readings.length = links.length)
      (medium.readEach (links.map connection) limit deadline) := by
    intro world
    rw [hmedium, List.length_map]
  refine hread.bind ?_
  intro readings hlength
  have hheard : (links.zip (readings.map Prod.fst)).length = links.length := by
    rw [List.length_zip, List.length_map, hlength, Nat.min_self]
  rw [← hheard]
  exact always_pure ⟨sound_join hjoin kind deadline _, kept_zipWith hlength⟩

theorem oneEach_exchange (hmedium : medium.ReadsEach) (hjoin : LawfulJoin medium.join)
    (command : Command) (links : List (Link κ)) :
    Always (fun exchanged => Sound (OneEach command.replyKind links.length) exchanged.1 ∧
      Kept links exchanged.2) (exchange medium command links) := by
  apply always_exchange
  · intro hnone
    rw [hnone]
    exact ⟨⟨rfl, nofun⟩, rfl⟩
  · intro failure after hfailure hkept
    exact ⟨hfailure, hkept⟩
  · intro after hkept
    have hcollect := oneEach_readReplies hmedium hjoin command.replyKind
      command.replyKind.bufferLength command.replyKind.deadline after
    rw [hkept.length_eq] at hcollect
    exact hcollect.mono fun collected h => ⟨h.left, h.right.trans hkept⟩

/-- Reads from the link at an index of several, where there is one. -/
def readAt (medium : Medium (StateM W) κ) (index : Nat) (kind : ReplyKind) (limit : Nat)
    (deadline : Duration) (links : List (Link κ)) :
    StateM W (Except Failure (List Reply) × List (Link κ)) := do
  let (replies, heard) ← readReplies medium kind limit deadline ((links.drop index).take 1)
  return (replies, links.take index ++ heard ++ links.drop (index + 1))

theorem kept_around {links heard : List (Link κ)} (index : Nat)
    (h : Kept ((links.drop index).take 1) heard) :
    Kept links (links.take index ++ heard ++ links.drop (index + 1)) := by
  have hsplit : links.take index ++ (links.drop index).take 1 ++ links.drop (index + 1) =
      links := by
    rw [List.append_assoc, ← List.drop_drop, List.take_append_drop, List.take_append_drop]
  unfold Kept
  rw [List.map_append, List.map_append, h, ← List.map_append, ← List.map_append, hsplit]

theorem oneEach_readAt (hmedium : medium.ReadsEach) (hjoin : LawfulJoin medium.join) (index : Nat)
    (kind : ReplyKind) (limit : Nat) (deadline : Duration) (links : List (Link κ)) :
    Always (fun heard => Sound (OneEach kind (min 1 (links.length - index))) heard.1 ∧
      Kept links heard.2)
      (readAt medium index kind limit deadline links) := by
  refine (oneEach_readReplies hmedium hjoin kind limit deadline _).bind ?_
  intro heard hheard
  rw [List.length_take, List.length_drop] at hheard
  exact always_pure ⟨hheard.left, kept_around index hheard.right⟩

end
end Link

/-!
## Fleets
-/

namespace Fleet

theorem kept_replace (group : Group) {fleet : Fleet κ} {others : List (Link κ)}
    (h : Link.Kept (fleet.select group) others) : Link.Kept fleet (fleet.replace group others) := by
  induction fleet generalizing others with
  | nil => rfl
  | cons link rest ih =>
      -- A link of the group takes the next of the others, any other link stays as it is.
      by_cases hin : group.contains link.role = true
      · have hselect : Fleet.select group (link :: rest) = link :: Fleet.select group rest :=
          List.filter_cons_of_pos hin
        rw [hselect] at h
        cases others with
        | nil => cases h
        | cons other others =>
            rcases List.cons.inj h with ⟨hlink, hrest⟩
            rw [replace_cons_in hin]
            exact congrArg₂ List.cons hlink (ih hrest)
      · have hselect : Fleet.select group (link :: rest) = Fleet.select group rest :=
          List.filter_cons_of_neg hin
        rw [hselect] at h
        rw [replace_cons_out hin]
        exact congrArg (link.entry :: ·) (ih h)

theorem count_of_kept {fleet after : Fleet κ} (h : Link.Kept fleet after) :
    after.count = fleet.count := by
  funext group
  rw [count_eq_length, count_eq_length, h]

/-- What the links of a group give, and what is left behind: the fleet, and the world the medium is
in. -/
def onGroupIn (group : Group) (act : List (Link κ) -> StateM W (α × List (Link κ)))
    (state : Fleet κ × W) : α × Fleet κ × W :=
  let acted := (state.1.onGroup group act).run state.2
  (acted.1.1, acted.1.2, acted.2)

theorem kept_onGroupIn {group : Group} {act : List (Link κ) -> StateM W (α × List (Link κ))}
    {state : Fleet κ × W} {property : α -> Prop}
    (h : Always (fun acted => property acted.1 ∧ Link.Kept (state.1.select group) acted.2)
      (act (state.1.select group))) :
    property (onGroupIn group act state).1 ∧ Link.Kept state.1 (onGroupIn group act state).2.1 :=
  ⟨(h state.2).left, kept_replace group (h state.2).right⟩

def repliesIn (medium : Medium (StateM W) κ) (request : Request) (state : Fleet κ × W) :
    Except Failure (List Reply) :=
  (onGroupIn request.group (Link.exchange medium (command request)) state).1

end Fleet

/-!
## Operations
-/

/-- What can be done with a fleet: a request, half of one, or a read from one link of a group. -/
inductive Operation where
  | ask (request : Request)
  | broadcast (group : Group) (command : Command)
  | collect (group : Group) (kind : ReplyKind) (deadline : Duration)
  | read (group : Group) (index : Nat) (kind : ReplyKind) (limit : Nat) (deadline : Duration)

namespace Operation

def Result : Operation -> Type
  | .ask request => request.Answer
  | .broadcast _ _ => Unit
  | .collect _ _ _ => List Reply
  | .read _ _ _ _ _ => List Reply

def performIn (medium : Medium (StateM W) κ) :
    (operation : Operation) -> Fleet κ × W -> Except Failure operation.Result × Fleet κ × W
  | .ask request => Fleet.answerIn medium request
  | .broadcast group command => Fleet.onGroupIn group (Link.broadcast medium command)
  | .collect group kind deadline => Fleet.onGroupIn group (Link.collect medium kind deadline)
  | .read group index kind limit deadline =>
      Fleet.onGroupIn group (Link.readAt medium index kind limit deadline)

/-- What operations leave behind that are performed one after the other, whatever they give. -/
def performAllIn (medium : Medium (StateM W) κ) (operations : List Operation)
    (state : Fleet κ × W) : Fleet κ × W :=
  operations.foldl (fun state operation => (operation.performIn medium state).2) state

/-- The result of an operation on a fleet with these counts of links is made of one reply of the
expected kind for each link that is read from. -/
def Fulfilled (medium : Medium (StateM W) κ) (count : Group -> Nat) (state : Fleet κ × W) :
    (operation : Operation) -> operation.Result -> Prop
  | .ask request, given =>
      exists replies, Fleet.repliesIn medium request state = .ok replies ∧
        Link.OneEach (Fleet.command request).replyKind (count request.group) replies ∧
        request.Carries given replies
  | .broadcast _ _, _ => True
  | .collect group kind _, replies => Link.OneEach kind (count group) replies
  | .read group index kind _ _, replies => Link.OneEach kind (min 1 (count group - index)) replies

section

variable {medium : Medium (StateM W) κ}

theorem fulfilled_ask (hmedium : medium.ReadsEach) (hjoin : LawfulJoin medium.join)
    (request : Request) (state : Fleet κ × W) :
    Sound (Fulfilled medium state.1.count state (.ask request))
        (Fleet.answerIn medium request state).1 ∧
      Link.Kept state.1 (Fleet.answerIn medium request state).2.1 := by
  have hexchange := Fleet.kept_onGroupIn (Link.oneEach_exchange hmedium hjoin
    (Fleet.command request) (state.1.select request.group))
  have hreplies : Sound
      (Link.OneEach (Fleet.command request).replyKind (state.1.count request.group))
      (Fleet.repliesIn medium request state) := hexchange.left
  have hanswer := Fleet.sound_answerOf (hreplies.mono fun replies h => h.right)
  refine ⟨hanswer.mono ?_, hexchange.right⟩
  intro given hgiven
  rcases hgiven with ⟨replies, hresult, hcarries⟩
  exact ⟨replies, hresult, hreplies.of_ok hresult, hcarries⟩

theorem fulfilled_performIn (hmedium : medium.ReadsEach) (hjoin : LawfulJoin medium.join)
    (operation : Operation) (state : Fleet κ × W) :
    Sound (operation.Fulfilled medium state.1.count state) (operation.performIn medium state).1 ∧
      Link.Kept state.1 (operation.performIn medium state).2.1 := by
  cases operation with
  | ask request => exact fulfilled_ask hmedium hjoin request state
  | broadcast group command =>
      exact Fleet.kept_onGroupIn (Link.sound_broadcast medium command _)
  | collect group kind deadline =>
      exact Fleet.kept_onGroupIn
        (Link.oneEach_readReplies hmedium hjoin kind kind.bufferLength deadline _)
  | read group index kind limit deadline =>
      exact Fleet.kept_onGroupIn (Link.oneEach_readAt hmedium hjoin index kind limit deadline _)

theorem kept_performAllIn (hmedium : medium.ReadsEach) (hjoin : LawfulJoin medium.join)
    (operations : List Operation) (state : Fleet κ × W) :
    Link.Kept state.1 (performAllIn medium operations state).1 := by
  induction operations generalizing state with
  | nil => rfl
  | cons operation rest ih =>
      exact (ih (operation.performIn medium state).2).trans
        (fulfilled_performIn hmedium hjoin operation state).right

end
end Operation

/-!
## Runs
-/

namespace Measurement

open Procedure (Entry Course)

variable {entries : List Entry} {failure : Failure}

theorem concluding_symmetric {agents : Nat} {rate : UInt32} {tuning : Tuning}
    (h : Course (symmetric agents rate tuning) entries (.error failure)) :
    failure.Concluding := by
  rcases course_symmetric h with ⟨waited, reports, -, -, hok⟩ | ⟨fault, -, -, hfailed⟩
  · cases hok
  · cases hfailed
    exact .config fault

theorem concluding_asymmetric {agents : Nat} {loadRate latencyRate : UInt32} {tuning : Tuning}
    (h : Course (asymmetric agents loadRate latencyRate tuning) entries (.error failure)) :
    failure.Concluding := by
  rcases course_asymmetric h with ⟨waited, _, _, -, -, hok⟩ | ⟨fault, -, -, hfailed⟩
  · cases hok
  · cases hfailed
    exact .config fault

theorem concluding_fixed {agents : Nat} {rate : UInt32} {widestMicros : UInt64}
    {maxTries : UInt32} (hagents : agents ≠ 0)
    (h : Course (fixed agents rate widestMicros maxTries .initial) entries (.error failure)) :
    failure.Concluding := by
  rcases course_fixed h with ⟨rest, -, htries⟩
  have hlasting := FixedSetting.lasting_reachable (s := ⟨agents, rate, widestMicros⟩) hagents
  cases FixedSetting.course_attempts hlasting htries FixedSetting.reachable_initial with
  | refused => exact .config _
  | usedUp => exact .experiment _

end Measurement

namespace Pattern

open Procedure (Entry Course)
open Measurement

variable {count : Group -> Nat} {settings : MeasurementSettings}

/-- A pattern ends by itself only where its configuration cannot be measured or its tries are used
up. -/
theorem concluding_of_course {p : Pattern} {entries : List Entry} {failure : Failure}
    (h : Course (p.procedure count settings) entries (.error failure)) : failure.Concluding := by
  rcases course_procedure h with
    ⟨points, -, -, hok⟩ | ⟨failed, hagents, hpoints, hfailed⟩ | ⟨fault, -, -, hfailed⟩
  · cases hok
  · cases hfailed
    cases p with
    | fixed rate =>
        exact concluding_fixed (symmetric_of_ensured_fixed hagents) (error_of_single hpoints)
    | step start stop stride =>
        rcases Course.of_each_error hpoints with ⟨load, before, last, -, -, hlast⟩
        exact concluding_asymmetric hlast
    | test rate samples =>
        by_cases hsymmetric : 0 < count .symmetric
        · rw [points_test_symmetric hsymmetric] at hpoints
          exact concluding_symmetric (error_of_single hpoints)
        · rw [points_test_asymmetric hsymmetric] at hpoints
          exact concluding_asymmetric (error_of_single hpoints)
    | corr rate samples =>
        rcases Course.of_each_error hpoints with ⟨samplingRate, before, last, -, -, hlast⟩
        exact concluding_symmetric hlast
  · cases hfailed
    exact .config fault

/-- A run fails because of an agent, or where its pattern ends by itself. -/
theorem failure_of_run {p : Pattern} {medium : Medium (StateM W) κ} {state : Fleet κ × W}
    {failure : Failure} (hjoin : LawfulJoin medium.join)
    (h : ((p.procedure count settings).run (Fleet.answerIn medium) state).result =
      .error failure) : failure.OfAgent ∨ failure.Concluding := by
  -- Either the run keeps to a course of the pattern, or the answer to a request has failed.
  rcases Procedure.run_course (Fleet.answerIn medium) (p.strict_procedure count settings) state with
    ⟨hcourse, -⟩ | ⟨request, before, failed, after, hanswer, hresult⟩
  · rw [h] at hcourse
    exact .inr (concluding_of_course hcourse)
  · rw [h] at hresult
    cases hresult
    exact .inl (Fleet.answerIn_ofAgent hjoin hanswer)

end Pattern

/-!
## Sequences of operations
-/

/-- Bytes are never decoded as a reply of another kind than expected, and every command can be
encoded.  An operation on a fleet fails only because of an agent, after whatever operations it
comes, and a run only because of an agent or where its pattern ends by itself, so neither ends in a
failure of the coordinator's own making.  An operation that reads and succeeds has brought in one
reply of the expected kind for each link, and its result is made of these. -/
theorem Fleet.replies_as_expected :
    (forall kind bytes r, Reply.decode kind bytes = .ok r -> r.kind = kind) ∧
    (forall c : Command, exists bytes, c.encode = .ok bytes) ∧
    forall (κ W : Type) (medium : Medium (StateM W) κ), medium.ReadsEach ->
      LawfulJoin medium.join -> forall (fleet : Fleet κ) (world : W),
        (forall (before : List Operation) (operation : Operation),
          let now := Operation.performAllIn medium before (fleet, world)
          let performed := (operation.performIn medium now).1
          (forall failure, performed = .error failure -> failure.OfAgent ∧ ¬ failure.Internal) ∧
          forall result, performed = .ok result ->
            operation.Fulfilled medium fleet.count now result) ∧
        forall (p : Pattern) (settings : MeasurementSettings) failure,
          ((p.procedure fleet.count settings).run (Fleet.answerIn medium)
            (fleet, world)).result = .error failure ->
          (failure.OfAgent ∨ failure.Concluding) ∧ ¬ failure.Internal := by
  refine ⟨fun _ _ _ => Reply.kind_of_decode, fun c => ⟨c.frame, c.encode_eq⟩, ?_⟩
  intro κ W medium hmedium hjoin fleet world
  constructor
  · intro before operation now performed
    have hkept := Operation.kept_performAllIn hmedium hjoin before (fleet, world)
    have hsound := (Operation.fulfilled_performIn hmedium hjoin operation now).left
    rw [count_of_kept hkept] at hsound
    constructor
    · intro failure hfailed
      have hagent := hsound.of_error hfailed
      exact ⟨hagent, Failure.not_internal (.inl hagent)⟩
    · intro result hresult
      exact hsound.of_ok hresult
  · intro p settings failure hfailed
    have hwhy := Pattern.failure_of_run hjoin hfailed
    exact ⟨hwhy, Failure.not_internal hwhy⟩

/-!
## Staged agents
-/

theorem Stage.length_readEach (limit : Nat) (indices : List Nat) (s : StageState) :
    (Stage.readEach limit indices s).1.length = indices.length := by
  induction indices generalizing s with
  | nil => rfl
  | cons index rest ih => exact congrArg Nat.succ (ih _)

theorem Stage.readsEach_medium (stage : Stage) : stage.machine.medium.ReadsEach :=
  fun indices limit _ world => Stage.length_readEach limit indices world

def Stage.bare : Stage where
  directory := []
  environment := []
  missing := []
  exit _ := .code 0
  sessionExit := none

/-- The report of an agent that received this many requests. -/
def ThroughputReport.counting (requests : UInt64) : ThroughputReport :=
  ⟨⟨0, 0, requests, 0⟩, none⟩

/-- Two agents that report their throughput when they are asked for it, and the first of them also
when it is told to start its load. -/
def StageState.hasty : StageState :=
  .start [
    .ok (.scripted [.answer (Reply.throughput (.counting 1)).encode,
      .answer (Reply.throughput (.counting 2)).encode]),
    .ok (.scripted [.answer Reply.ack.encode, .answer (Reply.throughput (.counting 3)).encode])]

/-- The report that comes too early fails the first request as a bad reply of its agent.  The next
request brings in one report of each agent. -/
theorem Fleet.replies_as_expected_hasty :
    let medium := Stage.bare.machine.medium
    let fleet : Fleet Nat := [⟨"a", .symmetric, "a:5001", 0⟩, ⟨"b", .symmetric, "b:5001", 1⟩]
    let start := (fleet, StageState.hasty)
    let now := (Fleet.answerIn medium (.startLoad .symmetric 500) start).2
    (exists raw, (Fleet.answerIn medium (.startLoad .symmetric 500) start).1 =
      .error (.protocol (.reply "a" raw (.replyTag "ACK" 0 1)))) ∧
    exists given, (Fleet.answerIn medium (.reportThroughput .symmetric) now).1 = .ok given ∧
      given.length = fleet.count .symmetric := by
  intro medium fleet start now
  rcases Fleet.replies_as_expected with ⟨-, -, hfleets⟩
  rcases hfleets Nat StageState medium Stage.bare.readsEach_medium Ending.lawful_join fleet
    .hasty with ⟨hall, -⟩
  have hanswered : (Fleet.answerIn medium (.reportThroughput .symmetric) now).1 =
      .ok [.counting 2, .counting 3] := by
    decide +kernel
  rcases (hall [.ask (.startLoad .symmetric 500)] (.ask (.reportThroughput .symmetric))).right _
    hanswered with ⟨replies, -, ⟨hlength, -⟩, hcarries⟩
  have hreplies : replies = [ThroughputReport.counting 2, .counting 3].map Reply.throughput :=
    hcarries
  rw [hreplies, List.length_map] at hlength
  constructor
  · refine ⟨(Reply.throughput (.counting 1)).encode, ?_⟩
    decide +kernel
  · exact ⟨_, hanswered, hlength⟩

end LoadFleet
