import LoadFleet.Proofs.ReplyFormat
import LoadFleet.Proofs.Sessions

/-!
# Failures that agents cause

What goes wrong between a fleet and its agents is a failure of a connection, or bytes that are no
reply of the expected kind.  It is never a failure of the configuration.  A reply is decoded only as
the kind that its command expects, so what it is taken for afterwards always fits, and a command
always fits its frame.  All this holds of every medium that joins reads lawfully, whatever world it
acts in.
-/

namespace LoadFleet

/-!
## Results
-/

/-- What an agent, or the connection to it, can make a request fail with. -/
inductive Failure.OfAgent : Failure -> Prop
  | transport (fault : TransportFault) : OfAgent (.transport fault)
  | reply (agent : String) (raw : List UInt8) (fault : WireFault) :
      OfAgent (.protocol (.reply agent raw fault))

/-- A value has a property, and a failure is caused by an agent. -/
def Sound (property : α -> Prop) : Except Failure α -> Prop
  | .ok value => property value
  | .error failure => failure.OfAgent

theorem Sound.of_ok {property : α -> Prop} {result : Except Failure α} {value : α}
    (h : Sound property result) (hok : result = .ok value) : property value := by
  rw [hok] at h
  exact h

theorem Sound.of_error {property : α -> Prop} {result : Except Failure α} {failure : Failure}
    (h : Sound property result) (herror : result = .error failure) : failure.OfAgent := by
  rw [herror] at h
  exact h

theorem Sound.bind {first : α -> Prop} {property : β -> Prop} {result : Except Failure α}
    {f : α -> Except Failure β} (h : Sound first result)
    (hnext : forall value, result = .ok value -> first value -> Sound property (f value)) :
    Sound property (result >>= f) := by
  cases result with
  | error failure => exact h
  | ok value => exact hnext value rfl h

theorem Sound.mono {property other : α -> Prop} {result : Except Failure α}
    (h : Sound property result) (hother : forall value, property value -> other value) :
    Sound other result := by
  cases result with
  | error failure => exact h
  | ok value => exact hother value h

/-- Whatever world an action is done in, its value has a property. -/
def Always (property : α -> Prop) (act : StateM W α) : Prop :=
  forall world, property (act.run world).1

theorem always_true (act : StateM W α) : Always (fun _ => True) act :=
  fun _ => trivial

theorem always_pure {property : α -> Prop} {value : α} (h : property value) :
    Always property (pure value : StateM W α) :=
  fun _ => h

theorem Always.bind {first : α -> Prop} {property : β -> Prop} {act : StateM W α}
    {f : α -> StateM W β} (h : Always first act)
    (hnext : forall value, first value -> Always property (f value)) :
    Always property (act >>= f) :=
  fun world => hnext _ (h world) _

/-!
## Links
-/

def OfKind (kind : ReplyKind) (replies : List Reply) : Prop :=
  forall r, r ∈ replies -> r.kind = kind

theorem Reply.kind_of_decode {kind : ReplyKind} {bytes : List UInt8} {r : Reply}
    (h : Reply.decode kind bytes = .ok r) : r.kind = kind := by
  rcases (Reply.decode_eq_ok_iff kind bytes r).mp h with ⟨-, rfl⟩
  cases kind <;> rfl

namespace Link

def entry (link : Link κ) : String × Role := (link.name, link.role)

/-- The same links in the same order, each with a connection of its own. -/
def Kept (links after : List (Link κ)) : Prop :=
  after.map entry = links.map entry

theorem sound_judgeWrite (link : Link κ) (length : Nat) (written : Written) :
    Sound (fun _ => True) (link.judgeWrite length written) := by
  cases written with
  | failed reason => exact .transport _
  | taken count =>
      simp only [judgeWrite]
      split
      · trivial
      · exact .transport _

theorem sound_judgeRead (kind : ReplyKind) (deadline : Duration) (link : Link κ) (heard : Heard) :
    Sound (fun r => r.kind = kind) (judgeRead kind deadline link heard) := by
  unfold judgeRead
  split
  · exact .transport _
  · exact .transport _
  · exact .transport _
  · rename_i raw _
    cases hdecode : Reply.decode kind raw with
    | error fault => exact .reply link.name raw fault
    | ok r => exact Reply.kind_of_decode hdecode

/-- A lawful join of reads gives one reply of the kind for each of them. -/
theorem sound_join {join : List Ending -> Except Failure (List Reply)} (hjoin : LawfulJoin join)
    (kind : ReplyKind) (deadline : Duration) (heard : List (Link κ × Heard)) :
    Sound (fun replies => replies.length = heard.length ∧ OfKind kind replies)
      (join (heard.map (ending kind deadline))) := by
  have hjudge (reading : Link κ × Heard) :
      Sound (fun r => r.kind = kind) (ending kind deadline reading).result :=
    sound_judgeRead kind deadline reading.1 reading.2
  cases hjoined : join (heard.map (ending kind deadline)) with
  | ok replies =>
      have hresults := (hjoin.all_iff _ _).mp hjoined
      rw [List.map_map] at hresults
      have hlength := congrArg List.length hresults
      rw [List.length_map, List.length_map] at hlength
      refine ⟨hlength.symm, ?_⟩
      intro r hr
      have hmem : Except.ok r ∈ heard.map (Ending.result ∘ ending kind deadline) := by
        rw [hresults]
        exact List.mem_map_of_mem hr
      rcases List.mem_map.mp hmem with ⟨reading, -, hresult⟩
      exact (hjudge reading).of_ok hresult
  | error failure =>
      rcases hjoin.found _ _ hjoined with ⟨_, hmem, hfailed⟩
      rcases List.mem_map.mp hmem with ⟨reading, -, rfl⟩
      exact (hjudge reading).of_error hfailed

variable (medium : Medium (StateM W) κ)

theorem sound_send (bytes : List UInt8) (link : Link κ) :
    Always (fun sent => Sound (fun _ => True) sent.1 ∧ sent.2.entry = link.entry)
      (send medium bytes link) := by
  refine (always_true _).bind ?_
  intro written _
  exact always_pure ⟨sound_judgeWrite link bytes.length written.1, rfl⟩

theorem sound_sendEach (bytes : List UInt8) (links : List (Link κ)) :
    Always (fun sent => Sound (fun _ => True) sent.1 ∧ Kept links sent.2)
      (sendEach medium bytes links) := by
  induction links with
  | nil => exact always_pure ⟨trivial, rfl⟩
  | cons link rest ih =>
      refine (sound_send medium bytes link).bind ?_
      intro sent hsent
      rcases sent with ⟨failure | _, next⟩
      · exact always_pure ⟨hsent.left, congrArg (· :: rest.map entry) hsent.right⟩
      · refine ih.bind ?_
        intro others hothers
        exact always_pure ⟨hothers.left, congrArg₂ List.cons hsent.right hothers.right⟩

theorem sound_broadcast (command : Command) (links : List (Link κ)) :
    Always (fun sent => Sound (fun _ => True) sent.1 ∧ Kept links sent.2)
      (broadcast medium command links) := by
  unfold broadcast
  rw [command.encode_eq]
  exact sound_sendEach medium command.frame links

theorem sound_collect (hjoin : LawfulJoin medium.join) (kind : ReplyKind) (deadline : Duration)
    (links : List (Link κ)) :
    Always (fun collected => Sound (OfKind kind) collected.1)
      (collect medium kind deadline links) := by
  refine (always_true _).bind ?_
  intro readings _
  exact always_pure ((sound_join hjoin kind deadline _).mono fun replies h => h.right)

/-- An exchange without links has no replies, and any other ends where its command is written or
where its replies are read. -/
theorem always_exchange {command : Command} {links : List (Link κ)}
    {judged : Except Failure (List Reply) × List (Link κ) -> Prop}
    (hnone : links = [] -> judged (.ok [], []))
    (hwrite : forall failure after, failure.OfAgent -> Kept links after ->
      judged (.error failure, after))
    (hread : forall after, Kept links after ->
      Always judged (collect medium command.replyKind command.replyKind.deadline after)) :
    Always judged (exchange medium command links) := by
  unfold exchange
  by_cases hempty : links.isEmpty
  · have hnil := List.isEmpty_iff.mp hempty
    rw [if_pos hempty, hnil]
    exact always_pure (hnone hnil)
  · rw [if_neg hempty]
    refine (sound_broadcast medium command links).bind ?_
    intro sent hsent
    rcases sent with ⟨failure | _, after⟩
    · exact always_pure (hwrite failure after hsent.left hsent.right)
    · exact hread after hsent.right

theorem sound_exchange (hjoin : LawfulJoin medium.join) (command : Command)
    (links : List (Link κ)) :
    Always (fun exchanged => Sound (OfKind command.replyKind) exchanged.1)
      (exchange medium command links) := by
  apply always_exchange
  · intro _ r hr
    cases hr
  · intro failure after hfailure _
    exact hfailure
  · intro after _
    exact sound_collect medium hjoin command.replyKind _ after

end Link

/-!
## Fleets
-/

namespace Fleet

theorem sound_answerOf {request : Request} {result : Except Failure (List Reply)}
    (h : Sound (OfKind (command request).replyKind) result) :
    Sound (fun given => exists replies, result = .ok replies ∧ request.Carries given replies)
      (result.bind (answerOf request)) := by
  apply h.bind
  intro replies hresult hkind
  rcases request.exists_answer hkind with ⟨given, hgiven, hcarries⟩
  rw [hgiven]
  exact ⟨replies, hresult, hcarries⟩

/-- The answer of a fleet and what is left behind: the fleet, and the world the medium is in. -/
def answerIn (medium : Medium (StateM W) κ) (request : Request) (state : Fleet κ × W) :
    Except Failure request.Answer × Fleet κ × W :=
  let answered := (answer medium request state.1).run state.2
  (answered.1.1, answered.1.2, answered.2)

section

variable {medium : Medium (StateM W) κ}

/-- No answer of a fleet is a failure that its agents did not cause. -/
theorem sound_answerIn (hjoin : LawfulJoin medium.join) (request : Request)
    (state : Fleet κ × W) : Sound (fun _ => True) (answerIn medium request state).1 := by
  have hreplies := Link.sound_exchange medium hjoin (command request)
    (state.1.select request.group)
  exact (sound_answerOf (hreplies state.2)).mono fun _ _ => trivial

theorem answerIn_ofAgent (hjoin : LawfulJoin medium.join) {request : Request}
    {before after : Fleet κ × W} {failure : Failure}
    (h : answerIn medium request before = (.error failure, after)) : failure.OfAgent :=
  (sound_answerIn hjoin request before).of_error (congrArg Prod.fst h)

theorem answerIn_ne_config (hjoin : LawfulJoin medium.join) (request : Request)
    (before after : Fleet κ × W) (fault : ConfigFault) :
    answerIn medium request before ≠ (.error (.config fault), after) := by
  intro h
  cases answerIn_ofAgent hjoin h

end

end Fleet

end LoadFleet
