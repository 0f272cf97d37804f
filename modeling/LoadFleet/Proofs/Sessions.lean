import LoadFleet.Proofs.ContactLog
import Mathlib.Data.Set.List

/-!
# Sessions

Agents that answer every command they are sent never get out of step with the requests made to them,
however many there are.  After each request every agent has been sent the commands to its groups and
nothing else, every reply has been read by the request that it answers, and no byte is left for the
next one.
-/

namespace LoadFleet

/-!
## Requests in a row
-/

namespace Fleet

def afterAll (medium : Medium Id κ) (requests : List Request) (fleet : Fleet κ) : Fleet κ :=
  requests.foldl (fun fleet request => (Id.run (Fleet.answer medium request fleet)).2) fleet

theorem afterAll_concat (medium : Medium Id κ) (requests : List Request) (request : Request)
    (fleet : Fleet κ) :
    afterAll medium (requests ++ [request]) fleet =
      (Fleet.answer (m := Id) medium request (afterAll medium requests fleet)).2 := by
  unfold afterAll
  rw [List.foldl_append]
  rfl

theorem afterAll_unlogged (requests : List Request) (fleet : Fleet (Logged Peer)) :
    afterAll Peer.medium requests (fleet.map Link.unlogged) =
      (afterAll Peer.medium.logged requests fleet).map Link.unlogged := by
  induction requests using List.reverseRecOn with
  | nil => rfl
  | append_singleton requests request ih =>
      rw [afterAll_concat, afterAll_concat, ih, answer_unlogged]

theorem commandsTo_concat_in {role : Role} {request : Request}
    (hin : request.group.contains role = true) (requests : List Request) :
    commandsTo role (requests ++ [request]) = commandsTo role requests ++ [command request] := by
  simp [commandsTo, hin]

theorem commandsTo_concat_out {role : Role} {request : Request}
    (hout : ¬ request.group.contains role = true) (requests : List Request) :
    commandsTo role (requests ++ [request]) = commandsTo role requests := by
  simp [commandsTo, hout]

end Fleet

namespace Request

/-!
## Answers and the replies they are made of
-/

/-- An answer is made of replies, each of one link that was asked. -/
def Carries : (request : Request) -> request.Answer -> List Reply -> Prop
  | .startLoad _ _, _, replies => forall r, r ∈ replies -> r = .ack
  | .startMeasure _ _ _, _, replies => forall r, r ∈ replies -> r = .ack
  | .reportThroughput _, reports, replies => replies = reports.map .throughput
  | .reportLatency _, reports, replies => replies = reports.map .latency

def nothing : (request : Request) -> request.Answer
  | .startLoad _ _ => ()
  | .startMeasure _ _ _ => ()
  | .reportThroughput _ => []
  | .reportLatency _ => []

theorem eq_ack_of_kind {r : Reply} (h : r.kind = .ack) : r = .ack := by
  cases r with
  | ack => rfl
  | throughput report => cases h
  | latency report => cases h

theorem throughput_of_kind {r : Reply} (h : r.kind = .throughput) :
    exists report, Reply.throughput report = r := by
  cases r with
  | ack => cases h
  | throughput report => exact ⟨report, rfl⟩
  | latency report => cases h

theorem latency_of_kind {r : Reply} (h : r.kind = .latency) :
    exists report, Reply.latency report = r := by
  cases r with
  | ack => cases h
  | throughput report => cases h
  | latency report => exact ⟨report, rfl⟩

theorem exists_reports {wrap : α -> Reply} {replies : List Reply}
    (h : forall r, r ∈ replies -> exists report, wrap report = r) :
    exists reports : List α, reports.map wrap = replies := by
  have hrange : replies ∈ Set.range (List.map wrap) := by
    rw [Set.range_list_map]
    exact h
  exact hrange

/-- Replies of the kind that a request expects make an answer to it. -/
theorem exists_answer (request : Request) {replies : List Reply}
    (h : forall r, r ∈ replies -> r.kind = (Fleet.command request).replyKind) :
    exists given, Fleet.answerOf request replies = .ok given ∧ request.Carries given replies := by
  cases request with
  | startLoad group load => exact ⟨(), rfl, fun r hr => eq_ack_of_kind (h r hr)⟩
  | startMeasure group sampleCount samplingRate =>
      exact ⟨(), rfl, fun r hr => eq_ack_of_kind (h r hr)⟩
  | reportThroughput group =>
      have htaken : forall report, Reply.toThroughput (.throughput report) = .ok report :=
        fun _ => rfl
      rcases exists_reports fun r hr => throughput_of_kind (h r hr) with ⟨reports, rfl⟩
      exact ⟨reports, Fleet.reports_map htaken reports, rfl⟩
  | reportLatency group =>
      have htaken : forall report, Reply.toLatency (.latency report) = .ok report :=
        fun _ => rfl
      rcases exists_reports fun r hr => latency_of_kind (h r hr) with ⟨reports, rfl⟩
      exact ⟨reports, Fleet.reports_map htaken reports, rfl⟩

theorem Carries.of_nothing {request : Request} {given : request.Answer}
    (h : request.Carries given []) : given = request.nothing := by
  cases request with
  | startLoad group load => rfl
  | startMeasure group sampleCount samplingRate => rfl
  | reportThroughput group => exact List.map_eq_nil_iff.mp h.symm
  | reportLatency group => exact List.map_eq_nil_iff.mp h.symm

end Request

/-!
## Attentive peers
-/

/-- A peer that waits for commands and will answer each of these by one write of a reply of the kind
that the command expects. -/
structure Peer.Attentive (p : Peer) (commands : List Command) : Prop where
  live : p.state = .live
  drained : p.unread = []
  answers : forall earlier c later, commands = earlier ++ c :: later ->
    exists r : Reply, r.kind = c.replyKind ∧
      p.conduct (p.received ++ (earlier ++ [c]).map Command.frame) = .answer r.encode

theorem Peer.Attentive.earlier {p : Peer} {commands : List Command} {c : Command}
    (h : p.Attentive (commands ++ [c])) : p.Attentive commands where
  live := h.live
  drained := h.drained
  answers := by
    intro earlier first later heq
    subst heq
    exact h.answers earlier first (later ++ [c]) (List.append_assoc _ _ _)

theorem Peer.Attentive.before {p : Peer} {role : Role} {requests : List Request} {request : Request}
    (h : p.Attentive (Fleet.commandsTo role (requests ++ [request]))) :
    p.Attentive (Fleet.commandsTo role requests) := by
  by_cases hin : request.group.contains role = true
  · rw [Fleet.commandsTo_concat_in hin] at h
    exact h.earlier
  · rw [Fleet.commandsTo_concat_out hin] at h
    exact h

namespace Link

/-- A link whose peer was sent commands and answered them, with the log of this. -/
def told (link : Link Peer) (commands : List Command) : Link (Logged Peer) :=
  { link with
    connection :=
      { connection :=
          { link.connection with
            received := link.connection.received ++ commands.map Command.frame }
        contacts := commands.flatMap Command.contacts } }

def replying (link : Link Peer) (commands : List Command) (c : Command) (r : Reply) :
    Link (Logged Peer) :=
  { link with
    connection :=
      { connection :=
          { link.connection with
            received := link.connection.received ++ (commands ++ [c]).map Command.frame
            unread := r.encode }
        contacts := commands.flatMap Command.contacts ++ [.wrote c.frame] } }

theorem told_nil (link : Link Peer) : link.told [] = link.logged [] := by
  unfold told logged
  rw [List.map_nil, List.append_nil]
  rfl

section

variable {link : Link Peer} {commands : List Command} {c : Command} {r : Reply}

theorem send_told (hlive : link.connection.state = .live) (hdrained : link.connection.unread = [])
    (hconduct : link.connection.conduct
      (link.connection.received ++ (commands ++ [c]).map Command.frame) = .answer r.encode) :
    send (m := Id) Peer.medium.logged c.frame (link.told commands) =
      (.ok (), link.replying commands c r) := by
  unfold replying
  rw [List.map_append, ← List.append_assoc] at hconduct ⊢
  have hwrite : (link.told commands).connection.connection.write c.frame = _ :=
    Peer.write_answered hlive hdrained hconduct
  have hlogged : Peer.medium.logged.write (link.told commands).connection c.frame =
      (((link.told commands).connection.connection.write c.frame).1,
        ⟨((link.told commands).connection.connection.write c.frame).2,
          commands.flatMap Command.contacts ++ [.wrote c.frame]⟩) :=
    rfl
  rw [hwrite] at hlogged
  exact send_taken hlogged

theorem read_replying (hdrained : link.connection.unread = []) (hkind : r.kind = c.replyKind) :
    (link.replying commands c r).connection.connection.read c.replyKind.bufferLength =
      (.bytes r.encode, (link.told (commands ++ [c])).connection.connection) := by
  have hread : (link.replying commands c r).connection.connection.read r.kind.bufferLength = _ :=
    Peer.read_reply rfl
  rw [← hkind, hread, ← hdrained]
  rfl

end

theorem exchange_told {links : List (Link Peer)} {heard : Link Peer -> List Command}
    {reply : Link Peer -> Reply} {c : Command}
    (hlive : forall link, link ∈ links -> link.connection.state = .live)
    (hdrained : forall link, link ∈ links -> link.connection.unread = [])
    (hkind : forall link, link ∈ links -> (reply link).kind = c.replyKind)
    (hconduct : forall link, link ∈ links -> link.connection.conduct
      (link.connection.received ++ (heard link ++ [c]).map Command.frame) =
        .answer (reply link).encode) :
    exchange (m := Id) Peer.medium.logged c (links.map fun link => link.told (heard link)) =
      (.ok (links.map reply), links.map fun link => link.told (heard link ++ [c])) := by
  have hread : Peer.medium.logged.readEach
      (links.map fun link => (link.replying (heard link) c (reply link)).connection)
      c.replyKind.bufferLength c.replyKind.deadline =
        links.map fun link =>
          (.bytes (reply link).encode, (link.told (heard link ++ [c])).connection) := by
    rw [Peer.readEach_logged, List.map_map]
    apply List.map_congr_left
    intro link hlink
    have hlogged : (link.replying (heard link) c (reply link)).connection.contacts ++
        [.read c.replyKind.bufferLength] = (heard link ++ [c]).flatMap Command.contacts := by
      rw [List.flatMap_append, List.flatMap_singleton]
      exact List.append_assoc _ _ _
    show ((Peer.read _ _).1, Logged.mk (Peer.read _ _).2 _) = _
    rw [read_replying (hdrained link hlink) (hkind link hlink), hlogged]
    rfl
  exact exchange_each Ending.lawful_join hkind
    (fun link hlink => send_told (hlive link hlink) (hdrained link hlink) (hconduct link hlink))
    hread fun _ => rfl

end Link

theorem Fleet.select_told (group : Group) (fleet : Fleet Peer) (heard : Link Peer -> List Command) :
    Fleet.select group (fleet.map fun link => link.told (heard link)) =
      (fleet.select group).map fun link => link.told (heard link) :=
  List.filter_map

theorem Fleet.answer_told (fleet : Fleet Peer) (before : List Request) (request : Request)
    (hattentive : forall link, link ∈ fleet ->
      link.connection.Attentive (Fleet.commandsTo link.role (before ++ [request]))) :
    exists given replies,
      Fleet.answer (m := Id) Peer.medium.logged request
          (fleet.map fun link => link.told (Fleet.commandsTo link.role before)) =
        (.ok given,
          fleet.map fun link => link.told (Fleet.commandsTo link.role (before ++ [request]))) ∧
      request.Carries given replies ∧
      List.Forall₂
        (fun link reply => link.connection.conduct (link.connection.received ++
          (Fleet.commandsTo link.role (before ++ [request])).map Command.frame) =
            .answer (Reply.encode reply))
        (fleet.select request.group) replies := by
  have hreplies : forall link, exists r : Reply, link ∈ fleet.select request.group ->
      r.kind = (Fleet.command request).replyKind ∧
        link.connection.conduct (link.connection.received ++
          (Fleet.commandsTo link.role before ++ [Fleet.command request]).map Command.frame) =
            .answer r.encode := by
    intro link
    by_cases hlink : link ∈ fleet.select request.group
    · rcases List.mem_filter.mp hlink with ⟨hmem, hin⟩
      rcases (hattentive link hmem).answers (Fleet.commandsTo link.role before) _ []
        (Fleet.commandsTo_concat_in hin before) with ⟨r, hkind, hconduct⟩
      exact ⟨r, fun _ => ⟨hkind, hconduct⟩⟩
    · exact ⟨.ack, fun h => absurd h hlink⟩
  choose reply hreply using hreplies
  have hasked : forall link, link ∈ fleet.select request.group ->
      link.connection.Attentive (Fleet.commandsTo link.role (before ++ [request])) :=
    fun link hlink => hattentive link (List.mem_filter.mp hlink).left
  have hexchange : Link.exchange (m := Id) Peer.medium.logged (Fleet.command request)
      ((fleet.select request.group).map fun link =>
        link.told (Fleet.commandsTo link.role before)) =
        (.ok ((fleet.select request.group).map reply),
          (fleet.select request.group).map fun link =>
            link.told (Fleet.commandsTo link.role before ++ [Fleet.command request])) :=
    Link.exchange_told (fun link hlink => (hasked link hlink).live)
      (fun link hlink => (hasked link hlink).drained)
      (fun link hlink => (hreply link hlink).left) fun link hlink => (hreply link hlink).right
  have hkinds : forall r, r ∈ (fleet.select request.group).map reply ->
      r.kind = (Fleet.command request).replyKind := by
    intro r hr
    rcases List.mem_map.mp hr with ⟨link, hlink, rfl⟩
    exact (hreply link hlink).left
  rcases request.exists_answer hkinds with ⟨given, hgiven, hcarries⟩
  refine ⟨given, (fleet.select request.group).map reply, ?_, hcarries, ?_⟩
  · refine (Fleet.answer_each hexchange hgiven).trans ?_
    congr 1
    apply List.map_congr_left
    intro link _
    by_cases hin : request.group.contains link.role = true
    · rw [Fleet.commandsTo_concat_in hin]
      exact if_pos hin
    · rw [Fleet.commandsTo_concat_out hin]
      exact if_neg hin
  · rw [List.forall₂_map_right_iff, List.forall₂_same]
    intro link hlink
    rw [Fleet.commandsTo_concat_in (List.mem_filter.mp hlink).right]
    exact (hreply link hlink).right

theorem Fleet.afterAll_told (fleet : Fleet Peer) (requests : List Request)
    (hattentive : forall link, link ∈ fleet ->
      link.connection.Attentive (Fleet.commandsTo link.role requests)) :
    Fleet.afterAll Peer.medium.logged requests (fleet.map fun link => link.logged []) =
      fleet.map fun link => link.told (Fleet.commandsTo link.role requests) := by
  induction requests using List.reverseRecOn with
  | nil =>
      apply List.map_congr_left
      intro link _
      exact link.told_nil.symm
  | append_singleton requests request ih =>
      rcases Fleet.answer_told fleet requests request hattentive with ⟨given, replies, hanswer, -⟩
      rw [Fleet.afterAll_concat, ih fun link hlink => (hattentive link hlink).before, hanswer]

/-!
## Links in step
-/

/-- A link after requests: its peer was sent the commands to its groups, each by one write that was
followed by one read, and everything that the peer wrote has been read. -/
structure Link.InStep (requests : List Request) (link : Link Peer) (now : Link (Logged Peer)) :
    Prop where
  name : now.name = link.name
  role : now.role = link.role
  received : now.connection.connection.received =
    link.connection.received ++ (Fleet.commandsTo link.role requests).map Command.frame
  contacts : now.connection.contacts =
    (Fleet.commandsTo link.role requests).flatMap Command.contacts
  drained : now.connection.connection.unread = []

theorem Link.inStep_told {link : Link Peer} (hdrained : link.connection.unread = [])
    (requests : List Request) :
    Link.InStep requests link (link.told (Fleet.commandsTo link.role requests)) where
  name := rfl
  role := rfl
  received := rfl
  contacts := rfl
  drained := hdrained

/-- Requests to attentive agents stay in step.  After any requests, the next one succeeds; its
answer is made of one reply of each link of its group, in their order, and each is what the agent
behind the link wrote for this very command.  Then all links are in step with all requests so far;
those outside the group have not been touched, and with no link in the group nothing is done at
all.  None of this comes from keeping logs. -/
theorem Fleet.sessions_stay_in_step (fleet : Fleet Peer) (before : List Request) (request : Request)
    (hattentive : forall link, link ∈ fleet ->
      link.connection.Attentive (Fleet.commandsTo link.role (before ++ [request]))) :
    let now := Fleet.afterAll Peer.medium.logged before (fleet.map fun link => link.logged [])
    let outcome := Id.run (Fleet.answer Peer.medium.logged request now)
    (exists given replies, outcome.1 = .ok given ∧ request.Carries given replies ∧
      List.Forall₂
        (fun link reply => link.connection.connection.conduct link.connection.connection.received =
          .answer (Reply.encode reply))
        (outcome.2.select request.group) replies) ∧
    List.Forall₂ (Link.InStep (before ++ [request])) fleet outcome.2 ∧
    List.Forall₂ (fun link next => request.group.contains link.role = false -> next = link)
      now outcome.2 ∧
    (now.select request.group = [] -> outcome = (.ok request.nothing, now)) ∧
    Id.run (Fleet.answer Peer.medium request (Fleet.afterAll Peer.medium before fleet)) =
      (outcome.1, outcome.2.map Link.unlogged) := by
  intro now outcome
  have hnow : now = fleet.map fun link => link.told (Fleet.commandsTo link.role before) :=
    Fleet.afterAll_told fleet before fun link hlink => (hattentive link hlink).before
  rcases Fleet.answer_told fleet before request hattentive with
    ⟨given, replies, hanswer, hcarries, hconduct⟩
  have houtcome : outcome = (.ok given,
      fleet.map fun link => link.told (Fleet.commandsTo link.role (before ++ [request]))) := by
    show Fleet.answer (m := Id) Peer.medium.logged request now = _
    rw [hnow, hanswer]
  rw [houtcome, hnow]
  refine ⟨⟨given, replies, rfl, hcarries, ?_⟩, ?_, ?_, ?_, ?_⟩
  · rw [Fleet.select_told, List.forall₂_map_left_iff]
    exact hconduct
  · rw [List.forall₂_map_right_iff, List.forall₂_same]
    intro link hlink
    exact Link.inStep_told (hattentive link hlink).drained (before ++ [request])
  · rw [List.forall₂_map_left_iff, List.forall₂_map_right_iff, List.forall₂_same]
    intro link _ hout
    have hrole : ¬ request.group.contains link.role = true := Bool.eq_false_iff.mp hout
    rw [Fleet.commandsTo_concat_out hrole]
  · intro hnone
    rw [Fleet.select_told] at hnone
    have hempty := List.map_eq_nil_iff.mp hnone
    rw [hempty, List.forall₂_nil_left_iff] at hconduct
    rw [hconduct] at hcarries
    rw [hcarries.of_nothing]
    congr 1
    apply List.map_congr_left
    intro link hlink
    rw [Fleet.commandsTo_concat_out (List.filter_eq_nil_iff.mp hempty link hlink)]
  · have hplain := Fleet.answer_unlogged request now
    have hafter := Fleet.afterAll_unlogged before (fleet.map fun link => link.logged [])
    rw [Link.map_unlogged_logged] at hafter
    show Fleet.answer (m := Id) Peer.medium request (Fleet.afterAll Peer.medium before fleet) = _
    rw [hafter, hplain, hnow, hanswer]

theorem Responder.attentive_station (a : Responder) (name address : String)
    (commands : List Command) :
    (a.station name address).link.connection.Attentive commands where
  live := rfl
  drained := rfl
  answers := by
    intro earlier c later _
    have hconduct := a.conduct_frames (a.heard ++ earlier) c
    rw [List.append_assoc, List.map_append] at hconduct
    exact ⟨_, a.kind_reply _ c, hconduct⟩

/-- A load on both roles is written to both agents, and the throughput is then asked of one. -/
theorem Fleet.sessions_stay_in_step_twoRoles :
    let fleet : Fleet Peer := [((Responder.counting .throughput).station "a" "a:1").link,
      ((Responder.counting .latency).station "b" "b:1").link]
    let now := Fleet.afterAll Peer.medium.logged [.startLoad .load 500]
      (fleet.map fun link => link.logged [])
    let outcome := Id.run (Fleet.answer Peer.medium.logged (.reportThroughput .throughput) now)
    outcome.2.map (fun link => link.connection.contacts) =
      [(Command.startLoad 500).contacts ++ (Command.report .throughput).contacts,
        (Command.startLoad 500).contacts] := by
  intro fleet now outcome
  have hattentive : forall link, link ∈ fleet -> link.connection.Attentive
      (Fleet.commandsTo link.role ([.startLoad .load 500] ++ [.reportThroughput .throughput])) := by
    intro link hlink
    rcases List.mem_pair.mp hlink with rfl | rfl
    · exact Responder.attentive_station _ "a" "a:1" _
    · exact Responder.attentive_station _ "b" "b:1" _
  have hsteps := (Fleet.sessions_stay_in_step fleet [.startLoad .load 500]
    (.reportThroughput .throughput) hattentive).right.left
  have hlogs : List.Forall₂
      (fun (link : Link Peer) (contacts : List Contact) =>
        (Fleet.commandsTo link.role
          [.startLoad .load 500, .reportThroughput .throughput]).flatMap Command.contacts = contacts)
      fleet (outcome.2.map fun link => link.connection.contacts) := by
    rw [List.forall₂_map_right_iff]
    exact hsteps.imp fun link next hnext => hnext.contacts.symm
  rw [← List.forall₂_map_left_iff, List.forall₂_eq_eq_eq] at hlogs
  exact hlogs.symm

end LoadFleet
