import LoadFleet.Measurement.Pattern
import LoadFleet.Proofs.Responders

/-!
# Transparent links

A procedure carried out over links takes the course that it takes over an ideal fleet of the agents
behind them: it ends in the same way after the same events, and every agent has been sent the
requests to its groups and nothing else.
-/

namespace LoadFleet

namespace Fleet

theorem replace_cons_in {group : Group} {link : Link κ} (hin : group.contains link.role = true)
    (rest : Fleet κ) (other : Link κ) (others : List (Link κ)) :
    Fleet.replace group (link :: rest) (other :: others) =
      other :: Fleet.replace group rest others := by
  rw [replace.eq_def]
  exact if_pos hin

theorem replace_cons_out {group : Group} {link : Link κ}
    (hout : ¬ group.contains link.role = true) (rest : Fleet κ) (others : List (Link κ)) :
    Fleet.replace group (link :: rest) others = link :: Fleet.replace group rest others := by
  rw [replace.eq_def]
  exact if_neg hout

/-- The links of a group are replaced each by its own next one, and the others stay. -/
theorem replace_map (group : Group) (items : List ι) (link next : ι -> Link κ) :
    Fleet.replace group (items.map link)
        ((items.filter fun i => group.contains (link i).role).map next) =
      items.map fun i => if group.contains (link i).role then next i else link i := by
  induction items with
  | nil => rfl
  | cons i rest ih =>
      -- The front link takes the first of the replacements or none of them.
      by_cases hin : group.contains (link i).role = true
      · have hfilter : (i :: rest).filter (fun i => group.contains (link i).role) =
            i :: rest.filter fun i => group.contains (link i).role :=
          List.filter_cons_of_pos hin
        rw [hfilter, List.map_cons, List.map_cons, List.map_cons, replace_cons_in hin, ih,
          if_pos hin]
      · have hfilter : (i :: rest).filter (fun i => group.contains (link i).role) =
            rest.filter fun i => group.contains (link i).role :=
          List.filter_cons_of_neg hin
        rw [hfilter, List.map_cons, List.map_cons, replace_cons_out hin, ih, if_neg hin]

/-- A request that is exchanged with the links of its group is answered by their replies. -/
theorem answer_each {medium : Medium Id κ} {items : List ι} {link next : ι -> Link κ}
    {request : Request} {replies : List Reply} {given : request.Answer}
    (hexchange : Link.exchange medium (command request)
        ((items.filter fun i => request.group.contains (link i).role).map link) =
      (.ok replies, (items.filter fun i => request.group.contains (link i).role).map next))
    (hgiven : answerOf request replies = .ok given) :
    Fleet.answer medium request (items.map link) =
      (.ok given,
        items.map fun i => if request.group.contains (link i).role then next i else link i) := by
  have hselect : Fleet.select request.group (items.map link) =
      (items.filter fun i => request.group.contains (link i).role).map link :=
    List.filter_map
  unfold Fleet.answer onGroup
  simp only [bind, pure, hselect, hexchange, replace_map]
  rw [Except.bind, hgiven]

theorem reports_map {extract : Reply -> Except WireFault α} {wrap : α -> Reply}
    (h : forall report, extract (wrap report) = .ok report) (given : List α) :
    reports extract (given.map wrap) = .ok given := by
  have hextract : forall report, (extract (wrap report)).mapError
      (fun fault => Failure.protocol (.replyKind fault)) = pure (id report) := by
    intro report
    rw [h]
    rfl
  have hall := mapM_map_pure
    (f := fun reply => (extract reply).mapError fun fault => Failure.protocol (.replyKind fault))
    fun report (_ : report ∈ given) => hextract report
  rw [List.map_id] at hall
  exact hall

def commandsTo (role : Role) (requests : List Request) : List Command :=
  (requests.filter fun request => request.group.contains role).map command

theorem commandsTo_cons_in {role : Role} {request : Request}
    (hin : request.group.contains role = true) (rest : List Request) :
    commandsTo role (request :: rest) = command request :: commandsTo role rest := by
  simp [commandsTo, hin]

theorem commandsTo_cons_out {role : Role} {request : Request}
    (hout : ¬ request.group.contains role = true) (rest : List Request) :
    commandsTo role (request :: rest) = commandsTo role rest := by
  simp [commandsTo, hout]

end Fleet

namespace Station

def attend (s : Station) (request : Request) : Station :=
  if request.group.contains s.link.role then s.hear (Fleet.command request) else s

/-!
## Groups of stations
-/

def select (group : Group) (stations : List Station) : List Station :=
  stations.filter fun s => group.contains s.link.role

theorem select_link (group : Group) (stations : List Station) :
    Fleet.select group (stations.map link) = (select group stations).map link := by
  unfold Fleet.select select
  rw [List.filter_map]
  rfl

theorem select_agent (group : Group) (stations : List Station) :
    (stations.map agent).filter (fun a => group.contains a.role) =
      (select group stations).map agent := by
  unfold select
  rw [List.filter_map]
  congr 1
  apply List.filter_congr
  intro s _
  show group.contains s.agent.role = group.contains s.link.role
  rw [s.role_eq]

theorem map_select_agent (group : Group) (stations : List Station) (report : Responder -> α) :
    ((stations.map agent).filter fun a => group.contains a.role).map report =
      (select group stations).map fun s => report s.agent := by
  rw [select_agent, List.map_map]
  rfl

theorem agent_attend (s : Station) (request : Request) :
    (s.attend request).agent = s.agent.attend request := by
  unfold attend Responder.attend
  rw [s.role_eq]
  split
  · rfl
  · rfl

/-!
## One request
-/

theorem answerOf_eq (request : Request) (stations : List Station) :
    Fleet.answerOf request
        ((select request.group stations).map fun s => s.agent.responds (Fleet.command request)) =
      .ok (Responder.given (stations.map agent) request) := by
  cases request with
  | startLoad group load => rfl
  | startMeasure group sampleCount samplingRate => rfl
  | reportThroughput group =>
      have htaken : forall report, Reply.toThroughput (.throughput report) = .ok report :=
        fun report => rfl
      rw [Responder.given, map_select_agent, ← Fleet.reports_map htaken, List.map_map]
      rfl
  | reportLatency group =>
      have htaken : forall report, Reply.toLatency (.latency report) = .ok report :=
        fun report => rfl
      rw [Responder.given, map_select_agent, ← Fleet.reports_map htaken, List.map_map]
      rfl

/-- A request to links gets the answer of the agents behind them, and leaves links behind which
these agents have heard it. -/
theorem answer_eq (request : Request) (stations : List Station) :
    Fleet.answer (m := Id) Peer.medium request (stations.map link) =
      (.ok (Responder.given (stations.map agent) request),
        (stations.map fun s => s.attend request).map link) := by
  refine (Fleet.answer_each (exchange_eq (select request.group stations) _)
    (answerOf_eq request stations)).trans ?_
  rw [List.map_map]
  congr 1
  apply List.map_congr_left
  intro s _
  show (if request.group.contains s.link.role then _ else _) = (s.attend request).link
  unfold attend
  split
  · rfl
  · rfl

/-!
## Procedures
-/

def attendAll (s : Station) (requests : List Request) : Station :=
  requests.foldl attend s

theorem agents_attend (request : Request) (stations : List Station) :
    (stations.map fun s => s.attend request).map agent =
      (stations.map agent).map fun a => a.attend request := by
  rw [List.map_map, List.map_map]
  apply List.map_congr_left
  intro s _
  exact s.agent_attend request

theorem runOver_eq (p : Procedure (Except Failure α)) (stations : List Station) :
    p.runOver (stations.map link) =
      { events := (p.run Responder.answer (stations.map agent)).events
        result := (p.run Responder.answer (stations.map agent)).result
        fleet := (stations.map fun s => s.attendAll
          (Procedure.requests (p.run Responder.answer (stations.map agent)).events)).map
            link } := by
  unfold Procedure.runOver
  -- The stations vary: what follows a request meets stations that have heard it.
  induction p generalizing stations with
  | done result => simp [Procedure.run, attendAll]
  | wait span next ih =>
      simp only [Procedure.run]
      rw [ih stations]
      rfl
  | ask request next ih =>
      have hanswer : Id.run (Fleet.answer Peer.medium request (stations.map link)) =
          (.ok (Responder.given (stations.map agent) request),
            (stations.map fun s => s.attend request).map link) :=
        answer_eq request stations
      simp only [Procedure.run, Responder.answer, hanswer]
      rw [ih (.ok (Responder.given (stations.map agent) request))
        (stations.map fun s => s.attend request), agents_attend]
      simp only [Procedure.Run.after, List.map_map]
      rfl

/-!
## What an agent has been sent
-/

theorem commands_eq (s : Station) :
    s.link.connection.commands = s.agent.heard.map Except.ok := by
  unfold Peer.commands
  rw [s.received, List.map_map]
  apply List.map_congr_left
  intro c _
  exact c.decode_frame

theorem role_attend (s : Station) (request : Request) :
    (s.attend request).link.role = s.link.role := by
  unfold attend
  split
  · rfl
  · rfl

theorem role_attendAll (s : Station) (requests : List Request) :
    (s.attendAll requests).link.role = s.link.role := by
  induction requests generalizing s with
  | nil => rfl
  | cons request rest ih => exact (ih (s.attend request)).trans (s.role_attend request)

theorem heard_attendAll (s : Station) (requests : List Request) :
    (s.attendAll requests).agent.heard =
      s.agent.heard ++ Fleet.commandsTo s.link.role requests := by
  induction requests generalizing s with
  | nil => exact (List.append_nil _).symm
  | cons request rest ih =>
      have hrest : (s.attendAll (request :: rest)).agent.heard =
          (s.attend request).agent.heard ++ Fleet.commandsTo s.link.role rest := by
        rw [← s.role_attend request]
        exact ih (s.attend request)
      by_cases hin : request.group.contains s.link.role = true
      · have hattend : s.attend request = s.hear (Fleet.command request) := if_pos hin
        rw [hrest, hattend, Fleet.commandsTo_cons_in hin, List.append_cons]
        rfl
      · have hattend : s.attend request = s := if_neg hin
        rw [hrest, hattend, Fleet.commandsTo_cons_out hin]

theorem count_link (stations : List Station) :
    Fleet.count (stations.map link) = Responder.count (stations.map agent) := by
  funext group
  unfold Fleet.count Responder.count
  rw [select_link, select_agent, List.length_map, List.length_map]

end Station

/-- Links are transparent to a pattern: over links whose peers answer every command with one write
of a reply of the expected kind, the pattern ends as it does over an ideal fleet that hands over the
same reports, and every agent has been sent the ideal run's requests to its groups, in order. -/
theorem Pattern.links_transparent (p : Pattern) (settings : MeasurementSettings)
    (stations : List Station) :
    let fleet : Fleet Peer := stations.map Station.link
    let agents := stations.map Station.agent
    let real := (p.procedure fleet.count settings).runOver fleet
    let ideal := (p.procedure (Responder.count agents) settings).run Responder.answer agents
    real.result = ideal.result ∧
    real.events = ideal.events ∧
    real.fleet.map (fun link => (link.role, link.connection.commands)) =
      stations.map fun s =>
        (s.link.role,
          (s.agent.heard ++
            Fleet.commandsTo s.link.role (Procedure.requests ideal.events)).map Except.ok) := by
  intro fleet agents real ideal
  have hreal : real =
      { events := ideal.events
        result := ideal.result
        fleet := (stations.map fun s =>
          s.attendAll (Procedure.requests ideal.events)).map Station.link } := by
    show (p.procedure (Fleet.count (stations.map Station.link)) settings).runOver
      (stations.map Station.link) = _
    rw [Station.count_link]
    exact Station.runOver_eq _ stations
  rw [hreal]
  refine ⟨rfl, rfl, ?_⟩
  show ((stations.map fun s =>
    s.attendAll (Procedure.requests ideal.events)).map Station.link).map _ = _
  rw [List.map_map, List.map_map]
  apply List.map_congr_left
  intro s _
  show (_, _) = _
  rw [← s.heard_attendAll, ← (s.attendAll (Procedure.requests ideal.events)).commands_eq,
    ← s.role_attendAll (Procedure.requests ideal.events)]

/-- A responder that counts the commands it has heard as its operations. -/
def Responder.counting (role : Role) : Responder where
  role := role
  throughput := fun heard => ⟨⟨0, 0, heard.length.toUInt64, 0⟩, some 1⟩
  latency := fun heard =>
    ⟨⟨⟨0, 0, heard.length.toUInt64, 0⟩, 7, ⟨0, 0, 0⟩, ⟨0, 0, 0⟩, ⟨0, 0, 0⟩, ⟨0, 0, 0⟩⟩,
      some ⟨1, 0.125, 1⟩⟩
  heard := []

/-- A sweep over one load brings in the reports of the agents that it needs, with their trailers,
and leaves the symmetric agent between them alone. -/
theorem Pattern.links_transparent_counting :
    let stations := [(Responder.counting .latency).station "a" "a:1",
      (Responder.counting .symmetric).station "b" "b:1",
      (Responder.counting .throughput).station "c" "c:1"]
    let fleet : Fleet Peer := stations.map Station.link
    let run := ((Pattern.step 4000 4001 1).procedure fleet.count .standard).runOver fleet
    (exists outcome, run.result = .ok outcome ∧
      outcome.points.map (fun p => (p.totals.rxRequests, p.latency.average, p.trailers)) =
        [(6, 7, ⟨[1], [0.125], [1, 1]⟩)]) ∧
    run.fleet.map (fun link => (link.role, link.connection.commands)) =
      [(.latency, [.ok (.startLoad 16000), .ok (.startMeasure 10000 25.0),
          .ok (.report .latency)]),
        (.symmetric, []),
        (.throughput, [.ok (.startLoad 4000), .ok (.startMeasure 10000 25.0),
          .ok (.report .throughput)])] := by
  intro stations fleet run
  let ideal := ((Pattern.step 4000 4001 1).procedure
    (Responder.count (stations.map Station.agent)) .standard).run Responder.answer
      (stations.map Station.agent)
  have hrequests : Procedure.requests ideal.events =
      [.startLoad .throughput 4000, .startLoad .latency 16000, .startMeasure .load 10000 25.0,
        .reportThroughput .throughput, .reportLatency .latency] := by
    decide +kernel
  have hpoints : ideal.result.toOption.map (fun outcome => outcome.points.map fun p =>
      (p.totals.rxRequests, p.latency.average, p.trailers)) =
        some [(6, 7, ⟨[1], [0.125], [1, 1]⟩)] := by
    decide +kernel
  rcases Pattern.links_transparent (.step 4000 4001 1) .standard stations with
    ⟨hresult, -, hcommands⟩
  refine ⟨?reported, hcommands.trans ?sent⟩
  case reported =>
    rw [show run.result = ideal.result from hresult]
    cases hideal : ideal.result with
    | error failure =>
        rw [hideal] at hpoints
        cases hpoints
    | ok outcome =>
        rw [hideal] at hpoints
        exact ⟨outcome, rfl, Option.some.inj hpoints⟩
  case sent =>
    rw [show Procedure.requests _ = _ from hrequests]
    rfl

end LoadFleet
