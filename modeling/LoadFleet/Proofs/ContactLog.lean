import LoadFleet.Proofs.Transparency

/-!
# Logs of connections

A logged connection remembers every write to it and every read from it.  Keeping logs changes
nothing else: whatever is requested of a fleet of logged peers, under the logs it has the same
answer and leaves the same links behind as without them.
-/

namespace LoadFleet

inductive Contact where
  | wrote (bytes : List UInt8)
  | read (limit : Nat)
deriving DecidableEq

/-- A connection with all that has been done with it so far. -/
structure Logged (κ : Type) where
  connection : κ
  contacts : List Contact

/-- The contacts in which a command is exchanged with a connection. -/
def Command.contacts (c : Command) : List Contact :=
  [.wrote c.frame, .read c.replyKind.bufferLength]

def Medium.logged (medium : Medium Id κ) : Medium Id (Logged κ) where
  write k bytes :=
    ((medium.write k.connection bytes).1,
      ⟨(medium.write k.connection bytes).2, k.contacts ++ [.wrote bytes]⟩)
  readEach ks limit deadline :=
    ks.zipWith (fun k reading => (reading.1, ⟨reading.2, k.contacts ++ [.read limit]⟩))
      (medium.readEach (ks.map Logged.connection) limit deadline)
  join := medium.join

def Link.logged (link : Link κ) (contacts : List Contact) : Link (Logged κ) :=
  { link with connection := ⟨link.connection, contacts⟩ }

def Link.unlogged (link : Link (Logged κ)) : Link κ :=
  { link with connection := link.connection.connection }

theorem Link.map_unlogged_logged (links : List (Link κ)) (contacts : List Contact) :
    (links.map fun link => link.logged contacts).map Link.unlogged = links := by
  rw [List.map_map]
  exact List.map_id links

/-- Each logged peer is read by itself. -/
theorem Peer.readEach_logged (peers : List (Logged Peer)) (limit : Nat) (deadline : Duration) :
    Peer.medium.logged.readEach peers limit deadline =
      peers.map fun k => ((k.connection.read limit).1,
        (⟨(k.connection.read limit).2, k.contacts ++ [.read limit]⟩ : Logged Peer)) := by
  show peers.zipWith _ ((peers.map Logged.connection).map fun p => p.read limit) = _
  rw [List.map_map, List.zipWith_map_right, List.zipWith_self]
  rfl

namespace Link

/-!
## Exchanges without their logs
-/

theorem sendEach_unlogged (medium : Medium Id κ) (bytes : List UInt8)
    (links : List (Link (Logged κ))) :
    sendEach medium bytes (links.map unlogged) =
      ((sendEach medium.logged bytes links).1,
        (sendEach medium.logged bytes links).2.map unlogged) := by
  induction links with
  | nil => rfl
  | cons link rest ih =>
      have hsend : send medium bytes link.unlogged =
          ((send medium.logged bytes link).1, (send medium.logged bytes link).2.unlogged) :=
        rfl
      simp only [List.map_cons, sendEach, bind, pure, hsend]
      rcases send medium.logged bytes link with ⟨failure | _, next⟩
      · rfl
      · simp only [ih]
        rfl

theorem judgeRead_unlogged (kind : ReplyKind) (deadline : Duration) (link : Link (Logged κ))
    (heard : Heard) :
    judgeRead kind deadline link.unlogged heard = judgeRead kind deadline link heard := by
  cases heard with
  | silence => rfl
  | failed reason => rfl
  | bytes raw => cases raw <;> rfl

theorem ending_unlogged (kind : ReplyKind) (deadline : Duration) (link : Link (Logged κ))
    (heard : Heard) :
    ending kind deadline (link.unlogged, heard) = ending kind deadline (link, heard) :=
  congrArg (Ending.mk heard.isSilence) (judgeRead_unlogged kind deadline link heard)

/-- A medium that reads every connection by itself is collected from link by link. -/
theorem collect_each {medium : Medium Id κ} {read : κ -> Nat -> Heard × κ}
    (hread : forall ks limit deadline,
      medium.readEach ks limit deadline = ks.map fun k => read k limit)
    (kind : ReplyKind) (deadline : Duration) (links : List (Link κ)) :
    collect medium kind deadline links =
      (medium.join (links.map fun link =>
          ending kind deadline (link, (read link.connection kind.bufferLength).1)),
        links.map fun link =>
          { link with connection := (read link.connection kind.bufferLength).2 }) := by
  unfold collect readReplies
  simp only [bind, pure, hread, List.map_map, List.zipWith_map_right, List.zipWith_self]
  rw [← List.map_prod_left_eq_zip, List.map_map]
  rfl

theorem collect_unlogged (kind : ReplyKind) (deadline : Duration)
    (links : List (Link (Logged Peer))) :
    collect (m := Id) Peer.medium kind deadline (links.map unlogged) =
      ((collect Peer.medium.logged kind deadline links).1,
        (collect Peer.medium.logged kind deadline links).2.map unlogged) := by
  have hread : forall (peers : List Peer) limit deadline,
      Peer.medium.readEach peers limit deadline = peers.map fun p => p.read limit :=
    fun _ _ _ => rfl
  have hendings : forall link : Link (Logged Peer),
      ending kind deadline
          (link.unlogged, (link.unlogged.connection.read kind.bufferLength).1) =
        ending kind deadline (link, (link.connection.connection.read kind.bufferLength).1) :=
    fun link => ending_unlogged kind deadline link _
  rw [collect_each hread, collect_each Peer.readEach_logged, List.map_map, List.map_map,
    List.map_map]
  simp only [Function.comp_def, hendings]
  rfl

theorem exchange_unlogged (c : Command) (links : List (Link (Logged Peer))) :
    exchange (m := Id) Peer.medium c (links.map unlogged) =
      ((exchange Peer.medium.logged c links).1,
        (exchange Peer.medium.logged c links).2.map unlogged) := by
  unfold exchange broadcast
  rw [List.isEmpty_map, c.encode_eq]
  split
  · rfl
  simp only [bind, pure, sendEach_unlogged]
  rcases sendEach Peer.medium.logged c.frame links with ⟨failure | _, next⟩
  · rfl
  · exact collect_unlogged _ _ next

end Link

namespace Fleet

/-!
## Requests without their logs
-/

theorem replace_nil (group : Group) (fleet : Fleet κ) : Fleet.replace group fleet [] = fleet := by
  induction fleet with
  | nil => rfl
  | cons link rest ih =>
      by_cases hin : group.contains link.role = true
      · exact if_pos hin
      · rw [replace_cons_out hin, ih]

theorem replace_unlogged (group : Group) (fleet : Fleet (Logged κ))
    (others : List (Link (Logged κ))) :
    Fleet.replace group (fleet.map Link.unlogged) (others.map Link.unlogged) =
      (Fleet.replace group fleet others).map Link.unlogged := by
  induction fleet generalizing others with
  | nil => rfl
  | cons link rest ih =>
      cases others with
      | nil => rw [List.map_nil, replace_nil, replace_nil]
      | cons other others =>
          by_cases hin : group.contains link.role = true
          · have hunlogged : group.contains link.unlogged.role = true := hin
            rw [List.map_cons, List.map_cons, replace_cons_in hunlogged, replace_cons_in hin, ih,
              List.map_cons]
          · have hunlogged : ¬ group.contains link.unlogged.role = true := hin
            rw [List.map_cons, replace_cons_out hunlogged, replace_cons_out hin, ih, List.map_cons]

/-- Under the logs, a request has the same answer and leaves the same links as without logs. -/
theorem answer_unlogged (request : Request) (fleet : Fleet (Logged Peer)) :
    Fleet.answer (m := Id) Peer.medium request (fleet.map Link.unlogged) =
      ((Fleet.answer (m := Id) Peer.medium.logged request fleet).1,
        (Fleet.answer (m := Id) Peer.medium.logged request fleet).2.map Link.unlogged) := by
  have hselect : Fleet.select request.group (fleet.map Link.unlogged) =
      (Fleet.select request.group fleet).map Link.unlogged := by
    unfold select
    rw [List.filter_map]
    rfl
  unfold answer onGroup
  simp only [bind, pure, hselect, Link.exchange_unlogged, replace_unlogged]
  rfl

end Fleet
end LoadFleet
