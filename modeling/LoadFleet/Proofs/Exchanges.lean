import LoadFleet.Link.Fleet
import LoadFleet.Link.Peer
import LoadFleet.Proofs.Joins
import LoadFleet.Proofs.RoundTrips

/-!
# Exchanges that are answered

An exchange with several links takes its course link by link.  Where every link takes the command
whole, and one read then brings in a reply of the kind that the command expects, the exchange
returns these replies in the order of the links.
-/

namespace LoadFleet

theorem mapM_map_pure {m : Type _ -> Type _} [Monad m] [LawfulMonad m] {f : β -> m γ}
    {wrap : α -> β} {g : α -> γ} {items : List α} (h : forall a, a ∈ items -> f (wrap a) = pure (g a)) :
    (items.map wrap).mapM f = pure (items.map g) := by
  induction items with
  | nil => rfl
  | cons a rest ih =>
      rw [List.map_cons, List.mapM_cons, h a List.mem_cons_self, pure_bind,
        ih fun b hb => h b (List.mem_cons_of_mem a hb), pure_bind, List.map_cons]

namespace Link

/-!
## One link
-/

theorem send_taken {medium : Medium Id κ} {link : Link κ} {bytes : List UInt8} {connection : κ}
    (h : medium.write link.connection bytes = (.taken bytes.length, connection)) :
    send medium bytes link = (.ok (), { link with connection }) := by
  show (link.judgeWrite bytes.length (medium.write link.connection bytes).1,
    { link with connection := (medium.write link.connection bytes).2 }) = _
  rw [h, judgeWrite, if_pos rfl]

theorem judgeRead_encode (link : Link κ) (deadline : Duration) (r : Reply) :
    judgeRead r.kind deadline link (.bytes r.encode) = .ok r := by
  rcases hbytes : r.encode with _ | ⟨byte, rest⟩
  · have hpos := Reply.length_encode_pos r
    rw [hbytes] at hpos
    exact absurd hpos (Nat.lt_irrefl 0)
  · show (Reply.decode r.kind (byte :: rest)).mapError _ = _
    rw [← hbytes, Reply.decode_encode]
    rfl

/-!
## Several links
-/

section

variable {medium : Medium Id κ} {items : List ι} {link sent after : ι -> Link κ}
  {reply : ι -> Reply}

theorem sendEach_each {bytes : List UInt8}
    (h : forall i, i ∈ items -> send medium bytes (link i) = (.ok (), sent i)) :
    sendEach medium bytes (items.map link) = (.ok (), items.map sent) := by
  induction items with
  | nil => rfl
  | cons i rest ih =>
      have hrest := ih fun j hj => h j (List.mem_cons_of_mem i hj)
      simp only [List.map_cons, sendEach]
      rw [h i List.mem_cons_self]
      simp only [bind, hrest]
      rfl

/-- Whole replies of one kind are joined to these replies. -/
theorem join_each (hjoin : LawfulJoin medium.join) {kind : ReplyKind}
    (hkind : forall i, i ∈ items -> (reply i).kind = kind) (deadline : Duration) :
    medium.join ((items.map fun i => (sent i, Heard.bytes (reply i).encode)).map
      (ending kind deadline)) = .ok (items.map reply) := by
  apply hjoin.ok_of_results
  rw [List.map_map, List.map_map, List.map_map]
  apply List.map_congr_left
  intro i hi
  have hone := judgeRead_encode (sent i) deadline (reply i)
  rw [hkind i hi] at hone
  exact hone

theorem exchange_each (hjoin : LawfulJoin medium.join) {c : Command}
    (hkind : forall i, i ∈ items -> (reply i).kind = c.replyKind)
    (hsend : forall i, i ∈ items -> send medium c.frame (link i) = (.ok (), sent i))
    (hread : medium.readEach (items.map fun i => (sent i).connection) c.replyKind.bufferLength
        c.replyKind.deadline =
      items.map fun i => (.bytes (reply i).encode, (after i).connection))
    (hsame : forall i, { sent i with connection := (after i).connection } = after i) :
    exchange medium c (items.map link) = (.ok (items.map reply), items.map after) := by
  by_cases hempty : items = []
  · subst hempty
    rfl
  have hsome : ¬ (items.map link).isEmpty = true := by
    simpa using hempty
  have hconnections : (items.map sent).map Link.connection =
      items.map fun i => (sent i).connection :=
    List.map_map
  unfold exchange
  rw [if_neg hsome, broadcast, c.encode_eq]
  simp only [bind, sendEach_each hsend, collect, readReplies, hconnections, hread]
  rw [List.map_map, List.zip_map', List.zipWith_map, List.zipWith_self]
  show (medium.join ((items.map fun i => (sent i, Heard.bytes (reply i).encode)).map
    (ending c.replyKind c.replyKind.deadline)), _) = _
  rw [join_each hjoin hkind]
  simp only [hsame]

end
end Link

namespace Peer

/-!
## Peers that answer
-/

theorem write_answered {p : Peer} {bytes reply : List UInt8} (hlive : p.state = .live)
    (hdrained : p.unread = [])
    (hconduct : p.conduct (p.received ++ [bytes]) = .answer reply) :
    p.write bytes =
      (.taken bytes.length, { p with received := p.received ++ [bytes], unread := reply }) := by
  unfold write
  rw [if_pos hlive]
  simp only [hconduct, hdrained, List.nil_append, List.take_length]

theorem read_reply {p : Peer} {r : Reply} (h : p.unread = r.encode) :
    p.read r.kind.bufferLength = (.bytes r.encode, { p with unread := [] }) := by
  have hlength := Reply.length_encode_le r
  have hsome : ¬ r.encode.isEmpty = true := by
    rw [List.isEmpty_iff_length_eq_zero]
    exact Nat.ne_of_gt (Reply.length_encode_pos r)
  unfold read
  rw [h, if_neg hsome, List.take_of_length_le hlength, List.drop_of_length_le hlength]

end Peer
end LoadFleet
