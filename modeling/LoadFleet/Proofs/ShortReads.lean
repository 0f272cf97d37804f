import LoadFleet.Proofs.RoundTrips

/-!
# Reads that end too early

A read may bring in only the front of what was written.  What a reader finds, or refuses, it finds
or refuses whatever else follows, unless a field itself was cut.  A reply that is cut is therefore
never taken for another: its reader runs short, except where the cut leaves the whole first frame
and nothing of the trailer.
-/

namespace LoadFleet

/-- A fault of a field for which too few bytes were left. -/
def WireFault.Short (fault : WireFault) : Prop :=
  exists context needed available, available < needed ∧ fault = .truncated context needed available

namespace Reader

/-!
## Readers and what follows

The bytes behind those that a reader has looked at make no difference to it.
-/

/-- What a reader does with bytes it also does when more bytes follow, unless it runs short. -/
structure Steady (r : Reader α) : Prop where
  found : forall {bytes rest : List UInt8} {value : α}, r bytes = .ok (value, rest) ->
    forall more, r (bytes ++ more) = .ok (value, rest ++ more)
  refused : forall {bytes : List UInt8} {fault : WireFault}, r bytes = .error fault ->
    fault.Short ∨ forall more, r (bytes ++ more) = .error fault

theorem steady_pure (value : α) : Steady (pure value : Reader α) where
  found := by
    intro bytes rest found h more
    cases h
    rfl
  refused := by
    intro bytes fault h
    cases h

theorem steady_throw (fault : WireFault) : Steady (throw fault : Reader α) where
  found := by
    intro bytes rest found h
    cases h
  refused := by
    intro bytes other h
    cases h
    exact .inr fun more => rfl

theorem steady_take (count : Nat) (context : String) : Steady (take count context) where
  found := by
    intro bytes rest found h more
    unfold take at h
    by_cases hshort : bytes.length < count
    · rw [if_pos hshort] at h
      cases h
    · rw [if_neg hshort] at h
      cases h
      have hlength : count ≤ bytes.length := Nat.le_of_not_lt hshort
      have hmore : ¬ (bytes ++ more).length < count := by
        rw [List.length_append]
        omega
      unfold take
      rw [if_neg hmore, List.take_append_of_le_length hlength,
        List.drop_append_of_le_length hlength]
  refused := by
    intro bytes fault h
    unfold take at h
    by_cases hshort : bytes.length < count
    · rw [if_pos hshort] at h
      cases h
      exact .inl ⟨context, count, bytes.length, hshort, rfl⟩
    · rw [if_neg hshort] at h
      cases h

namespace Steady

theorem bind {r : Reader α} {f : α -> Reader β} (h : Steady r) (h' : forall a, Steady (f a)) :
    Steady (r >>= f) where
  found := by
    intro bytes rest value hboth more
    cases hfirst : r bytes with
    | error fault =>
        rw [bind_apply_error hfirst] at hboth
        cases hboth
    | ok taken =>
        rcases taken with ⟨a, left⟩
        rw [bind_apply_ok hfirst] at hboth
        rw [bind_apply_ok (h.found hfirst more)]
        exact (h' a).found hboth more
  refused := by
    intro bytes fault hboth
    cases hfirst : r bytes with
    | error first =>
        rw [bind_apply_error hfirst] at hboth
        cases hboth
        rcases h.refused hfirst with hshort | hmore
        · exact .inl hshort
        · exact .inr fun more => bind_apply_error (hmore more)
    | ok taken =>
        rcases taken with ⟨a, left⟩
        rw [bind_apply_ok hfirst] at hboth
        rcases (h' a).refused hboth with hshort | hmore
        · exact .inl hshort
        · refine .inr fun more => ?_
          rw [bind_apply_ok (h.found hfirst more)]
          exact hmore more

theorem map {r : Reader α} (h : Steady r) (f : α -> β) : Steady (do return f (← r)) :=
  h.bind fun a => steady_pure (f a)

theorem ite {condition : Prop} [Decidable condition] {r s : Reader α} (hr : Steady r)
    (hs : Steady s) : Steady (if condition then r else s) := by
  by_cases h : condition
  · rw [if_pos h]
    exact hr
  · rw [if_neg h]
    exact hs

/-- A reader that takes certain bytes runs short on any part of them that lacks the end. -/
theorem short_of_takes {r : Reader α} (h : Steady r) {bytes : List UInt8} {value : α}
    (htakes : Takes r bytes value) {n : Nat} (hcut : n < bytes.length) :
    exists fault, fault.Short ∧ r (bytes.take n) = .error fault := by
  have hwhole : r (bytes.take n ++ bytes.drop n) = .ok (value, []) := by
    have hall := htakes []
    rw [List.append_nil] at hall
    rw [List.take_append_drop, hall]
  cases hfront : r (bytes.take n) with
  | ok taken =>
      -- Then the bytes that were cut off would be left over from the whole.
      rcases taken with ⟨found, left⟩
      rw [h.found hfront] at hwhole
      have hnothing : left ++ bytes.drop n = [] := (Prod.mk.inj (Except.ok.inj hwhole)).right
      have hlength := congrArg List.length hnothing
      rw [List.length_append, List.length_drop, List.length_nil] at hlength
      omega
  | error fault =>
      rcases h.refused hfront with hshort | hmore
      · exact ⟨fault, hshort, rfl⟩
      · rw [hmore] at hwhole
        cases hwhole

end Steady

theorem steady_word32 (context : String) : Steady (word32 context) :=
  (steady_take 4 context).map LittleEndian.word32

theorem steady_word64 (context : String) : Steady (word64 context) :=
  (steady_take 8 context).map LittleEndian.word64

theorem steady_float (context : String) : Steady (float context) :=
  (steady_take 8 context).map LittleEndian.float

theorem steady_header (context : String) : Steady (header context) :=
  (steady_take Frame.headerLength context).map fun taken => LittleEndian.word32 (taken.take 4)

theorem steady_replyTagged (tag : UInt32) (context : String) :
    Steady (replyTagged tag context) := by
  have htag : Steady (do
      let actual ← word32 context
      if actual ≠ tag then throw (.replyTag context tag actual)) :=
    (steady_word32 context).bind fun actual => (steady_throw _).ite (steady_pure ())
  refine (steady_header context).bind fun messageType => ?_
  exact ((steady_throw _).bind fun _ => htag).ite htag

end Reader

namespace Reply

open Reader

/-!
## Readers of replies
-/

theorem steady_counters : Steady readCounters := by
  refine (steady_word64 _).bind fun rxBytes => ?_
  refine (steady_word64 _).bind fun txBytes => ?_
  refine (steady_word64 _).bind fun rxRequests => ?_
  exact (steady_word64 _).map (Counters.mk rxBytes txBytes rxRequests)

theorem steady_estimate (context : String) : Steady (readEstimate context) := by
  refine (steady_word64 _).bind fun lower => ?_
  refine (steady_word64 _).bind fun value => ?_
  exact (steady_word64 _).map (Estimate.mk lower value)

theorem steady_stats : Steady readStats := by
  refine steady_counters.bind fun throughput => ?_
  refine (steady_word64 _).bind fun average => ?_
  refine (steady_estimate _).bind fun p50 => ?_
  refine (steady_estimate _).bind fun p90 => ?_
  refine (steady_estimate _).bind fun p95 => ?_
  exact (steady_estimate _).map (LatencyStats.mk throughput average p50 p90 p95)

theorem steady_interArrival : Steady readInterArrival :=
  (steady_replyTagged _ _).bind fun _ => steady_word32 _

theorem steady_trailer : Steady readTrailer := by
  refine (steady_replyTagged _ _).bind fun _ => ?_
  refine (steady_word32 _).bind fun convergence => ?_
  refine (steady_replyTagged _ _).bind fun _ => ?_
  refine (steady_float _).bind fun correlation => ?_
  exact steady_interArrival.map (Trailer.mk convergence correlation)

theorem steady_optional {r : Reader α} (h : Steady r) (present : Bool) :
    Steady (readOptional present r) := by
  cases present with
  | false => exact steady_pure none
  | true =>
      show Steady (some <$> r)
      rw [map_eq_pure_bind]
      exact h.map some

theorem steady_reader (length : Nat) (kind : ReplyKind) : Steady (reader length kind) := by
  cases kind with
  | ack => exact (steady_replyTagged _ _).bind fun _ => steady_pure Reply.ack
  | throughput =>
      refine (steady_replyTagged _ _).bind fun _ => ?_
      refine steady_counters.bind fun stats => ?_
      exact (steady_optional steady_interArrival _).map fun interArrival =>
        Reply.throughput ⟨stats, interArrival⟩
  | latency =>
      refine (steady_replyTagged _ _).bind fun _ => ?_
      refine steady_stats.bind fun stats => ?_
      exact (steady_optional steady_trailer _).map fun trailer =>
        Reply.latency ⟨stats, trailer⟩

/-!
## Replies that are cut
-/

/-- The count of bytes matters only in whether it exceeds the first frame. -/
theorem reader_congr {length other : Nat} {kind : ReplyKind}
    (h : writtenLength kind false < length <-> writtenLength kind false < other) :
    reader length kind = reader other kind := by
  cases kind with
  | ack => rfl
  | throughput =>
      have hpresent : decide (Frame.throughputLength < length) =
          decide (Frame.throughputLength < other) := decide_eq_decide.mpr h
      simp only [reader, hpresent]
  | latency =>
      have hpresent : decide (Frame.latencyLength < length) =
          decide (Frame.latencyLength < other) := decide_eq_decide.mpr h
      simp only [reader, hpresent]

/-- Bytes that end before a reply does, on the same side of the end of its first frame, are too
few. -/
theorem decode_short (r : Reply) {n : Nat} (hcut : n < r.encode.length)
    (hside : writtenLength r.kind false < n <-> writtenLength r.kind false < r.encode.length) :
    exists fault, fault.Short ∧ decode r.kind (r.encode.take n) = .error fault := by
  have hlength : (r.encode.take n).length = n := List.length_take_of_le (Nat.le_of_lt hcut)
  rcases (steady_reader _ _).short_of_takes r.takes_encode hcut with ⟨fault, hshort, hfault⟩
  refine ⟨fault, hshort, ?_⟩
  unfold decode Reader.run
  rw [hlength, reader_congr hside, hfault]
  rfl

def untrailed : Reply -> Reply
  | .ack => .ack
  | .throughput report => .throughput ⟨report.stats, none⟩
  | .latency report => .latency ⟨report.stats, none⟩

theorem kind_untrailed (r : Reply) : r.untrailed.kind = r.kind := by
  cases r <;> rfl

theorem length_untrailed (r : Reply) :
    r.untrailed.encode.length = writtenLength r.kind false := by
  rw [length_encode, kind_untrailed]
  cases r <;> rfl

theorem encode_untrailed (r : Reply) : r.untrailed.encode <+: r.encode := by
  cases r with
  | ack => exact List.prefix_rfl
  | throughput report =>
      show frameStart _ _ ++ _ ++ [] <+: frameStart _ _ ++ _ ++ _
      rw [List.append_nil]
      exact List.prefix_append _ _
  | latency report =>
      show frameStart _ _ ++ _ ++ [] <+: frameStart _ _ ++ _ ++ _
      rw [List.append_nil]
      exact List.prefix_append _ _

theorem take_encode (r : Reply) {n : Nat} (h : n ≤ writtenLength r.kind false) :
    r.encode.take n = r.untrailed.encode.take n := by
  rcases r.encode_untrailed with ⟨trailer, hsplit⟩
  rw [← hsplit, List.take_append_of_le_length]
  rw [length_untrailed]
  exact h

/-- Only the whole first frame of a reply with a trailer is taken for a reply, and then for the one
without the trailer.  Any other part that lacks the end of a reply ends in a field of which too few
bytes are left. -/
theorem decode_cut (r : Reply) (n : Nat) (hcut : n < r.encode.length) :
    (n = writtenLength r.kind false ->
      r.isTrailed = true ∧ decode r.kind (r.encode.take n) = .ok r.untrailed) ∧
    (n ≠ writtenLength r.kind false ->
      exists context needed available, available < needed ∧
        decode r.kind (r.encode.take n) = .error (.truncated context needed available)) := by
  constructor
  · intro hframe
    subst hframe
    constructor
    · cases htrailed : r.isTrailed with
      | true => rfl
      | false =>
          rw [length_encode, htrailed] at hcut
          exact absurd hcut (Nat.lt_irrefl _)
    · rw [r.take_encode (Nat.le_refl _), List.take_of_length_le (Nat.le_of_eq r.length_untrailed),
        ← r.kind_untrailed]
      exact decode_encode r.untrailed
  · intro hother
    have hshort : exists fault, fault.Short ∧ decode r.kind (r.encode.take n) = .error fault := by
      rcases Nat.lt_or_gt_of_ne hother with hbefore | hbehind
      · -- The trailer is out of reach, so the reply might as well have none.
        have hend := r.untrailed.decode_short (n := n)
        rw [kind_untrailed, length_untrailed, ← r.take_encode (Nat.le_of_lt hbefore)] at hend
        exact hend hbefore ⟨fun h => absurd h (Nat.not_lt_of_gt hbefore),
          fun h => absurd h (Nat.lt_irrefl _)⟩
      · exact r.decode_short hcut ⟨fun _ => Nat.lt_trans hbehind hcut, fun _ => hbehind⟩
    rcases hshort with ⟨fault, ⟨context, needed, available, hless, rfl⟩, hfault⟩
    exact ⟨context, needed, available, hless, hfault⟩

/-- A latency reply that ends with its first frame has lost its trailer and nothing else, while one
byte more starts a trailer that never ends. -/
theorem decode_cut_betweenFrames :
    let stats : LatencyStats :=
      ⟨⟨4096, 2048, 100, 101⟩, 500, ⟨400, 410, 420⟩, ⟨700, 710, 720⟩, ⟨800, 810, 820⟩,
        ⟨900, 910, 920⟩⟩
    let r := Reply.latency ⟨stats, some ⟨1, 0.125, 1⟩⟩
    decode .latency (r.encode.take 148) = .ok (.latency ⟨stats, none⟩) ∧
      exists context needed available, available < needed ∧
        decode .latency (r.encode.take 149) = .error (.truncated context needed available) := by
  intro stats r
  have hlength : r.encode.length = 200 := r.length_encode
  have hframe := decode_cut r 148 (by rw [hlength]; decide)
  have hbehind := decode_cut r 149 (by rw [hlength]; decide)
  exact ⟨(hframe.left rfl).right, hbehind.right (by decide)⟩

end Reply
end LoadFleet
