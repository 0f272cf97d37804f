import LoadFleet.Proofs.FieldAccess
import LoadFleet.Protocol.Reply

/-!
# The format of replies

The bytes of one read are a reply of a kind exactly when certain words stand at certain places and
the bytes end in one of two ways: with the first frame, or not before the last trailer frame.  All
places are counted from the front of the bytes, whatever a header says about a length.
-/

namespace LoadFleet
namespace Reply

open LittleEndian
open Reader

/-!
## Bodies and trailers
-/

theorem reads_counters :
    Reads readCounters 32 (fun _ => True)
      (fun bytes =>
        ⟨word64At bytes 0, word64At bytes 8, word64At bytes 16, word64At bytes 24⟩) := by
  have hchain :=
    (reads_word64 "throughput rx_bytes").bind fun rxBytes =>
      (reads_word64 "throughput tx_bytes").bind fun txBytes =>
      (reads_word64 "throughput rx_reqs").bind fun rxRequests =>
      (reads_word64 "throughput tx_reqs").bind fun txRequests =>
        reads_pure (Counters.mk rxBytes txBytes rxRequests txRequests)
  apply hchain.congr rfl
  · intro bytes
    simp
  · intro bytes
    simp

theorem reads_estimate (context : String) :
    Reads (readEstimate context) 24 (fun _ => True)
      (fun bytes => ⟨word64At bytes 0, word64At bytes 8, word64At bytes 16⟩) := by
  have hchain :=
    (reads_word64 context).bind fun lower =>
      (reads_word64 context).bind fun value =>
      (reads_word64 context).bind fun upper =>
        reads_pure (Estimate.mk lower value upper)
  apply hchain.congr rfl
  · intro bytes
    simp
  · intro bytes
    simp

def estimateAt (bytes : List UInt8) (place : Nat) : Estimate :=
  ⟨word64At bytes place, word64At bytes (place + 8), word64At bytes (place + 16)⟩

theorem reads_stats :
    Reads readStats 136 (fun _ => True)
      (fun bytes =>
        { throughput :=
            ⟨word64At bytes 0, word64At bytes 8, word64At bytes 16, word64At bytes 24⟩
          average := word64At bytes 32
          p50 := estimateAt bytes 40
          p90 := estimateAt bytes 64
          p95 := estimateAt bytes 88
          p99 := estimateAt bytes 112 }) := by
  have hchain :=
    reads_counters.bind fun throughput =>
      (reads_word64 "latency average").bind fun average =>
      (reads_estimate "latency p50").bind fun p50 =>
      (reads_estimate "latency p90").bind fun p90 =>
      (reads_estimate "latency p95").bind fun p95 =>
      (reads_estimate "latency p99").bind fun p99 =>
        reads_pure (LatencyStats.mk throughput average p50 p90 p95 p99)
  apply hchain.congr rfl
  · intro bytes
    simp
  · intro bytes
    simp [estimateAt]

theorem reads_interArrival :
    Reads readInterArrival 16
      (fun bytes => word32At bytes 0 = 3 ∧ word32At bytes 8 = 5)
      (fun bytes => word32At bytes 12) := by
  have hchain :=
    (reads_replyTagged Frame.interArrivalTag "inter-arrival trailer").bind fun _ =>
      reads_word32 "inter-arrival compliance"
  apply hchain.congr rfl
  · intro bytes
    simp [Frame.reply, Frame.interArrivalTag]
  · intro bytes
    simp

theorem reads_trailer :
    Reads readTrailer 52
      (fun bytes =>
        word32At bytes 0 = 3 ∧ word32At bytes 8 = 3 ∧
        word32At bytes 16 = 3 ∧ word32At bytes 24 = 4 ∧
        word32At bytes 36 = 3 ∧ word32At bytes 44 = 5)
      (fun bytes =>
        { convergence := word32At bytes 12
          correlation := Float.ofBits (word64At bytes 28)
          interArrival := word32At bytes 48 }) := by
  have hchain :=
    (reads_replyTagged Frame.convergenceTag "convergence trailer").bind fun _ =>
      (reads_word32 "convergence value").bind fun convergence =>
      (reads_replyTagged Frame.correlationTag "iid trailer").bind fun _ =>
      (reads_float "iid correlation").bind fun correlation =>
      reads_interArrival.bind fun interArrival =>
        reads_pure (Trailer.mk convergence correlation interArrival)
  apply hchain.congr rfl
  · intro bytes
    simp [Frame.reply, Frame.convergenceTag, Frame.correlationTag, and_assoc]
  · intro bytes
    simp

/-!
## Whole replies

Whether trailer frames are looked for is settled by the count of bytes before any is read, so the
two cases are readers of different width.
-/

theorem reads_optional_absent {present : Bool} (r : Reader α) (hpresent : present = false) :
    Reads (readOptional present r) 0 (fun _ => True) (fun _ => none) := by
  subst hpresent
  exact reads_pure none

theorem reads_optional_present {present : Bool} {r : Reader α} {width : Nat}
    {test : List UInt8 -> Prop} {value : List UInt8 -> α} (hpresent : present = true)
    (h : Reads r width test value) :
    Reads (readOptional present r) width test (fun bytes => some (value bytes)) := by
  subst hpresent
  exact h.some_map

theorem reads_ack (length : Nat) :
    Reads (reader length .ack) 12
      (fun bytes => word32At bytes 0 = 3 ∧ word32At bytes 8 = 0)
      (fun _ => .ack) := by
  have hchain :=
    (reads_replyTagged Frame.ackTag "ACK").bind fun _ => reads_pure Reply.ack
  apply hchain.congr rfl
  · intro bytes
    simp [Frame.reply, Frame.ackTag]
  · intro bytes
    rfl

theorem reads_throughput_bare {length : Nat} (hlength : ¬ 44 < length) :
    Reads (reader length .throughput) 44
      (fun bytes => word32At bytes 0 = 3 ∧ word32At bytes 8 = 1)
      (fun bytes => .throughput
        { stats :=
            ⟨word64At bytes 12, word64At bytes 20, word64At bytes 28, word64At bytes 36⟩
          interArrival := none }) := by
  have habsent : decide (Frame.throughputLength < length) = false := decide_eq_false hlength
  have hchain :=
    (reads_replyTagged Frame.throughputTag "throughput reply").bind fun _ =>
      reads_counters.bind fun stats =>
      (reads_optional_absent readInterArrival habsent).bind fun interArrival =>
        reads_pure (Reply.throughput { stats, interArrival })
  apply hchain.congr rfl
  · intro bytes
    simp [Frame.reply, Frame.throughputTag]
  · intro bytes
    simp

theorem reads_throughput_trailed {length : Nat} (hlength : 44 < length) :
    Reads (reader length .throughput) 60
      (fun bytes =>
        word32At bytes 0 = 3 ∧ word32At bytes 8 = 1 ∧
        word32At bytes 44 = 3 ∧ word32At bytes 52 = 5)
      (fun bytes => .throughput
        { stats :=
            ⟨word64At bytes 12, word64At bytes 20, word64At bytes 28, word64At bytes 36⟩
          interArrival := some (word32At bytes 56) }) := by
  have hpresent : decide (Frame.throughputLength < length) = true := decide_eq_true hlength
  have hchain :=
    (reads_replyTagged Frame.throughputTag "throughput reply").bind fun _ =>
      reads_counters.bind fun stats =>
      (reads_optional_present hpresent reads_interArrival).bind fun interArrival =>
        reads_pure (Reply.throughput { stats, interArrival })
  apply hchain.congr rfl
  · intro bytes
    simp [Frame.reply, Frame.throughputTag, and_assoc]
  · intro bytes
    simp

def latencyStatsOf (bytes : List UInt8) : LatencyStats where
  throughput := ⟨word64At bytes 12, word64At bytes 20, word64At bytes 28, word64At bytes 36⟩
  average := word64At bytes 44
  p50 := ⟨word64At bytes 52, word64At bytes 60, word64At bytes 68⟩
  p90 := ⟨word64At bytes 76, word64At bytes 84, word64At bytes 92⟩
  p95 := ⟨word64At bytes 100, word64At bytes 108, word64At bytes 116⟩
  p99 := ⟨word64At bytes 124, word64At bytes 132, word64At bytes 140⟩

theorem reads_latency_bare {length : Nat} (hlength : ¬ 148 < length) :
    Reads (reader length .latency) 148
      (fun bytes => word32At bytes 0 = 3 ∧ word32At bytes 8 = 2)
      (fun bytes => .latency { stats := latencyStatsOf bytes, trailer := none }) := by
  have habsent : decide (Frame.latencyLength < length) = false := decide_eq_false hlength
  have hchain :=
    (reads_replyTagged Frame.latencyTag "latency reply").bind fun _ =>
      reads_stats.bind fun stats =>
      (reads_optional_absent readTrailer habsent).bind fun trailer =>
        reads_pure (Reply.latency { stats, trailer })
  apply hchain.congr rfl
  · intro bytes
    simp [Frame.reply, Frame.latencyTag]
  · intro bytes
    simp [latencyStatsOf, estimateAt]

theorem reads_latency_trailed {length : Nat} (hlength : 148 < length) :
    Reads (reader length .latency) 200
      (fun bytes =>
        word32At bytes 0 = 3 ∧ word32At bytes 8 = 2 ∧
        word32At bytes 148 = 3 ∧ word32At bytes 156 = 3 ∧
        word32At bytes 164 = 3 ∧ word32At bytes 172 = 4 ∧
        word32At bytes 184 = 3 ∧ word32At bytes 192 = 5)
      (fun bytes => .latency
        { stats := latencyStatsOf bytes
          trailer := some
            { convergence := word32At bytes 160
              correlation := Float.ofBits (word64At bytes 176)
              interArrival := word32At bytes 196 } }) := by
  have hpresent : decide (Frame.latencyLength < length) = true := decide_eq_true hlength
  have hchain :=
    (reads_replyTagged Frame.latencyTag "latency reply").bind fun _ =>
      reads_stats.bind fun stats =>
      (reads_optional_present hpresent reads_trailer).bind fun trailer =>
        reads_pure (Reply.latency { stats, trailer })
  apply hchain.congr rfl
  · intro bytes
    simp [Frame.reply, Frame.latencyTag, and_assoc]
  · intro bytes
    simp [latencyStatsOf, estimateAt]

/-!
## The format and what it holds
-/

def Formatted : ReplyKind -> List UInt8 -> Prop
  | .ack, bytes => 12 ≤ bytes.length ∧ word32At bytes 0 = 3 ∧ word32At bytes 8 = 0
  | .throughput, bytes =>
      word32At bytes 0 = 3 ∧ word32At bytes 8 = 1 ∧
        (bytes.length = 44 ∨
          60 ≤ bytes.length ∧ word32At bytes 44 = 3 ∧ word32At bytes 52 = 5)
  | .latency, bytes =>
      word32At bytes 0 = 3 ∧ word32At bytes 8 = 2 ∧
        (bytes.length = 148 ∨
          200 ≤ bytes.length ∧
            word32At bytes 148 = 3 ∧ word32At bytes 156 = 3 ∧
            word32At bytes 164 = 3 ∧ word32At bytes 172 = 4 ∧
            word32At bytes 184 = 3 ∧ word32At bytes 192 = 5)

def contents : ReplyKind -> List UInt8 -> Reply
  | .ack, _ => .ack
  | .throughput, bytes => .throughput
      { stats := ⟨word64At bytes 12, word64At bytes 20, word64At bytes 28, word64At bytes 36⟩
        interArrival := if 44 < bytes.length then some (word32At bytes 56) else none }
  | .latency, bytes => .latency
      { stats := latencyStatsOf bytes
        trailer :=
          if 148 < bytes.length then
            some
              { convergence := word32At bytes 160
                correlation := Float.ofBits (word64At bytes 176)
                interArrival := word32At bytes 196 }
          else none }

theorem decode_of_formatted {kind : ReplyKind} {bytes : List UInt8}
    (h : Formatted kind bytes) :
    decode kind bytes = .ok (contents kind bytes) := by
  cases kind with
  | ack => exact (reads_ack bytes.length).run_ok h.left h.right
  | throughput =>
      rcases h with ⟨htype, htag, hbare | ⟨hlength, htrailer⟩⟩
      · have hshort : ¬ 44 < bytes.length := by omega
        simpa [decode, contents, hshort] using
          (reads_throughput_bare hshort).run_ok (Nat.le_of_eq hbare.symm) ⟨htype, htag⟩
      · have hlong : 44 < bytes.length := by omega
        simpa [decode, contents, hlong] using
          (reads_throughput_trailed hlong).run_ok hlength ⟨htype, htag, htrailer⟩
  | latency =>
      rcases h with ⟨htype, htag, hbare | ⟨hlength, htrailer⟩⟩
      · have hshort : ¬ 148 < bytes.length := by omega
        simpa [decode, contents, hshort] using
          (reads_latency_bare hshort).run_ok (Nat.le_of_eq hbare.symm) ⟨htype, htag⟩
      · have hlong : 148 < bytes.length := by omega
        simpa [decode, contents, hlong] using
          (reads_latency_trailed hlong).run_ok hlength ⟨htype, htag, htrailer⟩

theorem decode_of_not_formatted {kind : ReplyKind} {bytes : List UInt8}
    (h : ¬ Formatted kind bytes) :
    exists fault, decode kind bytes = .error fault := by
  cases kind with
  | ack => exact (reads_ack bytes.length).run_error h
  | throughput =>
      by_cases hlong : 44 < bytes.length
      · apply (reads_throughput_trailed hlong).run_error
        intro hgiven
        rcases hgiven with ⟨hlength, htype, htag, htrailer⟩
        exact h ⟨htype, htag, Or.inr ⟨hlength, htrailer⟩⟩
      · apply (reads_throughput_bare hlong).run_error
        intro hgiven
        rcases hgiven with ⟨hlength, htype, htag⟩
        exact h ⟨htype, htag, Or.inl (by omega)⟩
  | latency =>
      by_cases hlong : 148 < bytes.length
      · apply (reads_latency_trailed hlong).run_error
        intro hgiven
        rcases hgiven with ⟨hlength, htype, htag, htrailer⟩
        exact h ⟨htype, htag, Or.inr ⟨hlength, htrailer⟩⟩
      · apply (reads_latency_bare hlong).run_error
        intro hgiven
        rcases hgiven with ⟨hlength, htype, htag⟩
        exact h ⟨htype, htag, Or.inl (by omega)⟩

theorem decode_eq_ok_iff (kind : ReplyKind) (bytes : List UInt8) (r : Reply) :
    decode kind bytes = .ok r <-> Formatted kind bytes ∧ r = contents kind bytes := by
  constructor
  · intro hdecode
    by_cases hformat : Formatted kind bytes
    · rw [decode_of_formatted hformat] at hdecode
      exact ⟨hformat, (Except.ok.inj hdecode).symm⟩
    · rcases decode_of_not_formatted hformat with ⟨fault, hfault⟩
      rw [hfault] at hdecode
      cases hdecode
  · intro h
    rcases h with ⟨hformat, rfl⟩
    exact decode_of_formatted hformat

/-!
## What a reply does not depend on

Every word that is tested or kept lies before the end of the last frame and in no length field.
-/

/-- The places of the words that declare the lengths of frames. -/
def lengthPlaces : ReplyKind -> List Nat
  | .ack => [4]
  | .throughput => [4, 48]
  | .latency => [4, 152, 168, 188]

def extent : ReplyKind -> Nat
  | .ack => 12
  | .throughput => 60
  | .latency => 200

/-- Bytes that agree before the end of the last frame, up to the declared lengths.  Where one list
has ended the other has ended too, so their lengths agree as far as they matter. -/
def Agree (kind : ReplyKind) (bytes others : List UInt8) : Prop :=
  forall i, i < extent kind ->
    (forall place, place ∈ lengthPlaces kind -> i < place ∨ place + 4 ≤ i) ->
    others[i]? = bytes[i]?

namespace Agree

variable {kind : ReplyKind} {bytes others : List UInt8}

theorem word32 (h : Agree kind bytes others) (place : Nat)
    (hextent : place + 4 ≤ extent kind)
    (haway : forall l, l ∈ lengthPlaces kind -> place + 4 ≤ l ∨ l + 4 ≤ place) :
    word32At others place = word32At bytes place := by
  apply word32At_congr
  intro i hlow hhigh
  apply h i (by omega)
  intro l hl
  have := haway l hl
  omega

theorem word64 (h : Agree kind bytes others) (place : Nat)
    (hextent : place + 8 ≤ extent kind)
    (haway : forall l, l ∈ lengthPlaces kind -> place + 8 ≤ l ∨ l + 4 ≤ place) :
    word64At others place = word64At bytes place := by
  apply word64At_congr
  intro i hlow hhigh
  apply h i (by omega)
  intro l hl
  have := haway l hl
  omega

theorem lt_length_iff (h : Agree kind bytes others) (i : Nat) (hextent : i < extent kind)
    (haway : forall l, l ∈ lengthPlaces kind -> i < l ∨ l + 4 ≤ i) :
    i < others.length <-> i < bytes.length := by
  have hended : others[i]? = none <-> bytes[i]? = none := by
    rw [h i hextent haway]
  simp only [List.getElem?_eq_none_iff] at hended
  omega

theorem throughput_length (h : Agree .throughput bytes others) :
    (others.length = 44 <-> bytes.length = 44) ∧
      (44 < others.length <-> 44 < bytes.length) ∧
      (60 ≤ others.length <-> 60 ≤ bytes.length) := by
  have hend := h.lt_length_iff 43 (by decide) (by decide)
  have hmore := h.lt_length_iff 44 (by decide) (by decide)
  have hlast := h.lt_length_iff 59 (by decide) (by decide)
  omega

theorem latency_length (h : Agree .latency bytes others) :
    (others.length = 148 <-> bytes.length = 148) ∧
      (148 < others.length <-> 148 < bytes.length) ∧
      (200 ≤ others.length <-> 200 ≤ bytes.length) := by
  have hend := h.lt_length_iff 147 (by decide) (by decide)
  have hmore := h.lt_length_iff 148 (by decide) (by decide)
  have hlast := h.lt_length_iff 199 (by decide) (by decide)
  omega

theorem formatted_iff (h : Agree kind bytes others) :
    Formatted kind others <-> Formatted kind bytes := by
  cases kind with
  | ack =>
      have hend := h.lt_length_iff 11 (by decide) (by decide)
      have hlength : 12 ≤ others.length <-> 12 ≤ bytes.length := by omega
      simp (disch := decide) only [Formatted, hlength, h.word32]
  | throughput =>
      rcases h.throughput_length with ⟨hbare, _, htrailed⟩
      simp (disch := decide) only [Formatted, hbare, htrailed, h.word32]
  | latency =>
      rcases h.latency_length with ⟨hbare, _, htrailed⟩
      simp (disch := decide) only [Formatted, hbare, htrailed, h.word32]

theorem latencyStatsOf_eq (h : Agree .latency bytes others) :
    latencyStatsOf others = latencyStatsOf bytes := by
  simp (disch := decide) only [latencyStatsOf, h.word64]

theorem contents_eq (h : Agree kind bytes others) :
    contents kind others = contents kind bytes := by
  cases kind with
  | ack => rfl
  | throughput =>
      simp (disch := decide) only [contents, h.throughput_length.right.left, h.word32, h.word64]
  | latency =>
      simp (disch := decide) only [contents, h.latencyStatsOf_eq, h.latency_length.right.left,
        h.word32, h.word64]

end Agree

/-- A read is accepted as a reply of a kind exactly when it has the format of that kind, and then
gives what the format holds; any other read ends in a fault.  What is accepted does not change with
the declared lengths or with bytes behind the last frame. -/
theorem decode_exact :
    (forall kind bytes r,
      decode kind bytes = .ok r <-> Formatted kind bytes ∧ r = contents kind bytes) ∧
    (forall kind bytes, ¬ Formatted kind bytes ->
      exists fault, decode kind bytes = .error fault) ∧
    (forall kind bytes others r, decode kind bytes = .ok r -> Agree kind bytes others ->
      decode kind others = .ok r) := by
  refine ⟨decode_eq_ok_iff, fun _ _ => decode_of_not_formatted, ?_⟩
  intro kind bytes others r hdecode hagree
  rcases (decode_eq_ok_iff kind bytes r).mp hdecode with ⟨hformat, hcontents⟩
  apply (decode_eq_ok_iff kind others r).mpr
  constructor
  · exact hagree.formatted_iff.mpr hformat
  · rw [hagree.contents_eq]
    exact hcontents

end Reply
end LoadFleet
