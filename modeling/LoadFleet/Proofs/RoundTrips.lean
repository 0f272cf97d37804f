import LoadFleet.Proofs.FieldAccess
import LoadFleet.Protocol.Reply
import Mathlib

/-!
# Reading what was written

Every frame that is written is read back as the command or reply it was made from, whatever follows
it.  Where a reader takes certain bytes off the front, readers in sequence take the bytes of each
of them one after the other.
-/

namespace LoadFleet

namespace LittleEndian

theorem float_ofFloat (x : Float) : float (ofFloat x) = x := by
  unfold float ofFloat
  rw [word64_ofWord64, Float.ofBits_toBits]

end LittleEndian

namespace Reader

open LittleEndian

/-!
## Readers of written fields
-/

/-- A reader takes exactly these bytes off the front, and finds a value in them. -/
def Takes (r : Reader α) (bytes : List UInt8) (value : α) : Prop :=
  forall rest, r (bytes ++ rest) = .ok (value, rest)

theorem takes_pure (value : α) : Takes (pure value) [] value := by
  intro rest
  rfl

theorem takes_take {bytes : List UInt8} {count : Nat} (hlength : bytes.length = count)
    (context : String) :
    Takes (take count context) bytes bytes := by
  subst hlength
  intro rest
  simp [take]

namespace Takes

theorem bind {r : Reader α} {f : α -> Reader β} {bytes others : List UInt8} {a : α} {b : β}
    (h : Takes r bytes a) (h' : Takes (f a) others b) :
    Takes (r >>= f) (bytes ++ others) b := by
  intro rest
  rw [List.append_assoc, bind_apply_ok (h (others ++ rest))]
  exact h' rest

theorem map {r : Reader α} {bytes : List UInt8} {a : α} (h : Takes r bytes a) (f : α -> β) :
    Takes (do return f (← r)) bytes (f a) := by
  have hchain : Takes (do return f (← r)) (bytes ++ []) (f a) := h.bind (takes_pure (f a))
  rw [List.append_nil] at hchain
  exact hchain

theorem some_map {r : Reader α} {bytes : List UInt8} {a : α} (h : Takes r bytes a) :
    Takes (some <$> r) bytes (some a) := by
  rw [map_eq_pure_bind]
  exact h.map some

theorem run_eq {r : Reader α} {bytes : List UInt8} {a : α} (h : Takes r bytes a) :
    r.run bytes = .ok a := by
  have hall := h []
  rw [List.append_nil] at hall
  unfold Reader.run
  rw [hall]
  rfl

end Takes

theorem takes_word32 (w : UInt32) (context : String) :
    Takes (word32 context) (ofWord32 w) w := by
  have h := (takes_take (length_ofWord32 w) context).map LittleEndian.word32
  rw [word32_ofWord32] at h
  exact h

theorem takes_word64 (w : UInt64) (context : String) :
    Takes (word64 context) (ofWord64 w) w := by
  have h := (takes_take (length_ofWord64 w) context).map LittleEndian.word64
  rw [word64_ofWord64] at h
  exact h

theorem takes_float (x : Float) (context : String) :
    Takes (float context) (ofFloat x) x := by
  have h := (takes_take (length_ofFloat x) context).map LittleEndian.float
  rw [float_ofFloat] at h
  exact h

theorem takes_header (messageType length : UInt32) (context : String) :
    Takes (header context) (ofWord32 messageType ++ ofWord32 length) messageType := by
  have hlength : (ofWord32 messageType ++ ofWord32 length).length = Frame.headerLength := by
    rw [List.length_append, length_ofWord32, length_ofWord32]
    rfl
  have htype : LittleEndian.word32 ((ofWord32 messageType ++ ofWord32 length).take 4) =
      messageType := by
    rw [List.take_left' (length_ofWord32 messageType), word32_ofWord32]
  have h := (takes_take hlength context).map fun taken => LittleEndian.word32 (taken.take 4)
  rw [htype] at h
  exact h

theorem takes_replyTagged (length tag : UInt32) (context : String) :
    Takes (replyTagged tag context)
      (ofWord32 Frame.reply ++ ofWord32 length ++ ofWord32 tag) () := by
  apply (takes_header Frame.reply length context).bind
  intro rest
  have htag := takes_word32 tag context rest
  simp only [ne_eq, not_true_eq_false, if_false]
  rw [bind_apply_ok htag, if_neg (not_not_intro rfl)]
  rfl

end Reader

namespace Reply

open LittleEndian
open Reader

/-!
## Replies
-/

theorem takes_counters (c : Counters) : Takes readCounters (encodeCounters c) c := by
  unfold readCounters encodeCounters
  simp only [List.append_assoc]
  refine (takes_word64 c.rxBytes _).bind ?_
  refine (takes_word64 c.txBytes _).bind ?_
  refine (takes_word64 c.rxRequests _).bind ?_
  exact (takes_word64 c.txRequests _).map (Counters.mk c.rxBytes c.txBytes c.rxRequests)

theorem takes_estimate (e : Estimate) (context : String) :
    Takes (readEstimate context) (encodeEstimate e) e := by
  unfold readEstimate encodeEstimate
  simp only [List.append_assoc]
  refine (takes_word64 e.lower _).bind ?_
  refine (takes_word64 e.value _).bind ?_
  exact (takes_word64 e.upper _).map (Estimate.mk e.lower e.value)

theorem takes_stats (s : LatencyStats) : Takes readStats (encodeStats s) s := by
  unfold readStats encodeStats
  simp only [List.append_assoc]
  refine (takes_counters s.throughput).bind ?_
  refine (takes_word64 s.average _).bind ?_
  refine (takes_estimate s.p50 _).bind ?_
  refine (takes_estimate s.p90 _).bind ?_
  refine (takes_estimate s.p95 _).bind ?_
  exact (takes_estimate s.p99 _).map
    (LatencyStats.mk s.throughput s.average s.p50 s.p90 s.p95)

/-- Whatever length a frame is started with, the reader of its tag takes its start. -/
theorem takes_frameStart (tag : UInt32) (length : Nat) (context : String) :
    Takes (replyTagged tag context) (frameStart tag length) () :=
  takes_replyTagged _ tag context

theorem takes_interArrival (flag : UInt32) :
    Takes readInterArrival (interArrivalFrame flag) flag :=
  (takes_frameStart Frame.interArrivalTag _ _).bind (takes_word32 flag _)

theorem takes_trailer (t : Trailer) : Takes readTrailer (trailerFrames t) t := by
  unfold readTrailer trailerFrames
  -- The fields of the frames are taken in one sequence, so the bytes are put into one as well.
  simp only [List.append_assoc]
  refine (takes_frameStart Frame.convergenceTag _ _).bind ?_
  refine (takes_word32 t.convergence _).bind ?_
  refine (takes_frameStart Frame.correlationTag _ _).bind ?_
  refine (takes_float t.correlation _).bind ?_
  exact (takes_interArrival t.interArrival).map (Trailer.mk t.convergence t.correlation)

/-- A part that may be missing is looked for exactly where it was written. -/
theorem takes_optional {r : Reader α} {write : α -> List UInt8}
    (h : forall a, Takes r (write a) a) (part : Option α) :
    Takes (readOptional part.isSome r) ((part.map write).getD []) part := by
  cases part with
  | none => exact takes_pure none
  | some a => exact (h a).some_map

/-!
## Lengths
-/

theorem length_frameStart (tag : UInt32) (length : Nat) : (frameStart tag length).length = 12 := by
  simp [frameStart]

theorem length_encodeCounters (c : Counters) : (encodeCounters c).length = 32 := by
  simp [encodeCounters]

theorem length_encodeStats (s : LatencyStats) : (encodeStats s).length = 136 := by
  simp [encodeStats, encodeEstimate, length_encodeCounters]

theorem length_interArrivalFrame (flag : UInt32) : (interArrivalFrame flag).length = 16 := by
  simp [interArrivalFrame, length_frameStart]

theorem length_trailerFrames (t : Trailer) : (trailerFrames t).length = 52 := by
  simp [trailerFrames, length_frameStart, length_interArrivalFrame]

def isTrailed : Reply -> Bool
  | .ack => false
  | .throughput report => report.interArrival.isSome
  | .latency report => report.trailer.isSome

def writtenLength : ReplyKind -> Bool -> Nat
  | .ack, _ => 12
  | .throughput, trailed => if trailed then 60 else 44
  | .latency, trailed => if trailed then 200 else 148

theorem length_encode (r : Reply) : r.encode.length = writtenLength r.kind r.isTrailed := by
  rcases r with _ | ⟨stats, _ | flag⟩ | ⟨stats, _ | trailer⟩
  · rfl
  · simp [encode, length_frameStart, length_encodeCounters, writtenLength, kind, isTrailed]
  · simp [encode, length_frameStart, length_encodeCounters, length_interArrivalFrame, writtenLength,
      kind, isTrailed]
  · simp [encode, length_frameStart, length_encodeStats, writtenLength, kind, isTrailed]
  · simp [encode, length_frameStart, length_encodeStats, length_trailerFrames, writtenLength, kind,
      isTrailed]

theorem length_encode_le (r : Reply) : r.encode.length ≤ r.kind.bufferLength := by
  rw [length_encode]
  cases r.kind <;> cases r.isTrailed <;> decide

theorem length_encode_pos (r : Reply) : 0 < r.encode.length := by
  rw [length_encode]
  cases r.kind <;> cases r.isTrailed <;> decide

theorem throughputLength_lt (report : ThroughputReport) :
    decide (Frame.throughputLength < (Reply.throughput report).encode.length) =
      report.interArrival.isSome := by
  have htrailed : forall trailed, decide (44 < writtenLength .throughput trailed) = trailed := by
    decide
  rw [length_encode]
  exact htrailed report.interArrival.isSome

theorem latencyLength_lt (report : LatencyReport) :
    decide (Frame.latencyLength < (Reply.latency report).encode.length) =
      report.trailer.isSome := by
  have htrailed : forall trailed, decide (148 < writtenLength .latency trailed) = trailed := by
    decide
  rw [length_encode]
  exact htrailed report.trailer.isSome

/-!
## Whole replies
-/

theorem takes_throughput (report : ThroughputReport) :
    Takes (reader (Reply.throughput report).encode.length .throughput)
      (Reply.throughput report).encode (.throughput report) := by
  simp only [reader, throughputLength_lt]
  rw [encode, List.append_assoc]
  refine (takes_frameStart Frame.throughputTag _ _).bind ?_
  refine (takes_counters report.stats).bind ?_
  exact (takes_optional takes_interArrival report.interArrival).map fun interArrival =>
    Reply.throughput ⟨report.stats, interArrival⟩

theorem takes_latency (report : LatencyReport) :
    Takes (reader (Reply.latency report).encode.length .latency)
      (Reply.latency report).encode (.latency report) := by
  simp only [reader, latencyLength_lt]
  rw [encode, List.append_assoc]
  refine (takes_frameStart Frame.latencyTag _ _).bind ?_
  refine (takes_stats report.stats).bind ?_
  exact (takes_optional takes_trailer report.trailer).map fun trailer =>
    Reply.latency ⟨report.stats, trailer⟩

theorem takes_encode (r : Reply) : Takes (reader r.encode.length r.kind) r.encode r := by
  cases r with
  | ack => exact (takes_frameStart Frame.ackTag _ _).map fun _ => Reply.ack
  | throughput report => exact takes_throughput report
  | latency report => exact takes_latency report

/-- A reply that one read brings in whole is the one that was written. -/
theorem decode_encode (r : Reply) : decode r.kind r.encode = .ok r :=
  r.takes_encode.run_eq

end Reply

namespace Command

open LittleEndian
open Reader

/-!
## Commands
-/

def frame (c : Command) : List UInt8 :=
  ofWord32 c.messageType ++ ofWord32 (UInt32.ofNat c.payloadLength) ++ c.payload

theorem length_payload (c : Command) : c.payload.length = c.payloadLength := by
  cases c with
  | startLoad load => exact length_ofWord32 load
  | startMeasure sampleCount samplingRate => simp [payload, payloadLength]
  | report kind => exact length_ofWord32 kind.code

theorem encode_eq (c : Command) : c.encode = .ok c.frame :=
  if_pos c.length_payload

theorem takes_frame (c : Command) : Takes reader c.frame c := by
  unfold reader
  cases c with
  | startLoad load =>
      apply (takes_header Frame.startLoad _ _).bind
      exact (takes_word32 load _).map Command.startLoad
  | startMeasure sampleCount samplingRate =>
      apply (takes_header Frame.startMeasure _ _).bind
      rw [if_neg (by decide), if_pos rfl]
      refine (takes_word32 sampleCount _).bind ?_
      exact (takes_float samplingRate _).map (Command.startMeasure sampleCount)
  | report kind =>
      apply (takes_header Frame.reportRequest _ _).bind
      rw [if_neg (by decide), if_neg (by decide), if_pos rfl]
      intro rest
      refine (bind_apply_ok (takes_word32 kind.code _ rest)).trans ?_
      cases kind with
      | throughput => rfl
      | latency => rfl

theorem decode_frame (c : Command) : decode c.frame = .ok c :=
  c.takes_frame.run_eq

end Command
end LoadFleet
