import LoadFleet.Protocol.Command
import LoadFleet.Sample.Report

/-!
# Replies

A reply is an acknowledgement or a report. It starts with one frame; a report may be followed by
trailer frames, which are looked for exactly when more bytes were read than the first frame has.
-/

namespace LoadFleet

inductive Reply where
  | ack
  | throughput (report : ThroughputReport)
  | latency (report : LatencyReport)
deriving DecidableEq

namespace Reply

def kind : Reply -> ReplyKind
  | .ack => .ack
  | .throughput _ => .throughput
  | .latency _ => .latency

def kindMismatch (wanted : ReplyKind) (r : Reply) : WireFault :=
  .replyTag "reply kind" wanted.tag r.kind.tag

def toThroughput : Reply -> Except WireFault ThroughputReport
  | .throughput report => .ok report
  | r => .error (kindMismatch .throughput r)

def toLatency : Reply -> Except WireFault LatencyReport
  | .latency report => .ok report
  | r => .error (kindMismatch .latency r)

/-!
## Writing

What a frame declares follows from the length that its tag stands for. It is not counted from the
body, which is written field by field behind it.
-/

/-- The start of a reply frame of a length; an acknowledgement has no length of its own. -/
def frameStart (tag : UInt32) (length : Nat) : List UInt8 :=
  LittleEndian.ofWord32 Frame.reply ++ LittleEndian.ofWord32 (Frame.declared length)
    ++ LittleEndian.ofWord32 tag

def encodeCounters (c : Counters) : List UInt8 :=
  LittleEndian.ofWord64 c.rxBytes ++ LittleEndian.ofWord64 c.txBytes
    ++ LittleEndian.ofWord64 c.rxRequests ++ LittleEndian.ofWord64 c.txRequests

def encodeEstimate (e : Estimate) : List UInt8 :=
  LittleEndian.ofWord64 e.lower ++ LittleEndian.ofWord64 e.value ++ LittleEndian.ofWord64 e.upper

def encodeStats (s : LatencyStats) : List UInt8 :=
  encodeCounters s.throughput ++ LittleEndian.ofWord64 s.average ++ encodeEstimate s.p50
    ++ encodeEstimate s.p90 ++ encodeEstimate s.p95 ++ encodeEstimate s.p99

def interArrivalFrame (flag : UInt32) : List UInt8 :=
  frameStart Frame.interArrivalTag Frame.interArrivalLength ++ LittleEndian.ofWord32 flag

def trailerFrames (t : Trailer) : List UInt8 :=
  frameStart Frame.convergenceTag Frame.convergenceLength ++ LittleEndian.ofWord32 t.convergence
    ++ (frameStart Frame.correlationTag Frame.correlationLength
      ++ LittleEndian.ofFloat t.correlation)
    ++ interArrivalFrame t.interArrival

def encode : Reply -> List UInt8
  | .ack => frameStart Frame.ackTag 0
  | .throughput report =>
      frameStart Frame.throughputTag Frame.throughputLength ++ encodeCounters report.stats
        ++ (report.interArrival.map interArrivalFrame).getD []
  | .latency report =>
      frameStart Frame.latencyTag Frame.latencyLength ++ encodeStats report.stats
        ++ (report.trailer.map trailerFrames).getD []

/-!
## Reading
-/

def readCounters : Reader Counters := do
  let rxBytes ← Reader.word64 "throughput rx_bytes"
  let txBytes ← Reader.word64 "throughput tx_bytes"
  let rxRequests ← Reader.word64 "throughput rx_reqs"
  let txRequests ← Reader.word64 "throughput tx_reqs"
  return { rxBytes, txBytes, rxRequests, txRequests }

def readEstimate (context : String) : Reader Estimate := do
  let lower ← Reader.word64 context
  let value ← Reader.word64 context
  let upper ← Reader.word64 context
  return { lower, value, upper }

def readStats : Reader LatencyStats := do
  let throughput ← readCounters
  let average ← Reader.word64 "latency average"
  let p50 ← readEstimate "latency p50"
  let p90 ← readEstimate "latency p90"
  let p95 ← readEstimate "latency p95"
  let p99 ← readEstimate "latency p99"
  return { throughput, average, p50, p90, p95, p99 }

def readInterArrival : Reader UInt32 := do
  Reader.replyTagged Frame.interArrivalTag "inter-arrival trailer"
  Reader.word32 "inter-arrival compliance"

def readTrailer : Reader Trailer := do
  Reader.replyTagged Frame.convergenceTag "convergence trailer"
  let convergence ← Reader.word32 "convergence value"
  Reader.replyTagged Frame.correlationTag "iid trailer"
  let correlation ← Reader.float "iid correlation"
  let interArrival ← readInterArrival
  return { convergence, correlation, interArrival }

def readOptional (present : Bool) (reader : Reader α) : Reader (Option α) :=
  if present then some <$> reader else return none

/-- Takes a reply of one kind off the front of the bytes; `length` is the count of bytes that
were read together. -/
def reader (length : Nat) : ReplyKind -> Reader Reply
  | .ack => do
      Reader.replyTagged Frame.ackTag "ACK"
      return .ack
  | .throughput => do
      Reader.replyTagged Frame.throughputTag "throughput reply"
      let stats ← readCounters
      let interArrival ← readOptional (Frame.throughputLength < length) readInterArrival
      return .throughput { stats, interArrival }
  | .latency => do
      Reader.replyTagged Frame.latencyTag "latency reply"
      let stats ← readStats
      let trailer ← readOptional (Frame.latencyLength < length) readTrailer
      return .latency { stats, trailer }

def decode (kind : ReplyKind) (bytes : List UInt8) : Except WireFault Reply :=
  (reader bytes.length kind).run bytes

end Reply
end LoadFleet
