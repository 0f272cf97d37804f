import LoadFleet.Protocol.Reader

/-!
# Commands

A command tells an agent to offer a load in operations per second, to start measuring, or to report.
Of a measurement the last samples are kept, a percentage of the operations. Each kind of command
expects one kind of reply. A command is one frame: the header and a payload of one or two numbers.
-/

namespace LoadFleet

inductive ReportKind where
  | throughput
  | latency
deriving DecidableEq

def ReportKind.code : ReportKind -> UInt32
  | .throughput => Frame.throughputKind
  | .latency => Frame.latencyKind

def ReportKind.ofCode? (code : UInt32) : Option ReportKind :=
  if code = Frame.throughputKind then some .throughput
  else if code = Frame.latencyKind then some .latency
  else none

inductive ReplyKind where
  | ack
  | throughput
  | latency
deriving DecidableEq

namespace ReplyKind

def label : ReplyKind -> String
  | .ack => "ACK"
  | .throughput => "STATS_THROUGHPUT"
  | .latency => "STATS_LATENCY"

def tag : ReplyKind -> UInt32
  | .ack => Frame.ackTag
  | .throughput => Frame.throughputTag
  | .latency => Frame.latencyTag

def bufferLength : ReplyKind -> Nat
  | .ack => Frame.ackBuffer
  | .throughput => Frame.reportBuffer
  | .latency => Frame.reportBuffer

end ReplyKind

inductive Command where
  | startLoad (load : UInt32)
  | startMeasure (sampleCount : UInt32) (samplingRate : Float)
  | report (kind : ReportKind)
deriving DecidableEq

namespace Command

def name : Command -> String
  | .startLoad _ => "START_LOAD"
  | .startMeasure _ _ => "START_MEASURE"
  | .report _ => "REPORT_REQ"

def messageType : Command -> UInt32
  | .startLoad _ => Frame.startLoad
  | .startMeasure _ _ => Frame.startMeasure
  | .report _ => Frame.reportRequest

def replyKind : Command -> ReplyKind
  | .startLoad _ => .ack
  | .startMeasure _ _ => .ack
  | .report .throughput => .throughput
  | .report .latency => .latency

def payloadLength : Command -> Nat
  | .startLoad _ => 4
  | .startMeasure _ _ => 12
  | .report _ => 4

def payload : Command -> List UInt8
  | .startLoad load => LittleEndian.ofWord32 load
  | .startMeasure sampleCount samplingRate =>
      LittleEndian.ofWord32 sampleCount ++ LittleEndian.ofFloat samplingRate
  | .report kind => LittleEndian.ofWord32 kind.code

/-- The frame of a command, if the payload is as long as declared. -/
def encode (c : Command) : Except WireFault (List UInt8) :=
  if c.payload.length = c.payloadLength then
    .ok (LittleEndian.ofWord32 c.messageType
      ++ LittleEndian.ofWord32 (UInt32.ofNat c.payloadLength) ++ c.payload)
  else .error (.lengthMismatch c.name c.payloadLength c.payload.length)

def reader : Reader Command := do
  let messageType ← Reader.header "command header"
  if messageType = Frame.startLoad then
    return .startLoad (← Reader.word32 "START_LOAD payload")
  else if messageType = Frame.startMeasure then
    let sampleCount ← Reader.word32 "START_MEASURE sample count"
    let samplingRate ← Reader.float "START_MEASURE sampling rate"
    return .startMeasure sampleCount samplingRate
  else if messageType = Frame.reportRequest then
    let code ← Reader.word32 "REPORT_REQ payload"
    match ReportKind.ofCode? code with
    | some kind => return .report kind
    | none => throw (.replyTag "REPORT_REQ kind" Frame.latencyKind code)
  else
    throw (.messageType "command header" Frame.reportRequest messageType)

def decode (bytes : List UInt8) : Except WireFault Command := reader.run bytes

end Command
end LoadFleet
