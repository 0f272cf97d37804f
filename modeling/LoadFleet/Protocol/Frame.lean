import LoadFleet.Capped

/-!
# Frames

A frame starts with its message type and the length of what follows, each a 32-bit word. The
length of a reply frame includes the tag that its payload starts with.
-/

namespace LoadFleet
namespace Frame

/-!
## Message types, report kinds and reply tags
-/

def startLoad : UInt32 := 0

def startMeasure : UInt32 := 1

def reportRequest : UInt32 := 2

def reply : UInt32 := 3

def throughputKind : UInt32 := 0

def latencyKind : UInt32 := 1

def ackTag : UInt32 := 0

def throughputTag : UInt32 := 1

def latencyTag : UInt32 := 2

def convergenceTag : UInt32 := 3

def correlationTag : UInt32 := 4

def interArrivalTag : UInt32 := 5

/-!
## Lengths

The header is the message type and the length. Statistics of the throughput are four counters;
those of the latency have an average and four estimates of three numbers besides. The lengths of
frames count everything from the header on.
-/

def headerLength : Nat := 8

def tagLength : Nat := 4

def countersLength : Nat := 32

def latencyStatsLength : Nat := countersLength + 8 + 4 * 3 * 8

def throughputLength : Nat := headerLength + tagLength + countersLength

def latencyLength : Nat := headerLength + tagLength + latencyStatsLength

def convergenceLength : Nat := headerLength + tagLength + 4

def correlationLength : Nat := headerLength + tagLength + 8

def interArrivalLength : Nat := headerLength + tagLength + 4

/-- What a reply frame of a length declares to follow its header: a tag at the least. -/
def declared (length : Nat) : UInt32 := Capped.word32 (max (length - headerLength) tagLength)

/-!
## Buffers

So much is read of an acknowledgement, and of a report, at once.
-/

def ackBuffer : Nat := 64

def reportBuffer : Nat := 1024

end Frame
end LoadFleet
