import LoadFleet.Protocol.Fault
import LoadFleet.Protocol.Frame
import LoadFleet.Protocol.LittleEndian

/-!
# Reading frames

A reader takes bytes off the front of what one read brought in. Every field is taken whole or
not at all: where too few bytes are left, the fault names the field.
-/

namespace LoadFleet

abbrev Reader := StateT (List UInt8) (Except WireFault)

namespace Reader

def take (count : Nat) (context : String) : Reader (List UInt8) := fun bytes =>
  if bytes.length < count then .error (.truncated context count bytes.length)
  else .ok (bytes.take count, bytes.drop count)

def word32 (context : String) : Reader UInt32 := do
  return LittleEndian.word32 (← take 4 context)

def word64 (context : String) : Reader UInt64 := do
  return LittleEndian.word64 (← take 8 context)

def float (context : String) : Reader Float := do
  return LittleEndian.float (← take 8 context)

/-- Takes a frame header and gives its message type; the declared length is not used. -/
def header (context : String) : Reader UInt32 := do
  return LittleEndian.word32 ((← take Frame.headerLength context).take 4)

def replyTagged (tag : UInt32) (context : String) : Reader Unit := do
  let messageType ← header context
  if messageType ≠ Frame.reply then
    throw (.messageType context Frame.reply messageType)
  let actual ← word32 context
  if actual ≠ tag then
    throw (.replyTag context tag actual)

/-- Reads the front of the bytes; what is left over does not matter. -/
def run (reader : Reader α) (bytes : List UInt8) : Except WireFault α :=
  Prod.fst <$> reader bytes

end Reader
end LoadFleet
