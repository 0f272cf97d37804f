import LoadFleet.Text.Numeral

/-!
# Faults of the wire format

A fault names the part of a frame at which encoding or decoding ended. It does not know which
agent the bytes belong to.
-/

namespace LoadFleet

inductive WireFault where
  | messageType (context : String) (expected actual : UInt32)
  | replyTag (context : String) (expected actual : UInt32)
  | truncated (context : String) (needed available : Nat)
  | lengthMismatch (command : String) (declared actual : Nat)
deriving DecidableEq

def WireFault.message : WireFault -> String
  | .messageType context expected actual =>
      context ++ ": expected message type " ++ Text.natural expected.toNat ++ ", got "
        ++ Text.natural actual.toNat
  | .replyTag context expected actual =>
      context ++ ": expected reply tag " ++ Text.natural expected.toNat ++ ", got "
        ++ Text.natural actual.toNat
  | .truncated context needed available =>
      context ++ ": needed " ++ Text.natural needed ++ " bytes, " ++ Text.natural available
        ++ " available"
  | .lengthMismatch command declared actual =>
      command ++ " encoded to " ++ Text.natural actual ++ " bytes, header declares "
        ++ Text.natural declared

end LoadFleet
