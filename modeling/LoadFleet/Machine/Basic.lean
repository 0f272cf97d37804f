import LoadFleet.Launch.Remote
import LoadFleet.Link.Medium

/-!
# Machines

Everything that a run does to the world around it goes through a machine: files, environment
variables, programs, connections, and time.
-/

namespace LoadFleet

/-- What a run needs from the machine it runs on; `κ` is the type of its connections. -/
structure Machine (m : Type -> Type) (κ : Type) extends Shell m where
  environment : (name : String) -> m (Option String)
  dial : (name : String) -> (port : UInt16) -> m (Except DialFault κ)
  medium : Medium m κ
  pause : Duration -> m Unit

end LoadFleet
