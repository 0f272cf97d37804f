import LoadFleet.Agent.Role

/-!
# Rosters

A roster lists the host names of the agents of each role. Registration goes through throughput
agents, latency agents and symmetric agents, each in the order listed.
-/

namespace LoadFleet

structure Roster where
  throughput : List String
  latency : List String
  symmetric : List String
deriving DecidableEq

namespace Roster

def empty : Roster := ⟨[], [], []⟩

def isEmpty (r : Roster) : Bool :=
  r.throughput.isEmpty && r.latency.isEmpty && r.symmetric.isEmpty

/-- Every agent with its role, in registration order. -/
def entries (r : Roster) : List (String × Role) :=
  r.throughput.map (·, .throughput) ++ r.latency.map (·, .latency)
    ++ r.symmetric.map (·, .symmetric)

def hosts (r : Roster) : List String := r.entries.map (·.1)

def count (r : Roster) : Group -> Nat
  | .throughput => r.throughput.length
  | .latency => r.latency.length
  | .symmetric => r.symmetric.length
  | .load => r.throughput.length + r.latency.length

/-- The first name that occurs again, where it occurs again. -/
def firstRepeated (known : List String) : List String -> Option String
  | [] => none
  | name :: rest => if name ∈ known then some name else firstRepeated (known ++ [name]) rest

def repeatedHost (r : Roster) : Option String := firstRepeated [] r.hosts

end Roster
end LoadFleet
