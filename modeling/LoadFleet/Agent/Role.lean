/-!
# Roles and groups of agents

A throughput agent offers load and counts operations, a latency agent measures latency at a low rate
of its own, and a symmetric agent does both on the same connections. Commands are addressed to
groups: one role alone, or the throughput and latency agents that work side by side.
-/

namespace LoadFleet

inductive Role where
  | throughput
  | latency
  | symmetric
deriving DecidableEq

def Role.label : Role -> String
  | .throughput => "throughput"
  | .latency => "latency"
  | .symmetric => "symmetric"

inductive Group where
  | throughput
  | latency
  | symmetric
  | load
deriving DecidableEq

namespace Group

def label : Group -> String
  | .throughput => "throughput"
  | .latency => "latency"
  | .symmetric => "symmetric"
  | .load => "load"

def all : List Group := [.throughput, .latency, .symmetric, .load]

def contains : Group -> Role -> Bool
  | .throughput, .throughput => true
  | .latency, .latency => true
  | .symmetric, .symmetric => true
  | .load, .throughput => true
  | .load, .latency => true
  | _, _ => false

end Group
end LoadFleet
