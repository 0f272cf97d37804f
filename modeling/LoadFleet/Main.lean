import LoadFleet.Invocation
import Std.Async.DNS
import Std.Async.TCP
import Std.Async.Timer

/-!
# The program

Here files, environment variables, sockets and the clock are real. Programs are not started from
here: agents with a configured binary fail to start, and the others must be running.
-/

namespace LoadFleet
namespace Program

open Std.Async

def reason : IO.Error -> String
  | .noFileOrDirectory .. => "No such file or directory (os error 2)"
  | .permissionDenied .. => "Permission denied (os error 13)"
  | error => error.toString

/-- A result, or the reason why there is none. -/
def guarded (act : IO α) : IO (Except String α) := do
  try
    return .ok (← act)
  catch error =>
    return .error (reason error)

/-!
## Files and programs
-/

def files : Files IO where
  check path := guarded do
    let _ ← IO.FS.Handle.mk path .read
  readText path := guarded (IO.FS.readFile path)

def programReason : String := "Operation not supported (os error 95)"

def shell : Shell IO where
  toFiles := files
  run _ _ := return .error programReason
  start _ _ := return .error programReason

/-!
## Connections
-/

abbrev Socket := TCP.Socket.Client

def timerSpan (span : Duration) : Std.Time.Millisecond.Offset := .ofNat span.millis.toNat

def connectTo (port : UInt16) : Std.Net.IPAddr -> Async Socket
  | .v4 addr => do
      let socket ← TCP.Socket.Client.mk
      socket.connect (.v4 { addr, port })
      return socket
  | .v6 addr => do
      let socket ← TCP.Socket.Client.mk
      socket.connect (.v6 { addr, port })
      return socket

def attempt (act : Async α) : Async (Except String α) := do
  try
    return .ok (← act)
  catch error =>
    return .error (reason error)

/-- Connects to the first address that answers, or gives the last reason. -/
def connectFirst (port : UInt16) (last : String) :
    List Std.Net.IPAddr -> Async (Except DialFault Socket)
  | [] => return .error (.refused last)
  | addr :: rest => do
      match ← attempt (connectTo port addr) with
      | .error last => connectFirst port last rest
      | .ok socket =>
          let _ ← attempt socket.noDelay
          return .ok socket

def connect (name : String) (port : UInt16) : Async (Except DialFault Socket) := do
  match ← attempt (DNS.getAddrInfo name (Text.natural port.toNat)) with
  | .error reason => return .error (.refused reason)
  | .ok addresses => connectFirst port "no address" addresses.toList

def dial (name : String) (port : UInt16) : IO (Except DialFault Socket) := do
  let outcome ← Async.block do
    Async.race (some <$> connect name port) do
      sleep (timerSpan Fleet.dialDeadline)
      return none
  return outcome.getD (.error .timedOut)

def write (socket : Socket) (bytes : List UInt8) : IO (Written × Socket) := do
  match ← guarded (socket.send ⟨bytes.toArray⟩).block with
  | .ok () => return (.taken bytes.length, socket)
  | .error reason => return (.failed reason, socket)

def read (limit : Nat) (deadline : Duration) (socket : Socket) : Async (Heard × Socket) := do
  let heard ← attempt do
    Selectable.one #[
      .case (socket.recvSelector limit.toUInt64) fun bytes =>
        return Heard.bytes ((bytes.map fun b => b.data.toList).getD []),
      .case (← Selector.sleep (timerSpan deadline)) fun _ => return Heard.silence]
  match heard with
  | .ok heard => return (heard, socket)
  | .error reason => return (.failed reason, socket)

def medium : Medium IO Socket where
  write := write
  readEach sockets limit deadline := do
    let heard ← (Async.concurrentlyAll (sockets.map (read limit deadline)).toArray).block
    return heard.toList
  join := Ending.join

def machine : Machine IO Socket where
  toShell := shell
  environment := fun name => IO.getEnv name
  dial := dial
  medium := medium
  pause span := (sleep (timerSpan span)).block

end Program
end LoadFleet

def main (arguments : List String) : IO UInt32 := do
  let conclusion ← LoadFleet.Invocation.run LoadFleet.Program.machine arguments
  (← IO.getStdout).putStr conclusion.output
  (← IO.getStderr).putStr conclusion.diagnosis
  return conclusion.exitCode
