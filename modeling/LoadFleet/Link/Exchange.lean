import LoadFleet.Link.Medium

/-!
# Commands and replies over several links

A command is encoded once and written to the links one after the other, and the first write that
goes wrong ends it. Replies are read from all links together and are accepted all or not at all.
-/

namespace LoadFleet

def ReplyKind.deadline : ReplyKind -> Duration
  | .ack => .ofMillis 500
  | .throughput => .ofMillis 500
  | .latency => .ofMillis 5000

namespace Link

def judgeWrite (link : Link κ) (length : Nat) : Written -> Except Failure Unit
  | .taken count =>
      if count = length then .ok ()
      else .error (.transport (.shortWrite link.name count length))
  | .failed reason => .error (.transport (.write link.name reason))

def judgeRead (kind : ReplyKind) (deadline : Duration) (link : Link κ) :
    Heard -> Except Failure Reply
  | .silence => .error (.transport (.readTimeout link.name deadline.millis))
  | .failed reason => .error (.transport (.read link.name reason))
  | .bytes [] => .error (.transport (.closed link.name))
  | .bytes raw =>
      (Reply.decode kind raw).mapError fun fault => .protocol (.reply link.name raw fault)

def send [Monad m] (medium : Medium m κ) (bytes : List UInt8) (link : Link κ) :
    m (Except Failure Unit × Link κ) := do
  let (written, connection) ← medium.write link.connection bytes
  return (link.judgeWrite bytes.length written, { link with connection })

/-- Writes bytes to every link in order, up to the first failure. -/
def sendEach [Monad m] (medium : Medium m κ) (bytes : List UInt8) :
    List (Link κ) -> m (Except Failure Unit × List (Link κ))
  | [] => pure (.ok (), [])
  | link :: rest => do
      match ← send medium bytes link with
      | (.error failure, link) => return (.error failure, link :: rest)
      | (.ok (), link) =>
          let (result, rest) ← sendEach medium bytes rest
          return (result, link :: rest)

def broadcast [Monad m] (medium : Medium m κ) (command : Command) (links : List (Link κ)) :
    m (Except Failure Unit × List (Link κ)) :=
  match command.encode with
  | .error fault => pure (.error (.protocol (.encode fault)), links)
  | .ok bytes => sendEach medium bytes links

def ending (kind : ReplyKind) (deadline : Duration) (reading : Link κ × Heard) : Ending :=
  ⟨reading.2.isSilence, judgeRead kind deadline reading.1 reading.2⟩

def readReplies [Monad m] (medium : Medium m κ) (kind : ReplyKind) (limit : Nat)
    (deadline : Duration) (links : List (Link κ)) :
    m (Except Failure (List Reply) × List (Link κ)) := do
  let readings ← medium.readEach (links.map Link.connection) limit deadline
  let heard := links.zip (readings.map Prod.fst)
  let links := links.zipWith (fun link reading => { link with connection := reading.2 }) readings
  return (medium.join (heard.map (ending kind deadline)), links)

def collect [Monad m] (medium : Medium m κ) (kind : ReplyKind) (deadline : Duration)
    (links : List (Link κ)) : m (Except Failure (List Reply) × List (Link κ)) :=
  readReplies medium kind kind.bufferLength deadline links

/-- Writes a command to every link and reads the replies. Without links nothing is done. -/
def exchange [Monad m] (medium : Medium m κ) (command : Command) (links : List (Link κ)) :
    m (Except Failure (List Reply) × List (Link κ)) := do
  if links.isEmpty then
    return (.ok [], links)
  match ← broadcast medium command links with
  | (.error failure, links) => return (.error failure, links)
  | (.ok (), links) => collect medium command.replyKind command.replyKind.deadline links

end Link
end LoadFleet
