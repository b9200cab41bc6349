import CodeContext.Service.Job
import CodeContext.Text.Input

/-!
# Serving an input

A reader sends the lines of an input that are not blank through a queue, and workers answer each with one
line of the output. They all go on at the same time: the state is taken apart so that each moves by itself,
and any of them may move next. A worker locks the queue to receive a line and the output to write an answer.
-/

namespace CodeContext

/-- The lines of an input that are answered. -/
def Service.requestLines (input : ByteArray) : List String :=
  (Text.inputLines input).filter fun line => !Text.blank line

/-- The reader, with the lines it has still to read. -/
inductive Reader where
  | reading (lines : List String)
  /-- To send a line. -/
  | sending (line : String) (rest : List String)
  /-- The queue gets no more lines. -/
  | closed

instance (r : Reader) : Decidable (r = .closed) :=
  match r with
  | .reading _ => isFalse nofun
  | .sending _ _ => isFalse nofun
  | .closed => isTrue rfl

/-- A worker, by what it is to do next. -/
inductive Worker where
  /-- To lock the queue. -/
  | idle
  /-- To receive a line. It has locked the queue. -/
  | receiving
  /-- To go on with the answer to a line, or to lock the output. -/
  | working (line : String) (job : Job)
  /-- To write the rest of an answer. It has locked the output. -/
  | writing (rest : List Char)
  | stopped

instance (w : Worker) : Decidable (w = .stopped) :=
  match w with
  | .idle => isFalse nofun
  | .receiving => isFalse nofun
  | .working _ _ => isFalse nofun
  | .writing _ => isFalse nofun
  | .stopped => isTrue rfl

namespace Worker

def hasQueue : Worker → Bool
  | receiving => true
  | _ => false

def hasOutput : Worker → Bool
  | writing _ => true
  | _ => false

end Worker

/-- Who moves next. -/
inductive Actor where
  | reader
  | worker (n : Nat)

/-- What a move meets: the files, the time since the last move, the keys that a purge comes by if it begins,
and how many characters are written after the first. -/
structure Turn where
  files : FileTree
  elapsed : Nat
  keys : List CacheKey
  amount : Nat

structure Server where
  service : Service
  clock : Nat
  reader : Reader
  queue : List String
  workers : List Worker
  output : String

namespace Server

/-- The server that has done nothing yet. It has one worker at least. -/
def opened (s : Service) (clock : Nat) (input : ByteArray) (workers : Nat) : Server :=
  ⟨s, clock, .reading (Text.inputLines input), [], List.replicate (max workers 1) .idle, ""⟩

def capacity (s : Server) : Nat :=
  s.workers.length * 2

def setWorker (s : Server) (n : Nat) (w : Worker) : Server :=
  { s with workers := s.workers.set n w }

/-- A move of the reader. It waits for room in the queue. -/
def moveReader (s : Server) : Server :=
  match s.reader with
  | .reading [] => { s with reader := .closed }
  | .reading (line :: rest) =>
    { s with reader := if Text.blank line then .reading rest else .sending line rest }
  | .sending line rest =>
    if s.queue.length < s.capacity then { s with reader := .reading rest, queue := s.queue ++ [line] } else s
  | .closed => s

/-- A worker with the queue locked receives a line or waits for one. It stops if none will come. -/
def receive (s : Server) (n : Nat) : Server :=
  match s.queue with
  | line :: queue => { s.setWorker n (.working line (.reading line)) with queue }
  | [] =>
    match s.reader with
    | .closed => s.setWorker n .stopped
    | _ => s

/-- A worker goes on with an answer. Once there is one it waits for the output. -/
def work (s : Server) (n : Nat) (turn : Turn) (line : String) : Job → Server
  | .answered r =>
    if s.workers.any Worker.hasOutput then s else s.setWorker n (.writing (r.line ++ "\n").toList)
  | job =>
    let (job, service) := job.step s.service turn.files s.clock turn.keys
    { s.setWorker n (.working line job) with service }

def moveWorker (s : Server) (n : Nat) (turn : Turn) : Worker → Server
  | .idle => if s.workers.any Worker.hasQueue then s else s.setWorker n .receiving
  | .receiving => s.receive n
  | .working line job => s.work n turn line job
  | .writing [] => s.setWorker n .idle
  | .writing (c :: rest) =>
    { s.setWorker n (.writing (rest.drop turn.amount)) with
      output := s.output ++ String.ofList (c :: rest.take turn.amount) }
  | .stopped => s

def workerCanMove (s : Server) : Worker → Bool
  | .idle => !s.workers.any Worker.hasQueue
  | .receiving =>
    match s.queue, s.reader with
    | [], .closed => true
    | [], _ => false
    | _ :: _, _ => true
  | .working _ (.answered _) => !s.workers.any Worker.hasOutput
  | .working _ _ => true
  | .writing _ => true
  | .stopped => false

def canMove (s : Server) : Actor → Bool
  | .reader =>
    match s.reader with
    | .reading _ => true
    | .sending _ _ => s.queue.length < s.capacity
    | .closed => false
  | .worker n =>
    match s.workers[n]? with
    | none => false
    | some w => s.workerCanMove w

/-- A move. Nothing but the clock changes if the one whose move it is has to wait. -/
def next (s : Server) (a : Actor) (turn : Turn) : Server :=
  let s := { s with clock := s.clock + turn.elapsed }
  match a with
  | .reader => s.moveReader
  | .worker n =>
    match s.workers[n]? with
    | none => s
    | some w => s.moveWorker n turn w

/-- The server after some moves. Who moves each time is open. -/
def run (s : Server) (turns : List (Actor × Turn)) : Server :=
  turns.foldl (fun s turn => s.next turn.1 turn.2) s

/-- Nothing is left to read and no worker is left. -/
def Finished (s : Server) : Prop :=
  s.reader = .closed ∧ ∀ w ∈ s.workers, w = .stopped

instance (s : Server) : Decidable s.Finished :=
  inferInstanceAs (Decidable (_ ∧ _))

end Server

end CodeContext
