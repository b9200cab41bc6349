import CodeContext.Service.Server
import CodeContext.Text.Lines

/-!
# A schedule

Of those who can move, the one moves next who has been ready for longest. A move takes one unit of time,
but the inner indexer takes as many as there are bytes for it to read. Every move leaves less to do, so the
server comes to an end.
-/

namespace CodeContext

/-- The reader has the first number. -/
def Actor.number : Actor → Nat
  | reader => 0
  | worker n => n + 1

/-! ### What is left to do -/

/-- How many moves are left, not counting those that purge. -/
def Indexing.movesLeft {α : Type} : Indexing α → Nat
  | asking _ => 7
  | testing _ _ => 6
  | dropping _ => 5
  | missing _ => 4
  | making _ => 3
  | made _ _ => 2
  | purging _ _ _ => 1
  | done _ _ => 0

/-- How many keys are left to purge. -/
def Indexing.keysLeft {α : Type} : Indexing α → Nat
  | purging _ _ keys => keys.length
  | _ => 0

def Job.movesLeft : Job → Nat
  | reading _ => 9
  | indexing _ _ _ i => i.movesLeft + 1
  | counting _ => 2
  | clearing _ _ => 1
  | answered _ => 0

def Job.keysLeft : Job → Nat
  | indexing _ _ _ i => i.keysLeft
  | _ => 0

namespace Worker

/-- How many moves are left if no line comes any more, not counting those that purge or write. -/
def movesLeft : Worker → Nat
  | idle => 2
  | receiving => 1
  | working _ job => job.movesLeft + 4
  | writing _ => 3
  | stopped => 0

/-- How many keys are left to purge, or characters to write. -/
def piecesLeft : Worker → Nat
  | working _ job => job.keysLeft
  | writing rest => rest.length
  | _ => 0

end Worker

def Worker.total (f : Worker → Nat) : List Worker → Nat
  | [] => 0
  | w :: ws => f w + total f ws

/-- How many moves are left. Each line that is sent makes thirteen more for a worker. -/
def Reader.movesLeft : Reader → Nat
  | reading lines => lines.length * 15 + 1
  | sending _ rest => rest.length * 15 + 15
  | closed => 0

namespace Server

/-- What is left to do: moves, and then pieces of them. -/
def left (s : Server) : Nat × Nat :=
  (s.reader.movesLeft + s.queue.length * 13 + Worker.total Worker.movesLeft s.workers,
    Worker.total Worker.piecesLeft s.workers)

/-- A server has less to do than another. -/
def Less (s' s : Server) : Prop :=
  s'.left.1 < s.left.1 ∨ s'.left.1 = s.left.1 ∧ s'.left.2 < s.left.2

instance (s' s : Server) : Decidable (s'.Less s) :=
  inferInstanceAs (Decidable (_ ∨ _ ∧ _))

/-! ### Who moves next -/

def actors (s : Server) : List Actor :=
  .reader :: (List.range s.workers.length).map .worker

/-- The first of some that has been ready for longest. -/
def earliest : List (Actor × Nat) → Option (Actor × Nat)
  | [] => none
  | a :: rest =>
    match earliest rest with
    | none => some a
    | some b => if b.2 < a.2 then some b else some a

/-- Who moves next and when it was ready. `ready` holds the times of all, the reader's first. -/
def pick (s : Server) (ready : List Nat) : Option (Actor × Nat) :=
  earliest ((s.actors.zip ready).filter fun a => s.canMove a.1)

/-- The path that a move takes to the inner indexer, and the files there. -/
def indexed? (s : Server) : Actor → Option (FileTree × String)
  | .reader => none
  | .worker n =>
    match s.workers[n]? with
    | some (.working _ (.indexing _ _ files (.missing path))) => some (files, path)
    | _ => none

/-- How many bytes there are to read at a path. -/
def bytesAt (respectIgnore : Bool) (files : FileTree) (path : String) : Nat :=
  let size (f : SourceFile) := match files.readText f.path with
    | .ok text => text.utf8ByteSize
    | .error _ => 0
  (Index.sources files respectIgnore path).foldl (fun n f => n + size f) 0

def duration (s : Server) (a : Actor) : Nat :=
  match s.indexed? a with
  | none => 1
  | some (files, path) => bytesAt s.service.config.respectIgnore files path + 1

/-- What the next move meets: the clock goes on while the inner indexer is at work, all keys are purged,
and an answer is written at once. -/
def turn (s : Server) (o : Occasion) (a : Actor) : Turn where
  files := o.files
  elapsed := if (s.indexed? a).isSome then o.made - o.asked else 0
  keys := s.service.results.entries.map (·.1)
  amount :=
    match a with
    | .reader => 0
    | .worker n => ((s.workers[n]?).map Worker.piecesLeft).getD 0

/-- Goes on until nobody can move. -/
def finish (s : Server) (o : Occasion) (now : Nat) (ready : List Nat) : Server :=
  match s.pick ready with
  | none => s
  | some (a, since) =>
    let now := max now since
    let after := s.next a (s.turn o a)
    if _ : after.Less s then
      finish after o now (ready.set a.number (now + s.duration a))
    else s
termination_by s.left
decreasing_by exact Prod.lex_def.mpr ‹_›

end Server

namespace Service

/-- The answers to an input, in the order in which some workers write them. -/
def serveWith (s : Service) (o : Occasion) (workers : Nat) (input : ByteArray) : List String × Service :=
  let opened := Server.opened s o.asked input workers
  let finished := opened.finish o 0 (List.replicate opened.actors.length 0)
  ((Text.lines finished.output.toList).map String.ofList, finished.service)

/-- The answers of one worker to an input. -/
def serve (s : Service) (o : Occasion) (input : ByteArray) : List String × Service :=
  s.serveWith o 1 input

end Service

end CodeContext
