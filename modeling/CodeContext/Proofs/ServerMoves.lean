import CodeContext.Service.Server
import Mathlib.Tactic.Lemma

/-!
# What a move does

A move of the server changes the reader, or one worker with what it has locked. Whatever the order of the
moves, each line that is sent is taken by one worker, and each answer is written whole by the one that has
the output.
-/

namespace CodeContext

namespace Reader

/-- The lines that are still to be sent. -/
def lines : Reader → List String
  | reading lines => lines.filter fun line => !Text.blank line
  | sending line rest => line :: rest.filter fun line => !Text.blank line
  | closed => []

end Reader

namespace Worker

/-- The line that is not yet answered, if there is one. -/
def lines : Worker → List String
  | working line _ => [line]
  | _ => []

/-- What is still to be written. -/
def rest : Worker → List Char
  | writing rest => rest
  | _ => []

lemma flatMap_rest {ws : List Worker} (h : ws.countP hasOutput = 0) : ws.flatMap rest = [] := by
  rw [List.flatMap_eq_nil_iff]
  intro w hw
  have hnone := List.countP_eq_zero.mp h w hw
  cases w with
  | writing rest => exact absurd rfl hnone
  | idle | receiving | working | stopped => rfl

lemma countP_writing (before later : List Worker) (rest : List Char) :
    (before ++ writing rest :: later).countP hasOutput = before.countP hasOutput + later.countP hasOutput + 1 := by
  rw [List.countP_append, List.countP_cons_of_pos rfl, Nat.add_assoc]

lemma countP_other (before later : List Worker) {w : Worker} (h : w.hasOutput = false) :
    (before ++ w :: later).countP hasOutput = before.countP hasOutput + later.countP hasOutput := by
  rw [List.countP_append, List.countP_cons_of_neg (by rw [h]; decide)]

end Worker

namespace Server

/-- What a move can do, once the clock has gone on. One worker among the others moves, or the reader. -/
inductive Move (turn : Turn) (s : Server) : Server → Prop where
  | close (h : s.reader = .reading []) : Move turn s { s with reader := .closed }
  | skip {line rest} (h : s.reader = .reading (line :: rest)) (hblank : Text.blank line = true) :
    Move turn s { s with reader := .reading rest }
  | read {line rest} (h : s.reader = .reading (line :: rest)) (hblank : Text.blank line = false) :
    Move turn s { s with reader := .sending line rest }
  | send {line rest} (h : s.reader = .sending line rest) :
    Move turn s { s with reader := .reading rest, queue := s.queue ++ [line] }
  | lockQueue {before later} (h : s.workers = before ++ .idle :: later) :
    Move turn s { s with workers := before ++ .receiving :: later }
  | receive {before later line queue} (h : s.workers = before ++ .receiving :: later)
      (hqueue : s.queue = line :: queue) :
    Move turn s { s with workers := before ++ .working line (.reading line) :: later, queue }
  | stop {before later} (h : s.workers = before ++ .receiving :: later) (hqueue : s.queue = [])
      (hreader : s.reader = .closed) :
    Move turn s { s with workers := before ++ .stopped :: later }
  | work {before later line job} (h : s.workers = before ++ .working line job :: later)
      (hjob : ∀ r, job ≠ .answered r) :
    Move turn s { s with
      workers := before ++ .working line (job.step s.service turn.files s.clock turn.keys).1 :: later
      service := (job.step s.service turn.files s.clock turn.keys).2 }
  | lockOutput {before later line r} (h : s.workers = before ++ .working line (.answered r) :: later)
      (hfree : s.workers.countP Worker.hasOutput = 0) :
    Move turn s { s with workers := before ++ .writing (r.line ++ "\n").toList :: later }
  | write {before later c rest} (h : s.workers = before ++ .writing (c :: rest) :: later) :
    Move turn s { s with
      workers := before ++ .writing (rest.drop turn.amount) :: later
      output := s.output ++ String.ofList (c :: rest.take turn.amount) }
  | unlockOutput {before later} (h : s.workers = before ++ .writing [] :: later) :
    Move turn s { s with workers := before ++ .idle :: later }

lemma setWorker_append {s : Server} {before later : List Worker} {w : Worker} (h : s.workers = before ++ w :: later)
    (v : Worker) : s.setWorker before.length v = { s with workers := before ++ v :: later } := by
  rw [setWorker, h, List.set_append_right _ _ (Nat.le_refl _), Nat.sub_self, List.set_cons_zero]

lemma work_of_ne {s : Server} {n : Nat} {turn : Turn} {line : String} {job : Job} (hjob : ∀ r, job ≠ .answered r) :
    s.work n turn line job =
      { s.setWorker n (.working line (job.step s.service turn.files s.clock turn.keys).1) with
        service := (job.step s.service turn.files s.clock turn.keys).2 } := by
  cases job with
  | answered r => exact absurd rfl (hjob r)
  | reading | indexing | counting | clearing => rfl

section

variable {s : Server} {turn : Turn} {before later : List Worker}

lemma move_work {line : String} {job : Job} (h : s.workers = before ++ .working line job :: later)
    (hcan : s.workerCanMove (.working line job) = true) : Move turn s (s.work before.length turn line job) := by
  by_cases hjob : ∃ r, job = .answered r
  · obtain ⟨r, rfl⟩ := hjob
    have hfree : s.workers.any Worker.hasOutput = false := by simpa [workerCanMove] using hcan
    rw [work, hfree, setWorker_append h]
    exact .lockOutput h (List.countP_eq_zero.mpr (by simpa using hfree))
  · have hjob (r : Response) (hr : job = .answered r) : False := hjob ⟨r, hr⟩
    rw [work_of_ne hjob, setWorker_append h]
    exact .work h hjob

lemma move_receive (h : s.workers = before ++ .receiving :: later) (hcan : s.workerCanMove .receiving = true) :
    Move turn s (s.receive before.length) := by
  rw [receive]
  split
  · rw [setWorker_append h]
    exact .receive h ‹_›
  · rename_i hqueue
    cases hreader : s.reader with
    | closed =>
      dsimp only
      rw [setWorker_append h]
      exact .stop h hqueue hreader
    | reading | sending => simp [workerCanMove, hqueue, hreader] at hcan

lemma move_moveWorker {w : Worker} (h : s.workers = before ++ w :: later) (hcan : s.workerCanMove w = true) :
    Move turn s (s.moveWorker before.length turn w) := by
  cases w with
  | idle =>
    have hfree : s.workers.any Worker.hasQueue = false := by simpa [workerCanMove] using hcan
    rw [moveWorker, hfree, setWorker_append h]
    exact .lockQueue h
  | receiving => exact move_receive h hcan
  | working line job => exact move_work h hcan
  | writing rest =>
    cases rest with
    | nil =>
      rw [moveWorker, setWorker_append h]
      exact .unlockOutput h
    | cons c rest =>
      rw [moveWorker, setWorker_append h]
      exact .write h
  | stopped => cases hcan

lemma move_moveReader (hcan : s.canMove .reader = true) : Move turn s s.moveReader := by
  unfold moveReader
  split
  · exact .close ‹_›
  · rename_i line rest h
    cases hblank : Text.blank line with
    | true => exact .skip h hblank
    | false => exact .read h hblank
  · rename_i line rest h
    have hroom : s.queue.length < s.capacity := by simpa [canMove, h] using hcan
    rw [if_pos hroom]
    exact .send h
  · rename_i h
    simp [canMove, h] at hcan

lemma moveWorker_of_not {n : Nat} {w : Worker} (hcan : s.workerCanMove w = false) : s.moveWorker n turn w = s := by
  cases w with
  | idle =>
    have hlocked : s.workers.any Worker.hasQueue = true := by simpa [workerCanMove] using hcan
    rw [moveWorker, hlocked, if_pos rfl]
  | receiving =>
    rw [moveWorker, receive]
    split
    · simp [workerCanMove, *] at hcan
    · split
      · simp [workerCanMove, *] at hcan
      · rfl
  | working line job =>
    cases job with
    | answered r =>
      have hlocked : s.workers.any Worker.hasOutput = true := by simpa [workerCanMove] using hcan
      rw [moveWorker, work, hlocked, if_pos rfl]
    | reading | indexing | counting | clearing => cases hcan
  | writing rest => cases hcan
  | stopped => rfl

lemma moveReader_of_not (hcan : s.canMove .reader = false) : s.moveReader = s := by
  unfold moveReader
  split
  · simp [canMove, *] at hcan
  · simp [canMove, *] at hcan
  · rename_i line rest h
    have hfull : ¬ s.queue.length < s.capacity := by simpa [canMove, h] using hcan
    rw [if_neg hfull]
  · rfl

end

/-- The server when the clock has gone on. -/
def later (s : Server) (elapsed : Nat) : Server :=
  { s with clock := s.clock + elapsed }

lemma workerCanMove_later (s : Server) (elapsed : Nat) (w : Worker) :
    (s.later elapsed).workerCanMove w = s.workerCanMove w := by
  cases w with
  | working line job => cases job <;> rfl
  | idle | receiving | writing | stopped => rfl

lemma next_worker (s : Server) (n : Nat) (turn : Turn) : s.next (.worker n) turn =
    match s.workers[n]? with
    | none => s.later turn.elapsed
    | some w => (s.later turn.elapsed).moveWorker n turn w :=
  rfl

/-- One who can move does so. -/
theorem move_next {s : Server} {a : Actor} (hcan : s.canMove a = true) (turn : Turn) :
    Move turn (s.later turn.elapsed) (s.next a turn) := by
  cases a with
  | reader => exact move_moveReader hcan
  | worker n =>
    rw [next_worker]
    rw [canMove] at hcan
    cases hw : s.workers[n]? with
    | none => simp [hw] at hcan
    | some w =>
      rw [hw] at hcan
      obtain ⟨hn, hget⟩ := List.getElem?_eq_some_iff.mp hw
      have hworkers : (s.later turn.elapsed).workers = s.workers.take n ++ w :: s.workers.drop (n + 1) := by
        rw [← hget, ← List.drop_eq_getElem_cons hn, List.take_append_drop]
        rfl
      have hlength : (s.workers.take n).length = n := by
        rw [List.length_take, Nat.min_eq_left (Nat.le_of_lt hn)]
      have hmove : Move turn _ _ := move_moveWorker hworkers ((s.workerCanMove_later _ w).trans hcan)
      rwa [hlength] at hmove

lemma next_of_not {s : Server} {a : Actor} (hcan : s.canMove a = false) (turn : Turn) :
    s.next a turn = s.later turn.elapsed := by
  cases a with
  | reader => exact moveReader_of_not (s := s.later turn.elapsed) hcan
  | worker n =>
    rw [next_worker]
    rw [canMove] at hcan
    split
    · rfl
    · rename_i w hw
      rw [hw] at hcan
      exact moveWorker_of_not ((s.workerCanMove_later _ w).trans hcan)

/-- Nothing changes but the clock, or there is a move. -/
def Moves (turn : Turn) (s s' : Server) : Prop :=
  s' = s ∨ Move turn s s'

theorem moves_next (s : Server) (a : Actor) (turn : Turn) : Moves turn (s.later turn.elapsed) (s.next a turn) := by
  cases hcan : s.canMove a with
  | true => exact .inr (move_next hcan turn)
  | false => exact .inl (next_of_not hcan turn)

/-! ### Locks -/

/-- One worker at most has the output, and workers stop once there are no lines left. -/
structure Orderly (s : Server) : Prop where
  writers : s.workers.countP Worker.hasOutput ≤ 1
  stopped : .stopped ∈ s.workers → s.reader = .closed ∧ s.queue = []

lemma orderly_opened (s : Service) (clock : Nat) (input : ByteArray) (workers : Nat) :
    (opened s clock input workers).Orderly where
  writers := by simp [opened, List.countP_replicate, Worker.hasOutput]
  stopped h := nomatch List.eq_of_mem_replicate h

variable {turn : Turn} {s s' : Server}

lemma length_workers (h : Moves turn s s') : s'.workers.length = s.workers.length := by
  rcases h with rfl | h
  · rfl
  cases h with
  | close | skip | read | send => rfl
  | lockQueue h | receive h | stop h | work h | lockOutput h | write h | unlockOutput h => simp [h]

/-- An answer in the making was so before, or has just begun, or has been taken a step further. -/
lemma Moves.working {line : String} {job : Job} (h : Moves turn s s') (hw : .working line job ∈ s'.workers) :
    .working line job ∈ s.workers ∨ job = .reading line ∨ ∃ old, .working line old ∈ s.workers ∧
      job = (old.step s.service turn.files s.clock turn.keys).1 ∧
      s'.service = (old.step s.service turn.files s.clock turn.keys).2 := by
  rcases h with rfl | h
  · exact .inl hw
  cases h with
  | close | skip | read | send => exact .inl hw
  | lockQueue h | stop h | lockOutput h | write h | unlockOutput h =>
    simp only [List.mem_append, List.mem_cons, reduceCtorEq, false_or] at hw
    rw [h, List.mem_append, List.mem_cons]
    exact .inl (hw.imp_right .inr)
  | receive h =>
    simp only [List.mem_append, List.mem_cons, Worker.working.injEq] at hw
    rw [h, List.mem_append, List.mem_cons]
    rcases hw with hw | ⟨rfl, rfl⟩ | hw
    · exact .inl (.inl hw)
    · exact .inr (.inl rfl)
    · exact .inl (.inr (.inr hw))
  | work h =>
    simp only [List.mem_append, List.mem_cons, Worker.working.injEq] at hw
    rw [h]
    rcases hw with hw | ⟨rfl, rfl⟩ | hw
    · exact .inl (List.mem_append_left _ hw)
    · exact .inr (.inr ⟨_, List.mem_append_right _ List.mem_cons_self, rfl, rfl⟩)
    · exact .inl (List.mem_append_right _ (List.mem_cons_of_mem _ hw))

theorem Orderly.moves (ho : s.Orderly) (h : Moves turn s s') : s'.Orderly := by
  rcases h with rfl | h
  · exact ho
  obtain ⟨hwriters, hstopped⟩ := ho
  cases h with
  | close h => exact ⟨hwriters, fun hw => ⟨rfl, (hstopped hw).2⟩⟩
  | skip h | read h | send h =>
    refine ⟨hwriters, fun hw => ?_⟩
    have hclosed := (hstopped hw).1
    rw [h] at hclosed
    cases hclosed
  | lockQueue h | work h =>
    rw [h] at hwriters hstopped
    rw [Worker.countP_other _ _ rfl] at hwriters
    exact ⟨by rwa [Worker.countP_other _ _ rfl], by simpa using hstopped⟩
  | receive h hqueue =>
    rw [h] at hwriters hstopped
    rw [Worker.countP_other _ _ rfl] at hwriters
    refine ⟨by rwa [Worker.countP_other _ _ rfl], fun hw => ?_⟩
    have hempty := (hstopped (by simpa using hw)).2
    rw [hqueue] at hempty
    cases hempty
  | stop h hqueue hreader =>
    rw [h, Worker.countP_other _ _ rfl] at hwriters
    exact ⟨by rwa [Worker.countP_other _ _ rfl], fun _ => ⟨hreader, hqueue⟩⟩
  | lockOutput h hfree =>
    rw [h] at hfree hstopped
    rw [Worker.countP_other _ _ rfl] at hfree
    exact ⟨by rw [Worker.countP_writing]; omega, by simpa using hstopped⟩
  | write h =>
    rw [h] at hwriters hstopped
    rw [Worker.countP_writing] at hwriters
    exact ⟨by rwa [Worker.countP_writing], by simpa using hstopped⟩
  | unlockOutput h =>
    rw [h] at hwriters hstopped
    rw [Worker.countP_writing] at hwriters
    exact ⟨by rw [Worker.countP_other _ _ rfl]; omega, by simpa using hstopped⟩

lemma Orderly.later (h : s.Orderly) (elapsed : Nat) : (s.later elapsed).Orderly :=
  ⟨h.writers, h.stopped⟩

/-! ### Lines and answers -/

/-- The line that answers another, with its line feed. -/
def answerText (a : String × Response) : List Char :=
  (a.2.line ++ "\n").toList

/-- How the lines that are to be sent, those taken from the queue, and those answered go together. -/
structure Ledger (lines : List String) (s : Server) (taken : List String) (answers : List (String × Response)) :
    Prop where
  sent : taken ++ s.queue ++ s.reader.lines = lines
  answered : (answers.map Prod.fst ++ s.workers.flatMap Worker.lines).Perm taken
  inOrder : s.workers.length ≤ 1 → answers.map Prod.fst ++ s.workers.flatMap Worker.lines = taken
  written : s.output.toList ++ s.workers.flatMap Worker.rest = answers.flatMap answerText

lemma ledger_opened (s : Service) (clock : Nat) (input : ByteArray) (workers : Nat) :
    Ledger (Service.requestLines input) (opened s clock input workers) [] [] where
  sent := rfl
  answered := by simp [opened, List.flatMap_eq_nil_iff, Worker.lines]
  inOrder _ := by simp [opened, List.flatMap_eq_nil_iff, Worker.lines]
  written := by simp [opened, List.flatMap_eq_nil_iff, Worker.rest]

variable {lines taken : List String} {answers : List (String × Response)}

lemma Ledger.later (h : Ledger lines s taken answers) (elapsed : Nat) :
    Ledger lines (s.later elapsed) taken answers :=
  ⟨h.sent, h.answered, h.inOrder, h.written⟩

lemma nil_of_length_le_one {before later : List Worker} {w : Worker} (h : (before ++ w :: later).length ≤ 1) :
    before = [] ∧ later = [] := by
  rw [List.length_append, List.length_cons] at h
  exact ⟨List.length_eq_zero_iff.mp (by omega), List.length_eq_zero_iff.mp (by omega)⟩

/-- Only a worker that has an answer adds one. -/
theorem Ledger.moves (hl : Ledger lines s taken answers) (ho : s.Orderly) (h : Moves turn s s') :
    ∃ taken' answers', Ledger lines s' taken' answers' ∧
      ∀ a ∈ answers', a ∈ answers ∨ .working a.1 (.answered a.2) ∈ s.workers := by
  rcases h with rfl | h
  · exact ⟨taken, answers, hl, fun a => .inl⟩
  obtain ⟨hsent, hanswered, horder, hwritten⟩ := hl
  cases h with
  | close h =>
    refine ⟨taken, answers, ⟨?_, hanswered, horder, hwritten⟩, fun a => .inl⟩
    simpa [h, Reader.lines] using hsent
  | skip h hblank =>
    refine ⟨taken, answers, ⟨?_, hanswered, horder, hwritten⟩, fun a => .inl⟩
    simpa [h, Reader.lines, hblank] using hsent
  | read h hblank =>
    refine ⟨taken, answers, ⟨?_, hanswered, horder, hwritten⟩, fun a => .inl⟩
    simpa [h, Reader.lines, hblank] using hsent
  | send h =>
    refine ⟨taken, answers, ⟨?_, hanswered, horder, hwritten⟩, fun a => .inl⟩
    simpa [h, Reader.lines] using hsent
  | lockQueue h | stop h | work h | unlockOutput h =>
    rw [h] at hanswered horder hwritten
    exact ⟨taken, answers, ⟨hsent, by simpa [Worker.lines] using hanswered, by simpa [Worker.lines] using horder,
      by simpa [Worker.rest] using hwritten⟩, fun a => .inl⟩
  | @receive before later line queue h hqueue =>
    rw [h] at hanswered horder hwritten
    refine ⟨taken ++ [line], answers, ⟨by simpa [hqueue] using hsent, ?_, fun hone => ?_, ?_⟩, fun a => .inl⟩
    · rw [List.perm_iff_count] at hanswered ⊢
      intro a
      have ha := hanswered a
      simp only [List.flatMap_append, List.flatMap_cons, List.count_append, Worker.lines, List.count_nil] at ha ⊢
      omega
    · -- A worker that is alone has answered all that it took.
      obtain ⟨rfl, rfl⟩ := nil_of_length_le_one hone
      have htaken := horder (Nat.le_refl 1)
      simpa [Worker.lines] using htaken
    · simpa [Worker.rest] using hwritten
  | @lockOutput before later line r h hfree =>
    rw [h] at hanswered horder hwritten hfree
    rw [Worker.countP_other _ _ rfl] at hfree
    refine ⟨taken, answers ++ [(line, r)], ⟨hsent, ?_, fun hone => ?_, ?_⟩, fun a ha => ?_⟩
    · rw [List.perm_iff_count] at hanswered ⊢
      intro a
      have ha := hanswered a
      simp only [List.flatMap_append, List.flatMap_cons, List.count_append, Worker.lines, List.count_nil,
        List.map_append, List.map_cons, List.map_nil] at ha ⊢
      omega
    · obtain ⟨rfl, rfl⟩ := nil_of_length_le_one hone
      have htaken := horder (Nat.le_refl 1)
      simpa [Worker.lines] using htaken
    · have hbefore : before.flatMap Worker.rest = [] := Worker.flatMap_rest (by omega)
      have hlater : later.flatMap Worker.rest = [] := Worker.flatMap_rest (by omega)
      simp only [List.flatMap_append, List.flatMap_cons, hbefore, hlater] at hwritten ⊢
      simpa [Worker.rest, answerText] using hwritten
    · rcases List.mem_append.mp ha with ha | ha
      · exact .inl ha
      · obtain rfl := List.mem_singleton.mp ha
        exact .inr (by simp [h])
  | @write before later c rest h =>
    rw [h] at hanswered horder hwritten
    have hwriters := ho.writers
    rw [h, Worker.countP_writing] at hwriters
    refine ⟨taken, answers, ⟨hsent, by simpa [Worker.lines] using hanswered, by simpa [Worker.lines] using horder, ?_⟩,
      fun a => .inl⟩
    have hbefore : before.flatMap Worker.rest = [] := Worker.flatMap_rest (by omega)
    have hlater : later.flatMap Worker.rest = [] := Worker.flatMap_rest (by omega)
    simp only [List.flatMap_append, List.flatMap_cons, hbefore, hlater, Worker.rest] at hwritten ⊢
    simpa using hwritten

end Server

end CodeContext
