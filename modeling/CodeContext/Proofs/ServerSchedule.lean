import CodeContext.Proofs.LineLayout
import CodeContext.Proofs.ServerAnswers
import CodeContext.Service.Schedule

/-!
# A server comes to its end

Someone can move until the server is finished, and who can move leaves less to do. So the schedule brings
every server to its end, and the input is answered.
-/

namespace CodeContext

/-! ### Moves leave less to do -/

lemma Indexing.left_of_move {α : Type} {m : Moment α} {c : Cache α} {i j : Indexing α} (hmove : i.Move m c j)
    (h : i.movesLeft ≠ 0) : j.movesLeft < i.movesLeft ∨ j.movesLeft = i.movesLeft ∧ j.keysLeft < i.keysLeft := by
  cases hmove with
  | miss | find | take | refuse | drop | leave | come | note | insert => exact .inl (by simp [movesLeft])
  | purge => exact .inr ⟨rfl, Nat.lt_succ_self _⟩
  | rest => exact absurd rfl h

namespace Job

lemma movesLeft_ofLine (s : Service) (o : Occasion) (line : String) : (ofLine s o line).movesLeft < 9 := by
  unfold ofLine
  repeat' split
  all_goals simp [movesLeft, Indexing.movesLeft]

lemma left_ofIndexing (id : Json.Value) (result : List Node → Json.Value) (files : FileTree)
    (i : Indexing (List Node)) :
    (ofIndexing id result files i).movesLeft ≤ i.movesLeft + 1 ∧ (ofIndexing id result files i).keysLeft ≤ i.keysLeft := by
  cases i <;> simp [ofIndexing, movesLeft, keysLeft]

lemma left_step {job : Job} (hjob : ∀ r, job ≠ .answered r) (s : Service) (files : FileTree) (now : Nat)
    (keys : List CacheKey) :
    (job.step s files now keys).1.movesLeft < job.movesLeft ∨
      (job.step s files now keys).1.movesLeft = job.movesLeft ∧
        (job.step s files now keys).1.keysLeft < job.keysLeft := by
  cases job with
  | reading line => exact .inl (movesLeft_ofLine _ _ _)
  | indexing id result files' i =>
    by_cases hdone : i.movesLeft = 0
    · cases i with
      | done path nodes => exact .inl (Nat.lt_succ_self _)
      | asking | testing | dropping | missing | making | made | purging => cases hdone
    · let m : Moment (List Node) := ⟨now, fun p => (Index.ofPath files' s.config.respectIgnore p).nodes, keys⟩
      have hstep := Indexing.left_of_move (i.move_step m s.results) hdone
      have hof := left_ofIndexing id result files' (i.step m s.results).1
      change (ofIndexing id result files' (i.step m s.results).1).movesLeft < i.movesLeft + 1 ∨
        (ofIndexing id result files' (i.step m s.results).1).movesLeft = i.movesLeft + 1 ∧
          (ofIndexing id result files' (i.step m s.results).1).keysLeft < i.keysLeft
      omega
  | counting | clearing => exact .inl (Nat.lt_succ_self _)
  | answered r => exact absurd rfl (hjob r)

end Job

namespace Server

lemma total_append (f : Worker → Nat) (before later : List Worker) (w : Worker) :
    Worker.total f (before ++ w :: later) = Worker.total f before + f w + Worker.total f later := by
  induction before with
  | nil => simp [Worker.total]
  | cons v before ih =>
    rw [List.cons_append, Worker.total, Worker.total, ih]
    omega

variable {s s' : Server} {turn : Turn}

theorem Move.less (h : Move turn s s') : s'.Less s := by
  cases h with
  | close h => exact .inl (by simp [left, h, Reader.movesLeft])
  | skip h =>
    refine .inl ?_
    simp only [left, h, Reader.movesLeft, List.length_cons]
    omega
  | read h =>
    refine .inl ?_
    simp only [left, h, Reader.movesLeft, List.length_cons]
    omega
  | send h =>
    refine .inl ?_
    simp only [left, h, Reader.movesLeft, List.length_append, List.length_singleton]
    omega
  | lockQueue h =>
    refine .inl ?_
    simp only [left, h, total_append, Worker.movesLeft]
    omega
  | receive h hqueue =>
    refine .inl ?_
    simp only [left, h, hqueue, total_append, Worker.movesLeft, Job.movesLeft, List.length_cons]
    omega
  | stop h =>
    refine .inl ?_
    simp only [left, h, total_append, Worker.movesLeft]
    omega
  | work h hjob =>
    have hstep := Job.left_step hjob s.service turn.files s.clock turn.keys
    simp only [Less, left, h, total_append, Worker.movesLeft, Worker.piecesLeft]
    omega
  | lockOutput h =>
    refine .inl ?_
    simp only [left, h, total_append, Worker.movesLeft, Job.movesLeft]
    omega
  | write h =>
    refine .inr ?_
    simp only [left, h, total_append, Worker.movesLeft, Worker.piecesLeft, List.length_drop, List.length_cons,
      true_and]
    omega
  | unlockOutput h =>
    refine .inl ?_
    simp only [left, h, total_append, Worker.movesLeft]
    omega

lemma less_next {a : Actor} (hcan : s.canMove a = true) (turn : Turn) : (s.next a turn).Less s :=
  (move_next hcan turn).less

/-! ### Someone can move -/

/-- While there are lines, or none will come, a worker that has not stopped can move, or one that it waits
for. -/
lemma exists_workerCanMove {w : Worker} (hw : w ∈ s.workers) (hstopped : w ≠ .stopped)
    (hlines : s.queue ≠ [] ∨ s.reader = .closed) : ∃ v ∈ s.workers, s.workerCanMove v = true := by
  have hreceiving : s.workerCanMove .receiving = true := by
    cases hqueue : s.queue with
    | cons line queue => simp [workerCanMove, hqueue]
    | nil =>
      have hclosed := hlines.resolve_left (fun hne => hne hqueue)
      simp [workerCanMove, hqueue, hclosed]
  cases w with
  | idle =>
    cases hlocked : s.workers.any Worker.hasQueue with
    | false => exact ⟨_, hw, by simp [workerCanMove, hlocked]⟩
    | true =>
      obtain ⟨v, hv, hqueue⟩ := List.any_eq_true.mp hlocked
      cases v with
      | receiving => exact ⟨_, hv, hreceiving⟩
      | idle | working | writing | stopped => cases hqueue
  | receiving => exact ⟨_, hw, hreceiving⟩
  | working line job =>
    cases job with
    | answered r =>
      cases hlocked : s.workers.any Worker.hasOutput with
      | false => exact ⟨_, hw, by simp [workerCanMove, hlocked]⟩
      | true =>
        obtain ⟨v, hv, houtput⟩ := List.any_eq_true.mp hlocked
        cases v with
        | writing rest => exact ⟨_, hv, rfl⟩
        | idle | receiving | working | stopped => cases houtput
    | reading | indexing | counting | clearing => exact ⟨_, hw, rfl⟩
  | writing rest => exact ⟨_, hw, rfl⟩
  | stopped => exact absurd rfl hstopped

lemma exists_actor {w : Worker} (hw : w ∈ s.workers) (hcan : s.workerCanMove w = true) :
    ∃ a ∈ s.actors, s.canMove a = true := by
  obtain ⟨n, hn, rfl⟩ := List.mem_iff_getElem.mp hw
  refine ⟨.worker n, List.mem_cons_of_mem _ (List.mem_map.mpr ⟨n, List.mem_range.mpr hn, rfl⟩), ?_⟩
  rw [canMove, List.getElem?_eq_getElem hn]
  exact hcan

/-- Someone can move unless the server is finished. -/
theorem exists_canMove (ho : s.Orderly) (hworkers : 0 < s.workers.length) (h : ¬ s.Finished) :
    ∃ a ∈ s.actors, s.canMove a = true := by
  have hreader (hcan : s.canMove .reader = true) : ∃ a ∈ s.actors, s.canMove a = true :=
    ⟨.reader, List.mem_cons_self, hcan⟩
  obtain ⟨first, hfirst⟩ := List.exists_mem_of_length_pos hworkers
  cases hr : s.reader with
  | reading lines => exact hreader (by simp [canMove, hr])
  | sending line rest =>
    by_cases hroom : s.queue.length < s.capacity
    · exact hreader (by simp [canMove, hr, hroom])
    · -- The queue is full, so it is not empty.
      have hqueue : s.queue ≠ [] := by
        rw [capacity] at hroom
        exact List.ne_nil_of_length_pos (by omega)
      have hstopped : first ≠ .stopped := by
        rintro rfl
        exact hqueue (ho.stopped hfirst).2
      obtain ⟨w, hw, hcan⟩ := exists_workerCanMove hfirst hstopped (.inl hqueue)
      exact exists_actor hw hcan
  | closed =>
    obtain ⟨w, hw, hstopped⟩ : ∃ w ∈ s.workers, w ≠ .stopped := by
      refine Classical.byContradiction fun hall => h ⟨hr, fun w hw => ?_⟩
      exact Classical.byContradiction fun hne => hall ⟨w, hw, hne⟩
    obtain ⟨v, hv, hcan⟩ := exists_workerCanMove hw hstopped (.inr hr)
    exact exists_actor hv hcan

/-! ### The schedule -/

lemma mem_of_earliest {l : List (Actor × Nat)} {b : Actor × Nat} (h : earliest l = some b) : b ∈ l := by
  induction l generalizing b with
  | nil => cases h
  | cons a rest ih =>
    rw [earliest] at h
    split at h
    · cases h
      exact List.mem_cons_self
    · rename_i c hc
      split at h
      · cases h
        exact List.mem_cons_of_mem _ (ih hc)
      · cases h
        exact List.mem_cons_self

lemma eq_nil_of_earliest {l : List (Actor × Nat)} (h : earliest l = none) : l = [] := by
  cases l with
  | nil => rfl
  | cons a rest =>
    rw [earliest] at h
    split at h
    · cases h
    · split at h <;> cases h

lemma canMove_of_pick {ready : List Nat} {a : Actor} {since : Nat} (h : s.pick ready = some (a, since)) :
    s.canMove a = true :=
  (List.mem_filter.mp (mem_of_earliest h)).2

lemma not_canMove_of_pick {ready : List Nat} (hready : ready.length = s.actors.length) (h : s.pick ready = none)
    {a : Actor} (ha : a ∈ s.actors) : s.canMove a = false := by
  obtain ⟨n, hn, rfl⟩ := List.mem_iff_getElem.mp ha
  have hmem : (s.actors[n], ready[n]) ∈ s.actors.zip ready := by
    rw [← List.getElem_zip (i := n) (h := by rw [List.length_zip]; omega)]
    exact List.getElem_mem _
  have hnone := List.filter_eq_nil_iff.mp (eq_nil_of_earliest h) _ hmem
  exact Bool.eq_false_iff.mpr hnone

lemma length_actors (s : Server) : s.actors.length = s.workers.length + 1 := by
  simp [actors]

/-- The schedule is one way for all to move, until nobody can. -/
theorem finish_eq_run (s : Server) (o : Occasion) (now : Nat) (ready : List Nat)
    (hready : ready.length = s.actors.length) :
    ∃ turns, s.finish o now ready = s.run turns ∧ ∀ a ∈ (s.run turns).actors, (s.run turns).canMove a = false := by
  induction s, now, ready using finish.induct o with
  | case1 s now ready hpick =>
    rw [finish, hpick]
    exact ⟨[], rfl, fun a ha => not_canMove_of_pick hready hpick ha⟩
  | case2 s now ready a since hpick now' after hless ih =>
    have hafter : after.actors.length = s.actors.length := by
      rw [length_actors, length_actors, length_workers (moves_next s a (s.turn o a))]
      rfl
    obtain ⟨turns, hturns, hend⟩ := ih (by rw [List.length_set, hready, hafter])
    refine ⟨(a, s.turn o a) :: turns, ?_, hend⟩
    rw [finish, hpick]
    dsimp only
    rw [dif_pos hless]
    exact hturns
  | case3 s now ready a since hpick after hmore =>
    exact absurd (less_next (canMove_of_pick hpick) _) hmore

/-- The schedule brings a server to its end. -/
theorem finished_finish (service : Service) (o : Occasion) (input : ByteArray) (workers now : Nat) {ready : List Nat}
    (hready : ready.length = (opened service o.asked input workers).actors.length) :
    ∃ turns, (opened service o.asked input workers).finish o now ready =
        (opened service o.asked input workers).run turns ∧
      ((opened service o.asked input workers).run turns).Finished := by
  obtain ⟨turns, hturns, hend⟩ := finish_eq_run _ o now ready hready
  refine ⟨turns, hturns, Classical.byContradiction fun hnot => ?_⟩
  have hlength : 0 < ((opened service o.asked input workers).run turns).workers.length := by
    rw [length_workers_run, length_workers_opened]
    omega
  obtain ⟨a, ha, hcan⟩ := exists_canMove (serves service o.asked input workers turns).orderly hlength hnot
  rw [hend a ha] at hcan
  cases hcan

end Server

/-! ### The lines of the output -/

namespace Service

/-- An input that is served by some workers gets an answer to each of its lines that is to be answered. -/
theorem serveWith_isAnswered (s : Service) (o : Occasion) (workers : Nat) (input : ByteArray) :
    ∃ turns answers, Server.IsAnswered (.opened s o.asked input workers) (requestLines input) turns answers ∧
      (workers ≤ 1 → answers.map Prod.fst = requestLines input) ∧
      (s.serveWith o workers input).1 = answers.map fun a => a.2.line := by
  obtain ⟨turns, hturns, hfinished⟩ := Server.finished_finish s o input workers 0 List.length_replicate
  have hlength := Server.length_workers_opened s o.asked input workers
  obtain ⟨answers, hanswered, horder⟩ :=
    (Server.serves s o.asked input workers turns).isAnswered (by omega) hfinished
  refine ⟨turns, answers, hanswered, fun hone => horder (by omega), ?_⟩
  have hlines (text : String) (htext : text ∈ answers.map fun a => a.2.line) : IsResponseLine text := by
    obtain ⟨a, ha, rfl⟩ := List.mem_map.mp htext
    exact hanswered.oneLine a ha
  have hjoin := Text.lines_join (fun text htext => (hlines text htext).oneLine) fun text htext => by
    rw [(hlines text htext).getLast?]
    decide
  rw [List.map_map] at hjoin
  rw [serveWith, hturns, hanswered.output]
  exact hjoin

end Service

end CodeContext
