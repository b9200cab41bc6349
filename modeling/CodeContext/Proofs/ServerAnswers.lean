import CodeContext.Proofs.CacheOverlap
import CodeContext.Proofs.InputLines
import CodeContext.Proofs.ResponseLines
import CodeContext.Proofs.ServerMoves
import CodeContext.Proofs.ServiceHistory

/-!
# What a server answers

However the moves of the reader and the workers come about, what stands in the output in the end is one line
for each line that was sent. It is the response to that line of the service as it was at some moment of the
run.
-/

namespace CodeContext

open Service (needs? nodesAt)

/-- The lines to be answered are those in the text of the input that are not blank. -/
theorem Service.requestLines_eq {input : ByteArray} {text : String} (htext : Text.IsTextOf text input.data.toList)
    {ls : List Text.Line} (hls : Text.IsLayout ls text.toList) :
    requestLines input = (ls.map fun l => String.ofList l.content).filter fun line => !Text.blank line := by
  rw [requestLines, htext.inputLines_of_isLayout hls]

/-! ### A run -/

namespace Server

lemma run_append (s : Server) (past more : List (Actor × Turn)) : s.run (past ++ more) = (s.run past).run more :=
  List.foldl_append

lemma run_concat (s : Server) (past : List (Actor × Turn)) (turn : Actor × Turn) :
    s.run (past ++ [turn]) = (s.run past).next turn.1 turn.2 :=
  s.run_append past [turn]

end Server

namespace Job

lemma service_step (s : Service) (files : FileTree) (now : Nat) (keys : List CacheKey) (job : Job) :
    (job.step s files now keys).2.config = s.config ∧
      (job.step s files now keys).2.results.lifetime = s.results.lifetime := by
  cases job with
  | indexing id result files i =>
    let find p := (Index.ofPath files s.config.respectIgnore p).nodes
    exact ⟨rfl, (Call.effect_step ⟨now, find, keys⟩ s.results (.index i)).lifetime_eq⟩
  | reading | counting | clearing | answered => exact ⟨rfl, rfl⟩

end Job

namespace Server

lemma Moves.service {turn : Turn} {s s' : Server} (h : Moves turn s s') :
    s'.service.config = s.service.config ∧ s'.service.results.lifetime = s.service.results.lifetime := by
  rcases h with rfl | h
  · exact ⟨rfl, rfl⟩
  cases h with
  | work => exact Job.service_step _ _ _ _ _
  | close | skip | read | send | lockQueue | receive | stop | lockOutput | write | unlockOutput =>
    exact ⟨rfl, rfl⟩

lemma Moves.clock {turn : Turn} {s s' : Server} (h : Moves turn s s') : s'.clock = s.clock := by
  rcases h with rfl | h
  · rfl
  cases h <;> rfl

lemma service_run (s : Server) (turns : List (Actor × Turn)) :
    (s.run turns).service.config = s.service.config ∧
      (s.run turns).service.results.lifetime = s.service.results.lifetime := by
  induction turns generalizing s with
  | nil => exact ⟨rfl, rfl⟩
  | cons turn turns ih =>
    have hmove := (moves_next s turn.1 turn.2).service
    have hrest := ih (s.next turn.1 turn.2)
    exact ⟨hrest.1.trans hmove.1, hrest.2.trans hmove.2⟩

/-! ### Responses of the service at a moment -/

variable (s : Server) (turns read : List (Actor × Turn))

/-- A worker read the line with the last of some moves, which met the files. -/
def Reads (line : String) (files : FileTree) : Prop :=
  ∃ before a turn, read = before ++ [(a, turn)] ∧ .working line (.reading line) ∈ (s.run before).workers ∧
    turn.files = files

/-- The nodes that the service gives at a moment after a line was read, if its clock is that of a later
moment. -/
def GivesNodes (files : FileTree) (path : String) (nodes : List Node) : Prop :=
  ∃ earlier later made, read <+: earlier ∧ earlier <+: later ∧ later <+: turns ∧
    ((s.run earlier).service.index ⟨files, (s.run later).clock, made⟩ path).1 = nodes

/-- The response that the service gives to a line at a moment after the line was read, if its clock is that of
a later moment. -/
def Gives (line : String) (r : Response) : Prop :=
  ∃ read files earlier later made, Reads s read line files ∧ read <+: earlier ∧ earlier <+: later ∧
    later <+: turns ∧ ((s.run earlier).service.respondToLine ⟨files, (s.run later).clock, made⟩ line).1 = r

variable {s turns read} {files : FileTree} {line path : String}

lemma GivesNodes.append {nodes : List Node} (h : GivesNodes s turns read files path nodes)
    (more : List (Actor × Turn)) : GivesNodes s (turns ++ more) read files path nodes := by
  obtain ⟨earlier, later, made, hread, hearlier, hlater, hnodes⟩ := h
  exact ⟨earlier, later, made, hread, hearlier, hlater.trans (List.prefix_append _ _), hnodes⟩

lemma Gives.append {r : Response} (h : Gives s turns line r) (more : List (Actor × Turn)) :
    Gives s (turns ++ more) line r := by
  obtain ⟨read, files, earlier, later, made, hread, hearlier, hlater, hturns, hr⟩ := h
  exact ⟨read, files, earlier, later, made, hread, hearlier, hlater, hturns.trans (List.prefix_append _ _), hr⟩

/-! ### An answer in the making -/

variable (s turns read)

/-- How far a call to `index` for a path has come. -/
def Indexes (files : FileTree) (path : String) : Indexing (List Node) → Prop
  | .asking _ => True
  | .testing _ e => ∃ earlier, read <+: earlier ∧ earlier <+: turns ∧
      (s.run earlier).service.results.get? (CacheKey.ofPath files path) = some e
  | .dropping _ | .missing _ | .making _ =>
    GivesNodes s turns read files path (nodesAt s.service.config files path)
  | .made _ nodes | .done _ nodes => GivesNodes s turns read files path nodes
  | .purging _ new _ => GivesNodes s turns read files path new.value

/-- How far the answer to a line has come. -/
def Answers (line : String) : Job → Prop
  | .reading text => text = line
  | .indexing id result files i => ∃ read r path, Reads s read line files ∧ read <+: turns ∧
      Request.decoder.parse line = .ok r ∧ r.id = id ∧ needs? s.service.config r = some (path, result) ∧
      i.path = files.absolute path ∧ Indexes s turns read files path i
  | .counting id => ∃ read files r, Reads s read line files ∧ read <+: turns ∧
      Request.decoder.parse line = .ok r ∧ r.id = id ∧ r.method = Method.clearCache.name
  | .clearing id count => ∃ read files r earlier, Reads s read line files ∧ read <+: earlier ∧ earlier <+: turns ∧
      Request.decoder.parse line = .ok r ∧ r.id = id ∧ r.method = Method.clearCache.name ∧
      (s.run earlier).service.results.size = count
  | .answered r => Gives s turns line r

variable {s turns read}

lemma Indexes.append {i : Indexing (List Node)} (h : Indexes s turns read files path i)
    (more : List (Actor × Turn)) : Indexes s (turns ++ more) read files path i := by
  cases i with
  | asking => trivial
  | testing _ e =>
    obtain ⟨earlier, hread, hearlier, hget⟩ := h
    exact ⟨earlier, hread, hearlier.trans (List.prefix_append _ _), hget⟩
  | dropping | missing | making | made | purging | done => exact GivesNodes.append h more

lemma Answers.append {job : Job} (h : Answers s turns line job) (more : List (Actor × Turn)) :
    Answers s (turns ++ more) line job := by
  have hlater : turns <+: turns ++ more := List.prefix_append _ _
  cases job with
  | reading => exact h
  | indexing id result files i =>
    obtain ⟨read, r, path, hread, hturns, hparse, hid, hneeds, hpath, hi⟩ := h
    exact ⟨read, r, path, hread, hturns.trans hlater, hparse, hid, hneeds, hpath, hi.append more⟩
  | counting id =>
    obtain ⟨read, files, r, hread, hturns, hrest⟩ := h
    exact ⟨read, files, r, hread, hturns.trans hlater, hrest⟩
  | clearing id count =>
    obtain ⟨read, files, r, earlier, hread, hearlier, hturns, hrest⟩ := h
    exact ⟨read, files, r, earlier, hread, hearlier, hturns.trans hlater, hrest⟩
  | answered r => exact Gives.append h more

/-- What is looked for and not found fresh is newly made from the files. -/
lemma givesNodes_of_stale {earlier : List (Actor × Turn)} (hread : read <+: earlier) (hearlier : earlier <+: turns)
    (h : ∀ e, (s.run earlier).service.results.get? (CacheKey.ofPath files path) = some e →
      (s.run earlier).service.results.lifetime ≤ (s.run turns).clock - e.time) :
    GivesNodes s turns read files path (nodesAt s.service.config files path) := by
  refine ⟨earlier, turns, 0, hread, hearlier, List.prefix_refl _, ?_⟩
  rw [Service.index_of_stale (o := ⟨files, _, 0⟩) h, (service_run s earlier).1]

lemma gives_of_nodes {r : Request} {result : List Node → Json.Value} {nodes : List Node}
    (hread : Reads s read line files) (hparse : Request.decoder.parse line = .ok r)
    (hneeds : needs? s.service.config r = some (path, result)) (h : GivesNodes s turns read files path nodes) :
    Gives s turns line ⟨r.id, .ok (result nodes)⟩ := by
  obtain ⟨earlier, later, made, hearlier, hlater, hturns, rfl⟩ := h
  refine ⟨read, files, earlier, later, made, hread, hearlier, hlater, hturns, ?_⟩
  rw [← (service_run s earlier).1] at hneeds
  rw [Service.respondToLine, hparse]
  exact congrArg Prod.fst (Service.respond_of_needs hneeds _)

lemma gives_of_size {r : Request} {earlier : List (Actor × Turn)} (hread : Reads s read line files)
    (hearlier : read <+: earlier) (hturns : earlier <+: turns) (hparse : Request.decoder.parse line = .ok r)
    (hclear : r.method = Method.clearCache.name) :
    Gives s turns line ⟨r.id, .ok (Service.clearedJson (s.run earlier).service.results.size)⟩ := by
  refine ⟨read, files, earlier, turns, 0, hread, hearlier, hturns, List.prefix_refl _, ?_⟩
  rw [Service.respondToLine, hparse]
  simp only [Service.respond, Service.handle, hclear, Method.ofName?_name]
  rfl

lemma answers_ofIndexing {r : Request} {result : List Node → Json.Value} {i : Indexing (List Node)}
    (hread : Reads s read line files) (hturns : read <+: turns) (hparse : Request.decoder.parse line = .ok r)
    (hneeds : needs? s.service.config r = some (path, result)) (hpath : i.path = files.absolute path)
    (hi : Indexes s turns read files path i) : Answers s turns line (Job.ofIndexing r.id result files i) := by
  cases i with
  | done p nodes => exact gives_of_nodes hread hparse hneeds hi
  | asking | testing | dropping | missing | making | made | purging =>
    exact ⟨read, r, path, hread, hturns, hparse, rfl, hneeds, hpath, hi⟩

/-! ### A step of an answer -/

section

variable {a : Actor} {turn : Turn}

lemma clock_concat : (s.run (turns ++ [(a, turn)])).clock = (s.run turns).clock + turn.elapsed := by
  rw [run_concat, (moves_next _ a turn).clock]
  rfl

/-- A step of a call to `index` comes nearer to nodes that the service gives at some moment. -/
theorem Indexes.of_move {i j : Indexing (List Node)}
    (hmove : i.Move ⟨(s.run turns).clock + turn.elapsed,
      fun p => (Index.ofPath files (s.run turns).service.config.respectIgnore p).nodes, turn.keys⟩
      (s.run turns).service.results j)
    (h : Indexes s turns read files path i) (hread : read <+: turns) (hpath : i.path = files.absolute path) :
    Indexes s (turns ++ [(a, turn)]) read files path j := by
  have hclock : (s.run (turns ++ [(a, turn)])).clock = (s.run turns).clock + turn.elapsed := clock_concat
  have hlifetime (earlier : List (Actor × Turn)) :
      (s.run turns).service.results.lifetime = (s.run earlier).service.results.lifetime :=
    (service_run s turns).2.trans (service_run s earlier).2.symm
  have hlater : turns <+: turns ++ [(a, turn)] := List.prefix_append _ _
  cases hmove with
  | miss hnone =>
    obtain rfl : _ = files.absolute path := hpath
    refine givesNodes_of_stale hread hlater fun e he => ?_
    rw [CacheKey.ofPath, hnone] at he
    cases he
  | find hget =>
    obtain rfl : _ = files.absolute path := hpath
    exact ⟨turns, hread, hlater, hget⟩
  | take hage =>
    -- The service as it was when the result was found gives it, with the clock of now.
    obtain ⟨earlier, hearlier, hturns, hget⟩ := h
    rw [← hclock, hlifetime earlier] at hage
    refine ⟨earlier, _, 0, hearlier, hturns.trans hlater, List.prefix_refl _, ?_⟩
    rw [Service.index_of_fresh (o := ⟨files, _, 0⟩) hget hage]
  | refuse hage =>
    obtain ⟨earlier, hearlier, hturns, hget⟩ := h
    rw [← hclock, hlifetime earlier] at hage
    refine givesNodes_of_stale hearlier (hturns.trans hlater) fun e' he' => ?_
    obtain rfl := Option.some.inj (hget.symm.trans he')
    exact hage
  | come =>
    obtain rfl : _ = files.absolute path := hpath
    have hmade := GivesNodes.append h [(a, turn)]
    rwa [← (service_run s turns).1] at hmade
  | drop | leave | note | purge | insert | rest => exact GivesNodes.append h _

/-- Once a line is read, its answer is under way. An answer that is given at once changes nothing. -/
lemma answers_ofLine {service : Service} (hservice : service = (s.run (turns ++ [(a, turn)])).service)
    (hread : Reads s (turns ++ [(a, turn)]) line turn.files) :
    Answers s (turns ++ [(a, turn)]) line (Job.ofLine service
      ⟨turn.files, (s.run turns).clock + turn.elapsed, (s.run turns).clock + turn.elapsed⟩ line) := by
  have hgives : Gives s (turns ++ [(a, turn)]) line (service.respondToLine
      ⟨turn.files, (s.run turns).clock + turn.elapsed, (s.run turns).clock + turn.elapsed⟩ line).1 :=
    ⟨_, _, _, _, _, hread, List.prefix_refl _, List.prefix_refl _, List.prefix_refl _, by rw [hservice, clock_concat]⟩
  unfold Job.ofLine
  split
  · exact hgives
  · rename_i r hparse
    split
    · rename_i path result hneeds
      rw [hservice, (service_run s _).1] at hneeds
      exact ⟨_, r, path, hread, List.prefix_refl _, hparse, rfl, hneeds, rfl, trivial⟩
    · split
      · exact ⟨_, _, r, hread, List.prefix_refl _, hparse, rfl, ‹_›⟩
      · exact hgives

/-- A step of an answer comes nearer to a response that the service gives at some moment. -/
theorem Answers.step {job : Job} (h : Answers s turns line job) (hw : .working line job ∈ (s.run turns).workers)
    (hservice : (s.run (turns ++ [(a, turn)])).service =
      (job.step (s.run turns).service turn.files ((s.run turns).clock + turn.elapsed) turn.keys).2) :
    Answers s (turns ++ [(a, turn)]) line
      (job.step (s.run turns).service turn.files ((s.run turns).clock + turn.elapsed) turn.keys).1 := by
  have hlater : turns <+: turns ++ [(a, turn)] := List.prefix_append _ _
  cases job with
  | reading text =>
    obtain rfl : text = line := h
    exact answers_ofLine hservice.symm ⟨turns, a, turn, rfl, hw, rfl⟩
  | indexing id result files i =>
    obtain ⟨read, r, path, hread, hturns, hparse, rfl, hneeds, hpath, hi⟩ := h
    have hmove := i.move_step ⟨(s.run turns).clock + turn.elapsed,
      fun p => (Index.ofPath files (s.run turns).service.config.respectIgnore p).nodes, turn.keys⟩
      (s.run turns).service.results
    exact answers_ofIndexing hread (hturns.trans hlater) hparse hneeds (hmove.path_eq.trans hpath)
      (hi.of_move hmove hturns hpath)
  | counting id =>
    obtain ⟨read, files, r, hread, hturns, hparse, rfl, hclear⟩ := h
    exact ⟨read, files, r, turns, hread, hturns, hlater, hparse, rfl, hclear, rfl⟩
  | clearing id count =>
    obtain ⟨read, files, r, earlier, hread, hearlier, hturns, hparse, rfl, hclear, rfl⟩ := h
    exact gives_of_size hread hearlier (hturns.trans hlater) hparse hclear
  | answered r => exact Gives.append h _

end

/-! ### The whole run -/

/-- What holds of a run of the server: it is orderly, all answers in the making are under way to a response,
and those that are made are accounted for. -/
structure Serves (s : Server) (lines : List String) (turns : List (Actor × Turn)) : Prop where
  orderly : (s.run turns).Orderly
  working : ∀ line job, .working line job ∈ (s.run turns).workers → Answers s turns line job
  ledger : ∃ taken answers, Ledger lines (s.run turns) taken answers ∧ ∀ a ∈ answers, Gives s turns a.1 a.2

lemma serves_opened (service : Service) (clock : Nat) (input : ByteArray) (workers : Nat) :
    Serves (opened service clock input workers) (Service.requestLines input) [] where
  orderly := orderly_opened service clock input workers
  working _ _ hw := nomatch List.eq_of_mem_replicate hw
  ledger := ⟨[], [], ledger_opened service clock input workers, nofun⟩

variable {lines : List String}

lemma Serves.working_next (h : Serves s lines turns) (turn : Actor × Turn) (line : String) (job : Job)
    (hw : .working line job ∈ (s.run (turns ++ [turn])).workers) : Answers s (turns ++ [turn]) line job := by
  obtain ⟨a, turn⟩ := turn
  rw [run_concat] at hw
  rcases (moves_next (s.run turns) a turn).working hw with hw | rfl | ⟨old, hold, rfl, hservice⟩
  · exact (h.working line job hw).append _
  · rfl
  · rw [← run_concat s turns (a, turn)] at hservice
    exact (h.working line old hold).step hold hservice

theorem Serves.next (h : Serves s lines turns) (turn : Actor × Turn) : Serves s lines (turns ++ [turn]) where
  orderly := by
    rw [run_concat]
    exact (h.orderly.later _).moves (moves_next _ turn.1 turn.2)
  working := h.working_next turn
  ledger := by
    obtain ⟨taken, answers, hledger, hgives⟩ := h.ledger
    obtain ⟨taken', answers', hnext, hnew⟩ :=
      (hledger.later _).moves (h.orderly.later _) (moves_next _ turn.1 turn.2)
    refine ⟨taken', answers', by rwa [run_concat], fun a ha => ?_⟩
    rcases hnew a ha with ha | ha
    · exact (hgives a ha).append _
    · exact Gives.append (h.working _ _ ha) _

lemma Serves.append (h : Serves s lines turns) (more : List (Actor × Turn)) : Serves s lines (turns ++ more) := by
  induction more generalizing turns with
  | nil => rwa [List.append_nil]
  | cons turn more ih => simpa using ih (h.next turn)

lemma serves (service : Service) (clock : Nat) (input : ByteArray) (workers : Nat) (turns : List (Actor × Turn)) :
    Serves (opened service clock input workers) (Service.requestLines input) turns :=
  (serves_opened service clock input workers).append turns

lemma length_workers_run (s : Server) (turns : List (Actor × Turn)) :
    (s.run turns).workers.length = s.workers.length := by
  induction turns generalizing s with
  | nil => rfl
  | cons turn turns ih =>
    have hmove := length_workers (moves_next s turn.1 turn.2)
    exact (ih _).trans hmove

/-- What the output holds when a server is finished that was given some lines: an answer to each and no
more, each as a line of its own. -/
structure IsAnswered (s : Server) (lines : List String) (turns : List (Actor × Turn))
    (answers : List (String × Response)) : Prop where
  output : (s.run turns).output = String.join (answers.map fun a => a.2.line ++ "\n")
  covers : (answers.map Prod.fst).Perm lines
  responses : ∀ a ∈ answers, Gives s turns a.1 a.2
  oneLine : ∀ a ∈ answers, IsResponseLine a.2.line

lemma Serves.isAnswered (h : Serves s lines turns) (hworkers : 0 < s.workers.length)
    (hfinished : (s.run turns).Finished) :
    ∃ answers, IsAnswered s lines turns answers ∧ (s.workers.length = 1 → answers.map Prod.fst = lines) := by
  obtain ⟨taken, answers, hledger, hgives⟩ := h.ledger
  obtain ⟨hreader, hstopped⟩ := hfinished
  -- A worker stops only when nothing is left in the queue.
  have hqueue : (s.run turns).queue = [] := by
    rw [← length_workers_run s turns] at hworkers
    obtain ⟨w, hw⟩ := List.exists_mem_of_length_pos hworkers
    exact (h.orderly.stopped (hstopped w hw ▸ hw)).2
  have hnoLines : (s.run turns).workers.flatMap Worker.lines = [] :=
    List.flatMap_eq_nil_iff.mpr fun w hw => by rw [hstopped w hw]; rfl
  have hnoRest : (s.run turns).workers.flatMap Worker.rest = [] :=
    List.flatMap_eq_nil_iff.mpr fun w hw => by rw [hstopped w hw]; rfl
  have htaken : taken = lines := by simpa [hqueue, hreader, Reader.lines] using hledger.sent
  subst htaken
  refine ⟨answers, ⟨?_, ?_, hgives, fun a _ => a.2.isResponseLine⟩, fun hone => ?_⟩
  · have hwritten : (s.run turns).output.toList = answers.flatMap answerText := by
      simpa [hnoRest] using hledger.written
    rw [← String.toList_inj, hwritten, String.toList_join, List.flatMap_map]
    rfl
  · simpa [hnoLines] using hledger.answered
  · rw [← length_workers_run s turns] at hone
    simpa [hnoLines] using hledger.inOrder (Nat.le_of_eq hone)

lemma length_workers_opened (service : Service) (clock : Nat) (input : ByteArray) (workers : Nat) :
    (opened service clock input workers).workers.length = max workers 1 :=
  List.length_replicate

/-- Whatever moves bring a server to its end, it has answered each line once that it had to answer, and has
done so in their order if it had one worker. -/
theorem isAnswered_of_finished {service : Service} {clock : Nat} {input : ByteArray} {workers : Nat}
    {turns : List (Actor × Turn)} (h : ((opened service clock input workers).run turns).Finished) :
    ∃ answers, IsAnswered (opened service clock input workers) (Service.requestLines input) turns answers ∧
      (workers ≤ 1 → answers.map Prod.fst = Service.requestLines input) := by
  have hlength := length_workers_opened service clock input workers
  obtain ⟨answers, hanswered, horder⟩ := (serves service clock input workers turns).isAnswered (by omega) h
  exact ⟨answers, hanswered, fun hone => horder (by omega)⟩

/-- Two workers take a line each, and the second has the output first. -/
def overtaking : List (Actor × Turn) :=
  let actors : List Actor :=
    [.reader, .worker 0, .reader, .worker 0, .worker 1, .reader, .reader, .worker 1, .worker 0, .worker 1,
      .worker 1, .worker 1, .worker 1, .reader, .worker 0, .worker 1, .worker 1, .worker 0, .worker 0, .worker 1,
      .worker 1, .worker 0, .worker 0, .worker 0]
  actors.map fun a => (a, ⟨⟨.directory [], []⟩, 0, [], 100⟩)

def overtakingInput : ByteArray :=
  "?\n\x7b\"method\":\"clear_cache\"\x7d\n".toUTF8

def overtakingLines : List String :=
  ["?", "\x7b\"method\":\"clear_cache\"\x7d"]

lemma requestLines_overtakingInput : Service.requestLines overtakingInput = overtakingLines := by
  have hended : ∀ line ∈ overtakingLines, (⟨line.toList, ['\n']⟩ : Text.Line).IsEnded := by
    intro line hline
    refine ⟨?_, .inr ⟨rfl, ?_⟩⟩
    all_goals
      revert line
      decide
  obtain ⟨hfirst, hsecond⟩ := List.forall_mem_cons.mp hended
  have hlayout := Text.IsLayout.cons hfirst (.cons (hsecond _ List.mem_cons_self) .nil)
  have htext : Text.IsTextOf "?\n\x7b\"method\":\"clear_cache\"\x7d\n" overtakingInput.data.toList := .whole
  rw [Service.requestLines_eq htext hlayout]
  decide

/-- The moves bring two workers to their end. Both lines are answered, and the answer to the second is written first. -/
theorem isAnswered_overtaking :
    ((opened (.start .standard) 0 overtakingInput 2).run overtaking).Finished ∧
      Service.requestLines overtakingInput = overtakingLines ∧
      (∃ answers, IsAnswered (opened (.start .standard) 0 overtakingInput 2) overtakingLines overtaking answers ∧
        (2 ≤ 1 → answers.map Prod.fst = overtakingLines)) ∧
      ((opened (.start .standard) 0 overtakingInput 2).run overtaking).output =
        "\x7b\"id\":null,\"result\":\x7b\"cleared\":0\x7d\x7d\n" ++
          "\x7b\"id\":null,\"error\":\x7b\"message\":" ++
            "\"invalid request: expected value at line 1 column 1\"\x7d\x7d\n" := by
  have hfinished : ((opened (.start .standard) 0 overtakingInput 2).run overtaking).Finished := by
    decide +kernel
  have hanswered := isAnswered_of_finished hfinished
  rw [requestLines_overtakingInput] at hanswered
  refine ⟨hfinished, requestLines_overtakingInput, hanswered, ?_⟩
  decide +kernel

end Server

end CodeContext
