import ControlLoop.Controller.Run
import ControlLoop.Proofs.OrderlyWork
import ControlLoop.Proofs.Rounds

/-!
# Runs of a controller

Tasks of a controller may go on in any order, and between any two steps of theirs clients may write
objects, watches may be cut off, the history may be compacted and requests may be made to fail. In
every state of such a run the informer follows the store, and visits are accounted for: that is what
`Observed.Sound` says, and each task keeps it.
-/
set_option linter.unusedSectionVars false

namespace ControlLoop

/-! ## What the steps of a controller change -/

namespace Session

variable {α : Type} [Resource α] [Collection α] [LawfulCollection α]

lemma list_cases (scope : Option String) (c : Cluster) :
    (Collection.store (Session.list α scope c).2 : Store α) = Collection.store c ∧
      ((Session.list α scope c).1 = .ok ((Collection.store c : Store α).list scope) ∨
        ∃ e, (Session.list α scope c).1 = .error e) := by
  have hfault : (Collection.store (c.takeFault (Collection.name α) .list).2 : Store α) =
      Collection.store c := LawfulCollection.store_congr rfl rfl rfl rfl
  have hnote (d : Cluster) (call : FeedCall) :
      (Collection.store (d.noteFeed call) : Store α) = Collection.store d :=
    LawfulCollection.store_congr rfl rfl rfl rfl
  simp only [Session.list]
  rw [← hfault]
  generalize c.takeFault (Collection.name α) .list = p
  rcases p with ⟨_ | e, d⟩
  · exact ⟨hnote d _, .inl rfl⟩
  · exact ⟨hnote d _, .inr ⟨e, rfl⟩⟩

lemma watch_cases (scope : Option String) (version : String) (c : Cluster) :
    (Collection.store (Session.watch α scope version c).2 : Store α) = Collection.store c ∧
      ((Session.watch α scope version c).1 = (Collection.store c : Store α).watch scope version ∨
        ∃ e, (Session.watch α scope version c).1 = .error e) := by
  have hfault : (Collection.store (c.takeFault (Collection.name α) .watch).2 : Store α) =
      Collection.store c := LawfulCollection.store_congr rfl rfl rfl rfl
  have hnote (d : Cluster) (call : FeedCall) :
      (Collection.store (d.noteFeed call) : Store α) = Collection.store d :=
    LawfulCollection.store_congr rfl rfl rfl rfl
  simp only [Session.watch]
  rw [← hfault]
  generalize c.takeFault (Collection.name α) .watch = p
  rcases p with ⟨_ | e, d⟩
  · simp only
    split
    next e he => exact ⟨hnote d _, .inr ⟨e, rfl⟩⟩
    next w hw => exact ⟨hnote d _, .inl hw.symm⟩
  · exact ⟨hnote d _, .inr ⟨e, rfl⟩⟩

end Session

/-- What a worker has still to do for its key. -/
def Worker.job? : Worker → Option (Task Outcome)
  | busy _ job => some job
  | asleep _ job => some job
  | _ => none

namespace Controller

variable {σ α : Type} [Resource α] [Collection α] (c : Controller σ α)

lemma setCluster_eq (cluster : Cluster) :
    ∃ agenda, c.setCluster cluster = { c with cluster := cluster, agenda := agenda } := by
  unfold setCluster
  simp only
  split
  · exact ⟨_, rfl⟩
  · exact ⟨c.agenda, rfl⟩

lemma applyFeed_eq (result : Feed α × List (Change α)) :
    ∃ agenda, c.applyFeed result =
      { c with feed := result.1, changes := c.changes ++ result.2, agenda := agenda } := by
  unfold applyFeed
  simp only
  split
  · exact ⟨c.agenda, rfl⟩
  · exact ⟨_, rfl⟩

lemma bringBack_eq (n : Nat) (k : ObjectKey) (d : Duration) :
    ∃ agenda, c.bringBack n k d =
      { c with
        queue := (c.queue.comeBack k d).queue
        workers := c.workers.set n .idle
        agenda := agenda } := by
  unfold bringBack
  simp only
  split
  · exact ⟨_, rfl⟩
  · exact ⟨_, rfl⟩

/-- A key that is given back leaves the queue, or comes to its line again, or the worker is to bring it
back. -/
lemma release_eq (n : Nat) (k : ObjectKey) (ending : Ending Outcome) :
    ∃ w queue tally agenda, c.release n k ending =
        { c with
          workers := c.workers.set n w, queue := queue, tally := tally, agenda := agenda } ∧
      (w = .idle ∨ ∃ d, w = .returning k d) ∧
      queue.shuttingDown = c.queue.shuttingDown ∧
      (c.queue.Serves → c.queue.Releases k queue ∧
        (ending.retry = none ∨ queue.IsPending k ∨ ∃ d, w = .returning k d)) := by
  unfold release
  split
  next hretry =>
    exact ⟨.idle, _, _, _, rfl, .inl rfl, c.queue.done_shuttingDown k,
      fun h => ⟨h.done k, .inl hretry⟩⟩
  next delay _ =>
    have hclosed := c.queue.endForRetry_shuttingDown k delay
    have hserves := fun h : c.queue.Serves => h.endForRetry k delay
    generalize c.queue.endForRetry k delay = p at *
    rcases p with ⟨_ | d, queue, woken⟩
    · exact ⟨.idle, queue, _, _, rfl, .inl rfl, hclosed,
        fun h => ⟨(hserves h).1, .inr (.inl ((hserves h).2 rfl))⟩⟩
    · exact ⟨.returning k d, queue, _, _, rfl, .inr ⟨d, rfl⟩, hclosed,
        fun h => ⟨(hserves h).1, .inr (.inr ⟨d, rfl⟩)⟩⟩

/-- The work on a key is orderly if the reconciler is, and beginning it leaves the objects alone. -/
lemma beginWork_eq [LawfulCollection α] (hr : c.reconciler.Orderly) (k : ObjectKey) :
    (c.beginWork k).1.Orderly α ∧ ∃ memory cluster, Collection.store cluster = c.store ∧
      (c.beginWork k).2 = { c with memory := memory, cluster := cluster } := by
  unfold beginWork
  simp only
  split
  · exact ⟨trivial, c.memory, c.cluster, rfl, rfl⟩
  next a f _ => exact ⟨Job.within_lift (orderly_claim a f), c.memory, c.cluster, rfl, rfl⟩
  next a _ =>
    refine ⟨(hr a c.memory).1.bind fun ending => ?_, _, _, ?_, rfl⟩
    · exact Job.within_lift (orderly_afterReconcile a ending)
    · exact LawfulCollection.store_congr rfl rfl rfl rfl
  next a f _ =>
    refine ⟨(hr a c.memory).2.bind fun ending => ?_, _, _, ?_, rfl⟩
    · exact Job.within_lift (orderly_afterFinalize a f ending)
    · exact LawfulCollection.store_congr rfl rfl rfl rfl

/-- A worker that neither looks at the copy nor goes on with its work has the same work to do as
before. -/
lemma stepWorker_rest {n : Nat} {w : Worker} (hn : c.workers[n]? = some w)
    (hholding : ∀ k, w ≠ .holding k) (hbusy : ∀ k job, w ≠ .busy k job) :
    ∃ v queue tally agenda, v.job? = w.job? ∧
      (c.stepWorker n).1 = { c with
        workers := c.workers.set n v, queue := queue, tally := tally, agenda := agenda } := by
  obtain ⟨hlt, hget⟩ := List.getElem?_eq_some_iff.mp hn
  have hsame : c.workers.set n w = c.workers := by
    rw [← hget, List.set_getElem_self]
  cases w with
  | idle =>
    rcases hturn : c.queue.turn n with ⟨k, q⟩ | q | q <;> simp only [stepWorker, hn, hturn]
    · exact ⟨.holding k, q, _, _, rfl, rfl⟩
    · exact ⟨.exited, q, _, _, rfl, rfl⟩
    · exact ⟨.idle, q, _, _, rfl, by rw [hsame]⟩
  | holding k => exact absurd rfl (hholding k)
  | busy k job => exact absurd rfl (hbusy k job)
  | asleep k job =>
    simp only [stepWorker, hn]
    exact ⟨.busy k job, _, _, _, rfl, rfl⟩
  | leaving k ending =>
    obtain ⟨v, queue, tally, agenda, heq, hv, -⟩ := c.release_eq n k ending
    simp only [stepWorker, hn, heq]
    refine ⟨v, _, _, _, ?_, rfl⟩
    rcases hv with rfl | ⟨d, rfl⟩ <;> rfl
  | returning k d =>
    obtain ⟨agenda, heq⟩ := c.bringBack_eq n k d
    simp only [stepWorker, hn, heq]
    exact ⟨.idle, _, _, _, rfl, rfl⟩
  | exited =>
    simp only [stepWorker, hn]
    exact ⟨.exited, _, _, _, rfl, by rw [hsame]⟩

/-- The informer changes its own state and sends changes on. -/
lemma stepInformer_eq :
    ∃ feed changes cluster resting agenda, c.stepInformer.1 = { c with
      feed := feed, changes := changes, cluster := cluster, resting := resting,
      agenda := agenda } := by
  unfold stepInformer
  split
  next answer _ =>
    obtain ⟨agenda, heq⟩ := c.applyFeed_eq (c.feed.take answer)
    exact ⟨_, _, _, _, agenda, heq⟩
  · split
    · exact ⟨_, _, _, _, _, rfl⟩
    · unfold requestInformer
      split
      all_goals try exact ⟨_, _, _, _, _, rfl⟩
      split <;> exact ⟨_, _, _, _, _, rfl⟩

lemma stepDispatcher_eq :
    ∃ changes queue dispatcherDone agenda, c.stepDispatcher.1 = { c with
      changes := changes, queue := queue, dispatcherDone := dispatcherDone, agenda := agenda } := by
  unfold stepDispatcher
  split
  · simp only
    split <;> exact ⟨_, _, _, _, rfl⟩
  · split <;> exact ⟨_, _, _, _, rfl⟩

lemma stepDelayed_eq (ticket : Nat) :
    ∃ queue agenda, (c.stepDelayed ticket).1 = { c with queue := queue, agenda := agenda } := by
  unfold stepDelayed
  split
  · exact ⟨_, _, rfl⟩
  · split <;> exact ⟨_, _, rfl⟩

lemma stepSupervisor_eq :
    ∃ supervision queue agenda, c.stepSupervisor.1 = { c with
      supervision := supervision, queue := queue, agenda := agenda } := by
  unfold stepSupervisor
  split
  · split <;> exact ⟨_, _, _, rfl⟩
  · split <;> exact ⟨_, _, _, rfl⟩
  · split <;> exact ⟨_, _, _, rfl⟩
  · exact ⟨_, _, _, rfl⟩

/-- What only workers change is as it was. -/
structure Steady (c d : Controller σ α) : Prop where
  config : d.config = c.config
  reconciler : d.reconciler = c.reconciler
  memory : d.memory = c.memory
  workers : d.workers = c.workers

variable [LawfulCollection α]

/-- A request of the informer leaves its copy as it is, and the informer still follows the store. -/
lemma requestInformer_eq [LawfulResource α] {scope : Option String} {v : Nat}
    (hscope : c.config.ns = scope) (hf : c.feed.Follows c.store scope v) (ha : c.feed.answer = none) :
    ∃ feed cluster resting agenda,
      c.requestInformer.1 = { c with
        feed := feed, cluster := cluster, resting := resting, agenda := agenda } ∧
      feed.Follows (Collection.store cluster) scope v ∧
      feed.informer.cache = c.feed.informer.cache := by
  unfold requestInformer
  split
  · exact ⟨_, _, _, _, rfl, hf, rfl⟩
  next hp =>
    obtain ⟨hstore, hanswer⟩ := Session.list_cases (α := α) c.config.ns c.cluster
    generalize Session.list α c.config.ns c.cluster = p at *
    rcases p with ⟨answer, cluster⟩
    refine ⟨_, _, _, _, rfl, ?_, rfl⟩
    rw [show Collection.store cluster = _ from hstore]
    exact hf.listed hp (hscope ▸ hanswer)
  next version hp =>
    obtain ⟨hstore, hanswer⟩ := Session.watch_cases (α := α) c.config.ns version c.cluster
    generalize Session.watch α c.config.ns version c.cluster = p at *
    rcases p with ⟨answer, cluster⟩
    refine ⟨_, _, _, _, rfl, ?_, by simp⟩
    rw [show Collection.store cluster = _ from hstore]
    exact hf.opened hp ha (hscope ▸ hanswer)
  next version hp => exact ⟨_, _, _, _, rfl, hf.pull hp ha, by simp⟩
  next resume hp =>
    split
    · exact ⟨_, _, _, _, rfl, hf.rested hp ha, by simp⟩
    · exact ⟨_, _, _, _, rfl, hf, rfl⟩

/-- The informer only reads the store. -/
lemma stepInformer_store : c.stepInformer.1.store = c.store := by
  unfold stepInformer
  split
  next answer _ =>
    obtain ⟨agenda, heq⟩ := c.applyFeed_eq (c.feed.take answer)
    rw [heq]
  · split
    · rfl
    · unfold requestInformer
      split
      · rfl
      · exact (Session.list_cases _ _).1
      next version _ => exact (Session.watch_cases _ version _).1
      · rfl
      · split <;> rfl

lemma stepInformer_follows [LawfulResource α] {scope : Option String} {v : Nat}
    (hscope : c.config.ns = scope) (hf : c.feed.Follows c.store scope v) :
    ∃ r, c.stepInformer.1.feed.Follows c.stepInformer.1.store scope r := by
  unfold stepInformer
  split
  next answer ha =>
    obtain ⟨agenda, heq⟩ := c.applyFeed_eq (c.feed.take answer)
    obtain ⟨r, hfollows, -⟩ := hf.take ha
    rw [heq]
    exact ⟨r, hfollows⟩
  next ha =>
    split
    · exact ⟨v, hf.stop ha⟩
    · obtain ⟨feed, cluster, resting, agenda, heq, hfollows, -⟩ := c.requestInformer_eq hscope hf ha
      rw [heq]
      exact ⟨v, hfollows⟩

end Controller

/-- What a worker has still to do changes the objects of a kind by requests only. -/
def Worker.Orderly (α : Type) [Resource α] [Collection α] : Worker → Prop
  | busy _ job => job.Orderly α
  | asleep _ job => job.Orderly α
  | _ => True

/-! ## Runs -/

/-- What can happen to a controller and to the cluster it works on. -/
inductive ControllerMove (α : Type) where
  /-- A task does the next thing it can do. -/
  | step (task : ControllerTask)
  /-- The work of a worker takes a single action. -/
  | progress (worker : Nat)
  /-- Clients or the surroundings act on the objects that the controller is for. -/
  | act (action : Store.Action α)
  /-- Anything else of the cluster changes, as the time or the failures that are to come. -/
  | surround (cluster : Cluster)
  | enqueue (key : ObjectKey)
  | stop
  /-- Other tasks are chosen to go on. -/
  | schedule (agenda : Agenda ControllerTask) (current : Option ControllerTask)

/-- A controller with the notes of its visits. -/
structure Observed (σ : Type) (α : Type := Widget) where
  controller : Controller σ α
  /-- Latest first. -/
  notes : List (VisitNote α) := []

namespace Observed

variable {σ α : Type} [Resource α] [Collection α] {x : Observed σ α} {scope : Option String}

/-- What is noted when a task goes on. -/
def noteOf (c : Controller σ α) : ControllerTask → List (VisitNote α)
  | .worker n =>
    match c.workers[n]? with
    | some (.holding k) => [.looked k (c.informer.cache.get? k)]
    | some (.leaving k ending) => [.ended k ending]
    | _ => []
  | _ => []

def move (x : Observed σ α) : ControllerMove α → Observed σ α
  | .step task => ⟨(x.controller.step task).1, noteOf x.controller task ++ x.notes⟩
  | .progress n =>
    match x.controller.workers[n]? with
    | some (.busy k (.act effect next)) =>
      { x with
        controller := (x.controller.setCluster (effect x.controller.cluster)).setWorker n
          (.busy k (next x.controller.cluster)) }
    | _ => x
  | .act action =>
    { x with
      controller := x.controller.setCluster
        (Collection.setStore x.controller.cluster (x.controller.store.act action)) }
  | .surround cluster =>
    { x with
      controller := x.controller.setCluster
        (Collection.setStore cluster x.controller.store) }
  | .enqueue k => { x with controller := x.controller.enqueue k }
  | .stop => { x with controller := x.controller.stop }
  | .schedule agenda current =>
    { x with controller := { x.controller with agenda := agenda, current := current } }

def after (x : Observed σ α) (moves : List (ControllerMove α)) : Observed σ α := moves.foldl move x

/-- A controller to which every change matters, from the beginning, on a store that keeps `limit`
events. -/
def run (config : ControllerConfig) (reconciler : Reconciler σ α) (memory : σ) (cluster : Cluster)
    (limit : Nat) (moves : List (ControllerMove α)) : Observed σ α :=
  after
    { controller := .start config .always reconciler memory
        (Collection.setStore cluster (.empty limit : Store α)) }
    moves

/-- What does not let a worker go on leaves the workers alone, and the copy too if it is not the
informer that goes on. -/
lemma move_steady (x : Observed σ α) {m : ControllerMove α}
    (hm : ∀ n, m ≠ .step (.worker n) ∧ m ≠ .progress n) :
    x.controller.Steady (x.move m).controller ∧
      (m ≠ .step .informer → (x.move m).controller.feed = x.controller.feed) := by
  have hcluster (cluster : Cluster) : x.controller.Steady (x.controller.setCluster cluster) ∧
      (x.controller.setCluster cluster).feed = x.controller.feed := by
    obtain ⟨agenda, heq⟩ := x.controller.setCluster_eq cluster
    rw [heq]
    exact ⟨⟨rfl, rfl, rfl, rfl⟩, rfl⟩
  cases m with
  | step task =>
    cases task with
    | informer =>
      obtain ⟨feed, changes, cluster, resting, agenda, heq⟩ := x.controller.stepInformer_eq
      simp only [move, Controller.step, heq]
      exact ⟨⟨rfl, rfl, rfl, rfl⟩, fun h => absurd rfl h⟩
    | dispatcher =>
      obtain ⟨changes, queue, dispatcherDone, agenda, heq⟩ := x.controller.stepDispatcher_eq
      simp only [move, Controller.step, heq]
      exact ⟨⟨rfl, rfl, rfl, rfl⟩, fun _ => trivial⟩
    | worker n => exact absurd rfl (hm n).1
    | delayed ticket =>
      obtain ⟨queue, agenda, heq⟩ := x.controller.stepDelayed_eq ticket
      simp only [move, Controller.step, heq]
      exact ⟨⟨rfl, rfl, rfl, rfl⟩, fun _ => trivial⟩
    | supervisor =>
      obtain ⟨supervision, queue, agenda, heq⟩ := x.controller.stepSupervisor_eq
      simp only [move, Controller.step, heq]
      exact ⟨⟨rfl, rfl, rfl, rfl⟩, fun _ => trivial⟩
  | progress n => exact absurd rfl (hm n).2
  | act action => exact (hcluster _).imp_right fun hfeed _ => hfeed
  | surround cluster => exact (hcluster _).imp_right fun hfeed _ => hfeed
  | enqueue k => exact ⟨⟨rfl, rfl, rfl, rfl⟩, fun _ => rfl⟩
  | stop => exact ⟨⟨rfl, rfl, rfl, rfl⟩, fun _ => rfl⟩
  | schedule agenda current => exact ⟨⟨rfl, rfl, rfl, rfl⟩, fun _ => rfl⟩

variable [LawfulCollection α]

/-- Unless a worker goes on, the store changes by requests of others only. -/
lemma move_later (x : Observed σ α) {m : ControllerMove α}
    (hm : ∀ n, m ≠ .step (.worker n) ∧ m ≠ .progress n) :
    x.controller.store.Later (x.move m).controller.store := by
  have hcluster (s : Store α) (cluster : Cluster) (hlater : x.controller.store.Later s) :
      x.controller.store.Later (x.controller.setCluster (Collection.setStore cluster s)).store := by
    obtain ⟨agenda, heq⟩ := x.controller.setCluster_eq (Collection.setStore cluster s)
    rw [heq]
    change x.controller.store.Later (Collection.store (Collection.setStore cluster s))
    rw [LawfulCollection.store_setStore]
    exact hlater
  have hrefl := Store.Later.refl x.controller.store
  cases m with
  | step task =>
    cases task with
    | informer =>
      rw [move, Controller.step, Controller.stepInformer_store]
      exact hrefl
    | dispatcher =>
      obtain ⟨changes, queue, dispatcherDone, agenda, heq⟩ := x.controller.stepDispatcher_eq
      simp only [move, Controller.step, heq]
      exact hrefl
    | worker n => exact absurd rfl (hm n).1
    | delayed ticket =>
      obtain ⟨queue, agenda, heq⟩ := x.controller.stepDelayed_eq ticket
      simp only [move, Controller.step, heq]
      exact hrefl
    | supervisor =>
      obtain ⟨supervision, queue, agenda, heq⟩ := x.controller.stepSupervisor_eq
      simp only [move, Controller.step, heq]
      exact hrefl
  | progress n => exact absurd rfl (hm n).2
  | act action => exact hcluster _ _ (Store.later_act _ action)
  | surround cluster => exact hcluster _ cluster hrefl
  | enqueue | stop | schedule => exact hrefl

/-! ## The runs that a controller makes by itself -/

/-- A controller comes from another by moves, whatever has been noted before. -/
def Reaches (c d : Controller σ α) : Prop :=
  ∀ notes, ∃ moves notes', after ⟨c, notes⟩ moves = ⟨d, notes'⟩

lemma Reaches.refl (c : Controller σ α) : Reaches c c := fun notes => ⟨[], notes, rfl⟩

lemma Reaches.trans {c d e : Controller σ α} (h : Reaches c d) (h' : Reaches d e) : Reaches c e := by
  intro notes
  obtain ⟨moves, notes', hd⟩ := h notes
  obtain ⟨moves', notes'', he⟩ := h' notes'
  refine ⟨moves ++ moves', notes'', ?_⟩
  rw [Observed.after, List.foldl_append, ← Observed.after, ← Observed.after, hd, he]

lemma reaches_step (c : Controller σ α) (task : ControllerTask) : Reaches c (c.step task).1 :=
  fun _ => ⟨[.step task], _, rfl⟩

lemma reaches_schedule (c : Controller σ α) (agenda : Agenda ControllerTask)
    (current : Option ControllerTask) :
    Reaches c { c with agenda := agenda, current := current } :=
  fun notes => ⟨[.schedule agenda current], notes, rfl⟩

/-- Time passes by what happens around a controller. -/
lemma after_moveTo (c : Controller σ α) (time : Duration) (notes : List (VisitNote α)) :
    Observed.after ⟨c, notes⟩ [.surround { c.cluster with time := time },
      .schedule (c.agenda.moveTo time) c.current] = ⟨c.moveTo time, notes⟩ := by
  have hstore : Collection.store { c.cluster with time := time } = c.store :=
    LawfulCollection.store_congr rfl rfl rfl rfl
  have htime : Collection.setStore { c.cluster with time := time } c.store =
      { c.cluster with time := time } := by
    rw [← hstore, LawfulCollection.setStore_store]
  obtain ⟨agenda, heq⟩ := c.setCluster_eq { c.cluster with time := time }
  simp only [Observed.after, List.foldl_cons, List.foldl_nil, Observed.move, htime, heq]
  rfl

lemma reaches_moveTo (c : Controller σ α) (time : Duration) : Reaches c (c.moveTo time) :=
  fun notes => ⟨_, notes, after_moveTo c time notes⟩

lemma reaches_turn {c d : Controller σ α} (h : c.turn = some d) : Reaches c d := by
  unfold Controller.turn at h
  split at h
  next task _ =>
    have hstep := reaches_step c task
    split at h
    next e hagain =>
      rw [hagain] at hstep
      exact Option.some.inj h ▸ hstep
    next e hblocked =>
      rw [hblocked] at hstep
      exact Option.some.inj h ▸ hstep.trans (reaches_schedule e e.agenda none)
  next =>
    split at h
    · exact Option.some.inj h ▸ reaches_schedule c _ _
    · split at h
      · split at h
        · exact Option.some.inj h ▸ reaches_moveTo c _
        · simp at h
      · simp at h

lemma reaches_turns (c : Controller σ α) (n : Nat) : Reaches c (c.turns n) := by
  induction n generalizing c with
  | zero => exact .refl c
  | succ n ih =>
    rw [Controller.turns]
    split
    · exact .refl c
    next d hd => exact (reaches_turn hd).trans (ih d)

lemma reaches_runUntil (c : Controller σ α) (target : Duration) (n : Nat) :
    Reaches c (Controller.runUntil target n c) := by
  induction n generalizing c with
  | zero => exact .refl c
  | succ n ih =>
    rw [Controller.runUntil]
    split
    · split
      next t _ _ =>
        refine Reaches.trans ?_ (ih _)
        exact (reaches_moveTo c t).trans (reaches_turns _ _)
      · exact reaches_moveTo c target
    · exact reaches_moveTo c target

/-- Everything that a controller does as time passes is a run. -/
theorem reaches_advance (c : Controller σ α) (d : Duration) : Reaches c (c.advance d) :=
  reaches_runUntil c _ _

/-! ## What holds in every run -/

def rounds (x : Observed σ α) : Rounds α where
  cache := x.controller.informer.cache
  changes := x.controller.changes
  queue := x.controller.queue
  workers := x.controller.workers
  notes := x.notes

/-- What holds in every state of a run. The visits are accounted for until the end is asked for. -/
structure Sound (scope : Option String) (x : Observed σ α) : Prop where
  always : x.controller.predicate = .always
  scope_eq : x.controller.config.ns = scope
  reconciler : x.controller.reconciler.Orderly
  workers : ∀ w ∈ x.controller.workers, w.Orderly α
  follows : ∃ v, x.controller.feed.Follows x.controller.store scope v
  level : x.controller.queue.shuttingDown = true ∨ x.rounds.Level

variable [LawfulResource α]

/-! ## The informer, the dispatcher and the keys that were put off -/

/-- The informer goes on without a change of its copy. -/
lemma Sound.feed (h : Sound scope x) {c : Controller σ α} {feed : Feed α} {cluster : Cluster}
    {resting : Bool} {agenda : Agenda ControllerTask}
    (hc : c = { x.controller with
      feed := feed, cluster := cluster, resting := resting, agenda := agenda })
    (hfollows : ∃ v, feed.Follows (Collection.store cluster) scope v)
    (hcache : feed.informer.cache = x.controller.feed.informer.cache) :
    Sound scope ⟨c, x.notes⟩ := by
  subst hc
  refine ⟨h.always, h.scope_eq, h.reconciler, h.workers, hfollows, h.level.imp_right fun hl => ?_⟩
  have hrounds : rounds ⟨{ x.controller with
      feed := feed, cluster := cluster, resting := resting, agenda := agenda }, x.notes⟩ =
      x.rounds := by
    simp only [rounds, Controller.informer, hcache]
  rw [hrounds]
  exact hl

lemma Sound.requestInformer (h : Sound scope x) (ha : x.controller.feed.answer = none) :
    Sound scope ⟨x.controller.requestInformer.1, x.notes⟩ := by
  obtain ⟨v, hf⟩ := h.follows
  obtain ⟨feed, cluster, resting, agenda, heq, hfollows, hcache⟩ :=
    x.controller.requestInformer_eq h.scope_eq hf ha
  exact h.feed heq ⟨v, hfollows⟩ hcache

lemma Sound.stepInformer (h : Sound scope x) :
    Sound scope ⟨x.controller.stepInformer.1, x.notes⟩ := by
  obtain ⟨v, hf⟩ := h.follows
  unfold Controller.stepInformer
  split
  next answer ha =>
    obtain ⟨agenda, heq⟩ := x.controller.applyFeed_eq (x.controller.feed.take answer)
    obtain ⟨n, hfollows, -⟩ := hf.take ha
    simp only [heq]
    refine ⟨h.always, h.scope_eq, h.reconciler, h.workers, ⟨n, hfollows⟩, ?_⟩
    refine h.level.imp_right fun hl => ?_
    exact hl.feed fun k hk => hf.get?_of_take ha hk
  next ha =>
    split
    · exact h.feed rfl ⟨v, hf.stop ha⟩ rfl
    · exact h.requestInformer ha

/-- The queue goes on and forgets nothing. -/
lemma Sound.carry (h : Sound scope x) (queue : WorkQueue ObjectKey)
    {agenda : Agenda ControllerTask}
    (hs : queue.shuttingDown = x.controller.queue.shuttingDown)
    (hq : x.controller.queue.Serves → x.controller.queue.Carries queue) :
    Sound scope
      { controller := { x.controller with queue := queue, agenda := agenda }
        notes := x.notes } := by
  refine ⟨h.always, h.scope_eq, h.reconciler, h.workers, h.follows, ?_⟩
  refine h.level.imp (fun hopen => hs.trans hopen) fun hl => ?_
  exact hl.carry (hq hl.serves)

lemma Sound.stepDispatcher (h : Sound scope x) :
    Sound scope ⟨x.controller.stepDispatcher.1, x.notes⟩ := by
  unfold Controller.stepDispatcher
  split
  next change rest hchanges =>
    simp only [h.always, Predicate.holds, if_true]
    refine ⟨rfl, h.scope_eq, h.reconciler, h.workers, h.follows, ?_⟩
    refine h.level.imp (fun hclosed => ?_) fun hl => ?_
    · exact (x.controller.queue.add_shuttingDown change.key).trans hclosed
    · obtain ⟨hcarries, hpending⟩ := hl.serves.add change.key
      exact (hl.carry hcarries).dispatch hchanges hpending
  next =>
    split
    · exact ⟨h.always, h.scope_eq, h.reconciler, h.workers, h.follows, h.level⟩
    · exact h

lemma Sound.stepDelayed (h : Sound scope x) (ticket : Nat) :
    Sound scope ⟨(x.controller.stepDelayed ticket).1, x.notes⟩ := by
  unfold Controller.stepDelayed
  split
  · exact h
  next d _ =>
    split
    · exact h.carry _ (x.controller.queue.readd_shuttingDown ticket) fun hq => hq.readd ticket
    · exact h.carry _ rfl fun hq => hq.setTimed ticket

lemma Sound.stepSupervisor (h : Sound scope x) :
    Sound scope ⟨x.controller.stepSupervisor.1, x.notes⟩ := by
  unfold Controller.stepSupervisor
  split
  · split
    · exact ⟨h.always, h.scope_eq, h.reconciler, h.workers, h.follows, .inl rfl⟩
    · exact h
  · split
    · exact ⟨h.always, h.scope_eq, h.reconciler, h.workers, h.follows, h.level⟩
    · exact h
  · split
    · exact ⟨h.always, h.scope_eq, h.reconciler, h.workers, h.follows, h.level⟩
    · exact h
  · exact h

/-! ## The workers -/

/-- A worker goes on, and with it the queue and the cluster. -/
lemma Sound.worker (h : Sound scope x) {n : Nat} (w : Worker) (queue : WorkQueue ObjectKey)
    (cluster : Cluster) {memory : σ} {tally : Metrics.Tally} {agenda : Agenda ControllerTask}
    {notes : List (VisitNote α)} (hw : w.Orderly α)
    (hlater : x.controller.store.Later (Collection.store cluster))
    (hclosed : x.controller.queue.shuttingDown = true → queue.shuttingDown = true)
    (hlevel : x.rounds.Level → Rounds.Level
      { x.rounds with
        workers := x.controller.workers.set n w, queue := queue, notes := notes }) :
    Sound scope
      { controller := { x.controller with
          workers := x.controller.workers.set n w, queue := queue, cluster := cluster,
          memory := memory, tally := tally, agenda := agenda }
        notes := notes } := by
  obtain ⟨v, hf⟩ := h.follows
  refine ⟨h.always, h.scope_eq, h.reconciler, ?_, ⟨v, hf.later hlater⟩, h.level.imp hclosed hlevel⟩
  intro w' hw'
  rcases List.mem_or_eq_of_mem_set hw' with hw' | rfl
  · exact h.workers w' hw'
  · exact hw

/-- A worker looks for a key. -/
lemma Sound.idle (h : Sound scope x) {n : Nat} (hn : x.controller.workers[n]? = some .idle) :
    Sound scope ⟨(x.controller.stepWorker n).1, x.notes⟩ := by
  obtain ⟨a, b, hsplit, hset⟩ := Rounds.exists_replaced hn
  rcases x.controller.queue.turn_cases n with ⟨k, q, hturn, e⟩ | ⟨s, hturn, hclosed⟩ |
      ⟨s, hturn, -, -⟩ <;> simp only [Controller.stepWorker, hn, hturn]
  · refine h.worker (.holding k) q _ trivial (.refl _) (fun hs => ?_) fun hl => ?_
    · rw [e.shuttingDown, hs]
    · rw [hset]
      exact hl.take hsplit e
  · refine h.worker .exited _ _ trivial (.refl _) id fun hl => ?_
    exact absurd (hclosed.symm.trans hl.serves.open_) (by simp)
  · exact h.carry _ rfl fun hq => hq.signal s

/-- A worker looks at the copy and begins its work. -/
lemma Sound.holding (h : Sound scope x) {n : Nat} {k : ObjectKey}
    (hn : x.controller.workers[n]? = some (.holding k)) :
    Sound scope
      { controller := (x.controller.stepWorker n).1
        notes := .looked k (x.controller.informer.cache.get? k) :: x.notes } := by
  obtain ⟨a, b, hsplit, hset⟩ := Rounds.exists_replaced hn
  obtain ⟨hjob, memory, cluster, hstore, heq⟩ :=
    (x.controller.setWorker n .idle).beginWork_eq h.reconciler k
  generalize hbegin : (x.controller.setWorker n .idle).beginWork k = p at hjob heq
  rcases p with ⟨job, c⟩
  simp only [Controller.stepWorker, hn, hbegin]
  subst heq
  simp only [Controller.setWorker, List.set_set]
  refine h.worker (.busy k job) _ cluster hjob ?_ id fun hl => ?_
  · rw [hstore]
    exact .refl _
  · rw [hset]
    exact hl.look hsplit rfl

/-- A worker goes on with the key that it has. -/
lemma Sound.work (h : Sound scope x) {n : Nat} {w : Worker}
    (hn : x.controller.workers[n]? = some w) (w' : Worker) (cluster : Cluster)
    {agenda : Agenda ControllerTask} (hw : w'.Orderly α)
    (hlater : x.controller.store.Later (Collection.store cluster))
    (hkey : w'.key? = w.key?) (hh : ∀ k, w ≠ .holding k) (hr : ∀ k d, w ≠ .returning k d) :
    Sound scope
      { controller := { x.controller with
          workers := x.controller.workers.set n w', cluster := cluster, agenda := agenda }
        notes := x.notes } := by
  obtain ⟨a, b, hsplit, hset⟩ := Rounds.exists_replaced hn
  refine h.worker w' _ cluster hw hlater id fun hl => ?_
  rw [hset]
  exact hl.work hsplit hkey hh hr

lemma Sound.busy (h : Sound scope x) {n : Nat} {k : ObjectKey} {job : Task Outcome}
    (hn : x.controller.workers[n]? = some (.busy k job)) :
    Sound scope ⟨(x.controller.stepWorker n).1, x.notes⟩ := by
  have hjob : job.Orderly α := h.workers _ (List.mem_of_getElem? hn)
  obtain ⟨hlater, hnext⟩ := hjob.advance x.controller.cluster
  rcases hadvance : job.advance x.controller.cluster with ⟨ending | ⟨d, next⟩, cluster⟩ <;>
    rw [hadvance] at hlater hnext <;>
    obtain ⟨agenda, hcluster⟩ := x.controller.setCluster_eq cluster <;>
    simp only [Controller.stepWorker, hn, hadvance, hcluster]
  · exact h.work hn (.leaving k ending) cluster trivial hlater rfl (by simp) (by simp)
  · exact h.work hn (.asleep k next) cluster (hnext d next rfl) hlater rfl (by simp) (by simp)

/-- A worker gives its key back. -/
lemma Sound.leaving (h : Sound scope x) {n : Nat} {k : ObjectKey} {ending : Ending Outcome}
    (hn : x.controller.workers[n]? = some (.leaving k ending)) :
    Sound scope
      { controller := (x.controller.stepWorker n).1
        notes := .ended k ending :: x.notes } := by
  obtain ⟨a, b, hsplit, hset⟩ := Rounds.exists_replaced hn
  obtain ⟨w, queue, tally, agenda, heq, hw, hclosed, hqueue⟩ := x.controller.release_eq n k ending
  have horderly : w.Orderly α ∧ w.key? = none := by
    rcases hw with rfl | ⟨d, rfl⟩ <;> exact ⟨trivial, rfl⟩
  simp only [Controller.stepWorker, hn, heq]
  refine h.worker w queue _ horderly.1 (.refl _) (fun hs => hclosed.trans hs) fun hl => ?_
  obtain ⟨hreleases, hretry⟩ := hqueue hl.serves
  rw [hset]
  exact hl.release hsplit hreleases horderly.2 hretry

/-- A worker lets its key come back. -/
lemma Sound.returning (h : Sound scope x) {n : Nat} {k : ObjectKey} {d : Duration}
    (hn : x.controller.workers[n]? = some (.returning k d)) :
    Sound scope ⟨(x.controller.stepWorker n).1, x.notes⟩ := by
  obtain ⟨a, b, hsplit, hset⟩ := Rounds.exists_replaced hn
  obtain ⟨agenda, heq⟩ := x.controller.bringBack_eq n k d
  simp only [Controller.stepWorker, hn, heq]
  refine h.worker .idle _ _ trivial (.refl _) (fun hs => ?_) fun hl => ?_
  · rw [WorkQueue.comeBack_shuttingDown, hs]
  · obtain ⟨hcarries, hk⟩ := hl.serves.comeBack k d
    rw [hset]
    exact (hl.carry hcarries).settle hsplit hk

lemma Sound.stepWorker (h : Sound scope x) (n : Nat) :
    Sound scope ⟨(x.controller.stepWorker n).1, noteOf x.controller (.worker n) ++ x.notes⟩ := by
  rcases hn : x.controller.workers[n]? with
    _ | (_ | k | ⟨k, job⟩ | ⟨k, job⟩ | ⟨k, ending⟩ | ⟨k, d⟩ | _) <;>
    simp only [noteOf, hn, List.nil_append, List.singleton_append]
  · simpa only [Controller.stepWorker, hn] using h
  · exact h.idle hn
  · exact h.holding hn
  · exact h.busy hn
  · have hjob : job.Orderly α := h.workers _ (List.mem_of_getElem? hn)
    simp only [Controller.stepWorker, hn]
    exact h.work hn (.busy k job) _ hjob (.refl _) rfl (by simp) (by simp)
  · exact h.leaving hn
  · exact h.returning hn
  · simpa only [Controller.stepWorker, hn] using h

lemma Sound.cluster (h : Sound scope x) {cluster : Cluster}
    (hlater : x.controller.store.Later (Collection.store cluster)) :
    Sound scope ⟨x.controller.setCluster cluster, x.notes⟩ := by
  obtain ⟨agenda, heq⟩ := x.controller.setCluster_eq cluster
  obtain ⟨v, hf⟩ := h.follows
  rw [heq]
  exact h.feed rfl ⟨v, hf.later hlater⟩ rfl

lemma Sound.move (h : Sound scope x) (m : ControllerMove α) : Sound scope (x.move m) := by
  cases m with
  | step task =>
    cases task with
    | informer => exact h.stepInformer
    | dispatcher => exact h.stepDispatcher
    | worker n => exact h.stepWorker n
    | delayed ticket => exact h.stepDelayed ticket
    | supervisor => exact h.stepSupervisor
  | progress n =>
    simp only [Observed.move]
    split
    next k effect next hn =>
      have hjob : (Job.act effect next).Orderly α := h.workers _ (List.mem_of_getElem? hn)
      obtain ⟨agenda, heq⟩ := x.controller.setCluster_eq (effect x.controller.cluster)
      rw [heq]
      exact h.work hn (.busy k (next x.controller.cluster)) _ (hjob.2 _) (hjob.1 _) rfl (by simp)
        (by simp)
    · exact h
  | act action =>
    refine h.cluster ?_
    rw [LawfulCollection.store_setStore]
    exact Store.later_act _ action
  | surround cluster =>
    refine h.cluster ?_
    rw [LawfulCollection.store_setStore]
    exact .refl _
  | enqueue k =>
    exact h.carry _ (x.controller.queue.add_shuttingDown k) fun hq => (hq.add k).1
  | stop => exact ⟨h.always, h.scope_eq, h.reconciler, h.workers, h.follows, h.level⟩
  | schedule agenda current =>
    exact ⟨h.always, h.scope_eq, h.reconciler, h.workers, h.follows, h.level⟩

lemma Sound.after (h : Sound scope x) (moves : List (ControllerMove α)) :
    Sound scope (x.after moves) := by
  induction moves generalizing x with
  | nil => exact h
  | cons m moves ih => exact ih (h.move m)

/-- At the beginning there is nothing in the copy and nothing has been visited. -/
lemma start_level (c : Controller σ α) (hcache : c.informer.cache = ∅)
    (hqueue : c.queue.Serves) (hprocessing : c.queue.processing = [])
    (hworkers : ∀ w ∈ c.workers, w = .idle) : (rounds ⟨c, []⟩).Level := by
  have hheld : (rounds ⟨c, []⟩).held = [] := by
    rw [Rounds.held, List.filterMap_eq_nil_iff]
    intro w hw
    rw [hworkers w hw]
    rfl
  refine ⟨hqueue, ?_, ?_, ?_, by simp [rounds, lastVisit]⟩
  · intro k
    rw [hheld]
    simp [rounds, hprocessing]
  · rw [hheld]
    exact List.nodup_nil
  · intro k
    refine .inr ?_
    simp [rounds, hcache, lastRead, lastVisit]

lemma run_sound (config : ControllerConfig) {reconciler : Reconciler σ α} (hr : reconciler.Orderly)
    (memory : σ) (cluster : Cluster) (limit : Nat) (moves : List (ControllerMove α)) :
    Sound config.ns (run config reconciler memory cluster limit moves) := by
  have hidle : ∀ w ∈ List.replicate (max config.workers 1) Worker.idle, w = .idle :=
    fun w hw => (List.mem_replicate.mp hw).2
  have hstart : Sound config.ns
      { controller := .start config .always reconciler memory
          (Collection.setStore cluster (.empty limit : Store α)) } := by
    refine ⟨rfl, rfl, hr, ?_, ?_, .inr ?_⟩
    · intro w hw
      rw [hidle w hw]
      trivial
    · refine ⟨0, ?_⟩
      have hempty := Feed.initial_follows (Store.empty_faithful (α := α) limit) config.ns
      rwa [← LawfulCollection.store_setStore cluster (.empty limit : Store α)] at hempty
    · exact start_level _ rfl (WorkQueue.new_serves _ _) rfl hidle
  exact hstart.after moves

end Observed

end ControlLoop
