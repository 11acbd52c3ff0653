import ControlLoop.Controller.Scripted
import ControlLoop.Proofs.KeyCustody

/-!
# The end of a controller

When a controller is asked to stop, its supervisor shuts the queue down. From then on no key goes into the
line or out of it, whatever is asked of the queue. Workers finish what they have at hand and go; when all
are gone the informer stops, then the dispatcher, and then the run of the controller is over.
-/
set_option linter.unusedSectionVars false

namespace ControlLoop

namespace WorkQueue

variable {κ : Type}

/-- A queue that is shut down. Nobody waits at it, and no key is put off. -/
structure Closed (q : WorkQueue κ) : Prop where
  shut : q.shuttingDown = true
  delayed : q.delayed = []
  waiting : q.signal.waiting = []

lemma shutDown_closed (q : WorkQueue κ) : q.shutDown.1.Closed := ⟨rfl, rfl, rfl⟩

namespace Closed

variable {q : WorkQueue κ} {k : κ}

lemma delayed? (h : q.Closed) (ticket : Nat) : q.delayed? ticket = none := by
  simp [WorkQueue.delayed?, h.delayed]

variable [DecidableEq κ]

lemma add (h : q.Closed) (k : κ) : (q.add k).1 = q := by
  simp [WorkQueue.add, h.shut]

/-- A marked key does not line up again. -/
lemma finish (h : q.Closed) (k : κ) : (q.finish k).2.1 = q.withoutWork k := by
  rcases finish_cases q k with ⟨-, hopen, -⟩ | ⟨-, -, he⟩
  · exact absurd h.shut (by simp [hopen])
  · exact he

lemma done (h : q.Closed) (k : κ) :
    (q.done k).1 = { q with backoff := q.backoff.forget k }.withoutWork k :=
  Closed.finish (q := { q with backoff := q.backoff.forget k }) ⟨h.shut, h.delayed, h.waiting⟩ k

lemma endForRetry (h : q.Closed) (k : κ) (delay : Option Duration) :
    ∃ b, (q.endForRetry k delay).2.1 = { q with backoff := b }.withoutWork k := by
  obtain ⟨b, he⟩ := q.endForRetry_eq k delay
  refine ⟨b, ?_⟩
  rw [he]
  exact Closed.finish (q := { q with backoff := b }) ⟨h.shut, h.delayed, h.waiting⟩ k

lemma comeBack (h : q.Closed) (k : κ) (d : Duration) : (q.comeBack k d).queue = q := by
  unfold WorkQueue.comeBack
  split
  · exact h.add k
  · simp [putOff, h.shut]

lemma readd (h : q.Closed) (ticket : Nat) : (q.readd ticket).1 = q := by
  simp [WorkQueue.readd, h.delayed?]

/-- Whoever asks for a key is told that there is none. -/
lemma turn (h : q.Closed) (w : Nat) :
    ∃ s, q.turn w = .closed { q with signal := s } ∧ s.waiting = [] := by
  refine ⟨(q.signal.enroll w).withdraw w, by simp only [WorkQueue.turn, take, h.shut, if_true], ?_⟩
  unfold Signal.enroll
  split <;> simp [Signal.withdraw, h.waiting]

end Closed

end WorkQueue

namespace Ledger

variable {κ : Type} [DecidableEq κ] {l : Ledger κ}

/-- Whatever is asked of a queue that is shut down, its line stays as it is and no key is handed out. -/
lemma move_closed (h : l.queue.Closed) (m : QueueMove κ) :
    (l.move m).queue.Closed ∧ (l.move m).queue.fifo = l.queue.fifo ∧
      ∃ newer, (l.move m).record = newer ++ l.record ∧ ∀ k, .took k ∉ newer := by
  cases m with
  | add k =>
    simp only [move, h.add k]
    exact ⟨h, trivial, [.added k], rfl, by simp⟩
  | get w =>
    obtain ⟨s, ht, hs⟩ := h.turn w
    simp only [move, ht]
    exact ⟨⟨h.shut, h.delayed, hs⟩, trivial, [], rfl, by simp⟩
  | giveUp w signalled =>
    refine ⟨?_, (l.queue.giveUp_sameKeys w signalled).fifo, [], rfl, by simp⟩
    cases signalled <;>
      exact ⟨h.shut, h.delayed,
        by simp [move, WorkQueue.giveUp, Signal.notifyOne, Signal.withdraw, h.waiting]⟩
  | done k =>
    simp only [move, h.done k]
    exact ⟨⟨h.shut, h.delayed, h.waiting⟩, rfl, [.released k], rfl, by simp⟩
  | requeue k delay =>
    obtain ⟨b, he⟩ := h.endForRetry k delay
    simp only [move]
    generalize l.queue.endForRetry k delay = p at he
    obtain ⟨_ | d, q, woken⟩ := p
    · obtain rfl : q = _ := he
      refine ⟨⟨h.shut, h.delayed, h.waiting⟩, rfl, ?_⟩
      simp only
      split
      · exact ⟨[.added k, .released k], rfl, by simp⟩
      · exact ⟨[.released k], rfl, by simp⟩
    · obtain rfl : q = _ := he
      exact ⟨⟨h.shut, h.delayed, h.waiting⟩, rfl, [.released k], rfl, by simp⟩
  | comeBack k d =>
    simp only [move]
    split
    · refine ⟨(h.comeBack k d).symm ▸ h, congrArg _ (h.comeBack k d), ?_⟩
      simp only
      split
      · exact ⟨[.added k], rfl, by simp⟩
      · exact ⟨[], rfl, by simp⟩
    · exact ⟨h, rfl, [], rfl, by simp⟩
  | setTimer ticket =>
    exact ⟨⟨h.shut, by simp [move, WorkQueue.setTimed, h.delayed], h.waiting⟩, rfl, [], rfl, by simp⟩
  | fire ticket =>
    simp only [move, h.delayed?]
    exact ⟨h, trivial, [], rfl, by simp⟩
  | shutDown => exact ⟨WorkQueue.shutDown_closed _, rfl, [], rfl, by simp⟩

lemma moves_closed (h : l.queue.Closed) (calls : List (QueueMove κ)) :
    (calls.foldl move l).queue.Closed ∧ (calls.foldl move l).queue.fifo = l.queue.fifo ∧
      ∃ newer, (calls.foldl move l).record = newer ++ l.record ∧ ∀ k, .took k ∉ newer := by
  induction calls generalizing l with
  | nil => exact ⟨h, rfl, [], rfl, by simp⟩
  | cons m rest ih =>
    obtain ⟨hclosed, hfifo, newer, hrecord, hnone⟩ := move_closed h m
    obtain ⟨hclosed', hfifo', later, hrecord', hnone'⟩ := ih hclosed
    refine ⟨hclosed', hfifo'.trans hfifo, later ++ newer, ?_, ?_⟩
    · rw [List.foldl_cons, hrecord', hrecord, List.append_assoc]
    · intro k hk
      exact (List.mem_append.mp hk).elim (hnone' k) (hnone k)

/-- Only the call for it shuts a queue down. -/
lemma move_shuttingDown (l : Ledger κ) {m : QueueMove κ} (hm : m ≠ .shutDown) :
    (l.move m).queue.shuttingDown = l.queue.shuttingDown := by
  cases m with
  | add k => exact l.queue.add_shuttingDown k
  | get w =>
    rcases l.queue.turn_cases w with ⟨k, q, ht, e⟩ | ⟨s, ht, -⟩ | ⟨s, ht, -⟩
    · simp only [move, ht]
      exact e.shuttingDown
    · simp only [move, ht]
    · simp only [move, ht]
  | giveUp w signalled => cases signalled <;> rfl
  | done k => exact l.queue.done_shuttingDown k
  | requeue k delay =>
    have hsame := l.queue.endForRetry_shuttingDown k delay
    simp only [move]
    split
    · next he =>
      rw [he] at hsame
      exact hsame
    · next he =>
      rw [he] at hsame
      exact hsame
  | comeBack k d =>
    simp only [move]
    split
    · exact l.queue.comeBack_shuttingDown k d
    · rfl
  | setTimer ticket => rfl
  | fire ticket =>
    simp only [move]
    split
    · exact l.queue.readd_shuttingDown ticket
    · rfl
  | shutDown => exact absurd rfl hm

end Ledger

/-! ## The stages of the end -/

namespace Feed

variable {α : Type} {f : Feed α}

/-- Answers do not make an informer stop. -/
lemma take_phase [Resource α] (hf : f.informer.phase ≠ .stopped) (answer : Answer α) :
    (f.take answer).1.informer.phase ≠ .stopped := by
  unfold take
  cases answer with
  | listing answer => cases answer <;> simp [Informer.listed]
  | item item =>
    simp only
    split
    · next he => simp at he
    · simp only [Informer.received, Informer.upsert]
      split <;> try split
      all_goals simp
    · exact hf

lemma opened_phase (version : String) (answer : Except ClientError (Watch α)) :
    (f.opened version answer).informer.phase ≠ .stopped := by
  unfold opened Informer.opened
  split
  · split <;> simp
  · simp

lemma rested_phase (resume : Option String) : (f.rested resume).informer.phase ≠ .stopped := by
  cases resume <;> simp [rested, Informer.rested]

end Feed

namespace Controller

variable {σ α : Type} [Resource α] [Collection α] {c d : Controller σ α}

/-- What is over at each stage of the end. -/
structure Winding (c : Controller σ α) : Prop where
  drained : c.supervision = .closing ∨ c.supervision = .finished → ∀ w ∈ c.workers, w = .exited
  stopped : c.informer.phase = .stopped →
    (c.supervision = .closing ∨ c.supervision = .finished) ∧ c.feed.answer = none
  dispatched : c.dispatcherDone = true → c.informer.phase = .stopped ∧ c.changes = []
  finished : c.supervision = .finished → c.dispatcherDone = true

lemma stepInformer_stopped (hphase : c.informer.phase = .stopped) (ha : c.feed.answer = none) :
    c.stepInformer = (c, .blocked) := by
  have hphase' : c.feed.informer.phase = .stopped := hphase
  simp [stepInformer, ha, hphase, requestInformer, hphase']

/-- An informer stops only when all workers are gone, and then it has no answer to take. -/
lemma stepInformer_phase (hphase : c.informer.phase ≠ .stopped)
    (h : c.stepInformer.1.informer.phase = .stopped) :
    c.supervision = .closing ∧ c.stepInformer.1.feed.answer = none := by
  unfold stepInformer at h ⊢
  split at h
  · next answer ha =>
    obtain ⟨agenda, heq⟩ := c.applyFeed_eq (c.feed.take answer)
    rw [heq] at h
    exact absurd h (Feed.take_phase hphase answer)
  · next ha =>
    split at h
    · next hclosing =>
      rw [if_pos hclosing]
      exact ⟨hclosing.1, ha⟩
    · unfold requestInformer at h
      split at h
      · next hstopped => exact absurd hstopped hphase
      · exact absurd h hphase
      · exact absurd h (Feed.opened_phase _ _)
      · next version hwatching =>
        refine absurd h ?_
        simp only [informer, Feed.pull]
        split
        · simp [hwatching]
        · split <;> simp [hwatching]
      · split at h
        · exact absurd h (Feed.rested_phase _)
        · exact absurd h hphase

/-- What a worker does leaves the other tasks alone. -/
lemma stepWorker_eq (c : Controller σ α) (n : Nat) :
    ∃ workers queue tally agenda memory cluster, (c.stepWorker n).1 =
      { c with
        workers := workers, queue := queue, tally := tally, agenda := agenda, memory := memory
        cluster := cluster } := by
  rcases hn : c.workers[n]? with _ | w
  · exact ⟨c.workers, c.queue, c.tally, c.agenda, c.memory, c.cluster, by simp only [stepWorker, hn]⟩
  by_cases hholding : ∃ k, w = .holding k
  · obtain ⟨k, rfl⟩ := hholding
    obtain ⟨job, memory, cluster, heq⟩ := stepWorker_holding hn
    exact ⟨_, _, _, _, _, _, heq⟩
  by_cases hbusy : ∃ k job, w = .busy k job
  · obtain ⟨k, job, rfl⟩ := hbusy
    rcases hadvance : job.advance c.cluster with ⟨ending | ⟨d, next⟩, cluster⟩ <;>
      obtain ⟨agenda, heq⟩ := c.setCluster_eq cluster <;>
      simp only [stepWorker, hn, hadvance, heq]
    · exact ⟨_, _, _, _, _, _, rfl⟩
    · exact ⟨_, _, _, _, _, _, rfl⟩
  · push Not at hholding hbusy
    obtain ⟨v, queue, tally, agenda, -, heq⟩ := c.stepWorker_rest hn hholding hbusy
    exact ⟨_, _, _, _, _, _, heq⟩

lemma stepWorker_exited (hall : ∀ w ∈ c.workers, w = .exited) (n : Nat) :
    c.stepWorker n = (c, .blocked) := by
  rcases hn : c.workers[n]? with _ | w
  · simp only [stepWorker, hn]
  · obtain rfl := hall w (List.mem_of_getElem? hn)
    simp only [stepWorker, hn]

namespace Winding

lemma same (h : c.Winding) (hsupervision : d.supervision = c.supervision)
    (hworkers : d.workers = c.workers) (hfeed : d.feed = c.feed) (hchanges : d.changes = c.changes)
    (hdone : d.dispatcherDone = c.dispatcherDone) : d.Winding := by
  obtain ⟨hdrained, hstopped, hdispatched, hfinished⟩ := h
  simp only [informer] at *
  constructor <;> simp only [informer, hsupervision, hworkers, hfeed, hchanges, hdone] <;> assumption

lemma stepInformer (h : c.Winding) : c.stepInformer.1.Winding := by
  by_cases hphase : c.informer.phase = .stopped
  · rw [stepInformer_stopped hphase (h.stopped hphase).2]
    exact h
  · have hstop := stepInformer_phase hphase
    obtain ⟨feed, changes, cluster, resting, agenda, heq⟩ := c.stepInformer_eq
    rw [heq] at hstop ⊢
    refine ⟨h.drained, fun hs => ?_, fun hd => ?_, h.finished⟩
    · exact ⟨.inl (hstop hs).1, (hstop hs).2⟩
    · exact absurd (h.dispatched hd).1 hphase

lemma stepDispatcher (h : c.Winding) : c.stepDispatcher.1.Winding := by
  unfold Controller.stepDispatcher
  split
  · next change rest hchanges =>
    have hnot : ¬ c.dispatcherDone = true := by
      intro hd
      rw [(h.dispatched hd).2] at hchanges
      simp at hchanges
    simp only
    split
    · exact ⟨h.drained, h.stopped, fun hd => absurd hd hnot, h.finished⟩
    · exact ⟨h.drained, h.stopped, fun hd => absurd hd hnot, h.finished⟩
  · next hchanges =>
    split
    · next hstopped => exact ⟨h.drained, h.stopped, fun _ => ⟨hstopped.1, hchanges⟩, fun _ => rfl⟩
    · exact h

/-- While workers are there, their steps do not touch the later stages; when they are gone they have
none. -/
lemma stepWorker (h : c.Winding) (n : Nat) : (c.stepWorker n).1.Winding := by
  by_cases hover : c.supervision = .closing ∨ c.supervision = .finished
  · rw [stepWorker_exited (h.drained hover) n]
    exact h
  · obtain ⟨workers, queue, tally, agenda, memory, cluster, heq⟩ := c.stepWorker_eq n
    rw [heq]
    exact ⟨fun hs => absurd hs hover, h.stopped, h.dispatched, h.finished⟩

lemma stepSupervisor (h : c.Winding) : c.stepSupervisor.1.Winding := by
  have hopen (hs : c.supervision = .running ∨ c.supervision = .draining) :
      ¬ c.informer.phase = .stopped := by
    intro hp
    rcases (h.stopped hp).1 with hc | hc <;> rcases hs with hs | hs <;> simp [hs] at hc
  unfold Controller.stepSupervisor
  split
  · next hs =>
    split
    · exact ⟨by simp [applyQueue], fun hp => absurd hp (hopen (.inl hs)), h.dispatched,
        by simp [applyQueue]⟩
    · exact h
  · next hs =>
    split
    · next hall =>
      refine ⟨fun _ w hw => ?_, fun hp => absurd hp (hopen (.inr hs)), h.dispatched, by simp [wake]⟩
      have hexited := List.all_eq_true.mp hall w hw
      cases w <;> simp_all [Worker.hasExited]
    · exact h
  · next hs =>
    split
    · next hdone =>
      exact ⟨fun _ => h.drained (.inl hs), fun hp => ⟨.inr rfl, (h.stopped hp).2⟩, h.dispatched,
        fun _ => hdone.2⟩
    · exact h
  · exact h

end Winding

/-- The queue is asked to shut down by the supervisor only, when the end has been asked for. -/
lemma asked_shutDown {m : ControllerMove α} (h : c.asked m = some .shutDown) : m = .step .supervisor := by
  cases m with
  | step task =>
    cases task with
    | supervisor => rfl
    | informer => simp [asked, askOf] at h
    | dispatcher =>
      simp only [asked, askOf] at h
      split at h
      · split at h <;> simp at h
      · simp at h
    | worker n =>
      simp only [asked, askOf] at h
      split at h <;> try split at h
      all_goals simp at h
    | delayed ticket =>
      simp only [asked, askOf] at h
      split at h <;> try split at h
      all_goals simp at h
  | _ => simp [asked] at h

end Controller

namespace Custody

variable {σ α : Type} [Resource α] [Collection α] {x : Custody σ α}

/-- Only the supervisor goes from stage to stage, only the informer follows the objects, and only the
dispatcher takes changes and ends. Nobody takes the request for the end back. -/
structure Kept (m : ControllerMove α) (c d : Controller σ α) : Prop where
  supervision : m ≠ .step .supervisor → d.supervision = c.supervision
  stopping : c.stopping = true → d.stopping = true
  feed : m ≠ .step .informer → d.feed = c.feed
  changes : m ≠ .step .informer → m ≠ .step .dispatcher → d.changes = c.changes
  dispatcherDone : m ≠ .step .dispatcher → d.dispatcherDone = c.dispatcherDone

lemma move_kept (x : Custody σ α) (m : ControllerMove α) : Kept m x.controller (x.move m).controller := by
  have hcluster (cluster : Cluster) : Kept m x.controller (x.controller.setCluster cluster) := by
    obtain ⟨agenda, heq⟩ := x.controller.setCluster_eq cluster
    rw [heq]
    exact ⟨fun _ => rfl, id, fun _ => rfl, fun _ _ => rfl, fun _ => rfl⟩
  simp only [move]
  cases m with
  | step task =>
    simp only [Observed.move, Controller.step]
    cases task with
    | supervisor =>
      obtain ⟨supervision, queue, agenda, heq⟩ := x.controller.stepSupervisor_eq
      rw [heq]
      exact ⟨fun h => absurd rfl h, id, fun _ => rfl, fun _ _ => rfl, fun _ => rfl⟩
    | informer =>
      obtain ⟨feed, changes, cluster, resting, agenda, heq⟩ := x.controller.stepInformer_eq
      rw [heq]
      exact ⟨fun _ => rfl, id, fun h => absurd rfl h, fun h => absurd rfl h, fun _ => rfl⟩
    | dispatcher =>
      obtain ⟨changes, queue, dispatcherDone, agenda, heq⟩ := x.controller.stepDispatcher_eq
      rw [heq]
      exact ⟨fun _ => rfl, id, fun _ => rfl, fun _ h => absurd rfl h, fun h => absurd rfl h⟩
    | worker n =>
      obtain ⟨workers, queue, tally, agenda, memory, cluster, heq⟩ := x.controller.stepWorker_eq n
      rw [heq]
      exact ⟨fun _ => rfl, id, fun _ => rfl, fun _ _ => rfl, fun _ => rfl⟩
    | delayed ticket =>
      obtain ⟨queue, agenda, heq⟩ := x.controller.stepDelayed_eq ticket
      rw [heq]
      exact ⟨fun _ => rfl, id, fun _ => rfl, fun _ _ => rfl, fun _ => rfl⟩
  | progress n =>
    simp only [Observed.move]
    split
    · obtain ⟨hsupervision, hstopping, hfeed, hchanges, hdone⟩ := hcluster _
      exact ⟨hsupervision, hstopping, hfeed, hchanges, hdone⟩
    · exact ⟨fun _ => rfl, id, fun _ => rfl, fun _ _ => rfl, fun _ => rfl⟩
  | act action => exact hcluster _
  | surround cluster => exact hcluster _
  | enqueue k => exact ⟨fun _ => rfl, id, fun _ => rfl, fun _ _ => rfl, fun _ => rfl⟩
  | stop => exact ⟨fun _ => rfl, fun _ => rfl, fun _ => rfl, fun _ _ => rfl, fun _ => rfl⟩
  | schedule agenda current => exact ⟨fun _ => rfl, id, fun _ => rfl, fun _ _ => rfl, fun _ => rfl⟩

/-- The stages of the end hold in every state of a run. -/
lemma winding_move (h : x.controller.Winding) (m : ControllerMove α) :
    (x.move m).controller.Winding := by
  have hcluster (cluster : Cluster) : (x.controller.setCluster cluster).Winding := by
    obtain ⟨agenda, heq⟩ := x.controller.setCluster_eq cluster
    rw [heq]
    exact h.same rfl rfl rfl rfl rfl
  simp only [move]
  cases m with
  | step task =>
    cases task with
    | informer => exact h.stepInformer
    | dispatcher => exact h.stepDispatcher
    | worker n => exact h.stepWorker n
    | supervisor => exact h.stepSupervisor
    | delayed ticket =>
      obtain ⟨queue, agenda, heq⟩ := x.controller.stepDelayed_eq ticket
      simp only [Observed.move, Controller.step, heq]
      exact h.same rfl rfl rfl rfl rfl
  | progress n =>
    simp only [Observed.move]
    split
    · next k effect next hn =>
      -- somebody is busy, so not all workers are gone
      have hthere : ¬ (x.controller.supervision = .closing ∨ x.controller.supervision = .finished) :=
        fun hover => by simpa using h.drained hover _ (List.mem_of_getElem? hn)
      obtain ⟨agenda, heq⟩ := x.controller.setCluster_eq (effect x.controller.cluster)
      rw [heq]
      exact ⟨fun hover => absurd hover hthere, h.stopped, h.dispatched, h.finished⟩
    · exact h
  | act action => exact hcluster _
  | surround cluster => exact hcluster _
  | enqueue k => exact h.same rfl rfl rfl rfl rfl
  | stop => exact h.same rfl rfl rfl rfl rfl
  | schedule agenda current => exact h.same rfl rfl rfl rfl rfl

/-- What holds in every state of a run on its way to the end. -/
structure Staged (x : Custody σ α) : Prop where
  sound : x.Sound
  winding : x.controller.Winding
  shut_iff : x.controller.queue.shuttingDown = true ↔ x.controller.supervision ≠ .running
  closed : x.controller.queue.shuttingDown = true → x.controller.queue.Closed

namespace Staged

/-- The queue after a move is the one that comes of what was asked of it. -/
lemma queue_move (h : x.Staged) (m : ControllerMove α) :
    (x.controller.asked m = none ∧ (x.move m).controller.queue = x.controller.queue) ∨
    ∃ call, x.controller.asked m = some call ∧
      (x.move m).controller.queue = (x.ledger.move call).queue := by
  have hqueue := (h.sound.move m).queue_eq
  rw [← hqueue]
  simp only [Custody.move]
  rcases x.controller.asked m with _ | call
  · exact .inl ⟨rfl, h.sound.queue_eq⟩
  · exact .inr ⟨call, rfl, rfl⟩

lemma closed_move (h : x.Staged) (hshut : x.controller.queue.shuttingDown = true)
    (m : ControllerMove α) :
    (x.move m).controller.queue.Closed ∧
      (x.move m).controller.queue.fifo = x.controller.queue.fifo := by
  rcases h.queue_move m with ⟨-, hq⟩ | ⟨call, -, hq⟩
  · rw [hq]
    exact ⟨h.closed hshut, rfl⟩
  · have hclosed := h.closed hshut
    rw [← h.sound.queue_eq] at hclosed ⊢
    rw [hq]
    exact ⟨(Ledger.move_closed hclosed call).1, (Ledger.move_closed hclosed call).2.1⟩

lemma shuttingDown_move (h : x.Staged) {m : ControllerMove α} (hm : m ≠ .step .supervisor) :
    (x.move m).controller.queue.shuttingDown = x.controller.queue.shuttingDown := by
  rcases h.queue_move m with ⟨-, hq⟩ | ⟨call, hcall, hq⟩
  · rw [hq]
  · have hne : call ≠ .shutDown := by
      rintro rfl
      exact hm (Controller.asked_shutDown hcall)
    rw [hq, Ledger.move_shuttingDown x.ledger hne, h.sound.queue_eq]

/-- The supervisor shuts the queue down when it leaves the first stage. -/
lemma shut_iff_supervisor (h : x.Staged) :
    (x.move (.step .supervisor)).controller.queue.shuttingDown = true ↔
      (x.move (.step .supervisor)).controller.supervision ≠ .running := by
  have hiff := h.shut_iff
  simp only [Custody.move, Observed.move, Controller.step, Controller.stepSupervisor]
  split
  · next hs =>
    split
    · simp [Controller.applyQueue, WorkQueue.shutDown]
    · exact hiff
  · next hs =>
    split
    · simpa [Controller.wake, hs] using hiff
    · exact hiff
  · next hs =>
    split
    · simpa [hs] using hiff
    · exact hiff
  · exact hiff

lemma move (h : x.Staged) (m : ControllerMove α) : (x.move m).Staged := by
  by_cases hm : m = .step .supervisor
  · subst hm
    refine ⟨h.sound.move _, winding_move h.winding _, h.shut_iff_supervisor, fun hshut => ?_⟩
    by_cases hbefore : x.controller.queue.shuttingDown = true
    · exact (h.closed_move hbefore _).1
    · -- the one step that shuts the queue down
      have hrunning : x.controller.supervision = .running := by
        by_contra hs
        exact hbefore (h.shut_iff.mpr hs)
      have hstep := h.shut_iff_supervisor.mp hshut
      simp only [Custody.move, Observed.move, Controller.step, Controller.stepSupervisor, hrunning]
        at hstep ⊢
      split at hstep
      · next hstopping =>
        rw [if_pos hstopping]
        exact WorkQueue.shutDown_closed _
      · exact absurd hrunning hstep
  · refine ⟨h.sound.move m, winding_move h.winding m, ?_, fun hshut => ?_⟩
    · rw [h.shuttingDown_move hm, (x.move_kept m).supervision hm]
      exact h.shut_iff
    · rw [h.shuttingDown_move hm] at hshut
      exact (h.closed_move hshut m).1

lemma after (h : x.Staged) (moves : List (ControllerMove α)) : (x.after moves).Staged := by
  induction moves generalizing x with
  | nil => exact h
  | cons m moves ih => exact ih (h.move m)

lemma start (config : ControllerConfig) (predicate : Predicate α) (reconciler : Reconciler σ α)
    (memory : σ) (cluster : Cluster) :
    (start config predicate reconciler memory cluster).Staged := by
  refine ⟨start_sound config predicate reconciler memory cluster, ?_, ?_, ?_⟩
  · constructor <;> simp [Custody.start, Controller.start, Controller.informer]
  · simp [Custody.start, Controller.start, WorkQueue.new]
  · simp [Custody.start, Controller.start, WorkQueue.new]

/-- No key is taken any more. -/
lemma handling_closed (h : x.Staged) (hshut : x.controller.queue.shuttingDown = true)
    (m : ControllerMove α) : ∀ n k, .took n k ∉ x.controller.handling m := by
  intro n k hmem
  unfold Controller.handling at hmem
  split at hmem
  · next i =>
    obtain ⟨s, hturn, -⟩ := (h.closed hshut).turn i
    split at hmem
    · simp [hturn] at hmem
    · simp at hmem
    · simp at hmem
  · simp at hmem

lemma after_closed (h : x.Staged) (hshut : x.controller.queue.shuttingDown = true)
    (later : List (ControllerMove α)) :
    (x.after later).controller.queue.Closed ∧
      (x.after later).controller.queue.fifo = x.controller.queue.fifo ∧
      ∃ newer, (x.after later).hands = newer ++ x.hands ∧ ∀ n k, .took n k ∉ newer := by
  induction later generalizing x with
  | nil => exact ⟨h.closed hshut, rfl, [], rfl, by simp⟩
  | cons m later ih =>
    obtain ⟨hclosed, hfifo⟩ := h.closed_move hshut m
    obtain ⟨hclosed', hfifo', newer, hhands, hnone⟩ := ih (h.move m) hclosed.shut
    refine ⟨hclosed', hfifo'.trans hfifo, newer ++ x.controller.handling m, ?_, ?_⟩
    · rw [List.append_assoc]
      exact hhands
    · intro n k hmem
      exact (List.mem_append.mp hmem).elim (hnone n k) (h.handling_closed hshut m n k)

end Staged

/-! ## The end comes -/

/-- Every task has its turn again and again, but a worker that waits at the queue has none. -/
structure Fair (x : Custody σ α) (next : Nat → ControllerMove α) : Prop where
  worker : ∀ n < x.controller.workers.length, ∀ i,
    (∀ j ≥ i, n ∉ (x.follow next j).controller.queue.signal.waiting) →
      ∃ j ≥ i, next j = .step (.worker n)
  informer : ∀ i, ∃ j ≥ i, next j = .step .informer
  dispatcher : ∀ i, ∃ j ≥ i, next j = .step .dispatcher
  supervisor : ∀ i, ∃ j ≥ i, next j = .step .supervisor

variable {next : Nat → ControllerMove α} {i n : Nat}

/-- What is so until a task goes on is so when it does. -/
lemma exists_turn {task : ControllerTask} (hfair : ∀ i, ∃ j ≥ i, next j = .step task)
    {P : Custody σ α → Prop} (hkeep : ∀ y m, P y → m ≠ .step task → P (y.move m))
    (hi : P (x.follow next i)) : ∃ j ≥ i, P (x.follow next j) ∧ next j = .step task := by
  obtain ⟨j, hij, hj⟩ := hfair i
  obtain ⟨d, rfl⟩ := Nat.exists_eq_add_of_le hij
  -- by induction on the time until the task goes on
  induction d generalizing i with
  | zero => exact ⟨i, le_rfl, hi, hj⟩
  | succ d ih =>
    by_cases hs : next i = .step task
    · exact ⟨i, le_rfl, hi, hs⟩
    · have hnext : P (x.follow next (i + 1)) := by
        rw [follow_succ]
        exact hkeep _ _ hi hs
      obtain ⟨l, hl, hP⟩ := ih hnext (by omega) (by rw [← hj]; congr 1; omega)
      exact ⟨l, by omega, hP⟩

/-- What every move keeps stays so. -/
lemma follow_keeps {P : Custody σ α → Prop} (hkeep : ∀ y m, P y → P (y.move m))
    (hi : P (x.follow next i)) {j : Nat} (hij : i ≤ j) : P (x.follow next j) := by
  induction j, hij using Nat.le_induction with
  | base => exact hi
  | succ j _ ih =>
    rw [follow_succ]
    exact hkeep _ _ ih

lemma Staged.follow (h : x.Staged) (next : Nat → ControllerMove α) (i : Nat) :
    (x.follow next i).Staged := h.after _

lemma Staged.shut_follow (h : x.Staged)
    (hi : (x.follow next i).controller.queue.shuttingDown = true) {j : Nat} (hij : i ≤ j) :
    (x.follow next j).controller.queue.shuttingDown = true := by
  have hboth := follow_keeps (P := fun y => y.Staged ∧ y.controller.queue.shuttingDown = true)
    (fun y m hy => ⟨hy.1.move m, (hy.1.closed_move hy.2 m).1.shut⟩) ⟨h.follow next i, hi⟩ hij
  exact hboth.2

/-- Once the end is asked for, the supervisor shuts the queue down. -/
lemma Staged.exists_shut (h : x.Staged) (hfair : x.Fair next)
    (hstopping : x.controller.stopping = true) :
    ∃ i, (x.follow next i).controller.queue.shuttingDown = true := by
  by_cases hs : x.controller.supervision = .running
  · obtain ⟨j, -, ⟨hrunning, hstop⟩, hj⟩ := exists_turn (x := x) (i := 0) hfair.supervisor
      (P := fun y => y.controller.supervision = .running ∧ y.controller.stopping = true)
      (fun y m hy hm => ⟨((y.move_kept m).supervision hm).trans hy.1, (y.move_kept m).stopping hy.2⟩)
      ⟨hs, hstopping⟩
    refine ⟨j + 1, ?_⟩
    rw [follow_succ, hj]
    simp [Custody.move, Observed.move, Controller.step, Controller.stepSupervisor, hrunning, hstop,
      Controller.applyQueue, WorkQueue.shutDown]
  · exact ⟨0, h.shut_iff.mpr hs⟩

/-! ### The workers go -/

/-- Nobody waits at a queue that is shut down, so every worker has its turn. -/
lemma Staged.worker_turns (h : x.Staged) (hfair : x.Fair next)
    (hi : (x.follow next i).controller.queue.shuttingDown = true)
    (hn : n < x.controller.workers.length) : ∀ l, ∃ j ≥ l, next j = .step (.worker n) := by
  intro l
  obtain ⟨j, hj, hstep⟩ := hfair.worker n hn (max i l) fun j hj => by
    have hshut := h.shut_follow hi (le_trans (le_max_left i l) hj)
    simp [((h.follow next j).closed hshut).waiting]
  exact ⟨j, le_trans (le_max_right i l) hj, hstep⟩

lemma exited_move (hn : x.controller.workers[n]? = some .exited) (m : ControllerMove α) :
    (x.move m).controller.workers[n]? = some .exited := by
  by_cases hm : Stirs n .exited m
  · rcases hm with rfl | ⟨-, k, effect, next, hw⟩
    · simp [move, Observed.move, Controller.step, Controller.stepWorker, hn]
    · simp at hw
  · exact worker_move hn hm

section

variable (hturns : ∀ l, ∃ j ≥ l, next j = .step (.worker n))
include hturns

/-- One who looks for a key at a queue that is shut down is told so, and goes. -/
lemma Staged.exits_of_idle (h : x.Staged)
    (hi : (x.follow next i).controller.queue.shuttingDown = true)
    (hn : (x.follow next i).controller.workers[n]? = some .idle) :
    ∃ j ≥ i, (x.follow next j).controller.workers[n]? = some .exited := by
  obtain ⟨j, hij, hj, hstep | ⟨-, _, _, _, hw⟩⟩ := exists_stirs hturns hn
  · obtain ⟨s, hturn, -⟩ := ((h.follow next j).closed (h.shut_follow hi hij)).turn n
    refine ⟨j + 1, by omega, ?_⟩
    simp only [follow_succ, hstep, Custody.move, Observed.move, Controller.step, Controller.stepWorker,
      hj, hturn]
    exact getElem?_set_worker hj _
  · simp at hw

lemma Staged.exits_of_returning (h : x.Staged)
    (hi : (x.follow next i).controller.queue.shuttingDown = true) {k : ObjectKey} {d : Duration}
    (hn : (x.follow next i).controller.workers[n]? = some (.returning k d)) :
    ∃ j ≥ i, (x.follow next j).controller.workers[n]? = some .exited := by
  obtain ⟨j, hij, hj, hstep | ⟨-, _, _, _, hw⟩⟩ := exists_stirs hturns hn
  · obtain ⟨agenda, heq⟩ := (x.follow next j).controller.bringBack_eq n k d
    obtain ⟨l, hl, hexited⟩ := h.exits_of_idle (i := j + 1) hturns (h.shut_follow hi (by omega)) (by
      simp only [follow_succ, hstep, Custody.move, Observed.move, Controller.step,
        Controller.stepWorker, hj, heq]
      exact getElem?_set_worker hj _)
    exact ⟨l, by omega, hexited⟩
  · simp at hw

lemma Staged.exits_of_leaving (h : x.Staged)
    (hi : (x.follow next i).controller.queue.shuttingDown = true) {k : ObjectKey}
    {ending : Ending Outcome}
    (hn : (x.follow next i).controller.workers[n]? = some (.leaving k ending)) :
    ∃ j ≥ i, (x.follow next j).controller.workers[n]? = some .exited := by
  obtain ⟨j, hij, hj, hstep | ⟨-, _, _, _, hw⟩⟩ := exists_stirs hturns hn
  · obtain ⟨w, queue, tally, agenda, heq, hw, -⟩ := (x.follow next j).controller.release_eq n k ending
    have hafter : (x.follow next (j + 1)).controller.workers[n]? = some w := by
      simp only [follow_succ, hstep, Custody.move, Observed.move, Controller.step,
        Controller.stepWorker, hj, heq]
      exact getElem?_set_worker hj _
    have hshut := h.shut_follow (j := j + 1) hi (by omega)
    rcases hw with rfl | ⟨d, rfl⟩
    · obtain ⟨l, hl, hexited⟩ := h.exits_of_idle hturns hshut hafter
      exact ⟨l, by omega, hexited⟩
    · obtain ⟨l, hl, hexited⟩ := h.exits_of_returning hturns hshut hafter
      exact ⟨l, by omega, hexited⟩
  · simp at hw

/-- A worker finishes what it has at hand, and goes. -/
lemma Staged.exists_exited (h : x.Staged)
    (hi : (x.follow next i).controller.queue.shuttingDown = true) {w : Worker}
    (hn : (x.follow next i).controller.workers[n]? = some w) :
    ∃ j ≥ i, (x.follow next j).controller.workers[n]? = some .exited := by
  have hwork : ∀ (l : Nat) (k : ObjectKey) (job : Task Outcome), i ≤ l →
      (x.follow next l).controller.workers[n]? = some (.busy k job) ∨
        (x.follow next l).controller.workers[n]? = some (.asleep k job) →
      ∃ j ≥ i, (x.follow next j).controller.workers[n]? = some .exited := by
    intro l k job hil hl
    obtain ⟨j, hlj, ending, hj⟩ := comesToEnd hturns job l hl
    obtain ⟨m, hm, hexited⟩ := h.exits_of_leaving hturns (h.shut_follow hi (by omega)) hj
    exact ⟨m, by omega, hexited⟩
  cases w with
  | idle => exact h.exits_of_idle hturns hi hn
  | returning k d => exact h.exits_of_returning hturns hi hn
  | leaving k ending => exact h.exits_of_leaving hturns hi hn
  | busy k job => exact hwork i k job le_rfl (.inl hn)
  | asleep k job => exact hwork i k job le_rfl (.inr hn)
  | exited => exact ⟨i, le_rfl, hn⟩
  | holding k =>
    obtain ⟨j, hij, hj, hstep | ⟨-, _, _, _, hw⟩⟩ := exists_stirs hturns hn
    · obtain ⟨job, memory, cluster, heq⟩ := Controller.stepWorker_holding hj
      refine hwork (j + 1) k job (by omega) (.inl ?_)
      simp only [follow_succ, hstep, Custody.move, Observed.move, Controller.step, heq]
      exact getElem?_set_worker hj _
    · simp at hw

end

lemma length_move (x : Custody σ α) (m : ControllerMove α) :
    (x.move m).controller.workers.length = x.controller.workers.length := by
  simp only [move]
  by_cases hother : ∀ n, m ≠ .step (.worker n) ∧ m ≠ .progress n
  · rw [(x.toObserved.move_steady hother).1.workers]
  · push Not at hother
    obtain ⟨n, hn⟩ := hother
    by_cases hstep : m = .step (.worker n)
    · obtain ⟨w, hw⟩ := x.controller.stepWorker_workers n
      simp [hstep, Observed.move, Controller.step, hw]
    · simp only [hn hstep, Observed.move]
      split
      · next k effect next _ =>
        obtain ⟨agenda, heq⟩ := x.controller.setCluster_eq (effect x.controller.cluster)
        simp [heq, Controller.setWorker]
      · rfl

lemma Staged.exists_all_exited (h : x.Staged) (hfair : x.Fair next)
    (hi : (x.follow next i).controller.queue.shuttingDown = true) :
    ∃ j ≥ i, ∀ w ∈ (x.follow next j).controller.workers, w = .exited := by
  have hlength (j : Nat) :
      (x.follow next j).controller.workers.length = x.controller.workers.length :=
    follow_keeps (i := 0) (P := fun y => y.controller.workers.length = x.controller.workers.length)
      (fun y m hy => (y.length_move m).trans hy) rfl (Nat.zero_le j)
  -- one worker after the other
  have hfirst : ∀ count ≤ x.controller.workers.length, ∃ j ≥ i, ∀ n < count,
      (x.follow next j).controller.workers[n]? = some .exited := by
    intro count
    induction count with
    | zero => exact fun _ => ⟨i, le_rfl, by simp⟩
    | succ count ih =>
      intro hcount
      obtain ⟨j, hij, hj⟩ := ih (by omega)
      have hturns := h.worker_turns (n := count) hfair hi (by omega)
      have hlt : count < (x.follow next j).controller.workers.length := by
        rw [hlength]
        omega
      obtain ⟨l, hjl, hl⟩ :=
        h.exists_exited hturns (h.shut_follow hi hij) (List.getElem?_eq_getElem hlt)
      refine ⟨l, by omega, fun n hn => ?_⟩
      rcases Nat.lt_succ_iff_lt_or_eq.mp hn with hn | rfl
      · exact follow_keeps (P := fun y => y.controller.workers[n]? = some .exited)
          (fun y m hy => exited_move hy m) (hj n hn) hjl
      · exact hl
  obtain ⟨j, hij, hj⟩ := hfirst _ le_rfl
  refine ⟨j, hij, fun w hw => ?_⟩
  obtain ⟨n, hn⟩ := List.mem_iff_getElem?.mp hw
  have hlt : n < x.controller.workers.length := hlength j ▸ (List.getElem?_eq_some_iff.mp hn).1
  exact Option.some.inj (hn.symm.trans (hj n hlt))

/-! ### The informer and the dispatcher follow -/

lemma all_exited_move (hall : ∀ w ∈ x.controller.workers, w = .exited) (m : ControllerMove α) :
    ∀ w ∈ (x.move m).controller.workers, w = .exited := by
  intro w hw
  obtain ⟨n, hn⟩ := List.mem_iff_getElem?.mp hw
  have hlt : n < x.controller.workers.length :=
    x.length_move m ▸ (List.getElem?_eq_some_iff.mp hn).1
  have hbefore : x.controller.workers[n]? = some .exited := by
    rw [List.getElem?_eq_getElem hlt, hall _ (List.getElem_mem hlt)]
  exact Option.some.inj (hn.symm.trans (exited_move hbefore m))

/-- When the workers are gone, the supervisor lets the informer stop. -/
lemma Staged.exists_closing (h : x.Staged) (hfair : x.Fair next)
    (hi : (x.follow next i).controller.queue.shuttingDown = true)
    (hall : ∀ w ∈ (x.follow next i).controller.workers, w = .exited) :
    ∃ j, (x.follow next j).controller.supervision = .closing ∨
      (x.follow next j).controller.supervision = .finished := by
  cases hs : (x.follow next i).controller.supervision with
  | running => exact absurd hs ((h.follow next i).shut_iff.mp hi)
  | closing => exact ⟨i, .inl hs⟩
  | finished => exact ⟨i, .inr hs⟩
  | draining =>
    obtain ⟨j, -, ⟨hdraining, hexited⟩, hj⟩ := exists_turn (x := x) hfair.supervisor
      (P := fun y => y.controller.supervision = .draining ∧ ∀ w ∈ y.controller.workers, w = .exited)
      (fun y m hy hm => ⟨((y.move_kept m).supervision hm).trans hy.1, all_exited_move hy.2 m⟩)
      ⟨hs, hall⟩
    have hgone : (x.follow next j).controller.workers.all Worker.hasExited = true := by
      rw [List.all_eq_true]
      intro w hw
      rw [hexited w hw]
      rfl
    refine ⟨j + 1, .inl ?_⟩
    rw [follow_succ, hj]
    simp [Custody.move, Observed.move, Controller.step, Controller.stepSupervisor, hdraining, hgone,
      Controller.wake]

/-- At the last stage but one the supervisor waits for the informer and the dispatcher. -/
lemma closing_move {m : ControllerMove α} (hs : x.controller.supervision = .closing)
    (hwaits : ¬ (x.controller.informer.phase = .stopped ∧ x.controller.dispatcherDone = true)) :
    (x.move m).controller.supervision = .closing := by
  by_cases hm : m = .step .supervisor
  · subst hm
    simp only [move, Observed.move, Controller.step, Controller.stepSupervisor, hs]
    rw [if_neg hwaits]
    exact hs
  · rw [(x.move_kept m).supervision hm, hs]

/-- The informer is as it was when it has its turn. -/
lemma exists_informer_turn (hfair : x.Fair next)
    (hs : (x.follow next i).controller.supervision = .closing)
    (hphase : (x.follow next i).controller.informer.phase ≠ .stopped) :
    ∃ j, (x.follow next j).controller.supervision = .closing ∧
      (x.follow next j).controller.feed = (x.follow next i).controller.feed ∧
      next j = .step .informer := by
  have hkept : ∀ (y : Custody σ α) (m : ControllerMove α),
      y.controller.supervision = .closing ∧ y.controller.feed = (x.follow next i).controller.feed →
      m ≠ .step .informer → (y.move m).controller.supervision = .closing ∧
        (y.move m).controller.feed = (x.follow next i).controller.feed := by
    rintro y m ⟨hclosing, hfeed⟩ hm
    refine ⟨closing_move hclosing fun hboth => hphase ?_, ((y.move_kept m).feed hm).trans hfeed⟩
    rw [Controller.informer, ← hfeed]
    exact hboth.1
  obtain ⟨j, -, ⟨hclosing, hfeed⟩, hj⟩ :=
    exists_turn (x := x) (i := i) hfair.informer hkept ⟨hs, rfl⟩
  exact ⟨j, hclosing, hfeed, hj⟩

lemma exists_stopped_of_unanswered (hfair : x.Fair next)
    (hs : (x.follow next i).controller.supervision = .closing)
    (hphase : (x.follow next i).controller.informer.phase ≠ .stopped)
    (ha : (x.follow next i).controller.feed.answer = none) :
    ∃ j, (x.follow next j).controller.supervision = .closing ∧
      (x.follow next j).controller.informer.phase = .stopped := by
  obtain ⟨j, hclosing, hfeed, hj⟩ := exists_informer_turn hfair hs hphase
  have hstep : (x.follow next j).controller.stepInformer =
      (({ (x.follow next j).controller with
          feed := (x.follow next j).controller.feed.stop }.wake .dispatcher).wake .supervisor,
        .again) := by
    have hphase' : (x.follow next j).controller.informer.phase ≠ .stopped := by
      rw [Controller.informer, hfeed]
      exact hphase
    simp only [Controller.stepInformer, hfeed, ha, if_pos (And.intro hclosing hphase')]
  refine ⟨j + 1, ?_⟩
  rw [follow_succ, hj]
  simp only [move, Observed.move, Controller.step, hstep]
  exact ⟨hclosing, rfl⟩

/-- The informer takes the answer that it has, and stops. -/
lemma exists_stopped (hfair : x.Fair next)
    (hi : (x.follow next i).controller.supervision = .closing) :
    ∃ j, (x.follow next j).controller.supervision = .closing ∧
      (x.follow next j).controller.informer.phase = .stopped := by
  by_cases hphase : (x.follow next i).controller.informer.phase = .stopped
  · exact ⟨i, hi, hphase⟩
  cases ha : (x.follow next i).controller.feed.answer with
  | none => exact exists_stopped_of_unanswered hfair hi hphase ha
  | some answer =>
    obtain ⟨j, hclosing, hfeed, hj⟩ := exists_informer_turn hfair hi hphase
    obtain ⟨agenda, heq⟩ := (x.follow next j).controller.applyFeed_eq
      ((x.follow next j).controller.feed.take answer)
    have hafter : (x.follow next (j + 1)).controller =
        (x.follow next j).controller.applyFeed ((x.follow next j).controller.feed.take answer) := by
      rw [follow_succ, hj]
      simp only [move, Observed.move, Controller.step, Controller.stepInformer, hfeed, ha]
    rw [heq] at hafter
    refine exists_stopped_of_unanswered (i := j + 1) hfair ?_ ?_ ?_
    · rw [hafter]
      exact hclosing
    · rw [hafter, hfeed]
      exact Feed.take_phase hphase answer
    · rw [hafter]
      rfl

/-- An informer that has stopped sends no more changes. -/
lemma Staged.stopped_move (h : x.Staged) (hphase : x.controller.informer.phase = .stopped)
    (m : ControllerMove α) :
    (x.move m).controller.feed = x.controller.feed ∧
      (m ≠ .step .dispatcher → (x.move m).controller.changes = x.controller.changes) := by
  by_cases hm : m = .step .informer
  · subst hm
    have hstep := Controller.stepInformer_stopped hphase (h.winding.stopped hphase).2
    simp [Custody.move, Observed.move, Controller.step, hstep]
  · exact ⟨(x.move_kept m).feed hm, fun hm' => (x.move_kept m).changes hm hm'⟩

lemma Staged.exists_dispatcher_turn (h : x.Staged) (hfair : x.Fair next)
    (hs : (x.follow next i).controller.supervision = .closing)
    (hphase : (x.follow next i).controller.informer.phase = .stopped)
    (hdone : (x.follow next i).controller.dispatcherDone = false) :
    ∃ j, (x.follow next j).controller.supervision = .closing ∧
      (x.follow next j).controller.informer.phase = .stopped ∧
      (x.follow next j).controller.dispatcherDone = false ∧
      (x.follow next j).controller.changes = (x.follow next i).controller.changes ∧
      next j = .step .dispatcher := by
  have hkept : ∀ (y : Custody σ α) (m : ControllerMove α),
      y.Staged ∧ y.controller.supervision = .closing ∧ y.controller.informer.phase = .stopped ∧
        y.controller.dispatcherDone = false ∧
        y.controller.changes = (x.follow next i).controller.changes →
      m ≠ .step .dispatcher →
      (y.move m).Staged ∧ (y.move m).controller.supervision = .closing ∧
        (y.move m).controller.informer.phase = .stopped ∧
        (y.move m).controller.dispatcherDone = false ∧
        (y.move m).controller.changes = (x.follow next i).controller.changes := by
    rintro y m ⟨hstaged, hclosing, hstopped, hwaits, hchanges⟩ hm
    obtain ⟨hfeed, hkept⟩ := hstaged.stopped_move hstopped m
    refine ⟨hstaged.move m, closing_move hclosing fun hboth => ?_, ?_, ?_, (hkept hm).trans hchanges⟩
    · simp [hwaits] at hboth
    · rw [Controller.informer, hfeed]
      exact hstopped
    · rw [(y.move_kept m).dispatcherDone hm, hwaits]
  obtain ⟨j, -, ⟨-, hclosing, hstopped, hwaits, hchanges⟩, hj⟩ := exists_turn (x := x) (i := i)
    hfair.dispatcher hkept ⟨h.follow next i, hs, hphase, hdone, rfl⟩
  exact ⟨j, hclosing, hstopped, hwaits, hchanges, hj⟩

/-- The dispatcher takes the changes that are left, and ends. -/
lemma Staged.exists_dispatched (h : x.Staged) (hfair : x.Fair next)
    (hs : (x.follow next i).controller.supervision = .closing)
    (hphase : (x.follow next i).controller.informer.phase = .stopped) :
    ∃ j, (x.follow next j).controller.supervision = .closing ∧
      (x.follow next j).controller.dispatcherDone = true := by
  generalize hleft : (x.follow next i).controller.changes = left
  -- by induction on the changes that are left
  induction left generalizing i with
  | nil =>
    cases hdone : (x.follow next i).controller.dispatcherDone with
    | true => exact ⟨i, hs, hdone⟩
    | false =>
      obtain ⟨j, hclosing, hstopped, hwaits, hchanges, hj⟩ :=
        h.exists_dispatcher_turn hfair hs hphase hdone
      have hends : (x.follow next j).controller.informer.phase = .stopped ∧
          ¬ (x.follow next j).controller.dispatcherDone = true := ⟨hstopped, by simp [hwaits]⟩
      refine ⟨j + 1, ?_⟩
      rw [follow_succ, hj]
      simp only [Custody.move, Observed.move, Controller.step, Controller.stepDispatcher, hchanges,
        hleft, if_pos hends]
      exact ⟨hclosing, rfl⟩
  | cons change rest ih =>
    cases hdone : (x.follow next i).controller.dispatcherDone with
    | true => exact ⟨i, hs, hdone⟩
    | false =>
      obtain ⟨j, hclosing, hstopped, -, hchanges, hj⟩ := h.exists_dispatcher_turn hfair hs hphase hdone
      have hafter : (x.follow next (j + 1)).controller.supervision = .closing ∧
          (x.follow next (j + 1)).controller.informer.phase = .stopped ∧
          (x.follow next (j + 1)).controller.changes = rest := by
        rw [follow_succ, hj]
        simp only [Custody.move, Observed.move, Controller.step, Controller.stepDispatcher, hchanges,
          hleft]
        split <;> exact ⟨hclosing, hstopped, rfl⟩
      exact ih hafter.1 hafter.2.1 hafter.2.2

lemma finished_move (hs : x.controller.supervision = .finished) (m : ControllerMove α) :
    (x.move m).controller.supervision = .finished := by
  by_cases hm : m = .step .supervisor
  · subst hm
    simp [move, Observed.move, Controller.step, Controller.stepSupervisor, hs]
  · rw [(x.move_kept m).supervision hm, hs]

/-- When the dispatcher has ended the supervisor is the only one left. -/
lemma Staged.exists_finished_of_dispatched (h : x.Staged) (hfair : x.Fair next)
    (hs : (x.follow next i).controller.supervision = .closing)
    (hdone : (x.follow next i).controller.dispatcherDone = true) :
    ∃ j, (x.follow next j).controller.supervision = .finished := by
  have hkept : ∀ (y : Custody σ α) (m : ControllerMove α),
      y.Staged ∧ y.controller.supervision = .closing ∧ y.controller.dispatcherDone = true →
      m ≠ .step .supervisor → (y.move m).Staged ∧ (y.move m).controller.supervision = .closing ∧
        (y.move m).controller.dispatcherDone = true := by
    rintro y m ⟨hstaged, hclosing, hdone⟩ hm
    refine ⟨hstaged.move m, ((y.move_kept m).supervision hm).trans hclosing, ?_⟩
    by_cases hdispatcher : m = .step .dispatcher
    · subst hdispatcher
      have hempty := (hstaged.winding.dispatched hdone).2
      simp [Custody.move, Observed.move, Controller.step, Controller.stepDispatcher, hempty, hdone]
    · rw [(y.move_kept m).dispatcherDone hdispatcher, hdone]
  obtain ⟨j, -, ⟨hstaged, hclosing, hdone⟩, hj⟩ := exists_turn (x := x) (i := i) hfair.supervisor hkept
    ⟨h.follow next i, hs, hdone⟩
  have hends : (x.follow next j).controller.informer.phase = .stopped ∧
      (x.follow next j).controller.dispatcherDone = true :=
    ⟨(hstaged.winding.dispatched hdone).1, hdone⟩
  refine ⟨j + 1, ?_⟩
  rw [follow_succ, hj]
  simp only [Custody.move, Observed.move, Controller.step, Controller.stepSupervisor, hclosing,
    if_pos hends]

/-- A controller that is asked to stop comes to its end. -/
lemma Staged.exists_finished (h : x.Staged) (hfair : x.Fair next)
    (hstopping : x.controller.stopping = true) :
    ∃ i, ∀ j ≥ i, (x.follow next j).controller.supervision = .finished := by
  have hfinished : ∃ i, (x.follow next i).controller.supervision = .finished := by
    obtain ⟨i, hshut⟩ := h.exists_shut hfair hstopping
    obtain ⟨j, hij, hall⟩ := h.exists_all_exited hfair hshut
    obtain ⟨k, hclosing | hfinished⟩ := h.exists_closing hfair (h.shut_follow hshut hij) hall
    · obtain ⟨l, hclosing, hstopped⟩ := exists_stopped hfair hclosing
      obtain ⟨m, hclosing, hdone⟩ := h.exists_dispatched hfair hclosing hstopped
      exact h.exists_finished_of_dispatched hfair hclosing hdone
    · exact ⟨k, hfinished⟩
  obtain ⟨i, hi⟩ := hfinished
  exact ⟨i, fun j hij => follow_keeps (P := fun y => y.controller.supervision = .finished)
    (fun y m hy => finished_move hy m) hi hij⟩

/-! ## Fair runs -/

/-- The tasks of a controller have their turns one after the other, again and again. -/
def rounds (workers : Nat) (i : Nat) : ControllerMove α :=
  let tasks := .informer :: .dispatcher :: .supervisor :: (List.range workers).map ControllerTask.worker
  (tasks[i % tasks.length]?.map .step).getD .stop

lemma rounds_fair (x : Custody σ α) : x.Fair (rounds x.controller.workers.length) := by
  have hturn : ∀ task ∈ ControllerTask.informer :: .dispatcher :: .supervisor ::
      (List.range x.controller.workers.length).map ControllerTask.worker,
      ∀ i, ∃ j ≥ i, rounds (α := α) x.controller.workers.length j = .step task := by
    intro task hmem i
    unfold rounds
    generalize ControllerTask.informer :: .dispatcher :: .supervisor ::
      (List.range x.controller.workers.length).map ControllerTask.worker = tasks at hmem
    obtain ⟨k, hk, rfl⟩ := List.mem_iff_getElem.mp hmem
    -- the turn of this task in a later round
    have hle : i ≤ tasks.length * i := Nat.le_mul_of_pos_left i (by omega)
    refine ⟨tasks.length * i + k, by omega, ?_⟩
    simp [Nat.mod_eq_of_lt hk, hk]
  refine ⟨fun n hn i _ => hturn _ (by simp [hn]) i, hturn _ (by simp), hturn _ (by simp),
    hturn _ (by simp)⟩

/-! ## Nothing is left -/

/-- The run of a controller is over: no key is in work, and no task can go on. -/
structure Over (x : Custody σ α) : Prop where
  processing : x.controller.queue.processing = []
  workers : ∀ w ∈ x.controller.workers, w = .exited
  stopped : x.controller.informer.phase = .stopped
  changes : x.controller.changes = []
  informer : x.controller.step .informer = (x.controller, .blocked)
  dispatcher : x.controller.step .dispatcher = (x.controller, .blocked)
  worker : ∀ n, x.controller.step (.worker n) = (x.controller, .blocked)

lemma Staged.over (h : x.Staged) (hs : x.controller.supervision = .finished) : x.Over := by
  have hall := h.winding.drained (.inr hs)
  have hdone := h.winding.finished hs
  obtain ⟨hstopped, hempty⟩ := h.winding.dispatched hdone
  refine ⟨?_, hall, hstopped, hempty, ?_, ?_, Controller.stepWorker_exited hall⟩
  · -- a key in work is in somebody's hands
    refine List.eq_nil_iff_forall_not_mem.mpr fun k hk => ?_
    obtain ⟨n, hn⟩ := Option.isSome_iff_exists.mp ((h.sound.processing_iff k).mp hk)
    obtain ⟨w, hw, hkey⟩ := (h.sound.holder_iff n k).mp hn
    rw [hall w (List.mem_of_getElem? hw)] at hkey
    simp [Worker.key?] at hkey
  · exact Controller.stepInformer_stopped hstopped (h.winding.stopped hstopped).2
  · simp [Controller.step, Controller.stepDispatcher, hempty, hdone]

/-- In every state of every run, with any number of workers and whatever the reconciler does:

Once the queue is shut down, whatever is asked of it, nobody is handed a key, though there may be keys in
line, and no key comes into the line again, not by being added, tried again, marked or put off. In the
further run of the controller no worker takes a key and none waits. Whoever has a key gives it back, and
every worker goes, if all who do not wait at the queue have their turns.

A controller that is asked to stop comes to its end. The informer does not stop before all workers are
gone. At the end no key is in work and no worker, informer or dispatcher can go on, and that stays so. -/
theorem drained_and_stays_drained (config : ControllerConfig) (predicate : Predicate α)
    (reconciler : Reconciler σ α) (memory : σ) (cluster : Cluster) (moves : List (ControllerMove α)) :
    let x := (start config predicate reconciler memory cluster).after moves
    (x.controller.queue.shuttingDown = true →
      (x.ledger.queue = x.controller.queue ∧ ∀ calls : List (QueueMove ObjectKey),
        let l := calls.foldl Ledger.move x.ledger
        l.queue.fifo = x.controller.queue.fifo ∧ l.queue.delayed = [] ∧
        (∀ w, ∃ q, l.queue.turn w = .closed q) ∧
        ∃ newer, l.record = newer ++ x.ledger.record ∧ ∀ k, .took k ∉ newer) ∧
      (∀ later,
        let y := x.after later
        y.controller.queue.shuttingDown = true ∧
        y.controller.queue.fifo = x.controller.queue.fifo ∧
        y.controller.queue.delayed = [] ∧ y.controller.queue.signal.waiting = [] ∧
        ∃ newer, y.hands = newer ++ x.hands ∧ ∀ n k, .took n k ∉ newer) ∧
      ∀ next, x.Fair next →
        (∀ n k, Worker.HasAt x.controller.workers n k →
          ∃ i newer, (x.follow next i).hands = newer ++ x.hands ∧ .gaveBack n k ∈ newer) ∧
        ∀ n < x.controller.workers.length, ∃ i, ∀ j ≥ i,
          (x.follow next j).controller.workers[n]? = some .exited) ∧
    (x.controller.stopping = true → ∀ next, x.Fair next →
      ∃ i, ∀ j ≥ i, (x.follow next j).controller.supervision = .finished) ∧
    (x.controller.informer.phase = .stopped → ∀ w ∈ x.controller.workers, w = .exited) ∧
    (x.controller.supervision = .finished →
      ∀ later, (x.after later).controller.supervision = .finished ∧ (x.after later).Over) ∧
    ∃ next, x.Fair next := by
  intro x
  have h : x.Staged := (Staged.start config predicate reconciler memory cluster).after moves
  refine ⟨fun hshut => ⟨⟨h.sound.queue_eq, fun calls => ?_⟩, fun later => ?_, fun next hfair => ?_⟩,
    fun hstopping next hfair => h.exists_finished hfair hstopping, fun hstopped => ?_, fun hs later => ?_,
    rounds _, x.rounds_fair⟩
  · have hclosed : x.ledger.queue.Closed := by
      rw [h.sound.queue_eq]
      exact h.closed hshut
    obtain ⟨hclosed', hfifo, hrecord⟩ := Ledger.moves_closed hclosed calls
    rw [h.sound.queue_eq] at hfifo
    refine ⟨hfifo, hclosed'.delayed, fun w => ?_, hrecord⟩
    obtain ⟨s, hturn, -⟩ := hclosed'.turn w
    exact ⟨_, hturn⟩
  · obtain ⟨hclosed, hfifo, hhands⟩ := h.after_closed hshut later
    exact ⟨hclosed.shut, hfifo, hclosed.delayed, hclosed.waiting, hhands⟩
  · have hnow : (x.follow next 0).controller.queue.shuttingDown = true := hshut
    refine ⟨fun n k hk => ?_, fun n hn => ?_⟩
    · obtain ⟨w, hw, -⟩ := id hk
      exact exists_gaveBack (h.worker_turns hfair hnow (List.getElem?_eq_some_iff.mp hw).1) hk
    · obtain ⟨i, -, hi⟩ := h.exists_exited (h.worker_turns hfair hnow hn) hnow
        (List.getElem?_eq_getElem hn)
      exact ⟨i, fun j hij => follow_keeps (P := fun y => y.controller.workers[n]? = some .exited)
        (fun y m hy => exited_move hy m) hi hij⟩
  · exact h.winding.drained (h.winding.stopped hstopped).1
  · have hlater : (x.after later).controller.supervision = .finished := by
      induction later using List.reverseRecOn with
      | nil => exact hs
      | append_singleton later m ih =>
        rw [after, List.foldl_append]
        exact finished_move ih m
    exact ⟨hlater, (h.after later).over hlater⟩

/-- The end comes when the work on one key has failed and is to be tried again, another key is in work and
has been marked, a third one is in line, and one of four workers waits. -/
def cutShort : List (ControllerMove Widget) :=
  [.act (.create ⟨{ seconds := 0 }, "1"⟩ (some "a")
      { metadata := { name := some "v" }, spec := { replicas := 1 } }),
    .act (.create ⟨{ seconds := 0 }, "2"⟩ (some "a")
      { metadata := { name := some "w" }, spec := { replicas := 1 } }),
    .step .informer, .step .informer, .step .dispatcher, .step .dispatcher,
    .step (.worker 0), .step (.worker 0), .step (.worker 0), .step (.worker 1), .step (.worker 2),
    .step (.worker 3), .enqueue ⟨some "a", "w"⟩, .enqueue ⟨none, "x"⟩, .stop, .step .supervisor]

def afterCutShort : Custody Script :=
  (start { workers := 4 } .always Script.reconciler
    { reconcile := [("v", [{ finish := .fail (.other "not yet") }])] }
    (.new { seconds := 0 } "controller")).after cutShort

set_option maxRecDepth 4000 in
lemma afterCutShort_queue :
    afterCutShort.controller.queue.shuttingDown = true ∧
    afterCutShort.controller.stopping = true ∧
    afterCutShort.controller.queue.fifo = [⟨none, "x"⟩] ∧
    afterCutShort.controller.queue.dirty = [⟨some "a", "w"⟩] ∧
    afterCutShort.controller.queue.processing = [⟨some "a", "w"⟩, ⟨some "a", "v"⟩] ∧
    afterCutShort.controller.workers.map Worker.key? =
      [some ⟨some "a", "v"⟩, some ⟨some "a", "w"⟩, none, none] := by
  decide +kernel

/-- Both keys are given back, and the one in line stays there to the end. -/
theorem drained_and_stays_drained_cutShort :
    let x := afterCutShort
    let next := rounds x.controller.workers.length
    x.controller.queue.shuttingDown = true ∧ x.controller.queue.fifo = [⟨none, "x"⟩] ∧
    x.controller.queue.dirty = [⟨some "a", "w"⟩] ∧
    (∃ i newer, (x.follow next i).hands = newer ++ x.hands ∧ .gaveBack 0 ⟨some "a", "v"⟩ ∈ newer) ∧
    (∃ i newer, (x.follow next i).hands = newer ++ x.hands ∧ .gaveBack 1 ⟨some "a", "w"⟩ ∈ newer) ∧
    ∃ i, (x.follow next i).controller.supervision = .finished ∧
      (x.follow next i).controller.queue.fifo = [⟨none, "x"⟩] := by
  obtain ⟨hshut, hstopping, hfifo, hdirty, -, hkeys⟩ := afterCutShort_queue
  have hhas (n : Nat) (k : ObjectKey)
      (hn : (afterCutShort.controller.workers.map Worker.key?)[n]? = some (some k)) :
      Worker.HasAt afterCutShort.controller.workers n k := by
    simpa [List.getElem?_map, Worker.HasAt] using hn
  have hfair := afterCutShort.rounds_fair
  obtain ⟨hdrains, hends, -⟩ := drained_and_stays_drained { workers := 4 } .always Script.reconciler
    { reconcile := [("v", [{ finish := .fail (.other "not yet") }])] }
    (.new { seconds := 0 } "controller") cutShort
  obtain ⟨-, hstays, hgone⟩ := hdrains hshut
  obtain ⟨hback, -⟩ := hgone _ hfair
  obtain ⟨i, hi⟩ := hends hstopping _ hfair
  refine ⟨hshut, hfifo, hdirty, ?_, ?_, i, hi i le_rfl, ?_⟩
  · exact hback 0 _ (hhas 0 _ (by rw [hkeys]; rfl))
  · exact hback 1 _ (hhas 1 _ (by rw [hkeys]; rfl))
  · exact (hstays _).2.1.trans hfifo

end Custody

end ControlLoop
