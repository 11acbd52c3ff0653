import ControlLoop.Proofs.EventBlindness
import ControlLoop.Proofs.KeyCustody

/-!
# Runs that differ in their events

Two controllers that differ in nothing but the events of their clusters go on alike, task by task. So
whatever comes of recording events, in one run and in another, the reconciler is called for the same
objects, the queue is asked the same, and the same is written. Main statement: `events_unseen`.
-/
set_option linter.unusedSectionVars false

namespace ControlLoop

/-- Both sides of a choice that is made alike. -/
lemma rel_ite {β : Type} {R : β → β → Prop} {p : Prop} [Decidable p] {a a' b b' : β}
    (ha : R a a') (hb : R b b') : R (if p then a else b) (if p then a' else b') := by
  split
  · exact ha
  · exact hb

/-! ## Workers -/

namespace Worker

/-- Two workers that do the same on clusters that differ in their events only. -/
inductive Matches : Worker → Worker → Prop
  | same {w : Worker} (h : w.job? = none) : Matches w w
  | busy (k : ObjectKey) {j j' : Task Outcome} (h : j.Matches j') : Matches (.busy k j) (.busy k j')
  | asleep (k : ObjectKey) {j j' : Task Outcome} (h : j.Matches j') :
      Matches (.asleep k j) (.asleep k j')

variable {w w' : Worker} {workers workers' : List Worker}

lemma Matches.key?_eq (h : w.Matches w') : w'.key? = w.key? := by
  cases h <;> rfl

lemma Matches.hasExited_eq (h : w.Matches w') : w'.hasExited = w.hasExited := by
  cases h <;> rfl

lemma matches_getElem? (h : workers.Forall₂ Matches workers') (n : Nat) :
    Option.Rel Matches workers[n]? workers'[n]? := by
  induction h generalizing n with
  | nil => exact .none
  | cons hw _ ih =>
    cases n with
    | zero => exact .some hw
    | succ n => exact ih n

lemma matches_set (h : workers.Forall₂ Matches workers') (hw : w.Matches w') (n : Nat) :
    (workers.set n w).Forall₂ Matches (workers'.set n w') := by
  induction h generalizing n with
  | nil => exact .nil
  | cons hv hrest ih =>
    cases n with
    | zero => exact .cons hw hrest
    | succ n => exact .cons hv (ih n)

/-- What is seen of each worker is seen of the list. -/
lemma matches_map {β : Type} {f : Worker → β} (hf : ∀ {w w'}, Matches w w' → f w' = f w)
    (h : workers.Forall₂ Matches workers') : workers'.map f = workers.map f := by
  induction h with
  | nil => rfl
  | cons hw _ ih => rw [List.map_cons, List.map_cons, hf hw, ih]

end Worker

/-! ## Controllers -/

namespace Controller

variable {σ α : Type} {c d : Controller σ α}

/-- Two controllers that differ only in the events of their clusters, and whose work does not see
them. -/
structure Alike (c d : Controller σ α) : Prop where
  blind : c.reconciler.Blind
  cluster : c.cluster.Alike d.cluster
  workers : c.workers.Forall₂ Worker.Matches d.workers
  same : d = { c with cluster := d.cluster, workers := d.workers }

lemma Alike.eq (h : c.Alike d) :
    ∃ cluster workers, d = { c with cluster := cluster, workers := workers } ∧
      c.cluster.Alike cluster ∧ c.workers.Forall₂ Worker.Matches workers :=
  ⟨d.cluster, d.workers, h.same, h.cluster, h.workers⟩

lemma Alike.queue_eq (h : c.Alike d) : d.queue = c.queue := by rw [h.same]

lemma Alike.tally_eq (h : c.Alike d) : d.tally = c.tally := by rw [h.same]

lemma Alike.agenda_eq (h : c.Alike d) : d.agenda = c.agenda := by rw [h.same]

lemma Alike.current_eq (h : c.Alike d) : d.current = c.current := by rw [h.same]

lemma alike_start (config : ControllerConfig) (predicate : Predicate α)
    {reconciler : Reconciler σ α} (hr : reconciler.Blind) (memory : σ) {c d : Cluster}
    (h : c.Alike d) :
    (start config predicate reconciler memory c).Alike
      (start config predicate reconciler memory d) := by
  refine ⟨hr, h, List.forall₂_same.mpr fun w hw => .same ?_, ?_⟩
  · rw [List.eq_of_mem_replicate hw]
    rfl
  · simp only [start, h.time]

variable [Resource α] [Collection α] [Collection.Plain α]

lemma Alike.setCluster (h : c.Alike d) {e e' : Cluster} (he : e.Alike e') :
    (c.setCluster e).Alike (d.setCluster e') := by
  obtain ⟨cluster, workers, rfl, hcluster, hworkers⟩ := h.eq
  simp only [Controller.setCluster, isWatching, informer, Collection.Plain.store_eq he,
    Collection.Plain.store_eq hcluster]
  exact rel_ite (R := Alike) ⟨h.blind, he, hworkers, rfl⟩ ⟨h.blind, he, hworkers, rfl⟩

lemma Alike.setWorker (h : c.Alike d) (n : Nat) {w w' : Worker} (hw : w.Matches w') :
    (c.setWorker n w).Alike (d.setWorker n w') := by
  obtain ⟨cluster, workers, rfl, hcluster, hworkers⟩ := h.eq
  exact ⟨h.blind, hcluster, Worker.matches_set hworkers hw n, rfl⟩

lemma Alike.applyQueue (h : c.Alike d) (change : WorkQueue ObjectKey × List Nat) :
    (c.applyQueue change).Alike (d.applyQueue change) := by
  obtain ⟨cluster, workers, rfl, hcluster, hworkers⟩ := h.eq
  exact ⟨h.blind, hcluster, hworkers, rfl⟩

lemma Alike.applyFeed (h : c.Alike d) (result : Feed α × List (Change α)) :
    (c.applyFeed result).Alike (d.applyFeed result) := by
  obtain ⟨cluster, workers, rfl, hcluster, hworkers⟩ := h.eq
  simp only [Controller.applyFeed]
  exact rel_ite (R := Alike) ⟨h.blind, hcluster, hworkers, rfl⟩ ⟨h.blind, hcluster, hworkers, rfl⟩

/-! ### Steps -/

/-- Two steps that say the same and leave controllers that go on alike. -/
def SameStep (p q : Controller σ α × Progress) : Prop := q.2 = p.2 ∧ p.1.Alike q.1

lemma Alike.requestInformer (h : c.Alike d) : SameStep c.requestInformer d.requestInformer := by
  obtain ⟨cluster, workers, rfl, hcluster, hworkers⟩ := h.eq
  simp only [Controller.requestInformer]
  cases c.feed.informer.phase with
  | stopped => exact ⟨rfl, h⟩
  | listing =>
    obtain ⟨answer, e, e', he, he', hafter⟩ :=
      (Session.blind_list (α := α) c.config.ns).answers hcluster
    simp only [ExceptT.run] at he he'
    simp only [he, he']
    exact ⟨rfl, h.blind, hafter, hworkers, rfl⟩
  | opening version =>
    obtain ⟨answer, e, e', he, he', hafter⟩ :=
      (Session.blind_watch (α := α) c.config.ns version).answers hcluster
    simp only [ExceptT.run] at he he'
    simp only [he, he']
    exact ⟨rfl, h.blind, hafter, hworkers, rfl⟩
  | watching version =>
    simp only [Collection.Plain.store_eq hcluster]
    exact ⟨rfl, h.blind, hcluster, hworkers, rfl⟩
  | resting resume =>
    refine rel_ite (R := SameStep) ?_ ?_
    · exact ⟨rfl, h.blind, hcluster, hworkers, rfl⟩
    · exact ⟨rfl, h.blind, hcluster, hworkers, rfl⟩

lemma Alike.stepInformer (h : c.Alike d) : SameStep c.stepInformer d.stepInformer := by
  have hrequest := h.requestInformer
  have hfeed (answer : Feed.Answer α) := h.applyFeed (c.feed.take answer)
  obtain ⟨cluster, workers, rfl, hcluster, hworkers⟩ := h.eq
  simp only [Controller.stepInformer, informer]
  cases c.feed.answer with
  | some answer => exact ⟨rfl, hfeed answer⟩
  | none =>
    refine rel_ite (R := SameStep) ?_ hrequest
    exact ⟨rfl, h.blind, hcluster, hworkers, rfl⟩

lemma Alike.stepDispatcher (h : c.Alike d) : SameStep c.stepDispatcher d.stepDispatcher := by
  obtain ⟨cluster, workers, rfl, hcluster, hworkers⟩ := h.eq
  simp only [Controller.stepDispatcher, informer]
  cases hchanges : c.changes with
  | cons change rest =>
    refine rel_ite (R := SameStep) ?_ ?_
    · exact ⟨rfl, h.blind, hcluster, hworkers, rfl⟩
    · exact ⟨rfl, h.blind, hcluster, hworkers, rfl⟩
  | nil =>
    refine rel_ite (R := SameStep) ?_ ?_
    · exact ⟨rfl, h.blind, hcluster, hworkers, rfl⟩
    · exact ⟨rfl, h.blind, hcluster, hworkers, by rw [hchanges]⟩

lemma Alike.stepDelayed (h : c.Alike d) (ticket : Nat) :
    SameStep (c.stepDelayed ticket) (d.stepDelayed ticket) := by
  obtain ⟨cluster, workers, rfl, hcluster, hworkers⟩ := h.eq
  simp only [Controller.stepDelayed]
  cases c.queue.delayed? ticket with
  | none => exact ⟨rfl, h⟩
  | some delayed =>
    refine rel_ite (R := SameStep) ⟨rfl, h.applyQueue _⟩ ?_
    exact ⟨rfl, h.blind, hcluster, hworkers, rfl⟩

lemma Alike.stepSupervisor (h : c.Alike d) : SameStep c.stepSupervisor d.stepSupervisor := by
  obtain ⟨cluster, workers, rfl, hcluster, hworkers⟩ := h.eq
  have hexited : workers.all Worker.hasExited = c.workers.all Worker.hasExited := by
    have hmap := Worker.matches_map Worker.Matches.hasExited_eq hworkers
    simpa only [List.all_map, Function.id_comp] using congrArg (·.all id) hmap
  simp only [Controller.stepSupervisor, informer, hexited]
  cases hsupervision : c.supervision with
  | finished => exact ⟨rfl, h.blind, hcluster, hworkers, by rw [hsupervision]⟩
  | running | draining | closing =>
    refine rel_ite (R := SameStep) ?_ ?_
    · exact ⟨rfl, h.blind, hcluster, hworkers, rfl⟩
    · exact ⟨rfl, h.blind, hcluster, hworkers, by rw [hsupervision]⟩

/-! ### Workers -/

lemma Alike.beginWork (h : c.Alike d) (k : ObjectKey) :
    (c.beginWork k).1.Matches (d.beginWork k).1 ∧ (c.beginWork k).2.Alike (d.beginWork k).2 := by
  obtain ⟨cluster, workers, rfl, hcluster, hworkers⟩ := h.eq
  have hprogress : inProgress { c with cluster := cluster, workers := workers } k =
      c.inProgress k := by
    have hmap := Worker.matches_map Worker.Matches.key?_eq hworkers
    simpa only [inProgress, List.any_map, Function.comp_def] using
      congrArg (·.any fun key => key = some k) hmap
  simp only [Controller.beginWork, informer, hprogress]
  cases dutyFor c.config.finalizer (c.feed.informer.cache.get? k) with
  | nothing => exact ⟨.done _, h⟩
  | claim w f => exact ⟨Job.matches_lift (blind_claim w f), h⟩
  | reconcile w =>
    refine ⟨(h.blind w c.memory).1.bind fun ending => ?_, h.blind, ?_, hworkers, rfl⟩
    · exact Job.matches_lift (blind_afterReconcile w ending)
    · exact alike_noteBegin hcluster _ _ _ _
  | finalize w f =>
    refine ⟨(h.blind w c.memory).2.bind fun ending => ?_, h.blind, ?_, hworkers, rfl⟩
    · exact Job.matches_lift (blind_afterFinalize w f ending)
    · exact alike_noteBegin hcluster _ _ _ _

lemma Alike.release (h : c.Alike d) (n : Nat) (k : ObjectKey) (ending : Ending Outcome) :
    (c.release n k ending).Alike (d.release n k ending) := by
  obtain ⟨cluster, workers, rfl, hcluster, hworkers⟩ := h.eq
  have hset (w : Worker) (hw : w.job? = none) := Worker.matches_set hworkers (.same hw) n
  simp only [Controller.release]
  cases ending.retry with
  | none => exact ⟨h.blind, hcluster, hset .idle rfl, rfl⟩
  | some delay =>
    simp only
    rcases c.queue.endForRetry k delay with ⟨_ | left, change⟩
    · exact ⟨h.blind, hcluster, hset .idle rfl, rfl⟩
    · exact ⟨h.blind, hcluster, hset (.returning k left) rfl, rfl⟩

lemma Alike.bringBack (h : c.Alike d) (n : Nat) (k : ObjectKey) (delay : Duration) :
    (c.bringBack n k delay).Alike (d.bringBack n k delay) := by
  obtain ⟨cluster, workers, rfl, hcluster, hworkers⟩ := h.eq
  have hset := Worker.matches_set hworkers (.same (w := .idle) rfl) n
  simp only [Controller.bringBack]
  cases (c.queue.comeBack k delay).putOff with
  | none => exact ⟨h.blind, hcluster, hset, rfl⟩
  | some delayed => exact ⟨h.blind, hcluster, hset, rfl⟩

lemma Alike.reschedule (h : c.Alike d) (f : Agenda ControllerTask → Agenda ControllerTask)
    (current : Option ControllerTask) :
    Alike { c with agenda := f c.agenda, current := current }
      { d with agenda := f d.agenda, current := current } := by
  obtain ⟨cluster, workers, rfl, hcluster, hworkers⟩ := h.eq
  exact ⟨h.blind, hcluster, hworkers, rfl⟩

/-- The work of two workers goes on alike until it sleeps or ends. -/
lemma Alike.stepBusy (h : c.Alike d) {n : Nat} {k : ObjectKey} {j j' : Task Outcome}
    (hj : j.Matches j') (hc : c.workers[n]? = some (.busy k j))
    (hd : d.workers[n]? = some (.busy k j')) : SameStep (c.stepWorker n) (d.stepWorker n) := by
  -- the work goes on up to its next sleep, so this one step may record any number of events
  obtain ⟨hpause, hcluster⟩ := hj.advance h.cluster
  simp only [stepWorker, hc, hd]
  generalize j.advance c.cluster = p at hpause hcluster
  generalize j'.advance d.cluster = p' at hpause hcluster
  rcases p with ⟨pause, e⟩
  rcases p' with ⟨pause', e'⟩
  simp only at hpause hcluster
  cases hpause with
  | finished ending => exact ⟨rfl, (h.setCluster hcluster).setWorker n (.same rfl)⟩
  | asleep duration hnext =>
    have hset := (h.setCluster hcluster).setWorker n (.asleep k hnext)
    obtain ⟨cluster, workers, heq, hcluster, hworkers⟩ := hset.eq
    simp only [heq]
    exact ⟨rfl, hset.blind, hcluster, hworkers, rfl⟩

lemma Alike.stepWorker (h : c.Alike d) (n : Nat) :
    SameStep (c.stepWorker n) (d.stepWorker n) := by
  have hn := Worker.matches_getElem? h.workers n
  rcases hc : c.workers[n]? with _ | w <;> rcases hd : d.workers[n]? with _ | w' <;>
    rw [hc, hd] at hn
  · simp only [Controller.stepWorker, hc, hd]
    exact ⟨rfl, h⟩
  · cases hn
  · cases hn
  obtain ⟨hw⟩ := hn
  cases hw with
  | busy k hj => exact h.stepBusy hj hc hd
  | asleep k hj =>
    simp only [Controller.stepWorker, hc, hd]
    exact ⟨rfl, h.setWorker n (.busy k hj)⟩
  | same hjob =>
    simp only [Controller.stepWorker, hc, hd]
    cases w with
    | busy k j => simp [Worker.job?] at hjob
    | asleep k j => simp [Worker.job?] at hjob
    | exited => exact ⟨rfl, h⟩
    | leaving k ending => exact ⟨rfl, h.release n k ending⟩
    | returning k delay => exact ⟨rfl, h.bringBack n k delay⟩
    | holding k =>
      have hbegin := (h.setWorker n (.same (w := .idle) rfl)).beginWork k
      exact ⟨rfl, hbegin.2.setWorker n (.busy k hbegin.1)⟩
    | idle =>
      have hset (w : Worker) (hw : w.job? = none) := h.setWorker n (.same hw)
      obtain ⟨cluster, workers, rfl, hcluster, hworkers⟩ := h.eq
      rcases c.queue.turn n with ⟨k, q⟩ | q | q
      · exact ⟨rfl, h.blind, hcluster, (hset (.holding k) rfl).workers, rfl⟩
      · exact ⟨rfl, h.blind, hcluster, (hset .exited rfl).workers, rfl⟩
      · exact ⟨rfl, h.blind, hcluster, hworkers, rfl⟩

/-- One step of any task. -/
lemma Alike.step (h : c.Alike d) (task : ControllerTask) : SameStep (c.step task) (d.step task) := by
  cases task with
  | informer => exact h.stepInformer
  | dispatcher => exact h.stepDispatcher
  | worker n => exact h.stepWorker n
  | delayed ticket => exact h.stepDelayed ticket
  | supervisor => exact h.stepSupervisor

/-! ### What is seen of a move -/

/-- The call of the reconciler that something that happens leads to, with the object it is made
with. -/
def called (c : Controller σ α) : ControllerMove α → Option (Purpose × α)
  | .step (.worker n) =>
    match c.workers[n]? with
    | some (.holding k) =>
      match dutyFor c.config.finalizer (c.informer.cache.get? k) with
      | .reconcile w => some (.reconcile, w)
      | .finalize w _ => some (.finalize, w)
      | _ => none
    | _ => none
  | _ => none

lemma Alike.called_eq (h : c.Alike d) (m : ControllerMove α) : d.called m = c.called m := by
  rcases m with task | _ | _ | _ | _ | _ | _
  · cases task with
    | worker n =>
      have hn := Worker.matches_getElem? h.workers n
      have hinformer : d.informer = c.informer := by rw [h.same]; rfl
      have hconfig : d.config = c.config := by rw [h.same]
      simp only [called, hinformer, hconfig]
      generalize c.workers[n]? = w at hn
      generalize d.workers[n]? = w' at hn
      cases hn with
      | none => rfl
      | some hw => cases hw <;> rfl
    | _ => rfl
  all_goals rfl

lemma Alike.asked_eq (h : c.Alike d) (m : ControllerMove α) : d.asked m = c.asked m := by
  have hn (n : Nat) := Worker.matches_getElem? h.workers n
  obtain ⟨cluster, workers, rfl, -, -⟩ := h.eq
  rcases m with task | _ | _ | _ | _ | _ | _
  · cases task with
    | worker n =>
      specialize hn n
      simp only [asked, askOf]
      generalize c.workers[n]? = w at hn
      generalize workers[n]? = w' at hn
      cases hn with
      | none => rfl
      | some hw => cases hw <;> rfl
    | _ => rfl
  all_goals rfl

end Controller

/-- What can be seen of something that happens to a controller without a look at events. -/
structure Deeds (α : Type) where
  called : Option (Purpose × α)
  asked : Option (QueueMove ObjectKey)
  /-- How often each key has failed in a row, afterwards. -/
  failures : List (ObjectKey × Nat)
  tally : Metrics.Tally
  /-- The requests made on other collections than that of events, with what came of them. -/
  requests : List Call
  widgets : List (WatchEvent Widget)
  deployments : List (WatchEvent Deployment)
  configMaps : List (WatchEvent ConfigMap)

namespace Deeds

variable {σ α : Type} [Resource α] [Collection α]

/-- What has come to a list. -/
def new {β : Type} (before after : List β) : List β := after.drop before.length

/-- What can be seen of a move that leads from one controller to another. -/
def between (c : Controller σ α) (m : ControllerMove α) (d : Controller σ α) : Deeds α where
  called := c.called m
  asked := c.asked m
  failures := d.queue.backoff.failures
  tally := d.tally
  -- a step only adds to the notes of requests, at their end
  requests := new (c.cluster.journal.calls.filter Call.elsewhere)
    (d.cluster.journal.calls.filter Call.elsewhere)
  widgets := new c.cluster.widgets.published d.cluster.widgets.published
  deployments := new c.cluster.deployments.published d.cluster.deployments.published
  configMaps := new c.cluster.configMaps.published d.cluster.configMaps.published

end Deeds

/-- What a reconciler remembers after a call. -/
def Reconciler.remember {σ α : Type} (r : Reconciler σ α) (memory : σ) : Purpose × α → σ
  | (.reconcile, w) => (r.reconcile w memory).2
  | (.finalize, w) => (r.finalize w memory).2

/-! ## Runs -/

/-- Two things that happen alike: they are the same, or surroundings that differ in their events. -/
inductive ControllerMove.Alike {α : Type} : ControllerMove α → ControllerMove α → Prop
  | same (m : ControllerMove α) : Alike m m
  | surround {c d : Cluster} (h : c.Alike d) : Alike (.surround c) (.surround d)

namespace Observed

variable {σ α : Type} [Resource α] [Collection α] [Collection.Plain α] {x y : Observed σ α}
  {m m' : ControllerMove α}

lemma alike_progress (h : x.controller.Alike y.controller) (n : Nat) :
    (x.move (.progress n)).controller.Alike (y.move (.progress n)).controller := by
  have hn := Worker.matches_getElem? h.workers n
  simp only [move]
  generalize x.controller.workers[n]? = w at hn
  generalize y.controller.workers[n]? = w' at hn
  cases hn with
  | none => exact h
  | @some v _ hw =>
    cases hw with
    | asleep k hj => exact h
    | busy k hj =>
      cases hj with
      | done b => exact h
      | sleep duration hj => exact h
      | act heffect hnext =>
        refine (h.setCluster (heffect _ _ h.cluster)).setWorker n (.busy k ?_)
        exact hnext _ _ h.cluster
    | same hjob =>
      cases v with
      | busy k j => simp [Worker.job?] at hjob
      | _ => exact h

/-- One step of both runs. -/
lemma alike_move (h : x.controller.Alike y.controller) (hm : m.Alike m') :
    (x.move m).controller.Alike (y.move m').controller := by
  have hset {c d : Cluster} (hcd : c.Alike d) (f : Store α → Store α) :
      (x.controller.setCluster (Collection.setStore c (f x.controller.store))).Alike
        (y.controller.setCluster (Collection.setStore d (f y.controller.store))) := by
    rw [Controller.store, Controller.store, Collection.Plain.store_eq h.cluster]
    exact h.setCluster (Collection.Plain.setStore _ hcd)
  cases hm with
  | surround hcd => exact hset hcd fun s => s
  | same m =>
    cases m with
    | step task => exact (h.step task).2
    | progress n => exact alike_progress h n
    | act action =>
      exact hset h.cluster (·.act action)
    | surround cluster =>
      exact hset (.refl cluster) fun s => s
    | enqueue k =>
      simp only [move, Controller.enqueue, h.queue_eq]
      exact h.applyQueue _
    | stop =>
      obtain ⟨cluster, workers, heq, hcluster, hworkers⟩ := h.eq
      simp only [move, Controller.stop, heq]
      exact ⟨h.blind, hcluster, hworkers, rfl⟩
    | schedule agenda current => exact h.reschedule (fun _ => agenda) current

/-- What can be seen of a run, move by move. -/
def deeds (x : Observed σ α) : List (ControllerMove α) → List (Deeds α)
  | [] => []
  | m :: moves => .between x.controller m (x.move m).controller :: (x.move m).deeds moves

lemma deeds_move_eq (h : x.controller.Alike y.controller) (hm : m.Alike m') :
    Deeds.between y.controller m' (y.move m').controller =
      Deeds.between x.controller m (x.move m).controller := by
  have hafter := alike_move h hm
  have hcalled : y.controller.called m' = x.controller.called m := by
    cases hm with
    | same m => exact h.called_eq m
    | surround _ => rfl
  have hasked : y.controller.asked m' = x.controller.asked m := by
    cases hm with
    | same m => exact h.asked_eq m
    | surround _ => rfl
  simp only [Deeds.between, hcalled, hasked, hafter.queue_eq, hafter.tally_eq, h.cluster.calls,
    h.cluster.widgets, h.cluster.deployments, h.cluster.configMaps, hafter.cluster.calls,
    hafter.cluster.widgets, hafter.cluster.deployments, hafter.cluster.configMaps]

/-- Whole runs: the same is seen of both, and they end alike. -/
lemma alike_after (h : x.controller.Alike y.controller) {moves moves' : List (ControllerMove α)}
    (hmoves : moves.Forall₂ ControllerMove.Alike moves') :
    (x.after moves).controller.Alike (y.after moves').controller ∧
      y.deeds moves' = x.deeds moves := by
  induction hmoves generalizing x y with
  | nil => exact ⟨h, rfl⟩
  | cons hm _ ih =>
    obtain ⟨hend, hdeeds⟩ := ih (alike_move h hm)
    exact ⟨hend, by rw [deeds, deeds, deeds_move_eq h hm, hdeeds]⟩

/-! ### Calls of the reconciler -/

/-- A worker calls the reconciler only as it begins on a key. -/
lemma memory_stepWorker (c : Controller σ α) (n : Nat) :
    (c.stepWorker n).1.reconciler = c.reconciler ∧
      (c.stepWorker n).1.memory =
        (c.called (.step (.worker n))).elim c.memory (c.reconciler.remember c.memory) := by
  -- only a worker that holds a key looks at the copy, and only then may it call
  rcases hn : c.workers[n]? with _ | w
  · simp only [Controller.stepWorker, Controller.called, hn]
    exact ⟨trivial, rfl⟩
  by_cases hholding : ∃ k, w = .holding k
  · obtain ⟨k, rfl⟩ := hholding
    simp only [Controller.stepWorker, Controller.called, hn, Controller.beginWork,
      Controller.setWorker, Controller.informer]
    cases Controller.dutyFor c.config.finalizer (c.feed.informer.cache.get? k) <;> exact ⟨rfl, rfl⟩
  have hcalled : c.called (.step (.worker n)) = none := by
    simp only [Controller.called, hn]
    cases w with
    | holding k => exact absurd ⟨k, rfl⟩ hholding
    | _ => rfl
  rw [hcalled]
  by_cases hbusy : ∃ k job, w = .busy k job
  · obtain ⟨k, job, rfl⟩ := hbusy
    rcases hadvance : job.advance c.cluster with ⟨ending | ⟨d, next⟩, cluster⟩ <;>
      obtain ⟨agenda, heq⟩ := c.setCluster_eq cluster <;>
      simp only [Controller.stepWorker, hn, hadvance, heq]
    · exact ⟨rfl, rfl⟩
    · exact ⟨rfl, rfl⟩
  · push Not at hholding hbusy
    obtain ⟨v, queue, tally, agenda, -, heq⟩ := c.stepWorker_rest hn hholding hbusy
    rw [heq]
    exact ⟨rfl, rfl⟩

lemma memory_move (x : Observed σ α) (m : ControllerMove α) :
    (x.move m).controller.reconciler = x.controller.reconciler ∧
      (x.move m).controller.memory =
        (x.controller.called m).elim x.controller.memory
          (x.controller.reconciler.remember x.controller.memory) := by
  by_cases hworker : ∃ n, m = .step (.worker n)
  · obtain ⟨n, rfl⟩ := hworker
    exact memory_stepWorker x.controller n
  push Not at hworker
  have hcalled : x.controller.called m = none := by
    unfold Controller.called
    split
    next n => exact absurd rfl (hworker n)
    · rfl
  rw [hcalled]
  by_cases hprogress : ∃ n, m = .progress n
  · obtain ⟨n, rfl⟩ := hprogress
    simp only [move]
    split
    next k effect next _ =>
      obtain ⟨agenda, heq⟩ := x.controller.setCluster_eq (effect x.controller.cluster)
      simp only [heq]
      exact ⟨rfl, rfl⟩
    · exact ⟨rfl, rfl⟩
  · push Not at hprogress
    obtain ⟨hsteady, -⟩ := x.move_steady fun n => ⟨hworker n, hprogress n⟩
    exact ⟨hsteady.reconciler, hsteady.memory⟩

/-- The calls that are seen of a run are all that the reconciler gets. -/
lemma memory_after (x : Observed σ α) (moves : List (ControllerMove α)) :
    (x.after moves).controller.memory =
      ((x.deeds moves).filterMap Deeds.called).foldl x.controller.reconciler.remember
        x.controller.memory := by
  induction moves generalizing x with
  | nil => rfl
  | cons m moves ih =>
    obtain ⟨hreconciler, hmemory⟩ := x.memory_move m
    refine (ih (x.move m)).trans ?_
    rw [hreconciler, hmemory, deeds, List.filterMap_cons]
    cases hcalled : x.controller.called m <;> simp [Deeds.between, hcalled]

/-! ### The runs that controllers make by themselves -/

/-- Two controllers come from two others by runs that go alike, whatever has been noted before. -/
def BothReach (c d c' d' : Controller σ α) : Prop :=
  ∀ notes notes', ∃ moves moves' : List (ControllerMove α),
    moves.Forall₂ ControllerMove.Alike moves' ∧
      (∃ n, after ⟨c, notes⟩ moves = ⟨c', n⟩) ∧ ∃ n, after ⟨d, notes'⟩ moves' = ⟨d', n⟩

variable {c d c' d' : Controller σ α}

lemma BothReach.alike (h : c.Alike d) (hreach : BothReach c d c' d') : c'.Alike d' := by
  obtain ⟨moves, moves', hmoves, ⟨n, hc⟩, ⟨n', hd⟩⟩ := hreach [] []
  have hafter := (alike_after (x := ⟨c, []⟩) (y := ⟨d, []⟩) h hmoves).1
  rw [hc, hd] at hafter
  exact hafter

lemma BothReach.refl (c d : Controller σ α) : BothReach c d c d :=
  fun notes notes' => ⟨[], [], .nil, ⟨notes, rfl⟩, ⟨notes', rfl⟩⟩

lemma BothReach.trans {c'' d'' : Controller σ α} (h : BothReach c d c' d')
    (h' : BothReach c' d' c'' d'') : BothReach c d c'' d'' := by
  intro notes notes'
  obtain ⟨moves, moves', hmoves, ⟨n, hc⟩, ⟨n', hd⟩⟩ := h notes notes'
  obtain ⟨more, more', hmore, ⟨k, hc'⟩, ⟨k', hd'⟩⟩ := h' n n'
  refine ⟨moves ++ more, moves' ++ more', List.rel_append hmoves hmore, ⟨k, ?_⟩, ⟨k', ?_⟩⟩
  · rw [after, List.foldl_append, ← after, ← after, hc, hc']
  · rw [after, List.foldl_append, ← after, ← after, hd, hd']

lemma bothReach_step (c d : Controller σ α) (task : ControllerTask) :
    BothReach c d (c.step task).1 (d.step task).1 :=
  fun _ _ => ⟨[.step task], [.step task], .cons (.same _) .nil, ⟨_, rfl⟩, ⟨_, rfl⟩⟩

lemma bothReach_schedule (h : c.Alike d) (f : Agenda ControllerTask → Agenda ControllerTask)
    (current : Option ControllerTask) :
    BothReach c d { c with agenda := f c.agenda, current := current }
      { d with agenda := f d.agenda, current := current } := by
  intro notes notes'
  refine ⟨[.schedule (f c.agenda) current], [.schedule (f d.agenda) current], .cons ?_ .nil,
    ⟨_, rfl⟩, ⟨_, rfl⟩⟩
  rw [h.agenda_eq]
  exact .same _

lemma bothReach_moveTo (h : c.Alike d) (time : Duration) :
    BothReach c d (c.moveTo time) (d.moveTo time) := by
  intro notes notes'
  have hclusters : Cluster.Alike { c.cluster with time := time } { d.cluster with time := time } :=
    { h.cluster with time := rfl }
  refine ⟨_, _, .cons (.surround hclusters) (.cons ?_ .nil), ⟨_, after_moveTo c time notes⟩,
    ⟨_, after_moveTo d time notes'⟩⟩
  rw [h.agenda_eq, h.current_eq]
  exact .same _

lemma bothReach_turn (h : c.Alike d) :
    (c.turn = none ∧ d.turn = none) ∨
      ∃ c' d', c.turn = some c' ∧ d.turn = some d' ∧ BothReach c d c' d' := by
  -- the task at work, the line and the timers are the same, so both choose alike
  simp only [Controller.turn, h.agenda_eq, h.current_eq]
  cases c.current with
  | some task =>
    have hstep := h.step task
    have hreach := bothReach_step c d task
    rcases hc : c.step task with ⟨c', progress⟩
    rcases hd : d.step task with ⟨d', progress'⟩
    rw [hc, hd] at hstep hreach
    obtain ⟨rfl, hnext⟩ : progress' = progress ∧ c'.Alike d' := hstep
    simp only [hc, hd]
    cases progress' with
    | again => exact .inr ⟨c', d', rfl, rfl, hreach⟩
    | blocked =>
      exact .inr ⟨_, _, rfl, rfl, hreach.trans (bothReach_schedule hnext id none)⟩
  | none =>
    simp only
    cases c.agenda.ready with
    | cons task rest => exact .inr ⟨_, _, rfl, rfl, bothReach_schedule h (fun _ => c.agenda.pop) _⟩
    | nil =>
      simp only
      cases c.agenda.nextDeadline with
      | none => exact .inl ⟨rfl, rfl⟩
      | some t =>
        by_cases ht : t ≤ c.agenda.now
        · simp only [ht, if_true]
          exact .inr ⟨_, _, rfl, rfl, bothReach_moveTo h _⟩
        · simp only [ht, if_false]
          exact .inl ⟨trivial, trivial⟩

lemma bothReach_turns (h : c.Alike d) (n : Nat) : BothReach c d (c.turns n) (d.turns n) := by
  induction n generalizing c d with
  | zero => exact .refl c d
  | succ n ih =>
    obtain ⟨hc, hd⟩ | ⟨c', d', hc, hd, hreach⟩ := bothReach_turn h
    · rw [Controller.turns, Controller.turns, hc, hd]
      exact .refl c d
    · rw [Controller.turns, Controller.turns, hc, hd]
      exact hreach.trans (ih (hreach.alike h))

lemma bothReach_runUntil (h : c.Alike d) (target : Duration) (n : Nat) :
    BothReach c d (Controller.runUntil target n c) (Controller.runUntil target n d) := by
  induction n generalizing c d with
  | zero => exact .refl c d
  | succ n ih =>
    rw [Controller.runUntil, Controller.runUntil, h.agenda_eq]
    cases c.agenda.nextDeadline with
    | none => exact bothReach_moveTo h target
    | some t =>
      by_cases ht : t ≤ target
      · have hmove := bothReach_moveTo h t
        have hrest := hmove.trans (bothReach_turns (hmove.alike h) Controller.turnLimit)
        simp only [ht, if_true]
        exact hrest.trans (ih (hrest.alike h))
      · simp only [ht, if_false]
        exact bothReach_moveTo h target

lemma bothReach_advance (h : c.Alike d) (duration : Duration) :
    BothReach c d (c.advance duration) (d.advance duration) := by
  rw [Controller.advance, Controller.advance, h.agenda_eq]
  exact bothReach_runUntil h _ _

/-! ## Events do not matter -/

/-- Whatever comes of recording events, in two runs that have everything else in common: the reconciler
gets the same calls, the queue is asked the same with the same delays, failures are counted alike, and
the same requests are made and written. The calls seen are all that the reconciler gets. Both runs stay
alike as time passes, from wherever they have come to. -/
theorem events_unseen (config : ControllerConfig) (predicate : Predicate α)
    {reconciler : Reconciler σ α} (hr : reconciler.Blind) (memory : σ) {c d : Cluster}
    (hcd : c.Alike d) {moves moves' : List (ControllerMove α)}
    (hmoves : moves.Forall₂ ControllerMove.Alike moves') :
    let x : Observed σ α := { controller := .start config predicate reconciler memory c }
    let y : Observed σ α := { controller := .start config predicate reconciler memory d }
    y.deeds moves' = x.deeds moves ∧
    (x.after moves).controller.Alike (y.after moves').controller ∧
    (x.after moves).controller.memory =
      ((x.deeds moves).filterMap Deeds.called).foldl reconciler.remember memory ∧
    ∀ duration, ∃ more more',
      (x.after (moves ++ more)).controller = (x.after moves).controller.advance duration ∧
      (y.after (moves' ++ more')).controller = (y.after moves').controller.advance duration ∧
      y.deeds (moves' ++ more') = x.deeds (moves ++ more) := by
  intro x y
  have hstart : x.controller.Alike y.controller :=
    Controller.alike_start config predicate hr memory hcd
  obtain ⟨hafter, hdeeds⟩ := alike_after hstart hmoves
  refine ⟨hdeeds, hafter, memory_after x moves, fun duration => ?_⟩
  obtain ⟨more, more', hmore, ⟨n, hc⟩, ⟨n', hd⟩⟩ :=
    bothReach_advance hafter duration (x.after moves).notes (y.after moves').notes
  refine ⟨more, more', ?_, ?_, (alike_after hstart (List.rel_append hmoves hmore)).2⟩
  · rw [after, List.foldl_append, ← after, ← after, hc]
  · rw [after, List.foldl_append, ← after, ← after, hd]

/-- A widget is marked for removal. Cleaning up fails at first; then it succeeds, and the finalizer is
taken. -/
def cleanedUpTwice : List (ControllerMove Widget) :=
  let k : ObjectKey := ⟨some "a", "w"⟩
  let steps (n : Nat) (task : ControllerTask) : List (ControllerMove Widget) :=
    List.replicate n (.step task)
  [.act (.create ⟨{ seconds := 0 }, "1"⟩ (some "a")
      { metadata := { name := some "w", finalizers := some ["f"] }, spec := { replicas := 1 } }),
    .act (.delete { seconds := 1 } k)] ++
  steps 2 .informer ++ steps 1 .dispatcher ++ steps 5 (.worker 0) ++ [.enqueue k] ++
  steps 4 (.worker 0)

/-- A cluster on which the first event is recorded and the second one is refused. -/
def secondRefused : Cluster :=
  let c := Cluster.new { seconds := 0 } "controller"
  { c with
    faults := [⟨.events, .create, none⟩, ⟨.events, .create, some (.transient "down")⟩] ++ c.faults }

/-- Cleaning up is done at the second attempt only. -/
def secondAttempt : Script where
  finalize := [("w", [{ finish := .fail (.other "not yet") }])]

/-- A controller that cleans up before it lets a widget go. -/
def cautious (cluster : Cluster) : Controller Script :=
  .start { workers := 1, finalizer := some "f" } .always Script.reconciler secondAttempt cluster

set_option maxRecDepth 4000 in
lemma cautious_after :
    let x : Observed Script := { controller := cautious (.new { seconds := 0 } "controller") }
    let y : Observed Script := { controller := cautious secondRefused }
    ((x.deeds cleanedUpTwice).filterMap Deeds.called).map Prod.fst = [.finalize, .finalize] ∧
    ((x.deeds cleanedUpTwice).filterMap Deeds.asked).contains (.requeue ⟨some "a", "w"⟩ none) ∧
    (x.after cleanedUpTwice).controller.cluster.widgets.objects.get? ⟨some "a", "w"⟩ = none ∧
    (x.after cleanedUpTwice).controller.cluster.events.published.length = 2 ∧
    (y.after cleanedUpTwice).controller.cluster.events.published.length = 1 := by
  decide +kernel

/-- The event of the removal is refused right after the finalizer was taken, and nothing else differs. -/
theorem events_unseen_secondRefused :
    let x : Observed Script := { controller := cautious (.new { seconds := 0 } "controller") }
    let y : Observed Script := { controller := cautious secondRefused }
    ((x.after cleanedUpTwice).controller.cluster.events.published.length = 2 ∧
      (y.after cleanedUpTwice).controller.cluster.events.published.length = 1) ∧
    ((y.deeds cleanedUpTwice).filterMap Deeds.called).map Prod.fst = [.finalize, .finalize] ∧
    ((y.deeds cleanedUpTwice).filterMap Deeds.asked).contains (.requeue ⟨some "a", "w"⟩ none) ∧
    (y.after cleanedUpTwice).controller.cluster.widgets.objects.get? ⟨some "a", "w"⟩ = none ∧
    y.deeds cleanedUpTwice = x.deeds cleanedUpTwice := by
  have hmoves : cleanedUpTwice.Forall₂ ControllerMove.Alike cleanedUpTwice :=
    List.forall₂_same.mpr fun m _ => .same m
  have hclusters : (Cluster.new { seconds := 0 } "controller").Alike secondRefused :=
    Cluster.alike_faults _ (by decide)
  obtain ⟨hcalled, hasked, hgone, hevents, hfewer⟩ := cautious_after
  obtain ⟨hdeeds, hafter, -⟩ := events_unseen { workers := 1, finalizer := some "f" } .always
    Script.reconciler_blind secondAttempt hclusters hmoves
  rw [← cautious, ← cautious] at hdeeds hafter
  refine ⟨⟨hevents, hfewer⟩, ?_, ?_, ?_, hdeeds⟩
  · rw [hdeeds]
    exact hcalled
  · rw [hdeeds]
    exact hasked
  · rw [hafter.cluster.widgets]
    exact hgone

end Observed

end ControlLoop
