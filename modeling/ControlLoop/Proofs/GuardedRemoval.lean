import ControlLoop.Proofs.ControllerRuns
import ControlLoop.Proofs.FinalizerWrites

/-!
# Removal waits for the finalizer

A controller that is configured with a finalizer takes it from an object only after the reconciler has
cleaned up, and only by a write that is conditional on the copy that the reconciler was called with. An
object that has the finalizer is not removed, so it stays until then. `Attended` is a run in which the
work of every worker is followed action by action: the calls of the reconciler and what comes of them
are noted, and so are the events that the controller itself has published.
-/
set_option linter.unusedSectionVars false

namespace ControlLoop

/-! ## Errands -/

/-- What a worker does for an object: the call of the reconciler that it has begun, with what is left of
the work, or the claim that comes before any call. -/
inductive Errand (α : Type) where
  | reconcile (copy : α) (rest : Task Outcome)
  | finalize (copy : α) (finalizer : String) (rest : Task Unit)
  | claim (copy : α) (finalizer : String)

namespace Errand

variable {α : Type}

/-- All that a worker has still to do on an errand. -/
def job [Resource α] [Collection α] : Errand α → Task Outcome
  | reconcile w rest => rest.bind fun ending => .lift (Controller.afterReconcile w ending)
  | finalize w f rest => rest.bind fun ending => .lift (Controller.afterFinalize w f ending)
  | claim w f => .lift (Controller.claim w f)

/-- What is left after an action or a rest. The last action is not the reconciler's but that of the
controller. -/
def next (c : Cluster) : Errand α → Option (Errand α)
  | reconcile w (.act _ rest) => some (.reconcile w (rest c))
  | reconcile w (.sleep _ rest) => some (.reconcile w rest)
  | finalize w f (.act _ rest) => some (.finalize w f (rest c))
  | finalize w f (.sleep _ rest) => some (.finalize w f rest)
  | _ => none

/-- Whether the reconciler has returned, or was not called, so that the controller acts itself. -/
def isOwn : Errand α → Bool
  | reconcile _ (.done _) => true
  | finalize _ _ (.done _) => true
  | claim _ _ => true
  | _ => false

/-- The copy that the reconciler has cleaned up after. -/
def cleaned : Errand α → List α
  | finalize w _ (.done (.returned ())) => [w]
  | _ => []

def copy : Errand α → α
  | reconcile w _ => w
  | finalize w _ _ => w
  | claim w _ => w

variable [Resource α] [Collection α]

/-- A worker on an errand has to do what is left of it; one without an errand has nothing to do. -/
def Suits (errand : Option (Errand α)) (w : Worker) : Prop :=
  match errand with
  | some e => w.job? = some e.job
  | none => ∀ job, w.job? = some job → ∃ ending, job = .done ending

lemma suits_congr {errand : Option (Errand α)} {v w : Worker} (h : v.job? = w.job?) :
    Suits errand v ↔ Suits errand w := by
  unfold Suits
  rw [h]

variable {e e' : Errand α} {effect : Cluster → Cluster} {rest : Cluster → Task Outcome} {c : Cluster}

/-- After an action of its work, the worker is on what is left of the errand. -/
lemma suits_of_act (h : e.job = .act effect rest) (k : ObjectKey) (c : Cluster) :
    Suits (e.next c) (.busy k (rest c)) := by
  cases e with
  | reconcile w task | finalize w f task =>
    cases task with
    | done ending =>
      obtain ⟨-, rfl⟩ := Job.act.inj h
      exact fun job hjob => ⟨_, (Option.some.inj hjob).symm⟩
    | act effect' rest' =>
      obtain ⟨-, rfl⟩ := Job.act.inj h
      rfl
    | sleep d task => exact absurd h (by simp [job, Job.bind])
  | claim w f =>
    obtain ⟨-, rfl⟩ := Job.act.inj h
    exact fun job hjob => ⟨_, (Option.some.inj hjob).symm⟩

lemma suits_of_sleep {d : Duration} {task : Task Outcome} (h : e.job = .sleep d task)
    (k : ObjectKey) (c : Cluster) : Suits (e.next c) (.asleep k task) := by
  cases e with
  | reconcile w task' | finalize w f task' =>
    cases task' with
    | done ending => exact absurd h (by simp [job, Job.bind, Job.lift])
    | act effect' rest' => exact absurd h (by simp [job, Job.bind])
    | sleep d' task' =>
      obtain ⟨-, rfl⟩ := Job.sleep.inj h
      rfl
  | claim w f => exact absurd h (by simp [job, Job.lift])

/-- An errand always ends with an action of the controller. -/
lemma job_ne_done (e : Errand α) (ending : Ending Outcome) : e.job ≠ .done ending := by
  cases e with
  | reconcile w task | finalize w f task => cases task <;> simp [job, Job.bind, Job.lift]
  | claim w f => simp [job, Job.lift]

end Errand

/-! ## Calls of the reconciler -/

/-- A call of the reconciler with a copy of an object. -/
structure ReconcilerCall (α : Type) where
  purpose : Purpose
  copy : α

/-- Calls are made with copies that have the finalizer: for cleaning up if the object is terminating,
and else for reconciling. -/
def ReconcilerCall.Proper {α : Type} [Resource α] (f : String) (call : ReconcilerCall α) : Prop :=
  Finalizer.has call.copy f = true ∧
    (Resource.isTerminating call.copy = true ↔ call.purpose = .finalize)

/-- What a reconciler remembers after calls, of which the latest is the first. -/
def Reconciler.recall {σ α : Type} (r : Reconciler σ α) (memory : σ) : List (ReconcilerCall α) → σ
  | [] => memory
  | ⟨.reconcile, a⟩ :: earlier => (r.reconcile a (r.recall memory earlier)).2
  | ⟨.finalize, a⟩ :: earlier => (r.finalize a (r.recall memory earlier)).2

/-- An errand as the duty for an object demands it. -/
structure Errand.Fit {α : Type} [Resource α] [Collection α] (f : String) (s : Store α)
    (calls : List (ReconcilerCall α)) (e : Errand α) : Prop where
  published : s.HasPublished e.copy
  orderly : e.job.Orderly α
  duty : match e with
    | .reconcile _ _ => True
    | .finalize w g _ => g = f ∧ ⟨.finalize, w⟩ ∈ calls
    | .claim w g => g = f ∧ Finalizer.has w f = false

namespace Errand.Fit

variable {α : Type} [Resource α] [Collection α] {f : String} {s t : Store α}
  {calls calls' : List (ReconcilerCall α)} {e e' : Errand α} {c : Cluster}

lemma mono (h : e.Fit f s calls) (hs : s.published <+: t.published) (hcalls : calls ⊆ calls') :
    e.Fit f t calls' := by
  refine ⟨h.published.of_isPrefix hs, h.orderly, ?_⟩
  have hduty := h.duty
  cases e with
  | reconcile w task => trivial
  | finalize w g task => exact ⟨hduty.1, hcalls hduty.2⟩
  | claim w g => exact hduty

lemma next (h : e.Fit f s calls) (hnext : e.next c = some e') : e'.Fit f s calls := by
  cases e with
  | reconcile w task | finalize w g task =>
    cases task with
    | done ending => simp [Errand.next] at hnext
    | act effect rest =>
      obtain rfl := Option.some.inj hnext
      exact ⟨h.published, h.orderly.2 c, h.duty⟩
    | sleep d task =>
      obtain rfl := Option.some.inj hnext
      exact ⟨h.published, h.orderly, h.duty⟩
  | claim w g => simp [Errand.next] at hnext

lemma called (h : e.Fit f s calls) {w : α} (hw : w ∈ e.cleaned) : ⟨.finalize, w⟩ ∈ calls := by
  unfold cleaned at hw
  split at hw
  · obtain rfl := List.mem_singleton.mp hw
    exact h.duty.2
  · simp at hw

/-- By its own action the controller takes the finalizer only from an object that the reconciler has
cleaned up after. -/
lemma takesOnly [LawfulResource α] [LawfulCollection α] [EventFree α] (h : e.Fit f s calls)
    (hown : e.isOwn = true) {effect : Cluster → Cluster} {rest : Cluster → Task Outcome}
    (hjob : e.job = .act effect rest) (c : Cluster) : c.TakesOnly f e.copy (e.copy ∈ e.cleaned)
      (effect c) := by
  have hduty := h.duty
  cases e with
  | reconcile w task =>
    cases task with
    | done ending =>
      obtain ⟨rfl, -⟩ := Job.act.inj hjob
      exact Controller.takesOnly_afterReconcile ending c
    | act | sleep => simp [Errand.isOwn] at hown
  | finalize w g task =>
    obtain ⟨rfl, -⟩ := hduty
    cases task with
    | done ending =>
      obtain ⟨rfl, -⟩ := Job.act.inj hjob
      refine Controller.takesOnly_afterFinalize (fun hending => ?_) c
      rw [hending]
      exact List.mem_singleton_self w
    | act | sleep => simp [Errand.isOwn] at hown
  | claim w g =>
    obtain ⟨rfl, hlacks⟩ := hduty
    obtain ⟨rfl, -⟩ := Job.act.inj hjob
    exact Controller.takesOnly_claim hlacks c

end Errand.Fit

namespace Controller

variable {σ α : Type} [Resource α] [Collection α] (c : Controller σ α)

/-- The errand on which a worker sets out that looks at the copy. -/
def errandFor (k : ObjectKey) : Option (Errand α) :=
  match dutyFor c.config.finalizer (c.informer.cache.get? k) with
  | .nothing => none
  | .claim w f => some (.claim w f)
  | .reconcile w => some (.reconcile w (c.reconciler.reconcile w c.memory).1)
  | .finalize w f => some (.finalize w f (c.reconciler.finalize w c.memory).1)

/-- The call with which the errand begins. -/
def callFor (k : ObjectKey) : List (ReconcilerCall α) :=
  match dutyFor c.config.finalizer (c.informer.cache.get? k) with
  | .reconcile w => [⟨.reconcile, w⟩]
  | .finalize w _ => [⟨.finalize, w⟩]
  | _ => []

lemma dutyFor_cases (f : String) (read : Option α) :
    dutyFor (some f) read = .nothing ∨
      ∃ w, read = some w ∧
        (dutyFor (some f) read = .claim w f ∧ Finalizer.has w f = false ∨
          dutyFor (some f) read = .reconcile w ∧ (⟨.reconcile, w⟩ : ReconcilerCall α).Proper f ∨
          dutyFor (some f) read = .finalize w f ∧ (⟨.finalize, w⟩ : ReconcilerCall α).Proper f) := by
  cases read with
  | none => exact .inl rfl
  | some w =>
    by_cases hmarked : Resource.isTerminating w = true <;>
      by_cases hhas : Finalizer.has w f = true <;>
      simp [dutyFor, ReconcilerCall.Proper, hmarked, hhas]

/-- What a worker sets out on when it looks at the copy, and what the reconciler is called with. -/
lemma beginWork_errand [LawfulCollection α] (k : ObjectKey) :
    ∃ job memory cluster, c.beginWork k = (job, { c with memory := memory, cluster := cluster }) ∧
      Collection.store cluster = c.store ∧ Errand.Suits (c.errandFor k) (.busy k job) ∧
      ∀ calls start, c.memory = c.reconciler.recall start calls →
        memory = c.reconciler.recall start (c.callFor k ++ calls) := by
  unfold beginWork errandFor callFor
  cases dutyFor c.config.finalizer (c.informer.cache.get? k) with
  | nothing =>
    refine ⟨_, c.memory, c.cluster, rfl, rfl, ?_, fun _ _ h => h⟩
    exact fun job hjob => ⟨_, (Option.some.inj hjob).symm⟩
  | claim w f => exact ⟨_, c.memory, c.cluster, rfl, rfl, rfl, fun _ _ h => h⟩
  | reconcile w | finalize w f =>
    refine ⟨_, _, _, rfl, LawfulCollection.store_congr rfl rfl rfl rfl, rfl, fun calls start h => ?_⟩
    rw [h]
    rfl

/-- If the reconciler is orderly, a worker sets out only on errands that fit, and calls are proper. -/
lemma fit_errandFor [LawfulCollection α] (hr : c.reconciler.Orderly) {f : String}
    (hf : c.config.finalizer = some f) {k : ObjectKey}
    (hcache : ∀ a, c.informer.cache.get? k = some a → c.store.HasPublished a) :
    (∀ call ∈ c.callFor k, call.Proper f) ∧
      ∀ e, c.errandFor k = some e → e.Fit f c.store (c.callFor k) := by
  unfold callFor errandFor
  rw [hf]
  rcases dutyFor_cases f (c.informer.cache.get? k) with hduty | ⟨w, hw, ⟨hduty, hlacks⟩ |
    ⟨hduty, hproper⟩ | ⟨hduty, hproper⟩⟩ <;> rw [hduty]
  · simp
  · refine ⟨by simp, ?_⟩
    rintro e ⟨⟩
    exact ⟨hcache w hw, Job.within_lift (orderly_claim w f), rfl, hlacks⟩
  · refine ⟨by simpa using hproper, ?_⟩
    rintro e ⟨⟩
    refine ⟨hcache w hw, (hr w c.memory).1.bind fun ending => ?_, trivial⟩
    exact Job.within_lift (orderly_afterReconcile w ending)
  · refine ⟨by simpa using hproper, ?_⟩
    rintro e ⟨⟩
    refine ⟨hcache w hw, (hr w c.memory).2.bind fun ending => ?_, rfl, by simp⟩
    exact Job.within_lift (orderly_afterFinalize w f ending)

end Controller

/-! ## Runs -/

/-- Work is followed action by action. -/
def ControllerMove.single {σ α : Type} (c : Controller σ α) : ControllerMove α → ControllerMove α
  | .step (.worker n) =>
    match c.workers[n]? with
    | some (.busy _ (.act _ _)) => .progress n
    | _ => .step (.worker n)
  | m => m

/-- A run of a controller, with what its workers are at and what it has done itself. -/
structure Attended (σ : Type) (α : Type := Widget) extends Observed σ α where
  errand : Nat → Option (Errand α) := fun _ => none
  /-- The calls of the reconciler, latest first. -/
  calls : List (ReconcilerCall α) := []
  /-- The copies that the reconciler has cleaned up after, with the revision at which that was done. -/
  finalized : List (α × Nat) := []
  /-- The places of the events that the controller itself has published. -/
  own : List Nat := []

namespace Attended

variable {σ α : Type} [Resource α] [Collection α]

def store (x : Attended σ α) : Store α := x.controller.store

/-- A worker goes on by a step of its own. -/
def stepped (x : Attended σ α) (n : Nat) (y : Observed σ α) : Attended σ α :=
  match x.controller.workers[n]? with
  | some (.holding k) =>
    { x with
      toObserved := y
      errand := Function.update x.errand n (x.controller.errandFor k)
      calls := x.controller.callFor k ++ x.calls }
  | some (.busy _ _) =>
    { x with
      toObserved := y
      errand := Function.update x.errand n ((x.errand n).bind (·.next x.controller.cluster)) }
  | _ => { x with toObserved := y }

/-- A worker goes on by an action of its work. -/
def acted (x : Attended σ α) (n : Nat) (y : Observed σ α) : Attended σ α :=
  match x.controller.workers[n]?, x.errand n with
  | some (.busy _ (.act _ _)), some e =>
    let before := x.store.published.length
    let after := y.controller.store.published.length
    { toObserved := y
      errand := Function.update x.errand n (e.next x.controller.cluster)
      calls := x.calls
      finalized := e.cleaned.map (·, before) ++ x.finalized
      own := (if e.isOwn then List.range' before (after - before) else []) ++ x.own }
  | _, _ => { x with toObserved := y }

def move (x : Attended σ α) (m : ControllerMove α) : Attended σ α :=
  let y := x.toObserved.move (m.single x.controller)
  match m.single x.controller with
  | .step (.worker n) => x.stepped n y
  | .progress n => x.acted n y
  | _ => { x with toObserved := y }

def after (x : Attended σ α) (moves : List (ControllerMove α)) : Attended σ α := moves.foldl move x

def start (config : ControllerConfig) (predicate : Predicate α) (reconciler : Reconciler σ α)
    (memory : σ) (cluster : Cluster) (limit : Nat) : Attended σ α where
  controller := .start config predicate reconciler memory
    (Collection.setStore cluster (.empty limit : Store α))

/-- A run from the beginning, on a store that keeps `limit` events. -/
def run (config : ControllerConfig) (predicate : Predicate α) (reconciler : Reconciler σ α)
    (memory : σ) (cluster : Cluster) (limit : Nat) (moves : List (ControllerMove α)) : Attended σ α :=
  (start config predicate reconciler memory cluster limit).after moves

/-! ## No run is lost -/

lemma move_toObserved (x : Attended σ α) (m : ControllerMove α) :
    (x.move m).toObserved = x.toObserved.move (m.single x.controller) := by
  simp only [move]
  split
  · simp only [stepped]
    split <;> rfl
  · simp only [acted]
    split <;> rfl
  · rfl

lemma after_append (x : Attended σ α) (l l' : List (ControllerMove α)) :
    x.after (l ++ l') = (x.after l).after l' := List.foldl_append

/-- A worker that takes an action of its work and then a step gets as far as by the step alone. Only
the order in which tasks go on may be another one. -/
lemma step_of_progress (x : Observed σ α) {n : Nat} {k : ObjectKey} {effect : Cluster → Cluster}
    {rest : Cluster → Task Outcome}
    (hn : x.controller.workers[n]? = some (.busy k (.act effect rest))) :
    ∃ agenda, (x.move (.progress n)).move (.step (.worker n)) =
      { x.move (.step (.worker n)) with
        controller := { (x.move (.step (.worker n))).controller with agenda := agenda } } := by
  obtain ⟨hlt, -⟩ := List.getElem?_eq_some_iff.mp hn
  obtain ⟨agenda, hcluster⟩ := x.controller.setCluster_eq (effect x.controller.cluster)
  simp only [Observed.move, hn, hcluster, Controller.setWorker, Controller.step,
    Controller.stepWorker, Observed.noteOf, List.getElem?_set_self hlt, Job.advance]
  rcases (rest x.controller.cluster).advance (effect x.controller.cluster) with
    ⟨ending | ⟨d, task⟩, cluster⟩ <;>
    obtain ⟨agenda₁, h₁⟩ := x.controller.setCluster_eq cluster <;>
    obtain ⟨agenda₂, h₂⟩ := Controller.setCluster_eq
      { x.controller with
        cluster := effect x.controller.cluster
        agenda := agenda
        workers := x.controller.workers.set n (.busy k (rest x.controller.cluster)) } cluster <;>
    simp only [h₁, h₂, List.set_set]
  · exact ⟨agenda₂, rfl⟩
  · exact ⟨agenda₂.after d (.worker n), rfl⟩

/-- Work that is done in one go can be done action by action. -/
lemma exists_after_step (x : Attended σ α) {n : Nat} {k : ObjectKey} {job : Task Outcome}
    (hn : x.controller.workers[n]? = some (.busy k job)) :
    ∃ moves, (x.after moves).toObserved = x.toObserved.move (.step (.worker n)) := by
  induction job generalizing x with
  | done | sleep =>
    refine ⟨[.step (.worker n)], ?_⟩
    rw [after, List.foldl_cons, List.foldl_nil, move_toObserved]
    simp only [ControllerMove.single, hn]
  | act effect rest ih =>
    obtain ⟨hlt, -⟩ := List.getElem?_eq_some_iff.mp hn
    obtain ⟨agenda, hcluster⟩ := x.controller.setCluster_eq (effect x.controller.cluster)
    have hmove : (x.move (.progress n)).toObserved = x.toObserved.move (.progress n) :=
      move_toObserved x (.progress n)
    obtain ⟨moves, hmoves⟩ := ih x.controller.cluster (x.move (.progress n)) (by
      rw [hmove]
      simp only [Observed.move, hn, hcluster, Controller.setWorker, List.getElem?_set_self hlt])
    obtain ⟨agenda, hstep⟩ := step_of_progress x.toObserved hn
    rw [hmove, hstep] at hmoves
    let y := x.toObserved.move (.step (.worker n))
    refine ⟨.progress n :: moves ++ [.schedule y.controller.agenda y.controller.current], ?_⟩
    rw [after_append, after, List.foldl_cons, List.foldl_nil, move_toObserved]
    change ((x.move (.progress n)).after moves).toObserved.move (.schedule _ _) = y
    rw [hmoves]
    rfl

lemma exists_after_move (x : Attended σ α) (m : ControllerMove α) :
    ∃ moves, (x.after moves).toObserved = x.toObserved.move m := by
  by_cases hbusy : ∃ n k job, m = .step (.worker n) ∧
      x.controller.workers[n]? = some (.busy k job)
  · obtain ⟨n, k, job, rfl, hn⟩ := hbusy
    exact exists_after_step x hn
  · refine ⟨[m], ?_⟩
    rw [after, List.foldl_cons, List.foldl_nil, move_toObserved]
    unfold ControllerMove.single
    split
    next n =>
      split
      next k effect rest hn => exact absurd ⟨n, k, _, rfl, hn⟩ hbusy
      · rfl
    · rfl

/-- Every run of a controller, whether its work is done action by action or not, can be attended. -/
theorem exists_after_toObserved (x : Attended σ α) (moves : List (ControllerMove α)) :
    ∃ attended, (x.after attended).toObserved = x.toObserved.after moves := by
  induction moves generalizing x with
  | nil => exact ⟨[], rfl⟩
  | cons m moves ih =>
    obtain ⟨first, hfirst⟩ := exists_after_move x m
    obtain ⟨others, hothers⟩ := ih (x.after first)
    refine ⟨first ++ others, ?_⟩
    rw [after_append, hothers, hfirst]
    rfl

/-! ## What holds in every run -/

/-- What holds in every state of a run. -/
structure Sound (reconciler : Reconciler σ α) (memory : σ) (scope : Option String) (f : String)
    (x : Attended σ α) : Prop where
  ns : x.controller.config.ns = scope
  finalizer : x.controller.config.finalizer = some f
  reconciler_eq : x.controller.reconciler = reconciler
  memory_eq : x.controller.memory = reconciler.recall memory x.calls
  chronicled : x.store.Chronicled
  follows : ∃ v, x.controller.feed.Follows x.store scope v
  proper : ∀ call ∈ x.calls, call.Proper f
  suits : ∀ n w, x.controller.workers[n]? = some w → Errand.Suits (x.errand n) w
  fit : ∀ n e, x.errand n = some e → e.Fit f x.store x.calls
  finalized : ∀ w r, (w, r) ∈ x.finalized → ⟨.finalize, w⟩ ∈ x.calls
  own : ∀ i ∈ x.own, i < x.store.published.length ∧
    ∀ a, x.store.stripped f i = some a → ∃ r ≤ i, (a, r) ∈ x.finalized

variable [LawfulResource α] [LawfulCollection α] {x : Attended σ α} {reconciler : Reconciler σ α}
  {memory : σ} {scope : Option String} {f : String}

/-- A run goes on: calls are proper, workers suit their errands, and what the controller itself has
published is accounted for. -/
lemma Sound.goOn (h : Sound reconciler memory scope f x) {y : Attended σ α}
    (calls : List (ReconcilerCall α)) (finalized : List (α × Nat)) (own : List Nat)
    (hconfig : y.controller.config = x.controller.config)
    (hreconciler : y.controller.reconciler = x.controller.reconciler)
    (hmemory : y.controller.memory = reconciler.recall memory y.calls)
    (hlater : x.store.Later y.store)
    (hfollows : ∃ v, y.controller.feed.Follows y.store scope v)
    (hcalls : y.calls = calls ++ x.calls) (hproper : ∀ call ∈ calls, call.Proper f)
    (hsuits : ∀ n w, y.controller.workers[n]? = some w → Errand.Suits (y.errand n) w)
    (hfit : ∀ n e, y.errand n = some e → e.Fit f x.store y.calls)
    (hfinalized : y.finalized = finalized ++ x.finalized)
    (hcalled : ∀ w r, (w, r) ∈ finalized → ⟨.finalize, w⟩ ∈ y.calls)
    (hown : y.own = own ++ x.own)
    (hnew : ∀ i ∈ own, i < y.store.published.length ∧
      ∀ a, y.store.stripped f i = some a → ∃ r ≤ i, (a, r) ∈ y.finalized) :
    Sound reconciler memory scope f y := by
  obtain ⟨hchronicled, hprefix⟩ := h.chronicled.later hlater
  refine ⟨hconfig ▸ h.ns, hconfig ▸ h.finalizer, hreconciler.trans h.reconciler_eq, hmemory,
    hchronicled, hfollows, ?_, hsuits, ?_, ?_, ?_⟩
  · intro call hcall
    rw [hcalls] at hcall
    exact (List.mem_append.mp hcall).elim (hproper call) (h.proper call)
  · exact fun n e he => (hfit n e he).mono hprefix (List.Subset.refl _)
  · intro w r hw
    rw [hfinalized] at hw
    refine (List.mem_append.mp hw).elim (hcalled w r) fun hold => ?_
    rw [hcalls]
    exact List.mem_append_right _ (h.finalized w r hold)
  · intro i hi
    rw [hown] at hi
    refine (List.mem_append.mp hi).elim (hnew i) fun hold => ?_
    obtain ⟨hlt, hstripped⟩ := h.own i hold
    refine ⟨hlt.trans_le hprefix.length_le, fun a ha => ?_⟩
    rw [Store.stripped_of_isPrefix hprefix hlt] at ha
    obtain ⟨r, hr, hmem⟩ := hstripped a ha
    rw [hfinalized]
    exact ⟨r, hr, List.mem_append_right _ hmem⟩

/-- The controller goes on without a call of the reconciler and without a write of its own. -/
lemma Sound.carry (h : Sound reconciler memory scope f x) {y : Observed σ α}
    {errand : Nat → Option (Errand α)} (hconfig : y.controller.config = x.controller.config)
    (hreconciler : y.controller.reconciler = x.controller.reconciler)
    (hmemory : y.controller.memory = x.controller.memory)
    (hlater : x.store.Later y.controller.store)
    (hfollows : ∃ v, y.controller.feed.Follows y.controller.store scope v)
    (hsuits : ∀ n w, y.controller.workers[n]? = some w → Errand.Suits (errand n) w)
    (hfit : ∀ n e, errand n = some e → e.Fit f x.store x.calls) :
    Sound reconciler memory scope f { x with toObserved := y, errand := errand } :=
  h.goOn [] [] [] hconfig hreconciler (hmemory.trans h.memory_eq) hlater hfollows rfl (by simp)
    hsuits hfit rfl (by simp) rfl (by simp)

/-- Something happens that does not let a worker go on. -/
lemma Sound.aside (h : Sound reconciler memory scope f x) {m : ControllerMove α}
    (hm : ∀ n, m ≠ .step (.worker n) ∧ m ≠ .progress n) :
    Sound reconciler memory scope f { x with toObserved := x.toObserved.move m } := by
  obtain ⟨hsteady, hfeed⟩ := x.toObserved.move_steady hm
  have hlater := x.toObserved.move_later hm
  have hfollows : ∃ v, (x.toObserved.move m).controller.feed.Follows
      (x.toObserved.move m).controller.store scope v := by
    obtain ⟨v, hf⟩ := h.follows
    by_cases hinformer : m = .step .informer
    · subst hinformer
      exact x.controller.stepInformer_follows h.ns hf
    · rw [hfeed hinformer]
      exact ⟨v, hf.later hlater⟩
  refine h.carry hsteady.config hsteady.reconciler hsteady.memory hlater hfollows ?_ h.fit
  rw [hsteady.workers]
  exact h.suits

/-! ## The workers -/

/-- All workers suit their errands after one of them has gone on. -/
lemma Sound.suits_set (h : Sound reconciler memory scope f x) {n : Nat} {v : Worker}
    {errand : Option (Errand α)} (hv : Errand.Suits errand v) :
    ∀ m w, (x.controller.workers.set n v)[m]? = some w →
      Errand.Suits (Function.update x.errand n errand m) w := by
  intro m w hw
  by_cases hm : m = n
  · subst hm
    rw [List.getElem?_set_self'] at hw
    obtain ⟨w', -, rfl⟩ := Option.map_eq_some_iff.mp hw
    rw [Function.update_self]
    exact hv
  · rw [List.getElem?_set_ne (Ne.symm hm)] at hw
    rw [Function.update_of_ne hm]
    exact h.suits m w hw

lemma Sound.fit_update (h : Sound reconciler memory scope f x) {n : Nat} {errand : Option (Errand α)}
    {calls : List (ReconcilerCall α)} (hcalls : x.calls ⊆ calls)
    (he : ∀ e, errand = some e → e.Fit f x.store calls) :
    ∀ m e, Function.update x.errand n errand m = some e → e.Fit f x.store calls := by
  intro m e hm
  by_cases hmn : m = n
  · subst hmn
    rw [Function.update_self] at hm
    exact he e hm
  · rw [Function.update_of_ne hmn] at hm
    exact (h.fit m e hm).mono List.prefix_rfl hcalls

/-- A worker that has still something to do is on an errand. -/
lemma Sound.exists_errand (h : Sound reconciler memory scope f x) {n : Nat} {w : Worker}
    {job : Task Outcome} (hn : x.controller.workers[n]? = some w) (hw : w.job? = some job)
    (hjob : ∀ ending, job ≠ .done ending) : ∃ e, x.errand n = some e ∧ e.job = job := by
  have hsuits := h.suits n w hn
  rcases he : x.errand n with _ | e <;> rw [he] at hsuits
  · obtain ⟨ending, hdone⟩ := hsuits job hw
    exact absurd hdone (hjob ending)
  · exact ⟨e, rfl, Option.some.inj (hsuits.symm.trans hw)⟩

lemma move_of_rest {n : Nat} {w : Worker} (hn : x.controller.workers[n]? = some w)
    (hholding : ∀ k, w ≠ .holding k) (hbusy : ∀ k job, w ≠ .busy k job) :
    x.move (.step (.worker n)) =
      { x with toObserved := x.toObserved.move (.step (.worker n)) } := by
  cases w with
  | holding k => exact absurd rfl (hholding k)
  | busy k job => exact absurd rfl (hbusy k job)
  | idle | asleep | leaving | returning | exited =>
    simp only [move, ControllerMove.single, hn, stepped]

/-- A worker goes on without looking at the copy and without an action. -/
lemma Sound.rest (h : Sound reconciler memory scope f x) {n : Nat} {w : Worker}
    (hn : x.controller.workers[n]? = some w) (hholding : ∀ k, w ≠ .holding k)
    (hbusy : ∀ k job, w ≠ .busy k job) :
    Sound reconciler memory scope f (x.move (.step (.worker n))) := by
  obtain ⟨v, queue, tally, agenda, hjob, heq⟩ := x.controller.stepWorker_rest hn hholding hbusy
  have hsuits := h.suits_set (n := n) ((Errand.suits_congr hjob).mpr (h.suits n w hn))
  rw [Function.update_eq_self] at hsuits
  simp only [move_of_rest hn hholding hbusy, Observed.move, Controller.step, heq]
  exact h.carry rfl rfl rfl (.refl _) h.follows hsuits h.fit

/-- A worker looks at the copy and sets out. -/
lemma Sound.holding (h : Sound reconciler memory scope f x) (hr : reconciler.Orderly) {n : Nat}
    {k : ObjectKey} (hn : x.controller.workers[n]? = some (.holding k)) :
    Sound reconciler memory scope f (x.move (.step (.worker n))) := by
  obtain ⟨job, memory', cluster, heq, hstore, hsuits, hmemory⟩ :=
    (x.controller.setWorker n .idle).beginWork_errand k
  obtain ⟨v, hf⟩ := h.follows
  obtain ⟨hproper, hfit⟩ := x.controller.fit_errandFor (h.reconciler_eq ▸ hr) h.finalizer
    fun w (hw : x.controller.informer.cache.get? k = some w) =>
      Store.hasPublished_of_asOf (hf.cache_eq ▸ hw)
  have hlater : x.store.Later (Collection.store cluster) := by
    rw [hstore]
    exact .refl _
  simp only [move, ControllerMove.single, hn, stepped, Observed.move, Controller.step,
    Controller.stepWorker, heq]
  simp only [Controller.setWorker, List.set_set]
  refine h.goOn (x.controller.callFor k) [] [] rfl rfl ?_ hlater ⟨v, hf.later hlater⟩ rfl hproper
    (h.suits_set hsuits) (h.fit_update (List.subset_append_right _ _) fun e he => ?_) rfl (by simp)
    rfl (by simp)
  · have hrecall := hmemory x.calls memory
    simp only [Controller.setWorker, h.reconciler_eq] at hrecall
    exact hrecall h.memory_eq
  · exact (hfit e he).mono List.prefix_rfl (List.subset_append_left _ _)

/-- A worker goes on with work that acts no more before it rests or ends. -/
lemma Sound.pause (h : Sound reconciler memory scope f x) {n : Nat} {k : ObjectKey}
    {job : Task Outcome} (hn : x.controller.workers[n]? = some (.busy k job))
    (hjob : ∀ effect next, job ≠ .act effect next) :
    Sound reconciler memory scope f (x.move (.step (.worker n))) := by
  have hsingle : ControllerMove.single x.controller (.step (.worker n)) = .step (.worker n) := by
    cases job with
    | act effect next => exact absurd rfl (hjob effect next)
    | done | sleep => simp only [ControllerMove.single, hn]
  obtain ⟨agenda, hcluster⟩ := x.controller.setCluster_eq x.controller.cluster
  simp only [move, hsingle, stepped, hn, Observed.move, Controller.step, Controller.stepWorker]
  cases job with
  | act effect next => exact absurd rfl (hjob effect next)
  | done ending =>
    have hnone : x.errand n = none := by
      have hsuits := h.suits n _ hn
      rcases he : x.errand n with _ | e
      · rfl
      · rw [he] at hsuits
        exact absurd (Option.some.inj hsuits).symm (e.job_ne_done ending)
    simp only [Job.advance, hcluster, hnone, Option.bind_none]
    exact h.carry rfl rfl rfl (.refl _) h.follows (h.suits_set (by simp [Errand.Suits, Worker.job?]))
      (h.fit_update (List.Subset.refl _) (by simp))
  | sleep d task =>
    obtain ⟨e, he, hjob⟩ := h.exists_errand hn rfl (by simp)
    simp only [Job.advance, hcluster, he, Option.bind_some]
    exact h.carry rfl rfl rfl (.refl _) h.follows
      (h.suits_set (Errand.suits_of_sleep hjob k x.controller.cluster))
      (h.fit_update (List.Subset.refl _) fun e' he' => (h.fit n e he).next he')

variable [EventFree α]

/-- A worker goes on by an action: one of the reconciler's, or that of the controller itself. -/
lemma Sound.progress (h : Sound reconciler memory scope f x) (n : Nat) :
    Sound reconciler memory scope f (x.move (.progress n)) := by
  simp only [move, ControllerMove.single, acted]
  split
  next k effect rest e hn he =>
    have hsuits := h.suits n _ hn
    rw [he] at hsuits
    have hjob : e.job = .act effect rest := (Option.some.inj hsuits).symm
    have hfit := h.fit n e he
    have horderly : (Job.act effect rest).Orderly α := hjob ▸ hfit.orderly
    have hlater : x.store.Later (Collection.store (effect x.controller.cluster)) := horderly.1 _
    obtain ⟨v, hf⟩ := h.follows
    obtain ⟨agenda, hcluster⟩ := x.controller.setCluster_eq (effect x.controller.cluster)
    simp only [Observed.move, hn, hcluster]
    refine h.goOn [] _ _ rfl rfl h.memory_eq hlater ⟨v, hf.later hlater⟩ rfl (by simp)
      (h.suits_set (Errand.suits_of_act hjob k x.controller.cluster))
      (h.fit_update (List.Subset.refl _) fun e' he' => hfit.next he') rfl ?_ rfl ?_
    · intro w r hw
      obtain ⟨w', hw', heq⟩ := List.mem_map.mp hw
      obtain ⟨rfl, -⟩ := Prod.mk.inj heq
      exact hfit.called hw'
    · intro i hi
      split at hi
      next hown =>
        obtain ⟨hle, hlt⟩ := List.mem_range'_1.mp hi
        refine ⟨by simp only [store, Controller.setWorker] at *; omega, fun a ha => ?_⟩
        obtain ⟨rfl, hcleaned⟩ :=
          (hfit.takesOnly hown hjob x.controller.cluster).2 h.chronicled hfit.published i a hle ha
        exact ⟨_, hle, List.mem_append_left _ (List.mem_map_of_mem hcleaned)⟩
      · simp at hi
  next hother =>
    have hstill : x.toObserved.move (.progress n) = x.toObserved := by
      simp only [Observed.move]
      split
      next k effect rest hn =>
        obtain ⟨e, he, -⟩ := h.exists_errand hn rfl (by simp)
        exact absurd he (hother k effect rest e hn)
      · rfl
    rw [hstill]
    exact h

lemma Sound.stepWorker (h : Sound reconciler memory scope f x) (hr : reconciler.Orderly) (n : Nat) :
    Sound reconciler memory scope f (x.move (.step (.worker n))) := by
  rcases hn : x.controller.workers[n]? with _ | w
  · have hstill : x.move (.step (.worker n)) = x := by
      simp [move, ControllerMove.single, stepped, Observed.move, Controller.step,
        Controller.stepWorker, Observed.noteOf, hn]
    rw [hstill]
    exact h
  cases w with
  | idle | asleep | leaving | returning | exited => exact h.rest hn (by simp) (by simp)
  | holding k => exact h.holding hr hn
  | busy k job =>
    cases job with
    | act effect rest =>
      have hsingle : x.move (.step (.worker n)) = x.move (.progress n) := by
        simp only [move, ControllerMove.single, hn]
      rw [hsingle]
      exact h.progress n
    | done | sleep => exact h.pause hn (by simp)

lemma Sound.move (h : Sound reconciler memory scope f x) (hr : reconciler.Orderly)
    (m : ControllerMove α) : Sound reconciler memory scope f (x.move m) := by
  cases m with
  | step task =>
    cases task with
    | worker n => exact h.stepWorker hr n
    | informer | dispatcher | delayed | supervisor =>
      exact h.aside (by simp [ControllerMove.single])
  | progress n => exact h.progress n
  | act | surround | enqueue | stop | schedule => exact h.aside (by simp [ControllerMove.single])

lemma Sound.after (h : Sound reconciler memory scope f x) (hr : reconciler.Orderly)
    (moves : List (ControllerMove α)) : Sound reconciler memory scope f (x.after moves) := by
  induction moves generalizing x with
  | nil => exact h
  | cons m moves ih => exact ih (h.move hr m)

lemma store_start (config : ControllerConfig) (predicate : Predicate α) (reconciler : Reconciler σ α)
    (memory : σ) (cluster : Cluster) (limit : Nat) :
    (start config predicate reconciler memory cluster limit).store = .empty limit :=
  LawfulCollection.store_setStore cluster _

lemma start_sound {config : ControllerConfig} (hf : config.finalizer = some f)
    (predicate : Predicate α) (reconciler : Reconciler σ α) (memory : σ) (cluster : Cluster)
    (limit : Nat) :
    Sound reconciler memory config.ns f (start config predicate reconciler memory cluster limit) where
  ns := rfl
  finalizer := hf
  reconciler_eq := rfl
  memory_eq := rfl
  chronicled := by
    rw [store_start]
    exact Store.empty_chronicled limit
  follows := by
    rw [store_start]
    exact ⟨0, Feed.initial_follows (Store.empty_faithful limit) config.ns⟩
  proper := by simp [start]
  suits := by
    intro n w hw
    obtain rfl : w = .idle := (List.mem_replicate.mp (List.mem_of_getElem? hw)).2
    exact fun job hjob => by simp [Worker.job?] at hjob
  fit := by simp [start]
  finalized := by simp [start]
  own := by simp [start]

/-! ## The finalizer guards -/

/-- Whatever the order in which the tasks of a controller go on and clients, disconnections, failures
and writes of the reconciler come between: if nobody else takes the finalizer from an object, then an
object that has had it is removed only after the reconciler has been called to clean up after a copy of
that very object, terminating and with the finalizer, has returned well, and the copy was still what was
stored when the finalizer was taken. The reconciler is called with copies that have the finalizer only,
to clean up if they are terminating and to reconcile if they are not. What is noted of a run is what it
does: the reconciler remembers what these calls have left, and workers have to do what is left of their
errands. -/
theorem finalized_before_removal (config : ControllerConfig) (hf : config.finalizer = some f)
    (predicate : Predicate α) (hr : reconciler.Orderly) (memory : σ) (cluster : Cluster)
    (limit : Nat) (moves : List (ControllerMove α))
    (hothers : ∀ i a,
      (run config predicate reconciler memory cluster limit moves).store.stripped f i = some a →
      i ∈ (run config predicate reconciler memory cluster limit moves).own) :
    let x := run config predicate reconciler memory cluster limit moves
    (∀ i j k a gone, i ≤ j → (x.store.objectsAt i).get? k = some a → Finalizer.has a f = true →
      x.store.published[j]? = some (.deleted gone) → Resource.key gone = k →
      ∃ w r m, r ≤ m ∧ m ≤ j ∧ (w, r) ∈ x.finalized ∧ ⟨.finalize, w⟩ ∈ x.calls ∧
        (x.store.objectsAt m).get? k = some w ∧ Resource.uid w = Resource.uid a ∧
        Resource.isTerminating w = true ∧ Finalizer.has w f = true) ∧
    (∀ call ∈ x.calls, Finalizer.has call.copy f = true ∧
      (Resource.isTerminating call.copy = true ↔ call.purpose = .finalize)) ∧
    x.controller.memory = reconciler.recall memory x.calls ∧
    ∀ n w, x.controller.workers[n]? = some w → Errand.Suits (x.errand n) w := by
  intro x
  have h : Sound reconciler memory config.ns f x :=
    (start_sound hf predicate reconciler memory cluster limit).after hr moves
  refine ⟨?_, h.proper, h.memory_eq, h.suits⟩
  intro i j k a gone hij ha hhas hgone hk
  obtain ⟨m, w, -, hmj, hstripped, hw, huid⟩ :=
    h.chronicled.exists_stripped hij ha hhas hgone hk
  obtain ⟨r, hrm, hfinalized⟩ := (h.own m (hothers m w hstripped)).2 w hstripped
  have hcall := h.finalized w r hfinalized
  obtain ⟨hwhas, hmarked⟩ := h.proper _ hcall
  exact ⟨w, r, m, hrm, hmj, hfinalized, hcall, hw, huid, hmarked.mpr rfl, hwhas⟩

/-- The widget of the run below, as the store has it at a version. -/
def guardedWidget (version : String) (generation : Int) (marked : Option Timestamp)
    (finalizers : List String) : Widget where
  metadata := {
    name := some "w"
    ns := some "a"
    uid := some "1"
    generation := some generation
    creationTimestamp := some { seconds := 0 }
    deletionTimestamp := marked
    finalizers := some finalizers
    resourceVersion := some version }
  spec := { replicas := generation }

/-- A widget is claimed and then marked for removal. It is changed between the look at the copy and the
call of the reconciler, so that the finalizer is not taken, and the reconciler has to be called again. -/
def conflicted : List (ControllerMove Widget) :=
  let k : ObjectKey := ⟨some "a", "w"⟩
  let steps (n : Nat) (task : ControllerTask) : List (ControllerMove Widget) :=
    List.replicate n (.step task)
  [.act (.create ⟨{ seconds := 0 }, "1"⟩ (some "a")
    { metadata := { name := some "w" }, spec := { replicas := 1 } })] ++
  steps 4 .informer ++ steps 1 .dispatcher ++ steps 5 (.worker 0) ++
  [.act (.delete { seconds := 1 } k)] ++
  steps 4 .informer ++ steps 2 .dispatcher ++ steps 1 (.worker 0) ++
  [.act (.patch k (.obj [("spec", .obj [("replicas", .int 2)])]))] ++
  steps 5 (.worker 0) ++ steps 2 .informer ++ steps 1 .dispatcher ++ steps 3 (.worker 0)

def afterConflict : Attended Unit :=
  run { workers := 1, finalizer := some "f" } .always .idle () (.new { seconds := 0 } "controller") 10
    conflicted

lemma afterConflict_history :
    afterConflict.store.published.length = 5 ∧
    (afterConflict.store.objectsAt 2).get? ⟨some "a", "w"⟩ =
      some (guardedWidget "2" 1 none ["f"]) ∧
    afterConflict.store.published[4]? =
      some (.deleted (guardedWidget "5" 2 (some { seconds := 1 }) [])) ∧
    (∀ i < 5, (afterConflict.store.stripped "f" i).isSome → i ∈ afterConflict.own) := by
  decide +kernel

theorem finalized_before_removal_conflicted :
    let x := afterConflict
    (x.store.objectsAt 2).get? ⟨some "a", "w"⟩ = some (guardedWidget "2" 1 none ["f"]) ∧
    x.store.published[4]? = some (.deleted (guardedWidget "5" 2 (some { seconds := 1 }) [])) ∧
    ∃ w r m, r ≤ m ∧ m ≤ 4 ∧ (w, r) ∈ x.finalized ∧
      (x.store.objectsAt m).get? ⟨some "a", "w"⟩ = some w ∧ Resource.uid w = some "1" ∧
      w.metadata.isTerminating = true ∧ Finalizer.has w "f" = true := by
  obtain ⟨hlength, hclaimed, hgone, hown⟩ := afterConflict_history
  obtain ⟨hremoval, -⟩ := finalized_before_removal { workers := 1, finalizer := some "f" } rfl .always
    Reconciler.idle_orderly () (.new { seconds := 0 } "controller") 10 conflicted (by
      intro i a ha
      obtain ⟨e, -, he, -⟩ := Store.stripped_eq_some_iff.mp ha
      have hi : i < 5 := hlength ▸ (List.getElem?_eq_some_iff.mp he).1
      exact hown i hi (by rw [afterConflict, ha]; rfl))
  obtain ⟨w, r, m, hrm, hm, hfinalized, -, hw⟩ :=
    hremoval 2 4 _ _ _ (by decide) hclaimed (by decide) hgone rfl
  exact ⟨hclaimed, hgone, w, r, m, hrm, hm, hfinalized, hw⟩

end Attended

end ControlLoop
