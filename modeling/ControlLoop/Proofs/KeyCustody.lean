import ControlLoop.Proofs.ControllerRuns

/-!
# Keys in the hands of workers

A key that the queue hands out is in the hands of one worker until that worker gives it back. `Custody`
is a run of a controller with the calls that its tasks make on the queue, kept as a ledger of its own,
and with a record of what went through the hands of the workers. The keys that the queue counts as in
work are those in somebody's hands, nobody has a key that another one has, and takings and returns of
a key alternate. A worker that goes on returns the key that it has in the end.
-/
set_option linter.unusedSectionVars false

namespace ControlLoop

/-- What is noted of keys that go through the hands of workers. -/
inductive Handling where
  | took (worker : Nat) (key : ObjectKey)
  /-- By the end of work that went well, or of work that is to be tried again. -/
  | gaveBack (worker : Nat) (key : ObjectKey)
  deriving DecidableEq, Repr

namespace Handling

/-- What the ledger of the queue says of it. -/
def entry : Handling → QueueEntry ObjectKey
  | took _ k => .took k
  | gaveBack _ k => .released k

/-- Who has a key, by a record of which the latest is the first. -/
def holder (k : ObjectKey) : List Handling → Option Nat
  | [] => none
  | took n j :: rest => if j = k then some n else holder k rest
  | gaveBack _ j :: rest => if j = k then none else holder k rest

/-- A key is taken only if nobody has it and by one who has no other, and given back only by the one
who has it. -/
def Paired : List Handling → Prop
  | [] => True
  | took n k :: rest => holder k rest = none ∧ (∀ j, holder j rest ≠ some n) ∧ Paired rest
  | gaveBack n k :: rest => holder k rest = some n ∧ Paired rest

variable {l newer older : List Handling} {n : Nat} {k : ObjectKey}

/-- The one who has a key has taken it, and it has not been given back since. -/
lemma took_of_holder (h : holder k l = some n) :
    ∃ between rest, l = between ++ took n k :: rest ∧
      (∀ m, took m k ∉ between) ∧ ∀ m, gaveBack m k ∉ between := by
  induction l with
  | nil => simp [holder] at h
  | cons e l ih =>
    cases e with
    | took m j =>
      simp only [holder] at h
      split at h
      next hj =>
        obtain rfl := Option.some.inj h
        exact ⟨[], l, by rw [hj]; rfl, by simp, by simp⟩
      next hj =>
        obtain ⟨between, rest, rfl, htook, hback⟩ := ih h
        exact ⟨took m j :: between, rest, rfl, by simp [Ne.symm hj, htook], by simp [hback]⟩
    | gaveBack m j =>
      simp only [holder] at h
      split at h
      · simp at h
      next hj =>
        obtain ⟨between, rest, rfl, htook, hback⟩ := ih h
        exact ⟨gaveBack m j :: between, rest, rfl, by simp [htook], by simp [Ne.symm hj, hback]⟩

lemma Paired.suffix (h : Paired (newer ++ older)) : Paired older := by
  induction newer with
  | nil => exact h
  | cons e newer ih =>
    cases e with
    | took m j => exact ih h.2.2
    | gaveBack m j => exact ih h.2

/-- One who has taken a key has it still, or has given it back, and in between has taken no other key
and nobody has given that one back. -/
lemma Paired.took_cases (h : Paired (newer ++ took n k :: older)) :
    (holder k (newer ++ took n k :: older) = some n ∧ (∀ m, gaveBack m k ∉ newer) ∧
      ∀ j, took n j ∉ newer) ∨
    ∃ later between, newer = later ++ gaveBack n k :: between ∧ (∀ m, gaveBack m k ∉ between) ∧
      ∀ j, took n j ∉ between := by
  induction newer with
  | nil => exact .inl ⟨by simp [holder], by simp, by simp⟩
  | cons e newer ih =>
    have htail : Paired (newer ++ took n k :: older) := by
      cases e with
      | took m j => exact h.2.2
      | gaveBack m j => exact h.2
    rcases ih htail with ⟨hheld, hback, htook⟩ | ⟨later, between, rfl, hbetween⟩
    · cases e with
      | took m j =>
        obtain ⟨hfree, hempty, -⟩ := h
        have hj : j ≠ k := by
          rintro rfl
          exact absurd (hfree.symm.trans hheld) (by simp)
        have hm : m ≠ n := by
          rintro rfl
          exact hempty k hheld
        refine .inl ⟨?_, by simp [hback], by simp [Ne.symm hm, htook]⟩
        rw [List.cons_append, holder, if_neg hj, hheld]
      | gaveBack m j =>
        by_cases hj : j = k
        · subst hj
          obtain rfl : n = m := Option.some.inj (hheld.symm.trans h.1)
          exact .inr ⟨[], newer, rfl, hback, htook⟩
        · refine .inl ⟨?_, by simp [Ne.symm hj, hback], by simp [htook]⟩
          rw [List.cons_append, holder, if_neg hj, hheld]
    · exact .inr ⟨e :: later, between, rfl, hbetween⟩

end Handling

namespace QueueEntry

/-- Whether a key went out of the queue or came back to it. -/
def isHandling {κ : Type} : QueueEntry κ → Bool
  | added _ => false
  | _ => true

end QueueEntry

/-- The key that a worker is to bring back, with its delay. -/
def Worker.returning? : Worker → Option (ObjectKey × Duration)
  | returning k d => some (k, d)
  | _ => none

/-- The worker of number `n` has the key. -/
def Worker.HasAt (workers : List Worker) (n : Nat) (k : ObjectKey) : Prop :=
  ∃ w, workers[n]? = some w ∧ w.key? = some k

namespace Worker

variable {workers : List Worker} {n m : Nat} {w v : Worker} {k : ObjectKey}

lemma hasAt_set (hn : workers[n]? = some w) :
    HasAt (workers.set n v) m k ↔ if n = m then v.key? = some k else HasAt workers m k := by
  obtain ⟨hlt, -⟩ := List.getElem?_eq_some_iff.mp hn
  simp only [HasAt, List.getElem?_set, hlt, if_true]
  split
  · simp
  · rfl

lemma hasAt_iff (hn : workers[n]? = some w) : HasAt workers n k ↔ w.key? = some k := by
  simp [HasAt, hn]

/-- A worker that goes on with its key leaves all keys where they are. -/
lemma hasAt_set_same (hn : workers[n]? = some w) (hkey : v.key? = w.key?) :
    HasAt (workers.set n v) m k ↔ HasAt workers m k := by
  rw [hasAt_set hn]
  split
  next hm =>
    subst hm
    rw [hasAt_iff hn, hkey]
  next => rfl

lemma returning_set (hn : workers[n]? = some w) :
    ∃ a b, workers.filterMap returning? = a ++ (w.returning?.toList ++ b) ∧
      ∀ v : Worker, (workers.set n v).filterMap returning? = a ++ (v.returning?.toList ++ b) := by
  have hsplit (a b : List Worker) (w : Worker) : (a ++ w :: b).filterMap returning? =
      a.filterMap returning? ++ (w.returning?.toList ++ b.filterMap returning?) := by
    rw [List.filterMap_append, List.filterMap_cons]
    cases w.returning? <;> rfl
  obtain ⟨a, b, hworkers, hset⟩ := Rounds.exists_replaced hn
  refine ⟨a.filterMap returning?, b.filterMap returning?, ?_, fun v => ?_⟩
  · rw [hworkers, hsplit]
  · rw [hset, hsplit]

lemma returning_set_same (hn : workers[n]? = some w) (hw : v.returning? = w.returning?) :
    (workers.set n v).filterMap returning? = workers.filterMap returning? := by
  obtain ⟨a, b, hreturning, hset⟩ := returning_set hn
  rw [hset, hreturning, hw]

end Worker

/-! ## Runs -/

namespace Controller

variable {σ α : Type} [Resource α] [Collection α]

/-- What a task asks of the queue as it goes on. -/
def askOf (c : Controller σ α) : ControllerTask → Option (QueueMove ObjectKey)
  | .informer => none
  | .dispatcher =>
    match c.changes with
    | change :: _ => if c.predicate.holds change then some (.add change.key) else none
    | [] => none
  | .worker n =>
    match c.workers[n]? with
    | some .idle => some (.get n)
    | some (.leaving k ending) =>
      match ending.retry with
      | none => some (.done k)
      | some delay => some (.requeue k delay)
    | some (.returning k d) => some (.comeBack k d)
    | _ => none
  | .delayed ticket =>
    match c.queue.delayed? ticket with
    | none => none
    | some d => if d.timed then some (.fire ticket) else some (.setTimer ticket)
  | .supervisor => if c.supervision = .running ∧ c.stopping then some .shutDown else none

/-- What is asked of the queue when something happens. -/
def asked (c : Controller σ α) : ControllerMove α → Option (QueueMove ObjectKey)
  | .step task => c.askOf task
  | .enqueue k => some (.add k)
  | _ => none

/-- What goes through the hands of a worker when something happens. -/
def handling (c : Controller σ α) : ControllerMove α → List Handling
  | .step (.worker n) =>
    match c.workers[n]? with
    | some .idle =>
      match c.queue.turn n with
      | .got k _ => [.took n k]
      | _ => []
    | some (.leaving k _) => [.gaveBack n k]
    | _ => []
  | _ => []

/-- Beginning the work on a key changes only what the reconciler remembers, and the journal. -/
lemma beginWork_snd (c : Controller σ α) (k : ObjectKey) :
    ∃ memory cluster, (c.beginWork k).2 = { c with memory := memory, cluster := cluster } := by
  unfold beginWork
  simp only
  split <;> exact ⟨_, _, rfl⟩

/-- A worker that has a key begins its work. -/
lemma stepWorker_holding {c : Controller σ α} {n : Nat} {k : ObjectKey}
    (hn : c.workers[n]? = some (.holding k)) :
    ∃ job memory cluster, (c.stepWorker n).1 =
      { c with workers := c.workers.set n (.busy k job), memory := memory, cluster := cluster } := by
  obtain ⟨memory, cluster, heq⟩ := (c.setWorker n .idle).beginWork_snd k
  generalize hbegin : (c.setWorker n .idle).beginWork k = p at heq
  rcases p with ⟨job, d⟩
  simp only at heq
  refine ⟨job, memory, cluster, ?_⟩
  simp only [stepWorker, hn, hbegin, heq]
  simp only [setWorker, List.set_set]

/-- A worker that goes on leaves the others as they are. -/
lemma stepWorker_workers (c : Controller σ α) (n : Nat) :
    ∃ w, (c.stepWorker n).1.workers = c.workers.set n w := by
  rcases hn : c.workers[n]? with _ | w
  · have hlen := List.getElem?_eq_none_iff.mp hn
    exact ⟨.idle, by simp only [stepWorker, hn, List.set_eq_of_length_le hlen]⟩
  by_cases hholding : ∃ k, w = .holding k
  · obtain ⟨k, rfl⟩ := hholding
    obtain ⟨job, memory, cluster, heq⟩ := stepWorker_holding hn
    exact ⟨.busy k job, by rw [heq]⟩
  by_cases hbusy : ∃ k job, w = .busy k job
  · obtain ⟨k, job, rfl⟩ := hbusy
    rcases hadvance : job.advance c.cluster with ⟨ending | ⟨d, next⟩, cluster⟩ <;>
      obtain ⟨agenda, heq⟩ := c.setCluster_eq cluster <;>
      simp only [stepWorker, hn, hadvance, heq]
    · exact ⟨_, rfl⟩
    · exact ⟨_, rfl⟩
  · push Not at hholding hbusy
    obtain ⟨v, queue, tally, agenda, -, heq⟩ := c.stepWorker_rest hn hholding hbusy
    exact ⟨v, by rw [heq]⟩

end Controller

/-- A run of a controller, with the calls on its queue and the record of its keys. -/
structure Custody (σ : Type) (α : Type := Widget) extends Observed σ α where
  ledger : Ledger ObjectKey
  /-- Latest first. -/
  hands : List Handling := []

namespace Custody

variable {σ α : Type} [Resource α] [Collection α]

def move (x : Custody σ α) (m : ControllerMove α) : Custody σ α where
  toObserved := x.toObserved.move m
  ledger :=
    match x.controller.asked m with
    | some call => x.ledger.move call
    | none => x.ledger
  hands := x.controller.handling m ++ x.hands

def after (x : Custody σ α) (moves : List (ControllerMove α)) : Custody σ α := moves.foldl move x

def start (config : ControllerConfig) (predicate : Predicate α) (reconciler : Reconciler σ α)
    (memory : σ) (cluster : Cluster) : Custody σ α where
  controller := .start config predicate reconciler memory cluster
  ledger := { queue := .new config.rateLimitBase config.rateLimitMax }

/-- What holds in every state of a run. -/
structure Sound (x : Custody σ α) : Prop where
  queue_eq : x.ledger.queue = x.controller.queue
  ledger : x.ledger.Sound
  returning : x.ledger.returning.Perm (x.controller.workers.filterMap Worker.returning?)
  record : x.ledger.record.filter QueueEntry.isHandling = x.hands.map Handling.entry
  paired : Handling.Paired x.hands
  processing_iff : ∀ k, k ∈ x.controller.queue.processing ↔ (Handling.holder k x.hands).isSome
  holder_iff : ∀ n k, Handling.holder k x.hands = some n ↔ Worker.HasAt x.controller.workers n k

variable {x : Custody σ α}

/-- The controller goes on without a call on the queue, and workers keep what they have. -/
lemma Sound.uncalled (h : x.Sound) {c : Controller σ α} {notes : List (VisitNote α)}
    (hqueue : c.queue = x.controller.queue)
    (hreturning : c.workers.filterMap Worker.returning? =
      x.controller.workers.filterMap Worker.returning?)
    (hworkers : ∀ n k, Worker.HasAt c.workers n k ↔ Worker.HasAt x.controller.workers n k) :
    Sound ⟨⟨c, notes⟩, x.ledger, x.hands⟩ where
  queue_eq := h.queue_eq.trans hqueue.symm
  ledger := h.ledger
  returning := hreturning ▸ h.returning
  record := h.record
  paired := h.paired
  processing_iff k := by rw [hqueue]; exact h.processing_iff k
  holder_iff n k := (h.holder_iff n k).trans (hworkers n k).symm

/-- A call on the queue by which no key changes hands. -/
lemma Sound.called (h : x.Sound) (call : QueueMove ObjectKey) {c : Controller σ α}
    {notes : List (VisitNote α)} (hqueue : (x.ledger.move call).queue = c.queue)
    (hrecord : (x.ledger.move call).record.filter QueueEntry.isHandling =
      x.ledger.record.filter QueueEntry.isHandling)
    (hprocessing : c.queue.processing = x.controller.queue.processing)
    (hreturning : (x.ledger.move call).returning.Perm (c.workers.filterMap Worker.returning?))
    (hworkers : ∀ n k, Worker.HasAt c.workers n k ↔ Worker.HasAt x.controller.workers n k) :
    Sound ⟨⟨c, notes⟩, x.ledger.move call, x.hands⟩ where
  queue_eq := hqueue
  ledger := h.ledger.move call
  returning := hreturning
  record := hrecord.trans h.record
  paired := h.paired
  processing_iff k := by rw [hprocessing]; exact h.processing_iff k
  holder_iff n k := (h.holder_iff n k).trans (hworkers n k).symm

/-- A worker takes a key. It was in nobody's hands, since the queue hands out no key in work. -/
lemma Sound.take (h : x.Sound) {n : Nat} {k : ObjectKey} {q : WorkQueue ObjectKey}
    {notes : List (VisitNote α)} (hn : x.controller.workers[n]? = some .idle)
    (hturn : x.controller.queue.turn n = .got k q) (e : WorkQueue.HandedOut x.controller.queue k q) :
    Sound
      { controller := { x.controller with queue := q }.setWorker n (.holding k)
        notes := notes
        ledger := x.ledger.move (.get n)
        hands := .took n k :: x.hands } := by
  have hmove : x.ledger.move (.get n) =
      { x.ledger with queue := q, record := .took k :: x.ledger.record } := by
    simp only [Ledger.move, h.queue_eq, hturn]
  have hledger := h.ledger.move (.get n)
  rw [hmove] at hledger ⊢
  have hfree : Handling.holder k x.hands = none := by
    have hidle := (h.queue_eq ▸ h.ledger.consistent).idle_of_handedOut e
    simpa [h.processing_iff] using hidle.2.1
  have hempty (j : ObjectKey) : Handling.holder j x.hands ≠ some n := by
    rw [ne_eq, h.holder_iff, Worker.hasAt_iff hn]
    simp [Worker.key?]
  refine ⟨rfl, hledger, ?_, ?_, ⟨hfree, hempty, h.paired⟩, ?_, ?_⟩
  · simp only [Controller.setWorker]
    rw [Worker.returning_set_same (v := .holding k) hn rfl]
    exact h.returning
  · rw [List.filter_cons_of_pos rfl, h.record]
    rfl
  · intro j
    simp only [Controller.setWorker, Handling.holder]
    rw [e.processing, List.mem_insert_iff, h.processing_iff]
    split
    next hj => simp [hj]
    next hj => simp [Ne.symm hj]
  · intro m j
    simp only [Controller.setWorker, Handling.holder]
    rw [Worker.hasAt_set hn, ← h.holder_iff]
    have hj := hempty j
    by_cases hk : k = j <;> by_cases hm : n = m <;> simp_all [Worker.key?]

/-- A worker gives back the key that it has. -/
lemma Sound.giveBack (h : x.Sound) {n : Nat} {k : ObjectKey} {ending : Ending Outcome}
    (hn : x.controller.workers[n]? = some (.leaving k ending)) (call : QueueMove ObjectKey)
    {c : Controller σ α} {w : Worker} {notes : List (VisitNote α)}
    (hworkers : c.workers = x.controller.workers.set n w) (hw : w.key? = none)
    (hqueue : (x.ledger.move call).queue = c.queue)
    (hrecord : (x.ledger.move call).record.filter QueueEntry.isHandling =
      .released k :: x.ledger.record.filter QueueEntry.isHandling)
    (hprocessing : c.queue.processing = x.controller.queue.processing.filter (· ≠ k))
    (hreturning : (x.ledger.move call).returning.Perm (c.workers.filterMap Worker.returning?)) :
    Sound
      { controller := c
        notes := notes
        ledger := x.ledger.move call
        hands := .gaveBack n k :: x.hands } := by
  have hheld : Handling.holder k x.hands = some n := by
    rw [h.holder_iff, Worker.hasAt_iff hn]
    rfl
  refine ⟨hqueue, h.ledger.move call, hreturning, ?_, ⟨hheld, h.paired⟩, ?_, ?_⟩
  · rw [hrecord, h.record]
    rfl
  · intro j
    simp only [Handling.holder]
    rw [hprocessing, List.mem_filter, h.processing_iff]
    split
    next hj => simp [hj]
    next hj => simp [Ne.symm hj]
  · intro m j
    simp only [Handling.holder]
    rw [hworkers, Worker.hasAt_set hn, ← h.holder_iff, hw]
    by_cases hm : n = m
    · -- This worker had no other key.
      subst hm
      have hsole : Handling.holder j x.hands = some n → k = j := by
        rw [h.holder_iff, Worker.hasAt_iff hn]
        exact Option.some.inj
      by_cases hj : k = j
      · simp [hj]
      · simpa [hj] using fun hheld => hj (hsole hheld)
    · -- No other worker had this key.
      by_cases hj : k = j
      · subst hj
        simp [hheld, hm]
      · simp [hj, hm]

/-! ## What the tasks do -/

lemma Sound.stepInformer (h : x.Sound) : (x.move (.step .informer)).Sound := by
  obtain ⟨feed, changes, cluster, resting, agenda, heq⟩ := x.controller.stepInformer_eq
  simp only [Custody.move, Observed.move, Controller.asked, Controller.askOf, Controller.handling,
    Controller.step, heq, List.nil_append]
  exact h.uncalled rfl rfl fun _ _ => Iff.rfl

/-- A key is added, by whomever. -/
lemma Sound.add (h : x.Sound) (k : ObjectKey) {c : Controller σ α} {notes : List (VisitNote α)}
    (hqueue : c.queue = (x.controller.queue.add k).1)
    (hworkers : c.workers = x.controller.workers) :
    Sound ⟨⟨c, notes⟩, x.ledger.move (.add k), x.hands⟩ := by
  refine h.called (.add k) ?_ rfl ?_ ?_ fun n j => by rw [hworkers]
  · rw [hqueue, ← h.queue_eq]
    rfl
  · rw [hqueue, WorkQueue.add_processing]
  · rw [hworkers]
    exact h.returning

lemma Sound.stepDispatcher (h : x.Sound) : (x.move (.step .dispatcher)).Sound := by
  rcases hchanges : x.controller.changes with _ | ⟨change, rest⟩ <;>
    simp only [Custody.move, Observed.move, Controller.asked, Controller.askOf, Controller.handling,
      Controller.step, Controller.stepDispatcher, hchanges, List.nil_append]
  · split <;> exact h.uncalled rfl rfl fun _ _ => Iff.rfl
  · by_cases hp : x.controller.predicate.holds change = true
    · simp only [hp, if_true]
      exact h.add change.key rfl rfl
    · simp only [hp, if_false, Bool.false_eq_true]
      exact h.uncalled rfl rfl fun _ _ => Iff.rfl

lemma Sound.stepDelayed (h : x.Sound) (ticket : Nat) : (x.move (.step (.delayed ticket))).Sound := by
  rcases hd : x.controller.queue.delayed? ticket with _ | d <;>
    simp only [Custody.move, Observed.move, Controller.asked, Controller.askOf, Controller.handling,
      Controller.step, Controller.stepDelayed, hd, List.nil_append]
  · exact h.uncalled rfl rfl fun _ _ => Iff.rfl
  rw [← h.queue_eq] at hd
  by_cases htimed : d.timed = true
  · have hfire : x.ledger.move (.fire ticket) =
        { x.ledger with
          queue := (x.ledger.queue.readd ticket).1
          record := .added d.key :: x.ledger.record } := by
      simp only [Ledger.move, hd]
    simp only [htimed, if_true]
    refine h.called (.fire ticket) ?_ ?_ ?_ ?_ fun _ _ => Iff.rfl
    · rw [hfire, h.queue_eq]
      rfl
    · rw [hfire]
      rfl
    · exact WorkQueue.readd_processing _ ticket
    · rw [hfire]
      exact h.returning
  · simp only [htimed, if_false, Bool.false_eq_true]
    refine h.called (.setTimer ticket) ?_ rfl rfl h.returning fun _ _ => Iff.rfl
    simp only [Ledger.move, h.queue_eq]

lemma Sound.stepSupervisor (h : x.Sound) : (x.move (.step .supervisor)).Sound := by
  rcases hs : x.controller.supervision <;>
    simp only [Custody.move, Observed.move, Controller.asked, Controller.askOf, Controller.handling,
      Controller.step, Controller.stepSupervisor, hs, reduceCtorEq, true_and, false_and, if_false,
      List.nil_append]
  · by_cases hstop : x.controller.stopping = true
    · simp only [hstop, if_true]
      refine h.called .shutDown ?_ rfl rfl h.returning fun _ _ => Iff.rfl
      simp only [Ledger.move, h.queue_eq]
      rfl
    · simp only [hstop, if_false, Bool.false_eq_true]
      exact h.uncalled rfl rfl fun _ _ => Iff.rfl
  · split <;> exact h.uncalled rfl rfl fun _ _ => Iff.rfl
  · split <;> exact h.uncalled rfl rfl fun _ _ => Iff.rfl
  · exact h.uncalled rfl rfl fun _ _ => Iff.rfl

/-! ## What the workers do -/

/-- A worker goes on with what it has. -/
lemma Sound.work (h : x.Sound) {n : Nat} {w v : Worker} {c : Controller σ α} {notes : List (VisitNote α)}
    (hn : x.controller.workers[n]? = some w) (hqueue : c.queue = x.controller.queue)
    (hworkers : c.workers = x.controller.workers.set n v) (hkey : v.key? = w.key?)
    (hreturning : v.returning? = w.returning?) :
    Sound ⟨⟨c, notes⟩, x.ledger, x.hands⟩ := by
  refine h.uncalled hqueue ?_ fun m k => ?_
  · rw [hworkers, Worker.returning_set_same hn hreturning]
  · rw [hworkers, Worker.hasAt_set_same hn hkey]

lemma Sound.idle (h : x.Sound) {n : Nat} (hn : x.controller.workers[n]? = some .idle) :
    (x.move (.step (.worker n))).Sound := by
  -- Whatever is asked of the queue, its ledger is told, and it is the queue of the controller.
  have hget (q : WorkQueue ObjectKey) (hq : x.controller.queue.SameKeys q)
      (hmove : x.ledger.move (.get n) = { x.ledger with queue := q }) {c : Controller σ α}
      {notes : List (VisitNote α)} (hqueue : c.queue = q)
      (hreturning : c.workers.filterMap Worker.returning? =
        x.controller.workers.filterMap Worker.returning?)
      (hworkers : ∀ n k, Worker.HasAt c.workers n k ↔ Worker.HasAt x.controller.workers n k) :
      Sound ⟨⟨c, notes⟩, x.ledger.move (.get n), x.hands⟩ := by
    refine h.called (.get n) ?_ ?_ ?_ ?_ hworkers
    · rw [hmove, hqueue]
    · rw [hmove]
    · rw [hqueue, hq.processing]
    · rw [hmove, hreturning]
      exact h.returning
  rcases x.controller.queue.turn_cases n with ⟨k, q, hturn, e⟩ | ⟨s, hturn, -⟩ | ⟨s, hturn, -, -⟩ <;>
    simp only [Custody.move, Observed.move, Controller.asked, Controller.askOf, Controller.handling,
      Controller.step, Controller.stepWorker, hn, hturn, List.nil_append, List.singleton_append]
  · exact h.take hn hturn e
  · refine hget _ (x.controller.queue.signal_sameKeys s) ?_ rfl ?_ fun m k => ?_
    · simp only [Ledger.move, h.queue_eq, hturn]
    · exact Worker.returning_set_same hn rfl
    · exact Worker.hasAt_set_same hn rfl
  · refine hget _ (x.controller.queue.signal_sameKeys s) ?_ rfl rfl fun _ _ => Iff.rfl
    simp only [Ledger.move, h.queue_eq, hturn]

lemma Sound.holding (h : x.Sound) {n : Nat} {k : ObjectKey}
    (hn : x.controller.workers[n]? = some (.holding k)) : (x.move (.step (.worker n))).Sound := by
  obtain ⟨job, memory, cluster, heq⟩ := Controller.stepWorker_holding hn
  simp only [Custody.move, Observed.move, Controller.asked, Controller.askOf, Controller.handling,
    Controller.step, heq, hn, List.nil_append]
  exact h.work (v := .busy k job) hn rfl rfl rfl rfl

lemma Sound.busy (h : x.Sound) {n : Nat} {k : ObjectKey} {job : Task Outcome}
    (hn : x.controller.workers[n]? = some (.busy k job)) : (x.move (.step (.worker n))).Sound := by
  rcases hadvance : job.advance x.controller.cluster with ⟨ending | ⟨d, next⟩, cluster⟩ <;>
    obtain ⟨agenda, hcluster⟩ := x.controller.setCluster_eq cluster <;>
    simp only [Custody.move, Observed.move, Controller.asked, Controller.askOf, Controller.handling,
      Controller.step, Controller.stepWorker, hn, hadvance, hcluster, List.nil_append]
  · exact h.work (v := .leaving k ending) hn rfl rfl rfl rfl
  · exact h.work (v := .asleep k next) hn rfl rfl rfl rfl

/-- A worker that has come to the end gives its key back, by one call on the queue. -/
lemma Sound.leaving (h : x.Sound) {n : Nat} {k : ObjectKey} {ending : Ending Outcome}
    (hn : x.controller.workers[n]? = some (.leaving k ending)) :
    (x.move (.step (.worker n))).Sound := by
  obtain ⟨a, b, hreturning, hset⟩ := Worker.returning_set hn
  have hperm := h.returning
  rw [hreturning] at hperm
  rcases hretry : ending.retry with _ | delay <;>
    simp only [Custody.move, Observed.move, Controller.asked, Controller.askOf, Controller.handling,
      Controller.step, Controller.stepWorker, Controller.release, hn, hretry, List.singleton_append]
  · refine h.giveBack (w := .idle) hn (.done k) rfl rfl ?_ rfl ?_ ?_
    · simp only [Ledger.move, h.queue_eq]
      rfl
    · exact WorkQueue.done_processing _ k
    · exact (Worker.returning_set_same (v := .idle) hn rfl).symm ▸ h.returning
  · have hprocessing := x.controller.queue.endForRetry_processing k delay
    rcases hend : x.controller.queue.endForRetry k delay with ⟨_ | d, q, woken⟩ <;>
      rw [hend] at hprocessing <;> simp only
    · refine h.giveBack (w := .idle) hn (.requeue k delay) rfl rfl ?_ ?_ hprocessing ?_
      · simp only [Ledger.move, h.queue_eq, hend]
        rfl
      · simp only [Ledger.move, h.queue_eq, hend]
        split <;> rfl
      · simp only [Ledger.move, h.queue_eq, hend]
        exact (Worker.returning_set_same (v := .idle) hn rfl).symm ▸ h.returning
    · refine h.giveBack (w := .returning k d) hn (.requeue k delay) rfl rfl ?_ ?_ hprocessing ?_
      · simp only [Ledger.move, h.queue_eq, hend]
        rfl
      · simp only [Ledger.move, h.queue_eq, hend]
        rfl
      · simp only [Ledger.move, h.queue_eq, hend]
        refine (hperm.cons (k, d)).trans ?_
        exact (hset (.returning k d)).symm ▸ List.perm_middle.symm

/-- A worker lets the key come back that it has given back before. -/
lemma Sound.comeBack (h : x.Sound) {n : Nat} {k : ObjectKey} {d : Duration}
    (hn : x.controller.workers[n]? = some (.returning k d)) :
    (x.move (.step (.worker n))).Sound := by
  obtain ⟨a, b, hreturning, hset⟩ := Worker.returning_set hn
  have hperm := h.returning
  rw [hreturning] at hperm
  have hmem : (k, d) ∈ x.ledger.returning := hperm.mem_iff.mpr (by simp [Worker.returning?])
  have hmove : x.ledger.move (.comeBack k d) =
      { queue := (x.ledger.queue.comeBack k d).queue
        returning := x.ledger.returning.erase (k, d)
        record := if d = 0 then .added k :: x.ledger.record else x.ledger.record } := by
    simp only [Ledger.move, if_pos hmem]
  obtain ⟨agenda, heq⟩ := x.controller.bringBack_eq n k d
  simp only [Custody.move, Observed.move, Controller.asked, Controller.askOf, Controller.handling,
    Controller.step, Controller.stepWorker, hn, heq, List.nil_append]
  refine h.called (.comeBack k d) ?_ ?_ ?_ ?_ fun m j => ?_
  · rw [hmove, h.queue_eq]
  · rw [hmove]
    simp only
    split <;> rfl
  · exact WorkQueue.comeBack_processing _ k d
  · rw [hmove]
    refine (hperm.erase (k, d)).trans ?_
    have hmiddle : (a ++ (k, d) :: b).Perm ((k, d) :: (a ++ b)) := List.perm_middle
    have herase := hmiddle.erase (k, d)
    rw [List.erase_cons_head] at herase
    exact (hset .idle).symm ▸ herase
  · exact Worker.hasAt_set_same hn rfl

lemma Sound.stepWorker (h : x.Sound) (n : Nat) : (x.move (.step (.worker n))).Sound := by
  rcases hn : x.controller.workers[n]? with
    _ | (_ | k | ⟨k, job⟩ | ⟨k, job⟩ | ⟨k, ending⟩ | ⟨k, d⟩ | _)
  · simp only [Custody.move, Observed.move, Controller.asked, Controller.askOf, Controller.handling,
      Controller.step, Controller.stepWorker, hn, List.nil_append]
    exact h.uncalled rfl rfl fun _ _ => Iff.rfl
  · exact h.idle hn
  · exact h.holding hn
  · exact h.busy hn
  · simp only [Custody.move, Observed.move, Controller.asked, Controller.askOf, Controller.handling,
      Controller.step, Controller.stepWorker, hn, List.nil_append]
    exact h.work (v := .busy k job) hn rfl rfl rfl rfl
  · exact h.leaving hn
  · exact h.comeBack hn
  · simp only [Custody.move, Observed.move, Controller.asked, Controller.askOf, Controller.handling,
      Controller.step, Controller.stepWorker, hn, List.nil_append]
    exact h.uncalled rfl rfl fun _ _ => Iff.rfl

lemma Sound.move (h : x.Sound) (m : ControllerMove α) : (x.move m).Sound := by
  cases m with
  | step task =>
    cases task with
    | informer => exact h.stepInformer
    | dispatcher => exact h.stepDispatcher
    | worker n => exact h.stepWorker n
    | delayed ticket => exact h.stepDelayed ticket
    | supervisor => exact h.stepSupervisor
  | progress n =>
    simp only [Custody.move, Controller.asked, Controller.handling, Observed.move, List.nil_append]
    split
    next k effect next hn =>
      obtain ⟨agenda, heq⟩ := x.controller.setCluster_eq (effect x.controller.cluster)
      rw [heq]
      exact h.work (v := .busy k (next x.controller.cluster)) hn rfl rfl rfl rfl
    · exact h.uncalled rfl rfl fun _ _ => Iff.rfl
  | act action =>
    obtain ⟨agenda, heq⟩ := x.controller.setCluster_eq
      (Collection.setStore x.controller.cluster (x.controller.store.act action))
    simp only [Custody.move, Controller.asked, Controller.handling, Observed.move, heq,
      List.nil_append]
    exact h.uncalled rfl rfl fun _ _ => Iff.rfl
  | surround cluster =>
    obtain ⟨agenda, heq⟩ := x.controller.setCluster_eq
      (Collection.setStore cluster x.controller.store)
    simp only [Custody.move, Controller.asked, Controller.handling, Observed.move, heq,
      List.nil_append]
    exact h.uncalled rfl rfl fun _ _ => Iff.rfl
  | enqueue k => exact h.add k rfl rfl
  | stop => exact h.uncalled rfl rfl fun _ _ => Iff.rfl
  | schedule agenda current => exact h.uncalled rfl rfl fun _ _ => Iff.rfl

lemma Sound.after (h : x.Sound) (moves : List (ControllerMove α)) : (x.after moves).Sound := by
  induction moves generalizing x with
  | nil => exact h
  | cons m moves ih => exact ih (h.move m)

lemma start_sound (config : ControllerConfig) (predicate : Predicate α)
    (reconciler : Reconciler σ α) (memory : σ) (cluster : Cluster) :
    (start config predicate reconciler memory cluster).Sound := by
  have hidle (n : Nat) (w : Worker)
      (hw : (List.replicate (max config.workers 1) Worker.idle)[n]? = some w) : w = .idle :=
    (List.mem_replicate.mp (List.mem_of_getElem? hw)).2
  refine ⟨rfl, ?_, ?_, rfl, trivial, ?_, ?_⟩
  · exact Ledger.run_sound config.rateLimitBase config.rateLimitMax []
  · simp [start, Controller.start, Worker.returning?]
  · simp [start, Controller.start, WorkQueue.new, Handling.holder]
  · intro n k
    refine iff_of_false (by simp [start, Handling.holder]) ?_
    rintro ⟨w, hw, hk⟩
    rw [hidle n w hw] at hk
    simp [Worker.key?] at hk

/-! ## Work comes to an end -/

/-- Something makes a worker go on that is at `w`: a step of its own, or an action of its work. -/
def Stirs (n : Nat) (w : Worker) (m : ControllerMove α) : Prop :=
  m = .step (.worker n) ∨ m = .progress n ∧ ∃ k effect next, w = .busy k (.act effect next)

/-- A worker stays as it is until something makes it go on. -/
lemma worker_move {n : Nat} {w : Worker} (hn : x.controller.workers[n]? = some w)
    {m : ControllerMove α} (hm : ¬ Stirs n w m) : (x.move m).controller.workers[n]? = some w := by
  have hset (l : List Worker) {i : Nat} (v : Worker) (hi : i ≠ n) : (l.set i v)[n]? = l[n]? :=
    List.getElem?_set_ne hi
  simp only [Custody.move]
  by_cases hother : ∀ i, m ≠ .step (.worker i) ∧ m ≠ .progress i
  · rw [(x.toObserved.move_steady hother).1.workers, hn]
  · push Not at hother
    obtain ⟨i, hi⟩ := hother
    by_cases hstep : m = .step (.worker i)
    · subst hstep
      have hne : i ≠ n := fun hi => hm (.inl (by rw [hi]))
      obtain ⟨v, hv⟩ := x.controller.stepWorker_workers i
      exact hv ▸ (hset _ v hne).trans hn
    · obtain rfl := hi hstep
      simp only [Observed.move]
      split
      next k effect next hi =>
        obtain ⟨agenda, heq⟩ := x.controller.setCluster_eq (effect x.controller.cluster)
        have hne : i ≠ n := by
          rintro rfl
          exact hm (.inr ⟨rfl, k, effect, next, Option.some.inj (hn.symm.trans hi)⟩)
        rw [heq]
        exact (hset _ _ hne).trans hn
      · exact hn

/-- The states of an endless run. -/
def follow (x : Custody σ α) (moves : Nat → ControllerMove α) (i : Nat) : Custody σ α :=
  x.after ((List.range i).map moves)

variable {moves : Nat → ControllerMove α} {n : Nat} {k : ObjectKey}

lemma follow_succ (x : Custody σ α) (moves : Nat → ControllerMove α) (i : Nat) :
    x.follow moves (i + 1) = (x.follow moves i).move (moves i) := by
  simp [follow, after, List.range_succ, List.foldl_append]

/-- A worker that gets its turn again and again is as it is until something makes it go on, and that
comes. -/
lemma exists_stirs (hfair : ∀ i, ∃ j ≥ i, moves j = .step (.worker n)) {i : Nat} {w : Worker}
    (hi : (x.follow moves i).controller.workers[n]? = some w) :
    ∃ j ≥ i, (x.follow moves j).controller.workers[n]? = some w ∧ Stirs n w (moves j) := by
  obtain ⟨j, hij, hj⟩ := hfair i
  obtain ⟨d, rfl⟩ := Nat.exists_eq_add_of_le hij
  -- by induction on the time until the worker has its turn
  induction d generalizing i with
  | zero => exact ⟨i, le_rfl, hi, .inl hj⟩
  | succ d ih =>
    by_cases hs : Stirs n w (moves i)
    · exact ⟨i, le_rfl, hi, hs⟩
    · have hnext : (x.follow moves (i + 1)).controller.workers[n]? = some w := by
        rw [follow_succ]
        exact worker_move hi hs
      have hj' : moves (i + 1 + d) = .step (.worker n) := by
        rw [← hj]
        congr 1
        omega
      obtain ⟨l, hl, hw⟩ := ih hnext (by omega) hj'
      exact ⟨l, by omega, hw⟩

/-- A worker with this work to do on the key comes to the end of it. -/
def ComesToEnd (x : Custody σ α) (moves : Nat → ControllerMove α) (n : Nat) (k : ObjectKey)
    (job : Task Outcome) : Prop :=
  ∀ i, ((x.follow moves i).controller.workers[n]? = some (.busy k job) ∨
      (x.follow moves i).controller.workers[n]? = some (.asleep k job)) →
    ∃ j ≥ i, ∃ ending, (x.follow moves j).controller.workers[n]? = some (.leaving k ending)

/-- The worker that is to go on is there. -/
lemma getElem?_set_worker {workers : List Worker} {w : Worker} (hn : workers[n]? = some w)
    (w' : Worker) : (workers.set n w')[n]? = some w' :=
  List.getElem?_set_self (List.getElem?_eq_some_iff.mp hn).1

lemma comesToEnd_of_next (hfair : ∀ i, ∃ j ≥ i, moves j = .step (.worker n)) {job : Task Outcome}
    (hact : ∀ effect next, job = .act effect next → ∀ c, x.ComesToEnd moves n k (next c))
    (hsleep : ∀ c d next c', job.advance c = (.asleep d next, c') → x.ComesToEnd moves n k next) :
    x.ComesToEnd moves n k job := by
  have hbusy : ∀ i, (x.follow moves i).controller.workers[n]? = some (.busy k job) →
      ∃ j ≥ i, ∃ ending, (x.follow moves j).controller.workers[n]? = some (.leaving k ending) := by
    intro i hi
    obtain ⟨j, hij, hj, hstep | ⟨hstep, _, effect, next, hjob⟩⟩ := exists_stirs hfair hi
    · rcases hadvance : job.advance (x.follow moves j).controller.cluster with
        ⟨ending | ⟨d, next⟩, cluster⟩ <;>
        obtain ⟨agenda, hcluster⟩ := (x.follow moves j).controller.setCluster_eq cluster
      · refine ⟨j + 1, by omega, ending, ?_⟩
        simp only [follow_succ, hstep, move, Observed.move, Controller.step, Controller.stepWorker,
          hj, hadvance, hcluster]
        exact getElem?_set_worker hj _
      · obtain ⟨l, hl, hend⟩ := hsleep _ d next cluster hadvance (j + 1) (.inr (by
          simp only [follow_succ, hstep, move, Observed.move, Controller.step,
            Controller.stepWorker, hj, hadvance, hcluster]
          exact getElem?_set_worker hj _))
        exact ⟨l, by omega, hend⟩
    · obtain ⟨rfl, rfl⟩ := Worker.busy.inj hjob
      obtain ⟨agenda, hcluster⟩ := (x.follow moves j).controller.setCluster_eq
        (effect (x.follow moves j).controller.cluster)
      obtain ⟨l, hl, hend⟩ := hact effect next rfl (x.follow moves j).controller.cluster (j + 1)
        (.inl (by
          simp only [follow_succ, hstep, move, Observed.move, hj, hcluster]
          exact getElem?_set_worker hj _))
      exact ⟨l, by omega, hend⟩
  rintro i (hi | hi)
  · exact hbusy i hi
  · obtain ⟨j, hij, hj, hstep | ⟨-, _, _, _, hjob⟩⟩ := exists_stirs hfair hi
    · obtain ⟨l, hl, hend⟩ := hbusy (j + 1) (by
        simp only [follow_succ, hstep, move, Observed.move, Controller.step, Controller.stepWorker,
          hj]
        exact getElem?_set_worker hj _)
      exact ⟨l, by omega, hend⟩
    · simp at hjob

/-- Every work comes to its end, since it is finite, whatever it finds in the cluster. -/
lemma comesToEnd (hfair : ∀ i, ∃ j ≥ i, moves j = .step (.worker n)) (job : Task Outcome) :
    x.ComesToEnd moves n k job := by
  have hboth : x.ComesToEnd moves n k job ∧ ∀ c d next c', job.advance c = (.asleep d next, c') →
      x.ComesToEnd moves n k next := by
    induction job with
    | done b =>
      have hsleep : ∀ c d next c', (Job.done b).advance c = (.asleep d next, c') →
          x.ComesToEnd moves n k next := by simp [Job.advance]
      exact ⟨comesToEnd_of_next hfair (by simp) hsleep, hsleep⟩
    | act effect next ih =>
      have hsleep : ∀ c d next' c', (Job.act effect next).advance c = (.asleep d next', c') →
          x.ComesToEnd moves n k next' := fun c d next' c' h => (ih c).2 (effect c) d next' c' h
      refine ⟨comesToEnd_of_next hfair ?_ hsleep, hsleep⟩
      rintro _ _ ⟨⟩ c
      exact (ih c).1
    | sleep d next ih =>
      have hsleep : ∀ c d' next' c', (Job.sleep d next).advance c = (.asleep d' next', c') →
          x.ComesToEnd moves n k next' := by
        rintro _ _ _ _ ⟨⟩
        exact ih.1
      exact ⟨comesToEnd_of_next hfair (by simp) hsleep, hsleep⟩
  exact hboth.1

/-- A worker that has a key comes to the end of its work on it. -/
lemma exists_leaving (hfair : ∀ i, ∃ j ≥ i, moves j = .step (.worker n))
    (h : Worker.HasAt x.controller.workers n k) :
    ∃ j ending, (x.follow moves j).controller.workers[n]? = some (.leaving k ending) := by
  obtain ⟨w, hw, hk⟩ := h
  have hstart : (x.follow moves 0).controller.workers[n]? = some w := hw
  cases w with
  | idle | returning | exited => simp [Worker.key?] at hk
  | holding j =>
    obtain rfl := Option.some.inj hk
    obtain ⟨i, -, hi, hstep | ⟨-, _, _, _, hjob⟩⟩ := exists_stirs hfair hstart
    · obtain ⟨job, memory, cluster, heq⟩ := Controller.stepWorker_holding hi
      obtain ⟨l, -, hend⟩ := comesToEnd (x := x) (k := j) hfair job (i + 1) (.inl (by
        simp only [follow_succ, hstep, move, Observed.move, Controller.step, heq]
        exact getElem?_set_worker hi _))
      exact ⟨l, hend⟩
    · simp at hjob
  | busy j job =>
    obtain rfl := Option.some.inj hk
    obtain ⟨l, -, hend⟩ := comesToEnd hfair job 0 (.inl hstart)
    exact ⟨l, hend⟩
  | asleep j job =>
    obtain rfl := Option.some.inj hk
    obtain ⟨l, -, hend⟩ := comesToEnd hfair job 0 (.inr hstart)
    exact ⟨l, hend⟩
  | leaving j ending =>
    obtain rfl := Option.some.inj hk
    exact ⟨0, ending, hstart⟩

lemma hands_follow (x : Custody σ α) (moves : Nat → ControllerMove α) (i : Nat) :
    ∃ newer, (x.follow moves i).hands = newer ++ x.hands := by
  induction i with
  | zero => exact ⟨[], rfl⟩
  | succ i ih =>
    obtain ⟨newer, hnewer⟩ := ih
    refine ⟨(x.follow moves i).controller.handling (moves i) ++ newer, ?_⟩
    rw [follow_succ, move, hnewer, List.append_assoc]

/-- A worker that has a key gives it back in the end, if it gets its turn again and again. -/
lemma exists_gaveBack (hfair : ∀ i, ∃ j ≥ i, moves j = .step (.worker n))
    (h : Worker.HasAt x.controller.workers n k) :
    ∃ i newer, (x.follow moves i).hands = newer ++ x.hands ∧ .gaveBack n k ∈ newer := by
  obtain ⟨i, ending, hi⟩ := exists_leaving hfair h
  obtain ⟨j, -, hj, hstep | ⟨-, _, _, _, hjob⟩⟩ := exists_stirs hfair hi
  · obtain ⟨newer, hnewer⟩ := hands_follow x moves j
    refine ⟨j + 1, .gaveBack n k :: newer, ?_, by simp⟩
    simp only [follow_succ, hstep, move, Controller.handling, hj, hnewer]
    rfl
  · simp at hjob

/-- In every state of every run, with any number of workers and whatever the reconciler does, the keys
in work are those that workers have, and no two workers have one key. A worker that has taken a key has
it still, or has given it back before it took another one; nobody else gives it back, and it is not
given back twice. A worker that gets its turn again and again gives back the key that it has. All this
is by the record of what was asked of the queue, which is that of the controller. -/
theorem each_key_given_back_once (config : ControllerConfig) (predicate : Predicate α)
    (reconciler : Reconciler σ α) (memory : σ) (cluster : Cluster) (moves : List (ControllerMove α)) :
    let x := (start config predicate reconciler memory cluster).after moves
    let Has := Worker.HasAt x.controller.workers
    (x.ledger.queue = x.controller.queue ∧
      x.ledger.record.filter QueueEntry.isHandling = x.hands.map Handling.entry) ∧
    (∀ k, k ∈ x.controller.queue.processing ↔ ∃ n, Has n k) ∧
    (∀ m n k, Has m k → Has n k → m = n) ∧
    (∀ n k newer older, x.hands = newer ++ .took n k :: older →
      (Has n k ∧ (∀ m, .gaveBack m k ∉ newer) ∧ ∀ j, .took n j ∉ newer) ∨
      ∃ later between, newer = later ++ .gaveBack n k :: between ∧
        (∀ m, .gaveBack m k ∉ between) ∧ ∀ j, .took n j ∉ between) ∧
    (∀ n k newer older, x.hands = newer ++ .gaveBack n k :: older →
      ∃ between rest, older = between ++ .took n k :: rest ∧
        (∀ m, .took m k ∉ between) ∧ ∀ m, .gaveBack m k ∉ between) ∧
    ∀ n k, Has n k → ∀ next : Nat → ControllerMove α,
      (∀ i, ∃ j ≥ i, next j = .step (.worker n)) →
      ∃ i newer, (x.follow next i).hands = newer ++ x.hands ∧ .gaveBack n k ∈ newer := by
  intro x Has
  have h : x.Sound := (start_sound config predicate reconciler memory cluster).after moves
  refine ⟨⟨h.queue_eq, h.record⟩, ?_, ?_, ?_, ?_, ?_⟩
  · intro k
    rw [h.processing_iff, Option.isSome_iff_exists]
    exact exists_congr fun n => h.holder_iff n k
  · intro m n k hm hn
    exact Option.some.inj (((h.holder_iff m k).mpr hm).symm.trans ((h.holder_iff n k).mpr hn))
  · intro n k newer older hhands
    have hpaired := h.paired
    rw [hhands] at hpaired
    refine hpaired.took_cases.imp_left fun ⟨hheld, hrest⟩ => ⟨?_, hrest⟩
    rw [← hhands] at hheld
    exact (h.holder_iff n k).mp hheld
  · intro n k newer older hhands
    have hpaired := h.paired
    rw [hhands] at hpaired
    exact Handling.took_of_holder hpaired.suffix.1
  · exact fun n k hk next hfair => exists_gaveBack hfair hk

/-- Two workers take a key each; one of the keys is added again meanwhile, comes back to the line when
it is given back, and is taken once more. -/
def takenAgain : Custody Unit :=
  (start { workers := 2 } .always .idle () (.new { seconds := 0 } "controller")).after
    [.enqueue ⟨none, "v"⟩, .enqueue ⟨none, "w"⟩, .step (.worker 0), .step (.worker 1),
      .enqueue ⟨none, "v"⟩, .step (.worker 0), .step (.worker 0), .step (.worker 0),
      .step (.worker 0)]

theorem each_key_given_back_once_takenAgain :
    takenAgain.hands = [.took 0 ⟨none, "v"⟩, .gaveBack 0 ⟨none, "v"⟩, .took 1 ⟨none, "w"⟩,
      .took 0 ⟨none, "v"⟩] ∧
    (∃ n, Worker.HasAt takenAgain.controller.workers n ⟨none, "v"⟩) ∧
    ∀ n, Worker.HasAt takenAgain.controller.workers n ⟨none, "w"⟩ → n = 1 := by
  obtain ⟨-, hprocessing, hsole, -⟩ := each_key_given_back_once (α := Widget) { workers := 2 }
    .always .idle () (.new { seconds := 0 } "controller")
    [.enqueue ⟨none, "v"⟩, .enqueue ⟨none, "w"⟩, .step (.worker 0), .step (.worker 1),
      .enqueue ⟨none, "v"⟩, .step (.worker 0), .step (.worker 0), .step (.worker 0),
      .step (.worker 0)]
  refine ⟨by rfl, (hprocessing ⟨none, "v"⟩).mp (by decide), fun n hn => ?_⟩
  exact hsole n 1 ⟨none, "w"⟩ hn ⟨.holding ⟨none, "w"⟩, by rfl, rfl⟩

end Custody

end ControlLoop
