import ControlLoop.Proofs.ControllerRuns
import ControlLoop.Proofs.ReconcilerSteps

/-!
# A controller that has come to rest is up to date

When nothing is left to do, the copy of the informer is what is stored, no visit is on its way, and so
the last visit of every object has read what is stored and has ended well. What happened before, and in
which order, makes no difference.
-/
namespace ControlLoop

/-- Nothing is left to do: the informer is connected and has nothing to be told, no change is to be
dispatched, and no key is in line, in work, put off or on its way back. -/
structure Controller.Quiet {σ α : Type} [Resource α] [Collection α] (c : Controller σ α) : Prop where
  open_ : c.queue.shuttingDown = false
  connected : ∃ version w rest, c.feed.informer.phase = .watching version ∧
    c.feed.watch = some w ∧ c.store.next w = .waiting rest
  answer : c.feed.answer = none
  changes : c.changes = []
  queued : c.queue.queued = []
  processing : c.queue.processing = []
  delayed : c.queue.delayed = []
  returning : ∀ k d, Worker.returning k d ∉ c.workers

lemma Ending.eq_of_retry {ending : Ending Outcome} (h : ending.retry = none) :
    ending = .returned {} := by
  rcases ending with ⟨_ | _, _ | _⟩ | _ | _ <;> simp [Ending.retry] at h
  rfl

lemma lastVisit_isSome {α : Type} {k : ObjectKey} {read : Option α} {notes : List (VisitNote α)}
    (h : .looked k read ∈ notes) : (lastVisit k notes).isSome = true := by
  induction notes with
  | nil => simp at h
  | cons note notes ih =>
    rcases List.mem_cons.mp h with rfl | hrest
    · simp [lastVisit]
    · cases note with
      | looked j read' =>
        rw [lastVisit]
        split
        · rfl
        · exact ih hrest
      | ended j ending =>
        rw [lastVisit]
        split
        · rw [Option.isSome_map]
          exact ih hrest
        · exact ih hrest

namespace Observed

variable {σ α : Type} [Resource α] [Collection α] {x : Observed σ α} {scope : Option String}

/-- At rest, the last visit of every key has read what the copy holds, and has ended well. -/
lemma Sound.visited (h : Sound scope x) (hq : x.controller.Quiet) (k : ObjectKey) :
    lastRead k x.notes = x.controller.informer.cache.get? k ∧
      ∀ visit, lastVisit k x.notes = some visit → visit.ending = some (.returned {}) := by
  have hl : x.rounds.Level := h.level.resolve_left (by simp [hq.open_])
  have hidle : k ∉ x.controller.queue.processing := by simp [hq.processing]
  have hpending : ¬ x.controller.queue.IsPending k := by
    rintro (hk | hk)
    · simp [hq.queued] at hk
    · exact hidle (hl.serves.consistent.dirty_processing k hk)
  have hholding : Worker.holding k ∉ x.controller.workers := by
    intro hk
    exact hidle ((hl.held_iff k).mpr (List.mem_filterMap.mpr ⟨_, hk, rfl⟩))
  constructor
  · refine (hl.read k).resolve_left ?_
    rintro (⟨c, hc, -⟩ | hk | hk)
    · simp [rounds, hq.changes] at hc
    · exact hpending hk
    · exact hholding hk
  · intro visit hvisit
    rcases hl.visit k visit hvisit with ⟨-, hk⟩ | ⟨ending, hending, hretry | hk | hk | hk | ⟨d, hk⟩⟩
    · exact absurd hk hidle
    · rw [hending, Ending.eq_of_retry hretry]
    · exact absurd hk hpending
    · exact absurd hk hholding
    · obtain ⟨d, hd, -⟩ := hk
      simp [rounds, hq.delayed] at hd
    · exact absurd hk (hq.returning k d)

lemma Sound.cache_of_quiet (h : Sound scope x) (hq : x.controller.Quiet) :
    x.controller.informer.cache =
      x.controller.store.objects.filterKeys (·.inScope scope) := by
  obtain ⟨v, hf⟩ := h.follows
  obtain ⟨version, w, rest, hp, hw, hnext⟩ := hq.connected
  exact hf.cache_of_waiting hp hw hq.answer hnext

/-- Whatever the order in which the tasks of a controller go on and clients, disconnections,
compactions and failures come between: when nothing is left to do, the last visit of every object in
the scope has read what is stored, the last visit of every key under which nothing is stored any more
has found nothing, and all of them have ended well. -/
theorem up_to_date_of_quiet [LawfulResource α] [LawfulCollection α] (config : ControllerConfig)
    {reconciler : Reconciler σ α} (hr : reconciler.Orderly) (memory : σ) (cluster : Cluster)
    (limit : Nat) (moves : List (ControllerMove α))
    (hq : (run config reconciler memory cluster limit moves).controller.Quiet) :
    let x := run config reconciler memory cluster limit moves
    (∀ k a, k.inScope config.ns = true → x.controller.store.objects.get? k = some a →
      lastVisit k x.notes = some { read := some a, ending := some (.returned {}) }) ∧
    ∀ k read, .looked k read ∈ x.notes → x.controller.store.objects.get? k = none →
      lastVisit k x.notes = some { read := none, ending := some (.returned {}) } := by
  intro x
  have h : Sound config.ns x := run_sound config hr memory cluster limit moves
  have hcache := h.cache_of_quiet hq
  constructor
  · intro k a hk ha
    obtain ⟨hread, hending⟩ := h.visited hq k
    rw [hcache, KeyMap.get?_filterKeys, if_pos hk, ha] at hread
    obtain ⟨visit, hvisit, hvisitRead⟩ := Option.bind_eq_some_iff.mp hread
    have hend := hending visit hvisit
    rcases visit with ⟨read, ending⟩
    simp only at hvisitRead hend
    rw [hvisit, hvisitRead, hend]
  · intro k read hlooked hnone
    obtain ⟨hread, hending⟩ := h.visited hq k
    obtain ⟨visit, hvisit⟩ := Option.isSome_iff_exists.mp (lastVisit_isSome hlooked)
    rw [hcache, KeyMap.get?_filterKeys, hnone, ite_self, lastRead, hvisit] at hread
    have hend := hending visit hvisit
    rcases visit with ⟨read', ending⟩
    simp only [Option.bind_some] at hread hend
    rw [hvisit, hread, hend]

def sample (name : String) (replicas : Int) : Widget where
  metadata := { name := some name }
  spec := { replicas := replicas }

def steps (n : Nat) (task : ControllerTask) : List (ControllerMove α) := List.replicate n (.step task)

/-- The first visit of one widget fails while it is changed and another one is removed, with the watch
cut off and a history of one event, so that the informer has to list again. -/
def missedChanges : List (ControllerMove Widget) :=
  [.act (.create ⟨{ seconds := 0 }, "1"⟩ (some "a") (sample "v" 1)),
    .act (.create ⟨{ seconds := 0 }, "2"⟩ (some "a") (sample "w" 1))] ++
  steps 4 .informer ++ steps 2 .dispatcher ++ steps 7 (.worker 0) ++
  [.act .disconnect, .act (.update (some "a") (sample "w" 2)),
    .act (.delete { seconds := 1 } ⟨some "a", "v"⟩)] ++
  steps 2 (.worker 0) ++ steps 9 .informer ++ steps 2 .dispatcher ++ steps 2 (.delayed 0) ++
  steps 8 (.worker 0)

def afterMissedChanges : Observed Script :=
  run { workers := 1 } Script.reconciler
    { reconcile := [("w", [{ finish := .fail (.other "not yet") }])] }
    (.new { seconds := 0 } "controller") 1 missedChanges

set_option maxRecDepth 4000 in
lemma quiet_afterMissedChanges : afterMissedChanges.controller.Quiet where
  open_ := by rfl
  connected := ⟨"4", ⟨none, [], 1, 4⟩, ⟨none, [], 1, 4⟩, by rfl, by rfl, by rfl⟩
  answer := by rfl
  changes := by rfl
  queued := by rfl
  processing := by rfl
  delayed := by rfl
  returning := by
    have hworkers : afterMissedChanges.controller.workers = [.idle] := by rfl
    simp [hworkers]

set_option maxRecDepth 4000 in
theorem up_to_date_of_quiet_missedChanges :
    let x := afterMissedChanges
    x.controller.Quiet ∧
    (∃ w, x.controller.cluster.widgets.objects.get? ⟨some "a", "w"⟩ = some w ∧
      lastVisit ⟨some "a", "w"⟩ x.notes = some { read := some w, ending := some (.returned {}) }) ∧
    lastVisit ⟨some "a", "v"⟩ x.notes = some { read := none, ending := some (.returned {}) } := by
  have hquiet := quiet_afterMissedChanges
  obtain ⟨hstored, hgone⟩ := up_to_date_of_quiet { workers := 1 } Script.reconciler_orderly _ _ 1
    missedChanges hquiet
  refine ⟨hquiet, ?_, ?_⟩
  · have hw : (afterMissedChanges.controller.cluster.widgets.objects.get? ⟨some "a", "w"⟩).isSome =
        true := by rfl
    obtain ⟨w, hw⟩ := Option.isSome_iff_exists.mp hw
    exact ⟨w, hw, hstored _ w rfl hw⟩
  · have hlooked : afterMissedChanges.notes[1]? = some (.looked ⟨some "a", "v"⟩ none) := by rfl
    exact hgone _ none (List.mem_of_getElem? hlooked) (by rfl)

end Observed

end ControlLoop
