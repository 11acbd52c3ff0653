import ControlLoop.Proofs.Rounds
import ControlLoop.Proofs.WakeUps

/-!
# A queue in service is a queue in shared use

In a service the parts of a call follow one another at once, and the tasks that can go on take turns. So
each of its runs is one of the runs of a shared queue, and when all its tasks have had their turns the
shared queue is settled.
-/
namespace ControlLoop

namespace Agenda

variable {τ : Type} [DecidableEq τ] {a : Agenda τ} {task other : τ}

lemma mem_wake : other ∈ (a.wake task).ready ↔ other ∈ a.ready ∨ other = task := by
  unfold wake
  split
  · next h => exact ⟨.inl, fun ho => ho.elim id fun he => he ▸ h⟩
  · simp

lemma mem_wakeAll {tasks : List τ} :
    other ∈ (a.wakeAll tasks).ready ↔ other ∈ a.ready ∨ other ∈ tasks := by
  induction tasks generalizing a with
  | nil => simp [wakeAll]
  | cons task rest ih =>
    rw [show a.wakeAll (task :: rest) = (a.wake task).wakeAll rest from rfl, ih, mem_wake, List.mem_cons,
      or_assoc]

lemma wake_nodup (h : a.ready.Nodup) : (a.wake task).ready.Nodup := by
  unfold wake
  split
  · exact h
  · next hnew =>
    refine List.nodup_append.mpr ⟨h, List.nodup_singleton task, fun b hb c hc => ?_⟩
    rintro rfl
    exact hnew (List.mem_singleton.mp hc ▸ hb)

lemma wakeAll_nodup {tasks : List τ} (h : a.ready.Nodup) : (a.wakeAll tasks).ready.Nodup := by
  induction tasks generalizing a with
  | nil => exact h
  | cons task rest ih => exact ih (wake_nodup h)

@[simp] lemma wake_timers : (a.wake task).timers = a.timers := by
  unfold wake
  split <;> rfl

@[simp] lemma wakeAll_timers {tasks : List τ} : (a.wakeAll tasks).timers = a.timers := by
  induction tasks generalizing a with
  | nil => rfl
  | cons task rest ih => exact (ih (a := a.wake task)).trans wake_timers

lemma wakeAll_length (tasks : List τ) :
    (a.wakeAll tasks).ready.length ≤ a.ready.length + tasks.length := by
  induction tasks generalizing a with
  | nil => rfl
  | cons task rest ih =>
    have hwake : (a.wake task).ready.length ≤ a.ready.length + 1 := by
      unfold wake
      split <;> simp
    have hrest := ih (a := a.wake task)
    rw [show a.wakeAll (task :: rest) = (a.wake task).wakeAll rest from rfl, List.length_cons]
    omega

lemma mem_insertTimer {t u : Timer τ} {timers : List (Timer τ)} :
    u ∈ insertTimer t timers ↔ u = t ∨ u ∈ timers := by
  induction timers with
  | nil => simp [insertTimer]
  | cons v rest ih =>
    unfold insertTimer
    split
    · simp only [List.mem_cons, ih]
      tauto
    · simp

/-- The clock moves without passing a deadline. -/
lemma moveTo_ready {time : Duration} (h : ∀ t, a.nextDeadline = some t → ¬ t ≤ time) :
    (a.moveTo time).ready = a.ready := by
  have hnone : a.timers.takeWhile (fun t => t.deadline ≤ time) = [] := by
    cases htimers : a.timers with
    | nil => rfl
    | cons t rest =>
      have hlate := h t.deadline (by simp [nextDeadline, htimers])
      simp [hlate]
  simp only [moveTo, hnone]
  rfl

end Agenda

namespace WorkQueue

variable {κ : Type}

/-- What a call has made of a queue: it has put no key in line and signalled nobody, or one key, for which
it has given one signal. -/
def Announces (q : WorkQueue κ) (r : WorkQueue κ × List Nat) : Prop :=
  (r.1.fifo = q.fifo ∧ r.1.signal = q.signal ∧ r.2 = []) ∨
  (r.1.fifo.length = q.fifo.length + 1 ∧ r.1.signal = q.signal.notifyOne.1 ∧
    r.2 = q.signal.notifyOne.2)

lemma Announces.woken_mem {q : WorkQueue κ} {r : WorkQueue κ × List Nat} (h : q.Announces r) :
    ∀ n ∈ r.2, n ∈ q.signal.waiting := by
  rcases h with ⟨-, -, hr⟩ | ⟨-, -, hr⟩
  · simp [hr]
  · rw [hr, Signal.notifyOne]
    split <;> simp_all

lemma Announces.woken_length {q : WorkQueue κ} {r : WorkQueue κ × List Nat} (h : q.Announces r) :
    r.2.length ≤ 1 := by
  rcases h with ⟨-, -, hr⟩ | ⟨-, -, hr⟩
  · simp [hr]
  · rw [hr, Signal.notifyOne]
    split <;> simp

variable [DecidableEq κ]

lemma enqueue_announces (q : WorkQueue κ) (k : κ) : Announces q (q.enqueue k) :=
  .inr ⟨by simp [enqueue], rfl, rfl⟩

lemma add_announces (q : WorkQueue κ) (k : κ) : Announces q (q.add k) := by
  unfold add
  split
  · exact .inl ⟨rfl, rfl, rfl⟩
  · split
    · exact .inl ⟨rfl, rfl, rfl⟩
    · exact enqueue_announces q k

/-- Only a key that lines up again is announced when the work on it ends. -/
lemma finish_announces (q : WorkQueue κ) (k : κ) :
    Announces q (q.finish k).2 ∧ ((q.finish k).1 = false → (q.finish k).2.2 = []) := by
  by_cases h : k ∈ q.dirty ∧ q.shuttingDown = false
  · refine ⟨?_, fun hf => absurd hf (by simp [finish, h.1, h.2])⟩
    rw [show (q.finish k).2 = (q.withoutWork k).enqueue k by simp [finish, h.1, h.2, withoutWork]]
    exact enqueue_announces (q.withoutWork k) k
  · have he : q.finish k = (false, q.withoutWork k, []) := by
      rw [finish, if_neg (by simpa using h)]
      rfl
    rw [he]
    exact ⟨.inl ⟨rfl, rfl, rfl⟩, fun _ => rfl⟩

lemma done_announces (q : WorkQueue κ) (k : κ) : Announces q (q.done k) :=
  (finish_announces { q with backoff := q.backoff.forget k } k).1

lemma readd_announces (q : WorkQueue κ) (ticket : Nat) : Announces q (q.readd ticket) := by
  unfold readd
  split
  · exact .inl ⟨rfl, rfl, rfl⟩
  · exact add_announces { q with delayed := _ } _

lemma endForRetry_announces (q : WorkQueue κ) (k : κ) (delay : Option Duration) :
    Announces q (q.endForRetry k delay).2 ∧
      ((q.endForRetry k delay).1 ≠ none → (q.endForRetry k delay).2.2 = []) := by
  have hends : ∀ (d : Duration) (q' : WorkQueue κ), q.chooseDelay k delay = (d, q') →
      q.endForRetry k delay =
        (if (q'.finish k).1 then none else some d, (q'.finish k).2.1, (q'.finish k).2.2) := by
    intro d q' h
    simp [endForRetry, h]
  have hchosen : ∃ d b, q.chooseDelay k delay = (d, { q with backoff := b }) := by
    cases delay with
    | some d => exact ⟨d, _, rfl⟩
    | none => exact ⟨_, _, rfl⟩
  obtain ⟨d, b, hchosen⟩ := hchosen
  obtain ⟨ha, hn⟩ := finish_announces { q with backoff := b } k
  rw [hends d _ hchosen]
  refine ⟨ha, fun h => hn ?_⟩
  by_contra hf
  exact h (by simp [hf])

lemma comeBack_announces (q : WorkQueue κ) (k : κ) (d : Duration) :
    Announces q ((q.comeBack k d).queue, (q.comeBack k d).woken) := by
  unfold comeBack
  split
  · exact add_announces q k
  · cases hs : q.shuttingDown <;> exact .inl (by simp [putOff, hs])

/-- The queue after a turn. -/
def Turn.queue : Turn κ → WorkQueue κ
  | .got _ q => q
  | .closed q => q
  | .waiting q => q

/-- What a turn has made of the one who had it. -/
def Turn.getter : Turn κ → Getter κ
  | .got k _ => .ended (some k)
  | .closed _ => .ended none
  | .waiting _ => .waiting

omit [DecidableEq κ] in
lemma Turn.getter_ne_lined (t : Turn κ) (cue : Option Cue) : t.getter ≠ .lined cue := by
  cases t <;> simp [getter]

end WorkQueue

namespace Getter

variable {κ : Type} {g : Getter κ}

/-- Whether somebody can begin to look. -/
def isReady : Getter κ → Bool
  | fresh => true
  | roused _ => true
  | _ => false

/-- Whether somebody has not come to the end. -/
def isPending : Getter κ → Bool
  | ended _ => false
  | gone => false
  | _ => true

lemma inLine_of_isReady (h : g.isReady = true) : g.inLine = false := by
  cases g with
  | fresh => rfl
  | roused _ => rfl
  | _ => exact absurd h (by simp [isReady])

end Getter

lemma WorkQueue.Turn.getter_isReady {κ : Type} (t : WorkQueue.Turn κ) : t.getter.isReady = false := by
  cases t <;> rfl

namespace SharedQueue

variable {κ : Type} {x : SharedQueue κ} {n : Nat} {g : Getter κ}

/-! ## What a shared queue shows of a service -/

/-- Between two steps of a service its queue is between two calls. The waits of `waits` have been begun
and not been given up. -/
structure Mirrors (waits : List Nat) (s : QueueService κ) (x : SharedQueue κ) : Prop where
  queue : x.queue = s.queue
  announced : x.announcements = 0
  told : x.closings = 0
  length : x.getters.length = s.waiters
  unlined : ∀ cue, .lined cue ∉ x.getters
  ready : ∀ n, .waiter n ∈ s.agenda.ready ↔ ∃ g, x.getters[n]? = some g ∧ g.isReady = true
  nodup : s.agenda.ready.Nodup
  timers : ∀ t ∈ s.agenda.timers, ∀ n, t.task ≠ .waiter n
  pending : ∀ n ∈ waits, n < s.waiters ∧
    ((s.served? n).isSome = true ∨ ∃ g, x.getters[n]? = some g ∧ g.isPending = true)

namespace Mirrors

variable {waits : List Nat} {s s' : QueueService κ} {w : Nat} {g' : Getter κ}

lemma begun (h : Mirrors waits s x) (hw : w < s.waiters)
    (hp : (s.served? w).isSome = true ∨ ∃ g, x.getters[w]? = some g ∧ g.isPending = true) :
    Mirrors (w :: waits) s x :=
  { h with
    pending := fun n hn => (List.mem_cons.mp hn).elim (fun he => he ▸ ⟨hw, hp⟩) (h.pending n) }

lemma mono (h : Mirrors (w :: waits) s x) : Mirrors waits s x :=
  { h with pending := fun n hn => h.pending n (List.mem_cons_of_mem _ hn) }

/-- When no task can go on, the shared queue is settled. -/
lemma settled (h : Mirrors waits s x) (hready : s.agenda.ready = []) : x.Settled := by
  refine ⟨h.announced, h.told, fun g hg => ?_⟩
  obtain ⟨n, hn⟩ := List.mem_iff_getElem?.mp hg
  have hrest : g.isReady ≠ true := by
    intro hr
    have hmem := (h.ready n).mpr ⟨g, hn, hr⟩
    simp [hready] at hmem
  cases g with
  | fresh => exact absurd rfl hrest
  | roused cue => exact absurd rfl hrest
  | lined cue => exact absurd hg (h.unlined cue)
  | waiting => exact .inl rfl
  | gone => exact .inr (.inl rfl)
  | ended key => exact .inr (.inr ⟨key, rfl⟩)

/-- Whoever has not come to the end and cannot go on waits. -/
lemma waiting_of_pending (h : Mirrors waits s x) (hready : s.agenda.ready = []) (hw : w ∈ waits)
    (hserved : s.served? w = none) : x.getters[w]? = some .waiting := by
  obtain ⟨g, hg, hpending⟩ := (h.pending w hw).2.resolve_left (by simp [hserved])
  rcases (h.settled hready).rested g (List.mem_of_getElem? hg) with rfl | rfl | ⟨key, rfl⟩
  · exact hg
  · exact absurd hpending (by simp [Getter.isPending])
  · exact absurd hpending (by simp [Getter.isPending])

/-- Only tasks of other kinds are woken, and only their timers are set. -/
lemma agenda (h : Mirrors waits s x) {a : Agenda QueueTask}
    (hready : ∀ n, .waiter n ∈ a.ready ↔ .waiter n ∈ s.agenda.ready) (hnodup : a.ready.Nodup)
    (htimers : ∀ t ∈ a.timers, ∀ n, t.task ≠ .waiter n) :
    Mirrors waits { s with agenda := a } x :=
  { h with ready := fun n => (hready n).trans (h.ready n), nodup := hnodup, timers := htimers }

/-- A call has signalled some of those in line. -/
lemma rouse (h : Mirrors waits s x) (hline : InStep x.queue.signal x.getters) (cue : Cue)
    {r : WorkQueue κ × List Nat} (hwoken : ∀ n ∈ r.2, n ∈ x.queue.signal.waiting) :
    Mirrors waits (s.apply r)
      { x with queue := r.1, getters := SharedQueue.rouse cue r.2 x.getters } := by
  have hwaiting : ∀ n ∈ r.2, x.getters[n]? = some .waiting := by
    intro n hn
    obtain ⟨g, hg, hin⟩ := (hline.mem_iff n).mp (hwoken n hn)
    cases g with
    | waiting => exact hg
    | lined cue => exact absurd (List.mem_of_getElem? hg) (h.unlined cue)
    | _ => exact absurd hin (by simp [Getter.inLine])
  refine ⟨rfl, h.announced, h.told, ?_, fun cue' hmem => ?_, fun n => ?_, ?_, ?_, fun n hn => ?_⟩
  · simpa [SharedQueue.rouse, QueueService.apply] using h.length
  · obtain ⟨n, hn⟩ := List.mem_iff_getElem?.mp hmem
    by_cases hw : n ∈ r.2
    · simp [getElem?_rouse, hwaiting n hw, hw, Getter.receive] at hn
    · simp only [getElem?_rouse, hw, if_false, Option.map_id'] at hn
      exact h.unlined cue' (List.mem_of_getElem? hn)
  · simp only [QueueService.apply, Agenda.mem_wakeAll, List.mem_map, QueueTask.waiter.injEq,
      exists_eq_right, h.ready, getElem?_rouse]
    by_cases hw : n ∈ r.2
    · simp [hw, hwaiting n hw, Getter.receive, Getter.isReady]
    · simp [hw]
  · exact Agenda.wakeAll_nodup h.nodup
  · simpa [QueueService.apply] using h.timers
  · refine ⟨(h.pending n hn).1, (h.pending n hn).2.imp_right ?_⟩
    rintro ⟨g, hg, hpending⟩
    by_cases hw : n ∈ r.2
    · exact ⟨.roused cue, by simp [getElem?_rouse, hwaiting n hw, hw, Getter.receive], rfl⟩
    · exact ⟨g, by simp [getElem?_rouse, hw, hg], hpending⟩

/-- Somebody who was to begin has had a turn, or somebody who waited has given up. -/
lemma set (h : Mirrors waits s x) (hw : w < s.waiters) (hwaiters : s'.waiters = s.waiters)
    (hunlined : ∀ cue, g' ≠ .lined cue) (hrest : g'.isReady = false)
    (hready : ∀ n, .waiter n ∈ s'.agenda.ready ↔ .waiter n ∈ s.agenda.ready ∧ n ≠ w)
    (hnodup : s'.agenda.ready.Nodup) (htimers : s'.agenda.timers = s.agenda.timers)
    (hserved : ∀ n, (s.served? n).isSome = true → (s'.served? n).isSome = true)
    (hself : w ∈ waits → (s'.served? w).isSome = true ∨ g'.isPending = true) :
    Mirrors waits s' { x with queue := s'.queue, getters := x.getters.set w g' } := by
  have hlt : w < x.getters.length := h.length ▸ hw
  refine ⟨rfl, h.announced, h.told, ?_, fun cue hmem => ?_, fun n => ?_, hnodup, htimers ▸ h.timers,
    fun n hn => ⟨hwaiters ▸ (h.pending n hn).1, ?_⟩⟩
  · simpa [hwaiters] using h.length
  · rcases List.mem_or_eq_of_mem_set hmem with hmem | he
    · exact h.unlined cue hmem
    · exact hunlined cue he.symm
  · rw [hready, h.ready]
    by_cases hn : n = w
    · subst hn
      simp [List.getElem?_set_self hlt, hrest]
    · simp [List.getElem?_set_ne (Ne.symm hn), hn]
  · by_cases hne : n = w
    · subst hne
      exact (hself hn).imp_right fun hp => ⟨g', List.getElem?_set_self hlt, hp⟩
    · simp only [List.getElem?_set_ne (Ne.symm hne)]
      exact (h.pending n hn).2.imp_left (hserved n)

/-- Somebody more has asked for a key. -/
lemma append (h : Mirrors waits s x) (hwaiters : s'.waiters = s.waiters + 1)
    (hunlined : ∀ cue, g' ≠ .lined cue)
    (hready : ∀ n, .waiter n ∈ s'.agenda.ready ↔
      .waiter n ∈ s.agenda.ready ∨ n = s.waiters ∧ g'.isReady = true)
    (hnodup : s'.agenda.ready.Nodup) (htimers : s'.agenda.timers = s.agenda.timers)
    (hserved : ∀ n, (s.served? n).isSome = true → (s'.served? n).isSome = true) :
    Mirrors waits s' { x with queue := s'.queue, getters := x.getters ++ [g'] } := by
  refine ⟨rfl, h.announced, h.told, ?_, fun cue hmem => ?_, fun n => ?_, hnodup, htimers ▸ h.timers,
    fun n hn => ?_⟩
  · simpa [hwaiters] using h.length
  · rcases List.mem_append.mp hmem with hmem | hmem
    · exact h.unlined cue hmem
    · exact hunlined cue (List.mem_singleton.mp hmem).symm
  · rw [hready, h.ready, ← h.length]
    rcases lt_trichotomy n x.getters.length with hn | rfl | hn
    · simp [List.getElem?_append_left hn, hn.ne]
    · simp
    · simp [List.getElem?_append, Nat.not_lt.mpr hn.le, Nat.sub_ne_zero_of_lt hn, hn.ne']
  · obtain ⟨hlt, hp⟩ := h.pending n hn
    have hlt' : n < x.getters.length := h.length ▸ hlt
    refine ⟨by omega, hp.imp (hserved n) ?_⟩
    rintro ⟨g, hg, hpending⟩
    exact ⟨g, by rw [List.getElem?_append_left hlt', hg], hpending⟩

end Mirrors

/-! ## Calls whose parts follow one another -/

variable [DecidableEq κ]

lemma Mirrors.start (base greatest : Duration) :
    Mirrors [] ({ queue := .new base greatest } : QueueService κ) (run base greatest []) := by
  constructor <;> simp [run, after]

lemma after_append (x : SharedQueue κ) (first later : List (SharedMove κ)) :
    x.after (first ++ later) = (x.after first).after later := List.foldl_append

lemma move_announce (h : x.announcements ≠ 0) :
    x.move .announce = { x with announcements := x.announcements - 1 }.signalOne := by
  simp only [move, if_neg h]

/-- A call whose parts follow one another. -/
lemma exists_announced {m : SharedMove κ} {r : WorkQueue κ × List Nat}
    (hm : x.move m = x.change r.1) (hr : x.queue.Announces r) (hx : x.announcements = 0) :
    ∃ moves, x.after moves =
      { x with queue := r.1, getters := rouse .one r.2 x.getters } := by
  rcases hr with ⟨hfifo, hsignal, hwoken⟩ | ⟨hfifo, hsignal, hwoken⟩
  · have hgrown : r.1.fifo.length - x.queue.fifo.length = 0 := by simp [hfifo]
    refine ⟨[m], ?_⟩
    rw [show x.after [m] = x.move m from rfl, hm]
    simp only [change, hgrown, hwoken, rouse_nil, ← hsignal, Nat.add_zero]
  · have hgrown : r.1.fifo.length - x.queue.fifo.length = 1 := by simp [hfifo]
    refine ⟨[m, .announce], ?_⟩
    rw [show x.after [m, .announce] = (x.move m).move .announce from rfl, hm,
      move_announce (by simp [change, hgrown])]
    simp only [signalOne, change, hgrown, hx, hwoken, ← hsignal, Nat.add_sub_cancel]

/-! ## A turn -/

omit [DecidableEq κ] in
/-- Whoever took a kept signal stands in no line. -/
lemma leave_lined (g : Getter κ) {kept : Bool} (h : kept = true → n ∉ x.queue.signal.waiting) :
    x.leave n (if kept then some .kept else none) g =
      { x with
        queue := { x.queue with signal := x.queue.signal.withdraw n }
        getters := x.getters.set n g } := by
  cases kept with
  | false => rfl
  | true =>
    have hsame : x.queue.signal.withdraw n = x.queue.signal := by
      have hfilter : x.queue.signal.waiting.filter (· ≠ n) = x.queue.signal.waiting :=
        List.filter_eq_self.mpr fun m hm => by
          simpa using fun he : m = n => h rfl (he ▸ hm)
      rw [Signal.withdraw, hfilter]
    rw [hsame]
    rfl

lemma move_lineUp (hn : x.getters[n]? = some g) (hg : g.isReady = true) :
    x.move (.lineUp n) =
      { x with
        queue := { x.queue with signal := x.queue.signal.enroll n }
        getters := x.getters.set n
          (.lined (if x.queue.signal.kept then some .kept else none)) } := by
  cases g with
  | fresh => simp only [move, hn]
  | roused cue => simp only [move, hn]
  | _ => exact absurd hg (by simp [Getter.isReady])

/-- Whoever lines up and finds nothing waits, or begins again if it took a kept signal. -/
lemma look_of_empty (hn : x.getters[n]? = some g) (hg : g.isReady = true)
    (hopen : x.queue.shuttingDown = false) (hfifo : x.queue.fifo = []) :
    (x.move (.lineUp n)).move (.look n) =
      { x with
        queue := { x.queue with signal := x.queue.signal.enroll n }
        getters := x.getters.set n (if x.queue.signal.kept then .roused .kept else .waiting) } := by
  have hlt : n < x.getters.length := (List.getElem?_eq_some_iff.mp hn).1
  rw [move_lineUp hn hg]
  simp only [move, List.getElem?_set_self hlt, WorkQueue.take, hopen, hfifo, Bool.false_eq_true, if_false,
    List.set_set]
  cases x.queue.signal.kept <;> rfl

/-- A turn in a service is one or two looks, each after lining up. -/
lemma exists_turn (hline : InStep x.queue.signal x.getters) (hn : x.getters[n]? = some g)
    (hg : g.isReady = true) :
    ∃ moves, x.after moves =
      { x with
        queue := (x.queue.turn n).queue
        getters := x.getters.set n (x.queue.turn n).getter } := by
  have hlt : n < x.getters.length := (List.getElem?_eq_some_iff.mp hn).1
  have hout : n ∉ x.queue.signal.waiting := by
    simp [hline.iff_of_getElem? hn, Getter.inLine_of_isReady hg]
  have hup := move_lineUp hn hg
  have hkept : x.queue.signal.kept = true → n ∉ (x.queue.signal.enroll n).waiting := by
    intro hk
    simpa [Signal.enroll, hk] using hout
  rcases WorkQueue.take_cases { x.queue with signal := x.queue.signal.enroll n } with
    ⟨ht, -⟩ | ⟨ht, hopen, hfifo⟩ | ⟨k, q, ht, -, hsignal⟩
  · refine ⟨[.lineUp n, .look n], ?_⟩
    simp only [after, List.foldl_cons, List.foldl_nil, hup]
    simp only [move, List.getElem?_set_self hlt, ht, WorkQueue.turn, WorkQueue.Turn.queue,
      WorkQueue.Turn.getter]
    rw [leave_lined _ hkept]
    simp only [List.set_set]
  · have hlook := look_of_empty hn hg hopen hfifo
    cases hk : x.queue.signal.kept with
    | false =>
      refine ⟨[.lineUp n, .look n], ?_⟩
      simp only [after, List.foldl_cons, List.foldl_nil, hlook]
      simp only [WorkQueue.turn, ht, hk, WorkQueue.Turn.queue, WorkQueue.Turn.getter, Bool.false_eq_true,
        if_false]
    | true =>
      -- the first look uses up the kept signal, and it lines up once more
      refine ⟨[.lineUp n, .look n, .lineUp n, .look n], ?_⟩
      have hused : (x.queue.signal.enroll n).kept = false := by simp [Signal.enroll, hk]
      simp only [after, List.foldl_cons, List.foldl_nil, hlook, hk, if_true]
      refine (look_of_empty (List.getElem?_set_self hlt) rfl (by exact hopen) (by exact hfifo)).trans ?_
      simp only [WorkQueue.turn, ht, hk, hused, WorkQueue.Turn.queue, WorkQueue.Turn.getter,
        Bool.false_eq_true, if_true, if_false, List.set_set]
  · refine ⟨[.lineUp n, .look n], ?_⟩
    simp only [after, List.foldl_cons, List.foldl_nil, hup]
    simp only [move, List.getElem?_set_self hlt, ht, WorkQueue.turn, WorkQueue.Turn.queue,
      WorkQueue.Turn.getter]
    rw [leave_lined _ (by rw [hsignal]; exact hkept)]
    simp only [List.set_set]

/-- Somebody begins, and has their first turn at once. -/
lemma exists_begun (hline : InStep x.queue.signal x.getters) :
    ∃ moves, x.after moves =
      { x with
        queue := (x.queue.turn x.getters.length).queue
        getters := x.getters ++ [(x.queue.turn x.getters.length).getter] } := by
  obtain ⟨moves, hmoves⟩ := exists_turn (x := x.move .get) (n := x.getters.length) (g := .fresh)
    hline.append_fresh (by simp [move]) rfl
  refine ⟨.get :: moves, hmoves.trans ?_⟩
  simp [move]

namespace Mirrors

variable {waits : List Nat} {s s' : QueueService κ} {w : Nat}

/-- Somebody begins and has their first turn at once. -/
lemma exists_begun (h : Mirrors waits s x) (hx : x.Sound 0)
    (hqueue : s'.queue = (s.queue.turn s.waiters).queue) (hagenda : s'.agenda = s.agenda)
    (hwaiters : s'.waiters = s.waiters + 1)
    (hserved : ∀ n, (s.served? n).isSome = true → (s'.served? n).isSome = true) :
    ∃ moves, Mirrors waits s' (x.after moves) ∧
      (x.after moves).getters[s.waiters]? = some (s.queue.turn s.waiters).getter := by
  obtain ⟨moves, hmoves⟩ := SharedQueue.exists_begun hx.line
  refine ⟨moves, ?_⟩
  rw [hmoves, h.queue, h.length, ← hqueue]
  refine ⟨h.append hwaiters (WorkQueue.Turn.getter_ne_lined _) (fun n => ?_) ?_ ?_ hserved, ?_⟩
  · simp [hagenda, WorkQueue.Turn.getter_isReady]
  · rw [hagenda]
    exact h.nodup
  · rw [hagenda]
  · simp [← h.length]

/-- Somebody who waits gives up. -/
lemma giveUp (h : Mirrors waits s x) (hw : w ∉ waits) (hg : x.getters[w]? = some .waiting) :
    Mirrors waits (s.apply (s.queue.giveUp w false)) (x.after [.abandon w]) := by
  have hafter : x.after [.abandon w] =
      { x with
        queue := (s.apply (s.queue.giveUp w false)).queue
        getters := x.getters.set w .gone } := by
    simp [after, move, hg, leave, QueueService.apply, WorkQueue.giveUp, h.queue]
  have hnot : .waiter w ∉ s.agenda.ready := by
    rw [h.ready]
    simp [hg, Getter.isReady]
  have hlt : w < s.waiters := h.length ▸ (List.getElem?_eq_some_iff.mp hg).1
  rw [hafter]
  refine h.set hlt rfl (by simp) rfl (fun n => ?_) h.nodup rfl (fun n hn => hn) fun hmem =>
    absurd hmem hw
  exact ⟨fun hn => ⟨hn, fun he => hnot (he ▸ hn)⟩, And.left⟩

end Mirrors

end SharedQueue

/-- What is asked of a service from outside. -/
inductive QueueCall (κ : Type) where
  | add (key : κ)
  | done (key : κ)
  | requeue (key : κ) (delay : Option Duration)
  | shutDown
  | wait
  | tryGet
  | getWithin (time : Duration)
  | advance (time : Duration)
  | quiesce
  deriving DecidableEq, Repr

namespace QueueService

variable {κ : Type} {s s' : QueueService κ} {base greatest : Duration} {waits waits' : List Nat}

lemma served?_append {e : Served κ} {n : Nat} (s : QueueService κ) (q : WorkQueue κ)
    (h : (s.served? n).isSome = true ∨ e.waiter = n) :
    (({ s with queue := q, served := s.served ++ [e] } : QueueService κ).served? n).isSome = true := by
  rcases h with h | h
  · simp only [served?, List.find?_append, Option.isSome_or]
    exact Bool.or_eq_true_iff.mpr (.inl h)
  · simp [served?, h]

variable [DecidableEq κ]

/-- A turn of a waiter changes the queue, and notes the end of the wait if that has come. -/
lemma runWaiter_spec (s : QueueService κ) (w : Nat) :
    (s.runWaiter w).queue = (s.queue.turn w).queue ∧ (s.runWaiter w).agenda = s.agenda ∧
    (s.runWaiter w).waiters = s.waiters ∧
    (∀ n, (s.served? n).isSome = true → ((s.runWaiter w).served? n).isSome = true) ∧
    (((s.runWaiter w).served? w).isSome = true ∨ (s.queue.turn w).getter.isPending = true) := by
  unfold runWaiter
  split
  · next k q ht =>
    rw [ht]
    exact ⟨rfl, rfl, rfl, fun n hn => served?_append s q (.inl hn), .inl (served?_append s q (.inr rfl))⟩
  · next q ht =>
    rw [ht]
    exact ⟨rfl, rfl, rfl, fun n hn => served?_append s q (.inl hn), .inl (served?_append s q (.inr rfl))⟩
  · next q ht =>
    rw [ht]
    exact ⟨rfl, rfl, rfl, fun n hn => hn, .inr rfl⟩

def call (s : QueueService κ) : QueueCall κ → QueueService κ
  | .add k => s.add k
  | .done k => s.done k
  | .requeue k delay => s.requeue k delay
  | .shutDown => s.shutDown
  | .wait => s.wait.2
  | .tryGet => s.tryGet.2
  | .getWithin d => (s.getWithin d).2
  | .advance d => s.advance d
  | .quiesce => s.quiesce

/-- What has become of a new service after a sequence of calls. -/
def serve (base greatest : Duration) (calls : List (QueueCall κ)) : QueueService κ :=
  calls.foldl call { queue := .new base greatest }

/-- The state of a service is one that a shared queue comes to. -/
def Shared (base greatest : Duration) (waits : List Nat) (s : QueueService κ) : Prop :=
  ∃ moves, SharedQueue.Mirrors waits s (SharedQueue.run base greatest moves)

namespace Shared

lemma step (h : Shared base greatest waits s)
    (hstep : ∀ x : SharedQueue κ, x.Sound 0 → x.Mirrors waits s →
      ∃ moves, SharedQueue.Mirrors waits' s' (x.after moves)) :
    Shared base greatest waits' s' := by
  obtain ⟨before, hbefore⟩ := h
  obtain ⟨moves, hmoves⟩ := hstep _ ((SharedQueue.Sound.start base greatest).after before) hbefore
  refine ⟨before ++ moves, ?_⟩
  rw [SharedQueue.run, SharedQueue.after_append]
  exact hmoves

/-- A call that puts at most one key in line, and signals one for it. -/
lemma applied (h : Shared base greatest waits s) (m : SharedMove κ) {r : WorkQueue κ × List Nat}
    (hm : ∀ x : SharedQueue κ, x.queue = s.queue → x.move m = x.change r.1)
    (hr : s.queue.Announces r) : Shared base greatest waits (s.apply r) := by
  refine h.step fun x hx hmirror => ?_
  rw [← hmirror.queue] at hr
  obtain ⟨moves, hmoves⟩ :=
    SharedQueue.exists_announced (hm x hmirror.queue) hr hmirror.announced
  refine ⟨moves, ?_⟩
  rw [hmoves]
  exact hmirror.rouse hx.line .one hr.woken_mem

/-- Only tasks of other kinds are woken, and only their timers are set. -/
lemma agenda (h : Shared base greatest waits s) {a : Agenda QueueTask}
    (hready : ∀ n, .waiter n ∈ a.ready ↔ .waiter n ∈ s.agenda.ready)
    (hnodup : s.agenda.ready.Nodup → a.ready.Nodup)
    (htimers : ∀ t ∈ a.timers, t ∈ s.agenda.timers ∨ ∀ n, t.task ≠ .waiter n) :
    Shared base greatest waits { s with agenda := a } := by
  obtain ⟨moves, hmoves⟩ := h
  exact ⟨moves, hmoves.agenda hready (hnodup hmoves.nodup) fun t ht =>
    (htimers t ht).elim (hmoves.timers t) id⟩

lemma add (h : Shared base greatest waits s) (k : κ) : Shared base greatest waits (s.add k) :=
  h.applied (.add k) (fun x hx => by rw [SharedQueue.move, hx]) (s.queue.add_announces k)

lemma done (h : Shared base greatest waits s) (k : κ) : Shared base greatest waits (s.done k) :=
  h.applied (.done k) (fun x hx => by rw [SharedQueue.move, hx]) (s.queue.done_announces k)

lemma requeue (h : Shared base greatest waits s) (k : κ) (delay : Option Duration) :
    Shared base greatest waits (s.requeue k delay) := by
  obtain ⟨hends, hnone⟩ := s.queue.endForRetry_announces k delay
  have hended : Shared base greatest waits (s.apply (s.queue.endForRetry k delay).2) :=
    h.applied (.requeue k delay) (fun x hx => by rw [SharedQueue.move, hx]) hends
  simp only [QueueService.requeue, WorkQueue.requeue]
  generalize s.queue.endForRetry k delay = e at hends hnone hended
  obtain ⟨_ | d, q, woken⟩ := e
  · exact hended
  · obtain rfl : woken = [] := hnone (by simp)
    have hback : Shared base greatest waits
        (s.apply ((q.comeBack k d).queue, (q.comeBack k d).woken)) :=
      hended.applied (.comeBack k d) (fun x hx => by rw [SharedQueue.move, hx]; rfl)
        (q.comeBack_announces k d)
    simp only
    split
    · exact hback.agenda (fun n => by simp [Agenda.mem_wake]) Agenda.wake_nodup
        (fun t ht => .inl (by simpa using ht))
    · exact hback

/-- Everyone is told at once. -/
lemma shutDown (h : Shared base greatest waits s) : Shared base greatest waits s.shutDown := by
  refine h.step fun x hx hmirror => ⟨[.shutDown, .tellAll], ?_⟩
  have hafter : x.after [.shutDown, .tellAll] =
      { x with
        queue := x.queue.shutDown.1
        getters := SharedQueue.rouse .all x.queue.shutDown.2 x.getters } := by
    simp [SharedQueue.after, SharedQueue.move, SharedQueue.change, WorkQueue.shutDown]
  rw [hafter, QueueService.shutDown, ← hmirror.queue]
  exact hmirror.rouse hx.line .all fun n hn => hn

/-! ### Turns of tasks -/

/-- A waiter who can go on has a turn. -/
lemma runWaiter (h : Shared base greatest waits s) {w : Nat} {rest : List QueueTask}
    (hready : s.agenda.ready = .waiter w :: rest) :
    Shared base greatest waits ({ s with agenda := s.agenda.pop }.runWaiter w) := by
  refine h.step fun x hx hmirror => ?_
  obtain ⟨g, hg, hisReady⟩ := (hmirror.ready w).mp (by simp [hready])
  obtain ⟨moves, hmoves⟩ := SharedQueue.exists_turn hx.line hg hisReady
  obtain ⟨hqueue, hagenda, hwaiters, hserved, hself⟩ :=
    runWaiter_spec { s with agenda := s.agenda.pop } w
  have hnodup : (QueueTask.waiter w :: rest).Nodup := hready ▸ hmirror.nodup
  refine ⟨moves, ?_⟩
  rw [hmoves, hmirror.queue, ← hqueue]
  refine hmirror.set ?_ hwaiters (WorkQueue.Turn.getter_ne_lined _) (WorkQueue.Turn.getter_isReady _)
    (fun n => ?_) ?_ ?_ hserved fun _ => hself
  · rw [← hmirror.length]
    exact (List.getElem?_eq_some_iff.mp hg).1
  · rw [hagenda]
    simp only [Agenda.pop, hready, List.tail_cons, List.mem_cons, QueueTask.waiter.injEq]
    constructor
    · intro hn
      exact ⟨.inr hn, fun he => hnodup.notMem (he ▸ hn)⟩
    · rintro ⟨rfl | hn, hne⟩
      · exact absurd rfl hne
      · exact hn
  · rw [hagenda]
    simpa [Agenda.pop, hready] using hnodup.of_cons
  · rw [hagenda]
    rfl

/-- A task of another kind leaves the line of those that can go on. -/
lemma pop (h : Shared base greatest waits s) {ticket : Nat} {rest : List QueueTask}
    (hready : s.agenda.ready = .delayed ticket :: rest) :
    Shared base greatest waits { s with agenda := s.agenda.pop } := by
  refine h.agenda (fun n => ?_) (fun hn => ?_) fun t ht => .inl ht
  · simp [Agenda.pop, hready]
  · rw [hready] at hn
    simpa [Agenda.pop, hready] using hn.of_cons

lemma runDelayed (h : Shared base greatest waits s) (ticket : Nat) :
    Shared base greatest waits (s.runDelayed ticket) := by
  unfold QueueService.runDelayed
  split
  · exact h
  · next d hd =>
    split
    · exact h.applied (.fire ticket) (fun x hx => by rw [SharedQueue.move, hx])
        (s.queue.readd_announces ticket)
    · have hset : Shared base greatest waits (s.apply (s.queue.setTimed ticket, [])) :=
        h.applied (.setTimer ticket) (fun x hx => by rw [SharedQueue.move, hx]) (.inl ⟨rfl, rfl, rfl⟩)
      refine hset.agenda (a := s.agenda.after d.delay (.delayed ticket)) (fun n => .rfl) id ?_
      intro t ht
      rcases Agenda.mem_insertTimer.mp ht with rfl | ht
      · exact .inr fun n => by simp
      · exact .inl ht

lemma runTask (h : Shared base greatest waits s) {task : QueueTask} {rest : List QueueTask}
    (hready : s.agenda.ready = task :: rest) :
    Shared base greatest waits ({ s with agenda := s.agenda.pop }.runTask task) := by
  cases task with
  | waiter w => exact h.runWaiter hready
  | delayed ticket => exact (h.pop hready).runDelayed ticket

lemma settle (h : Shared base greatest waits s) (limit : Nat) :
    Shared base greatest waits (settle limit s) := by
  induction limit generalizing s with
  | zero => exact h
  | succ limit ih =>
    unfold QueueService.settle
    split
    · exact h
    · next task rest hready => exact ih (h.runTask hready)

lemma quiesce (h : Shared base greatest waits s) : Shared base greatest waits s.quiesce := h.settle _

/-! ### Time passes -/

lemma moveTo (h : Shared base greatest waits s) (time : Duration) :
    Shared base greatest waits { s with agenda := s.agenda.moveTo time } := by
  obtain ⟨moves, hmoves⟩ := h
  refine ⟨moves, hmoves.agenda (fun n => ?_) ?_ fun t ht => ?_⟩
  · simp only [Agenda.moveTo, Agenda.mem_wakeAll, or_iff_left_iff_imp, List.mem_map]
    rintro ⟨t, ht, he⟩
    exact absurd he (hmoves.timers t ((List.takeWhile_sublist _).subset ht) n)
  · exact Agenda.wakeAll_nodup hmoves.nodup
  · rw [Agenda.moveTo, Agenda.wakeAll_timers] at ht
    exact hmoves.timers t ((List.dropWhile_sublist _).subset ht)

lemma runUntil (h : Shared base greatest waits s) (finished : QueueService κ → Bool) (target : Duration)
    (limit : Nat) : Shared base greatest waits (runUntil finished target limit s) := by
  induction limit generalizing s with
  | zero => exact h
  | succ limit ih =>
    unfold QueueService.runUntil
    split
    · exact h
    · split
      · split
        · exact ih (h.moveTo _).quiesce
        · exact h.moveTo target
      · exact h.moveTo target

/-! ### Calls for a key -/

lemma wait (h : Shared base greatest waits s) :
    Shared base greatest (s.waiters :: waits) s.wait.2 := by
  refine h.step fun x hx hmirror => ⟨[.get], ?_⟩
  have hx' : x.after [.get] = { x with queue := s.wait.2.queue, getters := x.getters ++ [.fresh] } := by
    rw [show s.wait.2.queue = x.queue from hmirror.queue.symm]
    rfl
  rw [hx']
  refine SharedQueue.Mirrors.begun (hmirror.append rfl (by simp) (fun n => ?_) ?_ ?_ fun n hn => hn)
    (Nat.lt_succ_self _) (.inr ⟨.fresh, ?_, rfl⟩)
  · simp [QueueService.wait, Agenda.mem_wake, Getter.isReady]
  · exact Agenda.wake_nodup hmirror.nodup
  · simp [QueueService.wait]
  · simp [← hmirror.length]

/-- Somebody begins and has their first turn at once. -/
lemma begun (h : Shared base greatest waits s) :
    Shared base greatest (s.waiters :: waits)
      ({ s with waiters := s.waiters + 1 }.runWaiter s.waiters) := by
  refine h.step fun x hx hmirror => ?_
  obtain ⟨hqueue, hagenda, hwaiters, hserved, hself⟩ :=
    runWaiter_spec { s with waiters := s.waiters + 1 } s.waiters
  obtain ⟨moves, hafter, hg⟩ := hmirror.exists_begun hx hqueue hagenda hwaiters hserved
  exact ⟨moves, hafter.begun (by rw [hwaiters]; exact Nat.lt_succ_self _)
    (hself.imp_right fun hp => ⟨_, hg, hp⟩)⟩

lemma waiters_notMem (h : Shared base greatest waits s) : s.waiters ∉ waits := by
  obtain ⟨moves, hmoves⟩ := h
  exact fun hmem => absurd (hmoves.pending _ hmem).1 (lt_irrefl _)

lemma tryGet (h : Shared base greatest waits s) : Shared base greatest waits s.tryGet.2 := by
  have hnew := h.waiters_notMem
  refine h.step fun x hx hmirror => ?_
  have hbegun (q : WorkQueue κ) (hq : (s.queue.turn s.waiters).queue = q) :
      ∃ moves,
        SharedQueue.Mirrors waits { s with waiters := s.waiters + 1, queue := q } (x.after moves) ∧
          (x.after moves).getters[s.waiters]? = some (s.queue.turn s.waiters).getter :=
    hmirror.exists_begun hx hq.symm rfl rfl fun n hn => hn
  simp only [QueueService.tryGet]
  split
  · next k q ht =>
    obtain ⟨moves, hafter, -⟩ := hbegun q (by rw [ht]; rfl)
    exact ⟨moves, hafter⟩
  · next q ht =>
    obtain ⟨moves, hafter, -⟩ := hbegun q (by rw [ht]; rfl)
    exact ⟨moves, hafter⟩
  · next q ht =>
    obtain ⟨moves, hafter, hg⟩ := hbegun q (by rw [ht]; rfl)
    rw [ht] at hg
    refine ⟨moves ++ [.abandon s.waiters], ?_⟩
    rw [SharedQueue.after_append]
    exact hafter.giveUp hnew hg

end Shared

/-! ## Nothing is left to do -/

lemma runTask_lt {task : QueueTask} {rest : List QueueTask} (hready : s.agenda.ready = task :: rest) :
    ({ s with agenda := s.agenda.pop }.runTask task).agenda.ready.length +
      ({ s with agenda := s.agenda.pop }.runTask task).queue.delayed.length <
    s.agenda.ready.length + s.queue.delayed.length := by
  have hpop : s.agenda.pop.ready.length + 1 = s.agenda.ready.length := by simp [Agenda.pop, hready]
  cases task with
  | waiter w =>
    obtain ⟨hqueue, hagenda, -⟩ := runWaiter_spec { s with agenda := s.agenda.pop } w
    have hdelayed : (s.queue.turn w).queue.delayed = s.queue.delayed := by
      rcases s.queue.turn_cases w with ⟨k, q, ht, he⟩ | ⟨sig, ht, -⟩ | ⟨sig, ht, -⟩
      · rw [ht]
        exact he.delayed
      · rw [ht]
        rfl
      · rw [ht]
        rfl
    simp only [runTask, hqueue, hagenda, hdelayed]
    omega
  | delayed ticket =>
    simp only [runTask, runDelayed]
    split
    · simp only
      omega
    · next d hd =>
      split
      · -- the key is gone from those put off, and at most one waiter is woken for it
        have hwoken := (s.queue.readd_announces ticket).woken_length
        have hshorter : (s.queue.readd ticket).1.delayed.length < s.queue.delayed.length := by
          have hmem := List.mem_of_find?_eq_some hd
          have hticket : d.ticket = ticket := by simpa using List.find?_some hd
          simp only [WorkQueue.readd, hd, WorkQueue.add_delayed]
          exact List.length_filter_lt_length_iff_exists.mpr ⟨d, hmem, by simp [hticket]⟩
        have hwake := Agenda.wakeAll_length (a := s.agenda.pop)
          ((s.queue.readd ticket).2.map .waiter)
        simp only [apply, List.length_map] at hwake ⊢
        omega
      · simp only [Agenda.after, WorkQueue.setTimed, List.length_map]
        omega

lemma settle_ready {limit : Nat} (h : s.agenda.ready.length + s.queue.delayed.length ≤ limit) :
    (settle limit s).agenda.ready = [] := by
  induction limit generalizing s with
  | zero => exact List.eq_nil_of_length_eq_zero (by simp only [settle]; omega)
  | succ limit ih =>
    unfold settle
    split
    · next hready => exact hready
    · next task rest hready =>
      have hlt := runTask_lt hready
      exact ih (by omega)

lemma quiesce_ready (s : QueueService κ) : s.quiesce.agenda.ready = [] :=
  settle_ready (by unfold bound; omega)

lemma runUntil_ready (finished : QueueService κ → Bool) (target : Duration) (limit : Nat)
    (hs : s.agenda.ready = []) : (runUntil finished target limit s).agenda.ready = [] := by
  induction limit generalizing s with
  | zero => exact hs
  | succ limit ih =>
    unfold runUntil
    split
    · exact hs
    · split
      · next t ht =>
        split
        · exact ih (quiesce_ready _)
        · next hlate =>
          refine (Agenda.moveTo_ready fun u hu => ?_).trans hs
          obtain rfl : t = u := Option.some.inj (ht.symm.trans hu)
          exact hlate
      · next hnone => exact (Agenda.moveTo_ready (by simp [hnone])).trans hs

namespace Shared

/-- When the time is over nobody can go on, so whoever gives up has not been signalled. -/
lemma getWithin (h : Shared base greatest waits s) (d : Duration) :
    Shared base greatest waits (s.getWithin d).2 := by
  have hnew := h.waiters_notMem
  simp only [QueueService.getWithin]
  have hend := (h.begun.quiesce).runUntil (fun t => (t.served? s.waiters).isSome) (s.agenda.now + d)
    (({ s with waiters := s.waiters + 1 }.runWaiter s.waiters).agenda.timers.length + 1)
  have hready := runUntil_ready (fun t => (t.served? s.waiters).isSome) (s.agenda.now + d)
    (({ s with waiters := s.waiters + 1 }.runWaiter s.waiters).agenda.timers.length + 1)
    (quiesce_ready ({ s with waiters := s.waiters + 1 }.runWaiter s.waiters))
  generalize QueueService.runUntil (fun t => (t.served? s.waiters).isSome) (s.agenda.now + d)
    (({ s with waiters := s.waiters + 1 }.runWaiter s.waiters).agenda.timers.length + 1)
    ({ s with waiters := s.waiters + 1 }.runWaiter s.waiters).quiesce = t at hend hready ⊢
  split
  · exact hend.step fun x _ hmirror => ⟨[], hmirror.mono⟩
  · next hserved =>
    have hsignalled : decide (QueueTask.waiter s.waiters ∈ t.agenda.ready) = false := by
      simp [hready]
    rw [hsignalled]
    refine hend.step fun x _ hmirror => ⟨[.abandon s.waiters], ?_⟩
    exact hmirror.mono.giveUp hnew (hmirror.waiting_of_pending hready (by simp) hserved)

lemma call (h : Shared base greatest waits s) (c : QueueCall κ) :
    Shared base greatest waits (s.call c) := by
  cases c with
  | add k => exact h.add k
  | done k => exact h.done k
  | requeue k delay => exact h.requeue k delay
  | shutDown => exact h.shutDown
  | wait => exact h.wait.step fun x _ hmirror => ⟨[], hmirror.mono⟩
  | tryGet => exact h.tryGet
  | getWithin d => exact h.getWithin d
  | advance d => exact h.runUntil _ _ _
  | quiesce => exact h.quiesce

lemma calls (h : Shared base greatest waits s) (cs : List (QueueCall κ)) :
    Shared base greatest waits (cs.foldl QueueService.call s) := by
  induction cs generalizing s with
  | nil => exact h
  | cons c rest ih => exact ih (h.call c)

end Shared

end QueueService

/-- No signal is lost. However the parts of calls on a queue fall between one another, in a settled state
somebody waits only if no key is in line and the queue is not shut down. And a service settles: after
every sequence of calls, once everything has happened that can happen, no task can go on, its queue is one
of a settled state, and a wait that has been begun has ended unless there is no key in line and the queue is
not shut down. -/
theorem SharedQueue.no_signal_lost {κ : Type} [DecidableEq κ] (base greatest : Duration) :
    (∀ moves : List (SharedMove κ),
      (run base greatest moves).Settled → .waiting ∈ (run base greatest moves).getters →
        (run base greatest moves).queue.fifo = [] ∧
          (run base greatest moves).queue.shuttingDown = false) ∧
    ∀ before later : List (QueueCall κ),
      let s := (QueueService.serve base greatest (before ++ .wait :: later)).quiesce
      s.agenda.ready = [] ∧
      (∃ moves : List (SharedMove κ),
        (run base greatest moves).Settled ∧ (run base greatest moves).queue = s.queue) ∧
      (s.served? (QueueService.serve base greatest before).waiters = none →
        s.queue.fifo = [] ∧ s.queue.shuttingDown = false) := by
  have hrun : ∀ moves : List (SharedMove κ), (run base greatest moves).Sound 0 :=
    fun moves => (Sound.start base greatest).after moves
  refine ⟨fun moves => (hrun moves).of_settled, fun before later => ?_⟩
  -- the wait is one of those that are followed from its beginning on
  have hbegun := (QueueService.Shared.calls ⟨[], Mirrors.start base greatest⟩ before).wait
  have hlater := (hbegun.calls later).quiesce
  have hserve : QueueService.serve base greatest (before ++ .wait :: later) =
      later.foldl QueueService.call (QueueService.serve base greatest before).wait.2 := by
    simp [QueueService.serve, QueueService.call]
  rw [hserve]
  have hready := QueueService.quiesce_ready
    (later.foldl QueueService.call (QueueService.serve base greatest before).wait.2)
  obtain ⟨moves, hmirror⟩ := hlater
  have hsettled := hmirror.settled hready
  refine ⟨hready, ⟨moves, hsettled, hmirror.queue⟩, fun hserved => ?_⟩
  have hwaiting := hmirror.waiting_of_pending hready (List.mem_cons_self ..) hserved
  have hrest := (hrun moves).of_settled hsettled (List.mem_of_getElem? hwaiting)
  rwa [hmirror.queue] at hrest

/-- Two keys share a kept signal. Later a key is taken by somebody else before the one who was signalled
for it looks, and that one gives up. -/
def SharedQueue.stolen : List (SharedMove Nat) :=
  [.add 1, .add 2, .announce, .announce,
   .get, .lineUp 0, .look 0, .get, .lineUp 1, .look 1,
   .get, .lineUp 2, .look 2, .get, .lineUp 3, .look 3,
   .add 3, .announce, .get, .lineUp 4, .look 4, .abandon 2, .lineUp 3, .look 3]

theorem SharedQueue.no_signal_lost_stolen :
    (run 1 2 stolen).getters =
      [.ended (some 1), .ended (some 2), .gone, .waiting, .ended (some 3)] ∧
    (run 1 2 stolen).queue.fifo = [] ∧ (run 1 2 stolen).queue.shuttingDown = false := by
  have hgetters : (run 1 2 stolen).getters =
      [.ended (some 1), .ended (some 2), .gone, .waiting, .ended (some 3)] := by decide +kernel
  have hsettled : (run 1 2 stolen).Settled :=
    ⟨by decide +kernel, by decide +kernel, by simp [hgetters]⟩
  exact ⟨hgetters, (no_signal_lost 1 2).1 stolen hsettled (by simp [hgetters])⟩

end ControlLoop
