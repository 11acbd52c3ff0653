import ControlLoop.Queue.WorkQueue
import Mathlib.Tactic

/-!
# The shape of the queue

Four collections have to stay in step: the line, the set of the keys in line, the keys in work, and
the marked ones among those. Each operation of the queue keeps them so. A ledger follows a queue through
any sequence of operations and writes down which keys were added, handed out and given back.
-/
namespace ControlLoop.WorkQueue

variable {κ : Type} {q q' : WorkQueue κ} {k j : κ}

/-- The four collections are in step. -/
structure Consistent (q : WorkQueue κ) : Prop where
  nodup : q.fifo.Nodup
  queued_iff : ∀ k, k ∈ q.queued ↔ k ∈ q.fifo
  disjoint : ∀ k ∈ q.queued, k ∉ q.processing
  dirty_processing : ∀ k ∈ q.dirty, k ∈ q.processing

/-- Two queues with the same four collections; signals, delays and tickets may differ. -/
structure SameKeys (q q' : WorkQueue κ) : Prop where
  fifo : q'.fifo = q.fifo
  queued : q'.queued = q.queued
  processing : q'.processing = q.processing
  dirty : q'.dirty = q.dirty

lemma Consistent.of_sameKeys (h : q.Consistent) (s : SameKeys q q') : q'.Consistent := by
  obtain ⟨hf, hq, hp, hd⟩ := s
  constructor
  · rw [hf]; exact h.nodup
  · rw [hf, hq]; exact h.queued_iff
  · rw [hq, hp]; exact h.disjoint
  · rw [hd, hp]; exact h.dirty_processing

lemma new_consistent (base greatest : Duration) :
    (new base greatest : WorkQueue κ).Consistent := by
  constructor <;> simp [new]

/-! ## What each operation does to the collections -/

lemma putOff_sameKeys (q : WorkQueue κ) (k : κ) (d : Duration) :
    SameKeys q (q.putOff k d).1 := by
  unfold putOff
  split <;> exact ⟨rfl, rfl, rfl, rfl⟩

lemma signal_sameKeys (q : WorkQueue κ) (s : Signal) : SameKeys q { q with signal := s } :=
  ⟨rfl, rfl, rfl, rfl⟩

lemma setTimed_sameKeys (q : WorkQueue κ) (ticket : Nat) : SameKeys q (q.setTimed ticket) :=
  ⟨rfl, rfl, rfl, rfl⟩

lemma shutDown_sameKeys (q : WorkQueue κ) : SameKeys q q.shutDown.1 := ⟨rfl, rfl, rfl, rfl⟩

lemma giveUp_sameKeys (q : WorkQueue κ) (w : Nat) (signalled : Bool) :
    SameKeys q (q.giveUp w signalled).1 := by
  unfold giveUp
  split <;> exact ⟨rfl, rfl, rfl, rfl⟩

variable [DecidableEq κ]

/-- A key goes to the end of the line; nothing else changes but the signal. -/
structure Enqueued (q : WorkQueue κ) (k : κ) (q' : WorkQueue κ) : Prop where
  fifo : q'.fifo = q.fifo ++ [k]
  queued : q'.queued = q.queued.insert k
  processing : q'.processing = q.processing
  dirty : q'.dirty = q.dirty
  shuttingDown : q'.shuttingDown = q.shuttingDown
  delayed : q'.delayed = q.delayed
  tickets : q'.tickets = q.tickets

lemma enqueue_enqueued (q : WorkQueue κ) (k : κ) : Enqueued q k (q.enqueue k).1 := by
  constructor <;> rfl

/-- An added key is refused, is in line already, is marked, or goes to the end of the line. -/
lemma add_cases (q : WorkQueue κ) (k : κ) :
    ((q.shuttingDown = true ∨ k ∈ q.queued) ∧ (q.add k).1 = q) ∨
    (q.shuttingDown = false ∧ k ∉ q.queued ∧ k ∈ q.processing ∧
      (q.add k).1 = { q with dirty := q.dirty.insert k }) ∨
    (q.shuttingDown = false ∧ k ∉ q.queued ∧ k ∉ q.processing ∧ Enqueued q k (q.add k).1) := by
  by_cases h : q.shuttingDown = true ∨ k ∈ q.queued
  · exact .inl ⟨h, by simp [add, h]⟩
  · obtain ⟨hs, hq⟩ := not_or.mp h
    have hs' : q.shuttingDown = false := by simpa using hs
    by_cases hp : k ∈ q.processing
    · exact .inr (.inl ⟨hs', hq, hp, by simp [add, hs', hq, hp]⟩)
    · refine .inr (.inr ⟨hs', hq, hp, ?_⟩)
      have he : (q.add k).1 = (q.enqueue k).1 := by simp [add, hs', hq, hp]
      rw [he]
      exact enqueue_enqueued q k

/-- The queue after its first key has been handed out. -/
structure HandedOut (q : WorkQueue κ) (k : κ) (q' : WorkQueue κ) : Prop where
  open_ : q.shuttingDown = false
  fifo : q.fifo = k :: q'.fifo
  queued : q'.queued = q.queued.filter (· ≠ k)
  processing : q'.processing = q.processing.insert k
  dirty : q'.dirty = q.dirty
  shuttingDown : q'.shuttingDown = q.shuttingDown
  delayed : q'.delayed = q.delayed
  tickets : q'.tickets = q.tickets

/-- A waiter is handed the first key in line, or nothing but the signal changes. -/
lemma turn_cases (q : WorkQueue κ) (w : Nat) :
    (∃ k q', q.turn w = .got k q' ∧ HandedOut q k q') ∨
    (∃ s, q.turn w = .closed { q with signal := s } ∧ q.shuttingDown = true) ∨
    (∃ s, q.turn w = .waiting { q with signal := s } ∧ q.shuttingDown = false ∧ q.fifo = []) := by
  cases hs : q.shuttingDown with
  | true =>
    refine .inr (.inl ⟨(q.signal.enroll w).withdraw w, ?_, rfl⟩)
    simp only [turn, take, hs, if_true]
  | false =>
    cases hf : q.fifo with
    | nil =>
      refine .inr (.inr ⟨if q.signal.kept then (q.signal.enroll w).enroll w
        else q.signal.enroll w, ?_, rfl, rfl⟩)
      simp only [turn, take, hs, hf, Bool.false_eq_true, if_false]
      split <;> simp
    | cons k rest =>
      refine .inl ⟨k, _, by simp only [turn, take, hs, hf, Bool.false_eq_true, if_false]; rfl, ?_⟩
      constructor <;> simp [hs, hf]

/-- The queue after the work on a key has ended, before a marked key lines up again. -/
def withoutWork (q : WorkQueue κ) (k : κ) : WorkQueue κ :=
  { q with
    processing := q.processing.filter (· ≠ k)
    dirty := q.dirty.filter (· ≠ k) }

/-- A marked key lines up again when the work on it ends, unless the queue is shut down. -/
lemma finish_cases (q : WorkQueue κ) (k : κ) :
    (k ∈ q.dirty ∧ q.shuttingDown = false ∧ (q.finish k).1 = true ∧
      Enqueued (q.withoutWork k) k (q.finish k).2.1) ∨
    ((k ∉ q.dirty ∨ q.shuttingDown = true) ∧ (q.finish k).1 = false ∧
      (q.finish k).2.1 = q.withoutWork k) := by
  by_cases h : k ∈ q.dirty ∧ q.shuttingDown = false
  · refine .inl ⟨h.1, h.2, by simp [finish, h.1, h.2], ?_⟩
    have he : (q.finish k).2.1 = ((q.withoutWork k).enqueue k).1 := by
      simp [finish, h.1, h.2, withoutWork]
    rw [he]
    exact enqueue_enqueued _ k
  · refine .inr ⟨?_, ?_, ?_⟩
    · by_cases hd : k ∈ q.dirty
      · exact .inr (by simpa [hd] using h)
      · exact .inl hd
    · simp only [finish]
      rw [if_neg (by simpa using h)]
    · simp only [finish]
      rw [if_neg (by simpa using h)]
      rfl

/-- Apart from the row of failures, which the choice of a delay changes, a key that is to be tried
again ends its work as any other. -/
lemma endForRetry_eq (q : WorkQueue κ) (k : κ) (delay : Option Duration) :
    ∃ b, q.endForRetry k delay =
      (if ({ q with backoff := b }.finish k).1 then none else some (q.chooseDelay k delay).1,
        ({ q with backoff := b }.finish k).2) := by
  cases delay with
  | some d => exact ⟨_, rfl⟩
  | none => exact ⟨_, rfl⟩

lemma comeBack_sameKeys (q : WorkQueue κ) (k : κ) {d : Duration} (hd : d ≠ 0) :
    SameKeys q (q.comeBack k d).queue := by
  unfold comeBack
  rw [if_neg hd]
  exact putOff_sameKeys q k d

@[simp] lemma add_processing (q : WorkQueue κ) (k : κ) : (q.add k).1.processing = q.processing := by
  rcases add_cases q k with ⟨_, he⟩ | ⟨_, _, _, he⟩ | ⟨_, _, _, e⟩
  · rw [he]
  · rw [he]
  · exact e.processing

@[simp] lemma finish_processing (q : WorkQueue κ) (k : κ) :
    (q.finish k).2.1.processing = q.processing.filter (· ≠ k) := by
  rcases finish_cases q k with ⟨_, _, _, e⟩ | ⟨_, _, he⟩
  · exact e.processing
  · rw [he]; rfl

@[simp] lemma done_processing (q : WorkQueue κ) (k : κ) :
    (q.done k).1.processing = q.processing.filter (· ≠ k) :=
  finish_processing _ k

@[simp] lemma endForRetry_processing (q : WorkQueue κ) (k : κ) (delay : Option Duration) :
    (q.endForRetry k delay).2.1.processing = q.processing.filter (· ≠ k) := by
  obtain ⟨b, hb⟩ := endForRetry_eq q k delay
  rw [hb]
  exact finish_processing _ k

@[simp] lemma comeBack_processing (q : WorkQueue κ) (k : κ) (d : Duration) :
    (q.comeBack k d).queue.processing = q.processing := by
  by_cases hd : d = 0
  · simp only [comeBack, if_pos hd]
    exact add_processing q k
  · exact (q.comeBack_sameKeys k hd).processing

@[simp] lemma readd_processing (q : WorkQueue κ) (ticket : Nat) :
    (q.readd ticket).1.processing = q.processing := by
  unfold readd
  split
  · rfl
  · exact add_processing _ _

/-! ## Only `shutDown` ends the service -/

@[simp] lemma add_shuttingDown (q : WorkQueue κ) (k : κ) :
    (q.add k).1.shuttingDown = q.shuttingDown := by
  rcases add_cases q k with ⟨_, he⟩ | ⟨_, _, _, he⟩ | ⟨_, _, _, e⟩
  · rw [he]
  · rw [he]
  · exact e.shuttingDown

@[simp] lemma finish_shuttingDown (q : WorkQueue κ) (k : κ) :
    (q.finish k).2.1.shuttingDown = q.shuttingDown := by
  rcases finish_cases q k with ⟨_, _, _, e⟩ | ⟨_, _, he⟩
  · exact e.shuttingDown
  · rw [he]; rfl

@[simp] lemma done_shuttingDown (q : WorkQueue κ) (k : κ) :
    (q.done k).1.shuttingDown = q.shuttingDown :=
  finish_shuttingDown _ k

@[simp] lemma endForRetry_shuttingDown (q : WorkQueue κ) (k : κ) (delay : Option Duration) :
    (q.endForRetry k delay).2.1.shuttingDown = q.shuttingDown := by
  obtain ⟨b, hb⟩ := endForRetry_eq q k delay
  rw [hb]
  exact finish_shuttingDown _ k

@[simp] lemma comeBack_shuttingDown (q : WorkQueue κ) (k : κ) (d : Duration) :
    (q.comeBack k d).queue.shuttingDown = q.shuttingDown := by
  by_cases hd : d = 0
  · simp only [comeBack, if_pos hd]
    exact add_shuttingDown q k
  · simp only [comeBack, if_neg hd, putOff]
    split <;> rfl

@[simp] lemma readd_shuttingDown (q : WorkQueue κ) (ticket : Nat) :
    (q.readd ticket).1.shuttingDown = q.shuttingDown := by
  unfold readd
  split
  · rfl
  · exact add_shuttingDown _ _

/-! ## Each operation keeps them in step -/

lemma Consistent.enqueued (h : q.Consistent) (hq : k ∉ q.queued) (hp : k ∉ q.processing)
    (e : Enqueued q k q') : q'.Consistent := by
  have hf : k ∉ q.fifo := fun hk => hq ((h.queued_iff k).mpr hk)
  constructor
  · rw [e.fifo]
    exact List.nodup_append.mpr ⟨h.nodup, List.nodup_singleton k, by
      intro a ha b hb hab
      rw [List.mem_singleton.mp hb] at hab
      exact hf (hab ▸ ha)⟩
  · intro j
    rw [e.fifo, e.queued, List.mem_insert_iff, h.queued_iff, List.mem_append, List.mem_singleton]
    exact or_comm
  · intro j hj
    rw [e.queued, List.mem_insert_iff] at hj
    rw [e.processing]
    rcases hj with rfl | hj
    · exact hp
    · exact h.disjoint j hj
  · intro j hj
    rw [e.dirty] at hj
    rw [e.processing]
    exact h.dirty_processing j hj

lemma Consistent.add (h : q.Consistent) (k : κ) : (q.add k).1.Consistent := by
  rcases add_cases q k with ⟨_, he⟩ | ⟨_, _, hp, he⟩ | ⟨_, hq, hp, e⟩
  · rw [he]; exact h
  · rw [he]
    refine ⟨h.nodup, h.queued_iff, h.disjoint, ?_⟩
    intro j hj
    rcases List.mem_insert_iff.mp hj with rfl | hj
    · exact hp
    · exact h.dirty_processing j hj
  · exact h.enqueued hq hp e

/-- A key that is handed out was not in work and not marked. -/
lemma Consistent.idle_of_handedOut (h : q.Consistent) (e : HandedOut q k q') :
    k ∈ q.queued ∧ k ∉ q.processing ∧ k ∉ q.dirty := by
  have hq : k ∈ q.queued := (h.queued_iff k).mpr (by simp [e.fifo])
  have hp : k ∉ q.processing := h.disjoint k hq
  exact ⟨hq, hp, fun hd => hp (h.dirty_processing k hd)⟩

lemma Consistent.handedOut (h : q.Consistent) (e : HandedOut q k q') : q'.Consistent := by
  have hn : (k :: q'.fifo).Nodup := e.fifo ▸ h.nodup
  obtain ⟨hk, hn⟩ := List.nodup_cons.mp hn
  constructor
  · exact hn
  · intro j
    have hj := h.queued_iff j
    rw [e.fifo, List.mem_cons] at hj
    rw [e.queued, List.mem_filter, hj, decide_eq_true_eq]
    constructor
    · rintro ⟨rfl | hj, hne⟩
      · exact absurd rfl hne
      · exact hj
    · intro hj
      exact ⟨.inr hj, fun he => hk (he ▸ hj)⟩
  · intro j hj
    rw [e.queued, List.mem_filter, decide_eq_true_eq] at hj
    rw [e.processing, List.mem_insert_iff]
    rintro (he | hp)
    · exact hj.2 he
    · exact h.disjoint j hj.1 hp
  · intro j hj
    rw [e.dirty] at hj
    rw [e.processing]
    exact List.mem_insert_iff.mpr (.inr (h.dirty_processing j hj))

lemma Consistent.withoutWork (h : q.Consistent) (k : κ) : (q.withoutWork k).Consistent := by
  refine ⟨h.nodup, h.queued_iff, ?_, ?_⟩
  · intro j hj hp
    exact h.disjoint j hj (List.mem_filter.mp hp).1
  · intro j hj
    obtain ⟨hd, hne⟩ := List.mem_filter.mp hj
    exact List.mem_filter.mpr ⟨h.dirty_processing j hd, hne⟩

lemma Consistent.finish (h : q.Consistent) (k : κ) : (q.finish k).2.1.Consistent := by
  rcases finish_cases q k with ⟨hd, _, _, e⟩ | ⟨_, _, he⟩
  · have hq : k ∉ q.queued := fun hq => h.disjoint k hq (h.dirty_processing k hd)
    exact (h.withoutWork k).enqueued hq (by simp [WorkQueue.withoutWork]) e
  · rw [he]; exact h.withoutWork k

lemma Consistent.done (h : q.Consistent) (k : κ) : (q.done k).1.Consistent := by
  have hb : ({ q with backoff := q.backoff.forget k } : WorkQueue κ).Consistent :=
    h.of_sameKeys ⟨rfl, rfl, rfl, rfl⟩
  exact hb.finish k

lemma Consistent.endForRetry (h : q.Consistent) (k : κ) (delay : Option Duration) :
    (q.endForRetry k delay).2.1.Consistent := by
  obtain ⟨b, hb⟩ := endForRetry_eq q k delay
  have hc : ({ q with backoff := b } : WorkQueue κ).Consistent :=
    h.of_sameKeys ⟨rfl, rfl, rfl, rfl⟩
  rw [hb]
  exact hc.finish k

lemma Consistent.comeBack (h : q.Consistent) (k : κ) (d : Duration) :
    (q.comeBack k d).queue.Consistent := by
  by_cases hd : d = 0
  · simp only [WorkQueue.comeBack, if_pos hd]
    exact h.add k
  · exact h.of_sameKeys (q.comeBack_sameKeys k hd)

lemma Consistent.readd (h : q.Consistent) (ticket : Nat) : (q.readd ticket).1.Consistent := by
  unfold WorkQueue.readd
  split
  · exact h
  · apply Consistent.add
    exact h.of_sameKeys ⟨rfl, rfl, rfl, rfl⟩

end ControlLoop.WorkQueue

namespace ControlLoop

/-! ## Runs -/

/-- What can happen to a queue. Trying a key again has two parts, and anything may happen between. -/
inductive QueueMove (κ : Type) where
  | add (key : κ)
  /-- One turn of someone who wants a key. -/
  | get (waiter : Nat)
  | giveUp (waiter : Nat) (signalled : Bool)
  | done (key : κ)
  /-- The first part of trying a key again, with a delay of its own or the usual one. -/
  | requeue (key : κ) (delay : Option Duration)
  /-- The second part. -/
  | comeBack (key : κ) (delay : Duration)
  | setTimer (ticket : Nat)
  /-- A delay has passed. -/
  | fire (ticket : Nat)
  | shutDown
  deriving DecidableEq, Repr

/-- What is written down about a key. -/
inductive QueueEntry (κ : Type) where
  | added (key : κ)
  | took (key : κ)
  | released (key : κ)
  deriving DecidableEq, Repr

/-- A queue and the record of what has happened to it. -/
structure Ledger (κ : Type) where
  queue : WorkQueue κ
  /-- Keys that are being tried again and have not come back yet, with their delays. -/
  returning : List (κ × Duration) := []
  /-- Latest first. -/
  record : List (QueueEntry κ) := []

namespace Ledger

variable {κ : Type}

/-- The record holds `a`, and `b` has not come since. -/
def Since (record : List (QueueEntry κ)) (a b : QueueEntry κ) : Prop :=
  ∃ newer older, record = newer ++ a :: older ∧ b ∉ newer

lemma since_cons {r : List (QueueEntry κ)} {e a b : QueueEntry κ} :
    Since (e :: r) a b ↔ e = a ∨ b ≠ e ∧ Since r a b := by
  constructor
  · rintro ⟨newer, older, hr, hb⟩
    cases newer with
    | nil => exact .inl (List.cons.inj hr).1
    | cons x newer =>
      obtain ⟨rfl, hr'⟩ := List.cons.inj hr
      rw [List.mem_cons, not_or] at hb
      exact .inr ⟨hb.1, newer, older, hr', hb.2⟩
  · rintro (rfl | ⟨hne, newer, older, rfl, hb⟩)
    · exact ⟨[], r, rfl, by simp⟩
    · exact ⟨e :: newer, older, rfl, by simp [hne, hb]⟩

lemma not_since_nil {a b : QueueEntry κ} : ¬ Since [] a b := by
  rintro ⟨newer, older, hr, _⟩
  simp at hr

/-- The collections are in step, a key that was taken and not given back is in work, and no key was
taken twice without being given back. -/
structure Sound (l : Ledger κ) : Prop where
  consistent : l.queue.Consistent
  held : ∀ k, Since l.record (.took k) (.released k) → k ∈ l.queue.processing
  once : ∀ k newer older, l.record = newer ++ .took k :: older →
    ¬ Since older (.took k) (.released k)

/-- An entry other than a hand-out, after a step that lets go of no key but the one released. -/
lemma Sound.extend {l : Ledger κ} (h : l.Sound) {q : WorkQueue κ} (hq : q.Consistent)
    {e : QueueEntry κ} (he : ∀ k, e ≠ .took k)
    (hp : ∀ k ∈ l.queue.processing, e ≠ .released k → k ∈ q.processing)
    (returning : List (κ × Duration)) : Sound ⟨q, returning, e :: l.record⟩ := by
  refine ⟨hq, ?_, ?_⟩
  · intro k hs
    rcases since_cons.mp hs with hk | ⟨hne, hs⟩
    · exact absurd hk (he k)
    · exact hp k (h.held k hs) hne.symm
  · intro k newer older hr
    cases newer with
    | nil => exact absurd (List.cons.inj hr).1 (he k)
    | cons x newer => exact h.once k newer older (List.cons.inj hr).2

/-- A step that nothing is written down about and that keeps the collections. -/
lemma Sound.keep {l : Ledger κ} (h : l.Sound) {q : WorkQueue κ} (s : WorkQueue.SameKeys l.queue q)
    (returning : List (κ × Duration)) : Sound ⟨q, returning, l.record⟩ :=
  ⟨h.consistent.of_sameKeys s, fun k hs => by rw [s.processing]; exact h.held k hs, h.once⟩

variable [DecidableEq κ]

/-- Lets something happen. An add is written down whatever comes of it, and so is trying a key again
without a delay; a key that is marked or put off is not added by that. -/
def move (l : Ledger κ) : QueueMove κ → Ledger κ
  | .add k => { l with queue := (l.queue.add k).1, record := .added k :: l.record }
  | .get w =>
    match l.queue.turn w with
    | .got k q => { l with queue := q, record := .took k :: l.record }
    | .closed q => { l with queue := q }
    | .waiting q => { l with queue := q }
  | .giveUp w signalled => { l with queue := (l.queue.giveUp w signalled).1 }
  | .done k => { l with queue := (l.queue.done k).1, record := .released k :: l.record }
  | .requeue k delay =>
    match l.queue.endForRetry k delay with
    | (some d, q, _) =>
      { queue := q, returning := (k, d) :: l.returning, record := .released k :: l.record }
    | (none, q, _) =>
      { l with
        queue := q
        record := if (l.queue.chooseDelay k delay).1 = 0 then .added k :: .released k :: l.record
          else .released k :: l.record }
  | .comeBack k d =>
    if (k, d) ∈ l.returning then
      { queue := (l.queue.comeBack k d).queue
        returning := l.returning.erase (k, d)
        record := if d = 0 then .added k :: l.record else l.record }
    else l
  | .setTimer ticket => { l with queue := l.queue.setTimed ticket }
  | .fire ticket =>
    match l.queue.delayed? ticket with
    | some d => { l with queue := (l.queue.readd ticket).1, record := .added d.key :: l.record }
    | none => l
  | .shutDown => { l with queue := l.queue.shutDown.1 }

/-- What has become of a new queue after a sequence of moves. -/
def run (base greatest : Duration) (moves : List (QueueMove κ)) : Ledger κ :=
  moves.foldl move { queue := .new base greatest }

/-- A key that is handed out is not in work, so it has been given back since it was last taken. -/
lemma Sound.took {l : Ledger κ} (h : l.Sound) {k : κ} {q : WorkQueue κ}
    (e : WorkQueue.HandedOut l.queue k q) : Sound ⟨q, l.returning, .took k :: l.record⟩ := by
  obtain ⟨_, hidle, _⟩ := h.consistent.idle_of_handedOut e
  refine ⟨h.consistent.handedOut e, ?_, ?_⟩
  · intro j hs
    rw [e.processing]
    rcases since_cons.mp hs with hj | ⟨_, hs⟩
    · simp [QueueEntry.took.inj hj]
    · exact List.mem_insert_iff.mpr (.inr (h.held j hs))
  · intro j newer older hr
    cases newer with
    | nil =>
      obtain ⟨hj, rfl⟩ := List.cons.inj hr
      obtain rfl := QueueEntry.took.inj hj
      exact fun hs => hidle (h.held k hs)
    | cons x newer => exact h.once j newer older (List.cons.inj hr).2

lemma Sound.move {l : Ledger κ} (h : l.Sound) (m : QueueMove κ) : (l.move m).Sound := by
  have hc := h.consistent
  -- what `done` and `requeue` let go of is the key that they write down
  have released (k : κ) (j : κ) (hj : j ∈ l.queue.processing)
      (hne : QueueEntry.released k ≠ .released j) : j ∈ l.queue.processing.filter (· ≠ k) :=
    List.mem_filter.mpr ⟨hj, by simpa using fun he => hne (by rw [he])⟩
  cases m with
  | add k => exact h.extend (hc.add k) (by simp) (fun j hj _ => by simpa using hj) _
  | get w =>
    rcases l.queue.turn_cases w with ⟨k, q, ht, e⟩ | ⟨s, ht, _⟩ | ⟨s, ht, _⟩
    · simp only [Ledger.move, ht]
      exact h.took e
    · simp only [Ledger.move, ht]
      exact h.keep (l.queue.signal_sameKeys s) _
    · simp only [Ledger.move, ht]
      exact h.keep (l.queue.signal_sameKeys s) _
  | giveUp w signalled => exact h.keep (l.queue.giveUp_sameKeys w signalled) _
  | done k =>
    exact h.extend (hc.done k) (by simp)
      (fun j hj hne => by rw [WorkQueue.done_processing]; exact released k j hj hne) _
  | requeue k delay =>
    have hr := hc.endForRetry k delay
    have hp := l.queue.endForRetry_processing k delay
    have hs := fun returning => h.extend (e := .released k) hr (by simp)
      (fun j hj hne => by rw [hp]; exact released k j hj hne) returning
    simp only [Ledger.move]
    split
    next d q woken he =>
      rw [he] at hs
      exact hs _
    next q woken he =>
      rw [he] at hs
      split
      · exact (hs l.returning).extend (hs l.returning).consistent (by simp) (fun j hj _ => hj) _
      · exact hs _
  | comeBack k d =>
    simp only [Ledger.move]
    split
    · split
      · exact h.extend (hc.comeBack k d) (by simp) (fun j hj _ => by simpa using hj) _
      next hd => exact h.keep (l.queue.comeBack_sameKeys k hd) _
    · exact h
  | setTimer ticket => exact h.keep (l.queue.setTimed_sameKeys ticket) _
  | fire ticket =>
    simp only [Ledger.move]
    split
    · exact h.extend (hc.readd ticket) (by simp) (fun j hj _ => by simpa using hj) _
    · exact h
  | shutDown => exact h.keep l.queue.shutDown_sameKeys _

/-- A property that holds at the beginning and is kept by each move holds after every run. -/
lemma run_induction {P : Ledger κ → Prop} {base greatest : Duration} (moves : List (QueueMove κ))
    (start : P { queue := .new base greatest })
    (step : ∀ l, P l → ∀ m ∈ moves, P (l.move m)) : P (run base greatest moves) := by
  have h : ∀ (ms : List (QueueMove κ)) (l : Ledger κ), (∀ m ∈ ms, m ∈ moves) → P l →
      P (ms.foldl move l) := by
    intro ms
    induction ms with
    | nil => exact fun _ _ hl => hl
    | cons m ms ih =>
      intro l hms hl
      exact ih _ (fun x hx => hms x (List.mem_cons_of_mem m hx)) (step l hl m (hms m List.mem_cons_self))
  exact h moves _ (fun _ hm => hm) start

lemma run_sound (base greatest : Duration) (moves : List (QueueMove κ)) :
    (run base greatest moves).Sound := by
  refine run_induction moves ?_ fun l hl m _ => hl.move m
  refine ⟨WorkQueue.new_consistent base greatest, fun k hs => absurd hs not_since_nil, ?_⟩
  intro k newer older hr
  simp at hr

/-- After every sequence of operations, in any order and on any keys, no key stands in line twice, the
keys marked as queued are those in line, no key is both in line and in work, and only keys in work are
marked. So a key that was handed out is not handed out again before the work on it has been ended. -/
theorem run_keeps_shape (base greatest : Duration) (moves : List (QueueMove κ)) :
    let l := run base greatest moves
    l.queue.fifo.Nodup ∧
    (∀ k, k ∈ l.queue.queued ↔ k ∈ l.queue.fifo) ∧
    (∀ k, k ∈ l.queue.queued → k ∉ l.queue.processing) ∧
    (∀ k, k ∈ l.queue.dirty → k ∈ l.queue.processing) ∧
    ∀ k newer between older, l.record = newer ++ .took k :: (between ++ .took k :: older) →
      .released k ∈ between := by
  have h := run_sound base greatest moves
  refine ⟨h.consistent.nodup, h.consistent.queued_iff, h.consistent.disjoint,
    h.consistent.dirty_processing, ?_⟩
  intro k newer between older hr
  by_contra hk
  exact h.once k newer _ hr ⟨between, older, rfl, hk⟩

end Ledger

end ControlLoop
