import ControlLoop.Proofs.QueueInvariant

/-!
# No work lost, no work invented

Whatever the four collections of a queue look like, only one thing about them counts for those who add
keys: which keys are still to be handed out. A key is, exactly if it has been added since it was last
handed out. Ending the work on a key does not change that; it only puts a marked key in line.
-/
namespace ControlLoop.WorkQueue

variable {κ : Type} {q q' : WorkQueue κ} {k j : κ}

/-- The key is in line, or marked to line up again. -/
def IsPending (q : WorkQueue κ) (k : κ) : Prop := k ∈ q.queued ∨ k ∈ q.dirty

lemma SameKeys.isPending_iff (s : SameKeys q q') : q'.IsPending j ↔ q.IsPending j := by
  rw [IsPending, IsPending, s.queued, s.dirty]

variable [DecidableEq κ]

lemma Enqueued.isPending_iff (e : Enqueued q k q') : q'.IsPending j ↔ j = k ∨ q.IsPending j := by
  rw [IsPending, IsPending, e.queued, e.dirty, List.mem_insert_iff, or_assoc]

lemma add_isPending_iff (hs : q.shuttingDown = false) :
    (q.add k).1.IsPending j ↔ j = k ∨ q.IsPending j := by
  rcases add_cases q k with ⟨hk, he⟩ | ⟨_, _, _, he⟩ | ⟨_, _, _, e⟩
  · rw [he]
    have hq : k ∈ q.queued := by simpa [hs] using hk
    exact ⟨.inr, fun h => h.elim (fun he => .inl (he ▸ hq)) id⟩
  · rw [he, IsPending, IsPending, List.mem_insert_iff]
    exact or_left_comm
  · exact e.isPending_iff

/-- A key that is handed out is not pending any more, and no other key changes. -/
lemma Consistent.handedOut_isPending_iff (h : q.Consistent) (e : HandedOut q k q') :
    q'.IsPending j ↔ j ≠ k ∧ q.IsPending j := by
  obtain ⟨_, _, hd⟩ := h.idle_of_handedOut e
  rw [IsPending, IsPending, e.queued, e.dirty, List.mem_filter, decide_eq_true_eq]
  constructor
  · rintro (⟨hj, hne⟩ | hj)
    · exact ⟨hne, .inl hj⟩
    · exact ⟨fun he => hd (he ▸ hj), .inr hj⟩
  · rintro ⟨hne, hj | hj⟩
    · exact .inl ⟨hj, hne⟩
    · exact .inr hj

/-- The same keys are pending, and the line and the marks are as before but for a marked key, which has
gone to the end of the line. -/
structure Settles (q : WorkQueue κ) (k : κ) (q' : WorkQueue κ) : Prop where
  pending : ∀ j, (j ∈ q'.queued ∨ j ∈ q'.dirty) ↔ (j ∈ q.queued ∨ j ∈ q.dirty)
  line : (q'.fifo = q.fifo ∧ ∀ j, j ∈ q'.dirty ↔ j ∈ q.dirty) ∨
    (k ∈ q.dirty ∧ q'.fifo = q.fifo ++ [k] ∧ ∀ j, j ∈ q'.dirty ↔ j ∈ q.dirty ∧ j ≠ k)

lemma finish_settles (q : WorkQueue κ) (k : κ) (hs : q.shuttingDown = false) :
    Settles q k (q.finish k).2.1 := by
  have hmarks : ∀ j, j ∈ (q.withoutWork k).dirty ↔ j ∈ q.dirty ∧ j ≠ k := by
    intro j
    simp [withoutWork]
  rcases finish_cases q k with ⟨hd, _, _, e⟩ | ⟨hd, _, he⟩
  · refine ⟨?_, .inr ⟨hd, e.fifo, by rw [e.dirty]; exact hmarks⟩⟩
    intro j
    rw [e.queued, e.dirty, List.mem_insert_iff, hmarks]
    by_cases hj : j = k
    · subst hj
      simp [hd]
    · simp [hj, withoutWork]
  · have hk : k ∉ q.dirty := by simpa [hs] using hd
    have hsame : ∀ j, j ∈ (q.withoutWork k).dirty ↔ j ∈ q.dirty := by
      intro j
      rw [hmarks]
      exact and_iff_left_of_imp fun hj he => hk (he ▸ hj)
    rw [he]
    exact ⟨fun j => or_congr Iff.rfl (hsame j), .inl ⟨rfl, hsame⟩⟩

lemma done_settles (q : WorkQueue κ) (k : κ) (hs : q.shuttingDown = false) :
    Settles q k (q.done k).1 := by
  have h := finish_settles { q with backoff := q.backoff.forget k } k hs
  exact ⟨h.pending, h.line⟩

lemma endForRetry_settles (q : WorkQueue κ) (k : κ) (delay : Option Duration)
    (hs : q.shuttingDown = false) : Settles q k (q.endForRetry k delay).2.1 := by
  obtain ⟨b, hb⟩ := endForRetry_eq q k delay
  have h := finish_settles { q with backoff := b } k hs
  rw [hb]
  exact ⟨h.pending, h.line⟩

end ControlLoop.WorkQueue

namespace ControlLoop.Ledger

open WorkQueue

variable {κ : Type}

/-- The queue is open, and the pending keys are those added since they were last taken. -/
structure Accounted (l : Ledger κ) : Prop where
  consistent : l.queue.Consistent
  open_ : l.queue.shuttingDown = false
  pending_iff : ∀ k, l.queue.IsPending k ↔ Since l.record (.added k) (.took k)

/-- A key is added, and that is written down. -/
lemma Accounted.add {l : Ledger κ} (h : l.Accounted) {q : WorkQueue κ} (hc : q.Consistent)
    (hs : q.shuttingDown = false) {k : κ}
    (hp : ∀ j, q.IsPending j ↔ j = k ∨ l.queue.IsPending j) (returning : List (κ × Duration)) :
    Accounted ⟨q, returning, .added k :: l.record⟩ := by
  refine ⟨hc, hs, ?_⟩
  intro j
  rw [hp, h.pending_iff, since_cons]
  refine or_congr ⟨fun he => by rw [he], fun he => (QueueEntry.added.inj he).symm⟩ ?_
  exact ⟨fun hj => ⟨by simp, hj⟩, And.right⟩

/-- The pending keys stay as they are; at most the end of some work is written down. -/
lemma Accounted.keep {l : Ledger κ} (h : l.Accounted) {q : WorkQueue κ} (hc : q.Consistent)
    (hs : q.shuttingDown = false) (hp : ∀ j, q.IsPending j ↔ l.queue.IsPending j)
    {record : List (QueueEntry κ)}
    (hr : record = l.record ∨ ∃ k, record = .released k :: l.record)
    (returning : List (κ × Duration)) : Accounted ⟨q, returning, record⟩ := by
  refine ⟨hc, hs, ?_⟩
  intro j
  rw [hp, h.pending_iff]
  rcases hr with rfl | ⟨k, rfl⟩
  · exact Iff.rfl
  · simp [since_cons]

lemma Accounted.same {l : Ledger κ} (h : l.Accounted) {q : WorkQueue κ} (s : SameKeys l.queue q)
    (hs : q.shuttingDown = false) (returning : List (κ × Duration)) :
    Accounted ⟨q, returning, l.record⟩ :=
  h.keep (h.consistent.of_sameKeys s) hs (fun _ => s.isPending_iff) (.inl rfl) returning

variable [DecidableEq κ]

lemma Accounted.move {l : Ledger κ} (h : l.Accounted) {m : QueueMove κ} (hm : m ≠ .shutDown) :
    (l.move m).Accounted := by
  have hc := h.consistent
  have hs := h.open_
  cases m with
  | shutDown => exact absurd rfl hm
  | add k => exact h.add (hc.add k) (by simpa using hs) (fun j => add_isPending_iff hs) _
  | get w =>
    rcases l.queue.turn_cases w with ⟨k, q, ht, e⟩ | ⟨s, ht, _⟩ | ⟨s, ht, _⟩
    · simp only [Ledger.move, ht]
      refine ⟨hc.handedOut e, by rw [e.shuttingDown]; exact hs, ?_⟩
      intro j
      rw [hc.handedOut_isPending_iff e, h.pending_iff, since_cons]
      simp
    · simp only [Ledger.move, ht]
      exact h.same (l.queue.signal_sameKeys s) hs _
    · simp only [Ledger.move, ht]
      exact h.same (l.queue.signal_sameKeys s) hs _
  | giveUp w signalled =>
    refine h.same (l.queue.giveUp_sameKeys w signalled) ?_ _
    unfold giveUp
    split <;> exact hs
  | done k =>
    have he := done_settles l.queue k hs
    exact h.keep (hc.done k) (by simpa using hs) he.pending (.inr ⟨k, rfl⟩) _
  | requeue k delay =>
    have he := endForRetry_settles l.queue k delay hs
    have hk := fun returning => h.keep (hc.endForRetry k delay) (by simpa using hs) he.pending
      (.inr ⟨k, rfl⟩) returning
    simp only [Ledger.move]
    split
    next d q woken hr =>
      rw [hr] at hk
      exact hk _
    next q woken hr =>
      split
      · -- the key was marked, so it is pending whether or not this counts as an add
        have hmarked : q.IsPending k := by
          obtain ⟨b, hb⟩ := endForRetry_eq l.queue k delay
          rw [hb] at hr
          rcases finish_cases { l.queue with backoff := b } k with ⟨_, _, _, e⟩ | ⟨_, hf, _⟩
          · rw [(Prod.mk.inj hr).2] at e
            exact e.isPending_iff.mpr (.inl rfl)
          · simp [hf] at hr
        rw [hr] at hk
        refine (hk l.returning).add (hk l.returning).consistent (hk l.returning).open_ ?_ _
        intro j
        exact ⟨.inr, fun hj => hj.elim (fun he => he ▸ hmarked) id⟩
      · rw [hr] at hk
        exact hk _
  | comeBack k d =>
    simp only [Ledger.move]
    split
    · have hopen : (l.queue.comeBack k d).queue.shuttingDown = false := by simpa using hs
      split
      next hd =>
        refine h.add (hc.comeBack k d) hopen ?_ _
        intro j
        simp only [comeBack, if_pos hd]
        exact add_isPending_iff hs
      next hd => exact h.same (l.queue.comeBack_sameKeys k hd) hopen _
    · exact h
  | setTimer ticket => exact h.same (l.queue.setTimed_sameKeys ticket) hs _
  | fire ticket =>
    simp only [Ledger.move]
    split
    next d hd =>
      refine h.add (hc.readd ticket) (by simpa using hs) ?_ _
      intro j
      simp only [readd, hd]
      exact add_isPending_iff hs
    · exact h

lemma run_accounted (base greatest : Duration) {moves : List (QueueMove κ)}
    (h : .shutDown ∉ moves) : (run base greatest moves).Accounted := by
  refine run_induction moves ?_ fun l hl m hm => hl.move fun he => h (he ▸ hm)
  refine ⟨new_consistent base greatest, rfl, ?_⟩
  intro k
  simp [IsPending, new, not_since_nil]

/-- In every run without a shutdown, a key is in line or marked exactly if it has been added since it
was last handed out. Ending the work on a key, well or for another try, and putting it off leave the
pending keys as they are: at most a marked key goes to the end of the line. -/
theorem pending_iff_added_since_taken (base greatest : Duration) (moves : List (QueueMove κ))
    (h : .shutDown ∉ moves) :
    let l := run base greatest moves
    (∀ k, (k ∈ l.queue.queued ∨ k ∈ l.queue.dirty) ↔
      ∃ newer older, l.record = newer ++ .added k :: older ∧ .took k ∉ newer) ∧
    ∀ k, Settles l.queue k (l.queue.done k).1 ∧
      (∀ delay, Settles l.queue k (l.queue.endForRetry k delay).2.1) ∧
      ∀ d, d ≠ 0 → SameKeys l.queue (l.queue.comeBack k d).queue := by
  have ha := run_accounted base greatest h
  refine ⟨ha.pending_iff, ?_⟩
  intro k
  exact ⟨done_settles _ k ha.open_, fun delay => endForRetry_settles _ k delay ha.open_,
    fun d hd => comeBack_sameKeys _ k hd⟩

/-- A key that is added while in work, tried again, and put off with a delay of its own. -/
def markedAndPutOff : List (QueueMove Nat) :=
  [.add 1, .get 0, .add 1, .requeue 1 none, .get 0, .requeue 1 (some 5), .add 2, .comeBack 1 5, .fire 0]

theorem pending_iff_added_since_taken_marked :
    let l := run 1 4 markedAndPutOff
    l.queue.fifo = [2, 1] ∧ .shutDown ∉ markedAndPutOff ∧
    (∀ k, (k ∈ l.queue.queued ∨ k ∈ l.queue.dirty) ↔
      ∃ newer older, l.record = newer ++ .added k :: older ∧ .took k ∉ newer) :=
  ⟨by decide, by decide, (pending_iff_added_since_taken 1 4 markedAndPutOff (by decide)).1⟩

end ControlLoop.Ledger
