import ControlLoop.Proofs.QueueInvariant

/-!
# First come, first served

Keys reach the line in three ways: an add of a key that is idle, the end of a delay, which is an add too,
and the end of the work on a marked key. Whichever way a key came, it goes to the end of the line, and only
the first key is ever taken out. So what has been handed out and what is in line are together what has
entered, in that order, and no key is overtaken by one that came later.
-/
namespace ControlLoop.WorkQueue

variable {κ : Type} {q : WorkQueue κ} {k : κ}

/-- The key is not in line, and nobody works on it. -/
def IsIdle (q : WorkQueue κ) (k : κ) : Prop := k ∉ q.queued ∧ k ∉ q.processing

variable [DecidableEq κ]

instance (q : WorkQueue κ) (k : κ) : Decidable (q.IsIdle k) :=
  inferInstanceAs (Decidable (k ∉ q.queued ∧ k ∉ q.processing))

/-- The key, if an add sends it to the line. -/
def ifIdle (q : WorkQueue κ) (k : κ) : List κ := if q.IsIdle k then [k] else []

/-- The key, if the end of the work on it sends it to the line. -/
def ifMarked (q : WorkQueue κ) (k : κ) : List κ := if k ∈ q.dirty then [k] else []

/-! ## What each operation does to the line -/

lemma fifo_add (hs : q.shuttingDown = false) (k : κ) : (q.add k).1.fifo = q.fifo ++ q.ifIdle k := by
  rcases add_cases q k with ⟨hk, he⟩ | ⟨_, _, hp, he⟩ | ⟨_, hq, hp, e⟩
  · have hqueued : k ∈ q.queued := by simpa [hs] using hk
    have hidle : ¬ q.IsIdle k := fun h => h.1 hqueued
    rw [he, ifIdle, if_neg hidle, List.append_nil]
  · have hidle : ¬ q.IsIdle k := fun h => h.2 hp
    rw [he, ifIdle, if_neg hidle, List.append_nil]
  · rw [e.fifo, ifIdle, if_pos ⟨hq, hp⟩]

lemma fifo_finish (hs : q.shuttingDown = false) (k : κ) :
    (q.finish k).2.1.fifo = q.fifo ++ q.ifMarked k := by
  rcases finish_cases q k with ⟨hd, _, _, e⟩ | ⟨hd, _, he⟩
  · rw [e.fifo, ifMarked, if_pos hd]
    rfl
  · have hclean : k ∉ q.dirty := by simpa [hs] using hd
    rw [he, ifMarked, if_neg hclean, List.append_nil]
    rfl

lemma fifo_done (hs : q.shuttingDown = false) (k : κ) : (q.done k).1.fifo = q.fifo ++ q.ifMarked k :=
  fifo_finish (q := { q with backoff := q.backoff.forget k }) hs k

lemma fifo_endForRetry (hs : q.shuttingDown = false) (k : κ) (delay : Option Duration) :
    (q.endForRetry k delay).2.1.fifo = q.fifo ++ q.ifMarked k := by
  obtain ⟨b, hb⟩ := endForRetry_eq q k delay
  rw [hb]
  exact fifo_finish (q := { q with backoff := b }) hs k

lemma fifo_comeBack (hs : q.shuttingDown = false) (k : κ) (d : Duration) :
    (q.comeBack k d).queue.fifo = q.fifo ++ if d = 0 then q.ifIdle k else [] := by
  split
  next hd =>
    simp only [comeBack, if_pos hd]
    exact fifo_add hs k
  next hd => rw [(q.comeBack_sameKeys k hd).fifo, List.append_nil]

lemma fifo_readd (hs : q.shuttingDown = false) {ticket : Nat} {d : Delayed κ}
    (hd : q.delayed? ticket = some d) : (q.readd ticket).1.fifo = q.fifo ++ q.ifIdle d.key := by
  simp only [readd, hd]
  exact fifo_add (q := { q with delayed := q.delayed.filter fun d => d.ticket ≠ ticket }) hs d.key

end ControlLoop.WorkQueue

namespace ControlLoop.Ledger

open WorkQueue

variable {κ : Type} [DecidableEq κ] {l : Ledger κ} {m : QueueMove κ} {moves : List (QueueMove κ)}

/-- The keys that a move sends to the end of the line. -/
def entrants (l : Ledger κ) : QueueMove κ → List κ
  | .add k => l.queue.ifIdle k
  | .done k => l.queue.ifMarked k
  | .requeue k _ => l.queue.ifMarked k
  | .comeBack k d =>
    if l.returning.contains (k, d) then
      if d = 0 then l.queue.ifIdle k else []
    else []
  | .fire ticket => ((l.queue.delayed? ticket).map fun d => l.queue.ifIdle d.key).getD []
  | .get _ => []
  | .giveUp _ _ => []
  | .setTimer _ => []
  | .shutDown => []

/-- The key that a move hands out, if it hands one out. -/
def served (l : Ledger κ) : QueueMove κ → List κ
  | .get w =>
    match l.queue.turn w with
    | .got k _ => [k]
    | .closed _ => []
    | .waiting _ => []
  | _ => []

/-- What becomes of a ledger in a sequence of moves. -/
def after (l : Ledger κ) (moves : List (QueueMove κ)) : Ledger κ := moves.foldl move l

/-- The keys that enter the line in a sequence of moves, in order. -/
def entered (l : Ledger κ) : List (QueueMove κ) → List κ
  | [] => []
  | m :: moves => l.entrants m ++ (l.move m).entered moves

/-- The keys that are handed out in a sequence of moves, in order. -/
def handedOut (l : Ledger κ) : List (QueueMove κ) → List κ
  | [] => []
  | m :: moves => l.served m ++ (l.move m).handedOut moves

/-! ## One move -/

/-- Only a shutdown ends the service. -/
lemma move_open (hs : l.queue.shuttingDown = false) (hm : m ≠ .shutDown) :
    (l.move m).queue.shuttingDown = false := by
  cases m with
  | shutDown => exact absurd rfl hm
  | add k => simpa [move] using hs
  | get w =>
    rcases l.queue.turn_cases w with ⟨k, q, ht, e⟩ | ⟨s, ht, _⟩ | ⟨s, ht, _⟩
    · simp only [move, ht]
      rw [e.shuttingDown, hs]
    · simpa only [move, ht] using hs
    · simpa only [move, ht] using hs
  | giveUp w signalled =>
    simp only [move, giveUp]
    split <;> exact hs
  | done k => simpa [move] using hs
  | requeue k delay =>
    have hopen := l.queue.endForRetry_shuttingDown k delay
    simp only [move]
    split <;> next he => rw [he] at hopen; exact hopen.trans hs
  | comeBack k d =>
    simp only [move]
    split
    · simpa using hs
    · exact hs
  | setTimer ticket => exact hs
  | fire ticket =>
    simp only [move]
    split
    · simpa using hs
    · exact hs

/-- A move takes keys out at the front of the line and puts keys in at its end. -/
lemma served_append_fifo (hs : l.queue.shuttingDown = false) (hm : m ≠ .shutDown) :
    l.served m ++ (l.move m).queue.fifo = l.queue.fifo ++ l.entrants m := by
  cases m with
  | shutDown => exact absurd rfl hm
  | add k => exact fifo_add hs k
  | get w =>
    rcases l.queue.turn_cases w with ⟨k, q, ht, e⟩ | ⟨s, ht, _⟩ | ⟨s, ht, _⟩
    · simp only [served, move, ht, entrants, e.fifo, List.append_nil]
      rfl
    · simp only [served, move, ht, entrants, List.append_nil, List.nil_append]
    · simp only [served, move, ht, entrants, List.append_nil, List.nil_append]
  | giveUp w signalled =>
    simp only [served, move, entrants, (l.queue.giveUp_sameKeys w signalled).fifo, List.append_nil,
      List.nil_append]
  | done k => exact fifo_done hs k
  | requeue k delay =>
    have hline := fifo_endForRetry hs k delay
    simp only [served, move, entrants, List.nil_append]
    split <;> next he => rw [he] at hline; exact hline
  | comeBack k d =>
    simp only [served, move, entrants, List.nil_append, List.contains_iff_mem]
    by_cases hk : (k, d) ∈ l.returning
    · simp only [if_pos hk]
      exact fifo_comeBack hs k d
    · simp only [if_neg hk, List.append_nil]
  | setTimer ticket => exact (List.append_nil _).symm
  | fire ticket =>
    simp only [served, move, entrants, List.nil_append]
    cases hd : l.queue.delayed? ticket with
    | none => simp
    | some d => exact fifo_readd hs hd

/-! ## Runs -/

lemma after_open (hs : l.queue.shuttingDown = false) (hmoves : .shutDown ∉ moves) :
    (l.after moves).queue.shuttingDown = false := by
  induction moves generalizing l with
  | nil => exact hs
  | cons m moves ih =>
    obtain ⟨hm, hmoves⟩ := List.ne_and_not_mem_of_not_mem_cons hmoves
    exact ih (move_open hs (Ne.symm hm)) hmoves

/-- What is handed out and what is in line at the end are what was in line and what has entered. -/
lemma handedOut_append_fifo (hs : l.queue.shuttingDown = false) (hmoves : .shutDown ∉ moves) :
    l.handedOut moves ++ (l.after moves).queue.fifo = l.queue.fifo ++ l.entered moves := by
  induction moves generalizing l with
  | nil => exact (List.append_nil _).symm
  | cons m moves ih =>
    obtain ⟨hm, hmoves⟩ := List.ne_and_not_mem_of_not_mem_cons hmoves
    calc l.handedOut (m :: moves) ++ (l.after (m :: moves)).queue.fifo
        = l.served m ++ ((l.move m).handedOut moves ++ ((l.move m).after moves).queue.fifo) :=
          List.append_assoc _ _ _
      _ = l.served m ++ (l.move m).queue.fifo ++ (l.move m).entered moves := by
          rw [ih (move_open hs (Ne.symm hm)) hmoves, List.append_assoc]
      _ = l.queue.fifo ++ l.entered (m :: moves) := by
          rw [served_append_fifo hs (Ne.symm hm), List.append_assoc]
          rfl

/-- Someone who asks for a key while some are in line gets the first one. -/
lemma turn_of_getElem? (hs : l.queue.shuttingDown = false) {p : Nat} {k : κ}
    (hk : l.queue.fifo[p]? = some k) (w : Nat) : ∃ j q, l.queue.turn w = .got j q := by
  rcases l.queue.turn_cases w with ⟨j, q, ht, _⟩ | ⟨_, _, hdown⟩ | ⟨_, _, _, hempty⟩
  · exact ⟨j, q, ht⟩
  · rw [hs] at hdown
    cases hdown
  · simp [hempty] at hk

omit [DecidableEq κ] in
lemma not_mem_take_of_getElem? {keys : List κ} (hkeys : keys.Nodup) {p : Nat} {k : κ}
    (hk : keys[p]? = some k) {n : Nat} (hn : n ≤ p) : k ∉ keys.take n := by
  intro hmem
  obtain ⟨i, hi⟩ := List.mem_iff_getElem?.mp hmem
  rw [List.getElem?_take] at hi
  split at hi
  next hin =>
    have hlength : i < keys.length := (List.getElem?_eq_some_iff.mp hi).1
    have hip : i = p := (List.getElem?_inj hlength hkeys).mp (hi.trans hk.symm)
    omega
  · cases hi

omit [DecidableEq κ] in
/-- Where a key at a place of the line is to be found when keys have left at the front and others have
come to the end. -/
lemma place_of_append_eq {keys more out rest : List κ} (h : out ++ rest = keys ++ more)
    (hkeys : keys.Nodup) {p : Nat} {k : κ} (hk : keys[p]? = some k) :
    (p < out.length → out[p]? = some k ∧ k ∉ out.take p) ∧
    (out.length ≤ p → k ∉ out ∧ rest[p - out.length]? = some k) := by
  have hp : p < keys.length := (List.getElem?_eq_some_iff.mp hk).1
  have hplace : (out ++ rest)[p]? = some k := by
    rw [h, List.getElem?_append_left hp, hk]
  -- What stands before a place that is no later than `p` is part of the old line.
  have hbefore {n : Nat} (hn : n ≤ p) : (out ++ rest).take n = keys.take n := by
    rw [h, List.take_append_of_le_length (by omega)]
  constructor
  · intro hout
    have htake := hbefore le_rfl
    rw [List.take_append_of_le_length hout.le] at htake
    rw [List.getElem?_append_left hout] at hplace
    exact ⟨hplace, htake ▸ not_mem_take_of_getElem? hkeys hk le_rfl⟩
  · intro hout
    have htake := hbefore hout
    rw [List.take_left] at htake
    rw [List.getElem?_append_right hout] at hplace
    exact ⟨htake ▸ not_mem_take_of_getElem? hkeys hk hout, hplace⟩

/-- In every run without a shutdown, the keys handed out and then those in line are the keys that have
entered the line, in the order in which they did. So the key at place `p` of the line, counted from
zero, is the one that the hand-out after `p` others gives, and none of those others gives it, whatever
happens in between. Until then it stands where those that have left before it leave it, and whoever asks
next gets a key. -/
theorem handed_out_in_order (base greatest : Duration) (moves : List (QueueMove κ))
    (h : .shutDown ∉ moves) :
    let start : Ledger κ := { queue := .new base greatest }
    let l := start.after moves
    start.handedOut moves ++ l.queue.fifo = start.entered moves ∧
    ∀ p k, l.queue.fifo[p]? = some k → ∀ later, .shutDown ∉ later →
      let out := l.handedOut later
      let queue := (l.after later).queue
      (p < out.length → out[p]? = some k ∧ k ∉ out.take p) ∧
      (out.length ≤ p → k ∉ out ∧ queue.fifo[p - out.length]? = some k ∧
        ∀ w, ∃ j q, queue.turn w = .got j q) := by
  intro start l
  have hs : l.queue.shuttingDown = false := after_open rfl h
  refine ⟨handedOut_append_fifo rfl h, ?_⟩
  intro p k hk later hlater
  have hkeys : l.queue.fifo.Nodup := (run_sound base greatest moves).consistent.nodup
  obtain ⟨hgone, hstays⟩ := place_of_append_eq (handedOut_append_fifo hs hlater) hkeys hk
  refine ⟨hgone, ?_⟩
  intro hout
  obtain ⟨hmem, hplace⟩ := hstays hout
  exact ⟨hmem, hplace, turn_of_getElem? (after_open hs hlater) hplace⟩

/-- Two keys are added and the first is taken; it is added again while in work, and lines up behind a third
one when the work on it ends. -/
def linedUpAgain : List (QueueMove Nat) := [.add 1, .add 2, .get 0, .add 1, .add 3, .done 1]

/-- Three keys are taken, one of them tried again at once, while others come. -/
def takenMeanwhile : List (QueueMove Nat) :=
  [.get 0, .add 4, .add 1, .requeue 2 (some 0), .get 0, .comeBack 2 0, .get 0]

theorem handed_out_in_order_marked :
    let start : Ledger Nat := { queue := .new 1 4 }
    let l := start.after linedUpAgain
    start.handedOut linedUpAgain ++ l.queue.fifo = [1, 2, 3, 1] ∧
    start.entered linedUpAgain = [1, 2, 3, 1] ∧
    (l.handedOut takenMeanwhile)[2]? = some 1 ∧ 1 ∉ (l.handedOut takenMeanwhile).take 2 := by
  have hall := handed_out_in_order 1 4 linedUpAgain (by decide)
  have hlater := (hall.2 2 1 (by decide) takenMeanwhile (by decide)).1 (by decide)
  exact ⟨by decide, by decide, hlater⟩

end ControlLoop.Ledger
