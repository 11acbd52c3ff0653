import ControlLoop.Proofs.GrowingDelays
import ControlLoop.Proofs.Rounds

/-!
# Keys that are tried again

A key that is to be tried again is never lost: until it is handed out it stands in line, is marked,
waits for its delay to pass, or is on its way back in the call that tries it again. The failures of a
key are counted apart from the queue. The two agree in that every key with failures is looked after:
it is in line, in work, or comes back.
-/
namespace ControlLoop

/-! ## What the queue does to the counts -/

namespace WorkQueue

variable {κ : Type} [DecidableEq κ] {q q' : WorkQueue κ} {j k : κ}

lemma add_backoff (q : WorkQueue κ) (k : κ) : (q.add k).1.backoff = q.backoff := by
  unfold add
  split
  · rfl
  · split <;> rfl

lemma finish_backoff (q : WorkQueue κ) (k : κ) : (q.finish k).2.1.backoff = q.backoff := by
  simp only [finish]
  split <;> rfl

lemma comeBack_backoff (q : WorkQueue κ) (k : κ) (d : Duration) :
    (q.comeBack k d).queue.backoff = q.backoff := by
  by_cases hd : d = 0
  · simp only [comeBack, if_pos hd]
    exact add_backoff q k
  · simp only [comeBack, if_neg hd, putOff]
    split <;> rfl

lemma readd_backoff (q : WorkQueue κ) (ticket : Nat) : (q.readd ticket).1.backoff = q.backoff := by
  unfold readd
  split
  · rfl
  · exact add_backoff _ _

omit [DecidableEq κ] in
lemma giveUp_backoff (q : WorkQueue κ) (w : Nat) (signalled : Bool) :
    (q.giveUp w signalled).1.backoff = q.backoff := by
  unfold giveUp
  split <;> rfl

lemma turn_backoff {w : Nat} (h : q.turn w = .got k q') : q'.backoff = q.backoff := by
  unfold turn take at h
  simp only at h
  split at h
  · cases h
  · next hserved =>
    obtain ⟨rfl, rfl⟩ := Turn.got.inj h
    split at hserved
    · cases hserved
    · split at hserved
      · cases hserved
      · obtain ⟨-, rfl⟩ := Take.key.inj hserved
        rfl
  · cases h

/-- Work that went well ends the row of failures of its key and of no other one. -/
lemma requeues_done (q : WorkQueue κ) (j k : κ) :
    (q.done k).1.requeues j = if j = k then 0 else q.requeues j := by
  have hbackoff : (q.done k).1.backoff = q.backoff.forget k := finish_backoff _ k
  rw [requeues, hbackoff]
  split
  next hj => rw [hj, Backoff.count_forget_self]
  next hj => exact Backoff.count_forget_of_ne _ hj

/-- Trying a key again changes the count of that key only. -/
lemma requeues_endForRetry (q : WorkQueue κ) (hj : j ≠ k) (delay : Option Duration) :
    (q.endForRetry k delay).2.1.requeues j = q.requeues j := by
  have hbackoff : (q.endForRetry k delay).2.1.backoff = (q.chooseDelay k delay).2.backoff :=
    finish_backoff _ k
  rw [requeues, hbackoff]
  cases delay with
  | some d => exact Backoff.count_forget_of_ne _ hj
  | none => exact Backoff.count_delayFor_of_ne _ hj

omit [DecidableEq κ] in
lemma giveUp_carries (h : q.Serves) (w : Nat) (signalled : Bool) :
    q.Carries (q.giveUp w signalled).1 := by
  unfold giveUp
  split
  · exact h.signal _
  · exact h.signal _

end WorkQueue

/-! ## Runs -/

namespace Ledger

open WorkQueue

variable {κ : Type} {l : Ledger κ} {k j : κ}

/-- A re-add of the key is pending: its delay has not passed, or the call that tries the key again has
not come to its second part. -/
def ComesBack (l : Ledger κ) (k : κ) : Prop := l.queue.IsPutOff k ∨ ∃ d, (k, d) ∈ l.returning

/-- The key is to be handed out, now or later. -/
def Awaits (l : Ledger κ) (k : κ) : Prop := l.queue.IsPending k ∨ l.ComesBack k

variable [DecidableEq κ]

/-- What a move can do to a ledger while the queue is open. -/
inductive Changes (l l' : Ledger κ) : Prop
  /-- Nothing that was to be done is forgotten, and no failure is counted. -/
  | carried (queue : l.queue.Carries l'.queue) (counts : l'.queue.backoff = l.queue.backoff)
      (returning : l'.returning = l.returning)
  /-- A key has come back, to the line or to wait for its delay. -/
  | cameBack (k : κ) (d : Duration) (queue : l.queue.Carries l'.queue)
      (counts : l'.queue.backoff = l.queue.backoff)
      (returning : l'.returning = l.returning.erase (k, d))
      (back : l'.queue.IsPending k ∨ l'.queue.IsPutOff k)
  /-- A key has been handed out. -/
  | took (k : κ) (queue : HandedOut l.queue k l'.queue)
      (counts : l'.queue.backoff = l.queue.backoff) (returning : l'.returning = l.returning)
      (noted : l'.record = .took k :: l.record)
  /-- The work on a key has ended well. -/
  | done (k : κ) (queue : l.queue.Releases k l'.queue)
      (counts : ∀ j, l'.queue.requeues j = if j = k then 0 else l.queue.requeues j)
      (returning : l'.returning = l.returning)
  /-- The work on a key has ended, and the key is to be tried again. -/
  | retried (k : κ) (queue : l.queue.Releases k l'.queue)
      (counts : ∀ j, j ≠ k → l'.queue.requeues j = l.queue.requeues j)
      (returning : l.returning ⊆ l'.returning) (again : l'.Awaits k)

lemma move_get (h : l.queue.Serves) (w : Nat) : l.Changes (l.move (.get w)) := by
  rcases l.queue.turn_cases w with ⟨k, q, hturn, hq⟩ | ⟨s, hturn, hdown⟩ | ⟨s, hturn, -⟩
  · simp only [move, hturn]
    exact .took k hq (turn_backoff hturn) rfl rfl
  · rw [h.open_] at hdown
    cases hdown
  · simp only [move, hturn]
    exact .carried (h.signal s) rfl rfl

lemma queue_requeue (l : Ledger κ) (k : κ) (delay : Option Duration) :
    (l.move (.requeue k delay)).queue = (l.queue.endForRetry k delay).2.1 := by
  simp only [move]
  split
  next hend => rw [hend]
  next hend => rw [hend]

lemma returning_requeue (l : Ledger κ) (k : κ) (delay : Option Duration) :
    l.returning ⊆ (l.move (.requeue k delay)).returning := by
  simp only [move]
  split
  · exact List.subset_cons_self _ _
  · exact List.Subset.refl _

/-- A key that is tried again stands in line if it was marked, and is on its way back otherwise. -/
lemma awaits_requeue (h : l.queue.Serves) (k : κ) (delay : Option Duration) :
    (l.move (.requeue k delay)).Awaits k := by
  obtain ⟨-, hagain⟩ := h.endForRetry k delay
  simp only [move]
  split
  next d q woken hend => exact .inr (.inr ⟨d, List.mem_cons_self⟩)
  next q woken hend =>
    rw [hend] at hagain
    exact .inl (hagain rfl)

lemma move_requeue (h : l.queue.Serves) (k : κ) (delay : Option Duration) :
    l.Changes (l.move (.requeue k delay)) := by
  refine .retried k ?_ ?_ (returning_requeue l k delay) (awaits_requeue h k delay)
  · rw [queue_requeue]
    exact (h.endForRetry k delay).1
  · intro j hj
    rw [queue_requeue]
    exact l.queue.requeues_endForRetry hj delay

/-- Everything that can happen to a ledger while the queue is open. -/
lemma move_changes (h : l.queue.Serves) {m : QueueMove κ} (hm : m ≠ .shutDown) :
    l.Changes (l.move m) := by
  cases m with
  | shutDown => exact absurd rfl hm
  | add k => exact .carried (h.add k).1 (add_backoff _ k) rfl
  | get w => exact move_get h w
  | giveUp w signalled =>
    exact .carried (giveUp_carries h w signalled) (giveUp_backoff _ w signalled) rfl
  | done k => exact .done k (h.done k) (fun j => l.queue.requeues_done j k) rfl
  | requeue k delay => exact move_requeue h k delay
  | comeBack k d =>
    obtain ⟨hcarries, hback⟩ := h.comeBack k d
    simp only [move]
    split
    · exact .cameBack k d hcarries (comeBack_backoff _ k d) rfl hback
    · exact .carried (.refl h) rfl rfl
  | setTimer ticket => exact .carried (h.setTimed ticket) rfl rfl
  | fire ticket =>
    simp only [move]
    split
    · exact .carried (h.readd ticket) (readd_backoff _ ticket) rfl
    · exact .carried (.refl h) rfl rfl

namespace Changes

variable {l' : Ledger κ}

lemma serves (h : l.Changes l') (hl : l.queue.Serves) : l'.queue.Serves := by
  cases h with
  | carried queue => exact queue.serves
  | cameBack k d queue => exact queue.serves
  | took k queue => exact hl.handedOut queue
  | done k queue => exact queue.serves
  | retried k queue => exact queue.serves

/-- A key that is handed out goes to work. -/
def Took (l l' : Ledger κ) (k : κ) : Prop :=
  l'.record = .took k :: l.record ∧ k ∈ l'.queue.processing

lemma pending (h : l.Changes l') (hl : l.queue.Serves) (hk : l.queue.IsPending k) :
    l'.queue.IsPending k ∨ Took l l' k := by
  cases h with
  | carried queue => exact .inl (queue.pending k hk)
  | cameBack j d queue => exact .inl (queue.pending k hk)
  | took j queue counts returning noted =>
    by_cases hj : k = j
    · subst hj
      refine .inr ⟨noted, ?_⟩
      rw [queue.processing]
      exact List.mem_insert_self
    · exact .inl ((hl.consistent.handedOut_isPending_iff queue).mpr ⟨hj, hk⟩)
  | done j queue => exact .inl (queue.pending k hk)
  | retried j queue => exact .inl (queue.pending k hk)

lemma putOff (h : l.Changes l') (hk : l.queue.IsPutOff k) : l'.Awaits k := by
  cases h with
  | carried queue => exact (queue.putOff k hk).elim (fun h => .inr (.inl h)) .inl
  | cameBack j d queue => exact (queue.putOff k hk).elim (fun h => .inr (.inl h)) .inl
  | took j queue =>
    obtain ⟨d, hd, hkey⟩ := hk
    exact .inr (.inl ⟨d, queue.delayed ▸ hd, hkey⟩)
  | done j queue => exact .inr (.inl (queue.putOff k hk))
  | retried j queue => exact .inr (.inl (queue.putOff k hk))

/-- A key that is on its way back stays so until it has come back. -/
lemma returning (h : l.Changes l') {d : Duration} (hk : (k, d) ∈ l.returning) : l'.Awaits k := by
  cases h with
  | carried queue counts returning => exact .inr (.inr ⟨d, returning ▸ hk⟩)
  | cameBack j d' queue counts returning back =>
    by_cases hj : k = j
    · exact hj ▸ back.imp id .inl
    · have hne : (k, d) ≠ (j, d') := fun heq => hj (Prod.mk.inj heq).1
      refine .inr (.inr ⟨d, ?_⟩)
      rw [returning]
      exact (List.mem_erase_of_ne hne).mpr hk
  | took j queue counts returning => exact .inr (.inr ⟨d, returning ▸ hk⟩)
  | done j queue counts returning => exact .inr (.inr ⟨d, returning ▸ hk⟩)
  | retried j queue counts returning => exact .inr (.inr ⟨d, returning hk⟩)

/-- A key that is to be handed out still is, unless it has just been. -/
lemma awaits (h : l.Changes l') (hl : l.queue.Serves) (hk : l.Awaits k) :
    l'.Awaits k ∨ Took l l' k := by
  rcases hk with hpending | hputOff | ⟨d, hreturning⟩
  · exact (h.pending hl hpending).imp_left .inl
  · exact .inl (h.putOff hputOff)
  · exact .inl (h.returning hreturning)

/-- A key in work stays there, unless the work on it is ended. -/
lemma processing (h : l.Changes l') (hk : k ∈ l.queue.processing) :
    k ∈ l'.queue.processing ∨ l'.queue.requeues k = 0 ∨ l'.Awaits k := by
  have hkept (j : κ) (hj : k ≠ j) : k ∈ l.queue.processing.filter (· ≠ j) :=
    List.mem_filter.mpr ⟨hk, by simpa using hj⟩
  cases h with
  | carried queue => exact .inl (queue.processing ▸ hk)
  | cameBack j d queue => exact .inl (queue.processing ▸ hk)
  | took j queue => exact .inl (queue.processing ▸ List.mem_insert_of_mem hk)
  | done j queue counts =>
    by_cases hj : k = j
    · exact .inr (.inl (by rw [counts, if_pos hj]))
    · exact .inl (queue.processing ▸ hkept j hj)
  | retried j queue counts returning again =>
    by_cases hj : k = j
    · exact .inr (.inr (hj ▸ again))
    · exact .inl (queue.processing ▸ hkept j hj)

/-- A failure is counted only of a key that is to be tried again. -/
lemma failed (h : l.Changes l') (hk : l'.queue.requeues k ≠ 0) :
    l.queue.requeues k ≠ 0 ∨ l'.Awaits k := by
  cases h with
  | carried queue counts => exact .inl (by rwa [requeues, counts] at hk)
  | cameBack j d queue counts => exact .inl (by rwa [requeues, counts] at hk)
  | took j queue counts => exact .inl (by rwa [requeues, counts] at hk)
  | done j queue counts =>
    rw [counts] at hk
    split at hk
    · exact absurd rfl hk
    · exact .inl hk
  | retried j queue counts returning again =>
    by_cases hj : k = j
    · exact .inr (hj ▸ again)
    · exact .inl (counts k hj ▸ hk)

end Changes

/-- The queue serves, and every key with failures is looked after. -/
structure Upheld (l : Ledger κ) : Prop where
  serves : l.queue.Serves
  failing : ∀ k, l.queue.requeues k ≠ 0 → l.Awaits k ∨ k ∈ l.queue.processing

lemma Upheld.move (h : l.Upheld) {m : QueueMove κ} (hm : m ≠ .shutDown) : (l.move m).Upheld := by
  have hchanges := move_changes h.serves hm
  refine ⟨hchanges.serves h.serves, fun k hk => ?_⟩
  rcases hchanges.failed hk with hbefore | hawaits
  · rcases h.failing k hbefore with hawaits | hprocessing
    · exact (hchanges.awaits h.serves hawaits).imp_right And.right
    · rcases hchanges.processing hprocessing with hstill | hzero | hawaits
      · exact .inr hstill
      · exact absurd hzero hk
      · exact .inl hawaits
  · exact .inl hawaits

lemma run_upheld (base greatest : Duration) {moves : List (QueueMove κ)} (h : .shutDown ∉ moves) :
    (run base greatest moves).Upheld := by
  refine run_induction moves ?_ fun l hl m hm => hl.move fun he => h (he ▸ hm)
  refine ⟨new_serves base greatest, fun k hk => absurd ?_ hk⟩
  rfl

/-- What is written down stays. -/
lemma record_suffix (l : Ledger κ) (m : QueueMove κ) : l.record <:+ (l.move m).record := by
  cases m with
  | add k => exact List.suffix_cons _ _
  | get w =>
    simp only [move]
    split
    · exact List.suffix_cons _ _
    · exact List.suffix_rfl
    · exact List.suffix_rfl
  | giveUp | setTimer | shutDown => exact List.suffix_rfl
  | done k => exact List.suffix_cons _ _
  | requeue k delay =>
    simp only [move]
    split
    · exact List.suffix_cons _ _
    · split
      · exact (List.suffix_cons _ _).trans (List.suffix_cons _ _)
      · exact List.suffix_cons _ _
  | comeBack k d =>
    simp only [move]
    split
    · split
      · exact List.suffix_cons _ _
      · exact List.suffix_rfl
    · exact List.suffix_rfl
  | fire ticket =>
    simp only [move]
    split
    · exact List.suffix_cons _ _
    · exact List.suffix_rfl

lemma run_concat (base greatest : Duration) (moves : List (QueueMove κ)) (m : QueueMove κ) :
    run base greatest (moves ++ [m]) = (run base greatest moves).move m := by
  rw [run, run, List.foldl_append, List.foldl_cons, List.foldl_nil]

/-- How often a key has been handed out. -/
def handOuts (l : Ledger κ) (k : κ) : Nat := l.record.count (.took k)

lemma handOuts_le_move (l : Ledger κ) (m : QueueMove κ) (k : κ) :
    l.handOuts k ≤ (l.move m).handOuts k :=
  (record_suffix l m).sublist.count_le _

lemma handOuts_le_run (base greatest : Duration) (moves more : List (QueueMove κ)) (k : κ) :
    (run base greatest moves).handOuts k ≤ (run base greatest (moves ++ more)).handOuts k := by
  induction more using List.reverseRecOn with
  | nil => rw [List.append_nil]
  | append_singleton more m ih =>
    rw [← List.append_assoc, run_concat]
    exact ih.trans (handOuts_le_move _ m k)

/-- A key that was to be handed out at some time of a run still is, or has been handed out since. -/
lemma run_awaits (base greatest : Duration) {moves more : List (QueueMove κ)}
    (h : .shutDown ∉ moves ++ more) (hk : (run base greatest moves).Awaits k)
    (hsince : (run base greatest (moves ++ more)).handOuts k = (run base greatest moves).handOuts k) :
    (run base greatest (moves ++ more)).Awaits k := by
  induction more using List.reverseRecOn with
  | nil => rwa [List.append_nil]
  | append_singleton more m ih =>
    rw [← List.append_assoc] at h hsince ⊢
    rw [List.mem_append, not_or, List.mem_singleton] at h
    rw [run_concat] at hsince ⊢
    -- The key has not been handed out before the last move either, nor by it.
    have hfirst := handOuts_le_run base greatest moves more k
    have hlast := handOuts_le_move (run base greatest (moves ++ more)) m k
    have hserves := (run_upheld base greatest h.1).serves
    rcases (move_changes hserves (Ne.symm h.2)).awaits hserves (ih h.1 (by omega)) with
      hawaits | ⟨htook, -⟩
    · exact hawaits
    · rw [handOuts, htook, List.count_cons_self, ← handOuts] at hsince
      omega

/-- In every run without a shutdown, a key that is tried again is in line, is marked, or comes back,
from then on until it is handed out; and at every time a key that has failures is in line, in work, or
comes back. To come back is to wait for a delay to pass, or to be in a call that tries the key again and
is not over; so if there is no such call, it is to wait for a delay. -/
theorem retried_key_comes_back (base greatest : Duration) (moves : List (QueueMove κ))
    (h : .shutDown ∉ moves) :
    let l := run base greatest moves
    (∀ before k delay after, moves = before ++ .requeue k delay :: after →
      l.handOuts k = (run base greatest (before ++ [.requeue k delay])).handOuts k →
      k ∈ l.queue.queued ∨ k ∈ l.queue.dirty ∨ l.ComesBack k) ∧
    (∀ k, l.queue.requeues k ≠ 0 →
      k ∈ l.queue.queued ∨ k ∈ l.queue.processing ∨ l.ComesBack k) ∧
    (l.returning = [] → ∀ k, l.ComesBack k → ∃ d ∈ l.queue.delayed, d.key = k) := by
  intro l
  have hl : l.Upheld := run_upheld base greatest h
  refine ⟨?_, ?_, ?_⟩
  · intro before k delay after hmoves hsince
    have hsplit : moves = (before ++ [.requeue k delay]) ++ after := by simp [hmoves]
    have hbefore : .shutDown ∉ before := fun hmem => h (hmoves ▸ List.mem_append_left _ hmem)
    have hstart : (run base greatest (before ++ [.requeue k delay])).Awaits k := by
      rw [run_concat]
      exact awaits_requeue (run_upheld base greatest hbefore).serves k delay
    have hawaits : l.Awaits k := by
      simp only [l, hsplit] at h hsince ⊢
      exact run_awaits base greatest h hstart hsince
    exact or_assoc.mp hawaits
  · intro k hk
    rcases hl.failing k hk with (hpending | hback) | hprocessing
    · rcases hpending with hqueued | hdirty
      · exact .inl hqueued
      · exact .inr (.inl (hl.serves.consistent.dirty_processing k hdirty))
    · exact .inr (.inr hback)
    · exact .inr (.inl hprocessing)
  · rintro hnone k (hputOff | ⟨d, hd⟩)
    · exact hputOff
    · simp [hnone] at hd

/-- Two keys fail. The first one is added while it is in work, and later put off; the second one is put
off, comes back, and fails again. -/
def failingTwice : List (QueueMove Nat) :=
  [.add 1, .get 0, .add 2, .add 1, .requeue 1 none, .get 0, .requeue 2 none, .comeBack 2 1,
    .setTimer 0, .get 0, .fire 0, .requeue 1 none, .comeBack 1 2, .get 0, .requeue 2 none]

/-- At the end the first key waits for its delay, and the second one is in the call that tries it
again. -/
theorem retried_key_comes_back_failingTwice :
    let l := run 1 4 failingTwice
    .shutDown ∉ failingTwice ∧ l.queue.delayed.map (·.key) = [1] ∧ l.returning = [(2, 2)] ∧
      (1 ∈ l.queue.queued ∨ 1 ∈ l.queue.dirty ∨ l.ComesBack 1) ∧
      l.queue.requeues 2 = 2 ∧ (2 ∈ l.queue.queued ∨ 2 ∈ l.queue.processing ∨ l.ComesBack 2) := by
  intro l
  obtain ⟨hsince, hfailing, -⟩ := retried_key_comes_back 1 4 failingTwice (by decide)
  have hcount : l.queue.requeues 2 = 2 := by decide
  exact ⟨by decide, by decide, by decide,
    hsince (failingTwice.take 11) 1 none (failingTwice.drop 12) (by decide) (by decide), hcount,
    hfailing 2 (by rw [hcount]; decide)⟩

end Ledger

end ControlLoop
