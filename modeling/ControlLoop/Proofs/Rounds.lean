import ControlLoop.Controller.Basic
import ControlLoop.Proofs.QueuePending

/-!
# Visits of keys

A worker visits a key: it looks at what the copy holds under the key and works on that. The last visit
of every key has read what the copy holds, unless another one is on its way; and if that visit did not
end well, another one is on its way too. `Rounds` is the part of a controller that this depends on,
and each lemma below is about one kind of step.
-/
namespace ControlLoop

/-- What is noted of visits. -/
inductive VisitNote (α : Type) where
  | looked (key : ObjectKey) (read : Option α)
  | ended (key : ObjectKey) (ending : Ending Outcome)
  deriving DecidableEq, Repr

/-- A visit of a key: what the copy held under it, and how the work ended if it has. -/
structure Visit (α : Type) where
  read : Option α
  ending : Option (Ending Outcome) := none
  deriving DecidableEq, Repr

section

variable {α : Type}

/-- The last visit of a key, by notes of which the latest is the first. -/
def lastVisit (k : ObjectKey) : List (VisitNote α) → Option (Visit α)
  | [] => none
  | .looked j read :: rest => if j = k then some { read := read } else lastVisit k rest
  | .ended j ending :: rest =>
    if j = k then (lastVisit k rest).map fun visit => { visit with ending := some ending }
    else lastVisit k rest

/-- What the last visit of a key has read: nothing if there was none. -/
def lastRead (k : ObjectKey) (notes : List (VisitNote α)) : Option α :=
  (lastVisit k notes).bind Visit.read

lemma lastRead_ended (j k : ObjectKey) (ending : Ending Outcome) (notes : List (VisitNote α)) :
    lastRead k (.ended j ending :: notes) = lastRead k notes := by
  simp only [lastRead, lastVisit]
  split
  · cases lastVisit k notes <;> rfl
  · rfl

end

/-! ## What a queue carries on -/

namespace WorkQueue

variable {κ : Type} {q q' : WorkQueue κ} {k : κ}

/-- The key has been put off. -/
def IsPutOff (q : WorkQueue κ) (k : κ) : Prop := ∃ d ∈ q.delayed, d.key = k

/-- The queue is open, its collections are in step, and the tickets of the keys that were put off are
distinct. -/
structure Serves (q : WorkQueue κ) : Prop where
  open_ : q.shuttingDown = false
  consistent : q.Consistent
  tickets_nodup : (q.delayed.map Delayed.ticket).Nodup
  ticket_lt : ∀ d ∈ q.delayed, d.ticket < q.tickets

/-- The queue has come to another state in which nothing that was to be done is forgotten, and the same
keys are in work. -/
structure Carries (q q' : WorkQueue κ) : Prop where
  serves : q'.Serves
  processing : q'.processing = q.processing
  pending : ∀ k, q.IsPending k → q'.IsPending k
  putOff : ∀ k, q.IsPutOff k → q'.IsPutOff k ∨ q'.IsPending k

lemma Carries.refl (h : q.Serves) : q.Carries q := ⟨h, rfl, fun _ => id, fun _ => .inl⟩

lemma new_serves (base greatest : Duration) : (new base greatest : WorkQueue κ).Serves :=
  ⟨rfl, new_consistent base greatest, List.nodup_nil, by simp [new]⟩

lemma Serves.backoff (h : q.Serves) (b : Backoff κ) : { q with backoff := b }.Serves :=
  ⟨h.open_, h.consistent.of_sameKeys ⟨rfl, rfl, rfl, rfl⟩, h.tickets_nodup, h.ticket_lt⟩

lemma Serves.signal (h : q.Serves) (s : Signal) : q.Carries { q with signal := s } where
  serves := ⟨h.open_, h.consistent.of_sameKeys (q.signal_sameKeys s), h.tickets_nodup, h.ticket_lt⟩
  processing := rfl
  pending := fun _ => id
  putOff := fun _ => .inl

lemma Serves.setTimed (h : q.Serves) (ticket : Nat) : q.Carries (q.setTimed ticket) := by
  -- The keys and the tickets stay as they are.
  have hticket : ∀ d : Delayed κ,
      (if d.ticket = ticket then { d with timed := true } else d).ticket = d.ticket := by
    intro d
    split <;> rfl
  refine ⟨⟨h.open_, h.consistent.of_sameKeys (q.setTimed_sameKeys ticket), ?_, ?_⟩, rfl,
    fun _ => id, ?_⟩
  · simp only [WorkQueue.setTimed, List.map_map, Function.comp_def, hticket]
    exact h.tickets_nodup
  · intro d hd
    obtain ⟨e, he, rfl⟩ := List.mem_map.mp hd
    rw [hticket]
    exact h.ticket_lt e he
  · rintro k ⟨d, hd, rfl⟩
    refine .inl ⟨_, List.mem_map_of_mem hd, ?_⟩
    split <;> rfl

lemma Serves.putOff (h : q.Serves) (k : κ) (d : Duration) :
    q.Carries (q.putOff k d).1 ∧ (q.putOff k d).1.IsPutOff k := by
  have hput : (q.putOff k d).1 =
      { q with
        delayed := q.delayed ++ [{ ticket := q.tickets, key := k, delay := d }]
        tickets := q.tickets + 1 } := by
    rw [WorkQueue.putOff, h.open_]
    rfl
  have hkeys := q.putOff_sameKeys k d
  rw [hput] at hkeys ⊢
  refine ⟨⟨⟨h.open_, h.consistent.of_sameKeys hkeys, ?_, ?_⟩, rfl, fun _ => id, ?_⟩, ?_⟩
  · simp only [List.map_append, List.map_cons, List.map_nil, List.nodup_append, List.mem_singleton,
      List.mem_map]
    refine ⟨h.tickets_nodup, List.nodup_singleton _, ?_⟩
    rintro _ ⟨e, he, rfl⟩ _ rfl
    exact Nat.ne_of_lt (h.ticket_lt e he)
  · intro e he
    rcases List.mem_append.mp he with he | he
    · exact Nat.lt_succ_of_lt (h.ticket_lt e he)
    · obtain rfl := List.mem_singleton.mp he
      exact Nat.lt_succ_self _
  · rintro j ⟨e, he, hj⟩
    exact .inl ⟨e, List.mem_append_left _ he, hj⟩
  · exact ⟨_, List.mem_append_right _ (List.mem_singleton_self _), rfl⟩

variable [DecidableEq κ]

/-- Nothing but the collections of keys changes. -/
lemma add_delayed (q : WorkQueue κ) (k : κ) :
    (q.add k).1.delayed = q.delayed ∧ (q.add k).1.tickets = q.tickets := by
  rcases add_cases q k with ⟨_, he⟩ | ⟨_, _, _, he⟩ | ⟨_, _, _, e⟩
  · rw [he]; exact ⟨rfl, rfl⟩
  · rw [he]; exact ⟨rfl, rfl⟩
  · exact ⟨e.delayed, e.tickets⟩

lemma finish_delayed (q : WorkQueue κ) (k : κ) :
    (q.finish k).2.1.delayed = q.delayed ∧ (q.finish k).2.1.tickets = q.tickets := by
  rcases finish_cases q k with ⟨_, _, _, e⟩ | ⟨_, _, he⟩
  · exact ⟨e.delayed, e.tickets⟩
  · rw [he]; exact ⟨rfl, rfl⟩

lemma Serves.add (h : q.Serves) (k : κ) : q.Carries (q.add k).1 ∧ (q.add k).1.IsPending k := by
  obtain ⟨hdelayed, htickets⟩ := q.add_delayed k
  refine ⟨⟨⟨?_, h.consistent.add k, ?_, ?_⟩, add_processing q k, ?_, ?_⟩, ?_⟩
  · rw [add_shuttingDown, h.open_]
  · rw [hdelayed]; exact h.tickets_nodup
  · rw [hdelayed, htickets]; exact h.ticket_lt
  · exact fun j hj => (add_isPending_iff h.open_).mpr (.inr hj)
  · rintro j ⟨d, hd, hj⟩
    exact .inl ⟨d, by rw [hdelayed]; exact hd, hj⟩
  · exact (add_isPending_iff h.open_).mpr (.inl rfl)

lemma Serves.comeBack (h : q.Serves) (k : κ) (d : Duration) :
    q.Carries (q.comeBack k d).queue ∧
      ((q.comeBack k d).queue.IsPending k ∨ (q.comeBack k d).queue.IsPutOff k) := by
  by_cases hd : d = 0
  · simp only [WorkQueue.comeBack, if_pos hd]
    exact (h.add k).imp_right .inl
  · simp only [WorkQueue.comeBack, if_neg hd]
    exact (h.putOff k d).imp_right .inr

/-- A key whose delay has passed is added. No other one has its ticket. -/
lemma Serves.readd (h : q.Serves) (ticket : Nat) : q.Carries (q.readd ticket).1 := by
  unfold WorkQueue.readd
  split
  · exact .refl h
  next d hd =>
    have hmem : d ∈ q.delayed := List.mem_of_find?_eq_some hd
    have hticket : d.ticket = ticket := by simpa using List.find?_some hd
    have hrest : { q with delayed := q.delayed.filter fun d => d.ticket ≠ ticket }.Serves :=
      ⟨h.open_, h.consistent.of_sameKeys ⟨rfl, rfl, rfl, rfl⟩,
        h.tickets_nodup.sublist (List.filter_sublist.map _),
        fun e he => h.ticket_lt e (List.mem_of_mem_filter he)⟩
    obtain ⟨hcarries, hpending⟩ := hrest.add d.key
    refine ⟨hcarries.serves, hcarries.processing, hcarries.pending, ?_⟩
    rintro k ⟨e, he, rfl⟩
    by_cases hne : e.ticket = ticket
    · -- It is the same entry.
      have hed : e = d := List.inj_on_of_nodup_map h.tickets_nodup he hmem (hne.trans hticket.symm)
      exact .inr (hed ▸ hpending)
    · exact hcarries.putOff e.key ⟨e, List.mem_filter.mpr ⟨he, by simpa using hne⟩, rfl⟩

lemma Serves.handedOut (h : q.Serves) (e : HandedOut q k q') : q'.Serves := by
  refine ⟨by rw [e.shuttingDown, h.open_], h.consistent.handedOut e, ?_, ?_⟩
  · rw [e.delayed]; exact h.tickets_nodup
  · rw [e.delayed, e.tickets]; exact h.ticket_lt

/-- The work on a key has ended, and nothing that was to be done is forgotten. -/
structure Releases (q : WorkQueue κ) (k : κ) (q' : WorkQueue κ) : Prop where
  serves : q'.Serves
  processing : q'.processing = q.processing.filter (· ≠ k)
  pending : ∀ j, q.IsPending j → q'.IsPending j
  putOff : ∀ j, q.IsPutOff j → q'.IsPutOff j

lemma Serves.finish (h : q.Serves) (k : κ) :
    q.Releases k (q.finish k).2.1 ∧ ((q.finish k).1 = true → (q.finish k).2.1.IsPending k) := by
  obtain ⟨hdelayed, htickets⟩ := q.finish_delayed k
  have hsettles := q.finish_settles k h.open_
  refine ⟨⟨⟨?_, h.consistent.finish k, ?_, ?_⟩, finish_processing q k, ?_, ?_⟩, ?_⟩
  · rw [finish_shuttingDown, h.open_]
  · rw [hdelayed]; exact h.tickets_nodup
  · rw [hdelayed, htickets]; exact h.ticket_lt
  · exact fun j hj => (hsettles.pending j).mpr hj
  · rintro j ⟨d, hd, hj⟩
    exact ⟨d, by rw [hdelayed]; exact hd, hj⟩
  · intro hagain
    rcases q.finish_cases k with ⟨_, _, _, e⟩ | ⟨_, hfalse, _⟩
    · exact e.isPending_iff.mpr (.inl rfl)
    · rw [hfalse] at hagain
      simp at hagain

lemma Serves.done (h : q.Serves) (k : κ) : q.Releases k (q.done k).1 := by
  obtain ⟨hserves, hprocessing, hpending, hputOff⟩ := ((h.backoff (q.backoff.forget k)).finish k).1
  exact ⟨hserves, hprocessing, hpending, hputOff⟩

lemma Serves.endForRetry (h : q.Serves) (k : κ) (delay : Option Duration) :
    q.Releases k (q.endForRetry k delay).2.1 ∧
      ((q.endForRetry k delay).1 = none → (q.endForRetry k delay).2.1.IsPending k) := by
  obtain ⟨b, hb⟩ := endForRetry_eq q k delay
  obtain ⟨⟨hserves, hprocessing, hpending, hputOff⟩, hagain⟩ := (h.backoff b).finish k
  rw [hb]
  refine ⟨⟨hserves, hprocessing, hpending, hputOff⟩, ?_⟩
  intro hnone
  refine hagain ?_
  by_contra hfalse
  rw [if_neg hfalse] at hnone
  simp at hnone

end WorkQueue

/-! ## Rounds -/

/-- The parts of a controller that the visits of its workers depend on, with the notes of them. -/
structure Rounds (α : Type) where
  cache : KeyMap α
  changes : List (Change α)
  queue : WorkQueue ObjectKey
  workers : List Worker
  /-- Latest first. -/
  notes : List (VisitNote α)

namespace Rounds

variable {α : Type} [Resource α] {r : Rounds α} {k : ObjectKey} {a b : List Worker}

/-- A visit of the key is on its way: a change of it is to be dispatched, it is in line or marked, or
a worker has it and has not looked at the copy yet. -/
def Awaits (r : Rounds α) (k : ObjectKey) : Prop :=
  (∃ c ∈ r.changes, c.key = k) ∨ r.queue.IsPending k ∨ .holding k ∈ r.workers

/-- The key is to be tried again. -/
def Retries (r : Rounds α) (k : ObjectKey) : Prop :=
  r.queue.IsPending k ∨ .holding k ∈ r.workers ∨ r.queue.IsPutOff k ∨
    ∃ d, .returning k d ∈ r.workers

/-- The keys that workers have. -/
def held (r : Rounds α) : List ObjectKey := r.workers.filterMap Worker.key?

/-- Every key is up to date or a visit is on its way, and every visit is under way, has ended well, or
is to be tried again. -/
structure Level (r : Rounds α) : Prop where
  serves : r.queue.Serves
  held_iff : ∀ k, k ∈ r.queue.processing ↔ k ∈ r.held
  held_nodup : r.held.Nodup
  read : ∀ k, r.Awaits k ∨ lastRead k r.notes = r.cache.get? k
  visit : ∀ k visit, lastVisit k r.notes = some visit →
    (visit.ending = none ∧ k ∈ r.queue.processing) ∨
      ∃ ending, visit.ending = some ending ∧ (ending.retry = none ∨ r.Retries k)

/-- The informer changes the copy and passes the changes on. -/
lemma Level.feed (h : r.Level) {cache : KeyMap α} {changes : List (Change α)}
    (hcache : ∀ k, (∀ c ∈ changes, c.key ≠ k) → cache.get? k = r.cache.get? k) :
    Level { r with cache := cache, changes := r.changes ++ changes } := by
  refine ⟨h.serves, h.held_iff, h.held_nodup, ?_, h.visit⟩
  intro k
  by_cases hk : ∃ c ∈ changes, c.key = k
  · obtain ⟨c, hc, hck⟩ := hk
    exact .inl (.inl ⟨c, List.mem_append_right _ hc, hck⟩)
  · push Not at hk
    rcases h.read k with (⟨c, hc, hck⟩ | hawaits) | hread
    · exact .inl (.inl ⟨c, List.mem_append_left _ hc, hck⟩)
    · exact .inl (.inr hawaits)
    · exact .inr (hread.trans (hcache k hk).symm)

/-- The queue goes on, and forgets nothing. -/
lemma Level.carry (h : r.Level) {q : WorkQueue ObjectKey} (hq : r.queue.Carries q) :
    Level { r with queue := q } := by
  refine ⟨hq.serves, ?_, h.held_nodup, ?_, ?_⟩
  · intro k
    rw [hq.processing]
    exact h.held_iff k
  · intro k
    exact (h.read k).imp_left fun hk => hk.imp_right fun hk => hk.imp_left (hq.pending k)
  · intro k visit hvisit
    rw [hq.processing]
    refine (h.visit k visit hvisit).imp_right ?_
    rintro ⟨ending, hending, hretry | hpending | hholding | hputOff | hreturning⟩
    · exact ⟨ending, hending, .inl hretry⟩
    · exact ⟨ending, hending, .inr (.inl (hq.pending k hpending))⟩
    · exact ⟨ending, hending, .inr (.inr (.inl hholding))⟩
    · refine ⟨ending, hending, .inr ?_⟩
      exact (hq.putOff k hputOff).elim (fun hk => .inr (.inr (.inl hk))) .inl
    · exact ⟨ending, hending, .inr (.inr (.inr (.inr hreturning)))⟩

/-- A change has been dispatched. -/
lemma Level.dispatch (h : r.Level) {c : Change α} {rest : List (Change α)}
    (hc : r.changes = c :: rest) (hk : r.queue.IsPending c.key) :
    Level { r with changes := rest } := by
  refine ⟨h.serves, h.held_iff, h.held_nodup, ?_, h.visit⟩
  intro k
  refine (h.read k).imp_left ?_
  rintro (⟨d, hd, rfl⟩ | hk')
  · rw [hc] at hd
    rcases List.mem_cons.mp hd with rfl | hd
    · exact .inr (.inl hk)
    · exact .inl ⟨d, hd, rfl⟩
  · exact .inr hk'

/-! ## Steps of one worker -/

/-- One worker is replaced by another. -/
lemma exists_replaced {l : List Worker} {n : Nat} {w : Worker} (h : l[n]? = some w) :
    ∃ a b, l = a ++ w :: b ∧ ∀ w', l.set n w' = a ++ w' :: b := by
  induction l generalizing n with
  | nil => simp at h
  | cons x l ih =>
    cases n with
    | zero =>
      obtain rfl : x = w := by simpa using h
      exact ⟨[], l, rfl, fun _ => rfl⟩
    | succ n =>
      obtain ⟨a, b, hl, hset⟩ := ih (by simpa using h)
      exact ⟨x :: a, b, by rw [hl]; rfl, fun w' => by rw [List.set_cons_succ, hset]; rfl⟩

omit [Resource α] in
lemma held_eq {w : Worker} (hw : r.workers = a ++ w :: b) :
    r.held = a.filterMap Worker.key? ++ (w.key?.toList ++ b.filterMap Worker.key?) := by
  rw [held, hw, List.filterMap_append, List.filterMap_cons]
  cases w.key? <;> rfl

lemma mem_replaced {w w' x : Worker} (hx : x ∈ a ++ w :: b) (hne : x ≠ w) : x ∈ a ++ w' :: b := by
  simp only [List.mem_append, List.mem_cons] at hx ⊢
  rcases hx with hx | hx | hx
  · exact .inl hx
  · exact absurd hx hne
  · exact .inr (.inr hx)

lemma Awaits.replaced {w w' : Worker} (h : r.Awaits k) (hw : r.workers = a ++ w :: b)
    (hne : w ≠ .holding k) : Awaits { r with workers := a ++ w' :: b } k := by
  refine h.imp_right fun hk => hk.imp_right fun hk => ?_
  rw [hw] at hk
  exact mem_replaced hk hne.symm

omit [Resource α] in
lemma Retries.replaced {w w' : Worker} (h : r.Retries k) (hw : r.workers = a ++ w :: b)
    (hne : w ≠ .holding k) (hne' : ∀ d, w ≠ .returning k d) :
    Retries { r with workers := a ++ w' :: b } k := by
  rcases h with hk | hk | hk | ⟨d, hk⟩
  · exact .inl hk
  · rw [hw] at hk
    exact .inr (.inl (mem_replaced hk hne.symm))
  · exact .inr (.inr (.inl hk))
  · rw [hw] at hk
    exact .inr (.inr (.inr ⟨d, mem_replaced hk (hne' d).symm⟩))

/-- A worker goes on with the key that it has. -/
lemma Level.work (h : r.Level) {w w' : Worker} (hw : r.workers = a ++ w :: b)
    (hkey : w'.key? = w.key?) (hh : ∀ k, w ≠ .holding k) (hr : ∀ k d, w ≠ .returning k d) :
    Level { r with workers := a ++ w' :: b } := by
  have hheld : held { r with workers := a ++ w' :: b } = r.held := by
    rw [held_eq hw, held_eq rfl, hkey]
  refine ⟨h.serves, ?_, ?_, ?_, ?_⟩
  · rw [hheld]; exact h.held_iff
  · rw [hheld]; exact h.held_nodup
  · exact fun k => (h.read k).imp_left fun hk => hk.replaced hw (hh k)
  · intro k visit hvisit
    refine (h.visit k visit hvisit).imp_right ?_
    rintro ⟨ending, hending, hretry⟩
    exact ⟨ending, hending, hretry.imp_right fun hk => hk.replaced hw (hh k) (hr k)⟩

/-- A key that is back in the queue leaves the worker that has brought it there. -/
lemma Level.settle (h : r.Level) {d : Duration} (hw : r.workers = a ++ .returning k d :: b)
    (hk : r.queue.IsPending k ∨ r.queue.IsPutOff k) :
    Level { r with workers := a ++ .idle :: b } := by
  have hheld : held { r with workers := a ++ .idle :: b } = r.held := by
    rw [held_eq hw, held_eq rfl]
    rfl
  refine ⟨h.serves, ?_, ?_, ?_, ?_⟩
  · rw [hheld]; exact h.held_iff
  · rw [hheld]; exact h.held_nodup
  · exact fun j => (h.read j).imp_left fun hj => hj.replaced hw (by simp)
  · intro j visit hvisit
    refine (h.visit j visit hvisit).imp_right ?_
    rintro ⟨ending, hending, hretry⟩
    refine ⟨ending, hending, hretry.imp_right fun hj => ?_⟩
    by_cases hjk : j = k
    · subst hjk
      exact hk.elim .inl fun hk => .inr (.inr (.inl hk))
    · exact hj.replaced hw (by simp) fun e he => hjk (by cases he; rfl)

/-- A worker is handed a key. -/
lemma Level.take (h : r.Level) (hw : r.workers = a ++ .idle :: b) {q : WorkQueue ObjectKey}
    (e : WorkQueue.HandedOut r.queue k q) :
    Level { r with queue := q, workers := a ++ .holding k :: b } := by
  have hheld : held { r with queue := q, workers := a ++ .holding k :: b } =
      a.filterMap Worker.key? ++ k :: b.filterMap Worker.key? :=
    held_eq (w := .holding k) rfl
  have hold : r.held = a.filterMap Worker.key? ++ b.filterMap Worker.key? := held_eq hw
  obtain ⟨_, hidle, _⟩ := h.serves.consistent.idle_of_handedOut e
  have hpending : ∀ j, r.queue.IsPending j →
      q.IsPending j ∨ Worker.holding j ∈ a ++ .holding k :: b := by
    intro j hj
    by_cases hjk : j = k
    · exact .inr (by rw [hjk]; simp)
    · exact .inl ((h.serves.consistent.handedOut_isPending_iff e).mpr ⟨hjk, hj⟩)
  refine ⟨h.serves.handedOut e, ?_, ?_, ?_, ?_⟩
  · intro j
    rw [hheld, e.processing, List.mem_insert_iff, h.held_iff, hold]
    simp only [List.mem_append, List.mem_cons]
    tauto
  · rw [hheld, List.nodup_middle, List.nodup_cons, ← hold]
    exact ⟨fun hk => hidle ((h.held_iff k).mpr hk), h.held_nodup⟩
  · intro j
    refine (h.read j).imp_left ?_
    rintro (hj | hj | hj)
    · exact .inl hj
    · exact .inr (hpending j hj)
    · rw [hw] at hj
      exact .inr (.inr (mem_replaced hj (by simp)))
  · intro j visit hvisit
    rw [e.processing, List.mem_insert_iff]
    rcases h.visit j visit hvisit with ⟨hnone, hj⟩ | ⟨ending, hending, hretry⟩
    · exact .inl ⟨hnone, .inr hj⟩
    · refine .inr ⟨ending, hending, hretry.imp_right ?_⟩
      rintro (hj | hj | ⟨d, hd, hj⟩ | ⟨d, hj⟩)
      · exact (hpending j hj).elim .inl fun hj => .inr (.inl hj)
      · rw [hw] at hj
        exact .inr (.inl (mem_replaced hj (by simp)))
      · exact .inr (.inr (.inl ⟨d, by rw [e.delayed]; exact hd, hj⟩))
      · rw [hw] at hj
        exact .inr (.inr (.inr ⟨d, mem_replaced hj (by simp)⟩))

/-- A worker looks at the copy. -/
lemma Level.look (h : r.Level) (hw : r.workers = a ++ .holding k :: b) {w : Worker}
    (hkey : w.key? = some k) :
    Level { r with
      workers := a ++ w :: b
      notes := .looked k (r.cache.get? k) :: r.notes } := by
  have hheld : held { r with workers := a ++ w :: b } = r.held := by
    rw [held_eq hw, held_eq rfl, hkey]
    rfl
  refine ⟨h.serves, ?_, ?_, ?_, ?_⟩
  · exact fun j => (h.held_iff j).trans (by rw [← hheld]; rfl)
  · exact hheld ▸ h.held_nodup
  · intro j
    simp only [lastRead, lastVisit]
    split
    next hjk => exact .inr (by rw [← hjk]; rfl)
    next hjk =>
      refine (h.read j).imp_left fun hj => ?_
      exact hj.replaced hw fun he => hjk (by cases he; rfl)
  · intro j visit hvisit
    simp only [lastVisit] at hvisit
    split at hvisit
    next hjk =>
      obtain rfl := Option.some.inj hvisit
      refine .inl ⟨rfl, ?_⟩
      rw [h.held_iff, held_eq hw, ← hjk]
      simp [Worker.key?]
    next hjk =>
      refine (h.visit j visit hvisit).imp_right ?_
      rintro ⟨ending, hending, hretry⟩
      refine ⟨ending, hending, hretry.imp_right fun hj => ?_⟩
      exact hj.replaced hw (fun he => hjk (by cases he; rfl)) (by simp)

/-- A worker gives its key back. Unless the visit has ended well, the key is to be tried again. -/
lemma Level.release (h : r.Level) {ending : Ending Outcome}
    (hw : r.workers = a ++ .leaving k ending :: b) {q : WorkQueue ObjectKey}
    (hq : r.queue.Releases k q) {w : Worker} (hkey : w.key? = none)
    (hretry : ending.retry = none ∨ q.IsPending k ∨ ∃ d, w = .returning k d) :
    Level { r with
      queue := q
      workers := a ++ w :: b
      notes := .ended k ending :: r.notes } := by
  have hold : r.held = a.filterMap Worker.key? ++ k :: b.filterMap Worker.key? := held_eq hw
  have hnodup := h.held_nodup
  rw [hold, List.nodup_middle, List.nodup_cons] at hnodup
  have hheld : held { r with queue := q, workers := a ++ w :: b, notes := .ended k ending :: r.notes } =
      a.filterMap Worker.key? ++ b.filterMap Worker.key? := by
    rw [held_eq (w := w) rfl, hkey]
    rfl
  refine ⟨hq.serves, ?_, ?_, ?_, ?_⟩
  · intro j
    have hj := h.held_iff j
    rw [hold] at hj
    rw [hheld, hq.processing, List.mem_filter, hj, decide_eq_true_eq]
    constructor
    · rintro ⟨hmem, hjk⟩
      simpa [hjk] using hmem
    · intro hmem
      refine ⟨?_, fun hjk => hnodup.1 (hjk ▸ hmem)⟩
      simp only [List.mem_append, List.mem_cons] at hmem ⊢
      tauto
  · rw [hheld]
    exact hnodup.2
  · intro j
    rw [lastRead_ended]
    refine (h.read j).imp_left fun hj => ?_
    exact (hj.replaced hw (by simp)).imp_right fun hj => hj.imp_left (hq.pending j)
  · intro j visit hvisit
    simp only [lastVisit] at hvisit
    split at hvisit
    next hjk =>
      subst hjk
      obtain ⟨visit, -, rfl⟩ := Option.map_eq_some_iff.mp hvisit
      refine .inr ⟨ending, rfl, hretry.imp_right ?_⟩
      rintro (hk | ⟨d, rfl⟩)
      · exact .inl hk
      · exact .inr (.inr (.inr ⟨d, by simp⟩))
    next hjk =>
      rcases h.visit j visit hvisit with ⟨hnone, hj⟩ | ⟨e, he, hretry'⟩
      · refine .inl ⟨hnone, ?_⟩
        rw [hq.processing, List.mem_filter]
        exact ⟨hj, by simpa using fun he => hjk he.symm⟩
      · refine .inr ⟨e, he, hretry'.imp_right fun hj => ?_⟩
        have hreplaced : Retries { r with workers := a ++ w :: b } j :=
          hj.replaced hw (by simp) (by simp)
        rcases hreplaced with hj | hj | hj | hj
        · exact .inl (hq.pending j hj)
        · exact .inr (.inl hj)
        · exact .inr (.inr (.inl (hq.putOff j hj)))
        · exact .inr (.inr (.inr hj))

end Rounds

end ControlLoop
