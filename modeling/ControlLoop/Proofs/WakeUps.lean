import ControlLoop.Proofs.QueueInvariant
import ControlLoop.Queue.Service

/-!
# No signal is lost

Several parties use a queue at once. Each call on it comes in parts: a key is put in line under the lock
and the signal for it is given afterwards; whoever wants a key lines up for a signal, looks under the
lock, and only then waits. Anything may happen between the parts. What keeps a waiter from sleeping
beside a key is a count: while somebody waits, there are no more keys in line than signals on their way
and lookers that have not looked yet.
-/
namespace ControlLoop

/-- Somebody who looks is told that the queue is shut down, finds nothing, or takes the first key. -/
lemma WorkQueue.take_cases {κ : Type} [DecidableEq κ] (q : WorkQueue κ) :
    (q.take = .shutDown ∧ q.shuttingDown = true) ∨
    (q.take = .empty ∧ q.shuttingDown = false ∧ q.fifo = []) ∨
    (∃ k q', q.take = .key k q' ∧ HandedOut q k q' ∧ q'.signal = q.signal) := by
  cases hs : q.shuttingDown with
  | true => exact .inl ⟨by simp [take, hs], rfl⟩
  | false =>
    cases hf : q.fifo with
    | nil => exact .inr (.inl ⟨by simp [take, hs, hf], rfl, rfl⟩)
    | cons k rest =>
      refine .inr (.inr ⟨k,
        { q with
          fifo := rest
          queued := q.queued.filter (· ≠ k)
          processing := q.processing.insert k }, by simp [take, hs, hf], ?_, rfl⟩)
      constructor <;> simp [hs, hf]

/-- The signal by which somebody in line was told to look again. -/
inductive Cue where
  /-- It had been kept. -/
  | kept
  /-- It was given to one. -/
  | one
  /-- It was given to all. -/
  | all
  deriving DecidableEq, Repr

/-- How far somebody who wants a key has come. -/
inductive Getter (κ : Type) where
  /-- Has not begun. -/
  | fresh
  /-- Has lined up and not looked yet; a cue has reached it or not. -/
  | lined (cue : Option Cue)
  /-- Has found nothing and waits for a cue. -/
  | waiting
  /-- Waits no more, and is to begin again. -/
  | roused (cue : Cue)
  /-- Has a key, or has been told that the queue is shut down. -/
  | ended (key : Option κ)
  /-- Has been given up. -/
  | gone
  deriving DecidableEq, Repr

namespace Getter

variable {κ : Type}

/-- A cue reaches somebody in line. -/
def receive (cue : Cue) : Getter κ → Getter κ
  | lined none => lined (some cue)
  | waiting => roused cue
  | g => g

/-- Whether somebody stands in line for a signal. -/
def inLine : Getter κ → Bool
  | lined none => true
  | waiting => true
  | _ => false

/-- How many keys somebody is to look after: it is going to look, or it has a signal for one, which it
passes on if it has no use for it. -/
def weight : Getter κ → Nat
  | lined (some .one) => 2
  | lined _ => 1
  | roused .one => 1
  | _ => 0

/-- The keys that all of them are to look after. -/
def load : List (Getter κ) → Nat
  | [] => 0
  | g :: rest => g.weight + load rest

@[simp] lemma inLine_receive (cue : Cue) (g : Getter κ) : (g.receive cue).inLine = false := by
  cases g with
  | lined cue => cases cue <;> rfl
  | _ => rfl

lemma weight_receive_one {g : Getter κ} (h : g.inLine = true) :
    (g.receive .one).weight = g.weight + 1 := by
  cases g with
  | lined cue =>
    cases cue with
    | none => rfl
    | some _ => exact absurd h (by simp [inLine])
  | waiting => rfl
  | _ => exact absurd h (by simp [inLine])

lemma load_set {getters : List (Getter κ)} {n : Nat} {g : Getter κ} (hn : getters[n]? = some g)
    (g' : Getter κ) : load (getters.set n g') + g.weight = load getters + g'.weight := by
  induction getters generalizing n with
  | nil => simp at hn
  | cons a rest ih =>
    cases n with
    | zero =>
      obtain rfl : a = g := by simpa using hn
      simp only [List.set_cons_zero, load]
      omega
    | succ n =>
      have hrest := ih (n := n) (by simpa using hn)
      simp only [List.set_cons_succ, load]
      omega

lemma load_append (l l' : List (Getter κ)) : load (l ++ l') = load l + load l' := by
  induction l with
  | nil => simp [load]
  | cons g rest ih => simp [load, ih, Nat.add_assoc]

lemma load_eq_zero {getters : List (Getter κ)} (h : ∀ g ∈ getters, g.weight = 0) :
    load getters = 0 := by
  induction getters with
  | nil => rfl
  | cons g rest ih =>
    simp [load, h g (by simp), ih fun g hg => h g (by simp [hg])]

end Getter

/-- A queue that several parties use at once. -/
structure SharedQueue (κ : Type) where
  queue : WorkQueue κ
  /-- Those who have asked for a key so far. -/
  getters : List (Getter κ) := []
  /-- How many calls have put a key in line and not given the signal for it. -/
  announcements : Nat := 0
  /-- How many calls have shut the queue down and not told those who wait. -/
  closings : Nat := 0

/-- What can happen to a queue that several parties use at once. -/
inductive SharedMove (κ : Type) where
  /-- The part under the lock of a call on the queue. -/
  | add (key : κ)
  | done (key : κ)
  | requeue (key : κ) (delay : Option Duration)
  | comeBack (key : κ) (delay : Duration)
  | setTimer (ticket : Nat)
  | fire (ticket : Nat)
  | shutDown
  /-- A call that has put a key in line gives its signal. -/
  | announce
  /-- A call that has shut the queue down tells those who wait. -/
  | tellAll
  /-- Somebody asks for a key. -/
  | get
  | lineUp (getter : Nat)
  | look (getter : Nat)
  /-- A wait is given up before it has come to its end. -/
  | abandon (getter : Nat)
  deriving DecidableEq, Repr

namespace SharedQueue

variable {κ : Type}

/-- Signals reach those in line. -/
def rouse (cue : Cue) (woken : List Nat) (getters : List (Getter κ)) : List (Getter κ) :=
  getters.mapIdx fun n g => if n ∈ woken then g.receive cue else g

/-- One in line is signalled, or the signal is kept. -/
def signalOne (x : SharedQueue κ) : SharedQueue κ :=
  { x with
    queue := { x.queue with signal := x.queue.signal.notifyOne.1 }
    getters := rouse .one x.queue.signal.notifyOne.2 x.getters }

/-- The change that a call makes under the lock. If it has put a key in line, its signal is to follow. -/
def change (x : SharedQueue κ) (after : WorkQueue κ) : SharedQueue κ :=
  { x with
    queue := { after with signal := x.queue.signal }
    announcements := x.announcements + (after.fifo.length - x.queue.fifo.length) }

/-- A call for a key is over. It leaves the line, and passes on a signal for one that it has not used. -/
def leave (x : SharedQueue κ) (n : Nat) (cue : Option Cue) (g : Getter κ) : SharedQueue κ :=
  let x := { x with getters := x.getters.set n g }
  match cue with
  | none => { x with queue := { x.queue with signal := x.queue.signal.withdraw n } }
  | some .one => x.signalOne
  | some _ => x

/-! ## The line -/

lemma getElem?_rouse (cue : Cue) (woken : List Nat) (getters : List (Getter κ)) (n : Nat) :
    (rouse cue woken getters)[n]? =
      getters[n]?.map fun g => if n ∈ woken then g.receive cue else g := by
  simp [rouse, List.getElem?_mapIdx]

lemma rouse_nil (cue : Cue) (getters : List (Getter κ)) : rouse cue [] getters = getters := by
  apply List.ext_getElem?
  intro n
  simp [getElem?_rouse]

lemma rouse_singleton (cue : Cue) {getters : List (Getter κ)} {w : Nat} {g : Getter κ}
    (hw : getters[w]? = some g) :
    rouse cue [w] getters = getters.set w (g.receive cue) := by
  have hlt : w < getters.length := (List.getElem?_eq_some_iff.mp hw).1
  apply List.ext_getElem?
  intro n
  rw [getElem?_rouse, List.getElem?_set]
  by_cases hn : w = n
  · subst hn
    rw [hw]
    simp [hlt]
  · have hn' : n ≠ w := fun h => hn h.symm
    simp [hn, hn']

lemma mem_of_mem_rouse {cue : Cue} {woken : List Nat} {getters : List (Getter κ)}
    (h : .waiting ∈ rouse cue woken getters) : .waiting ∈ getters := by
  obtain ⟨n, hn⟩ := List.mem_iff_getElem?.mp h
  rw [getElem?_rouse] at hn
  obtain ⟨g, hg, hgw⟩ := Option.map_eq_some_iff.mp hn
  split at hgw
  · have hout := g.inLine_receive cue
    rw [hgw] at hout
    exact absurd hout (by simp [Getter.inLine])
  · exact List.mem_of_getElem? (hgw ▸ hg)

/-- Those in line are the ones who wait for a signal, each once. -/
structure InStep (signal : Signal) (getters : List (Getter κ)) : Prop where
  mem_iff : ∀ n, n ∈ signal.waiting ↔ ∃ g, getters[n]? = some g ∧ g.inLine = true
  nodup : signal.waiting.Nodup

namespace InStep

variable {signal : Signal} {getters : List (Getter κ)} {n : Nat} {g g' : Getter κ}

lemma iff_of_getElem? (h : InStep signal getters) (hn : getters[n]? = some g) :
    n ∈ signal.waiting ↔ g.inLine = true := by
  simp [h.mem_iff, hn]

/-- Somebody waits, so the line is not empty. -/
lemma exists_mem (h : InStep signal getters) (hw : .waiting ∈ getters) :
    ∃ w rest, signal.waiting = w :: rest := by
  obtain ⟨n, hn⟩ := List.mem_iff_getElem?.mp hw
  exact List.exists_cons_of_ne_nil (List.ne_nil_of_mem ((h.iff_of_getElem? hn).mpr rfl))

lemma append_fresh (h : InStep signal getters) : InStep signal (getters ++ [.fresh]) := by
  refine ⟨fun m => ?_, h.nodup⟩
  rw [h.mem_iff]
  rcases lt_trichotomy m getters.length with hm | rfl | hm
  · rw [List.getElem?_append_left hm]
  · simp [Getter.inLine]
  · simp [List.getElem?_append, Nat.not_lt.mpr hm.le, Nat.sub_ne_zero_of_lt hm]

/-- Somebody goes on, and the line is what it was but for them. -/
lemma set (h : InStep signal getters) (hn : getters[n]? = some g) {signal' : Signal}
    (hothers : ∀ m, m ≠ n → (m ∈ signal'.waiting ↔ m ∈ signal.waiting))
    (hself : n ∈ signal'.waiting ↔ g'.inLine = true) (hnodup : signal'.waiting.Nodup) :
    InStep signal' (getters.set n g') := by
  have hlt : n < getters.length := (List.getElem?_eq_some_iff.mp hn).1
  refine ⟨fun m => ?_, hnodup⟩
  by_cases hm : m = n
  · subst hm
    simp [List.getElem?_set_self hlt, hself]
  · rw [List.getElem?_set_ne (Ne.symm hm), hothers m hm, h.mem_iff]

/-- Somebody goes on and stays where they are, in line or out of it. -/
lemma set_same (h : InStep signal getters) (hn : getters[n]? = some g)
    (hg : g'.inLine = g.inLine) : InStep signal (getters.set n g') :=
  h.set hn (fun _ _ => .rfl) (by rw [h.iff_of_getElem? hn, hg]) h.nodup

lemma withdraw (h : InStep signal getters) (hn : getters[n]? = some g) (hg : g'.inLine = false) :
    InStep (signal.withdraw n) (getters.set n g') := by
  refine h.set hn (fun m hm => ?_) ?_ (h.nodup.filter _)
  · simp [Signal.withdraw, hm]
  · simp [Signal.withdraw, hg]

lemma enroll (h : InStep signal getters) (hn : getters[n]? = some g) (hg : g.inLine = false) :
    InStep (signal.enroll n)
      (getters.set n (.lined (if signal.kept then some .kept else none))) := by
  have hout : n ∉ signal.waiting := by simp [h.iff_of_getElem? hn, hg]
  cases hk : signal.kept with
  | true =>
    refine h.set hn (fun m _ => ?_) ?_ ?_
    · simp [Signal.enroll, hk]
    · simpa [Signal.enroll, hk, Getter.inLine] using hout
    · simpa [Signal.enroll, hk] using h.nodup
  | false =>
    refine h.set hn (fun m hm => ?_) ?_ ?_
    · simp [Signal.enroll, hk, hm]
    · simp [Signal.enroll, hk, Getter.inLine]
    · simp only [Signal.enroll, hk, Bool.false_eq_true, if_false]
      exact List.nodup_append.mpr ⟨h.nodup, List.nodup_singleton n,
        fun m hm l hl => by rintro rfl; exact hout (List.mem_singleton.mp hl ▸ hm)⟩

lemma notifyOne (h : InStep signal getters) :
    InStep signal.notifyOne.1 (rouse .one signal.notifyOne.2 getters) := by
  cases hw : signal.waiting with
  | nil =>
    simp only [Signal.notifyOne, hw, rouse_nil]
    exact ⟨fun n => by simpa [hw] using h.mem_iff n, by simp⟩
  | cons w rest =>
    obtain ⟨g, hg, -⟩ := (h.mem_iff w).mp (by simp [hw])
    have hnodup : (w :: rest).Nodup := hw ▸ h.nodup
    simp only [Signal.notifyOne, hw, rouse_singleton .one hg]
    refine h.set hg (fun m hm => ?_) ?_ hnodup.of_cons
    · simp [hw, hm]
    · simpa using hnodup.notMem

/-- When all are told, nobody waits any more. -/
lemma notifyAll (h : InStep signal getters) :
    InStep signal.notifyAll.1 (rouse .all signal.notifyAll.2 getters) ∧
      .waiting ∉ rouse .all signal.notifyAll.2 getters := by
  have hout : ∀ (n : Nat) g, (rouse .all signal.waiting getters)[n]? = some g →
      g.inLine = false := by
    intro n g hg
    rw [getElem?_rouse] at hg
    obtain ⟨g₀, hg₀, rfl⟩ := Option.map_eq_some_iff.mp hg
    split
    · exact Getter.inLine_receive _ _
    · rename_i hn
      simpa [h.iff_of_getElem? hg₀] using hn
  refine ⟨⟨fun n => ?_, by simp [Signal.notifyAll]⟩, fun hw => ?_⟩
  · simp only [Signal.notifyAll, List.not_mem_nil, false_iff, not_exists, not_and]
    intro g hg
    simp [hout n g hg]
  · obtain ⟨n, hn⟩ := List.mem_iff_getElem?.mp hw
    exact absurd (hout n _ hn) (by simp [Getter.inLine])

end InStep

/-! ## What can happen -/

def move [DecidableEq κ] (x : SharedQueue κ) : SharedMove κ → SharedQueue κ
  | .add k => x.change (x.queue.add k).1
  | .done k => x.change (x.queue.done k).1
  | .requeue k delay => x.change (x.queue.endForRetry k delay).2.1
  | .comeBack k d => x.change (x.queue.comeBack k d).queue
  | .setTimer ticket => x.change (x.queue.setTimed ticket)
  | .fire ticket => x.change (x.queue.readd ticket).1
  | .shutDown => { x.change x.queue.shutDown.1 with closings := x.closings + 1 }
  | .announce =>
    if x.announcements = 0 then x
    else { x with announcements := x.announcements - 1 }.signalOne
  | .tellAll =>
    if x.closings = 0 then x
    else
      { x with
        queue := { x.queue with signal := x.queue.signal.notifyAll.1 }
        getters := rouse .all x.queue.signal.notifyAll.2 x.getters
        closings := x.closings - 1 }
  | .get => { x with getters := x.getters ++ [.fresh] }
  | .lineUp n =>
    match x.getters[n]? with
    | some .fresh | some (.roused _) =>
      { x with
        queue := { x.queue with signal := x.queue.signal.enroll n }
        getters := x.getters.set n (.lined (if x.queue.signal.kept then some .kept else none)) }
    | _ => x
  | .look n =>
    match x.getters[n]? with
    | some (.lined cue) =>
      match x.queue.take with
      | .shutDown => x.leave n cue (.ended none)
      | .key k queue => { x with queue := queue }.leave n cue (.ended (some k))
      | .empty => { x with getters := x.getters.set n (cue.elim .waiting .roused) }
    | _ => x
  | .abandon n =>
    match x.getters[n]? with
    | some .fresh => { x with getters := x.getters.set n .gone }
    | some .waiting => x.leave n none .gone
    | some (.roused cue) => x.leave n (some cue) .gone
    | _ => x

def after [DecidableEq κ] (x : SharedQueue κ) (moves : List (SharedMove κ)) : SharedQueue κ :=
  moves.foldl move x

/-- What has become of a new queue after a sequence of moves. -/
def run [DecidableEq κ] (base greatest : Duration) (moves : List (SharedMove κ)) :
    SharedQueue κ :=
  after { queue := .new base greatest } moves

/-- Everything that can go on has gone on: no signal is to be given, and whoever has asked for a key
waits or has come to the end. -/
structure Settled (x : SharedQueue κ) : Prop where
  announced : x.announcements = 0
  told : x.closings = 0
  rested : ∀ g ∈ x.getters, g = .waiting ∨ g = .gone ∨ ∃ key, g = .ended key

/-! ## What every move keeps -/

/-- Whoever waits stands in line; while somebody waits there are no more keys than are looked after, and
a queue that is shut down tells them. `owed` signals are in the hands of a move that is not over. -/
structure Sound (owed : Nat) (x : SharedQueue κ) : Prop where
  line : InStep x.queue.signal x.getters
  covered : x.queue.shuttingDown = false → .waiting ∈ x.getters →
    x.queue.fifo.length ≤ x.announcements + Getter.load x.getters + owed
  told : x.queue.shuttingDown = true → 0 < x.closings ∨ .waiting ∉ x.getters

namespace Sound

variable {x y : SharedQueue κ} {owed n : Nat} {g g' : Getter κ}

lemma start (base greatest : Duration) :
    Sound 0 ({ queue := .new base greatest } : SharedQueue κ) where
  line := ⟨by simp [WorkQueue.new], by simp [WorkQueue.new]⟩
  covered := by simp
  told := by simp

/-- A signal that is owed goes to one in line, who looks after one key more. -/
lemma signalOne (h : x.Sound (owed + 1)) : x.signalOne.Sound owed where
  line := h.line.notifyOne
  covered := by
    intro hopen hw
    have hbefore := mem_of_mem_rouse hw
    obtain ⟨w, rest, hline⟩ := h.line.exists_mem hbefore
    obtain ⟨g, hg, hin⟩ := (h.line.mem_iff w).mp (by simp [hline])
    have hload := Getter.load_set hg (g.receive .one)
    have hweight := Getter.weight_receive_one hin
    have hcovered := h.covered hopen hbefore
    simp only [SharedQueue.signalOne, Signal.notifyOne, hline, rouse_singleton .one hg]
    omega
  told hshut := (h.told hshut).imp_right fun hw hw' => hw (mem_of_mem_rouse hw')

/-- Somebody goes on and does not wait. What they looked after is still looked after. -/
lemma proceed (h : x.Sound 0) (hn : x.getters[n]? = some g)
    (hgetters : y.getters = x.getters.set n g') (hg' : g' ≠ .waiting)
    (hline : InStep y.queue.signal y.getters)
    (hshut : y.queue.shuttingDown = x.queue.shuttingDown)
    (hannounced : y.announcements = x.announcements) (hclosings : y.closings = x.closings)
    (hweight : x.queue.shuttingDown = false →
      y.queue.fifo.length + g.weight ≤ x.queue.fifo.length + g'.weight + owed) :
    y.Sound owed := by
  have hbefore : .waiting ∈ y.getters → .waiting ∈ x.getters := by
    rw [hgetters]
    intro hw
    exact (List.mem_or_eq_of_mem_set hw).resolve_right fun he => hg' he.symm
  refine ⟨hline, fun hopen hw => ?_, fun hs => ?_⟩
  · rw [hshut] at hopen
    have hcovered := h.covered hopen (hbefore hw)
    have hload := Getter.load_set hn g'
    have hkept := hweight hopen
    rw [hgetters, hannounced]
    omega
  · rw [hclosings]
    exact (h.told (hshut ▸ hs)).imp_right fun hw hw' => hw (hbefore hw')

/-- The signals that somebody has to pass on who leaves. -/
def owes : Option Cue → Nat
  | some .one => 1
  | _ => 0

lemma leave (h : x.Sound 0) (hn : x.getters[n]? = some g) {q : WorkQueue κ} {cue : Option Cue}
    (hsignal : q.signal = x.queue.signal) (hshut : q.shuttingDown = x.queue.shuttingDown)
    (hcue : g.inLine = cue.isNone) (hg' : g'.inLine = false)
    (hweight : x.queue.shuttingDown = false →
      q.fifo.length + g.weight ≤ x.queue.fifo.length + g'.weight + owes cue) :
    ({ x with queue := q }.leave n cue g').Sound 0 := by
  have hne : g' ≠ .waiting := by
    rintro rfl
    exact absurd hg' (by simp [Getter.inLine])
  cases cue with
  | none =>
    refine h.proceed hn rfl hne ?_ hshut rfl rfl hweight
    simp only [SharedQueue.leave, hsignal]
    exact h.line.withdraw hn hg'
  | some cue =>
    have hout : InStep q.signal (x.getters.set n g') := by
      rw [hsignal]
      exact h.line.set_same hn (by rw [hg', hcue]; rfl)
    cases cue with
    | one =>
      apply Sound.signalOne
      exact h.proceed hn rfl hne hout hshut rfl rfl hweight
    | kept => exact h.proceed hn rfl hne hout hshut rfl rfl hweight
    | all => exact h.proceed hn rfl hne hout hshut rfl rfl hweight

/-- A call that has put keys in line owes as many signals. -/
lemma change (h : x.Sound 0) {q : WorkQueue κ}
    (hshut : q.shuttingDown = x.queue.shuttingDown) : (x.change q).Sound 0 where
  line := h.line
  covered := by
    intro hopen hw
    have hcovered := h.covered (hshut ▸ hopen) hw
    simp only [SharedQueue.change]
    omega
  told hs := h.told (hshut ▸ hs)

/-- A queue that is shut down hands out nothing and is empty to nobody. -/
lemma look_shutDown (h : x.Sound 0) {cue : Option Cue} (hn : x.getters[n]? = some (.lined cue))
    (hshut : x.queue.shuttingDown = true) : (x.leave n cue (.ended none)).Sound 0 := by
  refine h.leave (q := x.queue) hn rfl rfl ?_ rfl fun hopen => absurd hopen (by simp [hshut])
  cases cue <;> rfl

/-- Whoever takes a key has looked after it, and after one more if a signal has reached them. -/
lemma look_key (h : x.Sound 0) {cue : Option Cue} (hn : x.getters[n]? = some (.lined cue))
    {k : κ} {q : WorkQueue κ} (hsignal : q.signal = x.queue.signal)
    (hshut : q.shuttingDown = x.queue.shuttingDown)
    (hfifo : x.queue.fifo.length = q.fifo.length + 1) :
    ({ x with queue := q }.leave n cue (.ended (some k))).Sound 0 := by
  have hweight : (Getter.lined cue : Getter κ).weight = 1 + owes cue := by
    cases cue with
    | none => rfl
    | some cue => cases cue <;> rfl
  refine h.leave hn hsignal hshut ?_ rfl fun _ => ?_
  · cases cue <;> rfl
  · rw [hweight, show (Getter.ended (some k)).weight = 0 from rfl]
    omega

/-- Whoever finds nothing may wait: there is no key to be looked after. -/
lemma look_empty (h : x.Sound 0) {cue : Option Cue} (hn : x.getters[n]? = some (.lined cue))
    (hopen : x.queue.shuttingDown = false) (hfifo : x.queue.fifo = []) :
    ({ x with getters := x.getters.set n (cue.elim .waiting .roused) }).Sound 0 where
  line := h.line.set_same hn (by cases cue <;> rfl)
  covered := by simp [hfifo]
  told hshut := absurd hshut (by simp [hopen])

/-- Whoever lines up is going to look. -/
lemma lineUp (h : x.Sound 0) (hn : x.getters[n]? = some g) (hg : g.inLine = false)
    (hweight : g.weight ≤ 1) :
    ({ x with
      queue := { x.queue with signal := x.queue.signal.enroll n }
      getters := x.getters.set n
        (.lined (if x.queue.signal.kept then some .kept else none)) }).Sound 0 := by
  refine h.proceed hn rfl (by simp) (h.line.enroll hn hg) rfl rfl rfl fun _ => ?_
  have hlooks : g.weight ≤
      (Getter.lined (if x.queue.signal.kept then some .kept else none) : Getter κ).weight := by
    split <;> exact hweight
  simpa using hlooks

/-- In a settled state nobody waits beside a key or a closed door. -/
lemma of_settled (h : x.Sound 0) (hs : x.Settled) (hw : .waiting ∈ x.getters) :
    x.queue.fifo = [] ∧ x.queue.shuttingDown = false := by
  have hopen : x.queue.shuttingDown = false := by
    by_contra hshut
    rcases h.told (by simpa using hshut) with hdue | hnone
    · exact absurd hs.told hdue.ne'
    · exact hnone hw
  have hload : Getter.load x.getters = 0 := by
    apply Getter.load_eq_zero
    intro g hg
    rcases hs.rested g hg with rfl | rfl | ⟨key, rfl⟩ <;> rfl
  have hcovered := h.covered hopen hw
  rw [hs.announced, hload] at hcovered
  exact ⟨List.eq_nil_of_length_eq_zero (Nat.le_zero.mp hcovered), hopen⟩

variable [DecidableEq κ]

lemma move (h : x.Sound 0) (m : SharedMove κ) : (x.move m).Sound 0 := by
  cases m with
  | add k => exact h.change (by simp)
  | done k => exact h.change (by simp)
  | requeue k delay => exact h.change (by simp)
  | comeBack k d => exact h.change (by simp)
  | setTimer ticket => exact h.change rfl
  | fire ticket => exact h.change (by simp)
  | shutDown =>
    exact ⟨h.line, fun hopen => absurd hopen (by simp [SharedQueue.move, SharedQueue.change,
      WorkQueue.shutDown]), fun _ => .inl (Nat.succ_pos _)⟩
  | announce =>
    simp only [SharedQueue.move]
    split
    · exact h
    · next hdue =>
      apply signalOne
      refine ⟨h.line, fun hopen hw => ?_, h.told⟩
      have hcovered := h.covered hopen hw
      simp only
      omega
  | tellAll =>
    simp only [SharedQueue.move]
    split
    · exact h
    · obtain ⟨hline, hnone⟩ := h.line.notifyAll
      exact ⟨hline, fun _ hw => absurd hw hnone, fun _ => .inr hnone⟩
  | get =>
    refine ⟨h.line.append_fresh, fun hopen hw => ?_, fun hshut => ?_⟩
    · have hcovered := h.covered hopen (by simpa [SharedQueue.move] using hw)
      simpa [SharedQueue.move, Getter.load_append, Getter.load, Getter.weight] using hcovered
    · simpa [SharedQueue.move] using h.told hshut
  | lineUp n =>
    simp only [SharedQueue.move]
    split
    · next hn => exact h.lineUp hn rfl (by simp [Getter.weight])
    · next cue hn =>
      refine h.lineUp hn rfl ?_
      cases cue <;> simp [Getter.weight]
    · exact h
  | look n =>
    simp only [SharedQueue.move]
    split
    · next cue hn =>
      rcases x.queue.take_cases with ⟨ht, hshut⟩ | ⟨ht, hopen, hfifo⟩ | ⟨k, q, ht, hq, hsignal⟩
      · rw [ht]
        exact h.look_shutDown hn hshut
      · rw [ht]
        exact h.look_empty hn hopen hfifo
      · rw [ht]
        exact h.look_key hn hsignal hq.shuttingDown (by simp [hq.fifo])
    · exact h
  | abandon n =>
    simp only [SharedQueue.move]
    split
    · next hn =>
      exact h.proceed hn rfl (by simp) (h.line.set_same hn rfl) rfl rfl rfl (by simp [Getter.weight])
    · next hn => exact h.leave (q := x.queue) hn rfl rfl rfl rfl (by simp [Getter.weight])
    · next cue hn =>
      refine h.leave (q := x.queue) hn rfl rfl rfl rfl fun _ => ?_
      cases cue <;> simp [Getter.weight, owes]
    · exact h

lemma after (h : x.Sound 0) (moves : List (SharedMove κ)) : (x.after moves).Sound 0 := by
  induction moves generalizing x with
  | nil => exact h
  | cons m rest ih => exact ih (h.move m)

end Sound

end SharedQueue

end ControlLoop
