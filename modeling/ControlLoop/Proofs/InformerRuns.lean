import ControlLoop.Proofs.InformerCopy

/-!
# An informer and its store

Whatever the store and its surroundings do between the steps of an informer, what the informer has
still to be told leads from its copy to what is stored. Where the watch has lost some of that, or
cannot be opened any more, the informer lists again.
-/
namespace ControlLoop

open WatchEvent (applyAll)

/-- A store and an informer that follows it, with the version that the informer has seen last. -/
structure Following (α : Type) where
  store : Store α
  feed : Feed α := {}
  seen : Option String := none

namespace Following

/-- What can happen to a store and an informer that follows it. -/
inductive Move (α : Type) where
  /-- Clients or the surroundings act on the store. -/
  | act (action : Store.Action α)
  /-- The informer takes its next step. A request that it makes may fail. -/
  | turn (failure : Option ClientError)
  /-- The informer is told to end. -/
  | stop

variable {α : Type} [Resource α] {scope : Option String} {x : Following α} {v : Nat}

/-- The informer goes on to another state. -/
def goOn (x : Following α) (f : Feed α) : Following α :=
  { x with feed := f, seen := f.informer.phase.version?.or x.seen }

/-- The answer to a request that may fail. -/
def answered {β : Type} (failure : Option ClientError) (answer : Except ClientError β) :
    Except ClientError β :=
  match failure with
  | some e => .error e
  | none => answer

/-- The informer takes the answer in hand, or else makes the request that its phase asks for. -/
def turn (scope : Option String) (failure : Option ClientError) (x : Following α) : Following α :=
  match x.feed.answer with
  | some answer => x.goOn (x.feed.take answer).1
  | none =>
    match x.feed.informer.phase with
    | .stopped => x
    | .listing => x.goOn (x.feed.listed (answered failure (.ok (x.store.list scope))))
    | .opening version =>
      x.goOn (x.feed.opened version (answered failure (x.store.watch scope version)))
    | .watching _ => x.goOn (x.feed.pull x.store).1
    | .resting resume => x.goOn (x.feed.rested resume)

def move (scope : Option String) (x : Following α) : Move α → Following α
  | .act action => { x with store := x.store.act action }
  | .turn failure => x.turn scope failure
  | .stop => if x.feed.answer.isSome then x else x.goOn x.feed.stop

def after (scope : Option String) (x : Following α) (moves : List (Move α)) : Following α :=
  moves.foldl (move scope) x

/-- An informer of a scope and a store that keeps `limit` events, from the beginning. -/
def run (scope : Option String) (limit : Nat) (moves : List (Move α)) : Following α :=
  after scope { store := Store.empty limit } moves

/-- The informer follows the store, and once it has listed it has seen revision `v` last. -/
structure Sound (scope : Option String) (x : Following α) (v : Nat) : Prop where
  follows : x.feed.Follows x.store scope v
  seen_eq : x.feed.informer.synced = true → x.seen = some (toString v)

lemma answered_cases {β : Type} (failure : Option ClientError) (answer : Except ClientError β) :
    answered failure answer = answer ∨ ∃ e, answered failure answer = .error e := by
  cases failure with
  | none => exact .inl rfl
  | some e => exact .inr ⟨e, rfl⟩

/-- A step of the informer that leaves the copy alone. -/
lemma Sound.goOn (h : Sound scope x v) {f : Feed α} (hf : f.Follows x.store scope v)
    (hs : f.informer.synced = x.feed.informer.synced) : Sound scope (x.goOn f) v := by
  refine ⟨hf, fun hsynced => ?_⟩
  have hseen := h.seen_eq (hs ▸ hsynced)
  simp only [Following.goOn]
  rcases hp : f.informer.phase.version? with _ | version
  · exact hseen
  · rw [hf.version_eq version hp]
    rfl

lemma Sound.turn (h : Sound scope x v) (failure : Option ClientError) :
    ∃ n, Sound scope (x.turn scope failure) n := by
  rcases ha : x.feed.answer with _ | answer
  · refine ⟨v, ?_⟩
    rcases hp : x.feed.informer.phase with _ | version | version | resume | _ <;>
      simp only [Following.turn, ha, hp]
    · exact h.goOn (h.follows.listed hp (answered_cases failure _)) rfl
    · exact h.goOn (h.follows.opened hp ha (answered_cases failure _)) (by simp)
    · exact h.goOn (h.follows.pull hp ha) (by simp)
    · exact h.goOn (h.follows.rested hp ha) (by simp)
    · exact h
  · obtain ⟨n, hfollows, hcase⟩ := h.follows.take ha
    simp only [Following.turn, ha]
    rcases hcase with hversion | ⟨rfl, hsynced⟩
    · exact ⟨n, hfollows, fun _ => by simp [Following.goOn, hversion]⟩
    · exact ⟨n, h.goOn hfollows hsynced⟩

lemma Sound.move [LawfulResource α] (h : Sound scope x v) (m : Move α) :
    ∃ n, Sound scope (x.move scope m) n := by
  cases m with
  | act action =>
    have hfaithful := h.follows.faithful
    have hgrows := Store.act_grows hfaithful.keyed action
    exact ⟨v, h.follows.grows hgrows (hfaithful.act action), h.seen_eq⟩
  | turn failure => exact h.turn failure
  | stop =>
    simp only [Following.move]
    split
    · exact ⟨v, h⟩
    next ha =>
      have hnone : x.feed.answer = none := by simpa using ha
      exact ⟨v, h.goOn (h.follows.stop hnone) rfl⟩

lemma Sound.after [LawfulResource α] (h : Sound scope x v) (moves : List (Move α)) :
    ∃ n, Sound scope (x.after scope moves) n := by
  induction moves generalizing x v with
  | nil => exact ⟨v, h⟩
  | cons m moves ih =>
    obtain ⟨n, hn⟩ := h.move m
    exact ih hn

lemma run_sound [LawfulResource α] (scope : Option String) (limit : Nat) (moves : List (Move α)) :
    ∃ v, Sound scope (run scope limit moves) v :=
  Sound.after (v := 0) ⟨Feed.initial_follows (Store.empty_faithful limit) scope, by simp⟩ moves

/-! ## Listing again -/

@[simp] lemma turn_store (x : Following α) (failure : Option ClientError) :
    (x.turn scope failure).store = x.store := by
  unfold turn
  split
  · rfl
  · split <;> rfl

/-- Left to itself, the informer comes to ask for a listing. -/
def Relists (scope : Option String) (x : Following α) : Prop :=
  ∃ n, let y := x.after scope (List.replicate n (.turn none))
    y.store = x.store ∧ y.feed.informer.phase = .listing ∧ y.feed.answer = none

lemma Relists.of_turn (h : (x.turn scope none).Relists scope) : x.Relists scope := by
  obtain ⟨n, hstore, hphase, hanswer⟩ := h
  exact ⟨n + 1, hstore.trans (x.turn_store none), hphase, hanswer⟩

/-- An informer whose watch is refused as too old turns to a listing. -/
lemma relists_of_gone {version : String} (hp : x.feed.informer.phase = .opening version)
    (ha : x.feed.answer = none) (hw : x.store.watch scope version = .error (.gone version)) :
    x.Relists scope := by
  have hturn : (x.turn scope none).feed.informer.phase = .listing ∧
      (x.turn scope none).feed.answer = none := by
    simp only [turn, ha, hp, hw, answered]
    exact ⟨rfl, ha⟩
  exact .of_turn ⟨0, rfl, hturn⟩

/-- An informer that has been told that events are lost turns to a listing. -/
lemma relists_of_lost {version text : String} (hp : x.feed.informer.phase = .watching version)
    (ha : x.feed.answer = some (.item (.event (.error goneCode text)))) : x.Relists scope := by
  have hturn : (x.turn scope none).feed.informer.phase = .listing ∧
      (x.turn scope none).feed.answer = none := by
    simp only [turn, ha, goOn, Feed.take, hp, Informer.received, goneCode, if_true, and_self]
  exact .of_turn ⟨0, rfl, hturn⟩

lemma turn_told (scope : Option String) {version : String} {w w' : Watch α} {e : WatchEvent α}
    (hp : x.feed.informer.phase = .watching version) (ha : x.feed.answer = none)
    (hw : x.feed.watch = some w) (hnext : x.store.next w = .event e w') :
    (x.turn scope none).feed =
      { x.feed with watch := some w', answer := some (.item (.event e)) } := by
  simp only [turn, ha, hp, goOn, Feed.pull, hw, hnext]

/-- An event in hand is taken, and the informer goes on to listen. -/
lemma Sound.turn_taken (h : Sound scope x v) {w : Watch α} (hw : x.feed.Hears w)
    {e : WatchEvent α} (ha : x.feed.answer = some (.item (.event e))) :
    (x.turn scope none).feed.Hears w ∧ (x.turn scope none).feed.answer = none := by
  obtain ⟨version, hp⟩ := hw.1
  have htracks := h.follows.tracks hw
  simp only [Feed.inHand, ha] at htracks
  obtain ⟨n, -, hphase⟩ := h.follows.take_event hp hw.2.1 htracks
  simp only [Following.turn, ha]
  exact ⟨⟨⟨_, hphase⟩, hw.2.1, by simp [Following.goOn, Feed.take]⟩, rfl⟩

/-- An informer that waits for a watch that has fallen behind takes what the watch still has from the
history, is then told that events are lost, and turns to a listing. -/
lemma Sound.relists_of_waiting (h : Sound scope x v) {w : Watch α} (hw : x.feed.Hears w)
    (hl : x.store.Lags w) (ha : x.feed.answer = none) : x.Relists scope := by
  rcases w with ⟨watched, backlog, channel, position⟩
  induction backlog generalizing x v with
  | nil =>
    obtain ⟨text, w', hnext⟩ := Store.next_of_lags hl rfl
    obtain ⟨⟨version, hp⟩, hwatch, -⟩ := hw
    have hturn := turn_told scope hp ha hwatch hnext
    have hp' : (x.turn scope none).feed.informer.phase = .watching version := by rw [hturn]; exact hp
    exact .of_turn (relists_of_lost hp' (by rw [hturn]))
  | cons e rest ih =>
    obtain ⟨⟨version, hp⟩, hwatch, -⟩ := hw
    obtain ⟨n, hsound⟩ := h.turn none
    have hturn := turn_told scope hp ha hwatch rfl
    have hp' : (x.turn scope none).feed.informer.phase = .watching version := by rw [hturn]; exact hp
    have ha' : (x.turn scope none).feed.answer = some (.item (.event e)) := by rw [hturn]
    by_cases herror : ∃ code text, e = .error code text
    · obtain ⟨code, text, rfl⟩ := herror
      have hanswer := hsound.follows.answer
      rw [ha'] at hanswer
      obtain ⟨_, -, rfl⟩ := hanswer
      exact .of_turn (relists_of_lost hp' ha')
    · have hhears : (x.turn scope none).feed.Hears ⟨watched, rest, channel, position⟩ := by
        refine ⟨⟨version, hp'⟩, by rw [hturn], fun code text he => herror ⟨code, text, ?_⟩⟩
        simpa [ha'] using he
      obtain ⟨hhears', hnone⟩ := hsound.turn_taken hhears ha'
      obtain ⟨m, hsound'⟩ := hsound.turn none
      refine .of_turn (.of_turn (ih hsound' hnone hhears' ?_))
      rw [turn_store, turn_store]
      exact hl

/-- An informer whose watch has fallen behind comes to list again. -/
lemma Sound.relists_of_lags (h : Sound scope x v) {w : Watch α} (hw : x.feed.Hears w)
    (hl : x.store.Lags w) : x.Relists scope := by
  rcases h.follows.answer_cases hw with ha | ⟨e, ha⟩
  · exact h.relists_of_waiting hw hl ha
  · obtain ⟨hw', ha'⟩ := h.turn_taken hw ha
    obtain ⟨n, hsound⟩ := h.turn none
    exact .of_turn (hsound.relists_of_waiting hw' (by rw [turn_store]; exact hl) ha')

lemma feed_after_acts (scope : Option String) (x : Following α) (actions : List (Store.Action α)) :
    (x.after scope (actions.map .act)).feed = x.feed := by
  induction actions generalizing x with
  | nil => rfl
  | cons action actions ih => exact ih (x.move scope (.act action))

/-- Whatever happens at the store between a listing and the taking of its answer, the copy is then
what has been listed. -/
lemma Sound.copy_of_relist (h : Sound scope x v) (hp : x.feed.informer.phase = .listing)
    (ha : x.feed.answer = none) (actions : List (Store.Action α)) :
    let y := x.after scope (.turn none :: (actions.map .act ++ [.turn none]))
    y.feed.informer.cache.Mirrors (x.store.list scope) ∧
      y.seen = some (x.store.list scope).version := by
  have hturn : (x.turn scope none).feed = x.feed.listed (.ok (x.store.list scope)) := by
    simp only [Following.turn, ha, hp, answered, Following.goOn]
  have hafter : x.after scope (.turn none :: (actions.map .act ++ [.turn none])) =
      ((x.turn scope none).after scope (actions.map .act)).turn scope none := by
    simp only [Following.after, List.foldl_cons, List.foldl_append, List.foldl_nil, Following.move]
  have hfeed := feed_after_acts scope (x.turn scope none) actions
  rw [hturn] at hfeed
  have hlist := h.follows.faithful.list_mirrors scope
  simp only [hafter]
  rw [Following.turn, show _ = some _ from congrArg Feed.answer hfeed]
  simp only [Following.goOn, hfeed]
  refine ⟨?_, rfl⟩
  have hcache : ((x.feed.listed (.ok (x.store.list scope))).take
      (.listing (.ok (x.store.list scope)))).1.informer.cache = _ := hlist.ofList_items
  rw [hcache]
  exact hlist

/-! ## The copy and the store -/

/-- What holds between the copy of an informer that has seen revision `v` last, what it has still to
be told, and what is stored. -/
structure Correct (scope : Option String) (x : Following α) (v : Nat) : Prop where
  seen_eq : x.seen = some (toString v)
  version_eq : ∀ version, x.feed.informer.phase.version? = some version → version = toString v
  /-- While the watch is fed and has not fallen behind, what is still to be told leads from the copy
  to what is stored. -/
  of_watch : ∀ w, x.feed.Hears w → x.store.Feeds w → ¬ x.store.Lags w →
    (applyAll x.feed.informer.cache (x.feed.inHand ++ (x.store.drain w).1)).Mirrors
      (x.store.list scope)
  /-- So does the history after the version seen last, while that can be resumed. -/
  of_history : x.store.oldestResumable ≤ v →
    (applyAll x.feed.informer.cache
      ((x.store.history.filter fun e => v < e.1 && e.2.inScope scope).map (·.2))).Mirrors
      (x.store.list scope)
  /-- Where it can be resumed no more, a watch is refused and the informer lists again. -/
  of_refused : v < x.store.oldestResumable → v ≤ Text.word64Max →
    x.store.watch scope (toString v) = .error (.gone (toString v)) ∧
      (x.feed.informer.phase = .opening (toString v) → x.feed.answer = none → x.Relists scope)
  /-- A watch that has fallen behind tells so, and the informer lists again. -/
  of_lags : ∀ w, x.feed.Hears w → x.store.Lags w →
    (∃ text rest, x.store.tell (w.backlog.length + 1) w =
      (w.backlog ++ [.error goneCode text], some rest)) ∧ x.Relists scope
  /-- After a listing the copy is what has been listed, whatever has happened meanwhile. -/
  of_listing : x.feed.informer.phase = .listing → x.feed.answer = none →
    ∀ actions : List (Store.Action α),
    let y := x.after scope (.turn none :: (actions.map .act ++ [.turn none]))
    y.feed.informer.cache.Mirrors (x.store.list scope) ∧
      y.seen = some (x.store.list scope).version
  /-- An informer that has nothing left to be told has what is stored. -/
  of_waiting : ∀ w rest, x.feed.Hears w → x.feed.answer = none → x.store.next w = .waiting rest →
    x.feed.informer.cache.Mirrors (x.store.list scope)

/-- After the first listing the copy of an informer is correct in every state, however the requests of
clients, disconnections, compactions and failures fall between its steps. Versions are words of 64
bits. -/
theorem copy_correct_of_synced [LawfulResource α] (scope : Option String) (limit : Nat)
    (moves : List (Move α)) (hs : (run scope limit moves).feed.informer.synced = true) :
    ∃ v ≤ (run scope limit moves).store.revision, Correct scope (run scope limit moves) v := by
  obtain ⟨v, h⟩ := run_sound scope limit moves
  have hf := h.follows
  refine ⟨v, hf.seen_le, h.seen_eq hs, hf.version_eq, ?_, ?_, ?_, ?_, ?_, ?_⟩
  · intro w hw hfeeds hlags
    have htracks := hf.tracks hw
    refine hf.mirrors ?_
    rw [htracks.since_eq, htracks.placed.drain_eq hfeeds hlags]
  · intro hv
    exact hf.mirrors (hf.faithful.history_since scope hv).symm
  · intro hv hword
    have hgone := Store.watch_gone scope hv hword
    exact ⟨hgone, fun hp ha => relists_of_gone hp ha hgone⟩
  · intro w hw hlags
    exact ⟨Store.tell_of_lags hlags, h.relists_of_lags hw hlags⟩
  · intro hp ha actions
    exact h.copy_of_relist hp ha actions
  · intro w rest hw ha hnext
    have htracks := hf.tracks hw
    simp only [Feed.inHand, ha] at htracks
    exact hf.mirrors (htracks.since_of_waiting hnext)

/-- A history of one event is overrun by two of other namespaces, and the watch is disconnected. -/
def overrun : List (Move Widget) :=
  let place (ns : String) : Move Widget :=
    .act (.create ⟨{ seconds := 0 }, "u"⟩ (some ns)
      { metadata := { name := some "w" }, spec := { replicas := 1 } })
  [place "a", .turn none, .turn none, .turn none, place "b", place "c", .act .disconnect,
    .turn none, .turn none, .turn none]

theorem copy_correct_of_synced_overrun :
    let x := run (some "a") 1 overrun
    x.feed.informer.synced = true ∧ x.feed.informer.phase = .opening "1" ∧
      x.store.oldestResumable = 2 ∧ ∃ v ≤ x.store.revision, Correct (some "a") x v :=
  ⟨by rfl, by rfl, by rfl, copy_correct_of_synced (some "a") 1 overrun (by rfl)⟩

end Following

end ControlLoop
