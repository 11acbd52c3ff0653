import ControlLoop.Informer.Feed
import ControlLoop.Proofs.ReplayedChanges
import ControlLoop.Proofs.WatchStream

/-!
# The copy of an informer

The copy of an informer is what the collection was at the version that the informer has seen last:
each of its steps keeps that true, and so does whatever comes to the store in between. What is in hand
and what the open watch has still to tell are then the events after that version, unless the watch has
lost some of them.
-/
namespace ControlLoop

open WatchEvent (applyAll)

/-- The version that an informer goes on from. -/
def Informer.Phase.version? : Informer.Phase → Option String
  | .opening version => some version
  | .watching version => some version
  | .resting resume => resume
  | .listing => none
  | .stopped => none

namespace Informer

variable {α : Type} [Resource α]

/-- Every event is applied to the copy. -/
lemma received_cache (i : Informer α) (version : String) (e : WatchEvent α) :
    (i.received version (.event e)).1.cache = e.apply i.cache := by
  cases e with
  | added | modified | deleted | bookmark => rfl
  | error code text =>
    simp only [received]
    split <;> rfl

/-- The version of an event about an object is the last one seen. -/
lemma received_object (i : Informer α) (version : String) {e : WatchEvent α} {a : α}
    (he : e.object? = some a) (hv : Resource.versionText a ≠ "") :
    (i.received version (.event e)).1 =
      { i with cache := e.apply i.cache, phase := .watching (Resource.versionText a) } := by
  cases e with
  | bookmark | error => simp [WatchEvent.object?] at he
  | added | modified | deleted =>
    obtain rfl := Option.some.inj he
    simp [received, upsert, advance, WatchEvent.apply, hv]

/-- An event about an object is passed on as a change of that object. -/
lemma received_key (i : Informer α) (version : String) {e : WatchEvent α} {a : α}
    (he : e.object? = some a) :
    ∃ c ∈ (i.received version (.event e)).2, c.key = Resource.key a := by
  cases e with
  | bookmark | error => simp [WatchEvent.object?] at he
  | added | modified =>
    obtain rfl := Option.some.inj he
    simp only [received, upsert]
    split
    · exact ⟨_, List.mem_singleton_self _, rfl⟩
    · exact ⟨_, List.mem_singleton_self _, rfl⟩
  | deleted =>
    obtain rfl := Option.some.inj he
    exact ⟨_, List.mem_singleton_self _, rfl⟩

end Informer

namespace Feed

variable {α : Type} [Resource α] {s t : Store α} {scope : Option String} {v : Nat} {f : Feed α}

/-- What an answer in hand, or its absence, tells of the informer and its watch. -/
def Explains (s : Store α) (scope : Option String) (v : Nat) (f : Feed α) :
    Option (Answer α) → Prop
  | none => ∀ version w, f.informer.phase = .watching version → f.watch = some w →
      s.Tracks scope v [] w
  | some (.listing (.ok l)) => f.informer.phase = .listing ∧
      ∃ r ≤ s.revision, v ≤ r ∧ l.version = toString r ∧ (s.asOf scope r).Mirrors l
  | some (.listing (.error _)) => f.informer.phase = .listing
  | some (.item item) => ∃ version, f.informer.phase = .watching version ∧
      match item with
      | .ended => f.watch = none
      | .failed _ => False
      | .event (.error code _) => code = goneCode
      | .event e => ∃ w, f.watch = some w ∧ s.Tracks scope v [e] w

/-- The copy is what the store held at revision `v`, the one seen last. -/
structure Follows (s : Store α) (scope : Option String) (v : Nat) (f : Feed α) : Prop where
  faithful : s.Faithful
  seen_le : v ≤ s.revision
  cache_eq : f.informer.cache = s.asOf scope v
  version_eq : ∀ version, f.informer.phase.version? = some version → version = toString v
  answer : f.Explains s scope v f.answer

lemma initial_follows (h : s.Faithful) (scope : Option String) : ({} : Feed α).Follows s scope 0 where
  faithful := h
  seen_le := Nat.zero_le _
  cache_eq := rfl
  version_eq := by simp [Informer.Phase.version?]
  answer := by simp [Explains]

/-- What comes to the store changes neither the copy nor what it is a copy of. -/
lemma Follows.grows (h : f.Follows s scope v) (hg : s.Grows t) (ht : t.Faithful) :
    f.Follows t scope v := by
  have hlen := h.faithful.length_published
  have hseen := h.seen_le
  have hmono : s.revision ≤ t.revision := by
    obtain ⟨events, _, he, -, -⟩ := hg
    rw [← hlen, ← ht.length_published, he, List.length_append]
    omega
  refine ⟨ht, by omega, ?_, h.version_eq, ?_⟩
  · rw [h.cache_eq, hg.asOf_eq (by omega)]
  · have hanswer := h.answer
    rcases ha : f.answer with _ | (_ | l) | (e | _ | _) <;> rw [ha] at hanswer
    · exact fun version w hp hw => hg.tracks (by omega) (hanswer version w hp hw)
    · exact hanswer
    · obtain ⟨hp, r, hr, hvr, hversion, hl⟩ := hanswer
      refine ⟨hp, r, by omega, hvr, hversion, ?_⟩
      rw [hg.asOf_eq (by omega)]
      exact hl
    · cases e with
      | error code text => exact hanswer
      | added | modified | deleted | bookmark =>
        obtain ⟨version, hp, w, hw, htracks⟩ := hanswer
        exact ⟨version, hp, w, hw, hg.tracks (by omega) htracks⟩
    · exact hanswer
    · exact hanswer

/-! ## The steps of an informer -/

@[simp] lemma pull_informer (f : Feed α) (s : Store α) : (f.pull s).1.informer = f.informer := by
  unfold pull
  split
  · rfl
  · split <;> rfl

omit [Resource α] in
@[simp] lemma opened_synced (f : Feed α) (version : String) (answer : Except ClientError (Watch α)) :
    (f.opened version answer).informer.synced = f.informer.synced := by
  rcases answer with (_ | _ | _ | _ | _) | _ <;> rfl

omit [Resource α] in
@[simp] lemma opened_cache (f : Feed α) (version : String) (answer : Except ClientError (Watch α)) :
    (f.opened version answer).informer.cache = f.informer.cache := by
  rcases answer with (_ | _ | _ | _ | _) | _ <;> rfl

omit [Resource α] in
@[simp] lemma rested_cache (f : Feed α) (resume : Option String) :
    (f.rested resume).informer.cache = f.informer.cache := by
  cases resume <;> rfl

omit [Resource α] in
@[simp] lemma rested_synced (f : Feed α) (resume : Option String) :
    (f.rested resume).informer.synced = f.informer.synced := by
  cases resume <;> rfl

/-- A listing is answered with what is stored, or fails. -/
lemma Follows.listed (h : f.Follows s scope v) (hp : f.informer.phase = .listing)
    {answer : Except ClientError (Listing α)}
    (hanswer : answer = .ok (s.list scope) ∨ ∃ e, answer = .error e) :
    (f.listed answer).Follows s scope v := by
  refine ⟨h.faithful, h.seen_le, h.cache_eq, h.version_eq, ?_⟩
  rcases hanswer with rfl | ⟨e, rfl⟩
  · exact ⟨hp, s.revision, le_rfl, h.seen_le, rfl, h.faithful.list_mirrors scope⟩
  · exact hp

/-- A watch is opened from the version seen last, or fails. -/
lemma Follows.opened (h : f.Follows s scope v) {version : String}
    (hp : f.informer.phase = .opening version) (ha : f.answer = none)
    {answer : Except ClientError (Watch α)}
    (hanswer : answer = s.watch scope version ∨ ∃ e, answer = .error e) :
    (f.opened version answer).Follows s scope v := by
  have hv : version = toString v := h.version_eq version (by rw [hp]; rfl)
  cases answer with
  | error e =>
    cases e <;>
      refine ⟨h.faithful, h.seen_le, h.cache_eq, ?_, ?_⟩ <;>
      simp [Feed.opened, Informer.opened, Informer.Phase.version?, ha, hv, Explains]
  | ok w =>
    have hw : s.watch scope (toString v) = .ok w := by
      rcases hanswer with hw | ⟨e, he⟩
      · rw [← hv, ← hw]
      · simp at he
    refine ⟨h.faithful, h.seen_le, h.cache_eq, ?_, ?_⟩
    · simp [Feed.opened, Informer.opened, Informer.Phase.version?, hv]
    · simp only [Feed.opened, ha, Explains, Option.some.injEq]
      rintro _ _ - rfl
      exact h.faithful.watch_tracks hw

/-- The watch is asked for its next item. -/
lemma Follows.pull (h : f.Follows s scope v) {version : String}
    (hp : f.informer.phase = .watching version) (ha : f.answer = none) :
    (f.pull s).1.Follows s scope v := by
  have hanswer := h.answer
  rw [ha] at hanswer
  rcases hw : f.watch with _ | w
  · simp only [Feed.pull, hw]
    exact ⟨h.faithful, h.seen_le, h.cache_eq, h.version_eq, version, hp, rfl⟩
  · rcases (hanswer version w hp hw).next_cases with ⟨e, w', hnext, htracks⟩ |
        ⟨text, w', hnext⟩ | hnext | ⟨w', hnext, htracks, -⟩ <;>
      simp only [Feed.pull, hw, hnext] <;>
      refine ⟨h.faithful, h.seen_le, h.cache_eq, h.version_eq, ?_⟩
    · have hsince := htracks.since_eq
      obtain ⟨a, n, hobject, -⟩ := h.faithful.since_cons h.seen_le hsince
      cases e with
      | error code text => simp [WatchEvent.object?] at hobject
      | added | modified | deleted | bookmark => exact ⟨version, hp, w', rfl, htracks⟩
    · exact ⟨version, hp, rfl⟩
    · exact ⟨version, hp, rfl⟩
    · simp only [ha, Explains, Option.some.injEq]
      rintro _ _ - rfl
      exact htracks

/-- Taking an event about an object leads to the revision of that event. -/
lemma Follows.take_event (h : f.Follows s scope v) {version : String} {w : Watch α}
    {e : WatchEvent α} (hp : f.informer.phase = .watching version) (hw : f.watch = some w)
    (htracks : s.Tracks scope v [e] w) :
    ∃ n, (f.take (.item (.event e))).1.Follows s scope n ∧
      (f.take (.item (.event e))).1.informer.phase = .watching (toString n) := by
  obtain ⟨a, n, hobject, hversion, -, hn, hasOf, hsince⟩ :=
    h.faithful.since_cons h.seen_le htracks.since_eq
  have hreceived := f.informer.received_object version hobject
    (by rw [hversion]; exact Text.toString_ne_empty n)
  rw [hversion] at hreceived
  have htake : (f.take (.item (.event e))).1 =
      { f with
        informer := { f.informer with
          cache := e.apply f.informer.cache
          phase := .watching (toString n) }
        answer := none } := by
    simp only [Feed.take, hp, hreceived]
  rw [htake]
  refine ⟨n, ⟨h.faithful, hn, ?_, ?_, ?_⟩, rfl⟩
  · rw [hasOf, ← h.cache_eq]
  · simp [Informer.Phase.version?]
  · intro version' w' _ hw'
    obtain rfl : w = w' := Option.some.inj (hw.symm.trans hw')
    exact ⟨htracks.placed, htracks.scope_eq, hsince⟩

/-- Taking a listing leads to the revision of that listing. -/
lemma Follows.take_listing (h : f.Follows s scope v) {l : Listing α} {r : Nat}
    (hr : r ≤ s.revision) (hversion : l.version = toString r) (hl : (s.asOf scope r).Mirrors l) :
    (f.take (.listing (.ok l))).1.Follows s scope r := by
  refine ⟨h.faithful, hr, ?_, ?_, ?_⟩
  · exact hl.ofList_items
  · intro version' hv'
    rw [← hversion]
    exact (Option.some.inj hv').symm
  · intro version' w hp _
    simp [Feed.take, Informer.listed] at hp

/-- Taking an answer leads to another version, which the informer goes on from, or leaves it where
it was. -/
lemma Follows.take (h : f.Follows s scope v) {answer : Answer α} (ha : f.answer = some answer) :
    ∃ n, (f.take answer).1.Follows s scope n ∧
      ((f.take answer).1.informer.phase.version? = some (toString n) ∨
        n = v ∧ (f.take answer).1.informer.synced = f.informer.synced) := by
  have hanswer := h.answer
  have hv := h.version_eq
  rw [ha] at hanswer
  -- The answers that carry no object leave the copy alone and give the watch up.
  have keep {phase : Informer.Phase} {changes : List (Change α)}
      (htake : f.take answer =
        ({ f with informer := { f.informer with phase := phase }, answer := none }, changes))
      (hphase : ∀ version, phase ≠ .watching version)
      (hversion : ∀ version, phase.version? = some version → version = toString v) :
      ∃ n, (f.take answer).1.Follows s scope n ∧
        ((f.take answer).1.informer.phase.version? = some (toString n) ∨
          n = v ∧ (f.take answer).1.informer.synced = f.informer.synced) := by
    rw [htake]
    refine ⟨v, ⟨h.faithful, h.seen_le, h.cache_eq, hversion, ?_⟩, .inr ⟨rfl, rfl⟩⟩
    exact fun version w hp => absurd hp (hphase version)
  rcases answer with (e | l) | (e | e | _)
  · exact keep rfl (by simp) (by simp [Informer.Phase.version?])
  · obtain ⟨-, r, hr, -, hversion, hl⟩ := hanswer
    exact ⟨r, h.take_listing hr hversion hl, .inl (congrArg some hversion)⟩
  · obtain ⟨version, hp, hevent⟩ := hanswer
    cases e with
    | added | modified | deleted | bookmark =>
      obtain ⟨w, hw, htracks⟩ := hevent
      obtain ⟨n, hfollows, hphase⟩ := h.take_event hp hw htracks
      exact ⟨n, hfollows, .inl (by rw [hphase]; rfl)⟩
    | error code text =>
      have htake : f.take (.item (.event (.error code text))) =
          ({ f with informer := { f.informer with phase := .listing }, answer := none }, []) := by
        simp only [Feed.take, hp, Informer.received, show code = 410 from hevent, if_true]
      exact keep htake (by simp) (by simp [Informer.Phase.version?])
  · obtain ⟨_, _, hfailed⟩ := hanswer
    exact hfailed.elim
  · obtain ⟨version, hp, -⟩ := hanswer
    have htake : f.take (.item .ended) =
        ({ f with
            informer := { f.informer with phase := .resting (some version) }
            answer := none }, []) := by
      simp only [Feed.take, hp, Informer.received]
    refine keep htake (by simp) ?_
    rintro _ ⟨⟩
    exact hv version (by rw [hp]; rfl)

/-- A listing is passed on as changes of all keys under which it differs from the copy. An object of
the same version is the same object. -/
lemma get?_of_difference {old fresh : KeyMap α} {k : ObjectKey}
    (hold : ∀ a, old.get? k = some a → Resource.key a = k)
    (hfresh : ∀ a, fresh.get? k = some a → Resource.key a = k)
    (hversion : ∀ a b, old.get? k = some a → fresh.get? k = some b →
      Resource.versionText a = Resource.versionText b → a = b)
    (hk : ∀ c ∈ Informer.difference old fresh, c.key ≠ k) : fresh.get? k = old.get? k := by
  have hsame : fresh.version? k = old.version? k := by
    by_contra hother
    obtain ⟨c, hc, hkey⟩ := Informer.exists_mem_difference hold hfresh hother
    exact hk c hc hkey
  unfold KeyMap.version? at hsame
  rcases hb : fresh.get? k with _ | b <;> rcases ha : old.get? k with _ | a
  · rfl
  · simp [ha, hb] at hsame
  · simp [ha, hb] at hsame
  · rw [hversion a b ha hb (by simpa [ha, hb] using hsame.symm)]

/-- Every key under which the copy changes is the key of a change that is passed on. -/
lemma Follows.get?_of_take (h : f.Follows s scope v) {answer : Answer α}
    (ha : f.answer = some answer) {k : ObjectKey} (hk : ∀ c ∈ (f.take answer).2, c.key ≠ k) :
    (f.take answer).1.informer.cache.get? k = f.informer.cache.get? k := by
  have hanswer := h.answer
  rw [ha] at hanswer
  rcases answer with (e | l) | (e | e | _)
  · rfl
  · obtain ⟨-, r, hr, -, -, hl⟩ := hanswer
    have hcache : (f.take (.listing (.ok l))).1.informer.cache = s.asOf scope r := hl.ofList_items
    have hchanges : (f.take (.listing (.ok l))).2 =
        Informer.difference f.informer.cache (s.asOf scope r) := by
      rw [← hl.ofList_items]
      rfl
    rw [hchanges, h.cache_eq] at hk
    rw [hcache, h.cache_eq]
    exact get?_of_difference (fun a => Store.key_of_asOf) (fun a => Store.key_of_asOf)
      (fun a b ha hb hab => h.faithful.eq_of_version ha hb hab) hk
  · obtain ⟨version, hp, -⟩ := hanswer
    simp only [Feed.take, hp] at hk ⊢
    rw [Informer.received_cache]
    rcases hobject : e.object? with _ | a
    · cases e with
      | bookmark | error => rfl
      | added | modified | deleted => simp [WatchEvent.object?] at hobject
    · obtain ⟨c, hc, hkey⟩ := f.informer.received_key version hobject
      exact WatchEvent.get?_apply_ne _ hobject (hkey ▸ hk c hc)
  · obtain ⟨_, _, hfailed⟩ := hanswer
    exact hfailed.elim
  · obtain ⟨version, hp, -⟩ := hanswer
    simp only [Feed.take, hp, Informer.received]

lemma Follows.rested (h : f.Follows s scope v) {resume : Option String}
    (hp : f.informer.phase = .resting resume) (ha : f.answer = none) :
    (f.rested resume).Follows s scope v := by
  have hv := h.version_eq
  rw [hp] at hv
  cases resume <;>
    refine ⟨h.faithful, h.seen_le, h.cache_eq, ?_, ?_⟩ <;>
    simp_all [Feed.rested, Informer.rested, Informer.Phase.version?, Explains]

lemma Follows.stop (h : f.Follows s scope v) (ha : f.answer = none) :
    f.stop.Follows s scope v := by
  refine ⟨h.faithful, h.seen_le, h.cache_eq, ?_, ?_⟩ <;>
    simp [Feed.stop, Informer.stop, Informer.Phase.version?, ha, Explains]

/-! ## What is still to be told -/

/-- The event that has been told and not yet taken, if there is one. -/
def inHand (f : Feed α) : List (WatchEvent α) :=
  match f.answer with
  | some (.item (.event e)) => [e]
  | _ => []

/-- The informer listens to the watch, and has not been told that events are lost. -/
def Hears (f : Feed α) (w : Watch α) : Prop :=
  (∃ version, f.informer.phase = .watching version) ∧ f.watch = some w ∧
    ∀ code text, f.answer ≠ some (.item (.event (.error code text)))

/-- An informer that listens to a watch waits for it, or has an event in hand. -/
lemma Follows.answer_cases (h : f.Follows s scope v) {w : Watch α} (hw : f.Hears w) :
    f.answer = none ∨ ∃ e, f.answer = some (.item (.event e)) := by
  obtain ⟨⟨version, hp⟩, hwatch, -⟩ := hw
  have hanswer := h.answer
  rcases ha : f.answer with _ | (_ | l) | (e | _ | _) <;> rw [ha] at hanswer
  · exact .inl rfl
  · simp [Explains, hp] at hanswer
  · simp [Explains, hp] at hanswer
  · exact .inr ⟨e, rfl⟩
  · obtain ⟨_, _, hfailed⟩ := hanswer
    exact hfailed.elim
  · obtain ⟨_, _, hended⟩ := hanswer
    rw [hended] at hwatch
    simp at hwatch

/-- What is in hand, and then what the watch has to tell, are the events since the version seen
last. -/
lemma Follows.tracks (h : f.Follows s scope v) {w : Watch α} (hw : f.Hears w) :
    s.Tracks scope v f.inHand w := by
  obtain ⟨version, hp⟩ := hw.1
  have hanswer := h.answer
  rw [inHand]
  rcases h.answer_cases hw with ha | ⟨e, ha⟩ <;> rw [ha] at hanswer ⊢
  · exact hanswer version w hp hw.2.1
  · obtain ⟨_, _, hevent⟩ := hanswer
    cases e with
    | error code text => exact absurd ha (hw.2.2 code text)
    | added | modified | deleted | bookmark =>
      obtain ⟨w', hw', htracks⟩ := hevent
      obtain rfl : w' = w := Option.some.inj (hw'.symm.trans hw.2.1)
      exact htracks

/-- The events since the version seen last lead from the copy to what is stored. -/
lemma Follows.mirrors (h : f.Follows s scope v) {events : List (WatchEvent α)}
    (he : s.since scope v = events) :
    (applyAll f.informer.cache events).Mirrors (s.list scope) := by
  rw [h.cache_eq, ← he, s.applyAll_since, h.faithful.length_published]
  exact h.faithful.list_mirrors scope

/-- An informer that has nothing left to be told has what is stored. -/
lemma Follows.cache_of_waiting (h : f.Follows s scope v) {version : String} {w rest : Watch α}
    (hp : f.informer.phase = .watching version) (hw : f.watch = some w) (ha : f.answer = none)
    (hnext : s.next w = .waiting rest) :
    f.informer.cache = s.objects.filterKeys (·.inScope scope) := by
  have hanswer := h.answer
  rw [ha] at hanswer
  have hsince := (hanswer version w hp hw).since_of_waiting hnext
  have happly := s.applyAll_since scope v
  rw [hsince, WatchEvent.applyAll_nil] at happly
  rw [h.cache_eq, happly, h.faithful.length_published, h.faithful.asOf_now]

end Feed

end ControlLoop
