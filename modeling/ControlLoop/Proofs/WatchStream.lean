import ControlLoop.Proofs.StoreHistory

/-!
# What a watch delivers

The objects of a scope as they were at a revision are what the events up to it make from nothing; the
events after it lead from there to what is stored now. A watch holds exactly those events, some of them
from the history and the others still to come from the published ones, until it is disconnected or
falls behind.
-/
namespace ControlLoop

namespace KeyMap

variable {α : Type}

lemma lookup_eq_none_of_notMem {l : List (ObjectKey × α)} {k : ObjectKey}
    (h : ∀ e ∈ l, e.1 ≠ k) : lookup k l = none := by
  induction l with
  | nil => rfl
  | cons x l ih =>
    obtain ⟨j, b⟩ := x
    have hj : j ≠ k := h (j, b) List.mem_cons_self
    rw [lookup, if_neg hj]
    exact ih fun e he => h e (List.mem_cons_of_mem _ he)

/-- Putting the entries of a map into nothing gives the map. -/
lemma ofList_entries (m : KeyMap α) : ofList m.entries = m := by
  have hfold : ∀ (l : List (ObjectKey × α)) (n : KeyMap α) (k : ObjectKey),
      l.Pairwise (fun a b => a.1 < b.1) →
      (l.foldl (fun m e => m.insert e.1 e.2) n).get? k = (lookup k l).or (n.get? k) := by
    intro l
    induction l with
    | nil => intro n k _; rfl
    | cons x l ih =>
      obtain ⟨j, b⟩ := x
      intro n k ho
      rw [List.pairwise_cons] at ho
      rw [List.foldl_cons, ih _ k ho.2, get?_insert, lookup]
      by_cases hj : j = k
      · have hk : lookup k l = none := lookup_eq_none_of_notMem fun e he hek =>
          ObjectKey.lt_irrefl k (by simpa [hj, hek] using ho.1 e he)
        simp [hj, hk]
      · simp [hj]
  ext1 k
  rw [ofList, hfold m.entries ∅ k m.ordered, get?_empty, Option.or_none, get?]

/-- The map holds the listed objects, each under its key, and nothing else. -/
def Mirrors [Resource α] (m : KeyMap α) (l : Listing α) : Prop :=
  m.entries = l.items.map fun a => (Resource.key a, a)

lemma Mirrors.ofList_items [Resource α] {m : KeyMap α} {l : Listing α} (h : m.Mirrors l) :
    ofList (l.items.map fun a => (Resource.key a, a)) = m := by
  rw [← show m.entries = _ from h, ofList_entries]

end KeyMap

namespace Store

variable {α : Type} [Resource α] {s t : Store α} {scope : Option String} {v : Nat}

/-! ## The objects at a revision -/

/-- The objects of a scope as they were at a revision. -/
def asOf (s : Store α) (scope : Option String) (v : Nat) : KeyMap α :=
  WatchEvent.applyAll ∅ ((s.published.take v).filter (·.inScope scope))

/-- The events of a scope after a revision. -/
def since (s : Store α) (scope : Option String) (v : Nat) : List (WatchEvent α) :=
  (s.published.drop v).filter (·.inScope scope)

/-- The events after a revision lead from the objects then to the objects now. -/
lemma applyAll_since (s : Store α) (scope : Option String) (v : Nat) :
    WatchEvent.applyAll (s.asOf scope v) (s.since scope v) =
      s.asOf scope s.published.length := by
  rw [asOf, since, ← WatchEvent.applyAll_append, ← List.filter_append, List.take_append_drop,
    asOf, List.take_length]

lemma Faithful.asOf_now (h : s.Faithful) (scope : Option String) :
    s.asOf scope s.revision = s.objects.filterKeys (·.inScope scope) := by
  have hall : ∀ e ∈ s.published, ∃ a, e.object? = some a := by
    intro e he
    obtain ⟨i, hi⟩ := List.getElem?_of_mem he
    obtain ⟨a, ha, _⟩ := h.version_published i e hi
    exact ⟨a, ha⟩
  have hempty : (∅ : KeyMap α).filterKeys (·.inScope scope) = ∅ := rfl
  rw [asOf, ← h.length_published, List.take_length, h.objects_eq,
    ← WatchEvent.applyAll_filter scope ∅ _ hall, hempty]

/-- A listing holds the objects as they are now. -/
lemma Faithful.list_mirrors (h : s.Faithful) (scope : Option String) :
    (s.asOf scope s.revision).Mirrors (s.list scope) := by
  rw [h.asOf_now, KeyMap.Mirrors, list, KeyMap.values, List.map_map]
  refine (List.map_id _).symm.trans (List.map_congr_left ?_)
  intro e he
  have hget : (s.objects.filterKeys (·.inScope scope)).get? e.1 = some e.2 :=
    (KeyMap.lookup_eq_some_iff (KeyMap.ordered _)).mpr he
  rw [KeyMap.get?_filterKeys] at hget
  split at hget
  · simp [h.keyed e.1 e.2 hget]
  · simp at hget

lemma key_of_asOf {k : ObjectKey} {a : α} (h : (s.asOf scope v).get? k = some a) :
    Resource.key a = k :=
  (WatchEvent.object_of_applyAll _ h).1

/-- An event has told of this version of an object. -/
def HasPublished (s : Store α) (a : α) : Prop := ∃ e ∈ s.published, e.object? = some a

omit [Resource α] in
lemma HasPublished.of_isPrefix {a : α} (ha : s.HasPublished a) (h : s.published <+: t.published) :
    t.HasPublished a := by
  obtain ⟨e, he, hobject⟩ := ha
  exact ⟨e, h.subset he, hobject⟩

lemma hasPublished_of_asOf {k : ObjectKey} {a : α} (h : (s.asOf scope v).get? k = some a) :
    s.HasPublished a := by
  obtain ⟨-, e, he, hobject⟩ := WatchEvent.object_of_applyAll _ h
  exact ⟨e, List.mem_of_mem_take (List.mem_of_mem_filter he), hobject⟩

/-- The version of a published object is the place of its event. -/
lemma Faithful.version_of_published (h : s.Faithful) {a : α} (ha : s.HasPublished a) :
    ∃ i e, s.published[i]? = some e ∧ e.object? = some a ∧
      Resource.versionText a = toString (i + 1) := by
  obtain ⟨e, he, hobject⟩ := ha
  obtain ⟨i, hi⟩ := List.getElem?_of_mem he
  obtain ⟨b, hb, hversion⟩ := h.version_published i e hi
  obtain rfl : b = a := Option.some.inj (hb.symm.trans hobject)
  exact ⟨i, e, hi, hobject, hversion⟩

lemma Faithful.versionText_ne_empty (h : s.Faithful) {a : α} (ha : s.HasPublished a) :
    Resource.versionText a ≠ "" := by
  obtain ⟨i, -, -, -, hversion⟩ := h.version_of_published ha
  rw [hversion]
  exact Text.toString_ne_empty _

/-- No two objects have been published with the same version. -/
lemma Faithful.eq_of_published (h : s.Faithful) {a b : α} (ha : s.HasPublished a)
    (hb : s.HasPublished b) (hab : Resource.versionText a = Resource.versionText b) : a = b := by
  obtain ⟨i, d, hi, hobject, hversion⟩ := h.version_of_published ha
  obtain ⟨j, e, hj, hobject', hversion'⟩ := h.version_of_published hb
  have hindex : i + 1 = j + 1 := by
    rw [hversion, hversion'] at hab
    exact Text.toString_injective hab
  obtain rfl : i = j := by omega
  obtain rfl : d = e := Option.some.inj (hi.symm.trans hj)
  exact Option.some.inj (hobject.symm.trans hobject')

lemma Faithful.eq_of_version (h : s.Faithful) {r : Nat} {j k : ObjectKey} {a b : α}
    (ha : (s.asOf scope v).get? j = some a) (hb : (s.asOf scope r).get? k = some b)
    (hab : Resource.versionText a = Resource.versionText b) : a = b :=
  h.eq_of_published (hasPublished_of_asOf ha) (hasPublished_of_asOf hb) hab

/-! ## Opening a watch -/

omit [Resource α] in
lemma startRevision_toString (s : Store α) (v : Nat) :
    (v ≤ Text.word64Max ∧ s.startRevision (toString v) = .ok v) ∨
    (Text.word64Max < v ∧ ∃ text, s.startRevision (toString v) = .error (.invalid text)) := by
  rw [startRevision, if_neg (Text.toString_ne_empty v), Text.readNat_toString]
  by_cases hv : v ≤ Text.word64Max
  · exact .inl ⟨hv, by rw [if_pos hv]⟩
  · exact .inr ⟨by omega, _, by rw [if_neg hv]⟩

/-- The history holds the events since every revision that can be resumed. -/
lemma Faithful.history_since (h : s.Faithful) (scope : Option String)
    (hv : s.oldestResumable ≤ v) :
    (s.history.filter fun e => v < e.1 && e.2.inScope scope).map (·.2) = s.since scope v := by
  have hd : s.oldestResumable + (v + 1 - (s.oldestResumable + 1)) = v := by omega
  rw [h.history_eq, map_filter_numberedFrom, List.drop_drop, hd, since]

/-- A watch that opens holds the events since its version. -/
lemma Faithful.watch_ok (h : s.Faithful) {w : Watch α} (hw : s.watch scope (toString v) = .ok w) :
    s.oldestResumable ≤ v ∧
      w = ⟨scope, s.since scope v, s.disconnections.length, s.published.length⟩ := by
  simp only [watch, bind, Except.bind, pure, Except.pure] at hw
  rcases s.startRevision_toString v with ⟨_, hr⟩ | ⟨_, text, hr⟩
  · rw [hr] at hw
    simp only at hw
    split at hw
    · simp [throw, throwThe, MonadExceptOf.throw] at hw
    next hv =>
      simp only [Except.ok.injEq] at hw
      rw [← hw, h.history_since scope (by omega)]
      exact ⟨by omega, rfl⟩
  · rw [hr] at hw
    simp at hw

/-- A watch from before the oldest revision that can be resumed is refused. -/
lemma watch_gone (scope : Option String) (hv : v < s.oldestResumable) (hw : v ≤ Text.word64Max) :
    s.watch scope (toString v) = .error (.gone (toString v)) := by
  rcases s.startRevision_toString v with ⟨_, hr⟩ | ⟨hlt, _⟩
  · simp only [watch, bind, Except.bind, hr, if_pos hv]
    rfl
  · omega

/-! ## What a watch has to tell -/

/-- No disconnection has come to the watch. -/
def Feeds (s : Store α) (w : Watch α) : Prop := s.disconnections[w.channel]? = none

/-- The watch has left more published events undelivered than are kept for it. -/
def Lags (s : Store α) (w : Watch α) : Prop := w.position + Watch.capacity < (s.horizon w).1

/-- What a watch would deliver if nothing came in between. -/
def pending (s : Store α) (w : Watch α) : List (WatchEvent α) :=
  w.backlog ++ s.since w.scope w.position

/-- The watch has passed no more than it may deliver, and may deliver only what is published. -/
structure Placed (s : Store α) (w : Watch α) : Prop where
  position_le : w.position ≤ (s.horizon w).1
  horizon_le : (s.horizon w).1 ≤ s.published.length

omit [Resource α] in
lemma Feeds.horizon_eq {w : Watch α} (h : s.Feeds w) : s.horizon w = (s.published.length, false) := by
  rw [horizon, show s.disconnections[w.channel]? = none from h]

omit [Resource α] in
lemma horizon_cases (s : Store α) (w : Watch α) :
    (s.Feeds w ∧ s.horizon w = (s.published.length, false)) ∨
      (¬ s.Feeds w ∧ (s.horizon w).2 = true) := by
  rcases hd : s.disconnections[w.channel]? with _ | n
  · exact .inl ⟨hd, Feeds.horizon_eq hd⟩
  · exact .inr ⟨by simp [Feeds, hd], by simp [horizon, hd]⟩

/-- The first event of a scope is the first of those in the scope, and the others are found after it. -/
lemma firstInScope_cases (scope : Option String) (n : Nat) (events : List (WatchEvent α)) :
    (firstInScope scope n events = none ∧ events.filter (·.inScope scope) = []) ∨
    (∃ e i, i < events.length ∧ firstInScope scope n events = some (e, n + i + 1) ∧
      events.filter (·.inScope scope) =
        e :: (events.drop (i + 1)).filter (·.inScope scope)) := by
  induction events generalizing n with
  | nil => exact .inl ⟨rfl, rfl⟩
  | cons e events ih =>
    rw [firstInScope, List.filter_cons]
    by_cases he : e.inScope scope = true
    · exact .inr ⟨e, 0, by simp, by simp [he], by simp [he]⟩
    · rcases ih (n + 1) with ⟨hf, hnil⟩ | ⟨x, i, hi, hf, hx⟩
      · exact .inl ⟨by simp [he, hf], by simp [he, hnil]⟩
      · refine .inr ⟨x, i + 1, by simpa using hi, ?_, by simp [he, hx]⟩
        have hn : n + 1 + i + 1 = n + (i + 1) + 1 := by omega
        rw [if_neg he, hf, hn]

/-- A watch says its next event, or that it has fallen behind, or that it has ended, or that there is
nothing to say. -/
lemma Placed.next_cases {w : Watch α} (h : s.Placed w) :
    (∃ e w', s.next w = .event e w' ∧ s.pending w = e :: s.pending w' ∧
      w'.scope = w.scope ∧ w'.channel = w.channel ∧ w.position ≤ w'.position ∧ s.Placed w') ∨
    (w.backlog = [] ∧ s.Lags w ∧ ∃ text w', s.next w = .event (.error goneCode text) w') ∨
    (¬ s.Feeds w ∧ s.next w = .ended) ∨
    (s.Feeds w ∧ s.pending w = [] ∧
      s.next w = .waiting { w with position := s.published.length }) := by
  obtain ⟨hp, hh⟩ := h
  rcases hb : w.backlog with _ | ⟨e, rest⟩
  · by_cases hlag : w.position + Watch.capacity < (s.horizon w).1
    · exact .inr (.inl ⟨rfl, hlag, _, _, by simp only [next, hb, if_pos hlag]; rfl⟩)
    · -- What is published up to the horizon begins with what the watch finds there.
      have hsplit : ∀ n ≤ (s.horizon w).1, s.published.drop n =
          (s.published.take (s.horizon w).1).drop n ++ s.published.drop (s.horizon w).1 := by
        intro n hn
        conv_lhs => rw [← List.take_append_drop (s.horizon w).1 s.published]
        rw [List.drop_append_of_le_length (by rw [List.length_take]; omega)]
      have hpending : s.pending w = s.since w.scope w.position := by rw [pending, hb, List.nil_append]
      rcases firstInScope_cases w.scope w.position
          ((s.published.take (s.horizon w).1).drop w.position) with ⟨hf, hnil⟩ | ⟨e, i, hi, hf, hx⟩
      · rcases s.horizon_cases w with ⟨hfed, heq⟩ | ⟨hcut, heq⟩
        · refine .inr (.inr (.inr ⟨hfed, ?_, ?_⟩))
          · rw [hpending, since, hsplit _ hp, List.filter_append, hnil, heq, List.drop_length]
            rfl
          · simp only [next, hb, if_neg hlag, hf]
            simp [heq]
        · refine .inr (.inr (.inl ⟨hcut, ?_⟩))
          simp only [next, hb, if_neg hlag, hf]
          simp [heq]
      · rw [List.length_drop, List.length_take] at hi
        refine .inl ⟨e, { w with position := w.position + i + 1 }, ?_, ?_, rfl, rfl, by simp; omega,
          ⟨?_, hh⟩⟩
        · simp only [next, hb, if_neg hlag, hf]
        · rw [hpending, since, hsplit _ hp, List.filter_append, hx, pending, hb, since,
            hsplit (w.position + i + 1) (by omega), List.filter_append, List.drop_drop]
          rfl
        · show w.position + i + 1 ≤ (s.horizon w).1
          omega
  · refine .inl ⟨e, { w with backlog := rest }, by simp only [next, hb], ?_, rfl, rfl, le_rfl,
      ⟨hp, hh⟩⟩
    rw [pending, hb]
    rfl

/-- A watch that is fed and has not fallen behind tells all that it has to tell, and nothing else. -/
lemma Placed.tell_eq {w : Watch α} (h : s.Placed w) (hf : s.Feeds w) (hl : ¬ s.Lags w) {n : Nat}
    (hn : (s.pending w).length < n) : (s.tell n w).1 = s.pending w := by
  induction n generalizing w with
  | zero => omega
  | succ n ih =>
    rcases h.next_cases with ⟨e, w', hnext, hpending, -, hchannel, hposition, hplaced⟩ |
      ⟨-, hlag, -⟩ | ⟨hcut, -⟩ | ⟨-, hnil, hnext⟩
    · have hf' : s.Feeds w' := by rw [Feeds, hchannel]; exact hf
      have hl' : ¬ s.Lags w' := by
        simp only [Lags, hf.horizon_eq, hf'.horizon_eq] at hl ⊢
        omega
      rw [hpending, List.length_cons] at hn
      rw [tell, hnext, hpending, ← ih hplaced hf' hl' (by omega)]
    · exact absurd hlag hl
    · exact absurd hf hcut
    · rw [tell, hnext, hnil]

lemma length_pending_le (s : Store α) (w : Watch α) :
    (s.pending w).length ≤ w.backlog.length + s.published.length := by
  have hle : (s.since w.scope w.position).length ≤ (s.published.drop w.position).length :=
    List.length_filter_le _ _
  rw [List.length_drop] at hle
  rw [pending, List.length_append]
  omega

lemma Placed.drain_eq {w : Watch α} (h : s.Placed w) (hf : s.Feeds w) (hl : ¬ s.Lags w) :
    (s.drain w).1 = s.pending w := by
  have hle := s.length_pending_le w
  exact h.tell_eq hf hl (by omega)

lemma next_of_lags {w : Watch α} (hl : s.Lags w) (hb : w.backlog = []) :
    ∃ text w', s.next w = .event (.error goneCode text) w' := by
  rw [Lags] at hl
  exact ⟨_, _, by simp only [next, hb, if_pos hl]; rfl⟩

/-- A watch that has fallen behind tells what it has from the history, and then that it has to begin
anew. -/
lemma tell_of_lags {w : Watch α} (hl : s.Lags w) :
    ∃ text w', s.tell (w.backlog.length + 1) w = (w.backlog ++ [.error goneCode text], some w') := by
  rcases w with ⟨scope, backlog, channel, position⟩
  induction backlog with
  | nil =>
    obtain ⟨text, w', hnext⟩ := next_of_lags hl rfl
    exact ⟨text, w', by simp [tell, hnext]⟩
  | cons e rest ih =>
    obtain ⟨text, w', htell⟩ := ih hl
    refine ⟨text, w', ?_⟩
    rw [List.length_cons, tell, next]
    simp only [htell, List.cons_append]

/-! ## Growth -/

/-- What can come to a store: events, and disconnections when some of them have been published. -/
def Grows (s t : Store α) : Prop :=
  ∃ events cuts, t.published = s.published ++ events ∧
    t.disconnections = s.disconnections ++ cuts ∧
    ∀ n ∈ cuts, s.published.length ≤ n ∧ n ≤ t.published.length

lemma act_grows [LawfulResource α] (hs : s.Keyed) (x : Action α) : s.Grows (s.act x) := by
  rcases act_cases hs x with he | ⟨e, a, _, _, he⟩ | he | he <;> rw [he]
  · exact ⟨[], [], by simp, by simp, by simp⟩
  · exact ⟨[e], [], rfl, by simp [publish, record, nextRevision], by simp⟩
  · exact ⟨[], [s.published.length], by simp [disconnect], rfl, by simp [disconnect]⟩
  · exact ⟨[], [], by simp [compact], by simp [compact], by simp⟩

lemma Grows.asOf_eq (h : s.Grows t) (hv : v ≤ s.published.length) :
    t.asOf scope v = s.asOf scope v := by
  obtain ⟨events, cuts, he, -, -⟩ := h
  rw [asOf, asOf, he, List.take_append_of_le_length hv]

omit [Resource α] in
lemma Grows.placed (h : s.Grows t) {w : Watch α} (hw : s.Placed w) : t.Placed w := by
  obtain ⟨events, cuts, he, hc, hcut⟩ := h
  obtain ⟨hp, hh⟩ := hw
  have hlen : s.published.length ≤ t.published.length := by rw [he, List.length_append]; omega
  rcases s.horizon_cases w with ⟨hf, heq⟩ | ⟨hf, -⟩
  · rw [heq] at hp
    rcases ht : t.disconnections[w.channel]? with _ | n
    · have hht : t.horizon w = (t.published.length, false) := by rw [horizon, ht]
      exact ⟨by rw [hht]; exact hp.trans hlen, by rw [hht]⟩
    · have hht : t.horizon w = (n, true) := by rw [horizon, ht]
      have hmem : n ∈ cuts := by
        rw [Feeds, List.getElem?_eq_none_iff] at hf
        rw [hc, List.getElem?_append_right hf] at ht
        exact List.mem_of_getElem? ht
      have hn := hcut n hmem
      exact ⟨by rw [hht]; exact hp.trans hn.1, by rw [hht]; exact hn.2⟩
  · obtain ⟨n, hn⟩ := Option.ne_none_iff_exists'.mp hf
    have ht : t.horizon w = s.horizon w := by
      have hlt := (List.getElem?_eq_some_iff.mp hn).1
      rw [horizon, horizon, hc, List.getElem?_append_left hlt, hn]
    exact ⟨by rw [ht]; exact hp, by rw [ht]; exact hh.trans hlen⟩

/-! ## Keeping track of a revision -/

/-- The next event of a scope leads from the objects at one revision to those at its own. -/
lemma Faithful.since_cons (h : s.Faithful) (hv : v ≤ s.revision) {e : WatchEvent α}
    {rest : List (WatchEvent α)} (he : s.since scope v = e :: rest) :
    ∃ a n, e.object? = some a ∧ Resource.versionText a = toString n ∧ v < n ∧ n ≤ s.revision ∧
      s.asOf scope n = e.apply (s.asOf scope v) ∧ s.since scope n = rest := by
  obtain ⟨out, after, hsplit, hout, hin, hrest⟩ := List.filter_eq_cons_iff.mp he
  have hlen := h.length_published
  have hpublished : s.published = (s.published.take v ++ out ++ [e]) ++ after := by
    rw [List.append_assoc, List.append_assoc, List.singleton_append, ← hsplit,
      List.take_append_drop]
  have hn : (s.published.take v ++ out ++ [e]).length = v + out.length + 1 := by
    simp only [List.length_append, List.length_take, List.length_singleton]
    omega
  have hget : s.published[v + out.length]? = some e := by
    rw [hpublished, List.getElem?_append_left (by omega),
      List.getElem?_append_right (by rw [List.length_append, List.length_take]; omega)]
    have hi : v + out.length - (s.published.take v ++ out).length = 0 := by
      rw [List.length_append, List.length_take]
      omega
    rw [hi]
    rfl
  obtain ⟨a, ha, hversion⟩ := h.version_published _ e hget
  have hbound := (List.getElem?_eq_some_iff.mp hget).1
  refine ⟨a, v + out.length + 1, ha, hversion, by omega, by omega, ?_, ?_⟩
  · have houtnil : out.filter (·.inScope scope) = [] := List.filter_eq_nil_iff.mpr hout
    have htake : s.published.take (v + out.length + 1) = s.published.take v ++ out ++ [e] := by
      conv_lhs => rw [hpublished, List.take_append_of_le_length (by omega), ← hn, List.take_length]
    rw [asOf, htake, List.filter_append, List.filter_append, houtnil, List.append_nil,
      WatchEvent.applyAll_append, List.filter_singleton, hin]
    rfl
  · have hdrop : s.published.drop (v + out.length + 1) = after := by
      conv_lhs => rw [hpublished, ← hn, List.drop_left]
    rw [since, hdrop, hrest]

/-- The watch has all events of the scope after a revision still to tell, but for those told ahead. -/
structure Tracks (s : Store α) (scope : Option String) (v : Nat) (ahead : List (WatchEvent α))
    (w : Watch α) : Prop where
  placed : s.Placed w
  scope_eq : w.scope = scope
  since_eq : s.since scope v = ahead ++ s.pending w

lemma Grows.tracks (h : s.Grows t) (hv : v ≤ s.published.length) {ahead : List (WatchEvent α)}
    {w : Watch α} (hw : s.Tracks scope v ahead w) : t.Tracks scope v ahead w := by
  refine ⟨h.placed hw.placed, hw.scope_eq, ?_⟩
  obtain ⟨events, cuts, he, -, -⟩ := h
  have hmore : ∀ n ≤ s.published.length,
      t.since scope n = s.since scope n ++ events.filter (·.inScope scope) := by
    intro n hn
    rw [since, since, he, List.drop_append_of_le_length hn, List.filter_append]
  have hp : w.position ≤ s.published.length := hw.placed.position_le.trans hw.placed.horizon_le
  rw [hmore v hv, hw.since_eq, pending, pending, hw.scope_eq, hmore _ hp, List.append_assoc,
    List.append_assoc]

/-- A watch opened from a revision keeps track of it. -/
lemma Faithful.watch_tracks (h : s.Faithful) {w : Watch α}
    (hw : s.watch scope (toString v) = .ok w) : s.Tracks scope v [] w := by
  obtain ⟨-, rfl⟩ := h.watch_ok hw
  have hf : s.Feeds ⟨scope, s.since scope v, s.disconnections.length, s.published.length⟩ :=
    List.getElem?_eq_none le_rfl
  refine ⟨⟨?_, ?_⟩, rfl, ?_⟩
  · rw [hf.horizon_eq]
  · rw [hf.horizon_eq]
  · have hnil : s.since scope s.published.length = [] := by rw [since, List.drop_length]; rfl
    rw [pending, hnil, List.append_nil, List.nil_append]

/-- What a watch that keeps track tells next. -/
lemma Tracks.next_cases {w : Watch α} (h : s.Tracks scope v [] w) :
    (∃ e w', s.next w = .event e w' ∧ s.Tracks scope v [e] w') ∨
    (∃ text w', s.next w = .event (.error goneCode text) w') ∨
    (s.next w = .ended) ∨
    (∃ w', s.next w = .waiting w' ∧ s.Tracks scope v [] w' ∧ s.since scope v = []) := by
  have hsince := h.since_eq
  rw [List.nil_append] at hsince
  rcases h.placed.next_cases with ⟨e, w', hnext, hpending, hscope, -, -, hplaced⟩ |
      ⟨-, -, text, w', hnext⟩ | ⟨-, hnext⟩ | ⟨hf, hnil, hnext⟩
  · exact .inl ⟨e, w', hnext, hplaced, hscope.trans h.scope_eq, by rw [hsince, hpending]; rfl⟩
  · exact .inr (.inl ⟨text, w', hnext⟩)
  · exact .inr (.inr (.inl hnext))
  · have hf' : s.Feeds { w with position := s.published.length } := hf
    refine .inr (.inr (.inr ⟨_, hnext, ⟨⟨?_, ?_⟩, h.scope_eq, ?_⟩, by rw [hsince, hnil]⟩))
    · rw [hf'.horizon_eq]
    · rw [hf'.horizon_eq]
    · rw [hsince, hnil, pending, since, List.drop_length]
      rw [pending, List.append_eq_nil_iff] at hnil
      rw [hnil.1]
      rfl

/-- Nothing of the scope has come since the revision that a waiting watch keeps track of. -/
lemma Tracks.since_of_waiting {w rest : Watch α} (h : s.Tracks scope v [] w)
    (hnext : s.next w = .waiting rest) : s.since scope v = [] := by
  rcases h.next_cases with ⟨_, _, he, _⟩ | ⟨_, _, he⟩ | he | ⟨_, _, _, hsince⟩
  · rw [hnext] at he; cases he
  · rw [hnext] at he; cases he
  · rw [hnext] at he; cases he
  · exact hsince

end Store

end ControlLoop
