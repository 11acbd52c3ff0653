import ControlLoop.Proofs.AtomicWrites

/-!
# Listing and then watching

A client lists the objects of a scope and watches from the version of the listing, maybe much later and
more than once. The watch is refused exactly if events since that version are no longer kept. Otherwise
its backlog leads from the listing to what is stored when the watch is opened, and after the backlog it
tells of every event of the scope that is published from then on, once and in order, until it is
disconnected. Only a reader that has left too many events unread is told that it has to begin anew.
-/
namespace ControlLoop

/-- The listed objects, each under its key. -/
def Listing.objects {α : Type} [Resource α] (l : Listing α) : KeyMap α :=
  .ofList (l.items.map fun a => (Resource.key a, a))

namespace Store

variable {α : Type} [Resource α] {s t : Store α} {scope : Option String} {w w' : Watch α}

/-! ## What is kept -/

/-- The history holds one event for each revision after the oldest that can be resumed, in order. -/
structure Recorded (s : Store α) : Prop where
  oldest_le : s.oldestResumable ≤ s.revision
  revisions_eq : s.history.map (·.1) =
    List.range' (s.oldestResumable + 1) (s.revision - s.oldestResumable)
  length_le : s.history.length ≤ s.historyLimit
  version_eq : ∀ n e, (n, e) ∈ s.history →
    ∃ a, e.object? = some a ∧ Resource.versionText a = toString n

omit [Resource α] in
lemma mem_numberedFrom {n i : Nat} {e : WatchEvent α} {events : List (WatchEvent α)}
    (h : (i, e) ∈ numberedFrom n events) : n ≤ i ∧ events[i - n]? = some e := by
  obtain ⟨⟨e', i'⟩, hmem, hswap⟩ := List.mem_map.mp h
  obtain ⟨rfl, rfl⟩ := Prod.mk.inj hswap
  exact ⟨List.le_snd_of_mem_zipIdx hmem, List.mk_mem_zipIdx_iff_le_and_getElem?_sub.mp hmem |>.2⟩

lemma Faithful.version_of_history (h : s.Faithful) {n : Nat} {e : WatchEvent α}
    (he : (n, e) ∈ s.history) :
    ∃ a, e.object? = some a ∧ Resource.versionText a = toString n := by
  rw [h.history_eq] at he
  obtain ⟨hle, hget⟩ := mem_numberedFrom he
  rw [List.getElem?_drop] at hget
  obtain ⟨a, ha, hversion⟩ := h.version_published _ e hget
  have hplace : s.oldestResumable + (n - (s.oldestResumable + 1)) + 1 = n := by omega
  exact ⟨a, ha, by rw [hversion, hplace]⟩

lemma act_history_length [LawfulResource α] (hs : s.Keyed) (x : Action α)
    (h : s.history.length ≤ s.historyLimit) :
    (s.act x).history.length ≤ (s.act x).historyLimit := by
  rw [act_historyLimit hs]
  rcases act_cases hs x with hx | ⟨e, a, -, -, hx⟩ | hx | hx <;> rw [hx]
  · exact h
  · rw [publish_history, List.length_drop, List.length_append, List.length_singleton]
    omega
  · exact h
  · exact Nat.zero_le _

lemma run_recorded [LawfulResource α] (limit : Nat) (actions : List (Action α)) :
    (run limit actions).Recorded := by
  have hs := (run_chronicled limit actions).faithful
  refine ⟨hs.oldest_le, hs.history_revisions, ?_, fun n e => hs.version_of_history⟩
  induction actions using List.reverseRecOn with
  | nil => exact Nat.zero_le _
  | append_singleton actions x ih =>
    have hactions := (run_chronicled limit actions).faithful
    rw [run_concat]
    exact act_history_length hactions.keyed x (ih hactions)

/-! ## What is due to a watch -/

/-- What a watch can deliver of what has been published. -/
def due (s : Store α) (w : Watch α) : List (WatchEvent α) :=
  w.backlog ++ ((s.published.take (s.horizon w).1).drop w.position).filter (·.inScope w.scope)

omit [Resource α] in
lemma horizon_congr (s : Store α) (h : w'.channel = w.channel) : s.horizon w' = s.horizon w := by
  rw [horizon, horizon, h]

omit [Resource α] in
lemma drop_eq_append {n m : Nat} (l : List α) (h : n ≤ m) (hm : m ≤ l.length) :
    l.drop n = (l.take m).drop n ++ l.drop m := by
  conv_lhs => rw [← List.take_append_drop m l]
  rw [List.drop_append_of_le_length (by rw [List.length_take]; omega)]

/-- What a disconnection has cut off comes after what is due. -/
lemma Placed.pending_eq (h : s.Placed w) :
    s.pending w = s.due w ++ s.since w.scope (s.horizon w).1 := by
  rw [pending, due, since, since, drop_eq_append s.published h.position_le h.horizon_le,
    List.filter_append, List.append_assoc]

/-- A watch delivers what is due, event by event, until nothing is. Or it has fallen behind. -/
lemma Placed.next_due (h : s.Placed w) :
    (∃ e w', s.next w = .event e w' ∧ s.due w = e :: s.due w' ∧ s.Placed w' ∧
      w'.scope = w.scope ∧ w'.channel = w.channel) ∨
    (s.Lags w ∧ ∃ text w', s.next w = .event (.error goneCode text) w') ∨
    (¬ s.Feeds w ∧ s.next w = .ended ∧ s.due w = []) ∨
    (∃ w', s.next w = .waiting w' ∧ s.due w = [] ∧ s.due w' = [] ∧ s.Placed w' ∧
      w'.scope = w.scope ∧ w'.channel = w.channel) := by
  rcases h.next_cases with ⟨e, w', hnext, hpending, hscope, hchannel, -, hplaced⟩ |
    ⟨-, hlags, hnext⟩ | ⟨hcut, hnext⟩ | ⟨hfed, hpending, hnext⟩
  · rw [h.pending_eq, hplaced.pending_eq, s.horizon_congr hchannel, hscope, ← List.cons_append]
      at hpending
    exact .inl ⟨e, w', hnext, List.append_cancel_right hpending, hplaced, hscope, hchannel⟩
  · exact .inr (.inl ⟨hlags, hnext⟩)
  · refine .inr (.inr (.inl ⟨hcut, hnext, ?_⟩))
    unfold next at hnext
    split at hnext
    · simp at hnext
    next hbacklog =>
      simp only at hnext
      split at hnext
      · simp at hnext
      · rcases firstInScope_cases w.scope w.position
            ((s.published.take (s.horizon w).1).drop w.position) with ⟨-, hnil⟩ | ⟨e, i, -, hf, -⟩
        · rw [due, hbacklog, hnil, List.append_nil]
        · rw [hf] at hnext
          simp at hnext
  · rw [h.pending_eq, List.append_eq_nil_iff] at hpending
    have hbacklog : w.backlog = [] := (List.append_eq_nil_iff.mp hpending.1).1
    have hfed' : s.Feeds { w with position := s.published.length } := hfed
    have hrest : s.due { w with position := s.published.length } = [] := by
      rw [due, hfed'.horizon_eq, hbacklog]
      simp
    refine .inr (.inr (.inr ⟨_, hnext, hpending.1, hrest, ⟨?_, ?_⟩, rfl, rfl⟩)) <;>
      rw [hfed'.horizon_eq]

/-- What comes to a store is due to every watch that was opened on the same channel. -/
lemma Grows.due_eq (h : s.Grows t) (hw : s.Placed w) : t.due w = s.due w ++
    ((t.published.take (t.horizon w).1).drop (s.horizon w).1).filter (·.inScope w.scope) := by
  obtain ⟨hposition, hhorizon⟩ := hw
  have hlater : (s.horizon w).1 ≤ (t.horizon w).1 := (h.placed ⟨le_rfl, hhorizon⟩ : t.Placed
    { w with position := (s.horizon w).1 }).position_le
  obtain ⟨events, -, hevents, -⟩ := h
  have hlength : s.published.length ≤ t.published.length := by
    rw [hevents, List.length_append]
    omega
  have htake : (t.published.take (t.horizon w).1).take (s.horizon w).1 =
      s.published.take (s.horizon w).1 := by
    rw [List.take_take, min_eq_left hlater, hevents, List.take_append_of_le_length hhorizon]
  rw [due, drop_eq_append (t.published.take (t.horizon w).1) hposition
    (by rw [List.length_take]; omega), htake, List.filter_append, ← List.append_assoc, due]

omit [Resource α] in
/-- A watch that has been cut off stays so, and may deliver no more than before. -/
lemma Grows.cut (h : s.Grows t) (hcut : ¬ s.Feeds w) :
    ¬ t.Feeds w ∧ t.horizon w = s.horizon w := by
  obtain ⟨-, cuts, -, hcuts, -⟩ := h
  obtain ⟨n, hn⟩ := Option.ne_none_iff_exists'.mp hcut
  have hlt := (List.getElem?_eq_some_iff.mp hn).1
  have ht : t.disconnections[w.channel]? = some n := by
    rw [hcuts, List.getElem?_append_left hlt, hn]
  exact ⟨by simp [Feeds, ht], by rw [horizon, horizon, ht, hn]⟩

end Store

/-! ## Reading a watch -/

open Store

/-- A store with a reader of one of its watches, which is there until it ends, and what the reader has
been told so far. -/
structure Reading (α : Type) where
  store : Store α
  watch : Option (Watch α)
  told : List (WatchEvent α) := []

/-- Something happens to the store, or the reader asks for the next event. -/
inductive Reading.Move (α : Type) where
  | act (action : Store.Action α)
  | read

namespace Reading

variable {α : Type} [Resource α] {r : Reading α} {w : Watch α}

def step (r : Reading α) : Move α → Reading α
  | .act x => { r with store := r.store.act x }
  | .read =>
    match r.watch.map r.store.next with
    | none => r
    | some (.event e rest) => { r with watch := some rest, told := r.told ++ [e] }
    | some (.waiting rest) => { r with watch := some rest }
    | some .ended => { r with watch := none }

def run (r : Reading α) (moves : List (Move α)) : Reading α := moves.foldl step r

lemma run_concat (r : Reading α) (moves : List (Move α)) (x : Move α) :
    r.run (moves ++ [x]) = (r.run moves).step x := by
  rw [run, List.foldl_append]
  rfl

/-- The reader has left more events unread than are kept for it. -/
def Behind (r : Reading α) : Prop := ∃ w, r.watch = some w ∧ r.store.Lags w

/-- The reader has been told to begin anew. -/
def Interrupted (r : Reading α) : Prop := ∃ text, .error goneCode text ∈ r.told

/-- What is due to the reader. -/
def due (r : Reading α) : List (WatchEvent α) := (r.watch.map r.store.due).getD []

/-- What the reader has been told and what is due to it are what has come to the watch `w` that it was
given. -/
structure Follows (w : Watch α) (r : Reading α) : Prop where
  placed : r.store.Placed w
  ended : r.watch = none → ¬ r.store.Feeds w
  open_placed : ∀ w', r.watch = some w' →
    r.store.Placed w' ∧ w'.scope = w.scope ∧ w'.channel = w.channel
  told_eq : r.told ++ r.due = r.store.due w

/-- Whatever comes to the store comes to the watch of the reader as it would to the first one. -/
lemma Follows.act [LawfulResource α] (h : Follows w r) (hr : r.store.Keyed) (x : Store.Action α) :
    Follows w (r.step (.act x)) := by
  have hgrows := act_grows hr x
  have hnew := hgrows.due_eq h.placed
  refine ⟨hgrows.placed h.placed, fun hnone => (hgrows.cut (h.ended hnone)).1, fun w' hw' => ?_, ?_⟩
  · obtain ⟨hplaced, hscope, hchannel⟩ := h.open_placed w' hw'
    exact ⟨hgrows.placed hplaced, hscope, hchannel⟩
  · have htold := h.told_eq
    cases hwatch : r.watch with
    | none =>
      have hsame : (r.store.act x).due w = r.store.due w := by
        rw [hnew, (hgrows.cut (h.ended hwatch)).2]
        simp
      simpa only [step, due, hwatch, Option.map_none, hsame] using htold
    | some w' =>
      obtain ⟨hplaced, hscope, hchannel⟩ := h.open_placed w' hwatch
      have hnew' := hgrows.due_eq hplaced
      rw [hscope, horizon_congr _ hchannel, horizon_congr _ hchannel] at hnew'
      simp only [due, hwatch, Option.map_some, Option.getD_some] at htold
      simp only [step, due, hwatch, Option.map_some, Option.getD_some]
      rw [hnew, hnew', ← htold, List.append_assoc]

/-- The reader is told the next event that is due, if there is one. Or it has fallen behind. -/
lemma Follows.read (h : Follows w r) :
    Follows w (r.step .read) ∧ ((r.step .read).told = r.told → r.due = []) ∨
      r.Behind ∧ ∃ text, (r.step .read).told = r.told ++ [.error goneCode text] := by
  cases hwatch : r.watch with
  | none =>
    refine .inl ⟨?_, fun _ => by simp [due, hwatch]⟩
    simpa only [step, hwatch, Option.map_none] using h
  | some w' =>
    obtain ⟨hplaced, hscope, hchannel⟩ := h.open_placed w' hwatch
    have htold : r.told ++ r.store.due w' = r.store.due w := by
      simpa only [due, hwatch, Option.map_some, Option.getD_some] using h.told_eq
    rcases hplaced.next_due with ⟨e, v, hnext, hdue, hv, hs, hc⟩ | ⟨hlags, text, v, hnext⟩ |
      ⟨hcut, hnext, hdue⟩ | ⟨v, hnext, hdue, hrest, hv, hs, hc⟩
    · have hstep : r.step .read = { r with watch := some v, told := r.told ++ [e] } := by
        simp only [step, hwatch, Option.map_some, hnext]
      rw [hstep]
      refine .inl ⟨⟨h.placed, by simp, fun u hu => ?_, ?_⟩, fun hsame => by simp at hsame⟩
      · obtain rfl := Option.some.inj hu
        exact ⟨hv, hs.trans hscope, hc.trans hchannel⟩
      · rw [← htold, hdue]
        simp [due]
    · refine .inr ⟨⟨w', hwatch, hlags⟩, text, ?_⟩
      simp only [step, hwatch, Option.map_some, hnext]
    · have hstep : r.step .read = { r with watch := none } := by
        simp only [step, hwatch, Option.map_some, hnext]
      have hcut' : ¬ r.store.Feeds w := by rwa [Feeds, hchannel] at hcut
      rw [hstep]
      refine .inl ⟨⟨h.placed, fun _ => hcut', by simp, ?_⟩, fun _ => by simp [due, hwatch, hdue]⟩
      rw [← htold, hdue]
      simp [due]
    · have hstep : r.step .read = { r with watch := some v } := by
        simp only [step, hwatch, Option.map_some, hnext]
      rw [hstep]
      refine .inl ⟨⟨h.placed, by simp, fun u hu => ?_, ?_⟩, fun _ => by simp [due, hwatch, hdue]⟩
      · obtain rfl := Option.some.inj hu
        exact ⟨hv, hs.trans hscope, hc.trans hchannel⟩
      · rw [← htold, hdue]
        simp [due, hrest]

lemma Interrupted.step (h : r.Interrupted) (x : Move α) : (r.step x).Interrupted := by
  obtain ⟨text, htext⟩ := h
  cases x with
  | act x => exact ⟨text, htext⟩
  | read =>
    simp only [Reading.step]
    split
    · exact ⟨text, htext⟩
    · exact ⟨text, List.mem_append_left _ htext⟩
    · exact ⟨text, htext⟩
    · exact ⟨text, htext⟩

lemma step_chronicled [LawfulResource α] (h : r.store.Chronicled) (x : Move α) :
    (r.step x).store.Chronicled := by
  cases x with
  | act x => exact h.act x
  | read =>
    simp only [step]
    split <;> exact h

lemma run_chronicled [LawfulResource α] (h : r.store.Chronicled) (moves : List (Move α)) :
    (r.run moves).store.Chronicled := by
  induction moves using List.reverseRecOn with
  | nil => exact h
  | append_singleton moves x ih =>
    rw [run_concat]
    exact step_chronicled ih x

/-- A reader goes on to follow its watch until it has fallen behind. -/
lemma Follows.run [LawfulResource α] (h : Follows w r) (hr : r.store.Chronicled)
    (moves : List (Move α)) :
    Follows w (r.run moves) ∨
      (r.run moves).Interrupted ∧ ∃ earlier, earlier <+: moves ∧ (r.run earlier).Behind := by
  induction moves using List.reverseRecOn with
  | nil => exact .inl h
  | append_singleton moves x ih =>
    rw [run_concat]
    rcases ih with hfollows | ⟨hinterrupted, earlier, hprefix, hbehind⟩
    · cases x with
      | act x => exact .inl (hfollows.act (run_chronicled hr moves).faithful.keyed x)
      | read =>
        rcases hfollows.read with ⟨hnext, -⟩ | ⟨hbehind, text, htold⟩
        · exact .inl hnext
        · have hinterrupted : ((r.run moves).step .read).Interrupted :=
            ⟨text, htold ▸ List.mem_append_right _ List.mem_cons_self⟩
          exact .inr ⟨hinterrupted, moves, List.prefix_append _ _, hbehind⟩
    · exact .inr ⟨hinterrupted.step x, earlier, hprefix.trans (List.prefix_append _ _), hbehind⟩

end Reading

/-! ## Listing and then watching -/

namespace Store

variable {α : Type} [Resource α] {s t : Store α} {scope : Option String} {w : Watch α}

/-- The events of a scope that a subscription taken at one store carries at a later one: those
published in between, up to the first disconnection. -/
def carried (s t : Store α) (scope : Option String) : List (WatchEvent α) :=
  let limit := t.disconnections[s.disconnections.length]?.getD t.published.length
  ((t.published.take limit).drop s.published.length).filter (·.inScope scope)

end Store

namespace Reading

variable {α : Type} [Resource α] {r : Reading α} {w : Watch α}

/-- The reader has been told the first of these events and nothing else, and all of them if reading on
brings nothing. -/
def Hears (r : Reading α) (events : List (WatchEvent α)) : Prop :=
  r.told <+: events ∧ ((r.step .read).told = r.told → r.told = events)

lemma Follows.hears (h : Follows w r) : r.Hears (r.store.due w) := by
  refine ⟨⟨r.due, h.told_eq⟩, fun hsilent => ?_⟩
  rcases h.read with ⟨-, hdone⟩ | ⟨-, text, htold⟩
  · rw [← h.told_eq, hdone hsilent, List.append_nil]
  · simp [htold] at hsilent

end Reading

namespace Store

variable {α : Type} [Resource α] {s t : Store α} {scope : Option String} {w : Watch α} {v : Nat}

lemma watch_opens (scope : Option String) (hv : s.oldestResumable ≤ v) (hw : v ≤ Text.word64Max) :
    ∃ w, s.watch scope (toString v) = .ok w := by
  rcases s.startRevision_toString v with ⟨-, hr⟩ | ⟨hlt, -⟩
  · simp only [watch, bind, Except.bind, hr, if_neg (Nat.not_lt.mpr hv)]
    exact ⟨_, rfl⟩
  · omega

lemma Faithful.watch_follows (h : s.Faithful) (hw : s.watch scope (toString v) = .ok w) :
    Reading.Follows w ⟨s, some w, []⟩ := by
  have hplaced := (h.watch_tracks hw).placed
  refine ⟨hplaced, by simp, fun w' hw' => ?_, by simp [Reading.due]⟩
  obtain rfl := Option.some.inj hw'
  exact ⟨hplaced, rfl, rfl⟩

/-- What has come to a watch since it was opened. -/
lemma Faithful.due_of_watch (h : s.Faithful) (hw : s.watch scope (toString v) = .ok w)
    (t : Store α) : t.due w = w.backlog ++ s.carried t scope := by
  obtain ⟨-, rfl⟩ := h.watch_ok hw
  rw [due, carried, horizon]
  cases t.disconnections[s.disconnections.length]? <;> rfl

/-- What has been published since a listing leads from it to what is listed now. -/
lemma Faithful.since_mirrors (ht : t.Faithful) (hs : s.Faithful) (h : s.published <+: t.published)
    (scope : Option String) :
    (WatchEvent.applyAll (s.list scope).objects (t.since scope s.revision)).Mirrors
      (t.list scope) := by
  have hthen : (s.list scope).objects = t.asOf scope s.revision := by
    obtain ⟨events, hevents⟩ := h
    rw [Listing.objects, (hs.list_mirrors scope).ofList_items, asOf, asOf, ← hevents,
      List.take_append_of_le_length hs.length_published.ge]
  rw [hthen, t.applyAll_since, ht.length_published]
  exact ht.list_mirrors scope

/-- The history is what it should be at every time. A watch from the version of a listing is refused
exactly if the history does not reach back to it. Otherwise its backlog leads from the listing to what
is listed now, and its reader hears of the backlog and of everything of the scope that is published
from now on, unless it has left too much unread at some time. -/
theorem list_then_watch_complete [LawfulResource α] (limit : Nat) (before between : List (Action α))
    (scope : Option String) (hr : (run limit before).revision ≤ Text.word64Max) :
    let s := run limit before
    let t := run limit (before ++ between)
    (t.Recorded ∧ t.historyLimit = max limit 1) ∧
    ((∃ v, t.watch scope (s.list scope).version = .error (.gone v)) ↔
      s.revision < t.oldestResumable) ∧
    (t.oldestResumable ≤ s.revision → ∃ w, t.watch scope (s.list scope).version = .ok w ∧
      (WatchEvent.applyAll (s.list scope).objects w.backlog).Mirrors (t.list scope) ∧
      ∀ moves, let r := Reading.run ⟨t, some w, []⟩ moves
        r.Hears (w.backlog ++ t.carried r.store scope) ∨
          r.Interrupted ∧ ∃ earlier, earlier <+: moves ∧
            (Reading.run ⟨t, some w, []⟩ earlier).Behind) := by
  intro s t
  have hs := run_chronicled limit before
  have ht := run_chronicled limit (before ++ between)
  have hversion : (s.list scope).version = toString s.revision := rfl
  rw [hversion]
  refine ⟨⟨run_recorded limit _, run_historyLimit limit _⟩, ⟨?_, fun hold => ?_⟩, fun hkept => ?_⟩
  · rintro ⟨v, hgone⟩
    by_contra hkept
    obtain ⟨w, hw⟩ := watch_opens scope (Nat.not_lt.mp hkept) hr
    rw [hw] at hgone
    simp at hgone
  · exact ⟨_, watch_gone scope hold hr⟩
  · obtain ⟨w, hw⟩ := watch_opens scope hkept hr
    refine ⟨w, hw, ?_, fun moves => ?_⟩
    · obtain ⟨-, rfl⟩ := ht.faithful.watch_ok hw
      exact ht.faithful.since_mirrors hs.faithful (run_isPrefix limit before between) scope
    · intro r
      rcases (ht.faithful.watch_follows hw).run ht moves with hfollows | hbehind
      · refine .inl ?_
        rw [← ht.faithful.due_of_watch hw]
        exact hfollows.hears
      · exact .inr hbehind

/-- Widgets of two namespaces: one that is there to be listed, and what is done to it and beside it
after that. -/
def changesAfterListing : List (Action Widget) :=
  let place (ns name : String) : Action Widget := .create ⟨{ seconds := 0 }, name⟩ (some ns)
    { metadata := { name := some name }, spec := { replicas := 1 } }
  [place "here" "a", place "there" "b",
    .patch ⟨some "here", "a"⟩ (.obj [("spec", .obj [("replicas", .num (.int 2))])]),
    .delete { seconds := 1 } ⟨some "here", "a"⟩]

/-- A store that keeps two events is listed after the first one. The watch from there can be opened
after the third, though only just, and no longer after the fourth. -/
theorem list_then_watch_complete_boundary :
    let s := run 2 (changesAfterListing.take 1)
    let t := run 2 (changesAfterListing.take 3)
    let u := run 2 changesAfterListing
    (∃ w, t.watch (some "here") (s.list (some "here")).version = .ok w ∧
      (WatchEvent.applyAll (s.list (some "here")).objects w.backlog).Mirrors
        (t.list (some "here"))) ∧
    ∃ v, u.watch (some "here") (s.list (some "here")).version = .error (.gone v) := by
  intro s t u
  have hrevisions : s.revision ≤ Text.word64Max ∧ t.oldestResumable = s.revision ∧
      s.revision < u.oldestResumable := by
    decide +kernel
  obtain ⟨hword, hkept, hgone⟩ := hrevisions
  obtain ⟨w, hw, hmirrors, -⟩ := (list_then_watch_complete 2 (changesAfterListing.take 1)
    ((changesAfterListing.take 3).drop 1) (some "here") hword).2.2 hkept.le
  exact ⟨⟨w, hw, hmirrors⟩, (list_then_watch_complete 2 (changesAfterListing.take 1)
    (changesAfterListing.drop 1) (some "here") hword).2.1.mpr hgone⟩

end Store

end ControlLoop
