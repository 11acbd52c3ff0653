import ControlLoop.Proofs.ForeignDeployments
import ControlLoop.Proofs.OwnedMetadata

/-!
# What becomes of a key

The events of one key tell of lives, one after the other: an object is added, changed any number of
times, and removed. The last of them leaves what is stored. An object that is marked for removal is held
by finalizers as long as it is stored, so it is removed by the write that leaves none of them, and a
request for removal takes only what nobody holds.
-/
namespace ControlLoop.Store

/-! ## Lives -/

section Lived

variable {α : Type} {events : List (WatchEvent α)} {o : Option α} {a : α}

/-- One life: an object is added, changed, and removed. -/
def IsLife (events : List (WatchEvent α)) : Prop :=
  ∃ (first : α) (changes : List α) (last : α),
    events = .added first :: (changes.map .modified ++ [.deleted last])

/-- Events that may come one after the other, and the object that they leave. -/
inductive Lived : List (WatchEvent α) → Option α → Prop
  | nothing : Lived [] none
  | added {events : List (WatchEvent α)} (before : Lived events none) (a : α) :
      Lived (events ++ [.added a]) (some a)
  | modified {events : List (WatchEvent α)} {a : α} (before : Lived events (some a)) (b : α) :
      Lived (events ++ [.modified b]) (some b)
  | deleted {events : List (WatchEvent α)} {a : α} (before : Lived events (some a)) (b : α) :
      Lived (events ++ [.deleted b]) none

/-- Such events are whole lives, followed by one that is not over if they leave an object. -/
lemma Lived.exists_lives (h : Lived events o) :
    ∃ lives : List (List (WatchEvent α)), (∀ life ∈ lives, IsLife life) ∧
      match o with
      | none => events = lives.flatten
      | some _ => ∃ (first : α) (changes : List α),
        events = lives.flatten ++ .added first :: changes.map .modified := by
  induction h with
  | nothing => exact ⟨[], by simp, rfl⟩
  | added before a ih =>
    obtain ⟨lives, hlives, hevents⟩ := ih
    exact ⟨lives, hlives, a, [], by rw [hevents, List.map_nil]⟩
  | modified before b ih =>
    obtain ⟨lives, hlives, first, changes, hevents⟩ := ih
    exact ⟨lives, hlives, first, changes ++ [b], by simp [hevents]⟩
  | deleted before b ih =>
    obtain ⟨lives, hlives, first, changes, hevents⟩ := ih
    refine ⟨lives ++ [.added first :: (changes.map .modified ++ [.deleted b])], ?_, ?_⟩
    · intro life hlife
      rcases List.mem_append.mp hlife with hold | hnew
      · exact hlives life hold
      · exact ⟨first, changes, b, List.mem_singleton.mp hnew⟩
    · simp [hevents]

/-- So they are the beginning of whole lives. -/
lemma Lived.isPrefix (h : Lived events o) :
    ∃ lives : List (List (WatchEvent α)), (∀ life ∈ lives, IsLife life) ∧ events <+: lives.flatten := by
  cases o with
  | none =>
    obtain ⟨lives, hlives, hevents⟩ := h.exists_lives
    exact ⟨lives, hlives, hevents ▸ List.prefix_rfl⟩
  | some a =>
    obtain ⟨lives, hlives, hevents⟩ := (h.deleted a).exists_lives
    exact ⟨lives, hlives, hevents ▸ List.prefix_append _ _⟩

/-- The last event tells what is left. -/
lemma Lived.eq_some_iff (h : Lived events o) :
    o = some a ↔ events.getLast? = some (.added a) ∨ events.getLast? = some (.modified a) := by
  cases h with
  | nothing => simp
  | added before b => simp
  | modified before b => simp
  | deleted before b => simp

end Lived

/-! ## The events of a key -/

variable {α : Type} [Resource α] {s t : Store α} {x : Action α} {j k : ObjectKey} {a b : α}
  {e : WatchEvent α}

/-- The events about the object of a key, in the order of publication. -/
def eventsOf (s : Store α) (k : ObjectKey) : List (WatchEvent α) :=
  s.published.filter fun e => e.object?.any fun a => Resource.key a = k

lemma eventsOf_publish (s : Store α) (ha : e.object? = some a) (k : ObjectKey) :
    (s.publish e).eventsOf k =
      if Resource.key a = k then s.eventsOf k ++ [e] else s.eventsOf k := by
  have hpublished : (s.publish e).published = s.published ++ [e] := rfl
  rw [eventsOf, hpublished, List.filter_append]
  split
  next hk => simp [eventsOf, ha, hk]
  next hk => simp [eventsOf, ha, hk]

lemma mem_published_of_eventsOf (h : (s.eventsOf k).getLast? = some e) : e ∈ s.published :=
  List.mem_of_mem_filter (List.mem_of_getLast? h)

/-- An event that a request can publish continues the life of the object it is about. -/
lemma Lived.publish (h : Lived (s.eventsOf k) (s.objects.get? k)) (hw : Writes s.objects e)
    (ha : e.object? = some a) : Lived ((s.publish e).eventsOf k) ((s.publish e).objects.get? k) := by
  have hobjects : (s.publish e).objects = e.apply s.objects := rfl
  rw [eventsOf_publish s ha, hobjects]
  by_cases hk : Resource.key a = k
  · subst hk
    rw [if_pos rfl]
    cases hw with
    | added free =>
      obtain rfl := Option.some.inj ha
      rw [free] at h
      rw [WatchEvent.apply, KeyMap.get?_insert, if_pos rfl]
      exact h.added _
    | modified stored =>
      obtain rfl := Option.some.inj ha
      rw [stored] at h
      rw [WatchEvent.apply, KeyMap.get?_insert, if_pos rfl]
      exact h.modified _
    | deleted stored =>
      obtain rfl := Option.some.inj ha
      rw [stored] at h
      rw [WatchEvent.apply, KeyMap.get?_erase, if_pos rfl]
      exact h.deleted _
  · rw [if_neg hk, WatchEvent.get?_apply_ne s.objects ha hk]
    exact h

variable [LawfulResource α]

lemma run_lived (limit : Nat) (actions : List (Action α)) (k : ObjectKey) :
    Lived ((run limit actions).eventsOf k) ((run limit actions).objects.get? k) := by
  induction actions using List.reverseRecOn with
  | nil => exact .nothing
  | append_singleton actions x ih =>
    rw [run_concat]
    rcases act_wrote (run_chronicled limit actions).faithful.keyed x with
      h | ⟨j, e, a, ha, -, -, hwrites, h⟩ | h | h
    · rw [h]
      exact ih
    · rw [h]
      exact ih.publish hwrites ha
    · rw [h]
      exact ih
    · rw [h]
      exact ih

/-! ## Marked objects are held -/

omit [LawfulResource α] in
/-- An object that is marked for removal has finalizers as long as it is stored. -/
lemma Chronicled.held (h : s.Chronicled) (hlived : Lived (s.eventsOf k) (s.objects.get? k))
    (ha : s.objects.get? k = some a) (hmarked : (Resource.metadata a).isTerminating = true) :
    (Resource.metadata a).finalizerList ≠ [] := by
  rcases hlived.eq_some_iff.mp ha with hlast | hlast
  · obtain ⟨i, hi⟩ := List.getElem?_of_mem (mem_published_of_eventsOf hlast)
    cases h.writes i _ hi with
    | added free first unmarked =>
      rw [hmarked] at unmarked
      cases unmarked
  · obtain ⟨i, hi⟩ := List.getElem?_of_mem (mem_published_of_eventsOf hlast)
    cases h.writes i _ hi with
    | modified stored replaces held => exact held hmarked

lemma run_held (limit : Nat) (actions : List (Action α))
    (ha : (run limit actions).objects.get? k = some a)
    (hmarked : (Resource.metadata a).isTerminating = true) :
    (Resource.metadata a).finalizerList ≠ [] :=
  (run_chronicled limit actions).held (run_lived limit actions k) ha hmarked

/-! ## Removal -/

/-- A write in the place of an object leaves its answer there, unless the object is marked for removal
and the answer has no finalizer left. -/
lemma get?_of_replace_self {next : α} {keepStatus : Bool}
    (h : s.replace k a next keepStatus = .ok (b, t)) :
    t.objects.get? k =
      if (Resource.metadata a).isTerminating = true ∧ (Resource.metadata b).finalizerList = [] then none
      else some b := by
  obtain ⟨c, hc, hwrite⟩ := replace_ok h
  obtain ⟨m, changed, hm⟩ := metadata_replacement hc
  have hmark : (Resource.metadata c).isTerminating = (Resource.metadata a).isTerminating := by
    rw [hm]
    rfl
  have hlist : (Resource.metadata (versioned (s.revision + 1) c)).finalizerList =
      (Resource.metadata c).finalizerList := by
    rw [metadata_versioned]
    rfl
  rcases hwrite with ⟨hgone, hremove⟩ | ⟨hstays, hput⟩
  · obtain rfl : (s.remove k c).2 = t := congrArg Prod.snd hremove
    obtain rfl : versioned (s.revision + 1) c = b := congrArg Prod.fst hremove
    rw [get?_remove, if_pos rfl, if_pos ⟨hmark ▸ hgone.1, hlist.trans hgone.2⟩]
  · obtain rfl : (s.put k .modified c).2 = t := congrArg Prod.snd hput
    obtain rfl : versioned (s.revision + 1) c = b := congrArg Prod.fst hput
    rw [get?_put, if_pos rfl,
      if_neg fun hgone => hstays ⟨hmark.trans hgone.1, hlist ▸ hgone.2⟩]

/-- Where an object goes, a request for it has been granted. -/
lemma Faithful.granted_of_removed (hs : s.Faithful) (ha : s.objects.get? k = some a)
    (hgone : (s.act x).objects.get? k = none) :
    x.target = some k ∧ ∃ answer, (x.request s).1 = .ok answer ∧ s.Granted x k answer := by
  have htarget : x.target = some k := by
    by_contra hk
    rw [hs.get?_act_of_ne hk, ha] at hgone
    cases hgone
  refine ⟨htarget, ?_⟩
  cases hanswer : (x.request s).1 with
  | error e =>
    rw [act_of_refused hanswer, ha] at hgone
    cases hgone
  | ok answer => exact ⟨answer, rfl, granted_of_answer htarget hanswer⟩

omit [LawfulResource α] in
lemma not_free_of_create {stamp : Stamp} {ns : Option String} {object : α}
    (h : s.create stamp ns object = .ok (b, t))
    (hk : k = ⟨ns, (Resource.metadata object).name.getD ""⟩) : s.objects.get? k = none := by
  obtain ⟨name, hname, hfree, -⟩ := create_ok h
  rw [hk, hname]
  exact hfree

/-- A request for the removal of an object with finalizers leaves it in its place, marked and with the
same finalizers. -/
lemma get?_of_delete_held {now : Timestamp} (h : s.delete now k = .ok t)
    (ha : s.objects.get? k = some a) (hheld : (Resource.metadata a).finalizerList ≠ []) :
    ∃ b, t.objects.get? k = some b ∧ (Resource.metadata b).isTerminating = true ∧
      (Resource.metadata b).finalizerList = (Resource.metadata a).finalizerList := by
  obtain ⟨current, hcurrent, hcases⟩ := delete_ok h
  obtain rfl : current = a := Option.some.inj (hcurrent.symm.trans ha)
  obtain ⟨hnone, -⟩ | ⟨-, ⟨hmarked, rfl⟩ | ⟨-, rfl⟩⟩ := hcases
  · exact absurd hnone hheld
  · exact ⟨current, ha, hmarked, rfl⟩
  · refine ⟨_, by rw [get?_put, if_pos rfl], ?_, ?_⟩
    · rw [metadata_versioned, LawfulResource.metadata_setMetadata]
      rfl
    · rw [metadata_versioned, LawfulResource.metadata_setMetadata]
      rfl

lemma get?_act_delete_held (now : Timestamp) (ha : s.objects.get? k = some a)
    (hheld : (Resource.metadata a).finalizerList ≠ []) :
    ∃ b, (s.act (.delete now k)).objects.get? k = some b ∧
      (Resource.metadata b).isTerminating = true ∧
      (Resource.metadata b).finalizerList = (Resource.metadata a).finalizerList := by
  obtain ⟨t, ht⟩ := exists_delete now ha
  simp only [act, ht]
  exact get?_of_delete_held ht ha hheld

/-- An object that is marked for removal, and held, is removed exactly by a write that leaves it without
finalizers. -/
lemma Faithful.removed_iff_of_marked (hs : s.Faithful) (ha : s.objects.get? k = some a)
    (hmarked : (Resource.metadata a).isTerminating = true)
    (hheld : (Resource.metadata a).finalizerList ≠ []) (x : Action α) :
    (s.act x).objects.get? k = none ↔ x.target = some k ∧
      ∃ b, (x.request s).1 = .ok (some b) ∧ (Resource.metadata b).finalizerList = [] := by
  constructor
  · intro hgone
    obtain ⟨htarget, answer, hanswer, hgranted⟩ := hs.granted_of_removed ha hgone
    refine ⟨htarget, ?_⟩
    cases hgranted with
    | created asked address done => simp [not_free_of_create done address] at ha
    | @replaced current next b keepStatus new before done =>
      obtain rfl : current = a := Option.some.inj (before.symm.trans ha)
      refine ⟨b, hanswer, ?_⟩
      by_contra hleft
      rw [get?_of_replace_self done, if_neg fun h => hleft h.2] at hgone
      cases hgone
    | deleted asked done =>
      obtain ⟨b, hb, -⟩ := get?_of_delete_held done ha hheld
      rw [hgone] at hb
      cases hb
  · rintro ⟨htarget, b, hanswer, hnone⟩
    cases granted_of_answer htarget hanswer with
    | created asked address done => simp [not_free_of_create done address] at ha
    | @replaced current next _ keepStatus new before done =>
      obtain rfl : current = a := Option.some.inj (before.symm.trans ha)
      rw [get?_of_replace_self done, if_pos ⟨hmarked, hnone⟩]

/-- An object that is not marked is removed exactly by a request for that, if it has no finalizers. -/
lemma Faithful.removed_iff_of_unmarked (hs : s.Faithful) (ha : s.objects.get? k = some a)
    (hunmarked : (Resource.metadata a).isTerminating = false) (x : Action α) :
    (s.act x).objects.get? k = none ↔
      (Resource.metadata a).finalizerList = [] ∧ ∃ now, x = .delete now k := by
  constructor
  · intro hgone
    obtain ⟨htarget, answer, hanswer, hgranted⟩ := hs.granted_of_removed ha hgone
    cases hgranted with
    | created asked address done => simp [not_free_of_create done address] at ha
    | @replaced current next b keepStatus new before done =>
      obtain rfl : current = a := Option.some.inj (before.symm.trans ha)
      rw [get?_of_replace_self done, if_neg (by simp [hunmarked])] at hgone
      cases hgone
    | @deleted now asked done =>
      refine ⟨?_, now, asked⟩
      by_contra hheld
      obtain ⟨b, hb, -⟩ := get?_of_delete_held done ha hheld
      rw [hgone] at hb
      cases hb
  · rintro ⟨hnone, now, rfl⟩
    obtain ⟨t, ht⟩ := exists_delete now ha
    obtain ⟨current, hcurrent, hcases⟩ := delete_ok ht
    obtain rfl : current = a := Option.some.inj (hcurrent.symm.trans ha)
    simp only [Store.act, ht]
    rcases hcases with ⟨-, rfl⟩ | ⟨hheld, -⟩
    · rw [get?_remove, if_pos rfl]
    · exact absurd hnone hheld

/-- After any actions, the events of a key are a beginning of lives, one after the other, and the last
of them tells what is stored under the key. An object that is marked for removal has finalizers, and is
removed exactly by a write that leaves it without any; one that is not marked is removed exactly by a
request for that, if it has none; and such a request leaves an object with finalizers in its place,
marked. -/
theorem key_lifecycle (limit : Nat) (actions : List (Action α)) (k : ObjectKey) :
    let s := run limit actions
    (∃ lives : List (List (WatchEvent α)), (∀ life ∈ lives, IsLife life) ∧
      s.eventsOf k <+: lives.flatten) ∧
    (∀ a, s.objects.get? k = some a ↔
      (s.eventsOf k).getLast? = some (.added a) ∨ (s.eventsOf k).getLast? = some (.modified a)) ∧
    (∀ a, s.objects.get? k = some a → (Resource.metadata a).isTerminating = true →
      (Resource.metadata a).finalizerList ≠ [] ∧
      ∀ x, (s.act x).objects.get? k = none ↔ x.target = some k ∧
        ∃ b, (x.request s).1 = .ok (some b) ∧ (Resource.metadata b).finalizerList = []) ∧
    (∀ a, s.objects.get? k = some a → (Resource.metadata a).isTerminating = false →
      ∀ x, (s.act x).objects.get? k = none ↔
        (Resource.metadata a).finalizerList = [] ∧ ∃ now, x = .delete now k) ∧
    (∀ a now, s.objects.get? k = some a → (Resource.metadata a).finalizerList ≠ [] →
      ∃ b, (s.act (.delete now k)).objects.get? k = some b ∧
        (Resource.metadata b).isTerminating = true ∧
        (Resource.metadata b).finalizerList = (Resource.metadata a).finalizerList) := by
  intro s
  have hs : s.Faithful := (run_chronicled limit actions).faithful
  have hlived : Lived (s.eventsOf k) (s.objects.get? k) := run_lived limit actions k
  refine ⟨hlived.isPrefix, fun a => hlived.eq_some_iff, ?_,
    fun a ha hunmarked => hs.removed_iff_of_unmarked ha hunmarked,
    fun a now ha hheld => get?_act_delete_held now ha hheld⟩
  intro a ha hmarked
  have hheld := run_held limit actions ha hmarked
  exact ⟨hheld, hs.removed_iff_of_marked ha hmarked hheld⟩

/-- A widget that is held by a finalizer is asked to go, let go, and created once more. -/
def releasedWidget : List (Action Widget) :=
  let k : ObjectKey := ⟨some "default", "a"⟩
  [heldWidget, .delete { seconds := 1 } k,
    .patch k (.obj [("metadata", .obj [("finalizers", .arr [])])]), heldWidget]

/-- It is held after the second request, gone after the third, and the events after the fourth are a
whole life and the beginning of another. -/
theorem key_lifecycle_released :
    let k : ObjectKey := ⟨some "default", "a"⟩
    let s := run 1 releasedWidget
    (∃ a, (run 1 (releasedWidget.take 2)).objects.get? k = some a ∧
      (Resource.metadata a).isTerminating = true ∧ (Resource.metadata a).finalizerList ≠ []) ∧
    (run 1 (releasedWidget.take 3)).objects.get? k = none ∧ (s.eventsOf k).length = 4 ∧
    (∃ lives : List (List (WatchEvent Widget)), (∀ life ∈ lives, IsLife life) ∧
      s.eventsOf k <+: lives.flatten) ∧
    ∃ b, s.objects.get? k = some b ∧
      ((s.eventsOf k).getLast? = some (.added b) ∨ (s.eventsOf k).getLast? = some (.modified b)) := by
  intro k s
  have hruns : ((run 1 (releasedWidget.take 2)).objects.get? k).any
        (fun a => a.metadata.isTerminating) = true ∧
      ((run 1 (releasedWidget.take 3)).objects.get? k).isNone ∧ (s.eventsOf k).length = 4 ∧
      (s.objects.get? k).isSome := by
    decide +kernel
  obtain ⟨hmarked, hgone, hlength, hback⟩ := hruns
  obtain ⟨a, ha, hterminating⟩ := (Option.any_eq_true _ _).mp hmarked
  obtain ⟨b, hb⟩ := Option.isSome_iff_exists.mp hback
  obtain ⟨hlives, hlast, -⟩ := key_lifecycle 1 releasedWidget k
  obtain ⟨-, -, hheld, -⟩ := key_lifecycle 1 (releasedWidget.take 2) k
  exact ⟨⟨a, ha, hterminating, (hheld a ha hterminating).1⟩, Option.isNone_iff_eq_none.mp hgone,
    hlength, hlives, b, hb, (hlast b).mp hb⟩

end ControlLoop.Store
