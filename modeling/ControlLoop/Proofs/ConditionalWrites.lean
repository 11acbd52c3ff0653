import ControlLoop.Proofs.ResumedWatch

/-!
# Writing on condition

Clients come to hold copies of objects in many ways: they read or list them, write them, or hear of
them from a watch. Every copy is of a version that the store has published, and no version is published
twice. So a request that is conditional on the version of a copy is granted only if what it replaces is
that copy, whatever other clients have done since.
-/
namespace ControlLoop

namespace Store

variable {α : Type} [Resource α] {s t : Store α} {x : Action α} {k : ObjectKey} {a b : α}
  {e : WatchEvent α} {scope : Option String}

/-! ## What a conditional request answers -/

/-- The version that a request is conditional on, if it is on one. -/
def Action.condition : Action α → Option String
  | .update _ a => (Resource.metadata a).resourceVersion
  | .patch _ p => requestedVersion p
  | .updateStatus _ _ version => version
  | _ => none

/-- The request is refused for what it says, if at all. -/
def Unopposed {β : Type} (answer : Except ClientError β) : Prop :=
  ∀ e, answer = .error e → ∃ text, e = .invalid text

lemma Unopposed.bind {β γ : Type} {x : Except ClientError β} {f : β → Except ClientError γ}
    (hx : Unopposed x) (hf : ∀ b, Unopposed (f b)) : Unopposed (x.bind f) := by
  cases x with
  | error e => exact fun e' he => hx e' (congrArg Except.error (Except.error.inj he))
  | ok b => exact hf b

lemma Unopposed.map {β γ : Type} {x : Except ClientError β} (hx : Unopposed x) (f : β → γ) :
    Unopposed (x.map f) := by
  cases x with
  | error e => exact fun e' he => hx e' (congrArg Except.error (Except.error.inj he))
  | ok b => exact fun e' he => by simp [Except.map] at he

lemma unopposed_decodeObject (v : Json) : Unopposed (decodeObject v : Except ClientError α) := by
  intro e he
  unfold decodeObject at he
  split at he
  · simp at he
  · exact ⟨_, (Except.error.inj he).symm⟩

lemma unopposed_replace (s : Store α) (k : ObjectKey) (previous next : α) (keepStatus : Bool) :
    Unopposed (s.replace k previous next keepStatus) := by
  rw [replace, Edit.replace, outcome_check]
  refine Unopposed.bind ?_ fun a => ?_
  · exact (unopposed_decodeObject _).bind fun a e he => by simp [pure, Except.pure] at he
  · intro e he
    simp only at he
    split at he <;> exact absurd (show Except.ok _ = Except.error e from he) (by simp)

omit [Resource α] in
lemma answer_eq {β γ : Type} (r : Edit α β) (f : β → γ) (s : Store α) :
    ((do return f (← r) : Edit α γ) s).1 = (s.outcome r).map fun b => f b.1 := by
  rw [Edit.bind_pure_apply, outcome]
  rcases r s with ⟨e | b, t⟩ <;> rfl

/-- A conditional request looks for the object and checks its version, and what comes after that can
be refused for what the request says only. -/
lemma request_of_condition {version : String} (hx : x.condition = some version)
    (hk : x.target = some k) (s : Store α) :
    ∃ write : α → Except ClientError (Option α), (∀ a, Unopposed (write a)) ∧
      (x.request s).1 = (s.get k).bind fun a =>
        (checkVersion k a (some version)).bind fun _ => write a := by
  have hform {r : Edit α α} {write : α → Except ClientError (α × Store α)}
      (hwrite : ∀ a, Unopposed (write a))
      (hr : s.outcome r = (s.get k).bind fun a =>
        (checkVersion k a (some version)).bind fun _ => write a) :
      ∃ write : α → Except ClientError (Option α), (∀ a, Unopposed (write a)) ∧
        ((do return some (← r) : Edit α (Option α)) s).1 = (s.get k).bind fun a =>
          (checkVersion k a (some version)).bind fun _ => write a := by
    refine ⟨fun a => (write a).map fun b => some b.1, fun a => (hwrite a).map _, ?_⟩
    rw [answer_eq, hr]
    cases s.get k with
    | error e => rfl
    | ok a => cases h : checkVersion k a (some version) <;> simp [Except.bind, h, Except.map]
  cases x with
  | update ns a =>
    obtain rfl := Option.some.inj hk
    refine hform (fun current => unopposed_replace s ⟨ns, (Resource.metadata a).name.getD ""⟩
      current a true) ?_
    rw [Edit.update, outcome_look, show (Resource.metadata a).resourceVersion = _ from hx]
    simp only [outcome_check]
    rfl
  | patch j p =>
    obtain rfl := Option.some.inj hk
    refine hform (fun current => (unopposed_decodeObject
      ((Resource.toJson current).merge p)).bind fun next =>
        unopposed_replace s j current next true) ?_
    rw [Edit.patch, outcome_look, show requestedVersion p = _ from hx]
    simp only [outcome_check]
    rfl
  | updateStatus j status v =>
    obtain rfl := Option.some.inj hk
    refine hform (fun current => (unopposed_decodeObject
      ((Resource.toJson current).merge (.obj [("status", status)]))).bind fun next =>
        unopposed_replace s j current next false) ?_
    rw [Edit.updateStatus, outcome_look, show v = _ from hx]
    simp only [outcome_check]
    rfl
  | create | delete | disconnect | compact => simp [Action.condition] at hx

/-- What comes of a conditional request, by what is stored. -/
lemma request_cases {version : String} (hx : x.condition = some version) (hk : x.target = some k)
    (hne : version ≠ "") (s : Store α) :
    (s.objects.get? k = none ∧ (x.request s).1 = .error (.notFound (Resource.kind α) k.text)) ∨
    (∃ a, s.objects.get? k = some a ∧ version ≠ Resource.versionText a ∧
      ∃ text, (x.request s).1 = .error (.conflict k.text text)) ∨
    ∃ a, s.objects.get? k = some a ∧ version = Resource.versionText a ∧ Unopposed (x.request s).1 := by
  obtain ⟨write, hwrite, hanswer⟩ := request_of_condition hx hk s
  cases hstored : s.objects.get? k with
  | none =>
    refine .inl ⟨rfl, ?_⟩
    rw [hanswer, get, hstored]
    rfl
  | some a =>
    have hget : s.get k = .ok a := by rw [get, hstored]
    rw [hget] at hanswer
    by_cases hversion : version = Resource.versionText a
    · refine .inr (.inr ⟨a, rfl, hversion, ?_⟩)
      rw [hanswer]
      simpa [Except.bind, checkVersion, hversion] using hwrite a
    · simp only [Except.bind, checkVersion, if_neg (not_or.mpr ⟨hne, hversion⟩)] at hanswer
      exact .inr (.inl ⟨a, rfl, hversion, _, hanswer⟩)

/-! ## What has been published -/

lemma Faithful.hasPublished_of_stored (h : s.Faithful) (ha : s.objects.get? k = some a) :
    s.HasPublished a := by
  rw [h.objects_eq] at ha
  exact (WatchEvent.object_of_applyAll _ ha).2

lemma Faithful.hasPublished_of_list (h : s.Faithful) (ha : a ∈ (s.list scope).items) :
    s.HasPublished a := by
  obtain ⟨⟨k, b⟩, hentry, rfl⟩ := List.mem_map.mp ha
  have hget := (KeyMap.lookup_eq_some_iff (KeyMap.ordered _)).mpr hentry
  have hstored := (KeyMap.get?_filterKeys (·.inScope scope) s.objects k).symm.trans hget
  split at hstored
  · exact h.hasPublished_of_stored hstored
  · simp at hstored

lemma put_hasPublished {event : α → WatchEvent α} (hevent : ∀ a, (event a).object? = some a)
    (h : s.put k event a = (b, t)) : t.HasPublished b := by
  obtain ⟨rfl, rfl⟩ := Prod.mk.inj h
  exact ⟨_, List.mem_append_right _ List.mem_cons_self, hevent _⟩

lemma remove_hasPublished (h : s.remove k a = (b, t)) : t.HasPublished b := by
  obtain ⟨rfl, rfl⟩ := Prod.mk.inj h
  exact ⟨_, List.mem_append_right _ List.mem_cons_self, rfl⟩

lemma replace_hasPublished {previous next : α} {keepStatus : Bool}
    (h : s.replace k previous next keepStatus = .ok (b, t)) : t.HasPublished b := by
  obtain ⟨a, -, ⟨-, hremove⟩ | ⟨-, hput⟩⟩ := replace_ok h
  · exact remove_hasPublished hremove
  · exact put_hasPublished (fun _ => rfl) hput

/-- The object that a request answers with has been published by it. -/
lemma hasPublished_of_request (h : (x.request s).1 = .ok (some a)) : (s.act x).HasPublished a := by
  cases hx : x.target with
  | none =>
    -- What is no request for an object has no object to answer with.
    have hnone : (x.request s).1 = .ok none := by
      cases x <;> first | rfl | simp [Action.target] at hx
    rw [hnone] at h
    simp at h
  | some k =>
    cases granted_of_answer hx h with
    | created asked address done =>
      obtain ⟨name, -, -, hput⟩ := create_ok done
      exact put_hasPublished (fun _ => rfl) hput
    | replaced new before done => exact replace_hasPublished done

/-- A watch tells what is in its backlog or has been published, or that it has fallen behind. -/
lemma mem_of_next {w w' : Watch α} (h : s.next w = .event e w') :
    (e ∈ w.backlog ∨ e ∈ s.published ∨ e.object? = none) ∧ w'.backlog ⊆ w.backlog := by
  unfold next at h
  split at h
  next first rest hbacklog =>
    obtain ⟨rfl, rfl⟩ := Watch.Answer.event.inj h
    rw [hbacklog]
    exact ⟨.inl List.mem_cons_self, List.subset_cons_self _ _⟩
  next hbacklog =>
    simp only at h
    split at h
    · obtain ⟨rfl, rfl⟩ := Watch.Answer.event.inj h
      exact ⟨.inr (.inr rfl), List.Subset.refl _⟩
    · rcases firstInScope_cases w.scope w.position
          ((s.published.take (s.horizon w).1).drop w.position) with ⟨hf, -⟩ | ⟨e', i, -, hf, hfilter⟩
      · rw [hf] at h
        simp only at h
        split at h <;> simp at h
      · rw [hf] at h
        obtain ⟨rfl, rfl⟩ := Watch.Answer.event.inj h
        have hmem := List.mem_of_mem_filter (hfilter ▸ List.mem_cons_self :
          e' ∈ ((s.published.take (s.horizon w).1).drop w.position).filter (·.inScope w.scope))
        exact ⟨.inr (.inl (List.mem_of_mem_take (List.mem_of_mem_drop hmem))), List.Subset.refl _⟩

lemma backlog_of_waiting {w w' : Watch α} (h : s.next w = .waiting w') : w'.backlog = w.backlog := by
  unfold next at h
  split at h
  · simp at h
  · simp only at h
    split at h
    · simp at h
    · split at h
      · simp at h
      · split at h
        · simp at h
        · rw [← Watch.Answer.waiting.inj h]

/-- The backlog of a watch has been published. -/
lemma Faithful.backlog_subset (h : s.Faithful) {version : String} {w : Watch α}
    (hw : s.watch scope version = .ok w) : w.backlog ⊆ s.published := by
  simp only [watch, bind, Except.bind, pure, Except.pure] at hw
  split at hw
  · simp at hw
  · split at hw
    · simp [throw, throwThe, MonadExceptOf.throw] at hw
    · obtain rfl := Except.ok.inj hw
      intro e he
      obtain ⟨⟨n, e'⟩, hmem, rfl⟩ := List.mem_map.mp he
      have hkept := List.mem_of_mem_filter hmem
      rw [h.history_eq] at hkept
      exact List.mem_of_mem_drop (List.mem_of_getElem? (mem_numberedFrom hkept).2)

end Store

namespace Reading

open Store

variable {α : Type} [Resource α] {r : Reading α} {e : WatchEvent α} {a : α}

/-- The action of a move that is one. -/
def Move.action? : Move α → Option (Store.Action α)
  | .act x => some x
  | .read => none

/-- The reader has been told, and will be told by its backlog, what the store has published. -/
structure Truthful (r : Reading α) : Prop where
  backlog_subset : ∀ w, r.watch = some w → w.backlog ⊆ r.store.published
  told_published : ∀ e ∈ r.told, ∀ a, e.object? = some a → e ∈ r.store.published

lemma Truthful.step [LawfulResource α] (h : r.Truthful) (hr : r.store.Keyed) (x : Move α) :
    (r.step x).Truthful := by
  cases x with
  | act x =>
    obtain ⟨events, -, hevents, -⟩ := act_grows hr x
    have hsubset : r.store.published ⊆ (r.store.act x).published := by
      rw [hevents]
      exact List.subset_append_left _ _
    exact ⟨fun w hw => List.Subset.trans (h.backlog_subset w hw) hsubset,
      fun e he a ha => hsubset (h.told_published e he a ha)⟩
  | read =>
    simp only [Reading.step]
    split
    · exact h
    next e rest hnext =>
      obtain ⟨w, hw, hevent⟩ := Option.map_eq_some_iff.mp hnext
      obtain ⟨horigin, hrest⟩ := mem_of_next hevent
      refine ⟨fun w' hw' => ?_, fun e' he' a ha => ?_⟩
      · obtain rfl := Option.some.inj hw'
        exact List.Subset.trans hrest (h.backlog_subset w hw)
      · rcases List.mem_append.mp he' with htold | hnew
        · exact h.told_published e' htold a ha
        · obtain rfl := List.mem_singleton.mp hnew
          rcases horigin with hbacklog | hpublished | hnone
          · exact h.backlog_subset w hw hbacklog
          · exact hpublished
          · simp [hnone] at ha
    next rest hnext =>
      obtain ⟨w, hw, hwaiting⟩ := Option.map_eq_some_iff.mp hnext
      refine ⟨fun w' hw' => ?_, h.told_published⟩
      obtain rfl := Option.some.inj hw'
      rw [backlog_of_waiting hwaiting]
      exact h.backlog_subset w hw
    · exact ⟨by simp, h.told_published⟩

lemma Truthful.run [LawfulResource α] (h : r.Truthful) (hr : r.store.Chronicled)
    (moves : List (Move α)) : (r.run moves).Truthful := by
  induction moves using List.reverseRecOn with
  | nil => exact h
  | append_singleton moves x ih =>
    rw [run_concat]
    exact ih.step (run_chronicled hr moves).faithful.keyed x

/-- Reading does not change the store. -/
lemma run_store (r : Reading α) (moves : List (Move α)) :
    (r.run moves).store = (moves.filterMap Move.action?).foldl act r.store := by
  induction moves using List.reverseRecOn with
  | nil => rfl
  | append_singleton moves x ih =>
    rw [run_concat, List.filterMap_append, List.foldl_append, ← ih]
    cases x with
    | act x => rfl
    | read =>
      simp only [Reading.step]
      split <;> rfl

end Reading

/-! ## Copies -/

namespace Store

variable {α : Type} [Resource α] {limit : Nat} {xs : List (Action α)} {a : α}

/-- The copies that clients have come to hold by some actions on an empty store: of an object that was
read or listed, or that a request has answered with, or that a watch has told of. -/
inductive Obtained (limit : Nat) : List (Action α) → α → Prop
  | read {xs : List (Action α)} {k : ObjectKey} {a : α} (answer : (run limit xs).get k = .ok a) :
      Obtained limit xs a
  | listed {xs : List (Action α)} {scope : Option String} {a : α}
      (item : a ∈ ((run limit xs).list scope).items) : Obtained limit xs a
  | written {xs : List (Action α)} {x : Action α} {a : α}
      (answer : (x.request (run limit xs)).1 = .ok (some a)) : Obtained limit (xs ++ [x]) a
  | watched {xs : List (Action α)} {scope : Option String} {version : String} {w : Watch α}
      {moves : List (Reading.Move α)} {e : WatchEvent α} {a : α}
      (opened : (run limit xs).watch scope version = .ok w)
      (told : e ∈ (Reading.run ⟨run limit xs, some w, []⟩ moves).told)
      (event : e = .added a ∨ e = .modified a) :
      Obtained limit (xs ++ moves.filterMap Reading.Move.action?) a

/-- A copy is of a version that has been published. -/
lemma Obtained.hasPublished [LawfulResource α] (h : Obtained limit xs a) :
    (run limit xs).HasPublished a := by
  cases h with
  | read answer =>
    exact (run_chronicled limit xs).faithful.hasPublished_of_stored (get?_of_get answer)
  | listed item => exact (run_chronicled limit xs).faithful.hasPublished_of_list item
  | written answer =>
    rw [run_concat]
    exact hasPublished_of_request answer
  | @watched xs scope version w moves e a opened told event =>
    have hxs := run_chronicled limit xs
    have hstart : Reading.Truthful ⟨run limit xs, some w, []⟩ := by
      refine ⟨fun w' hw' => ?_, by simp⟩
      obtain rfl := Option.some.inj hw'
      exact hxs.faithful.backlog_subset opened
    have hobject : e.object? = some a := by rcases event with rfl | rfl <;> rfl
    have hpublished := (hstart.run hxs moves).told_published e told a hobject
    rw [Reading.run_store] at hpublished
    rw [run_append]
    exact ⟨e, hpublished, hobject⟩

/-- A request on the condition that a copy is what is stored is granted only if it is, finds a conflict
if another object or another version is stored, and finds nothing if nothing is stored. If the copy is
what is stored, the condition does not stand in its way. -/
theorem conditional_write_replaces_copy [LawfulResource α] (limit : Nat) (xs ys : List (Action α))
    (copy : α) (hcopy : Obtained limit xs copy) (x : Action α) (k : ObjectKey)
    (hk : x.target = some k) (hx : x.condition = some (Resource.versionText copy)) :
    let s := run limit (xs ++ ys)
    (∀ b, (x.request s).1 = .ok b → s.objects.get? k = some copy) ∧
    (∀ current, s.objects.get? k = some current → current ≠ copy →
      ∃ text, (x.request s).1 = .error (.conflict k.text text)) ∧
    (s.objects.get? k = none → (x.request s).1 = .error (.notFound (Resource.kind α) k.text)) ∧
    (s.objects.get? k = some copy → Unopposed (x.request s).1) := by
  intro s
  have hs : s.Faithful := (run_chronicled limit (xs ++ ys)).faithful
  have hpublished : s.HasPublished copy := hcopy.hasPublished.of_isPrefix (run_isPrefix limit xs ys)
  have hsame {current : α} (hstored : s.objects.get? k = some current) :
      Resource.versionText copy = Resource.versionText current ↔ copy = current :=
    ⟨hs.eq_of_published hpublished (hs.hasPublished_of_stored hstored), congrArg _⟩
  have hne : Resource.versionText copy ≠ "" := by
    obtain ⟨i, -, -, -, hversion⟩ := hs.version_of_published hpublished
    rw [hversion]
    exact Text.toString_ne_empty _
  rcases request_cases hx hk hne s with ⟨hnone, hanswer⟩ |
    ⟨current, hstored, hversion, text, hanswer⟩ | ⟨current, hstored, hversion, hanswer⟩
  · rw [hnone, hanswer]
    simp
  · have hother : copy ≠ current := fun h => hversion ((hsame hstored).mpr h)
    rw [hstored, hanswer]
    simp [hother.symm]
  · obtain rfl := (hsame hstored).mp hversion
    rw [hstored]
    simp [hanswer]

/-- A widget that is created, removed, and created again. -/
def recreation : List (Action Widget) :=
  let place : Action Widget := .create ⟨{ seconds := 0 }, "u"⟩ (some "default")
    { metadata := { name := some "a" }, spec := { replicas := 1 } }
  [place, .delete { seconds := 1 } ⟨some "default", "a"⟩, place]

/-- What is stored after the first of these actions. -/
def firstVersion : Widget where
  metadata := {
    name := some "a"
    ns := some "default"
    uid := some "u"
    resourceVersion := some "1"
    generation := some 1
    creationTimestamp := some { seconds := 0 } }
  spec := { replicas := 1 }

/-- A patch for the first version is granted only while that is stored. In between there is nothing to
patch, and the new object is not the old one, though it has the same spec. -/
theorem conditional_write_replaces_copy_recreated :
    let k : ObjectKey := ⟨some "default", "a"⟩
    let patch : Action Widget := .patch k (.obj [("metadata", .obj [("resourceVersion", .str "1")])])
    let answer (n : Nat) := (patch.request (run 2 (recreation.take n))).1
    (∃ b, answer 1 = .ok b) ∧ (run 2 (recreation.take 1)).objects.get? k = some firstVersion ∧
      answer 2 = .error (.notFound "Widget" k.text) ∧
      ∃ text, answer 3 = .error (.conflict k.text text) := by
  intro k patch answer
  have hruns : (answer 1).isOk = true ∧
      (run 2 (recreation.take 1)).objects.get? k = some firstVersion ∧
      (run 2 (recreation.take 2)).objects.get? k = none ∧
      ((run 2 recreation).objects.get? k).isSome = true ∧
      (run 2 recreation).objects.get? k ≠ some firstVersion := by
    decide +kernel
  obtain ⟨hgranted, hfirst, hnone, hsome, hother⟩ := hruns
  have hcopy : Obtained 2 (recreation.take 1) firstVersion :=
    .read (k := k) (by rw [get, hfirst])
  obtain ⟨b, hb⟩ : ∃ b, answer 1 = .ok b := by
    cases h : answer 1 with
    | error e => simp [h, Except.isOk, Except.toBool] at hgranted
    | ok b => exact ⟨b, rfl⟩
  obtain ⟨current, hcurrent⟩ := Option.isSome_iff_exists.mp hsome
  have happly (ys : List (Action Widget)) := conditional_write_replaces_copy 2 (recreation.take 1) ys
    firstVersion hcopy patch k rfl rfl
  refine ⟨⟨b, hb⟩, (happly []).1 b hb, (happly [recreation[1]]).2.2.1 hnone,
    (happly (recreation.drop 1)).2.1 current hcurrent ?_⟩
  rintro rfl
  exact hother hcurrent

end Store

end ControlLoop
