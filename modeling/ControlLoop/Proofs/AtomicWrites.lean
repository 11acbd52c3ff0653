import ControlLoop.Proofs.ObjectLife

/-!
# Requests are granted as a whole or not at all

A request works on the store in place. All of its checks come before its first change, so a request
that is refused leaves the store as it was, and one that is granted makes a single write: it takes one
revision, is counted once, and one event about the object it was made for is kept and sent out. Only a
second request for the removal of an object that waits for its finalizers is granted without a write.
-/
namespace ControlLoop

/-! ## Changing nothing -/

namespace Edit

variable {α β γ : Type}

/-- The request leaves the store as it is, whatever it answers. -/
def Inert (r : Edit α β) : Prop := ∀ s, (r s).2 = s

/-- The request leaves the store as it is if it is refused. -/
def Atomic (r : Edit α β) : Prop := ∀ s e, (r s).1 = .error e → (r s).2 = s

lemma bind_apply (r : Edit α β) (rest : β → Edit α γ) (s : Store α) :
    (r >>= rest) s = ExceptT.bindCont rest (r s).1 (r s).2 := rfl

lemma inert_check (check : Except ClientError β) : Inert (liftM check : Edit α β) := by
  intro s
  cases check <;> rfl

lemma inert_look (f : Store α → Except ClientError β) : Inert (look f) :=
  fun s => inert_check (f s) s

lemma atomic_modifyGet (f : Store α → β × Store α) : Atomic (modifyGet f : Edit α β) := by
  intro s e h
  exact absurd (show Except.ok (f s).1 = .error e from h) (by simp)

/-- What has only looked at the store may go on to anything that is atomic. -/
lemma Inert.bind {r : Edit α β} (h : Inert r) {rest : β → Edit α γ} (hrest : ∀ b, Atomic (rest b)) :
    Atomic (r >>= rest) := by
  intro s e he
  rw [bind_apply, h s] at he ⊢
  cases hr : (r s).1 with
  | error e => rfl
  | ok b =>
    rw [hr] at he
    exact hrest b s e he

/-- What is made of the answer does not matter to the store. -/
lemma bind_pure_apply (r : Edit α β) (f : β → γ) (s : Store α) :
    (do return f (← r) : Edit α γ) s = ((r s).1.map f, (r s).2) := by
  rw [bind_apply]
  cases (r s).1 <;> rfl

lemma Atomic.bind_pure {r : Edit α β} (h : Atomic r) (f : β → γ) :
    Atomic (do return f (← r) : Edit α γ) := by
  intro s e he
  rw [bind_pure_apply] at he ⊢
  cases hr : (r s).1 with
  | error e' => exact h s e' hr
  | ok b =>
    rw [hr] at he
    exact absurd he (by simp [Except.map])

variable [Resource α]

lemma atomic_replace (k : ObjectKey) (previous next : α) (keepStatus : Bool) :
    Atomic (replace k previous next keepStatus) := by
  refine (inert_check _).bind fun a => ?_
  simp only
  split <;> exact atomic_modifyGet _

lemma atomic_create (stamp : Stamp) (ns : Option String) (a : α) : Atomic (create stamp ns a) :=
  (inert_check _).bind fun _ => (inert_look _).bind fun _ => atomic_modifyGet _

lemma atomic_update (ns : Option String) (a : α) : Atomic (update ns a) :=
  (inert_look _).bind fun _ => (inert_check _).bind fun _ => atomic_replace _ _ _ _

lemma atomic_patch (k : ObjectKey) (p : Json) : Atomic (patch k p : Edit α α) :=
  (inert_look _).bind fun _ => (inert_check _).bind fun _ => (inert_check _).bind fun _ =>
    atomic_replace _ _ _ _

lemma atomic_updateStatus (k : ObjectKey) (status : Json) (version : Option String) :
    Atomic (updateStatus k status version : Edit α α) :=
  (inert_look _).bind fun _ => (inert_check _).bind fun _ => (inert_check _).bind fun _ =>
    atomic_replace _ _ _ _

lemma atomic_delete (now : Timestamp) (k : ObjectKey) : Atomic (delete now k : Edit α Unit) := by
  refine (inert_look _).bind fun a => ?_
  simp only
  split
  · exact atomic_modifyGet _
  · split
    · exact fun _ _ _ => rfl
    · exact atomic_modifyGet _

end Edit

/-! ## Requests and the actions they stand for -/

namespace Store

variable {α β : Type} {s t : Store α}

lemma outcome_eq_ok_iff {r : Edit α β} {b : β} : s.outcome r = .ok (b, t) ↔ r s = (.ok b, t) := by
  rw [outcome]
  rcases r s with ⟨e | c, u⟩
  · exact ⟨fun h => absurd h (by simp), fun h => absurd (congrArg Prod.fst h) (by simp)⟩
  · constructor
    · rintro ⟨⟩
      rfl
    · rintro ⟨⟩
      rfl

lemma outcome_eq_error_iff {r : Edit α β} {e : ClientError} :
    s.outcome r = .error e ↔ (r s).1 = .error e := by
  rw [outcome]
  rcases r s with ⟨e' | c, u⟩ <;> simp

variable [Resource α] {x : Action α} {k : ObjectKey}

namespace Action

/-- What an action asks of the store in place. The answer is the object that was written, where there
is one. -/
def request : Action α → Edit α (Option α)
  | .create stamp ns a => do return some (← Edit.create stamp ns a)
  | .update ns a => do return some (← Edit.update ns a)
  | .patch k p => do return some (← Edit.patch k p)
  | .updateStatus k status version => do return some (← Edit.updateStatus k status version)
  | .delete now k => do
    let _ ← Edit.delete now k
    return none
  | .disconnect => modifyGet fun s => (none, s.disconnect)
  | .compact => modifyGet fun s => (none, s.compact)

/-- The key of the object that a request is about. -/
def target : Action α → Option ObjectKey
  | .create _ ns a => some ⟨ns, (Resource.metadata a).name.getD ""⟩
  | .update ns a => some ⟨ns, (Resource.metadata a).name.getD ""⟩
  | .patch k _ => some k
  | .updateStatus k _ _ => some k
  | .delete _ k => some k
  | .disconnect => none
  | .compact => none

/-- The request is for the removal of an object that is marked for it and waits for its finalizers. -/
def Repeats (s : Store α) : Action α → Prop
  | .delete _ k => s.Waits k
  | _ => False

end Action

lemma atomic_request (x : Action α) : x.request.Atomic := by
  cases x with
  | create stamp ns a => exact (Edit.atomic_create stamp ns a).bind_pure _
  | update ns a => exact (Edit.atomic_update ns a).bind_pure _
  | patch k p => exact (Edit.atomic_patch k p).bind_pure _
  | updateStatus k status version => exact (Edit.atomic_updateStatus k status version).bind_pure _
  | delete now k => exact (Edit.atomic_delete now k).bind_pure _
  | disconnect => exact Edit.atomic_modifyGet _
  | compact => exact Edit.atomic_modifyGet _

/-- The store after a request in place is the store after the action. -/
lemma request_snd (s : Store α) (x : Action α) : (x.request s).2 = s.act x := by
  have hwrite (r : Edit α α) (hr : r.Atomic) : (r s).2 = s.after (s.outcome r) := by
    rcases hrun : r s with ⟨e | b, t⟩
    · have hsame := hr s e (by rw [hrun])
      rw [hrun] at hsame
      rw [outcome_eq_error_iff.mpr (by rw [hrun])]
      exact hsame
    · rw [outcome_eq_ok_iff.mpr hrun]
      rfl
  cases x with
  | create stamp ns a =>
    rw [Action.request, Edit.bind_pure_apply]
    exact hwrite _ (Edit.atomic_create stamp ns a)
  | update ns a =>
    rw [Action.request, Edit.bind_pure_apply]
    exact hwrite _ (Edit.atomic_update ns a)
  | patch k p =>
    rw [Action.request, Edit.bind_pure_apply]
    exact hwrite _ (Edit.atomic_patch k p)
  | updateStatus k status version =>
    rw [Action.request, Edit.bind_pure_apply]
    exact hwrite _ (Edit.atomic_updateStatus k status version)
  | delete now k =>
    rw [Action.request, Edit.bind_pure_apply, act]
    rcases hrun : (Edit.delete now k : Edit α Unit) s with ⟨e | b, t⟩
    · have hsame := Edit.atomic_delete now k s e (by rw [hrun])
      rw [hrun] at hsame
      rw [delete, outcome_eq_error_iff.mpr (by rw [hrun])]
      exact hsame
    · rw [delete, outcome_eq_ok_iff.mpr hrun]
      rfl
  | disconnect => rfl
  | compact => rfl

omit [Resource α] in
lemma outcome_of_answer {γ : Type} {r : Edit α β} {f : β → γ} {c : γ}
    (h : ((do return f (← r) : Edit α γ) s).1 = .ok c) :
    ∃ b, f b = c ∧ s.outcome r = .ok (b, ((do return f (← r) : Edit α γ) s).2) := by
  rw [Edit.bind_pure_apply] at h ⊢
  obtain ⟨b, hb, rfl⟩ := map_eq_ok h
  exact ⟨b, rfl, outcome_eq_ok_iff.mpr (by rw [← hb]; rfl)⟩

/-- What a request that is granted has done, and what it answers. -/
inductive Granted (s : Store α) (x : Action α) (k : ObjectKey) : Option α → Prop
  /-- It has created the object. -/
  | created {stamp : Stamp} {ns : Option String} {object b : α} (asked : x = .create stamp ns object)
      (address : k = ⟨ns, (Resource.metadata object).name.getD ""⟩)
      (done : s.create stamp ns object = .ok (b, s.act x)) : Granted s x k (some b)
  /-- It has put another one in the place of the object. -/
  | replaced {current next b : α} {keepStatus : Bool} (new : ¬ x.Repeats s)
      (before : s.objects.get? k = some current)
      (done : s.replace k current next keepStatus = .ok (b, s.act x)) : Granted s x k (some b)
  /-- It has asked for the removal of the object. -/
  | deleted {now : Timestamp} (asked : x = .delete now k)
      (done : s.delete now k = .ok (s.act x)) : Granted s x k none

lemma granted_of_answer (hx : x.target = some k) {answer : Option α}
    (h : (x.request s).1 = .ok answer) : s.Granted x k answer := by
  have hact := request_snd s x
  cases x with
  | create stamp ns a =>
    obtain ⟨b, rfl, hb⟩ := outcome_of_answer h
    rw [← Action.request, hact] at hb
    exact .created rfl (Option.some.inj hx).symm hb
  | update ns a =>
    obtain ⟨b, rfl, hb⟩ := outcome_of_answer h
    rw [← Action.request, hact] at hb
    obtain ⟨j, current, rfl, hget, -, hreplace⟩ := update_ok hb
    obtain rfl := Option.some.inj hx
    exact .replaced id hget hreplace
  | patch j p =>
    obtain ⟨b, rfl, hb⟩ := outcome_of_answer h
    rw [← Action.request, hact] at hb
    obtain ⟨current, next, hget, -, -, hreplace⟩ := patch_ok hb
    obtain rfl := Option.some.inj hx
    exact .replaced id hget hreplace
  | updateStatus j status version =>
    obtain ⟨b, rfl, hb⟩ := outcome_of_answer h
    rw [← Action.request, hact] at hb
    obtain ⟨current, next, hget, -, -, hreplace⟩ := updateStatus_ok hb
    obtain rfl := Option.some.inj hx
    exact .replaced id hget hreplace
  | delete now j =>
    obtain ⟨b, rfl, hb⟩ := outcome_of_answer h
    obtain rfl := Option.some.inj hx
    refine .deleted rfl ?_
    rw [← hact, delete, hb]
    rfl
  | disconnect => simp [Action.target] at hx
  | compact => simp [Action.target] at hx

/-- A request that is granted has written the object that it is about, unless it repeats one for a
removal. -/
lemma request_granted [LawfulResource α] (hs : s.Keyed) (hx : x.target = some k) {b : Option α}
    (h : (x.request s).1 = .ok b) :
    x.Repeats s ∧ s.act x = s ∨ ¬ x.Repeats s ∧ s.Wrote k (s.act x) := by
  cases granted_of_answer hx h with
  | created asked address done =>
    subst asked address
    exact .inr ⟨id, create_wrote done⟩
  | replaced new before done => exact .inr ⟨new, replace_wrote (hs _ _ before) before done⟩
  | deleted asked done =>
    subst asked
    exact delete_wrote hs done

/-- A request for the removal of an object that waits for its finalizers is granted and changes
nothing. -/
lemma request_of_waits (now : Timestamp) (h : s.Waits k) :
    (Action.delete now k).request s = (.ok none, s) := by
  obtain ⟨a, hstored, hmarked, hheld⟩ := h
  have hget : s.get k = .ok a := by simp only [get, hstored]
  have hdelete : s.outcome (Edit.delete now k) = .ok ((), s) := by
    rw [Edit.delete, outcome_look, hget]
    simp only [Except.bind, if_neg hheld, if_pos hmarked]
    rfl
  rw [Action.request, Edit.bind_pure_apply, outcome_eq_ok_iff.mp hdelete]
  rfl

/-! ## What one write does -/

lemma act_historyLimit [LawfulResource α] (hs : s.Keyed) (x : Action α) :
    (s.act x).historyLimit = s.historyLimit := by
  rcases act_cases hs x with h | ⟨e, a, -, -, h⟩ | h | h <;> rw [h] <;> rfl

lemma run_historyLimit [LawfulResource α] (limit : Nat) (actions : List (Action α)) :
    (run limit actions).historyLimit = max limit 1 := by
  induction actions using List.reverseRecOn with
  | nil => rfl
  | append_singleton actions x ih =>
    rw [run_concat, act_historyLimit (run_chronicled limit actions).faithful.keyed, ih]

/-- One store comes from another by a single write of the object of a key, of which the event tells. -/
structure OneWrite (s t : Store α) (k : ObjectKey) (e : WatchEvent α) : Prop where
  revision_eq : t.revision = s.revision + 1
  writes_eq : t.writes = s.writes + 1
  /-- The event is about the object of the key, which has the new revision as its version. -/
  event_object : ∃ a, e.object? = some a ∧ Resource.key a = k ∧
    Resource.versionText a = toString t.revision
  objects_eq : t.objects = e.apply s.objects
  others_kept : ∀ j, j ≠ k → t.objects.get? j = s.objects.get? j
  /-- It is sent out, and nothing else is. -/
  published_eq : t.published = s.published ++ [e]
  /-- It is kept as the last of the history, for which the oldest events may have to go. -/
  history_eq : ∃ n ≤ s.history.length, t.history = s.history.drop n ++ [(t.revision, e)]
  /-- It is the only event that is kept with the new revision. -/
  recorded_iff : ∀ e', (t.revision, e') ∈ t.history ↔ e' = e
  disconnections_eq : t.disconnections = s.disconnections

lemma Wrote.oneWrite (h : s.Wrote k t) (hs : s.Faithful) (hlimit : 1 ≤ s.historyLimit) :
    ∃ e, OneWrite s t k e := by
  obtain ⟨e, a, ha, hk, hversion, -, rfl⟩ := h
  have hhistory : ∃ n ≤ s.history.length,
      (s.publish e).history = s.history.drop n ++ [(s.revision + 1, e)] := by
    refine ⟨s.history.length + 1 - s.historyLimit, by omega, ?_⟩
    rw [publish_history, List.drop_append_of_le_length (by omega)]
  refine ⟨e, rfl, rfl, ⟨a, ha, hk, hversion⟩, rfl, ?_, rfl, hhistory, ?_, rfl⟩
  · intro j hj
    exact WatchEvent.get?_apply_ne s.objects ha (by rw [hk]; exact hj.symm)
  · intro e'
    obtain ⟨n, -, hn⟩ := hhistory
    rw [hn]
    constructor
    · intro hmem
      rcases List.mem_append.mp hmem with hold | hnew
      · have hrevision : s.revision + 1 ∈ s.history.map (·.1) :=
          List.mem_map.mpr ⟨_, List.mem_of_mem_drop hold, rfl⟩
        have holdest := hs.oldest_le
        rw [hs.history_revisions, List.mem_range'_1] at hrevision
        omega
      · exact congrArg Prod.snd (List.mem_singleton.mp hnew)
    · rintro rfl
      exact List.mem_append_right _ (List.mem_singleton.mpr rfl)

/-- In every store that actions lead to, a request that is refused leaves everything as it was, one for
a removal that waits for finalizers already is granted and leaves everything as it was, and any other
that is granted makes a single write of the object it is about. -/
theorem request_granted_whole_or_refused [LawfulResource α] (limit : Nat)
    (actions : List (Action α)) (x : Action α) (k : ObjectKey) (hx : x.target = some k) :
    let s := run limit actions
    (∀ e, (x.request s).1 = .error e → (x.request s).2 = s) ∧
    (x.Repeats s → (x.request s).1 = .ok none ∧ (x.request s).2 = s) ∧
    (¬ x.Repeats s → ∀ b, (x.request s).1 = .ok b → ∃ e, OneWrite s (x.request s).2 k e) := by
  intro s
  have hs : s.Faithful := (run_chronicled limit actions).faithful
  have hlimit : 1 ≤ s.historyLimit := by
    rw [run_historyLimit]
    exact le_max_right limit 1
  refine ⟨atomic_request x s, fun hrepeats => ?_, fun hnew b hb => ?_⟩
  · cases x with
    | delete now j =>
      rw [request_of_waits now hrepeats]
      exact ⟨rfl, rfl⟩
    | create | update | patch | updateStatus | disconnect | compact => exact hrepeats.elim
  · rw [request_snd]
    rcases request_granted hs.keyed hx hb with ⟨hrepeats, -⟩ | ⟨-, hwrote⟩
    · exact absurd hrepeats hnew
    · exact hwrote.oneWrite hs hlimit

/-- A widget with a finalizer is created, another one beside it, and the first one is marked for
removal. -/
def markedBesideAnother : List (Action Widget) :=
  let place (name : String) (finalizers : Option (List String)) : Action Widget :=
    .create ⟨{ seconds := 0 }, name⟩ (some "default")
      { metadata := { name := some name, finalizers := finalizers }, spec := { replicas := 1 } }
  [place "a" (some ["f"]), place "b" none, .delete { seconds := 1 } ⟨some "default", "a"⟩]

/-- The mark is not set a second time, a write for an old version is refused, and the write that takes
the last finalizer is granted. -/
theorem request_granted_whole_or_refused_marked :
    let s := run 1 markedBesideAnother
    let k : ObjectKey := ⟨some "default", "a"⟩
    let again : Action Widget := .delete { seconds := 2 } k
    let stale : Action Widget := .updateStatus k (.obj []) (some "1")
    let release : Action Widget := .patch k (.obj [("metadata", .obj [("finalizers", .null)])])
    (again.request s).2 = s ∧ (stale.request s).2 = s ∧
      ∃ e, OneWrite s (release.request s).2 k e := by
  intro s k again stale release
  have hruns : s.Waits k ∧ (stale.request s).1.isOk = false ∧ (release.request s).1.isOk = true := by
    decide +kernel
  obtain ⟨hwaits, hstale, hrelease⟩ := hruns
  obtain ⟨e, he⟩ : ∃ e, (stale.request s).1 = .error e := by
    cases h : (stale.request s).1 with
    | error e => exact ⟨e, rfl⟩
    | ok b => simp [h, Except.isOk, Except.toBool] at hstale
  obtain ⟨b, hb⟩ : ∃ b, (release.request s).1 = .ok b := by
    cases h : (release.request s).1 with
    | error e => simp [h, Except.isOk, Except.toBool] at hrelease
    | ok b => exact ⟨b, rfl⟩
  exact ⟨((request_granted_whole_or_refused 1 markedBesideAnother again k rfl).2.1 hwaits).2,
    (request_granted_whole_or_refused 1 markedBesideAnother stale k rfl).1 e he,
    (request_granted_whole_or_refused 1 markedBesideAnother release k rfl).2.2 id b hb⟩

end Store

end ControlLoop
