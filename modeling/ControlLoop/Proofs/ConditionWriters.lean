import ControlLoop.Proofs.StoredConditions

/-!
# Writers of conditions

Any number of clients read a widget, and later set conditions over the copies that they have read, while
others write to the widget as well. Each of them writes the whole list of conditions, but only over the
version that it has read. So what is set over an old copy is refused, and what is set over the stored
widget changes one condition and leaves the others.
-/
namespace ControlLoop

/-! ## One condition of a list -/

namespace Condition

variable {now : String} {c d o : Condition} {l : List Condition} {t : String}

/-- The conditions report the same, whenever it came to be so. -/
structure Agrees (c d : Condition) : Prop where
  type_eq : c.type = d.type
  status_eq : c.status = d.status
  reason_eq : c.reason = d.reason
  message_eq : c.message = d.message
  observedGeneration_eq : c.observedGeneration = d.observedGeneration

lemma stamped_agrees (now : String) (old : Option Condition) (c : Condition) :
    (c.stamped now old).Agrees c := by
  unfold stamped
  split <;> exact ⟨rfl, rfl, rfl, rfl, rfl⟩

/-- The first condition of the type is then the one that was set. -/
lemma find?_set_self (now : String) (c : Condition) (l : List Condition) :
    ∃ d, (c.set now l).find? (·.type = c.type) = some d ∧ d.Agrees c := by
  induction l with
  | nil =>
    have hagrees := stamped_agrees now none c
    exact ⟨_, by simp [set, hagrees.type_eq], hagrees⟩
  | cons o l ih =>
    rw [set]
    split
    next ho =>
      have hagrees := stamped_agrees now (some o) c
      exact ⟨_, by simp [hagrees.type_eq], hagrees⟩
    next ho =>
      obtain ⟨d, hd, hagrees⟩ := ih
      exact ⟨d, by simpa [ho] using hd, hagrees⟩

/-- The conditions of other types stay as they are. -/
lemma filter_set {p : String → Bool} (hp : p c.type = false) :
    (c.set now l).filter (fun d => p d.type) = l.filter fun d => p d.type := by
  induction l with
  | nil => simp [set, (stamped_agrees now none c).type_eq, hp]
  | cons o l ih =>
    rw [set]
    split
    next ho => simp [(stamped_agrees now (some o) c).type_eq, ho, hp]
    next ho => simp [List.filter_cons, ih]

lemma find?_set_of_ne (ht : c.type ≠ t) :
    (c.set now l).find? (·.type = t) = l.find? (·.type = t) := by
  rw [← List.head?_filter, ← List.head?_filter]
  exact congrArg _ (filter_set (p := fun type => type = t) (by simpa using ht))

/-- Every condition stays in its place, and only the first one of the type is changed. -/
lemma getElem?_set (now : String) (c : Condition) {i : Nat} (hi : l[i]? = some o) :
    ∃ d, (c.set now l)[i]? = some d ∧ d.type = o.type ∧
      (d = o ∨ o.type = c.type ∧ o.type ∉ (l.take i).map type) := by
  induction l generalizing i with
  | nil => simp at hi
  | cons first l ih =>
    rw [set]
    cases i with
    | zero =>
      obtain rfl : first = o := by simpa using hi
      split
      next ho =>
        exact ⟨_, rfl, (stamped_agrees now (some first) c).type_eq.trans ho.symm, .inr ⟨ho, by simp⟩⟩
      next ho => exact ⟨first, rfl, rfl, .inl rfl⟩
    | succ i =>
      rw [List.getElem?_cons_succ] at hi
      split
      next ho => exact ⟨o, hi, rfl, .inl rfl⟩
      next ho =>
        obtain ⟨d, hd, htype, hchange⟩ := ih hi
        refine ⟨d, hd, htype, hchange.imp_right fun ⟨hc, hfirst⟩ => ⟨hc, ?_⟩⟩
        rw [List.take_succ_cons, List.map_cons, List.mem_cons, not_or]
        exact ⟨fun h => ho (h.symm.trans hc), hfirst⟩

/-- What is left of some conditions after others have been set, the latest of which comes first. -/
structure Recorded (initial written current : List Condition) : Prop where
  /-- The first condition of a type that has been set is the one that was set last. -/
  latest : ∀ t c, written.find? (·.type = t) = some c →
    ∃ d, current.find? (·.type = t) = some d ∧ d.Agrees c
  /-- The conditions of other types are what they were. -/
  others : (current.filter fun d => d.type ∉ written.map type) =
    initial.filter fun d => d.type ∉ written.map type
  /-- Every condition is in its place, and has changed only if it was the first one of a type that has
  been set. -/
  placed : ∀ (i : Nat) o, initial[i]? = some o → ∃ d, current[i]? = some d ∧ d.type = o.type ∧
    (d = o ∨ o.type ∈ written.map type ∧ o.type ∉ (initial.take i).map type)

variable {initial written current : List Condition}

lemma recorded_refl (l : List Condition) : Recorded l [] l :=
  ⟨by simp, rfl, fun _ o ho => ⟨o, ho, rfl, .inl rfl⟩⟩

lemma Recorded.types_isPrefix (h : Recorded initial written current) :
    initial.map type <+: current.map type := by
  rw [List.prefix_iff_getElem?]
  intro i hi
  rw [List.length_map] at hi
  obtain ⟨d, hd, htype, -⟩ := h.placed i _ (List.getElem?_eq_getElem hi)
  simp [hd, htype]

/-- One more condition is set. -/
lemma Recorded.set (h : Recorded initial written current) (now : String) (c : Condition) :
    Recorded initial (c :: written) (c.set now current) := by
  refine ⟨fun t c' hc' => ?_, ?_, fun i o ho => ?_⟩
  · by_cases ht : c.type = t
    · obtain rfl : c = c' := by simpa [ht] using hc'
      rw [← ht]
      exact find?_set_self now c current
    · rw [find?_set_of_ne ht]
      exact h.latest t c' (by simpa [ht] using hc')
  · have hboth (l : List Condition) : (l.filter fun d => d.type ∉ (c :: written).map type) =
        (l.filter fun d => d.type ∉ written.map type).filter fun d => d.type ≠ c.type := by
      rw [List.filter_filter]
      congr 1
      funext d
      simp
    rw [filter_set (p := fun t => t ∉ (c :: written).map type) (by simp), hboth, h.others, ← hboth]
  · obtain ⟨d, hd, htype, hchange⟩ := h.placed i o ho
    obtain ⟨d', hd', htype', hchange'⟩ := getElem?_set now c hd
    refine ⟨d', hd', htype'.trans htype, ?_⟩
    rcases hchange' with rfl | ⟨hc, hfirst⟩
    · exact hchange.imp_right fun ⟨hmem, hfirst⟩ => ⟨List.mem_cons_of_mem _ hmem, hfirst⟩
    · refine .inr ⟨?_, fun hmem => hfirst ?_⟩
      · rw [← htype, hc]
        exact List.mem_cons_self
      · rw [htype, List.map_take]
        exact (h.types_isPrefix.take i).subset (List.map_take ▸ hmem)

end Condition

/-! ## Requests over a copy -/

namespace Store

variable {α : Type} [Resource α] {s : Store α} {x : Action α} {k : ObjectKey} {a : α}

lemma Faithful.resourceVersion_of_published (h : s.Faithful) (ha : s.HasPublished a) :
    (Resource.metadata a).resourceVersion = some (Resource.versionText a) := by
  have hgiven := h.versionText_ne_empty ha
  rw [Resource.versionText] at hgiven ⊢
  cases hm : (Resource.metadata a).resourceVersion with
  | none => exact absurd (by rw [hm]; rfl) hgiven
  | some version => rfl

/-- A request on the condition that a copy is what is stored is refused for what it says only if the
copy is stored, and otherwise for that. -/
lemma Faithful.request_over_copy (h : s.Faithful) (ha : s.HasPublished a)
    (hx : x.condition = some (Resource.versionText a)) (hk : x.target = some k) :
    s.objects.get? k = some a ∧ Unopposed (x.request s).1 ∨
    s.objects.get? k ≠ some a ∧ ∃ e, (x.request s).1 = .error e ∧
      ((∃ text, e = .conflict k.text text) ∨ e = .notFound (Resource.kind α) k.text) := by
  rcases request_cases hx hk (h.versionText_ne_empty ha) s with ⟨hnone, hanswer⟩ |
    ⟨current, hstored, hversion, text, hanswer⟩ | ⟨current, hstored, hversion, hanswer⟩
  · exact .inr ⟨by simp [hnone], _, hanswer, .inr rfl⟩
  · refine .inr ⟨fun hcopy => hversion ?_, _, hanswer, .inl ⟨text, rfl⟩⟩
    rw [Option.some.inj (hstored.symm.trans hcopy)]
  · obtain rfl := h.eq_of_published ha (h.hasPublished_of_stored hstored) hversion
    exact .inl ⟨hstored, hanswer⟩

end Store

/-! ## Interleavings -/

/-- A cluster, and the copies of one of its widgets that writers have read. -/
structure ConditionWriters where
  cluster : Cluster
  copies : Nat → Option Widget := fun _ => none

namespace ConditionWriters

/-- What can happen next. -/
inductive Move where
  /-- A writer reads the widget. -/
  | read (writer : Nat)
  /-- A writer sets a condition over its copy. -/
  | set (writer : Nat) (c : Condition)
  /-- Another client makes a request on the widgets. -/
  | act (action : Store.Action Widget)
  /-- Time passes. -/
  | pass (date : Timestamp)

/-- The conditions of a widget that the move brings fit. -/
def Move.Fits : Move → Prop
  | .act action => action.Fits
  | _ => True

instance : (m : Move) → Decidable m.Fits
  | .act action => inferInstanceAs (Decidable action.Fits)
  | .read _ | .set _ _ | .pass _ => inferInstanceAs (Decidable True)

/-- Whether the move is a request of another client. -/
def Move.isForeign : Move → Bool
  | .act _ => true
  | _ => false

variable {k : ObjectKey} {limit : Nat} {x y : ConditionWriters} {w : Widget} {c : Condition}

/-- The widget that is stored. -/
def stored (x : ConditionWriters) (k : ObjectKey) : Option Widget := x.cluster.widgets.objects.get? k

def move (k : ObjectKey) (x : ConditionWriters) : Move → ConditionWriters
  | .read n =>
    let answer := Session.get Widget k x.cluster
    ⟨answer.2, Function.update x.copies n answer.1.toOption⟩
  | .set n c =>
    match x.copies n with
    | none => x
    | some copy => { x with cluster := (Status.updateCondition copy c x.cluster).2 }
  | .act action =>
    { x with cluster := { x.cluster with widgets := x.cluster.widgets.act action } }
  | .pass date => { x with cluster := { x.cluster with date := date } }

def after (k : ObjectKey) (x : ConditionWriters) (moves : List Move) : ConditionWriters :=
  moves.foldl (move k) x

/-- The condition that a move sets, if it succeeds. -/
def sets (x : ConditionWriters) : Move → List Condition
  | .set n c =>
    match x.copies n with
    | none => []
    | some copy => if (Status.updateCondition copy c x.cluster).1.isOk then [c] else []
  | _ => []

/-- The conditions that are set successfully, the latest first. -/
def written (k : ObjectKey) : ConditionWriters → List Move → List Condition
  | _, [] => []
  | x, m :: moves => written k (x.move k m) moves ++ x.sets m

/-- Requests of other clients leave the conditions of the widget as they are. -/
def Undisturbed (k : ObjectKey) : ConditionWriters → List Move → Prop
  | _, [] => True
  | x, m :: moves =>
    (m.isForeign = true →
      ((x.move k m).stored k).map Widget.conditionList = (x.stored k).map Widget.conditionList) ∧
    Undisturbed k (x.move k m) moves

instance decidableUndisturbed (k : ObjectKey) :
    ∀ (x : ConditionWriters) (moves : List Move), Decidable (x.Undisturbed k moves)
  | _, [] => inferInstanceAs (Decidable True)
  | x, m :: moves =>
    have := decidableUndisturbed k (x.move k m) moves
    inferInstanceAs (Decidable ((m.isForeign = true →
      ((x.move k m).stored k).map Widget.conditionList = (x.stored k).map Widget.conditionList) ∧
      Undisturbed k (x.move k m) moves))

/-- What holds of all interleavings. -/
structure Sound (limit : Nat) (k : ObjectKey) (x : ConditionWriters) : Prop where
  calm : x.cluster.faults = []
  reached : ∃ actions : List (Store.Action Widget), (∀ action ∈ actions, action.Fits) ∧
    x.cluster.widgets = Store.run limit actions
  /-- The copies have been stored under the key. -/
  copied : ∀ n w, x.copies n = some w →
    x.cluster.widgets.HasPublished w ∧ w.Fits ∧ Finalizer.target w = k

lemma Sound.faithful (h : x.Sound limit k) : x.cluster.widgets.Faithful := by
  obtain ⟨actions, -, hrun⟩ := h.reached
  rw [hrun]
  exact (Store.run_chronicled limit actions).faithful

/-- What is stored may be read. -/
lemma Sound.readable (h : x.Sound limit k) (hw : x.stored k = some w) :
    x.cluster.widgets.HasPublished w ∧ w.Fits ∧ Finalizer.target w = k := by
  refine ⟨h.faithful.hasPublished_of_stored hw, ?_⟩
  obtain ⟨actions, hfits, hrun⟩ := h.reached
  rw [stored, hrun] at hw
  refine ⟨Store.run_fits limit hfits hw, ?_⟩
  obtain ⟨hns, hname, -⟩ := Store.run_standing limit actions hw
  rw [Finalizer.target, hns, Metadata.displayName, hname]
  rfl

/-- The widgets are as before, or as another action leaves them. -/
lemma Sound.next (h : x.Sound limit k) (hcalm : y.cluster.faults = [])
    (hwidgets : y.cluster.widgets = x.cluster.widgets ∨
      ∃ action : Store.Action Widget, action.Fits ∧
        y.cluster.widgets = x.cluster.widgets.act action)
    (hcopies : ∀ n w, y.copies n = some w → x.copies n = some w ∨ x.stored k = some w) :
    y.Sound limit k := by
  obtain ⟨actions, hfits, hrun⟩ := h.reached
  have hpublished : x.cluster.widgets.published <+: y.cluster.widgets.published := by
    rcases hwidgets with hsame | ⟨action, -, hact⟩
    · rw [hsame]
    · rw [hact, hrun, ← Store.run_concat]
      exact Store.run_isPrefix limit actions [action]
  refine ⟨hcalm, ?_, fun n w hw => ?_⟩
  · rcases hwidgets with hsame | ⟨action, haction, hact⟩
    · exact ⟨actions, hfits, hsame.trans hrun⟩
    · refine ⟨actions ++ [action], ?_, by rw [hact, hrun, Store.run_concat]⟩
      intro a ha
      rcases List.mem_append.mp ha with hold | hnew
      · exact hfits a hold
      · rwa [List.mem_singleton.mp hnew]
  · have hread : x.cluster.widgets.HasPublished w ∧ w.Fits ∧ Finalizer.target w = k :=
      (hcopies n w hw).elim (h.copied n w) h.readable
    exact ⟨hread.1.of_isPrefix hpublished, hread.2⟩

/-- What comes of setting a condition over a copy: it is granted if the copy is what is stored, and then
changes that condition, or it is refused and changes nothing. An old copy is the reason for a refusal if
there is one. -/
inductive Settled (k : ObjectKey) (x : ConditionWriters) (w : Widget) (c : Condition)
    (answer : Except ClientError Widget × Cluster) : Prop
  | granted (b : Widget) (action : Store.Action Widget) (ok : answer.1 = .ok b)
      (before : x.stored k = some w) (fits : action.Fits)
      (acted : answer.2.widgets = x.cluster.widgets.act action)
      (after : answer.2.widgets.objects.get? k = some b)
      (conditions : b.conditionList = c.set x.cluster.date.render w.conditionList)
      (calm : answer.2.faults = [])
  | refused (e : ClientError) (error : answer.1 = .error e)
      (same : answer.2.widgets = x.cluster.widgets)
      (reason : x.stored k ≠ some w →
        (∃ text, e = .conflict k.text text) ∨ e = .notFound (Resource.kind Widget) k.text)
      (invalid : x.stored k = some w → ∃ text, e = .invalid text)
      (calm : answer.2.faults = [])

lemma Sound.settled (h : x.Sound limit k) {n : Nat} (hw : x.copies n = some w) (c : Condition) :
    Settled k x w c (Status.updateCondition w c x.cluster) := by
  obtain ⟨hpublished, hfits, htarget⟩ := h.copied n w hw
  have hversion : w.metadata.resourceVersion = some (Resource.versionText w) :=
    h.faithful.resourceVersion_of_published hpublished
  obtain ⟨actions, -, hrun⟩ := h.reached
  rw [Status.updateCondition_eq hfits, htarget, hversion]
  generalize hlist : c.set x.cluster.date.render w.conditionList = l
  let action : Store.Action Widget :=
    .updateStatus k (Status.ofConditions l) (some (Resource.versionText w))
  have hanswer : (action.request x.cluster.widgets).1 = (x.cluster.widgets.updateStatus k
      (Status.ofConditions l) (some (Resource.versionText w))).map fun p => some p.1 :=
    Store.answer_eq _ some _
  have hcopy := h.faithful.request_over_copy hpublished (x := action) rfl rfl
  have hreply : Session.Reply x.cluster _ (x.cluster.widgets.updateStatus k _ _) :=
    Session.updateStatus_reply k (Status.ofConditions l) (some (Resource.versionText w)) x.cluster
  cases hreply with
  | refused e error same reason calm =>
    rw [reason h.calm] at hanswer
    obtain ⟨hstored, hunopposed⟩ | ⟨hother, e', herror, hreason⟩ := hcopy
    · exact .refused e error same (fun hother => absurd hstored hother)
        (fun _ => hunopposed e hanswer) (calm h.calm)
    · obtain rfl : e = e' := Except.error.inj (hanswer.symm.trans herror)
      exact .refused e error same (fun _ => hreason) (fun hstored => absurd hstored hother)
        (calm h.calm)
  | granted b t ok value stored calm =>
    rw [ok] at hanswer
    obtain ⟨hstored, -⟩ | ⟨-, e', herror, -⟩ := hcopy
    · -- A marked widget has finalizers, so the write does not remove it.
      have hheld (v : Widget) (hv : x.cluster.widgets.objects.get? k = some v) :
          v.metadata.isTerminating = true → v.metadata.finalizerList ≠ [] :=
        Store.run_held limit actions (hrun ▸ hv)
      obtain ⟨hconditions, hafter⟩ := Status.conditions_of_updateStatus ok hheld
      have hact : x.cluster.widgets.act action = t := by
        simp only [Store.act, action, ok, Store.after]
      refine .granted b action value hstored trivial (stored.trans hact.symm) ?_
        (hconditions.trans hlist.symm) (calm h.calm)
      rw [← hafter, ← stored]
      rfl
    · cases hanswer.symm.trans herror

/-! ## One move -/

lemma Sound.read (h : x.Sound limit k) (n : Nat) :
    (x.move k (.read n)).cluster.widgets = x.cluster.widgets ∧
      (x.move k (.read n)).cluster.faults = [] ∧
      ∀ i w, (x.move k (.read n)).copies i = some w → x.copies i = some w ∨ x.stored k = some w := by
  have hanswer {answer : Except ClientError Widget × Cluster}
      (hreply : Session.Reply x.cluster answer
        ((x.cluster.widgets.get k).map fun w => (w, x.cluster.widgets))) :
      answer.2.widgets = x.cluster.widgets ∧ answer.2.faults = [] ∧
        ∀ w, answer.1.toOption = some w → x.stored k = some w := by
    cases hreply with
    | refused e error same reason calm =>
      refine ⟨same, calm h.calm, fun w hw => ?_⟩
      rw [error] at hw
      cases hw
    | granted b t ok value stored calm =>
      obtain ⟨v, hv, hvalue⟩ := Store.map_eq_ok ok
      obtain ⟨rfl, rfl⟩ := Prod.mk.inj hvalue
      refine ⟨stored, calm h.calm, fun w hw => ?_⟩
      rw [value] at hw
      rw [← show v = w from Option.some.inj hw]
      exact Store.get?_of_get hv
  obtain ⟨hwidgets, hcalm, hstored⟩ := hanswer (Session.get_reply k x.cluster)
  refine ⟨hwidgets, hcalm, fun i w hw => ?_⟩
  by_cases hi : i = n
  · subst hi
    refine .inr (hstored w ?_)
    simpa only [ConditionWriters.move, Function.update_self] using hw
  · refine .inl ?_
    simpa only [ConditionWriters.move, Function.update_of_ne hi] using hw

lemma Sound.move (h : x.Sound limit k) {m : Move} (hm : m.Fits) : (x.move k m).Sound limit k := by
  cases m with
  | read n =>
    obtain ⟨hwidgets, hcalm, hcopies⟩ := h.read n
    exact h.next hcalm (.inl hwidgets) hcopies
  | set n c =>
    cases hn : x.copies n with
    | none =>
      simp only [ConditionWriters.move, hn]
      exact h
    | some w =>
      simp only [ConditionWriters.move, hn]
      cases h.settled hn c with
      | granted b action ok before fits acted after conditions calm =>
        exact h.next calm (.inr ⟨action, fits, acted⟩) fun _ _ => .inl
      | refused e error same reason invalid calm => exact h.next calm (.inl same) fun _ _ => .inl
  | act action => exact h.next h.calm (.inr ⟨action, hm, rfl⟩) fun _ _ => .inl
  | pass date => exact h.next h.calm (.inl rfl) fun _ _ => .inl

/-- A move keeps the record of the conditions. -/
lemma Sound.recorded_move (h : x.Sound limit k) {initial done : List Condition}
    (hw : x.stored k = some w) (hdone : Condition.Recorded initial done w.conditionList) (m : Move)
    (hquiet : m.isForeign = true →
      ((x.move k m).stored k).map Widget.conditionList = (x.stored k).map Widget.conditionList) :
    ∃ v, (x.move k m).stored k = some v ∧
      Condition.Recorded initial (x.sets m ++ done) v.conditionList := by
  cases m with
  | read n =>
    refine ⟨w, ?_, hdone⟩
    rw [stored, (h.read n).1]
    exact hw
  | set n c =>
    cases hn : x.copies n with
    | none =>
      simp only [ConditionWriters.move, sets, hn]
      exact ⟨w, hw, hdone⟩
    | some copy =>
      simp only [ConditionWriters.move, sets, hn]
      cases h.settled hn c with
      | granted b action ok before fits acted after conditions calm =>
        -- The list that was written over is the one that it was computed from.
        obtain rfl : w = copy := Option.some.inj (hw.symm.trans before)
        refine ⟨b, after, ?_⟩
        rw [ok, conditions]
        exact hdone.set _ c
      | refused e error same reason invalid calm =>
        refine ⟨w, by rw [stored, same]; exact hw, ?_⟩
        rw [error]
        exact hdone
  | act action =>
    have hsame := hquiet rfl
    rw [hw, Option.map_some] at hsame
    obtain ⟨v, hv, hconditions⟩ := Option.map_eq_some_iff.mp hsame
    refine ⟨v, hv, ?_⟩
    rw [hconditions]
    exact hdone
  | pass date => exact ⟨w, hw, hdone⟩

/-! ## Whole interleavings -/

lemma Sound.after (h : x.Sound limit k) {moves : List Move} (hmoves : ∀ m ∈ moves, m.Fits) :
    (x.after k moves).Sound limit k := by
  induction moves generalizing x with
  | nil => exact h
  | cons m moves ih =>
    exact ih (h.move (hmoves m List.mem_cons_self)) fun m hm => hmoves m (List.mem_cons_of_mem _ hm)

lemma Sound.recorded_after (h : x.Sound limit k) {initial done : List Condition}
    (hw : x.stored k = some w) (hdone : Condition.Recorded initial done w.conditionList)
    {life : List Move} (hfits : ∀ m ∈ life, m.Fits) (hlife : x.Undisturbed k life) :
    ∃ v, (x.after k life).stored k = some v ∧
      Condition.Recorded initial (x.written k life ++ done) v.conditionList := by
  induction life generalizing x w done with
  | nil => exact ⟨w, hw, hdone⟩
  | cons m life ih =>
    obtain ⟨hquiet, hlife⟩ := hlife
    obtain ⟨v, hv, hnext⟩ := h.recorded_move hw hdone m hquiet
    rw [written, List.append_assoc]
    exact ih (h.move (hfits m List.mem_cons_self)) hv hnext
      (fun m hm => hfits m (List.mem_cons_of_mem _ hm)) hlife

/-- A cluster without widgets. -/
def start (date : Timestamp) (limit : Nat) : ConditionWriters := ⟨.new date "" limit, fun _ => none⟩

lemma start_sound (date : Timestamp) (limit : Nat) (k : ObjectKey) :
    (start date limit).Sound limit k :=
  ⟨rfl, ⟨[], by simp, rfl⟩, fun _ _ hw => absurd hw (by simp [start])⟩

/-- After any interleaving, a condition is set only if the copy of its writer is what is stored;
otherwise there is a conflict, or nothing is found. If the copy is what is stored, then neither of these
stands in the way, and what fails changes nothing. And as long as a widget is stored whose conditions
others leave alone, it has the conditions that were set last, and the others as they were and where they
were. -/
theorem concurrent_conditions_kept (k : ObjectKey) (date : Timestamp) (limit : Nat)
    (moves life : List Move) (hfits : ∀ m ∈ moves ++ life, m.Fits) :
    let x := (start date limit).after k moves
    (∀ n copy c, x.copies n = some copy →
      let answer := Status.updateCondition copy c x.cluster
      (∀ b, answer.1 = .ok b → x.stored k = some copy) ∧
      (x.stored k ≠ some copy → (∃ text, answer.1 = .error (.conflict k.text text)) ∨
        answer.1 = .error (.notFound (Resource.kind Widget) k.text)) ∧
      (x.stored k = some copy → Store.Unopposed answer.1) ∧
      ∀ e, answer.1 = .error e → answer.2.widgets = x.cluster.widgets) ∧
    ∀ w, x.stored k = some w → x.Undisturbed k life →
      ∃ v, (x.after k life).stored k = some v ∧
        Condition.Recorded w.conditionList (x.written k life) v.conditionList := by
  intro x
  have hx : x.Sound limit k := (start_sound date limit k).after fun m hm =>
    hfits m (List.mem_append_left _ hm)
  refine ⟨fun n copy c hcopy => ?_, fun w hw hlife => ?_⟩
  · intro answer
    cases hx.settled hcopy c with
    | granted b action ok before fits acted after conditions calm =>
      refine ⟨fun _ _ => before, fun hother => absurd before hother, fun _ e he => ?_, fun e he => ?_⟩
      · cases ok.symm.trans he
      · cases ok.symm.trans he
    | refused e error same reason invalid calm =>
      refine ⟨fun b hb => ?_, fun hother => ?_, fun hstored e' he' => ?_, fun _ _ => same⟩
      · cases error.symm.trans hb
      · rcases reason hother with ⟨text, rfl⟩ | rfl
        · exact .inl ⟨text, error⟩
        · exact .inr error
      · obtain rfl : e = e' := Except.error.inj (error.symm.trans he')
        exact invalid hstored
  · obtain ⟨v, hv, hrecorded⟩ := hx.recorded_after hw (Condition.recorded_refl _)
      (fun m hm => hfits m (List.mem_append_right _ hm)) hlife
    rw [List.append_nil] at hrecorded
    exact ⟨v, hv, hrecorded⟩

/-- A widget that is created with a condition. -/
def reportedWidget : Move :=
  .act (.create ⟨{ seconds := 0 }, "u"⟩ (some "default")
    { metadata := { name := some "a" }
      spec := { replicas := 1 }
      status := some { conditions := some [.report "Synced" true "Created" "" none] } })

/-- Two writers read the widget. The second one to write finds a conflict, and a change of the spec
later it reads the widget again. -/
def racingWriters : List Move :=
  [.read 0, .read 1, .set 0 (.report "Ready" true "Up" "" (some 1)),
    .set 1 (.report "Degraded" false "Calm" "" (some 1)),
    .act (.patch ⟨some "default", "a"⟩ (.obj [("spec", .obj [("replicas", .int 2)])])),
    .read 1, .set 1 (.report "Degraded" false "Calm" "" (some 2))]

/-- Both have set their conditions in the end, behind the one that was there. -/
theorem concurrent_conditions_kept_racing :
    let k : ObjectKey := ⟨some "default", "a"⟩
    let x := (start { seconds := 0 } 1).after k [reportedWidget]
    let y := (start { seconds := 0 } 1).after k (reportedWidget :: racingWriters.take 3)
    (∃ copy, y.copies 1 = some copy ∧ y.stored k ≠ some copy ∧
      ∀ c, (∃ text, (Status.updateCondition copy c y.cluster).1 = .error (.conflict k.text text)) ∨
        (Status.updateCondition copy c y.cluster).1 =
          .error (.notFound (Resource.kind Widget) k.text)) ∧
    ∃ w v, x.stored k = some w ∧ x.Undisturbed k racingWriters ∧
      (x.after k racingWriters).stored k = some v ∧
      v.conditionList.map Condition.type = ["Synced", "Ready", "Degraded"] ∧
      (x.written k racingWriters).map Condition.observedGeneration = [some 2, some 1] ∧
      Condition.Recorded w.conditionList (x.written k racingWriters) v.conditionList := by
  intro k x y
  have hfits : (∀ m ∈ [reportedWidget] ++ racingWriters, m.Fits) ∧
      ∀ m ∈ (reportedWidget :: racingWriters.take 3) ++ [], m.Fits := by
    decide +kernel
  have hruns : (y.copies 1).any (fun copy => y.stored k ≠ some copy) = true ∧
      (x.stored k).isSome = true ∧ x.Undisturbed k racingWriters ∧
      ((x.after k racingWriters).stored k).all (fun v =>
        v.conditionList.map Condition.type = ["Synced", "Ready", "Degraded"]) = true ∧
      (x.written k racingWriters).map Condition.observedGeneration = [some 2, some 1] := by
    decide +kernel
  obtain ⟨hold, hstored, hlife, htypes, hwritten⟩ := hruns
  obtain ⟨copy, hcopy, hother⟩ := (Option.any_eq_true _ _).mp hold
  obtain ⟨w, hw⟩ := Option.isSome_iff_exists.mp hstored
  obtain ⟨-, hkept⟩ := concurrent_conditions_kept k { seconds := 0 } 1 [reportedWidget] racingWriters
    hfits.1
  obtain ⟨hset, -⟩ := concurrent_conditions_kept k { seconds := 0 } 1
    (reportedWidget :: racingWriters.take 3) [] hfits.2
  obtain ⟨v, hv, hrecorded⟩ := hkept w hw hlife
  have hother : y.stored k ≠ some copy := by simpa using hother
  refine ⟨⟨copy, hcopy, hother, fun c => (hset 1 copy c hcopy).2.1 hother⟩, w, v, hw, hlife, hv, ?_,
    hwritten, hrecorded⟩
  rw [hv] at htypes
  simpa using htypes

end ConditionWriters

end ControlLoop
