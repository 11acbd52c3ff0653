import ControlLoop.Controller.Basic
import ControlLoop.Controller.Scripted
import ControlLoop.Proofs.Collections

/-!
# Work that does not see events

Two clusters may differ in nothing but their events. Requests on other collections are answered alike in
both, and recording an event is answered with nothing, whatever comes of it. So work that looks at events
in no other way than by recording them does the same in both clusters. The work that a controller adds
around its reconciler is such, and so is the work of the reconcilers of this library.
-/
namespace ControlLoop

/-! ## Clusters that differ in their events -/

/-- A failure that requests on other collections than that of events meet. -/
def Fault.elsewhere (f : Fault) : Bool := f.collection ≠ .events

/-- A request on another collection than that of events. -/
def Call.elsewhere (call : Call) : Bool := call.collection ≠ .events

namespace Cluster

/-- Two clusters that differ only in what belongs to events: the events, the failures that requests on
them meet, how many there were, how the next one is named and who reports it, and the notes of such
requests. -/
structure Alike (c d : Cluster) : Prop where
  widgets : d.widgets = c.widgets
  deployments : d.deployments = c.deployments
  configMaps : d.configMaps = c.configMaps
  faults : d.faults.filter Fault.elsewhere = c.faults.filter Fault.elsewhere
  date : d.date = c.date
  time : d.time = c.time
  issued : ∀ kind, kind ≠ Resource.kind Event → d.issuedCount kind = c.issuedCount kind
  calls : d.journal.calls.filter Call.elsewhere = c.journal.calls.filter Call.elsewhere
  feed : d.journal.feed = c.journal.feed
  runs : d.journal.runs = c.journal.runs

variable {c d e : Cluster} {collection : CollectionName} {method : Method}

lemma Alike.refl (c : Cluster) : c.Alike c :=
  ⟨rfl, rfl, rfl, rfl, rfl, rfl, fun _ _ => rfl, rfl, rfl, rfl⟩

lemma Alike.symm (h : c.Alike d) : d.Alike c :=
  ⟨h.widgets.symm, h.deployments.symm, h.configMaps.symm, h.faults.symm, h.date.symm, h.time.symm,
    fun kind hkind => (h.issued kind hkind).symm, h.calls.symm, h.feed.symm, h.runs.symm⟩

lemma Alike.trans (h : c.Alike d) (h' : d.Alike e) : c.Alike e :=
  ⟨h'.widgets.trans h.widgets, h'.deployments.trans h.deployments, h'.configMaps.trans h.configMaps,
    h'.faults.trans h.faults, h'.date.trans h.date, h'.time.trans h.time,
    fun kind hkind => (h'.issued kind hkind).trans (h.issued kind hkind), h'.calls.trans h.calls,
    h'.feed.trans h.feed, h'.runs.trans h.runs⟩

/-! ### Failures -/

/-- Failures of requests on events do not matter to other requests. -/
lemma splitFault_elsewhere (h : collection ≠ .events) (method : Method) (faults : List Fault) :
    splitFault collection method (faults.filter Fault.elsewhere) =
      ((splitFault collection method faults).1,
        (splitFault collection method faults).2.filter Fault.elsewhere) := by
  induction faults with
  | nil => rfl
  | cons f rest ih =>
    by_cases hf : f.collection = collection ∧ f.method = method
    · have helsewhere : f.elsewhere = true := by simp [Fault.elsewhere, hf.1, h]
      simp [helsewhere, splitFault, hf]
    · cases helsewhere : f.elsewhere <;> simp [helsewhere, splitFault, hf, ih]

/-- A request on events takes no failure of others. -/
lemma splitFault_events (method : Method) (faults : List Fault) :
    (splitFault .events method faults).2.filter Fault.elsewhere = faults.filter Fault.elsewhere := by
  induction faults with
  | nil => rfl
  | cons f rest ih =>
    by_cases hf : f.collection = .events ∧ f.method = method
    · simp [splitFault, hf, Fault.elsewhere]
    · simp only [splitFault, hf, if_false, List.filter_cons, ih]

lemma Alike.takeFault (h : c.Alike d) (hc : collection ≠ .events) (method : Method) :
    ∃ fault c' d', c.takeFault collection method = (fault, c') ∧
      d.takeFault collection method = (fault, d') ∧ Alike c' d' := by
  have hsplit := splitFault_elsewhere hc method c.faults
  rw [← h.faults, splitFault_elsewhere hc method d.faults] at hsplit
  obtain ⟨hfound, hrest⟩ := Prod.mk.inj hsplit
  refine ⟨_, _, { d with faults := (splitFault collection method d.faults).2 }, rfl, ?_,
    { h with faults := hrest }⟩
  exact Prod.ext (congrArg (·.bind Fault.error) hfound) rfl

lemma alike_takeFault_events (c : Cluster) (method : Method) : c.Alike (c.takeFault .events method).2 :=
  { Alike.refl c with faults := splitFault_events method c.faults }

/-- More failures of requests on events, in any mix. -/
lemma alike_faults (c : Cluster) {faults : List Fault} (h : ∀ f ∈ faults, f.collection = .events) :
    c.Alike { c with faults := faults ++ c.faults } := by
  refine { Alike.refl c with faults := ?_ }
  have hnone : faults.filter Fault.elsewhere = [] :=
    List.filter_eq_nil_iff.mpr fun f hf => by simp [Fault.elsewhere, h f hf]
  rw [List.filter_append, hnone, List.nil_append]

/-! ### Counts and notes -/

lemma issuedCount_countIssued (c : Cluster) (kind other : String) :
    (c.countIssued kind).issuedCount other =
      if other = kind then c.issuedCount kind + 1 else c.issuedCount other := by
  by_cases h : other = kind
  · subst h
    simp [countIssued, issuedCount]
  · have hne : ¬ kind = other := fun he => h he.symm
    have hfind : (c.issued.filter fun e => e.1 ≠ kind).find? (fun e => e.1 = other) =
        c.issued.find? fun e => e.1 = other := by
      rw [List.find?_filter]
      congr 1
      funext e
      by_cases he : e.1 = other <;> simp [he, h]
    simp only [countIssued, issuedCount, h, if_false, List.find?_cons, hne, decide_false, hfind]

lemma Alike.countIssued (h : c.Alike d) (kind : String) :
    (c.countIssued kind).Alike (d.countIssued kind) := by
  refine { h with issued := fun other hother => ?_ }
  rw [issuedCount_countIssued, issuedCount_countIssued]
  split
  · next he => rw [← he, h.issued other hother]
  · exact h.issued other hother

lemma alike_countIssued_event (c : Cluster) : c.Alike (c.countIssued (Resource.kind Event)) := by
  refine { Alike.refl c with issued := fun other hother => ?_ }
  rw [issuedCount_countIssued, if_neg hother]

lemma Alike.noteCall (h : c.Alike d) (call : Call) : (c.noteCall call).Alike (d.noteCall call) := by
  refine { h with calls := ?_ }
  simp only [Cluster.noteCall, List.filter_append, h.calls]

lemma alike_noteCall_event (c : Cluster) {call : Call} (hcall : call.collection = .events) :
    c.Alike (c.noteCall call) := by
  refine { Alike.refl c with calls := ?_ }
  simp [Cluster.noteCall, Call.elsewhere, hcall]

lemma Alike.noteFeed (h : c.Alike d) (call : FeedCall) : (c.noteFeed call).Alike (d.noteFeed call) :=
  { h with feed := by simp only [Cluster.noteFeed, h.feed] }

lemma Alike.noteRun (h : c.Alike d) (note : RunNote) : (c.noteRun note).Alike (d.noteRun note) :=
  { h with runs := by simp only [Cluster.noteRun, h.runs] }

end Cluster

/-! ## Requests -/

/-- A collection other than that of events. -/
class Collection.Plain (α : Type) [Resource α] [Collection α] : Prop extends
    LawfulCollection α, EventFree α where
  name_ne : Collection.name α ≠ .events
  kind_ne : Resource.kind α ≠ Resource.kind Event
  setStore : ∀ {c d : Cluster} (s : Store α), c.Alike d →
    (Collection.setStore c s).Alike (Collection.setStore d s)

instance : Collection.Plain Widget where
  name_ne := by decide
  kind_ne := by decide
  setStore _ h := { h with widgets := rfl }

instance : Collection.Plain Deployment where
  name_ne := by decide
  kind_ne := by decide
  setStore _ h := { h with deployments := rfl }

instance : Collection.Plain ConfigMap where
  name_ne := by decide
  kind_ne := by decide
  setStore _ h := { h with configMaps := rfl }

lemma Collection.Plain.store_eq {α : Type} [Resource α] [Collection α] [Collection.Plain α]
    {c d : Cluster} (h : c.Alike d) : (Collection.store d : Store α) = Collection.store c := by
  rw [← EventFree.store_setEvents d c.events]
  exact LawfulCollection.store_congr h.widgets h.deployments h.configMaps rfl

/-- Two answers that say the same and leave clusters that differ in their events only. -/
inductive SameAnswer {β : Type} :
    Except ClientError (β × Cluster) → Except ClientError (β × Cluster) → Prop
  | refused (e : ClientError) : SameAnswer (.error e) (.error e)
  | granted (b : β) {c d : Cluster} (h : c.Alike d) : SameAnswer (.ok (b, c)) (.ok (b, d))

/-- A session that answers alike whatever the events are, and leaves them to differ. -/
def Session.Blind {β : Type} (m : Session β) : Prop :=
  ∀ c d : Cluster, c.Alike d → (m d).1 = (m c).1 ∧ (m c).2.Alike (m d).2

namespace Session

variable {β γ ε : Type}

lemma Blind.answers {m : Session β} (hm : m.Blind) {c d : Cluster} (h : c.Alike d) :
    ∃ b c' d', m c = (b, c') ∧ m d = (b, d') ∧ c'.Alike d' :=
  ⟨(m c).1, (m c).2, (m d).2, rfl, Prod.ext (hm c d h).1 rfl, (hm c d h).2⟩

lemma blind_pure (b : β) : (pure b : Session β).Blind := fun _ _ h => ⟨rfl, h⟩

lemma Blind.bind {m : Session β} {f : β → Session γ} (hm : m.Blind) (hf : ∀ b, (f b).Blind) :
    (m >>= f).Blind := by
  intro c d h
  obtain ⟨hanswer, hafter⟩ := hm c d h
  have hrun (x : Cluster) : (m >>= f) x = f (m x).1 (m x).2 := rfl
  rw [hrun, hrun, hanswer]
  exact hf (m c).1 (m c).2 (m d).2 hafter

/-- A session that may fail goes on only if it has not. -/
lemma blind_bind {m : ExceptT ε Session β} {f : β → ExceptT ε Session γ}
    (hm : m.run.Blind) (hf : ∀ b, (f b).run.Blind) : (m >>= f).run.Blind := by
  rw [ExceptT.run_bind]
  refine hm.bind ?_
  rintro (e | b)
  · exact blind_pure _
  · exact hf b

/-- A session that looks at the cluster for something that events are no part of. -/
lemma blind_look {f : Cluster → ExceptT ε Session β}
    (hf : ∀ c d, c.Alike d → f d = f c ∧ (f c).run.Blind) :
    (do let c ← (MonadState.get : Session Cluster); f c : ExceptT ε Session β).run.Blind := by
  intro c d h
  have hrun (x : Cluster) :
      (do let c ← (MonadState.get : Session Cluster); f c : ExceptT ε Session β).run x =
        (f x).run x := rfl
  rw [hrun, hrun, (hf c d h).1]
  exact (hf c d h).2 c d h

variable {α : Type} [Resource α] [Collection α] [Collection.Plain α]

lemma blind_call {method : Method} {key : ObjectKey} {argument : Option Json}
    {version : β → String} {act : Cluster → Except ClientError (β × Cluster)}
    (h : ∀ c d, c.Alike d → SameAnswer (act c) (act d)) :
    (call α method key argument version act).run.Blind := by
  intro c d hcd
  obtain ⟨fault, c', d', hc, hd, hrest⟩ := hcd.takeFault (Collection.Plain.name_ne (α := α)) method
  simp only [ExceptT.run, call, hc, hd, hrest.time]
  cases fault with
  | some e => exact ⟨rfl, hrest.noteCall _⟩
  | none =>
    have hact := h c' d' hrest
    generalize act c' = r at hact
    generalize act d' = r' at hact
    cases hact with
    | refused e => exact ⟨rfl, hrest.noteCall _⟩
    | granted b hafter => exact ⟨rfl, hafter.noteCall _⟩

lemma blind_get (k : ObjectKey) : (Session.get α k).run.Blind := by
  refine blind_call fun c d h => ?_
  rw [Collection.Plain.store_eq h]
  cases (Collection.store c : Store α).get k with
  | error e => exact .refused e
  | ok a => exact .granted a h

/-- A request that writes one object, and that may change the cluster elsewhere too. -/
lemma blind_write {method : Method} {key : ObjectKey} {argument : Option Json}
    {version : β → String} {f : Cluster → Except ClientError (β × Store α)} {g : Cluster → Cluster}
    (hf : ∀ c d, c.Alike d → f d = f c) (hg : ∀ c d : Cluster, c.Alike d → (g c).Alike (g d)) :
    (call α method key argument version fun c => do
      let (b, s) ← f c
      return (b, g (Collection.setStore c s))).run.Blind := by
  refine blind_call fun c d h => ?_
  rw [hf c d h]
  cases f c with
  | error e => exact .refused e
  | ok p => exact .granted p.1 (hg _ _ (Collection.Plain.setStore p.2 h))

lemma blind_create (ns : Option String) (a : α) : (Session.create ns a).run.Blind := by
  refine blind_write (g := (·.countIssued (Resource.kind α))) (fun c d h => ?_) fun c d h =>
    h.countIssued _
  rw [Collection.Plain.store_eq h, h.date, Cluster.nextUid, Cluster.nextUid,
    h.issued _ Collection.Plain.kind_ne]

lemma blind_patch (k : ObjectKey) (p : Json) : (Session.patch α k p).run.Blind :=
  blind_write (g := id) (fun c d h => by rw [Collection.Plain.store_eq h]) fun _ _ h => h

lemma blind_updateStatus (k : ObjectKey) (status : Json) (version : Option String) :
    (Session.updateStatus α k status version).run.Blind :=
  blind_write (g := id) (fun c d h => by rw [Collection.Plain.store_eq h]) fun _ _ h => h

lemma blind_delete (k : ObjectKey) : (Session.delete α k).run.Blind := by
  refine blind_call fun c d h => ?_
  simp only [Cluster.delete]
  rw [Collection.Plain.store_eq h, h.date]
  cases (Collection.store c : Store α).delete c.date k with
  | error e => exact .refused e
  | ok s => exact .granted () (Collection.Plain.setStore s h)

/-! ### Requests of informers -/

lemma blind_list (scope : Option String) : (Session.list α scope).run.Blind := by
  intro c d hcd
  obtain ⟨fault, c', d', hc, hd, hrest⟩ := hcd.takeFault (Collection.Plain.name_ne (α := α)) .list
  simp only [ExceptT.run, list, hc, hd, hrest.time, Collection.Plain.store_eq hrest]
  cases fault with
  | some e => exact ⟨rfl, hrest.noteFeed _⟩
  | none => exact ⟨rfl, hrest.noteFeed _⟩

lemma blind_watch (scope : Option String) (version : String) :
    (Session.watch α scope version).run.Blind := by
  intro c d hcd
  obtain ⟨fault, c', d', hc, hd, hrest⟩ := hcd.takeFault (Collection.Plain.name_ne (α := α)) .watch
  simp only [ExceptT.run, watch, hc, hd, hrest.time, Collection.Plain.store_eq hrest]
  cases fault with
  | some e => exact ⟨rfl, hrest.noteFeed _⟩
  | none =>
    cases (Collection.store c' : Store α).watch scope version with
    | error e => exact ⟨rfl, hrest.noteFeed _⟩
    | ok w => exact ⟨rfl, hrest.noteFeed _⟩

/-! ### Recording events -/

/-- Whatever comes of adding an event, everything else is as before. -/
lemma alike_create_event (ns : Option String) (event : Event) (c : Cluster) :
    c.Alike (Session.create ns event c).2 := by
  have hfault := c.alike_takeFault_events .create
  simp only [Session.create, call]
  rw [show Collection.name Event = .events from rfl]
  generalize c.takeFault .events .create = p at hfault
  rcases p with ⟨_ | e, d⟩
  · refine hfault.trans ?_
    simp only
    split
    · exact d.alike_noteCall_event rfl
    next b d' hd =>
      refine Cluster.Alike.trans ?_ (d'.alike_noteCall_event rfl)
      simp only [Cluster.create, bind, Except.bind, pure, Except.pure] at hd
      split at hd
      · simp at hd
      next q _ =>
        obtain ⟨-, rfl⟩ := Prod.mk.inj (Except.ok.inj hd)
        have hstore : d.Alike (Collection.setStore d q.2) := { Cluster.Alike.refl d with widgets := rfl }
        exact hstore.trans (Cluster.alike_countIssued_event _)
  · exact hfault.trans (d.alike_noteCall_event rfl)

omit [Collection α] [Collection.Plain α] in
lemma blind_record (a : α) (what : EventRecord) : (Recorder.record a what).Blind := by
  intro c d h
  have hsame (x : Cluster) : x.Alike (Recorder.record a what x).2 := by
    have hsuffix : x.Alike { x with suffixes := x.suffixes + 1 } :=
      { Cluster.Alike.refl x with widgets := rfl }
    exact hsuffix.trans (alike_create_event _ _ _)
  exact ⟨rfl, (hsame c).symm.trans (h.trans (hsame d))⟩

end Session

/-! ## Jobs -/

namespace Job

variable {β γ : Type}

/-- Two jobs that do the same on clusters that differ in their events only. -/
inductive Matches : Job Cluster β → Job Cluster β → Prop
  | done (b : β) : Matches (.done b) (.done b)
  | act {effect effect' : Cluster → Cluster} {next next' : Cluster → Job Cluster β}
      (heffect : ∀ c d, c.Alike d → (effect c).Alike (effect' d))
      (hnext : ∀ c d, c.Alike d → Matches (next c) (next' d)) :
      Matches (.act effect next) (.act effect' next')
  | sleep (d : Duration) {j j' : Job Cluster β} (h : Matches j j') :
      Matches (.sleep d j) (.sleep d j')

/-- Two jobs that match pause in the same way, and what is left of them matches. -/
inductive Pause.Matches : Pause Cluster β → Pause Cluster β → Prop
  | finished (b : β) : Matches (.finished b) (.finished b)
  | asleep (d : Duration) {j j' : Job Cluster β} (h : j.Matches j') :
      Matches (.asleep d j) (.asleep d j')

lemma Matches.bind {j j' : Job Cluster β} {f f' : β → Job Cluster γ} (h : j.Matches j')
    (hf : ∀ b, (f b).Matches (f' b)) : (j.bind f).Matches (j'.bind f') := by
  induction h with
  | done b => exact hf b
  | act heffect hnext ih => exact .act heffect ih
  | sleep d h ih => exact .sleep d ih

lemma matches_lift {m : Session β} (h : m.Blind) : (lift m).Matches (lift m) := by
  refine .act (fun c d hcd => (h c d hcd).2) fun c d hcd => ?_
  rw [(h c d hcd).1]
  exact .done _

lemma Matches.advance {j j' : Job Cluster β} (h : j.Matches j') {c d : Cluster} (hcd : c.Alike d) :
    (j.advance c).1.Matches (j'.advance d).1 ∧ (j.advance c).2.Alike (j'.advance d).2 := by
  induction h generalizing c d with
  | done b => exact ⟨.finished b, hcd⟩
  | act heffect hnext ih => exact ih c d hcd (heffect c d hcd)
  | sleep duration h ih => exact ⟨.asleep duration h, hcd⟩

end Job

/-- A reconciler that looks at events in no other way than by recording them. -/
def Reconciler.Blind {σ α : Type} (r : Reconciler σ α) : Prop :=
  ∀ a m, (r.reconcile a m).1.Matches (r.reconcile a m).1 ∧
    (r.finalize a m).1.Matches (r.finalize a m).1

/-! ## What a controller adds to its reconciler -/

namespace Controller

open Session

variable {α : Type} [Resource α]

lemma alike_noteBegin {c d : Cluster} (h : c.Alike d) (purpose : Purpose) (a : α)
    (cancelled overlap : Bool) :
    (noteBegin purpose a cancelled overlap c).Alike (noteBegin purpose a cancelled overlap d) := by
  rw [noteBegin, noteBegin, h.time]
  exact h.noteRun _

lemma blind_noteEnd (purpose : Purpose) (a : α) (ending : Ending Outcome) :
    (noteEnd purpose a ending).Blind := by
  intro c d h
  rw [noteEnd, noteEnd, h.time]
  exact ⟨rfl, h.noteRun _⟩

lemma blind_afterReconcile (a : α) (ending : Ending Outcome) :
    (afterReconcile a ending).Blind := by
  refine (blind_noteEnd .reconcile a ending).bind fun _ => ?_
  cases ending with
  | failed e => exact (blind_record a _).bind fun _ => blind_pure _
  | returned | panicked => exact (blind_pure ()).bind fun _ => blind_pure _

variable [Collection α] [Collection.Plain α]

/-- Whether the event is recorded makes no difference, not even after the finalizer is gone. -/
lemma blind_afterFinalize (a : α) (f : String) (ending : Ending Unit) :
    (afterFinalize a f ending).Blind := by
  cases ending with
  | panicked text => exact (blind_noteEnd _ a _).bind fun _ => blind_pure _
  | failed e =>
    refine (blind_noteEnd _ a _).bind fun _ => ?_
    exact (blind_record a _).bind fun _ => blind_pure _
  | returned u =>
    refine (blind_noteEnd _ a _).bind fun _ => ?_
    refine (blind_patch (α := α) _ _).bind ?_
    rintro (e | b)
    · exact blind_pure _
    · exact (blind_record a _).bind fun _ => blind_pure _

lemma blind_claim (a : α) (f : String) : (claim a f).Blind := by
  refine (blind_patch (α := α) _ _).bind ?_
  rintro (e | b)
  · exact blind_pure _
  · exact blind_pure _

end Controller

/-! ## Reconcilers -/

namespace WidgetReconciler

open Session

lemma blind_ofRequest {β : Type} {r : Request β} (h : r.run.Blind) : (ofRequest r).run.Blind := by
  intro c d hcd
  obtain ⟨answer, c', d', hc, hd, hafter⟩ := h.answers hcd
  simp only [ExceptT.run] at hc hd ⊢
  cases answer with
  | ok b => simpa only [ofRequest, hc, hd] using ⟨trivial, hafter⟩
  | error e => simpa only [ofRequest, hc, hd] using ⟨trivial, hafter⟩

namespace Routine

variable {β γ : Type}

lemma matches_lift {step : Step β} (h : step.run.Blind) :
    (liftM step : Routine β).run.Matches (liftM step : Routine β).run :=
  Job.matches_lift h

lemma matches_pure (b : β) : (pure b : Routine β).run.Matches (pure b : Routine β).run := .done _

lemma matches_bind {r : Routine β} {f : β → Routine γ} (hr : r.run.Matches r.run)
    (hf : ∀ b, (f b).run.Matches (f b).run) : (r >>= f).run.Matches (r >>= f).run := by
  refine hr.bind ?_
  rintro (e | b)
  · exact .done _
  · exact hf b

lemma matches_task {r : Routine β} (h : r.run.Matches r.run) : r.task.Matches r.task :=
  h.bind fun _ => .done _

end Routine

lemma blind_createDeployment (w : Widget) : (createDeployment w).run.Blind := by
  unfold createDeployment
  split
  · exact blind_pure _
  · exact blind_bind (blind_ofRequest (blind_create _ _)) fun _ => blind_pure _

lemma blind_findDeployment (w : Widget) : (findDeployment w).run.Blind := by
  intro c d hcd
  obtain ⟨answer, c', d', hc, hd, hafter⟩ :=
    (blind_get (α := Deployment) (deploymentKey w)).answers hcd
  simp only [ExceptT.run] at hc hd
  simp only [ExceptT.run, findDeployment, hc, hd]
  cases answer with
  | error e => cases e <;> exact ⟨rfl, hafter⟩
  | ok deployment => exact ⟨rfl, hafter⟩

lemma blind_settleDeployment (w : Widget) (found : Option Deployment) :
    (settleDeployment w found).run.Blind := by
  unfold settleDeployment
  split
  · exact blind_createDeployment w
  · split
    · exact blind_pure _
    · split
      · exact blind_pure _
      · exact blind_ofRequest (blind_bind (blind_patch _ _) fun _ => blind_pure _)

lemma blind_updateCondition (w : Widget) (ready : Condition) :
    (ofRequest (Status.updateCondition w ready)).run.Blind := by
  unfold Status.updateCondition
  refine blind_ofRequest (blind_look fun c d h => ⟨?_, ?_⟩)
  · rw [h.date]
  · split
    · exact blind_pure _
    · exact blind_updateStatus _ _ _

lemma blind_reportCondition (w : Widget) (ready : Condition) :
    (reportCondition w ready).run.Blind := by
  unfold reportCondition
  split
  · exact blind_pure _
  · exact blind_bind (blind_updateCondition w ready) fun _ => blind_pure _

lemma blind_reportPhase (w : Widget) (phase : String) : (reportPhase w phase).run.Blind := by
  unfold reportPhase
  split
  · exact blind_bind (blind_ofRequest (blind_updateStatus _ _ _)) fun _ => blind_pure _
  · exact blind_pure _

/-- Events make no difference to what is done between the requests of others. -/
lemma matches_reconcileIn (w : Widget) :
    (reconcileIn Routine w).run.Matches (reconcileIn Routine w).run := by
  have hreport (phase : String) (ready : Condition) :
      (reportIn Routine w phase ready).run.Matches (reportIn Routine w phase ready).run :=
    Routine.matches_bind (Routine.matches_lift (blind_reportCondition w ready)) fun _ =>
      Routine.matches_lift (blind_reportPhase w phase)
  unfold reconcileIn
  split
  · exact Routine.matches_bind (hreport _ _) fun _ => Routine.matches_pure _
  · refine Routine.matches_bind (Routine.matches_bind ?_ fun found => ?_) fun _ => ?_
    · exact Routine.matches_lift (blind_findDeployment w)
    · exact Routine.matches_lift (blind_settleDeployment w found)
    · exact Routine.matches_bind (hreport _ _) fun _ => Routine.matches_pure _

lemma blind_finalize (w : Widget) : (finalize w).run.Blind := by
  intro c d hcd
  obtain ⟨answer, c', d', hc, hd, hafter⟩ :=
    (blind_delete (α := Deployment) (deploymentKey w)).answers hcd
  simp only [ExceptT.run] at hc hd
  simp only [ExceptT.run, finalize, hc, hd]
  cases answer with
  | ok => exact ⟨rfl, hafter⟩
  | error e => cases e <;> exact ⟨rfl, hafter⟩

lemma reconciler_blind {σ : Type} : (reconciler : Reconciler σ).Blind :=
  fun w _ => ⟨Routine.matches_task (matches_reconcileIn w),
    Routine.matches_task (Routine.matches_lift (blind_finalize w))⟩

end WidgetReconciler

namespace Script

open Session WidgetReconciler

lemma blind_perform (w : Widget) (e : Effect) : (perform w e).run.Blind := by
  cases e with
  | updateStatus status =>
    exact blind_bind (blind_ofRequest (blind_updateStatus _ _ _)) fun _ => blind_pure _
  | updateCondition v =>
    simp only [perform]
    split
    · exact blind_pure _
    · exact blind_bind (blind_updateCondition w _) fun _ => blind_pure _
  | event record =>
    intro c d h
    exact ⟨rfl, (blind_record w record c d h).2⟩
  | patch p => exact blind_bind (blind_ofRequest (blind_patch _ p)) fun _ => blind_pure _
  | ownerReference =>
    simp only [perform]
    split
    · exact blind_pure _
    · exact blind_pure _

lemma matches_performAll (w : Widget) (effects : List Effect) :
    (performAll w effects).run.Matches (performAll w effects).run := by
  induction effects with
  | nil => exact Routine.matches_pure _
  | cons e rest ih => exact Routine.matches_bind (Routine.matches_lift (blind_perform w e)) fun _ => ih

lemma matches_carryOut (w : Widget) (a : Action) : (carryOut w a).Matches (carryOut w a) := by
  have hattempt : (attempt w a).Matches (attempt w a) := by
    refine (matches_performAll w a.effects).bind ?_
    rintro (e | _) <;> exact .done _
  rw [carryOut]
  split
  · exact hattempt
  · exact .sleep _ hattempt

lemma reconciler_blind : reconciler.Blind := by
  intro w m
  refine ⟨matches_carryOut w _, (matches_carryOut w _).bind ?_⟩
  rintro (_ | _ | _) <;> exact .done _

end Script

end ControlLoop
