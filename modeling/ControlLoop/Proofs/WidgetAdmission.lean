import ControlLoop.Admission.WidgetPolicy
import ControlLoop.Proofs.FailsClosed
import ControlLoop.Proofs.WidgetOutcomes

/-!
# Widgets that are let in and widgets that run

The handler that decides on widgets and the reconciler that runs them draw one line. A review of a new
or a changed widget is denied exactly if a run on the widget does nothing but report that it cannot run,
and it is denied in the words of that report. A run that takes the other path is told by the requests
that it makes: it asks for the deployment of the widget before anything else.
-/
namespace ControlLoop

open Resource (toJson Legible)

/-! ## Requests that are noted -/

/-- From every cluster the session makes requests of a kind only. -/
def Session.Notes (kind : Call → Prop) {β : Type} (m : Session β) : Prop :=
  ∀ c : Cluster, ∃ more, (m c).2.journal.calls = c.journal.calls ++ more ∧ ∀ call ∈ more, kind call

namespace Session

variable {β γ ε : Type} {kind : Call → Prop}

lemma notes_pure (b : β) : (pure b : Session β).Notes kind := fun c => ⟨[], by simp; rfl, by simp⟩

lemma Notes.bind {m : Session β} {f : β → Session γ} (hm : m.Notes kind) (hf : ∀ b, (f b).Notes kind) :
    (m >>= f).Notes kind := by
  intro c
  obtain ⟨first, hfirst, hkind⟩ := hm c
  obtain ⟨second, hsecond, hkind'⟩ := hf (m c).1 (m c).2
  refine ⟨first ++ second, ?_, List.forall_mem_append.mpr ⟨hkind, hkind'⟩⟩
  rw [← List.append_assoc, ← hfirst]
  exact hsecond

lemma notes_bind {m : ExceptT ε Session β} {f : β → ExceptT ε Session γ} (hm : m.run.Notes kind)
    (hf : ∀ b, (f b).run.Notes kind) : (m >>= f).run.Notes kind := by
  rw [ExceptT.run_bind]
  refine hm.bind ?_
  rintro (e | b)
  · exact notes_pure _
  · exact hf b

variable {α : Type} [Resource α] [Collection α] {method : Method} {key : ObjectKey}
  {argument : Option Json} {version : β → String} {act : Cluster → Except ClientError (β × Cluster)}

/-- A request is noted once, under its collection, if what it does leaves the journal alone. -/
lemma calls_call (hact : ∀ c b d, act c = .ok (b, d) → d.journal = c.journal) (c : Cluster) :
    ∃ note : Call, note.collection = Collection.name α ∧
      (call α method key argument version act c).2.journal.calls = c.journal.calls ++ [note] := by
  have hjournal : (c.takeFault (Collection.name α) method).2.journal = c.journal := rfl
  simp only [call]
  rcases htake : c.takeFault (Collection.name α) method with ⟨_ | e, d⟩
  · rw [htake] at hjournal
    simp only
    cases hd : act d with
    | error e => exact ⟨_, rfl, by rw [← hjournal]; rfl⟩
    | ok p =>
      obtain ⟨b, d'⟩ := p
      exact ⟨_, rfl, by rw [← hjournal, ← hact d b d' hd]; rfl⟩
  · rw [htake] at hjournal
    exact ⟨_, rfl, by rw [← hjournal]; rfl⟩

lemma notes_call (hact : ∀ c b d, act c = .ok (b, d) → d.journal = c.journal) :
    (call α method key argument version act).run.Notes (·.collection = Collection.name α) := by
  intro c
  obtain ⟨note, hnote, hcalls⟩ : ∃ note : Call, note.collection = Collection.name α ∧
      (call α method key argument version act c).2.journal.calls = c.journal.calls ++ [note] :=
    calls_call hact c
  exact ⟨[note], hcalls, by simpa using hnote⟩

lemma calls_get (α : Type) [Resource α] [Collection α] (k : ObjectKey) (c : Cluster) :
    ∃ note : Call, note.collection = Collection.name α ∧
      (Session.get α k c).2.journal.calls = c.journal.calls ++ [note] := by
  refine calls_call (fun c b d hd => ?_) c
  simp only [bind, Except.bind, pure, Except.pure] at hd
  split at hd
  · simp at hd
  · obtain ⟨-, rfl⟩ := Prod.mk.inj (Except.ok.inj hd)
    rfl

/-- A request that writes to its store and may change the cluster elsewhere. -/
lemma notes_write {f : Cluster → Except ClientError (β × Store α)} {g : Cluster → Cluster}
    (hset : ∀ (c : Cluster) (s : Store α), (g (Collection.setStore c s)).journal = c.journal) :
    (call α method key argument version fun c => do
      let (b, s) ← f c
      return (b, g (Collection.setStore c s))).run.Notes (·.collection = Collection.name α) := by
  refine notes_call fun c b d hd => ?_
  simp only [bind, Except.bind, pure, Except.pure] at hd
  split at hd
  · simp at hd
  next p hp =>
    obtain ⟨-, rfl⟩ := Prod.mk.inj (Except.ok.inj hd)
    exact hset c p.2

end Session

namespace WidgetReconciler

variable {w : Widget} {c : Cluster} {phase : String} {ready : Condition} {kind : Call → Prop}

lemma notes_ofRequest {β : Type} {r : Request β} (h : r.run.Notes kind) :
    (ofRequest r).run.Notes kind := by
  intro c
  obtain ⟨more, hmore, hkind⟩ := h c
  refine ⟨more, ?_, hkind⟩
  rw [← hmore]
  simp only [ofRequest, ExceptT.run]
  split <;> simp_all

/-- A report makes requests on widgets only. -/
lemma notes_report (w : Widget) (phase : String) (ready : Condition) :
    (report w phase ready).run.Notes (·.collection = .widgets) := by
  have hstatus (k : ObjectKey) (status : Json) (version : Option String) :
      (Session.updateStatus Widget k status version).run.Notes (·.collection = .widgets) :=
    Session.notes_write (g := id) fun _ _ => rfl
  refine Session.notes_bind ?_ fun _ => ?_
  · unfold reportCondition
    split
    · exact Session.notes_pure _
    · refine Session.notes_bind (notes_ofRequest ?_) fun _ => Session.notes_pure _
      refine Session.notes_bind (fun c => ⟨[], by simp; rfl, by simp⟩) fun cluster => ?_
      split
      · exact Session.notes_pure _
      · exact hstatus _ _ _
  · unfold reportPhase
    split
    · exact Session.notes_bind (notes_ofRequest (hstatus _ _ _)) fun _ => Session.notes_pure _
    · exact Session.notes_pure _

lemma notes_createDeployment (w : Widget) :
    (createDeployment w).run.Notes (·.collection = .deployments) := by
  unfold createDeployment
  split
  · exact Session.notes_pure _
  · refine Session.notes_bind (notes_ofRequest ?_) fun _ => Session.notes_pure _
    exact Session.notes_write (g := (·.countIssued (Resource.kind Deployment))) fun _ _ => rfl

lemma calls_findDeployment (w : Widget) (c : Cluster) :
    ∃ note : Call, note.collection = .deployments ∧
      (findDeployment w c).2.journal.calls = c.journal.calls ++ [note] := by
  obtain ⟨note, hnote, hget⟩ := Session.calls_get Deployment (deploymentKey w) c
  refine ⟨note, hnote, ?_⟩
  unfold findDeployment
  split
  all_goals
    next hd =>
    rw [hd] at hget
    exact hget

lemma notes_settleDeployment (w : Widget) (found : Option Deployment) :
    (settleDeployment w found).run.Notes (·.collection = .deployments) := by
  unfold settleDeployment
  split
  · exact notes_createDeployment w
  · split
    · exact Session.notes_pure _
    · split
      · exact Session.notes_pure _
      · refine notes_ofRequest (Session.notes_bind ?_ fun _ => Session.notes_pure _)
        exact Session.notes_write (g := id) fun _ _ => rfl

/-- Seeing to the deployment begins with a request for it. -/
lemma calls_ensureDeployment (w : Widget) (c : Cluster) :
    ∃ (note : Call) (more : List Call), note.collection = .deployments ∧
      (ensureDeployment w c).2.journal.calls = c.journal.calls ++ note :: more := by
  obtain ⟨note, hnote, hfind⟩ := calls_findDeployment w c
  rw [ensureDeployment_eq]
  rcases hd : findDeployment w c with ⟨e | found, d⟩ <;> rw [hd] at hfind
  · rw [step_error _ hd]
    exact ⟨note, [], hnote, hfind⟩
  · rw [step_ok _ hd]
    obtain ⟨more, hmore, -⟩ := notes_settleDeployment w found d
    refine ⟨note, more, hnote, hmore.trans ?_⟩
    rw [hfind, List.append_assoc, List.singleton_append]

/-- A run on a widget that can run begins with a request on deployments. -/
lemma calls_of_nonneg (hw : 0 ≤ w.spec.replicas) (c : Cluster) :
    ∃ (note : Call) (more : List Call), note.collection = .deployments ∧
      (reconcile w c).2.journal.calls = c.journal.calls ++ note :: more := by
  obtain ⟨note, more, hnote, hensure⟩ := calls_ensureDeployment w c
  rw [reconcile_of_nonneg hw]
  rcases hd : ensureDeployment w c with ⟨e | _, d⟩ <;> rw [hd] at hensure
  · rw [step_error _ hd]
    exact ⟨note, more, hnote, hensure⟩
  · obtain ⟨written, hwritten, -⟩ := Session.notes_bind
      (notes_report w runningPhase (configuredCondition w))
      (fun _ => Session.notes_pure (Except.ok (ε := ReconcileError) ({} : Outcome))) d
    rw [step_ok _ hd]
    refine ⟨note, more ++ written, hnote, hwritten.trans ?_⟩
    rw [hensure, List.append_assoc, List.cons_append]

/-- A run on a widget does nothing but report that it is not ready, since its spec is not valid. -/
structure RejectsSpec (c : Cluster) (w : Widget) (ready : Condition) : Prop where
  type_eq : ready.type = "Ready"
  status_eq : ready.status = "False"
  reason_eq : ready.reason = "InvalidSpec"
  run_eq : reconcile w c = (do report w "Pending" ready; return {} : Step Outcome) c

lemma rejectsSpec_of_neg (hw : w.spec.replicas < 0) (c : Cluster) : RejectsSpec c w (invalidCondition w) where
  type_eq := rfl
  status_eq := rfl
  reason_eq := rfl
  run_eq := by rw [reconcile_of_neg hw]; rfl

lemma RejectsSpec.neg (h : RejectsSpec c w ready) : w.spec.replicas < 0 := by
  by_contra hw
  obtain ⟨note, more, hnote, hcalls⟩ := calls_of_nonneg (w := w) (by omega) c
  have hreport : (do report w "Pending" ready; return {} : Step Outcome).run.Notes
      (·.collection = .widgets) :=
    Session.notes_bind (notes_report w "Pending" ready) fun _ => Session.notes_pure _
  obtain ⟨written, hwritten, hkind⟩ := hreport c
  have hsame : note :: more = written := by
    rw [h.run_eq] at hcalls
    exact List.append_cancel_left (hcalls.symm.trans hwritten)
  have hwidgets : note.collection = .widgets := hkind note (hsame ▸ List.mem_cons_self)
  rw [hnote] at hwidgets
  cases hwidgets

end WidgetReconciler

/-! ## Verdicts -/

namespace Admission

/-- An answer that brings a response. -/
def Brings (answer : Http.Response) (response : Response) : Prop :=
  answer.status = 200 ∧ ∃ review, Server.readReview answer.body.toUTF8 = some review ∧
    review.response = some response

namespace WidgetPolicy

open WidgetReconciler (RejectsSpec invalidCondition negativeReplicas rejectsSpec_of_neg)

/-- The request is to remove or to connect, or its object is a widget that can run. -/
def Acceptable (r : Request) : Prop :=
  r.operation = .delete ∨ r.operation = .connect ∨
    ∃ v w, r.object = some v ∧ Widget.decode v = .ok w ∧ 0 ≤ w.spec.replicas

lemma validate_allows_iff (r : Request) :
    (∃ verdict, validate r = .ok verdict ∧ verdict.allowed = true) ↔ Acceptable r := by
  unfold validate Acceptable
  cases r.operation with
  | delete | connect => simp [Verdict.allow]
  | create | update =>
    simp only [reduceCtorEq, false_or]
    cases r.object with
    | none => simp
    | some v =>
      cases hw : Widget.decode v with
      | error e => simp [hw]
      | ok w =>
        by_cases hneg : w.spec.replicas < 0
        · simp [hw, hneg, Verdict.deny]
        · simp [hw, hneg, Verdict.allow, not_lt.mp hneg]

lemma allowed_iff (r : Request) : (respond r (handler.run r)).allowed = true ↔ Acceptable r := by
  rw [(decides_respond handler r).allowed, ← validate_allows_iff]
  constructor
  · rintro ⟨given, allowed⟩
    exact ⟨_, given, allowed⟩
  · rintro ⟨verdict, given, allowed⟩
    exact .validating given allowed

/-- The verdict on a widget that is legible. -/
lemma run_of_legible {r : Request} {w : Widget} (h : Legible w)
    (hobject : r.object = some (toJson w))
    (hoperation : r.operation = .create ∨ r.operation = .update) :
    handler.run r = .ok { verdict :=
      if w.spec.replicas < 0 then .deny (negativeReplicas w.spec.replicas) else .allow } := by
  have hvalidate : validate r = .ok
      (if w.spec.replicas < 0 then .deny (negativeReplicas w.spec.replicas) else .allow) := by
    have hread : Widget.decode (toJson w) = .ok w := h
    unfold validate
    rcases hoperation with hr | hr <;> simp only [hr, hobject, hread] <;> split <;> rfl
  rw [handler, Handler.run, hvalidate]
  rfl

/-- **The handler and the reconciler agree.** Under the path of the handler, a request is allowed
exactly if it is acceptable, also over HTTP. If it brings the form of a widget that is to be created or
changed, and the widget is legible, then it is denied exactly if a run on the widget only reports that the
spec is not valid, whatever the cluster is like, and the reason is the message of that report. -/
theorem denied_iff_spec_rejected (registrations : List (String × Handler)) (path : String)
    (hfirst : FirstAt registrations path handler) (request : Request) :
    ∃ response,
      (∀ review, review.request = some request →
        (Server.registered registrations).dispatch path review = some (.ok (.ofResponse response))) ∧
      (∀ body, Asks body request →
        Brings ((Server.registered registrations).route ⟨"POST", path, body⟩) response) ∧
      (response.allowed = true ↔ Acceptable request) ∧
      ∀ w : Widget, Legible w → request.object = some (toJson w) →
        request.operation = .create ∨ request.operation = .update → ∀ c,
          (response.allowed = false ↔ ∃ ready, RejectsSpec c w ready) ∧
          (response.allowed = false → RejectsSpec c w (invalidCondition w) ∧
            response.status = some { code := some 403, text := (invalidCondition w).message }) := by
  have hserved := (Server.handler?_registered registrations path handler).mpr hfirst
  refine ⟨respond request (handler.run request),
    fun review hrequest => Server.dispatch_eq hserved hrequest, fun body hasks => ?_,
    allowed_iff request, fun w hw hobject hoperation c => ?_⟩
  · rw [Server.route_eq (r := ⟨"POST", path, body⟩) rfl hserved hasks]
    exact ⟨rfl, _, readReview_respond _ _, rfl⟩
  · rw [run_of_legible hw hobject hoperation]
    by_cases hneg : w.spec.replicas < 0
    · have hrejects := rejectsSpec_of_neg hneg c
      simp only [hneg, if_true]
      exact ⟨⟨fun _ => ⟨_, hrejects⟩, fun _ => rfl⟩, fun _ => ⟨hrejects, rfl⟩⟩
    · simp only [hneg, if_false]
      have hallowed : (respond request (.ok { verdict := .allow })).allowed = true := rfl
      simp only [hallowed, Bool.true_eq_false, false_iff, not_exists, false_imp_iff, and_true]
      exact fun ready hready => hneg hready.neg

/-- A widget that asks for less than nothing. -/
def negativeWidget : Widget where
  metadata := { name := some "a" }
  spec := { replicas := -1 }

/-- A request to change a widget to that. -/
def reduction : Request where
  uid := "7"
  kind := { version := "v1", kind := "Widget" }
  resource := { version := "v1", resource := "widgets" }
  operation := .update
  object := some (toJson negativeWidget)

lemma asks_reduction : Asks (Review.ofRequest reduction).encode.render.toUTF8 reduction := by
  have hform : toJson negativeWidget = .obj
      [("apiVersion", .str "example.com/v1"), ("kind", .str "Widget"),
       ("metadata", .obj [("name", .str "a")]), ("spec", .obj [("replicas", .int (-1))])] := by
    decide +kernel
  have hobject : Json.Writable 125 (toJson negativeWidget) := by
    rw [hform]
    refine .obj _ ?_
    simp only [List.forall_mem_cons, List.not_mem_nil, false_imp_iff, implies_true, and_true]
    exact ⟨.str _, .str _, .obj _ (by simpa using .str _),
      .obj _ (by simpa using .int _ (by decide) (by decide))⟩
  have hwritable := Review.writable_ofRequest reduction (by simpa [reduction] using hobject)
    (by simp [reduction])
  refine ⟨.ofRequest reduction, ?_, rfl⟩
  rw [Server.readReview, Json.readOctets_render _ hwritable]
  decide +kernel

theorem denied_iff_spec_rejected_reduction : ∃ response,
    Brings ((Server.registered [(path, handler)]).route
      ⟨"POST", path, (Review.ofRequest reduction).encode.render.toUTF8⟩) response ∧
    response.allowed = false ∧ response.status =
      some { code := some 403, text := some "spec.replicas must not be negative, got -1" } := by
  obtain ⟨response, -, hbrings, -, hdenied⟩ :=
    denied_iff_spec_rejected [(path, handler)] path ⟨[], [], rfl, by simp⟩ reduction
  have hlegible : Legible negativeWidget :=
    show Widget.decode (toJson negativeWidget) = .ok negativeWidget by decide +kernel
  obtain ⟨hiff, htext⟩ := hdenied negativeWidget hlegible rfl (.inr rfl) { date := { seconds := 0 } }
  have hallowed := hiff.mpr ⟨_, rejectsSpec_of_neg (by decide) _⟩
  exact ⟨response, hbrings _ asks_reduction, hallowed, (htext hallowed).2⟩

end WidgetPolicy

end Admission

end ControlLoop
