import ControlLoop.Proofs.WidgetOutcomes

/-!
# The generation that a condition speaks of

A condition carries the generation of the widget that it was reported for. A run of the reconciler leaves
out the report of a condition if one that says the same is there, whatever the generation of that one. So
after a change of the spec that makes no difference to what the condition says, such as another image, it
still speaks of the generation before.
-/
namespace ControlLoop.WidgetReconciler

variable {c c' : Cluster} {k : ObjectKey} {w : Widget} {ready : Condition}

/-- The condition that a run of the reconciler reports, if it ends well. -/
def verdict (w : Widget) : Condition :=
  if w.spec.replicas < 0 then invalidCondition w else configuredCondition w

lemma verdict_type (w : Widget) : (verdict w).type = "Ready" := by
  unfold verdict
  split <;> rfl

/-- It speaks of the generation of the widget. -/
lemma verdict_observedGeneration (w : Widget) :
    (verdict w).observedGeneration = w.metadata.generation := by
  unfold verdict
  split <;> rfl

/-- What a run that ends well leaves of a stored widget: the same task, and the conditions that follow
from the verdict. -/
lemma conditions_after_run (hwidgets : c.widgets.Reachable) (hdeployments : c.deployments.Reachable)
    (hcalm : c.faults = []) (hw : c.widgets.objects.get? k = some w) {outcome : Outcome}
    (hrun : (reconcile w).run c = (.ok outcome, c')) :
    ∃ w' now, c'.widgets.objects.get? k = some w' ∧ SameTask w w' ∧
      w'.conditionList = conditionsAfter now (verdict w) w.conditionList := by
  have hkeeps : Keeps c c.deployments k w := ⟨⟨rfl, rfl, hcalm⟩, hw, hwidgets.sound hw⟩
  by_cases hneg : w.spec.replicas < 0
  · obtain ⟨c₁, w', hdone, hkeeps', hreported, now, hafter⟩ := reconcile_pending hkeeps hneg
    obtain ⟨-, rfl⟩ := Prod.mk.inj (hdone.symm.trans hrun)
    exact ⟨w', now, hkeeps'.stored, hreported.toSameTask, by rw [verdict, if_pos hneg, hafter]⟩
  · have hpos : 0 ≤ w.spec.replicas := by omega
    obtain ⟨c₁, ds', w', d, hdone, hkeeps', hreported, -, now, hafter⟩ :=
      reconcile_running hkeeps hdeployments hpos (owned_of_ok hkeeps.holds hpos hrun)
    obtain ⟨-, rfl⟩ := Prod.mk.inj (hdone.symm.trans hrun)
    exact ⟨w', now, hkeeps'.stored, hreported.toSameTask, by rw [verdict, if_neg hneg, hafter]⟩

/-- After a report there is a condition of the generation that is reported, if none said the same before
or one of that generation was there. -/
lemma observed_after_iff (now : String) (ready : Condition) (l : List Condition) :
    (∃ r ∈ conditionsAfter now ready l,
      r.type = ready.type ∧ r.observedGeneration = ready.observedGeneration) ↔
    l.any (agrees · ready) = false ∨
      ∃ r ∈ l, r.type = ready.type ∧ r.observedGeneration = ready.observedGeneration := by
  unfold conditionsAfter
  cases hsaid : l.any (agrees · ready) with
  | true => simp
  | false =>
    obtain ⟨r, hr, hagrees⟩ := Condition.find?_set_self now ready l
    have hmem : ∃ r ∈ ready.set now l,
        r.type = ready.type ∧ r.observedGeneration = ready.observedGeneration :=
      ⟨r, List.mem_of_find?_eq_some hr, hagrees.type_eq, hagrees.observedGeneration_eq⟩
    simpa using hmem

/-- **When the condition of a widget speaks of its generation.** A run on a stored widget of generation
`g` that ends well leaves it at generation `g`. There is then a condition `Ready` that speaks of `g`
exactly if no condition said the same as the one to be reported before the run, or if one that speaks of
`g` was there already. -/
theorem ready_observed_iff (hwidgets : c.widgets.Reachable) (hdeployments : c.deployments.Reachable)
    (hcalm : c.faults = []) (hw : c.widgets.objects.get? k = some w) {g : Int}
    (hg : w.metadata.generation = some g) {outcome : Outcome}
    (hrun : (reconcile w).run c = (.ok outcome, c')) :
    ∃ w', c'.widgets.objects.get? k = some w' ∧ w'.metadata.generation = some g ∧
      ((∃ r ∈ w'.conditionList, r.type = "Ready" ∧ r.observedGeneration = some g) ↔
        (¬ ∃ r ∈ w.conditionList, r.type = "Ready" ∧ r.status = (verdict w).status ∧
          r.reason = (verdict w).reason ∧ r.message = (verdict w).message) ∨
        ∃ r ∈ w.conditionList, r.type = "Ready" ∧ r.observedGeneration = some g) := by
  obtain ⟨w', now, hstored, hsame, hafter⟩ :=
    conditions_after_run hwidgets hdeployments hcalm hw hrun
  have hgeneration : w'.metadata.generation = some g :=
    (hsame.apply_eq Metadata.generation fun _ _ => rfl).trans hg
  refine ⟨w', hstored, hgeneration, ?_⟩
  have hiff := observed_after_iff now (verdict w) w.conditionList
  rw [← hafter, ← Bool.not_eq_true, any_agrees, verdict_type, verdict_observedGeneration, hg] at hiff
  exact hiff

/-- The condition of the widget is another one, so that it is reported anew. -/
theorem ready_observed_iff_stale :
    ∃ c' w', (reconcile staleWidget).run staleCluster = (.ok {}, c') ∧
      c'.widgets.objects.get? ⟨some "default", "a"⟩ = some w' ∧
      ∃ r ∈ w'.conditionList, r.type = "Ready" ∧ r.observedGeneration = some 1 := by
  obtain ⟨hwidgets, hdeployments⟩ := staleCluster_reachable
  have heval : ((reconcile staleWidget).run staleCluster).1 = .ok {} := by
    decide +kernel
  rcases hrun : (reconcile staleWidget).run staleCluster with ⟨result, c'⟩
  rw [hrun] at heval
  obtain rfl : result = .ok {} := heval
  obtain ⟨w', hstored, -, hiff⟩ :=
    ready_observed_iff hwidgets hdeployments rfl staleWidget_stored rfl hrun
  exact ⟨c', w', rfl, hstored, hiff.mpr (.inl (by decide +kernel))⟩

/-- A widget that runs, with the condition of its first generation. It has been given another image
since. -/
def renewedWidget : Widget where
  metadata := {
    name := some "a", ns := some "default", uid := some "u", generation := some 2
    creationTimestamp := some { seconds := 0 }, resourceVersion := some "2" }
  spec := { replicas := 1, image := some "nginx:2" }
  status := some { conditions := some [
    .report "Ready" true "DeploymentConfigured" "Deployment a-widget runs 1 replicas" (some 1)] }

/-- It was created without an image. -/
def renewal : List (Store.Action Widget) :=
  [.create ⟨{ seconds := 0 }, "u"⟩ (some "default") { renewedWidget with spec := { replicas := 1 } },
    .patch ⟨some "default", "a"⟩ (.obj [("spec", .obj [("image", .str "nginx:2")])])]

/-- A cluster with the widget and its deployment. -/
def renewedCluster : Cluster := { staleCluster with widgets := Store.run 1 renewal }

lemma renewedCluster_reachable :
    renewedCluster.widgets.Reachable ∧ renewedCluster.deployments.Reachable := by
  have hwidget : Resource.Legible { renewedWidget with spec := { replicas := 1 } } := by
    unfold Resource.Legible
    decide +kernel
  have hrenewal : ∀ x ∈ renewal, x.Legible := by
    simp only [renewal, List.forall_mem_cons, List.not_mem_nil, false_implies, implies_true, and_true]
    exact ⟨⟨by decide, hwidget⟩, trivial⟩
  -- The fields are read off by rewriting: the unifier would run the store.
  simp only [renewedCluster]
  exact ⟨⟨1, renewal, rfl, hrenewal, by decide⟩, staleCluster_reachable.2⟩

/-- A run on it ends well, and leaves no condition `Ready` that speaks of the generation that the widget
has. -/
theorem reconcile_leaves_ready_behind :
    renewedCluster.widgets.Reachable ∧ renewedCluster.deployments.Reachable ∧
      renewedCluster.faults = [] ∧
      renewedCluster.widgets.objects.get? ⟨some "default", "a"⟩ = some renewedWidget ∧
      renewedWidget.metadata.generation = some 2 ∧
      ∃ c' w', (reconcile renewedWidget).run renewedCluster = (.ok {}, c') ∧
        c'.widgets.objects.get? ⟨some "default", "a"⟩ = some w' ∧
        ¬ ∃ r ∈ w'.conditionList, r.type = "Ready" ∧ r.observedGeneration = some 2 := by
  have hstored : renewedCluster.widgets.objects.get? ⟨some "default", "a"⟩ = some renewedWidget := by
    decide +kernel
  have hok : ((reconcile renewedWidget).run renewedCluster).1 = .ok {} := by
    decide +kernel
  have hleft : (((reconcile renewedWidget).run renewedCluster).2.widgets.objects.get?
      ⟨some "default", "a"⟩).any
        (fun w => !w.conditionList.any fun r => r.type = "Ready" ∧ r.observedGeneration = some 2) := by
    decide +kernel
  rcases hrun : (reconcile renewedWidget).run renewedCluster with ⟨result, c'⟩
  rw [hrun] at hok hleft
  obtain rfl : result = .ok {} := hok
  obtain ⟨w', hw', hnone⟩ := (Option.any_eq_true _ _).mp hleft
  exact ⟨renewedCluster_reachable.1, renewedCluster_reachable.2, rfl, hstored, rfl, c', w', rfl, hw',
    by simpa using hnone⟩

end ControlLoop.WidgetReconciler
