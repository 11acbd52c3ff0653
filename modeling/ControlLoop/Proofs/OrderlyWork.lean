import ControlLoop.Controller.Basic
import ControlLoop.Proofs.Collections
import ControlLoop.Proofs.InformerCopy

/-!
# Work that writes by requests only

A job may do anything to a cluster. One that is orderly for a kind of object changes the objects of that
kind by requests to their store and by nothing else, so that whatever it writes is published. The work
that a controller adds around its reconciler is orderly for every kind.
-/
namespace ControlLoop

/-- An informer follows a store through whatever is asked of it. -/
lemma Feed.Follows.later {α : Type} [Resource α] [LawfulResource α] {f : Feed α} {s t : Store α}
    {scope : Option String} {v : Nat} (h : f.Follows s scope v) (ht : s.Later t) :
    f.Follows t scope v := by
  obtain ⟨actions, rfl⟩ := ht
  induction actions generalizing s with
  | nil => exact h
  | cons x actions ih =>
    exact ih (h.grows (Store.act_grows h.faithful.keyed x) (h.faithful.act x))

/-! ## Sessions -/

/-- A relation between the clusters before and after some work that cannot tell whether the work was
done in one go, and that looks neither at the journal nor at the failures that are set. -/
class Cluster.Frame (R : Cluster → Cluster → Prop) : Prop where
  aside : ∀ (c : Cluster) (faults : List Fault) (journal : Journal), R c { c with faults, journal }
  trans : ∀ {c d e : Cluster}, R c d → R d e → R c e

lemma Cluster.Frame.refl (R : Cluster → Cluster → Prop) [Cluster.Frame R] (c : Cluster) : R c c :=
  aside c c.faults c.journal

/-- A session that leads from every cluster to one that `R` relates to it. -/
def Session.Within (R : Cluster → Cluster → Prop) {β : Type} (m : Session β) : Prop :=
  ∀ c : Cluster, R c (m c).2

namespace Session

variable {β γ ε : Type} {R : Cluster → Cluster → Prop} [Cluster.Frame R]

lemma within_pure (b : β) : (pure b : Session β).Within R := Cluster.Frame.refl R

lemma Within.bind {m : Session β} {f : β → Session γ} (hm : m.Within R)
    (hf : ∀ b, (f b).Within R) : (m >>= f).Within R :=
  fun c => Cluster.Frame.trans (hm c) (hf (m c).1 (m c).2)

/-- A session that may fail goes on only if it has not. -/
lemma within_bind {m : ExceptT ε Session β} {f : β → ExceptT ε Session γ}
    (hm : m.run.Within R) (hf : ∀ b, (f b).run.Within R) : (m >>= f).run.Within R := by
  rw [ExceptT.run_bind]
  refine hm.bind ?_
  rintro (e | b)
  · exact within_pure _
  · exact hf b

variable {α : Type} [Resource α] [Collection α]

lemma within_call {method : Method} {key : ObjectKey} {argument : Option Json}
    {version : β → String} {act : Cluster → Except ClientError (β × Cluster)}
    (h : ∀ c b d, act c = .ok (b, d) → R c d) :
    (call α method key argument version act).run.Within R := by
  intro c
  have hfault : R c (c.takeFault (Collection.name α) method).2 := Cluster.Frame.aside c _ _
  have hnote (d : Cluster) (note : Call) : R d (d.noteCall note) := Cluster.Frame.aside d _ _
  simp only [ExceptT.run, call]
  refine Cluster.Frame.trans hfault ?_
  generalize c.takeFault (Collection.name α) method = p
  rcases p with ⟨_ | e, d⟩
  · simp only
    split
    · exact hnote d _
    next b d' hd => exact Cluster.Frame.trans (h d b d' hd) (hnote d' _)
  · exact hnote d _

lemma within_get (k : ObjectKey) : (Session.get α k).run.Within R := by
  refine within_call fun c b d h => ?_
  simp only [bind, Except.bind, pure, Except.pure] at h
  split at h
  · simp at h
  · obtain ⟨-, rfl⟩ := Prod.mk.inj (Except.ok.inj h)
    exact Cluster.Frame.refl R c

/-- A request that writes one object, and that may change the cluster elsewhere too. -/
lemma within_write {method : Method} {key : ObjectKey} {argument : Option Json}
    {version : β → String} {f : Cluster → Except ClientError (β × Store α)} {g : Cluster → Cluster}
    (h : ∀ c b s, f c = .ok (b, s) → R c (g (Collection.setStore c s))) :
    (call α method key argument version fun c => do
      let (b, s) ← f c
      return (b, g (Collection.setStore c s))).run.Within R := by
  refine within_call fun c b d hd => ?_
  simp only [bind, Except.bind, pure, Except.pure] at hd
  split at hd
  · simp at hd
  next p hp =>
    obtain ⟨-, rfl⟩ := Prod.mk.inj (Except.ok.inj hd)
    exact h c p.1 p.2 hp

end Session

/-! ## Sessions that write by requests -/

/-- The objects of a kind in one cluster come from those in another by requests. -/
def Cluster.LaterIn (α : Type) [Resource α] [Collection α] (c d : Cluster) : Prop :=
  (Collection.store c : Store α).Later (Collection.store d)

/-- A session that changes the objects of a kind by requests only. -/
def Session.Orderly (α : Type) [Resource α] [Collection α] {β : Type} (m : Session β) : Prop :=
  m.Within (Cluster.LaterIn α)

section Orderly

variable {α : Type} [Resource α] [Collection α]

lemma Cluster.laterIn_of_eq {c d : Cluster}
    (h : (Collection.store d : Store α) = Collection.store c) : c.LaterIn α d := by
  rw [LaterIn, h]
  exact .refl _

variable [LawfulCollection α]

instance : Cluster.Frame (Cluster.LaterIn α) where
  aside _ _ _ := Cluster.laterIn_of_eq (LawfulCollection.store_congr rfl rfl rfl rfl)
  trans := Store.Later.trans

namespace Session

variable {β κ : Type} [Resource κ] [Collection κ] [LawfulCollection κ]

/-- A request to one collection changes each by requests only. -/
lemma orderly_write {method : Method} {key : ObjectKey} {argument : Option Json}
    {version : β → String} {f : Cluster → Except ClientError (β × Store κ)} {g : Cluster → Cluster}
    (hf : ∀ c b s, f c = .ok (b, s) → (Collection.store c : Store κ).Later s)
    (hg : ∀ c : Cluster, c.Later (g c)) :
    (call κ method key argument version fun c => do
      let (b, s) ← f c
      return (b, g (Collection.setStore c s))).run.Orderly α := by
  refine within_write fun c b s h => ?_
  have hset := LawfulCollection.later_setStore c s (hf c b s h)
  exact (LawfulCollection.store_later hset).trans (LawfulCollection.store_later (hg _))

lemma orderly_create (ns : Option String) (a : κ) : (Session.create ns a).run.Orderly α :=
  orderly_write
    (fun c _ _ h => Store.later_of_ok (x := .create ⟨c.date, c.nextUid (Resource.kind κ)⟩ ns a) rfl h)
    (g := (·.countIssued (Resource.kind κ))) fun c => { Cluster.Later.refl c with }

lemma orderly_patch (k : ObjectKey) (p : Json) : (Session.patch κ k p).run.Orderly α :=
  orderly_write (fun _ _ _ h => Store.later_of_ok (x := .patch k p) rfl h) (g := id) .refl

lemma orderly_updateStatus (k : ObjectKey) (status : Json) (version : Option String) :
    (Session.updateStatus κ k status version).run.Orderly α :=
  orderly_write (fun _ _ _ h => Store.later_of_ok (x := .updateStatus k status version) rfl h)
    (g := id) .refl

lemma orderly_delete (k : ObjectKey) : (Session.delete κ k).run.Orderly α := by
  refine within_call fun c b d h => ?_
  simp only [Cluster.delete, bind, Except.bind, pure, Except.pure] at h
  split at h
  · simp at h
  next d' hd =>
    obtain ⟨-, rfl⟩ := Prod.mk.inj (Except.ok.inj h)
    split at hd
    · simp at hd
    next s hs =>
      obtain rfl := Except.ok.inj hd
      exact LawfulCollection.store_later
        (LawfulCollection.later_setStore c s (Store.later_delete hs))

omit [Collection κ] [LawfulCollection κ] in
lemma orderly_record (a : κ) (what : EventRecord) : (Recorder.record a what).Orderly α := by
  intro c
  have hsuffix : c.LaterIn α { c with suffixes := c.suffixes + 1 } :=
    Cluster.laterIn_of_eq (LawfulCollection.store_congr rfl rfl rfl rfl)
  exact hsuffix.trans (orderly_create (κ := Event) _ _ _)

end Session

end Orderly

/-! ## Jobs -/

/-- Work each action of which leads from every cluster to one that `R` relates to it. -/
def Job.Within (R : Cluster → Cluster → Prop) {β : Type} : Job Cluster β → Prop
  | done _ => True
  | act effect next => (∀ c : Cluster, R c (effect c)) ∧ ∀ c, (next c).Within R
  | sleep _ next => next.Within R

/-- Work that changes the objects of a kind by requests only. -/
def Job.Orderly (α : Type) [Resource α] [Collection α] {β : Type} (j : Job Cluster β) : Prop :=
  j.Within (Cluster.LaterIn α)

namespace Job

variable {β γ : Type} {R : Cluster → Cluster → Prop}

lemma Within.bind {j : Job Cluster β} {f : β → Job Cluster γ} (hj : j.Within R)
    (hf : ∀ b, (f b).Within R) : (j.bind f).Within R := by
  induction j with
  | done b => exact hf b
  | act effect next ih => exact ⟨hj.1, fun c => ih c (hj.2 c)⟩
  | sleep d next ih => exact ih hj

lemma within_lift {m : Session β} (h : m.Within R) : (lift m).Within R := ⟨h, fun _ => trivial⟩

/-- Going on until the next sleep stays within the relation, and so does what is left. -/
lemma Within.advance [Cluster.Frame R] {j : Job Cluster β} (hj : j.Within R) (c : Cluster) :
    R c (j.advance c).2 ∧ ∀ d next, (j.advance c).1 = .asleep d next → next.Within R := by
  induction j generalizing c with
  | done b => exact ⟨Cluster.Frame.refl R c, by simp [Job.advance]⟩
  | act effect next ih =>
    obtain ⟨hafter, hnext⟩ := ih c (hj.2 c) (effect c)
    exact ⟨Cluster.Frame.trans (hj.1 c) hafter, hnext⟩
  | sleep d next ih =>
    refine ⟨Cluster.Frame.refl R c, ?_⟩
    rintro _ _ ⟨⟩
    exact hj

end Job

/-- A reconciler whose work is orderly for the kind that it is for. -/
def Reconciler.Orderly {σ α : Type} [Resource α] [Collection α] (r : Reconciler σ α) : Prop :=
  ∀ a m, (r.reconcile a m).1.Orderly α ∧ (r.finalize a m).1.Orderly α

namespace Controller

open Session

variable {α : Type} [Resource α] [Collection α] {a : α} {f : String}

section Within

variable {R : Cluster → Cluster → Prop} [Cluster.Frame R]
  (hrecord : ∀ (a : α) (what : EventRecord), (Recorder.record a what).Within R)

omit [Collection α] in
lemma within_noteEnd (purpose : Purpose) (a : α) (ending : Ending Outcome) :
    (noteEnd purpose a ending).Within R :=
  fun c => Cluster.Frame.aside c c.faults _

include hrecord

omit [Collection α] in
lemma within_afterReconcile (a : α) (ending : Ending Outcome) :
    (afterReconcile a ending).Within R := by
  refine (within_noteEnd .reconcile a ending).bind fun _ => ?_
  cases ending with
  | failed e => exact (hrecord a _).bind fun _ => within_pure _
  | returned | panicked => exact (within_pure ()).bind fun _ => within_pure _

/-- The finalizer is taken only after the reconciler has cleaned up. -/
lemma within_afterFinalize {ending : Ending Unit}
    (hpatch : ending = .returned () → (Finalizer.remove a f).run.Within R) :
    (afterFinalize a f ending).Within R := by
  cases ending with
  | panicked text => exact (within_noteEnd _ a _).bind fun _ => within_pure _
  | failed e =>
    refine (within_noteEnd _ a _).bind fun _ => ?_
    exact (hrecord a _).bind fun _ => within_pure _
  | returned u =>
    refine (within_noteEnd _ a _).bind fun _ => ?_
    refine (hpatch rfl).bind ?_
    rintro (e | b)
    · exact within_pure _
    · exact (hrecord a _).bind fun _ => within_pure _

omit hrecord in
lemma within_claim (hpatch : (Finalizer.add a f).run.Within R) : (claim a f).Within R := by
  refine hpatch.bind ?_
  rintro (e | b)
  · exact within_pure _
  · exact within_pure _

end Within

/-- What is recorded leaves objects of other kinds alone. -/
lemma within_record_of_eq [LawfulCollection α] [EventFree α] {R : Cluster → Cluster → Prop}
    [Cluster.Frame R]
    (hsame : ∀ c d : Cluster, (Collection.store d : Store α) = Collection.store c → R c d)
    (a : α) (what : EventRecord) : (Recorder.record a what).Within R := by
  intro c
  have hcreate (ns : Option String) (event : Event) : (Session.create ns event).run.Within R := by
    refine within_write (g := (·.countIssued (Resource.kind Event))) fun c _ s _ => hsame c _ ?_
    rw [← EventFree.store_setEvents c s]
    exact LawfulCollection.store_congr rfl rfl rfl rfl
  refine Cluster.Frame.trans (hsame c { c with suffixes := c.suffixes + 1 } ?_) (hcreate _ _ _)
  exact LawfulCollection.store_congr rfl rfl rfl rfl

variable [LawfulCollection α]

lemma orderly_afterReconcile (a : α) (ending : Ending Outcome) :
    (afterReconcile a ending).Orderly α :=
  within_afterReconcile orderly_record a ending

lemma orderly_afterFinalize (a : α) (f : String) (ending : Ending Unit) :
    (afterFinalize a f ending).Orderly α :=
  within_afterFinalize orderly_record fun _ => orderly_patch _ _

lemma orderly_claim (a : α) (f : String) : (claim a f).Orderly α :=
  within_claim (orderly_patch _ _)

end Controller

/-! ## Reconcilers -/

lemma Reconciler.idle_orderly {σ α : Type} [Resource α] [Collection α] :
    (Reconciler.idle : Reconciler σ α).Orderly :=
  fun _ _ => ⟨trivial, trivial⟩

end ControlLoop
