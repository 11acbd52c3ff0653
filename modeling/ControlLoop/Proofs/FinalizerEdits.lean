import ControlLoop.Proofs.GuardedRemoval
import ControlLoop.Proofs.KeyLifecycle
import ControlLoop.Proofs.WrittenParts

/-!
# Edits of finalizers

A finalizer is added or removed by a patch that holds the whole list, computed from a copy of the
object. The patch is conditional on the version of the copy, so it is granted only if the copy is what is
stored, and then the list that it replaces is the one that it was computed from: the finalizers of
others stay. A controller claims only copies that are not terminating and releases only copies that are,
so it does the same to what is stored.
-/
set_option linter.unusedSectionVars false

namespace ControlLoop

open Resource (specOf statusOf)

/-! ## What the patch makes of an object -/

namespace Finalizer

variable {α : Type} [Resource α] {a b : α} {finalizers : List String}

/-- The patch replaces two members of the metadata. -/
lemma merge_patchFor {members metadata : List (String × Json)}
    (h : Json.find? "metadata" members = some (.obj metadata)) :
    (Json.obj members).merge (patchFor a finalizers) =
      .obj (Json.insertMember "metadata"
        (.obj (Json.insertMember "resourceVersion" (.str (Resource.versionText a))
          (Json.insertMember "finalizers" (.ofStrings finalizers) metadata))) members) := by
  simp [patchFor, Json.merge, Json.mergeMembers, Json.membersOf, Json.ofStrings, h]

variable [StableParts α]

/-- The object that is decoded then has the finalizers of the patch, and the spec and the status that it
had. -/
lemma parts_of_patch
    (h : Resource.decode ((Resource.toJson a).merge (patchFor a finalizers)) = .ok b) :
    (Resource.metadata b).finalizers = some finalizers ∧ specOf b = specOf a ∧
      statusOf b = statusOf a := by
  obtain ⟨members, hmembers, hincreasing⟩ := Store.exists_members a
  obtain ⟨metadata, hmetadata⟩ : ∃ metadata, (Resource.metadata a).encode.sorted = .obj metadata :=
    ⟨_, rfl⟩
  have hfind : Json.find? "metadata" members = some (.obj metadata) := by
    have htoJson := StableParts.metadata_toJson a
    rwa [hmembers, hmetadata] at htoJson
  rw [hmembers, merge_patchFor hfind] at h
  generalize hnew : Json.insertMember "resourceVersion" (.str (Resource.versionText a))
    (Json.insertMember "finalizers" (.ofStrings finalizers) metadata) = new at h
  have hdistinct := (hincreasing.insertMember "metadata" (.obj new)).distinct
  have hget (name : String) (hname : name ≠ "metadata") :
      (Json.obj (Json.insertMember "metadata" (.obj new) members)).get? name =
        (Resource.toJson a).get? name := by
    rw [hmembers, Json.get?, Json.get?, Json.find?_insertMember, if_neg hname.symm]
  have hnewget : (Json.obj (Json.insertMember "metadata" (.obj new) members)).get? "metadata" =
      some (.obj new) := by
    rw [Json.get?, Json.find?_insertMember, if_pos rfl]
  refine ⟨?_, StableSpec.specOf_decode _ b a hdistinct h (hget "spec" (by decide)),
    StableParts.statusOf_decode _ _ b a hdistinct h hnewget (hget "status" (by decide))⟩
  -- The metadata are decoded from the member that the patch has changed.
  have hdecode := StableParts.metadata_decode _ _ b hdistinct h hnewget (by simp)
  have hnewdistinct : (Json.obj new).Distinct := by
    rw [← hnew]
    exact (((Json.increasing_of_sorted hmetadata).insertMember _ _).insertMember _ _).distinct
  have hlist : (Json.obj new).get? "finalizers" = some (Json.ofStrings finalizers).sorted := by
    rw [← hnew, Json.get?, Json.find?_insertMember, if_neg (by decide), Json.find?_insertMember,
      if_pos rfl, Json.ofStrings, Json.sorted_arr]
    simp [Json.sorted]
  exact Exact.strings.eq_of_decodeOption (Metadata.finalizers_of_decode hnewdistinct hdecode hlist)

/-- A request has written the finalizers of an object, of which nothing else has changed but what the
store changes with every write. -/
structure Edited (copy : α) (finalizers : List String) (s t : Store α) (b : α) : Prop where
  before : s.objects.get? (Resource.key copy) = some copy
  finalizers_eq : (Resource.metadata b).finalizerList = finalizers
  key_eq : Resource.key b = Resource.key copy
  specOf_eq : specOf b = specOf copy
  statusOf_eq : statusOf b = statusOf copy
  generation_eq : Resource.generation b = Resource.generation copy
  /-- The object is removed if it was terminating and has no finalizer left. -/
  after : t.objects.get? (Resource.key copy) =
    if (Resource.metadata copy).isTerminating = true ∧ finalizers = [] then none else some b
  others : ∀ k, k ≠ Resource.key copy → t.objects.get? k = s.objects.get? k
  told : ∃ e, e.object? = some b ∧ t.published = s.published ++ [e]

end Finalizer

namespace Store

variable {α : Type} [Resource α] [LawfulResource α] [StableParts α] {s t : Store α} {k : ObjectKey}
  {a b : α} {finalizers : List String}

/-- A patch of the finalizers over a copy is granted only for the object of the copy, and then nothing
else is written. -/
lemma Chronicled.edited (h : s.Chronicled) (ha : s.HasPublished a)
    (hpatch : s.patch k (Finalizer.patchFor a finalizers) = .ok (b, t)) :
    Finalizer.Edited a finalizers s t b := by
  obtain ⟨hstored, -⟩ := h.patch_granted ha hpatch
  obtain ⟨current, next, hcurrent, -, hnext, hreplace⟩ := patch_ok hpatch
  obtain rfl : current = a := Option.some.inj (hcurrent.symm.trans hstored)
  obtain rfl : Resource.key current = k := h.faithful.keyed k current hstored
  obtain ⟨hlist, hspec, hstatus⟩ := Finalizer.parts_of_patch (decode_of_decodeObject hnext)
  obtain ⟨hbspec, hbstatus, hbfinalizers, hkey, -, hgeneration⟩ := replace_parts hreplace
  have hblist : (Resource.metadata b).finalizerList = finalizers := by
    rw [Metadata.finalizerList, hbfinalizers, hlist, Option.getD_some]
  refine ⟨hstored, hblist, hkey, hbspec.trans hspec, hbstatus, hgeneration hspec, ?_, fun k hk => ?_,
    ?_⟩
  · rw [get?_of_replace_self hreplace, hblist]
  · exact get?_of_replace hreplace hk.symm
  · obtain ⟨c, -, ⟨-, hremove⟩ | ⟨-, hput⟩⟩ := replace_ok hreplace
    · obtain ⟨rfl, rfl⟩ := Prod.mk.inj hremove
      exact ⟨_, rfl, rfl⟩
    · obtain ⟨rfl, rfl⟩ := Prod.mk.inj hput
      exact ⟨_, rfl, rfl⟩

/-! ## Events that edit the finalizer of a controller -/

/-- An event that adds the finalizer to an object that is not terminating and has not got it, or takes
it from one that is terminating and has it. -/
def EditsAt (s : Store α) (f : String) (i : Nat) : Prop :=
  ∃ e a b, s.published[i]? = some e ∧ e.object? = some b ∧
    (s.objectsAt i).get? (Resource.key b) = some a ∧
    ((Resource.metadata a).isTerminating = false ∧ Finalizer.has a f = false ∧
        (Resource.metadata b).finalizerList = Finalizer.withAdded a f ∨
      (Resource.metadata a).isTerminating = true ∧ Finalizer.has a f = true ∧
        (Resource.metadata b).finalizerList = Finalizer.withRemoved a f)

omit [LawfulResource α] [StableParts α] in
lemma EditsAt.of_isPrefix {f : String} {i : Nat} (h : s.EditsAt f i)
    (hst : s.published <+: t.published) : t.EditsAt f i := by
  obtain ⟨e, a, b, he, hb, ha, hedit⟩ := h
  have hi : i < s.published.length := (List.getElem?_eq_some_iff.mp he).1
  refine ⟨e, a, b, ?_, hb, ?_, hedit⟩
  · obtain ⟨events, hevents⟩ := hst
    rw [← hevents, List.getElem?_append_left hi, he]
  · rw [objectsAt_of_isPrefix hst hi.le, ha]

/-- What a granted patch over a copy publishes edits the finalizer as it is to be done for the copy. -/
lemma Chronicled.editsAt (h : s.Chronicled) (ha : s.HasPublished a)
    (hpatch : s.patch k (Finalizer.patchFor a finalizers) = .ok (b, t)) {f : String}
    (hdue : (Resource.metadata a).isTerminating = false ∧ Finalizer.has a f = false ∧
        finalizers = Finalizer.withAdded a f ∨
      (Resource.metadata a).isTerminating = true ∧ Finalizer.has a f = true ∧
        finalizers = Finalizer.withRemoved a f) {i : Nat}
    (hi : s.published.length ≤ i) (hi' : i < t.published.length) : t.EditsAt f i := by
  have hedited := h.edited ha hpatch
  obtain ⟨e, hb, hpublished⟩ := hedited.told
  obtain rfl : i = s.published.length := by
    rw [hpublished, List.length_append, List.length_singleton] at hi'
    omega
  refine ⟨e, a, b, by simp [hpublished], hb, ?_, ?_⟩
  · rw [objectsAt_of_isPrefix ⟨[e], hpublished.symm⟩ le_rfl, h.faithful.length_published,
      h.faithful.objectsAt_now, hedited.key_eq, hedited.before]
  · rw [hedited.finalizers_eq]
    exact hdue

end Store

namespace Finalizer

variable {α : Type} [Resource α] [LawfulResource α] [StableParts α] [Collection α]
  [LawfulCollection α] {copy : α}

/-- What comes of an edit that a client asks for. -/
lemma edit_reply {c : Cluster} (hc : (Collection.store c : Store α).Chronicled)
    (hcopy : (Collection.store c : Store α).HasPublished copy) (finalizers : List String) :
    let edit := Session.patch α (target copy) (patchFor copy finalizers) c
    (∀ b, edit.1 = .ok b →
      Edited copy finalizers (Collection.store c) (Collection.store edit.2) b) ∧
    ∀ e, edit.1 = .error e → (Collection.store edit.2 : Store α) = Collection.store c := by
  intro edit
  have hreply : Session.Reply c edit _ :=
    Session.patch_reply (target copy) (patchFor copy finalizers) c
  cases hreply with
  | refused e error same =>
    rw [error]
    exact ⟨nofun, fun _ _ => same⟩
  | granted b t ok value stored =>
    rw [value, stored]
    refine ⟨fun b' hb' => ?_, nofun⟩
    obtain rfl := Except.ok.inj hb'
    exact hc.edited hcopy ok

end Finalizer

/-! ## The writes of a controller -/

/-- What has been written since edits the finalizer of a controller. -/
def Store.EditsOnly {α : Type} [Resource α] (f : String) (a : α) (s t : Store α) : Prop :=
  s.Later t ∧ (s.Chronicled → s.HasPublished a →
    ∀ i, s.published.length ≤ i → i < t.published.length → t.EditsAt f i)

def Cluster.EditsOnly {α : Type} [Resource α] [Collection α] (f : String) (a : α) (c d : Cluster) :
    Prop :=
  Store.EditsOnly f a (Collection.store c) (Collection.store d)

section EditsOnly

variable {α : Type} [Resource α] {f : String} {a : α}

lemma Store.EditsOnly.refl (s : Store α) : s.EditsOnly f a s :=
  ⟨.refl _, fun _ _ _ hi hi' => absurd hi' (by omega)⟩

lemma Store.EditsOnly.trans [LawfulResource α] {s t u : Store α} (h : s.EditsOnly f a t)
    (h' : t.EditsOnly f a u) : s.EditsOnly f a u := by
  refine ⟨h.1.trans h'.1, fun hs ha i hi hi' => ?_⟩
  obtain ⟨ht, hst⟩ := hs.later h.1
  obtain ⟨-, htu⟩ := ht.later h'.1
  -- An event is of the first part or of the second one.
  rcases Nat.lt_or_ge i t.published.length with hlt | hge
  · exact (h.2 hs ha i hi hlt).of_isPrefix htu
  · exact h'.2 ht (ha.of_isPrefix hst) i hge hi'

variable [Collection α]

lemma Cluster.editsOnly_of_eq (c d : Cluster)
    (h : (Collection.store d : Store α) = Collection.store c) : c.EditsOnly f a d := by
  rw [EditsOnly, h]
  exact .refl _

variable [LawfulResource α] [LawfulCollection α]

instance : Cluster.Frame (Cluster.EditsOnly f a) where
  aside _ _ _ := Cluster.editsOnly_of_eq _ _ (LawfulCollection.store_aside _ _ _)
  trans := Store.EditsOnly.trans

lemma Controller.editsOnly_patch [StableParts α] {k : ObjectKey} {finalizers : List String}
    (hdue : Resource.isTerminating a = false ∧ Finalizer.has a f = false ∧
        finalizers = Finalizer.withAdded a f ∨
      Resource.isTerminating a = true ∧ Finalizer.has a f = true ∧
        finalizers = Finalizer.withRemoved a f) :
    (Session.patch α k (Finalizer.patchFor a finalizers)).run.Within (Cluster.EditsOnly f a) := by
  refine Session.within_write (g := id) fun c b s hs => ?_
  rw [Cluster.EditsOnly, id, LawfulCollection.store_setStore]
  refine ⟨Store.later_of_ok (x := .patch k (Finalizer.patchFor a finalizers)) rfl hs, ?_⟩
  intro hc ha i hi hi'
  exact hc.editsAt ha hs hdue hi hi'

end EditsOnly

section Errands

variable {α : Type} [Resource α] [Collection α]

/-- By its own action the controller edits its finalizer: it adds it to an object that it claims, which is
not terminating, and takes it from one that has been cleaned up after, which is. -/
lemma Errand.Fit.editsOnly [LawfulResource α] [StableParts α] [LawfulCollection α] [EventFree α]
    {f : String} {s : Store α} {calls : List (ReconcilerCall α)} {e : Errand α}
    (h : e.Fit f s calls) (hproper : ∀ call ∈ calls, call.Proper f)
    (hclaim : ∀ a g, e = .claim a g → Resource.isTerminating a = false) (hown : e.isOwn = true)
    {effect : Cluster → Cluster} {rest : Cluster → Task Outcome} (hjob : e.job = .act effect rest)
    (c : Cluster) : c.EditsOnly f e.copy (effect c) := by
  have hduty := h.duty
  cases e with
  | reconcile w task =>
    cases task with
    | done ending =>
      obtain ⟨rfl, -⟩ := Job.act.inj hjob
      exact Controller.within_afterReconcile
        (Controller.within_record_of_eq Cluster.editsOnly_of_eq) w ending c
    | act | sleep => simp [Errand.isOwn] at hown
  | finalize w g task =>
    obtain ⟨rfl, hcall⟩ := hduty
    obtain ⟨hhas, hmarked⟩ := hproper _ hcall
    cases task with
    | done ending =>
      obtain ⟨rfl, -⟩ := Job.act.inj hjob
      refine Controller.within_afterFinalize
        (Controller.within_record_of_eq Cluster.editsOnly_of_eq) (fun _ => ?_) c
      exact Controller.editsOnly_patch (.inr ⟨hmarked.mpr rfl, hhas, rfl⟩)
    | act | sleep => simp [Errand.isOwn] at hown
  | claim w g =>
    obtain ⟨rfl, hlacks⟩ := hduty
    obtain ⟨rfl, -⟩ := Job.act.inj hjob
    exact Controller.within_claim
      (Controller.editsOnly_patch (.inl ⟨hclaim w g rfl, hlacks, rfl⟩)) c

lemma Errand.next_ne_claim (e : Errand α) (c : Cluster) (a : α) (g : String) :
    e.next c ≠ some (.claim a g) := by
  unfold Errand.next
  split <;> simp

/-- Only objects that are not terminating are claimed. -/
lemma Controller.unmarked_of_claim {finalizer : Option String} {read : Option α} {a : α}
    {g : String} (h : dutyFor finalizer read = .claim a g) : Resource.isTerminating a = false := by
  rcases read with _ | b
  · cases h
  by_cases hmarked : Resource.isTerminating b = true
  · rcases finalizer with _ | f
    · simp [dutyFor, hmarked] at h
    · by_cases hhas : Finalizer.has b f = true <;> simp [dutyFor, hmarked, hhas] at h
  · rcases finalizer with _ | f
    · simp [dutyFor, hmarked] at h
    · by_cases hhas : Finalizer.has b f = true
      · simp [dutyFor, hmarked, hhas] at h
      · obtain ⟨rfl, -⟩ : b = a ∧ f = g := by simpa [dutyFor, hmarked, hhas] using h
        simpa using hmarked

lemma Controller.unmarked_of_errandFor {σ : Type} {c : Controller σ α} {k : ObjectKey} {a : α}
    {g : String} (h : c.errandFor k = some (.claim a g)) : Resource.isTerminating a = false := by
  unfold errandFor at h
  cases hduty : dutyFor c.config.finalizer (c.informer.cache.get? k) with
  | claim b f =>
    rw [hduty] at h
    obtain ⟨rfl, rfl⟩ := Errand.claim.inj (Option.some.inj h)
    exact unmarked_of_claim hduty
  | nothing | reconcile | finalize => simp [hduty] at h

end Errands

/-! ## Runs -/

variable {σ α : Type} [Resource α] [Collection α] [LawfulCollection α]

/-- Whatever happens to a controller, if what its workers have to do changes the objects by requests
only, then the objects change by requests only. -/
lemma Observed.later_of_orderly (x : Observed σ α)
    (hworkers : ∀ w ∈ x.controller.workers, w.Orderly α) (m : ControllerMove α) :
    x.controller.store.Later (x.move m).controller.store := by
  by_cases hm : ∀ n, m ≠ .step (.worker n) ∧ m ≠ .progress n
  · exact x.move_later hm
  obtain ⟨n, rfl | rfl⟩ : ∃ n, m = .step (.worker n) ∨ m = .progress n := by
    simpa only [not_forall, not_and_or, not_not] using hm
  · simp only [Observed.move, Controller.step]
    rcases hn : x.controller.workers[n]? with _ | w
    · simp only [Controller.stepWorker, hn]
      exact .refl _
    by_cases hholding : ∃ k, w = .holding k
    · obtain ⟨k, rfl⟩ := hholding
      obtain ⟨job, memory, cluster, heq, hwidgets, -⟩ :=
        (x.controller.setWorker n .idle).beginWork_errand k
      simp only [Controller.stepWorker, hn, heq]
      change x.controller.store.Later (Collection.store cluster)
      rw [hwidgets]
      exact .refl _
    by_cases hbusy : ∃ k job, w = .busy k job
    · obtain ⟨k, job, rfl⟩ := hbusy
      have hjob : job.Orderly α := hworkers _ (List.mem_of_getElem? hn)
      obtain ⟨hlater, -⟩ := hjob.advance x.controller.cluster
      rcases hadvance : job.advance x.controller.cluster with ⟨ending | ⟨d, next⟩, cluster⟩ <;>
        rw [hadvance] at hlater <;>
        obtain ⟨agenda, hcluster⟩ := x.controller.setCluster_eq cluster <;>
        simp only [Controller.stepWorker, hn, hadvance, hcluster] <;>
        exact hlater
    · obtain ⟨v, queue, tally, agenda, -, heq⟩ := x.controller.stepWorker_rest hn
        (fun k hk => hholding ⟨k, hk⟩) fun k job hk => hbusy ⟨k, job, hk⟩
      rw [heq]
      exact .refl _
  · simp only [Observed.move]
    split
    next k effect next hn =>
      have hjob : (Job.act effect next).Orderly α := hworkers _ (List.mem_of_getElem? hn)
      obtain ⟨agenda, hcluster⟩ := x.controller.setCluster_eq (effect x.controller.cluster)
      rw [hcluster]
      exact hjob.1 _
    · exact .refl _

namespace Attended

variable [LawfulResource α] [EventFree α] {x : Attended σ α} {reconciler : Reconciler σ α} {memory : σ}
  {scope : Option String} {f : String}

lemma Sound.workers_orderly (h : Sound reconciler memory scope f x) :
    ∀ w ∈ x.controller.workers, w.Orderly α := by
  intro w hw
  obtain ⟨n, hn⟩ := List.getElem?_of_mem hw
  have hsuits := h.suits n w hn
  have hjob (job : Task Outcome) (hw : w.job? = some job) : job.Orderly α := by
    rcases he : x.errand n with _ | e <;> rw [he] at hsuits
    · obtain ⟨ending, rfl⟩ := hsuits job hw
      trivial
    · obtain rfl := Option.some.inj (hsuits.symm.trans hw)
      exact (h.fit n e he).orderly
  cases w with
  | busy k job | asleep k job => exact hjob job rfl
  | idle | holding | leaving | returning | exited => trivial

lemma Sound.move_isPrefix (h : Sound reconciler memory scope f x) (m : ControllerMove α) :
    x.store.published <+: (x.move m).store.published := by
  have hlater := x.toObserved.later_of_orderly h.workers_orderly (m.single x.controller)
  rw [← move_toObserved] at hlater
  exact (h.chronicled.later hlater).2

/-- After a move a worker is on the errand that it was on before, on what is left of it, or on one for
which it has just looked at the copy. -/
lemma move_errand {m : ControllerMove α} {n : Nat} {e : Errand α} (he : (x.move m).errand n = some e) :
    x.errand n = some e ∨ (∃ e₀ c, x.errand n = some e₀ ∧ e₀.next c = some e) ∨
      ∃ k, x.controller.errandFor k = some e := by
  have hupdate {l : Nat} {o : Option (Errand α)} (h : Function.update x.errand l o n = some e) :
      x.errand n = some e ∨ n = l ∧ o = some e := by
    by_cases hn : n = l
    · subst hn
      rw [Function.update_self] at h
      exact .inr ⟨rfl, h⟩
    · rw [Function.update_of_ne hn] at h
      exact .inl h
  unfold move at he
  split at he
  next l hl =>
    unfold stepped at he
    split at he
    · rcases hupdate he with hold | ⟨-, hnew⟩
      · exact .inl hold
      · exact .inr (.inr ⟨_, hnew⟩)
    · rcases hupdate he with hold | ⟨rfl, hnext⟩
      · exact .inl hold
      · obtain ⟨e₀, he₀, hnext⟩ := Option.bind_eq_some_iff.mp hnext
        exact .inr (.inl ⟨e₀, _, he₀, hnext⟩)
    · exact .inl he
  next l hl =>
    unfold acted at he
    split at he
    next he₀ =>
      rcases hupdate he with hold | ⟨rfl, hnext⟩
      · exact .inl hold
      · exact .inr (.inl ⟨_, _, he₀, hnext⟩)
    · exact .inl he
  · exact .inl he

/-- What a controller itself publishes by a move is published by an action of one of its errands. -/
lemma move_own {m : ControllerMove α} {i : Nat} (hi : i ∈ (x.move m).own) :
    i ∈ x.own ∨ ∃ n k effect rest e, x.controller.workers[n]? = some (.busy k (.act effect rest)) ∧
      x.errand n = some e ∧ e.isOwn = true ∧
      (x.move m).store = Collection.store (effect x.controller.cluster) ∧
      x.store.published.length ≤ i ∧ i < (x.move m).store.published.length := by
  unfold move at hi
  split at hi
  next l hl =>
    unfold stepped at hi
    split at hi <;> exact .inl hi
  next l hl =>
    unfold acted at hi
    split at hi
    next k effect rest e hn he =>
      have hobserved : (x.move m).store =
          (x.toObserved.move (.progress l)).controller.store := by
        rw [store, move_toObserved, hl]
      obtain ⟨agenda, hcluster⟩ := x.controller.setCluster_eq (effect x.controller.cluster)
      have hstore : (x.move m).store = Collection.store (effect x.controller.cluster) := by
        rw [hobserved]
        simp only [Observed.move, hn, hcluster]
        rfl
      rcases List.mem_append.mp hi with hnew | hold
      · split at hnew
        next hown =>
          obtain ⟨hle, hlt⟩ := List.mem_range'_1.mp hnew
          refine .inr ⟨l, k, effect, rest, e, hn, he, hown, hstore, hle, ?_⟩
          rw [hl, ← hobserved] at hlt
          omega
        · cases hnew
      · exact .inl hold
    · exact .inl hi
  · exact .inl hi

/-- Besides what is sound, the objects that are claimed are not terminating, and what the controller
itself has published are edits of its finalizer. -/
structure Careful (f : String) (x : Attended σ α) : Prop where
  claims : ∀ n w g, x.errand n = some (.claim w g) → Resource.isTerminating w = false
  own : ∀ i ∈ x.own, x.store.EditsAt f i

variable [StableParts α]

lemma Careful.move (hx : x.Careful f) (h : Sound reconciler memory scope f x) (m : ControllerMove α) :
    (x.move m).Careful f := by
  refine ⟨fun n w g he => ?_, fun i hi => ?_⟩
  · rcases move_errand he with hold | ⟨e₀, c, -, hnext⟩ | ⟨k, hfor⟩
    · exact hx.claims n w g hold
    · exact absurd hnext (e₀.next_ne_claim c w g)
    · exact Controller.unmarked_of_errandFor hfor
  · rcases move_own hi with hold | ⟨n, k, effect, rest, e, hn, he, hown, hstore, hle, hlt⟩
    · exact (hx.own i hold).of_isPrefix (h.move_isPrefix m)
    · have hjob : e.job = .act effect rest := by
        have hsuits := h.suits n _ hn
        rw [he] at hsuits
        exact (Option.some.inj hsuits).symm
      have hedits := (h.fit n e he).editsOnly h.proper (fun w g hw => hx.claims n w g (hw ▸ he)) hown
        hjob x.controller.cluster
      rw [hstore] at hlt ⊢
      exact hedits.2 h.chronicled (h.fit n e he).published i hle hlt

lemma Careful.after (hx : x.Careful f) (h : Sound reconciler memory scope f x)
    (hr : reconciler.Orderly) (moves : List (ControllerMove α)) : (x.after moves).Careful f := by
  induction moves generalizing x with
  | nil => exact hx
  | cons m moves ih => exact ih (hx.move h m) (h.move hr m)

lemma run_careful {config : ControllerConfig} (hf : config.finalizer = some f)
    (predicate : Predicate α) (hr : reconciler.Orderly) (memory : σ) (cluster : Cluster)
    (limit : Nat) (moves : List (ControllerMove α)) :
    (run config predicate reconciler memory cluster limit moves).Careful f :=
  Careful.after ⟨by simp [start], by simp [start]⟩
    (start_sound hf predicate reconciler memory cluster limit) hr moves

end Attended

namespace Finalizer

/-- An edit of the finalizers over a copy, whatever other clients have done since the copy was made,
either fails and leaves the store as it is, or finds the copy stored and changes the list of finalizers:
the one that is added comes to the end, the one that is removed goes, and all others stay in their order.
The spec, the status and the generation of the object stay, and all other objects. So a controller adds
its finalizer only to what is not terminating in the store, and takes it only from what is. -/
theorem edits_keep_others {α : Type} [Resource α] [LawfulResource α] [StableParts α] [Collection α]
    [LawfulCollection α] (limit : Nat) (xs ys : List (Store.Action α)) (copy : α)
    (hcopy : Store.Obtained limit xs copy) (f : String) (c : Cluster)
    (hc : Collection.store c = Store.run limit (xs ++ ys)) :
    let s := Store.run limit (xs ++ ys)
    let list := (Resource.metadata copy).finalizerList
    (∀ b d, add copy f c = (.ok b, d) → Edited copy (list ++ [f]) s (Collection.store d) b) ∧
    (∀ b d, remove copy f c = (.ok b, d) →
      Edited copy (list.filter (· != f)) s (Collection.store d) b) ∧
    (∀ e d, add copy f c = (.error e, d) ∨ remove copy f c = (.error e, d) →
      Collection.store d = s) ∧
    (∀ finalizers e t, Edit.patch (target copy) (patchFor copy finalizers) s = (.error e, t) →
      t = s) ∧
    ∀ (σ κ : Type) [Resource κ] [LawfulResource κ] [StableParts κ] [Collection κ]
      [LawfulCollection κ] [EventFree κ] (config : ControllerConfig) (predicate : Predicate κ)
      (reconciler : Reconciler σ κ) (memory : σ) (cluster : Cluster) (limit : Nat)
      (moves : List (ControllerMove κ)), config.finalizer = some f → reconciler.Orderly →
      let x := Attended.run config predicate reconciler memory cluster limit moves
      ∀ i ∈ x.own, x.store.EditsAt f i := by
  intro s list
  have hs : (Collection.store c : Store α).Chronicled := by
    rw [hc]
    exact Store.run_chronicled limit (xs ++ ys)
  have hpublished : (Collection.store c : Store α).HasPublished copy := by
    rw [hc]
    exact hcopy.hasPublished.of_isPrefix (Store.run_isPrefix limit xs ys)
  have hadd := edit_reply hs hpublished (withAdded copy f)
  have hremove := edit_reply hs hpublished (withRemoved copy f)
  rw [hc] at hadd hremove
  refine ⟨fun b d h => ?_, fun b d h => ?_, ?_, fun finalizers e t h => ?_, ?_⟩
  · change Session.patch α _ _ c = _ at h
    rw [h] at hadd
    exact hadd.1 b rfl
  · change Session.patch α _ _ c = _ at h
    rw [h] at hremove
    exact hremove.1 b rfl
  · rintro e d (h | h)
    · change Session.patch α _ _ c = _ at h
      rw [h] at hadd
      exact hadd.2 e rfl
    · change Session.patch α _ _ c = _ at h
      rw [h] at hremove
      exact hremove.2 e rfl
  · have hatomic := Edit.atomic_patch (target copy) (patchFor copy finalizers) s e
    rw [h] at hatomic
    exact hatomic rfl
  · intro σ κ _ _ _ _ _ _ config predicate reconciler memory cluster limit moves hf hr
    exact (Attended.run_careful hf predicate hr memory cluster limit moves).own

/-- The held widget as the store has it after its creation. -/
def heldCopy : Widget where
  metadata := {
    name := some "a"
    ns := some "default"
    uid := some "u"
    generation := some 1
    creationTimestamp := some { seconds := 0 }
    finalizers := some ["f"]
    resourceVersion := some "1" }
  spec := { replicas := 1 }

/-- A cluster with the held widget, on which other clients have acted since. -/
def heldCluster (ys : List (Store.Action Widget)) : Cluster :=
  { Cluster.new { seconds := 0 } "controller" with widgets := Store.run 1 ([Store.heldWidget] ++ ys) }

lemma heldCluster_store (ys : List (Store.Action Widget)) :
    Collection.store (heldCluster ys) = Store.run 1 ([Store.heldWidget] ++ ys) := rfl

/-- A second finalizer is added behind the first one. After a change of the spec the copy is old, and
the first finalizer is not removed by means of it. -/
theorem edits_keep_others_held :
    let k : ObjectKey := ⟨some "default", "a"⟩
    let change : Store.Action Widget := .patch k (.obj [("spec", .obj [("replicas", .int 2)])])
    (∃ b d, add heldCopy "g" (heldCluster []) = (.ok b, d) ∧
      b.metadata.finalizerList = ["f", "g"] ∧ d.widgets.objects.get? k = some b ∧
      specOf b = specOf heldCopy) ∧
    (∃ e d, remove heldCopy "f" (heldCluster [change]) = (.error e, d) ∧
      d.widgets = (heldCluster [change]).widgets) ∧
    ∃ i ∈ Attended.afterConflict.own, Attended.afterConflict.store.EditsAt "f" i := by
  intro k change
  have hruns : (Store.run 1 [Store.heldWidget]).get k = .ok heldCopy ∧
      (add heldCopy "g" (heldCluster [])).1.isOk = true ∧
      (remove heldCopy "f" (heldCluster [change])).1.isOk = false ∧
      1 ∈ Attended.afterConflict.own := by
    decide +kernel
  obtain ⟨hread, hadd, hremove, hown⟩ := hruns
  have happly (ys : List (Store.Action Widget)) (g : String) := edits_keep_others 1 [Store.heldWidget] ys
    heldCopy (.read hread) g (heldCluster ys) (heldCluster_store ys)
  refine ⟨?_, ?_, 1, hown, ?_⟩
  · rcases hg : add heldCopy "g" (heldCluster []) with ⟨e | b, d⟩
    · simp [hg, Except.isOk, Except.toBool] at hadd
    · have hedited := (happly [] "g").1 b d hg
      have hstored := hedited.after
      rw [if_neg (by simp)] at hstored
      exact ⟨b, d, rfl, hedited.finalizers_eq, hstored, hedited.specOf_eq⟩
  · rcases hf : remove heldCopy "f" (heldCluster [change]) with ⟨e | b, d⟩
    · have hsame := (happly [change] "f").2.2.1 e d (.inr hf)
      rw [← heldCluster_store] at hsame
      exact ⟨e, d, rfl, hsame⟩
    · simp [hf, Except.isOk, Except.toBool] at hremove
  · rw [Attended.afterConflict] at hown ⊢
    exact (happly [] "f").2.2.2.2 Unit Widget _ .always .idle () _ 10 Attended.conflicted rfl
      Reconciler.idle_orderly 1 hown

end Finalizer

end ControlLoop
