import ControlLoop.Proofs.ConditionalWrites
import ControlLoop.Proofs.StableParts

/-!
# Metadata that belongs to the store

Whatever clients send, the address, the identity and the times of an object are the store's. From its
creation to its removal an object stays where it is and who it is, its version grows with every write,
its generation counts the writes that have changed its spec, and a mark for removal is set by a request
for that and stays.
-/
namespace ControlLoop.Store

open Resource (specOf)

variable {α : Type} [Resource α] {s t : Store α} {x : Action α} {k : ObjectKey} {a b c : α}

/-! ## What a write keeps -/

lemma decode_of_decodeObject {v : Json} (h : decodeObject v = .ok a) : Resource.decode v = .ok a := by
  unfold decodeObject at h
  split at h
  next c hc => rw [hc, Except.ok.inj h]
  · cases h

/-- The document that a write decodes names nothing twice. -/
lemma distinct_withStatusOf (old v : Json) : (withStatusOf old v.sorted).Distinct := by
  unfold withStatusOf
  split
  next hv => exact ((Json.increasing_of_sorted hv).insertMember _ _).distinct
  next hv => exact ((Json.increasing_of_sorted hv).eraseMember _).distinct
  · exact Json.distinct_sorted v

/-- It has the spec that was sent. -/
lemma get?_withStatusOf (old new : Json) {name : String} (hname : name ≠ "status") :
    (withStatusOf old new).get? name = new.get? name := by
  unfold withStatusOf
  split
  · rw [Json.get?, Json.get?, Json.find?_insertMember, if_neg hname.symm]
  · rw [Json.get?, Json.get?, Json.find?_eraseMember, if_neg hname.symm]
  · rfl

/-- `b` is what a granted request has made of `a`, the object of a key. -/
structure Succeeds (x : Action α) (k : ObjectKey) (a b : α) : Prop where
  ns_eq : (Resource.metadata b).ns = (Resource.metadata a).ns
  name_eq : (Resource.metadata b).name = (Resource.metadata a).name
  uid_eq : Resource.uid b = Resource.uid a
  creationTimestamp_eq :
    (Resource.metadata b).creationTimestamp = (Resource.metadata a).creationTimestamp
  /-- The generation grows by one if the spec has changed, and stays otherwise. -/
  generation_eq : Resource.generation b =
    if specOf b = specOf a then Resource.generation a else (Resource.generation a).map (· + 1)
  /-- The version is a greater number. -/
  version_lt : ∃ m n : Nat,
    Resource.versionText a = toString m ∧ Resource.versionText b = toString n ∧ m < n
  /-- The mark for removal stays as it is, unless it is set by a request for removal. -/
  deletionTimestamp_eq :
    (Resource.metadata b).deletionTimestamp = (Resource.metadata a).deletionTimestamp ∨
      (Resource.metadata a).deletionTimestamp = none ∧
        ∃ now, x = .delete now k ∧ (Resource.metadata b).deletionTimestamp = some now

/-- What an action can do to the object of a key. -/
inductive Fate (s : Store α) (x : Action α) (k : ObjectKey) : Prop
  /-- Nothing, unless the action is a request for the object that is granted. -/
  | kept (same : (s.act x).objects.get? k = s.objects.get? k)
      (ungranted : x.target = some k → x.Repeats s ∨ ∃ e, (x.request s).1 = .error e)
  /-- A request creates it under a key that was free. -/
  | created (b : α) (free : s.objects.get? k = none) (stored : (s.act x).objects.get? k = some b)
      (request : ∃ stamp object, x = .create stamp k.ns object ∧
        Resource.uid b = some stamp.uid ∧
        (Resource.metadata b).creationTimestamp = some stamp.now)
      (own_ns : (Resource.metadata b).ns = k.ns) (own_name : (Resource.metadata b).name = some k.name)
      (first : Resource.generation b = some 1)
      (unmarked : (Resource.metadata b).deletionTimestamp = none)
  /-- A request puts a successor in its place. -/
  | changed (a b : α) (before : s.objects.get? k = some a)
      (stored : (s.act x).objects.get? k = some b) (succeeds : Succeeds x k a b)
  /-- A request removes it, and its last version is told. -/
  | removed (a b : α) (before : s.objects.get? k = some a) (free : (s.act x).objects.get? k = none)
      (told : (s.act x).published = s.published ++ [.deleted b]) (succeeds : Succeeds x k a b)

/-- The version of a stored object is a revision that the store has had. -/
lemma Faithful.version_of_stored (h : s.Faithful) (ha : s.objects.get? k = some a) :
    ∃ n ≤ s.revision, Resource.versionText a = toString n := by
  obtain ⟨i, e, hi, -, hversion⟩ := h.version_of_published (h.hasPublished_of_stored ha)
  have hlt := (List.getElem?_eq_some_iff.mp hi).1
  rw [h.length_published] at hlt
  exact ⟨i + 1, hlt, hversion⟩

variable [LawfulResource α] [StableSpec α]

/-- What takes the place of an object has the metadata that the store owns, and its generation tells
whether it has another spec. -/
lemma replacement_owned {next : α} {keepStatus : Bool} (h : replacement a next keepStatus = .ok b) :
    ∃ m, Resource.metadata b = ownedMetadata (Resource.metadata a) m (specOf b ≠ specOf a) := by
  rw [replacement] at h
  generalize hnew : (if keepStatus = true then
    withStatusOf (Resource.toJson a) (Resource.toJson next) else Resource.toJson next) = new at h
  have hsent : new.Distinct ∧ new.get? "spec" = specOf next := by
    rw [← hnew]
    split
    · exact ⟨distinct_withStatusOf _ _, get?_withStatusOf _ _ (by decide)⟩
    · exact ⟨Json.distinct_sorted _, rfl⟩
  obtain ⟨c, hc, hb⟩ := bind_eq_ok h
  obtain rfl := Except.ok.inj hb
  -- The generation is decided by the spec that was sent, which is the spec that is kept.
  have hspec : specOf c = new.get? "spec" := by
    rw [hsent.2]
    exact StableSpec.specOf_decode new c next hsent.1 (decode_of_decodeObject hc) hsent.2
  refine ⟨Resource.metadata c, ?_⟩
  rw [LawfulResource.metadata_setMetadata, StableSpec.specOf_setMetadata, hspec]
  congr 1
  exact decide_eq_decide.mpr ⟨Ne.symm, Ne.symm⟩

/-- What keeps the owned metadata of a stored object succeeds it with the next version. -/
lemma succeeds_versioned (hs : s.Faithful) (ha : s.objects.get? k = some a) (x : Action α)
    {m : Metadata} {deleted : Option Timestamp}
    (hm : Resource.metadata b = { ownedMetadata (Resource.metadata a) m (specOf b ≠ specOf a) with
      deletionTimestamp := deleted })
    (hdeleted : deleted = (Resource.metadata a).deletionTimestamp ∨
      (Resource.metadata a).deletionTimestamp = none ∧ ∃ now, x = .delete now k ∧ deleted = some now) :
    Succeeds x k a (versioned (s.revision + 1) b) := by
  obtain ⟨n, hn, hversion⟩ := hs.version_of_stored ha
  have hspec : specOf (versioned (s.revision + 1) b) = specOf b := StableSpec.specOf_setMetadata _ _
  have hmetadata := metadata_versioned (s.revision + 1) b
  rw [hm] at hmetadata
  refine ⟨by rw [hmetadata]; rfl, by rw [hmetadata]; rfl, by rw [Resource.uid, hmetadata]; rfl,
    by rw [hmetadata]; rfl, ?_, ⟨n, s.revision + 1, hversion, versionText_versioned _ _, by omega⟩,
    by rw [hmetadata]; exact hdeleted⟩
  rw [hspec, Resource.generation, hmetadata]
  by_cases hsame : specOf b = specOf a <;> simp [ownedMetadata, hsame, Resource.generation]

/-! ## What an action can do -/

section Stored

omit [LawfulResource α] [StableSpec α]

lemma published_remove (h : (s.remove k a).2 = t) :
    t.published = s.published ++ [.deleted (versioned (s.revision + 1) a)] := by
  rw [← h]
  rfl

lemma act_of_refused {e : ClientError} (h : (x.request s).1 = .error e) : s.act x = s := by
  rw [← request_snd]
  exact atomic_request x s e h

end Stored

omit [StableSpec α] in
/-- An action on another object, or on none, does nothing to the object of a key. -/
lemma Faithful.get?_act_of_ne (hs : s.Faithful) (hk : x.target ≠ some k) :
    (s.act x).objects.get? k = s.objects.get? k := by
  cases htarget : x.target with
  | none => cases x <;> first | rfl | simp [Action.target] at htarget
  | some j =>
    have hjk : j ≠ k := fun h => hk (h ▸ htarget)
    cases hanswer : (x.request s).1 with
    | error e => rw [act_of_refused hanswer]
    | ok c =>
      rcases request_granted hs.keyed htarget hanswer with ⟨-, hsame⟩ | ⟨-, e, a, ha, hkey, -, -, hwrote⟩
      · rw [hsame]
      · rw [hwrote]
        exact WatchEvent.get?_apply_ne s.objects ha (hkey ▸ hjk)

/-- A write in the place of an object puts a successor there, or removes it. -/
lemma Faithful.fate_of_replace (hs : s.Faithful) (ha : s.objects.get? k = some a) {next : α}
    {keepStatus : Bool} (h : s.replace k a next keepStatus = .ok (b, s.act x)) : s.Fate x k := by
  obtain ⟨c, hc, hwrite⟩ := replace_ok h
  obtain ⟨m, hm⟩ := replacement_owned hc
  have hsucceeds : Succeeds x k a (versioned (s.revision + 1) c) :=
    succeeds_versioned hs ha x hm (.inl rfl)
  rcases hwrite with ⟨-, hremove⟩ | ⟨-, hput⟩
  · have hact : (s.remove k c).2 = s.act x := congrArg Prod.snd hremove
    refine .removed a _ ha ?_ (published_remove hact) hsucceeds
    rw [← hact, get?_remove, if_pos rfl]
  · have hact : (s.put k .modified c).2 = s.act x := congrArg Prod.snd hput
    refine .changed a _ ha ?_ hsucceeds
    rw [← hact, get?_put, if_pos rfl]

omit [StableSpec α] in
/-- A new object begins with the metadata that the store gives it. -/
lemma fate_of_create {stamp : Stamp} {ns : Option String} {object : α}
    (h : s.create stamp ns object = .ok (b, s.act (.create stamp ns object)))
    (hk : k = ⟨ns, (Resource.metadata object).name.getD ""⟩) :
    s.Fate (.create stamp ns object) k := by
  obtain ⟨name, hname, hfree, hput⟩ := create_ok h
  obtain rfl : k = ⟨ns, name⟩ := by rw [hk, hname, Option.getD_some]
  have hmetadata := metadata_versioned (s.revision + 1)
    (Resource.setMetadata object (firstMetadata stamp ns (Resource.metadata object)))
  rw [LawfulResource.metadata_setMetadata] at hmetadata
  have hstored : (s.act (.create stamp ns object)).objects.get? ⟨ns, name⟩ =
      some (versioned (s.revision + 1)
        (Resource.setMetadata object (firstMetadata stamp ns (Resource.metadata object)))) := by
    rw [← show _ = s.act (.create stamp ns object) from congrArg Prod.snd hput, get?_put, if_pos rfl]
  refine .created _ hfree hstored ⟨stamp, object, rfl, ?_, ?_⟩ ?_ ?_ ?_ ?_
  · rw [Resource.uid, hmetadata]
    rfl
  · rw [hmetadata]
    rfl
  · rw [hmetadata]
    rfl
  · rw [hmetadata]
    exact hname
  · rw [Resource.generation, hmetadata]
    rfl
  · rw [hmetadata]
    rfl

/-- A request for removal removes the object or marks it, unless it is marked already. -/
lemma Faithful.fate_of_delete (hs : s.Faithful) {now : Timestamp}
    (h : s.delete now k = .ok (s.act (.delete now k))) : s.Fate (.delete now k) k := by
  obtain ⟨a, ha, hcases⟩ := delete_ok h
  obtain ⟨-, hact⟩ | ⟨hheld, ⟨hmarked, hact⟩ | ⟨hunmarked, hact⟩⟩ := hcases
  · have hsucceeds : Succeeds (.delete now k) k a (versioned (s.revision + 1) a) :=
      succeeds_versioned hs ha _ (m := Resource.metadata a) (by simp [ownedMetadata]) (.inl rfl)
    refine .removed a _ ha ?_ (published_remove hact.symm) hsucceeds
    rw [hact, get?_remove, if_pos rfl]
  · exact .kept (by rw [hact]) fun _ => .inl ⟨a, ha, hmarked, hheld⟩
  · have hnone : (Resource.metadata a).deletionTimestamp = none := by
      simpa [Metadata.isTerminating] using hunmarked
    have hsucceeds : Succeeds (.delete now k) k a (versioned (s.revision + 1) (Resource.setMetadata a
        { Resource.metadata a with deletionTimestamp := some now })) := by
      refine succeeds_versioned hs ha _ (m := Resource.metadata a) ?_ (.inr ⟨hnone, now, rfl, rfl⟩)
      rw [LawfulResource.metadata_setMetadata, StableSpec.specOf_setMetadata]
      simp [ownedMetadata]
    refine .changed a _ ha ?_ hsucceeds
    rw [hact, get?_put, if_pos rfl]

/-- Everything that an action can do to the object of a key. -/
lemma Faithful.fate (hs : s.Faithful) (x : Action α) (k : ObjectKey) : s.Fate x k := by
  by_cases hk : x.target = some k
  · cases hanswer : (x.request s).1 with
    | error e => exact .kept (by rw [act_of_refused hanswer]) fun _ => .inr ⟨e, hanswer⟩
    | ok answer =>
      cases granted_of_answer hk hanswer with
      | created asked address done =>
        subst asked
        exact fate_of_create done address
      | replaced new before done => exact hs.fate_of_replace before done
      | deleted asked done =>
        subst asked
        exact hs.fate_of_delete done
  · exact .kept (hs.get?_act_of_ne hk) fun h => absurd h hk

/-! ## From creation to removal -/

/-- The object stands under its own address and has a generation. -/
structure Standing (k : ObjectKey) (a : α) : Prop where
  own_ns : (Resource.metadata a).ns = k.ns
  own_name : (Resource.metadata a).name = some k.name
  generation_pos : ∃ g ≥ 1, Resource.generation a = some g

omit [LawfulResource α] [StableSpec α] in
lemma Succeeds.standing (h : Succeeds x k a b) (ha : Standing k a) : Standing k b := by
  obtain ⟨g, hg, hgeneration⟩ := ha.generation_pos
  refine ⟨h.ns_eq.trans ha.own_ns, h.name_eq.trans ha.own_name, ?_⟩
  rw [h.generation_eq, hgeneration]
  split
  · exact ⟨g, hg, rfl⟩
  · exact ⟨g + 1, by omega, rfl⟩

lemma run_standing (limit : Nat) (actions : List (Action α))
    (ha : (run limit actions).objects.get? k = some a) : Standing k a := by
  induction actions using List.reverseRecOn generalizing a with
  | nil => simp [run, empty] at ha
  | append_singleton actions x ih =>
    rw [run_concat] at ha
    cases (run_chronicled limit actions).faithful.fate x k with
    | kept same => exact ih (same ▸ ha)
    | created b _ stored _ own_ns own_name first _ =>
      obtain rfl := Option.some.inj (stored.symm.trans ha)
      exact ⟨own_ns, own_name, 1, le_rfl, first⟩
    | changed a' b before stored succeeds =>
      obtain rfl := Option.some.inj (stored.symm.trans ha)
      exact succeeds.standing (ih before)
    | removed _ _ _ free => simp [free] at ha

omit [LawfulResource α] [StableSpec α] in
/-- Objects under different keys have different versions. -/
lemma Faithful.key_eq_of_version (h : s.Faithful) {j : ObjectKey} (ha : s.objects.get? j = some a)
    (hb : s.objects.get? k = some b) (hab : Resource.versionText a = Resource.versionText b) :
    j = k := by
  obtain rfl := h.eq_of_published (h.hasPublished_of_stored ha) (h.hasPublished_of_stored hb) hab
  exact (h.keyed j a ha).symm.trans (h.keyed k a hb)

/-- The spec of the object of a key, if there is one. -/
def storedSpec (s : Store α) (k : ObjectKey) : Option (Option Json) := (s.objects.get? k).map specOf

/-- How many of some actions change the spec of the object of a key. -/
def specChanges (k : ObjectKey) : Store α → List (Action α) → Nat
  | _, [] => 0
  | s, x :: actions =>
    (if (s.act x).storedSpec k = s.storedSpec k then 0 else 1) + specChanges k (s.act x) actions

/-- `b` is a later version of the object `a`, after so many changes of its spec. -/
structure Continues (changes : Nat) (a b : α) : Prop where
  uid_eq : Resource.uid b = Resource.uid a
  creationTimestamp_eq :
    (Resource.metadata b).creationTimestamp = (Resource.metadata a).creationTimestamp
  generation_eq : Resource.generation b = (Resource.generation a).map (· + (changes : Int))
  version_le : ∃ m n : Nat,
    Resource.versionText a = toString m ∧ Resource.versionText b = toString n ∧ m ≤ n
  deletionTimestamp_kept : ∀ time, (Resource.metadata a).deletionTimestamp = some time →
    (Resource.metadata b).deletionTimestamp = some time

section Continues

omit [LawfulResource α] [StableSpec α]

lemma Continues.trans {m n : Nat} (h : Continues m a b) (h' : Continues n b c) :
    Continues (m + n) a c := by
  refine ⟨h'.uid_eq.trans h.uid_eq, h'.creationTimestamp_eq.trans h.creationTimestamp_eq, ?_, ?_,
    fun time ha => h'.deletionTimestamp_kept time (h.deletionTimestamp_kept time ha)⟩
  · rw [h'.generation_eq, h.generation_eq]
    cases Resource.generation a with
    | none => rfl
    | some g => simp [add_assoc]
  · obtain ⟨i, j, ha, hb, hij⟩ := h.version_le
    obtain ⟨j', l, hb', hc, hjl⟩ := h'.version_le
    obtain rfl := Text.toString_injective (hb.symm.trans hb')
    exact ⟨i, l, ha, hc, hij.trans hjl⟩

lemma Faithful.continues_refl (h : s.Faithful) (ha : s.objects.get? k = some a) :
    Continues 0 a a := by
  obtain ⟨n, -, hn⟩ := h.version_of_stored ha
  refine ⟨rfl, rfl, ?_, ⟨n, n, hn, hn, le_rfl⟩, fun _ => id⟩
  cases Resource.generation a <;> simp

lemma Succeeds.continues (h : Succeeds x k a b) :
    Continues (if specOf b = specOf a then 0 else 1) a b := by
  refine ⟨h.uid_eq, h.creationTimestamp_eq, ?_, ?_, fun time ha => ?_⟩
  · rw [h.generation_eq]
    split <;> cases Resource.generation a <;> simp
  · obtain ⟨m, n, ha, hb, hlt⟩ := h.version_lt
    exact ⟨m, n, ha, hb, hlt.le⟩
  · rcases h.deletionTimestamp_eq with hsame | ⟨hnone, -⟩
    · exact hsame.trans ha
    · simp [hnone] at ha

/-- An object that is there before and after an action is the same one. -/
lemma Fate.continues (h : s.Fate x k) (hs : s.Faithful) (ha : s.objects.get? k = some a)
    (hb : (s.act x).objects.get? k = some b) :
    Continues (if (s.act x).storedSpec k = s.storedSpec k then 0 else 1) a b := by
  simp only [storedSpec, ha, hb, Option.map_some, Option.some.injEq]
  cases h with
  | kept same =>
    obtain rfl : a = b := Option.some.inj (ha.symm.trans (same.symm.trans hb))
    simpa using hs.continues_refl ha
  | created _ free => simp [free] at ha
  | changed a' b' before stored succeeds =>
    obtain rfl : a' = a := Option.some.inj (before.symm.trans ha)
    obtain rfl : b' = b := Option.some.inj (stored.symm.trans hb)
    exact succeeds.continues
  | removed _ _ _ free => simp [free] at hb

end Continues

/-- As long as there is an object under a key it is the same one, and its generation counts the changes
of its spec. -/
lemma run_continues (limit : Nat) (actions life : List (Action α))
    (ha : (run limit actions).objects.get? k = some a)
    (hlife : ∀ first, first <+: life → (run limit (actions ++ first)).objects.get? k ≠ none) :
    ∃ b, (run limit (actions ++ life)).objects.get? k = some b ∧
      Continues (specChanges k (run limit actions) life) a b := by
  induction life generalizing actions a with
  | nil =>
    rw [List.append_nil]
    exact ⟨a, ha, (run_chronicled limit actions).faithful.continues_refl ha⟩
  | cons x life ih =>
    have hs := (run_chronicled limit actions).faithful
    obtain ⟨c, hc⟩ := Option.ne_none_iff_exists'.mp (hlife [x] ⟨life, rfl⟩)
    have hfirst := hc
    rw [run_concat] at hfirst
    have hmore : ∀ first, first <+: life →
        (run limit (actions ++ [x] ++ first)).objects.get? k ≠ none := by
      intro first hprefix
      rw [List.append_assoc]
      exact hlife (x :: first) (List.cons_prefix_cons.mpr ⟨rfl, hprefix⟩)
    obtain ⟨b, hb, hcontinues⟩ := ih (actions ++ [x]) hc hmore
    rw [List.append_assoc] at hb
    rw [run_concat] at hcontinues
    exact ⟨b, hb, ((hs.fate x k).continues hs ha hfirst).trans hcontinues⟩

/-- Whatever clients ask for, at every time the object of a key stands under its own address and shares
its version with no other one; an action leaves it alone or makes a successor of it that keeps what the
store owns; and from one time to a later one in its life its identity and its times are the same and its
generation has counted the changes of its spec. -/
theorem owned_metadata_kept (limit : Nat) (actions : List (Action α)) (k : ObjectKey) :
    let s := run limit actions
    (∀ a, s.objects.get? k = some a → Standing k a) ∧
    (∀ j a b, s.objects.get? j = some a → s.objects.get? k = some b →
      Resource.versionText a = Resource.versionText b → j = k) ∧
    (∀ x, s.Fate x k) ∧
    (∀ a life, s.objects.get? k = some a →
      (∀ first, first <+: life → (run limit (actions ++ first)).objects.get? k ≠ none) →
      ∃ b, (run limit (actions ++ life)).objects.get? k = some b ∧
        Continues (specChanges k s life) a b) := by
  intro s
  have hs : s.Faithful := (run_chronicled limit actions).faithful
  exact ⟨fun a => run_standing limit actions, fun j a b => hs.key_eq_of_version,
    fun x => hs.fate x k, fun a life => run_continues limit actions life⟩

/-- A widget that is held by a finalizer. -/
def heldWidget : Action Widget :=
  .create ⟨{ seconds := 0 }, "u"⟩ (some "default")
    { metadata := { name := some "a", finalizers := some ["f"] }, spec := { replicas := 1 } }

/-- Patches that change the spec, claim another identity, and deny the mark for removal that is set
between them. -/
def forgedPatches : List (Action Widget) :=
  let k : ObjectKey := ⟨some "default", "a"⟩
  let patch (part : String) (members : List (String × Json)) : Action Widget :=
    .patch k (.obj [(part, .obj members)])
  [patch "spec" [("replicas", .int 2)],
    patch "metadata" [("uid", .str "v"), ("generation", .int 7), ("name", .str "b")],
    .delete { seconds := 1 } k,
    patch "metadata" [("deletionTimestamp", .null), ("creationTimestamp", .null)]]

/-- The widget goes through all of this with one change of its spec. -/
theorem owned_metadata_kept_forged :
    let k : ObjectKey := ⟨some "default", "a"⟩
    ∃ a b, (run 1 [heldWidget]).objects.get? k = some a ∧
      (run 1 (heldWidget :: forgedPatches)).objects.get? k = some b ∧ Continues 1 a b ∧
      Standing k b ∧ (Resource.metadata b).deletionTimestamp = some { seconds := 1 } := by
  intro k
  have hruns : ((run 1 [heldWidget]).objects.get? k).isSome ∧
      (∀ first ∈ forgedPatches.inits,
        ((run 1 ([heldWidget] ++ first)).objects.get? k).isSome) ∧
      specChanges k (run 1 [heldWidget]) forgedPatches = 1 ∧
      (((run 1 (heldWidget :: forgedPatches)).objects.get? k).bind fun b =>
        b.metadata.deletionTimestamp) = some { seconds := 1 } := by
    decide +kernel
  obtain ⟨hsome, hlife, hchanges, hmarked⟩ := hruns
  obtain ⟨a, ha⟩ := Option.isSome_iff_exists.mp hsome
  obtain ⟨b, hb, hcontinues⟩ := (owned_metadata_kept 1 [heldWidget] k).2.2.2 a forgedPatches ha
    fun first hfirst hnone => by
      have hstored := hlife first ((List.mem_inits _ _).mpr hfirst)
      rw [hnone] at hstored
      simp at hstored
  refine ⟨a, b, ha, hb, hchanges ▸ hcontinues,
    (owned_metadata_kept 1 (heldWidget :: forgedPatches) k).1 b hb, ?_⟩
  rw [List.singleton_append] at hb
  rw [hb] at hmarked
  exact hmarked

end ControlLoop.Store
