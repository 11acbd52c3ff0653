import ControlLoop.Controller.Predicate
import ControlLoop.Proofs.InformerRuns
import ControlLoop.Proofs.LosslessCodecs
import ControlLoop.Proofs.ObjectLife

/-!
# Changes of the spec

A store counts the changes of the spec of an object in its generation, so two copies of one object that
have the same generation have the same spec. An object that is removed and created again begins anew.
An informer that has missed the removal passes the two on as old and new, and if their generations
happen to be equal, `Predicate.generationChanged` leaves out a change of the spec. It does so in no
other case.
-/
namespace ControlLoop

/-! ## The spec of an object -/

/-- The spec in the JSON form of an object. -/
def Resource.specOf {α : Type} [Resource α] (a : α) : Option Json := (Resource.toJson a).get? "spec"

open Resource (specOf)

/-- The spec of an object does not depend on its metadata, and an object decoded from a document with
the spec of another one has that spec. -/
class SteadySpec (α : Type) [Resource α] : Prop where
  specOf_setMetadata : ∀ (a : α) (m : Metadata), specOf (Resource.setMetadata a m) = specOf a
  specOf_decode : ∀ (v : Json) (a b : α), Resource.decode v = .ok a → v.get? "spec" = specOf b →
    specOf a = specOf b

namespace Widget

lemma specOf_eq (w : Widget) : specOf w = some w.spec.encode.sorted :=
  show specOf w = (some w.spec.encode).map Json.sorted from
    Json.get?_sorted_ofMembers (by simp) (by simp)

instance : SteadySpec Widget where
  specOf_setMetadata a m := by rw [specOf_eq, specOf_eq]; rfl
  specOf_decode v a b h hspec := by
    rw [specOf_eq] at hspec
    rw [specOf_eq, specOf_eq]
    -- Only an object has members.
    obtain ⟨members, rfl⟩ : ∃ members, v = .obj members := by
      cases v <;> simp [Json.get?] at hspec
      exact ⟨_, rfl⟩
    have hmem : Slot.required "spec" Gathered.spec WidgetSpec.encode WidgetSpec.decode ∈ slots := by
      simp [slots]
    obtain ⟨spec, hdecode, hsome⟩ := Store.map_eq_ok (given_of_decode h hmem (by decide) hspec)
    obtain rfl : spec = a.spec := Option.some.inj hsome
    rw [WidgetSpec.exact_codec.eq_of_decode hdecode]

end Widget

/-- Configuration maps have no spec. -/
lemma ConfigMap.specOf_eq (c : ConfigMap) : specOf c = none :=
  Json.get?_sorted_ofMembers_of_not_mem (by simp) (by simp)

instance : SteadySpec ConfigMap where
  specOf_setMetadata a m := by rw [ConfigMap.specOf_eq, ConfigMap.specOf_eq]
  specOf_decode v a b _ _ := by rw [ConfigMap.specOf_eq, ConfigMap.specOf_eq]

/-! ## Generations -/

namespace Store

variable {α : Type} [Resource α] {a b c : α}

/-- The generation of one object is no later than that of the other, and if they are equal, so are the
specs. -/
def SpecFollows (a b : α) : Prop :=
  ∀ g, Resource.generation a = some g →
    ∃ h, Resource.generation b = some h ∧ g ≤ h ∧ (g = h → specOf a = specOf b)

lemma SpecFollows.refl (a : α) : SpecFollows a a := fun g hg => ⟨g, hg, le_rfl, fun _ => rfl⟩

lemma SpecFollows.trans (h : SpecFollows a b) (h' : SpecFollows b c) : SpecFollows a c := by
  intro g hg
  obtain ⟨i, hi, hgi, hab⟩ := h g hg
  obtain ⟨j, hj, hij, hbc⟩ := h' i hi
  refine ⟨j, hj, hgi.trans hij, fun heq => ?_⟩
  have hgi' : g = i := by omega
  exact (hab hgi').trans (hbc (by omega))

lemma SpecFollows.specOf_eq (h : SpecFollows a b) {g : Int} (hg : Resource.generation a = some g)
    (hab : Resource.generation a = Resource.generation b) : specOf a = specOf b := by
  obtain ⟨i, hi, -, hspec⟩ := h g hg
  rw [hg, hi] at hab
  exact hspec (Option.some.inj hab)

variable [LawfulResource α] [SteadySpec α]

omit [LawfulResource α] in
lemma specOf_versioned (n : Nat) (a : α) : specOf (versioned n a) = specOf a :=
  SteadySpec.specOf_setMetadata a _

omit [SteadySpec α] in
lemma generation_versioned (n : Nat) (a : α) :
    Resource.generation (versioned n a) = Resource.generation a := by
  simp [Resource.generation, metadata_versioned]

/-- A request that leaves the generation as it is leaves the spec as it is. -/
lemma generation_replacement {next : α} {keepStatus : Bool}
    (h : replacement a next keepStatus = .ok b) :
    (Resource.generation b = Resource.generation a ∧ specOf b = specOf a) ∨
      Resource.generation b = (Resource.generation a).map (· + 1) := by
  simp only [replacement, bind, Except.bind, pure, Except.pure] at h
  generalize (if keepStatus = true then withStatusOf (Resource.toJson a) (Resource.toJson next)
    else Resource.toJson next) = new at h
  split at h
  · simp at h
  next c hc =>
    obtain rfl := Except.ok.inj h
    simp only [Resource.generation, LawfulResource.metadata_setMetadata, ownedMetadata,
      SteadySpec.specOf_setMetadata]
    by_cases hsame : (Resource.toJson a).get? "spec" = new.get? "spec"
    · refine .inl ⟨by simp [hsame], ?_⟩
      simp only [decodeObject] at hc
      split at hc
      next d hd =>
        obtain rfl := Except.ok.inj hc
        exact SteadySpec.specOf_decode new d a hd hsame.symm
      · simp at hc
    · exact .inr (by simp [hsame])

lemma Replaces.specFollows (h : Replaces a b) : SpecFollows a b := by
  intro g hg
  cases h with
  | written n result =>
    simp only [generation_versioned, specOf_versioned]
    rcases generation_replacement result with ⟨hsame, hspec⟩ | hnext
    · exact ⟨g, hsame.trans hg, le_rfl, fun _ => hspec.symm⟩
    · exact ⟨g + 1, by rw [hnext, hg]; rfl, by omega, by omega⟩
  | marked n now =>
    refine ⟨g, ?_, le_rfl, fun _ => ?_⟩
    · rw [generation_versioned, Resource.generation, LawfulResource.metadata_setMetadata]
      exact hg
    · rw [specOf_versioned, SteadySpec.specOf_setMetadata]
  | leaving n =>
    exact ⟨g, by rw [generation_versioned, hg], le_rfl, fun _ => by rw [specOf_versioned]⟩

/-- Every object in a store has a generation. -/
lemma Chronicled.exists_generation {s : Store α} (h : s.Chronicled) {v : Nat} {k : ObjectKey}
    (ha : (s.objectsAt v).get? k = some a) : ∃ g, Resource.generation a = some g := by
  refine h.of_stored (P := fun a => ∃ g, Resource.generation a = some g) ?_ ?_ ha
  · exact fun a hfirst _ => ⟨1, hfirst⟩
  · rintro a b ⟨g, hg⟩ hab
    obtain ⟨i, hi, -⟩ := hab.specFollows g hg
    exact ⟨i, hi⟩

end Store

/-! ## What an informer passes on -/

/-- The old and the new object of a change were under one key, at the revision seen last and at one
that is not earlier. -/
lemma Feed.Follows.of_modified {α : Type} [Resource α] {f : Feed α} {s : Store α}
    {scope : Option String} {v : Nat} (h : f.Follows s scope v) {answer : Feed.Answer α}
    (ha : f.answer = some answer) {old new : α}
    (hm : .modified (some old) new ∈ (f.take answer).2) :
    ∃ k, ∃ r ≥ v, (s.asOf scope v).get? k = some old ∧ (s.asOf scope r).get? k = some new := by
  have hanswer := h.answer
  rw [ha] at hanswer
  rcases answer with (e | l) | (e | e | _)
  · simp [Feed.take, Informer.listed] at hm
  · obtain ⟨-, r, -, hvr, -, hl⟩ := hanswer
    simp only [Feed.take, Informer.listed, hl.ofList_items, Informer.difference, List.mem_append,
      List.mem_filterMap, List.mem_map, reduceCtorEq, and_false, exists_false, or_false] at hm
    obtain ⟨⟨k, b⟩, hmem, hcompare⟩ := hm
    simp only [Informer.compareWith] at hcompare
    rw [h.cache_eq] at hcompare
    split at hcompare
    · simp at hcompare
    next a hcached =>
      split at hcompare
      · simp at hcompare
      · obtain ⟨hold, rfl⟩ := Change.modified.inj (Option.some.inj hcompare)
        obtain rfl := Option.some.inj hold
        exact ⟨k, r, hvr, hcached, (KeyMap.lookup_eq_some_iff (KeyMap.ordered _)).mpr hmem⟩
  · obtain ⟨version, hp, hevent⟩ := hanswer
    simp only [Feed.take, hp] at hm
    -- An event about a new or changed object puts it in the place of the one in the copy.
    have hput (a : α) (hm : .modified (some old) new ∈ (f.informer.upsert version a).2) :
        (s.asOf scope v).get? (Resource.key a) = some old ∧ new = a := by
      simp only [Informer.upsert] at hm
      rw [h.cache_eq] at hm
      split at hm
      next c hcached =>
        obtain ⟨hold, rfl⟩ := Change.modified.inj (List.mem_singleton.mp hm)
        exact ⟨by rw [hcached, hold], rfl⟩
      · simp at hm
    cases e with
    | added a | modified a =>
      obtain ⟨hold, rfl⟩ := hput a hm
      obtain ⟨w, -, htracks⟩ := hevent
      obtain ⟨_, n, -, -, hvn, -, hasOf, -⟩ := h.faithful.since_cons h.seen_le htracks.since_eq
      exact ⟨_, n, hvn.le, hold, by simp [hasOf, WatchEvent.apply]⟩
    | deleted a => simp [Informer.received] at hm
    | bookmark seen => simp [Informer.received] at hm
    | error code text =>
      simp only [Informer.received] at hm
      split at hm <;> simp at hm
  · obtain ⟨_, _, hfailed⟩ := hanswer
    exact hfailed.elim
  · obtain ⟨version, hp, -⟩ := hanswer
    simp [Feed.take, hp, Informer.received] at hm

lemma Predicate.generation_eq {α : Type} [Resource α] {old new : α}
    (h : Predicate.generationChanged.holds (.modified (some old) new) = false) :
    Resource.generation old = Resource.generation new := by
  simp only [Predicate.holds, Predicate.differs, Bool.or_eq_false_iff, decide_eq_false_iff_not,
    not_not] at h
  exact h.1.1

namespace Following

variable {α : Type} [Resource α]

/-- The changes that the informer passes on with its next step. -/
def passesOn (x : Following α) : List (Change α) :=
  match x.feed.answer with
  | some answer => (x.feed.take answer).2
  | none => []

lemma after_chronicled [LawfulResource α] {scope : Option String} {x : Following α}
    (h : x.store.Chronicled) (moves : List (Move α)) : (x.after scope moves).store.Chronicled := by
  induction moves generalizing x with
  | nil => exact h
  | cons m moves ih =>
    refine ih ?_
    cases m with
    | act action => exact h.act action
    | turn failure => exact (turn_store x failure).symm ▸ h
    | stop =>
      simp only [move]
      split <;> exact h

/-- If a change of a known object is left out by its generation, then the old and the new object have
the same spec, or the object was removed after the old version and before the new one. -/
theorem spec_same_of_generation_same [LawfulResource α] [SteadySpec α] (scope : Option String)
    (limit : Nat) (moves : List (Move α)) (old new : α)
    (hpassed : .modified (some old) new ∈ (run scope limit moves).passesOn)
    (hleft : Predicate.generationChanged.holds (.modified (some old) new) = false) :
    specOf old = specOf new ∨
      ∃ i gone p q, (run scope limit moves).store.published[i]? = some (.deleted gone) ∧
        Resource.key gone = Resource.key new ∧
        Resource.versionText old = toString p ∧ p ≤ i ∧
        Resource.versionText new = toString q ∧ i + 1 < q := by
  obtain ⟨v, hsound⟩ := run_sound scope limit moves
  have hf := hsound.follows
  have hc : (run scope limit moves).store.Chronicled :=
    after_chronicled (Store.empty_chronicled limit) moves
  generalize run scope limit moves = x at *
  obtain ⟨k, r, hvr, hold, hnew⟩ : ∃ k, ∃ r ≥ v,
      (x.store.asOf scope v).get? k = some old ∧ (x.store.asOf scope r).get? k = some new := by
    simp only [passesOn] at hpassed
    split at hpassed
    next answer ha => exact hf.of_modified ha hpassed
    · simp at hpassed
  have hkey : Resource.key new = k := Store.key_of_asOf hnew
  replace hold := hc.faithful.get?_of_asOf hold
  replace hnew := hc.faithful.get?_of_asOf hnew
  rcases hc.exists_related Store.SpecFollows.refl
      (fun h h' => h.trans h'.specFollows) hvr hold with ⟨b, hb, hrelated⟩ |
      ⟨i, gone, hvi, hir, hgone, hgonekey⟩
  · obtain rfl : b = new := Option.some.inj (hb.symm.trans hnew)
    obtain ⟨g, hg⟩ := hc.exists_generation hold
    exact .inl (hrelated.specOf_eq hg (Predicate.generation_eq hleft))
  · have hfree : (x.store.objectsAt (i + 1)).get? k = none := by
      rw [Store.objectsAt_succ hgone]
      simp [WatchEvent.apply, hgonekey]
    obtain ⟨p, hp, -, hpv⟩ :=
      hc.faithful.exists_version (Nat.zero_le v) (by simp [Store.objectsAt]) hold
    obtain ⟨q, hq, hiq, -⟩ := hc.faithful.exists_version (by omega) hfree hnew
    exact .inr ⟨i, gone, p, q, hgone, hgonekey.trans hkey.symm, hp, by omega, hq, hiq⟩

/-- A widget as the store has it, of the first generation. -/
def storedWidget (uid version : String) (replicas : Int) : Widget where
  metadata := {
    name := some "a"
    ns := some "default"
    uid := some uid
    generation := some 1
    creationTimestamp := some { seconds := 0 }
    resourceVersion := some version }
  spec := { replicas := replicas }

/-- A widget is listed, removed and created again with another spec; the history is gone when the
informer asks for what it has missed, so it lists again. -/
def recreated : List (Move Widget) :=
  let place (uid : String) (replicas : Int) : Move Widget :=
    .act (.create ⟨{ seconds := 0 }, uid⟩ (some "default")
      { metadata := { name := some "a" }, spec := { replicas := replicas } })
  [place "1" 1, .turn none, .turn none, .act (.delete { seconds := 0 } ⟨some "default", "a"⟩),
    place "2" 2, .act .compact, .turn none, .turn none]

theorem spec_same_of_generation_same_recreated :
    let x : Following Widget := run none 1 recreated
    .modified (some (storedWidget "1" "1" 1)) (storedWidget "2" "3" 2) ∈ x.passesOn ∧
      ∃ (i : Nat) (gone : Widget), x.store.published[i]? = some (.deleted gone) ∧
        Resource.key gone = ⟨some "default", "a"⟩ := by
  intro x
  have hpassed : .modified (some (storedWidget "1" "1" 1)) (storedWidget "2" "3" 2) ∈
      (run none 1 recreated).passesOn := by decide
  rcases spec_same_of_generation_same none 1 recreated _ _ hpassed (by decide) with
    hspec | ⟨i, gone, _, _, hgone, hkey, _⟩
  · exact absurd hspec (by decide)
  · exact ⟨hpassed, i, gone, hgone, hkey⟩

/-- A change of the spec is left out, since both objects are of the first generation. -/
theorem generationChanged_leaves_out_recreated :
    let x : Following Widget := run none 1 recreated
    let change : Change Widget := .modified (some (storedWidget "1" "1" 1)) (storedWidget "2" "3" 2)
    change ∈ x.passesOn ∧ Predicate.generationChanged.holds change = false ∧
      specOf (storedWidget "1" "1" 1) ≠ specOf (storedWidget "2" "3" 2) := by
  decide

end Following

end ControlLoop
