import ControlLoop.Proofs.ObjectLife
import ControlLoop.Proofs.OrderlyWork

/-!
# Writing finalizers

Finalizers are written over a copy of an object, on the condition that the copy is what is stored. So
such a write can take a finalizer from the object of its copy only, and only if the copy has it. Where
an object that had a finalizer is removed, some event has taken the finalizer from it.
-/
namespace ControlLoop

/-! ## Events that take a finalizer -/

namespace Store

variable {α : Type} [Resource α] {s t : Store α} {f : String} {a b : α} {k : ObjectKey} {i j : Nat}

/-- The object from which an event takes a finalizer. -/
def stripped (s : Store α) (f : String) (i : Nat) : Option α := do
  let b ← (← s.published[i]?).object?
  let a ← (s.objectsAt i).get? (Resource.key b)
  if Finalizer.has a f && !Finalizer.has b f then some a else none

lemma stripped_eq_some_iff : s.stripped f i = some a ↔
    ∃ e b, s.published[i]? = some e ∧ e.object? = some b ∧
      (s.objectsAt i).get? (Resource.key b) = some a ∧ Finalizer.has a f = true ∧
      Finalizer.has b f = false := by
  simp only [stripped, Option.bind_eq_bind, Option.bind_eq_some_iff]
  constructor
  · rintro ⟨e, he, b, hb, a', ha, hstrips⟩
    split at hstrips
    next hhas =>
      obtain rfl := Option.some.inj hstrips
      simp only [Bool.and_eq_true, Bool.not_eq_true'] at hhas
      exact ⟨e, b, he, hb, ha, hhas⟩
    · simp at hstrips
  · rintro ⟨e, b, he, hb, ha, hhas, hlacks⟩
    exact ⟨e, he, b, hb, a, ha, by simp [hhas, hlacks]⟩

/-- Where an object that had a finalizer is removed, an event has taken the finalizer from that same
object before, or does so by the removal. -/
lemma Chronicled.exists_stripped [LawfulResource α] (h : s.Chronicled) {gone : α} (hij : i ≤ j)
    (ha : (s.objectsAt i).get? k = some a) (hf : Finalizer.has a f = true)
    (hj : s.published[j]? = some (.deleted gone)) (hk : Resource.key gone = k) :
    ∃ m b, i ≤ m ∧ m ≤ j ∧ s.stripped f m = some b ∧ (s.objectsAt m).get? k = some b ∧
      Resource.uid b = Resource.uid a := by
  -- As long as no event has taken the finalizer, the object is stored and has it.
  have hkept (r : Nat) (hir : i ≤ r) :
      (∃ b, (s.objectsAt r).get? k = some b ∧ Resource.uid b = Resource.uid a ∧
        Finalizer.has b f = true) ∨
      ∃ m b, i ≤ m ∧ m < r ∧ s.stripped f m = some b ∧ (s.objectsAt m).get? k = some b ∧
        Resource.uid b = Resource.uid a := by
    induction r, hir using Nat.le_induction with
    | base => exact .inl ⟨a, ha, rfl, hf⟩
    | succ r hir ih =>
      rcases ih with ⟨b, hb, huid, hhas⟩ | ⟨m, b, him, hm, hstripped⟩
      · have hstrips {e : WatchEvent α} {c : α} (he : s.published[r]? = some e)
            (hc : e.object? = some c) (hck : Resource.key c = k)
            (hlacks : Finalizer.has c f = false) :
            ∃ m b, i ≤ m ∧ m < r + 1 ∧ s.stripped f m = some b ∧
              (s.objectsAt m).get? k = some b ∧ Resource.uid b = Resource.uid a := by
          refine ⟨r, b, hir, by omega, stripped_eq_some_iff.mpr ?_, hb, huid⟩
          exact ⟨e, c, he, hc, hck.symm ▸ hb, hhas, hlacks⟩
        rcases h.step_cases hb with hb' | ⟨c, hbc, he, hck, hc⟩ | ⟨c, -, he, hck, hnone⟩
        · exact .inl ⟨b, hb', huid, hhas⟩
        · by_cases hchas : Finalizer.has c f = true
          · exact .inl ⟨c, hc, hbc.uid_eq.trans huid, hchas⟩
          · exact .inr (hstrips he rfl hck (by simpa using hchas))
        · exact .inr (hstrips he rfl hck (by simp [Finalizer.has, hnone]))
      · exact .inr ⟨m, b, him, by omega, hstripped⟩
  rcases hkept (j + 1) (by omega) with ⟨b, hb, -⟩ | ⟨m, b, him, hm, hstripped⟩
  · rw [objectsAt_succ hj, WatchEvent.apply, KeyMap.get?_erase, if_pos hk] at hb
    simp at hb
  · exact ⟨m, b, him, by omega, hstripped⟩

/-! ## What stays when a store goes on -/

lemma stripped_of_isPrefix (h : s.published <+: t.published) (hi : i < s.published.length) :
    t.stripped f i = s.stripped f i := by
  rw [stripped, stripped, objectsAt_of_isPrefix h hi.le]
  obtain ⟨events, he⟩ := h
  rw [← he, List.getElem?_append_left hi]

lemma Chronicled.later [LawfulResource α] (h : s.Chronicled) (ht : s.Later t) :
    t.Chronicled ∧ s.published <+: t.published := by
  obtain ⟨actions, rfl⟩ := ht
  induction actions generalizing s with
  | nil => exact ⟨h, List.prefix_rfl⟩
  | cons x actions ih =>
    obtain ⟨hlast, hrest⟩ := ih (h.act x)
    obtain ⟨events, -, he, -⟩ := act_grows h.faithful.keyed x
    exact ⟨hlast, List.IsPrefix.trans ⟨events, he.symm⟩ hrest⟩

/-! ## Writes over a copy -/

/-- The finalizers of an object are written over a copy of it only if the copy is what is stored, and
then the event tells of that object. -/
lemma Chronicled.patch_granted [LawfulResource α] (h : s.Chronicled) (ha : s.HasPublished a)
    {finalizers : List String}
    (hpatch : s.patch k (Finalizer.patchFor a finalizers) = .ok (b, t)) :
    s.objects.get? k = some a ∧ s.Wrote k t := by
  obtain ⟨current, next, hstored, hversion, -, hreplace⟩ := patch_ok hpatch
  have hsame : Resource.versionText a = Resource.versionText current :=
    eq_of_checkVersion (h.faithful.versionText_ne_empty ha) hversion
  have hcurrent : s.HasPublished current := by
    rw [h.faithful.objects_eq] at hstored
    exact (WatchEvent.object_of_applyAll _ hstored).2
  obtain rfl := h.faithful.eq_of_published ha hcurrent hsame
  exact ⟨hstored, replace_wrote (h.faithful.keyed k _ hstored) hstored hreplace⟩

/-- Such a write takes a finalizer from no other object. -/
lemma Chronicled.stripped_of_patch [LawfulResource α] (h : s.Chronicled) (ha : s.HasPublished a)
    {finalizers : List String}
    (hpatch : s.patch k (Finalizer.patchFor a finalizers) = .ok (b, t))
    (hi : s.published.length ≤ i) {c : α} (hc : t.stripped f i = some c) : c = a := by
  obtain ⟨hstored, e, b', hb', hkey, -, -, ht⟩ := h.patch_granted ha hpatch
  have hpublished : t.published = s.published ++ [e] := by
    rw [ht]
    rfl
  obtain ⟨e', b'', he', hb'', hc', -⟩ := stripped_eq_some_iff.mp hc
  rw [hpublished, List.getElem?_append_right hi, List.getElem?_singleton] at he'
  split at he'
  next hlast =>
    obtain rfl := Option.some.inj he'
    obtain rfl : b' = b'' := Option.some.inj (hb'.symm.trans hb'')
    have hat : i = s.published.length := by omega
    rw [objectsAt_of_isPrefix ⟨[e], hpublished.symm⟩ hat.le, hat, h.faithful.length_published,
      h.faithful.objectsAt_now, hkey, hstored] at hc'
    exact (Option.some.inj hc').symm
  · simp at he'

end Store

/-! ## What the controller itself writes -/

/-- What has been written since takes the finalizer only from the object of a copy, as the copy has it,
and only if `P`. -/
def Store.TakesOnly {α : Type} [Resource α] (f : String) (a : α) (P : Prop) (s t : Store α) : Prop :=
  s.Later t ∧ (s.Chronicled → s.HasPublished a →
    ∀ i b, s.published.length ≤ i → t.stripped f i = some b → b = a ∧ P)

def Cluster.TakesOnly {α : Type} [Resource α] [Collection α] (f : String) (a : α) (P : Prop)
    (c d : Cluster) : Prop :=
  Store.TakesOnly f a P (Collection.store c) (Collection.store d)

section TakesOnly

variable {α : Type} [Resource α] {f : String} {a : α} {P : Prop}

lemma Store.TakesOnly.refl (s : Store α) : s.TakesOnly f a P s := by
  refine ⟨.refl _, fun _ _ i b hi hstripped => ?_⟩
  obtain ⟨e, -, he, -⟩ := Store.stripped_eq_some_iff.mp hstripped
  rw [List.getElem?_eq_none hi] at he
  simp at he

variable [LawfulResource α]

lemma Store.TakesOnly.trans {s t u : Store α} (h : s.TakesOnly f a P t) (h' : t.TakesOnly f a P u) :
    s.TakesOnly f a P u := by
  refine ⟨h.1.trans h'.1, fun hs ha i b hi hstripped => ?_⟩
  obtain ⟨ht, hst⟩ := hs.later h.1
  obtain ⟨-, htu⟩ := ht.later h'.1
  -- An event is of the first part or of the second one.
  rcases Nat.lt_or_ge i t.published.length with hlt | hge
  · rw [Store.stripped_of_isPrefix htu hlt] at hstripped
    exact h.2 hs ha i b hi hstripped
  · exact h'.2 ht (ha.of_isPrefix hst) i b hge hstripped

variable [Collection α]

omit [LawfulResource α] in
lemma Cluster.takesOnly_of_eq (c d : Cluster)
    (h : (Collection.store d : Store α) = Collection.store c) : c.TakesOnly f a P d := by
  rw [TakesOnly, h]
  exact .refl _

variable [LawfulCollection α]

instance : Cluster.Frame (Cluster.TakesOnly f a P) where
  aside _ _ _ := Cluster.takesOnly_of_eq _ _ (LawfulCollection.store_aside _ _ _)
  trans := Store.TakesOnly.trans

namespace Controller

open Session

lemma takesOnly_patch {k : ObjectKey} {finalizers : List String}
    (h : Finalizer.has a f = true → P) :
    (Session.patch α k (Finalizer.patchFor a finalizers)).run.Within (Cluster.TakesOnly f a P) := by
  refine within_write (g := id) fun c b s hs => ?_
  rw [Cluster.TakesOnly, id, LawfulCollection.store_setStore]
  refine ⟨Store.later_of_ok (x := .patch k (Finalizer.patchFor a finalizers)) rfl hs, ?_⟩
  intro hc ha i b hi hstripped
  obtain rfl := hc.stripped_of_patch ha hs hi hstripped
  obtain ⟨-, -, -, -, -, hhas, -⟩ := Store.stripped_eq_some_iff.mp hstripped
  exact ⟨rfl, h hhas⟩

/-- Claiming an object takes the finalizer from nothing: the copy does not have it. -/
lemma takesOnly_claim (h : Finalizer.has a f = false) :
    (claim a f).Within (Cluster.TakesOnly f a P) :=
  within_claim (takesOnly_patch fun hhas => absurd (hhas.symm.trans h) (by simp))

variable [EventFree α]

lemma takesOnly_afterReconcile (ending : Ending Outcome) :
    (afterReconcile a ending).Within (Cluster.TakesOnly f a P) :=
  within_afterReconcile (within_record_of_eq Cluster.takesOnly_of_eq) a ending

/-- The finalizer is taken only after the reconciler has cleaned up. -/
lemma takesOnly_afterFinalize {ending : Ending Unit} (h : ending = .returned () → P) :
    (afterFinalize a f ending).Within (Cluster.TakesOnly f a P) :=
  within_afterFinalize (within_record_of_eq Cluster.takesOnly_of_eq) fun hending =>
    takesOnly_patch fun _ => h hending

end Controller

end TakesOnly

end ControlLoop
