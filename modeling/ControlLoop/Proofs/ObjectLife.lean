import ControlLoop.Proofs.WatchStream

/-!
# The life of an object

A store that only requests have changed holds the whole life of every object in the events it has
published: an object is added under a free key, each change puts a successor in its place, and it goes
by an event of its own. Whatever every successor shares with its predecessor is shared by the first and
the last object of a life.
-/
namespace ControlLoop.Store

variable {α : Type} [Resource α] {s t : Store α} {e : WatchEvent α} {a b : α} {k : ObjectKey}
  {i v r : Nat}

/-! ## What a successor keeps -/

section Replaces

variable [LawfulResource α]

lemma metadata_replacement {next : α} {keepStatus : Bool}
    (h : replacement a next keepStatus = .ok b) :
    ∃ next' changed, Resource.metadata b = ownedMetadata (Resource.metadata a) next' changed := by
  simp only [replacement, bind, Except.bind, pure, Except.pure] at h
  split at h
  · simp at h
  · obtain rfl := Except.ok.inj h
    exact ⟨_, _, LawfulResource.metadata_setMetadata _ _⟩

lemma Replaces.uid_eq (h : Replaces a b) : Resource.uid b = Resource.uid a := by
  cases h with
  | written n result =>
    obtain ⟨next', changed, hm⟩ := metadata_replacement result
    simp [Resource.uid, metadata_versioned, hm, ownedMetadata]
  | marked n now => simp [Resource.uid, metadata_versioned, LawfulResource.metadata_setMetadata]
  | leaving n => simp [Resource.uid, metadata_versioned]

/-- An object that is marked for removal stays so. -/
lemma Replaces.isTerminating (h : Replaces a b)
    (ha : (Resource.metadata a).isTerminating = true) :
    (Resource.metadata b).isTerminating = true := by
  cases h with
  | written n result =>
    obtain ⟨next', changed, hm⟩ := metadata_replacement result
    rw [metadata_versioned, hm]
    exact ha
  | marked n now => simp [metadata_versioned, LawfulResource.metadata_setMetadata, Metadata.isTerminating]
  | leaving n =>
    rw [metadata_versioned]
    exact ha

end Replaces

/-! ## The objects at a revision -/

/-- The objects as they were at a revision. -/
def objectsAt (s : Store α) (v : Nat) : KeyMap α := WatchEvent.applyAll ∅ (s.published.take v)

lemma objectsAt_succ (h : s.published[i]? = some e) :
    s.objectsAt (i + 1) = e.apply (s.objectsAt i) := by
  rw [objectsAt, List.take_add_one, h, Option.toList_some, WatchEvent.applyAll_append]
  rfl

lemma objectsAt_of_length_le (h : s.published.length ≤ v) :
    s.objectsAt v = WatchEvent.applyAll ∅ s.published := by
  rw [objectsAt, List.take_of_length_le h]

lemma Faithful.objectsAt_now (h : s.Faithful) : s.objectsAt s.revision = s.objects := by
  rw [objectsAt_of_length_le h.length_published.le, h.objects_eq]

lemma Faithful.get?_of_asOf (h : s.Faithful) {scope : Option String}
    (ha : (s.asOf scope v).get? k = some a) : (s.objectsAt v).get? k = some a := by
  have hall : ∀ e ∈ s.published.take v, ∃ a, e.object? = some a := by
    intro e he
    obtain ⟨i, hi⟩ := List.getElem?_of_mem (List.mem_of_mem_take he)
    obtain ⟨a, ha, -⟩ := h.version_published i e hi
    exact ⟨a, ha⟩
  have hempty : (∅ : KeyMap α).filterKeys (·.inScope scope) = ∅ := rfl
  rw [asOf, ← hempty, WatchEvent.applyAll_filter scope ∅ _ hall, KeyMap.get?_filterKeys] at ha
  split at ha
  · exact ha
  · simp at ha

/-- What is published later does not change what was stored before. -/
lemma objectsAt_of_isPrefix (h : s.published <+: t.published) (hv : v ≤ s.published.length) :
    t.objectsAt v = s.objectsAt v := by
  obtain ⟨events, he⟩ := h
  rw [objectsAt, objectsAt, ← he, List.take_append_of_le_length hv]

/-- An object under a key that was free before has been published since. -/
lemma exists_published {u : Nat} (hur : u ≤ r) (hfree : (s.objectsAt u).get? k = none)
    (hb : (s.objectsAt r).get? k = some b) :
    ∃ i e, u ≤ i ∧ i < r ∧ s.published[i]? = some e ∧ e.object? = some b := by
  induction r, hur using Nat.le_induction with
  | base => simp [hfree] at hb
  | succ r hur ih =>
    by_cases hsame : (s.objectsAt r).get? k = some b
    · obtain ⟨i, e, hui, hir, he⟩ := ih hsame
      exact ⟨i, e, hui, by omega, he⟩
    · rcases hr : s.published[r]? with _ | e
      · rw [List.getElem?_eq_none_iff] at hr
        rw [objectsAt_of_length_le (by omega), ← objectsAt_of_length_le hr] at hb
        exact absurd hb hsame
      · refine ⟨r, e, hur, by omega, hr, ?_⟩
        rw [objectsAt_succ hr] at hb
        cases e with
        | added c | modified c =>
          rw [WatchEvent.apply, KeyMap.get?_insert] at hb
          split at hb
          · exact hb
          · exact absurd hb hsame
        | deleted c =>
          rw [WatchEvent.apply, KeyMap.get?_erase] at hb
          split at hb
          · simp at hb
          · exact absurd hb hsame
        | bookmark | error => exact absurd hb hsame

/-- The version of an object tells when it came. -/
lemma Faithful.exists_version {u : Nat} (h : s.Faithful) (hur : u ≤ r)
    (hfree : (s.objectsAt u).get? k = none) (hb : (s.objectsAt r).get? k = some b) :
    ∃ n, Resource.versionText b = toString n ∧ u < n ∧ n ≤ r := by
  obtain ⟨i, e, hui, hir, hi, he⟩ := exists_published hur hfree hb
  obtain ⟨c, hc, hversion⟩ := h.version_published i e hi
  obtain rfl : c = b := Option.some.inj (hc.symm.trans he)
  exact ⟨i + 1, hversion, by omega, by omega⟩

/-! ## Stores that only requests have changed -/

/-- Every event was one that a request can publish when it was. -/
structure Chronicled (s : Store α) : Prop where
  faithful : s.Faithful
  writes : ∀ i e, s.published[i]? = some e → Writes (s.objectsAt i) e

lemma empty_chronicled (limit : Nat) : (empty limit : Store α).Chronicled :=
  ⟨empty_faithful limit, by simp [empty]⟩

lemma Chronicled.act [LawfulResource α] (h : s.Chronicled) (x : Action α) :
    (s.act x).Chronicled := by
  have hfaithful := h.faithful.act x
  refine ⟨hfaithful, ?_⟩
  rcases act_wrote h.faithful.keyed x with he | ⟨k, e, a, -, -, -, hwrites, he⟩ | he | he
  · rw [he]
    exact h.writes
  · have hpublished : (s.act x).published = s.published ++ [e] := by
      rw [he]
      rfl
    have hprefix : s.published <+: (s.act x).published := ⟨[e], hpublished.symm⟩
    intro i e' hi
    rcases Nat.lt_or_ge i s.published.length with hlt | hge
    · rw [hpublished, List.getElem?_append_left hlt] at hi
      rw [objectsAt_of_isPrefix hprefix hlt.le]
      exact h.writes i e' hi
    · rw [hpublished, List.getElem?_append_right hge, List.getElem?_singleton] at hi
      split at hi
      next heq =>
        obtain rfl := Option.some.inj hi
        obtain rfl : i = s.published.length := by omega
        rw [objectsAt_of_isPrefix hprefix le_rfl, h.faithful.length_published,
          h.faithful.objectsAt_now]
        exact hwrites
      · simp at hi
  · rw [he]
    exact h.writes
  · rw [he]
    exact h.writes

/-- The store after some actions on an empty one that keeps `limit` events. -/
def run (limit : Nat) (actions : List (Action α)) : Store α := actions.foldl act (empty limit)

lemma run_append (limit : Nat) (l l' : List (Action α)) :
    run limit (l ++ l') = l'.foldl act (run limit l) := List.foldl_append

lemma run_concat (limit : Nat) (actions : List (Action α)) (x : Action α) :
    run limit (actions ++ [x]) = (run limit actions).act x := by
  rw [run_append, List.foldl_cons, List.foldl_nil]

lemma run_chronicled [LawfulResource α] (limit : Nat) (actions : List (Action α)) :
    (run limit actions).Chronicled := by
  induction actions using List.reverseRecOn with
  | nil => exact empty_chronicled limit
  | append_singleton actions x ih =>
    rw [run_concat]
    exact ih.act x

lemma run_isPrefix [LawfulResource α] (limit : Nat) (l l' : List (Action α)) :
    (run limit l).published <+: (run limit (l ++ l')).published := by
  induction l' using List.reverseRecOn with
  | nil => rw [List.append_nil]
  | append_singleton l' x ih =>
    rw [← List.append_assoc, run_concat]
    obtain ⟨events, -, he, -⟩ := act_grows (run_chronicled limit (l ++ l')).faithful.keyed x
    exact ih.trans ⟨events, he.symm⟩

/-- What becomes of the object under a key with one event: it stays, has a successor, or goes. -/
lemma Chronicled.step_cases (h : s.Chronicled) (ha : (s.objectsAt i).get? k = some a) :
    (s.objectsAt (i + 1)).get? k = some a ∨
    (∃ b, Replaces a b ∧ s.published[i]? = some (.modified b) ∧ Resource.key b = k ∧
      (s.objectsAt (i + 1)).get? k = some b) ∨
    ∃ b, Replaces a b ∧ s.published[i]? = some (.deleted b) ∧ Resource.key b = k ∧
      (Resource.metadata b).finalizerList = [] := by
  rcases hi : s.published[i]? with _ | e
  · left
    rw [List.getElem?_eq_none_iff] at hi
    rw [objectsAt_of_length_le (by omega), ← objectsAt_of_length_le hi]
    exact ha
  · rw [objectsAt_succ hi]
    cases h.writes i e hi with
    | @added b free =>
      have hne : Resource.key b ≠ k := by
        rintro rfl
        simp [ha] at free
      exact .inl (by rw [WatchEvent.get?_apply_ne _ rfl hne, ha])
    | @modified a' b stored replaces =>
      by_cases hk : Resource.key b = k
      · subst hk
        obtain rfl : a = a' := Option.some.inj (ha.symm.trans stored)
        exact .inr (.inl ⟨b, replaces, rfl, rfl, by simp [WatchEvent.apply]⟩)
      · exact .inl (by rw [WatchEvent.get?_apply_ne _ rfl hk, ha])
    | @deleted a' b stored replaces released =>
      by_cases hk : Resource.key b = k
      · subst hk
        obtain rfl : a = a' := Option.some.inj (ha.symm.trans stored)
        exact .inr (.inr ⟨b, replaces, rfl, rfl, released⟩)
      · exact .inl (by rw [WatchEvent.get?_apply_ne _ rfl hk, ha])

/-- As long as the object under a key is not removed there is one, and it shares with the first what
every successor shares with its predecessor. -/
lemma Chronicled.exists_related (h : s.Chronicled) {R : α → α → Prop} (hrefl : ∀ a, R a a)
    (htrans : ∀ {a b c}, R a b → Replaces b c → R a c) (hvr : v ≤ r)
    (ha : (s.objectsAt v).get? k = some a) :
    (∃ b, (s.objectsAt r).get? k = some b ∧ R a b) ∨
      ∃ i gone, v ≤ i ∧ i < r ∧ s.published[i]? = some (.deleted gone) ∧ Resource.key gone = k := by
  -- by induction on the revisions that have passed
  induction r, hvr using Nat.le_induction with
  | base => exact .inl ⟨a, ha, hrefl a⟩
  | succ r hvr ih =>
    rcases ih with ⟨b, hb, hab⟩ | ⟨i, gone, hvi, hir, hgone⟩
    · rcases h.step_cases hb with hb' | ⟨c, hbc, -, -, hc⟩ | ⟨gone, -, hgone, hk, -⟩
      · exact .inl ⟨b, hb', hab⟩
      · exact .inl ⟨c, hc, htrans hab hbc⟩
      · exact .inr ⟨r, gone, hvr, by omega, hgone, hk⟩
    · exact .inr ⟨i, gone, hvi, by omega, hgone⟩

/-- What holds of new objects and of every successor of one it holds of, holds of all objects. -/
lemma Chronicled.of_stored (h : s.Chronicled) {P : α → Prop}
    (hadded : ∀ a, Resource.generation a = some 1 → (Resource.metadata a).isTerminating = false → P a)
    (hreplaces : ∀ a b, P a → Replaces a b → P b) (ha : (s.objectsAt v).get? k = some a) : P a := by
  induction v generalizing k a with
  | zero => simp [objectsAt] at ha
  | succ v ih =>
    rcases hv : s.published[v]? with _ | e
    · rw [List.getElem?_eq_none_iff] at hv
      rw [objectsAt_of_length_le (by omega), ← objectsAt_of_length_le hv] at ha
      exact ih ha
    · rw [objectsAt_succ hv] at ha
      cases h.writes v e hv with
      | @added b free first unmarked =>
        rw [WatchEvent.apply, KeyMap.get?_insert] at ha
        split at ha
        · obtain rfl := Option.some.inj ha
          exact hadded b first unmarked
        · exact ih ha
      | @modified a' b stored replaces =>
        rw [WatchEvent.apply, KeyMap.get?_insert] at ha
        split at ha
        · obtain rfl := Option.some.inj ha
          exact hreplaces a' b (ih stored) replaces
        · exact ih ha
      | @deleted a' b stored replaces =>
        rw [WatchEvent.apply, KeyMap.get?_erase] at ha
        split at ha
        · simp at ha
        · exact ih ha

end ControlLoop.Store
