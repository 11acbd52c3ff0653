import ControlLoop.Informer.Rehearsal
import ControlLoop.Resource.ConfigMap
import Mathlib.Tactic

/-!
# The changes that an informer passes on

Whatever a client answers, the changes that an informer has passed on lead from nothing to its copy, as
far as keys and versions go: what they add was not there, and what they modify was there with the
version that the change gives as the old one. An object that a new listing has in the same version is
not passed on, so the copy may hold another object of that version than the changes do.
-/
namespace ControlLoop

/-! ## Changes one after the other -/

namespace Change

variable {α : Type} [Resource α] {m n : KeyMap α} {c : Change α} {l : List (Change α)} {k : ObjectKey}

/-- The object of the key after the change. -/
def left : Change α → Option α
  | added a => some a
  | modified _ a => some a
  | deleted _ => none

/-- The change can befall these objects: what is added is not among them, and what is modified is, with
the version of the old object. -/
def Befits (m : KeyMap α) : Change α → Prop
  | added a => m.get? (Resource.key a) = none
  | modified old a => ∃ before known, old = some before ∧ m.get? (Resource.key a) = some known ∧
      Resource.versionText before = Resource.versionText known
  | deleted _ => True

/-- What changes do to a map of objects, one after the other. -/
def applyAll (m : KeyMap α) (l : List (Change α)) : KeyMap α := l.foldl apply m

lemma replay_append (l l' : List (Change α)) : replay (l ++ l') = applyAll (replay l) l' :=
  List.foldl_append

/-- Each change can befall what the changes before it have left. -/
def Succession (m : KeyMap α) : List (Change α) → Prop
  | [] => True
  | c :: l => c.Befits m ∧ Succession (c.apply m) l

lemma get?_apply (m : KeyMap α) (c : Change α) (k : ObjectKey) :
    (c.apply m).get? k = if c.key = k then c.left else m.get? k := by
  cases c with
  | added a => exact KeyMap.get?_insert ..
  | modified old a => exact KeyMap.get?_insert ..
  | deleted a => exact KeyMap.get?_erase ..

/-- Whether a change can befall some objects is decided by the one of its key. -/
lemma Befits.congr (h : c.Befits m) (hsame : n.get? c.key = m.get? c.key) : c.Befits n := by
  cases c with
  | added a => exact hsame.trans h
  | modified old a =>
    obtain ⟨before, known, hold, hknown, hversion⟩ := h
    exact ⟨before, known, hold, hsame.trans hknown, hversion⟩
  | deleted a => trivial

lemma succession_append (m : KeyMap α) (l l' : List (Change α)) :
    Succession m (l ++ l') ↔ Succession m l ∧ Succession (applyAll m l) l' := by
  induction l generalizing m with
  | nil => simp [Succession, applyAll]
  | cons c l ih =>
    rw [List.cons_append, Succession, Succession, ih, and_assoc]
    rfl

/-- So each change of a log can befall what the log up to it makes from nothing. -/
lemma Succession.befits {log earlier later : List (Change α)} (h : Succession ∅ log)
    (hlog : log = earlier ++ c :: later) : c.Befits (replay earlier) := by
  rw [hlog, succession_append] at h
  exact h.2.1

/-! ## Changes of different objects -/

lemma get?_applyAll_of_not_mem (m : KeyMap α) (hk : k ∉ l.map key) :
    (applyAll m l).get? k = m.get? k := by
  induction l generalizing m with
  | nil => rfl
  | cons c l ih =>
    rw [List.map_cons, List.mem_cons, not_or] at hk
    have hfirst : (c.apply m).get? k = m.get? k := by rw [get?_apply, if_neg (Ne.symm hk.1)]
    rw [← hfirst]
    exact ih (c.apply m) hk.2

/-- Of several changes of different objects, each decides what becomes of its own. -/
lemma get?_applyAll_of_mem (m : KeyMap α) (hl : (l.map key).Nodup) (hc : c ∈ l) :
    (applyAll m l).get? c.key = c.left := by
  induction l generalizing m with
  | nil => cases hc
  | cons d l ih =>
    rw [List.map_cons, List.nodup_cons] at hl
    rcases List.mem_cons.mp hc with rfl | hc
    · have hlast : (applyAll (c.apply m) l).get? c.key = (c.apply m).get? c.key :=
        get?_applyAll_of_not_mem _ hl.1
      exact hlast.trans (by rw [get?_apply, if_pos rfl])
    · exact ih (d.apply m) hl.2 hc

/-- Changes of different objects that can each befall what is there can come one after the other. -/
lemma succession_of_nodup (hl : (l.map key).Nodup) (hbefits : ∀ c ∈ l, c.Befits m) :
    Succession m l := by
  induction l generalizing m with
  | nil => trivial
  | cons c l ih =>
    rw [List.map_cons, List.nodup_cons] at hl
    refine ⟨hbefits c List.mem_cons_self, ih hl.2 fun d hd => ?_⟩
    refine (hbefits d (List.mem_cons_of_mem _ hd)).congr ?_
    rw [get?_apply, if_neg]
    exact fun hkey => hl.1 (List.mem_map.mpr ⟨d, hd, hkey.symm⟩)

end Change

/-! ## Copies and logs -/

namespace KeyMap

variable {α : Type} [Resource α] {m n : KeyMap α} {k : ObjectKey} {a : α}

/-- Objects stand under their own keys. -/
def OwnKeys (m : KeyMap α) : Prop := ∀ k a, m.get? k = some a → Resource.key a = k

/-- The version under a key. -/
def version? (m : KeyMap α) (k : ObjectKey) : Option String := (m.get? k).map Resource.versionText

omit [Resource α] in
lemma mem_entries (m : KeyMap α) : (k, a) ∈ m.entries ↔ m.get? k = some a :=
  (lookup_eq_some_iff m.ordered).symm

lemma ownKeys_empty : OwnKeys (∅ : KeyMap α) := by
  intro k a ha
  cases ha

lemma OwnKeys.insert (h : m.OwnKeys) (a : α) : (m.insert (Resource.key a) a).OwnKeys := by
  intro k b hb
  rw [get?_insert] at hb
  split at hb
  next hk =>
    rw [← Option.some.inj hb]
    exact hk
  · exact h k b hb

lemma OwnKeys.erase (h : m.OwnKeys) (k : ObjectKey) : (m.erase k).OwnKeys := by
  intro j b hb
  rw [get?_erase] at hb
  split at hb
  · cases hb
  · exact h j b hb

lemma ownKeys_ofList (items : List α) : OwnKeys (ofList (items.map fun a => (Resource.key a, a))) := by
  have hinsert (l : List α) (m : KeyMap α) (hm : m.OwnKeys) :
      OwnKeys ((l.map fun a => (Resource.key a, a)).foldl (fun m e => m.insert e.1 e.2) m) := by
    induction l generalizing m with
    | nil => exact hm
    | cons a l ih => exact ih _ (hm.insert a)
  exact hinsert items ∅ ownKeys_empty

omit [Resource α] in
lemma contains_eq_false (m : KeyMap α) (k : ObjectKey) : m.contains k = false ↔ m.get? k = none := by
  rw [contains, Option.isSome_eq_false_iff, Option.isNone_iff_eq_none]

end KeyMap

namespace Informer

variable {α : Type} [Resource α] {i j : Informer α} {previous fresh : KeyMap α} {c : Change α}
  {log changes : List (Change α)}

/-! ## How a new listing differs -/

lemma key_of_compareWith {e : ObjectKey × α} (hkey : Resource.key e.2 = e.1)
    (h : compareWith previous e = some c) : c.key = e.1 := by
  unfold compareWith at h
  split at h
  · rw [← Option.some.inj h]
    exact hkey
  · split at h
    · cases h
    · rw [← Option.some.inj h]
      exact hkey

/-- A change that a new listing brings, and what it leaves. -/
lemma mem_difference (hprevious : previous.OwnKeys) (hfresh : fresh.OwnKeys)
    (hc : c ∈ difference previous fresh) :
    c.left = fresh.get? c.key ∧
      ((∃ a, c = .added a ∧ previous.get? c.key = none) ∨
        (∃ old a, c = .modified (some old) a ∧ previous.get? c.key = some old) ∨
        ∃ a, c = .deleted a ∧ fresh.get? c.key = none) := by
  rcases List.mem_append.mp hc with hnew | hgone
  · obtain ⟨⟨k, a⟩, he, hcompare⟩ := List.mem_filterMap.mp hnew
    have ha := fresh.mem_entries.mp he
    have hkey := key_of_compareWith (hfresh k a ha) hcompare
    rw [hkey, ha]
    unfold compareWith at hcompare
    split at hcompare
    next hnone =>
      obtain rfl := Option.some.inj hcompare
      exact ⟨rfl, .inl ⟨a, rfl, hnone⟩⟩
    next old hold =>
      split at hcompare
      · cases hcompare
      · obtain rfl := Option.some.inj hcompare
        exact ⟨rfl, .inr (.inl ⟨old, a, rfl, hold⟩)⟩
  · obtain ⟨⟨k, a⟩, he, rfl⟩ := List.mem_map.mp hgone
    obtain ⟨he, hfree⟩ := List.mem_filter.mp he
    have hkey : Change.key (.deleted a) = k := hprevious k a (previous.mem_entries.mp he)
    have hnone : fresh.get? k = none := by
      rw [← KeyMap.contains_eq_false]
      simpa using hfree
    rw [hkey, hnone]
    exact ⟨rfl, .inr (.inr ⟨a, rfl, rfl⟩)⟩

/-- Of an object that is new, gone or of another version in a new listing, a change is passed on. -/
lemma exists_mem_difference {k : ObjectKey}
    (hprevious : ∀ a, previous.get? k = some a → Resource.key a = k)
    (hfresh : ∀ a, fresh.get? k = some a → Resource.key a = k)
    (hk : fresh.version? k ≠ previous.version? k) : ∃ c ∈ difference previous fresh, c.key = k := by
  unfold KeyMap.version? at hk
  cases hnew : fresh.get? k with
  | some a =>
    have he := fresh.mem_entries.mpr hnew
    have hcompared (c : Change α) (hc : compareWith previous (k, a) = some c) :
        ∃ c ∈ difference previous fresh, c.key = k :=
      ⟨c, List.mem_append_left _ (List.mem_filterMap.mpr ⟨(k, a), he, hc⟩),
        key_of_compareWith (hfresh a hnew) hc⟩
    cases hold : previous.get? k with
    | none => exact hcompared (.added a) (by simp [compareWith, hold])
    | some old =>
      have hversion : Resource.versionText old ≠ Resource.versionText a := by
        intro hsame
        simp [hnew, hold, hsame] at hk
      exact hcompared (.modified (some old) a) (by simp [compareWith, hold, hversion])
  | none =>
    obtain ⟨old, hold⟩ : ∃ old, previous.get? k = some old := by
      rw [← Option.ne_none_iff_exists']
      intro hnone
      simp [hnew, hnone] at hk
    refine ⟨.deleted old, List.mem_append_right _ (List.mem_map.mpr ⟨(k, old), ?_, rfl⟩),
      hprevious old hold⟩
    rw [List.mem_filter]
    exact ⟨previous.mem_entries.mpr hold, by simp [KeyMap.contains, hnew]⟩

lemma map_key_filterMap (previous : KeyMap α) (entries : List (ObjectKey × α))
    (hkeys : ∀ e ∈ entries, Resource.key e.2 = e.1) :
    ((entries.filterMap (compareWith previous)).map Change.key).Sublist (entries.map (·.1)) := by
  induction entries with
  | nil => exact List.Sublist.slnil
  | cons e entries ih =>
    have hrest := ih fun e he => hkeys e (List.mem_cons_of_mem _ he)
    cases hc : compareWith previous e with
    | none =>
      rw [List.filterMap_cons_none hc, List.map_cons]
      exact hrest.cons _
    | some c =>
      rw [List.filterMap_cons_some hc, List.map_cons, List.map_cons,
        key_of_compareWith (hkeys e List.mem_cons_self) hc]
      exact hrest.cons_cons _

omit [Resource α] in
lemma nodup_keys (m : KeyMap α) : (m.entries.map (·.1)).Nodup := by
  rw [List.Nodup, List.pairwise_map]
  refine m.ordered.imp fun {a b} hlt heq => ?_
  rw [heq] at hlt
  exact ObjectKey.lt_irrefl _ hlt

/-- The changes of a new listing are of different objects. -/
lemma nodup_difference (hprevious : previous.OwnKeys) (hfresh : fresh.OwnKeys) :
    ((difference previous fresh).map Change.key).Nodup := by
  have hgone : ((previous.entries.filter fun e => !fresh.contains e.1).map fun e =>
      Change.deleted e.2).map Change.key =
        (previous.entries.filter fun e => !fresh.contains e.1).map (·.1) := by
    rw [List.map_map]
    refine List.map_congr_left fun e he => ?_
    exact hprevious e.1 e.2 (previous.mem_entries.mp (List.mem_of_mem_filter he))
  rw [difference, List.map_append, hgone, List.nodup_append]
  have hentries : ∀ e ∈ fresh.entries, Resource.key e.2 = e.1 := fun e he =>
    hfresh e.1 e.2 (fresh.mem_entries.mp he)
  have hnew := map_key_filterMap previous fresh.entries hentries
  refine ⟨(nodup_keys fresh).sublist hnew,
    (nodup_keys previous).sublist (List.filter_sublist.map _), ?_⟩
  rintro k hk k' hk' rfl
  obtain ⟨⟨k, a⟩, he, rfl⟩ := List.mem_map.mp (hnew.subset hk)
  obtain ⟨⟨k', b⟩, he', rfl⟩ := List.mem_map.mp hk'
  have hfree := (List.mem_filter.mp he').2
  simp [KeyMap.contains, fresh.mem_entries.mp he] at hfree

/-! ## One step of an informer -/

/-- What an informer is told: an answer of its client, the end of a rest, or to stop. -/
inductive Turn (α : Type) where
  | listed (answer : Except ClientError (Listing α))
  | opened (answer : Except ClientError Unit)
  | received (item : WatchItem α)
  | rested
  | stopped

/-- A step of an informer, with the changes that it passes on. The changes of a new listing come in any
order. -/
inductive Step (i : Informer α) : Turn α → List (Change α) → Informer α → Prop
  | listed (asks : i.phase = .listing) (answer : Except ClientError (Listing α))
      {changes : List (Change α)} (order : changes.Perm (i.listed answer).2) :
      Step i (.listed answer) changes (i.listed answer).1
  | opened {version : String} (asks : i.phase = .opening version)
      (answer : Except ClientError Unit) : Step i (.opened answer) [] (i.opened version answer)
  | received {version : String} (waits : i.phase = .watching version) (item : WatchItem α) :
      Step i (.received item) (i.received version item).2 (i.received version item).1
  | rested {resume : Option String} (rests : i.phase = .resting resume) :
      Step i .rested [] (i.rested resume)
  | stopped : Step i .stopped [] i.stop

/-- The log of changes explains the copy. -/
structure Explained (log : List (Change α)) (i : Informer α) : Prop where
  ownKeys : i.cache.OwnKeys
  version_eq : ∀ k, (Change.replay log).version? k = i.cache.version? k
  succession : Change.Succession ∅ log

/-- A step that leaves the copy as it is, and passes nothing on. -/
lemma Explained.same (h : Explained log i) (hcache : j.cache = i.cache) :
    Explained (log ++ []) j := by
  rw [List.append_nil]
  exact ⟨hcache ▸ h.ownKeys, hcache ▸ h.version_eq, h.succession⟩

omit [Resource α] in
lemma opened_cache (i : Informer α) (version : String) (answer : Except ClientError Unit) :
    (i.opened version answer).cache = i.cache := by
  rcases answer with (_ | _ | _ | _ | _) | _ <;> rfl

/-- An object that is new or has changed. -/
lemma Explained.upsert (h : Explained log i) (version : String) (a : α) :
    Explained (log ++ (i.upsert version a).2) (i.upsert version a).1 := by
  have hreplay := h.version_eq (Resource.key a)
  unfold KeyMap.version? at hreplay
  have hone (c : Change α) (hleft : c.left = some a) (hkey : c.key = Resource.key a)
      (hbefits : c.Befits (Change.replay log)) (hc : (i.upsert version a).2 = [c]) :
      Explained (log ++ (i.upsert version a).2) (i.upsert version a).1 := by
    rw [hc]
    refine ⟨h.ownKeys.insert a, fun k => ?_, ?_⟩
    · have hcache : (i.upsert version a).1.cache = i.cache.insert (Resource.key a) a := rfl
      rw [Change.replay_append, hcache, KeyMap.version?, KeyMap.version?, KeyMap.get?_insert]
      change ((c.apply (Change.replay log)).get? k).map _ = _
      rw [Change.get?_apply, hkey, hleft]
      split
      · rfl
      · exact h.version_eq k
    · rw [Change.succession_append]
      exact ⟨h.succession, hbefits, trivial⟩
  cases hold : i.cache.get? (Resource.key a) with
  | none =>
    rw [hold, Option.map_none, Option.map_eq_none_iff] at hreplay
    exact hone (.added a) rfl rfl hreplay (by simp [Informer.upsert, hold])
  | some old =>
    rw [hold, Option.map_some, Option.map_eq_some_iff] at hreplay
    obtain ⟨known, hknown, hversion⟩ := hreplay
    exact hone (.modified (some old) a) rfl rfl ⟨old, known, rfl, hknown, hversion.symm⟩
      (by simp [Informer.upsert, hold])

/-- An item of the watch. -/
lemma Explained.received (h : Explained log i) (version : String) (item : WatchItem α) :
    Explained (log ++ (i.received version item).2) (i.received version item).1 := by
  cases item with
  | ended => exact h.same rfl
  | failed e => cases e <;> exact h.same rfl
  | event e =>
    cases e with
    | added a => exact h.upsert version a
    | modified a => exact h.upsert version a
    | deleted a =>
      refine ⟨h.ownKeys.erase _, fun k => ?_, ?_⟩
      · rw [Informer.received, Change.replay_append, KeyMap.version?, KeyMap.version?,
          KeyMap.get?_erase]
        change (((Change.deleted a).apply (Change.replay log)).get? k).map _ = _
        rw [Change.get?_apply]
        change (if Resource.key a = k then none else _ : Option α).map _ = _
        split
        · rfl
        · exact h.version_eq k
      · rw [Change.succession_append]
        exact ⟨h.succession, trivial, trivial⟩
    | bookmark seen => exact h.same rfl
    | error code text =>
      rw [Informer.received]
      split <;> exact h.same rfl

/-- A new listing. Its changes are of different objects, so each of them can befall what the log has
made so far, whatever the order that they come in. -/
lemma Explained.listed (h : Explained log i) {answer : Except ClientError (Listing α)}
    (hchanges : changes.Perm (i.listed answer).2) :
    Explained (log ++ changes) (i.listed answer).1 := by
  cases answer with
  | error e =>
    rw [List.perm_nil.mp hchanges]
    exact h.same rfl
  | ok listing =>
    have hfresh := KeyMap.ownKeys_ofList listing.items
    have hlisted : (i.listed (.ok listing)).1.cache =
        .ofList (listing.items.map fun a => (Resource.key a, a)) := rfl
    have hchanges : changes.Perm (difference i.cache
      (.ofList (listing.items.map fun a => (Resource.key a, a)))) := hchanges
    generalize KeyMap.ofList (listing.items.map fun a => (Resource.key a, a)) = fresh at *
    have hnodup : (changes.map Change.key).Nodup :=
      (hchanges.map _).nodup_iff.mpr (nodup_difference h.ownKeys hfresh)
    have hmem (c : Change α) (hc : c ∈ changes) :=
      mem_difference h.ownKeys hfresh (hchanges.mem_iff.mp hc)
    refine ⟨hlisted ▸ hfresh, fun k => ?_, ?_⟩
    · rw [Change.replay_append, hlisted]
      by_cases hk : k ∈ changes.map Change.key
      · obtain ⟨c, hc, rfl⟩ := List.mem_map.mp hk
        rw [KeyMap.version?, Change.get?_applyAll_of_mem _ hnodup hc, (hmem c hc).1]
        rfl
      · rw [KeyMap.version?, Change.get?_applyAll_of_not_mem _ hk]
        refine (h.version_eq k).trans ?_
        by_contra hother
        obtain ⟨c, hc, hkey⟩ := exists_mem_difference (h.ownKeys k) (hfresh k) (Ne.symm hother)
        exact hk (List.mem_map.mpr ⟨c, hchanges.mem_iff.mpr hc, hkey⟩)
    · rw [Change.succession_append]
      refine ⟨h.succession, Change.succession_of_nodup hnodup fun c hc => ?_⟩
      have hversion := h.version_eq c.key
      unfold KeyMap.version? at hversion
      obtain ⟨-, ⟨a, rfl, hnone⟩ | ⟨old, a, rfl, hold⟩ | ⟨a, rfl, -⟩⟩ := hmem c hc
      · rw [hnone, Option.map_none, Option.map_eq_none_iff] at hversion
        exact hversion
      · rw [hold, Option.map_some, Option.map_eq_some_iff] at hversion
        obtain ⟨known, hknown, hsame⟩ := hversion
        exact ⟨old, known, rfl, hknown, hsame.symm⟩
      · trivial

lemma Explained.step (h : Explained log i) {turn : Turn α} (hstep : i.Step turn changes j) :
    Explained (log ++ changes) j := by
  cases hstep with
  | listed asks answer order => exact h.listed order
  | opened asks answer => exact h.same (opened_cache i _ answer)
  | received waits item => exact h.received _ item
  | @rested resume rests => exact h.same (by cases resume <;> rfl)
  | stopped => exact h.same rfl

/-! ## Whole runs -/

/-- What an informer has been told from the beginning, the changes that it has passed on, and its state
then. -/
inductive Runs : List (Turn α) → List (Change α) → Informer α → Prop
  | start : Runs [] [] {}
  | step {turns : List (Turn α)} {log : List (Change α)} {i : Informer α} (before : Runs turns log i)
      {turn : Turn α} {changes : List (Change α)} {j : Informer α} (next : i.Step turn changes j) :
      Runs (turns ++ [turn]) (log ++ changes) j

lemma Runs.explained {turns : List (Turn α)} (h : Runs turns log i) : Explained log i := by
  induction h with
  | start => exact ⟨KeyMap.ownKeys_empty, fun _ => rfl, trivial⟩
  | step _ next ih => exact ih.step next

end Informer

/-! ## Rehearsals are runs -/

/-- The change that a line of a trace tells of. -/
def Trace.change? {α : Type} : Trace α → Option (Change α)
  | .change c => some c
  | _ => none

namespace Rehearsal

variable {α : Type} [Resource α] {r r' : Rehearsal α} {limit : Duration}

/-- The changes that the informer has passed on. -/
def changes (r : Rehearsal α) : List (Change α) := r.trace.filterMap (·.2.change?)

omit [Resource α] in
lemma changes_apply (r : Rehearsal α) (result : Informer α × List (Change α)) :
    (r.apply result).changes = r.changes ++ result.2 := by
  simp [changes, apply, List.filterMap_append, List.filterMap_map, Trace.change?]

omit [Resource α] in
@[simp] lemma announce_informer (r : Rehearsal α) : r.announce.informer = r.informer := by
  unfold announce
  split <;> rfl

omit [Resource α] in
@[simp] lemma announce_changes (r : Rehearsal α) : r.announce.changes = r.changes := by
  unfold announce
  split <;> simp [changes, note, Trace.change?]

omit [Resource α] in
/-- Waiting changes nothing but the time. -/
lemma wait_eq_some {d : Duration} (h : r.wait limit d = some r') :
    r' = { r with now := r.now + d } := by
  unfold wait at h
  split at h
  · exact (Option.some.inj h).symm
  · cases h

/-- What happens next is a step of the informer, or a pause. -/
lemma step_cases (h : r.step limit = some r') :
    (r'.informer = r.informer ∧ r'.changes = r.changes) ∨
      ∃ turn changes, r.informer.Step turn changes r'.informer ∧
        r'.changes = r.changes ++ changes := by
  unfold step at h
  split at h
  next hphase => cases h
  next hphase =>
    have hlisted (answer : Except ClientError (Listing α)) :=
      Informer.Step.listed hphase answer (.refl _)
    split at h
    · cases h
    next cue lists _ =>
      cases cue with
      | hang => cases h
      | fail e =>
        obtain rfl := Option.some.inj h
        exact .inr ⟨_, _, hlisted (.error e), changes_apply _ _⟩
      | answer listing d =>
        obtain ⟨r₁, hwait, hr'⟩ := Option.bind_eq_some_iff.mp h
        obtain rfl := wait_eq_some hwait
        obtain rfl := Option.some.inj hr'
        exact .inr ⟨_, _, hlisted (.ok listing), changes_apply _ _⟩
  next version hphase =>
    have hopened (answer : Except ClientError Unit) := Informer.Step.opened hphase answer
    split at h
    · obtain rfl := Option.some.inj h
      exact .inr ⟨_, _, hopened (.ok ()), (List.append_nil _).symm⟩
    next cue watches _ =>
      cases cue with
      | hang => cases h
      | fail e =>
        obtain rfl := Option.some.inj h
        exact .inr ⟨_, _, hopened (.error e), (List.append_nil _).symm⟩
      | items items d silent =>
        obtain ⟨r₁, hwait, hr'⟩ := Option.bind_eq_some_iff.mp h
        obtain rfl := wait_eq_some hwait
        obtain rfl := Option.some.inj hr'
        exact .inr ⟨_, _, hopened (.ok ()), (List.append_nil _).symm⟩
  next version hphase =>
    have hreceived (item : WatchItem α) := Informer.Step.received hphase item
    split at h
    · split at h
      · cases h
      · obtain rfl := Option.some.inj h
        exact .inr ⟨_, _, hreceived .ended, changes_apply _ _⟩
    · obtain ⟨r₁, hwait, hr'⟩ := Option.bind_eq_some_iff.mp h
      obtain rfl := wait_eq_some hwait
      obtain rfl := Option.some.inj hr'
      exact .inl ⟨rfl, rfl⟩
    next e rest _ =>
      obtain rfl := Option.some.inj h
      exact .inr ⟨_, _, hreceived (.event e), changes_apply _ _⟩
    next e rest _ =>
      obtain rfl := Option.some.inj h
      exact .inr ⟨_, _, hreceived (.failed e), changes_apply _ _⟩
  next resume hphase =>
    obtain ⟨r₁, hwait, hr'⟩ := Option.bind_eq_some_iff.mp h
    obtain rfl := wait_eq_some hwait
    obtain rfl := Option.some.inj hr'
    exact .inr ⟨_, _, .rested hphase, (List.append_nil _).symm⟩

/-- So a rehearsal goes along a run of its informer. -/
lemma steps_runs (limit : Duration) (n : Nat)
    (h : ∃ turns, Informer.Runs turns r.changes r.informer) :
    ∃ turns, Informer.Runs turns (steps limit n r).changes (steps limit n r).informer := by
  induction n generalizing r with
  | zero => exact h
  | succ n ih =>
    rw [steps]
    split
    · simpa using h
    next r' hstep =>
      refine ih ?_
      obtain ⟨turns, hruns⟩ := h
      rcases step_cases hstep with ⟨hinformer, hchanges⟩ | ⟨turn, changes, hnext, hchanges⟩
      · rw [hinformer, hchanges, announce_informer, announce_changes]
        exact ⟨turns, hruns⟩
      · rw [announce_informer] at hnext
        rw [hchanges, announce_changes]
        exact ⟨_, hruns.step hnext⟩

lemma run_runs (script : ClientScript α) (backoff limit : Duration) :
    ∃ turns, Informer.Runs turns (run script backoff limit).changes
      (run script backoff limit).informer :=
  steps_runs limit (bound script) ⟨[], .start⟩

end Rehearsal

namespace Informer

variable {α : Type} [Resource α] {i : Informer α} {log : List (Change α)}

/-- Whatever an informer has been told, the changes that it has passed on make from nothing a map with
the keys of its copy and, under each of them, an object of the same version. What they add was not there
when it was added, and what they modify was there, in the version that the old object has. -/
theorem changes_explain_copy {turns : List (Turn α)} (h : Runs turns log i) :
    (∀ k, ((Change.replay log).get? k).map Resource.versionText =
      (i.cache.get? k).map Resource.versionText) ∧
    ∀ earlier c later, log = earlier ++ c :: later → c.Befits (Change.replay earlier) :=
  ⟨h.explained.version_eq, fun _ _ _ hlog => h.explained.succession.befits hlog⟩

/-- A map of the given name and version, with one piece of text. -/
def sampleMap (name version text : String) : ConfigMap where
  metadata := { name := some name, resourceVersion := some version }
  data := some [("text", text)]

/-- A client that lists a map twice, then tells of maps that the informer does not expect, and lists
again once the watch has broken off. -/
def unrulyScript : ClientScript ConfigMap where
  lists :=
    [.answer ⟨[sampleMap "a" "1" "x", sampleMap "b" "2" "x", sampleMap "a" "3" "y"], "3"⟩ 0,
      .answer ⟨[sampleMap "b" "2" "other", sampleMap "c" "8" "z"], "9"⟩ 0]
  watches :=
    [.items [.event (.added (sampleMap "a" "4" "z")), .event (.deleted (sampleMap "d" "5" "x")),
      .event (.modified (sampleMap "c" "6" "x")), .fail (.gone "6")] 0 true]

/-- What an informer makes of it. -/
def unrulyRun : Rehearsal ConfigMap := .run unrulyScript 1 10

/-- The copy and the changes have other objects of the same version under the name `b`, since a new
listing passes on no object of a version that the copy has. -/
theorem changes_explain_copy_unruly :
    let log := [.added (sampleMap "a" "3" "y"), .added (sampleMap "b" "2" "x"),
      .modified (some (sampleMap "a" "3" "y")) (sampleMap "a" "4" "z"),
      .deleted (sampleMap "d" "5" "x"), .added (sampleMap "c" "6" "x"),
      .modified (some (sampleMap "c" "6" "x")) (sampleMap "c" "8" "z"),
      .deleted (sampleMap "a" "4" "z")]
    unrulyRun.changes = log ∧ (∃ turns, Runs turns log unrulyRun.informer) ∧
      unrulyRun.informer.cache.values = [sampleMap "b" "2" "other", sampleMap "c" "8" "z"] ∧
      (Change.replay log).values = [sampleMap "b" "2" "x", sampleMap "c" "8" "z"] ∧
      (∀ k, ((Change.replay log).get? k).map Resource.versionText =
        (unrulyRun.informer.cache.get? k).map Resource.versionText) ∧
      ∀ earlier c later, log = earlier ++ c :: later → c.Befits (Change.replay earlier) := by
  intro log
  have hlog : unrulyRun.changes = log := by decide +kernel
  obtain ⟨turns, hruns⟩ : ∃ turns, Runs turns unrulyRun.changes unrulyRun.informer :=
    Rehearsal.run_runs unrulyScript 1 10
  rw [hlog] at hruns
  obtain ⟨hversions, hbefits⟩ := changes_explain_copy hruns
  exact ⟨hlog, ⟨turns, hruns⟩, by decide +kernel, by decide +kernel, hversions, hbefits⟩

end Informer

end ControlLoop
