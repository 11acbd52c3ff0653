import ControlLoop.Store.Watch
import ControlLoop.Store.Write
import ControlLoop.Resource.Widget
import ControlLoop.Resource.Deployment
import ControlLoop.Resource.ConfigMap
import ControlLoop.Resource.Event
import ControlLoop.Resource.Namespace
import Mathlib.Tactic

/-!
# A store and the events it has published

Each write takes one revision and publishes one event, so the event with revision `n` is the `n`-th
published one. Applying all of them to nothing gives the objects of the store, and the history is what
has been published after `oldestResumable`. These facts hold after any sequence of requests; everything
that is said about watches and copies of the store rests on them.
-/
namespace ControlLoop

/-! ## Versions as text -/

namespace Text

lemma digit?_eq {c : Char} (h : c.isDigit = true) : digit? c = some (c.toNat - '0'.toNat) := by
  have hc : '0' ≤ c ∧ c ≤ '9' := by
    simp only [Char.isDigit, Bool.and_eq_true, decide_eq_true_eq] at h
    exact h
  rw [digit?, if_pos hc]

/-- Digits are read to their value if that is within the limit. The value only grows from digit to
digit, so it is refused in the middle only if it would be at the end. -/
lemma readDigits_eq (limit : Nat) (l : List Char) (hl : ∀ c ∈ l, c.isDigit = true) (value : Nat)
    (hv : value ≤ limit) :
    readDigits limit value l =
      if Nat.ofDigitChars 10 l value ≤ limit then .ok (Nat.ofDigitChars 10 l value)
      else .error .tooLarge := by
  induction l generalizing value with
  | nil => simp [readDigits, hv]
  | cons c l ih =>
    have hc := hl c List.mem_cons_self
    have hrest : ∀ x ∈ l, x.isDigit = true := fun x hx => hl x (List.mem_cons_of_mem c hx)
    have hstep : value * 10 + (c.toNat - '0'.toNat) = 10 * value + (c.toNat - '0'.toNat) := by omega
    rw [Nat.ofDigitChars_cons, readDigits, digit?_eq hc]
    simp only [hstep]
    split
    next h => exact ih hrest _ h
    next h =>
      have hgrow := @Nat.ofDigitChars_eq_ofDigitChars_zero l (10 * value + (c.toNat - '0'.toNat))
      have hpow : 0 < 10 ^ l.length := Nat.pow_pos (by decide)
      have hle : 10 * value + (c.toNat - '0'.toNat) ≤
          10 ^ l.length * (10 * value + (c.toNat - '0'.toNat)) := Nat.le_mul_of_pos_left _ hpow
      rw [if_neg (by omega)]

/-- A number is read back from its own text, if it is within the limit. -/
lemma readNat_toString (limit n : Nat) :
    readNat limit (toString n) = if n ≤ limit then .ok n else .error .tooLarge := by
  have hd : ∀ c ∈ Nat.toDigits 10 n, c.isDigit = true :=
    fun c hc => Nat.isDigit_of_mem_toDigits (by decide) (by decide) hc
  have hr := readDigits_eq limit _ hd 0 (Nat.zero_le _)
  rw [Nat.ofDigitChars_ten_toDigits] at hr
  have ht : (toString n).toList = Nat.toDigits 10 n := Nat.toList_repr
  unfold readNat
  rw [ht, ← hr]
  split
  next h => exact absurd h Nat.toDigits_ne_nil
  next h =>
    have := hd '+' (by rw [h]; simp)
    simp at this
  next h =>
    have := hd '+' (by rw [h]; simp)
    simp at this
  next h => rfl

lemma toString_injective {m n : Nat} (h : toString m = toString n) : m = n := by
  have hm := readNat_toString (max m n) m
  have hn := readNat_toString (max m n) n
  rw [if_pos (le_max_left m n), h] at hm
  rw [if_pos (le_max_right m n), hm] at hn
  exact Except.ok.inj hn

lemma toString_ne_empty (n : Nat) : toString n ≠ "" := Nat.repr_ne_empty

end Text

/-! ## Applying events -/

/-- The metadata of an object are what was last written to them. -/
class LawfulResource (α : Type) [Resource α] : Prop where
  metadata_setMetadata : ∀ (a : α) (m : Metadata),
    Resource.metadata (Resource.setMetadata a m) = m

instance : LawfulResource Widget := ⟨fun _ _ => rfl⟩
instance : LawfulResource Deployment := ⟨fun _ _ => rfl⟩
instance : LawfulResource ConfigMap := ⟨fun _ _ => rfl⟩
instance : LawfulResource Event := ⟨fun _ _ => rfl⟩
instance : LawfulResource NamespaceObject := ⟨fun _ _ => rfl⟩

namespace WatchEvent

variable {α : Type} [Resource α]

/-- What an event does to a map of objects. -/
def apply (m : KeyMap α) : WatchEvent α → KeyMap α
  | added a => m.insert (Resource.key a) a
  | modified a => m.insert (Resource.key a) a
  | deleted a => m.erase (Resource.key a)
  | _ => m

/-- What events do to a map of objects, one after the other. -/
def applyAll (m : KeyMap α) (events : List (WatchEvent α)) : KeyMap α := events.foldl apply m

@[simp] lemma applyAll_nil (m : KeyMap α) : applyAll m [] = m := rfl

@[simp] lemma applyAll_cons (m : KeyMap α) (e : WatchEvent α) (events : List (WatchEvent α)) :
    applyAll m (e :: events) = applyAll (apply m e) events := rfl

lemma applyAll_append (m : KeyMap α) (l l' : List (WatchEvent α)) :
    applyAll m (l ++ l') = applyAll (applyAll m l) l' := List.foldl_append

/-- An event tells of the object of its own key only. -/
lemma get?_apply_ne (m : KeyMap α) {e : WatchEvent α} {a : α} (he : e.object? = some a)
    {k : ObjectKey} (hk : Resource.key a ≠ k) : (apply m e).get? k = m.get? k := by
  cases e <;> simp_all [object?, apply]

/-- An event of an object in the scope acts on what is in the scope, any other leaves that alone. -/
lemma filterKeys_apply (scope : Option String) (m : KeyMap α) {e : WatchEvent α} {a : α}
    (he : e.object? = some a) :
    (apply m e).filterKeys (·.inScope scope) =
      if e.inScope scope then apply (m.filterKeys (·.inScope scope)) e
      else m.filterKeys (·.inScope scope) := by
  have hs : e.inScope scope = (Resource.key a).inScope scope := by
    cases scope with
    | none => simp [inScope, ObjectKey.inScope]
    | some ns =>
      simp only [inScope, he, ObjectKey.inScope, Resource.key]
      exact decide_eq_decide.mpr Iff.rfl
  rw [hs]
  ext1 k
  by_cases hk : Resource.key a = k
  · subst hk
    split <;> cases e <;> simp_all [object?, apply]
  · have hout : ((apply m e).filterKeys (·.inScope scope)).get? k =
        (m.filterKeys (·.inScope scope)).get? k := by
      rw [KeyMap.get?_filterKeys, KeyMap.get?_filterKeys, get?_apply_ne m he hk]
    rw [hout]
    split
    · rw [get?_apply_ne _ he hk]
    · rfl

lemma applyAll_filter (scope : Option String) (m : KeyMap α) (events : List (WatchEvent α))
    (h : ∀ e ∈ events, ∃ a, e.object? = some a) :
    applyAll (m.filterKeys (·.inScope scope)) (events.filter (·.inScope scope)) =
      (applyAll m events).filterKeys (·.inScope scope) := by
  induction events generalizing m with
  | nil => rfl
  | cons e events ih =>
    obtain ⟨a, ha⟩ := h e List.mem_cons_self
    have hrest := ih (apply m e) fun x hx => h x (List.mem_cons_of_mem e hx)
    rw [filterKeys_apply scope m ha] at hrest
    rw [applyAll_cons, ← hrest, List.filter_cons]
    split <;> rfl

/-- Every map that events make from nothing holds objects of these events, under their own keys. -/
lemma object_of_applyAll (events : List (WatchEvent α)) {k : ObjectKey} {a : α}
    (h : (applyAll ∅ events).get? k = some a) :
    Resource.key a = k ∧ ∃ e ∈ events, e.object? = some a := by
  have hall : ∀ (l : List (WatchEvent α)) (m : KeyMap α), l ⊆ events →
      (∀ k a, m.get? k = some a → Resource.key a = k ∧ ∃ e ∈ events, e.object? = some a) →
      ∀ k a, (applyAll m l).get? k = some a →
        Resource.key a = k ∧ ∃ e ∈ events, e.object? = some a := by
    intro l
    induction l with
    | nil => exact fun _ _ hm => hm
    | cons e l ih =>
      intro m hl hm
      have he : e ∈ events := hl List.mem_cons_self
      refine ih (apply m e) (fun x hx => hl (List.mem_cons_of_mem e hx)) ?_
      intro k a ha
      cases e with
      | bookmark | error => exact hm k a ha
      | added b | modified b =>
        rw [apply, KeyMap.get?_insert] at ha
        split at ha
        next hk =>
          obtain rfl := Option.some.inj ha
          exact ⟨hk, _, he, rfl⟩
        · exact hm k a ha
      | deleted b =>
        rw [apply, KeyMap.get?_erase] at ha
        split at ha
        · simp at ha
        · exact hm k a ha
  exact hall events ∅ (List.Subset.refl _) (by simp) k a h

end WatchEvent

/-! ## Requests -/

namespace Store

variable {α : Type} [Resource α]

/-- What clients and the surroundings can do to a store. -/
inductive Action (α : Type) where
  | create (stamp : Stamp) (ns : Option String) (object : α)
  | update (ns : Option String) (object : α)
  | patch (key : ObjectKey) (patch : Json)
  | updateStatus (key : ObjectKey) (status : Json) (version : Option String)
  | delete (now : Timestamp) (key : ObjectKey)
  | disconnect
  | compact

/-- The store after a request that may be refused. -/
def after (s : Store α) : Except ClientError (α × Store α) → Store α
  | .ok (_, t) => t
  | .error _ => s

/-- The store after an action. -/
def act (s : Store α) : Action α → Store α
  | .create stamp ns a => s.after (s.create stamp ns a)
  | .update ns a => s.after (s.update ns a)
  | .patch k p => s.after (s.patch k p)
  | .updateStatus k status version => s.after (s.updateStatus k status version)
  | .delete now k =>
    match s.delete now k with
    | .ok t => t
    | .error _ => s
  | .disconnect => s.disconnect
  | .compact => s.compact

/-- Takes the next revision for an event, applies it and sends it out. -/
def publish (s : Store α) (e : WatchEvent α) : Store α :=
  { s.nextRevision with objects := e.apply s.objects }.record e

/-- The store has published one event, about an object that has the new revision as its version. -/
def Publishes (s t : Store α) : Prop :=
  ∃ e a, e.object? = some a ∧ Resource.versionText a = toString (s.revision + 1) ∧ t = s.publish e

/-- Objects stand under their own keys. -/
def Keyed (s : Store α) : Prop := ∀ k a, s.objects.get? k = some a → Resource.key a = k

lemma get?_of_get {s : Store α} {k : ObjectKey} {a : α} (h : s.get k = .ok a) :
    s.objects.get? k = some a := by
  unfold get at h
  split at h
  next b hb => rw [hb, Except.ok.inj h]
  · simp at h

/-! ## What requests come to -/

lemma get?_put (s : Store α) (k j : ObjectKey) (event : α → WatchEvent α) (a : α) :
    (s.put k event a).2.objects.get? j =
      if k = j then some (versioned (s.revision + 1) a) else s.objects.get? j :=
  KeyMap.get?_insert ..

lemma get?_remove (s : Store α) (k j : ObjectKey) (a : α) :
    (s.remove k a).2.objects.get? j = if k = j then none else s.objects.get? j :=
  KeyMap.get?_erase ..

omit [Resource α] in
/-- A request goes on from what it has seen, and the store is as it was. -/
lemma outcome_look {β γ : Type} (s : Store α) (f : Store α → Except ClientError β)
    (rest : β → Edit α γ) :
    s.outcome (Edit.look f >>= rest) = (f s).bind fun b => s.outcome (rest b) := by
  have hrun : (Edit.look f >>= rest) s = ((liftM (f s) : Edit α β) >>= rest) s := rfl
  rw [outcome, hrun]
  cases f s <;> rfl

omit [Resource α] in
lemma outcome_check {β γ : Type} (s : Store α) (check : Except ClientError β)
    (rest : β → Edit α γ) :
    s.outcome ((liftM check : Edit α β) >>= rest) = check.bind fun b => s.outcome (rest b) := by
  cases check <;> rfl

lemma bind_eq_ok {ε β γ : Type} {x : Except ε β} {f : β → Except ε γ} {c : γ}
    (h : x.bind f = .ok c) : ∃ b, x = .ok b ∧ f b = .ok c := by
  cases x with
  | error e => exact absurd h (by simp [Except.bind])
  | ok b => exact ⟨b, rfl, h⟩

lemma map_eq_ok {ε β γ : Type} {x : Except ε β} {f : β → γ} {c : γ} (h : x.map f = .ok c) :
    ∃ b, x = .ok b ∧ f b = c := by
  cases x with
  | error e => exact absurd h (by simp [Except.map])
  | ok b => exact ⟨b, rfl, Except.ok.inj h⟩

/-- What a write in the place of an object comes to. -/
def replace (s : Store α) (k : ObjectKey) (previous next : α) (keepStatus : Bool) :
    Except ClientError (α × Store α) :=
  s.outcome (Edit.replace k previous next keepStatus)

/-- The object is removed if it is marked and nobody holds it back, and put in its place otherwise. -/
lemma replace_ok {s t : Store α} {k : ObjectKey} {previous next b : α} {keepStatus : Bool}
    (h : s.replace k previous next keepStatus = .ok (b, t)) :
    ∃ a, replacement previous next keepStatus = .ok a ∧
      (((Resource.metadata a).isTerminating = true ∧ (Resource.metadata a).finalizerList = []) ∧
          s.remove k a = (b, t) ∨
        ¬ ((Resource.metadata a).isTerminating = true ∧ (Resource.metadata a).finalizerList = []) ∧
          s.put k .modified a = (b, t)) := by
  rw [replace, Edit.replace, outcome_check] at h
  obtain ⟨a, ha, hwrite⟩ := bind_eq_ok h
  refine ⟨a, ha, ?_⟩
  simp only at hwrite
  split at hwrite
  next hgone => exact .inl ⟨hgone, Except.ok.inj hwrite⟩
  next hstays => exact .inr ⟨hstays, Except.ok.inj hwrite⟩

lemma checkFree_ok {s : Store α} {k : ObjectKey} (h : s.checkFree k = .ok ()) :
    s.objects.get? k = none := by
  unfold checkFree at h
  split at h
  · simp at h
  next hfree => simpa [KeyMap.contains] using hfree

lemma eq_of_checkVersion {k : ObjectKey} {a : α} {version : String} (hne : version ≠ "")
    (h : checkVersion k a (some version) = .ok ()) : version = Resource.versionText a := by
  simp only [checkVersion] at h
  split at h
  next hversion => exact hversion.resolve_left hne
  · simp at h

lemma requireName_ok {a : α} {name : String} (h : requireName a = .ok name) :
    (Resource.metadata a).name = some name := by
  unfold requireName at h
  split at h
  next hname => rw [hname, Except.ok.inj h]
  · simp at h

/-- An object is added under a key that is free. -/
lemma create_ok {s t : Store α} {stamp : Stamp} {ns : Option String} {a b : α}
    (h : s.create stamp ns a = .ok (b, t)) :
    ∃ name, (Resource.metadata a).name = some name ∧ s.objects.get? ⟨ns, name⟩ = none ∧
      s.put ⟨ns, name⟩ .added
        (Resource.setMetadata a (firstMetadata stamp ns (Resource.metadata a))) = (b, t) := by
  rw [create, Edit.create, outcome_check] at h
  obtain ⟨name, hname, h⟩ := bind_eq_ok h
  rw [outcome_look] at h
  obtain ⟨_, hfree, hput⟩ := bind_eq_ok h
  exact ⟨name, requireName_ok hname, checkFree_ok hfree, Except.ok.inj hput⟩

/-- An update that is granted is for the version that it asks for. -/
lemma update_ok {s t : Store α} {ns : Option String} {a b : α} (h : s.update ns a = .ok (b, t)) :
    ∃ k current, k = ⟨ns, (Resource.metadata a).name.getD ""⟩ ∧ s.objects.get? k = some current ∧
      checkVersion k current (Resource.metadata a).resourceVersion = .ok () ∧
      s.replace k current a true = .ok (b, t) := by
  rw [update, Edit.update, outcome_look] at h
  obtain ⟨current, hget, h⟩ := bind_eq_ok h
  rw [outcome_check] at h
  obtain ⟨_, hversion, hreplace⟩ := bind_eq_ok h
  exact ⟨_, current, rfl, get?_of_get hget, hversion, hreplace⟩

/-- So is a patch. -/
lemma patch_ok {s t : Store α} {k : ObjectKey} {p : Json} {b : α} (h : s.patch k p = .ok (b, t)) :
    ∃ current next, s.objects.get? k = some current ∧
      checkVersion k current (requestedVersion p) = .ok () ∧
      decodeObject ((Resource.toJson current).merge p) = .ok next ∧
      s.replace k current next true = .ok (b, t) := by
  rw [patch, Edit.patch, outcome_look] at h
  obtain ⟨current, hget, h⟩ := bind_eq_ok h
  rw [outcome_check] at h
  obtain ⟨_, hversion, h⟩ := bind_eq_ok h
  rw [outcome_check] at h
  obtain ⟨next, hnext, hreplace⟩ := bind_eq_ok h
  exact ⟨current, next, get?_of_get hget, hversion, hnext, hreplace⟩

lemma updateStatus_ok {s t : Store α} {k : ObjectKey} {status : Json} {version : Option String}
    {b : α} (h : s.updateStatus k status version = .ok (b, t)) :
    ∃ current next, s.objects.get? k = some current ∧
      checkVersion k current version = .ok () ∧
      decodeObject ((Resource.toJson current).merge (.obj [("status", status)])) = .ok next ∧
      s.replace k current next false = .ok (b, t) := by
  rw [updateStatus, Edit.updateStatus, outcome_look] at h
  obtain ⟨current, hget, h⟩ := bind_eq_ok h
  rw [outcome_check] at h
  obtain ⟨_, hversion, h⟩ := bind_eq_ok h
  rw [outcome_check] at h
  obtain ⟨next, hnext, hreplace⟩ := bind_eq_ok h
  exact ⟨current, next, get?_of_get hget, hversion, hnext, hreplace⟩

/-- A removal takes the object away or marks it, or the object is marked already. -/
lemma delete_ok {s t : Store α} {now : Timestamp} {k : ObjectKey} (h : s.delete now k = .ok t) :
    ∃ current, s.objects.get? k = some current ∧
      ((Resource.metadata current).finalizerList = [] ∧ t = (s.remove k current).2 ∨
        (Resource.metadata current).finalizerList ≠ [] ∧
          ((Resource.metadata current).isTerminating = true ∧ t = s ∨
            (Resource.metadata current).isTerminating = false ∧
              t = (s.put k .modified (Resource.setMetadata current
                { Resource.metadata current with deletionTimestamp := some now })).2)) := by
  rw [delete] at h
  obtain ⟨⟨_, u⟩, houtcome, rfl⟩ := map_eq_ok h
  rw [Edit.delete, outcome_look] at houtcome
  obtain ⟨current, hget, hwrite⟩ := bind_eq_ok houtcome
  refine ⟨current, get?_of_get hget, ?_⟩
  simp only at hwrite
  split at hwrite
  next hfinalizers => exact .inl ⟨hfinalizers, (congrArg Prod.snd (Except.ok.inj hwrite)).symm⟩
  next hfinalizers =>
    refine .inr ⟨hfinalizers, ?_⟩
    split at hwrite
    next hmarked => exact .inl ⟨hmarked, (congrArg Prod.snd (Except.ok.inj hwrite)).symm⟩
    next hmarked =>
      exact .inr ⟨by simpa using hmarked, (congrArg Prod.snd (Except.ok.inj hwrite)).symm⟩

/-- Everything that can happen to a store: nothing, a disconnection or a compaction, or that an object
is added, replaced or removed. -/
lemma act_ok (s : Store α) (x : Action α) :
    s.act x = s ∨ s.act x = s.disconnect ∨ s.act x = s.compact ∨
    (∃ stamp ns a b, s.create stamp ns a = .ok (b, s.act x)) ∨
    (∃ k current next keepStatus b, s.objects.get? k = some current ∧
      s.replace k current next keepStatus = .ok (b, s.act x)) ∨
    ∃ now k, s.delete now k = .ok (s.act x) := by
  cases x with
  | create stamp ns a =>
    rcases h : s.create stamp ns a with e | ⟨b, t⟩ <;> simp only [act, h, after]
    · exact .inl trivial
    · exact .inr (.inr (.inr (.inl ⟨stamp, ns, a, b, h⟩)))
  | update ns a =>
    rcases h : s.update ns a with e | ⟨b, t⟩ <;> simp only [act, h, after]
    · exact .inl trivial
    · obtain ⟨k, current, -, hget, -, hreplace⟩ := update_ok h
      exact .inr (.inr (.inr (.inr (.inl ⟨k, current, a, true, b, hget, hreplace⟩))))
  | patch k p =>
    rcases h : s.patch k p with e | ⟨b, t⟩ <;> simp only [act, h, after]
    · exact .inl trivial
    · obtain ⟨current, next, hget, -, -, hreplace⟩ := patch_ok h
      exact .inr (.inr (.inr (.inr (.inl ⟨k, current, next, true, b, hget, hreplace⟩))))
  | updateStatus k status version =>
    rcases h : s.updateStatus k status version with e | ⟨b, t⟩ <;> simp only [act, h, after]
    · exact .inl trivial
    · obtain ⟨current, next, hget, -, -, hreplace⟩ := updateStatus_ok h
      exact .inr (.inr (.inr (.inr (.inl ⟨k, current, next, false, b, hget, hreplace⟩))))
  | delete now k =>
    rcases h : s.delete now k with e | t <;> simp only [act, h]
    · exact .inl trivial
    · exact .inr (.inr (.inr (.inr (.inr ⟨now, k, h⟩))))
  | disconnect => exact .inr (.inl rfl)
  | compact => exact .inr (.inr (.inl rfl))

/-! ## What they publish -/

/-- What takes the place of an object: what a request makes of it, the object with a mark, or the
object itself on its way out. Each has a version of its own. -/
inductive Replaces (a : α) : α → Prop
  | written (n : Nat) {next b : α} {keepStatus : Bool}
      (result : replacement a next keepStatus = .ok b) : Replaces a (versioned n b)
  | marked (n : Nat) (now : Timestamp) (unmarked : (Resource.metadata a).isTerminating = false) :
      Replaces a (versioned n
        (Resource.setMetadata a { Resource.metadata a with deletionTimestamp := some now }))
  | leaving (n : Nat) : Replaces a (versioned n a)

/-- The events that a request can publish on a store of these objects. A new object has a key that was
free, and an object goes only when nobody holds it back. -/
inductive Writes (m : KeyMap α) : WatchEvent α → Prop
  | added {a : α} (free : m.get? (Resource.key a) = none)
      (first : Resource.generation a = some 1)
      (unmarked : (Resource.metadata a).isTerminating = false) : Writes m (.added a)
  | modified {a b : α} (stored : m.get? (Resource.key b) = some a) (replaces : Replaces a b)
      (held : (Resource.metadata b).isTerminating = true →
        (Resource.metadata b).finalizerList ≠ []) : Writes m (.modified b)
  | deleted {a b : α} (stored : m.get? (Resource.key b) = some a) (replaces : Replaces a b)
      (released : (Resource.metadata b).finalizerList = []) : Writes m (.deleted b)

/-- The store has published one event that a request can publish, about the object of a key, which has
the new revision as its version. -/
def Wrote (s : Store α) (k : ObjectKey) (t : Store α) : Prop :=
  ∃ e a, e.object? = some a ∧ Resource.key a = k ∧
    Resource.versionText a = toString (s.revision + 1) ∧ Writes s.objects e ∧ t = s.publish e

/-- The object of a key is marked for removal and waits for its finalizers. -/
def Waits (s : Store α) (k : ObjectKey) : Prop :=
  ∃ a, s.objects.get? k = some a ∧ (Resource.metadata a).isTerminating = true ∧
    (Resource.metadata a).finalizerList ≠ []

instance (s : Store α) (k : ObjectKey) : Decidable (s.Waits k) :=
  decidable_of_iff ((s.objects.get? k).any fun a => (Resource.metadata a).isTerminating &&
    decide ((Resource.metadata a).finalizerList ≠ [])) (by simp [Waits, Option.any_eq_true])

lemma Wrote.publishes {s t : Store α} {k : ObjectKey} (h : s.Wrote k t) : s.Publishes t := by
  obtain ⟨e, a, ha, -, hversion, -, ht⟩ := h
  exact ⟨e, a, ha, hversion, ht⟩

variable [LawfulResource α]

lemma metadata_versioned (n : Nat) (a : α) : Resource.metadata (versioned n a) =
    { Resource.metadata a with resourceVersion := some (toString n) } :=
  LawfulResource.metadata_setMetadata _ _

lemma key_versioned (n : Nat) (a : α) : Resource.key (versioned n a) = Resource.key a := by
  simp [Resource.key, metadata_versioned]

lemma versionText_versioned (n : Nat) (a : α) :
    Resource.versionText (versioned n a) = toString n := by
  simp [Resource.versionText, metadata_versioned]

lemma Replaces.key_eq {a b : α} (h : Replaces a b) : Resource.key b = Resource.key a := by
  cases h with
  | written n result =>
    simp only [replacement, bind, Except.bind, pure, Except.pure] at result
    split at result
    · simp at result
    · obtain rfl := Except.ok.inj result
      simp [Resource.key, metadata_versioned, LawfulResource.metadata_setMetadata, ownedMetadata]
  | marked n now => simp [Resource.key, metadata_versioned, LawfulResource.metadata_setMetadata]
  | leaving n => exact key_versioned n a

lemma put_wrote (s : Store α) {k : ObjectKey} {a : α} (hk : Resource.key a = k)
    {event : α → WatchEvent α} (h : event = .added ∨ event = .modified)
    (hw : Writes s.objects (event (versioned (s.revision + 1) a))) :
    s.Wrote k (s.put k event a).2 := by
  subst hk
  refine ⟨event (versioned (s.revision + 1) a), versioned (s.revision + 1) a, ?_,
    key_versioned _ a, versionText_versioned _ a, hw, ?_⟩
  · rcases h with rfl | rfl <;> rfl
  · rcases h with rfl | rfl <;> simp only [put, publish, WatchEvent.apply, key_versioned] <;> rfl

lemma remove_wrote (s : Store α) {k : ObjectKey} {a : α} (hk : Resource.key a = k)
    (hw : Writes s.objects (.deleted (versioned (s.revision + 1) a))) :
    s.Wrote k (s.remove k a).2 := by
  subst hk
  refine ⟨.deleted (versioned (s.revision + 1) a), versioned (s.revision + 1) a, rfl,
    key_versioned _ a, versionText_versioned _ a, hw, ?_⟩
  simp only [remove, publish, WatchEvent.apply, key_versioned]
  rfl

lemma replace_wrote {s t : Store α} {k : ObjectKey} {previous next a : α} {keepStatus : Bool}
    (hk : Resource.key previous = k) (hstored : s.objects.get? k = some previous)
    (h : s.replace k previous next keepStatus = .ok (a, t)) : s.Wrote k t := by
  obtain ⟨b, hb, hcases⟩ := replace_ok h
  have hreplaces : Replaces previous (versioned (s.revision + 1) b) := .written _ hb
  have hkb : Resource.key b = k := by
    rw [← key_versioned (s.revision + 1), hreplaces.key_eq, hk]
  have hstored' : s.objects.get? (Resource.key (versioned (s.revision + 1) b)) = some previous := by
    rw [key_versioned, hkb, hstored]
  rcases hcases with ⟨hgone, hwrite⟩ | ⟨hstays, hwrite⟩
  · have ht : (s.remove k b).2 = t := congrArg Prod.snd hwrite
    refine ht ▸ remove_wrote s hkb (.deleted hstored' hreplaces ?_)
    rw [metadata_versioned]
    exact hgone.2
  · have ht : (s.put k .modified b).2 = t := congrArg Prod.snd hwrite
    refine ht ▸ put_wrote s hkb (.inr rfl) (.modified hstored' hreplaces ?_)
    rw [metadata_versioned]
    exact fun hmarked hnone => hstays ⟨hmarked, hnone⟩

lemma create_wrote {s t : Store α} {stamp : Stamp} {ns : Option String} {a b : α}
    (h : s.create stamp ns a = .ok (b, t)) :
    s.Wrote ⟨ns, (Resource.metadata a).name.getD ""⟩ t := by
  obtain ⟨name, hname, hfree, hput⟩ := create_ok h
  have ht := congrArg Prod.snd hput
  rw [← show _ = t from ht]
  have hmetadata (b : α) (m : Metadata) : Resource.metadata (Resource.setMetadata b m) = m :=
    LawfulResource.metadata_setMetadata b m
  rw [hname]
  refine put_wrote s ?_ (.inl rfl) (.added ?_ ?_ ?_)
  · simp [Resource.key, hmetadata, firstMetadata, hname]
  · simpa [Resource.key, metadata_versioned, hmetadata, firstMetadata, hname] using hfree
  · simp [Resource.generation, metadata_versioned, hmetadata, firstMetadata]
  · simp [Metadata.isTerminating, metadata_versioned, hmetadata, firstMetadata]

lemma delete_wrote {s t : Store α} (hs : s.Keyed) {now : Timestamp} {k : ObjectKey}
    (h : s.delete now k = .ok t) : s.Waits k ∧ t = s ∨ ¬ s.Waits k ∧ s.Wrote k t := by
  obtain ⟨current, hget, hcases⟩ := delete_ok h
  have hk := hs k current hget
  have hwaits : s.Waits k ↔ (Resource.metadata current).isTerminating = true ∧
      (Resource.metadata current).finalizerList ≠ [] := by
    simp [Waits, hget]
  obtain ⟨hnone, rfl⟩ | ⟨hsome, ⟨hmarked, rfl⟩ | ⟨hunmarked, rfl⟩⟩ := hcases
  · refine .inr ⟨by simp [hwaits, hnone], remove_wrote s hk (.deleted ?_ (.leaving _) ?_)⟩
    · rw [key_versioned, hk, hget]
    · rw [metadata_versioned]
      exact hnone
  · exact .inl ⟨hwaits.mpr ⟨hmarked, hsome⟩, rfl⟩
  · have hreplaces : Replaces current (versioned (s.revision + 1) (Resource.setMetadata current
        { Resource.metadata current with deletionTimestamp := some now })) :=
      .marked _ now hunmarked
    refine .inr ⟨by simp [hwaits, hunmarked], put_wrote s ?_ (.inr rfl) (.modified ?_ hreplaces ?_)⟩
    · rw [← key_versioned (s.revision + 1), hreplaces.key_eq, hk]
    · rw [hreplaces.key_eq, hk, hget]
    · rw [metadata_versioned, LawfulResource.metadata_setMetadata]
      exact fun _ => hsome

/-- Everything that can happen to a store: nothing, one event, a disconnection, or a compaction. -/
lemma act_wrote {s : Store α} (hs : s.Keyed) (x : Action α) :
    s.act x = s ∨ (∃ k, s.Wrote k (s.act x)) ∨ s.act x = s.disconnect ∨ s.act x = s.compact := by
  rcases s.act_ok x with h | h | h | ⟨stamp, ns, a, b, h⟩ |
    ⟨k, current, next, keepStatus, b, hget, h⟩ | ⟨now, k, h⟩
  · exact .inl h
  · exact .inr (.inr (.inl h))
  · exact .inr (.inr (.inr h))
  · exact .inr (.inl ⟨_, create_wrote h⟩)
  · exact .inr (.inl ⟨k, replace_wrote (hs k current hget) hget h⟩)
  · exact (delete_wrote hs h).imp (·.2) fun hw => .inl ⟨k, hw.2⟩

lemma act_cases {s : Store α} (hs : s.Keyed) (x : Action α) :
    s.act x = s ∨ s.Publishes (s.act x) ∨ s.act x = s.disconnect ∨ s.act x = s.compact :=
  (act_wrote hs x).imp_right fun h => h.imp_left fun ⟨_, hw⟩ => hw.publishes

/-! ## The history -/

omit [LawfulResource α]

/-- Events with their revisions, the first of which is `n`. -/
def numberedFrom (n : Nat) (events : List (WatchEvent α)) : List (Nat × WatchEvent α) :=
  (events.zipIdx n).map Prod.swap

omit [Resource α] in
lemma numberedFrom_append (n : Nat) (events : List (WatchEvent α)) (e : WatchEvent α) :
    numberedFrom n (events ++ [e]) = numberedFrom n events ++ [(n + events.length, e)] := by
  simp [numberedFrom, List.zipIdx_append]

omit [Resource α] in
lemma map_fst_numberedFrom (n : Nat) (events : List (WatchEvent α)) :
    (numberedFrom n events).map (·.1) = List.range' n events.length := by
  rw [numberedFrom, List.map_map, ← List.zipIdx_map_snd n events]
  rfl

omit [Resource α] in
/-- What is left of a history are its last events, as many as the limit allows. -/
lemma trim_snd (limit oldest : Nat) (l : List (Nat × WatchEvent α)) :
    (trim limit oldest l).2 = l.drop (l.length - limit) := by
  induction l generalizing oldest with
  | nil => simp [trim]
  | cons e l ih =>
    rw [trim, List.length_cons]
    split
    next hlong =>
      have hsucc : l.length + 1 - limit = (l.length - limit) + 1 := by omega
      rw [ih, hsucc, List.drop_succ_cons]
    next hshort =>
      have hzero : l.length + 1 - limit = 0 := by omega
      rw [hzero, List.drop_zero]

omit [Resource α] in
/-- Dropping from the front of a numbered history moves the oldest revision along. -/
lemma trim_numberedFrom (limit oldest : Nat) (events : List (WatchEvent α)) :
    ∃ n ≤ events.length, trim limit oldest (numberedFrom (oldest + 1) events) =
      (oldest + n, numberedFrom (oldest + n + 1) (events.drop n)) := by
  induction events generalizing oldest with
  | nil => exact ⟨0, le_rfl, rfl⟩
  | cons e events ih =>
    have hcons : numberedFrom (oldest + 1) (e :: events) =
        (oldest + 1, e) :: numberedFrom (oldest + 1 + 1) events := rfl
    rw [hcons, trim]
    split
    · obtain ⟨n, hn, ht⟩ := ih (oldest + 1)
      refine ⟨n + 1, by simpa using hn, ?_⟩
      have hmove : oldest + 1 + n = oldest + (n + 1) := by omega
      rw [ht, hmove, List.drop_succ_cons]
    · exact ⟨0, Nat.zero_le _, rfl⟩

omit [Resource α] in
/-- The numbered events after revision `v` that satisfy `p`. -/
lemma map_filter_numberedFrom (p : WatchEvent α → Bool) (v n : Nat) (events : List (WatchEvent α)) :
    ((numberedFrom n events).filter fun e => decide (v < e.1) && p e.2).map (·.2) =
      (events.drop (v + 1 - n)).filter p := by
  induction events generalizing n with
  | nil => simp [numberedFrom]
  | cons e events ih =>
    have hcons : numberedFrom n (e :: events) = (n, e) :: numberedFrom (n + 1) events := rfl
    rw [hcons, List.filter_cons]
    by_cases hv : v < n
    · have h0 : v + 1 - n = 0 := by omega
      have h1 : v + 1 - (n + 1) = 0 := by omega
      have hrest := ih (n + 1)
      rw [h1, List.drop_zero] at hrest
      rw [h0, List.drop_zero, List.filter_cons]
      by_cases hp : p e = true
      · simp [hv, hp, hrest]
      · simp [hp, hrest]
    · have h1 : v + 1 - n = (v + 1 - (n + 1)) + 1 := by omega
      rw [h1, List.drop_succ_cons, ← ih (n + 1)]
      simp [hv]

/-- What is true of a store whatever has been asked of it. -/
structure Faithful (s : Store α) : Prop where
  length_published : s.published.length = s.revision
  version_published : ∀ i e, s.published[i]? = some e →
    ∃ a, e.object? = some a ∧ Resource.versionText a = toString (i + 1)
  oldest_le : s.oldestResumable ≤ s.revision
  history_eq : s.history = numberedFrom (s.oldestResumable + 1)
    (s.published.drop s.oldestResumable)
  objects_eq : s.objects = WatchEvent.applyAll ∅ s.published

lemma empty_faithful (limit : Nat) : (empty limit : Store α).Faithful := by
  constructor <;> simp [empty, numberedFrom]

lemma Faithful.keyed {s : Store α} (h : s.Faithful) : s.Keyed := by
  intro k a ha
  rw [h.objects_eq] at ha
  exact (WatchEvent.object_of_applyAll _ ha).1

/-- The history holds one event for each revision after the oldest that can be resumed. -/
lemma Faithful.history_revisions {s : Store α} (h : s.Faithful) :
    s.history.map (·.1) =
      List.range' (s.oldestResumable + 1) (s.revision - s.oldestResumable) := by
  rw [h.history_eq, map_fst_numberedFrom, List.length_drop, h.length_published]

lemma publish_history (s : Store α) (e : WatchEvent α) :
    (s.publish e).history = (s.history ++ [(s.revision + 1, e)]).drop
      (s.history.length + 1 - s.historyLimit) := by
  have htrim := trim_snd s.historyLimit s.oldestResumable (s.history ++ [(s.revision + 1, e)])
  rw [List.length_append, List.length_singleton] at htrim
  exact htrim

lemma Faithful.publish {s : Store α} (h : s.Faithful) {e : WatchEvent α} {a : α}
    (he : e.object? = some a) (hv : Resource.versionText a = toString (s.revision + 1)) :
    (s.publish e).Faithful := by
  have hl := h.length_published
  have ho := h.oldest_le
  have hdrop : (s.published ++ [e]).drop s.oldestResumable =
      s.published.drop s.oldestResumable ++ [e] :=
    List.drop_append_of_le_length (by omega)
  have hhistory : s.history ++ [(s.revision + 1, e)] =
      numberedFrom (s.oldestResumable + 1) ((s.published ++ [e]).drop s.oldestResumable) := by
    rw [hdrop, numberedFrom_append, ← h.history_eq, List.length_drop]
    congr 3
    omega
  obtain ⟨n, hn, ht⟩ := trim_numberedFrom s.historyLimit s.oldestResumable
    ((s.published ++ [e]).drop s.oldestResumable)
  have hle : s.oldestResumable + n ≤ s.revision + 1 := by
    simp only [List.length_drop, List.length_append, List.length_singleton] at hn
    omega
  have hpublish : s.publish e =
      { s with
        objects := e.apply s.objects
        revision := s.revision + 1
        writes := s.writes + 1
        history := numberedFrom (s.oldestResumable + n + 1)
          ((s.published ++ [e]).drop (s.oldestResumable + n))
        oldestResumable := s.oldestResumable + n
        published := s.published ++ [e] } := by
    simp only [Store.publish, record, nextRevision, hhistory, ht, List.drop_drop]
  rw [hpublish]
  constructor
  · simp [hl]
  · intro i x hx
    rcases Nat.lt_or_ge i s.published.length with hi | hi
    · rw [List.getElem?_append_left hi] at hx
      exact h.version_published i x hx
    · rw [List.getElem?_append_right hi, List.getElem?_singleton] at hx
      split at hx
      · obtain rfl := Option.some.inj hx
        exact ⟨a, he, by rw [hv]; congr 1; omega⟩
      · simp at hx
  · exact hle
  · rfl
  · simp only [h.objects_eq, WatchEvent.applyAll_append]
    rfl

lemma Faithful.compact {s : Store α} (h : s.Faithful) : s.compact.Faithful := by
  refine ⟨h.length_published, h.version_published, le_rfl, ?_, h.objects_eq⟩
  have hnil : s.published.drop s.revision = [] :=
    List.drop_of_length_le (by rw [h.length_published])
  simp [Store.compact, hnil, numberedFrom]

lemma Faithful.act [LawfulResource α] {s : Store α} (h : s.Faithful) (x : Action α) :
    (s.act x).Faithful := by
  rcases act_cases h.keyed x with he | ⟨e, a, ha, hv, he⟩ | he | he
  · rw [he]; exact h
  · rw [he]; exact h.publish ha hv
  · rw [he]
    exact ⟨h.length_published, h.version_published, h.oldest_le, h.history_eq, h.objects_eq⟩
  · rw [he]; exact h.compact

end Store

end ControlLoop
