import ControlLoop.Cluster.Basic
import ControlLoop.Proofs.StoreHistory

/-!
# The collections of a cluster

A cluster holds a store for each kind of object. `LawfulCollection` is what proofs about any of them use:
the store of a kind is what has been set, what is asked of it is asked of the cluster, and neither the
failures that are set nor the journal matter to it.
-/
namespace ControlLoop

namespace Store

variable {α : Type} [Resource α] {s t u : Store α}

/-- One store comes from another by requests, disconnections and compactions. -/
def Later (s t : Store α) : Prop := ∃ actions : List (Action α), t = actions.foldl act s

lemma Later.refl (s : Store α) : s.Later s := ⟨[], rfl⟩

lemma Later.trans (h : s.Later t) (h' : t.Later u) : s.Later u := by
  obtain ⟨l, rfl⟩ := h
  obtain ⟨l', rfl⟩ := h'
  exact ⟨l ++ l', by rw [List.foldl_append]⟩

lemma later_act (s : Store α) (x : Action α) : s.Later (s.act x) := ⟨[x], rfl⟩

/-- A request that is granted leads to the store that its action leads to. -/
lemma later_of_ok {x : Action α} {r : Except ClientError (α × Store α)} {a : α}
    (hx : s.act x = s.after r) (h : r = .ok (a, t)) : s.Later t := by
  have hlater := s.later_act x
  rw [hx, h] at hlater
  exact hlater

lemma later_delete {now : Timestamp} {k : ObjectKey} (h : s.delete now k = .ok t) : s.Later t := by
  have ht := s.later_act (.delete now k)
  simpa only [act, h] using ht

end Store

/-- All stores of one cluster come from those of another by requests, disconnections and compactions. -/
structure Cluster.Later (c d : Cluster) : Prop where
  widgets : c.widgets.Later d.widgets
  deployments : c.deployments.Later d.deployments
  configMaps : c.configMaps.Later d.configMaps
  events : c.events.Later d.events

lemma Cluster.Later.refl (c : Cluster) : c.Later c := ⟨.refl _, .refl _, .refl _, .refl _⟩

/-- A collection has a store of its own, which is one of those of the cluster and has nothing to do with
the failures that are set or with the journal. -/
class LawfulCollection (α : Type) [Resource α] [Collection α] : Prop where
  store_setStore : ∀ (c : Cluster) (s : Store α), Collection.store (Collection.setStore c s) = s
  faults_setStore : ∀ (c : Cluster) (s : Store α), (Collection.setStore c s).faults = c.faults
  setStore_store : ∀ c : Cluster, Collection.setStore c (Collection.store c : Store α) = c
  store_congr : ∀ {c d : Cluster}, d.widgets = c.widgets → d.deployments = c.deployments →
    d.configMaps = c.configMaps → d.events = c.events →
    (Collection.store d : Store α) = Collection.store c
  store_later : ∀ {c d : Cluster}, c.Later d → (Collection.store c : Store α).Later (Collection.store d)
  later_setStore : ∀ (c : Cluster) (s : Store α), (Collection.store c : Store α).Later s →
    c.Later (Collection.setStore c s)

instance : LawfulCollection Widget where
  store_setStore _ _ := rfl
  faults_setStore _ _ := rfl
  setStore_store _ := rfl
  store_congr h _ _ _ := h
  store_later h := h.widgets
  later_setStore c _ h := { Cluster.Later.refl c with widgets := h }

instance : LawfulCollection Deployment where
  store_setStore _ _ := rfl
  faults_setStore _ _ := rfl
  setStore_store _ := rfl
  store_congr _ h _ _ := h
  store_later h := h.deployments
  later_setStore c _ h := { Cluster.Later.refl c with deployments := h }

instance : LawfulCollection ConfigMap where
  store_setStore _ _ := rfl
  faults_setStore _ _ := rfl
  setStore_store _ := rfl
  store_congr _ _ h _ := h
  store_later h := h.configMaps
  later_setStore c _ h := { Cluster.Later.refl c with configMaps := h }

instance : LawfulCollection Event where
  store_setStore _ _ := rfl
  faults_setStore _ _ := rfl
  setStore_store _ := rfl
  store_congr _ _ _ h := h
  store_later h := h.events
  later_setStore c _ h := { Cluster.Later.refl c with events := h }

lemma LawfulCollection.store_aside {α : Type} [Resource α] [Collection α] [LawfulCollection α]
    (c : Cluster) (faults : List Fault) (journal : Journal) :
    (Collection.store { c with faults, journal } : Store α) = Collection.store c :=
  store_congr rfl rfl rfl rfl

/-- Objects of the kind are not events: what is recorded leaves them alone. -/
class EventFree (α : Type) [Resource α] [Collection α] : Prop where
  store_setEvents : ∀ (c : Cluster) (s : Store Event),
    (Collection.store { c with events := s } : Store α) = Collection.store c

instance : EventFree Widget := ⟨fun _ _ => rfl⟩
instance : EventFree Deployment := ⟨fun _ _ => rfl⟩
instance : EventFree ConfigMap := ⟨fun _ _ => rfl⟩

end ControlLoop
