import ControlLoop.Controller.Status
import ControlLoop.Proofs.KeyLifecycle
import ControlLoop.Proofs.WrittenParts

/-!
# Conditions of a stored widget

A condition is set by a write of the whole list, computed from the JSON form of a copy. The conditions
that are read there are those of the copy, and what is stored after the write are those conditions with
the one that was set. For this the numbers in a condition must fit a word of 64 bits, as those of every
condition do that has been decoded.
-/
namespace ControlLoop

/-! ## Conditions that can be read -/

namespace Condition

/-- The number of the condition fits a word of 64 bits. -/
def Fits (c : Condition) : Prop :=
  ∀ g ∈ c.observedGeneration, -9223372036854775808 ≤ g ∧ g ≤ 9223372036854775807

instance (c : Condition) : Decidable c.Fits :=
  inferInstanceAs (Decidable (∀ g ∈ c.observedGeneration,
    -9223372036854775808 ≤ g ∧ g ≤ 9223372036854775807))

variable {c d : Condition} {l : List Condition}

/-- A condition is read as it was written exactly if it fits. -/
lemma legible_iff : decode (Source.ofJson c.encode.sorted) = .ok c ↔ c.Fits := by
  have hslots := reads.legible_spared_iff "Condition" [] (by decide) reads.unknown {} c.gathered
  rw [decode_iff]
  refine hslots.trans ⟨fun h g hg => ?_, fun h => ?_⟩
  · simp only [slots, List.forall_mem_cons] at h
    exact Source.decodeInt_range ((Slot.restored_optional Lossless.int64.given rfl).mp
      h.2.2.2.2.2.1 g hg)
  · simp only [slots, List.forall_mem_cons]
    refine ⟨(Slot.restored_required rfl).mpr fun _ _ => rfl,
      (Slot.restored_required rfl).mpr fun _ _ => rfl, ?_, ?_, ?_, ?_, by simp⟩
    case refine_4 =>
      exact (Slot.restored_optional Lossless.int64.given rfl).mpr fun g hg =>
        Source.decodeInt_ofJson (h g hg) .memory
    all_goals exact (Slot.restored_optional Lossless.string.given rfl).mpr fun _ _ => rfl

/-- A condition that fits is read as it was written. -/
lemma decode_encode (h : c.Fits) : decode (Source.ofJson c.encode.sorted) = .ok c := legible_iff.mpr h

/-- What is read fits. -/
lemma fits_of_decode (h : decode (Source.ofJson c.encode.sorted) = .ok d) : c.Fits := by
  obtain rfl := exact_codec.eq_of_decode h
  exact legible_iff.mp h

lemma decodeList_encode (h : ∀ c ∈ l, c.Fits) :
    Source.decodeList decode (Source.ofJson (Json.arr (l.map encode)).sorted) = .ok l := by
  simp only [Json.sorted, Source.decodeList, Source.ofJson, Json.Node.ofJson]
  induction l with
  | nil => rfl
  | cons c l ih =>
    have hfirst : decode ⟨.memory, .ofJson c.encode.sorted⟩ = .ok c :=
      decode_encode (h c List.mem_cons_self)
    have hrest := ih fun c hc => h c (List.mem_cons_of_mem _ hc)
    simp only [List.map_cons, Json.sortedItems, Json.Node.ofItems, Source.decodeItems, hfirst, hrest]
    rfl

lemma fits_of_decodeList {l' : List Condition}
    (h : Source.decodeList decode (Source.ofJson (Json.arr (l.map encode)).sorted) = .ok l') :
    ∀ c ∈ l, c.Fits := by
  simp only [Json.sorted, Source.decodeList, Source.ofJson, Json.Node.ofJson] at h
  induction l generalizing l' with
  | nil => simp
  | cons c l ih =>
    obtain ⟨d, hd, h⟩ := Store.bind_eq_ok h
    obtain ⟨rest, hrest, -⟩ := Store.bind_eq_ok h
    rw [List.forall_mem_cons]
    exact ⟨fits_of_decode hd, ih hrest⟩

end Condition

/-! ## The conditions of a widget -/

open Resource (statusOf)

namespace WidgetStatus

lemma get?_conditions (s : WidgetStatus) : s.encode.sorted.get? "conditions" =
    (s.conditions.map fun l => .arr (l.map Condition.encode)).map Json.sorted :=
  Json.get?_sorted_ofMembers (by simp) (by simp)

lemma conditions_of_decode {members : List (String × Json)} {s : WidgetStatus}
    (h : decode (Json.obj members) = .ok s) {v : Json}
    (hv : Json.find? "conditions" members = some v) :
    Source.decodeOption (Source.decodeList Condition.decode) v = .ok s.conditions :=
  have hmem : Slot.optional "conditions" conditions (fun l => .arr (l.map Condition.encode))
      (Source.decodeList Condition.decode) ∈ slots := by
    simp [slots]
  (reads.slot hmem).given_of_decodeSpared "WidgetStatus" [] (by decide) h hv

end WidgetStatus

namespace Widget

/-- The conditions in the status of a widget; an absent list is empty. -/
def conditionList (w : Widget) : List Condition := (w.status.bind WidgetStatus.conditions).getD []

/-- The numbers of all conditions of the widget fit a word of 64 bits. -/
def Fits (w : Widget) : Prop := ∀ c ∈ w.conditionList, c.Fits

instance (w : Widget) : Decidable w.Fits :=
  inferInstanceAs (Decidable (∀ c ∈ w.conditionList, c.Fits))

variable {w v : Widget} {members : List (String × Json)}

lemma conditionList_congr (h : w.status = v.status) : w.conditionList = v.conditionList := by
  rw [conditionList, conditionList, h]

/-- The conditions are found in the JSON form of the widget. -/
lemma ofStatus_toJson (h : w.Fits) : Condition.ofStatus (Resource.toJson w) = .ok w.conditionList := by
  have hat : (Resource.toJson w).at? ["status", "conditions"] =
      (w.status.bind WidgetStatus.conditions).map fun l =>
        (Json.arr (l.map Condition.encode)).sorted := by
    change (statusOf w).bind (fun v => (v.get? "conditions").bind some) = _
    rw [statusOf_eq]
    cases w.status with
    | none => rfl
    | some s =>
      simp only [Option.map_some, Option.bind_some, WidgetStatus.get?_conditions]
      cases s.conditions <;> rfl
  unfold Fits conditionList at h
  rw [Condition.ofStatus, hat, conditionList]
  cases hl : w.status.bind WidgetStatus.conditions with
  | none => rfl
  | some l =>
    rw [hl] at h
    have hread := Condition.decodeList_encode h
    simp only [Option.map_some, Json.sorted] at hread ⊢
    exact hread

/-- Conditions that are read as part of a widget fit. -/
lemma fits_of_decode (h : Widget.decode (Json.obj members) = .ok w)
    (hstatus : Json.find? "status" members = statusOf v) : v.Fits := by
  intro c hc
  obtain ⟨-, -, hread⟩ := parts_of_decode h
  rw [statusOf_eq] at hstatus
  cases hv : v.status with
  | none => simp [conditionList, hv] at hc
  | some s =>
    rw [hv] at hstatus
    have hs := hread _ hstatus
    rw [Source.decodeOption_of_ne_null _ (WidgetStatus.exact_codec.given s)] at hs
    obtain ⟨s', hs', -⟩ := Store.map_eq_ok hs
    cases hl : s.conditions with
    | none => simp [conditionList, hv, hl] at hc
    | some l =>
      have hget := s.get?_conditions
      rw [hl] at hget
      have hlist := WidgetStatus.conditions_of_decode hs' hget
      rw [Source.decodeOption_of_ne_null _ (by simp [Json.sorted])] at hlist
      obtain ⟨l', hl', -⟩ := Store.map_eq_ok hlist
      refine Condition.fits_of_decodeList hl' c ?_
      simpa [conditionList, hv, hl] using hc

end Widget

/-! ## Widgets that are stored -/

namespace Store

variable {s t : Store Widget} {x : Action Widget} {k : ObjectKey} {w b next : Widget}
  {keepStatus : Bool} {l : List Condition}

/-- What a write answers with has one of the two statuses, of which it has read the conditions. -/
lemma replace_status (h : s.replace k w next keepStatus = .ok (b, t)) :
    b.status = (if keepStatus then w else next).status ∧ b.Fits := by
  obtain ⟨c, hc, hwrite⟩ := replace_ok h
  obtain ⟨members, d, changed, -, hdecode, rfl, -, hstatus, -⟩ := replacement_document hc
  have hsame : d.status = _ := Widget.status_of_decode hdecode hstatus
  have hb : b.status = d.status := by
    rcases hwrite with ⟨-, hremove⟩ | ⟨-, hput⟩
    · obtain rfl := congrArg Prod.fst hremove
      rfl
    · obtain rfl := congrArg Prod.fst hput
      rfl
  refine ⟨hb.trans hsame, ?_⟩
  rw [Widget.Fits, Widget.conditionList_congr (hb.trans hsame)]
  exact Widget.fits_of_decode hdecode hstatus

/-- The conditions of a widget that an action brings fit. -/
def Action.Fits : Action Widget → Prop
  | .create _ _ w => w.Fits
  | _ => True

instance : (x : Action Widget) → Decidable x.Fits
  | .create _ _ w => inferInstanceAs (Decidable w.Fits)
  | .update _ _ | .patch _ _ | .updateStatus _ _ _ | .delete _ _ | .disconnect | .compact =>
    inferInstanceAs (Decidable True)

lemma Faithful.fits_act (hs : s.Faithful) (hx : x.Fits)
    (hstored : ∀ w, s.objects.get? k = some w → w.Fits)
    (hb : (Store.act s x).objects.get? k = some b) : b.Fits := by
  by_cases hk : x.target = some k
  · cases hanswer : (x.request s).1 with
    | error e =>
      rw [act_of_refused hanswer] at hb
      exact hstored b hb
    | ok answer =>
      cases granted_of_answer hk hanswer with
      | @created stamp ns object _ asked address done =>
        obtain ⟨name, hname, -, hput⟩ := create_ok done
        rw [← show _ = s.act x from congrArg Prod.snd hput, get?_put, address, hname,
          Option.getD_some, if_pos rfl] at hb
        obtain rfl := Option.some.inj hb
        subst asked
        exact hx
      | replaced new before done =>
        rw [get?_of_replace_self done] at hb
        split at hb
        · cases hb
        · obtain rfl := Option.some.inj hb
          exact (replace_status done).2
      | deleted asked done =>
        obtain ⟨current, hcurrent, ⟨-, ht⟩ | ⟨-, ⟨-, ht⟩ | ⟨-, ht⟩⟩⟩ := delete_ok done
        · rw [ht, get?_remove, if_pos rfl] at hb
          cases hb
        · exact hstored b (ht ▸ hb)
        · rw [ht, get?_put, if_pos rfl] at hb
          obtain rfl := Option.some.inj hb
          exact hstored current hcurrent
  · rw [hs.get?_act_of_ne hk] at hb
    exact hstored b hb

/-- If the widgets that are created fit, then those that are stored do. -/
lemma run_fits (limit : Nat) {actions : List (Action Widget)} (hactions : ∀ x ∈ actions, x.Fits)
    (hw : (run limit actions).objects.get? k = some w) : w.Fits := by
  induction actions using List.reverseRecOn generalizing w with
  | nil => simp [run, empty] at hw
  | append_singleton actions x ih =>
    rw [run_concat] at hw
    exact (run_chronicled limit actions).faithful.fits_act (hactions x (by simp))
      (fun w => ih fun x hx => hactions x (by simp [hx])) hw

end Store

/-! ## Setting a condition -/

/-- What a request goes on to after a look at the cluster. -/
lemma Session.get_bind {β : Type} (f : Cluster → Request β) (c : Cluster) :
    ((liftM (MonadState.get : Session Cluster) : Request Cluster) >>= f) c = f c c := rfl

namespace Status

variable {s t : Store Widget} {k : ObjectKey} {w b : Widget} {l : List Condition}

/-- The change of a status that writes all of its conditions. -/
def ofConditions (l : List Condition) : Json :=
  .obj [("conditions", .arr (l.map fun c => c.encode.sorted))]

/-- The conditions that are written are those of the copy, with the one that is set. -/
lemma updateCondition_eq (hw : w.Fits) (c : Condition) (cluster : Cluster) :
    updateCondition w c cluster = Session.updateStatus Widget (Finalizer.target w)
      (ofConditions (c.set cluster.date.render w.conditionList)) w.metadata.resourceVersion
      cluster := by
  have hstatus : withCondition cluster.date.render w c =
      .ok (ofConditions (c.set cluster.date.render w.conditionList)) := by
    rw [withCondition, Widget.ofStatus_toJson hw]
    rfl
  rw [updateCondition, Session.get_bind, hstatus]
  rfl

lemma merge_ofConditions (members : List (String × Json)) :
    (Json.obj members).merge (.obj [("status", ofConditions l)]) =
      .obj (Json.insertMember "status"
        (.obj (Json.insertMember "conditions" (Json.arr (l.map Condition.encode)).sorted
          ((Json.find? "status" members).getD .null).membersOf)) members) := by
  simp [ofConditions, Json.merge, Json.mergeMembers, Json.membersOf, Json.sorted_arr,
    Function.comp_def]

/-- A write of conditions that is granted leaves just these, and the widget is stored after it. -/
lemma conditions_of_updateStatus {version : Option String}
    (h : s.updateStatus k (ofConditions l) version = .ok (b, t))
    (hheld : ∀ w, s.objects.get? k = some w → w.metadata.isTerminating = true →
      w.metadata.finalizerList ≠ []) :
    b.conditionList = l ∧ t.objects.get? k = some b := by
  obtain ⟨w, next, hw, -, hnext, hreplace⟩ := Store.updateStatus_ok h
  obtain ⟨members, hmembers, -⟩ := Store.exists_members w
  rw [hmembers, merge_ofConditions] at hnext
  obtain ⟨hmetadata, -, hstatus⟩ := Widget.parts_of_decode (Store.decode_of_decodeObject hnext)
  have hconditions : next.conditionList = l := by
    have hread := hstatus _ (by rw [Json.find?_insertMember, if_pos rfl])
    rw [Source.decodeOption_of_ne_null _ (by simp)] at hread
    obtain ⟨status, hdecode, hsome⟩ := Store.map_eq_ok hread
    have hlist := WidgetStatus.conditions_of_decode hdecode
      (by rw [Json.find?_insertMember, if_pos rfl])
    rw [Source.decodeOption_of_ne_null _ (by simp [Json.sorted])] at hlist
    -- What could be read fits, so it is read as it was written.
    obtain ⟨l', hl', hsome'⟩ := Store.map_eq_ok hlist
    rw [Condition.decodeList_encode (Condition.fits_of_decodeList hl')] at hl'
    rw [Widget.conditionList, ← hsome, Option.bind_some, ← hsome', Option.getD_some,
      Except.ok.inj hl']
  have hfinalizers : (Resource.metadata next).finalizers = (Resource.metadata w).finalizers := by
    have hfind : Json.find? "metadata" members = some (Resource.metadata w).encode.sorted := by
      have htoJson := StableParts.metadata_toJson w
      rwa [hmembers] at htoJson
    refine Metadata.finalizers_of_decode_encode (hmetadata _ ?_)
    rw [Json.find?_insertMember, if_neg (by decide), hfind]
  obtain ⟨-, -, hsame, -⟩ := Store.replace_parts hreplace
  refine ⟨(Widget.conditionList_congr (Store.replace_status hreplace).1).trans hconditions, ?_⟩
  rw [Store.get?_of_replace_self hreplace, if_neg]
  rintro ⟨hmarked, hnone⟩
  refine hheld w hw hmarked ?_
  rw [Metadata.finalizerList, hsame, hfinalizers] at hnone
  exact hnone

end Status

end ControlLoop
