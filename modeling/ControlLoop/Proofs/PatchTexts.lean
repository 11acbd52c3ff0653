import ControlLoop.Admission.Review
import ControlLoop.Proofs.Base64Texts
import ControlLoop.Proofs.WrittenJson

/-!
# Patches as text

A patch that is attached to a response is found there again, whatever characters its strings and
pointers have, if the numbers in its values are integers that fit a word of 64 bits. The one bound is
that of the reader of the text: a patch takes two of the levels that it goes down, and if a value nests
deeper than the others nothing of the patch is found.
-/
namespace ControlLoop

namespace Json

/-! ## Depth -/

mutual

/-- How deep arrays and objects nest. -/
def depth : Json → Nat
  | arr items => itemsDepth items + 1
  | obj members => membersDepth members + 1
  | _ => 0

def itemsDepth : List Json → Nat
  | [] => 0
  | v :: rest => max v.depth (itemsDepth rest)

def membersDepth : List (String × Json) → Nat
  | [] => 0
  | (_, v) :: rest => max v.depth (membersDepth rest)

end

/-- A value as documents hold it, whose numbers are integers that fit a word of 64 bits. -/
structure Whole (v : Json) : Prop where
  sorted : v.sorted = v
  writable : ∃ depth, Writable depth v

/-- Lists in lists, so many that it nests that deep. -/
def nested : Nat → Json
  | 0 => null
  | n + 1 => arr [nested n]

lemma depth_nested (n : Nat) : (nested n).depth = n := by
  induction n with
  | zero => rfl
  | succ n ih => simp [nested, depth, itemsDepth, ih]

lemma whole_nested (n : Nat) : (nested n).Whole := by
  induction n with
  | zero => exact ⟨rfl, 0, .null⟩
  | succ n ih =>
    obtain ⟨hsorted, depth, hwritable⟩ := ih
    refine ⟨?_, depth + 1, .arr _ (by simpa using hwritable)⟩
    simp only [nested, Json.sorted, sortedItems, hsorted]

lemma Writable.mono {depth depth' : Nat} {v : Json} (h : Writable depth v) (hle : depth ≤ depth') :
    Writable depth' v := by
  induction h generalizing depth' with
  | null => exact .null
  | bool b => exact .bool b
  | str s => exact .str s
  | int n low high => exact .int n low high
  | arr items _ ih =>
    obtain ⟨depth', rfl⟩ := Nat.exists_eq_add_of_lt hle
    exact .arr items fun v hv => ih v hv (by omega)
  | obj members _ ih =>
    obtain ⟨depth', rfl⟩ := Nat.exists_eq_add_of_lt hle
    exact .obj members fun m hm => ih m hm (by omega)

lemma exists_writable_forall {l : List Json} (h : ∀ v ∈ l, ∃ depth, Writable depth v) :
    ∃ depth, ∀ v ∈ l, Writable depth v := by
  induction l with
  | nil => exact ⟨0, by simp⟩
  | cons v l ih =>
    obtain ⟨⟨first, hfirst⟩, hl⟩ := List.forall_mem_cons.mp h
    obtain ⟨depth, hdepth⟩ := ih hl
    exact ⟨max first depth, List.forall_mem_cons.mpr ⟨hfirst.mono (Nat.le_max_left _ _),
      fun w hw => (hdepth w hw).mono (Nat.le_max_right _ _)⟩⟩

namespace Node

mutual

/-- A reader who does not go deep enough for a value meets no other fault in it. -/
lemma read_pruned (limit : Nat) : ∀ v : Json,
    (pruned limit v).read = if v.depth ≤ limit then .ok v else .error .tooDeep
  | .null | .bool _ | .num _ | .str _ => by simp [pruned, read, depth]
  | .arr items => by
    cases limit with
    | zero => simp [pruned, read, depth]
    | succ limit =>
      rw [pruned, read, readItems_pruned limit items, depth]
      simp only [Nat.add_le_add_iff_right]
      split <;> rfl
  | .obj members => by
    cases limit with
    | zero => simp [pruned, read, depth]
    | succ limit =>
      rw [pruned, read, readMembers_pruned limit members, depth]
      simp only [Nat.add_le_add_iff_right]
      split <;> rfl

lemma readItems_pruned (limit : Nat) : ∀ l : List Json,
    readItems (prunedItems limit l) = if itemsDepth l ≤ limit then .ok l else .error .tooDeep
  | [] => by simp [prunedItems, readItems, itemsDepth]
  | v :: rest => by
    rw [prunedItems, readItems, read_pruned limit v, readItems_pruned limit rest, itemsDepth]
    by_cases hv : v.depth ≤ limit <;> by_cases hrest : itemsDepth rest ≤ limit <;>
      simp [hv, hrest, bind, Except.bind, pure, Except.pure]

lemma readMembers_pruned (limit : Nat) : ∀ l : List (String × Json),
    readMembers (prunedMembers limit l) =
      if membersDepth l ≤ limit then .ok l else .error .tooDeep
  | [] => by simp [prunedMembers, readMembers, membersDepth]
  | (k, v) :: rest => by
    rw [prunedMembers, readMembers, read_pruned limit v, readMembers_pruned limit rest, membersDepth]
    by_cases hv : v.depth ≤ limit <;> by_cases hrest : membersDepth rest ≤ limit <;>
      simp [hv, hrest, bind, Except.bind, pure, Except.pure]

end

end Node

end Json

/-! ## Operations -/

namespace PatchOperation

/-- The value that an operation brings. -/
def value? : PatchOperation → Option Json
  | add _ v | replace _ v | test _ v => some v
  | remove _ | move _ _ | copy _ _ => none

/-- All members but the name of an operation are put aside, if they can be read. -/
lemma visit_member (name : Option Name) (done fields : List (String × Json.Node))
    (h : ∀ f ∈ fields, f.1 ≠ "op") :
    Source.visit Parts.member .text none ⟨name, done⟩ fields =
      ((Json.Node.readMembers fields).mapError .unreadable).map
        fun _ => ⟨name, fields.reverse ++ done⟩ := by
  induction fields generalizing done with
  | nil => rfl
  | cons f fields ih =>
    obtain ⟨k, n⟩ := f
    obtain ⟨hk, hfields⟩ := List.forall_mem_cons.mp h
    rw [Source.visit, Parts.member, if_neg hk, Json.Node.readMembers, Source.putAside, Source.decodeAny]
    cases n.read with
    | error e => rfl
    | ok v =>
      simp only [Except.mapError, bind, Except.bind, pure, Except.pure]
      rw [ih _ hfields]
      cases Json.Node.readMembers fields with
      | error e => rfl
      | ok members => simp [Except.mapError, Except.map]

lemma decode_named (name : Name) (fields : List (String × Json.Node)) (h : ∀ f ∈ fields, f.1 ≠ "op") :
    decode ⟨.text, .obj (("op", .str name.text) :: fields) none⟩ =
      match Json.Node.readMembers fields with
      | .ok _ => decodeFields name (.obj fields none)
      | .error e => .error (.unreadable e) := by
  have hname : Name.decode ⟨.text, .str name.text⟩ = .ok name := by cases name <;> decide
  simp only [decode, Source.decodeMembers, Source.visit, Parts.member, if_true, hname, bind,
    Except.bind, pure, Except.pure, visit_member _ _ _ h]
  cases Json.Node.readMembers fields with
  | error e => rfl
  | ok members => simp [Except.mapError, Except.map, Source.require]

lemma decode_pointer (medium : Medium) (p : Pointer) :
    Pointer.decode ⟨medium, .str p.text⟩ = .ok p :=
  Pointer.read_text p

/-- The fields of an operation that brings a value are found, if the value does not nest too deep. -/
lemma decode_value (name : Name) (hfields : name.fields = ["path", "value"]) (limit : Nat)
    (path : Pointer) (v : Json) :
    decode ⟨.text, .pruned (limit + 1)
        (.obj [("op", .str name.text), ("path", .str path.text), ("value", v)])⟩ =
      if v.depth ≤ limit then ofGathered { path := some path, value := some v.sorted } name
      else .error (.unreadable .tooDeep) := by
  have hread := Json.Node.read_pruned limit v
  refine (decode_named name [("path", .str path.text), ("value", .pruned limit v)] (by simp)).trans ?_
  split_ifs at hread ⊢ with hdepth
  · simp [Json.Node.readMembers, Json.Node.read, decodeFields, hfields, Source.decodeRecord,
      Source.decodeSpared, Source.decodeMembers, Source.visit, Source.once, member, decode_pointer,
      Source.decodeDocument, Source.decodeAny, hread, Except.mapError, bind, Except.bind, pure,
      Except.pure, Source.endMembers]
  · simp [Json.Node.readMembers, Json.Node.read, hread, bind, Except.bind]

/-- The fields of an operation between two places are found. -/
lemma decode_places (name : Name) (hfields : name.fields = ["from", "path"]) (limit : Nat)
    (source path : Pointer) :
    decode ⟨.text, .pruned (limit + 1)
        (.obj [("op", .str name.text), ("from", .str source.text), ("path", .str path.text)])⟩ =
      ofGathered { source := some source, path := some path } name := by
  refine (decode_named name [("from", .str source.text), ("path", .str path.text)] (by simp)).trans ?_
  simp [Json.Node.readMembers, Json.Node.read, decodeFields, hfields, Source.decodeRecord,
    Source.decodeSpared, Source.decodeMembers, Source.visit, Source.once, member, decode_pointer,
    bind, Except.bind, pure, Except.pure, Source.endMembers]

lemma decode_removal (limit : Nat) (path : Pointer) :
    decode ⟨.text, .pruned (limit + 1) (.obj [("op", .str "remove"), ("path", .str path.text)])⟩ =
      .ok (remove path) := by
  refine (decode_named .remove [("path", .str path.text)] (by simp)).trans ?_
  simp [Json.Node.readMembers, Json.Node.read, decodeFields, Name.fields, Source.decodeRecord,
    Source.decodeSpared, Source.decodeMembers, Source.visit, Source.once, member, decode_pointer,
    bind, Except.bind, pure, Except.pure, Source.endMembers, ofGathered, Source.require]

/-- An operation is found in its text, if its value does not nest too deep. -/
lemma decode_pruned (limit : Nat) (o : PatchOperation) (hsorted : ∀ v ∈ o.value?, v.sorted = v) :
    decode ⟨.text, .pruned (limit + 1) o.encode⟩ =
      if ∀ v ∈ o.value?, v.depth ≤ limit then .ok o else .error (.unreadable .tooDeep) := by
  cases o with
  | remove path =>
    rw [encode, decode_removal]
    simp [value?]
  | move source path =>
    refine (decode_places .move rfl limit source path).trans ?_
    simp [value?, ofGathered, Source.require, bind, Except.bind, pure, Except.pure]
  | copy source path =>
    refine (decode_places .copy rfl limit source path).trans ?_
    simp [value?, ofGathered, Source.require, bind, Except.bind, pure, Except.pure]
  | add path v =>
    refine (decode_value .add rfl limit path v).trans ?_
    simp [value?, hsorted v rfl, ofGathered, Source.require, bind, Except.bind, pure, Except.pure]
  | replace path v =>
    refine (decode_value .replace rfl limit path v).trans ?_
    simp [value?, hsorted v rfl, ofGathered, Source.require, bind, Except.bind, pure, Except.pure]
  | test path v =>
    refine (decode_value .test rfl limit path v).trans ?_
    simp [value?, hsorted v rfl, ofGathered, Source.require, bind, Except.bind, pure, Except.pure]

lemma writable_encode {depth : Nat} {o : PatchOperation}
    (h : ∀ v ∈ o.value?, Json.Writable depth v) : Json.Writable (depth + 1) o.encode := by
  have htexts (l : List (String × String)) :
      ∀ m ∈ l.map fun m => (m.1, Json.str m.2), Json.Writable depth m.2 := by
    intro m hm
    obtain ⟨t, -, rfl⟩ := List.mem_map.mp hm
    exact .str _
  cases o with
  | remove path => exact .obj _ (htexts [("op", "remove"), ("path", path.text)])
  | move source path =>
    exact .obj _ (htexts [("op", "move"), ("from", source.text), ("path", path.text)])
  | copy source path =>
    exact .obj _ (htexts [("op", "copy"), ("from", source.text), ("path", path.text)])
  | add path v | replace path v | test path v =>
    refine .obj _ ?_
    simp only [List.forall_mem_cons, List.not_mem_nil, false_imp_iff, implies_true, and_true]
    exact ⟨.str _, .str _, h v rfl⟩

end PatchOperation

/-! ## Patches -/

namespace JsonPatch

/-- The values that the operations of a patch bring. -/
def values (p : JsonPatch) : List Json := p.filterMap PatchOperation.value?

lemma mem_values {p : JsonPatch} {v : Json} : v ∈ p.values ↔ ∃ o ∈ p, v ∈ o.value? := by
  simp [values, List.mem_filterMap]

lemma forall_values_cons {o : PatchOperation} {p : JsonPatch} {P : Json → Prop} :
    (∀ v ∈ values (o :: p), P v) ↔ (∀ v ∈ o.value?, P v) ∧ ∀ v ∈ values p, P v := by
  simp [mem_values, or_imp, forall_and]

lemma writable_encode {p : JsonPatch} (h : ∀ v ∈ p.values, ∃ depth, Json.Writable depth v) :
    ∃ depth, Json.Writable depth p.encode := by
  obtain ⟨depth, hdepth⟩ := Json.exists_writable_forall h
  refine ⟨depth + 2, .arr _ ?_⟩
  rintro _ hencoded
  obtain ⟨o, ho, rfl⟩ := List.mem_map.mp hencoded
  exact PatchOperation.writable_encode fun v hv => hdepth v (mem_values.mpr ⟨o, ho, hv⟩)

/-- The operations are found one by one, up to one whose value nests too deep. -/
lemma decode_pruned (limit : Nat) (p : JsonPatch) (hsorted : ∀ v ∈ p.values, v.sorted = v) :
    decode ⟨.text, .pruned (limit + 2) p.encode⟩ =
      if ∀ v ∈ p.values, v.depth ≤ limit then .ok p else .error (.unreadable .tooDeep) := by
  rw [encode, Json.Node.pruned, Json.Node.prunedItems_eq_map, List.map_map, decode]
  show Source.decodeItems _ _ _ _ = _
  induction p with
  | nil => rfl
  | cons o p ih =>
    obtain ⟨hfirst, hrest⟩ := forall_values_cons.mp hsorted
    have ho := PatchOperation.decode_pruned limit o hfirst
    rw [List.map_cons, Source.decodeItems, ih hrest]
    simp only [Function.comp_apply, ho, forall_values_cons]
    by_cases hvalue : ∀ v ∈ o.value?, v.depth ≤ limit
    · by_cases hvalues : ∀ v ∈ values p, v.depth ≤ limit
      · simp only [if_pos hvalue, if_pos hvalues, if_pos (And.intro hvalue hvalues)]
        rfl
      · simp only [if_pos hvalue, if_neg hvalues, if_neg fun h => hvalues (And.right h)]
        rfl
    · simp only [if_neg hvalue, if_neg fun h => hvalue (And.left h)]
      rfl

end JsonPatch

/-! ## Responses -/

namespace Admission.Response

lemma toList_eq_data (octets : ByteArray) : octets.toList = octets.data.toList := by
  have hloop (i : Nat) (done : List UInt8) :
      ByteArray.toList.loop octets i done = done.reverse ++ octets.data.toList.drop i := by
    fun_induction ByteArray.toList.loop octets i done with
    | case1 i done h ih =>
      have hi : i < octets.data.toList.length := h
      have hget : octets.get! i = octets.data.toList[i] := getElem!_pos octets.data i h
      rw [ih, List.reverse_cons, List.append_assoc, List.drop_eq_getElem_cons hi, hget]
      rfl
    | case2 i done h =>
      have hi : octets.data.toList.length ≤ i := Nat.le_of_not_lt h
      rw [List.drop_eq_nil_of_le hi, List.append_nil]
  exact hloop 0 []

/-- What is found in the octets of a text is found in the patch that was written. -/
lemma decodedPatch_eq_toOption (r : Response) {patch : JsonPatch} {depth : Nat}
    (h : Json.Writable depth patch.encode) :
    (r.withPatch patch).decodedPatch =
      (JsonPatch.decode ⟨.text, .pruned Json.Node.depthLimit patch.encode⟩).toOption := by
  simp only [withPatch, decodedPatch, bind, Option.bind, Text.Base64.decode_encode,
    Except.toOption, toList_eq_data, Array.toArray_toList]
  rw [Json.readOctets_pruned JsonPatch.decode h]

/-- A patch is found as it was attached, unless a value nests deeper than 125 levels. -/
theorem decodedPatch_withPatch (r : Response) (patch : JsonPatch) (h : ∀ v ∈ patch.values, v.Whole) :
    (r.withPatch patch).patchType = some "JSONPatch" ∧
      (r.withPatch patch).decodedPatch =
        if ∀ v ∈ patch.values, v.depth ≤ 125 then some patch else none := by
  obtain ⟨depth, hwritable⟩ := JsonPatch.writable_encode fun v hv => (h v hv).writable
  have hpatch := JsonPatch.decode_pruned 125 patch fun v hv => (h v hv).sorted
  refine ⟨rfl, ?_⟩
  rw [decodedPatch_eq_toOption r hwritable, Json.Node.depthLimit, hpatch]
  by_cases hdeep : ∀ v ∈ patch.values, v.depth ≤ 125
  · rw [if_pos hdeep, if_pos hdeep, Except.toOption]
  · rw [if_neg hdeep, if_neg hdeep, Except.toOption]

theorem decodedPatch_withPatch_escaped :
    let entries : Json := .obj
      [("\n\"é", .int (-9223372036854775808)), ("😀", .int 18446744073709551615)]
    let patch : JsonPatch :=
      [.test ⟨"/a~1b", rfl⟩ entries, .move ⟨"", rfl⟩ ⟨"/\\", rfl⟩, .add ⟨"/~0", rfl⟩ (.nested 125)]
    (∀ v ∈ patch.values, v.Whole) ∧ ((allow "u").withPatch patch).decodedPatch = some patch := by
  intro entries patch
  have hentries : entries.Whole := by
    refine ⟨by decide +kernel, 1, .obj _ ?_⟩
    simp only [List.forall_mem_cons, List.not_mem_nil, false_imp_iff, implies_true, and_true]
    exact ⟨.int _ (by decide) (by decide), .int _ (by decide) (by decide)⟩
  have hwhole : ∀ v ∈ patch.values, v.Whole := by
    simpa [patch, JsonPatch.values, PatchOperation.value?] using ⟨hentries, Json.whole_nested 125⟩
  have hdepth : ∀ v ∈ patch.values, v.depth ≤ 125 := by
    simp [patch, entries, JsonPatch.values, PatchOperation.value?, Json.depth_nested, Json.depth,
      Json.membersDepth, Json.int]
  exact ⟨hwhole, (decodedPatch_withPatch (allow "u") patch hwhole).2.trans (if_pos hdepth)⟩

/-- A patch whose value is a hundred and twenty-six lists in one another is attached, but nothing is
found. -/
theorem decodedPatch_nested :
    (Json.nested 126).Whole ∧
      ((allow "u").withPatch [.add ⟨"/a", rfl⟩ (.nested 126)]).decodedPatch = none := by
  have hwhole : ∀ v ∈ JsonPatch.values [.add ⟨"/a", rfl⟩ (.nested 126)], v.Whole :=
    List.forall_mem_singleton.mpr (Json.whole_nested 126)
  obtain ⟨depth, hwritable⟩ := JsonPatch.writable_encode fun v hv => (hwhole v hv).writable
  refine ⟨Json.whole_nested 126, ?_⟩
  rw [decodedPatch_eq_toOption _ hwritable, Json.Node.depthLimit,
    JsonPatch.decode_pruned 125 _ fun v hv => (hwhole v hv).sorted, if_neg]
  · rfl
  · simp [JsonPatch.values, PatchOperation.value?, Json.depth_nested]

end Admission.Response

end ControlLoop
