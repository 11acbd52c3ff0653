import ControlLoop.Proofs.ConditionWriters
import Mathlib.Data.List.DropRight

/-!
# The history of a condition

Conditions are set one after the other, at whatever the clock reads then. A list that was empty tells
after that of each type how it was last set, and since when it has had that status: since the first of
the calls for the type that end its history with one status. What is set for other types in between
makes no difference.
-/
namespace ControlLoop.Condition

variable {now : String} {c d o : Condition} {l : List Condition}

/-! ## One call -/

/-- The condition replaces the first of its type. -/
lemma set_append {before after : List Condition} (hbefore : ∀ d ∈ before, d.type ≠ c.type)
    (ho : o.type = c.type) :
    c.set now (before ++ o :: after) = before ++ c.stamped now (some o) :: after := by
  induction before with
  | nil => rw [List.nil_append, set, if_pos ho, List.nil_append]
  | cons d before ih =>
    rw [List.forall_mem_cons] at hbefore
    rw [List.cons_append, set, if_neg hbefore.1, ih hbefore.2, List.cons_append]

/-- Where there is none of its type it is appended. -/
lemma set_of_forall_ne (hl : ∀ d ∈ l, d.type ≠ c.type) : c.set now l = l ++ [c.stamped now none] := by
  induction l with
  | nil => rfl
  | cons d l ih =>
    rw [List.forall_mem_cons] at hl
    rw [set, if_neg hl.1, ih hl.2, List.cons_append]

lemma set_cases (now : String) (c : Condition) (l : List Condition) :
    (∃ before o after, l = before ++ o :: after ∧ o.type = c.type ∧
      (∀ x ∈ before, x.type ≠ c.type) ∧
      c.set now l = before ++ c.stamped now (some o) :: after) ∨
    (∀ x ∈ l, x.type ≠ c.type) ∧ c.set now l = l ++ [c.stamped now none] := by
  cases hfind : l.find? (·.type = c.type) with
  | none =>
    have hne : ∀ d ∈ l, d.type ≠ c.type := by simpa using hfind
    exact .inr ⟨hne, set_of_forall_ne hne⟩
  | some o =>
    obtain ⟨ho, before, after, rfl, hbefore⟩ := List.find?_eq_some_iff_append.mp hfind
    have htype : o.type = c.type := by simpa using ho
    have hfirst : ∀ d ∈ before, d.type ≠ c.type := by simpa using hbefore
    exact .inl ⟨before, o, after, rfl, htype, hfirst, set_append hfirst htype⟩

lemma map_type_set (now : String) (c : Condition) (l : List Condition) : (c.set now l).map type =
    if c.type ∈ l.map type then l.map type else l.map type ++ [c.type] := by
  obtain ⟨before, o, after, rfl, ho, -, hset⟩ | ⟨hnew, hset⟩ := set_cases now c l
  · rw [hset]
    simp [(stamped_agrees now (some o) c).type_eq, ho]
  · rw [hset, if_neg (by simpa using hnew)]
    simp [(stamped_agrees now none c).type_eq]

/-! ## Calls one after the other -/

/-- A call that sets a condition, with what the clock reads. -/
structure Setting where
  date : Timestamp
  condition : Condition

/-- The conditions after calls, one after the other. -/
def afterAll (l : List Condition) (calls : List Setting) : List Condition :=
  calls.foldl (fun l call => call.condition.set call.date.render l) l

/-- The calls for a type. -/
def callsFor (type : String) (calls : List Setting) : List Setting :=
  calls.filter (·.condition.type = type)

/-- The longest final run of calls for a type that give it the status. -/
def finalRun (type status : String) (calls : List Setting) : List Setting :=
  (callsFor type calls).rtakeWhile (·.condition.status = status)

/-- The condition is what the calls for its type come to: it says what the last of them said, and its
time is that of the first in the longest final run of calls with its status. -/
structure SumsUp (calls : List Setting) (d : Condition) : Prop where
  last : ∃ call, (callsFor d.type calls).getLast? = some call ∧ d.Agrees call.condition
  since : ∃ call, (finalRun d.type d.status calls).head? = some call ∧
    d.lastTransitionTime = some call.date.render

variable {calls : List Setting} {call : Setting}

lemma afterAll_concat (l : List Condition) (calls : List Setting) (call : Setting) :
    afterAll l (calls ++ [call]) = call.condition.set call.date.render (afterAll l calls) := by
  rw [afterAll, List.foldl_append]
  rfl

lemma callsFor_concat (type : String) (calls : List Setting) (call : Setting) :
    callsFor type (calls ++ [call]) =
      callsFor type calls ++ if call.condition.type = type then [call] else [] := by
  rw [callsFor, List.filter_append]
  by_cases htype : call.condition.type = type <;> simp [callsFor, htype]

/-- The types stand in the order in which they were first set. -/
lemma map_type_afterAll (calls : List Setting) :
    (afterAll [] calls).map type = (calls.map (·.condition.type)).eraseDups := by
  induction calls using List.reverseRecOn with
  | nil => rfl
  | append_singleton calls call ih =>
    rw [afterAll_concat, map_type_set, ih, List.map_append, List.eraseDups_append]
    simp only [List.mem_eraseDups, List.map_singleton, List.removeAll, List.filter_cons, List.filter_nil,
      List.elem_eq_mem]
    by_cases hknown : call.condition.type ∈ calls.map (·.condition.type)
    · simp only [hknown, if_true, decide_true]
      exact (List.append_nil _).symm
    · simp only [hknown, if_false, decide_false]
      rfl

lemma nodup_types_afterAll (calls : List Setting) : ((afterAll [] calls).map type).Nodup := by
  induction calls using List.reverseRecOn with
  | nil => exact List.nodup_nil
  | append_singleton calls call ih =>
    rw [afterAll_concat, map_type_set]
    split
    · exact ih
    next hnew => exact ih.append (by simp) (by simpa using hnew)

/-- A call for another type makes no difference. -/
lemma SumsUp.concat_of_ne (h : SumsUp calls d) (htype : call.condition.type ≠ d.type) :
    SumsUp (calls ++ [call]) d := by
  have hsame : callsFor d.type (calls ++ [call]) = callsFor d.type calls := by
    rw [callsFor_concat, if_neg htype, List.append_nil]
  exact ⟨hsame ▸ h.last, by rw [finalRun, hsame]; exact h.since⟩

lemma finalRun_concat_self (calls : List Setting) (call : Setting) :
    finalRun call.condition.type call.condition.status (calls ++ [call]) =
      finalRun call.condition.type call.condition.status calls ++ [call] := by
  rw [finalRun, callsFor_concat, if_pos rfl, List.rtakeWhile_concat_pos _ _ _ (by simp), finalRun]

/-- Calls that ended with one status have no final run of another. -/
lemma SumsUp.finalRun_eq_nil (h : SumsUp calls o) {status : String} (hstatus : o.status ≠ status) :
    finalRun o.type status calls = [] := by
  obtain ⟨last, hlast, hagrees⟩ := h.last
  obtain ⟨before, hbefore⟩ := List.getLast?_eq_some_iff.mp hlast
  rw [finalRun, hbefore, List.rtakeWhile_concat_neg]
  simpa [← hagrees.status_eq] using hstatus

/-- The first condition of a type. -/
lemma sumsUp_first (htime : call.condition.lastTransitionTime = none)
    (hnone : callsFor call.condition.type calls = []) :
    SumsUp (calls ++ [call]) (call.condition.stamped call.date.render none) := by
  have hagrees := stamped_agrees call.date.render none call.condition
  refine ⟨⟨call, ?_, hagrees⟩, call, ?_, by simp [stamped, htime]⟩
  · rw [hagrees.type_eq, callsFor_concat, if_pos rfl, List.getLast?_concat]
  · rw [hagrees.type_eq, hagrees.status_eq, finalRun_concat_self, finalRun, hnone]
    rfl

/-- A condition in the place of one that sums up the calls before. If the status is the same, the final
run goes on, and so does its time; otherwise a run begins. -/
lemma SumsUp.next (h : SumsUp calls o) (htype : o.type = call.condition.type)
    (htime : call.condition.lastTransitionTime = none) :
    SumsUp (calls ++ [call]) (call.condition.stamped call.date.render (some o)) := by
  have hagrees := stamped_agrees call.date.render (some o) call.condition
  refine ⟨⟨call, ?_, hagrees⟩, ?_⟩
  · rw [hagrees.type_eq, callsFor_concat, if_pos rfl, List.getLast?_concat]
  · rw [hagrees.type_eq, hagrees.status_eq, finalRun_concat_self]
    by_cases hstatus : o.status = call.condition.status
    · obtain ⟨first, hfirst, hsince⟩ := h.since
      rw [htype, hstatus] at hfirst
      refine ⟨first, ?_, by simp [stamped, htime, hstatus, hsince]⟩
      rw [List.head?_append, hfirst, Option.some_or]
    · have hnil := h.finalRun_eq_nil hstatus
      rw [htype] at hnil
      exact ⟨call, by rw [hnil]; rfl, by simp [stamped, htime, hstatus]⟩

/-- Calls without times leave for each type what they come to. -/
lemma sumsUp_of_mem (hcalls : ∀ call ∈ calls, call.condition.lastTransitionTime = none) :
    ∀ d ∈ afterAll [] calls, SumsUp calls d := by
  induction calls using List.reverseRecOn with
  | nil => simp [afterAll]
  | append_singleton calls call ih =>
    have hbefore := ih fun x hx => hcalls x (List.mem_append_left _ hx)
    have htime := hcalls call (by simp)
    have hother (d : Condition) (hd : d ∈ afterAll [] calls) (htype : d.type ≠ call.condition.type) :
        SumsUp (calls ++ [call]) d := (hbefore d hd).concat_of_ne htype.symm
    intro d hd
    rw [afterAll_concat] at hd
    obtain ⟨before, o, after, hl, ho, hfirst, hset⟩ | ⟨hnew, hset⟩ :=
      set_cases call.date.render call.condition (afterAll [] calls)
    · rw [hset, List.mem_append, List.mem_cons] at hd
      -- No type stands twice, so those after the one that is replaced are of other types.
      have htypes := nodup_types_afterAll calls
      rw [hl, List.map_append, List.map_cons, List.nodup_append, List.nodup_cons] at htypes
      rcases hd with hd | rfl | hd
      · exact hother d (by simp [hl, hd]) (hfirst d hd)
      · exact (hbefore o (by simp [hl])).next ho htime
      · refine hother d (by simp [hl, hd]) fun hd' => htypes.2.1.1 ?_
        rw [ho, ← hd']
        exact List.mem_map_of_mem hd
    · rw [hset, List.mem_append, List.mem_singleton] at hd
      rcases hd with hd | rfl
      · exact hother d hd (hnew d hd)
      · refine sumsUp_first htime (List.filter_eq_nil_iff.mpr fun x hx hx' => ?_)
        have hmem : x.condition.type ∈ (afterAll [] calls).map type := by
          rw [map_type_afterAll, List.mem_eraseDups]
          exact List.mem_map_of_mem hx
        obtain ⟨d, hd, hdtype⟩ := List.mem_map.mp hmem
        exact hnew d hd (hdtype.trans (by simpa using hx'))

/-- **The history of conditions.** After calls without times, whatever the clock reads at each of them, an
empty list holds each type once, in the order in which the types were first set, and each condition sums
up the calls for its type. In any list, a call changes the first condition of its type or appends one,
and leaves all others where they are. -/
theorem history_law (calls : List Setting)
    (hcalls : ∀ call ∈ calls, call.condition.lastTransitionTime = none) :
    ((afterAll [] calls).map type).Nodup ∧
    (afterAll [] calls).map type = (calls.map (·.condition.type)).eraseDups ∧
    (∀ d ∈ afterAll [] calls, SumsUp calls d) ∧
    ∀ (l : List Condition) (call : Setting), ∃ d, d.Agrees call.condition ∧
      ((∃ before o after, l = before ++ o :: after ∧ o.type = call.condition.type ∧
          (∀ x ∈ before, x.type ≠ call.condition.type) ∧
          afterAll l [call] = before ++ d :: after) ∨
        (∀ x ∈ l, x.type ≠ call.condition.type) ∧ afterAll l [call] = l ++ [d]) := by
  refine ⟨nodup_types_afterAll calls, map_type_afterAll calls, sumsUp_of_mem hcalls,
    fun l call => ?_⟩
  obtain ⟨before, o, after, hl, ho, hfirst, hset⟩ | ⟨hnew, hset⟩ :=
    set_cases call.date.render call.condition l
  · exact ⟨_, stamped_agrees _ _ _, .inl ⟨before, o, after, hl, ho, hfirst, hset⟩⟩
  · exact ⟨_, stamped_agrees _ _ _, .inr ⟨hnew, hset⟩⟩

/-- Two types in turns. The first of them holds, ceases to hold and stays so. -/
def turns : List Setting :=
  [⟨{ seconds := 0 }, report "Ready" true "Up" "" (some 1)⟩,
   ⟨{ seconds := 5 }, report "Synced" true "Done" "" none⟩,
   ⟨{ seconds := 5 }, report "Ready" false "Down" "" (some 1)⟩,
   ⟨{ seconds := 7 }, report "Synced" true "Done" "again" none⟩,
   ⟨{ seconds := 9 }, report "Ready" false "Down" "still" (some 2)⟩]

theorem history_law_turns :
    afterAll [] turns =
      [{ report "Ready" false "Down" "still" (some 2) with
          lastTransitionTime := some "1970-01-01T00:00:05Z" },
       { report "Synced" true "Done" "again" none with
          lastTransitionTime := some "1970-01-01T00:00:05Z" }] ∧
    ∀ d ∈ afterAll [] turns, SumsUp turns d := by
  have hturns : ∀ call ∈ turns, call.condition.lastTransitionTime = none := by
    simp [turns, report]
  exact ⟨by decide +kernel, (history_law turns hturns).2.2.1⟩

end ControlLoop.Condition
