import ControlLoop.Queue.Backoff
import Mathlib.Tactic

/-!
# The delays of a row of failures

The delay before a key is tried again is the first delay times a power of two, or the greatest delay if
that is less. It is computed with words of a fixed size, in which the power and the product may fail to
fit; what does not fit is more than the greatest delay, so nothing is lost by taking that instead. How
often a key has failed is counted from the calls that are about the key alone.
-/
namespace ControlLoop

namespace Duration

/-- Seconds that do not fit a word make up more than the greatest span, whatever is added to them. -/
lemma join?_eq (seconds nanos : ℕ) :
    join? seconds nanos = if seconds * 1000000000 + nanos ≤ greatest then
      some (seconds * 1000000000 + nanos) else none := by
  have hgreatest : greatest = (18446744073709551615 * 1000000000 + 999999999 : ℕ) := rfl
  rw [hgreatest]
  unfold join? word?
  by_cases hwhole : seconds ≤ 18446744073709551615
  · by_cases hall : seconds + nanos / 1000000000 ≤ 18446744073709551615
    · have hcarry : (seconds + nanos / 1000000000) * 1000000000 + nanos % 1000000000 =
          seconds * 1000000000 + nanos := by
        omega
      rw [if_pos hwhole, Option.bind_eq_bind, Option.bind_some, if_pos hall, if_pos (by omega)]
      exact congrArg some hcarry
    · rw [if_pos hwhole, Option.bind_eq_bind, Option.bind_some, if_neg hall, if_neg (by omega)]
      rfl
  · rw [if_neg hwhole, if_neg (by omega)]
    rfl

/-- The multiple of a span is found by its seconds and its rest wherever it is a span. -/
lemma scale?_eq (d factor : ℕ) :
    scale? d factor = if d * factor ≤ greatest then some (d * factor) else none := by
  have hsplit : d / 1000000000 * factor * 1000000000 + d % 1000000000 * factor = d * factor := by
    calc d / 1000000000 * factor * 1000000000 + d % 1000000000 * factor
        = (d / 1000000000 * 1000000000 + d % 1000000000) * factor := by ring
      _ = d * factor := by rw [Nat.div_add_mod']
  rw [scale?, join?_eq]
  exact if_congr (by rw [hsplit]) (congrArg some hsplit) rfl

/-- The rest of a span, less than a second, times a word of 32 bits fits a word of 64 bits. -/
lemma rest_mul_lt (d : ℕ) {factor : ℕ} (hfactor : factor < 2 ^ 32) :
    d % 1000000000 * factor < 2 ^ 64 := by
  have hrest : d % 1000000000 ≤ 999999999 := by omega
  calc d % 1000000000 * factor ≤ 999999999 * 2 ^ 32 := Nat.mul_le_mul hrest hfactor.le
    _ < 2 ^ 64 := by norm_num

end Duration

lemma powerOfTwo?_eq_some_iff {n m : Nat} : powerOfTwo? n = some m ↔ m = 2 ^ n ∧ m < 2 ^ 32 := by
  unfold powerOfTwo?
  split
  next hn =>
    have hfits : 2 ^ n < 2 ^ 32 := Nat.pow_lt_pow_right (by norm_num) hn
    simp only [Nat.pow_eq, Option.some.injEq]
    constructor
    · rintro rfl
      exact ⟨rfl, hfits⟩
    · exact fun h => h.1.symm
  next hn =>
    have hlarge : 2 ^ 32 ≤ 2 ^ n := Nat.pow_le_pow_right (by norm_num) (by omega)
    simp only [reduceCtorEq, false_iff]
    omega

namespace Backoff

variable {κ : Type} [DecidableEq κ] {j k : κ}

/-! ## Counting failures -/

lemma count_forget_self (b : Backoff κ) (k : κ) : (b.forget k).count k = 0 := by
  have hnone : (b.failures.filter fun e => e.1 ≠ k).find? (fun e => e.1 = k) = none := by
    rw [List.find?_eq_none]
    intro e he
    simpa using (List.mem_filter.mp he).2
  rw [count, forget, hnone]

/-- The entries of other keys are found where they were. -/
lemma find?_of_ne (hj : j ≠ k) (l : List (κ × Nat)) :
    (l.filter fun e => e.1 ≠ k).find? (fun e => e.1 = j) = l.find? fun e => e.1 = j := by
  rw [List.find?_filter]
  congr 1
  funext e
  by_cases he : e.1 = j
  · simp [he, hj]
  · simp [he]

lemma count_forget_of_ne (b : Backoff κ) (hj : j ≠ k) : (b.forget k).count j = b.count j := by
  rw [count, count, forget, find?_of_ne hj]

lemma count_delayFor_self (b : Backoff κ) (k : κ) :
    (b.delayFor k).2.count k = min (b.count k + 1) failureLimit := by
  rw [count, delayFor, List.find?_cons]
  simp

lemma count_delayFor_of_ne (b : Backoff κ) (hj : j ≠ k) : (b.delayFor k).2.count j = b.count j := by
  have hk : decide (k = j) = false := by simpa using hj.symm
  rw [count, count, delayFor, List.find?_cons, hk, find?_of_ne hj]

/-! ## Calls one after the other -/

/-- A call that changes what is counted. -/
inductive Call (κ : Type) where
  | delayFor (key : κ)
  | forget (key : κ)
  deriving DecidableEq, Repr

/-- The key that a call is about. -/
def Call.key : Call κ → κ
  | delayFor k => k
  | forget k => k

/-- What a call leaves. -/
def act (b : Backoff κ) : Call κ → Backoff κ
  | .delayFor k => (b.delayFor k).2
  | .forget k => b.forget k

/-- What some calls leave, from the beginning. -/
def after (base greatest : Duration) (calls : List (Call κ)) : Backoff κ :=
  calls.foldl act (new base greatest)

/-- How many delays a key has been given since it was forgotten. -/
def streak (k : κ) (calls : List (Call κ)) : Nat :=
  (calls.reverse.takeWhile (· ≠ .forget k)).count (.delayFor k)

variable {base greatest : Duration} {calls later : List (Call κ)} {c : Call κ}

lemma after_concat (base greatest : Duration) (calls : List (Call κ)) (c : Call κ) :
    after base greatest (calls ++ [c]) = (after base greatest calls).act c := by
  simp [after]

/-- No call changes the bounds of the delays. -/
lemma after_bounds (base greatest : Duration) (calls : List (Call κ)) :
    (after base greatest calls).base = base ∧
      (after base greatest calls).greatest = max base greatest := by
  induction calls using List.reverseRecOn with
  | nil => exact ⟨rfl, Nat.max_comm greatest base⟩
  | append_singleton calls c ih =>
    rw [after_concat]
    cases c <;> exact ih

lemma streak_concat (k : κ) (calls : List (Call κ)) (c : Call κ) :
    streak k (calls ++ [c]) =
      if c = .forget k then 0 else if c = .delayFor k then streak k calls + 1 else streak k calls := by
  unfold streak
  rw [List.reverse_append, List.reverse_singleton, List.singleton_append, List.takeWhile_cons]
  by_cases hforget : c = .forget k
  · simp [hforget]
  · simp only [ne_eq, hforget, not_false_eq_true, decide_true, if_true, if_false,
      List.count_cons, beq_iff_eq]
    split <;> rfl

/-- Calls that do not forget a key make its streak no shorter. -/
lemma streak_le_append (k : κ) (calls : List (Call κ)) (hlater : .forget k ∉ later) :
    streak k calls ≤ streak k (calls ++ later) := by
  induction later using List.reverseRecOn with
  | nil => simp
  | append_singleton later c ih =>
    simp only [List.mem_append, List.mem_singleton, not_or] at hlater
    have hle := ih hlater.1
    rw [← List.append_assoc, streak_concat, if_neg (Ne.symm hlater.2)]
    split <;> omega

/-- The streak of a key is made by the calls about that key. -/
lemma streak_filter (k : κ) (calls : List (Call κ)) :
    streak k (calls.filter (·.key = k)) = streak k calls := by
  induction calls using List.reverseRecOn with
  | nil => rfl
  | append_singleton calls c ih =>
    rw [List.filter_append, streak_concat]
    by_cases hc : c.key = k
    · rw [List.filter_singleton, decide_eq_true hc, cond_true, streak_concat, ih]
    · have hforget : c ≠ .forget k := fun h => hc (h ▸ rfl)
      have hdelay : c ≠ .delayFor k := fun h => hc (h ▸ rfl)
      rw [List.filter_singleton, decide_eq_false hc, if_neg hforget, if_neg hdelay]
      simpa using ih

/-- What is counted of a key is its streak, as far as is counted. -/
lemma count_after (base greatest : Duration) (calls : List (Call κ)) (k : κ) :
    (after base greatest calls).count k = min (streak k calls) failureLimit := by
  induction calls using List.reverseRecOn with
  | nil => rfl
  | append_singleton calls c ih =>
    rw [after_concat, streak_concat]
    cases c with
    | delayFor j =>
      by_cases hj : j = k
      · subst hj
        rw [act, count_delayFor_self, ih, if_neg (by simp), if_pos rfl]
        omega
      · rw [act, count_delayFor_of_ne _ (Ne.symm hj), ih, if_neg (by simp), if_neg (by simpa using hj)]
    | forget j =>
      by_cases hj : j = k
      · subst hj
        rw [act, count_forget_self, if_pos rfl, Nat.zero_min]
      · rw [act, count_forget_of_ne _ (Ne.symm hj), ih, if_neg (by simpa using hj), if_neg (by simp)]

/-! ## Delays -/

/-- The delay after a number of failures, in numbers of any size. -/
def law (base most : Duration) (failures : Nat) : Duration :=
  if failures < 32 then min (base * 2 ^ failures) most else most

lemma law_le (base most : Duration) (n : Nat) : law base most n ≤ most := by
  unfold law
  split
  · exact min_le_right _ _
  · exact le_rfl

lemma law_mono (base most : Duration) : Monotone (law base most) := by
  intro m n hmn
  unfold law
  by_cases hn : n < 32
  · rw [if_pos hn, if_pos (by omega)]
    have hpow : 2 ^ m ≤ 2 ^ n := Nat.pow_le_pow_right (by norm_num) hmn
    exact min_le_min_right most (Nat.mul_le_mul_left base hpow)
  · rw [if_neg hn]
    exact law_le base most m

omit [DecidableEq κ] in
/-- A product that is no span is more than the greatest delay, which is one. -/
lemma delayAfter_eq_law {b : Backoff κ} (hgreatest : b.greatest ≤ Duration.greatest) (n : Nat) :
    b.delayAfter n = law b.base b.greatest n := by
  unfold delayAfter law
  by_cases hn : n < 32
  · have hpower : powerOfTwo? n = some (2 ^ n) :=
      powerOfTwo?_eq_some_iff.mpr ⟨rfl, Nat.pow_lt_pow_right (by norm_num) hn⟩
    rw [hpower, Option.bind_some, Duration.scale?_eq, if_pos hn]
    by_cases hfits : b.base * 2 ^ n ≤ Duration.greatest
    · rw [if_pos hfits]
    · rw [if_neg hfits, min_eq_right (hgreatest.trans (not_le.mp hfits).le)]
  · have hpower : powerOfTwo? n = none := by rw [powerOfTwo?, if_neg hn]
    rw [hpower, Option.bind_none, if_neg hn]

/-- The delay that a key is given next. -/
lemma delayFor_after (hbase : base ≤ Duration.greatest) (hgreatest : greatest ≤ Duration.greatest)
    (calls : List (Call κ)) (k : κ) : ((after base greatest calls).delayFor k).1 =
      law base (max base greatest) (min (streak k calls) failureLimit) := by
  obtain ⟨hfirst, hmost⟩ := after_bounds base greatest calls
  have hspan : (after base greatest calls).greatest ≤ Duration.greatest := by
    rw [hmost]
    exact max_le hbase hgreatest
  rw [delayFor, delayAfter_eq_law hspan, count_after, hfirst, hmost]

/-- **The delays of a key, after any calls.** What is counted is the number `f` of delays since the key
was forgotten, and the next delay is the first one times two to the `f`, in numbers of any size, or the
greatest delay if that is less or there have been 32 failures. The one product that is not checked fits
its word. So a delay is never more than the greatest one, and never less than an earlier one of the same
streak; a key that is forgotten begins anew; and only calls about the key count. -/
theorem delays_follow_law (base greatest : Duration) (hbase : base ≤ Duration.greatest)
    (hgreatest : greatest ≤ Duration.greatest) (calls : List (Call κ)) (k : κ) :
    let b := after base greatest calls
    let alone := after base greatest (calls.filter (·.key = k))
    let f := min (streak k calls) 4294967295
    let most := max base greatest
    b.count k = f ∧
    (b.delayFor k).1 = (if f < 32 then min (base * 2 ^ f) most else most) ∧
    (∀ power, powerOfTwo? f = some power → base % 1000000000 * power < 2 ^ 64) ∧
    (b.delayFor k).1 ≤ most ∧
    (∀ later, .forget k ∉ later →
      (b.delayFor k).1 ≤ ((after base greatest (calls ++ later)).delayFor k).1) ∧
    ((b.forget k).delayFor k).1 = base ∧
    alone.count k = b.count k ∧ (alone.delayFor k).1 = (b.delayFor k).1 := by
  intro b alone f most
  have hdelay (l : List (Call κ)) := delayFor_after hbase hgreatest l k
  refine ⟨count_after base greatest calls k, hdelay calls, fun power hpower => ?_, ?_,
    fun later hlater => ?_, ?_, ?_, ?_⟩
  · exact Duration.rest_mul_lt base (powerOfTwo?_eq_some_iff.mp hpower).2
  · rw [hdelay calls]
    exact law_le base most _
  · rw [hdelay calls, hdelay (calls ++ later)]
    exact law_mono base most (min_le_min_right failureLimit (streak_le_append k calls hlater))
  · have hforget : b.forget k = after base greatest (calls ++ [.forget k]) :=
      (after_concat base greatest calls (.forget k)).symm
    rw [hforget, hdelay, streak_concat, if_pos rfl, Nat.zero_min, law, if_pos (by norm_num), pow_zero,
      mul_one]
    exact min_eq_left (le_max_left base greatest)
  · rw [count_after, count_after, streak_filter]
  · rw [hdelay, hdelay calls, streak_filter]

/-- Half of the greatest span, and no more failures than one: twice as much, for which a second has to
be carried over, is a span still. -/
theorem delays_follow_law_half :
    let half : Duration := 9223372036854775807999999999
    let calls : List (Call String) := [.delayFor "a", .delayFor "b", .forget "b"]
    ((after half Duration.greatest calls).delayFor "a").1 = Duration.greatest - 1 ∧
      ∀ later, .forget "a" ∉ later → Duration.greatest - 1 ≤
        ((after half Duration.greatest (calls ++ later)).delayFor "a").1 := by
  intro half calls
  have hnext : ((after half Duration.greatest calls).delayFor "a").1 = Duration.greatest - 1 := by
    decide +kernel
  have hlaw := delays_follow_law half Duration.greatest (by decide) le_rfl calls "a"
  refine ⟨hnext, fun later hlater => ?_⟩
  rw [← hnext]
  exact hlaw.2.2.2.2.1 later hlater

end Backoff

end ControlLoop
