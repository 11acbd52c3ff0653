import ControlLoop.Proofs.StoreHistory
import ControlLoop.Settings
import Mathlib.Data.List.TakeWhile
import Mathlib.Tactic

/-!
# Settings that say what the variables say

A variable that is set to more than blanks is either read or reported: there is no third way, in which a
default takes the place of a value that makes no sense. What a text says is stated apart from its reader:
trimming takes the blanks off both ends and no more, a number is a row of digits within its limit, and
a truth value is one of two words.
-/
namespace ControlLoop

/-! ## Texts -/

namespace Text

/-- The second text is the first one without the blanks at its ends. -/
def Trimmed (value text : String) : Prop :=
  ∃ front back : List Char, value.toList = front ++ text.toList ++ back ∧
    (∀ c ∈ front, isBlank c) ∧ (∀ c ∈ back, isBlank c) ∧
    (∀ c ∈ text.toList.head?, ¬ isBlank c) ∧ ∀ c ∈ text.toList.getLast?, ¬ isBlank c

lemma dropWhile_isBlank_append {blanks rest : List Char} (hblanks : ∀ c ∈ blanks, isBlank c)
    (hrest : ∀ c ∈ rest.head?, ¬ isBlank c) : (blanks ++ rest).dropWhile isBlank = rest := by
  rw [List.dropWhile_append_of_pos hblanks]
  cases rest with
  | nil => rfl
  | cons c rest => exact List.dropWhile_cons_of_neg (hrest c rfl)

lemma not_isBlank_of_head?_dropWhile {cs : List Char} {c : Char}
    (h : c ∈ (cs.dropWhile isBlank).head?) : ¬ isBlank c := by
  have hhead := List.head?_dropWhile_not isBlank cs
  rw [Option.mem_def.mp h] at hhead
  simpa using hhead

lemma trimmed_trim (value : String) : Trimmed value (trim value) := by
  set inner := value.toList.dropWhile isBlank with hinner
  have htrim : (trim value).toList = (inner.reverse.dropWhile isBlank).reverse := by
    rw [trim, String.toList_ofList, trimBlanks]
  have hback : inner = (trim value).toList ++ (inner.reverse.takeWhile isBlank).reverse := by
    rw [htrim, ← List.reverse_append, List.takeWhile_append_dropWhile, List.reverse_reverse]
  refine ⟨value.toList.takeWhile isBlank, (inner.reverse.takeWhile isBlank).reverse, ?_,
    fun c => List.mem_takeWhile_imp, ?_, ?_, ?_⟩
  · rw [List.append_assoc, ← hback, List.takeWhile_append_dropWhile]
  · intro c hc
    exact List.mem_takeWhile_imp (List.mem_reverse.mp hc)
  · -- The first character that is left is the first one of the text without the blanks in front.
    intro c hc
    have hfirst : c ∈ inner.head? := by
      rw [hback, List.head?_append, Option.mem_def.mp hc]
      rfl
    exact not_isBlank_of_head?_dropWhile (hinner ▸ hfirst)
  · intro c hc
    rw [htrim, List.getLast?_reverse] at hc
    exact not_isBlank_of_head?_dropWhile hc

lemma Trimmed.trim_eq {value text : String} (h : Trimmed value text) : trim value = text := by
  obtain ⟨front, back, hvalue, hfront, hback, hhead, hlast⟩ := h
  have hinner : ((value.toList.dropWhile isBlank).reverse.dropWhile isBlank).reverse = text.toList := by
    rw [hvalue, List.append_assoc, List.dropWhile_append_of_pos hfront]
    cases htext : text.toList with
    | nil =>
      have hnone : back.dropWhile isBlank = [] := List.dropWhile_eq_nil_iff.mpr hback
      rw [List.nil_append, hnone]
      rfl
    | cons c rest =>
      rw [htext] at hhead hlast
      have hkept : (c :: rest ++ back).dropWhile isBlank = c :: rest ++ back :=
        List.dropWhile_cons_of_neg (hhead c rfl)
      rw [hkept, List.reverse_append, dropWhile_isBlank_append, List.reverse_reverse]
      · exact fun c hc => hback c (List.mem_reverse.mp hc)
      · rw [List.head?_reverse]
        exact hlast
  rw [trim, trimBlanks, hinner, String.ofList_toList]

/-- The text is a row of digits, perhaps after a plus sign, and the number that it stands for is within
the limit. -/
def IsNumeral (limit : Nat) (text : String) (n : Nat) : Prop :=
  ∃ digits : List Char, digits ≠ [] ∧ (∀ c ∈ digits, c.isDigit) ∧
    (text.toList = digits ∨ text.toList = '+' :: digits) ∧ Nat.ofDigitChars 10 digits 0 = n ∧ n ≤ limit

lemma digit?_eq_some_iff {c : Char} {d : Nat} :
    digit? c = some d ↔ c.isDigit ∧ c.toNat - '0'.toNat = d := by
  have hrange : c.isDigit ↔ '0' ≤ c ∧ c ≤ '9' := by
    simp only [Char.isDigit, Bool.and_eq_true, decide_eq_true_eq]
    rfl
  rw [digit?, hrange]
  split
  next h => simp [h]
  next h => simp [h]

lemma le_ofDigitChars (digits : List Char) (value : Nat) : value ≤ Nat.ofDigitChars 10 digits value := by
  induction digits generalizing value with
  | nil => rfl
  | cons c digits ih =>
    rw [Nat.ofDigitChars_cons]
    have hnext := ih (10 * value + (c.toNat - '0'.toNat))
    omega

/-- The value of digits grows from left to right, so the limit is kept at every digit if it is kept in
the end. -/
lemma readDigits_eq_ok_iff {limit value n : Nat} {cs : List Char} (hvalue : value ≤ limit) :
    readDigits limit value cs = .ok n ↔
      (∀ c ∈ cs, c.isDigit) ∧ Nat.ofDigitChars 10 cs value = n ∧ n ≤ limit := by
  induction cs generalizing value with
  | nil =>
    simp only [readDigits, Except.ok.injEq, List.not_mem_nil, false_implies, implies_true, true_and,
      Nat.ofDigitChars_nil]
    exact ⟨fun h => ⟨h, h ▸ hvalue⟩, And.left⟩
  | cons c cs ih =>
    rw [readDigits, List.forall_mem_cons, Nat.ofDigitChars_cons]
    cases hd : digit? c with
    | none =>
      have hc : ¬ c.isDigit := fun hc => by simpa [hd] using digit?_eq_some_iff.mpr ⟨hc, rfl⟩
      simp [hc]
    | some d =>
      obtain ⟨hc, rfl⟩ := digit?_eq_some_iff.mp hd
      simp only [hc, true_and, Nat.mul_comm value 10]
      split
      next hnext => exact ih hnext
      next hnext =>
        have hgrow := le_ofDigitChars cs (10 * value + (c.toNat - '0'.toNat))
        refine ⟨fun h => (by cases h), ?_⟩
        rintro ⟨-, hn, hlimit⟩
        omega

lemma isNumeral_cons_plus {limit n : Nat} {text : String} {digits : List Char}
    (h : text.toList = '+' :: digits) : IsNumeral limit text n ↔
      digits ≠ [] ∧ (∀ c ∈ digits, c.isDigit) ∧ Nat.ofDigitChars 10 digits 0 = n ∧ n ≤ limit := by
  constructor
  · rintro ⟨cs, hne, hcs, htext | htext, hn⟩
    · have hplus : '+' ∈ cs := by rw [← htext, h]; exact List.mem_cons_self
      exact absurd (hcs '+' hplus) (by decide)
    · obtain rfl : digits = cs := (List.cons.inj (h.symm.trans htext)).2
      exact ⟨hne, hcs, hn⟩
  · rintro ⟨hne, hdigits, hn⟩
    exact ⟨digits, hne, hdigits, .inr h, hn⟩

lemma isNumeral_of_ne_plus {limit n : Nat} {text : String} (h : ∀ digits, text.toList ≠ '+' :: digits) :
    IsNumeral limit text n ↔ text.toList ≠ [] ∧ (∀ c ∈ text.toList, c.isDigit) ∧
      Nat.ofDigitChars 10 text.toList 0 = n ∧ n ≤ limit := by
  constructor
  · rintro ⟨cs, hne, hcs, rfl | htext, hn⟩
    · exact ⟨hne, hcs, hn⟩
    · exact absurd htext (h cs)
  · rintro ⟨hne, hcs, hn⟩
    exact ⟨text.toList, hne, hcs, .inl rfl, hn⟩

lemma readNat_eq_ok_iff {limit n : Nat} {text : String} :
    readNat limit text = .ok n ↔ IsNumeral limit text n := by
  unfold readNat
  split
  next h =>
    rw [isNumeral_of_ne_plus (by simp [h])]
    simp [h]
  next h =>
    rw [isNumeral_cons_plus h]
    simp
  next digits hne h =>
    rw [isNumeral_cons_plus h, readDigits_eq_ok_iff (Nat.zero_le limit)]
    exact (and_iff_right hne).symm
  next hne _ hplus =>
    rw [isNumeral_of_ne_plus hplus, readDigits_eq_ok_iff (Nat.zero_le limit)]
    exact (and_iff_right hne).symm

end Text

/-! ## Variables -/

namespace Settings

variable {lookup : Lookup} {name value : String} {e : SettingsError}

/-- The variable is missing, or set to blanks only. -/
def Unset (lookup : Lookup) (name : String) : Prop :=
  ∀ value, lookup name = some value → Text.blank value

/-- The variable is set to a value that is not blank. -/
def SetTo (lookup : Lookup) (name value : String) : Prop :=
  lookup name = some value ∧ ¬ Text.blank value

lemma value?_eq_none_iff : value? lookup name = none ↔ Unset lookup name := by
  simp [value?, Option.filter_eq_none_iff, Unset]

lemma value?_eq_some_iff : value? lookup name = some value ↔ SetTo lookup name value := by
  simp [value?, Option.filter_eq_some_iff, SetTo]

/-- A variable whose value has to be readable. -/
structure Checked where
  name : String
  {α : Type}
  reader : ValueReader α
  /-- What a text without blanks at its ends says. -/
  Means : String → α → Prop
  reads : ∀ text a, reader text = .ok a ↔ Means text a
  /-- What there is to say against a value that can be read. -/
  objection : α → Option SettingsError := fun _ => none

def number (name : String) : Checked where
  name := name
  reader := word64
  Means := Text.IsNumeral Text.word64Max
  reads text n := by
    rw [← Text.readNat_eq_ok_iff, word64]
    cases Text.readNat Text.word64Max text <;> simp

def socket (name : String) : Checked where
  name := name
  reader := address
  Means text a := SocketAddress.ofString? text = some a
  reads text a := by
    unfold address
    cases SocketAddress.ofString? text <;> simp

def truth (name : String) : Checked where
  name := name
  reader := boolean
  Means text b := text = if b then "true" else "false"
  reads text b := by
    rw [boolean]
    by_cases htrue : text = "true"
    · subst htrue
      cases b <;> simp
    · by_cases hfalse : text = "false"
      · subst hfalse
        cases b <;> simp
      · cases b <;> simp [htrue, hfalse]

/-- The number of workers, which may not be zero. -/
def workerCount : Checked :=
  { number "CONTROLLER_WORKERS" with
    objection := fun n : Nat => if n = 0 then some .noWorkers else none }

/-- The variables whose values have to be readable, in the order in which they are looked at. -/
def checked : List Checked :=
  [workerCount, number "RATE_LIMIT_BASE_MS", number "RATE_LIMIT_MAX_SECS",
    number "WATCH_RECONNECT_SECS", socket "METRICS_ADDR", socket "HEALTH_ADDR", socket "WEBHOOK_ADDR",
    truth "LEADER_ELECTION"]

/-- What is reported of a variable. -/
inductive Fault (lookup : Lookup) (c : Checked) : SettingsError → Prop
  | unreadable {value text : String} {reason : ValueError} (set : SetTo lookup c.name value)
      (trimmed : Text.Trimmed value text) (unread : c.reader text = .error reason) :
      Fault lookup c (.unreadable c.name value reason)
  | refused {value text : String} {a : c.α} {e : SettingsError} (set : SetTo lookup c.name value)
      (trimmed : Text.Trimmed value text) (means : c.Means text a) (objection : c.objection a = some e) :
      Fault lookup c e

/-- The error is reported of one of the variables, and nothing of those before it. -/
def FirstFault (lookup : Lookup) (cs : List Checked) (e : SettingsError) : Prop :=
  ∃ before c after, cs = before ++ c :: after ∧ Fault lookup c e ∧ ∀ d ∈ before, ∀ e, ¬ Fault lookup d e

/-- The setting is what the variable says, or the default if the variable is unset. -/
def Follows {β : Type} (lookup : Lookup) (c : Checked) (make : c.α → β) (default setting : β) : Prop :=
  (Unset lookup c.name ∧ setting = default) ∨
    ∃ value text a, SetTo lookup c.name value ∧ Text.Trimmed value text ∧ c.Means text a ∧
      setting = make a

/-! ## Looking at one variable -/

/-- The reading of a variable, unless there is something to report of it. -/
def check (lookup : Lookup) (c : Checked) : Except SettingsError (Option c.α) :=
  (read? lookup c.name c.reader).bind fun o => (o.bind c.objection).elim (.ok o) .error

variable {c : Checked}

lemma check_of_unset (h : Unset lookup c.name) : check lookup c = .ok none := by
  simp [check, read?, value?_eq_none_iff.mpr h, Except.bind]

lemma check_of_error (hset : SetTo lookup c.name value) {reason : ValueError}
    (hread : c.reader (Text.trim value) = .error reason) :
    check lookup c = .error (.unreadable c.name value reason) := by
  simp [check, read?, value?_eq_some_iff.mpr hset, hread, Except.bind]

lemma check_of_means (hset : SetTo lookup c.name value) {a : c.α} (hmeans : c.Means (Text.trim value) a) :
    check lookup c = (c.objection a).elim (.ok (some a)) .error := by
  have hread : c.reader (Text.trim value) = .ok a := (c.reads _ a).mpr hmeans
  cases hobjection : c.objection a <;>
    simp [check, read?, value?_eq_some_iff.mpr hset, hread, hobjection, Except.bind]

lemma unset_or_setTo (lookup : Lookup) (name : String) :
    Unset lookup name ∨ ∃ value, SetTo lookup name value := by
  cases hvalue : value? lookup name with
  | none => exact .inl (value?_eq_none_iff.mp hvalue)
  | some value => exact .inr ⟨value, value?_eq_some_iff.mp hvalue⟩

/-- Looking at a variable fails exactly with what is reported of it. -/
lemma check_eq_error_iff : check lookup c = .error e ↔ Fault lookup c e := by
  constructor
  · intro h
    obtain hunset | ⟨value, hset⟩ := unset_or_setTo lookup c.name
    · rw [check_of_unset hunset] at h
      cases h
    · have htrim := Text.trimmed_trim value
      cases hread : c.reader (Text.trim value) with
      | error reason =>
        rw [check_of_error hset hread] at h
        cases h
        exact .unreadable hset htrim hread
      | ok a =>
        have hmeans := (c.reads _ a).mp hread
        rw [check_of_means hset hmeans] at h
        cases hobjection : c.objection a with
        | none => rw [hobjection] at h; cases h
        | some e' =>
          rw [hobjection] at h
          cases h
          exact .refused hset htrim hmeans hobjection
  · intro h
    cases h with
    | unreadable hset htrim hread =>
      obtain rfl := htrim.trim_eq
      exact check_of_error hset hread
    | refused hset htrim hmeans hobjection =>
      obtain rfl := htrim.trim_eq
      rw [check_of_means hset hmeans, hobjection]
      rfl

/-- And what it gives is what the variable says. -/
lemma follows_of_check {o : Option c.α} (h : check lookup c = .ok o) {β : Type} (make : c.α → β)
    (default : β) : Follows lookup c make default ((o.map make).getD default) := by
  obtain hunset | ⟨value, hset⟩ := unset_or_setTo lookup c.name
  · rw [check_of_unset hunset] at h
    obtain rfl := Except.ok.inj h
    exact .inl ⟨hunset, rfl⟩
  · cases hread : c.reader (Text.trim value) with
    | error reason => rw [check_of_error hset hread] at h; cases h
    | ok a =>
      have hmeans := (c.reads _ a).mp hread
      rw [check_of_means hset hmeans] at h
      cases hobjection : c.objection a with
      | some e => rw [hobjection] at h; cases h
      | none =>
        rw [hobjection] at h
        obtain rfl := Except.ok.inj h
        exact .inr ⟨value, Text.trim value, a, hset, Text.trimmed_trim value, hmeans, rfl⟩

lemma follows_id_of_check {o : Option c.α} (h : check lookup c = .ok o) (default : c.α) :
    Follows lookup c id default (o.getD default) := by
  have hfollows := follows_of_check h id default
  cases o <;> exact hfollows

/-- A variable that nothing can be said against once it is read. -/
lemma check_eq_read? (h : c.objection = fun _ => none) :
    check lookup c = read? lookup c.name c.reader := by
  rw [check, h]
  cases read? lookup c.name c.reader with
  | error e => rfl
  | ok o => cases o <;> rfl

/-! ## Looking at all of them -/

/-- Settings are loaded by looking at the variables one after the other. -/
lemma load_eq (lookup : Lookup) : load lookup = do
    let workers : Option Nat ← check lookup workerCount
    let base ← check lookup (number "RATE_LIMIT_BASE_MS")
    let max ← check lookup (number "RATE_LIMIT_MAX_SECS")
    let reconnect ← check lookup (number "WATCH_RECONNECT_SECS")
    let metrics ← check lookup (socket "METRICS_ADDR")
    let health ← check lookup (socket "HEALTH_ADDR")
    let webhook ← check lookup (socket "WEBHOOK_ADDR")
    let enabled ← check lookup (truth "LEADER_ELECTION")
    return {
      watchNamespace := value? lookup "WATCH_NAMESPACE"
      workers := workers.getD 2
      rateLimitBase := (base.map Duration.ofMillis).getD (.ofMillis 5)
      rateLimitMax := (max.map Duration.ofSeconds).getD (.ofSeconds 1000)
      watchReconnect := (reconnect.map Duration.ofSeconds).getD (.ofSeconds 5)
      metricsAddress := metrics.getD (.v4 [0, 0, 0, 0] 8080)
      healthAddress := health.getD (.v4 [0, 0, 0, 0] 8081)
      webhookAddress := webhook
      eventReporter := (value? lookup "EVENT_REPORTER").getD "keel"
      leaderElection := {
        enabled := enabled.getD false
        lease := (value? lookup "LEADER_ELECTION_LEASE").getD "keel-leader"
        ns := (value? lookup "LEADER_ELECTION_NAMESPACE").getD "default" } } := by
  have hnumber (name : String) : check lookup (number name) = read? lookup name word64 :=
    check_eq_read? rfl
  have hsocket (name : String) : check lookup (socket name) = read? lookup name address :=
    check_eq_read? rfl
  have htruth (name : String) : check lookup (truth name) = read? lookup name boolean :=
    check_eq_read? rfl
  have hworkers : check lookup workerCount = (read? lookup "CONTROLLER_WORKERS" word64).bind
      fun o => (o.bind fun n => if n = 0 then some .noWorkers else none).elim (.ok o) .error := rfl
  simp only [load, read, bind_assoc, pure_bind, hnumber, hsocket, htruth, hworkers]
  cases read? lookup "CONTROLLER_WORKERS" word64 with
  | error e => rfl
  | ok o =>
    cases o with
    | none => rfl
    | some n => cases n <;> rfl

lemma not_firstFault_nil : ¬ FirstFault lookup [] e := by
  rintro ⟨before, c, after, hcs, -⟩
  simp at hcs

lemma firstFault_cons {cs : List Checked} : FirstFault lookup (c :: cs) e ↔
    Fault lookup c e ∨ (∀ e, ¬ Fault lookup c e) ∧ FirstFault lookup cs e := by
  constructor
  · rintro ⟨before, d, after, hcs, hfault, hbefore⟩
    cases before with
    | nil =>
      obtain ⟨rfl, -⟩ := List.cons.inj hcs
      exact .inl hfault
    | cons b before =>
      obtain ⟨rfl, rfl⟩ := List.cons.inj hcs
      obtain ⟨hc, hbefore⟩ := List.forall_mem_cons.mp hbefore
      exact .inr ⟨hc, before, d, after, rfl, hfault, hbefore⟩
  · rintro (hfault | ⟨hc, before, d, after, rfl, hfault, hbefore⟩)
    · exact ⟨[], c, cs, rfl, hfault, by simp⟩
    · exact ⟨c :: before, d, after, rfl, hfault, List.forall_mem_cons.mpr ⟨hc, hbefore⟩⟩

/-- If looking at a variable is the first thing to be done, what is reported of it comes first. -/
lemma bind_check_eq_error_iff {α : Type} {cs : List Checked} {next : Option c.α → Except SettingsError α}
    (hnext : ∀ o, next o = .error e ↔ FirstFault lookup cs e) :
    (check lookup c >>= next) = .error e ↔ FirstFault lookup (c :: cs) e := by
  rw [firstFault_cons]
  cases hcheck : check lookup c with
  | error e' =>
    have hfault : Fault lookup c e' := check_eq_error_iff.mp hcheck
    simp only [← check_eq_error_iff, hcheck, bind, Except.bind, Except.error.injEq]
    simp
  | ok o =>
    simp only [← check_eq_error_iff, hcheck, bind, Except.bind, hnext]
    simp

lemma exists_firstFault_iff {cs : List Checked} :
    (∃ e, FirstFault lookup cs e) ↔ ∃ c ∈ cs, ∃ e, Fault lookup c e := by
  induction cs with
  | nil => simp [not_firstFault_nil]
  | cons c cs ih =>
    rw [List.exists_mem_cons_iff, ← ih]
    by_cases hfault : ∃ e, Fault lookup c e
    · obtain ⟨e, he⟩ := hfault
      exact ⟨fun _ => .inl ⟨e, he⟩, fun _ => ⟨e, firstFault_cons.mpr (.inl he)⟩⟩
    · have hnone := not_exists.mp hfault
      simp [firstFault_cons, hnone]

/-- There is something to report of a variable if its text means nothing, or if there is something to say
against what it means. -/
lemma exists_fault_iff : (∃ e, Fault lookup c e) ↔
    ∃ value text, SetTo lookup c.name value ∧ Text.Trimmed value text ∧
      ((∀ a, ¬ c.Means text a) ∨ ∃ a, c.Means text a ∧ (c.objection a).isSome) := by
  constructor
  · rintro ⟨e, hfault⟩
    cases hfault with
    | @unreadable value text reason hset htrim hread =>
      refine ⟨value, text, hset, htrim, .inl fun a hmeans => ?_⟩
      rw [(c.reads text a).mpr hmeans] at hread
      cases hread
    | @refused value text a _ hset htrim hmeans hobjection =>
      exact ⟨value, text, hset, htrim, .inr ⟨a, hmeans, by simp [hobjection]⟩⟩
  · rintro ⟨value, text, hset, htrim, hnone | ⟨a, hmeans, hobjection⟩⟩
    · cases hread : c.reader text with
      | error reason => exact ⟨_, .unreadable hset htrim hread⟩
      | ok a => exact absurd ((c.reads text a).mp hread) (hnone a)
    · obtain ⟨e, he⟩ := Option.isSome_iff_exists.mp hobjection
      exact ⟨e, .refused hset htrim hmeans he⟩

/-- Only a number of workers can be read and refused, and then it is zero. -/
lemma zero_of_objection (hc : c ∈ checked) {a : c.α} (h : (c.objection a).isSome) {text : String}
    (hmeans : c.Means text a) :
    c.name = "CONTROLLER_WORKERS" ∧ Text.IsNumeral Text.word64Max text 0 := by
  simp only [checked, List.mem_cons, List.not_mem_nil, or_false] at hc
  rcases hc with rfl | rfl | rfl | rfl | rfl | rfl | rfl | rfl
  · by_cases ha : a = (0 : Nat)
    · exact ⟨rfl, ha ▸ hmeans⟩
    · have hnone : workerCount.objection a = none := if_neg ha
      simp [hnone] at h
  all_goals cases h

/-- A number of workers that is taken is not zero. -/
lemma pos_of_check {o : Option Nat} (h : check lookup workerCount = .ok o) : 1 ≤ o.getD 2 := by
  obtain ⟨r, -, hr⟩ := Store.bind_eq_ok h
  rcases r with _ | n
  · obtain rfl : none = o := Except.ok.inj hr
    decide
  · by_cases hn : n = (0 : Nat)
    · subst hn
      cases hr
    · have hnone : workerCount.objection n = none := if_neg hn
      rw [Option.bind_some, hnone] at hr
      obtain rfl : some n = o := Except.ok.inj hr
      exact Nat.one_le_iff_ne_zero.mpr hn

/-- Two sources of values agree about a variable, where blank values and missing ones are alike. -/
def Agree (lookup lookup' : Lookup) (name : String) : Prop :=
  lookup name = lookup' name ∨ Unset lookup name ∧ Unset lookup' name

lemma Agree.value?_eq {lookup' : Lookup} (h : Agree lookup lookup' name) :
    value? lookup name = value? lookup' name := by
  rcases h with h | ⟨h, h'⟩
  · rw [value?, value?, h]
  · rw [value?_eq_none_iff.mpr h, value?_eq_none_iff.mpr h']

lemma check_congr {lookup' : Lookup} (h : Agree lookup lookup' c.name) :
    check lookup c = check lookup' c := by
  rw [check, check, read?, read?, h.value?_eq]

lemma load_eq_error_iff : load lookup = .error e ↔ FirstFault lookup checked e := by
  rw [load_eq]
  refine bind_check_eq_error_iff fun _ => bind_check_eq_error_iff fun _ =>
    bind_check_eq_error_iff fun _ => bind_check_eq_error_iff fun _ =>
    bind_check_eq_error_iff fun _ => bind_check_eq_error_iff fun _ =>
    bind_check_eq_error_iff fun _ => bind_check_eq_error_iff fun _ => ?_
  exact iff_of_false (fun h => by cases h) not_firstFault_nil

lemma exists_load_eq_error_iff : (∃ e, load lookup = .error e) ↔
    (∃ c ∈ checked, ∃ value text, SetTo lookup c.name value ∧ Text.Trimmed value text ∧
      ∀ a, ¬ c.Means text a) ∨
    ∃ value text, SetTo lookup "CONTROLLER_WORKERS" value ∧ Text.Trimmed value text ∧
      Text.IsNumeral Text.word64Max text 0 := by
  rw [exists_congr fun _ => load_eq_error_iff, exists_firstFault_iff]
  constructor
  · rintro ⟨c, hc, hfault⟩
    obtain ⟨value, text, hset, htrim, hnone | ⟨a, hmeans, hobjection⟩⟩ := exists_fault_iff.mp hfault
    · exact .inl ⟨c, hc, value, text, hset, htrim, hnone⟩
    · obtain ⟨hname, hzero⟩ := zero_of_objection hc hobjection hmeans
      exact .inr ⟨value, text, hname ▸ hset, htrim, hzero⟩
  · rintro (⟨c, hc, value, text, hset, htrim, hnone⟩ | ⟨value, text, hset, htrim, hzero⟩)
    · exact ⟨c, hc, exists_fault_iff.mpr ⟨value, text, hset, htrim, .inl hnone⟩⟩
    · exact ⟨workerCount, List.mem_cons_self,
        exists_fault_iff.mpr ⟨value, text, hset, htrim, .inr ⟨(0 : Nat), hzero, rfl⟩⟩⟩

lemma load_congr {lookup' : Lookup} (h : ∀ name ∈ names, Agree lookup lookup' name) :
    load lookup' = load lookup := by
  have hcheck (c : Checked) (hc : c.name ∈ names) : check lookup' c = check lookup c :=
    (check_congr (h c.name hc)).symm
  have hvalue (name : String) (hname : name ∈ names) : value? lookup' name = value? lookup name :=
    (h name hname).value?_eq.symm
  rw [load_eq, load_eq, hcheck workerCount (by decide), hcheck (number "RATE_LIMIT_BASE_MS") (by decide),
    hcheck (number "RATE_LIMIT_MAX_SECS") (by decide), hcheck (number "WATCH_RECONNECT_SECS") (by decide),
    hcheck (socket "METRICS_ADDR") (by decide), hcheck (socket "HEALTH_ADDR") (by decide),
    hcheck (socket "WEBHOOK_ADDR") (by decide), hcheck (truth "LEADER_ELECTION") (by decide),
    hvalue "WATCH_NAMESPACE" (by decide), hvalue "EVENT_REPORTER" (by decide),
    hvalue "LEADER_ELECTION_LEASE" (by decide), hvalue "LEADER_ELECTION_NAMESPACE" (by decide)]

/-- Loading settings fails exactly if one of eight variables is set to more than blanks and its text without
the blanks at its ends is none that its reader understands, or the number of workers is zero; and the
error is that of the first such variable. Where it succeeds, each of the settings is what its variable
says, or the default if that is unset. Nothing but the twelve variables matters, and of those a blank
value no more than a missing one. -/
theorem load_never_falls_back (lookup : Lookup) :
    ((∃ e, load lookup = .error e) ↔
      (∃ c ∈ checked, ∃ value text, SetTo lookup c.name value ∧ Text.Trimmed value text ∧
        ∀ a, ¬ c.Means text a) ∨
      ∃ value text, SetTo lookup "CONTROLLER_WORKERS" value ∧ Text.Trimmed value text ∧
        Text.IsNumeral Text.word64Max text 0) ∧
    (∀ e, load lookup = .error e ↔ FirstFault lookup checked e) ∧
    (∀ s, load lookup = .ok s →
      Follows lookup workerCount id (2 : Nat) s.workers ∧ 1 ≤ s.workers ∧
      Follows lookup (number "RATE_LIMIT_BASE_MS") Duration.ofMillis (.ofMillis 5) s.rateLimitBase ∧
      Follows lookup (number "RATE_LIMIT_MAX_SECS") Duration.ofSeconds (.ofSeconds 1000)
        s.rateLimitMax ∧
      Follows lookup (number "WATCH_RECONNECT_SECS") Duration.ofSeconds (.ofSeconds 5)
        s.watchReconnect ∧
      Follows lookup (socket "METRICS_ADDR") id (.v4 [0, 0, 0, 0] 8080) s.metricsAddress ∧
      Follows lookup (socket "HEALTH_ADDR") id (.v4 [0, 0, 0, 0] 8081) s.healthAddress ∧
      Follows lookup (socket "WEBHOOK_ADDR") some none s.webhookAddress ∧
      Follows lookup (truth "LEADER_ELECTION") id false s.leaderElection.enabled) ∧
    ∀ lookup', (∀ name ∈ names, Agree lookup lookup' name) → load lookup' = load lookup := by
  refine ⟨exists_load_eq_error_iff, fun _ => load_eq_error_iff, fun s hs => ?_,
    fun lookup' => load_congr⟩
  rw [load_eq] at hs
  obtain ⟨workers, hworkers, hs⟩ := Store.bind_eq_ok hs
  obtain ⟨base, hbase, hs⟩ := Store.bind_eq_ok hs
  obtain ⟨max, hmax, hs⟩ := Store.bind_eq_ok hs
  obtain ⟨reconnect, hreconnect, hs⟩ := Store.bind_eq_ok hs
  obtain ⟨metrics, hmetrics, hs⟩ := Store.bind_eq_ok hs
  obtain ⟨health, hhealth, hs⟩ := Store.bind_eq_ok hs
  obtain ⟨webhook, hwebhook, hs⟩ := Store.bind_eq_ok hs
  obtain ⟨enabled, henabled, hs⟩ := Store.bind_eq_ok hs
  obtain rfl := Except.ok.inj hs
  have haddress : Follows lookup (socket "WEBHOOK_ADDR") some none webhook := by
    have hfollows := follows_of_check hwebhook some none
    cases webhook <;> exact hfollows
  exact ⟨follows_id_of_check hworkers _, pos_of_check hworkers, follows_of_check hbase _ _,
    follows_of_check hmax _ _, follows_of_check hreconnect _ _, follows_id_of_check hmetrics _,
    follows_id_of_check hhealth _, haddress, follows_id_of_check henabled _⟩

/-- Three workers, with blanks around the number; a blank address; and two values that cannot be read. -/
def twoUnreadable : Lookup := fun name =>
  if name = "CONTROLLER_WORKERS" then some " +3 "
  else if name = "METRICS_ADDR" then some "\t"
  else if name = "WATCH_RECONNECT_SECS" then some "soon"
  else if name = "LEADER_ELECTION" then some "maybe"
  else none

theorem load_never_falls_back_soon :
    load twoUnreadable = .error (.unreadable "WATCH_RECONNECT_SECS" "soon" (.integer .invalidDigit)) ∧
    FirstFault twoUnreadable checked
      (.unreadable "WATCH_RECONNECT_SECS" "soon" (.integer .invalidDigit)) ∧
    load (fun name => if name = "METRICS_ADDR" ∨ name = "HOME" then none else twoUnreadable name) =
      load twoUnreadable := by
  have hload : load twoUnreadable =
      .error (.unreadable "WATCH_RECONNECT_SECS" "soon" (.integer .invalidDigit)) := by rfl
  obtain ⟨-, hfirst, -, hother⟩ := load_never_falls_back twoUnreadable
  refine ⟨hload, (hfirst _).mp hload, hother _ fun name hname => ?_⟩
  by_cases hmetrics : name = "METRICS_ADDR"
  · subst hmetrics
    refine .inr ⟨fun value hvalue => ?_, fun value hvalue => ?_⟩
    · obtain rfl := Option.some.inj hvalue
      decide
    · cases hvalue
  · have hhome : name ≠ "HOME" := fun h => by subst h; revert hname; decide
    exact .inl (by simp [hmetrics, hhome])

end Settings

end ControlLoop
