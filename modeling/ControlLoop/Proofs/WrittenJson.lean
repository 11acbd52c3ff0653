import ControlLoop.Json.Document
import ControlLoop.Json.Printer
import ControlLoop.Proofs.SortedJson
import ControlLoop.Proofs.StoreHistory

/-!
# Text of JSON values

The text that a value is written as is read as the value, whatever decoder goes through it, if its
numbers are integers that fit a word of 64 bits and it does not nest too deep. Of a value that does, a
reader finds everything but the parts that lie too deep. A reader finds the end of each part by passing
over it, so what is passed over and what is read are shown to end at one place.
-/
namespace ControlLoop.Json

open Text (Characters)

/-! ## Strings -/

lemma hexDigit?_digitChar : ∀ d < 16, hexDigit? (some d.digitChar) = some d := by decide

/-- The number of a control character in four hexadecimal digits. -/
lemma toList_hex_control {n : Nat} (h : n < 0x20) :
    (Text.hex 4 n).toList = ['0', '0', (n / 16).digitChar, (n % 16).digitChar] := by
  have hdigits : ∀ n < 0x20, List.replicate (4 - (Nat.toDigits 16 n).length) '0' ++
      Nat.toDigits 16 n = ['0', '0', (n / 16).digitChar, (n % 16).digitChar] := by decide
  rw [Text.hex, String.toList_ofList, hdigits n h]

lemma readUnit_control {n : Nat} (h : n < 0x20) (rest : Characters) :
    readUnit ((Text.hex 4 n).toList.map some ++ rest) = .ok (n, rest) := by
  rw [toList_hex_control h]
  simp only [List.map_cons, List.map_nil, List.cons_append, List.nil_append, readUnit,
    hexDigit?_digitChar (n / 16) (by omega), hexDigit?_digitChar (n % 16) (by omega)]
  have hzero : hexDigit? (some '0') = some 0 := by decide
  simp only [hzero, Except.ok.injEq, Prod.mk.injEq, and_true]
  omega

/-- A character is written as an escape that is read as the character, or as it is. -/
lemma escapedChar_cases (c : Char) :
    (∃ l, escapedChar c = '\\' :: l ∧ ∀ rest, readEscape (l.map some ++ rest) = .ok (c, rest) ∧
      skipEscape (l.map some ++ rest) = .ok rest) ∨
    (escapedChar c = [c] ∧ c ≠ '"' ∧ c ≠ '\\' ∧ isControl (some c) = false) := by
  unfold escapedChar
  split
  case h_8 hquote hbackslash _ _ _ _ _ =>
    split
    next hcontrol =>
      refine .inl ⟨'u' :: (Text.hex 4 c.toNat).toList, rfl, fun rest => ⟨?_, ?_⟩⟩
      · simp only [List.map_cons, List.cons_append, readEscape, readUnit_control hcontrol]
        rw [if_neg (by omega), if_neg (by omega), Char.ofNat_toNat]
      · simp only [List.map_cons, List.cons_append, skipEscape, readUnit_control hcontrol]
        rfl
    next hplain =>
      exact .inr ⟨rfl, hquote, hbackslash, by simpa [isControl] using hplain⟩
  all_goals exact .inl ⟨_, rfl, fun rest => ⟨rfl, rfl⟩⟩

lemma readChars_escapedChar (limit : Nat) (done : Characters) (c : Char) (rest : Characters) :
    readChars (limit + 1) done ((escapedChar c).map some ++ rest) =
      readChars limit (some c :: done) rest := by
  obtain ⟨l, hl, hescape⟩ | ⟨hself, hquote, hbackslash, hallowed⟩ := escapedChar_cases c
  · rw [hl, List.map_cons, List.cons_append, readChars]
    simp only [(hescape rest).1]
  · rw [hself, List.map_cons, List.map_nil, List.cons_append, List.nil_append, readChars, if_neg]
    · simp [hallowed]
    · simpa using hquote
    · simpa using hbackslash

lemma skipChars_escapedChar (limit : Nat) (c : Char) (rest : Characters) :
    skipChars (limit + 1) ((escapedChar c).map some ++ rest) = skipChars limit rest := by
  obtain ⟨l, hl, hescape⟩ | ⟨hself, hquote, hbackslash, hallowed⟩ := escapedChar_cases c
  · rw [hl, List.map_cons, List.cons_append, skipChars]
    simp only [(hescape rest).2]
  · rw [hself, List.map_cons, List.map_nil, List.cons_append, List.nil_append, skipChars, if_neg]
    · simp [hallowed]
    · simpa using hquote
    · simpa using hbackslash

/-- The characters of a string and its closing quote. -/
def stringTail (s : String) : List Char := s.toList.flatMap escapedChar ++ ['"']

lemma stringChars_eq (s : String) : stringChars s = '"' :: stringTail s := rfl

lemma readChars_text (l : List Char) (limit : Nat) (hlimit : l.length < limit)
    (done rest : Characters) :
    readChars limit done ((l.flatMap escapedChar ++ ['"']).map some ++ rest) =
      .ok (done.reverse ++ l.map some, rest) := by
  induction l generalizing limit done with
  | nil =>
    obtain ⟨limit, rfl⟩ : ∃ n, limit = n + 1 := ⟨limit - 1, by simp at hlimit; omega⟩
    simp [readChars]
  | cons c l ih =>
    obtain ⟨limit, rfl⟩ : ∃ n, limit = n + 1 := ⟨limit - 1, by simp at hlimit; omega⟩
    have hrest := ih limit (by simpa using hlimit) (some c :: done)
    rw [List.flatMap_cons, List.append_assoc, List.map_append, List.append_assoc,
      readChars_escapedChar, hrest]
    simp

lemma skipChars_text (l : List Char) (limit : Nat) (hlimit : l.length < limit) (rest : Characters) :
    skipChars limit ((l.flatMap escapedChar ++ ['"']).map some ++ rest) = .ok rest := by
  induction l generalizing limit with
  | nil =>
    obtain ⟨limit, rfl⟩ : ∃ n, limit = n + 1 := ⟨limit - 1, by simp at hlimit; omega⟩
    simp [skipChars]
  | cons c l ih =>
    obtain ⟨limit, rfl⟩ : ∃ n, limit = n + 1 := ⟨limit - 1, by simp at hlimit; omega⟩
    have hrest := ih limit (by simpa using hlimit)
    rw [List.flatMap_cons, List.append_assoc, List.map_append, List.append_assoc,
      skipChars_escapedChar, hrest]

lemma length_lt_stringTail (s : String) : s.toList.length < (stringTail s).length := by
  have hpos (c : Char) : 1 ≤ (escapedChar c).length := by
    obtain ⟨l, hl, -⟩ | ⟨hself, -⟩ := escapedChar_cases c
    · simp [hl]
    · simp [hself]
  rw [stringTail, List.length_append, List.length_flatMap, List.length_singleton, Nat.lt_succ_iff]
  simpa using List.length_le_sum_of_one_le (s.toList.map fun c => (escapedChar c).length)
    (by simpa using fun c _ => hpos c)

lemma text?_map_some (l : List Char) : Characters.text? (l.map some) = some (String.ofList l) := by
  have hmapM : (l.map some).mapM id = some l := by
    induction l with
    | nil => rfl
    | cons c l ih => simp [ih]
  rw [Characters.text?, hmapM, Option.map_some]

lemma readString_stringTail (s : String) (rest : Characters) :
    readString ((stringTail s).map some ++ rest) = .ok (s, rest) := by
  have hlength := length_lt_stringTail s
  have hread := readChars_text s.toList
    (((stringTail s).map some ++ rest).length + 1) (by simp; omega) [] rest
  rw [← stringTail] at hread
  simp only [readString, hread, List.reverse_nil, List.nil_append, text?_map_some,
    String.ofList_toList]

lemma skipString_stringTail (s : String) (rest : Characters) :
    skipString ((stringTail s).map some ++ rest) = .ok rest := by
  have hlength := length_lt_stringTail s
  exact skipChars_text s.toList _ (by simp; omega) rest

/-! ## Integers -/

/-- What may follow a value: the end, a comma or a close. -/
def Follows (rest : Characters) : Prop :=
  ∀ c ∈ rest.head?, c = some ',' ∨ c = some ']' ∨ c = some '\x7d'

lemma Follows.takeDigits {rest : Characters} (h : Follows rest) : takeDigits rest = ([], rest) := by
  cases rest with
  | nil => rfl
  | cons c rest => rcases h c rfl with rfl | rfl | rfl <;> rfl

/-- After a whole part there are neither decimals nor an exponent. -/
lemma Follows.fraction {rest : Characters} (h : Follows rest) : readFraction rest = .ok (none, rest) ∧
    skipFraction rest = .ok rest ∧ readExponent rest = .ok (none, rest) ∧
    skipExponent rest = .ok rest := by
  cases rest with
  | nil => exact ⟨rfl, rfl, rfl, rfl⟩
  | cons c rest => rcases h c rfl with rfl | rfl | rfl <;> exact ⟨rfl, rfl, rfl, rfl⟩

/-- The values of the digits of a number. -/
def places (n : Nat) : List Nat := (Nat.toDigits 10 n).map fun c => c.toNat - '0'.toNat

lemma isDigit_of_toDigits {n : Nat} {c : Char} (h : c ∈ Nat.toDigits 10 n) : c.isDigit = true :=
  Nat.isDigit_of_mem_toDigits (by decide) (by decide) h

lemma exists_toDigits (n : Nat) : ∃ c l, Nat.toDigits 10 n = c :: l ∧ c.isDigit = true := by
  obtain ⟨c, l, hl⟩ := List.exists_cons_of_ne_nil (Nat.toDigits_ne_nil (b := 10) (n := n))
  exact ⟨c, l, hl, isDigit_of_toDigits (hl ▸ List.mem_cons_self)⟩

lemma ne_of_isDigit {c : Char} (hc : c.isDigit = true) (d : Char) (hd : d.isDigit = false) :
    c ≠ d := by
  rintro rfl
  simp [hc] at hd

lemma digit?_isSome {c : Char} (h : c.isDigit = true) : (digit? (some c)).isSome = true := by
  simp [digit?, Text.digit?_eq h]

lemma takeDigits_toDigits (n : Nat) {rest : Characters} (hrest : Follows rest) :
    takeDigits ((Nat.toDigits 10 n).map some ++ rest) = (places n, rest) := by
  have hdigits (l : List Char) (hl : ∀ c ∈ l, c.isDigit = true) :
      Json.takeDigits (l.map some ++ rest) = (l.map fun c => c.toNat - '0'.toNat, rest) := by
    induction l with
    | nil => exact hrest.takeDigits
    | cons c l ih =>
      obtain ⟨hc, hl⟩ := List.forall_mem_cons.mp hl
      have hdigit : digit? (some c) = some (c.toNat - '0'.toNat) := Text.digit?_eq hc
      simp only [List.map_cons, List.cons_append, Json.takeDigits, hdigit, ih hl]
  exact hdigits _ fun c hc => isDigit_of_toDigits hc

/-- A number that is not zero has no zero in front. -/
lemma exists_places {n : Nat} (h : 0 < n) : ∃ d l, places n = d :: l ∧ 0 < d := by
  induction n using Nat.strongRecOn with
  | ind n ih =>
    rcases Nat.lt_or_ge n 10 with hsmall | hlarge
    · refine ⟨n, [], ?_, h⟩
      rw [places, Nat.toDigits_of_lt_base hsmall, List.map_singleton]
      interval_cases n <;> rfl
    · obtain ⟨d, l, hl, hd⟩ := ih (n / 10) (by omega) (by omega)
      refine ⟨d, l ++ [(n % 10).digitChar.toNat - '0'.toNat], ?_, hd⟩
      rw [places] at hl
      rw [places, Nat.toDigits_of_base_le (by decide) hlarge, List.map_append, hl]
      rfl

lemma packWhole_places (n : Nat) (h : n ≤ Text.word64Max) : packWhole 0 (places n) = (n, 0) := by
  have hpack (l : List Char) (value : Nat) (h : Nat.ofDigitChars 10 l value ≤ Text.word64Max) :
      packWhole value (l.map fun c => c.toNat - '0'.toNat) = (Nat.ofDigitChars 10 l value, 0) := by
    induction l generalizing value with
    | nil => rfl
    | cons c l ih =>
      rw [Nat.ofDigitChars_cons, Nat.mul_comm 10 value] at h ⊢
      have hgrow := @Nat.ofDigitChars_eq_ofDigitChars_zero l (value * 10 + (c.toNat - '0'.toNat))
      have hle : value * 10 + (c.toNat - '0'.toNat) ≤
          10 ^ l.length * (value * 10 + (c.toNat - '0'.toNat)) :=
        Nat.le_mul_of_pos_left _ (Nat.pow_pos (by decide))
      rw [List.map_cons, packWhole, if_pos (by omega), ih _ h]
  have hvalue := Nat.ofDigitChars_ten_toDigits (n := n)
  rw [places, hpack _ _ (hvalue.symm ▸ h), hvalue]

lemma readWhole_toDigits (n : Nat) {rest : Characters} (hrest : Follows rest) :
    readWhole ((Nat.toDigits 10 n).map some ++ rest) = .ok (places n, rest) ∧
      skipWhole ((Nat.toDigits 10 n).map some ++ rest) = .ok rest := by
  rcases Nat.eq_zero_or_pos n with rfl | hpos
  · have hzero : places 0 = [0] := rfl
    constructor <;>
      simp only [readWhole, readDigits, skipWhole, takeDigits_toDigits 0 hrest, hzero]
  · obtain ⟨d, l, hl, hd⟩ := exists_places hpos
    obtain ⟨d, rfl⟩ : ∃ e, d = e + 1 := ⟨d - 1, by omega⟩
    constructor <;>
      simp only [readWhole, readDigits, skipWhole, takeDigits_toDigits n hrest, hl]

lemma skipNumber_toDigits (n : Nat) {rest : Characters} (hrest : Follows rest) :
    skipNumber ((Nat.toDigits 10 n).map some ++ rest) = .ok rest := by
  obtain ⟨-, hfraction, -, hexponent⟩ := hrest.fraction
  simp only [skipNumber, (readWhole_toDigits n hrest).2, hfraction, hexponent, bind, Except.bind]

/-- A whole number is read with its sign, if it is in the range of that sign. -/
lemma readNumber_toDigits {negative : Bool} {n : Nat} (h : n ≤ Text.word64Max)
    (hnegative : negative = true → 0 < n ∧ n ≤ 9223372036854775808) {rest : Characters}
    (hrest : Follows rest) :
    readNumber negative ((Nat.toDigits 10 n).map some ++ rest) =
      .ok (.int (if negative then -n else n), rest) := by
  obtain ⟨hfraction, -, hexponent, -⟩ := hrest.fraction
  have hnumber : numberOf negative (places n) none none = .ok (.int (if negative then -n else n)) := by
    cases negative with
    | false => simp [numberOf, packWhole_places n h]
    | true => simp [numberOf, packWhole_places n h, hnegative rfl]
  simp only [readNumber, (readWhole_toDigits n hrest).1, hfraction, hexponent, hnumber, bind,
    Except.bind, pure, Except.pure]

/-! ## Values -/

/-- Values whose text is read as themselves: they nest at most that deep, and every number is an
integer that fits a word of 64 bits with or without a sign. -/
inductive Writable : Nat → Json → Prop where
  | null {depth : Nat} : Writable depth .null
  | bool {depth : Nat} (b : Bool) : Writable depth (.bool b)
  | str {depth : Nat} (s : String) : Writable depth (.str s)
  | int {depth : Nat} (n : Int) (low : -9223372036854775808 ≤ n) (high : n ≤ 18446744073709551615) :
    Writable depth (.num (.int n))
  | arr {depth : Nat} (items : List Json) (h : ∀ v ∈ items, Writable depth v) :
    Writable (depth + 1) (.arr items)
  | obj {depth : Nat} (members : List (String × Json)) (h : ∀ m ∈ members, Writable depth m.2) :
    Writable (depth + 1) (.obj members)

lemma Writable.ofMembers {depth : Nat} {fields : List (String × Option Json)}
    (h : ∀ f ∈ fields, ∀ v ∈ f.2, Writable depth v) : Writable (depth + 1) (.ofMembers fields) :=
  .obj _ fun m hm => h _ (mem_members hm) m.2 rfl

/-- The text of an integer is its digits, behind a sign if it is negative. -/
lemma chars_int (n : Int) : (∃ m : Nat, n = m ∧ chars (.num (.int n)) = Nat.toDigits 10 m) ∨
    ∃ m : Nat, 0 < m ∧ n = -m ∧ chars (.num (.int n)) = '-' :: Nat.toDigits 10 m := by
  cases n with
  | ofNat m => exact .inl ⟨m, rfl, Nat.toList_repr⟩
  | negSucc m =>
    refine .inr ⟨m + 1, by omega, rfl, ?_⟩
    have htext : (toString (Int.negSucc m)).toList = ("-" ++ (m + 1).repr).toList := rfl
    rw [chars, numberText, htext, String.toList_append, Nat.toList_repr]
    rfl

lemma skipSpace_cons {c : Option Char} (h : isSpace c = false) (cs : Characters) :
    skipSpace (c :: cs) = c :: cs := by
  rw [skipSpace, List.dropWhile_cons, h]
  rfl

lemma not_isSpace_of_isDigit {c : Char} (h : c.isDigit = true) : isSpace (some c) = false := by
  simp [isSpace, ne_of_isDigit h]

/-- A value begins with neither a blank nor a close. -/
lemma exists_chars {depth : Nat} {v : Json} (h : Writable depth v) :
    ∃ c l, chars v = c :: l ∧ isSpace (some c) = false ∧ c ≠ ']' := by
  cases h with
  | null => exact ⟨_, _, rfl, by decide, by decide⟩
  | bool b => cases b <;> exact ⟨_, _, rfl, by decide, by decide⟩
  | str s => exact ⟨_, _, rfl, by decide, by decide⟩
  | int n =>
    obtain ⟨m, -, hm⟩ | ⟨m, -, -, hm⟩ := chars_int n
    · obtain ⟨c, l, hl, hc⟩ := exists_toDigits m
      exact ⟨c, l, hm.trans hl, not_isSpace_of_isDigit hc, ne_of_isDigit hc _ rfl⟩
    · exact ⟨'-', _, hm, by decide, by decide⟩
  | arr items => cases items <;> exact ⟨_, _, rfl, by decide, by decide⟩
  | obj members => cases members <;> exact ⟨_, _, rfl, by decide, by decide⟩

lemma follows_itemChars (l : List Json) (rest : Characters) :
    Follows ((itemChars l).map some ++ rest) := by
  cases l <;> simp [itemChars, Follows]

lemma follows_memberChars (l : List (String × Json)) (rest : Characters) :
    Follows ((memberChars l).map some ++ rest) := by
  cases l <;> simp [memberChars, Follows]

lemma length_lt_itemChars (l : List Json) : l.length < (itemChars l).length := by
  induction l with
  | nil => simp [itemChars]
  | cons v l ih =>
    simp only [itemChars, List.length_cons, List.length_append]
    omega

lemma length_lt_memberChars (l : List (String × Json)) : l.length < (memberChars l).length := by
  induction l with
  | nil => simp [memberChars]
  | cons m l ih =>
    simp only [memberChars, List.length_cons, List.length_append]
    omega

/-! ## Passing over values -/

/-- A text is passed over, from a stage with something open to after a value with less open, in a
number of steps that its length bounds. -/
def Passes (stage : Stage) (opened : List Frame) (l : List Char) : Prop :=
  ∃ k ≤ 2 * l.length, ∀ n frames rest, Follows rest →
    skipFrom (k + n) stage (opened ++ frames) (l.map some ++ rest) =
      skipFrom n (.close true) frames rest

namespace Passes

lemma scalar {c : Char} {l : List Char} (hspace : isSpace (some c) = false) (hlist : c ≠ '[')
    (hobject : c ≠ '\x7b')
    (hskip : ∀ rest, Follows rest → skipScalar (some c :: (l.map some ++ rest)) = .ok rest) :
    Passes .value [] (c :: l) := by
  refine ⟨1, by simp; omega, fun n frames rest hrest => ?_⟩
  have hcs := skipSpace_cons hspace (l.map some ++ rest)
  rw [Nat.add_comm, List.map_cons, List.cons_append, List.nil_append, skipFrom, hcs]
  split
  case h_2 heq => simp_all
  case h_3 heq => simp_all
  case h_1 heq => simp at heq
  case h_4 =>
    rw [hskip rest hrest]
    rfl

lemma digits (n : Nat) : Passes .value [] (Nat.toDigits 10 n) := by
  obtain ⟨c, l, hl, hc⟩ := exists_toDigits n
  have hne := ne_of_isDigit hc
  rw [hl]
  refine scalar (not_isSpace_of_isDigit hc) (hne _ rfl) (hne _ rfl) fun rest hrest => ?_
  have hnumber := skipNumber_toDigits n hrest
  rw [hl, List.map_cons, List.cons_append] at hnumber
  unfold skipScalar
  split
  case h_6 =>
    rw [List.head?_cons, Option.bind_some, if_pos (digit?_isSome hc), hnumber]
  all_goals
    next heq =>
      simp only [List.cons.injEq, Option.some.injEq] at heq
      exact absurd heq.1 (hne _ rfl)

/-- A value inside a frame is passed over, and then the rest of the frame. -/
lemma value_append {v : Json} {frame : Frame} {l : List Char} (hv : Passes .value [] (chars v))
    (hl : Passes (.close true) [frame] l) (hfollows : ∀ rest, Follows (l.map some ++ rest)) :
    Passes .value [frame] (chars v ++ l) := by
  obtain ⟨kv, hkv, hv⟩ := hv
  obtain ⟨k, hk, hl⟩ := hl
  refine ⟨kv + k, by rw [List.length_append]; omega, fun n frames rest hrest => ?_⟩
  rw [Nat.add_assoc, List.map_append, List.append_assoc]
  exact (hv _ _ _ (hfollows rest)).trans (hl n frames rest hrest)

/-- One step or two that take a character. -/
lemma of_step {stage stage' : Stage} {opened opened' : List Frame} {l l' : List Char}
    (h : Passes stage' opened' l') (s : Nat) (hs : s ≤ 2) (hlength : l'.length < l.length)
    (hstep : ∀ n frames rest, skipFrom (n + s) stage (opened ++ frames) (l.map some ++ rest) =
      skipFrom n stage' (opened' ++ frames) (l'.map some ++ rest)) :
    Passes stage opened l := by
  obtain ⟨k, hk, hl⟩ := h
  refine ⟨k + s, by omega, fun n frames rest hrest => ?_⟩
  rw [Nat.add_right_comm, hstep]
  exact hl n frames rest hrest

/-- The items after the first are passed over one by one, and then the close of their list. -/
lemma items {l : List Json} (h : ∀ v ∈ l, Passes .value [] (chars v)) :
    Passes (.close true) [.list] (itemChars l) := by
  induction l with
  | nil => exact ⟨1, by simp [itemChars], fun n frames rest _ => Nat.add_comm 1 n ▸ rfl⟩
  | cons v l ih =>
    obtain ⟨hv, hl⟩ := List.forall_mem_cons.mp h
    exact (value_append hv (ih hl) (follows_itemChars l)).of_step 1 (by decide)
      (by simp [itemChars]) fun n frames rest => rfl

/-- A list is passed over if its items are. -/
lemma list {l : List Json} (h : ∀ v ∈ l, Passes .value [] (chars v))
    (hfirst : ∀ v ∈ l, ∃ c cs, chars v = c :: cs ∧ isSpace (some c) = false ∧ c ≠ ']') :
    Passes .value [] (chars (.arr l)) := by
  cases l with
  | nil => exact ⟨2, by simp [chars], fun n frames rest _ => Nat.add_comm 2 n ▸ rfl⟩
  | cons v l =>
    obtain ⟨hv, hl⟩ := List.forall_mem_cons.mp h
    refine (value_append hv (items hl) (follows_itemChars l)).of_step 2 le_rfl (by simp [chars])
      fun n frames rest => ?_
    obtain ⟨c, cs, hcs, hspace, hclose⟩ := hfirst v List.mem_cons_self
    rw [chars, hcs, List.cons_append, List.map_cons, List.cons_append, skipFrom, skipSpace_cons rfl]
    simp only [List.cons_append, List.map_cons]
    rw [skipFrom, skipSpace_cons hspace]
    simp [Frame.close, Frame.skipName, hclose, bind, Except.bind]

lemma skipName_stringTail (name : String) (rest : Characters) :
    Frame.object.skipName (some '"' :: ((stringTail name).map some ++ some ':' :: rest)) = .ok rest := by
  have hquote := skipSpace_cons (c := some '"') rfl ((stringTail name).map some ++ some ':' :: rest)
  have hcolon := skipSpace_cons (c := some ':') rfl rest
  simp only [Frame.skipName, hquote, skipString_stringTail, bind, Except.bind, hcolon]

/-- The members after the first are passed over one by one, and then the close of their object. -/
lemma members {l : List (String × Json)} (h : ∀ m ∈ l, Passes .value [] (chars m.2)) :
    Passes (.close true) [.object] (memberChars l) := by
  induction l with
  | nil => exact ⟨1, by simp [memberChars], fun n frames rest _ => Nat.add_comm 1 n ▸ rfl⟩
  | cons m l ih =>
    obtain ⟨name, v⟩ := m
    obtain ⟨hv, hl⟩ := List.forall_mem_cons.mp h
    refine (value_append hv (ih hl) (follows_memberChars l)).of_step 1 (by decide)
      (by simp [memberChars]; omega) fun n frames rest => ?_
    have hname := skipName_stringTail name ((chars v ++ memberChars l).map some ++ rest)
    rw [memberChars, stringChars_eq]
    simp only [List.map_cons, List.map_append, List.cons_append, List.append_assoc] at hname ⊢
    rw [skipFrom, skipSpace_cons rfl]
    simp only [hname, bind, Except.bind]
    rfl

/-- An object is passed over if the values of its members are. -/
lemma object {l : List (String × Json)} (h : ∀ m ∈ l, Passes .value [] (chars m.2)) :
    Passes .value [] (chars (.obj l)) := by
  cases l with
  | nil => exact ⟨2, by simp [chars], fun n frames rest _ => Nat.add_comm 2 n ▸ rfl⟩
  | cons m l =>
    obtain ⟨name, v⟩ := m
    obtain ⟨hv, hl⟩ := List.forall_mem_cons.mp h
    refine (value_append hv (members hl) (follows_memberChars l)).of_step 2 le_rfl
      (by simp [chars]; omega) fun n frames rest => ?_
    have hname := skipName_stringTail name ((chars v ++ memberChars l).map some ++ rest)
    rw [chars, stringChars_eq]
    simp only [List.map_cons, List.map_append, List.cons_append, List.append_assoc] at hname ⊢
    rw [skipFrom, skipSpace_cons rfl]
    simp only []
    rw [skipFrom, skipSpace_cons rfl]
    simp only [hname, bind, Except.bind]
    rfl

end Passes

lemma Writable.passes {depth : Nat} {v : Json} (h : Writable depth v) : Passes .value [] (chars v) := by
  induction h with
  | null => exact .scalar rfl (by decide) (by decide) fun rest _ => rfl
  | bool b => cases b <;> exact .scalar rfl (by decide) (by decide) fun rest _ => rfl
  | str s => exact .scalar rfl (by decide) (by decide) fun rest _ => skipString_stringTail s rest
  | int n =>
    obtain ⟨m, -, hm⟩ | ⟨m, -, -, hm⟩ := chars_int n
    · exact hm ▸ .digits m
    · exact hm ▸ .scalar rfl (by decide) (by decide) fun rest hrest => skipNumber_toDigits m hrest
  | arr items h ih => exact .list ih fun v hv => exists_chars (h v hv)
  | obj members h ih => exact .object ih

/-- What follows a value is found by passing over it. -/
lemma skipValue_chars {depth : Nat} {v : Json} (h : Writable depth v) {rest : Characters}
    (hrest : Follows rest) : skipValue ((chars v).map some ++ rest) = .ok rest := by
  obtain ⟨k, hk, hskip⟩ := h.passes
  obtain ⟨n, hn⟩ : ∃ n, 2 * ((chars v).map some ++ rest).length + 2 = k + (n + 1) :=
    ⟨2 * ((chars v).map some ++ rest).length + 1 - k, by simp; omega⟩
  rw [skipValue, hn]
  exact hskip (n + 1) [] rest hrest

/-! ## Reading values -/

namespace Node

variable {item : Characters → Node}

lemma ofNumber_toDigits (negative : Bool) {n : Nat} (h : n ≤ Text.word64Max)
    (hnegative : negative = true → 0 < n ∧ n ≤ 9223372036854775808) {rest : Characters}
    (hrest : Follows rest) :
    ofNumber negative ((Nat.toDigits 10 n).map some ++ rest) =
      num (.int (if negative then -n else n)) := by
  rw [ofNumber, readNumber_toDigits h hnegative hrest]

/-- An integer that fits a word is read from its text. -/
lemma ofText_int (depth : Nat) {n : Int} (hlow : -9223372036854775808 ≤ n)
    (hhigh : n ≤ 18446744073709551615) {rest : Characters} (hrest : Follows rest) :
    ofText depth ((chars (.num (.int n))).map some ++ rest) = num (.int n) := by
  obtain ⟨m, rfl, hm⟩ | ⟨m, hpos, rfl, hm⟩ := chars_int n
  · have hnumber := ofNumber_toDigits false (n := m) (by simpa [Text.word64Max] using hhigh)
      (by simp) hrest
    obtain ⟨c, l, hl, hc⟩ := exists_toDigits m
    rw [hl, List.map_cons, List.cons_append] at hnumber
    rw [hm, hl, List.map_cons, List.cons_append, ofText, skipSpace_cons (not_isSpace_of_isDigit hc)]
    split
    case h_9 heq =>
      obtain ⟨rfl, rfl⟩ := List.cons.inj heq
      rw [if_pos (digit?_isSome hc), hnumber]
      rfl
    case h_1 heq => simp at heq
    all_goals
      next heq =>
        simp only [List.cons.injEq, Option.some.injEq] at heq
        exact absurd heq.1 (ne_of_isDigit hc _ rfl)
  · have hnumber := ofNumber_toDigits true (n := m)
      (by simp only [Text.word64Max]; omega) (fun _ => ⟨hpos, by omega⟩) hrest
    rw [hm, List.map_cons, List.cons_append, ofText, skipSpace_cons rfl]
    exact hnumber

/-- A reader finds a node in the text of a value. -/
def Reads (item : Characters → Node) (v : Json) (n : Node) : Prop :=
  ∀ rest, Follows rest → item ((chars v).map some ++ rest) = n

variable {view : Json → Node}

/-- The items of a list are read one by one, if each is read and the scanner goes that far. -/
lemma scanItems_chars {depth : Nat} {v : Json} {l : List Json} (h : ∀ w ∈ v :: l, Writable depth w)
    (hread : ∀ w ∈ v :: l, Reads item w (view w)) (limit : Nat) (hlimit : l.length < limit)
    (done : List Node) (rest : Characters) :
    scanItems item limit done ((chars v ++ itemChars l).map some ++ rest) =
      arr (done.reverse ++ (v :: l).map view) none := by
  induction l generalizing v limit done with
  | nil =>
    obtain ⟨limit, rfl⟩ : ∃ n, limit = n + 1 := ⟨limit - 1, by omega⟩
    have hfollows := follows_itemChars [] rest
    rw [List.map_append, List.append_assoc, scanItems, hread v List.mem_cons_self _ hfollows,
      skipValue_chars (h v List.mem_cons_self) hfollows]
    simp [itemChars, skipSpace_cons (c := some ']') rfl]
  | cons w l ih =>
    obtain ⟨limit, rfl⟩ : ∃ n, limit = n + 1 := ⟨limit - 1, by omega⟩
    obtain ⟨hv, hl⟩ := List.forall_mem_cons.mp h
    obtain ⟨hreadv, hreadl⟩ := List.forall_mem_cons.mp hread
    have hfollows := follows_itemChars (w :: l) rest
    obtain ⟨c, cs, hcs, hspace, hclose⟩ := exists_chars (hl w List.mem_cons_self)
    have hnext := ih hl hreadl limit (by simpa using hlimit) (view v :: done)
    rw [List.map_append, List.append_assoc, scanItems, hreadv _ hfollows, skipValue_chars hv hfollows]
    rw [hcs, List.cons_append, List.map_cons, List.cons_append] at hnext
    simp only [itemChars, hcs, List.map_cons, List.cons_append, skipSpace_cons (c := some ',') rfl,
      skipSpace_cons hspace]
    split
    case h_2 heq => simp_all
    case h_1 heq => simp at heq
    case h_3 =>
      rw [hnext]
      simp

lemma ofList_chars {depth : Nat} {v : Json} {l : List Json} (h : ∀ w ∈ v :: l, Writable depth w)
    (hread : ∀ w ∈ v :: l, Reads item w (view w)) (rest : Characters) :
    ofList item ((chars v ++ itemChars l).map some ++ rest) = arr ((v :: l).map view) none := by
  obtain ⟨c, cs, hcs, hspace, hclose⟩ := exists_chars (h v List.mem_cons_self)
  have hlength := length_lt_itemChars l
  have hscan := scanItems_chars h hread (((chars v ++ itemChars l).map some ++ rest).length)
    (by simp; omega) [] rest
  rw [hcs] at hscan ⊢
  simp only [List.cons_append, List.map_cons] at hscan ⊢
  rw [ofList, skipSpace_cons hspace]
  split
  case h_2 heq => simp_all
  case h_1 heq => simp at heq
  case h_3 => exact hscan

/-- The members of an object are read one by one, if each value is read and the scanner goes that far. -/
lemma scanMembers_chars {depth : Nat} {name : String} {v : Json} {l : List (String × Json)}
    (h : ∀ m ∈ (name, v) :: l, Writable depth m.2)
    (hread : ∀ m ∈ (name, v) :: l, Reads item m.2 (view m.2)) (limit : Nat) (hlimit : l.length < limit)
    (done : List (String × Node)) (rest : Characters) :
    scanMembers item limit done
        ((stringTail name ++ ':' :: (chars v ++ memberChars l)).map some ++ rest) =
      obj (done.reverse ++ ((name, v) :: l).map fun m => (m.1, view m.2)) none := by
  induction l generalizing name v limit done with
  | nil =>
    obtain ⟨limit, rfl⟩ : ∃ n, limit = n + 1 := ⟨limit - 1, by omega⟩
    have hv := h _ List.mem_cons_self
    have hreadv := hread _ List.mem_cons_self
    have hfollows := follows_memberChars [] rest
    simp only [List.map_append, List.map_cons, List.append_assoc, List.cons_append]
    simp only [scanMembers, readString_stringTail, skipSpace_cons (c := some ':') rfl,
      hreadv _ hfollows, skipValue_chars hv hfollows]
    simp [memberChars, skipSpace_cons (c := some '\x7d') rfl]
  | cons m l ih =>
    obtain ⟨limit, rfl⟩ : ∃ n, limit = n + 1 := ⟨limit - 1, by omega⟩
    obtain ⟨hv, hl⟩ := List.forall_mem_cons.mp h
    obtain ⟨hreadv, hreadl⟩ := List.forall_mem_cons.mp hread
    obtain ⟨next, w⟩ := m
    have hfollows := follows_memberChars ((next, w) :: l) rest
    have hnext := ih hl hreadl limit (by simpa using hlimit) ((name, view v) :: done)
    simp only [List.map_append, List.map_cons, List.append_assoc, List.cons_append] at hnext ⊢
    simp only [scanMembers, readString_stringTail, skipSpace_cons (c := some ':') rfl,
      hreadv _ hfollows, skipValue_chars hv hfollows]
    simp only [memberChars, stringChars_eq, List.map_append, List.map_cons, List.append_assoc,
      List.cons_append, skipSpace_cons (c := some ',') rfl, skipSpace_cons (c := some '"') rfl]
    rw [hnext]
    simp

mutual

/-- What is found in the text of a value by a reader who goes at most that deep. -/
def pruned : Nat → Json → Node
  | _, .null => null
  | _, .bool b => bool b
  | _, .num n => num n
  | _, .str s => str s
  | 0, .arr _ => unreadable .tooDeep
  | depth + 1, .arr items => arr (prunedItems depth items) none
  | 0, .obj _ => unreadable .tooDeep
  | depth + 1, .obj members => obj (prunedMembers depth members) none

def prunedItems : Nat → List Json → List Node
  | _, [] => []
  | depth, v :: rest => pruned depth v :: prunedItems depth rest

def prunedMembers : Nat → List (String × Json) → List (String × Node)
  | _, [] => []
  | depth, (k, v) :: rest => (k, pruned depth v) :: prunedMembers depth rest

end

lemma ofItems_eq_map (l : List Json) : ofItems l = l.map ofJson := by
  induction l with
  | nil => rfl
  | cons v l ih => rw [ofItems, ih, List.map_cons]

lemma ofMembers_eq_map (l : List (String × Json)) : ofMembers l = l.map fun m => (m.1, ofJson m.2) := by
  induction l with
  | nil => rfl
  | cons m l ih => rw [ofMembers, ih, List.map_cons]

lemma prunedItems_eq_map (depth : Nat) (l : List Json) : prunedItems depth l = l.map (pruned depth) := by
  induction l with
  | nil => rfl
  | cons v l ih => rw [prunedItems, ih, List.map_cons]

lemma prunedMembers_eq_map (depth : Nat) (l : List (String × Json)) :
    prunedMembers depth l = l.map fun m => (m.1, pruned depth m.2) := by
  induction l with
  | nil => rfl
  | cons m l ih => rw [prunedMembers, ih, List.map_cons]

/-- A value is read from its text as deep as the reader goes, whatever may follow it. -/
lemma ofText_chars {depth : Nat} {v : Json} (h : Writable depth v) (limit : Nat) {rest : Characters}
    (hrest : Follows rest) : ofText limit ((chars v).map some ++ rest) = pruned limit v := by
  induction h generalizing limit rest with
  | null =>
    rw [ofText]
    rfl
  | bool b => cases b <;> rw [ofText] <;> rfl
  | str s =>
    have hread := readString_stringTail s rest
    rw [chars, stringChars_eq, List.map_cons, List.cons_append, ofText, skipSpace_cons rfl]
    simp only [ofString, hread]
    rfl
  | int n low high => exact ofText_int _ low high hrest
  | arr items h ih =>
    cases items with
    | nil => cases limit <;> rfl
    | cons v l =>
      rw [chars, List.cons_append, List.map_cons, List.cons_append, ofText, skipSpace_cons rfl]
      cases limit with
      | zero => rfl
      | succ limit =>
        have hlist := ofList_chars h (fun w hw rest hrest => ih w hw limit hrest) rest
        rw [pruned, prunedItems_eq_map]
        exact hlist
  | obj members h ih =>
    cases members with
    | nil => cases limit <;> rfl
    | cons m l =>
      obtain ⟨name, v⟩ := m
      rw [chars, stringChars_eq]
      simp only [List.cons_append, List.map_cons, List.append_assoc]
      rw [ofText, skipSpace_cons rfl]
      cases limit with
      | zero => rfl
      | succ limit =>
        have hlength := length_lt_memberChars l
        have hscan := scanMembers_chars h (fun m hm rest hrest => ih m hm limit hrest)
          (((stringTail name ++ ':' :: (chars v ++ memberChars l)).map some ++ rest).length + 1)
          (by simp; omega) [] rest
        rw [pruned, prunedMembers_eq_map]
        simp only [ofObject, skipSpace_cons (c := some '"') rfl]
        exact hscan

/-- A reader who goes deep enough finds the whole value. -/
lemma pruned_of_writable {depth : Nat} {v : Json} (h : Writable depth v) :
    pruned depth v = ofJson v := by
  induction h with
  | null | bool | str | int => rfl
  | arr items h ih =>
    rw [pruned, ofJson, prunedItems_eq_map, ofItems_eq_map]
    exact congrArg (arr · none) (List.map_congr_left ih)
  | obj members h ih =>
    rw [pruned, ofJson, prunedMembers_eq_map, ofMembers_eq_map]
    exact congrArg (obj · none) (List.map_congr_left fun m hm => congrArg (m.1, ·) (ih m hm))

end Node

/-! ## Documents -/

lemma ofOctets_toUTF8 (text : String) : Characters.ofOctets text.toUTF8 = .ofString text := by
  have htext : String.fromUTF8? text.toUTF8 = some text := by
    rw [String.fromUTF8?, String.toUTF8_eq_toByteArray, dif_pos text.isValidUTF8]
    rfl
  rw [Characters.ofOctets, htext]

/-- A decoder reads from the text of a value what it reads from as much of it as is not too deep. -/
lemma readOctets_pruned {α : Type} (decode : Source → Decoded α) {depth : Nat} {v : Json}
    (h : Writable depth v) :
    readOctets decode v.render.toUTF8 = decode ⟨.text, .pruned Node.depthLimit v⟩ := by
  have hend : Follows [] := by simp [Follows]
  have hnode := Node.ofText_chars h Node.depthLimit hend
  have hskip := skipValue_chars h hend
  rw [List.append_nil] at hnode hskip
  have hcharacters : Characters.ofString v.render = (chars v).map some := by
    rw [Characters.ofString, render, String.toList_ofList]
  rw [readOctets, ofOctets_toUTF8, readCharacters, hcharacters, hnode, hskip]
  cases decode ⟨.text, .pruned Node.depthLimit v⟩ <;> rfl

/-- A decoder reads from the text of a value what it reads from the value. -/
lemma readOctets_render {α : Type} (decode : Source → Decoded α) {v : Json}
    (h : Writable Node.depthLimit v) :
    readOctets decode v.render.toUTF8 = decode ⟨.text, .ofJson v⟩ := by
  rw [readOctets_pruned decode h, Node.pruned_of_writable h]

end ControlLoop.Json
