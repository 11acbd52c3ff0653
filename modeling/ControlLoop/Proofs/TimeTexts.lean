import ControlLoop.Timestamp
import ControlLoop.Proofs.StoreHistory

/-!
# Points in time and their texts

A day has one date and a date has one day, and the text of a point in time is read as that point. Only
a leap second that does not follow the last second of a minute is read as the second that its text
shows, which has the same text.
-/
namespace ControlLoop.Timestamp

/-! ## Days of an era -/

/-- The days of an era, which are those of four hundred years, before a year of it. -/
def yearStart (year : Nat) : Nat := 365 * year + year / 4 - year / 100 + year / 400

/-- The days of an era up to one of them, less the leap days. -/
def commonDays (day : Nat) : Nat := day - day / 1460 + day / 36524 - day / 146096

lemma commonDays_mono {m n : Nat} (hmn : m ≤ n) (hn : n < 146097) : commonDays m ≤ commonDays n := by
  induction n, hmn using Nat.le_induction with
  | base => exact le_rfl
  | succ n hmn ih =>
    refine (ih (by omega)).trans ?_
    unfold commonDays
    omega

/-- The first and the last day of every year of an era. -/
lemma commonDays_yearStart : ∀ year < 400, 365 * year ≤ commonDays (yearStart year) ∧
    commonDays (yearStart (year + 1) - 1) < 365 * (year + 1) := by
  decide +kernel

lemma yearStart_mono {m n : Nat} (h : m ≤ n) : yearStart m ≤ yearStart n := by
  induction n, h using Nat.le_induction with
  | base => exact le_rfl
  | succ n _ ih =>
    refine ih.trans ?_
    unfold yearStart
    omega

/-- A day of an era lies in the year that its common days give. -/
lemma year_of_day {day : Nat} (h : day < 146097) :
    commonDays day / 365 < 400 ∧ yearStart (commonDays day / 365) ≤ day ∧
      day < yearStart (commonDays day / 365 + 1) := by
  have hyear : commonDays day / 365 < 400 := by
    unfold commonDays
    omega
  obtain ⟨year, hy⟩ : ∃ year, commonDays day / 365 = year := ⟨_, rfl⟩
  rw [hy] at hyear ⊢
  refine ⟨hyear, ?_, ?_⟩
  -- The common days grow with the days, so they would be those of an earlier or a later year.
  · by_contra hbefore
    have hpos : 0 < year := by
      by_contra hzero
      obtain rfl : year = 0 := by omega
      simp [yearStart] at hbefore
    have hlast := (commonDays_yearStart (year - 1) (by omega)).2
    have hsucc : year - 1 + 1 = year := by omega
    rw [hsucc] at hlast
    have hend : yearStart year ≤ yearStart 400 := yearStart_mono (by omega)
    have hera : yearStart 400 = 146097 := by decide
    have hle : commonDays day ≤ commonDays (yearStart year - 1) := commonDays_mono (by omega) (by omega)
    omega
  · by_contra hafter
    have hnext : year + 1 < 400 := by
      by_contra hlast
      obtain rfl : year = 399 := by omega
      have hera : yearStart (399 + 1) = 146097 := by decide
      omega
    have hfirst := (commonDays_yearStart (year + 1) hnext).1
    have hle : commonDays (yearStart (year + 1)) ≤ commonDays day := commonDays_mono (by omega) h
    omega

/-! ## Days and dates -/

/-- Every day is a day of an era. -/
lemma exists_era (days : Int) : ∃ (era : Int) (day : Nat), day < 146097 ∧
    days = era * 146097 + day - 719468 ∧ (days + 719468).fdiv 146097 = era := by
  have hfdiv : (days + 719468).fdiv 146097 = (days + 719468) / 146097 :=
    Int.fdiv_eq_ediv_of_nonneg _ (by decide)
  refine ⟨(days + 719468) / 146097, (days + 719468 - (days + 719468) / 146097 * 146097).toNat, ?_, ?_,
    hfdiv⟩
  · omega
  · omega

/-- The year, which begins in March, and the days of it that have passed on a day of an era. -/
lemma exists_year {day : Nat} (h : day < 146097) : ∃ year passed, commonDays day / 365 = year ∧
    year < 400 ∧ day = 365 * year + year / 4 - year / 100 + passed ∧
    passed < 365 + ((year + 1) / 4 - year / 4) - ((year + 1) / 100 - year / 100) +
      (year + 1) / 400 := by
  obtain ⟨hyear, hstart, hend⟩ := year_of_day h
  generalize commonDays day / 365 = year at *
  have hthis : yearStart year = 365 * year + year / 4 - year / 100 := by
    rw [yearStart, Nat.div_eq_of_lt hyear, add_zero]
  have hnext : yearStart (year + 1) = yearStart year + (365 + ((year + 1) / 4 - year / 4) -
      ((year + 1) / 100 - year / 100) + (year + 1) / 400) := by
    rw [hthis, yearStart]
    omega
  exact ⟨year, day - yearStart year, rfl, hyear, by omega, by omega⟩

/-- The month that begins so many months after March. -/
def monthAfterMarch (months : Nat) : Nat := if months < 10 then months + 3 else months - 9

/-- The days of a date, from the year of an era, the months after March and the day. -/
lemma daysOfDate_eq (era : Int) {year months day : Nat} (hyear : year < 400) (hmonths : months ≤ 11)
    (hday : 1 ≤ day) :
    daysOfDate (if monthAfterMarch months ≤ 2 then (year : Int) + era * 400 + 1
      else (year : Int) + era * 400) (monthAfterMarch months) day =
    era * 146097 + (365 * year + year / 4 - year / 100 + ((153 * months + 2) / 5 + day - 1) : Nat) -
      719468 := by
  have hstart : (if monthAfterMarch months ≤ 2 then
      (if monthAfterMarch months ≤ 2 then (year : Int) + era * 400 + 1
        else (year : Int) + era * 400) - 1
      else if monthAfterMarch months ≤ 2 then (year : Int) + era * 400 + 1
        else (year : Int) + era * 400) = year + era * 400 := by
    split <;> omega
  have hera : ((year : Int) + era * 400).fdiv 400 = era := by
    rw [Int.fdiv_eq_ediv_of_nonneg _ (by decide)]
    omega
  have hshifted : (monthAfterMarch months + 9) % 12 = months := by
    unfold monthAfterMarch
    split <;> omega
  simp only [daysOfDate, hstart, hera, hshifted]
  omega

/-- The months after March and the day of a month, from the days that have passed since March began. -/
lemma month_of_passed {passed : Nat} (h : passed ≤ 365) :
    (5 * passed + 2) / 153 ≤ 11 ∧ (153 * ((5 * passed + 2) / 153) + 2) / 5 ≤ passed := by
  omega

/-- A year of more than 365 days, which begins in March, ends with the leap day of the next one. -/
lemma isLeap_of_long (era : Int) {year : Nat}
    (h : 365 < 365 + ((year + 1) / 4 - year / 4) - ((year + 1) / 100 - year / 100) +
      (year + 1) / 400) (hyear : year < 400) : isLeap ((year : Int) + era * 400 + 1) = true := by
  have hcases : ((year + 1) % 4 = 0 ∧ (year + 1) % 100 ≠ 0) ∨ (year + 1) % 400 = 0 := by omega
  simp only [isLeap, Bool.or_eq_true, Bool.and_eq_true, decide_eq_true_eq]
  omega

/-- A month does not end before its days have passed. -/
lemma day_le_daysInMonth (era : Int) {year passed : Nat} (hyear : year < 400)
    (hpassed : passed < 365 + ((year + 1) / 4 - year / 4) - ((year + 1) / 100 - year / 100) +
      (year + 1) / 400) :
    passed - (153 * ((5 * passed + 2) / 153) + 2) / 5 + 1 ≤
      daysInMonth (if monthAfterMarch ((5 * passed + 2) / 153) ≤ 2 then (year : Int) + era * 400 + 1
        else (year : Int) + era * 400) (monthAfterMarch ((5 * passed + 2) / 153)) := by
  have hle : passed ≤ 365 := by omega
  obtain ⟨months, hmonths⟩ : ∃ months, (5 * passed + 2) / 153 = months := ⟨_, rfl⟩
  have hmonths' : months ≤ 11 := by omega
  rw [hmonths]
  rcases hmonths'.eq_or_lt with rfl | hlt
  · by_cases hleap : passed = 365
    · subst hleap
      simp [monthAfterMarch, daysInMonth, isLeap_of_long era hpassed hyear]
    · simp only [monthAfterMarch, daysInMonth]
      norm_num
      split <;> omega
  · interval_cases months <;> simp only [monthAfterMarch, daysInMonth] <;> norm_num <;> omega

/-- The date of a day is one that the calendar has, and is the date of that day. -/
lemma dateOfDays_spec (days : Int) {year : Int} {month day : Nat}
    (h : dateOfDays days = (year, month, day)) :
    (1 ≤ month ∧ month ≤ 12) ∧ (1 ≤ day ∧ day ≤ daysInMonth year month) ∧
      daysOfDate year month day = days := by
  obtain ⟨era, n, hn, hdays, hera⟩ := exists_era days
  obtain ⟨y, passed, hyear, hy, hpassed, hlength⟩ := exists_year hn
  have hn' : (days + 719468 - era * 146097).toNat = n := by omega
  have hdone : n - (365 * y + y / 4 - y / 100) = passed := by omega
  have hle : passed ≤ 365 := by omega
  unfold commonDays at hyear
  simp only [dateOfDays, hera, hn', hyear, hdone, Prod.mk.injEq] at h
  obtain ⟨rfl, rfl, rfl⟩ := h
  obtain ⟨hmonths, hbegun⟩ := month_of_passed hle
  refine ⟨?_, ⟨by omega, day_le_daysInMonth era hy hlength⟩, ?_⟩
  · split <;> omega
  · refine (daysOfDate_eq era hy hmonths (by omega)).trans ?_
    omega

/-! ## Numbers -/

/-- The text does not go on with a digit. -/
def Stops (cs : List Char) : Prop := ∀ c, cs.head? = some c → Text.digit? c = none

lemma takeDigits_append (limit value : Nat) {l rest : List Char} (hl : ∀ c ∈ l, c.isDigit = true)
    (hlimit : l.length ≤ limit) (hrest : l.length = limit ∨ Stops rest) :
    takeDigits limit value (l ++ rest) = (Nat.ofDigitChars 10 l value, rest) := by
  induction l generalizing limit value with
  | nil =>
    cases limit with
    | zero => simp [takeDigits]
    | succ limit =>
      cases rest with
      | nil => simp [takeDigits]
      | cons c rest =>
        have hc : Text.digit? c = none := (hrest.resolve_left (by simp)) c rfl
        simp [takeDigits, hc]
  | cons c l ih =>
    obtain ⟨hc, hl⟩ := List.forall_mem_cons.mp hl
    cases limit with
    | zero => simp at hlimit
    | succ limit =>
      rw [List.cons_append, takeDigits, Text.digit?_eq hc, Nat.ofDigitChars_cons,
        Nat.mul_comm 10 value]
      exact ih limit _ hl (by simpa using hlimit) (by simpa using hrest)

lemma toList_padded (width n : Nat) : (padded width n).toList =
    List.replicate (width - (Text.digits n).length) '0' ++ Text.digits n :=
  String.toList_ofList

lemma isDigit_of_padded {width n : Nat} {c : Char} (h : c ∈ (padded width n).toList) :
    c.isDigit = true := by
  rw [toList_padded, List.mem_append] at h
  rcases h with h | h
  · rw [List.eq_of_mem_replicate h]
    decide
  · exact Nat.isDigit_of_mem_toDigits (by decide) (by decide) h

/-- Zeros in front do not change a number. -/
lemma value_of_padded (width n : Nat) : Nat.ofDigitChars 10 (padded width n).toList 0 = n := by
  have hzeros (zeros : Nat) : Nat.ofDigitChars 10 (List.replicate zeros '0' ++ Text.digits n) 0 = n := by
    induction zeros with
    | zero => exact Nat.ofDigitChars_ten_toDigits
    | succ zeros ih =>
      rw [List.replicate_succ, List.cons_append, Nat.ofDigitChars_cons]
      exact ih
  rw [toList_padded, hzeros]

lemma padded_ne_nil (width n : Nat) : (padded width n).toList ≠ [] := by
  rw [toList_padded]
  exact List.append_ne_nil_of_right_ne_nil _ Nat.toDigits_ne_nil

lemma length_padded {width n : Nat} (hwidth : 0 < width) (hn : n < 10 ^ width) :
    (padded width n).toList.length = width := by
  have hle : (Text.digits n).length ≤ width := Nat.toDigits_length 10 n width hwidth hn
  rw [toList_padded, List.length_append, List.length_replicate]
  omega

lemma readNumber_padded {limit width n : Nat} {rest : List Char}
    (hlimit : (padded width n).toList.length ≤ limit)
    (hrest : (padded width n).toList.length = limit ∨ Stops rest) :
    readNumber limit ((padded width n).toList ++ rest) = .ok (n, rest) := by
  have htake := takeDigits_append limit 0 (fun c hc => isDigit_of_padded hc) hlimit hrest
  rw [value_of_padded] at htake
  obtain ⟨c, cs, hcs⟩ := List.exists_cons_of_ne_nil (padded_ne_nil width n)
  have hc : c.isDigit = true := isDigit_of_padded (hcs ▸ List.mem_cons_self)
  rw [hcs, List.cons_append] at htake ⊢
  rw [readNumber, Text.digit?_eq hc, htake]
  rfl

lemma not_isBlank_of_isDigit {c : Char} (h : c.isDigit = true) : Text.isBlank c = false := by
  obtain ⟨hzero, hnine⟩ : 48 ≤ c.toNat ∧ c.toNat ≤ 57 := by
    simpa [Char.isDigit, UInt32.le_iff_toNat_le] using h
  simp only [Text.isBlank, Text.inRanges, Text.blankRanges, List.any_cons, List.any_nil, Bool.or_false,
    Bool.or_eq_false_iff, Bool.and_eq_false_iff, decide_eq_false_iff_not]
  omega

lemma skipBlanks_padded (width n : Nat) (rest : List Char) :
    skipBlanks ((padded width n).toList ++ rest) = (padded width n).toList ++ rest := by
  obtain ⟨c, cs, hcs⟩ := List.exists_cons_of_ne_nil (padded_ne_nil width n)
  have hc : c.isDigit = true := isDigit_of_padded (hcs ▸ List.mem_cons_self)
  rw [hcs, List.cons_append, skipBlanks, List.dropWhile_cons_of_neg (by simp [not_isBlank_of_isDigit hc])]

lemma readField_padded {least greatest n : Nat} (rest : List Char) (hn : n < 100)
    (hleast : least ≤ n) (hgreatest : n ≤ greatest) :
    readField least greatest ((padded 2 n).toList ++ rest) = .ok (n, rest) := by
  have hlength : (padded 2 n).toList.length = 2 := length_padded (by decide) (by omega)
  rw [readField, skipBlanks_padded, readNumber_padded hlength.le (.inl hlength)]
  simp only [bind, Except.bind]
  rw [if_neg (by omega)]
  rfl

lemma readMark_cons {mark : Char} (rest : List Char) (h : Text.isBlank mark = false) :
    readMark mark (mark :: rest) = .ok rest := by
  rw [readMark, skipBlanks, List.dropWhile_cons_of_neg (by simp [h])]
  simp

/-- A year is read from its text, if it is not beyond what a word of 32 bits can hold. -/
lemma readYear_yearText (year : Int) {rest : List Char} (hrest : Stops rest) :
    readYear ((yearText year).toList ++ rest) =
      if year < -2147483648 ∨ 2147483647 < year then .error .outOfRange else .ok (year, rest) := by
  have hlong (n : Nat) : readNumber ((padded 4 n).toList ++ rest).length ((padded 4 n).toList ++ rest) =
      .ok (n, rest) :=
    readNumber_padded (by rw [List.length_append]; omega) (.inr hrest)
  have hsign {sign : Char} (n : Nat) (h : Text.isBlank sign = false) :
      skipBlanks (sign :: ((padded 4 n).toList ++ rest)) = sign :: ((padded 4 n).toList ++ rest) := by
    rw [skipBlanks, List.dropWhile_cons_of_neg (by simp [h])]
  rw [yearText]
  split
  next hneg =>
    have hvalue : -((year.natAbs : Nat) : Int) = year := by omega
    rw [String.toList_append, List.append_assoc]
    rw [readYear]
    simp only [show "-".toList = ['-'] from rfl, List.cons_append, List.nil_append,
      hsign year.natAbs (show Text.isBlank '-' = false by decide), hlong, bind, Except.bind, pure,
      Except.pure, hvalue]
    rfl
  next hnonneg =>
    have hvalue : ((year.natAbs : Nat) : Int) = year := by omega
    split
    next hlarge =>
      rw [String.toList_append, List.append_assoc, readYear]
      simp only [show "+".toList = ['+'] from rfl, List.cons_append, List.nil_append,
        hsign year.natAbs (show Text.isBlank '+' = false by decide), hlong, bind, Except.bind, pure,
        Except.pure, hvalue]
      rfl
    next hsmall =>
      have hlength : (padded 4 year.natAbs).toList.length = 4 :=
        length_padded (by decide) (by omega)
      have hread : readNumber 4 ((padded 4 year.natAbs).toList ++ rest) = .ok (year.natAbs, rest) :=
        readNumber_padded hlength.le (.inl hlength)
      have hsigned {sign : Char} {cs : List Char}
          (h : (padded 4 year.natAbs).toList ++ rest = sign :: cs) : sign.isDigit = true := by
        obtain ⟨c, cs', hcs⟩ := List.exists_cons_of_ne_nil (padded_ne_nil 4 year.natAbs)
        rw [hcs, List.cons_append, List.cons.injEq] at h
        exact h.1 ▸ isDigit_of_padded (hcs ▸ List.mem_cons_self)
      rw [readYear, skipBlanks_padded]
      simp only
      split
      next h => exact absurd (hsigned h) (by decide)
      next h => exact absurd (hsigned h) (by decide)
      · simp only [hread, bind, Except.bind, pure, Except.pure, hvalue]
        rfl

/-! ## Points in time -/

/-- A leap second that does not follow the last second of a minute, as the second that its text shows. -/
def settled (t : Timestamp) : Timestamp :=
  if t.leap ∧ (t.seconds - t.seconds.fdiv 86400 * 86400).toNat % 60 ≠ 59 then ⟨t.seconds + 1, false⟩
  else t

lemma dayOf_eq {days year : Int} {month day : Nat} (h : dateOfDays days = (year, month, day)) :
    dayOf year month day =
      if year < firstYear ∨ lastYear < year then .error .outOfRange else .ok days := by
  obtain ⟨-, ⟨-, hday⟩, hdays⟩ := dateOfDays_spec days h
  rw [dayOf, hdays]
  have hlength : ¬ daysInMonth year month < day := by omega
  by_cases hyear : year < firstYear ∨ lastYear < year
  · rw [if_pos hyear, if_pos (by tauto)]
  · rw [if_neg hyear, if_neg (by tauto)]

/-- The second of a day whose text shows that hour, minute and second. -/
def secondOf (hour minute second : Nat) : Nat := hour * 3600 + minute * 60 + min second 59

/-- What is read from a text in UTC whose parts are in their ranges. -/
lemma parsePrecise_text {text : String} {year : Int} {month day hour minute second : Nat}
    (htext : text.toList = (yearText year).toList ++ ('-' :: ((padded 2 month).toList ++
      ('-' :: ((padded 2 day).toList ++ ('T' :: ((padded 2 hour).toList ++
      (':' :: ((padded 2 minute).toList ++ (':' :: ((padded 2 second).toList ++ ['Z'])))))))))))
    (hmonth : 1 ≤ month ∧ month ≤ 12) (hday : 1 ≤ day ∧ day ≤ 31) (hhour : hour ≤ 23)
    (hminute : minute ≤ 59) (hsecond : second ≤ 60) :
    parsePrecise text = if year < -2147483648 ∨ 2147483647 < year then .error .outOfRange
      else (dayOf year month day).bind fun days =>
        if days * 86400 + (secondOf hour minute second : Int) < daysOfDate firstYear 1 1 * 86400 ∨
            (daysOfDate lastYear 12 31 + 1) * 86400 ≤ days * 86400 + secondOf hour minute second then
          .error .impossible
        else .ok (⟨days * 86400 + secondOf hour minute second, second = 60⟩, 0) := by
  have hstops (rest : List Char) : Stops ('-' :: rest) := by
    rintro c ⟨⟩
    decide
  have hseparator (rest : List Char) : readSeparator ('T' :: rest) = .ok rest := by
    simp [readSeparator]
  have hfraction : readFraction ['Z'] = .ok (0, ['Z']) := rfl
  have hoffset : readOffset (skipBlanks ['Z']) = .ok (0, []) := by decide
  have hend : (skipBlanks []).isEmpty = true := rfl
  by_cases hyear : year < -2147483648 ∨ 2147483647 < year
  · simp [parsePrecise, htext, readYear_yearText year (hstops _), hyear, bind, Except.bind]
  simp only [parsePrecise, htext, readYear_yearText year (hstops _), if_neg hyear, bind, Except.bind,
    readMark_cons _ (show Text.isBlank '-' = false by decide),
    readMark_cons _ (show Text.isBlank ':' = false by decide), hseparator, hfraction, hoffset, hend,
    readField_padded _ (show month < 100 by omega) hmonth.1 hmonth.2,
    readField_padded _ (show day < 100 by omega) hday.1 hday.2,
    readField_padded _ (show hour < 100 by omega) (Nat.zero_le _) hhour,
    readField_padded _ (show minute < 100 by omega) (Nat.zero_le _) hminute,
    readField_padded _ (show second < 100 by omega) (Nat.zero_le _) hsecond, if_true,
    show ¬ ((0 : Int) ≤ -86400 ∨ (86400 : Int) ≤ 0) by decide, if_false, sub_zero]
  rfl

/-- The text of a point in time, by its parts. -/
lemma exists_parts (t : Timestamp) : ∃ (year : Int) (month day second shown : Nat),
    dateOfDays (t.seconds / 86400) = (year, month, day) ∧
    t.seconds = t.seconds / 86400 * 86400 + second ∧ second < 86400 ∧
    (second % 60 + if t.leap then 1 else 0) = shown ∧ shown ≤ 60 ∧
    (1 ≤ month ∧ month ≤ 12) ∧ (1 ≤ day ∧ day ≤ 31) ∧
    t.render.toList = (yearText year).toList ++ ('-' :: ((padded 2 month).toList ++
      ('-' :: ((padded 2 day).toList ++ ('T' :: ((padded 2 (second / 3600)).toList ++
      (':' :: ((padded 2 (second / 60 % 60)).toList ++ (':' ::
      ((padded 2 shown).toList ++ ['Z'])))))))))) := by
  have hdays : t.seconds.fdiv 86400 = t.seconds / 86400 :=
    Int.fdiv_eq_ediv_of_nonneg _ (by decide)
  obtain ⟨second, hsecond⟩ : ∃ second, (t.seconds - t.seconds / 86400 * 86400).toNat = second :=
    ⟨_, rfl⟩
  obtain ⟨year, month, day, hdate⟩ : ∃ year month day,
      dateOfDays (t.seconds / 86400) = (year, month, day) := ⟨_, _, _, rfl⟩
  obtain ⟨hmonth, ⟨hday, hday'⟩, -⟩ := dateOfDays_spec _ hdate
  have hlength : daysInMonth year month ≤ 31 := by
    unfold daysInMonth
    split_ifs <;> omega
  have hleap : (if t.leap = true then 1 else 0) ≤ 1 := by split <;> omega
  refine ⟨year, month, day, second, _, hdate, by omega, by omega, rfl, by omega, hmonth,
    ⟨hday, by omega⟩, ?_⟩
  simp only [render, secondText, hdays, hsecond, hdate]
  simp [String.toList_append]

/-- The text of a point in time is read as that point, if it is read at all. -/
lemma parsePrecise_render (t : Timestamp) {u : Timestamp} {nanos : Nat}
    (h : parsePrecise t.render = .ok (u, nanos)) : u = t.settled ∧ nanos = 0 := by
  obtain ⟨year, month, day, second, shown, hdate, htotal, hsecond, hshown, hle, hmonth, hday,
    htext⟩ := t.exists_parts
  have hdays : t.seconds.fdiv 86400 = t.seconds / 86400 :=
    Int.fdiv_eq_ediv_of_nonneg _ (by decide)
  rw [parsePrecise_text htext hmonth hday (by omega) (by omega) hle] at h
  split at h
  · cases h
  obtain ⟨days, hread, h⟩ := Store.bind_eq_ok h
  rw [dayOf_eq hdate] at hread
  split at hread
  · cases hread
  obtain rfl := Except.ok.inj hread
  split at h
  · cases h
  obtain ⟨rfl, rfl⟩ := Prod.mk.inj (Except.ok.inj h)
  refine ⟨?_, rfl⟩
  rw [settled, hdays, secondOf]
  generalize t.seconds / 86400 = days at *
  -- A leap second shows as second 60 only after second 59, and is one more second otherwise.
  obtain ⟨seconds, leap⟩ := t
  obtain rfl : seconds = days * 86400 + second := htotal
  cases leap
  · simp only [Bool.false_eq_true, if_false, add_zero, false_and, Timestamp.mk.injEq,
      decide_eq_false_iff_not] at hshown ⊢
    omega
  · simp only [if_true, true_and] at hshown ⊢
    split
    next hlast =>
      simp only [Timestamp.mk.injEq, decide_eq_false_iff_not]
      omega
    next hlast =>
      simp only [Timestamp.mk.injEq, decide_eq_true_eq]
      omega

/-- The second lies within the years that can be written, and a leap second ends a minute. -/
def Readable (t : Timestamp) : Prop :=
  daysOfDate firstYear 1 1 * 86400 ≤ t.seconds ∧ t.seconds < (daysOfDate lastYear 12 31 + 1) * 86400 ∧
    (t.leap = true → t.seconds % 60 = 59)

instance (t : Timestamp) : Decidable t.Readable := inferInstanceAs (Decidable (_ ∧ _ ∧ _))

/-- The days before a year, which begins in March, less those before year zero. -/
def leapDays (year : Int) : Int := 365 * year + year / 4 - year / 100 + year / 400

lemma leapDays_mono {y z : Int} (h : y ≤ z) : leapDays y ≤ leapDays z := by
  unfold leapDays
  omega

lemma daysOfDate_leapDays (year : Int) (month day : Nat) :
    daysOfDate year month day = leapDays (if month ≤ 2 then year - 1 else year) +
      ((153 * ((month + 9) % 12) + 2) / 5 + day - 1 : Nat) - 719468 := by
  simp only [daysOfDate, leapDays, Int.fdiv_eq_ediv_of_nonneg _ (show (0 : Int) ≤ 400 by decide)]
  omega

/-- A day between two years has a date between them. -/
lemma year_of_dateOfDays {days year : Int} {month day : Nat}
    (h : dateOfDays days = (year, month, day)) (hfirst : daysOfDate firstYear 1 1 ≤ days)
    (hlast : days ≤ daysOfDate lastYear 12 31) : firstYear ≤ year ∧ year ≤ lastYear := by
  obtain ⟨hmonth, ⟨hday, hday'⟩, rfl⟩ := dateOfDays_spec days h
  have hlength : daysInMonth year month ≤ 31 := by
    unfold daysInMonth
    split_ifs <;> omega
  simp only [daysOfDate_leapDays, show ¬ 12 ≤ 2 by decide, show 1 ≤ 2 by decide, if_true, if_false]
    at hfirst hlast
  -- January and February end a year that begins in March.
  by_cases hwinter : month ≤ 2
  · rw [if_pos hwinter] at hfirst hlast
    have hpassed : 306 ≤ (153 * ((month + 9) % 12) + 2) / 5 + day - 1 := by omega
    constructor
    · by_contra hyear
      have hmono : leapDays (year - 1) ≤ leapDays (firstYear - 2) := leapDays_mono (by omega)
      have hnext : leapDays (firstYear - 2) + 365 ≤ leapDays (firstYear - 1) := by decide
      omega
    · by_contra hyear
      have hmono : leapDays lastYear ≤ leapDays (year - 1) := leapDays_mono (by omega)
      omega
  · rw [if_neg hwinter] at hfirst hlast
    have hpassed : (153 * ((month + 9) % 12) + 2) / 5 + day - 1 ≤ 305 := by omega
    constructor
    · by_contra hyear
      have hmono : leapDays year ≤ leapDays (firstYear - 1) := leapDays_mono (by omega)
      omega
    · by_contra hyear
      have hmono : leapDays (lastYear + 1) ≤ leapDays year := leapDays_mono (by omega)
      have hnext : leapDays lastYear + 365 ≤ leapDays (lastYear + 1) := by decide
      omega

/-- A point in time that can be read is read from its text. -/
lemma parse_render {t : Timestamp} (h : t.Readable) : parse t.render = .ok t := by
  obtain ⟨hfirst, hlast, hleap⟩ := h
  obtain ⟨year, month, day, second, shown, hdate, htotal, hsecond, hshown, hle, hmonth, hday,
    htext⟩ := t.exists_parts
  have hdays : daysOfDate firstYear 1 1 ≤ t.seconds / 86400 ∧
      t.seconds / 86400 ≤ daysOfDate lastYear 12 31 := by omega
  obtain ⟨hyear, hyear'⟩ := year_of_dateOfDays hdate hdays.1 hdays.2
  have hread : dayOf year month day = .ok (t.seconds / 86400) := by
    rw [dayOf_eq hdate, if_neg (by omega)]
  have hsame : t.seconds / 86400 * 86400 + (secondOf (second / 3600) (second / 60 % 60) shown : Int) =
      t.seconds := by
    unfold secondOf
    split at hshown
    next hl =>
      have := hleap hl
      omega
    · omega
  have hleap' : decide (shown = 60) = t.leap := by
    cases hl : t.leap
    · simp only [hl, Bool.false_eq_true, if_false] at hshown
      simp only [decide_eq_false_iff_not]
      omega
    · have := hleap hl
      simp only [hl, if_true] at hshown
      simp only [decide_eq_true_eq]
      omega
  have hbounds : (-2147483648 ≤ firstYear) ∧ lastYear ≤ 2147483647 := by decide
  rw [parse, parsePrecise_text htext hmonth hday (by omega) (by omega) hle, if_neg (by omega), hread]
  simp only [Except.bind, hsame, hleap']
  rw [if_neg (by omega)]
  rfl

/-- Offsets are given in minutes. -/
lemma readShift_minutes {cs rest : List Char} {shift : Int} (h : readShift cs = .ok (shift, rest)) :
    shift % 60 = 0 := by
  obtain ⟨⟨hour, cs₁⟩, -, h⟩ := Store.bind_eq_ok h
  obtain ⟨⟨minute, cs₂⟩, -, h⟩ := Store.bind_eq_ok h
  obtain ⟨rfl, -⟩ := Prod.mk.inj (Except.ok.inj h)
  omega

lemma readOffset_minutes {cs rest : List Char} {offset : Int}
    (h : readOffset cs = .ok (offset, rest)) : offset % 60 = 0 := by
  have hzero {rest' : List Char} (h : (Except.ok (0, rest') : Except ReadError (Int × List Char)) =
      .ok (offset, rest)) : offset % 60 = 0 := by
    obtain ⟨rfl, -⟩ := Prod.mk.inj (Except.ok.inj h)
    rfl
  have hwest {cs : List Char} (h : (readShift cs).bind (fun p => .ok (-p.1, p.2)) =
      .ok (offset, rest)) : offset % 60 = 0 := by
    obtain ⟨⟨shift, cs₁⟩, hshift, h⟩ := Store.bind_eq_ok h
    obtain ⟨rfl, -⟩ := Prod.mk.inj (Except.ok.inj h)
    have := readShift_minutes hshift
    omega
  unfold readOffset at h
  split at h
  · exact hzero h
  · split at h
    · cases h
    · exact hzero h
    · exact hzero h
    · exact readShift_minutes h
    · exact hwest h
    · exact hwest h
    · cases h

/-- A point in time that has been read can be read. -/
lemma readable_of_parse {text : String} {t : Timestamp} (h : parse text = .ok t) : t.Readable := by
  obtain ⟨⟨t, nanos⟩, hprecise, rfl⟩ := Store.map_eq_ok h
  obtain ⟨⟨year, cs⟩, -, h⟩ := Store.bind_eq_ok hprecise
  obtain ⟨cs, -, h⟩ := Store.bind_eq_ok h
  obtain ⟨⟨month, cs⟩, -, h⟩ := Store.bind_eq_ok h
  obtain ⟨cs, -, h⟩ := Store.bind_eq_ok h
  obtain ⟨⟨day, cs⟩, -, h⟩ := Store.bind_eq_ok h
  obtain ⟨cs, -, h⟩ := Store.bind_eq_ok h
  obtain ⟨⟨hour, cs⟩, -, h⟩ := Store.bind_eq_ok h
  obtain ⟨cs, -, h⟩ := Store.bind_eq_ok h
  obtain ⟨⟨minute, cs⟩, -, h⟩ := Store.bind_eq_ok h
  obtain ⟨cs, -, h⟩ := Store.bind_eq_ok h
  obtain ⟨⟨second, cs⟩, -, h⟩ := Store.bind_eq_ok h
  obtain ⟨⟨nanos', cs⟩, -, h⟩ := Store.bind_eq_ok h
  obtain ⟨⟨offset, cs⟩, hoffset, h⟩ := Store.bind_eq_ok h
  have hminutes := readOffset_minutes hoffset
  dsimp only at h
  split at h
  case isFalse => cases h
  obtain ⟨days, -, h⟩ := Store.bind_eq_ok h
  split at h
  · cases h
  split at h
  · cases h
  next hrange =>
    obtain ⟨rfl, -⟩ := Prod.mk.inj (Except.ok.inj h)
    rw [not_or, not_lt, not_le] at hrange
    refine ⟨hrange.1, hrange.2, fun hleap => ?_⟩
    have hsecond : second = 60 := by simpa using hleap
    simp only [hsecond]
    omega

/-- A leap second counts in the text of a second only, so the settled time has the same text. -/
lemma render_settled (t : Timestamp) : t.settled.render = t.render := by
  unfold settled
  split
  next h =>
    obtain ⟨hleap, hlast⟩ := h
    obtain ⟨days, hdays⟩ : ∃ days, t.seconds.fdiv 86400 = days := ⟨_, rfl⟩
    rw [hdays] at hlast
    rw [Int.fdiv_eq_ediv_of_nonneg _ (by decide)] at hdays
    have hnext : (t.seconds + 1) / 86400 = days := by omega
    obtain ⟨second, hsecond⟩ : ∃ second, (t.seconds - days * 86400).toNat = second := ⟨_, rfl⟩
    have hadd : (t.seconds + 1 - days * 86400).toNat = second + 1 := by omega
    simp only [render, secondText, Int.fdiv_eq_ediv_of_nonneg _ (show (0 : Int) ≤ 86400 by decide),
      hnext, hdays, hsecond, hadd, hleap]
    rw [show (second + 1) / 3600 = second / 3600 by omega,
      show (second + 1) / 60 % 60 = second / 60 % 60 by omega,
      show (second + 1) % 60 = second % 60 + 1 by omega]
    rfl
  · rfl

/-- A time that is read from a time's text has that text. -/
lemma render_of_parse_render {t u : Timestamp} (h : parse t.render = .ok u) :
    u.render = t.render := by
  rw [parse] at h
  cases hparse : parsePrecise t.render with
  | error e => rw [hparse] at h; cases h
  | ok read =>
    obtain ⟨time, nanos⟩ := read
    rw [hparse] at h
    obtain rfl : time = u := Except.ok.inj h
    rw [(parsePrecise_render t hparse).1, render_settled]

end ControlLoop.Timestamp
