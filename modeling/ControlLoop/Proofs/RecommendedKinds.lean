import ControlLoop.Api.Discovery
import Mathlib.Data.List.Lex
import Mathlib.Data.String.Basic
import Mathlib.Tactic

/-!
# Waiting for a kind

Whoever waits for a kind looks again and again at what the server lists, and only the kinds of the
recommended version of a group count. So the wait ends at the first look at which the recommended version
has the kind. A kind that another version has is listed as well, and yet it is waited for in vain.
-/
namespace ControlLoop.Api

/-! ## The order of versions -/

namespace VersionRank

lemma stage_of_regular? {cs : List Char} {r : VersionRank} (h : regular? cs = some r) :
    r.stage ≠ .irregular := by
  have hminor {stage : Stage} (hstage : stage ≠ .irregular) {major : Nat} {rest : List Char}
      (h : minor? stage major rest = some r) : r.stage ≠ .irregular := by
    unfold minor? at h
    split at h
    · obtain rfl := Option.some.inj h
      exact hstage
    · obtain ⟨n, -, rfl⟩ := Option.map_eq_some_iff.mp h
      exact hstage
  unfold regular? at h
  split at h
  · obtain ⟨major, -, h⟩ := Option.bind_eq_some_iff.mp h
    split at h
    · obtain rfl := Option.some.inj h
      simp
    · exact hminor (by simp) h
    · exact hminor (by simp) h
    · cases h
  · cases h

/-- The name is not built as names of versions usually are. -/
def IsIrregular (name : String) : Prop := (ofName name).stage = .irregular

lemma parts_of_isIrregular {name : String} (h : IsIrregular name) : (ofName name).parts = [0, 0, 0] := by
  unfold IsIrregular ofName at h
  unfold ofName
  cases hr : regular? name.toList with
  | none => rfl
  | some r =>
    rw [hr] at h
    exact absurd h (stage_of_regular? hr)

lemma lt_parts_of_regular {name : String} (h : ¬ IsIrregular name) : [0, 0, 0] < (ofName name).parts := by
  have hrank : 0 < (ofName name).stage.rank := by
    unfold IsIrregular at h
    cases hs : (ofName name).stage <;> simp_all [Stage.rank]
  exact List.cons_lt_cons_iff.mpr (.inl hrank)

end VersionRank

open VersionRank

lemma isNewer_iff {a b : String} : isNewer a b ↔
    (ofName b).parts < (ofName a).parts ∨ IsIrregular a ∧ IsIrregular b ∧ a < b := by
  have hequal (ha : IsIrregular a) (hb : IsIrregular b) : ¬ (ofName b).parts < (ofName a).parts := by
    rw [parts_of_isIrregular ha, parts_of_isIrregular hb]
    exact List.lt_irrefl _
  unfold isNewer
  simp only
  split
  next h =>
    obtain ⟨ha, hb⟩ := h
    rw [decide_eq_true_iff]
    exact ⟨fun hlt => .inr ⟨ha, hb, hlt⟩, fun h => h.elim (fun hlt => absurd hlt (hequal ha hb)) (·.2.2)⟩
  next h =>
    rw [decide_eq_true_iff]
    exact ⟨.inl, fun hor => hor.elim id fun hirregular => absurd ⟨hirregular.1, hirregular.2.1⟩ h⟩

/-- What stands before a version stands before those that do not stand before it. -/
lemma isNewer_of_not_isNewer {a b c : String} (hab : isNewer a b) (hcb : ¬ isNewer c b) :
    isNewer a c := by
  rw [isNewer_iff] at hab hcb ⊢
  obtain ⟨hparts, htexts⟩ := not_or.mp hcb
  rcases hab with hlt | ⟨ha, hb, hlt⟩
  · exact .inl (lt_of_le_of_lt (not_lt.mp hparts) hlt)
  · -- Nothing regular comes after an irregular name, so all three are irregular.
    have hc : IsIrregular c := by
      by_contra hc
      rw [parts_of_isIrregular hb] at hparts
      exact hparts (lt_parts_of_regular hc)
    refine .inr ⟨ha, hc, lt_of_lt_of_le hlt (not_lt.mp fun hcb => htexts ⟨hc, hb, hcb⟩)⟩

lemma not_isNewer_self (a : String) : ¬ isNewer a a := by
  rw [isNewer_iff]
  rintro (h | ⟨-, -, h⟩)
  · exact lt_irrefl _ h
  · exact lt_irrefl _ h

lemma not_isNewer_of_isNewer {a b : String} (hab : isNewer a b) : ¬ isNewer b a := by
  intro hba
  rw [isNewer_iff] at hab hba
  rcases hab with hab | ⟨ha, hb, hab⟩
  · rcases hba with hba | ⟨hb, ha, -⟩
    · exact lt_asymm hab hba
    · rw [parts_of_isIrregular ha, parts_of_isIrregular hb] at hab
      exact lt_irrefl _ hab
  · rcases hba with hba | ⟨-, -, hba⟩
    · rw [parts_of_isIrregular ha, parts_of_isIrregular hb] at hba
      exact lt_irrefl _ hba
    · exact lt_asymm hab hba

/-! ## The recommended version -/

/-- The version is the first of the most stable ones. -/
def FirstNewest (versions : List ServedVersion) (v : ServedVersion) : Prop :=
  ∃ before after, versions = before ++ v :: after ∧ (∀ w ∈ before, isNewer v.version w.version) ∧
    ∀ w ∈ after, ¬ isNewer w.version v.version

lemma FirstNewest.not_isNewer {versions : List ServedVersion} {v w : ServedVersion}
    (h : FirstNewest versions v) (hw : w ∈ versions) : ¬ isNewer w.version v.version := by
  obtain ⟨before, after, rfl, hbefore, hafter⟩ := h
  rcases List.mem_append.mp hw with hw | hw
  · exact not_isNewer_of_isNewer (hbefore w hw)
  · rcases List.mem_cons.mp hw with rfl | hw
    · exact not_isNewer_self _
    · exact hafter w hw

lemma exists_firstNewest (v : ServedVersion) (versions : List ServedVersion) :
    ∃ w, FirstNewest (v :: versions) w := by
  induction versions generalizing v with
  | nil => exact ⟨v, [], [], rfl, by simp, by simp⟩
  | cons u versions ih =>
    obtain ⟨w, hw⟩ := ih u
    by_cases hnewer : isNewer w.version v.version
    · obtain ⟨before, after, heq, hbefore, hafter⟩ := hw
      exact ⟨w, v :: before, after, by rw [heq]; rfl, List.forall_mem_cons.mpr ⟨hnewer, hbefore⟩, hafter⟩
    · refine ⟨v, [], u :: versions, rfl, by simp, fun x hx hxv => ?_⟩
      exact hw.not_isNewer hx (isNewer_of_not_isNewer hxv hnewer)

namespace ServedGroup

variable {g : ServedGroup} {v : ServedVersion} {version kind : String}

/-- The version is the one that the group prefers, or the first of the most stable ones if it prefers
none. -/
def IsRecommended (g : ServedGroup) (v : ServedVersion) : Prop :=
  (g.preferred = none ∧ FirstNewest g.versions v) ∨
    g.preferred = some v.version ∧
      ∃ before after, g.versions = before ++ v :: after ∧ ∀ w ∈ before, w.version ≠ v.version

lemma IsRecommended.mem (h : g.IsRecommended v) : v ∈ g.versions := by
  rcases h with ⟨-, before, after, hversions, -⟩ | ⟨-, before, after, hversions, -⟩ <;>
    simp [hversions]

lemma foldl_better_of_not_isNewer {names : List String} {b : String}
    (h : ∀ name ∈ names, ¬ isNewer name b) : names.foldl better (some b) = some b := by
  induction names with
  | nil => rfl
  | cons name names ih =>
    obtain ⟨hname, hnames⟩ := List.forall_mem_cons.mp h
    rw [List.foldl_cons, better, if_neg hname, ih hnames]

lemma foldl_better_mem {names : List String} {best : Option String} {b : String}
    (h : names.foldl better best = some b) : best = some b ∨ b ∈ names := by
  induction names generalizing best with
  | nil => exact .inl h
  | cons name names ih =>
    rcases ih h with hbest | hb
    · cases best with
      | none => exact .inr (Option.some.inj hbest ▸ List.mem_cons_self)
      | some b' =>
        rw [better] at hbest
        split at hbest
        · exact .inr (Option.some.inj hbest ▸ List.mem_cons_self)
        · exact .inl hbest
    · exact .inr (List.mem_cons_of_mem name hb)

/-- The search for the newest version finds the first of the most stable ones. -/
lemma newest_of_firstNewest (h : FirstNewest g.versions v) : g.newest = some v.version := by
  obtain ⟨before, after, hversions, hbefore, hafter⟩ := h
  rw [newest, hversions, List.map_append, List.map_cons, List.foldl_append, List.foldl_cons]
  have hstep : better ((before.map (·.version)).foldl better none) v.version = some v.version := by
    cases hbest : (before.map (·.version)).foldl better none with
    | none => rfl
    | some b =>
      obtain hnone | hb := foldl_better_mem hbest
      · cases hnone
      · obtain ⟨w, hw, rfl⟩ := List.mem_map.mp hb
        rw [better, if_pos (hbefore w hw)]
  rw [hstep]
  refine foldl_better_of_not_isNewer fun name hname => ?_
  obtain ⟨w, hw, rfl⟩ := List.mem_map.mp hname
  exact hafter w hw

lemma find?_of_isRecommended (h : g.IsRecommended v) :
    g.versions.find? (fun w => g.recommended = some w.version) = some v := by
  rw [List.find?_eq_some_iff_append]
  rcases h with ⟨hnone, hnewest⟩ | ⟨hsome, before, after, hversions, hbefore⟩
  · have hrecommended : g.recommended = some v.version := by
      rw [recommended, hnone]
      exact newest_of_firstNewest hnewest
    obtain ⟨before, after, hversions, hbefore, -⟩ := hnewest
    refine ⟨by simpa using hrecommended, before, after, hversions, fun w hw => ?_⟩
    have hne : v.version ≠ w.version := fun heq => not_isNewer_self _ (heq ▸ hbefore w hw)
    simpa [hrecommended] using hne
  · have hrecommended : g.recommended = some v.version := by
      rw [recommended, hsome]
      rfl
    refine ⟨by simpa using hrecommended, before, after, hversions, fun w hw => ?_⟩
    simpa [hrecommended] using Ne.symm (hbefore w hw)

lemma find?_eq_some_iff : g.versions.find? (fun w => g.recommended = some w.version) = some v ↔
    g.IsRecommended v := by
  refine ⟨fun hfind => ?_, find?_of_isRecommended⟩
  cases hpreferred : g.preferred with
  | none =>
    cases hversions : g.versions with
    | nil => simp [hversions] at hfind
    | cons u versions =>
      obtain ⟨w, hw⟩ := exists_firstNewest u versions
      have hrecommended : g.IsRecommended w := .inl ⟨hpreferred, hversions ▸ hw⟩
      rw [find?_of_isRecommended hrecommended] at hfind
      exact Option.some.inj hfind ▸ hrecommended
  | some name =>
    obtain ⟨hv, before, after, hversions, hbefore⟩ := List.find?_eq_some_iff_append.mp hfind
    have hrecommended : g.recommended = some name := by
      rw [recommended, hpreferred]
      rfl
    rw [hrecommended] at hv hbefore
    obtain rfl : name = v.version := by simpa using hv
    refine .inr ⟨hpreferred, before, after, hversions, fun w hw heq => ?_⟩
    simpa [heq] using hbefore w hw

end ServedGroup

/-- The version has the kind at the given version, which is its own unless the kind says otherwise. -/
def ServedVersion.Lists (v : ServedVersion) (version kind : String) : Prop :=
  ∃ k ∈ v.kinds, k.kind = kind ∧ k.version = version

namespace ServedGroup

variable {g : ServedGroup} {version kind : String}

/-- Only the recommended version counts. -/
lemma serves_iff : g.serves version kind ↔ ∃ v, g.IsRecommended v ∧ v.Lists version kind := by
  simp only [serves, kinds, List.any_eq_true, decide_eq_true_eq, ServedVersion.Lists,
    ← find?_eq_some_iff]
  split
  next v hv => simp [hv]
  next hnone => simp [hnone]

end ServedGroup

/-! ## Looking again and again -/

section Waiting

variable {σ ε α : Type} {look : ExceptT ε (StateM σ) Bool} {s : σ} {left interval n : Nat}

/-- The state after a number of looks. -/
def stateAt (look : ExceptT ε (StateM σ) α) (s : σ) : Nat → σ
  | 0 => s
  | n + 1 => stateAt look (look s).2 n

/-- What a look finds after a number of others. -/
def foundAt (look : ExceptT ε (StateM σ) α) (s : σ) (n : Nat) : Except ε α := (look (stateAt look s n)).1

/-- The seconds that pass in a number of intervals. -/
def secondsOf (interval : Nat) : Nat → Nat
  | 0 => 0
  | n + 1 => interval + secondsOf (nextInterval interval) n

/-- Something is so after that many looks, and after no fewer. -/
def FirstAt (P : Nat → Prop) (n : Nat) : Prop := P n ∧ ∀ m < n, ¬ P m

/-- The first look that answers yes is the one after that many others. -/
def FirstYes (look : ExceptT ε (StateM σ) Bool) (s : σ) : Nat → Prop :=
  FirstAt fun n => foundAt look s n = .ok true

lemma firstYes_zero : FirstYes look s 0 ↔ (look s).1 = .ok true := by
  simp [FirstYes, FirstAt, foundAt, stateAt]

lemma firstYes_succ : FirstYes look s (n + 1) ↔ (look s).1 ≠ .ok true ∧ FirstYes look (look s).2 n := by
  constructor
  · rintro ⟨hyes, hbefore⟩
    exact ⟨hbefore 0 (Nat.succ_pos n), hyes, fun m hm => hbefore (m + 1) (Nat.succ_lt_succ hm)⟩
  · rintro ⟨hno, hyes, hbefore⟩
    refine ⟨hyes, fun m hm => ?_⟩
    cases m with
    | zero => exact hno
    | succ m => exact hbefore m (Nat.lt_of_succ_lt_succ hm)

lemma waitUntil_of_yes (h : (look s).1 = .ok true) : (waitUntil look left interval s).1 = some left := by
  rw [waitUntil]
  split
  · rfl
  next hno hlook =>
    rw [hlook] at h
    exact absurd h hno

lemma waitUntil_of_no (h : (look s).1 ≠ .ok true) : (waitUntil look left interval s).1 =
    if 0 < interval ∧ interval ≤ left then
      (waitUntil look (left - interval) (nextInterval interval) (look s).2).1
    else none := by
  rw [waitUntil]
  split
  next hlook => exact absurd (by rw [hlook]) h
  next hlook =>
    rw [hlook]
    split <;> rfl

lemma nextInterval_pos (h : 0 < interval) : 0 < nextInterval interval := by
  unfold nextInterval longestInterval
  omega

/-- A wait ends at the first look that answers yes, if time does not run out before. -/
lemma waitUntil_eq_some_iff (hpos : 0 < interval) {rest : Nat} :
    (waitUntil look left interval s).1 = some rest ↔
      ∃ n, FirstYes look s n ∧ secondsOf interval n + rest = left := by
  induction left using Nat.strong_induction_on generalizing interval s with
  | _ left ih =>
    by_cases hlook : (look s).1 = .ok true
    · rw [waitUntil_of_yes hlook]
      constructor
      · intro hleft
        exact ⟨0, firstYes_zero.mpr hlook, by simpa [secondsOf] using (Option.some.inj hleft).symm⟩
      · rintro ⟨n, hn, hleft⟩
        cases n with
        | zero => simpa [secondsOf, eq_comm] using hleft
        | succ n => exact absurd hlook (firstYes_succ.mp hn).1
    · rw [waitUntil_of_no hlook]
      -- The looks that are left are those after the first one.
      have hrest : (∃ n, FirstYes look s n ∧ secondsOf interval n + rest = left) ↔
          ∃ n, FirstYes look (look s).2 n ∧ interval + secondsOf (nextInterval interval) n + rest = left := by
        constructor
        · rintro ⟨n, hn, hleft⟩
          cases n with
          | zero => exact absurd (firstYes_zero.mp hn) hlook
          | succ n => exact ⟨n, (firstYes_succ.mp hn).2, hleft⟩
        · rintro ⟨n, hn, hleft⟩
          exact ⟨n + 1, firstYes_succ.mpr ⟨hlook, hn⟩, hleft⟩
      rw [hrest]
      split
      next htime =>
        rw [ih (left - interval) (by omega) (nextInterval_pos hpos)]
        refine exists_congr fun n => and_congr_right fun _ => ?_
        omega
      next htime =>
        refine iff_of_false (by simp) ?_
        rintro ⟨n, -, hleft⟩
        omega

end Waiting

/-! ## Waiting for a kind -/

namespace Transport

variable {σ : Type} {t : Transport σ} {s : σ} {group version kind : String} {n : Nat}

/-- Asking whether a kind is served is asking for its group. -/
lemma serves_eq (t : Transport σ) (group version kind : String) (s : σ) :
    t.serves group version kind s =
      ((t.findGroup group s).1.map fun found => found.any fun g => g.serves version kind,
        (t.findGroup group s).2) := by
  cases hfound : t.findGroup group s with
  | mk found s' =>
    simp only [serves, bind, ExceptT.bind, ExceptT.mk, StateT.bind, hfound]
    cases found <;> rfl

lemma stateAt_serves (t : Transport σ) (group version kind : String) (s : σ) (n : Nat) :
    stateAt (t.serves group version kind) s n = stateAt (t.findGroup group) s n := by
  induction n generalizing s with
  | zero => rfl
  | succ n ih => rw [stateAt, stateAt, serves_eq, ih]

/-- The look after that many others finds the kind in the group, at whichever version. -/
def ListedAt (t : Transport σ) (group version kind : String) (s : σ) (n : Nat) : Prop :=
  ∃ g v, foundAt (t.findGroup group) s n = .ok (some g) ∧ v ∈ g.versions ∧ v.Lists version kind

/-- The look after that many others finds the kind at the recommended version of the group. -/
def RecommendedAt (t : Transport σ) (group version kind : String) (s : σ) (n : Nat) : Prop :=
  ∃ g v, foundAt (t.findGroup group) s n = .ok (some g) ∧ g.IsRecommended v ∧ v.Lists version kind

lemma RecommendedAt.listedAt (h : t.RecommendedAt group version kind s n) :
    t.ListedAt group version kind s n := by
  obtain ⟨g, v, hfound, hv, hlists⟩ := h
  exact ⟨g, v, hfound, hv.mem, hlists⟩

lemma foundAt_serves_iff : foundAt (t.serves group version kind) s n = .ok true ↔
    t.RecommendedAt group version kind s n := by
  rw [foundAt, stateAt_serves, serves_eq, RecommendedAt]
  simp only [foundAt]
  cases (t.findGroup group (stateAt (t.findGroup group) s n)).1 with
  | error e => simp [Except.map]
  | ok found =>
    cases found with
    | none => simp [Except.map]
    | some g => simp [Except.map, ServedGroup.serves_iff]

lemma waitFor_eq_some_iff {limit seconds : Nat} :
    (t.waitFor group version kind limit s).1 = some seconds ↔
      ∃ n, FirstYes (t.serves group version kind) s n ∧ secondsOf firstInterval n = seconds ∧
        seconds ≤ limit := by
  have hfst : (t.waitFor group version kind limit s).1 =
      (waitUntil (t.serves group version kind) limit firstInterval s).1.map (limit - ·) := rfl
  rw [hfst, Option.map_eq_some_iff]
  constructor
  · rintro ⟨rest, hrest, hseconds⟩
    obtain ⟨n, hn, hlimit⟩ := (waitUntil_eq_some_iff (by decide)).mp hrest
    exact ⟨n, hn, by omega, by omega⟩
  · rintro ⟨n, hn, rfl, hlimit⟩
    refine ⟨limit - secondsOf firstInterval n, (waitUntil_eq_some_iff (by decide)).mpr ?_, by omega⟩
    exact ⟨n, hn, by omega⟩

/-- Whatever the server answers, a wait for a kind ends at the first look at which the recommended version
of the group has the kind at the version that is waited for, and not before, unless time runs out.
Such a kind is listed, so a wait never ends too early. It ends at the first look at which the kind is
listed, at whichever version of the group, if no look finds it at another version only. -/
theorem waitFor_first_recommended (t : Transport σ) (group version kind : String) (s : σ) :
    (∀ limit seconds, (t.waitFor group version kind limit s).1 = some seconds ↔
      ∃ n, FirstAt (t.RecommendedAt group version kind s) n ∧
        secondsOf firstInterval n = seconds ∧ seconds ≤ limit) ∧
    (∀ n, t.RecommendedAt group version kind s n → t.ListedAt group version kind s n) ∧
    ((∀ n, t.ListedAt group version kind s n → t.RecommendedAt group version kind s n) →
      ∀ limit seconds, (t.waitFor group version kind limit s).1 = some seconds ↔
        ∃ n, FirstAt (t.ListedAt group version kind s) n ∧
          secondsOf firstInterval n = seconds ∧ seconds ≤ limit) := by
  have hfirst (limit seconds : Nat) : (t.waitFor group version kind limit s).1 = some seconds ↔
      ∃ n, FirstAt (t.RecommendedAt group version kind s) n ∧
        secondsOf firstInterval n = seconds ∧ seconds ≤ limit := by
    rw [waitFor_eq_some_iff]
    simp only [FirstYes, foundAt_serves_iff]
  refine ⟨hfirst, fun n => RecommendedAt.listedAt, fun hlisted limit seconds => ?_⟩
  have hsame : t.RecommendedAt group version kind s = t.ListedAt group version kind s :=
    funext fun n => propext ⟨RecommendedAt.listedAt, hlisted n⟩
  rw [hfirst, hsame]

/-- A server with two versions of a group, of which it prefers the second. Both have widgets. -/
def twoVersions : Transport Unit where
  send r := fun s =>
    (.ok { body :=
      if r.target = "/apis" then
        "\x7b\"groups\":[\x7b\"name\":\"example.com\",\"versions\":" ++
          "[\x7b\"groupVersion\":\"example.com/v1\",\"version\":\"v1\"\x7d," ++
          "\x7b\"groupVersion\":\"example.com/v2\",\"version\":\"v2\"\x7d]," ++
          "\"preferredVersion\":\x7b\"groupVersion\":\"example.com/v2\",\"version\":\"v2\"\x7d\x7d]\x7d"
      else if r.target = "/apis/example.com/v1" then
        "\x7b\"groupVersion\":\"example.com/v1\",\"resources\":" ++
          "[\x7b\"name\":\"widgets\",\"kind\":\"Widget\"\x7d]\x7d"
      else
        "\x7b\"groupVersion\":\"example.com/v2\",\"resources\":" ++
          "[\x7b\"name\":\"widgets\",\"kind\":\"Widget\"\x7d]\x7d" }, s)

/-- The group as that server shows it. -/
def bothHaveWidgets : ServedGroup where
  name := "example.com"
  versions := [⟨"v1", [⟨"Widget", "v1"⟩]⟩, ⟨"v2", [⟨"Widget", "v2"⟩]⟩]
  preferred := some "v2"

lemma findGroup_twoVersions :
    (twoVersions.findGroup "example.com" ()).1.toOption = some (some bothHaveWidgets) := by
  decide +kernel

lemma foundAt_twoVersions (n : Nat) :
    foundAt (twoVersions.findGroup "example.com") () n = .ok (some bothHaveWidgets) := by
  have hfound := findGroup_twoVersions
  rw [foundAt]
  generalize (twoVersions.findGroup "example.com" _).1 = answer at hfound ⊢
  cases answer with
  | error e => cases hfound
  | ok found => exact congrArg Except.ok (Option.some.inj hfound)

/-- At that server widgets of the second version are there at the first look. -/
theorem waitFor_first_recommended_preferred :
    (∀ n, twoVersions.ListedAt "example.com" "v2" "Widget" () n →
      twoVersions.RecommendedAt "example.com" "v2" "Widget" () n) ∧
    (twoVersions.waitFor "example.com" "v2" "Widget" 0 ()).1 = some 0 := by
  have hrecommended (n : Nat) : twoVersions.RecommendedAt "example.com" "v2" "Widget" () n :=
    ⟨_, ⟨"v2", [⟨"Widget", "v2"⟩]⟩, foundAt_twoVersions n,
      .inr ⟨rfl, [⟨"v1", [⟨"Widget", "v1"⟩]⟩], [], rfl, by simp⟩, _, List.mem_singleton.mpr rfl, rfl, rfl⟩
  have hlisted (n : Nat) : twoVersions.ListedAt "example.com" "v2" "Widget" () n →
      twoVersions.RecommendedAt "example.com" "v2" "Widget" () n := fun _ => hrecommended n
  refine ⟨hlisted, ?_⟩
  have hwait := (waitFor_first_recommended twoVersions "example.com" "v2" "Widget" ()).2.2 hlisted
  rw [hwait]
  exact ⟨0, ⟨(hrecommended 0).listedAt, by simp⟩, rfl, le_rfl⟩

/-- Widgets of the first version are there as well, but no wait for them ends. -/
theorem waitFor_misses_listed :
    (∀ n, twoVersions.ListedAt "example.com" "v1" "Widget" () n) ∧
    ∀ limit, (twoVersions.waitFor "example.com" "v1" "Widget" limit ()).1 = none := by
  refine ⟨fun n => ?_, fun limit => ?_⟩
  · exact ⟨_, ⟨"v1", [⟨"Widget", "v1"⟩]⟩, foundAt_twoVersions n, List.mem_cons_self, _,
      List.mem_singleton.mpr rfl, rfl, rfl⟩
  · refine Option.eq_none_iff_forall_ne_some.mpr fun seconds hwait => ?_
    obtain ⟨n, ⟨hyes, -⟩, -⟩ := waitFor_eq_some_iff.mp hwait
    obtain ⟨g, v, hfound, hv, hlists⟩ := foundAt_serves_iff.mp hyes
    obtain rfl : g = bothHaveWidgets := by
      rw [foundAt_twoVersions] at hfound
      simpa using hfound.symm
    have hserves : bothHaveWidgets.serves "v1" "Widget" = true := ServedGroup.serves_iff.mpr ⟨v, hv, hlists⟩
    exact absurd hserves (by decide)

end Transport

end ControlLoop.Api
