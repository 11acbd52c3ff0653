import ControlLoop.Proofs.InformerCopy

/-!
# When an informer lists, watches and rests

Whatever a client answers, an informer lists at the start, after a listing that has failed, and after a
version that has expired, and at no other time. It opens a watch from the last version that it has been
given since the last listing, however often the watch has broken off meanwhile, and it rests before a
request exactly if a failed listing or a broken watch is the last thing it has been told.
-/
namespace ControlLoop.Informer

variable {α : Type} [Resource α]

/-! ## What an informer is told -/

/-- What a turn comes to. -/
inductive News where
  /-- A listing, with its version. -/
  | listing (version : String)
  /-- A listing has failed. -/
  | refusal
  /-- A watch has been opened. -/
  | opening
  /-- A watch has delivered an object or a bookmark, with its version. -/
  | delivery (version : String)
  /-- The version of the watch is too old. -/
  | expiry
  /-- A watch could not be opened or has come to its end, for any other reason. -/
  | disconnection
  | rest
  | stop
  deriving DecidableEq, Repr

def Turn.news : Turn α → News
  | .listed (.ok listing) => .listing listing.version
  | .listed (.error _) => .refusal
  | .opened (.ok ()) => .opening
  | .opened (.error (.gone _)) => .expiry
  | .opened (.error _) => .disconnection
  | .received (.event (.added a)) => .delivery (Resource.versionText a)
  | .received (.event (.modified a)) => .delivery (Resource.versionText a)
  | .received (.event (.deleted a)) => .delivery (Resource.versionText a)
  | .received (.event (.bookmark version)) => .delivery version
  | .received (.event (.error code _)) => if code = 410 then .expiry else .disconnection
  | .received (.failed (.gone _)) => .expiry
  | .received (.failed _) => .disconnection
  | .received .ended => .disconnection
  | .rested => .rest
  | .stopped => .stop

namespace News

/-- The version that a watch has delivered. -/
def delivered? : News → Option String
  | delivery version => some version
  | _ => none

end News

/-- The last of some versions that is not empty, or else the first of them. -/
def lastGiven (first : String) (rest : List String) : String :=
  ((first :: rest).filter (· ≠ "")).getLastD first

/-- The version to go on from: the last one given by the last listing or by what has been delivered
since. -/
def ResumesAt (story : List News) (version : String) : Prop :=
  ∃ earlier first later, story = earlier ++ .listing first :: later ∧
    (∀ other, .listing other ∉ later) ∧ version = lastGiven first (later.filterMap News.delivered?)

lemma lastGiven_concat (first : String) (rest : List String) (seen : String) :
    lastGiven first (rest ++ [seen]) = advance (lastGiven first rest) seen := by
  unfold lastGiven advance
  rw [← List.cons_append, List.filter_append]
  split
  next hempty => simp [hempty]
  next hseen => simp [hseen]

/-- The version is one of those that were given. -/
lemma lastGiven_mem (first : String) (rest : List String) :
    lastGiven first rest ∈ first :: rest := by
  induction rest using List.reverseRecOn with
  | nil => by_cases h : first = "" <;> simp [lastGiven, h]
  | append_singleton rest seen ih =>
    rw [lastGiven_concat, advance]
    split
    · rw [← List.cons_append]
      exact List.mem_append_left _ ih
    · simp

variable {story : List News} {n : News} {p : Phase} {version : String}

lemma ResumesAt.listing (story : List News) (version : String) :
    ResumesAt (story ++ [.listing version]) version :=
  ⟨story, version, [], rfl, by simp, by by_cases h : version = "" <;> simp [lastGiven, h]⟩

lemma ResumesAt.delivery (h : ResumesAt story version) (seen : String) :
    ResumesAt (story ++ [.delivery seen]) (advance version seen) := by
  obtain ⟨earlier, first, later, rfl, hlast, rfl⟩ := h
  refine ⟨earlier, first, later ++ [.delivery seen], by simp, by simpa using hlast, ?_⟩
  rw [List.filterMap_append]
  exact (lastGiven_concat first _ seen).symm

/-- News without a version leave the version as it is. -/
lemma ResumesAt.other (h : ResumesAt story version) (hn : n.delivered? = none)
    (hlisting : ∀ other, n ≠ .listing other) : ResumesAt (story ++ [n]) version := by
  obtain ⟨earlier, first, later, rfl, hlast, rfl⟩ := h
  refine ⟨earlier, first, later ++ [n], by simp, fun other => ?_, ?_⟩
  · rw [List.mem_append, List.mem_singleton, not_or]
    exact ⟨hlast other, Ne.symm (hlisting other)⟩
  · simp [List.filterMap_append, hn]

/-! ## One step -/

/-- How an informer goes on after some news. -/
inductive Leads (p : Phase) : News → Phase → Prop
  | listed (version : String) : Leads p (.listing version) (.opening version)
  | refused : Leads p .refusal (.resting none)
  | expired : Leads p .expiry .listing
  | disconnected {version : String} (known : p.version? = some version) :
      Leads p .disconnection (.resting (some version))
  | opened {version : String} (known : p.version? = some version) :
      Leads p .opening (.watching version)
  | delivered {version : String} (known : p.version? = some version) (seen : String) :
      Leads p (.delivery seen) (.watching (advance version seen))
  | restedToList (rests : p = .resting none) : Leads p .rest .listing
  | restedToWatch {version : String} (rests : p = .resting (some version)) :
      Leads p .rest (.opening version)
  | stopped : Leads p .stop .stopped

variable {i j : Informer α} {t : Turn α} {changes log : List (Change α)} {turns : List (Turn α)}

lemma opened_leads (hphase : i.phase = .opening version) (answer : Except ClientError Unit) :
    Leads i.phase (Turn.opened answer : Turn α).news (i.opened version answer).phase := by
  have hknown : i.phase.version? = some version := by rw [hphase]; rfl
  cases answer with
  | ok _ => exact .opened hknown
  | error e =>
    cases e with
    | gone => exact .expired
    | notFound | conflict | invalid | transient => exact .disconnected hknown

lemma received_leads (hphase : i.phase = .watching version) (item : WatchItem α) :
    Leads i.phase (Turn.received item).news (i.received version item).1.phase := by
  have hknown : i.phase.version? = some version := by rw [hphase]; rfl
  cases item with
  | ended => exact .disconnected hknown
  | failed e =>
    cases e with
    | gone => exact .expired
    | notFound | conflict | invalid | transient => exact .disconnected hknown
  | event e =>
    cases e with
    | added | modified | deleted | bookmark => exact .delivered hknown _
    | error code text =>
      by_cases hcode : code = 410
      · simp only [Turn.news, received, if_pos hcode]
        exact .expired
      · simp only [Turn.news, received, if_neg hcode]
        exact .disconnected hknown

lemma Step.leads (h : i.Step t changes j) : Leads i.phase t.news j.phase := by
  cases h with
  | listed asks answer order =>
    cases answer with
    | ok listing => exact .listed listing.version
    | error e => exact .refused
  | opened asks answer => exact opened_leads asks answer
  | received waits item => exact received_leads waits item
  | @rested resume rests =>
    cases resume with
    | none => exact .restedToList rests
    | some version => exact .restedToWatch rests
  | stopped => exact .stopped

/-! ## Whole runs -/

/-- What an informer does next after all that it has been told. -/
inductive Course : List News → Phase → Prop
  | start : Course [] .listing
  | step {story : List News} {p : Phase} (before : Course story p) {n : News} {q : Phase}
      (next : Leads p n q) : Course (story ++ [n]) q

lemma Runs.course (h : Runs turns log i) : Course (turns.map Turn.news) i.phase := by
  induction h with
  | start => exact .start
  | step _ next ih =>
    rw [List.map_append]
    exact ih.step next.leads

/-- The version that an informer has in hand is the one to go on from. -/
lemma Course.resumesAt (h : Course story p) (hversion : p.version? = some version) :
    ResumesAt story version := by
  induction h generalizing version with
  | start => cases hversion
  | step before next ih =>
    cases next with
    | listed v =>
      obtain rfl := Option.some.inj hversion
      exact .listing _ v
    | refused | expired | restedToList | stopped => cases hversion
    | opened known | disconnected known =>
      exact (ih (known.trans hversion)).other rfl (by simp)
    | delivered known seen =>
      obtain rfl := Option.some.inj hversion
      exact (ih known).delivery seen
    | restedToWatch rests =>
      subst rests
      exact (ih hversion).other rfl (by simp)

lemma suffix_one {m n : News} : [m] <:+ story ++ [n] ↔ m = n := by
  simp [List.suffix_concat_iff, List.singleton_eq_append_iff, eq_comm]

lemma suffix_two {l m n : News} : [l, m] <:+ story ++ [n] ↔ m = n ∧ [l] <:+ story := by
  rw [List.suffix_concat_iff]
  constructor
  · rintro (hnil | ⟨rest, hrest, hsuffix⟩)
    · cases hnil
    · have hparts : [l] ++ [m] = rest ++ [n] := hrest
      obtain ⟨rfl, hn⟩ := List.append_inj' hparts rfl
      exact ⟨List.singleton_inj.mp hn, hsuffix⟩
  · rintro ⟨rfl, hsuffix⟩
    exact .inr ⟨[l], rfl, hsuffix⟩

/-- An informer rests after a listing that has failed, and then lists. -/
lemma Course.rests_to_list_iff (h : Course story p) : p = .resting none ↔ [.refusal] <:+ story := by
  cases h with
  | start => simp
  | step before next =>
    rw [suffix_one]
    cases next <;> simp

/-- It rests after a watch that has broken off, and then watches. -/
lemma Course.rests_to_watch_iff (h : Course story p) :
    (∃ version, p = .resting (some version)) ↔ [.disconnection] <:+ story := by
  cases h with
  | start => simp
  | step before next =>
    rw [suffix_one]
    cases next <;> simp

lemma Course.lists_iff (h : Course story p) :
    p = .listing ↔ story = [] ∨ [.expiry] <:+ story ∨ [.refusal, .rest] <:+ story := by
  cases h with
  | start => simp
  | step before next =>
    rw [suffix_one, suffix_two, ← before.rests_to_list_iff]
    cases next with
    | restedToList rests => simp [rests]
    | restedToWatch rests => simp [rests]
    | listed | refused | opened | delivered | expired | disconnected | stopped => simp

lemma Course.watches_iff (h : Course story p) :
    (∃ version, p = .opening version) ↔
      (∃ version, [.listing version] <:+ story) ∨ [.disconnection, .rest] <:+ story := by
  cases h with
  | start => simp
  | step before next =>
    simp only [suffix_one, suffix_two, ← before.rests_to_watch_iff]
    cases next with
    | restedToList rests => simp [rests]
    | restedToWatch rests => simp [rests]
    | listed | refused | opened | delivered | expired | disconnected | stopped => simp

/-- The last news that are no rest. -/
def latest? (story : List News) : Option News := (story.filter (· ≠ .rest)).getLast?

lemma latest?_of_suffix (hn : n ≠ .rest) (h : [n] <:+ story) : latest? story = some n := by
  obtain ⟨earlier, rfl⟩ := h
  simp [latest?, List.filter_append, hn]

lemma latest?_rest (story : List News) : latest? (story ++ [.rest]) = latest? story := by
  simp [latest?, List.filter_append]

/-- A request has a rest before it exactly if something has gone wrong before that. -/
lemma Course.rest_iff (h : Course story p) (hcall : p = .listing ∨ ∃ version, p = .opening version) :
    [.rest] <:+ story ↔ latest? story = some .refusal ∨ latest? story = some .disconnection := by
  cases h with
  | start => simp [latest?]
  | @step earlier before ih n _ next =>
    rw [suffix_one]
    cases next with
    | restedToList rests =>
      rw [latest?_rest, latest?_of_suffix (by simp) (ih.rests_to_list_iff.mp rests)]
      simp
    | restedToWatch rests =>
      rw [latest?_rest, latest?_of_suffix (by simp) (ih.rests_to_watch_iff.mp ⟨_, rests⟩)]
      simp
    | listed | expired =>
      rw [latest?_of_suffix (by simp) (List.suffix_append _ _)]
      simp
    | refused | opened | delivered | disconnected | stopped => simp at hcall

/-! ## Requests -/

omit [Resource α] in
lemma call?_eq_list_iff : i.call? = some .list ↔ i.phase = .listing := by
  unfold call?
  split <;> simp_all

omit [Resource α] in
lemma call?_eq_watch_iff : i.call? = some (.watch version) ↔ i.phase = .opening version := by
  unfold call?
  split <;> simp_all

/-- **The protocol of an informer, whatever its client answers.** It lists exactly at the start, after a
listing that has failed and the rest that follows, and after a version that has expired. It opens a watch
exactly after a listing, and after a watch that has broken off and the rest that follows. The version
that it then passes is the last one given since the last listing, that of the listing included, and a
request has a rest before it exactly if a failed listing or a broken watch came before. -/
theorem follows_resume_protocol (h : Runs turns log i) :
    let story := turns.map Turn.news
    (i.call? = some .list ↔ story = [] ∨ [.expiry] <:+ story ∨ [.refusal, .rest] <:+ story) ∧
    ((∃ version, i.call? = some (.watch version)) ↔
      (∃ version, [.listing version] <:+ story) ∨ [.disconnection, .rest] <:+ story) ∧
    (∀ version, i.call? = some (.watch version) → ∃ earlier first later,
      story = earlier ++ .listing first :: later ∧ (∀ other, .listing other ∉ later) ∧
      version = lastGiven first (later.filterMap News.delivered?) ∧
      version ∈ first :: later.filterMap News.delivered?) ∧
    (∀ call, i.call? = some call →
      ([.rest] <:+ story ↔ latest? story = some .refusal ∨ latest? story = some .disconnection)) := by
  intro story
  have hcourse : Course story i.phase := h.course
  refine ⟨call?_eq_list_iff.trans hcourse.lists_iff, ?_, fun version hcall => ?_, fun call hcall => ?_⟩
  · simp only [call?_eq_watch_iff]
    exact hcourse.watches_iff
  · have hversion : i.phase.version? = some version := by rw [call?_eq_watch_iff.mp hcall]; rfl
    obtain ⟨earlier, first, later, hstory, hlast, rfl⟩ := hcourse.resumesAt hversion
    exact ⟨earlier, first, later, hstory, hlast, rfl, lastGiven_mem first _⟩
  · refine hcourse.rest_iff ?_
    cases call with
    | list => exact .inl (call?_eq_list_iff.mp hcall)
    | watch version => exact .inr ⟨version, call?_eq_watch_iff.mp hcall⟩

/-- A client that lists after one failure, delivers two versions and an empty one, breaks off, does not
open the watch again at first, and then breaks off once more. -/
def troubledTurns : List (Turn ConfigMap) :=
  [.listed (.error (.transient "")), .rested, .listed (.ok ⟨[], "3"⟩), .opened (.ok ()),
    .received (.event (.added (sampleMap "a" "5" "x"))), .received (.event (.bookmark "8")),
    .received (.event (.deleted (sampleMap "a" "" "x"))), .received .ended, .rested,
    .opened (.error (.transient "")), .rested, .opened (.ok ()),
    .received (.event (.error 500 "")), .rested]

/-- After all of that the informer goes on from the last version that was not empty. -/
theorem follows_resume_protocol_troubled :
    ∃ log i, Runs troubledTurns log i ∧ i.call? = some (.watch "8") ∧
      ∃ earlier first later,
        troubledTurns.map Turn.news = earlier ++ .listing first :: later ∧
        (∀ other, .listing other ∉ later) ∧
        "8" = lastGiven first (later.filterMap News.delivered?) ∧
        "8" ∈ first :: later.filterMap News.delivered? := by
  have hruns : ∃ log i, Runs troubledTurns log i ∧ i.call? = some (.watch "8") := by
    have h := Runs.start (α := ConfigMap)
      |>.step (.listed rfl (.error (.transient "")) (.refl _))
      |>.step (.rested rfl)
      |>.step (.listed rfl (.ok ⟨[], "3"⟩) (.refl _))
      |>.step (.opened rfl (.ok ()))
      |>.step (.received rfl (.event (.added (sampleMap "a" "5" "x"))))
      |>.step (.received rfl (.event (.bookmark "8")))
      |>.step (.received rfl (.event (.deleted (sampleMap "a" "" "x"))))
      |>.step (.received rfl .ended)
      |>.step (.rested rfl)
      |>.step (.opened rfl (.error (.transient "")))
      |>.step (.rested rfl)
      |>.step (.opened rfl (.ok ()))
      |>.step (.received rfl (.event (.error 500 "")))
      |>.step (.rested rfl)
    exact ⟨_, _, h, rfl⟩
  obtain ⟨log, i, hruns, hcall⟩ := hruns
  exact ⟨log, i, hruns, hcall, (follows_resume_protocol hruns).2.2.1 "8" hcall⟩

end ControlLoop.Informer
