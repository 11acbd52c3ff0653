import ControlLoop.Operator.Run
import Mathlib.Tactic

/-!
# Starting and stopping in order

An operator works off its plan. If an endpoint cannot be opened, it has worked off the part of the plan
before that endpoint, and goes on with its retreat. Either way the steps taken so far are the beginning
of a course that is known in advance, and the state of the operator is what these steps have made of it.
So whatever stands before a step of the course has been done when that step has been taken: controllers
are run after all endpoints have been opened, and what is told to stop waits for what has to stop before.
-/
namespace ControlLoop

/-! ## Registration -/

/-- No part of the name has a slash in it. -/
structure KindName.SlashFree (k : KindName) : Prop where
  group : '/' ∉ k.group.toList
  version : '/' ∉ k.version.toList
  kind : '/' ∉ k.kind.toList

/-- Texts that are equal up to their first separators and after them. -/
lemma eq_of_append_separator {α : Type} {c : α} {x y a b : List α} (hx : c ∉ x) (hy : c ∉ y)
    (h : x ++ c :: a = y ++ c :: b) : x = y ∧ a = b := by
  rcases List.append_eq_append_iff.mp h with ⟨as, rfl, has⟩ | ⟨bs, rfl, hbs⟩
  · cases as with
    | nil => simpa using has
    | cons d as => simp [(List.cons.inj has).1] at hy
  · cases bs with
    | nil => simpa [eq_comm] using hbs
    | cons d bs => simp [(List.cons.inj hbs).1] at hx

/-- Kinds are told apart by their texts if these have no slashes but the two between the parts. -/
lemma KindName.SlashFree.eq_of_text {j k : KindName} (hj : j.SlashFree) (hk : k.SlashFree)
    (h : j.text = k.text) : j = k := by
  have hlist := congrArg String.toList h
  simp only [KindName.text, String.toList_append, List.append_assoc] at hlist
  obtain ⟨hgroup, hrest⟩ := eq_of_append_separator hj.group hk.group hlist
  obtain ⟨hversion, hkind⟩ := eq_of_append_separator hj.version hk.version hrest
  cases j
  cases k
  exact KindName.mk.injEq .. ▸
    ⟨String.toList_inj.mp hgroup, String.toList_inj.mp hversion, String.toList_inj.mp hkind⟩

namespace Operator

variable {o : Operator} {m : Manager} {ms : List Manager}

lemma register_of_known (h : m.kind.text ∈ o.registered) :
    o.register m = (some (.duplicateResource m.kind.text), o) := by
  simp [register, h]

lemma register_of_new (h : m.kind.text ∉ o.registered) :
    o.register m = (none, { o with
      managers := o.managers ++ [m]
      registered := m.kind.text :: o.registered }) := by
  simp [register, h]

lemma registerAll_append (o : Operator) (l l' : List Manager) :
    (o.registerAll (l ++ l')).2 = ((o.registerAll l).2.registerAll l').2 := by
  induction l generalizing o with
  | nil => rfl
  | cons m l ih => exact ih _

/-- A controller of the list with none for its kind before it. -/
def First (ms : List Manager) (m : Manager) : Prop :=
  ∃ before after, ms = before ++ m :: after ∧ ∀ other ∈ before, other.kind ≠ m.kind

/-- The first controllers of each kind, in the order of the list. -/
structure Firsts (ms managers : List Manager) : Prop where
  sublist : managers.Sublist ms
  distinct : managers.Pairwise fun a b => a.kind ≠ b.kind
  mem_iff : ∀ m, m ∈ managers ↔ First ms m

lemma first_concat {x : Manager} :
    First (ms ++ [m]) x ↔ First ms x ∨ x = m ∧ ∀ other ∈ ms, other.kind ≠ m.kind := by
  constructor
  · rintro ⟨before, after, hsplit, hbefore⟩
    rcases List.eq_nil_or_concat after with rfl | ⟨after, last, rfl⟩
    · obtain ⟨rfl, hx⟩ := List.append_inj' hsplit rfl
      obtain rfl := (List.cons.inj hx).1
      exact .inr ⟨rfl, hbefore⟩
    · rw [List.concat_eq_append, ← List.cons_append, ← List.append_assoc] at hsplit
      exact .inl ⟨before, after, (List.append_inj' hsplit rfl).1, hbefore⟩
  · rintro (⟨before, after, rfl, hbefore⟩ | ⟨rfl, hother⟩)
    · exact ⟨before, after ++ [m], by simp, hbefore⟩
    · exact ⟨ms, [], rfl, hother⟩

/-- Every kind of the list has a first controller. -/
lemma exists_first (hm : m ∈ ms) : ∃ x, First ms x ∧ x.kind = m.kind := by
  induction ms with
  | nil => simp at hm
  | cons a ms ih =>
    by_cases ha : a.kind = m.kind
    · exact ⟨a, ⟨[], ms, rfl, by simp⟩, ha⟩
    · have hrest : m ∈ ms := by
        rcases List.mem_cons.mp hm with rfl | hrest
        · exact absurd rfl ha
        · exact hrest
      obtain ⟨x, ⟨before, after, rfl, hbefore⟩, hx⟩ := ih hrest
      refine ⟨x, ⟨a :: before, after, rfl, ?_⟩, hx⟩
      rw [List.forall_mem_cons, hx]
      exact ⟨ha, hx ▸ hbefore⟩

/-- The names entered are those of the kinds that have a controller. -/
def Entered (o : Operator) : Prop :=
  ∀ name, name ∈ o.registered ↔ ∃ m ∈ o.managers, m.kind.text = name

lemma Entered.register (h : o.Entered) (m : Manager) : (o.register m).2.Entered := by
  by_cases hm : m.kind.text ∈ o.registered
  · rw [register_of_known hm]
    exact h
  · rw [register_of_new hm]
    intro name
    simp only [List.mem_cons, h name, List.mem_append, List.not_mem_nil, or_false]
    constructor
    · rintro (rfl | ⟨x, hx, rfl⟩)
      · exact ⟨m, .inr rfl, rfl⟩
      · exact ⟨x, .inl hx, rfl⟩
    · rintro ⟨x, hx | rfl, rfl⟩
      · exact .inr ⟨x, hx, rfl⟩
      · exact .inl rfl

lemma Entered.registerAll (h : o.Entered) (ms : List Manager) : (o.registerAll ms).2.Entered := by
  induction ms generalizing o with
  | nil => exact h
  | cons m ms ih => exact ih (h.register m)

/-- A controller is refused if there is one for its kind, and then nothing changes. -/
lemma Entered.register_cases (h : o.Entered) (hms : ∀ x ∈ o.managers, x.kind.SlashFree)
    (hm : m.kind.SlashFree) :
    (∃ other ∈ o.managers, other.kind = m.kind) ∧
        o.register m = (some (.duplicateResource m.kind.text), o) ∨
      (∀ other ∈ o.managers, other.kind ≠ m.kind) ∧ (o.register m).1 = none ∧
        (o.register m).2.managers = o.managers ++ [m] := by
  by_cases hknown : m.kind.text ∈ o.registered
  · obtain ⟨other, hother, htext⟩ := (h _).mp hknown
    exact .inl ⟨⟨other, hother, (hms other hother).eq_of_text hm htext⟩, register_of_known hknown⟩
  · refine .inr ⟨fun other hother hkind => hknown ((h _).mpr ⟨other, hother, by rw [hkind]⟩), ?_⟩
    rw [register_of_new hknown]
    exact ⟨rfl, rfl⟩

/-- An operator with endpoints to which these controllers have been offered one after the other. -/
def offered (address : Endpoint → Option String) (ms : List Manager) : Operator :=
  (({ address := address } : Operator).registerAll ms).2

lemma offered_entered (address : Endpoint → Option String) (ms : List Manager) :
    (offered address ms).Entered := by
  refine Entered.registerAll (fun name => ?_) ms
  simp

lemma offered_firsts (address : Endpoint → Option String) (hms : ∀ m ∈ ms, m.kind.SlashFree) :
    Firsts ms (offered address ms).managers := by
  induction ms using List.reverseRecOn with
  | nil => exact ⟨.slnil, .nil, fun m => by simp [offered, registerAll, First]⟩
  | append_singleton ms m ih =>
    obtain ⟨hsublist, hdistinct, hmem⟩ := ih fun x hx => hms x (List.mem_append_left _ hx)
    have hstep : offered address (ms ++ [m]) = ((offered address ms).register m).2 :=
      registerAll_append _ ms [m]
    have hfree (x : Manager) (hx : x ∈ (offered address ms).managers) : x.kind.SlashFree :=
      hms x (List.mem_append_left _ (hsublist.subset hx))
    rcases (offered_entered address ms).register_cases hfree (hms m (by simp)) with
      ⟨⟨other, hother, hkind⟩, heq⟩ | ⟨hnew, -, heq⟩
    · rw [hstep, heq]
      refine ⟨hsublist.trans (List.sublist_append_left ms [m]), hdistinct, fun x => ?_⟩
      rw [first_concat, hmem, or_iff_left]
      exact fun h => h.2 other (hsublist.subset hother) hkind
    · rw [hstep, heq]
      refine ⟨hsublist.append (List.Sublist.refl [m]), ?_, fun x => ?_⟩
      · rw [List.pairwise_append]
        exact ⟨hdistinct, List.pairwise_singleton _ m, by simpa using hnew⟩
      · -- A kind that no controller has been taken for is new to the whole list.
        have hall : ∀ other ∈ ms, other.kind ≠ m.kind := by
          intro other hother hkind
          obtain ⟨first, hfirst, hx⟩ := exists_first hother
          exact hnew first ((hmem first).mpr hfirst) (hx.trans hkind)
        rw [first_concat, ← hmem, List.mem_append, List.mem_singleton]
        exact or_congr_right (iff_self_and.mpr fun _ => hall)

/-! ## Courses -/

variable {opening : Opening} {r : Run} {steps done rest : List Step}

/-- The task that a step starts. -/
def Step.starts? : Step → Option Task
  | .serve e => some (.server e)
  | .manage m => some (.controller m)
  | _ => none

/-- The group that a step tells to stop. -/
def Step.cancels? : Step → Option Scope
  | .cancel s => some s
  | _ => none

/-- What a step reports. -/
def Step.reports? : Step → Option (Except Failure Unit)
  | .finish result => some result
  | _ => none

def Task.manager? : Task → Option Manager
  | .server _ => none
  | .controller m => some m

/-- The controllers that have been run, in order. -/
def Run.managed (r : Run) : List Manager := r.started.filterMap Task.manager?

/-- All the steps that an operator takes: those of its plan, or those before an endpoint that cannot be
opened and then the retreat. -/
inductive Course (o : Operator) (opening : Opening) : List Step → Prop
  | whole : Course o opening (plan o)
  | broken {before after : List Endpoint} {e : Endpoint} {f : Failure}
      (split : o.endpoints = before ++ e :: after) (opened : ∀ x ∈ before, opening x = .ok ())
      (refused : opening e = .error f) :
      Course o opening (before.map .serve ++ retreat (before.map .server) f)

/-- The first of the endpoints that cannot be opened, and why. -/
def Refused (o : Operator) (opening : Opening) (f : Failure) : Prop :=
  ∃ before e after, o.endpoints = before ++ e :: after ∧ (∀ x ∈ before, opening x = .ok ()) ∧
    opening e = .error f

lemma Refused.unique {f g : Failure} (hf : o.Refused opening f) (hg : o.Refused opening g) :
    f = g := by
  obtain ⟨before, e, after, hsplit, hopened, hfail⟩ := hf
  obtain ⟨before', e', after', hsplit', hopened', hfail'⟩ := hg
  rcases List.append_eq_append_iff.mp (hsplit.symm.trans hsplit') with ⟨l, rfl, hl⟩ | ⟨l, rfl, hl⟩
  all_goals
    cases l with
    | nil =>
      obtain ⟨rfl, -⟩ := List.cons.inj hl
      simpa [hfail] using hfail'
    | cons x l =>
      obtain ⟨rfl, -⟩ := List.cons.inj hl
      simp_all

/-- The state is what these steps have made of it. -/
structure Run.Performed (opening : Opening) (done : List Step) (r : Run) : Prop where
  opened : ∀ e, .serve e ∈ done → opening e = .ok ()
  started : r.started = done.filterMap Step.starts?
  cancelled : r.cancelled = done.filterMap Step.cancels?
  asked : .awaitStop ∈ done → r.stopping = true
  joined : ∀ t, .join t ∈ done → t ∈ r.returned
  result : r.result = (done.filterMap Step.reports?).getLast?

/-- The steps taken and the steps left make up a course. -/
def Run.OnCourse (o : Operator) (opening : Opening) (r : Run) : Prop :=
  ∃ done, Course o opening (done ++ r.steps) ∧ r.Performed opening done

/-- What stands before a step of a course has been done if that step has. -/
lemma mem_of_before {a b : List Step} {s x : Step} (h : done ++ rest = a ++ b) (hs : s ∈ done)
    (ha : s ∉ a) (hx : x ∈ a) : x ∈ done := by
  rcases List.append_eq_append_iff.mp h with ⟨l, rfl, -⟩ | ⟨l, rfl, -⟩
  · exact absurd (List.mem_append_left l hs) ha
  · exact List.mem_append_left l hx

/-- What stands before the next step of a course has been done. -/
lemma mem_of_next {a b : List Step} {s x : Step} (h : done ++ s :: rest = a ++ b) (ha : s ∉ a)
    (hx : x ∈ a) : x ∈ done ∨ x = s := by
  rw [List.append_cons] at h
  simpa using mem_of_before h (List.mem_append_right done (List.mem_singleton_self s)) ha hx

/-- All is done when the last step is. -/
lemma done_eq_of_last {a : List Step} {s : Step} (h : done ++ rest = a ++ [s]) (hs : s ∈ done)
    (ha : s ∉ a) : done = a ++ [s] := by
  rcases List.append_eq_append_iff.mp h with ⟨l, rfl, -⟩ | ⟨l, rfl, hl⟩
  · exact absurd (List.mem_append_left l hs) ha
  · cases l with
    | nil => exact absurd (by simpa using hs) ha
    | cons x l =>
      obtain ⟨rfl, hnil⟩ := List.cons.inj hl
      rw [(List.append_eq_nil_iff.mp hnil.symm).1]

/-- Another step is taken. -/
lemma Run.Performed.snoc (h : r.Performed opening done) (s : Step) {r' : Run}
    (hopened : ∀ e, s = .serve e → opening e = .ok ())
    (hstarted : r'.started = r.started ++ s.starts?.toList)
    (hcancelled : r'.cancelled = r.cancelled ++ s.cancels?.toList)
    (hasked : s = .awaitStop ∨ r.stopping = true → r'.stopping = true)
    (hjoined : ∀ t, s = .join t ∨ t ∈ r.returned → t ∈ r'.returned)
    (hresult : r'.result = s.reports?.or r.result) : r'.Performed opening (done ++ [s]) := by
  have hfilter {β : Type} (f : Step → Option β) :
      (done ++ [s]).filterMap f = done.filterMap f ++ (f s).toList := by
    rw [List.filterMap_append, List.filterMap_cons]
    cases f s <;> rfl
  constructor
  · intro e he
    rcases List.mem_append.mp he with he | he
    · exact h.opened e he
    · exact hopened e (List.mem_singleton.mp he).symm
  · rw [hstarted, h.started, hfilter]
  · rw [hcancelled, h.cancelled, hfilter]
  · intro hs
    rcases List.mem_append.mp hs with hs | hs
    · exact hasked (.inr (h.asked hs))
    · exact hasked (.inl (List.mem_singleton.mp hs).symm)
  · intro t ht
    rcases List.mem_append.mp ht with ht | ht
    · exact hjoined t (.inr (h.joined t ht))
    · exact hjoined t (.inl (List.mem_singleton.mp ht).symm)
  · rw [hresult, h.result, hfilter, List.getLast?_append]
    cases s.reports? <;> rfl

lemma Run.Performed.cancel_mem (h : r.Performed opening done) {s : Scope} (hs : s ∈ r.cancelled) :
    .cancel s ∈ done := by
  rw [h.cancelled] at hs
  obtain ⟨step, hstep, hcancels⟩ := List.mem_filterMap.mp hs
  cases step <;> simp [Step.cancels?] at hcancels
  exact hcancels ▸ hstep

lemma Run.Performed.finish_mem (h : r.Performed opening done) {result : Except Failure Unit}
    (hr : r.result = some result) : .finish result ∈ done := by
  rw [h.result] at hr
  obtain ⟨step, hstep, hreports⟩ := List.mem_filterMap.mp (List.mem_of_getLast? hr)
  cases step <;> simp [Step.reports?] at hreports
  exact hreports ▸ hstep

/-- The steps of the plan after the endpoints have been opened. -/
def planAfterOpening (o : Operator) : List Step :=
  o.managers.map .manage ++ .awaitStop ::
    (release .controllers (o.managers.map .controller) ++
      (release .webhook (serversIn .webhook o.endpoints) ++
        (release .supervision (serversIn .supervision o.endpoints) ++ [.finish (.ok ())])))

lemma plan_eq (o : Operator) : plan o = o.endpoints.map .serve ++ planAfterOpening o := by
  simp [plan, planAfterOpening]

/-- The steps of the plan before the webhook is told to stop. -/
def planBeforeWebhook (o : Operator) : List Step :=
  o.endpoints.map .serve ++ o.managers.map .manage ++ [.awaitStop] ++
    release .controllers (o.managers.map .controller)

lemma plan_eq_webhook (o : Operator) : plan o = planBeforeWebhook o ++
    (release .webhook (serversIn .webhook o.endpoints) ++
      (release .supervision (serversIn .supervision o.endpoints) ++ [.finish (.ok ())])) := by
  simp [plan, planBeforeWebhook]

lemma serve_notMem_planAfterOpening (o : Operator) (e : Endpoint) :
    .serve e ∉ planAfterOpening o := by
  simp [planAfterOpening, release]

lemma serve_notMem_retreat (tasks : List Task) (f : Failure) (e : Endpoint) :
    .serve e ∉ retreat tasks f := by
  simp [retreat, release]

/-- Before an endpoint of the plan there are those that are opened first, and nothing else. -/
lemma split_of_plan_eq {e : Endpoint} (h : plan o = done ++ .serve e :: rest) :
    ∃ before after, o.endpoints = before ++ e :: after ∧ done = before.map .serve := by
  rw [plan_eq] at h
  rcases List.append_eq_append_iff.mp h with ⟨l, -, hl⟩ | ⟨l, hl, hrest⟩
  · exact absurd (hl ▸ by simp) (serve_notMem_planAfterOpening o e)
  · cases l with
    | nil =>
      rw [List.nil_append] at hrest
      exact absurd (hrest ▸ by simp) (serve_notMem_planAfterOpening o e)
    | cons s l =>
      obtain ⟨rfl, -⟩ := List.cons.inj hrest
      obtain ⟨before, after, hsplit, hbefore, hafter⟩ := List.map_eq_append_iff.mp hl
      obtain ⟨x, after, rfl, hx, -⟩ := List.map_eq_cons_iff.mp hafter
      obtain rfl := Step.serve.inj hx
      exact ⟨before, after, hsplit, hbefore.symm⟩

lemma filterMap_starts?_serve (l : List Endpoint) :
    (l.map .serve).filterMap Step.starts? = l.map .server := by
  rw [List.filterMap_map, show Step.starts? ∘ Step.serve = some ∘ Task.server from rfl,
    List.filterMap_eq_map]

lemma filterMap_starts?_release (s : Scope) (tasks : List Task) :
    (release s tasks).filterMap Step.starts? = [] := by
  simp only [release, List.filterMap_cons, Step.starts?, List.filterMap_map]
  exact List.filterMap_eq_nil_iff.mpr fun _ _ => rfl

/-- An endpoint that could not be opened leads from the plan to the retreat. -/
lemma Run.OnCourse.refuse (h : r.OnCourse o opening) {e : Endpoint} {f : Failure}
    (hsteps : r.steps = .serve e :: rest) (hfail : opening e = .error f) :
    Run.OnCourse o opening { r with steps := retreat r.started f } := by
  obtain ⟨done, hcourse, hdone⟩ := h
  rw [hsteps] at hcourse
  generalize hall : done ++ .serve e :: rest = all at hcourse
  cases hcourse with
  | whole =>
    obtain ⟨before, after, hsplit, rfl⟩ := split_of_plan_eq hall.symm
    have hstarted : r.started = before.map .server := by
      rw [hdone.started, filterMap_starts?_serve]
    refine ⟨before.map .serve, ?_, hdone.opened, hdone.started, hdone.cancelled, hdone.asked,
      hdone.joined, hdone.result⟩
    rw [hstarted]
    exact .broken hsplit (fun x hx => hdone.opened x (List.mem_map_of_mem hx)) hfail
  | broken hsplit hopened _ =>
    -- The endpoints of a broken course are those that can be opened.
    have hmem : Step.serve e ∈ done ++ .serve e :: rest := by simp
    rw [hall, List.mem_append, or_iff_left (serve_notMem_retreat _ _ e)] at hmem
    obtain ⟨x, hx, hxe⟩ := List.mem_map.mp hmem
    obtain rfl := Step.serve.inj hxe
    exact absurd (hopened x hx) (by simp [hfail])

lemma Run.OnCourse.proceed (h : r.OnCourse o opening) : (r.proceed opening).OnCourse o opening := by
  -- Whatever the next step is, it is the last one that has been taken afterwards.
  have take (s : Step) (rest : List Step) (r' : Run) (hsteps : r.steps = s :: rest)
      (hsteps' : r'.steps = rest)
      (hsnoc : ∀ done, r.Performed opening done → r'.Performed opening (done ++ [s])) :
      r'.OnCourse o opening := by
    obtain ⟨done, hcourse, hdone⟩ := h
    refine ⟨done ++ [s], ?_, hsnoc done hdone⟩
    rw [hsteps', List.append_assoc, List.singleton_append, ← hsteps]
    exact hcourse
  unfold Run.proceed
  split
  · exact h
  next e rest hsteps =>
    split
    next hopen =>
      refine take _ rest _ hsteps rfl fun done hdone => hdone.snoc _ ?_ rfl ?_ ?_ ?_ rfl
      · rintro _ ⟨⟩
        exact hopen
      all_goals simp [Step.cancels?]
    next f hfail => exact h.refuse hsteps hfail
  next m rest hsteps =>
    refine take _ rest _ hsteps rfl fun done hdone => hdone.snoc _ ?_ rfl ?_ ?_ ?_ rfl <;>
      simp [Step.cancels?]
  next rest hsteps =>
    split
    next hstop =>
      refine take _ rest _ hsteps rfl fun done hdone => hdone.snoc _ ?_ ?_ ?_ ?_ ?_ rfl <;>
        simp [Step.cancels?, Step.starts?, hstop]
    next => exact h
  next s rest hsteps =>
    refine take _ rest _ hsteps rfl fun done hdone => hdone.snoc _ ?_ ?_ rfl ?_ ?_ rfl <;>
      simp [Step.starts?]
  next t rest hsteps =>
    split
    next ht =>
      refine take _ rest _ hsteps rfl fun done hdone => hdone.snoc _ ?_ ?_ ?_ ?_ ?_ rfl
      case refine_5 =>
        rintro x (hx | hx)
        · obtain rfl := Step.join.inj hx
          exact ht
        · exact hx
      all_goals simp [Step.cancels?, Step.starts?]
    next => exact h
  next result rest hsteps =>
    refine take _ rest _ hsteps rfl fun done hdone => hdone.snoc _ ?_ ?_ ?_ ?_ ?_ rfl <;>
      simp [Step.cancels?, Step.starts?]

lemma Run.OnCourse.next (h : r.OnCourse o opening) (x : Happening) :
    (r.next opening x).OnCourse o opening := by
  cases x with
  | proceed => exact h.proceed
  | askToStop =>
    obtain ⟨done, hcourse, hdone⟩ := h
    exact ⟨done, hcourse, hdone.opened, hdone.started, hdone.cancelled, fun _ => rfl, hdone.joined,
      hdone.result⟩
  | returns t =>
    simp only [Run.next]
    split
    · obtain ⟨done, hcourse, hdone⟩ := h
      exact ⟨done, hcourse, hdone.opened, hdone.started, hdone.cancelled, hdone.asked,
        fun t ht => List.mem_append_left _ (hdone.joined t ht), hdone.result⟩
    · exact h

/-- What has become of an operator after some happenings. -/
def Run.after (opening : Opening) (r : Run) (happenings : List Happening) : Run :=
  happenings.foldl (Run.next opening) r

lemma Run.OnCourse.after (h : r.OnCourse o opening) (happenings : List Happening) :
    (r.after opening happenings).OnCourse o opening := by
  induction happenings generalizing r with
  | nil => exact h
  | cons x happenings ih => exact ih (h.next x)

lemma ofOperator_onCourse (o : Operator) (opening : Opening) :
    (Run.ofOperator o).OnCourse o opening :=
  ⟨[], .whole, by simp, rfl, rfl, by simp, by simp, rfl⟩

/-! ## What comes before what -/

/-- The endpoints that have been opened before another one are endpoints for supervision, since the
webhook is the last one. -/
lemma scope_of_endpoints_eq {before after : List Endpoint} {e x : Endpoint}
    (h : o.endpoints = before ++ e :: after) (hx : x ∈ before) :
    (Task.server x).scope = .supervision := by
  have horder : ([.metrics, .health, .webhook] : List Endpoint).Pairwise fun a _ =>
      (Task.server a).scope = .supervision := by decide
  have hsub : o.endpoints.Sublist [.metrics, .health, .webhook] := List.filter_sublist
  have hpairwise := horder.sublist hsub
  rw [h, List.pairwise_append] at hpairwise
  exact hpairwise.2.2 x hx e (by simp)

/-- The controllers that a list of steps runs. -/
def managedBy (steps : List Step) : List Manager :=
  (steps.filterMap Step.starts?).filterMap Task.manager?

lemma managedBy_append (a b : List Step) : managedBy (a ++ b) = managedBy a ++ managedBy b := by
  simp only [managedBy, List.filterMap_append]

lemma managedBy_serve (l : List Endpoint) : managedBy (l.map .serve) = [] := by
  simp [managedBy, Function.comp_def, Step.starts?, Task.manager?]

lemma managedBy_release (s : Scope) (tasks : List Task) : managedBy (release s tasks) = [] := by
  rw [managedBy, filterMap_starts?_release]
  rfl

lemma managedBy_plan (o : Operator) : managedBy (plan o) = o.managers := by
  have hmanage : managedBy (o.managers.map .manage) = o.managers := by
    simp [managedBy, Function.comp_def, Step.starts?, Task.manager?]
  have hawait : managedBy [.awaitStop] = [] := rfl
  have hfinish (result : Except Failure Unit) : managedBy [.finish result] = [] := rfl
  simp only [plan, managedBy_append, managedBy_serve, managedBy_release, hmanage, hawait, hfinish,
    List.nil_append, List.append_nil]

lemma managedBy_broken (before : List Endpoint) (tasks : List Task) (f : Failure) :
    managedBy (before.map .serve ++ retreat tasks f) = [] := by
  simp only [retreat, managedBy_append, managedBy_serve, managedBy_release]
  rfl

/-- Each task that `steps` wait for has been started and its group told to stop before that, in `steps`
or already in `earlier`. -/
def JoinsDue (earlier steps : List Step) : Prop :=
  ∀ done rest t, steps = done ++ .join t :: rest →
    (∃ s ∈ earlier ++ done, s.starts? = some t) ∧ .cancel t.scope ∈ earlier ++ done

lemma JoinsDue.append {earlier a b : List Step} (ha : JoinsDue earlier a)
    (hb : JoinsDue (earlier ++ a) b) : JoinsDue earlier (a ++ b) := by
  intro done rest t h
  rcases List.append_eq_append_iff.mp h with ⟨l, rfl, hl⟩ | ⟨l, rfl, hl⟩
  · rw [← List.append_assoc]
    exact hb l rest t hl
  · cases l with
    | nil => simpa using hb [] rest t hl.symm
    | cons s l =>
      obtain ⟨rfl, -⟩ := List.cons.inj hl
      exact ha done l t rfl

lemma joinsDue_of_forall_ne {earlier steps : List Step} (h : ∀ t, .join t ∉ steps) :
    JoinsDue earlier steps := by
  rintro done rest t rfl
  exact absurd (by simp) (h t)

lemma joinsDue_release {earlier : List Step} {s : Scope} {tasks : List Task}
    (h : ∀ t ∈ tasks, t.scope = s ∧ ∃ x ∈ earlier, x.starts? = some t) :
    JoinsDue earlier (release s tasks) := by
  intro done rest t hsplit
  cases done with
  | nil => simp [release] at hsplit
  | cons x done =>
    obtain ⟨rfl, hjoins⟩ := List.cons.inj hsplit
    obtain ⟨rfl, x, hx, hstarts⟩ := h t (by
      have hmem : .join t ∈ tasks.map Step.join := by simp [hjoins]
      simpa using hmem)
    exact ⟨⟨x, List.mem_append_left _ hx, hstarts⟩, by simp⟩

lemma scope_of_mem_serversIn {s : Scope} {endpoints : List Endpoint} {t : Task}
    (ht : t ∈ serversIn s endpoints) : t.scope = s ∧ ∃ e ∈ endpoints, t = .server e := by
  simp only [serversIn, List.mem_filter, List.mem_map, decide_eq_true_eq] at ht
  obtain ⟨⟨e, he, rfl⟩, hs⟩ := ht
  exact ⟨hs, e, he, rfl⟩

lemma Course.joinsDue (h : Course o opening steps) : JoinsDue [] steps := by
  cases h with
  | whole =>
    have hserver (s : Scope) (earlier : List Step)
        (hearlier : ∀ e ∈ o.endpoints, .serve e ∈ earlier) :
        JoinsDue earlier (release s (serversIn s o.endpoints)) := by
      refine joinsDue_release fun t ht => ?_
      obtain ⟨hs, e, he, rfl⟩ := scope_of_mem_serversIn ht
      exact ⟨hs, .serve e, hearlier e he, rfl⟩
    refine JoinsDue.append (.append (.append (.append ?_ ?_) ?_) ?_) ?_
    · exact joinsDue_of_forall_ne (by simp)
    · refine joinsDue_release fun t ht => ?_
      obtain ⟨m, hm, rfl⟩ := List.mem_map.mp ht
      exact ⟨rfl, .manage m, by simp [hm], rfl⟩
    · exact hserver .webhook _ (by simp +contextual)
    · exact hserver .supervision _ (by simp +contextual)
    · exact joinsDue_of_forall_ne (by simp)
  | broken _ _ _ =>
    refine .append (joinsDue_of_forall_ne (by simp)) (.append (joinsDue_release fun t ht => ?_)
      (joinsDue_of_forall_ne (by simp)))
    obtain ⟨hmem, hs⟩ := List.mem_filter.mp ht
    obtain ⟨e, he, rfl⟩ := List.mem_map.mp hmem
    exact ⟨by simpa using hs, .serve e, by simp [he], rfl⟩

section

variable (h : r.OnCourse o opening)
include h

/-- Controllers are run in the order of their registration. -/
lemma Run.OnCourse.managed_prefix : r.managed <+: o.managers := by
  obtain ⟨done, hcourse, hdone⟩ := h
  have hmanaged : r.managed = managedBy done := by rw [Run.managed, hdone.started, managedBy]
  have hall := managedBy_append done r.steps
  generalize done ++ r.steps = all at hcourse hall
  cases hcourse with
  | whole => exact ⟨managedBy r.steps, by rw [hmanaged, ← hall, managedBy_plan]⟩
  | broken _ _ _ =>
    rw [managedBy_broken] at hall
    exact ⟨o.managers, by rw [hmanaged, (List.append_eq_nil_iff.mp hall.symm).1, List.nil_append]⟩

/-- A controller is run only after every endpoint has been opened. -/
lemma Run.OnCourse.opened_of_managed {m : Manager} (hm : m ∈ r.managed) {e : Endpoint}
    (he : e ∈ o.endpoints) : opening e = .ok () ∧ .server e ∈ r.started := by
  obtain ⟨done, hcourse, hdone⟩ := h
  have hmanage : .manage m ∈ done := by
    rw [Run.managed, hdone.started, List.filterMap_filterMap] at hm
    obtain ⟨s, hs, hstarts⟩ := List.mem_filterMap.mp hm
    cases s <;> simp [Step.starts?, Task.manager?] at hstarts
    exact hstarts ▸ hs
  have hserve : .serve e ∈ done := by
    generalize hall : done ++ r.steps = all at hcourse
    cases hcourse with
    | whole =>
      rw [plan_eq] at hall
      exact mem_of_before hall hmanage (by simp) (List.mem_map_of_mem he)
    | broken _ _ _ =>
      have hmem := List.mem_append_left r.steps hmanage
      rw [hall] at hmem
      simp [retreat, release] at hmem
  refine ⟨hdone.opened e hserve, ?_⟩
  rw [hdone.started]
  exact List.mem_filterMap.mpr ⟨_, hserve, rfl⟩

/-- The webhook is told to stop only after the end has been asked for and every controller has
returned. -/
lemma Run.OnCourse.returned_of_webhook (hcancelled : .webhook ∈ r.cancelled) :
    r.stopping = true ∧ ∀ m ∈ o.managers, .controller m ∈ r.returned := by
  obtain ⟨done, hcourse, hdone⟩ := h
  have hcancel := hdone.cancel_mem hcancelled
  generalize hall : done ++ r.steps = all at hcourse
  cases hcourse with
  | whole =>
    have hbefore (x : Step) (hx : x ∈ planBeforeWebhook o) : x ∈ done := by
      rw [plan_eq_webhook] at hall
      exact mem_of_before hall hcancel (by simp [planBeforeWebhook, release]) hx
    refine ⟨hdone.asked (hbefore _ (by simp [planBeforeWebhook])), fun m hm => ?_⟩
    exact hdone.joined _ (hbefore _ (by simp [planBeforeWebhook, release, hm]))
  | broken _ _ _ =>
    have hmem := List.mem_append_left r.steps hcancel
    rw [hall] at hmem
    simp [retreat, release] at hmem

/-- The endpoints for supervision are told to stop only after an endpoint could not be opened, or else
after every controller and the webhook have returned. -/
lemma Run.OnCourse.returned_of_supervision (hcancelled : .supervision ∈ r.cancelled) :
    (∃ f, o.Refused opening f) ∨
      (∀ m ∈ o.managers, .controller m ∈ r.returned) ∧
        (.webhook ∈ o.endpoints → .server .webhook ∈ r.returned) := by
  obtain ⟨done, hcourse, hdone⟩ := h
  have hcancel := hdone.cancel_mem hcancelled
  generalize hall : done ++ r.steps = all at hcourse
  cases hcourse with
  | whole =>
    have hbefore (x : Step) (hx : x ∈ planBeforeWebhook o ++
        release .webhook (serversIn .webhook o.endpoints)) : x ∈ done := by
      rw [plan_eq_webhook, ← List.append_assoc] at hall
      exact mem_of_before hall hcancel (by simp [planBeforeWebhook, release]) hx
    refine .inr ⟨fun m hm => ?_, fun hwebhook => ?_⟩
    · exact hdone.joined _ (hbefore _ (by simp [planBeforeWebhook, release, hm]))
    · refine hdone.joined _ (hbefore _ (List.mem_append_right _ ?_))
      simp [release, serversIn, hwebhook, Task.scope]
  | broken hsplit hopened hfail => exact .inl ⟨_, _, _, _, hsplit, hopened, hfail⟩

/-- A failure is reported only after every server that had been started has been told to stop and has
returned. -/
lemma Run.OnCourse.released_of_error {f : Failure} (hresult : r.result = some (.error f)) :
    o.Refused opening f ∧ ∀ t ∈ r.started, t.scope ∈ r.cancelled ∧ t ∈ r.returned := by
  obtain ⟨done, hcourse, hdone⟩ := h
  have hfinish := hdone.finish_mem hresult
  generalize hall : done ++ r.steps = all at hcourse
  have hmem := List.mem_append_left r.steps hfinish
  rw [hall] at hmem
  cases hcourse with
  | whole => simp [plan, release] at hmem
  | @broken before after e f' hsplit hopened hfail =>
    obtain rfl : f = f' := by simpa [retreat, release] using hmem
    obtain rfl : done = before.map .serve ++ retreat (before.map .server) f := by
      rw [retreat, ← List.append_assoc] at hall ⊢
      exact done_eq_of_last hall hfinish (by simp [release])
    have hstarted : r.started = before.map .server := by
      rw [hdone.started, retreat, List.filterMap_append, List.filterMap_append,
        filterMap_starts?_serve, filterMap_starts?_release]
      exact List.append_nil _
    refine ⟨⟨before, e, after, hsplit, hopened, hfail⟩, ?_⟩
    rw [hstarted]
    intro t ht
    obtain ⟨x, hx, rfl⟩ := List.mem_map.mp ht
    have hscope := scope_of_endpoints_eq hsplit hx
    refine ⟨?_, hdone.joined _ (by simp [retreat, release, hx, hscope])⟩
    rw [hscope, hdone.cancelled]
    exact List.mem_filterMap.mpr ⟨.cancel .supervision, by simp [retreat, release], rfl⟩

/-- The operator waits for its end only if every endpoint has been opened. -/
lemma Run.OnCourse.opened_of_await (hsteps : r.steps = .awaitStop :: rest) {e : Endpoint}
    (he : e ∈ o.endpoints) : opening e = .ok () := by
  obtain ⟨done, hcourse, hdone⟩ := h
  rw [hsteps] at hcourse
  generalize hall : done ++ .awaitStop :: rest = all at hcourse
  cases hcourse with
  | whole =>
    rw [plan_eq] at hall
    have hserve := mem_of_next hall (by simp) (List.mem_map_of_mem he)
    exact hdone.opened e (hserve.resolve_right (by simp))
  | broken _ _ _ =>
    have hmem : Step.awaitStop ∈ done ++ .awaitStop :: rest := by simp
    rw [hall] at hmem
    simp [retreat, release] at hmem

/-- At the end the operator has done all, or has reported why not. -/
lemma Run.OnCourse.result_of_end (hsteps : r.steps = []) :
    (∀ e ∈ o.endpoints, opening e = .ok ()) ∧ r.result = some (.ok ()) ∧ r.managed = o.managers ∨
      ∃ f, o.Refused opening f ∧ r.result = some (.error f) := by
  obtain ⟨done, hcourse, hdone⟩ := h
  rw [hsteps, List.append_nil] at hcourse
  have hlast (a : List Step) (result : Except Failure Unit) (ha : done = a ++ [.finish result]) :
      r.result = some result := by
    rw [hdone.result, ha, List.filterMap_append, List.getLast?_append]
    rfl
  cases hcourse with
  | whole =>
    refine .inl ⟨fun e he => hdone.opened e ?_, hlast _ _ rfl, ?_⟩
    · rw [plan_eq]
      exact List.mem_append_left _ (List.mem_map_of_mem he)
    · rw [Run.managed, hdone.started]
      exact managedBy_plan o
  | broken hsplit hopened hfail =>
    exact .inr ⟨_, ⟨_, _, _, hsplit, hopened, hfail⟩, hlast _ _ (List.append_assoc _ _ _).symm⟩

/-- A task that the operator waits for has been started and told to stop. -/
lemma Run.OnCourse.mem_due {t : Task} (hsteps : r.steps = .join t :: rest) (ht : t ∉ r.returned) :
    t ∈ r.due := by
  obtain ⟨done, hcourse, hdone⟩ := h
  obtain ⟨hstarted, hcancel⟩ := hcourse.joinsDue done rest t (by rw [hsteps])
  rw [Run.due, Run.running, List.mem_filter, List.mem_filter, hdone.started, hdone.cancelled]
  refine ⟨⟨List.mem_filterMap.mpr hstarted, by simpa using ht⟩, ?_⟩
  exact decide_eq_true (List.mem_filterMap.mpr ⟨_, hcancel, rfl⟩)

end

/-! ## Every start comes to its end -/

/-- A step that need not wait. -/
def Run.Passes (r : Run) : Step → Prop
  | .awaitStop => r.stopping = true
  | .join t => t ∈ r.returned
  | _ => True

lemma Run.next_steps_of_ne {x : Happening} (hx : x ≠ .proceed) :
    (r.next opening x).steps = r.steps := by
  cases x with
  | proceed => exact absurd rfl hx
  | askToStop => rfl
  | returns t =>
    simp only [Run.next]
    split <;> rfl

/-- An operator that has to wait stays as it is. -/
lemma Run.proceed_of_not_passes {s : Step} (hsteps : r.steps = s :: rest) (hs : ¬ r.Passes s) :
    r.proceed opening = r := by
  cases s <;> simp only [Run.Passes, not_true_eq_false] at hs <;>
    simp only [Run.proceed, hsteps, if_neg hs]

lemma Run.Passes.next {s : Step} (hs : r.Passes s) (x : Happening) :
    (r.next opening x).Passes s := by
  have hmono : (r.stopping = true → (r.next opening x).stopping = true) ∧
      ∀ t ∈ r.returned, t ∈ (r.next opening x).returned := by
    cases x with
    | proceed =>
      simp only [Run.next, Run.proceed]
      split <;> try split
      all_goals exact ⟨id, fun _ => id⟩
    | askToStop => exact ⟨fun _ => rfl, fun _ => id⟩
    | returns t =>
      simp only [Run.next]
      split
      · exact ⟨id, fun _ => List.mem_append_left _⟩
      · exact ⟨id, fun _ => id⟩
  cases s <;> first | exact hmono.1 hs | exact hmono.2 _ hs | trivial

/-- The states of an endless run. -/
def Run.follow (opening : Opening) (r : Run) (happenings : Nat → Happening) (i : Nat) : Run :=
  r.after opening ((List.range i).map happenings)

lemma Run.follow_succ (happenings : Nat → Happening) (i : Nat) :
    r.follow opening happenings (i + 1) =
      (r.follow opening happenings i).next opening (happenings i) := by
  simp [Run.follow, Run.after, List.range_succ, List.foldl_append]

/-- The operator gets its turn again and again, and tasks that are told to stop return. -/
structure Run.Fair (opening : Opening) (r : Run) (happenings : Nat → Happening) : Prop where
  proceeds : ∀ i, ∃ j ≥ i, happenings j = .proceed
  returns : ∀ i, ∀ t ∈ (r.follow opening happenings i).due,
    ∃ j ≥ i, t ∈ (r.follow opening happenings j).returned

section

variable {happenings : Nat → Happening} (h : r.OnCourse o opening) (hfair : r.Fair opening happenings)
include h hfair

omit hfair in
lemma Run.OnCourse.follow (i : Nat) : (r.follow opening happenings i).OnCourse o opening := h.after _

omit h in
/-- A step that need not wait is taken when the operator has its turn. -/
lemma Run.exists_turn {i : Nat} {s : Step}
    (hsteps : (r.follow opening happenings i).steps = s :: rest)
    (hpasses : (r.follow opening happenings i).Passes s) :
    ∃ j ≥ i, happenings j = .proceed ∧ (r.follow opening happenings j).steps = s :: rest ∧
      (r.follow opening happenings j).Passes s := by
  obtain ⟨j, hij, hj⟩ := hfair.proceeds i
  obtain ⟨d, rfl⟩ := Nat.exists_eq_add_of_le hij
  -- by induction on the time until the operator has its turn
  induction d generalizing i with
  | zero => exact ⟨i, le_rfl, hj, hsteps, hpasses⟩
  | succ d ih =>
    by_cases hi : happenings i = .proceed
    · exact ⟨i, le_rfl, hi, hsteps, hpasses⟩
    · obtain ⟨j, hij, hfound⟩ := ih (i := i + 1)
        (by rw [Run.follow_succ, Run.next_steps_of_ne hi, hsteps])
        (by rw [Run.follow_succ]; exact hpasses.next _) (by omega) (by rw [← hj]; congr 1; omega)
      exact ⟨j, by omega, hfound⟩

omit h hfair in
lemma Run.passes_of_le {i j : Nat} {s : Step} (hij : i ≤ j)
    (hi : (r.follow opening happenings i).Passes s) : (r.follow opening happenings j).Passes s := by
  induction j, hij using Nat.le_induction with
  | base => exact hi
  | succ j _ ih =>
    rw [Run.follow_succ]
    exact ih.next _

omit h hfair in
/-- A step that will not have to wait at some time is the next one until then. -/
lemma Run.exists_passes {i j : Nat} {s : Step} (hij : i ≤ j)
    (hsteps : (r.follow opening happenings i).steps = s :: rest)
    (hpasses : (r.follow opening happenings j).Passes s) :
    ∃ l ≥ i, (r.follow opening happenings l).steps = s :: rest ∧
      (r.follow opening happenings l).Passes s := by
  obtain ⟨d, rfl⟩ := Nat.exists_eq_add_of_le hij
  induction d generalizing i with
  | zero => exact ⟨i, le_rfl, hsteps, hpasses⟩
  | succ d ih =>
    by_cases hi : (r.follow opening happenings i).Passes s
    · exact ⟨i, le_rfl, hsteps, hi⟩
    · have hnext : (r.follow opening happenings (i + 1)).steps = s :: rest := by
        rw [Run.follow_succ]
        by_cases hx : happenings i = .proceed
        · rw [hx, Run.next, Run.proceed_of_not_passes hsteps hi, hsteps]
        · rw [Run.next_steps_of_ne hx, hsteps]
      obtain ⟨l, hl, hfound⟩ := ih (i := i + 1) hnext (by omega)
        (by rwa [show i + 1 + d = i + (d + 1) by omega])
      exact ⟨l, by omega, hfound⟩

/-- Whatever the next step is, the operator comes to take it. If it waits for the end, somebody asks for
it. -/
lemma Run.OnCourse.exists_taken
    (hstop : (∀ e ∈ o.endpoints, opening e = .ok ()) →
      ∃ i, (r.follow opening happenings i).stopping = true)
    {i : Nat} {s : Step} (hsteps : (r.follow opening happenings i).steps = s :: rest) :
    ∃ j ≥ i, (r.follow opening happenings j).steps = s :: rest ∧
      r.follow opening happenings (j + 1) = (r.follow opening happenings j).proceed opening ∧
      (r.follow opening happenings j).Passes s := by
  have hpasses : ∃ j ≥ i, (r.follow opening happenings j).Passes s := by
    cases s with
    | awaitStop =>
      obtain ⟨j, hj⟩ := hstop fun e he => (h.follow i).opened_of_await hsteps he
      exact ⟨max i j, le_max_left i j, Run.passes_of_le (s := .awaitStop) (le_max_right i j) hj⟩
    | join t =>
      by_cases ht : t ∈ (r.follow opening happenings i).returned
      · exact ⟨i, le_rfl, ht⟩
      · exact hfair.returns i t ((h.follow i).mem_due hsteps ht)
    | serve | manage | cancel | finish => exact ⟨i, le_rfl, trivial⟩
  obtain ⟨j, hij, hj⟩ := hpasses
  obtain ⟨l, hil, hsteps', hl⟩ := Run.exists_passes hij hsteps hj
  obtain ⟨j, hlj, hproceed, hsteps'', hj⟩ := Run.exists_turn hfair hsteps' hl
  refine ⟨j, by omega, hsteps'', ?_, hj⟩
  rw [Run.follow_succ, hproceed, Run.next]

omit h hfair in
lemma Run.proceed_steps {s : Step} (hsteps : r.steps = s :: rest) (hs : r.Passes s)
    (hopen : ∀ e, s = .serve e → opening e = .ok ()) : (r.proceed opening).steps = rest := by
  cases s with
  | serve e => simp only [Run.proceed, hsteps, hopen e rfl]
  | manage | cancel | finish => simp only [Run.proceed, hsteps]
  | awaitStop => simp only [Run.proceed, hsteps, if_pos (show r.stopping = true from hs)]
  | join t => simp only [Run.proceed, hsteps, if_pos (show t ∈ r.returned from hs)]

/-- An operator that can open all that is left to be opened comes to its end. -/
lemma Run.OnCourse.exists_end_of_opened
    (hstop : (∀ e ∈ o.endpoints, opening e = .ok ()) →
      ∃ i, (r.follow opening happenings i).stopping = true)
    (hsteps : ∃ i, (r.follow opening happenings i).steps = steps)
    (hopen : ∀ e, .serve e ∈ steps → opening e = .ok ()) :
    ∃ i, (r.follow opening happenings i).steps = [] := by
  induction steps with
  | nil => exact hsteps
  | cons s rest ih =>
    obtain ⟨i, hi⟩ := hsteps
    obtain ⟨j, -, hj, hproceed, hpasses⟩ := h.exists_taken hfair hstop hi
    refine ih ⟨j + 1, ?_⟩ fun e he => hopen e (List.mem_cons_of_mem s he)
    rw [hproceed]
    exact Run.proceed_steps hj hpasses fun e he => hopen e (by simp [he])

/-- Every operator comes to its end: an endpoint that cannot be opened leads to the retreat, on which
nothing is to be opened. -/
lemma Run.OnCourse.exists_end
    (hstop : (∀ e ∈ o.endpoints, opening e = .ok ()) →
      ∃ i, (r.follow opening happenings i).stopping = true)
    (hsteps : ∃ i, (r.follow opening happenings i).steps = steps) :
    ∃ i, (r.follow opening happenings i).steps = [] := by
  induction steps with
  | nil => exact hsteps
  | cons s rest ih =>
    obtain ⟨i, hi⟩ := hsteps
    obtain ⟨j, -, hj, hproceed, hpasses⟩ := h.exists_taken hfair hstop hi
    by_cases hopen : ∀ e, s = .serve e → opening e = .ok ()
    · refine ih ⟨j + 1, ?_⟩
      rw [hproceed]
      exact Run.proceed_steps hj hpasses hopen
    · push Not at hopen
      obtain ⟨e, rfl, hfail⟩ := hopen
      rcases hopening : opening e with f | _
      · refine h.exists_end_of_opened hfair hstop ⟨j + 1, ?_⟩ fun x hx =>
          absurd hx (serve_notMem_retreat (r.follow opening happenings j).started f x)
        rw [hproceed]
        simp only [Run.proceed, hj, hopening]
      · exact absurd hopening hfail

end

/-! ## Fair runs -/

lemma Run.started_next {t : Task} (ht : t ∈ r.started) (x : Happening) :
    t ∈ (r.next opening x).started := by
  cases x with
  | proceed =>
    simp only [Run.next, Run.proceed]
    split <;> try split
    all_goals first | exact ht | exact List.mem_append_left _ ht
  | askToStop => exact ht
  | returns u =>
    simp only [Run.next]
    split <;> exact ht

lemma Run.started_of_le {happenings : Nat → Happening} {i j : Nat} {t : Task} (hij : i ≤ j)
    (ht : t ∈ (r.follow opening happenings i).started) :
    t ∈ (r.follow opening happenings j).started := by
  induction j, hij using Nat.le_induction with
  | base => exact ht
  | succ j _ ih =>
    rw [Run.follow_succ]
    exact Run.started_next ih _

/-- Only tasks of the operator are started. -/
lemma Run.OnCourse.started_subset (h : r.OnCourse o opening) :
    r.started ⊆ o.endpoints.map .server ++ o.managers.map .controller := by
  obtain ⟨done, hcourse, hdone⟩ := h
  intro t ht
  rw [hdone.started] at ht
  obtain ⟨s, hs, hstarts⟩ := List.mem_filterMap.mp ht
  have hmem := List.mem_append_left r.steps hs
  generalize done ++ r.steps = all at hcourse hmem
  cases hcourse with
  | whole =>
    cases s <;> simp [Step.starts?] at hstarts <;> subst hstarts <;>
      simpa [plan, release] using hmem
  | broken hsplit _ _ =>
    cases s <;> simp [Step.starts?] at hstarts <;> subst hstarts
    · rw [hsplit]
      simp only [retreat, release, List.mem_append, List.mem_map] at hmem ⊢
      simp_all
    · simp [retreat, release] at hmem

/-- The operator, somebody who asks it to stop, and each of the tasks have their turns one after the
other, again and again. -/
def rounds (tasks : List Task) (i : Nat) : Happening :=
  if i % 3 = 0 then .proceed
  else if i % 3 = 1 then .askToStop
  else (tasks[i / 3 % tasks.length]?.map .returns).getD .proceed

lemma Run.OnCourse.rounds_fair (h : r.OnCourse o opening) :
    r.Fair opening (rounds (o.endpoints.map .server ++ o.managers.map .controller)) := by
  generalize htasks : o.endpoints.map Task.server ++ o.managers.map .controller = tasks
  refine ⟨fun i => ⟨3 * i, by omega, by simp [rounds]⟩, fun i t ht => ?_⟩
  have hstarted : t ∈ (r.follow opening (rounds tasks) i).started :=
    (List.mem_filter.mp (List.mem_filter.mp ht).1).1
  have hmem : t ∈ tasks := htasks ▸ (h.follow i).started_subset hstarted
  obtain ⟨k, hk, rfl⟩ := List.mem_iff_getElem.mp hmem
  -- the turn of this task in a later round
  let j := 3 * (tasks.length * i + k) + 2
  have hij : i ≤ j := by
    have hle : i ≤ tasks.length * i := Nat.le_mul_of_pos_left i (by omega)
    omega
  have hturn : rounds tasks j = .returns tasks[k] := by
    have hthird : j % 3 = 2 := by omega
    have hround : j / 3 % tasks.length = k := by
      rw [show j / 3 = tasks.length * i + k by omega, Nat.mul_add_mod, Nat.mod_eq_of_lt hk]
    simp [rounds, hthird, hround, hk]
  have hlater := Run.started_of_le hij hstarted
  refine ⟨j + 1, by omega, ?_⟩
  rw [Run.follow_succ, hturn, Run.next]
  split
  · simp
  next hnot =>
    by_contra hreturned
    exact hnot ⟨hlater, hreturned⟩

/-- Controllers are offered to an operator one after the other, and it is started with any endpoints,
whatever comes of opening them, whatever its tasks do and whenever it is asked to stop.

The first controller of each kind is taken, in order, and any other is refused without a change. Only
those that were taken are run, in their order, and none before every endpoint has been opened. If an
endpoint cannot be opened, that failure is reported, but not before every server that had been started
has been told to stop and has returned. The webhook is told to stop only after every controller has
returned, and the endpoints for supervision only after the webhook has. If those that are told to stop
return, then starting comes to its end: with the failure, or else, once somebody asks to stop, after all
that were taken have been run. -/
theorem started_and_stopped_in_order (address : Endpoint → Option String) (ms : List Manager)
    (hms : ∀ m ∈ ms, m.kind.SlashFree) (opening : Opening) (happenings : List Happening) :
    let o := offered address ms
    let r := (Run.ofOperator o).after opening happenings
    Firsts ms o.managers ∧
    (∀ m : Manager, m.kind.SlashFree →
      (∃ other ∈ o.managers, other.kind = m.kind) ∧
          o.register m = (some (.duplicateResource m.kind.text), o) ∨
        (∀ other ∈ o.managers, other.kind ≠ m.kind) ∧ (o.register m).1 = none ∧
          (o.register m).2.managers = o.managers ++ [m]) ∧
    r.managed <+: o.managers ∧
    (∀ m ∈ r.managed, ∀ e ∈ o.endpoints, opening e = .ok () ∧ .server e ∈ r.started) ∧
    (∀ f, r.result = some (.error f) →
      o.Refused opening f ∧ ∀ t ∈ r.started, t.scope ∈ r.cancelled ∧ t ∈ r.returned) ∧
    (.webhook ∈ r.cancelled → r.stopping = true ∧ ∀ m ∈ o.managers, .controller m ∈ r.returned) ∧
    (.supervision ∈ r.cancelled → (∃ f, o.Refused opening f) ∨
      (∀ m ∈ o.managers, .controller m ∈ r.returned) ∧
        (.webhook ∈ o.endpoints → .server .webhook ∈ r.returned)) ∧
    ∀ next : Nat → Happening, r.Fair opening next →
      (∀ f, o.Refused opening f → ∃ i, (r.follow opening next i).result = some (.error f)) ∧
      ((∀ e ∈ o.endpoints, opening e = .ok ()) →
        (∃ i, (r.follow opening next i).stopping = true) →
        ∃ i, (r.follow opening next i).result = some (.ok ()) ∧
          (r.follow opening next i).managed = o.managers) := by
  intro o r
  have hfirsts : Firsts ms o.managers := offered_firsts address hms
  have h : r.OnCourse o opening := (ofOperator_onCourse o opening).after happenings
  refine ⟨hfirsts, fun m hm => ?_, h.managed_prefix, fun m hm e he => h.opened_of_managed hm he,
    fun f hf => h.released_of_error hf, h.returned_of_webhook, h.returned_of_supervision,
    fun next hfair => ⟨fun f hf => ?_, fun hopen hstop => ?_⟩⟩
  · exact (offered_entered address ms).register_cases
      (fun x hx => hms x (hfirsts.sublist.subset hx)) hm
  · have hnot : ¬ ∀ e ∈ o.endpoints, opening e = .ok () := by
      obtain ⟨before, e, after, hsplit, -, hfail⟩ := hf
      intro hall
      have he := hall e (by simp [hsplit])
      simp [hfail] at he
    obtain ⟨i, hi⟩ := h.exists_end hfair (fun hall => absurd hall hnot) ⟨0, rfl⟩
    rcases (h.follow i).result_of_end hi with ⟨hall, -⟩ | ⟨g, hg, hresult⟩
    · exact absurd hall hnot
    · exact ⟨i, hf.unique hg ▸ hresult⟩
  · obtain ⟨i, hi⟩ := h.exists_end hfair (fun _ => hstop) ⟨0, rfl⟩
    rcases (h.follow i).result_of_end hi with ⟨-, hresult, hmanaged⟩ | ⟨g, hg, -⟩
    · exact ⟨i, hresult, hmanaged⟩
    · obtain ⟨before, e, after, hsplit, -, hfail⟩ := hg
      have he := hopen e (by simp [hsplit])
      simp [hfail] at he

/-- The port of the webhook is taken. -/
def occupied : Opening := fun e =>
  if e = .webhook then .error (cannotBind "0.0.0.0:9443" "Address already in use (os error 98)")
  else .ok ()

/-- Three controllers, of which the second is for the kind of the first. -/
def candidates : List Manager :=
  [⟨"a", ⟨"apps", "v1", "Deployment"⟩⟩, ⟨"b", ⟨"apps", "v1", "Deployment"⟩⟩,
    ⟨"c", ⟨"", "v1", "ConfigMap"⟩⟩]

/-- The two servers return only one after the other, and the operator waits for both. -/
def retreating : List Happening :=
  [.proceed, .askToStop, .proceed, .proceed, .proceed, .returns (.server .health), .proceed,
    .returns (.server .metrics), .proceed, .proceed, .proceed]

theorem started_and_stopped_in_order_occupied :
    let o := offered (fun _ => some "0.0.0.0:0") candidates
    let r := (Run.ofOperator o).after occupied retreating
    (∀ m ∈ candidates, m.kind.SlashFree) ∧ Firsts candidates o.managers ∧
    o.names = ["a", "c"] ∧ r.started = [.server .metrics, .server .health] ∧
    (∀ t ∈ r.started, t.scope ∈ r.cancelled ∧ t ∈ r.returned) ∧
    ∃ next f, (Run.ofOperator o).Fair occupied next ∧
      ∃ i, ((Run.ofOperator o).follow occupied next i).result = some (.error f) := by
  intro o r
  have hfree : ∀ m ∈ candidates, m.kind.SlashFree := by
    have hall : ∀ m ∈ candidates,
        '/' ∉ m.kind.group.toList ∧ '/' ∉ m.kind.version.toList ∧ '/' ∉ m.kind.kind.toList := by decide
    exact fun m hm => ⟨(hall m hm).1, (hall m hm).2.1, (hall m hm).2.2⟩
  have hfailed : ∃ f, r.result = some (.error f) := by
    have hresult : r.result.map Except.isOk = some false := by decide +kernel
    obtain ⟨_ | _, hsome, hok⟩ := Option.map_eq_some_iff.mp hresult
    · exact ⟨_, hsome⟩
    · cases hok
  obtain ⟨f, hf⟩ := hfailed
  obtain ⟨hfirsts, -, -, -, herror, -⟩ :=
    started_and_stopped_in_order (fun _ => some "0.0.0.0:0") candidates hfree occupied retreating
  obtain ⟨-, -, -, -, -, -, -, hends⟩ :=
    started_and_stopped_in_order (fun _ => some "0.0.0.0:0") candidates hfree occupied []
  have hfair := (ofOperator_onCourse o occupied).rounds_fair
  obtain ⟨hrefused, hreleased⟩ := herror f hf
  exact ⟨hfree, hfirsts, by decide +kernel, by decide +kernel, hreleased, _, f, hfair,
    (hends _ hfair).1 f hrefused⟩

end Operator

end ControlLoop
