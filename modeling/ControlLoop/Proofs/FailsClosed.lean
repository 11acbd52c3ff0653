import ControlLoop.Admission.Server
import ControlLoop.Proofs.WrittenJson

/-!
# Admission that fails closed

Whatever handlers are registered under whatever paths, a change passes only if the handler that was
registered first under the path of its review allows it. A handler that fails denies, a denial carries no
patch, and one who reads the answer finds in it the decision on the request that was sent.
-/
namespace ControlLoop.Admission

open Json (Writable)

/-! ## Registrations -/

/-- The handler that is the first to be registered under a path. -/
def FirstAt (registrations : List (String × Handler)) (path : String) (h : Handler) : Prop :=
  ∃ before after, registrations = before ++ (path, h) :: after ∧ ∀ e ∈ before, e.1 ≠ path

namespace Server

/-- The server after registrations, some of which may have been refused. -/
def registered (registrations : List (String × Handler)) : Server :=
  (({} : Server).registerEach registrations).2

variable {s : Server} {path : String}

lemma register_of_isSome (hpath : (s.handler? path).isSome = true) (h : Handler) :
    s.register path h = .error (.duplicatePath path) := by
  rw [register, if_pos hpath]

lemma register_of_isNone (hpath : s.handler? path = none) (h : Handler) :
    s.register path h = .ok { handlers := s.handlers ++ [(path, h)] } := by
  rw [register, hpath]
  rfl

/-- A registration serves its own path, if nothing served it before. -/
lemma handler?_append (s : Server) (e : String × Handler) (p : String) :
    handler? { handlers := s.handlers ++ [e] } p =
      (s.handler? p).or (if e.1 = p then some e.2 else none) := by
  simp only [handler?, List.find?_append, Option.map_or, List.find?_singleton]
  by_cases hp : e.1 = p <;> simp [hp]

/-- A path is served by the handler that served it before the registrations, or else by the first of
them that is for it. -/
lemma handler?_registerEach (s : Server) (l : List (String × Handler)) (p : String) :
    (s.registerEach l).2.handler? p =
      (s.handler? p).or ((l.find? fun e => e.1 = p).map (·.2)) := by
  induction l generalizing s with
  | nil => simp [registerEach]
  | cons e l ih =>
    obtain ⟨path, h⟩ := e
    cases hpath : s.handler? path with
    | none =>
      simp only [registerEach, register_of_isNone hpath, ih, handler?_append, List.find?_cons]
      by_cases hp : path = p
      · subst hp
        simp [hpath]
      · simp [hp]
    | some taken =>
      have hsome : (s.handler? path).isSome = true := by rw [hpath, Option.isSome_some]
      simp only [registerEach, register_of_isSome hsome, ih, List.find?_cons]
      by_cases hp : path = p
      · subst hp
        simp [hpath]
      · simp [hp]

lemma registerEach_append (s : Server) (l l' : List (String × Handler)) :
    s.registerEach (l ++ l') = ((s.registerEach l).1 ++ ((s.registerEach l).2.registerEach l').1,
      ((s.registerEach l).2.registerEach l').2) := by
  induction l generalizing s with
  | nil => rfl
  | cons e l ih =>
    obtain ⟨path, h⟩ := e
    simp only [List.cons_append, registerEach]
    cases s.register path h <;> simp only [ih, List.cons_append]

/-- The path that is served is the one that was registered, by the first handler registered for it. -/
lemma handler?_registered (l : List (String × Handler)) (p : String) (h : Handler) :
    (registered l).handler? p = some h ↔ FirstAt l p h := by
  rw [registered, handler?_registerEach, FirstAt]
  have hnone : handler? {} p = none := rfl
  rw [hnone, Option.none_or, Option.map_eq_some_iff]
  constructor
  · rintro ⟨e, hfind, rfl⟩
    obtain ⟨hp, before, after, rfl, hbefore⟩ := List.find?_eq_some_iff_append.mp hfind
    obtain rfl : e.1 = p := by simpa using hp
    exact ⟨before, after, rfl, fun a ha => by simpa using hbefore a ha⟩
  · rintro ⟨before, after, rfl, hbefore⟩
    refine ⟨(p, h), List.find?_eq_some_iff_append.mpr ⟨by simp, before, after, rfl, ?_⟩, rfl⟩
    simpa using hbefore

lemma handler?_registered_eq_none (l : List (String × Handler)) (p : String) :
    (registered l).handler? p = none ↔ ∀ e ∈ l, e.1 ≠ p := by
  rw [registered, handler?_registerEach]
  simp [handler?]

lemma exists_handler? {l : List (String × Handler)} {e : String × Handler} (he : e ∈ l) :
    ∃ h, (registered l).handler? e.1 = some h := by
  rw [← Option.ne_none_iff_exists', ne_eq, handler?_registered_eq_none]
  exact fun hfree => hfree e he rfl

end Server

/-! ## What handlers want -/

/-- The handler gives a verdict that allows the change. -/
inductive Handler.Allows : Handler → Request → Prop where
  | validating {validate : Request → Except HandlerError Verdict} {r : Request} {verdict : Verdict}
    (given : validate r = .ok verdict) (allowed : verdict.allowed = true) :
    Allows (.validating validate) r
  | mutating {mutate : Request → Except HandlerError Mutation} {r : Request} {m : Mutation}
    (given : mutate r = .ok m) (allowed : m.verdict.allowed = true) : Allows (.mutating mutate) r

/-- The handler mutates, allows the change and returns a patch. -/
inductive Handler.Patches : Handler → Request → JsonPatch → Prop where
  | mutating {mutate : Request → Except HandlerError Mutation} {r : Request} {m : Mutation}
    {p : JsonPatch} (given : mutate r = .ok m) (allowed : m.verdict.allowed = true)
    (patch : m.patch = some p) : Patches (.mutating mutate) r p

/-- The handler gives no verdict. -/
inductive Handler.Fails : Handler → Request → HandlerError → Prop where
  | validating {validate : Request → Except HandlerError Verdict} {r : Request} {e : HandlerError}
    (given : validate r = .error e) : Fails (.validating validate) r e
  | mutating {mutate : Request → Except HandlerError Mutation} {r : Request} {e : HandlerError}
    (given : mutate r = .error e) : Fails (.mutating mutate) r e

/-- A response is the decision of a handler on a request. -/
structure Decides (h : Handler) (request : Request) (response : Response) : Prop where
  uid : response.uid = request.uid
  allowed : response.allowed = true ↔ h.Allows request
  patch (text : String) : response.patch = some text ↔
    ∃ p, h.Patches request p ∧ text = Text.Base64.encode p.encode.render.toUTF8.toList
  patchType (type : String) : response.patchType = some type ↔
    (∃ p, h.Patches request p) ∧ type = "JSONPatch"
  failed (e : HandlerError) : h.Fails request e → response = {
    uid := request.uid
    allowed := false
    status := some { code := some 500, text := some e.message } }

namespace Handler

lemma run_validating_ok {validate : Request → Except HandlerError Verdict} {r : Request} {m : Mutation}
    (h : (validating validate).run r = .ok m) : validate r = .ok m.verdict ∧ m.patch = none := by
  cases hv : validate r with
  | error e => simp [run, hv, bind, Except.bind] at h
  | ok verdict =>
    obtain rfl : { verdict := verdict } = m := by
      simpa [run, hv, bind, Except.bind, pure, Except.pure] using h
    exact ⟨rfl, rfl⟩

lemma run_validating_error {validate : Request → Except HandlerError Verdict} {r : Request}
    {e : HandlerError} (h : (validating validate).run r = .error e) : validate r = .error e := by
  cases hv : validate r with
  | error e' => simpa [run, hv, bind, Except.bind] using h
  | ok verdict => simp [run, hv, bind, Except.bind, pure, Except.pure] at h

lemma allows_iff (h : Handler) (r : Request) :
    h.Allows r ↔ ∃ m, h.run r = .ok m ∧ m.verdict.allowed = true := by
  constructor
  · rintro (⟨given, allowed⟩ | ⟨given, allowed⟩)
    · exact ⟨_, by rw [run, given]; rfl, allowed⟩
    · exact ⟨_, given, allowed⟩
  · rintro ⟨m, hrun, allowed⟩
    cases h with
    | validating validate => exact .validating (run_validating_ok hrun).1 allowed
    | mutating mutate => exact .mutating hrun allowed

lemma patches_iff (h : Handler) (r : Request) (p : JsonPatch) :
    h.Patches r p ↔ ∃ m, h.run r = .ok m ∧ m.verdict.allowed = true ∧ m.patch = some p := by
  constructor
  · rintro ⟨given, allowed, patch⟩
    exact ⟨_, given, allowed, patch⟩
  · rintro ⟨m, hrun, allowed, patch⟩
    cases h with
    | validating validate => simp [(run_validating_ok hrun).2] at patch
    | mutating mutate => exact .mutating hrun allowed patch

lemma fails_iff (h : Handler) (r : Request) (e : HandlerError) :
    h.Fails r e ↔ h.run r = .error e := by
  constructor
  · rintro (given | given)
    · rw [run, given]
      rfl
    · exact given
  · intro hrun
    cases h with
    | validating validate => exact .validating (run_validating_error hrun)
    | mutating mutate => exact .mutating hrun

end Handler

section Responses

variable (r : Request) (outcome : Except HandlerError Mutation)

lemma uid_respond : (respond r outcome).uid = r.uid := by
  rcases outcome with e | ⟨⟨_ | _, text⟩, _ | patch⟩ <;> rfl

lemma allowed_respond :
    (respond r outcome).allowed = true ↔ ∃ m, outcome = .ok m ∧ m.verdict.allowed = true := by
  rcases outcome with e | ⟨⟨_ | _, text⟩, _ | patch⟩ <;>
    simp [respond, Response.deny, Response.allow, Response.withPatch]

/-- A patch is attached only to a response that allows. -/
lemma patch_respond (text : String) : (respond r outcome).patch = some text ↔
    ∃ p, (∃ m, outcome = .ok m ∧ m.verdict.allowed = true ∧ m.patch = some p) ∧
      Text.Base64.encode p.encode.render.toUTF8.toList = text := by
  rcases outcome with e | ⟨⟨_ | _, text⟩, _ | patch⟩ <;>
    simp [respond, Response.deny, Response.allow, Response.withPatch]

lemma patchType_respond (type : String) : (respond r outcome).patchType = some type ↔
    (∃ p m, outcome = .ok m ∧ m.verdict.allowed = true ∧ m.patch = some p) ∧ "JSONPatch" = type := by
  rcases outcome with e | ⟨⟨_ | _, text⟩, _ | patch⟩ <;>
    simp [respond, Response.deny, Response.allow, Response.withPatch, Response.jsonPatchType]

end Responses

/-- A response takes from its handler whether it allows, what it patches and why there is no verdict. -/
lemma decides_respond (h : Handler) (r : Request) : Decides h r (respond r (h.run r)) where
  uid := uid_respond r _
  allowed := by rw [allowed_respond, h.allows_iff]
  patch text := by simp only [patch_respond, h.patches_iff, @eq_comm _ text]
  patchType type := by simp only [patchType_respond, h.patches_iff, @eq_comm _ type]
  failed e he := by
    rw [(h.fails_iff r e).mp he]
    rfl

/-! ## Answers -/

/-- The text of a review with a request is read, if those of the objects in it are. -/
lemma Review.writable_ofRequest (r : Request) (hobject : ∀ v ∈ r.object, Writable 125 v)
    (hold : ∀ v ∈ r.oldObject, Writable 125 v) :
    Writable Json.Node.depthLimit (ofRequest r).encode := by
  have htexts (l : List (String × String)) :
      Writable 125 (.obj (l.map fun m => (m.1, .str m.2))) :=
    .obj _ (List.forall_mem_map.mpr fun m _ => .str m.2)
  have hkind : Writable 125 r.kind.encode :=
    htexts [("group", r.kind.group), ("version", r.kind.version), ("kind", r.kind.kind)]
  have hresource : Writable 125 r.resource.encode :=
    htexts [("group", r.resource.group), ("version", r.resource.version),
      ("resource", r.resource.resource)]
  have huser : Writable 125 r.user.encode := by
    refine .ofMembers ?_
    simp only [List.forall_mem_cons, Option.forall_mem_map]
    refine ⟨fun text _ => .str text, fun text _ => .str text, fun groups _ => .arr _ ?_, by simp⟩
    exact List.forall_mem_map.mpr fun text _ => .str text
  have hrequest : Writable 126 r.encode := by
    refine .ofMembers ?_
    simp only [List.forall_mem_cons, Option.forall_mem_map, Option.mem_some_iff, forall_eq']
    exact ⟨.str _, hkind, hresource, .str _, hobject, hold, fun text _ => .str text,
      fun text _ => .str text, huser, fun b _ => .bool b, by simp⟩
  refine .ofMembers ?_
  simp only [ofRequest, List.forall_mem_cons, Option.forall_mem_map, Option.mem_some_iff, forall_eq']
  exact ⟨.str _, .str _, hrequest, by simp, by simp⟩

/-- The text of a review with a response is read, if the number of the reason fits a word. -/
lemma Review.writable_ofResponse (r : Response)
    (hcode : ∀ status ∈ r.status, ∀ code ∈ status.code, code ≤ Text.word64Max) :
    Writable Json.Node.depthLimit (ofResponse r).encode := by
  have hstatus : ∀ status ∈ r.status, Writable 125 status.encode := by
    intro status hs
    refine .ofMembers ?_
    simp only [List.forall_mem_cons, Option.forall_mem_map]
    refine ⟨fun code hc => ?_, fun text _ => .str text, by simp⟩
    have hword : code ≤ 18446744073709551615 := hcode status hs code hc
    exact .int _ (by omega) (by omega)
  have hresponse : Writable 126 r.encode := by
    refine .ofMembers ?_
    simp only [List.forall_mem_cons, Option.forall_mem_map, Option.mem_some_iff, forall_eq']
    exact ⟨.str _, .bool _, hstatus, fun text _ => .str text, fun text _ => .str text, by simp⟩
  refine .ofMembers ?_
  simp only [ofResponse, List.forall_mem_cons, Option.forall_mem_map, Option.mem_some_iff, forall_eq']
  exact ⟨.str _, .str _, by simp, hresponse, by simp⟩

/-- One who reads the text of a review finds the response that it was made of. -/
lemma readReview_respond (r : Request) (outcome : Except HandlerError Mutation) :
    Server.readReview (Review.ofResponse (respond r outcome)).encode.render.toUTF8 =
      some (.ofResponse (respond r outcome)) := by
  rw [Server.readReview, Json.readOctets_render]
  · rcases outcome with e | ⟨⟨_ | _, text⟩, _ | patch⟩ <;> rfl
  · refine Review.writable_ofResponse _ ?_
    rcases outcome with e | ⟨⟨_ | _, text⟩, _ | patch⟩ <;>
      simp [respond, Response.deny, Response.allow, Response.withPatch, Text.word64Max]

/-- The body of a review with a request. -/
def Asks (body : ByteArray) (request : Request) : Prop :=
  ∃ review, Server.readReview body = some review ∧ review.request = some request

/-- An answer whose body is a review with a response, which is the decision of a handler. -/
def Delivers (answer : Http.Response) (h : Handler) (request : Request) : Prop :=
  answer.status = 200 ∧ ∃ review response, Server.readReview answer.body.toUTF8 = some review ∧
    review.request = none ∧ review.response = some response ∧ Decides h request response

namespace Server

variable {s : Server} {r : Http.Request} {h : Handler}

lemma route_of_unserved (hunserved : r.method ≠ "POST" ∨ s.handler? r.path = none) :
    (s.route r).status = 404 := by
  rw [route, if_pos (by simpa using hunserved)]
  rfl

lemma route_of_silent (hmethod : r.method = "POST") (hpath : s.handler? r.path = some h)
    (hbody : ∀ request, ¬ Asks r.body request) : (s.route r).status = 400 := by
  rw [route, if_neg (by simp [hmethod, hpath])]
  cases hread : readReview r.body with
  | none => rfl
  | some review =>
    cases hrequest : review.request with
    | none => simp [dispatch, hpath, hrequest, Http.Response.text]
    | some request => exact absurd ⟨review, hread, hrequest⟩ (hbody request)

/-- A review with a request is answered with what comes of the handler of its path. -/
lemma dispatch_eq {path : String} {review : Review} {request : Request}
    (hpath : s.handler? path = some h) (hrequest : review.request = some request) :
    s.dispatch path review = some (.ok (.ofResponse (respond request (h.run request)))) := by
  simp [dispatch, hpath, hrequest]

lemma route_eq {request : Request} (hmethod : r.method = "POST") (hpath : s.handler? r.path = some h)
    (hbody : Asks r.body request) :
    s.route r = ⟨200, "application/json",
      (Review.ofResponse (respond request (h.run request))).encode.render⟩ := by
  obtain ⟨review, hread, hrequest⟩ := hbody
  rw [route, if_neg (by simp [hmethod, hpath]), hread]
  simp only [dispatch_eq hpath hrequest]

lemma route_of_asks {request : Request} (hmethod : r.method = "POST")
    (hpath : s.handler? r.path = some h) (hbody : Asks r.body request) :
    Delivers (s.route r) h request := by
  rw [route_eq hmethod hpath hbody]
  exact ⟨rfl, _, _, readReview_respond _ _, rfl, rfl, decides_respond h request⟩

lemma status_route_eq_400_iff (hmethod : r.method = "POST") (hpath : s.handler? r.path = some h) :
    (s.route r).status = 400 ↔ ∀ request, ¬ Asks r.body request := by
  refine ⟨fun hstatus request hasks => ?_, route_of_silent hmethod hpath⟩
  simp [(route_of_asks hmethod hpath hasks).1] at hstatus

lemma status_route_eq_404_iff :
    (s.route r).status = 404 ↔ r.method ≠ "POST" ∨ s.handler? r.path = none := by
  refine ⟨fun hstatus => ?_, route_of_unserved⟩
  by_contra hserved
  push Not at hserved
  obtain ⟨hmethod, hsome⟩ := hserved
  obtain ⟨h, hpath⟩ := Option.ne_none_iff_exists'.mp hsome
  by_cases hasks : ∃ request, Asks r.body request
  · obtain ⟨request, hasks⟩ := hasks
    simp [(route_of_asks hmethod hpath hasks).1] at hstatus
  · simp [route_of_silent hmethod hpath (not_exists.mp hasks)] at hstatus

/-- Whatever is registered, a request that is no review to a registered path is not found, a review
without a request is refused, and any other is decided by the handler that was registered first under
its path. A path that is taken stays with its handler. -/
theorem route_fails_closed (registrations : List (String × Handler)) (r : Http.Request) :
    (((registered registrations).route r).status = 404 ↔
      r.method ≠ "POST" ∨ ∀ e ∈ registrations, e.1 ≠ r.path) ∧
    (r.method = "POST" → (∃ e ∈ registrations, e.1 = r.path) →
      ∃ h, (∀ g, FirstAt registrations r.path g ↔ g = h) ∧
        (((registered registrations).route r).status = 400 ↔ ∀ request, ¬ Asks r.body request) ∧
        ∀ request, Asks r.body request →
          Delivers ((registered registrations).route r) h request) ∧
    ∀ e ∈ registrations, ∀ h,
      (registered registrations).register e.1 h = .error (.duplicatePath e.1) ∧
      ({} : Server).registerEach (registrations ++ [(e.1, h)]) =
        ((({} : Server).registerEach registrations).1 ++ [some (.duplicatePath e.1)],
          registered registrations) := by
  refine ⟨?_, fun hmethod hregistered => ?_, fun e he h => ?_⟩
  · rw [status_route_eq_404_iff, handler?_registered_eq_none]
  · obtain ⟨e, he, hpath⟩ := hregistered
    obtain ⟨h, hserved⟩ := exists_handler? he
    rw [hpath] at hserved
    refine ⟨h, fun g => ?_, status_route_eq_400_iff hmethod hserved,
      fun request => route_of_asks hmethod hserved⟩
    rw [← handler?_registered, hserved, Option.some.injEq, eq_comm]
  · obtain ⟨taken, hserved⟩ := exists_handler? he
    have hregister := register_of_isSome (hserved ▸ Option.isSome_some) h
    refine ⟨hregister, ?_⟩
    rw [registerEach_append, ← registered]
    simp only [registerEach, hregister]

/-- A request to create a widget. -/
def creation : Request where
  uid := "7"
  kind := { version := "v1", kind := "Widget" }
  resource := { version := "v1", resource := "widgets" }
  operation := .create

lemma asks_creation : Asks (Review.ofRequest creation).encode.render.toUTF8 creation := by
  have hwritable := Review.writable_ofRequest creation (by simp [creation]) (by simp [creation])
  refine ⟨.ofRequest creation, ?_, rfl⟩
  rw [readReview, Json.readOctets_render _ hwritable]
  rfl

/-- A handler that fails denies, also if one that allows everything comes after it. -/
theorem route_fails_closed_taken : ∃ review,
    readReview ((registered
      [("/widgets", .mutating fun _ => .error (.handler "down")),
       ("/widgets", .validating fun _ => .ok .allow)]).route
      ⟨"POST", "/widgets", (Review.ofRequest creation).encode.render.toUTF8⟩).body.toUTF8 =
        some review ∧
    review.response = some (.deny "7" 500 "down") := by
  have hasks := asks_creation
  generalize (Review.ofRequest creation).encode.render.toUTF8 = body at hasks ⊢
  obtain ⟨h, hfirst, -, hdecided⟩ := (route_fails_closed
    [("/widgets", .mutating fun _ => .error (.handler "down")),
     ("/widgets", .validating fun _ => .ok .allow)] ⟨"POST", "/widgets", body⟩).2.1 rfl
    ⟨_, List.mem_cons_self, rfl⟩
  obtain rfl := (hfirst _).mp ⟨[], _, rfl, by simp⟩
  obtain ⟨-, review, response, hread, -, hresponse, hdecides⟩ := hdecided creation hasks
  have hfailed := hdecides.failed (.handler "down") (.mutating rfl)
  refine ⟨review, hread, ?_⟩
  rw [hresponse, hfailed]
  rfl

end Server

end ControlLoop.Admission
