import TestServer.ChainedAnswers
import TestServer.Library.Runs
import TestServer.ResponseShapes

/-!
# The order of a response

Whatever is requested, what is done with the response comes in an order that Node accepts, and the
response is complete at the end unless its connection is dropped.
-/

namespace TestServer

open Js Library Library.Runs Endpoints ChainedAnswers

/-- Where a response stands. -/
inductive ResponsePhase where
  /-- The head is not sent. -/
  | opened
  /-- The head is sent, and so many bytes of the body. -/
  | sending (declared : Option JsString) (sent : Nat)
  | ended
  | dropped
deriving DecidableEq

namespace ResponsePhase

/-- An action out of its order throws, and a body is as long as its head declares. -/
def respond (library : HttpLibrary) : ResponsePhase → ResponseAction → Option ResponsePhase
  | opened, .setHeader _ _ => some opened
  | opened, .informational _ _ => some opened
  | opened, .writeHead _ headers => some (sending (declaredLength headers) 0)
  | opened, .destroy => some dropped
  | opened, .endSocket => some dropped
  | opened, .resetSocket => some dropped
  | sending declared sent, .addTrailers _ => some (sending declared sent)
  | sending declared sent, .write chunk =>
      some (sending declared (sent + (chunk.encode library).length))
  | sending declared sent, .finish =>
      if declared.all fun text => decide (text = decimal sent) then some ended else none
  | sending _ _, .destroy => some dropped
  | _, _ => none

variable {library : HttpLibrary} {phase : ResponsePhase} {actions : List ResponseAction}

theorem run_preliminary (h : ∀ action ∈ actions, action.isPreliminary = true) :
    run (respond library) opened actions = some opened := by
  induction actions with
  | nil => rfl
  | cons action actions ih =>
      obtain ⟨haction, hactions⟩ := List.forall_mem_cons.mp h
      refine run_cons_eq_some_iff.mpr ⟨opened, ?_, ih hactions⟩
      cases action with
      | setHeader name value => rfl
      | informational code headers => rfl
      | _ => cases haction

theorem run_addTrailers (declared : Option JsString) (sent : Nat) (trailers : List HeaderList) :
    run (respond library) (sending declared sent) (trailers.map .addTrailers) =
      some (sending declared sent) := by
  induction trailers with
  | nil => rfl
  | cons headers trailers ih => exact ih

theorem run_write (declared : Option JsString) (sent : Nat) (chunks : List Chunk) :
    run (respond library) (sending declared sent) (chunks.map .write) =
      some (sending declared (sent + (chunks.flatMap (Chunk.encode library)).length)) := by
  induction chunks generalizing sent with
  | nil => rfl
  | cons chunk chunks ih =>
      rw [List.flatMap_cons, List.length_append, ← Nat.add_assoc]
      exact ih (sent + (chunk.encode library).length)

theorem run_response {r : HttpResponse} (h : r.Proper library) :
    run (respond library) opened r.actions = some ended := by
  refine run_append_of_eq_some (run_preliminary h.before) (run_cons_eq_some_iff.mpr ⟨_, rfl, ?_⟩)
  refine run_append_of_eq_some (run_addTrailers _ _ _)
    (run_append_of_eq_some (run_write _ _ _) (run_cons_eq_some_iff.mpr ⟨ended, if_pos ?_, rfl⟩))
  rw [Option.all_eq_true]
  intro text htext
  rw [Nat.zero_add]
  exact decide_eq_true (h.length text htext)

/-- What a handler has done with its response, and what it throws then. -/
inductive Outcome (library : HttpLibrary) : Handled → Prop where
  | complete {r : HttpResponse} (h : r.Proper library) : Outcome library (.done r.actions)
  | drops {front : List ResponseAction} (h : ∀ action ∈ front, action.isPreliminary = true)
      {last : ResponseAction} (hlast : last = .endSocket ∨ last = .resetSocket) :
      Outcome library (.done (front ++ [last]))
  | throws {front : List ResponseAction} (h : ∀ action ∈ front, action.isPreliminary = true)
      (e : Thrown) : Outcome library ⟨front, some e⟩
  | breaks {front : List ResponseAction} (h : ∀ action ∈ front, action.isPreliminary = true)
      (statusCode : Option JsNumber) (headers : HeaderList) (e : Thrown) :
      Outcome library ⟨front ++ [.writeHead statusCode headers], some e⟩

theorem outcome_of_exit {handled : Handled} (h : Exit library handled) :
    Outcome library handled := by
  cases h with
  | responds r h => exact .complete h
  | throws e => exact .throws (List.forall_mem_nil _) e
  | breaks statusCode headers e => exact .breaks (List.forall_mem_nil _) statusCode headers e
  | closes => exact .drops (List.forall_mem_nil _) (.inl rfl)
  | resets => exact .drops (List.forall_mem_nil _) (.inr rfl)

theorem run_drops (h : ∀ action ∈ actions, action.isPreliminary = true) {last : ResponseAction}
    (hlast : last = .endSocket ∨ last = .resetSocket) :
    run (respond library) opened (actions ++ [last]) = some dropped := by
  apply run_append_of_eq_some (run_preliminary h)
  obtain rfl | rfl := hlast
  · rfl
  · rfl

/-- What is done is in order. -/
theorem Outcome.exists_run {handled : Handled} (h : Outcome library handled) :
    ∃ phase, run (respond library) opened handled.actions = some phase := by
  cases h with
  | complete h => exact ⟨ended, run_response h⟩
  | drops h hlast => exact ⟨dropped, run_drops h hlast⟩
  | throws h e => exact ⟨opened, run_preliminary h⟩
  | breaks h statusCode headers e =>
      exact ⟨sending (declaredLength headers) 0, run_append_of_eq_some (run_preliminary h) rfl⟩

theorem preliminary_of_respond {action : ResponseAction}
    (h : respond library phase action = some opened) :
    phase = opened ∧ action.isPreliminary = true := by
  cases phase with
  | opened =>
      cases action with
      | setHeader name value => exact ⟨rfl, rfl⟩
      | informational code headers => exact ⟨rfl, rfl⟩
      | _ => cases h
  | sending declared sent =>
      cases action with
      | finish =>
          rw [respond] at h
          split_ifs at h
          cases h
      | _ => cases h
  | ended => cases h
  | dropped => cases h

/-- Before the head nothing else is done. -/
theorem preliminary_of_run (hrun : run (respond library) phase actions = some opened) :
    phase = opened ∧ ∀ action ∈ actions, action.isPreliminary = true := by
  induction actions generalizing phase with
  | nil =>
      cases hrun
      exact ⟨rfl, List.forall_mem_nil _⟩
  | cons action actions ih =>
      obtain ⟨next, hnext, hrest⟩ := run_cons_eq_some_iff.mp hrun
      obtain ⟨rfl, hactions⟩ := ih hrest
      obtain ⟨hphase, haction⟩ := preliminary_of_respond hnext
      exact ⟨hphase, List.forall_mem_cons.mpr ⟨haction, hactions⟩⟩

/-- Either all actions are performed, or those before one that is refused. -/
theorem perform_cases (version : HttpVersion) (actions : List ResponseAction) :
    perform library version actions = .done actions ∨
      ∃ front action rest e, actions = front ++ action :: rest ∧
        actionError library version action = some e ∧
          perform library version actions = ⟨front, some e⟩ := by
  induction actions with
  | nil => exact .inl rfl
  | cons action actions ih =>
      rw [perform]
      cases herror : actionError library version action with
      | some e => exact .inr ⟨[], action, actions, e, rfl, herror, rfl⟩
      | none =>
          obtain hall | ⟨front, refused, rest, e, hactions, hrefused, hfront⟩ := ih
          · rw [hall]
            exact .inl rfl
          · rw [hfront]
            exact .inr ⟨action :: front, refused, rest, e, congrArg _ hactions, hrefused, rfl⟩

/-- What is refused comes before the head is sent. -/
theorem opened_of_refused {version : HttpVersion} {action : ResponseAction} {e : Thrown}
    {next : ResponsePhase} (herror : actionError library version action = some e)
    (h : respond library phase action = some next) : phase = opened := by
  cases action with
  | setHeader name value =>
      cases phase with
      | opened => rfl
      | _ => cases h
  | writeHead statusCode headers =>
      cases phase with
      | opened => rfl
      | _ => cases h
  | _ => cases herror

/-- Actions that are in order are performed up to one before the head at least. -/
theorem performed_of_run {version : HttpVersion}
    (hrun : run (respond library) opened actions = some phase) :
    perform library version actions = .done actions ∨
      ∃ front e, (∀ action ∈ front, action.isPreliminary = true) ∧
        perform library version actions = ⟨front, some e⟩ := by
  obtain hall | ⟨front, action, rest, e, hactions, herror, hfront⟩ :=
    @perform_cases library version actions
  · exact .inl hall
  · rw [hactions] at hrun
    obtain ⟨m, hm, hrest⟩ := exists_run_of_run_append hrun
    obtain ⟨next, hnext, -⟩ := run_cons_eq_some_iff.mp hrest
    obtain rfl := opened_of_refused herror hnext
    exact .inr ⟨front, e, (preliminary_of_run hm).2, hfront⟩

theorem Outcome.performHandled {handled : Handled} (h : Outcome library handled)
    (version : HttpVersion) : Outcome library (performHandled library version handled) := by
  obtain ⟨phase, hrun⟩ := h.exists_run
  rw [TestServer.performHandled]
  obtain hall | ⟨front, e, hfront, hperform⟩ := @performed_of_run _ _ _ version hrun
  · rw [hall, Handled.andThen, Handled.done]
    dsimp only
    rw [List.append_nil]
    exact h
  · rw [hperform]
    exact .throws hfront e

/-- Actions before the head come first. -/
theorem Outcome.andThen {first next : Handled}
    (hfirst : ∀ action ∈ first.actions, action.isPreliminary = true)
    (hnext : Outcome library next) : Outcome library (first.andThen next) := by
  have happend {front : List ResponseAction}
      (h : ∀ action ∈ front, action.isPreliminary = true) :
      ∀ action ∈ first.actions ++ front, action.isPreliminary = true :=
    fun action haction => (List.mem_append.mp haction).elim (hfirst action) (h action)
  obtain ⟨actions, thrown⟩ := first
  cases thrown with
  | some e => exact .throws hfirst e
  | none =>
      cases hnext with
      | @complete r h =>
          have hproper : HttpResponse.Proper library { r with before := actions ++ r.before } :=
            ⟨happend h.before, h.length, h.json⟩
          have hactions : actions ++ r.actions =
              HttpResponse.actions { r with before := actions ++ r.before } :=
            (List.append_assoc ..).symm
          rw [Handled.andThen, Handled.done]
          dsimp only
          rw [hactions]
          exact .complete hproper
      | @drops front h last hlast =>
          rw [Handled.andThen, Handled.done]
          dsimp only
          rw [← List.append_assoc]
          exact .drops (happend h) hlast
      | throws h e => exact .throws (happend h) e
      | breaks h statusCode headers e =>
          rw [Handled.andThen]
          dsimp only
          rw [← List.append_assoc]
          exact .breaks (happend h) statusCode headers e

/-- A chain ends with an entry that leaves no path. -/
theorem exists_last_of_resolveHandled {initialPath : JsString} {hostnamePrefix : Option JsString}
    {turns : Nat} {c : UInt16} {rest : JsString} {entries : List (ChainEntry HandledEndpoint)}
    (h : resolveHandled initialPath hostnamePrefix turns (some (c :: rest)) = .ok entries) :
    ∃ before last, entries = before ++ [last] ∧ (∀ entry ∈ before, Leaves entry) ∧
      last.endpoint ∈ handledEndpoints ∧
        leavesPath last.endpoint.toHttpEndpoint last.path = false := by
  induction turns generalizing c rest entries with
  | zero => cases h
  | succ turns ih =>
      obtain ⟨endpoint, tail, hfound, htail, rfl⟩ := resolveHandled_succ_eq_ok_iff.mp h
      have hmem : endpoint ∈ handledEndpoints := (handledMatch_eq_some_iff.mp hfound).1
      cases hremaining : endpoint.getRemainingPath (c :: rest) with
      | none =>
          rw [hremaining, resolveHandled_nothing] at htail
          cases htail
          refine ⟨[], ⟨endpoint, c :: rest⟩, rfl, List.forall_mem_nil _, hmem, ?_⟩
          rw [leavesPath, hremaining]
          rfl
      | some path =>
          cases path with
          | nil =>
              rw [hremaining] at htail
              obtain rfl : tail = [] := by
                cases turns with
                | zero => exact (Except.ok.inj htail).symm
                | succ turns => exact (Except.ok.inj htail).symm
              refine ⟨[], ⟨endpoint, c :: rest⟩, rfl, List.forall_mem_nil _, hmem, ?_⟩
              rw [leavesPath, hremaining]
              rfl
          | cons d path =>
              rw [hremaining] at htail
              obtain ⟨before, last, rfl, hbefore, hlast⟩ := ih htail
              refine ⟨⟨endpoint, c :: rest⟩ :: before, last, rfl, ?_, hlast⟩
              refine List.forall_mem_cons.mpr ⟨⟨hmem, ?_⟩, hbefore⟩
              rw [leavesPath, hremaining]
              rfl

/-- Without actions on the final response there are informational ones only. -/
theorem preliminary_of_finalActions (h : finalActions actions = []) :
    ∀ action ∈ actions, action.isPreliminary = true := by
  intro action haction
  have hfinal := List.filter_eq_nil_iff.mp h action haction
  cases action with
  | informational code headers => rfl
  | _ => exact absurd rfl hfinal

theorem perform_of_finalActions {version : HttpVersion} (h : finalActions actions = []) :
    perform library version actions = .done actions := by
  obtain hall | ⟨front, action, rest, e, rfl, herror, -⟩ :=
    @perform_cases library version actions
  · exact hall
  · rw [finalActions_append, List.append_eq_nil_iff] at h
    cases action with
    | informational code headers => cases herror
    | _ => cases h.2

theorem outcome_runChain (hrandom : ByteStreams.SizedRandom library) (req : HttpCall)
    (query : Query) {before : List (ChainEntry HandledEndpoint)}
    {last : ChainEntry HandledEndpoint} (hbefore : ∀ entry ∈ before, Leaves entry)
    (hmem : last.endpoint ∈ handledEndpoints)
    (hlast : leavesPath last.endpoint.toHttpEndpoint last.path = false) :
    Outcome library (runChain library req query (before ++ [last])) := by
  induction before with
  | nil =>
      rw [List.nil_append, runChain_singleton]
      have hexit := exit_handle hrandom req last.endpoint hmem ⟨last.path, query⟩ hlast
      exact (outcome_of_exit hexit).performHandled _
  | cons entry before ih =>
      obtain ⟨⟨hentry, hleaves⟩, hbefore⟩ := List.forall_mem_cons.mp hbefore
      obtain ⟨hfinal, hthrown⟩ :=
        handle_of_leaves entry.endpoint hentry entry.path hleaves library req query
      have hhandled : performHandled library req.httpVersion
          (entry.endpoint.handle library req ⟨entry.path, query⟩) =
            .done (entry.endpoint.handle library req ⟨entry.path, query⟩).actions := by
        rw [performHandled, perform_of_finalActions hfinal, hthrown, Handled.andThen, Handled.done]
        dsimp only
        rw [List.append_nil]
      rw [List.cons_append, runChain, hhandled]
      refine @Outcome.andThen library (.done _) _ (preliminary_of_finalActions hfinal) ?_
      rw [writableEnded, ← any_finalActions (fun _ _ => rfl), Handled.done]
      dsimp only
      rw [hfinal, List.any_nil, if_neg Bool.false_ne_true]
      exact ih hbefore

/-- Whether an action sends the head. -/
def isHead : ResponseAction → Bool
  | .writeHead _ _ => true
  | _ => false

theorem any_isHead (h : ∀ action ∈ actions, action.isPreliminary = true) :
    actions.any isHead = false := by
  rw [List.any_eq_false]
  intro action haction
  have hpreliminary := h action haction
  cases action with
  | writeHead statusCode headers => cases hpreliminary
  | _ => exact Bool.false_ne_true

/-- An exception drops the response where its head is sent, and completes it otherwise. -/
theorem caught_cases (version : HttpVersion) (actions : List ResponseAction) (e : Thrown) :
    (actions.any isHead = true → caught version ⟨actions, some e⟩ = actions ++ [.destroy]) ∧
      (actions.any isHead = false → ∃ statusCode body,
        caught version ⟨actions, some e⟩ = actions ++ respondWith statusCode [] (.text body)) := by
  constructor
  · intro hany
    simp only [caught]
    erw [hany]
    cases version with
    | http1 => rfl
    | http2 => rfl
  · intro hany
    simp only [caught]
    erw [hany]
    cases version with
    | http1 =>
        cases e with
        | statusError statusCode message => exact ⟨_, _, rfl⟩
        | error message => exact ⟨_, _, rfl⟩
    | http2 => exact ⟨_, _, rfl⟩

theorem Outcome.caught {handled : Handled} (h : Outcome library handled) (version : HttpVersion) :
    (∃ r : HttpResponse, r.Proper library ∧ caught version handled = r.actions) ∨
      run (respond library) opened (caught version handled) = some dropped := by
  cases h with
  | complete h => exact .inl ⟨_, h, rfl⟩
  | drops h hlast => exact .inr (run_drops h hlast)
  | @throws front h e =>
      obtain ⟨statusCode, body, hcaught⟩ := (caught_cases version front e).2 (any_isHead h)
      refine .inl ⟨⟨front, some (.finite statusCode), [], [], [.text body]⟩, ⟨h, ?_, ?_⟩, hcaught⟩
      · intro text htext
        cases htext
      · intro hjson
        cases hjson
  | @breaks front h statusCode headers e =>
      have hany : (front ++ [ResponseAction.writeHead statusCode headers]).any isHead = true := by
        rw [List.any_append]
        exact Bool.or_true _
      rw [(caught_cases version _ e).1 hany, List.append_assoc]
      exact .inr (run_append_of_eq_some (run_preliminary h) rfl)

/-- The headers for any endpoint come before its response. -/
theorem isPreliminary_allowCORS (req : HttpCall) :
    ∀ action ∈ allowCORS req, action.isPreliminary = true := by
  intro action haction
  rw [allowCORS] at haction
  split at haction
  · cases haction
  · simp only [List.mem_append, List.mem_cons, List.not_mem_nil, or_false, Option.mem_toList,
      Option.map_eq_some_iff] at haction
    obtain (((rfl | rfl) | ⟨_, -, rfl⟩) | ⟨_, -, rfl⟩) | ⟨_, -, rfl⟩ := haction <;> rfl

theorem preliminary_setHeaders (version : HttpVersion) (req : HttpCall) :
    ∀ action ∈ (perform library version (allowCORS req)).actions,
      action.isPreliminary = true := by
  obtain hall | ⟨front, e, hfront, hperform⟩ := @performed_of_run library _ _ version
    (run_preliminary (isPreliminary_allowCORS req))
  · rw [hall]
    exact isPreliminary_allowCORS req
  · rw [hperform]
    exact hfront

/-- No answer that a host calls for is a chain. -/
theorem ne_routed_of_routeHost {context : HandlerContext} {req : HttpRequest} {url : Url}
    {route : Route} (h : routeHost context req url = .ok (some route)) (path : JsString)
    (hostnamePrefix : Option JsString) : route ≠ .routed path hostnamePrefix := by
  rintro rfl
  rw [routeHost] at h
  split at h
  · dsimp only at h
    split at h
    · cases h
    · obtain ⟨untrustedRootHost, -, h⟩ := bind_ok_iff.mp h
      split_ifs at h <;> cases h
  · cases h

theorem pathname_of_routePath {context : HandlerContext} {version : HttpVersion}
    {req : HttpRequest} {url : Url} {path : JsString} {hostnamePrefix : Option JsString}
    (h : routePath context version req url = .ok (.routed path hostnamePrefix)) :
    url.pathname = path := by
  rw [routePath] at h
  split_ifs at h
  · cases h
  · obtain ⟨_, -, h⟩ := bind_ok_iff.mp h
    cases h
  · obtain ⟨_, -, h⟩ := bind_ok_iff.mp h
    cases h
    rfl

/-- A path that is routed is the one of the URL. -/
theorem exists_url_of_routed {context : HandlerContext} {version : HttpVersion} {req : HttpRequest}
    {path : JsString} {hostnamePrefix : Option JsString}
    (h : routeRequest context version req = .ok (.routed path hostnamePrefix)) :
    ∃ target base url, context.parseUrl target base = some url ∧ url.pathname = path := by
  rw [routeRequest] at h
  obtain ⟨proxy, -, h⟩ := bind_ok_iff.mp h
  split_ifs at h
  · cases h
  · cases h
  · split at h
    · cases h
    · rename_i url hurl
      refine ⟨_, _, url, hurl, ?_⟩
      rw [routeUrl] at h
      split_ifs at h
      · obtain ⟨response, -, h⟩ := bind_ok_iff.mp h
        cases h
      · obtain ⟨route, hroute, h⟩ := bind_ok_iff.mp h
        cases route with
        | some route =>
            cases h
            exact absurd rfl (ne_routed_of_routeHost hroute path hostnamePrefix)
        | none => exact pathname_of_routePath h

theorem performHandled_done (version : HttpVersion) (actions : List ResponseAction) :
    performHandled library version (.done actions) = perform library version actions := by
  obtain hall | ⟨front, action, rest, e, -, -, hfront⟩ := @perform_cases library version actions
  · rw [performHandled, Handled.done, hall, Handled.andThen, Handled.done]
    dsimp only
    rw [List.append_nil]
  · rw [performHandled, Handled.done, hfront]
    rfl

theorem outcome_serveChain (hrandom : ByteStreams.SizedRandom library) (req : HttpCall)
    (query : Query) {path : JsString} (hpath : path ≠ []) (hostnamePrefix : Option JsString) :
    Outcome library (serveChain library req query path hostnamePrefix) := by
  rw [serveChain]
  split
  · exact .throws (List.forall_mem_nil _) _
  · rename_i entries hchain
    cases path with
    | nil => exact absurd rfl hpath
    | cons c rest =>
        rw [handledChain_eq] at hchain
        obtain ⟨before, last, rfl, hbefore, hmem, hlast⟩ := exists_last_of_resolveHandled hchain
        exact outcome_runChain hrandom req query hbefore hmem hlast

/-- A request whose chain is run gets a complete response, or its connection is dropped. -/
theorem complete_or_dropped (hrandom : ByteStreams.SizedRandom library)
    (hpaths : ∀ target base url, library.parseUrl target base = some url → url.pathname ≠ [])
    {options : HttpHandlerOptions} {req : HttpCall}
    (h : answerRequest library options req = .response actions) :
    (∃ r : HttpResponse, r.Proper library ∧ actions = r.actions) ∨
      run (respond library) opened actions = some dropped := by
  rw [answerRequest] at h
  dsimp only at h
  split at h
  · cases h
    exact (Outcome.throws (List.forall_mem_nil _) _).caught _
  · cases h
    refine (Outcome.andThen (preliminary_setHeaders _ _) ?_).caught _
    have hexit : Exit library (.done (respondEmpty 200 [])) := Exit.of_empty rfl
    rw [← performHandled_done]
    exact (outcome_of_exit hexit).performHandled _
  · rename_i path hostnamePrefix hroute
    cases h
    obtain ⟨target, base, url, hurl, hpathname⟩ := exists_url_of_routed hroute
    obtain ⟨requestUrl, hparsed, rfl⟩ := Option.map_eq_some_iff.mp hurl
    refine (Outcome.andThen (preliminary_setHeaders _ _) ?_).caught _
    exact outcome_serveChain hrandom req _ (hpathname ▸ hpaths _ _ _ hparsed) hostnamePrefix
  · cases h

/-- A library whose URLs have paths, and whose random bytes are zeros. -/
def zeroLibrary : HttpLibrary :=
  { plainLibrary with
    parseUrl := fun target base =>
      if targetPath target = [] then none else some (targetUrl target base)
    randomBytes := fun _ n => List.replicate n 0 }

theorem sizedRandom_zeroLibrary : ByteStreams.SizedRandom zeroLibrary :=
  fun _ _ => List.length_replicate

theorem pathname_zeroLibrary (target base : JsString) (url : RequestUrl)
    (hurl : zeroLibrary.parseUrl target base = some url) : url.pathname ≠ [] := by
  obtain ⟨hpath, hurl⟩ := Option.ite_none_left_eq_some.mp hurl
  cases hurl
  exact hpath

end ResponsePhase

end TestServer
