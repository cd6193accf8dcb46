import TestServer.HttpAnswers
import TestServer.InspectedHeaders
import TestServer.Library.Sorting

/-!
# Requests for two targets

What the handlers of HTTP endpoints make of two requests that differ in their target and in their
bytes only. Apart from what reports these, a response is the same, but for the handlers of three
endpoints that read their parameter from the target.
-/

namespace TestServer

open Js Library Endpoints

def pathHeader : JsString := js ":path"

/-- The same header, or the target in both. -/
def SameEntry (entry entry' : JsString × HeaderValue) : Prop :=
  entry = entry' ∨ entry.1 = pathHeader ∧ entry'.1 = pathHeader

/-- Two requests that differ in their target and in their bytes only. -/
structure SameApartFromTarget (req req' : HttpCall) : Prop where
  sockets : req.toRequestSockets = req'.toRequestSockets
  method : req.method = req'.method
  headers : List.Forall₂ SameEntry req.headers req'.headers
  body : req.body = req'.body
  rawTrailers : req.rawTrailers = req'.rawTrailers
  encrypted : req.encrypted = req'.encrypted
  tlsSocket : req.tlsSocket = req'.tlsSocket
  sni : req.sni = req'.sni
  clientHello : req.clientHello = req'.clientHello
  pipelining : req.pipelining = req'.pipelining
  streamId : req.streamId = req'.streamId
  capturing : req.capturingStream.isSome = req'.capturingStream.isSome

/-- The members of an object of headers without the target. -/
def membersWithoutPath (members : List (JsString × JsonValue)) : List (JsString × JsonValue) :=
  members.filter fun m => decide (m.1 ≠ pathHeader)

/-- The same detail, or details of two requests that report their target. -/
inductive SameField : JsString × Option JsonValue → JsString × Option JsonValue → Prop
  | same (field : JsString × Option JsonValue) : SameField field field
  | url (value value' : Option JsonValue) : SameField (js "url", value) (js "url", value')
  | headers {members members' : List (JsString × JsonValue)}
      (h : membersWithoutPath members = membersWithoutPath members') :
      SameField (js "headers", some (.object members)) (js "headers", some (.object members'))

section

variable (path path' : JsString)

/-- Pieces of two bodies that are the same apart from what reports the target or raw bytes. -/
inductive SameChunk : Chunk → Chunk → Prop
  | same (chunk : Chunk) : SameChunk chunk chunk
  | details (layout : JsonLayout) {fields fields' : RequestDetails}
      (h : List.Forall₂ SameField fields fields') :
      SameChunk (.details layout fields) (.details layout fields')
  | received (data data' : ProcessConnection.Bytes) : SameChunk (.received data) (.received data')
  | frames (lines lines' : List FrameOutput) : SameChunk (.frames lines) (.frames lines')
  /-- A text with the path of the request in it. -/
  | reported (lead rest : JsString) :
      SameChunk (.text (lead ++ path ++ rest)) (.text (lead ++ path' ++ rest))

inductive SameAction : ResponseAction → ResponseAction → Prop
  | same (action : ResponseAction) : SameAction action action
  | write {chunk chunk' : Chunk} (h : SameChunk path path' chunk chunk') :
      SameAction (.write chunk) (.write chunk')
  /-- The head in front of received bytes, with their number. -/
  | received (statusCode : Option JsNumber) (length length' : Nat) :
      SameAction (.writeHead statusCode [(js "Content-Length", .one (decimal length))])
        (.writeHead statusCode [(js "Content-Length", .one (decimal length'))])

/-- What is thrown for two requests, with the path of the request in the message or not. -/
inductive SameThrown : Option Thrown → Option Thrown → Prop
  | same (thrown : Option Thrown) : SameThrown thrown thrown
  | reported (statusCode : Nat) (lead rest : JsString) :
      SameThrown (some (.statusError statusCode (lead ++ path ++ rest)))
        (some (.statusError statusCode (lead ++ path' ++ rest)))

/-- What is done with the final response. -/
def finalActions (actions : List ResponseAction) : List ResponseAction :=
  actions.filter fun action =>
    match action with
    | .informational _ _ => false
    | _ => true

/-- The final responses are the same apart from what reports the target. -/
def SameActions (actions actions' : List ResponseAction) : Prop :=
  List.Forall₂ (SameAction path path') (finalActions actions) (finalActions actions')

structure SameHandled (handled handled' : Handled) : Prop where
  actions : SameActions path path' handled.actions handled'.actions
  thrown : SameThrown path path' handled.thrown handled'.thrown

end

/-- A count is refused since it is none. -/
def InvalidCount (path : JsString) : Prop :=
  parseCount streamRule path = .error (badRequest (streamRule.invalid ++ path))

/-- The handler of an endpoint reads the same from two targets, if it reads the target at all. -/
structure ReadsSame (endpoint : HandledEndpoint) (path path' : JsString) : Prop where
  etag : endpoint.name = js "etag" →
    path.drop (js "/etag/").length = path'.drop (js "/etag/").length
  cacheWithAge : endpoint.name = js "cacheWithAge" →
    parseNumber (path.drop (js "/cache/").length) = parseNumber (path'.drop (js "/cache/").length)
  streamEndpoint : endpoint.name = js "streamEndpoint" →
    parseCount streamRule path = parseCount streamRule path' ∨
      InvalidCount path ∧ InvalidCount path'

namespace SameApartFromTarget

variable {req req' : HttpCall} {name : JsString}

theorem find?_headers {headers headers' : HeaderList}
    (h : List.Forall₂ SameEntry headers headers') (hname : name ≠ pathHeader) :
    (headers.find? fun entry => decide (entry.1 = name)) =
      headers'.find? fun entry => decide (entry.1 = name) := by
  induction h with
  | nil => rfl
  | cons hentry _ ih =>
      rcases hentry with rfl | ⟨hpath, hpath'⟩
      · rw [List.find?_cons, List.find?_cons, ih]
      · rw [List.find?_cons_of_neg, List.find?_cons_of_neg, ih]
        · rw [decide_eq_true_eq, hpath']
          exact hname.symm
        · rw [decide_eq_true_eq, hpath]
          exact hname.symm

theorem header_eq (h : SameApartFromTarget req req') (hname : name ≠ pathHeader) :
    req.header name = req'.header name := by
  rw [HttpCall.header, HttpCall.header, find?_headers h.headers hname]

theorem truthyHeader_eq (h : SameApartFromTarget req req') (hname : name ≠ pathHeader) :
    req.truthyHeader name = req'.truthyHeader name := by
  rw [HttpCall.truthyHeader, HttpCall.truthyHeader, h.header_eq hname]

theorem httpVersion_eq (h : SameApartFromTarget req req') : req.httpVersion = req'.httpVersion :=
  congrArg RequestSockets.httpVersion h.sockets

end SameApartFromTarget

theorem related_canonicalPair {entry entry' : JsString × HeaderValue}
    (h : SameEntry entry entry') :
    Related SameEntry (InspectedHeaders.canonicalPair entry)
      (InspectedHeaders.canonicalPair entry') := by
  rcases h with rfl | ⟨hpath, hpath'⟩
  · cases InspectedHeaders.canonicalPair entry with
    | error e => exact Related.error e
    | ok pair => exact Related.ok (Or.inl rfl)
  · have hpair : ∀ e : JsString × HeaderValue, e.1 = pathHeader →
        InspectedHeaders.canonicalPair e = .ok (pathHeader, e.2) := by
      intro e he
      rw [InspectedHeaders.canonicalPair, he]
      rfl
    rw [hpair entry hpath, hpair entry' hpath']
    exact Related.ok (Or.inr ⟨rfl, rfl⟩)

/-- Without the target the entries are the same. -/
theorem filter_eq_of_sameEntry {pairs pairs' : HeaderList}
    (h : List.Forall₂ SameEntry pairs pairs') :
    (pairs.filter fun pair => decide (pair.1 ≠ pathHeader)) =
      pairs'.filter fun pair => decide (pair.1 ≠ pathHeader) := by
  induction h with
  | nil => rfl
  | cons hentry _ ih =>
      rcases hentry with rfl | ⟨hpath, hpath'⟩
      · rw [List.filter_cons, List.filter_cons, ih]
      · rw [List.filter_cons_of_neg, List.filter_cons_of_neg, ih]
        · rw [decide_eq_true_eq, not_not]
          exact hpath'
        · rw [decide_eq_true_eq, not_not]
          exact hpath

/-- The order of the members of the target's own name does not matter to the others. -/
theorem membersWithoutPath_membersOf (pairs : HeaderList) :
    membersWithoutPath (InspectedHeaders.membersOf pairs) =
      InspectedHeaders.membersOf (pairs.filter fun pair => decide (pair.1 ≠ pathHeader)) := by
  have htotal : Std.Total fun a b : JsString × HeaderValue => sortText a ≤ sortText b :=
    ⟨fun _ _ => List.le_total _ _⟩
  have htrans : IsTrans _ fun a b : JsString × HeaderValue => sortText a ≤ sortText b :=
    ⟨fun _ _ _ => List.le_trans⟩
  rw [membersWithoutPath, InspectedHeaders.membersOf, InspectedHeaders.membersOf, List.filter_map,
    ← filter_insertionSort]
  rfl

theorem related_canonicalHeaders (library : HttpLibrary) {headers headers' : HeaderList}
    (h : List.Forall₂ SameEntry headers headers') :
    Related (fun json json' => SameField (js "headers", some json) (js "headers", some json'))
      (canonicalHeaders library headers) (canonicalHeaders library headers') := by
  change Related _ ((headers.mapM InspectedHeaders.canonicalPair).bind _)
    ((headers'.mapM InspectedHeaders.canonicalPair).bind _)
  apply (Related.mapM h fun _ _ => related_canonicalPair).bind
  intro pairs pairs' hpairs
  have hmembers : membersWithoutPath (InspectedHeaders.membersOf pairs) =
      membersWithoutPath (InspectedHeaders.membersOf pairs') := by
    rw [membersWithoutPath_membersOf, membersWithoutPath_membersOf, filter_eq_of_sameEntry hpairs]
  rw [library.lodash.fromPairs_eq, library.lodash.fromPairs_eq]
  exact Related.ok (SameField.headers hmembers)

theorem SameField.name_eq {field field' : JsString × Option JsonValue}
    (h : SameField field field') : field.1 = field'.1 := by
  cases h <;> rfl

theorem sameFields_refl (fields : RequestDetails) : List.Forall₂ SameField fields fields :=
  List.forall₂_same.mpr fun field _ => SameField.same field

theorem find?_sameFields {details details' : RequestDetails}
    (h : List.Forall₂ SameField details details') (name : JsString) :
    ((details.find? fun field => decide (field.1 = name)) = none ∧
        (details'.find? fun field => decide (field.1 = name)) = none) ∨
      ∃ field field', (details.find? fun field => decide (field.1 = name)) = some field ∧
        (details'.find? fun field => decide (field.1 = name)) = some field' ∧
        SameField field field' := by
  induction h with
  | nil => exact Or.inl ⟨rfl, rfl⟩
  | @cons field field' _ _ hfield _ ih =>
      rw [List.find?_cons, List.find?_cons, hfield.name_eq]
      by_cases hname : field'.1 = name
      · rw [decide_eq_true hname]
        exact Or.inr ⟨field, field', rfl, rfl, hfield⟩
      · rw [decide_eq_false hname]
        exact ih

/-- The fields of some names in the details of two requests. -/
theorem sameFields_restrict {details details' : RequestDetails}
    (h : List.Forall₂ SameField details details') (fields : List JsString) :
    List.Forall₂ SameField (details.restrict fields) (details'.restrict fields) := by
  induction fields with
  | nil => exact List.Forall₂.nil
  | cons name fields ih =>
      rw [RequestDetails.restrict, RequestDetails.restrict, List.filterMap_cons,
        List.filterMap_cons]
      rcases find?_sameFields h name with ⟨hnone, hnone'⟩ | ⟨field, field', hfound, hfound', hfield⟩
      · rw [hnone, hnone']
        exact ih
      · rw [hfound, hfound']
        exact List.Forall₂.cons hfield ih

/-- Two requests whose targets have the same query. -/
structure SameRead (library : HttpLibrary) (req req' : HttpCall) : Prop extends
    SameApartFromTarget req req' where
  query : (inspectedUrl library req).map RequestUrl.searchParams =
    (inspectedUrl library req').map RequestUrl.searchParams

section

variable {library : HttpLibrary} {req req' : HttpCall}

theorem related_details (h : SameRead library req req')
    (fieldFilter : Option FieldFilter) :
    Related (List.Forall₂ SameField) (buildHttpBinAnythingData library req fieldFilter)
      (buildHttpBinAnythingData library req' fieldFilter) := by
  have hquery := h.query
  have hcontentType := h.header_eq (show js "content-type" ≠ pathHeader by decide)
  rw [buildHttpBinAnythingData, buildHttpBinAnythingData]
  cases hurl : inspectedUrl library req with
  | none =>
      cases hurl' : inspectedUrl library req' with
      | none => exact Related.error _
      | some url' =>
          rw [hurl, hurl'] at hquery
          cases hquery
  | some url =>
      cases hurl' : inspectedUrl library req' with
      | none =>
          rw [hurl, hurl'] at hquery
          cases hquery
      | some url' =>
          rw [hurl, hurl', Option.map_some, Option.map_some, Option.some_inj] at hquery
          have hargs : getUrlArgs url = getUrlArgs url' := congrArg entriesToMultidict hquery
          apply (related_canonicalHeaders library h.headers).bind
          intro json json' hheaders
          have hfiles : getFiles library req.body req = getFiles library req'.body req' := by
            rw [getFiles, getFiles, hcontentType, h.body]
          have horigin : origin req.toRequestSockets = origin req'.toRequestSockets :=
            congrArg origin h.sockets
          have hframe (before between : RequestDetails) : List.Forall₂ SameField
              (before ++ ((js "headers", some json) :: between ++ [(js "url", some (.str url.href))]))
              (before ++
                ((js "headers", some json') :: between ++ [(js "url", some (.str url'.href))])) := by
            apply List.rel_append (sameFields_refl before)
            apply List.Forall₂.cons hheaders
            apply List.rel_append (sameFields_refl between)
            exact List.Forall₂.cons (SameField.url _ _) List.Forall₂.nil
          rw [hargs, hfiles, hcontentType, h.body, h.method, horigin]
          cases fieldFilter with
          | none => exact Related.ok (hframe [_, _, _, _] [_, _, _])
          | some fieldFilter =>
              dsimp only
              rw [fieldFilter.pick_eq library rfl, fieldFilter.pick_eq library rfl]
              exact Related.ok
                (sameFields_restrict (hframe [_, _, _, _] [_, _, _]) fieldFilter.fields)

variable {path path' : JsString}

theorem isFinal_of_sameAction {action action' : ResponseAction}
    (h : SameAction path path' action action') :
    (finalActions [action] = [action] ∧ finalActions [action'] = [action']) ∨
      (finalActions [action] = [] ∧ finalActions [action'] = []) := by
  cases h with
  | same action => cases action <;> first | exact Or.inl ⟨rfl, rfl⟩ | exact Or.inr ⟨rfl, rfl⟩
  | write h => exact Or.inl ⟨rfl, rfl⟩
  | received statusCode length length' => exact Or.inl ⟨rfl, rfl⟩

theorem finalActions_append (actions rest : List ResponseAction) :
    finalActions (actions ++ rest) = finalActions actions ++ finalActions rest :=
  List.filter_append ..

theorem SameActions.append {actions actions' rest rest' : List ResponseAction}
    (h : SameActions path path' actions actions') (hrest : SameActions path path' rest rest') :
    SameActions path path' (actions ++ rest) (actions' ++ rest') := by
  rw [SameActions, finalActions_append, finalActions_append]
  exact List.rel_append h hrest

theorem sameActions_refl (actions : List ResponseAction) :
    SameActions path path' actions actions :=
  List.forall₂_same.mpr fun action _ => SameAction.same action

theorem sameActions_of_forall₂ {actions actions' : List ResponseAction}
    (h : List.Forall₂ (SameAction path path') actions actions') :
    SameActions path path' actions actions' := by
  induction h with
  | nil => exact sameActions_refl []
  | @cons action action' actions actions' haction _ ih =>
      have hsingle : SameActions path path' [action] [action'] := by
        rw [SameActions]
        rcases isFinal_of_sameAction haction with ⟨h, h'⟩ | ⟨h, h'⟩
        · rw [h, h']
          exact List.Forall₂.cons haction List.Forall₂.nil
        · rw [h, h']
          exact List.Forall₂.nil
      exact hsingle.append ih

theorem sameHandled_refl (handled : Handled) : SameHandled path path' handled handled :=
  ⟨sameActions_refl _, SameThrown.same _⟩

theorem sameHandled_of_related {x x' : Except Thrown (List ResponseAction)}
    (h : Related (List.Forall₂ (SameAction path path')) x x') :
    SameHandled path path' (Handled.of x) (Handled.of x') := by
  cases h with
  | ok h => exact ⟨sameActions_of_forall₂ h, SameThrown.same none⟩
  | error e => exact sameHandled_refl _

/-- Two responses with the same head, and with the details of two requests. -/
theorem related_respondWith_details (h : SameRead library req req')
    (fieldFilter : Option FieldFilter) (headers : HeaderList) :
    Related (List.Forall₂ (SameAction path path'))
      (buildHttpBinAnythingData library req fieldFilter >>= fun data =>
        pure (respondWith 200 headers (.details .document data)))
      (buildHttpBinAnythingData library req' fieldFilter >>= fun data =>
        pure (respondWith 200 headers (.details .document data))) := by
  apply (related_details h fieldFilter).bind
  intro fields fields' hfields
  apply Related.ok
  refine List.Forall₂.cons (SameAction.same _) (List.Forall₂.cons ?_ (List.Forall₂.cons ?_ .nil))
  · exact SameAction.write (SameChunk.details .document hfields)
  · exact SameAction.same _

/-- The endpoint answers two requests the same. -/
def HandlesSame (handle : HttpHandler) (library : HttpLibrary) (req req' : HttpCall) : Prop :=
  ∀ options, SameHandled (targetPath req.url) (targetPath req'.url) (handle library req options)
    (handle library req' options)

theorem handlesSame_anythingEndpoint (h : SameRead library req req')
    (fieldFilter : Option FieldFilter) :
    HandlesSame (buildHttpBinAnythingEndpoint fieldFilter) library req req' :=
  fun _ => sameHandled_of_related (related_respondWith_details h fieldFilter jsonHeaders)

theorem handlesSame_delayEndpoint (h : SameRead library req req') :
    HandlesSame delayEndpoint.handle library req req' := by
  intro options
  rw [delayEndpoint.handle, delayEndpoint.handle]
  split_ifs
  · exact sameHandled_refl _
  · exact handlesSame_anythingEndpoint h _ options

theorem handlesSame_methodHandler (h : SameRead library req req') :
    HandlesSame methodHandler library req req' := by
  intro options
  rw [methodHandler, methodHandler, h.method]
  dsimp only
  split_ifs with hmethod
  · exact sameHandled_refl _
  all_goals exact handlesSame_anythingEndpoint h _ options

theorem handlesSame_cache (h : SameRead library req req') :
    HandlesSame cache.handle library req req' := by
  intro options
  rw [cache.handle, cache.handle,
    h.truthyHeader_eq (show js "if-modified-since" ≠ pathHeader by decide),
    h.truthyHeader_eq (show js "if-none-match" ≠ pathHeader by decide)]
  split_ifs
  · exact sameHandled_refl _
  · exact sameHandled_of_related (related_respondWith_details h _ _)

theorem handlesSame_cacheWithAge (h : SameRead library req req')
    (hnumber : parseNumber ((targetPath req.url).drop (js "/cache/").length) =
      parseNumber ((targetPath req'.url).drop (js "/cache/").length)) :
    HandlesSame cacheWithAge.handle library req req' := by
  intro options
  rw [cacheWithAge.handle, cacheWithAge.handle, hnumber]
  exact sameHandled_of_related (related_respondWith_details h _ _)

theorem handlesSame_etag (h : SameRead library req req')
    (htag : (targetPath req.url).drop (js "/etag/").length =
      (targetPath req'.url).drop (js "/etag/").length) :
    HandlesSame etag.handle library req req' := by
  intro options
  rw [etag.handle, etag.handle, htag,
    h.truthyHeader_eq (show js "if-none-match" ≠ pathHeader by decide),
    h.truthyHeader_eq (show js "if-match" ≠ pathHeader by decide)]
  split_ifs
  · exact sameHandled_refl _
  · exact sameHandled_refl _
  · exact sameHandled_of_related (related_respondWith_details h _ _)

theorem handlesSame_streamEndpoint (h : SameRead library req req')
    (hcount : parseCount streamRule (targetPath req.url) =
        parseCount streamRule (targetPath req'.url) ∨
      InvalidCount (targetPath req.url) ∧ InvalidCount (targetPath req'.url)) :
    HandlesSame streamEndpoint.handle library req req' := by
  intro options
  rw [streamEndpoint.handle, streamEndpoint.handle]
  rcases hcount with hcount | ⟨hinvalid, hinvalid'⟩
  · rw [hcount]
    cases parseCount streamRule (targetPath req'.url) with
    | error e => exact sameHandled_refl _
    | ok n =>
        apply sameHandled_of_related
        apply (related_details h _).bind
        intro fields fields' hfields
        apply Related.ok
        apply List.Forall₂.cons (SameAction.same _)
        apply List.rel_append _ (List.Forall₂.cons (SameAction.same _) List.Forall₂.nil)
        rw [List.forall₂_map_left_iff, List.forall₂_map_right_iff]
        apply List.forall₂_same.mpr
        intro id _
        apply SameAction.write
        exact SameChunk.details .line (List.Forall₂.cons (SameField.same _) hfields)
  · rw [hinvalid, hinvalid']
    have hreported := @SameThrown.reported (targetPath req.url) (targetPath req'.url) 400
      streamRule.invalid []
    rw [List.append_nil, List.append_nil] at hreported
    exact ⟨sameActions_refl _, hreported⟩

theorem handlesSame_userAgent (h : SameRead library req req') :
    HandlesSame userAgent.handle library req req' := by
  intro options
  rw [userAgent.handle, userAgent.handle,
    h.header_eq (show js "user-agent" ≠ pathHeader by decide)]
  exact sameHandled_refl _

theorem handlesSame_echo (h : SameRead library req req') :
    HandlesSame echo.handle library req req' := by
  intro options
  have hcapturing := h.capturing
  rw [echo.handle, echo.handle, h.httpVersion_eq, h.streamId, h.pipelining]
  cases req'.httpVersion with
  | http1 =>
      dsimp only
      split_ifs
      · exact sameHandled_refl _
      · refine ⟨sameActions_of_forall₂ ?_, SameThrown.same none⟩
        apply List.Forall₂.cons (SameAction.received _ _ _)
        apply List.Forall₂.cons (SameAction.write (SameChunk.received _ _))
        exact List.Forall₂.cons (SameAction.same _) List.Forall₂.nil
  | http2 =>
      cases hcaptured : req.capturingStream with
      | none =>
          cases hcaptured' : req'.capturingStream with
          | none => exact sameHandled_refl _
          | some captured' =>
              rw [hcaptured, hcaptured'] at hcapturing
              cases hcapturing
      | some captured =>
          cases hcaptured' : req'.capturingStream with
          | none =>
              rw [hcaptured, hcaptured'] at hcapturing
              cases hcapturing
          | some captured' =>
              cases req'.streamId with
              | none => exact sameHandled_refl _
              | some requestStreamId =>
                  refine ⟨sameActions_of_forall₂ ?_, SameThrown.same none⟩
                  apply List.Forall₂.cons (SameAction.same _)
                  apply List.Forall₂.cons (SameAction.write (SameChunk.frames _ _))
                  exact List.Forall₂.cons (SameAction.same _) List.Forall₂.nil

theorem handlesSame_trailers (h : SameRead library req req') :
    HandlesSame trailers.handle library req req' := by
  intro options
  rw [trailers.handle, trailers.handle, h.rawTrailers,
    SameApartFromTarget.find?_headers h.headers (show js "te" ≠ pathHeader by decide)]
  exact sameHandled_refl _

theorem checkBasicAuth_eq (h : SameRead library req req') :
    checkBasicAuth req = checkBasicAuth req' := by
  funext username password
  rw [checkBasicAuth, checkBasicAuth,
    h.truthyHeader_eq (show js "authorization" ≠ pathHeader by decide)]

theorem handlesSame_basicAuth (h : SameRead library req req') :
    HandlesSame basicAuth.handle library req req' := by
  intro options
  rw [basicAuth.handle, basicAuth.handle, checkBasicAuth_eq h,
    h.truthyHeader_eq (show js "authorization" ≠ pathHeader by decide)]
  exact sameHandled_refl _

theorem handlesSame_hiddenBasicAuth (h : SameRead library req req') :
    HandlesSame hiddenBasicAuth.handle library req req' := by
  intro options
  rw [hiddenBasicAuth.handle, hiddenBasicAuth.handle, checkBasicAuth_eq h]
  exact sameHandled_refl _

theorem handlesSame_bearer (h : SameRead library req req') :
    HandlesSame bearer.handle library req req' := by
  intro options
  rw [bearer.handle, bearer.handle, h.header_eq (show js "authorization" ≠ pathHeader by decide)]
  exact sameHandled_refl _

theorem handlesSame_getCookies (h : SameRead library req req') :
    HandlesSame getCookies.handle library req req' := by
  intro options
  rw [getCookies.handle, getCookies.handle,
    h.header_eq (show js "cookie" ≠ pathHeader by decide)]
  exact sameHandled_refl _

theorem handlesSame_tlsFingerprint (h : SameRead library req req') :
    HandlesSame tlsFingerprint.handle library req req' := by
  intro options
  rw [tlsFingerprint.handle, tlsFingerprint.handle, h.clientHello]
  exact sameHandled_refl _

theorem handlesSame_tlsClientHello (h : SameRead library req req') :
    HandlesSame tlsClientHello.handle library req req' := by
  intro options
  rw [tlsClientHello.handle, tlsClientHello.handle, h.clientHello]
  exact sameHandled_refl _

theorem handlesSame_absoluteRedirectN (h : SameRead library req req') :
    HandlesSame absoluteRedirectN.handle library req req' := by
  intro options
  have hbase : getBaseUrl req = getBaseUrl req' := by
    rw [getBaseUrl, getBaseUrl, h.tlsSocket,
      h.truthyHeader_eq (show js ":authority" ≠ pathHeader by decide),
      h.header_eq (show js "host" ≠ pathHeader by decide)]
  rw [absoluteRedirectN.handle, absoluteRedirectN.handle, hbase]
  exact sameHandled_refl _

/-- All handlers answer two requests the same, if those that read the target read the same. -/
theorem handlesSame_of_mem (h : SameRead library req req') :
    ∀ endpoint ∈ handledEndpoints,
      ReadsSame endpoint (targetPath req.url) (targetPath req'.url) →
        HandlesSame endpoint.handle library req req' := by
  simp only [handledEndpoints, List.forall_mem_cons]
  and_intros
  all_goals try exact fun _ _ => sameHandled_refl _
  · exact fun _ => handlesSame_absoluteRedirectN h
  · exact fun _ => handlesSame_anythingEndpoint h none
  · exact fun _ => handlesSame_basicAuth h
  · exact fun _ => handlesSame_bearer h
  · exact fun _ => handlesSame_cache h
  · exact fun hreads => handlesSame_cacheWithAge h (hreads.cacheWithAge rfl)
  · exact fun _ => handlesSame_delayEndpoint h
  · exact fun _ => handlesSame_echo h
  · exact fun hreads => handlesSame_etag h (hreads.etag rfl)
  · exact fun _ => handlesSame_getCookies h
  · exact fun _ => handlesSame_methodHandler h
  · exact fun _ => handlesSame_anythingEndpoint h _
  · exact fun _ => handlesSame_hiddenBasicAuth h
  · exact fun _ => handlesSame_anythingEndpoint h _
  · exact fun _ => handlesSame_methodHandler h
  · exact fun hreads => handlesSame_streamEndpoint h (hreads.streamEndpoint rfl)
  · exact fun _ => handlesSame_tlsClientHello h
  · exact fun _ => handlesSame_tlsFingerprint h
  · exact fun _ => handlesSame_trailers h
  · exact fun _ => handlesSame_userAgent h
  · exact List.forall_mem_nil _

end

section

variable {library : HttpLibrary} {version : HttpVersion} {path path' : JsString}

/-- Node accepts the length of any body. -/
def AcceptsLengths (library : HttpLibrary) : Prop :=
  ∀ version n, library.headerError version (js "Content-Length") (.one (decimal n)) = none

/-- Informational responses are not refused. -/
theorem perform_finalActions (actions : List ResponseAction) :
    perform library version (finalActions actions) =
      ⟨finalActions (perform library version actions).actions,
        (perform library version actions).thrown⟩ := by
  induction actions with
  | nil => rfl
  | cons action actions ih =>
      by_cases hfinal : finalActions [action] = [action]
      · have hcons : ∀ rest, finalActions (action :: rest) = action :: finalActions rest := by
          intro rest
          rw [← List.singleton_append, finalActions_append, hfinal, List.singleton_append]
        rw [hcons, perform, perform, ih]
        cases actionError library version action with
        | none =>
            dsimp only
            rw [hcons]
        | some e => rfl
      · cases action with
        | informational code headers => exact ih
        | _ => exact absurd rfl hfinal

theorem actionError_eq (hlengths : AcceptsLengths library) {action action' : ResponseAction}
    (h : SameAction path path' action action') :
    actionError library version action = actionError library version action' := by
  cases h with
  | same action => rfl
  | write h => rfl
  | received statusCode length length' =>
      rw [actionError, actionError, List.findSome?_singleton, List.findSome?_singleton,
        hlengths, hlengths]

theorem forall₂_perform (hlengths : AcceptsLengths library)
    {actions actions' : List ResponseAction}
    (h : List.Forall₂ (SameAction path path') actions actions') :
    List.Forall₂ (SameAction path path') (perform library version actions).actions
        (perform library version actions').actions ∧
      (perform library version actions).thrown = (perform library version actions').thrown := by
  induction h with
  | nil => exact ⟨List.Forall₂.nil, rfl⟩
  | cons haction _ ih =>
      rw [perform, perform, actionError_eq hlengths haction]
      split
      · exact ⟨List.Forall₂.nil, rfl⟩
      · exact ⟨List.Forall₂.cons haction ih.1, ih.2⟩

theorem sameHandled_perform (hlengths : AcceptsLengths library)
    {actions actions' : List ResponseAction} (h : SameActions path path' actions actions') :
    SameHandled path path' (perform library version actions)
      (perform library version actions') := by
  obtain ⟨hactions, hthrown⟩ := @forall₂_perform library version path path' hlengths _ _ h
  rw [perform_finalActions, perform_finalActions] at hactions hthrown
  exact ⟨hactions, hthrown ▸ SameThrown.same _⟩

theorem sameHandled_andThen {first first' next next' : Handled}
    (hfirst : SameHandled path path' first first') (hnext : SameHandled path path' next next') :
    SameHandled path path' (first.andThen next) (first'.andThen next') := by
  obtain ⟨actions, thrown⟩ := first
  obtain ⟨actions', thrown'⟩ := first'
  obtain ⟨hactions, hthrown⟩ := hfirst
  cases hthrown with
  | same thrown =>
      cases thrown with
      | none => exact ⟨hactions.append hnext.actions, hnext.thrown⟩
      | some e => exact ⟨hactions, SameThrown.same _⟩
  | reported statusCode lead rest => exact ⟨hactions, SameThrown.reported _ _ _⟩

theorem sameHandled_performHandled (hlengths : AcceptsLengths library) {handled handled' : Handled}
    (h : SameHandled path path' handled handled') :
    SameHandled path path' (performHandled library version handled)
      (performHandled library version handled') := by
  apply sameHandled_andThen (sameHandled_perform hlengths h.actions)
  exact ⟨sameActions_refl [], h.thrown⟩

/-- What is tested of the actions on a final response. -/
theorem any_finalActions {p : ResponseAction → Bool}
    (hp : ∀ code headers, p (.informational code headers) = false)
    (actions : List ResponseAction) : (finalActions actions).any p = actions.any p := by
  induction actions with
  | nil => rfl
  | cons action actions ih =>
      rw [← List.singleton_append, finalActions_append, List.any_append, List.any_append, ih]
      cases action with
      | informational code headers =>
          rw [List.any_cons, hp]
          rfl
      | _ => rfl

theorem any_eq_of_sameActions {p : ResponseAction → Bool} {actions actions' : List ResponseAction}
    (hp : ∀ code headers, p (.informational code headers) = false)
    (hsame : ∀ action action', SameAction path path' action action' → p action = p action')
    (h : List.Forall₂ (SameAction path path') (finalActions actions) (finalActions actions')) :
    actions.any p = actions'.any p := by
  rw [← any_finalActions hp, ← any_finalActions hp actions']
  generalize finalActions actions = final, finalActions actions' = final' at h
  induction h with
  | nil => rfl
  | cons haction _ ih => rw [List.any_cons, List.any_cons, hsame _ _ haction, ih]

theorem writableEnded_eq {actions actions' : List ResponseAction}
    (h : SameActions path path' actions actions') :
    writableEnded actions = writableEnded actions' := by
  apply any_eq_of_sameActions _ _ h
  · exact fun _ _ => rfl
  · intro action action' haction
    cases haction <;> rfl

/-- What the handler of a protocol does with the same exception. -/
theorem sameActions_caught {handled handled' : Handled}
    (h : SameHandled path path' handled handled') :
    SameActions path path' (caught version handled) (caught version handled') := by
  obtain ⟨actions, thrown⟩ := handled
  obtain ⟨actions', thrown'⟩ := handled'
  obtain ⟨hactions, hthrown⟩ := h
  cases hthrown with
  | same thrown =>
      cases thrown with
      | none => exact hactions
      | some e =>
          rw [caught, caught]
          dsimp only
          rw [any_eq_of_sameActions ?_ ?_ hactions]
          · generalize actions'.any _ = headersSent
            cases version with
            | http1 =>
                dsimp only
                cases http1Catch e ⟨false, headersSent⟩ with
                | none => exact hactions
                | destroyed => exact hactions.append (sameActions_refl _)
                | sent statusCode body => exact hactions.append (sameActions_refl _)
            | http2 =>
                dsimp only
                cases http2Catch e ⟨false, headersSent⟩ with
                | none => exact hactions
                | destroyed => exact hactions.append (sameActions_refl _)
                | sent statusCode body => exact hactions.append (sameActions_refl _)
          · exact fun _ _ => rfl
          · intro action action' haction
            cases haction <;> rfl
  | reported statusCode lead rest =>
      rw [caught, caught]
      dsimp only
      rw [any_eq_of_sameActions ?_ ?_ hactions]
      · generalize actions'.any _ = headersSent
        cases headersSent with
        | true =>
            have hdestroyed : SameActions path path' (actions ++ [.destroy])
                (actions' ++ [.destroy]) := hactions.append (sameActions_refl _)
            cases version with
            | http1 => exact hdestroyed
            | http2 => exact hdestroyed
        | false =>
            cases version with
            | http1 =>
                apply SameActions.append hactions
                apply sameActions_of_forall₂
                apply List.Forall₂.cons (SameAction.same _)
                apply List.Forall₂.cons (SameAction.write (SameChunk.reported lead rest))
                exact List.Forall₂.cons (SameAction.same _) List.Forall₂.nil
            | http2 => exact hactions.append (sameActions_refl _)
      · exact fun _ _ => rfl
      · intro action action' haction
        cases haction <;> rfl

end

end TestServer
