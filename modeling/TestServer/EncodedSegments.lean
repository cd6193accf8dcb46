import TestServer.RequestTargets

/-!
# Percent-encoded segments

The handlers for basic authentication and for cookies take the segments of the path as they are,
still encoded. They mean the decoded texts if encoding does not change these, and if they are no
segments of dots, which no path name has.

## Implementation notes

What the cookie package does with names that it accepts, and the URL parser with such targets, are
hypotheses.
-/

namespace TestServer.Endpoints

open Js

namespace EncodedSegments

/-- A text that is a segment of a path name as it is. -/
def Verbatim (t : Text) : Prop :=
  t.units.all isUnreserved = true ∧ t.units ≠ js "." ∧ t.units ≠ js ".."

instance (t : Text) : Decidable (Verbatim t) := inferInstanceAs (Decidable (_ ∧ _ ∧ _))

theorem verbatim_iff (t : Text) : Verbatim t ↔ t.encoded = t.units ∧ Kept t.encoded := by
  rw [Verbatim, Kept, t.encoded_eq_units_iff, t.encoded_mem_doubleDots_iff,
    t.encoded_mem_singleDots_iff, and_comm (a := ¬ _)]

/-- A path with two segments at its end. -/
def segmentsPath (leads : List JsString) (first second : JsString) : JsString :=
  segmentPath (leads ++ [first, second])

/-- The segments that an endpoint's own paths begin with. -/
def Leading (leads : List JsString) : Prop :=
  leads ≠ [] ∧ ∀ lead ∈ leads, lead ≠ [] ∧ PlainSegment lead ∧ Kept lead

instance (leads : List JsString) : Decidable (Leading leads) :=
  @instDecidableAnd _ _ _ (List.decidableBAll _ _)

section

variable {leads : List JsString} {first second : JsString}

theorem plainSegment_of_mem (h : Leading leads) (hfirst : PlainSegment first)
    (hsecond : PlainSegment second) :
    ∀ segment ∈ leads ++ [first, second], PlainSegment segment := by
  refine List.forall_mem_append.mpr ⟨fun lead hlead => (h.2 lead hlead).2.1, ?_⟩
  simp only [List.forall_mem_cons, List.not_mem_nil, false_implies, implies_true, and_true]
  exact ⟨hfirst, hsecond⟩

theorem plainPath_segmentsPath (h : Leading leads) (hfirst : PlainSegment first)
    (hsecond : PlainSegment second) : PlainPath (segmentsPath leads first second) := by
  have hsegments := plainSegment_of_mem h hfirst hsecond
  cases leads with
  | nil => exact absurd rfl h.1
  | cons lead rest => exact ⟨lead, _, rfl, (h.2 lead List.mem_cons_self).1, hsegments⟩

/-- The leading segments stay until dots come after them. -/
theorem split_resolvePath_segmentsPath (h : Leading leads) (hfirst : PlainSegment first)
    (hsecond : PlainSegment second) :
    split (resolvePath (segmentsPath leads first second)) (js "/") =
      [] :: resolveSegments leads [first, second] := by
  have hkept : ∀ lead ∈ leads, Kept lead := fun lead hlead => (h.2 lead hlead).2.2
  rw [segmentsPath, split_resolvePath_segmentPath (plainSegment_of_mem h hfirst hsecond),
    resolveSegments_append hkept, List.nil_append]

theorem resolvePath_segmentsPath (h : Leading leads) (hfirst : PlainSegment first)
    (hsecond : PlainSegment second) (hkept : Kept first) (hkept' : Kept second) :
    resolvePath (segmentsPath leads first second) = segmentsPath leads first second := by
  apply resolvePath_of_kept (split_segmentPath (plainSegment_of_mem h hfirst hsecond))
  refine List.forall_mem_append.mpr ⟨fun lead hlead => (h.2 lead hlead).2.2, ?_⟩
  simp only [List.forall_mem_cons, List.not_mem_nil, false_implies, implies_true, and_true]
  exact ⟨hkept, hkept'⟩

/-- A segment of dots leaves less than two segments, or an empty one. -/
theorem resolveSegments_pair (done : List JsString) {a b : JsString}
    (h : ¬ (Kept a ∧ Kept b)) :
    (resolveSegments done [a, b]).length ≤ done.length + 1 ∨
      b ∈ singleDots ∧ resolveSegments done [a, b] = done ++ [a, []] := by
  have hlast : ∀ rest, (resolveSegments rest [b]).length ≤ rest.length + 1 :=
    fun rest => length_resolveSegments_le
  have hleftover : leftover [b] = [] := rfl
  by_cases hdouble : a ∈ doubleDots
  · left
    rw [resolveSegments, if_pos hdouble, hleftover, List.append_nil]
    have hlength := hlast done.dropLast
    rw [List.length_dropLast] at hlength
    omega
  by_cases hsingle : a ∈ singleDots
  · left
    rw [resolveSegments, if_neg hdouble, if_pos hsingle, hleftover, List.append_nil]
    exact hlast done
  have ha : Kept a := ⟨hdouble, hsingle⟩
  rw [resolveSegments_cons ha, resolveSegments]
  by_cases hdouble' : b ∈ doubleDots
  · left
    rw [if_pos hdouble', List.dropLast_concat]
    exact (List.length_append ..).le
  · have hsingle' : b ∈ singleDots := by
      by_contra hb
      exact h ⟨ha, hdouble', hb⟩
    right
    rw [if_neg hdouble', if_pos hsingle', List.append_assoc]
    exact ⟨hsingle', rfl⟩

end

def Answers200 (handled : Handled) : Prop :=
  ∃ headers rest, handled.actions = writeHead 200 headers :: rest

/-- The header `authorization` is `Basic` with the base64 form of a text. What comes after another
space is not looked at. -/
def IsBasic (req : HttpCall) (text : JsString) : Prop :=
  ∃ header rest, req.header (js "authorization") = some header ∧
    split header (js " ") = js "Basic" :: toBase64 (encodeUtf8 text) :: rest

/-- An endpoint authenticates the requests that present the username and the password. -/
def AuthenticatesAt (library : HttpLibrary) (endpoint : HandledEndpoint) (lead : JsString)
    (username password : Text) : Prop :=
  ∀ req hostnamePrefix, req.url = segmentsPath [lead] username.encoded password.encoded →
    (routedUrl library req).isSome = true →
      ((∃ handled, handledBy library endpoint req hostnamePrefix = some handled ∧
        Answers200 handled) ↔ IsBasic req (username.units ++ js ":" ++ password.units))

def Authenticates (library : HttpLibrary) (username password : Text) : Prop :=
  AuthenticatesAt library ⟨basicAuth, basicAuth.handle⟩ (js "basic-auth") username password ∧
    AuthenticatesAt library ⟨hiddenBasicAuth, hiddenBasicAuth.handle⟩ (js "hidden-basic-auth")
      username password

theorem checkBasicAuth_iff (req : HttpCall) (username password : JsString) :
    checkBasicAuth req username password = true ↔
      IsBasic req (username ++ js ":" ++ password) := by
  rw [checkBasicAuth, HttpCall.truthyHeader, IsBasic]
  cases req.header (js "authorization") with
  | none => exact ⟨nofun, fun ⟨_, _, h, _⟩ => (nomatch h)⟩
  | some header =>
      by_cases hempty : header = []
      · subst hempty
        rw [Option.filter_some, if_neg (by simp)]
        constructor
        · nofun
        · rintro ⟨header, rest, hheader, hsplit⟩
          cases hheader
          cases hsplit
      · rw [Option.filter_some, if_pos (decide_eq_true hempty)]
        simp only [Option.some.injEq, exists_and_left, exists_eq_left']
        cases hsplit : split header (js " ") with
        | nil => simp
        | cons authType tail =>
            cases tail with
            | nil => simp
            | cons authValue tail => simp

theorem checkBasicAuth_eq_false {req : HttpCall} (h : req.truthyHeader (js "authorization") = none)
    (username password : JsString) : checkBasicAuth req username password = false := by
  rw [checkBasicAuth, h]

theorem answers200_respondWith (headers : HeaderList) (chunk : Chunk) :
    Answers200 (.done (respondWith 200 headers chunk)) := ⟨headers, _, rfl⟩

theorem not_answers200_respondEmpty {statusCode : Nat} (h : statusCode ≠ 200)
    (headers : HeaderList) : ¬ Answers200 (.done (respondEmpty statusCode headers)) := by
  rintro ⟨others, rest, hactions⟩
  exact h (writeHead_inj (List.cons.inj hactions).1).1

/-- An endpoint that answers if the segments after the leading one are presented. -/
structure ChecksCredentials (endpoint : HandledEndpoint) (lead : JsString) : Prop where
  leading : Leading [lead]
  takes : ∃ name, endpoint.toHttpEndpoint = credentialsEndpoint name lead
  answers : ∀ library req options, Answers200 (endpoint.handle library req options) ↔
    checkBasicAuth req (credentials options.path).1 (credentials options.path).2 = true

theorem checksCredentials_basicAuth :
    ChecksCredentials ⟨basicAuth, basicAuth.handle⟩ (js "basic-auth") where
  leading := by decide +kernel
  takes := ⟨_, rfl⟩
  answers library req options := by
    change Answers200 (basicAuth.handle library req options) ↔ _
    rw [basicAuth.handle]
    dsimp only
    split_ifs with hnone hcheck
    · rw [checkBasicAuth_eq_false hnone]
      exact iff_of_false (not_answers200_respondEmpty (by decide) _) Bool.false_ne_true
    · exact iff_of_true (answers200_respondWith _ _) hcheck
    · exact iff_of_false (not_answers200_respondEmpty (by decide) _) hcheck

theorem checksCredentials_hiddenBasicAuth :
    ChecksCredentials ⟨hiddenBasicAuth, hiddenBasicAuth.handle⟩ (js "hidden-basic-auth") where
  leading := by decide +kernel
  takes := ⟨_, rfl⟩
  answers library req options := by
    change Answers200 (hiddenBasicAuth.handle library req options) ↔ _
    rw [hiddenBasicAuth.handle]
    dsimp only
    split_ifs with hcheck
    · exact iff_of_true (answers200_respondWith _ _) hcheck
    · exact iff_of_false (not_answers200_respondEmpty (by decide) _) hcheck

theorem matchPath_credentialsEndpoint_iff (name lead path : JsString)
    (hostnamePrefix : Option JsString) :
    ((credentialsEndpoint name lead).matchPath path hostnamePrefix).toOption = some true ↔
      ∃ username password, split path (js "/") = [[], lead, username, password] ∧
        username ≠ [] ∧ password ≠ [] := by
  change some _ = some true ↔ _
  rw [Option.some_inj]
  dsimp only
  split
  · rename_i first username password hsplit
    rw [hsplit, decide_eq_true_eq]
    constructor
    · rintro ⟨rfl, husername, hpassword⟩
      exact ⟨username, password, rfl, husername, hpassword⟩
    · rintro ⟨_, _, hpieces, husername, hpassword⟩
      cases hpieces
      exact ⟨rfl, husername, hpassword⟩
  · rename_i hother
    refine iff_of_false Bool.false_ne_true ?_
    rintro ⟨username, password, hpieces, -⟩
    exact hother lead username password hpieces

section

variable {library : HttpLibrary} {endpoint : HandledEndpoint} {lead : JsString}
  {username password : Text}

/-- The path is still the endpoint's if no segment is one of dots. -/
theorem matchPath_resolved_iff (hendpoint : ChecksCredentials endpoint lead)
    (husername : username.units ≠ []) (hpassword : password.units ≠ [])
    (hostnamePrefix : Option JsString) :
    (endpoint.matchPath (resolvePath (segmentsPath [lead] username.encoded password.encoded))
        hostnamePrefix).toOption = some true ↔ Kept username.encoded ∧ Kept password.encoded := by
  obtain ⟨name, hname⟩ := hendpoint.takes
  rw [hname, matchPath_credentialsEndpoint_iff,
    split_resolvePath_segmentsPath hendpoint.leading (plainSegment_encoded username)
      (plainSegment_encoded password)]
  constructor
  · rintro ⟨first, second, hpieces, -, hsecond⟩
    by_contra hdots
    rcases resolveSegments_pair [lead] hdots with hlength | ⟨-, hlast⟩
    · rw [(List.cons.inj hpieces).2] at hlength
      exact absurd hlength (by simp)
    · rw [hlast] at hpieces
      cases hpieces
      exact hsecond rfl
  · rintro ⟨hfirst, hsecond⟩
    refine ⟨username.encoded, password.encoded, ?_, username.encoded_ne_nil husername,
      password.encoded_ne_nil hpassword⟩
    rw [resolveSegments_cons hfirst, resolveSegments_cons hsecond]
    rfl

/-- The segments are taken as they stand in the path. -/
theorem credentials_segmentsPath (hlead : Leading [lead]) :
    credentials (segmentsPath [lead] username.encoded password.encoded) =
      (username.encoded, password.encoded) := by
  rw [credentials, segmentsPath,
    split_segmentPath (plainSegment_of_mem hlead (plainSegment_encoded username)
      (plainSegment_encoded password))]
  rfl

theorem answers200_handledBy_iff (hreads : ReadsTargets library)
    (hendpoint : ChecksCredentials endpoint lead) (husername : username.units ≠ [])
    (hpassword : password.units ≠ []) {req : HttpCall}
    (hurl : req.url = segmentsPath [lead] username.encoded password.encoded)
    (hparsed : (routedUrl library req).isSome = true) (hostnamePrefix : Option JsString) :
    (∃ handled, handledBy library endpoint req hostnamePrefix = some handled ∧
        Answers200 handled) ↔
      (Kept username.encoded ∧ Kept password.encoded) ∧
        IsBasic req (username.encoded ++ js ":" ++ password.encoded) := by
  have htarget : req.url = segmentsPath [lead] username.encoded password.encoded ++ queryText [] := by
    rw [hurl, queryText, List.append_nil]
  have hplain := plainPath_segmentsPath hendpoint.leading (plainSegment_encoded username)
    (plainSegment_encoded password)
  rw [handledBy_eq hreads hplain htarget hparsed]
  split_ifs with hmatch
  · have hkept := (matchPath_resolved_iff hendpoint husername hpassword hostnamePrefix).mp hmatch
    have hanswers := hendpoint.answers library req
      ⟨segmentsPath [lead] username.encoded password.encoded, decodedPairs []⟩
    rw [credentials_segmentsPath hendpoint.leading, checkBasicAuth_iff] at hanswers
    rw [resolvePath_segmentsPath hendpoint.leading (plainSegment_encoded username)
      (plainSegment_encoded password) hkept.1 hkept.2, and_iff_right hkept, ← hanswers]
    simp only [Option.some.injEq, exists_eq_left']
  · rw [matchPath_resolved_iff hendpoint husername hpassword] at hmatch
    simp [hmatch]

end

/-- A request whose header presents a text. -/
def basicCall (url text : JsString) : HttpCall :=
  hostCall url [(js "authorization", .one (js "Basic " ++ toBase64 (encodeUtf8 text)))]

theorem split_basic (data : List UInt8) :
    split (js "Basic " ++ toBase64 data) (js " ") = [js "Basic", toBase64 data] := by
  have hname : unit ' ' ∉ js "Basic" := by decide
  have hdata : split (toBase64 data) [unit ' '] = [toBase64 data] :=
    split_uncut (uncut_of_notMem (space_notMem_toBase64 data))
  change split (js "Basic" ++ unit ' ' :: toBase64 data) [unit ' '] = _
  rw [split_append_cons hname, hdata]

theorem isBasic_basicCall_iff (url : JsString) {s t : JsString} (hs : isWellFormed s = true)
    (ht : isWellFormed t = true) : IsBasic (basicCall url s) t ↔ s = t := by
  have hheader : (basicCall url s).header (js "authorization") =
      some (js "Basic " ++ toBase64 (encodeUtf8 s)) := rfl
  rw [IsBasic, hheader]
  constructor
  · rintro ⟨header, rest, hsome, hsplit⟩
    cases hsome
    rw [split_basic] at hsplit
    have hsame : toBase64 (encodeUtf8 s) = toBase64 (encodeUtf8 t) := by
      simp only [List.cons.injEq, true_and] at hsplit
      exact hsplit.1
    exact encodeUtf8_inj hs ht (toBase64_injective hsame)
  · rintro rfl
    exact ⟨_, [], rfl, split_basic _⟩

/-- A username and a password with a colon between them. -/
theorem isWellFormed_pair {a b : JsString} (ha : isWellFormed a = true)
    (hb : isWellFormed b = true) : isWellFormed (a ++ js ":" ++ b) = true :=
  isWellFormed_append (isWellFormed_append ha rfl) hb

theorem authenticatesAt_iff {library : HttpLibrary} {endpoint : HandledEndpoint}
    {lead : JsString} {username password : Text} (hreads : ReadsTargets library)
    (hendpoint : ChecksCredentials endpoint lead) (husername : username.units ≠ [])
    (hpassword : password.units ≠ []) (hcolon : unit ':' ∉ username.units) :
    AuthenticatesAt library endpoint lead username password ↔
      Verbatim username ∧ Verbatim password := by
  rw [verbatim_iff, verbatim_iff]
  constructor
  · intro h
    have hwell := isWellFormed_pair username.wellFormed password.wellFormed
    have hencoded : isWellFormed (username.encoded ++ js ":" ++ password.encoded) = true :=
      isWellFormed_pair username.escaped.wellFormed password.escaped.wellFormed
    let path := segmentsPath [lead] username.encoded password.encoded
    have hparsed : (routedUrl library
        (basicCall path (username.units ++ js ":" ++ password.units))).isSome = true :=
      isSome_routedUrl_path hreads (plainPath_segmentsPath hendpoint.leading
        (plainSegment_encoded username) (plainSegment_encoded password)) rfl
    have hanswer := (h _ none rfl hparsed).mpr ((isBasic_basicCall_iff path hwell hwell).mpr rfl)
    rw [answers200_handledBy_iff hreads hendpoint husername hpassword rfl hparsed,
      isBasic_basicCall_iff path hwell hencoded, List.append_assoc, List.append_assoc] at hanswer
    obtain ⟨⟨hkept, hkept'⟩, hsame⟩ := hanswer
    obtain ⟨husername', hpassword'⟩ := append_cons_inj hcolon
      (username.notMem_encoded (by decide) (by decide)) hsame
    exact ⟨⟨husername'.symm, hkept⟩, hpassword'.symm, hkept'⟩
  · rintro ⟨⟨husername', hkept⟩, hpassword', hkept'⟩ req hostnamePrefix hurl hparsed
    rw [answers200_handledBy_iff hreads hendpoint husername hpassword hurl hparsed, husername',
      hpassword', ← husername', ← hpassword', and_iff_right ⟨hkept, hkept'⟩]

theorem authenticates_iff {library : HttpLibrary} {username password : Text}
    (hreads : ReadsTargets library) (husername : username.units ≠ [])
    (hpassword : password.units ≠ []) (hcolon : unit ':' ∉ username.units) :
    Authenticates library username password ↔ Verbatim username ∧ Verbatim password := by
  rw [Authenticates,
    authenticatesAt_iff hreads checksCredentials_basicAuth husername hpassword hcolon,
    authenticatesAt_iff hreads checksCredentials_hiddenBasicAuth husername hpassword hcolon,
    and_self_iff]

/-- A name that the cookie package accepts. -/
def CookieName (name : JsString) : Prop :=
  name ≠ [] ∧ name.all (fun c =>
    decide (0x21 ≤ c ∧ c ≤ 0x7E ∧ c ≠ unit ';' ∧ c ≠ unit '=')) = true

instance (name : JsString) : Decidable (CookieName name) :=
  inferInstanceAs (Decidable (_ ∧ _))

/-- The value that a text of cookies has for a name. -/
def cookieValue (library : HttpLibrary) (cookie name : JsString) : Option JsString :=
  ((library.parseCookie cookie).find? fun entry => decide (entry.1 = name)).map Prod.snd

/-- A cookie for every path, with its encoded value. -/
def cookieText (name encoded : JsString) : JsString :=
  name ++ js "=" ++ encoded ++ js "; Path=/"

/-- `Cookie.serialize` and `Cookie.parse` as they are documented: the value is encoded, and read
back. -/
structure CookiePackage (library : HttpLibrary) : Prop where
  serialize : ∀ name value : Text, CookieName name.units →
    library.serializeCookie name.units value.units =
      .ok (cookieText name.units value.encoded)
  parse : ∀ (name value : Text) cookie, CookieName name.units →
    library.serializeCookie name.units value.units = .ok cookie →
      cookieValue library cookie name.units = some value.units

/-- The endpoint that sets cookies. -/
def cookieSetter : HandledEndpoint := ⟨setCookies, setCookies.handle⟩

theorem handle_cookieSetter : cookieSetter.handle = setCookies.handle := rfl

def setterLeads : List JsString := [js "cookies", js "set"]

/-- The encoded segments and the encoded query set the same cookie, which has the value. -/
def SetsCookie (library : HttpLibrary) (name value : Text) : Prop :=
  ∀ req byQuery hostnamePrefix, req.url = segmentsPath setterLeads name.encoded value.encoded →
    byQuery.url = segmentPath setterLeads ++ queryText [(name, value)] →
    (routedUrl library req).isSome = true → (routedUrl library byQuery).isSome = true →
      ∃ cookie,
        handledBy library cookieSetter req hostnamePrefix =
          some (.done (sendCookies [cookie])) ∧
        handledBy library cookieSetter byQuery hostnamePrefix =
          some (.done (sendCookies [cookie])) ∧
        cookieValue library cookie name.units = some value.units

theorem leading_setterLeads : Leading setterLeads := by decide +kernel

theorem plainPath_setter : PlainPath (segmentPath setterLeads) :=
  ⟨js "cookies", [js "set"], rfl, js_ne_nil (by decide),
    fun lead hlead => (leading_setterLeads.2 lead hlead).2.1⟩

theorem matchPath_setCookies_iff (path : JsString) (hostnamePrefix : Option JsString) :
    (setCookies.matchPath path hostnamePrefix).toOption = some true ↔
      path = segmentPath setterLeads ∨
        startsWith path (js "/cookies/set/") = true ∧ (split path (js "/")).length = 5 := by
  have hpath : segmentPath setterLeads = js "/cookies/set" := by decide
  change some _ = some true ↔ _
  rw [Option.some_inj, Bool.or_eq_true, Bool.and_eq_true, decide_eq_true_eq, decide_eq_true_eq,
    hpath]

theorem setCookies_handle {library : HttpLibrary} (req : HttpCall) {options : HandleOptions}
    {name value cookie : JsString} (hcookies : cookiesToSet options = [(name, value)])
    (hserialize : library.serializeCookie name value = .ok cookie) :
    setCookies.handle library req options = .done (sendCookies [cookie]) := by
  rw [setCookies.handle, hcookies, List.mapM_cons, hserialize]
  rfl

theorem cookiesToSet_segments {first second : JsString} (hfirst : PlainSegment first)
    (hsecond : PlainSegment second) (query : Query) :
    cookiesToSet ⟨segmentsPath setterLeads first second, query⟩ = [(first, second)] := by
  rw [cookiesToSet, segmentsPath,
    split_segmentPath (plainSegment_of_mem leading_setterLeads hfirst hsecond)]
  rfl

/-- Without segments of its own the path leaves the query. -/
theorem cookiesToSet_setter (query : Query) :
    cookiesToSet ⟨segmentPath setterLeads, query⟩ = (queryKeys query).map fun key =>
      (key, (queryGet query key).getD (js "null")) := by
  have hsplit : (split (segmentPath setterLeads) (js "/")).drop 3 = [] := by decide +kernel
  rw [cookiesToSet, hsplit]

theorem cookiesToSet_query (name value : Text) :
    cookiesToSet ⟨segmentPath setterLeads, decodedPairs [(name, value)]⟩ =
      [(name.units, value.units)] := by
  have hkeys : queryKeys (decodedPairs [(name, value)]) = [name.units] := rfl
  rw [cookiesToSet_setter, hkeys]
  simp [queryGet, decodedPairs]

/-- The units of encoded texts can be in names. -/
theorem cookieUnit_of_isUnreserved {c : UInt16} (h : isUnreserved c = true) :
    0x21 ≤ c ∧ c ≤ 0x7E ∧ c ≠ unit ';' ∧ c ≠ unit '=' := by
  have hrange : 0x21 ≤ c.toNat ∧ c.toNat ≤ 0x7E := by
    simp only [isUnreserved, isDigit, Bool.or_eq_true, decide_eq_true_eq,
      UInt16.le_iff_toNat_le, UInt16.reduceToNat, List.contains_iff_mem] at h
    rcases h with ((h | h) | h) | h
    · omega
    · omega
    · omega
    · have hmarks : (js "-_.!~*'()").all
          (fun c => decide (0x21 ≤ c.toNat ∧ c.toNat ≤ 0x7E)) = true := rfl
      exact of_decide_eq_true (List.all_eq_true.mp hmarks c h)
  simp only [UInt16.le_iff_toNat_le, UInt16.reduceToNat]
  refine ⟨hrange.1, hrange.2, ?_, ?_⟩
  · rintro rfl
    cases h
  · rintro rfl
    cases h

/-- An encoded text that is not empty is a name. -/
theorem cookieName_encoded {name : Text} (h : name.units ≠ []) : CookieName name.encoded := by
  refine ⟨name.encoded_ne_nil h, ?_⟩
  rw [List.all_eq_true]
  intro c hc
  rw [decide_eq_true_eq]
  rcases mem_of_encode name.encodeURIComponent_units hc with hunreserved | hpercent
  · exact cookieUnit_of_isUnreserved hunreserved
  · rw [hpercent]
    decide

theorem sendCookies_injective {a b : List JsString}
    (h : Handled.done (sendCookies a) = .done (sendCookies b)) : a = b := by
  have hmap : a.map (fun cookie => (js "set-cookie", HeaderValue.one cookie)) =
      b.map fun cookie => (js "set-cookie", HeaderValue.one cookie) := by
    simpa [Handled.done, sendCookies, respondEmpty, writeHead] using h
  exact List.map_injective_iff.mpr
    (fun _ _ hsame => HeaderValue.one.inj (Prod.ext_iff.mp hsame).2) hmap

theorem notMem_of_cookieName {name : JsString} (h : CookieName name) : unit '=' ∉ name := by
  intro hmem
  have hunit := of_decide_eq_true (List.all_eq_true.mp h.2 _ hmem)
  exact hunit.2.2.2 rfl

section

variable {library : HttpLibrary} {req : HttpCall} {name value : Text}

/-- Without segments the query is given to the handler. -/
theorem handledBy_setter (hreads : ReadsTargets library) {pairs : List (Text × Text)}
    (hurl : req.url = segmentPath setterLeads ++ queryText pairs)
    (hparsed : (routedUrl library req).isSome = true) (hostnamePrefix : Option JsString) :
    handledBy library cookieSetter req hostnamePrefix =
      some (setCookies.handle library req ⟨segmentPath setterLeads, decodedPairs pairs⟩) := by
  have hpath : resolvePath (segmentPath setterLeads) = segmentPath setterLeads := by
    decide +kernel
  have hmatch : (cookieSetter.matchPath (segmentPath setterLeads) hostnamePrefix).toOption =
      some true := (matchPath_setCookies_iff _ _).mpr (.inl rfl)
  rw [handledBy_eq hreads plainPath_setter hurl hparsed, hpath, if_pos hmatch,
    handle_cookieSetter]

theorem handledBy_query (hreads : ReadsTargets library) (hcookies : CookiePackage library)
    (hname : CookieName name.units)
    (hurl : req.url = segmentPath setterLeads ++ queryText [(name, value)])
    (hparsed : (routedUrl library req).isSome = true) (hostnamePrefix : Option JsString) :
    handledBy library cookieSetter req hostnamePrefix =
      some (.done (sendCookies [cookieText name.units value.encoded])) := by
  rw [handledBy_setter hreads hurl hparsed, setCookies_handle req (cookiesToSet_query name value)
    (hcookies.serialize name value hname)]

/-- Segments that are no dots are given to the handler as they are. -/
theorem handledBy_kept (hreads : ReadsTargets library) {first second : JsString}
    (hfirst : PlainSegment first) (hsecond : PlainSegment second)
    (hurl : req.url = segmentsPath setterLeads first second)
    (hparsed : (routedUrl library req).isSome = true) (hkept : Kept first)
    (hkept' : Kept second) (hostnamePrefix : Option JsString) :
    handledBy library cookieSetter req hostnamePrefix =
      some (setCookies.handle library req ⟨segmentsPath setterLeads first second, []⟩) := by
  have htarget : req.url = segmentsPath setterLeads first second ++ queryText [] := by
    rw [hurl, queryText, List.append_nil]
  have hlength : (split (segmentsPath setterLeads first second) (js "/")).length = 5 := by
    rw [segmentsPath,
      split_segmentPath (plainSegment_of_mem leading_setterLeads hfirst hsecond)]
    rfl
  have hstart : startsWith (segmentsPath setterLeads first second) (js "/cookies/set/") = true :=
    rfl
  have hmatch : (cookieSetter.matchPath (segmentsPath setterLeads first second)
      hostnamePrefix).toOption = some true :=
    (matchPath_setCookies_iff _ _).mpr (.inr ⟨hstart, hlength⟩)
  rw [handledBy_eq hreads (plainPath_segmentsPath leading_setterLeads hfirst hsecond) htarget
      hparsed, resolvePath_segmentsPath leading_setterLeads hfirst hsecond hkept hkept',
    if_pos hmatch, handle_cookieSetter]
  rfl

theorem handledBy_segments (hreads : ReadsTargets library) (hcookies : CookiePackage library)
    (hname : name.units ≠ [])
    (hurl : req.url = segmentsPath setterLeads name.encoded value.encoded)
    (hparsed : (routedUrl library req).isSome = true) (hkept : Kept name.encoded)
    (hkept' : Kept value.encoded) (hostnamePrefix : Option JsString) :
    handledBy library cookieSetter req hostnamePrefix =
      some (.done (sendCookies [cookieText name.encoded value.escaped.encoded])) := by
  have hfirst := plainSegment_encoded name
  have hsecond := plainSegment_encoded value
  rw [handledBy_kept hreads hfirst hsecond hurl hparsed hkept hkept',
    setCookies_handle req (cookiesToSet_segments hfirst hsecond [])
      (hcookies.serialize name.escaped value.escaped (cookieName_encoded hname))]
  rfl

/-- Segments of dots set no cookie, or an empty one. -/
theorem handledBy_dots (hreads : ReadsTargets library) (hcookies : CookiePackage library)
    (hname : name.units ≠ []) (hurl : req.url = segmentsPath setterLeads name.encoded value.encoded)
    (hparsed : (routedUrl library req).isSome = true)
    (hdots : ¬ (Kept name.encoded ∧ Kept value.encoded)) {hostnamePrefix : Option JsString}
    {cookie : JsString} (hhandled : handledBy library cookieSetter req hostnamePrefix =
      some (.done (sendCookies [cookie]))) :
    value.encoded ≠ [] ∧ cookie = cookieText name.encoded [] := by
  have htarget : req.url = segmentsPath setterLeads name.encoded value.encoded ++ queryText [] := by
    rw [hurl, queryText, List.append_nil]
  have hfirst := plainSegment_encoded name
  have hsecond := plainSegment_encoded value
  let path := resolvePath (segmentsPath setterLeads name.encoded value.encoded)
  have hpieces : split path (js "/") =
      [] :: resolveSegments setterLeads [name.encoded, value.encoded] :=
    split_resolvePath_segmentsPath leading_setterLeads hfirst hsecond
  rw [handledBy_eq hreads (plainPath_segmentsPath leading_setterLeads hfirst hsecond) htarget
    hparsed] at hhandled
  split_ifs at hhandled with hmatch
  have hdone : setCookies.handle library req ⟨path, decodedPairs []⟩ =
      .done (sendCookies [cookie]) := by
    rwa [Option.some_inj, handle_cookieSetter] at hhandled
  rcases resolveSegments_pair setterLeads hdots with hlength | ⟨hdot, hlast⟩
  · rcases (matchPath_setCookies_iff _ _).mp hmatch with hsetter | ⟨-, hfive⟩
    · have hnone : cookiesToSet ⟨path, decodedPairs []⟩ = [] := by
        change cookiesToSet ⟨resolvePath _, decodedPairs []⟩ = []
        rw [hsetter, cookiesToSet_setter]
        rfl
      rw [setCookies.handle, hnone] at hdone
      have hempty : [] = [cookie] := sendCookies_injective hdone
      cases hempty
    · rw [hpieces, List.length_cons] at hfive
      have hthree : setterLeads.length + 1 = 3 := rfl
      omega
  · have hset : cookiesToSet ⟨path, decodedPairs []⟩ = [(name.encoded, [])] := by
      rw [cookiesToSet, hpieces, hlast]
      rfl
    have hserialize : library.serializeCookie name.encoded [] =
        .ok (cookieText name.encoded []) :=
      hcookies.serialize name.escaped ⟨[], rfl⟩ (cookieName_encoded hname)
    rw [setCookies_handle req hset hserialize] at hdone
    have hsame : [cookieText name.encoded []] = [cookie] := sendCookies_injective hdone
    refine ⟨?_, (List.singleton_inj.mp hsame).symm⟩
    intro hnil
    rw [hnil] at hdot
    revert hdot
    decide

/-- The texts that set cookies differ in the names or in the values. -/
theorem cookieText_inj {a b s t : JsString} (ha : unit '=' ∉ a) (hb : unit '=' ∉ b)
    (h : cookieText a s = cookieText b t) : a = b ∧ s = t := by
  rw [cookieText, cookieText, List.append_assoc, List.append_assoc, List.append_assoc,
    List.append_assoc] at h
  obtain ⟨hname, hrest⟩ := append_cons_inj ha hb h
  exact ⟨hname, List.append_cancel_right hrest⟩

theorem setsCookie_iff (hreads : ReadsTargets library) (hcookies : CookiePackage library)
    (hname : CookieName name.units) (value : Text) :
    SetsCookie library name value ↔ Verbatim name ∧ Verbatim value := by
  rw [verbatim_iff, verbatim_iff]
  have hequals : unit '=' ∉ name.encoded := name.notMem_encoded (by decide) (by decide)
  constructor
  · intro h
    let path := segmentsPath setterLeads name.encoded value.encoded
    have hparsed : (routedUrl library (hostCall path [])).isSome = true :=
      isSome_routedUrl_path hreads (plainPath_segmentsPath leading_setterLeads
        (plainSegment_encoded name) (plainSegment_encoded value)) rfl
    have hparsed' : (routedUrl library (hostCall (segmentPath setterLeads ++
        queryText [(name, value)]) [])).isSome = true :=
      isSome_routedUrl hreads plainPath_setter _ rfl
    obtain ⟨cookie, hsegments, hquery, -⟩ := h _ _ none rfl rfl hparsed hparsed'
    rw [handledBy_query hreads hcookies hname rfl hparsed', Option.some_inj] at hquery
    have hcookie := List.cons.inj (sendCookies_injective hquery)
    rw [← hcookie.1] at hsegments
    by_cases hkept : Kept name.encoded ∧ Kept value.encoded
    · rw [handledBy_segments hreads hcookies hname.1 rfl hparsed hkept.1 hkept.2,
        Option.some_inj] at hsegments
      have hsame := (List.cons.inj (sendCookies_injective hsegments)).1
      obtain ⟨hname', hvalue⟩ := cookieText_inj hequals (notMem_of_cookieName hname) hsame
      exact ⟨⟨hname', hkept.1⟩, Text.units_eq_of_encoded_eq hvalue, hkept.2⟩
    · obtain ⟨hvalue, hsame⟩ :=
        handledBy_dots hreads hcookies hname.1 rfl hparsed hkept hsegments
      exact absurd (cookieText_inj (notMem_of_cookieName hname) hequals hsame).2 hvalue
  · rintro ⟨⟨hname', hkept⟩, hvalue, hkept'⟩ req byQuery hostnamePrefix hurl hurl' hparsed hparsed'
    refine ⟨_, ?_, handledBy_query hreads hcookies hname hurl' hparsed' hostnamePrefix,
      hcookies.parse name value _ hname (hcookies.serialize name value hname)⟩
    have hescaped : value.escaped.encoded = value.encoded := by
      apply value.escaped.encoded_eq_units_iff.mpr
      change value.encoded.all isUnreserved = true
      rw [hvalue]
      exact value.encoded_eq_units_iff.mp hvalue
    rw [handledBy_segments hreads hcookies hname.1 hurl hparsed hkept hkept', hescaped, hname']

end

/-- Encoded segments mean their texts if and only if encoding does not change these and they are
no dots. -/
theorem decodesSegments_iff {library : HttpLibrary} (hreads : ReadsTargets library)
    (hcookies : CookiePackage library) :
    (∀ username password : Text, username.units ≠ [] → password.units ≠ [] →
      unit ':' ∉ username.units →
        (Authenticates library username password ↔ Verbatim username ∧ Verbatim password)) ∧
    ∀ name value : Text, CookieName name.units →
      (SetsCookie library name value ↔ Verbatim name ∧ Verbatim value) :=
  ⟨fun _ _ husername hpassword hcolon => authenticates_iff hreads husername hpassword hcolon,
    fun _ value hname => setsCookie_iff hreads hcookies hname value⟩

/-- A pair of a text of cookies. -/
def cookiePair (part : JsString) : Option (JsString × JsString) :=
  let pair := part.dropWhile fun c => decide (c = unit ' ')
  let value := (pair.dropWhile fun c => decide (c ≠ unit '=')).drop 1
  if unit '=' ∈ pair then
    some (pair.takeWhile fun c => decide (c ≠ unit '='), (decodeURIComponent value).getD value)
  else none

/-- The package and the parser, as far as they are documented. -/
def plainCookies : HttpLibrary :=
  { (default : HttpLibrary) with
    parseUrl := fun target base => some (plainTarget target base)
    serializeCookie := fun name value =>
      match encodeURIComponent value with
      | some encoded =>
          if CookieName name then .ok (cookieText name encoded)
          else .error (js "argument name is invalid: " ++ name)
      | none => .error (js "URI malformed")
    parseCookie := fun text => (split text (js ";")).filterMap cookiePair }

theorem serialize_plainCookies {name : JsString} (hname : CookieName name) (value : Text) :
    plainCookies.serializeCookie name value.units =
      .ok (cookieText name value.encoded) := by
  rw [plainCookies]
  simp only [value.encodeURIComponent_units, if_pos hname]

/-- The first pair is the name with its value. -/
theorem cookiePair_eq {name : JsString} (hname : CookieName name) (value : Text) :
    cookiePair (name ++ js "=" ++ value.encoded) = some (name, value.units) := by
  have hequals : ∀ c ∈ name, decide (c ≠ unit '=') = true := by
    intro c hc
    rw [decide_eq_true_eq]
    rintro rfl
    exact notMem_of_cookieName hname hc
  have htext : name ++ js "=" ++ value.encoded = name ++ unit '=' :: value.encoded :=
    List.append_assoc ..
  have hspaces : (name ++ unit '=' :: value.encoded).dropWhile (fun c => decide (c = unit ' ')) =
      name ++ unit '=' :: value.encoded := by
    cases name with
    | nil => exact absurd rfl hname.1
    | cons c rest =>
        apply List.dropWhile_cons_of_neg
        rw [decide_eq_true_eq]
        rintro rfl
        have hunit := of_decide_eq_true (List.all_eq_true.mp hname.2 _ List.mem_cons_self)
        exact absurd hunit.1 (by decide)
  rw [htext, cookiePair]
  simp only [hspaces]
  rw [if_pos (List.mem_append_right _ List.mem_cons_self), List.takeWhile_append_of_pos hequals,
    List.dropWhile_append_of_pos hequals]
  simp [value.decodeURIComponent_encoded]

theorem cookiePackage_plainCookies : CookiePackage plainCookies where
  serialize name value hname := serialize_plainCookies hname value
  parse name value cookie hname hcookie := by
    rw [serialize_plainCookies hname] at hcookie
    cases hcookie
    have hsemicolon : unit ';' ∉ name.units ++ js "=" ++ value.encoded := by
      rw [List.mem_append, List.mem_append, not_or, not_or]
      refine ⟨⟨fun hmem => ?_, by decide⟩, value.notMem_encoded (by decide) (by decide)⟩
      have hunit := of_decide_eq_true (List.all_eq_true.mp hname.2 _ hmem)
      exact hunit.2.2.1 rfl
    have hsplit : split (cookieText name.units value.encoded) (js ";") =
        (name.units ++ js "=" ++ value.encoded) :: split (js " Path=/") (js ";") :=
      split_append_cons hsemicolon (js " Path=/")
    rw [cookieValue]
    change (((split _ (js ";")).filterMap cookiePair).find? _).map _ = _
    rw [hsplit, List.filterMap_cons, cookiePair_eq hname, List.find?_cons_of_pos (by simp)]
    rfl

theorem decodesSegments_iff_plain :
    Authenticates plainCookies ⟨js "user", rfl⟩ ⟨js "pass", rfl⟩ ∧
      SetsCookie plainCookies ⟨js "test", rfl⟩ ⟨js "value", rfl⟩ := by
  obtain ⟨hbasic, hcookie⟩ :=
    decodesSegments_iff (readsTargets_plainTarget rfl) cookiePackage_plainCookies
  constructor
  · exact (hbasic _ _ (js_ne_nil (by decide)) (js_ne_nil (by decide)) (by decide)).mpr
      ⟨by decide +kernel, by decide +kernel⟩
  · exact (hcookie _ _ (by decide +kernel)).mpr ⟨by decide +kernel, by decide +kernel⟩

/-- A username and a value with a space. -/
theorem not_decodesSegments_space :
    ¬ Authenticates plainCookies ⟨js "a b", rfl⟩ ⟨js "p", rfl⟩ ∧
      ¬ SetsCookie plainCookies ⟨js "n", rfl⟩ ⟨js "a b", rfl⟩ := by
  have hreads : ReadsTargets plainCookies := readsTargets_plainTarget rfl
  have hspace : ¬ Verbatim ⟨js "a b", rfl⟩ := by decide +kernel
  constructor
  · intro h
    exact hspace ((authenticates_iff hreads (js_ne_nil (by decide)) (js_ne_nil (by decide))
      (by decide)).mp h).1
  · intro h
    exact hspace
      ((setsCookie_iff hreads cookiePackage_plainCookies (by decide +kernel) _).mp h).2

end EncodedSegments

end TestServer.Endpoints
