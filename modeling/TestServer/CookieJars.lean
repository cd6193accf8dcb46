import TestServer.EncodedSegments
import TestServer.JsonBodies
import Mathlib.Data.List.Dedup

/-!
# Cookies in a jar

The server keeps no cookies: it sends them, and lists those that come with a request. A client
that keeps what it is sent is told the last value that was set for each name and not deleted.

## Implementation notes

What the cookie package does with names that it accepts, and the URL parser with encoded targets,
are hypotheses. The client keeps a cookie under its name, and drops it if its age is zero.
-/

namespace TestServer.Endpoints

open Js Library Library.Runs EncodedSegments JsonBodies

namespace CookieJars

variable {library : HttpLibrary}

/-- The cookies that a client keeps, as they are written. -/
abbrev CookieJar := InsertionMap JsString JsString

/-- The header that cookies are sent with. -/
def cookieHeader (jar : CookieJar) : JsString :=
  join (js "; ") (jar.entries.map fun e => e.1 ++ js "=" ++ e.2)

/-- A request with the cookies of a jar. -/
def jarCall (jar : CookieJar) (url : JsString) : HttpCall :=
  hostCall url (if jar.entries.isEmpty then [] else [(js "cookie", .one (cookieHeader jar))])

/-- Keep or drop a cookie, as its attributes say. -/
def storeParts (jar : CookieJar) : List JsString → CookieJar
  | [] => jar
  | pair :: attributes =>
      let name := pair.takeWhile fun c => decide (c ≠ unit '=')
      if js " Max-Age=0" ∈ attributes then jar.delete name
      else jar.set name ((pair.dropWhile fun c => decide (c ≠ unit '=')).drop 1)

def store (jar : CookieJar) (cookie : JsString) : CookieJar :=
  storeParts jar (split cookie (js ";"))

def headerCookies (headers : HeaderList) : List JsString :=
  (headers.filter fun entry => decide (entry.1 = js "set-cookie")).map fun entry => entry.2.text

/-- The cookies that a response sets. -/
def sentCookies (actions : List ResponseAction) : List JsString :=
  actions.flatMap fun action =>
    match action with
    | .writeHead _ headers => headerCookies headers
    | _ => []

/-- A visit of an endpoint that sends cookies. The segments are those of the URL's path. -/
inductive Visit where
  | setQuery (cookies : List (Text × Text))
  | setPath (name value : Text)
  | delete (names : List Text)

/-- Cookies under their names. -/
def named (cookies : List (Text × Text)) : List (JsString × Text) :=
  cookies.map fun cookie => (cookie.1.units, cookie.2)

/-- The endpoint that deletes cookies. -/
def cookieDeleter : HandledEndpoint := ⟨deleteCookies, deleteCookies.handle⟩

def deleterPath : JsString := segmentPath [js "cookies", js "delete"]

/-- The query that names cookies to delete. -/
def deletedPairs (names : List Text) : List (Text × Text) := names.map fun name => (name, ⟨[], rfl⟩)

/-- A text that a path name has as a segment. -/
def IsSegment (text : Text) : Prop := PlainSegment text.units ∧ Kept text.units

instance (text : Text) : Decidable (IsSegment text) := inferInstanceAs (Decidable (_ ∧ _))

namespace Visit

/-- The names are accepted by the package. -/
def Accepted : Visit → Prop
  | setQuery cookies => ∀ cookie ∈ named cookies, CookieName cookie.1
  | setPath name value => CookieName name.units ∧ IsSegment name ∧ IsSegment value
  | delete names => ∀ name ∈ names.map Text.units, CookieName name

def handled (library : HttpLibrary) (jar : CookieJar) : Visit → Option Handled
  | setQuery cookies => handledBy library cookieSetter
      (jarCall jar (segmentPath setterLeads ++ queryText cookies)) none
  | setPath name value => handledBy library cookieSetter
      (jarCall jar (segmentsPath setterLeads name.units value.units)) none
  | delete names => handledBy library cookieDeleter
      (jarCall jar (deleterPath ++ queryText (deletedPairs names))) none

/-- What a visit makes of the values of names. -/
def effect : Visit → (JsString → Option Text) → JsString → Option Text
  | setQuery cookies, values, name =>
      (((named cookies).find? fun cookie => decide (cookie.1 = name)).map Prod.snd).or
        (values name)
  | setPath set value, values, name => if name = set.units then some value else values name
  | delete names, values, name => if name ∈ names.map Text.units then none else values name

end Visit

/-- The jar after a visit. -/
def visit (library : HttpLibrary) (jar : CookieJar) (v : Visit) : Option CookieJar :=
  (v.handled library jar).map fun handled => (sentCookies handled.actions).foldl store jar

/-- The values after some visits. -/
def valuesAfter (visits : List Visit) : JsString → Option Text :=
  visits.foldl (fun values v => v.effect values) fun _ => none

/-- `Cookie.serialize` and `Cookie.parse` as they are documented. -/
structure ReadsCookies (library : HttpLibrary) : Prop where
  serialize : ∀ name (value : Text), CookieName name →
    library.serializeCookie name value.units =
      .ok (cookieText name value.encoded)
  parse : ∀ held : InsertionMap JsString Text, (∀ name ∈ held.keys, CookieName name) →
    library.parseCookie (cookieHeader (held.mapValues Text.encoded)) =
      held.entries.map fun e => (e.1, e.2.units)

variable {held : InsertionMap JsString Text} {name : JsString}

theorem headerCookies_map (cookies : List JsString) :
    headerCookies (cookies.map fun cookie => (js "set-cookie", .one cookie)) = cookies := by
  induction cookies with
  | nil => rfl
  | cons cookie cookies ih => exact congrArg (cookie :: ·) ih

theorem sentCookies_sendCookies (cookies : List JsString) :
    sentCookies (sendCookies cookies) = cookies :=
  (List.append_nil _).trans (headerCookies_map cookies)

theorem notMem_semicolon (h : CookieName name) : unit ';' ∉ name := by
  intro hmem
  have hunit := of_decide_eq_true (List.all_eq_true.mp h.2 _ hmem)
  exact hunit.2.2.1 rfl

theorem store_serialized (h : CookieName name) (value : Text) :
    store (held.mapValues Text.encoded) (cookieText name value.encoded) =
      (held.set name value).mapValues Text.encoded := by
  have hpair : unit ';' ∉ name ++ unit '=' :: value.encoded := by
    rw [List.mem_append, List.mem_cons, not_or, not_or]
    exact ⟨notMem_semicolon h, by decide, value.notMem_encoded (by decide) (by decide)⟩
  have hsplit : split (cookieText name value.encoded) (js ";") =
      (name ++ unit '=' :: value.encoded) :: split (js " Path=/") (js ";") := by
    rw [cookieText, List.append_assoc name]
    exact split_append_cons hpair (js " Path=/")
  have hage : js " Max-Age=0" ∉ split (js " Path=/") (js ";") := by decide +kernel
  obtain ⟨htake, hdrop⟩ := span_of_notMem (notMem_of_cookieName h) value.encoded
  rw [store, hsplit, storeParts, if_neg hage, htake, hdrop]
  exact InsertionMap.set_mapValues held Text.encoded name value

theorem store_deleted (h : CookieName name) :
    store (held.mapValues Text.encoded)
        (name ++ js "=; Expires=Thu, 01-Jan-1970 00:00:00 GMT; Max-Age=0; Path=/") =
      (held.delete name).mapValues Text.encoded := by
  have hpair : unit ';' ∉ name ++ unit '=' :: [] := by
    rw [List.mem_append, not_or]
    exact ⟨notMem_semicolon h, by decide⟩
  let attributes := js " Expires=Thu, 01-Jan-1970 00:00:00 GMT; Max-Age=0; Path=/"
  have htext : name ++ js "=; Expires=Thu, 01-Jan-1970 00:00:00 GMT; Max-Age=0; Path=/" =
      (name ++ unit '=' :: []) ++ unit ';' :: attributes :=
    (List.append_assoc name [unit '='] (unit ';' :: attributes)).symm
  have hsplit : split ((name ++ unit '=' :: []) ++ unit ';' :: attributes) (js ";") =
      (name ++ unit '=' :: []) :: split attributes (js ";") := split_append_cons hpair attributes
  have hage : js " Max-Age=0" ∈ split attributes (js ";") := by decide +kernel
  rw [htext, store, hsplit, storeParts, if_pos hage, (span_of_notMem (notMem_of_cookieName h) []).1]
  exact InsertionMap.delete_mapValues held Text.encoded name

/-- The text that sets a cookie. -/
def serialized (cookie : JsString × Text) : JsString :=
  cookieText cookie.1 cookie.2.encoded

def deletion (name : JsString) : JsString :=
  name ++ js "=; Expires=Thu, 01-Jan-1970 00:00:00 GMT; Max-Age=0; Path=/"

theorem foldl_store_serialized {cookies : List (JsString × Text)}
    (h : ∀ cookie ∈ cookies, CookieName cookie.1) (held : InsertionMap JsString Text) :
    (cookies.map serialized).foldl store (held.mapValues Text.encoded) =
      (cookies.foldl (fun m cookie => m.set cookie.1 cookie.2) held).mapValues Text.encoded := by
  induction cookies generalizing held with
  | nil => rfl
  | cons cookie cookies ih =>
      obtain ⟨hcookie, hcookies⟩ := List.forall_mem_cons.mp h
      rw [List.map_cons, List.foldl_cons, serialized, store_serialized hcookie, ih hcookies]
      rfl

theorem foldl_store_deletion {names : List JsString} (h : ∀ name ∈ names, CookieName name)
    (held : InsertionMap JsString Text) :
    (names.map deletion).foldl store (held.mapValues Text.encoded) =
      (names.foldl InsertionMap.delete held).mapValues Text.encoded := by
  induction names generalizing held with
  | nil => rfl
  | cons name names ih =>
      obtain ⟨hname, hnames⟩ := List.forall_mem_cons.mp h
      rw [List.map_cons, List.foldl_cons, deletion, store_deleted hname, ih hnames]
      rfl

theorem mapM_serializeCookie (hreads : ReadsCookies library) {cookies : List (JsString × Text)}
    (h : ∀ cookie ∈ cookies, CookieName cookie.1) :
    (cookies.map fun cookie => (cookie.1, cookie.2.units)).mapM (fun cookie =>
      (library.serializeCookie cookie.1 cookie.2).mapError Thrown.error) =
        .ok (cookies.map serialized) := by
  induction cookies with
  | nil => rfl
  | cons cookie cookies ih =>
      obtain ⟨hcookie, hcookies⟩ := List.forall_mem_cons.mp h
      rw [List.map_cons, List.mapM_cons, hreads.serialize _ _ hcookie, ih hcookies]
      rfl

/-- The first cookie of each name. -/
def firstCookies (cookies : List (JsString × Text)) : List (JsString × Text) :=
  (queryKeys (cookies.map fun cookie => (cookie.1, cookie.2.units))).filterMap fun name =>
    cookies.find? fun cookie => decide (cookie.1 = name)

theorem mem_queryKeys {query : Query} {key : JsString} :
    key ∈ queryKeys query ↔ key ∈ query.map Prod.fst := by
  rw [queryKeys, List.mem_reverse, List.mem_dedup, List.mem_reverse]

/-- The query gives each key its first text. -/
theorem map_queryGet {cookies : List (JsString × Text)} {keys : List JsString}
    (h : ∀ key ∈ keys, key ∈ cookies.map Prod.fst) :
    (keys.map fun key => (key, (queryGet (cookies.map fun cookie =>
        (cookie.1, cookie.2.units)) key).getD (js "null"))) =
      (keys.filterMap fun name => cookies.find? fun cookie => decide (cookie.1 = name)).map
        fun cookie => (cookie.1, cookie.2.units) := by
  induction keys with
  | nil => rfl
  | cons key keys ih =>
      obtain ⟨hkey, hkeys⟩ := List.forall_mem_cons.mp h
      obtain ⟨cookie, hcookie, hname⟩ := List.mem_map.mp hkey
      have hsome : (cookies.find? fun cookie => decide (cookie.1 = key)).isSome = true :=
        List.find?_isSome.mpr ⟨cookie, hcookie, decide_eq_true hname⟩
      obtain ⟨first, hfirst⟩ := Option.isSome_iff_exists.mp hsome
      have hget : queryGet (cookies.map fun cookie => (cookie.1, cookie.2.units)) key =
          some first.2.units := by
        rw [queryGet, List.find?_map]
        exact congrArg (Option.map fun e : JsString × JsString => e.2)
          (congrArg (Option.map fun cookie : JsString × Text => (cookie.1, cookie.2.units)) hfirst)
      have hkey : first.1 = key := by simpa using List.find?_some hfirst
      rw [List.map_cons, ih hkeys, List.filterMap_cons, hfirst, hget, ← hkey]
      rfl

theorem decodedPairs_eq (cookies : List (Text × Text)) :
    decodedPairs cookies = (named cookies).map fun cookie => (cookie.1, cookie.2.units) := by
  rw [named, List.map_map]
  rfl

theorem cookiesToSet_setQuery (cookies : List (Text × Text)) :
    cookiesToSet ⟨segmentPath setterLeads, decodedPairs cookies⟩ =
      (firstCookies (named cookies)).map fun cookie => (cookie.1, cookie.2.units) := by
  rw [cookiesToSet_setter, decodedPairs_eq]
  apply map_queryGet
  intro key hkey
  have hmem := mem_queryKeys.mp hkey
  rwa [List.map_map] at hmem

/-- What is picked for some keys is found by its key. -/
theorem find?_reverse_filterMap {pick : JsString → Option (JsString × Text)}
    (h : ∀ key cookie, pick key = some cookie → cookie.1 = key) (keys : List JsString)
    (name : JsString) :
    (keys.filterMap pick).reverse.find? (fun cookie => decide (cookie.1 = name)) =
      if name ∈ keys then pick name else none := by
  induction keys with
  | nil => rfl
  | cons key keys ih =>
      cases hpick : pick key with
      | none =>
          rw [List.filterMap_cons_none hpick, ih]
          by_cases hname : name = key
          · rw [hname, hpick, ite_self, ite_self]
          · simp [hname]
      | some cookie =>
          rw [List.filterMap_cons_some hpick, List.reverse_cons, List.find?_append, ih]
          by_cases hname : name = key
          · subst hname
            rw [if_pos List.mem_cons_self, hpick, List.find?_singleton,
              if_pos (decide_eq_true (h _ _ hpick))]
            by_cases hmem : name ∈ keys
            · rw [if_pos hmem]
              rfl
            · rw [if_neg hmem]
              rfl
          · have hcookie : ¬ decide (cookie.1 = name) = true := by
              rw [decide_eq_true_eq, h _ _ hpick]
              exact Ne.symm hname
            rw [List.find?_singleton, if_neg hcookie, Option.or_none]
            simp [hname]

theorem find?_firstCookies (cookies : List (JsString × Text)) (name : JsString) :
    (firstCookies cookies).reverse.find? (fun cookie => decide (cookie.1 = name)) =
      cookies.find? fun cookie => decide (cookie.1 = name) := by
  rw [firstCookies, find?_reverse_filterMap fun key cookie hcookie => by
    simpa using List.find?_some hcookie]
  split_ifs with hname
  · rfl
  · rw [mem_queryKeys, List.map_map] at hname
    rw [eq_comm, List.find?_eq_none]
    intro cookie hcookie hsame
    exact hname (List.mem_map.mpr ⟨cookie, hcookie, of_decide_eq_true hsame⟩)

/-- What a visit makes of the values of a jar. -/
def Visit.apply : Visit → InsertionMap JsString Text → InsertionMap JsString Text
  | setQuery cookies, held =>
      (firstCookies (named cookies)).foldl (fun m cookie => m.set cookie.1 cookie.2) held
  | setPath name value, held => held.set name.units value
  | delete names, held =>
      (queryKeys ((names.map Text.units).map fun name => (name, []))).foldl .delete held

theorem setCookies_handle_eq (hreads : ReadsCookies library) {req : HttpCall}
    {options : HandleOptions} {cookies : List (JsString × Text)}
    (hcookies : cookiesToSet options = cookies.map fun cookie => (cookie.1, cookie.2.units))
    (h : ∀ cookie ∈ cookies, CookieName cookie.1) :
    setCookies.handle library req options = .done (sendCookies (cookies.map serialized)) := by
  rw [setCookies.handle, hcookies, mapM_serializeCookie hreads h]
  rfl

theorem accepted_firstCookies {cookies : List (JsString × Text)}
    (h : ∀ cookie ∈ cookies, CookieName cookie.1) :
    ∀ cookie ∈ firstCookies cookies, CookieName cookie.1 := by
  intro cookie hcookie
  obtain ⟨name, -, hfind⟩ := List.mem_filterMap.mp hcookie
  exact h cookie (List.mem_of_find?_eq_some hfind)

/-- The cookies of a request do not change where it goes. -/
theorem host_jarCall (jar : CookieJar) (url : JsString) :
    (jarCall jar url).request.host = some (js "t") := by
  rw [jarCall]
  split_ifs <;> rfl

theorem isSome_routedUrl_jarCall (hreads : ReadsTargets library) {path : JsString}
    (hpath : PlainPath path) (pairs : List (Text × Text)) (jar : CookieJar) :
    (routedUrl library (jarCall jar (path ++ queryText pairs))).isSome = true :=
  isSome_routedUrl hreads hpath pairs (host_jarCall jar _)

theorem plainPath_deleterPath : PlainPath deleterPath :=
  ⟨js "cookies", [js "delete"], rfl, js_ne_nil (by decide), by decide +kernel⟩

theorem handledBy_deleter (hreads : ReadsTargets library) (jar : CookieJar) (names : List Text) :
    handledBy library cookieDeleter
        (jarCall jar (deleterPath ++ queryText (deletedPairs names))) none =
      some (.done (sendCookies ((queryKeys ((names.map Text.units).map fun name =>
        (name, []))).map deletion))) := by
  have hpath : resolvePath deleterPath = deleterPath := by decide +kernel
  have hmatch : (cookieDeleter.matchPath deleterPath none).toOption = some true := by
    decide +kernel
  have hpairs : decodedPairs (deletedPairs names) =
      (names.map Text.units).map fun name => (name, []) := by
    rw [decodedPairs, deletedPairs, List.map_map, List.map_map]
    rfl
  rw [handledBy_eq hreads plainPath_deleterPath rfl
      (isSome_routedUrl_jarCall hreads plainPath_deleterPath _ jar), hpath, if_pos hmatch, hpairs]
  rfl

/-- The jar follows the values. -/
theorem visit_mapValues (htargets : ReadsTargets library) (hreads : ReadsCookies library)
    {v : Visit} (h : v.Accepted) (held : InsertionMap JsString Text) :
    visit library (held.mapValues Text.encoded) v =
      some ((v.apply held).mapValues Text.encoded) := by
  rw [visit]
  cases v with
  | setQuery cookies =>
      have haccepted := accepted_firstCookies h
      rw [Visit.handled, handledBy_setter htargets rfl
          (isSome_routedUrl_jarCall htargets plainPath_setter cookies _),
        setCookies_handle_eq hreads (cookiesToSet_setQuery cookies) haccepted, Option.map_some,
        Handled.done, sentCookies_sendCookies, foldl_store_serialized haccepted]
      rfl
  | setPath name value =>
      obtain ⟨hname, ⟨hplain, hkept⟩, hplain', hkept'⟩ := h
      have haccepted : ∀ cookie ∈ [(name.units, value)], CookieName cookie.1 :=
        List.forall_mem_singleton.mpr hname
      have hparsed : (routedUrl library (jarCall (held.mapValues Text.encoded)
          (segmentsPath setterLeads name.units value.units))).isSome = true :=
        isSome_routedUrl_path htargets
          (plainPath_segmentsPath leading_setterLeads hplain hplain') (host_jarCall _ _)
      have hcookies :
          cookiesToSet ⟨segmentsPath setterLeads name.units value.units, []⟩ =
            [(name.units, value)].map fun cookie => (cookie.1, cookie.2.units) :=
        cookiesToSet_segments hplain hplain' []
      rw [Visit.handled, handledBy_kept htargets hplain hplain' rfl hparsed hkept hkept',
        setCookies_handle_eq hreads hcookies haccepted, Option.map_some, Handled.done,
        sentCookies_sendCookies, foldl_store_serialized haccepted]
      rfl
  | delete names =>
      have haccepted : ∀ name ∈ queryKeys ((names.map Text.units).map fun name => (name, [])),
          CookieName name := by
        intro name hname
        rw [mem_queryKeys, List.map_map] at hname
        obtain ⟨deleted, hdeleted, rfl⟩ := List.mem_map.mp hname
        exact h deleted hdeleted
      rw [Visit.handled, handledBy_deleter htargets, Option.map_some, Handled.done,
        sentCookies_sendCookies]
      exact congrArg some (foldl_store_deletion haccepted held)

theorem get_apply (v : Visit) (held : InsertionMap JsString Text) :
    (v.apply held).get = v.effect held.get := by
  funext name
  cases v with
  | setQuery cookies =>
      rw [Visit.apply, InsertionMap.get_foldl_set, find?_firstCookies]
      rfl
  | setPath set value => exact InsertionMap.get_set held set.units name value
  | delete names =>
      have hmem : name ∈ queryKeys ((names.map Text.units).map fun name => (name, [])) ↔
          name ∈ names.map Text.units := by
        rw [mem_queryKeys, List.map_map]
        exact iff_of_eq (congrArg _ (List.map_id _))
      rw [Visit.apply, InsertionMap.get_foldl_delete, Visit.effect]
      simp only [hmem]

/-- The names that a client keeps are accepted. -/
theorem accepted_apply {v : Visit} (h : v.Accepted) {held : InsertionMap JsString Text}
    (hheld : ∀ name ∈ held.keys, CookieName name) :
    ∀ name ∈ (v.apply held).keys, CookieName name := by
  intro name hname
  obtain ⟨value, hvalue⟩ := InsertionMap.mem_keys_iff.mp hname
  rw [get_apply] at hvalue
  cases v with
  | setQuery cookies =>
      rw [Visit.effect] at hvalue
      cases hfind : (named cookies).find? fun cookie => decide (cookie.1 = name) with
      | some cookie =>
          have hcookie : cookie.1 = name := by simpa using List.find?_some hfind
          exact hcookie ▸ h cookie (List.mem_of_find?_eq_some hfind)
      | none =>
          rw [hfind, Option.map_none, Option.none_or] at hvalue
          exact hheld name (InsertionMap.mem_keys_iff.mpr ⟨value, hvalue⟩)
  | setPath set value' =>
      rw [Visit.effect] at hvalue
      split_ifs at hvalue with hset
      · exact hset ▸ h.1
      · exact hheld name (InsertionMap.mem_keys_iff.mpr ⟨value, hvalue⟩)
  | delete names =>
      rw [Visit.effect] at hvalue
      split_ifs at hvalue
      exact hheld name (InsertionMap.mem_keys_iff.mpr ⟨value, hvalue⟩)

/-- After any visits the jar holds the values that they made. -/
theorem exists_held_of_run (htargets : ReadsTargets library) (hreads : ReadsCookies library)
    {visits : List Visit}
    (h : ∀ v ∈ visits, v.Accepted) {held : InsertionMap JsString Text}
    (hheld : ∀ name ∈ held.keys, CookieName name) {jar : CookieJar}
    (hrun : run (visit library) (held.mapValues Text.encoded) visits = some jar) :
    ∃ held' : InsertionMap JsString Text, jar = held'.mapValues Text.encoded ∧
      (∀ name ∈ held'.keys, CookieName name) ∧
        held'.get = visits.foldl (fun values v => v.effect values) held.get := by
  induction visits generalizing held with
  | nil =>
      cases hrun
      exact ⟨held, rfl, hheld, rfl⟩
  | cons v visits ih =>
      obtain ⟨hv, hvisits⟩ := List.forall_mem_cons.mp h
      obtain ⟨jar', hstep, hrest⟩ := run_cons_eq_some_iff.mp hrun
      rw [visit_mapValues htargets hreads hv, Option.some_inj] at hstep
      subst hstep
      obtain ⟨held', hjar, hnames, hget⟩ := ih hvisits (accepted_apply hv hheld) hrest
      rw [get_apply] at hget
      exact ⟨held', hjar, hnames, hget⟩

/-- The header of a request is the one that its jar gives. -/
theorem header_jarCall (jar : CookieJar) (url : JsString) :
    ((jarCall jar url).header (js "cookie")).getD [] = cookieHeader jar := by
  rw [jarCall]
  split_ifs with h
  · rw [cookieHeader, List.isEmpty_iff.mp h]
    rfl
  · rfl

/-- The object with the values of some names. -/
def cookieMembers (held : InsertionMap JsString Text) : List (JsString × JsonValue) :=
  held.entries.map fun e => (e.1, .str e.2.units)

theorem writesMembers_cookieMembers (held : InsertionMap JsString Text) :
    WritesMembers library.numberText (cookieMembers held) := by
  rw [cookieMembers]
  induction held.entries with
  | nil => trivial
  | cons e entries ih => exact ⟨trivial, ih⟩

theorem get_cookieMembers (held : InsertionMap JsString Text) (name : JsString) :
    (JsonValue.object (cookieMembers held)).get name =
      (held.get name).map fun value => .str value.units := by
  have hget := InsertionMap.find?_of_perm
    (List.reverse_perm (held.mapValues fun value => JsonValue.str value.units).entries) name
  rw [JsonValue.get]
  refine hget.trans ?_
  rw [InsertionMap.get_mapValues]

/-- The endpoint that lists cookies. -/
def cookieLister : HandledEndpoint := ⟨getCookies, getCookies.handle⟩

def listerPath : JsString := segmentPath [js "cookies"]

theorem plainPath_listerPath : PlainPath listerPath :=
  ⟨js "cookies", [], rfl, js_ne_nil (by decide), by decide +kernel⟩

theorem handledBy_lister (htargets : ReadsTargets library) (hreads : ReadsCookies library)
    (hnames : ∀ name ∈ held.keys, CookieName name) :
    handledBy library cookieLister (jarCall (held.mapValues Text.encoded) listerPath) none =
      some (.done (respondWith 200 jsonHeaders
        (.json .document (.object [(js "cookies", .object (cookieMembers held))])))) := by
  have hpath : resolvePath listerPath = listerPath := by decide +kernel
  have hmatch : (cookieLister.matchPath listerPath none).toOption = some true := by
    decide +kernel
  have hurl : (jarCall (held.mapValues Text.encoded) listerPath).url =
      listerPath ++ queryText [] := (List.append_nil listerPath).symm
  rw [handledBy_eq htargets plainPath_listerPath hurl
      (isSome_routedUrl_path htargets plainPath_listerPath (host_jarCall _ _)), hpath,
    if_pos hmatch]
  have hhandle : cookieLister.handle = getCookies.handle := rfl
  rw [hhandle, getCookies.handle, header_jarCall, hreads.parse held hnames, List.map_map]
  rfl

theorem join_space_cons (part : JsString) (parts : List JsString) :
    join (js ";") ((unit ' ' :: part) :: parts) = unit ' ' :: join (js ";") (part :: parts) := by
  cases parts <;> rfl

theorem join_semicolons (part : JsString) (parts : List JsString) :
    join (js "; ") (part :: parts) = join (js ";") (part :: parts.map (unit ' ' :: ·)) := by
  induction parts generalizing part with
  | nil => rfl
  | cons next parts ih =>
      rw [join_cons _ _ (List.cons_ne_nil _ _), ih, List.map_cons,
        join_cons _ _ (List.cons_ne_nil _ _), join_space_cons, List.append_assoc,
        List.append_assoc]
      rfl

theorem cookiePair_space (part : JsString) : cookiePair (unit ' ' :: part) = cookiePair part := rfl

/-- The text of a cookie that is held. -/
def heldText (e : JsString × Text) : JsString := e.1 ++ js "=" ++ e.2.encoded

theorem cookiePair_heldText {e : JsString × Text} (h : CookieName e.1) :
    cookiePair (heldText e) = some (e.1, e.2.units) := cookiePair_eq h e.2

theorem uncut_heldText {e : JsString × Text} (h : CookieName e.1) :
    unit ';' ∉ heldText e ∧ unit ';' ∉ unit ' ' :: heldText e := by
  have htext : unit ';' ∉ heldText e := by
    rw [heldText, List.mem_append, List.mem_append, not_or, not_or]
    exact ⟨⟨notMem_semicolon h, by decide⟩, e.2.notMem_encoded (by decide) (by decide)⟩
  refine ⟨htext, ?_⟩
  rw [List.mem_cons, not_or]
  exact ⟨by decide, htext⟩

theorem filterMap_cookiePair {entries : List (JsString × Text)}
    (h : ∀ e ∈ entries, CookieName e.1) :
    (entries.map fun e => unit ' ' :: heldText e).filterMap cookiePair =
      entries.map fun e => (e.1, e.2.units) := by
  induction entries with
  | nil => rfl
  | cons e entries ih =>
      obtain ⟨he, hentries⟩ := List.forall_mem_cons.mp h
      rw [List.map_cons, List.filterMap_cons_some
        ((cookiePair_space (heldText e)).trans (cookiePair_heldText he)), ih hentries]
      rfl

theorem readsCookies_plainCookies : ReadsCookies plainCookies where
  serialize name value hname := serialize_plainCookies hname value
  parse held hnames := by
    have haccepted : ∀ e ∈ held.entries, CookieName e.1 :=
      fun e he => hnames e.1 (List.mem_map_of_mem he)
    have hheader : cookieHeader (held.mapValues Text.encoded) =
        join (js "; ") (held.entries.map heldText) := by
      rw [cookieHeader, InsertionMap.entries_mapValues, List.map_map]
      rfl
    change (split (cookieHeader _) (js ";")).filterMap cookiePair = _
    rw [hheader]
    generalize held.entries = entries at haccepted
    cases entries with
    | nil => decide +kernel
    | cons e entries =>
        obtain ⟨he, hentries⟩ := List.forall_mem_cons.mp haccepted
        have huncut : ∀ part ∈ heldText e :: (entries.map heldText).map (unit ' ' :: ·),
            Uncut (js ";") part := by
          refine List.forall_mem_cons.mpr ⟨uncut_of_notMem (uncut_heldText he).1, ?_⟩
          intro part hpart
          rw [List.map_map] at hpart
          obtain ⟨e', he', rfl⟩ := List.mem_map.mp hpart
          exact uncut_of_notMem (uncut_heldText (hentries e' he')).2
        rw [List.map_cons, join_semicolons,
          split_join (js_ne_nil (by decide)) (List.cons_ne_nil _ _) huncut,
          List.filterMap_cons_some (cookiePair_heldText he), List.map_map]
        exact congrArg _ (filterMap_cookiePair hentries)

/-- A cookie that is set twice, and one that is deleted. -/
def visitsTwice : List Visit :=
  [.setQuery [(⟨js "a", rfl⟩, ⟨js "1", rfl⟩), (⟨js "b", rfl⟩, ⟨js "2", rfl⟩)],
    .setPath ⟨js "a", rfl⟩ ⟨js "3", rfl⟩, .delete [⟨js "b", rfl⟩]]

end CookieJars

end TestServer.Endpoints
