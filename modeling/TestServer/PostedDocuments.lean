import TestServer.JsonBodies

/-!
# Posted documents

A JSON document that a client posts is told back as the value that it is a text of, however the
client has laid it out and written its numbers.
-/

namespace TestServer

open Js Library Endpoints JsonBodies

namespace PostedDocuments

variable {library : HttpLibrary} {req : HttpCall} {options : HandleOptions}
  {actions : List ResponseAction}

/-- The handlers that report the document of a request. -/
inductive ReportsDocument (req : HttpCall) (options : HandleOptions) : HttpHandler → Prop where
  | anything : ReportsDocument req options anything.handle
  | method (hmethod : asciiUpperCase (options.path.drop 1) = req.method)
      (hget : req.method ≠ js "GET") : ReportsDocument req options methodHandler

/-- The details of a request have its document, unless it is not asked for. -/
theorem get_json_of_details {fields : Option FieldFilter}
    (hfields : fields = none ∨ fields = some otherFields) {data : RequestDetails}
    (h : buildHttpBinAnythingData library req fields = .ok data) :
    data.json.get (js "json") = some (jsonBody req.body) := by
  rw [buildHttpBinAnythingData] at h
  split at h
  · obtain ⟨headers, -, h⟩ := bind_ok_iff.mp h
    obtain rfl | rfl := hfields
    · cases h
      cases origin req.toRequestSockets <;> rfl
    · cases h
      dsimp only
      rw [otherFields.pick_eq library rfl]
      cases origin req.toRequestSockets <;> rfl
  · cases h

/-- What such a handler sends are the details of the request, with the document. -/
theorem exists_details_of_reports {handler : HttpHandler}
    (hreports : ReportsDocument req options handler)
    (hhandle : handler library req options = .done actions) :
    ∃ data : RequestDetails, actions = respondWith 200 jsonHeaders (.details .document data) ∧
      data.json.get (js "json") = some (jsonBody req.body) := by
  have hdone {fields : Option FieldFilter}
      (hfields : fields = none ∨ fields = some otherFields)
      (h : buildHttpBinAnythingEndpoint fields library req options = .done actions) :
      ∃ data : RequestDetails, actions = respondWith 200 jsonHeaders (.details .document data) ∧
        data.json.get (js "json") = some (jsonBody req.body) := by
    rw [buildHttpBinAnythingEndpoint] at h
    cases hdata : buildHttpBinAnythingData library req fields with
    | error e =>
        rw [hdata] at h
        cases h
    | ok data =>
        rw [hdata] at h
        exact ⟨data, (Handled.mk.inj h).1.symm, get_json_of_details hfields hdata⟩
  cases hreports with
  | anything => exact hdone (.inl rfl) hhandle
  | method hmethod hget =>
      rw [methodHandler] at hhandle
      dsimp only at hhandle
      rw [hmethod, if_neg fun h => h rfl, if_neg hget] at hhandle
      exact hdone (.inr rfl) hhandle

/-- The text of a document is read from the body as its value. -/
theorem jsonBody_stringifyIn {numberText : JsNumber → JsString} {gap : JsString}
    (hgap : Spaces gap) {value : JsonValue} (hvalue : WritesNumbers numberText value) :
    jsonBody (encodeUtf8 (stringifyIn numberText gap [] value)) = asWritten value := by
  have hparse := jsonParse_stringifyIn hgap hvalue spaces_nil
  rw [List.append_nil] at hparse
  have htext := (textual_isWellFormed numberText hgap).stringifyIn hgap spaces_nil value hvalue
  rw [jsonBody, decodeUtf8_encodeUtf8 htext, hparse, Option.getD_some]

/-- A library that decodes the text of a body. -/
def decodingLibrary : HttpLibrary :=
  { ResponsePhase.zeroLibrary with utf8Decoder := fun data => some (decodeUtf8 data) }

/-- Two members, of which the second comes first in the order of an object. -/
def postedValue : JsonValue := .object [(js "b", .str (js "c")), (js "1", .str (js "d"))]

/-- The value is posted to `/post` with two spaces for each level. -/
def postedCall : HttpCall :=
  { HttpCall.get (js "/post?c=d") [(js "host", .one (js "a.b"))] with
    method := js "POST"
    body := encodeUtf8 (stringifyIn decodingLibrary.numberText (js "  ") [] postedValue) }

def postedDetails : RequestDetails :=
  [(js "url", some (.str (js "http://a.b/post?c=d"))),
    (js "args", some (.object [(js "c", .str (js "d"))])),
    (js "form", some (.object [])),
    (js "data", some (.str (decodeUtf8 postedCall.body))),
    (js "origin", none), (js "headers", some (.object [(js "Host", .str (js "a.b"))])),
    (js "files", some (.object [])), (js "json", some (jsonBody postedCall.body))]

theorem writesNumbers_postedValue : WritesNumbers decodingLibrary.numberText postedValue := by
  simp [postedValue, WritesNumbers, WritesMembers]

theorem asWritten_postedValue : asWritten postedValue =
    .object [(js "1", .str (js "d")), (js "b", .str (js "c"))] := rfl

theorem numbersWritten_postedDetails : NumbersWritten decodingLibrary
    (respondWith 200 jsonHeaders (.details .document postedDetails)) := by
  intro chunk hchunk layout value hdocument
  have hdetails : chunk = .details .document postedDetails := by
    simpa [respondWith, writeHead] using hchunk
  subst hdetails
  cases hdocument
  have hjson : jsonBody postedCall.body = asWritten postedValue :=
    jsonBody_stringifyIn spaces_indent writesNumbers_postedValue
  simp [postedDetails, RequestDetails.json, hjson, asWritten_postedValue, WritesNumbers,
    WritesMembers]

end PostedDocuments

end TestServer
