import TestServer.Js.JsonLines
import TestServer.ResponsePhases

/-!
# JSON bodies

Every complete response whose head declares JSON has a body that is read back as what its handler
reports: as one value, or as one value for each line.
-/

namespace TestServer

open Js Library Library.Runs Endpoints

namespace JsonBodies

variable {library : HttpLibrary} {actions : List ResponseAction}

/-- The numbers in the values of a body are written as numerals for them. -/
def NumbersWritten (library : HttpLibrary) (actions : List ResponseAction) : Prop :=
  ∀ chunk, .write chunk ∈ actions → ∀ layout value, chunk.document = some (layout, value) →
    WritesNumbers library.numberText value

/-- A body is read back as the value that some piece of it reports. -/
def ReadsBackOne (library : HttpLibrary) (actions : List ResponseAction) : Prop :=
  ∃ chunk layout value, .write chunk ∈ actions ∧ chunk.document = some (layout, value) ∧
    jsonParse (decodeUtf8 (ByteStreams.sentBytes library actions)) = some (asWritten value)

/-- The lines of a body are read back as the values that its pieces report. -/
def ReadsBackLines (library : HttpLibrary) (actions : List ResponseAction) : Prop :=
  ∃ (chunks : List Chunk) (lines : List JsString) (values : List JsonValue),
    (∀ chunk ∈ chunks, .write chunk ∈ actions) ∧
    chunks.map Chunk.document = values.map (fun value => some (.line, value)) ∧
    split (decodeUtf8 (ByteStreams.sentBytes library actions)) (js "\n") = lines ++ [[]] ∧
    lines.map jsonParse = values.map fun value => some (asWritten value)

theorem spaces_indent : Spaces (js "  ") := by decide

/-- Whatever the layout, a text is read back as its value. -/
theorem jsonParse_text {value : JsonValue} (h : WritesNumbers library.numberText value)
    (layout : JsonLayout) : jsonParse (layout.text library value) = some (asWritten value) := by
  cases layout with
  | compact =>
      have hread := jsonParse_stringifyIn spaces_nil h spaces_nil
      rw [List.append_nil] at hread
      exact hread
  | line => exact jsonParse_stringifyIn spaces_nil h (by decide)
  | indented =>
      have hread := jsonParse_stringifyIn spaces_indent h spaces_nil
      rw [List.append_nil] at hread
      exact hread
  | document => exact jsonParse_stringifyIn spaces_indent h (by decide)

theorem isWellFormed_text {value : JsonValue} (h : WritesNumbers library.numberText value)
    (layout : JsonLayout) : isWellFormed (layout.text library value) = true := by
  have hcompact : isWellFormed (stringify library.numberText value) = true :=
    (textual_isWellFormed _ spaces_nil).stringifyIn spaces_nil spaces_nil value h
  have hindented : isWellFormed (stringifyIndented library.numberText value) = true :=
    (textual_isWellFormed _ spaces_indent).stringifyIn spaces_indent spaces_nil value h
  cases layout with
  | compact => exact hcompact
  | line => exact isWellFormed_append hcompact (by decide)
  | indented => exact hindented
  | document => exact isWellFormed_append hindented (by decide)

/-- Lines that were sent are split again. -/
theorem split_lines {lines : List JsString} (h : ∀ line ∈ lines, 10 ∉ line) :
    split (lines.flatMap (· ++ js "\n")) (js "\n") = lines ++ [[]] := by
  induction lines with
  | nil => rfl
  | cons line lines ih =>
      obtain ⟨hline, hlines⟩ := List.forall_mem_cons.mp h
      rw [List.flatMap_cons, List.append_assoc, List.cons_append, ← ih hlines]
      exact split_append_cons hline (lines.flatMap (· ++ js "\n"))

/-- The pieces of a body are decoded one after the other. -/
theorem decodeUtf8_flatMap {texts : List JsString}
    (h : ∀ text ∈ texts, isWellFormed text = true) :
    decodeUtf8 (texts.flatMap encodeUtf8) = texts.flatMap id := by
  induction texts with
  | nil => rfl
  | cons text texts ih =>
      obtain ⟨htext, htexts⟩ := List.forall_mem_cons.mp h
      rw [List.flatMap_cons, decodeUtf8_encodeUtf8_append htext, ih htexts, List.flatMap_cons]
      rfl

theorem sentBytes_actions {r : HttpResponse} (h : r.Proper library) :
    ByteStreams.sentBytes library r.actions = r.body library := by
  have hbefore : ByteStreams.sentBytes library r.before = [] := by
    rw [ByteStreams.sentBytes, List.flatMap_eq_nil_iff]
    intro action haction
    have hpreliminary := h.before action haction
    cases action with
    | setHeader name value => rfl
    | informational code headers => rfl
    | _ => cases hpreliminary
  have htrailers : ByteStreams.sentBytes library (r.trailers.map .addTrailers) = [] := by
    rw [ByteStreams.sentBytes, List.flatMap_map]
    exact List.flatMap_eq_nil_iff.mpr fun _ _ => rfl
  have hchunks : ByteStreams.sentBytes library (r.chunks.map .write) = r.body library := by
    rw [ByteStreams.sentBytes, List.flatMap_map]
    rfl
  have happend (first next : List ResponseAction) : ByteStreams.sentBytes library (first ++ next) =
      ByteStreams.sentBytes library first ++ ByteStreams.sentBytes library next :=
    List.flatMap_append
  rw [HttpResponse.actions, happend, hbefore, ← List.singleton_append, happend, happend, happend,
    htrailers, hchunks]
  exact List.append_nil _

theorem write_mem_actions {r : HttpResponse} {chunk : Chunk} (h : chunk ∈ r.chunks) :
    ResponseAction.write chunk ∈ r.actions := by
  simp [HttpResponse.actions, h]

theorem readsBackOne {r : HttpResponse} (h : r.Proper library)
    (hnumbers : NumbersWritten library r.actions) {chunk : Chunk} (hchunk : r.chunks = [chunk])
    (hdocument : chunk.document.isSome = true) : ReadsBackOne library r.actions := by
  obtain ⟨⟨layout, value⟩, hdocument⟩ := Option.isSome_iff_exists.mp hdocument
  have hmem : ResponseAction.write chunk ∈ r.actions :=
    write_mem_actions (hchunk ▸ List.mem_singleton_self chunk)
  have hvalue := hnumbers chunk hmem layout value hdocument
  refine ⟨chunk, layout, value, hmem, hdocument, ?_⟩
  rw [sentBytes_actions h, HttpResponse.body, hchunk, List.flatMap_singleton,
    encode_of_document hdocument, decodeUtf8_encodeUtf8 (isWellFormed_text hvalue layout),
    jsonParse_text hvalue]

theorem exists_values {chunks : List Chunk}
    (h : ∀ chunk ∈ chunks, ∃ value, chunk.document = some (.line, value)) :
    ∃ values : List JsonValue,
      chunks.map Chunk.document = values.map fun value => some (.line, value) := by
  induction chunks with
  | nil => exact ⟨[], rfl⟩
  | cons chunk chunks ih =>
      obtain ⟨⟨value, hvalue⟩, hchunks⟩ := List.forall_mem_cons.mp h
      obtain ⟨values, hvalues⟩ := ih hchunks
      exact ⟨value :: values, congrArg₂ List.cons hvalue hvalues⟩

theorem flatMap_encode {chunks : List Chunk} {values : List JsonValue}
    (h : chunks.map Chunk.document = values.map fun value => some (.line, value)) :
    chunks.flatMap (Chunk.encode library) =
      (values.map (JsonLayout.line.text library)).flatMap encodeUtf8 := by
  induction chunks generalizing values with
  | nil =>
      rw [List.map_nil, eq_comm, List.map_eq_nil_iff] at h
      rw [h]
      rfl
  | cons chunk chunks ih =>
      cases values with
      | nil => cases h
      | cons value values =>
          obtain ⟨hchunk, hchunks⟩ := List.cons.inj h
          rw [List.flatMap_cons, ih hchunks, encode_of_document hchunk]
          rfl

theorem writesNumbers_of_documents {r : HttpResponse} (hnumbers : NumbersWritten library r.actions)
    {values : List JsonValue}
    (hvalues : r.chunks.map Chunk.document = values.map fun value => some (.line, value)) :
    ∀ value ∈ values, WritesNumbers library.numberText value := by
  intro value hvalue
  have hmem : some (JsonLayout.line, value) ∈ r.chunks.map Chunk.document := by
    rw [hvalues]
    exact List.mem_map_of_mem hvalue
  obtain ⟨chunk, hchunk, hdocument⟩ := List.mem_map.mp hmem
  exact hnumbers chunk (write_mem_actions hchunk) _ _ hdocument

/-- The lines of a body are the texts of the values that its pieces report. -/
theorem split_sentBytes {r : HttpResponse} (h : r.Proper library) {values : List JsonValue}
    (hvalues : r.chunks.map Chunk.document = values.map fun value => some (.line, value))
    (hwritten : ∀ value ∈ values, WritesNumbers library.numberText value) :
    split (decodeUtf8 (ByteStreams.sentBytes library r.actions)) (js "\n") =
      values.map (stringify library.numberText) ++ [[]] := by
  have hline : ∀ line ∈ values.map (stringify library.numberText), 10 ∉ line := by
    intro line hline
    obtain ⟨value, hvalue, rfl⟩ := List.mem_map.mp hline
    exact (textual_line _).stringifyIn spaces_nil spaces_nil value (hwritten value hvalue)
  have hdecode : decodeUtf8 (r.body library) =
      (values.map (stringify library.numberText)).flatMap (· ++ js "\n") := by
    rw [HttpResponse.body, flatMap_encode hvalues, decodeUtf8_flatMap]
    · rw [List.flatMap_map, List.flatMap_map]
      rfl
    · intro text htext
      obtain ⟨value, hvalue, rfl⟩ := List.mem_map.mp htext
      exact isWellFormed_text (hwritten value hvalue) .line
  rw [sentBytes_actions h, hdecode, split_lines hline]

theorem readsBackLines {r : HttpResponse} (h : r.Proper library)
    (hnumbers : NumbersWritten library r.actions)
    (hlines : ∀ chunk ∈ r.chunks, ∃ value, chunk.document = some (.line, value)) :
    ReadsBackLines library r.actions := by
  obtain ⟨values, hvalues⟩ := exists_values hlines
  have hwritten := writesNumbers_of_documents hnumbers hvalues
  refine ⟨r.chunks, values.map (stringify library.numberText), values, fun _ => write_mem_actions,
    hvalues, split_sentBytes h hvalues hwritten, ?_⟩
  rw [List.map_map]
  exact List.map_congr_left fun value hvalue => jsonParse_text (hwritten value hvalue) .compact

open ResponsePhase ChainedAnswers

/-- What is done for a slideshow after an interim response. -/
def slideshowActions : List ResponseAction :=
  [.informational (some 103) [], .writeHead (some (.finite 200)) [jsonType],
    .write (.json .document slideshow), .finish]

theorem numbersWritten_slideshowActions : NumbersWritten zeroLibrary slideshowActions := by
  intro chunk hchunk layout value hdocument
  have hslideshow : chunk = .json .document slideshow := by
    simpa [slideshowActions] using hchunk
  subst hslideshow
  cases hdocument
  rw [slideshow]
  simp [WritesNumbers, WritesMembers, WritesElements]

/-- A line is read back as the details of a request with an id before them. -/
def IsStreamed (details : JsonValue) (id : Nat) (line : JsString) : Prop :=
  ∃ value, jsonParse line = some value ∧ value.get (js "id") = some (.num (.finite id)) ∧
    ∀ name ≠ js "id", value.get name = (details.get name).map asWritten

/-- What a member before others is read as. -/
theorem get_object_cons (member : JsString × JsonValue) (members : List (JsString × JsonValue))
    (name : JsString) : (JsonValue.object (member :: members)).get name =
      ((JsonValue.object members).get name).or
        (if member.1 = name then some member.2 else none) := by
  rw [JsonValue.get, JsonValue.get, List.reverse_cons, List.find?_append, List.find?_singleton,
    Option.map_or]
  by_cases hname : member.1 = name
  · rw [if_pos (decide_eq_true hname), if_pos hname]
    rfl
  · rw [if_neg (by simpa using hname), if_neg hname]
    rfl

/-- A field that was not asked for is not reported. -/
theorem get_restrict {details : RequestDetails} {fields : List JsString} {name : JsString}
    (h : name ∉ fields) : (details.restrict fields).json.get name = none := by
  rw [RequestDetails.json, JsonValue.get, Option.map_eq_none_iff, List.find?_eq_none]
  intro member hmember
  rw [List.mem_reverse, List.mem_filterMap] at hmember
  obtain ⟨field, hfield, hmember⟩ := hmember
  obtain ⟨value, -, rfl⟩ := Option.map_eq_some_iff.mp hmember
  rw [RequestDetails.restrict, List.mem_filterMap] at hfield
  obtain ⟨picked, hpicked, hfield⟩ := hfield
  have hname := List.find?_some hfield
  rw [decide_eq_true_eq] at hname
  rw [decide_eq_true_eq]
  rintro rfl
  exact h (hname ▸ hpicked)

theorem get_details {req : HttpCall} {data : RequestDetails}
    (h : buildHttpBinAnythingData library req (some getFields) = .ok data) :
    data.json.get (js "id") = none := by
  rw [buildHttpBinAnythingData] at h
  split at h
  · obtain ⟨headers, -, h⟩ := bind_ok_iff.mp h
    cases h
    dsimp only
    rw [getFields.pick_eq library rfl]
    exact get_restrict (by decide)
  · cases h

/-- The value of a line. -/
def lineValue (data : RequestDetails) (id : Nat) : JsonValue :=
  RequestDetails.json ((js "id", some (.num (.finite id))) :: data)

/-- The id of a line comes before the details. -/
theorem get_lineValue (data : RequestDetails) (id : Nat) (name : JsString) :
    (lineValue data id).get name =
      (data.json.get name).or (if js "id" = name then some (.num (.finite id)) else none) :=
  get_object_cons (js "id", .num (.finite id)) _ name

theorem isStreamed_lineValue {data : RequestDetails} (hid : data.json.get (js "id") = none)
    {id : Nat} (h : WritesNumbers library.numberText (lineValue data id)) :
    IsStreamed data.json id (stringify library.numberText (lineValue data id)) := by
  refine ⟨asWritten (lineValue data id), jsonParse_text h .compact, ?_, ?_⟩
  · rw [get_asWritten, get_lineValue, hid, if_pos rfl]
    rfl
  · intro name hname
    rw [get_asWritten, get_lineValue, if_neg (Ne.symm hname), Option.or_none]

/-- The response that is streamed. -/
def streamResponse (data : RequestDetails) (n : Nat) : HttpResponse :=
  ⟨[], some (.finite 200), [jsonType], [],
    (List.range n).map fun id : Nat =>
      .details .line ((js "id", some (.num (.finite id))) :: data)⟩

theorem document_streamResponse (data : RequestDetails) (n : Nat) :
    (streamResponse data n).chunks.map Chunk.document =
      ((List.range n).map (lineValue data)).map fun value => some (.line, value) := by
  rw [streamResponse, List.map_map, List.map_map]
  rfl

theorem proper_streamResponse (data : RequestDetails) (n : Nat) :
    (streamResponse data n).Proper library := by
  refine ⟨List.forall_mem_nil _, ?_, fun _ => .inr ?_⟩
  · intro text htext
    cases htext
  · intro chunk hchunk
    obtain ⟨id, -, rfl⟩ := List.mem_map.mp hchunk
    exact ⟨lineValue data id, rfl⟩

/-- A stream has as many lines as its path says, and each line is read back as the details of the
request with its number as the id. -/
theorem isStreamed_of_handle {req : HttpCall} {options : HandleOptions}
    (h : streamEndpoint.handle library req options = .done actions)
    (hnumbers : NumbersWritten library actions) :
    ∃ n data, parseCount streamRule (targetPath req.url) = .ok n ∧
      buildHttpBinAnythingData library req (some getFields) = .ok data ∧
      ∃ lines : List JsString, lines.length = n.toNat ∧
        split (decodeUtf8 (ByteStreams.sentBytes library actions)) (js "\n") = lines ++ [[]] ∧
        ∀ id line, lines[id]? = some line → IsStreamed data.json id line := by
  rw [streamEndpoint.handle] at h
  cases hcount : parseCount streamRule (targetPath req.url) with
  | error e =>
      rw [hcount] at h
      cases h
  | ok n =>
      cases hdata : buildHttpBinAnythingData library req (some getFields) with
      | error e =>
          rw [hcount, hdata] at h
          cases h
      | ok data =>
          rw [hcount, hdata] at h
          obtain rfl : (streamResponse data n.toNat).actions = actions := by
            rw [HttpResponse.actions, streamResponse, List.map_map]
            exact (Handled.mk.inj h).1
          have hvalues := document_streamResponse data n.toNat
          have hwritten := writesNumbers_of_documents hnumbers hvalues
          refine ⟨n, data, rfl, rfl, _, ?_,
            split_sentBytes (proper_streamResponse data n.toNat) hvalues hwritten, ?_⟩
          · rw [List.length_map, List.length_map, List.length_range]
          · intro id line hline
            rw [List.map_map, List.getElem?_map, Option.map_eq_some_iff] at hline
            obtain ⟨id', hid, rfl⟩ := hline
            obtain ⟨hlt, rfl⟩ := List.getElem?_eq_some_iff.mp hid
            rw [List.getElem_range]
            exact isStreamed_lineValue (get_details hdata)
              (hwritten _ (List.mem_map_of_mem (List.mem_range.mpr (by simpa using hlt))))

/-- The details of a request with a query. -/
def streamedDetails : RequestDetails :=
  [(js "url", some (.str (js "http://a.b/stream/2?c=d"))),
    (js "args", some (.object [(js "c", .str (js "d"))])),
    (js "headers", some (.object [(js "Host", .str (js "a.b"))])), (js "origin", none)]

def streamedCall : HttpCall := .get (js "/stream/2?c=d") [(js "host", .one (js "a.b"))]

theorem writesNumbers_streamedDetails {id : Nat}
    (h : WritesNumber zeroLibrary.numberText id) :
    WritesNumbers zeroLibrary.numberText (lineValue streamedDetails id) := by
  simpa [lineValue, RequestDetails.json, streamedDetails, WritesNumbers, WritesMembers] using h

theorem numbersWritten_streamedDetails :
    NumbersWritten zeroLibrary (streamResponse streamedDetails 2).actions := by
  intro chunk hchunk layout value hdocument
  have hlines : chunk = .details .line ((js "id", some (.num (.finite (0 : Nat)))) ::
        streamedDetails) ∨
      chunk = .details .line ((js "id", some (.num (.finite (1 : Nat)))) :: streamedDetails) := by
    simpa [streamResponse, HttpResponse.actions, List.range_succ] using hchunk
  obtain rfl | rfl := hlines
  · cases hdocument
    exact writesNumbers_streamedDetails (by rw [WritesNumber]; decide +kernel)
  · cases hdocument
    exact writesNumbers_streamedDetails (by rw [WritesNumber]; decide +kernel)

/-- Two lines about a request with a query. -/
theorem isStreamed_of_handle_two :
    streamEndpoint.handle zeroLibrary streamedCall ⟨[], []⟩ =
      .done (streamResponse streamedDetails 2).actions ∧
    ∃ n data, parseCount streamRule (targetPath streamedCall.url) = .ok n ∧
      buildHttpBinAnythingData zeroLibrary streamedCall (some getFields) = .ok data ∧
      ∃ lines : List JsString, lines.length = n.toNat ∧
        split (decodeUtf8 (ByteStreams.sentBytes zeroLibrary
          (streamResponse streamedDetails 2).actions)) (js "\n") = lines ++ [[]] ∧
        ∀ id line, lines[id]? = some line → IsStreamed data.json id line :=
  ⟨rfl, @isStreamed_of_handle zeroLibrary _ streamedCall ⟨[], []⟩ rfl
    numbersWritten_streamedDetails⟩

end JsonBodies

end TestServer
