import TestServer.ConnectionSchemes
import TestServer.JsonBodies
import TestServer.MappedOrigins

/-!
# What a proxied client is told

The address in a PROXY header comes through the reads of the connection, its TLS layers and the
version of HTTP, and is what the JSON of `/ip` reports.
-/

namespace TestServer

open Js Library Endpoints ProcessConnection JsonBodies

section

variable {library : HttpLibrary} {conn : Connection} {version : HttpVersion} {req : HttpCall}
  {actions : List ResponseAction}

/-- The JSON with an origin. -/
def originObject (text : JsString) : JsonValue := .object [(js "origin", .str text)]

theorem asWritten_originObject (text : JsString) :
    asWritten (originObject text) = originObject text := by
  have horder : propertyOrder [(js "origin", JsonValue.str text)] =
      [(js "origin", JsonValue.str text)] := List.perm_singleton.mp (perm_propertyOrder _)
  simp only [originObject, asWritten, asWrittenMembers, horder]

theorem details_of_ip {text : JsString} (horigin : origin req.toRequestSockets = some text)
    {data : RequestDetails}
    (h : buildHttpBinAnythingData library req (some originField) = .ok data) :
    data.json = originObject text := by
  rw [buildHttpBinAnythingData] at h
  split at h
  · obtain ⟨headers, -, h⟩ := bind_ok_iff.mp h
    cases h
    dsimp only
    rw [originField.pick_eq library rfl]
    change RequestDetails.json [(js "origin", (origin req.toRequestSockets).map .str)] = _
    rw [horigin]
    rfl
  · cases h

/-- What the handler of `/ip` sends is read back as the origin of the request. -/
theorem jsonParse_of_ip {options : HandleOptions} {text : JsString}
    (horigin : origin req.toRequestSockets = some text)
    (h : ip.handle library req options = .done actions) :
    jsonParse (decodeUtf8 (ByteStreams.sentBytes library actions)) = some (originObject text) := by
  rw [ip.handle, buildHttpBinAnythingEndpoint] at h
  cases hdata : buildHttpBinAnythingData library req (some originField) with
  | error e =>
      rw [hdata] at h
      cases h
  | ok data =>
      rw [hdata] at h
      obtain rfl : respondWith 200 jsonHeaders (.details .document data) = actions :=
        (Handled.mk.inj h).1
      have hbody : ByteStreams.sentBytes library
          (respondWith 200 jsonHeaders (.details .document data)) =
            encodeUtf8 (JsonLayout.document.text library data.json) := List.append_nil _
      have hnumbers : WritesNumbers library.numberText (originObject text) := ⟨trivial, trivial⟩
      rw [hbody, details_of_ip horigin hdata,
        decodeUtf8_encodeUtf8 (isWellFormed_text hnumbers .document), jsonParse_text hnumbers,
        asWritten_originObject]

/-- A request on a connection has the origin that was parsed on its socket. -/
theorem origin_of_proxied {stream payload : Bytes} {told : ProxyProtocolData}
    (hparse : parseProxyProtocol stream = some ⟨some told, payload⟩)
    (hsource : told.sourceAddress ≠ []) {reads : List (Option Bytes)}
    (hreads : received reads = stream) {remoteAddress : Option JsString}
    {layers : List Connection.TlsLayer}
    (h : Connection.processInitialConnection true remoteAddress reads layers =
      some (version, conn)) :
    origin (conn.requestSockets version) = some (dropMappedPrefix told.sourceAddress) := by
  have hgiven := Connection.given_of_processInitialConnection h
  have hproxy : Connection.parsedProxy true reads = some told := by
    rw [Connection.parsedProxy, if_pos rfl, connectionSocket_of_parse hparse hreads, attachedProxy,
      Option.filter_some, if_pos (by simpa using hsource)]
  rw [origin, rawOrigin, hgiven.proxyProtocol, hproxy]
  rfl

theorem text_ne_nil {family : AddressFamily} (address : Address family) : address.text ≠ [] := by
  have hread := AddressFamily.read_text address
  intro hnil
  rw [hnil] at hread
  cases family <;> cases hread

/-- A client whose address comes in a header of version 2 is told this address: however the bytes
are cut into reads, whatever TLS layers there are and whatever the version of HTTP is, the text in
the JSON is read as the same bytes. -/
theorem ip_of_v2Header (header : V2Header)
    (hmapped : startsWith header.source.text (js "::ffff:") = false) {payload : Bytes}
    {reads : List (Option Bytes)} (hreads : received reads = header.encode ++ payload)
    {remoteAddress : Option JsString} {layers : List Connection.TlsLayer}
    (h : Connection.processInitialConnection true remoteAddress reads layers =
      some (version, conn)) (hreq : RequestOn conn version req) {options : HandleOptions}
    (hhandle : ip.handle library req options = .done actions) :
    ∃ text, jsonParse (decodeUtf8 (ByteStreams.sentBytes library actions)) =
        some (originObject text) ∧
      header.family.read text = some header.source.val := by
  have horigin := origin_of_proxied (header.parse_eq payload) (text_ne_nil header.source) hreads h
  rw [dropMappedPrefix, if_neg (Bool.not_eq_true _ ▸ hmapped), ← hreq.sockets] at horigin
  exact ⟨_, jsonParse_of_ip horigin hhandle, AddressFamily.read_text header.source⟩

end

/-- The header of a client at `1.2.3.4`. -/
def plainHeader : V2Header where
  family := .inet
  source := ⟨[1, 2, 3, 4], rfl⟩
  destination := ⟨[5, 6, 7, 8], rfl⟩
  sourcePort := 80
  destinationPort := 443
  extensions := []
  fits := by decide

/-- The header is cut in two before a TLS layer. -/
def headerReads : List (Option Bytes) :=
  [some (plainHeader.encode.take 9), none, some (plainHeader.encode.drop 9 ++ [tlsHandshakeByte])]

theorem exists_run_headerReads : ∃ conn,
    Connection.processInitialConnection true none headerReads [⟨none, Connection.getReads⟩] =
      some (.http1, conn) := by
  have hheader : parseProxyProtocolHeader [] headerReads =
      .processing (some ⟨js "1.2.3.4", 80, js "5.6.7.8", 443⟩) [tlsHandshakeByte] [] := by
    decide +kernel
  have htls : processProtocolData [tlsHandshakeByte] [] = some (.tls, [tlsHandshakeByte]) := by
    decide +kernel
  simp only [Connection.processInitialConnection, if_true, hheader, htls, Option.bind_some,
    Connection.dispatch_getReads, Option.some.injEq, Prod.mk.injEq, true_and, exists_eq']

/-- The header and the handshake in two reads. -/
theorem ip_of_v2Header_cut : ∃ conn actions text,
    Connection.processInitialConnection true none headerReads [⟨none, Connection.getReads⟩] =
      some (.http1, conn) ∧
    ip.handle ResponsePhase.zeroLibrary (requestOn conn .http1 (js "/ip")) ⟨js "/ip", []⟩ =
      .done actions ∧
    jsonParse (decodeUtf8 (ByteStreams.sentBytes ResponsePhase.zeroLibrary actions)) =
      some (originObject text) ∧
    readIPv4 text = some [1, 2, 3, 4] := by
  obtain ⟨conn, hrun⟩ := exists_run_headerReads
  have hhandle : ip.handle ResponsePhase.zeroLibrary (requestOn conn .http1 (js "/ip"))
      ⟨js "/ip", []⟩ = .done _ := rfl
  have hreads : received headerReads = plainHeader.encode ++ [tlsHandshakeByte] := by decide
  obtain ⟨text, htext, hread⟩ := ip_of_v2Header plainHeader (by decide) hreads hrun
    (requestOn_spec conn .http1 (js "/ip")) hhandle
  exact ⟨conn, _, text, hrun, hhandle, htext, hread⟩

end TestServer
