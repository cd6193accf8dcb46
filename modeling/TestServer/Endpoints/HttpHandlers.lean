import TestServer.Endpoints.PathHandlers

/-!
# HTTP endpoints with their handlers

The table of `src/endpoints/http-index.ts` in the order of the names of its exports.
-/

namespace TestServer.Endpoints

open Js

structure HandledEndpoint extends HttpEndpoint where
  handle : HttpHandler

def handledEndpoints : List HandledEndpoint :=
  [⟨absoluteRedirectN, absoluteRedirectN.handle⟩, ⟨anything, anything.handle⟩,
    ⟨base64Decode, base64Decode.handle⟩, ⟨basicAuth, basicAuth.handle⟩,
    ⟨bearer, bearer.handle⟩, ⟨brotli, brotli.handle⟩, ⟨bytesEndpoint, bytesEndpoint.handle⟩,
    ⟨cache, cache.handle⟩, ⟨cacheWithAge, cacheWithAge.handle⟩,
    ⟨closeEndpoint, closeEndpoint.handle⟩, ⟨deflate, deflate.handle⟩,
    ⟨delayEndpoint, delayEndpoint.handle⟩, ⟨deleteCookies, deleteCookies.handle⟩,
    ⟨deny, deny.handle⟩, ⟨echo, echo.handle⟩, ⟨etag, etag.handle⟩,
    ⟨examplePage, examplePage.handle⟩, ⟨getCookies, getCookies.handle⟩,
    ⟨getMethodEndpoint, methodHandler⟩, ⟨gzip, gzip.handle⟩, ⟨headers, headers.handle⟩,
    ⟨hiddenBasicAuth, hiddenBasicAuth.handle⟩, ⟨html, html.handle⟩,
    ⟨identity, identity.handle⟩, ⟨informational, informational.handle⟩, ⟨ip, ip.handle⟩,
    ⟨json, json.handle⟩, ⟨nonGetMethodEndpoint, methodHandler⟩, ⟨redirectN, redirectN.handle⟩,
    ⟨redirectTo, redirectTo.handle⟩, ⟨relativeRedirectN, relativeRedirectN.handle⟩,
    ⟨resetEndpoint, resetEndpoint.handle⟩, ⟨responseHeaders, responseHeaders.handle⟩,
    ⟨robotsTxt, robotsTxt.handle⟩, ⟨setCookies, setCookies.handle⟩, ⟨status, status.handle⟩,
    ⟨streamBytesEndpoint, streamBytesEndpoint.handle⟩,
    ⟨streamEndpoint, streamEndpoint.handle⟩, ⟨tlsCertificates, tlsCertificates.handle⟩,
    ⟨tlsClientHello, tlsClientHello.handle⟩, ⟨tlsFingerprint, tlsFingerprint.handle⟩,
    ⟨trailers, trailers.handle⟩, ⟨userAgent, userAgent.handle⟩,
    ⟨utf8Encoding, utf8Encoding.handle⟩, ⟨uuid, uuid.handle⟩,
    ⟨versionJson, versionJson.handle⟩, ⟨xml, xml.handle⟩, ⟨zstd, zstd.handle⟩]

/-- Without their handlers they are the endpoints that paths are matched by. -/
theorem map_handledEndpoints :
    handledEndpoints.map HandledEndpoint.toHttpEndpoint = httpEndpoints := rfl

/-- The counts in the paths are read by the rules that the paths are matched with. -/
theorem countEndpoints_rules :
    bytesEndpoint = countEndpoint (js "bytesEndpoint") (bytesRule (js "/bytes/")) ∧
      streamBytesEndpoint =
        countEndpoint (js "streamBytesEndpoint") (bytesRule (js "/stream-bytes/")) ∧
      streamEndpoint = countEndpoint (js "streamEndpoint") streamRule :=
  ⟨rfl, rfl, rfl⟩

end TestServer.Endpoints
