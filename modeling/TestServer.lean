import TestServer.ProcessConnection.DataCapturingStream
import TestServer.ProcessConnection.FrameCapture
import TestServer.Js.Json
import TestServer.Endpoints.TlsMerge
import TestServer.Endpoints.TlsIndex
import TestServer.Endpoints.EndpointConfig
import TestServer.Server
import TestServer.TlsHandler
import TestServer.Endpoints.AcceptedParts
import TestServer.OwnNames
import TestServer.ContextCacheKey
import TestServer.Js.Date
import TestServer.TlsCertificates.CertCache
import TestServer.TlsCertificates.LocalCA
import TestServer.TlsCertificates.SecureContextCache
import TestServer.ServedExpiry
import TestServer.TlsCertificates.Acme
import TestServer.TlsCertificates.Coalescing
import TestServer.DnsServer
import TestServer.ChallengeAnswers
import TestServer.TlsCertificates.ChallengeCleanup
import TestServer.EndpointChain
import TestServer.Endpoints.WsIndex
import TestServer.WsHandler
import TestServer.WsUpgrades
import TestServer.Endpoints.HttpIndex
import TestServer.HttpHandler
import TestServer.ErrorVerdicts
import TestServer.Http1Connection
import TestServer.EchoAnswers
import TestServer.Library.Incremental
import TestServer.ProcessConnection.ProxyProtocol
import TestServer.Js.Utf8
import TestServer.Library.Agreement
import TestServer.ProcessConnection.ConnectionProcessor
import TestServer.ProcessConnection.ProxyHeader
import TestServer.ProcessConnection.ProxyCompletion
import TestServer.ProcessConnection.AddressTexts
import TestServer.ProcessConnection.ProxyV2
import TestServer.ProcessConnection.ProxyV1
import TestServer.ProcessConnection.ProtocolSniffing
import TestServer.Endpoints.Echo
import TestServer.Http2Connection
import TestServer.CapturedStreams
import TestServer.FrameEchoes
import TestServer.FrameRelease
import TestServer.Js.Double
import TestServer.Js.JsonParse
import TestServer.Js.Coercion
import TestServer.TlsCertificates.CertStore
import TestServer.TlsCertificates.PersistedCA
import TestServer.TlsCertificates.CaFleet
import TestServer.TlsCertificates.CaConvergence
import TestServer.TlsCertificates.CaRecovery
import TestServer.TlsCertificates.LocalCACalls
import TestServer.TlsCertificates.CaLoads
import TestServer.TlsCertificates.CaFreshness
import TestServer.TlsCertificates.CaChains
import TestServer.Endpoints.TlsCerts
import TestServer.CaFailures
import TestServer.RedirectHosts
import TestServer.Routing
import TestServer.Js.UriEncode
import TestServer.Endpoints.WsParams
import TestServer.Js.Numerals
import TestServer.WsChains
import TestServer.Endpoints.OptionRecords
import TestServer.Endpoints.OptionOrder
import TestServer.TlsCertificates.CacheCoherence
import TestServer.TlsCertificates.OrderBound
import TestServer.TlsCertificates.Ocsp
import TestServer.TlsCertificates.OcspIssuers
import TestServer.OcspStatus
import TestServer.Stapling
import TestServer.Endpoints.HostParts
import TestServer.ConnectionOrigin
import TestServer.MappedOrigins
import TestServer.HostVerdicts
import TestServer.InterimResponses
import TestServer.ResponseHeads
import TestServer.TlsCertificates.SecureContextCalls
import TestServer.TlsCertificates.StoreKeys
import TestServer.CertNames
import TestServer.CertRequests
import TestServer.CertKeys
import TestServer.HostCertificates
import TestServer.Js.JsonText
import TestServer.Endpoints.HttpCalls
import TestServer.HttpbinCompat
import TestServer.Endpoints.FixedHandlers
import TestServer.Endpoints.RequestHandlers
import TestServer.Endpoints.PathHandlers
import TestServer.Endpoints.HttpHandlers
import TestServer.HttpAnswers
import TestServer.Library.Recency
import TestServer.TlsCertificates.CacheRecency
import TestServer.WrapperStacks
import TestServer.MultidictKeys
import TestServer.Library.Fallible
import TestServer.InspectedHeaders
import TestServer.Library.Keystream
import TestServer.ByteStreams
import TestServer.EtagRevalidation
import TestServer.Js.Base64
import TestServer.Js.PathSegments
import TestServer.RequestTargets
import TestServer.EncodedSegments
import TestServer.PathParameters
import TestServer.TlsCertificates.S3ChallengeStore
import TestServer.TlsCertificates.ChallengeSet
import TestServer.Js.Utf8Text
import TestServer.TlsCertificates.FilesystemCertStore
import TestServer.Library.BigEndian
import TestServer.TlsCertificates.SerialNumber
import TestServer.ChainBounds
import TestServer.Endpoints.VersionWindow
import TestServer.ConnectionSchemes
import TestServer.MultipartBoundary
import TestServer.Library.Sorting
import TestServer.TargetReports
import TestServer.ChainHops
import TestServer.ChainedRequests
import TestServer.ChainedAnswers
import TestServer.Endpoints.WsHandlers
import TestServer.WsSession
import TestServer.WsTranscripts
import TestServer.WsEchoes
import TestServer.WsWrittenSessions
import TestServer.Library.EncodedMap
import TestServer.TlsCertificates.S3CertStore
import TestServer.TlsCertificates.StoreStartup
import TestServer.TlsCertificates.CaBucket
import TestServer.ResponseShapes
import TestServer.ResponsePhases
import TestServer.Js.JsonRoundTrip
import TestServer.Js.JsonLines
import TestServer.JsonBodies
import TestServer.RedirectWalks
import TestServer.ProxiedOrigins
import TestServer.CookieJars
import TestServer.ServedLeaves
import TestServer.PostedDocuments
