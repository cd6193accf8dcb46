import TestServer.HttpbinCompat

/-!
# Handlers with a fixed response

The handlers of the endpoints in `src/endpoints/http` whose response is the same for every
request, or depends on the libraries alone.
-/

namespace TestServer.Endpoints

open Js

def contentType (value : JsString) : JsString × HeaderValue := (js "content-type", .one value)

def jsonType : JsString × HeaderValue := contentType (js "application/json")

def htmlType : JsString × HeaderValue := contentType (js "text/html; charset=utf-8")

def plainType : JsString × HeaderValue := contentType (js "text/plain")

/-- A handler that responds with one body. -/
def fixedHandler (headers : HeaderList) (chunk : HttpLibrary → Chunk) : HttpHandler :=
  fun library _ _ => .done (respondWith 200 headers (chunk library))

def denyText : JsString :=
  js "\n          .-''''''-.\n        .' _      _ '.\n       /   O      O   \\\n" ++
  js "      :                :\n      |                |\n      :       __       :\n" ++
  js "       \\  .-\"`  `\"-.  /\n        '.          .'\n          '-......-'\n" ++
  js "     YOU SHOULDN'T BE HERE\n"

def deny.handle : HttpHandler := fixedHandler [plainType] fun _ => .text denyText

/-- `HTML_CONTENT` -/
def htmlContent : JsString :=
  js "<!DOCTYPE html>\n<html>\n  <head>\n  </head>\n  <body>\n" ++
  js "      <h1>Herman Melville - Moby-Dick</h1>\n\n      <div>\n        <p>\n" ++
  js "          Availing himself of the mild, summer-cool weather that now reigned in " ++
  js "these latitudes, and in preparation for the peculiarly active pursuits shortly to " ++
  js "be anticipated, Perth, the begrimed, blistered old blacksmith, had not removed his " ++
  js "portable forge to the hold again, after concluding his contributory work for Ahab's " ++
  js "leg, but still retained it on deck, fast lashed to ringbolts by the foremast; being " ++
  js "now almost incessantly invoked by the headsmen, and harpooneers, and bowsmen to do " ++
  js "some little job for them; altering, or repairing, or new shaping their various " ++
  js "weapons and boat furniture. Often he would be surrounded by an eager circle, all " ++
  js "waiting to be served; holding boat-spades, pike-heads, harpoons, and lances, and " ++
  js "jealously watching his every sooty movement, as he toiled. Nevertheless, this old " ++
  js "man's was a patient hammer wielded by a patient arm. No murmur, no impatience, no " ++
  js "petulance did come from him. Silent, slow, and solemn; bowing over still further " ++
  js "his chronically broken back, he toiled away, as if toil were life itself, and the " ++
  js "heavy beating of his hammer the heavy beating of his heart. And so it was.\u2014Most " ++
  js "miserable! A peculiar walk in this old man, a certain slight but painful appearing " ++
  js "yawing in his gait, had at an early period of the voyage excited the curiosity of " ++
  js "the mariners. And to the importunity of their persisted questionings he had finally " ++
  js "given in; and so it came to pass that every one now knew the shameful story of his " ++
  js "wretched fate. Belated, and not innocently, one bitter winter's midnight, on the " ++
  js "road running between two country towns, the blacksmith half-stupidly felt the " ++
  js "deadly numbness stealing over him, and sought refuge in a leaning, dilapidated " ++
  js "barn. The issue was, the loss of the extremities of both feet. Out of this " ++
  js "revelation, part by part, at last came out the four acts of the gladness, and the " ++
  js "one long, and as yet uncatastrophied fifth act of the grief of his life's drama. He " ++
  js "was an old man, who, at the age of nearly sixty, had postponedly encountered that " ++
  js "thing in sorrow's technicals called ruin. He had been an artisan of famed " ++
  js "excellence, and with plenty to do; owned a house and garden; embraced a youthful, " ++
  js "daughter-like, loving wife, and three blithe, ruddy children; every Sunday went to " ++
  js "a cheerful-looking church, planted in a grove. But one night, under cover of " ++
  js "darkness, and further concealed in a most cunning disguisement, a desperate burglar " ++
  js "slid into his happy home, and robbed them all of everything. And darker yet to " ++
  js "tell, the blacksmith himself did ignorantly conduct this burglar into his family's " ++
  js "heart. It was the Bottle Conjuror! Upon the opening of that fatal cork, forth flew " ++
  js "the fiend, and shrivelled up his home. Now, for prudent, most wise, and economic " ++
  js "reasons, the blacksmith's shop was in the basement of his dwelling, but with a " ++
  js "separate entrance to it; so that always had the young and loving healthy wife " ++
  js "listened with no unhappy nervousness, but with vigorous pleasure, to the stout " ++
  js "ringing of her young-armed old husband's hammer; whose reverberations, muffled by " ++
  js "passing through the floors and walls, came up to her, not unsweetly, in her " ++
  js "nursery; and so, to stout Labor's iron lullaby, the blacksmith's infants were " ++
  js "rocked to slumber. Oh, woe on woe! Oh, Death, why canst thou not sometimes be " ++
  js "timely? Hadst thou taken this old blacksmith to thyself ere his full ruin came upon " ++
  js "him, then had the young widow had a delicious grief, and her orphans a truly " ++
  js "venerable, legendary sire to dream of in their after years; and all of them a " ++
  js "care-killing competency.\n        </p>\n      </div>\n  </body>\n</html>"

def html.handle : HttpHandler := fixedHandler [htmlType] fun _ => .text htmlContent

def xmlDocument : JsString :=
  js "<?xml version='1.0' encoding='us-ascii'?>\n\n<!--  A SAMPLE set of slides  -->\n\n" ++
  js "<slideshow \n    title=\"Sample Slide Show\"\n    date=\"Date of publication\"\n" ++
  js "    author=\"Yours Truly\"\n    >\n\n    <!-- TITLE SLIDE -->\n" ++
  js "    <slide type=\"all\">\n      <title>Wake up to WonderWidgets!</title>\n" ++
  js "    </slide>\n\n    <!-- OVERVIEW -->\n    <slide type=\"all\">\n" ++
  js "        <title>Overview</title>\n" ++
  js "        <item>Why <em>WonderWidgets</em> are great</item>\n        <item/>\n" ++
  js "        <item>Who <em>buys</em> WonderWidgets</item>\n    </slide>\n\n</slideshow>"

def xml.handle : HttpHandler :=
  fixedHandler [contentType (js "application/xml")] fun _ => .text xmlDocument

def slideshow : JsonValue :=
  .object [(js "slideshow", .object
    [(js "author", .str (js "Yours Truly")),
      (js "date", .str (js "date of publication")),
      (js "slides", .array
        [.object [(js "title", .str (js "Wake up to WonderWidgets!")),
            (js "type", .str (js "all"))],
          .object [(js "items", .array
              [.str (js "Why <em>WonderWidgets</em> are great"),
                .str (js "Who <em>buys</em> WonderWidgets")]),
            (js "title", .str (js "Overview")),
            (js "type", .str (js "all"))]]),
      (js "title", .str (js "Sample Slide Show"))])]

def json.handle : HttpHandler := fixedHandler [jsonType] fun _ => .json .document slideshow

def robotsTxt.handle : HttpHandler :=
  fixedHandler [plainType] fun _ => .text (js "User-agent: *\nAllow: /$\nDisallow: /\n")

def examplePageHtml : JsString :=
  js "<!doctype html>\n<html>\n<head>\n    <title>Example Domain</title>\n\n" ++
  js "    <meta charset=\"utf-8\" />\n" ++
  js "    <meta http-equiv=\"Content-type\" content=\"text/html; charset=utf-8\" />\n" ++
  js "    <meta name=\"viewport\" content=\"width=device-width, initial-scale=1\" />\n" ++
  js "    <style type=\"text/css\">\n    body \x7b\n        background-color: #f0f0f2;\n" ++
  js "        margin: 0;\n        padding: 0;\n" ++
  js "        font-family: -apple-system, system-ui, BlinkMacSystemFont, \"Segoe UI\", " ++
  js "\"Open Sans\", \"Helvetica Neue\", Helvetica, Arial, sans-serif;\n        \n" ++
  js "    \x7d\n    div \x7b\n        width: 600px;\n        margin: 5em auto;\n" ++
  js "        padding: 2em;\n        background-color: #fdfdff;\n" ++
  js "        border-radius: 0.5em;\n" ++
  js "        box-shadow: 2px 3px 7px 2px rgba(0,0,0,0.02);\n    \x7d\n" ++
  js "    a:link, a:visited \x7b\n        color: #38488f;\n" ++
  js "        text-decoration: none;\n    \x7d\n    @media (max-width: 700px) \x7b\n" ++
  js "        div \x7b\n            margin: 0 auto;\n            width: auto;\n" ++
  js "        \x7d\n    \x7d\n    </style>\n</head>\n\n<body>\n<div>\n" ++
  js "    <h1>Example Domain</h1>\n" ++
  js "    <p>This domain is for use in illustrative examples in documents. You may use " ++
  js "this\n" ++
  js "    domain in literature without prior coordination or asking for permission.</p>\n" ++
  js "    <p><a href=\"https://www.iana.org/domains/example\">More information...</a></p>\n" ++
  js "</div>\n</body>\n</html>\n"

def examplePage.handle : HttpHandler :=
  fixedHandler [contentType (js "text/html")] fun _ => .text examplePageHtml

def utf8Encoding.handle : HttpHandler :=
  fixedHandler [htmlType] fun library => .text library.utf8Html

/-- An object with one field that is true. -/
def flagObject (name : JsString) : JsonValue := .object [(name, .bool true)]

/-- An endpoint that sends such an object in some encoding. -/
def encodingHandler (encoding name : JsString)
    (compress : HttpLibrary → List UInt8 → List UInt8) : HttpHandler :=
  fixedHandler [jsonType, (js "content-encoding", .one encoding)] fun library =>
    .bytes (compress library (encodeUtf8 (serializeJson library (flagObject name))))

def brotli.handle : HttpHandler :=
  encodingHandler (js "br") (js "brotli") HttpLibrary.brotliCompressSync

def deflate.handle : HttpHandler :=
  encodingHandler (js "deflate") (js "deflated") HttpLibrary.deflateSync

def gzip.handle : HttpHandler := encodingHandler (js "gzip") (js "gzipped") HttpLibrary.gzipSync

def zstd.handle : HttpHandler :=
  encodingHandler (js "zstd") (js "zstd") HttpLibrary.zstdCompressSync

def identity.handle : HttpHandler :=
  fixedHandler [jsonType, (js "content-encoding", .one (js "identity"))] fun _ =>
    .json .document (flagObject (js "identity"))

def uuid.handle : HttpHandler :=
  fixedHandler [jsonType] fun library =>
    .json .document (.object [(js "uuid", .str library.randomUUID)])

def versionJson.handle : HttpHandler :=
  fixedHandler [jsonType] fun library =>
    .json .compact (.object [(js "versionHash", .str library.versionHash)])

/-- `req.socket.end()` -/
def closeEndpoint.handle : HttpHandler := fun _ _ _ => .done [.endSocket]

/-- `resetAndDestroy` on the raw socket. -/
def resetEndpoint.handle : HttpHandler := fun _ _ _ => .done [.resetSocket]

end TestServer.Endpoints
