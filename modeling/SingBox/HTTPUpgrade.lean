/-
**Download over an upgraded HTTP connection** (`transport/v2rayhttpupgrade/client.go`).

The client sends an upgrade request and reads the header of the response through a buffered reader.
After a response with status 101 the connection is a stream of bytes.  What the buffered reader has
taken from it together with the header is meant to be kept in a buffer in front of the connection.
The buffer is filled with as many bytes as it holds, and a new buffer holds none, so that these
bytes are lost.

The functions of `net/http` that write and parse messages are arbitrary here.

* `CachedStream.delivers` — what a connection behind a buffer delivers;
* `HTTPUpgradeClient.dialContext_spec` — which connection the handshake returns;
* `download_iff` — **the download is transparent exactly if nothing was read ahead**;
* `coalesced_download_lost` — a stream that arrives together with the header is lost.
-/

import SingBox.GoString
import SingBox.LineReader

namespace SingBox

open GoString List

/-! ### Header fields -/

/-- `http.Header`: values by key. -/
abbrev Header : Type := List (GoString × List GoString)

/-- The bytes that may stand in the key of a header field. -/
def isTokenByte (c : UInt8) : Bool :=
  (65 ≤ c && c ≤ 90) || (97 ≤ c && c ≤ 122) || (48 ≤ c && c ≤ 57) ||
    (ofString "!#$%&'*+-.^_`|~").elem c

def upperByte (c : UInt8) : UInt8 := if 97 ≤ c ∧ c ≤ 122 then c - 32 else c

def lowerByte (c : UInt8) : UInt8 := if 65 ≤ c ∧ c ≤ 90 then c + 32 else c

/-- A capital at the start and after each hyphen. -/
def capitalize : Bool → GoString → GoString
  | _, [] => []
  | upper, c :: s => (if upper then upperByte c else lowerByte c) :: capitalize (c == 45) s

/-- `textproto.CanonicalMIMEHeaderKey`. -/
def canonicalMIMEHeaderKey (key : GoString) : GoString :=
  if key.all isTokenByte then capitalize true key else key

namespace Header

/-- `Header.Get`: the first value, or nothing. -/
def get (h : Header) (key : GoString) : GoString :=
  ((h.lookup (canonicalMIMEHeaderKey key)).getD []).headD []

/-- `Header.Set`. -/
def set (h : Header) (key value : GoString) : Header :=
  (canonicalMIMEHeaderKey key, [value]) :: h.filter fun field =>
    field.1 != canonicalMIMEHeaderKey key

@[simp] theorem get_set_self (h : Header) (key value : GoString) :
    (h.set key value).get key = value := by
  rw [get, set, lookup_cons_self]
  rfl

theorem lookup_filter_of_ne {h : Header} {key key' : GoString} (hne : key' ≠ key) :
    (h.filter fun field => field.1 != key).lookup key' = h.lookup key' := by
  induction h with
  | nil => rfl
  | cons field h ih =>
    obtain ⟨name, values⟩ := field
    rw [filter_cons]
    split
    · rw [lookup_cons, lookup_cons, ih]
    · rename_i hname
      have hname : name = key := by simpa using hname
      rw [ih, lookup_cons, hname, beq_false_of_ne hne]

theorem get_set_of_ne {h : Header} {key key' value : GoString}
    (hne : canonicalMIMEHeaderKey key' ≠ canonicalMIMEHeaderKey key) :
    (h.set key value).get key' = h.get key' := by
  rw [get, set, lookup_cons, beq_false_of_ne hne]
  dsimp only
  rw [lookup_filter_of_ne hne, get]

end Header

/-- The runes that fold to an ASCII letter, as that letter. -/
def foldRunes : GoString → GoString
  -- U+017F folds to an `s` and U+212A to a `k`.
  | 0xC5 :: 0xBF :: s => 115 :: foldRunes s
  | 0xE2 :: 0x84 :: 0xAA :: s => 107 :: foldRunes s
  | c :: s => lowerByte c :: foldRunes s
  | [] => []

/-- `strings.EqualFold` where the second string is ASCII. -/
def equalFold (s t : GoString) : Bool := foldRunes s == foldRunes t

/-! ### Messages -/

/-- The part of an `http.Request` that is used here. -/
structure Request where
  (method host path : GoString)
  header : Header
  deriving DecidableEq

/-- The part of an `http.Response` that is used here. -/
structure Response where
  statusCode : ℕ
  status : GoString
  header : Header

/-- What `net/http` does: a request is written, and the lines of a header are parsed. -/
structure HTTPWire where
  writeRequest : Request → Except GoError GoString
  readRequest : List GoString → Except GoError Request
  readResponse : List GoString → Except GoError Response

def headerConnection : GoString := "Connection"
def headerUpgrade : GoString := "Upgrade"

/-! ### Buffers -/

/-- `io.ErrShortBuffer`. -/
def ioErrShortBuffer : GoError := .new "short buffer"

/-- `buf.Buffer`: the bytes between its two positions, the first of them, and the capacity. -/
structure Buffer where
  start : ℕ := 0
  bytes : GoString := []
  capacity : ℕ

namespace Buffer

/-- `NewSize`. -/
def newSize (size : ℕ) : Buffer := { capacity := size }

/-- `Len`. -/
def len (b : Buffer) : ℕ := b.bytes.length

/-- `ReadFullFrom`. -/
def readFullFrom (b : Buffer) (r : BufReader) (size : ℕ) : Option GoError × Buffer × BufReader :=
  if b.capacity < b.start + b.len + size then (some ioErrShortBuffer, b, r)
  else
    match r.readFull size with
    | (bytes, r) =>
      (if bytes.length < size then some (if bytes = [] then ioEOF else ioErrUnexpectedEOF)
        else none, { b with bytes := b.bytes ++ bytes }, r)

/-- **A new buffer holds nothing**, and reads nothing where it is asked for its length. -/
theorem readFullFrom_newSize (size : ℕ) (r : BufReader) :
    (newSize size).readFullFrom r (newSize size).len = (none, newSize size, r) := rfl

end Buffer

/-- `bufio.CachedConn`.  A connection that is not behind a buffer is one without it. -/
structure CachedStream where
  conn : Source
  buffer : Option Buffer := none

namespace CachedStream

/-- A read of the connection, after which there is no buffer. -/
def readConn (c : CachedStream) (n : ℕ) : GoString × Option GoError × CachedStream :=
  match c.conn.reader ioEOF n with
  | (bytes, err, conn) => (bytes, err, { conn := conn })

/-- `Read`: from the buffer as long as there is something in it. -/
def read (c : CachedStream) (n : ℕ) : GoString × Option GoError × CachedStream :=
  match c.buffer with
  | none => c.readConn n
  | some b =>
    if b.bytes = [] then c.readConn n
    else
      (b.bytes.take n, none, { c with
        buffer := some { b with start := b.start + min n b.len, bytes := b.bytes.drop n } })

/-- The bytes in the buffer. -/
def cached (c : CachedStream) : GoString := (c.buffer.map Buffer.bytes).getD []

/-- The bytes that are to come. -/
def content (c : CachedStream) : GoString := c.cached ++ c.conn.content

theorem read_of_cached {c : CachedStream} (h : c.cached = []) (n : ℕ) :
    c.read n = c.readConn n := by
  rw [read]
  split
  · rfl
  · rename_i b hbuffer
    rw [cached, hbuffer] at h
    exact if_pos h

theorem read_of_cached_ne {c : CachedStream} (h : c.cached ≠ []) (n : ℕ) :
    ∃ c', c.read n = (c.cached.take n, none, c') ∧
      c'.content = c.cached.drop n ++ c.conn.content := by
  rw [read]
  split
  · rename_i hbuffer
    rw [cached, hbuffer] at h
    exact absurd rfl h
  · rename_i b hbuffer
    rw [cached, hbuffer] at h ⊢
    exact ⟨_, if_neg h, rfl⟩

theorem step_read (c : CachedStream) {n : ℕ} (hn : 0 < n) :
    (∃ c', c.read n = (c.content, some ioEOF, c')) ∨
      ∃ b c', c.read n = (b, none, c') ∧ b ≠ [] ∧ c.content = b ++ c'.content := by
  by_cases hcached : c.cached = []
  · rw [read_of_cached hcached, readConn, content, hcached, nil_append]
    rcases c.conn.step_reader ioEOF hn with ⟨conn, hread⟩ | ⟨b, conn, hread, hb, hsplit⟩
    · exact .inl ⟨{ conn := conn }, by rw [hread]⟩
    · exact .inr ⟨b, { conn := conn }, by rw [hread], hb, hsplit⟩
  · obtain ⟨c', hread, hcontent⟩ := read_of_cached_ne hcached n
    refine .inr ⟨c.cached.take n, c', hread, fun hnil => ?_, ?_⟩
    · rcases List.take_eq_nil_iff.1 hnil with hzero | hnil
      · omega
      · exact hcached hnil
    · rw [hcontent, ← append_assoc, take_append_drop, content]

/-- **A connection behind a buffer** delivers what is in the buffer and then what the other side
has sent. -/
theorem delivers (c : CachedStream) : Delivers read c c.content ioEOF := by
  refine delivers_of_step (D := fun c bytes e => bytes = content c ∧ e = ioEOF) ?_ ⟨rfl, rfl⟩
  rintro c bytes e n ⟨rfl, rfl⟩ hn
  rcases c.step_read hn with hlast | ⟨b, c', hread, hb, hsplit⟩
  · exact .inl hlast
  · exact .inr ⟨b, c'.content, c', hread, hb, hsplit, rfl, rfl⟩

end CachedStream

/-! ### The client -/

/-- `Client`.  The scheme and the host of the URL are not part of what is sent. -/
structure HTTPUpgradeClient where
  path : GoString
  headers : Header
  host : GoString
  maxEarlyData : UInt32
  earlyDataHeaderName : GoString

/-- `V2RayHTTPUpgradeOptions`. -/
structure HTTPUpgradeOptions where
  (host path : GoString)
  headers : Header
  maxEarlyData : UInt32
  earlyDataHeaderName : GoString

/-- `C.DefaultBrowserAgent`. -/
def defaultBrowserAgent : GoString :=
  ofString ("Mozilla/5.0 (Windows NT 10.0; Win64; x64) AppleWebKit/537.36 " ++
    "(KHTML, like Gecko) Chrome/144.0.0.0 Safari/537.36")

def headerUserAgent : GoString := "User-Agent"

/-- The path with a slash in front. -/
def rooted (path : GoString) : GoString := if [47].isPrefixOf path then path else 47 :: path

/-- `NewClient`.  `setPath` is the function of `net/url` that removes the escapes from a path, and
`tlsServerName` is the server name of the TLS configuration, if there is one. -/
def HTTPUpgradeClient.newClient (setPath : GoString → Except GoError GoString)
    (serverAddr : GoString) (tlsServerName : Option GoString) (options : HTTPUpgradeOptions) :
    Except GoError HTTPUpgradeClient :=
  match setPath options.path with
  | .error err => .error (.cause err "parse path")
  | .ok path => .ok {
      path := rooted path
      headers :=
        if options.headers.get headerUserAgent = [] then
          options.headers.set headerUserAgent defaultBrowserAgent
        else options.headers
      host :=
        if options.host ≠ [] then options.host
        else if tlsServerName.getD [] ≠ [] then tlsServerName.getD []
        else serverAddr
      maxEarlyData := options.maxEarlyData
      earlyDataHeaderName := options.earlyDataHeaderName }

/-! ### The handshake -/

def errUnexpectedStatus (status : GoString) : GoError :=
  .new ("v2ray-http-upgrade: unexpected status: " ++ status)

/-- The response that the client takes as an upgrade. -/
def Response.upgraded (r : Response) : Bool :=
  r.statusCode == 101 &&
    equalFold (r.header.get headerConnection) "upgrade" &&
      equalFold (r.header.get headerUpgrade) "websocket"

namespace HTTPUpgradeClient

/-- The request that `dialContext` sends. -/
def upgradeRequest (c : HTTPUpgradeClient) (path : GoString) (headers : Header) : Request where
  method := "GET"
  host := c.host
  path := path
  header := (headers.set headerConnection "Upgrade").set headerUpgrade
    "websocket"

/-- What `dialContext` makes of the reader that has read the header: the connection, behind a
buffer if something has been read ahead. -/
def cacheRest (bufReader : BufReader) : Except GoError CachedStream :=
  if 0 < bufReader.buf.length then
    let buffer := Buffer.newSize bufReader.buf.length
    match buffer.readFullFrom bufReader buffer.len with
    | (some err, _, _) => .error err
    | (none, buffer, bufReader) => .ok { conn := bufReader.source, buffer := some buffer }
  else .ok { conn := bufReader.source }

/-- What `dialContext` makes of the response. -/
def finishHandshake (wire : HTTPWire) :
    Option (List GoString) × BufReader → Except GoError CachedStream
  | (none, _) => .error ioErrUnexpectedEOF
  | (some lines, bufReader) => do
      let response ← wire.readResponse lines
      if response.upgraded then cacheRest bufReader
      else .error (errUnexpectedStatus response.status)

/-- `dialContext`: `dialed` is what the dialer returns, with the bytes that the server sends. -/
def dialContext (wire : HTTPWire) (c : HTTPUpgradeClient) (path : GoString) (headers : Header)
    (dialed : Except GoError Source) : Except GoError CachedStream := do
  let conn ← dialed
  let _ ← wire.writeRequest (c.upgradeRequest path headers)
  finishHandshake wire (BufReader.new conn).readHeader

/-- **What has been read ahead is not cached.** -/
theorem cacheRest_spec (bufReader : BufReader) :
    ∃ conn, cacheRest bufReader = .ok conn ∧ conn.content = bufReader.source.content := by
  rw [cacheRest]
  split
  · dsimp only
    rw [Buffer.readFullFrom_newSize]
    exact ⟨_, rfl, rfl⟩
  · exact ⟨_, rfl, rfl⟩

section

variable {wire : HTTPWire} {c : HTTPUpgradeClient} {path request : GoString} {headers : Header}
  {source : Source} {header stream : GoString} {lines : List GoString} {response : Response}
  (hwrite : wire.writeRequest (c.upgradeRequest path headers) = .ok request)
  (hheader : HeaderBlock header lines) (hsource : source.content = header ++ stream)
  (hresponse : wire.readResponse lines = .ok response) (hupgraded : response.upgraded = true)

include hwrite hheader hsource hresponse hupgraded

theorem dialContext_spec : ∃ conn, c.dialContext wire path headers (.ok source) = .ok conn ∧
    stream = readAhead source ++ conn.content := by
  obtain ⟨bufReader, hread, -, hsplit⟩ := readHeader_split hheader hsource
  obtain ⟨conn, hconn, hcontent⟩ := cacheRest_spec bufReader
  refine ⟨conn, ?_, by rw [hcontent, hsplit]⟩
  refine exceptBind_eq_ok.2 ⟨source, rfl, exceptBind_eq_ok.2 ⟨request, hwrite, ?_⟩⟩
  rw [hread]
  refine exceptBind_eq_ok.2 ⟨response, hresponse, ?_⟩
  rw [if_pos hupgraded]
  exact hconn

/-- **The connection delivers the stream** exactly if nothing was read ahead. -/
theorem dialContext_delivers : ∃ conn, c.dialContext wire path headers (.ok source) = .ok conn ∧
    (Delivers CachedStream.read conn stream ioEOF ↔ readAhead source = []) := by
  obtain ⟨conn, hdial, hsplit⟩ := dialContext_spec hwrite hheader hsource hresponse hupgraded
  refine ⟨conn, hdial, fun hdelivers => ?_, fun hahead => ?_⟩
  · -- What is delivered is the stream without what has been read ahead.
    have hcontent := conn.delivers.unique hdelivers
    rw [hsplit] at hcontent
    exact List.append_left_eq_self.1 hcontent.symm
  · rw [hsplit, hahead]
    exact conn.delivers

end

end HTTPUpgradeClient

/-! ### Transparency -/

/-- **The download is transparent exactly if nothing was read ahead.**  The connection that the
handshake returns delivers what the server sends after a header with status 101 exactly if the
reader of the header has taken nothing of it.  It has not where the header ends with a segment, and
only there if the header is shorter than the buffer. -/
theorem download_iff {wire : HTTPWire} {c : HTTPUpgradeClient} {path request : GoString}
    {headers : Header} {source : Source} {header stream : GoString} {lines : List GoString}
    {response : Response} (hwrite : wire.writeRequest (c.upgradeRequest path headers) = .ok request)
    (hheader : HeaderBlock header lines) (hsource : source.content = header ++ stream)
    (hresponse : wire.readResponse lines = .ok response) (hupgraded : response.upgraded = true) :
    ∃ conn, c.dialContext wire path headers (.ok source) = .ok conn ∧
      (Delivers CachedStream.read conn stream ioEOF ↔ readAhead source = []) ∧
      (source.CutAfter header.length → readAhead source = []) ∧
      (header.length < BufReader.size → readAhead source = [] → source.CutAfter header.length) := by
  obtain ⟨conn, hdial, hdelivers⟩ := HTTPUpgradeClient.dialContext_delivers hwrite hheader hsource
    hresponse hupgraded
  exact ⟨conn, hdial, hdelivers, readAhead_eq_nil_of_cut hheader hsource,
    fun hlength => (readAhead_eq_nil_iff hheader hsource hlength).1⟩

/-! ### A handshake -/

def sampleClient : HTTPUpgradeClient where
  path := "/"
  headers := [(headerUserAgent, ["sample"])]
  host := "localhost"
  maxEarlyData := 0
  earlyDataHeaderName := []

/-- The lines of its request. -/
def requestLines : List GoString :=
  ["GET / HTTP/1.1", "Host: localhost", "User-Agent: sample", "Connection: Upgrade",
    "Upgrade: websocket"].map ofString

/-- The lines of the response. -/
def responseLines : List GoString :=
  ["HTTP/1.1 101 Switching Protocols", "Connection: upgrade", "Upgrade: websocket"].map
    ofString

/-- The response as it is parsed. -/
def sampleResponse : Response where
  statusCode := 101
  status := "101 Switching Protocols"
  header := [(headerConnection, ["upgrade"]), (headerUpgrade, ["websocket"])]

/-- The request as it is parsed. -/
def sampleRequest : Request where
  method := "GET"
  host := "localhost"
  path := "/"
  header := [(headerUserAgent, ["sample"]), (headerConnection, ["Upgrade"]),
    (headerUpgrade, ["websocket"])]

/-- What `net/http` does with these messages. -/
def sampleWire : HTTPWire where
  writeRequest request :=
    if request = sampleClient.upgradeRequest sampleClient.path sampleClient.headers then
      .ok (crlfLines (requestLines ++ [[]]))
    else .error (.library "http.Request.Write" request.path)
  readRequest lines :=
    if lines = requestLines then .ok sampleRequest
    else .error (.library "http.ReadRequest" lines.flatten)
  readResponse lines :=
    if lines = responseLines then .ok sampleResponse
    else .error (.library "http.ReadResponse" lines.flatten)

theorem sampleWire_writeRequest :
    sampleWire.writeRequest
      (sampleClient.upgradeRequest sampleClient.path sampleClient.headers) =
        .ok (crlfLines (requestLines ++ [[]])) := by
  dsimp only [sampleWire]
  exact if_pos rfl

theorem sampleWire_readResponse : sampleWire.readResponse responseLines = .ok sampleResponse := by
  dsimp only [sampleWire]
  exact if_pos rfl

/-- The header of the response. -/
def sampleHeader : GoString := crlfLines (responseLines ++ [[]])

theorem headerBlock_sampleHeader : HeaderBlock sampleHeader responseLines :=
  headerBlock_crlfLines (by decide)

theorem sampleByte_ne_nil : ([1] : List UInt8) ≠ [] := List.cons_ne_nil _ _

/-- The header and a byte after it, each in a segment. -/
def separateSource : Source :=
  { segments := [⟨sampleHeader, by decide⟩, ⟨[1], sampleByte_ne_nil⟩] }

/-- The header and a byte after it in one segment. -/
def coalescedSource : Source := { segments := [⟨sampleHeader ++ [1], by decide⟩] }

theorem separate_download :
    separateSource.CutAfter sampleHeader.length ∧
      ∃ conn, sampleClient.dialContext sampleWire sampleClient.path sampleClient.headers
        (.ok separateSource) = .ok conn ∧ Delivers CachedStream.read conn [1] ioEOF := by
  have hcut : separateSource.CutAfter sampleHeader.length :=
    ⟨[⟨sampleHeader, by decide⟩], [⟨[1], sampleByte_ne_nil⟩], rfl, by simp⟩
  have hsource : separateSource.content = sampleHeader ++ [1] := rfl
  obtain ⟨conn, hdial, hdelivers, hahead, -⟩ := download_iff sampleWire_writeRequest
    headerBlock_sampleHeader hsource sampleWire_readResponse (by decide)
  exact ⟨hcut, conn, hdial, hdelivers.2 (hahead hcut)⟩

theorem coalesced_not_cut : ¬coalescedSource.CutAfter sampleHeader.length := by
  rintro ⟨before, after, hsegs, hlength⟩
  cases before with
  | nil => exact absurd hlength (by decide)
  | cons seg before =>
    obtain ⟨hseg, -⟩ := List.cons.inj hsegs
    rw [Segment.content_cons, ← hseg, length_append, length_append, length_singleton] at hlength
    omega

/-- **A byte that arrives together with the header is lost.** -/
theorem coalesced_download_lost :
    ∃ conn, sampleClient.dialContext sampleWire sampleClient.path sampleClient.headers
      (.ok coalescedSource) = .ok conn ∧ ¬Delivers CachedStream.read conn [1] ioEOF := by
  have hsource : coalescedSource.content = sampleHeader ++ [1] := append_nil _
  obtain ⟨conn, hdial, hdelivers⟩ := HTTPUpgradeClient.dialContext_delivers
    sampleWire_writeRequest headerBlock_sampleHeader hsource sampleWire_readResponse (by decide)
  refine ⟨conn, hdial, fun h => coalesced_not_cut ?_⟩
  exact (readAhead_eq_nil_iff headerBlock_sampleHeader hsource (by decide)).1 (hdelivers.1 h)

end SingBox
