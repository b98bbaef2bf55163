/-
**Upload over an upgraded HTTP connection** (`transport/v2rayhttpupgrade/client.go` and
`server.go`).

A client with early data sends its request with the first write and puts a part of that write into
the path or into a header field of the request, encoded as text.  The server compares the path with
its own, ignores the header field and hands the connection to its handler.  It drops the reader that
`Hijack` returns besides the connection, with all that `net/http` has read ahead.

So early data never arrives, and neither does what was read ahead.  Besides, the client removes the
escapes from its path and the server does not, and the server takes a request with a certain header
field for a real WebSocket request.

* `HTTPUpgradeClient.upload_spec` — a request with the early data, and then the rest;
* `HTTPUpgradeServer.serveHTTP_eq_ok` — which requests are accepted;
* `upload_iff` — **when the upload is transparent**;
* `earlyData_lost` — early data in a header field is lost.
-/

import SingBox.HTTPUpgrade

namespace SingBox

open HTTPUpgradeClient GoString List Except

/-! ### Early data -/

/-- The digit of `base64.RawURLEncoding` for a value below 64. -/
def base64Digit (n : UInt8) : UInt8 :=
  if n < 26 then 65 + n
  else if n < 52 then 71 + n
  else if n < 62 then n - 4
  else if n = 62 then 45
  else 95

/-- `base64.RawURLEncoding.EncodeToString`. -/
def rawURLEncode : GoString → GoString
  | a :: b :: c :: s =>
    base64Digit (a >>> 2) :: base64Digit (((a &&& 3) <<< 4) ||| (b >>> 4)) ::
      base64Digit (((b &&& 15) <<< 2) ||| (c >>> 6)) :: base64Digit (c &&& 63) :: rawURLEncode s
  | [a, b] =>
    [base64Digit (a >>> 2), base64Digit (((a &&& 3) <<< 4) ||| (b >>> 4)),
      base64Digit ((b &&& 15) <<< 2)]
  | [a] => [base64Digit (a >>> 2), base64Digit ((a &&& 3) <<< 4)]
  | [] => []

example : rawURLEncode [104, 105] = "aGk" := by decide

/-- A connection of the client: the request has not been sent, the bytes that have been sent, or
the error of the request. -/
inductive UploadConn where
  | waiting
  | opened (sent : GoString)
  | failed (err : GoError)

namespace HTTPUpgradeClient

/-- The early part of the first write, and the rest of it. -/
def splitEarly (c : HTTPUpgradeClient) (content : GoString) : GoString × GoString :=
  if c.maxEarlyData.toNat < content.length then
    (content.take c.maxEarlyData.toNat, content.drop c.maxEarlyData.toNat)
  else (content, [])

/-- The request that carries the early data. -/
def earlyRequest (c : HTTPUpgradeClient) (earlyData : GoString) : Request :=
  if 0 < earlyData.length then
    if c.earlyDataHeaderName = [] then
      c.upgradeRequest (c.path ++ rawURLEncode earlyData) c.headers
    else c.upgradeRequest c.path (c.headers.set c.earlyDataHeaderName (rawURLEncode earlyData))
  else c.upgradeRequest c.path c.headers

/-- A request, and the bytes that follow it once the server has answered with an upgrade. -/
def send (wire : HTTPWire) (request : Request) (late : GoString) : UploadConn :=
  match wire.writeRequest request with
  | .error err => .failed err
  | .ok bytes => .opened (bytes ++ late)

/-- `EarlyHTTPUpgradeConn.writeRequest`. -/
def writeRequest (wire : HTTPWire) (c : HTTPUpgradeClient) (content : GoString) : UploadConn :=
  send wire (c.earlyRequest (c.splitEarly content).1) (c.splitEarly content).2

/-- `DialContext`. -/
def dial (wire : HTTPWire) (c : HTTPUpgradeClient) : UploadConn :=
  if c.maxEarlyData ≤ 0 then send wire (c.upgradeRequest c.path c.headers) [] else .waiting

/-- `Write`. -/
def write (wire : HTTPWire) (c : HTTPUpgradeClient) : UploadConn → GoString → UploadConn
  | .opened sent, b => .opened (sent ++ b)
  | .failed err, _ => .failed err
  | .waiting, b => c.writeRequest wire b

/-- A connection after some writes. -/
def upload (wire : HTTPWire) (c : HTTPUpgradeClient) (writes : List GoString) : UploadConn :=
  writes.foldl (c.write wire) (c.dial wire)

/-- What a sequence of writes sends as early data. -/
def earlyData (c : HTTPUpgradeClient) : List GoString → GoString
  | [] => []
  | content :: _ => (c.splitEarly content).1

variable (c : HTTPUpgradeClient)

theorem splitEarly_eq (content : GoString) :
    c.splitEarly content =
      (content.take c.maxEarlyData.toNat, content.drop c.maxEarlyData.toNat) := by
  rw [splitEarly]
  split
  · rfl
  · rename_i hlen
    rw [take_of_length_le (Nat.le_of_not_lt hlen), drop_of_length_le (Nat.le_of_not_lt hlen)]

theorem earlyData_eq_nil (writes : List GoString) :
    c.earlyData writes = [] ↔ c.maxEarlyData = 0 ∨ ∀ content ∈ writes.head?, content = [] := by
  cases writes with
  | nil => exact iff_of_true rfl (.inr (by simp))
  | cons content writes =>
    rw [earlyData, splitEarly_eq, take_eq_nil_iff, ← UInt32.toNat_inj]
    simp

theorem earlyRequest_nil : c.earlyRequest [] = c.upgradeRequest c.path c.headers := if_neg (by simp)

section

variable {wire : HTTPWire} {c : HTTPUpgradeClient} {writes : List GoString} {bytes : GoString}

theorem foldl_write_opened (sent : GoString) :
    writes.foldl (c.write wire) (.opened sent) = .opened (sent ++ writes.flatten) := by
  induction writes generalizing sent with
  | nil => rw [foldl_nil, flatten_nil, append_nil]
  | cons b writes ih => rw [foldl_cons, write, ih, flatten_cons, append_assoc]

theorem foldl_write_failed (err : GoError) :
    writes.foldl (c.write wire) (.failed err) = .failed err := by
  induction writes with
  | nil => rfl
  | cons b writes ih => rw [foldl_cons, write, ih]

theorem foldl_write_send {request : Request} {late : GoString}
    (h : writes.foldl (c.write wire) (send wire request late) = .opened bytes) :
    ∃ header, wire.writeRequest request = .ok header ∧
      bytes = header ++ (late ++ writes.flatten) := by
  rw [send] at h
  split at h
  · rw [foldl_write_failed] at h
    cases h
  · rename_i header hwrite
    rw [foldl_write_opened, UploadConn.opened.injEq] at h
    exact ⟨header, hwrite, by rw [← h, append_assoc]⟩

/-- **What is sent**: a request with the early data, and then the rest of what was written. -/
theorem upload_spec (h : c.upload wire writes = .opened bytes) :
    ∃ header data, wire.writeRequest (c.earlyRequest (c.earlyData writes)) = .ok header ∧
      bytes = header ++ data ∧ c.earlyData writes ++ data = writes.flatten := by
  rw [upload, dial] at h
  split at h
  · rename_i heager
    have hearly : c.earlyData writes = [] :=
      (c.earlyData_eq_nil writes).2 (.inl (UInt32.le_zero_iff.1 heager))
    obtain ⟨header, hwrite, hbytes⟩ := foldl_write_send h
    rw [hearly, earlyRequest_nil]
    exact ⟨header, writes.flatten, hwrite, hbytes, rfl⟩
  · cases writes with
    | nil => cases h
    | cons content writes =>
      rw [foldl_cons, write, writeRequest] at h
      obtain ⟨header, hwrite, hbytes⟩ := foldl_write_send h
      refine ⟨header, _, hwrite, hbytes, ?_⟩
      rw [earlyData, splitEarly_eq, flatten_cons, ← append_assoc, take_append_drop]

end

end HTTPUpgradeClient

/-! ### The server -/

/-- `Server`. -/
structure HTTPUpgradeServer where
  (host path : GoString)

/-- What `invalidRequest` answers and logs. -/
structure InvalidRequest where
  statusCode : ℕ
  err : GoError

/-- `http.ResponseWriter`: what `FlushError` returns, and what `Hijack` does if there is one.  It
returns the connection and the bytes that its reader holds. -/
structure ResponseWriter where
  flushError : Option GoError
  hijack : Option (Except GoError (Source × GoString))

def headerSecWebSocketKey : GoString := "Sec-WebSocket-Key"

/-- The response to a request that is accepted. -/
def switchingProtocols : Response where
  statusCode := 101
  status := "101 Switching Protocols"
  header := (Header.set [] headerConnection "upgrade").set headerUpgrade
    "websocket"

namespace HTTPUpgradeServer

/-- `NewServer`. -/
def newServer (options : HTTPUpgradeOptions) : HTTPUpgradeServer where
  host := options.host
  path := rooted options.path

/-- `ServeHTTP`: the response, and the connection that the handler is given. -/
def serveHTTP (s : HTTPUpgradeServer) (writer : ResponseWriter) (request : Request) :
    Except InvalidRequest (Response × Source) :=
  if 0 < s.host.length ∧ request.host ≠ s.host then
    .error ⟨400, .new ("bad host: " ++ request.host)⟩
  else if request.path ≠ s.path then
    .error ⟨404, .new ("bad path: " ++ request.path)⟩
  else if request.method ≠ "GET" then
    .error ⟨404, .new ("bad method: " ++ request.method)⟩
  else if !equalFold (request.header.get headerConnection) "upgrade" then
    .error ⟨404, .new "not a upgrade request"⟩
  else if !equalFold (request.header.get headerUpgrade) "websocket" then
    .error ⟨404, .new "not a websocket request"⟩
  else if request.header.get headerSecWebSocketKey ≠ [] then
    .error ⟨404, .new "real websocket request received"⟩
  else
    match writer.flushError with
    | some err => .error ⟨500, .cause err "flush response"⟩
    | none =>
      match writer.hijack with
      | none => .error ⟨500, .new "invalid connection, maybe HTTP/2"⟩
      | some (.error err) => .error ⟨500, .cause err "hijack failed"⟩
      | some (.ok (conn, _)) => .ok (switchingProtocols, conn)

/-- What `Hijack` returns.  While a handler runs, `net/http` reads one byte ahead; `background`
says that it has got it. -/
def hijack (background : Bool) (r : BufReader) : Source × GoString :=
  if background then ((r.source.read 1).next, r.buf ++ (r.source.read 1).bytes)
  else (r.source, r.buf)

/-- What is made of a header. -/
def serveHeader (wire : HTTPWire) (s : HTTPUpgradeServer) (background : Bool) :
    Option (List GoString) × BufReader → Option (Except InvalidRequest (Response × Source))
  | (none, _) => none
  | (some lines, r) =>
    match wire.readRequest lines with
    | .error _ => none
    | .ok request => some (s.serveHTTP ⟨none, some (.ok (hijack background r))⟩ request)

/-- What the server does on a connection: nothing if there is no request that `net/http` hands
to it. -/
def serve (wire : HTTPWire) (s : HTTPUpgradeServer) (background : Bool) (source : Source) :
    Option (Except InvalidRequest (Response × Source)) :=
  s.serveHeader wire background (BufReader.new source).readHeader

/-- The requests that pass the checks. -/
structure Accepts (s : HTTPUpgradeServer) (request : Request) : Prop where
  host : s.host = [] ∨ request.host = s.host
  path : request.path = s.path
  method : request.method = "GET"
  connection : equalFold (request.header.get headerConnection) "upgrade" = true
  upgrade : equalFold (request.header.get headerUpgrade) "websocket" = true
  key : request.header.get headerSecWebSocketKey = []

/-- **Which requests are accepted**, and that the handler is given the bare connection. -/
theorem serveHTTP_eq_ok {s : HTTPUpgradeServer} {request : Request}
    {hijacked : Source × GoString} {result : Response × Source} :
    s.serveHTTP ⟨none, some (.ok hijacked)⟩ request = .ok result ↔
      s.Accepts request ∧ result = (switchingProtocols, hijacked.1) := by
  simp only [serveHTTP, iteError_eq_ok, ok.injEq, ne_eq, not_not, Bool.not_eq_true',
    Bool.not_eq_false]
  constructor
  · rintro ⟨hhost, hpath, hmethod, hconnection, hupgrade, hkey, hres⟩
    refine ⟨⟨?_, hpath, hmethod, hconnection, hupgrade, hkey⟩, hres.symm⟩
    rw [not_and_not_right, length_pos_iff] at hhost
    exact or_iff_not_imp_left.2 hhost
  · rintro ⟨haccepts, rfl⟩
    refine ⟨?_, haccepts.path, haccepts.method, haccepts.connection, haccepts.upgrade,
      haccepts.key, rfl⟩
    rw [not_and_not_right, length_pos_iff]
    exact or_iff_not_imp_left.1 haccepts.host

theorem content_hijack (background : Bool) (r : BufReader) :
    r.content = (hijack background r).2 ++ (hijack background r).1.content := by
  rw [hijack]
  split
  · rw [BufReader.content, (r.source.yields_read Nat.one_pos).split, append_assoc]
  · rfl

end HTTPUpgradeServer

open HTTPUpgradeServer

/-! ### Transparency -/

/-- What is written as a request is a header. -/
def HTTPWire.Framed (wire : HTTPWire) : Prop :=
  ∀ request header, wire.writeRequest request = .ok header → ∃ lines, HeaderBlock header lines

/-- A request is written and read back with all that the server looks at. -/
def HTTPWire.Transmits (wire : HTTPWire) (request : Request) : Prop :=
  ∃ header lines received, wire.writeRequest request = .ok header ∧ HeaderBlock header lines ∧
    wire.readRequest lines = .ok received ∧ received.method = request.method ∧
    received.host = request.host ∧ received.path = request.path ∧
    ∀ key ∈ [headerConnection, headerUpgrade, headerSecWebSocketKey],
      received.header.get key = request.header.get key

/-- **The server accepts the request, the client takes the response as an upgrade, and the handler
is given a connection that delivers what was written.** -/
def UploadTransparent (wire : HTTPWire) (server : HTTPUpgradeServer) (background : Bool)
    (source : Source) (written : GoString) : Prop :=
  ∃ response conn, server.serve wire background source = some (.ok (response, conn)) ∧
    response.upgraded ∧ Delivers (Source.reader ioEOF) conn written ioEOF

theorem upgraded_switchingProtocols : switchingProtocols.upgraded := by decide

theorem uploadTransparent_iff {wire : HTTPWire} {server : HTTPUpgradeServer} {background : Bool}
    {source : Source} {written : GoString} {lines : List GoString} {r : BufReader}
    (hread : (BufReader.new source).readHeader = (some lines, r)) :
    UploadTransparent wire server background source written ↔
      ∃ request, wire.readRequest lines = .ok request ∧ server.Accepts request ∧
        (hijack background r).1.content = written := by
  rw [UploadTransparent, serve, hread]
  constructor
  · rintro ⟨response, conn, hserve, -, hdelivers⟩
    rw [serveHeader] at hserve
    split at hserve
    · cases hserve
    · rename_i request hrequest
      obtain ⟨haccepts, hconn⟩ := serveHTTP_eq_ok.1 (Option.some.inj hserve)
      rw [Prod.mk.injEq] at hconn
      refine ⟨request, hrequest, haccepts, ?_⟩
      rw [← hconn.2]
      exact (conn.delivers_reader ioEOF).unique hdelivers
  · rintro ⟨request, hrequest, haccepts, rfl⟩
    refine ⟨switchingProtocols, _, ?_, upgraded_switchingProtocols, Source.delivers_reader ioEOF _⟩
    rw [serveHeader, hrequest]
    exact congrArg some (serveHTTP_eq_ok.2 ⟨haccepts, rfl⟩)

/-- The connection has everything that follows the header exactly if nothing was read ahead, be it
with the header or in the background. -/
theorem hijack_eq_nil (background : Bool) (r : BufReader) :
    (hijack background r).2 = [] ↔ r.buf = [] ∧ (background → r.content = []) := by
  rw [hijack]
  cases background with
  | false => simp
  | true =>
    have hyields := r.source.yields_read Nat.one_pos
    simp only [if_true, forall_const, append_eq_nil_iff, BufReader.content]
    constructor
    · rintro ⟨hbuf, hbytes⟩
      refine ⟨hbuf, hbuf, ?_⟩
      rw [hyields.split, hbytes, hyields.last (hyields.progress hbytes)]
      rfl
    · rintro ⟨hbuf, -, hcontent⟩
      rw [hyields.split] at hcontent
      exact ⟨hbuf, (List.append_eq_nil_iff.1 hcontent).1⟩

theorem content_hijack_eq {background : Bool} {r : BufReader} {early data : GoString}
    (hdata : r.content = data) :
    (hijack background r).1.content = early ++ data ↔
      early = [] ∧ (hijack background r).2 = [] := by
  have hsplit := content_hijack background r
  rw [hdata] at hsplit
  constructor
  · intro hcontent
    have hlen := congrArg List.length hsplit
    have hlen' := congrArg List.length hcontent
    rw [length_append] at hlen hlen'
    exact ⟨List.length_eq_zero_iff.1 (by omega), List.length_eq_zero_iff.1 (by omega)⟩
  · rintro ⟨rfl, hahead⟩
    rw [hsplit, hahead]
    rfl

section

variable {setPath : GoString → Except GoError GoString} {serverAddr : GoString}
  {tlsServerName : Option GoString} {options : HTTPUpgradeOptions} {client : HTTPUpgradeClient}
  (hclient : newClient setPath serverAddr tlsServerName options = .ok client)
include hclient

theorem maxEarlyData_newClient : client.maxEarlyData = options.maxEarlyData := by
  rw [newClient] at hclient
  split at hclient
  · cases hclient
  · cases hclient
    rfl

theorem host_newClient (h : options.host ≠ []) : client.host = options.host := by
  rw [newClient] at hclient
  split at hclient
  · cases hclient
  · cases hclient
    exact if_pos h

theorem get_key_newClient :
    client.headers.get headerSecWebSocketKey = options.headers.get headerSecWebSocketKey := by
  rw [newClient] at hclient
  split at hclient
  · cases hclient
  · cases hclient
    dsimp only
    split
    · exact Header.get_set_of_ne (by decide)
    · rfl

/-- **Which requests without early data are accepted**: those of a client with the same path and
without the header field that marks a WebSocket request. -/
theorem accepts_plain {wire : HTTPWire} {header : GoString} {lines : List GoString}
    (hplain : wire.Transmits (client.upgradeRequest client.path client.headers))
    (hwrite : wire.writeRequest (client.upgradeRequest client.path client.headers) = .ok header)
    (hheader : HeaderBlock header lines) :
    ∃ received, wire.readRequest lines = .ok received ∧
      ((newServer options).Accepts received ↔
        client.path = rooted options.path ∧ options.headers.get headerSecWebSocketKey = []) := by
  obtain ⟨header', lines', received, hwrite', hheader', hreceived, hmethod, hhost, hpath, hget⟩ :=
    hplain
  obtain rfl : header' = header := ok.inj (hwrite'.symm.trans hwrite)
  obtain rfl := hheader.unique hheader'
  have hkey : received.header.get headerSecWebSocketKey =
      options.headers.get headerSecWebSocketKey := by
    rw [hget _ (by simp), upgradeRequest,
      Header.get_set_of_ne (by decide), Header.get_set_of_ne (by decide),
      get_key_newClient hclient]
  refine ⟨received, hreceived, fun haccepts => ?_, ?_⟩
  · exact ⟨hpath.symm.trans haccepts.path, hkey.symm.trans haccepts.key⟩
  · rintro ⟨hpath', hkey'⟩
    refine ⟨?_, hpath.trans hpath', hmethod, ?_, ?_, hkey.trans hkey'⟩
    · refine or_iff_not_imp_left.2 fun hne => ?_
      exact hhost.trans (host_newClient hclient hne)
    · rw [hget _ (by simp), upgradeRequest, Header.get_set_of_ne (by decide), Header.get_set_self]
      decide
    · rw [hget _ (by simp), upgradeRequest, Header.get_set_self]
      decide

end

/-- **When the upload is transparent.**  The bytes that a client writes arrive exactly if none of
them is sent as early data, nothing that follows the request is read ahead by `net/http`, be it with
the request or in the background, the path has no escapes, and no header field of the options marks
a WebSocket request.  For a request that is shorter than the buffer, nothing is read ahead with it
exactly if a segment ends with it. -/
theorem upload_iff {wire : HTTPWire} (hframed : wire.Framed)
    {setPath : GoString → Except GoError GoString} {serverAddr : GoString}
    {tlsServerName : Option GoString} {options : HTTPUpgradeOptions} {client : HTTPUpgradeClient}
    (hclient : newClient setPath serverAddr tlsServerName options = .ok client)
    (hplain : wire.Transmits (client.upgradeRequest client.path client.headers))
    {writes : List GoString} {bytes : GoString} (hsent : client.upload wire writes = .opened bytes)
    {source : Source} (hsource : source.content = bytes) (background : Bool) :
    (UploadTransparent wire (.newServer options) background source writes.flatten ↔
      (options.maxEarlyData = 0 ∨ ∀ content ∈ writes.head?, content = []) ∧
      readAhead source = [] ∧ (background = true → writes.flatten = []) ∧
      client.path = rooted options.path ∧ options.headers.get headerSecWebSocketKey = []) ∧
    ∀ header, wire.writeRequest (client.earlyRequest (client.earlyData writes)) = .ok header →
      header.length < BufReader.size → (readAhead source = [] ↔ source.CutAfter header.length) := by
  obtain ⟨header, data, hwrite, rfl, hwritten⟩ := upload_spec hsent
  obtain ⟨lines, hheader⟩ := hframed _ _ hwrite
  refine ⟨?_, fun header' hwrite' => ?_⟩
  · rw [← maxEarlyData_newClient hclient, ← client.earlyData_eq_nil]
    obtain ⟨r, hread, hbuf, hsplit⟩ := readHeader_split hheader hsource
    have hdata : r.content = data := by rw [BufReader.content, hbuf, hsplit]
    rw [uploadTransparent_iff hread, ← hwritten]
    simp only [content_hijack_eq hdata, hijack_eq_nil, hbuf, hdata]
    -- Early data is missing whatever the server does with the request.
    by_cases hearly : client.earlyData writes = []
    · rw [hearly, earlyRequest_nil] at hwrite
      obtain ⟨received, hreceived, haccepts⟩ := accepts_plain hclient hplain hwrite hheader
      simp only [hreceived, hearly, ok.injEq, exists_eq_left', haccepts, nil_append]
      tauto
    · refine iff_of_false ?_ (fun h => hearly h.1)
      rintro ⟨-, -, -, hnil, -⟩
      exact hearly hnil
  · obtain rfl : header = header' := ok.inj (hwrite.symm.trans hwrite')
    exact readAhead_eq_nil_iff hheader hsource

/-! ### Two connections -/

def sampleOptions : HTTPUpgradeOptions where
  host := "localhost"
  path := "/"
  headers := [(headerUserAgent, ["sample"])]
  maxEarlyData := 0
  earlyDataHeaderName := []

theorem framed_sampleWire : sampleWire.Framed := by
  intro request header hwrite
  dsimp only [sampleWire] at hwrite
  split at hwrite
  · cases hwrite
    exact ⟨requestLines, headerBlock_crlfLines (by decide +kernel)⟩
  · cases hwrite

theorem sampleWire_readRequest : sampleWire.readRequest requestLines = .ok sampleRequest := by
  dsimp only [sampleWire]
  exact if_pos rfl

theorem transmits_sampleWire :
    sampleWire.Transmits (sampleClient.upgradeRequest sampleClient.path sampleClient.headers) :=
  ⟨_, requestLines, sampleRequest, sampleWire_writeRequest,
    headerBlock_crlfLines (by decide +kernel), sampleWire_readRequest, by decide +kernel⟩

/-- A request and two writes after it. -/
def sampleUpload : Source :=
  { segments := [⟨crlfLines (requestLines ++ [[]]), by decide⟩, ⟨[1, 2], List.cons_ne_nil _ _⟩] }

/-- Without early data, what follows the request in segments of its own arrives. -/
theorem sample_upload :
    UploadTransparent sampleWire (.newServer sampleOptions) false sampleUpload [1, 2] := by
  have hclient : newClient .ok "localhost:80" none sampleOptions = .ok sampleClient := rfl
  have hsent : sampleClient.upload sampleWire [[1], [2]] =
      .opened (crlfLines (requestLines ++ [[]]) ++ [1, 2]) := by
    rw [upload, dial, if_pos (by decide), send, sampleWire_writeRequest]
    exact foldl_write_opened _
  have hsource : sampleUpload.content = crlfLines (requestLines ++ [[]]) ++ [1, 2] := rfl
  obtain ⟨hiff, hcut⟩ := upload_iff framed_sampleWire hclient transmits_sampleWire hsent hsource
    false
  refine hiff.2 ⟨.inl rfl, ?_, by simp, by decide, by decide⟩
  exact (hcut _ sampleWire_writeRequest (by decide)).2
    ⟨[⟨crlfLines (requestLines ++ [[]]), by decide⟩], [⟨[1, 2], cons_ne_nil _ _⟩], rfl, by simp⟩

/-- Early data in a header field. -/
def earlyOptions : HTTPUpgradeOptions :=
  { sampleOptions with
    maxEarlyData := 2048
    earlyDataHeaderName := "Sec-WebSocket-Protocol" }

def earlyClient : HTTPUpgradeClient :=
  { sampleClient with
    maxEarlyData := 2048
    earlyDataHeaderName := "Sec-WebSocket-Protocol" }

/-- The lines of the request with two bytes of early data. -/
def earlyLines : List GoString :=
  ["GET / HTTP/1.1", "Host: localhost", "User-Agent: sample", "Connection: Upgrade",
    "Sec-Websocket-Protocol: aGk", "Upgrade: websocket"].map ofString

/-- The request as it is parsed. -/
def earlyReceived : Request :=
  { sampleRequest with
    header := sampleRequest.header ++
      [(ofString "Sec-Websocket-Protocol", [ofString "aGk"])] }

/-- What `net/http` does with this request, besides those of `sampleWire`. -/
def earlyWire : HTTPWire where
  writeRequest request :=
    if request = earlyClient.earlyRequest [104, 105] then .ok (crlfLines (earlyLines ++ [[]]))
    else sampleWire.writeRequest request
  readRequest lines :=
    if lines = earlyLines then .ok earlyReceived else sampleWire.readRequest lines
  readResponse := sampleWire.readResponse

theorem framed_earlyWire : earlyWire.Framed := by
  intro request header hwrite
  dsimp only [earlyWire] at hwrite
  split at hwrite
  · cases hwrite
    exact ⟨earlyLines, headerBlock_crlfLines (by decide +kernel)⟩
  · exact framed_sampleWire request header hwrite

/-- The request in a segment of its own.  Nothing follows it. -/
def earlyUpload : Source := { segments := [⟨crlfLines (earlyLines ++ [[]]), by decide⟩] }

theorem upload_earlyClient :
    earlyClient.upload earlyWire [[104, 105]] = .opened earlyUpload.content := by
  have hwrite : earlyWire.writeRequest (earlyClient.earlyRequest [104, 105]) =
      .ok (crlfLines (earlyLines ++ [[]])) := by
    dsimp only [earlyWire]
    exact if_pos rfl
  have hsplit : earlyClient.splitEarly [104, 105] = ([104, 105], []) := by decide +kernel
  rw [upload, dial, if_neg (by decide), foldl_cons,
    foldl_nil, write, writeRequest, hsplit,
    send, hwrite]
  rfl

theorem accepts_earlyReceived :
    (newServer earlyOptions).Accepts earlyReceived where
  host := .inr rfl
  path := by decide +kernel
  method := rfl
  connection := by decide +kernel
  upgrade := by decide +kernel
  key := by decide +kernel

/-- **Early data is lost**, even if nothing is read ahead and the server accepts the request. -/
theorem earlyData_lost :
    earlyWire.Framed ∧
    newClient .ok "localhost:80" none earlyOptions = .ok earlyClient ∧
    earlyClient.upload earlyWire [[104, 105]] = .opened earlyUpload.content ∧
    (∃ conn, (newServer earlyOptions).serve earlyWire false earlyUpload =
      some (.ok (switchingProtocols, conn))) ∧
    ¬UploadTransparent earlyWire (.newServer earlyOptions) false earlyUpload [104, 105] := by
  have hheader : HeaderBlock (crlfLines (earlyLines ++ [[]])) earlyLines :=
    headerBlock_crlfLines (by decide +kernel)
  have hsource : earlyUpload.content = crlfLines (earlyLines ++ [[]]) ++ [] := rfl
  have hrequest : earlyWire.readRequest earlyLines = .ok earlyReceived := by
    dsimp only [earlyWire]
    exact if_pos rfl
  obtain ⟨r, hread, hbuf, hrest⟩ := readHeader_split hheader hsource
  refine ⟨framed_earlyWire, rfl, upload_earlyClient,
    ⟨(hijack false r).1, ?_⟩, fun htransparent => ?_⟩
  · rw [serve, hread, serveHeader, hrequest]
    exact congrArg some (serveHTTP_eq_ok.2 ⟨accepts_earlyReceived, rfl⟩)
  · obtain ⟨-, -, -, hcontent⟩ := (uploadTransparent_iff hread).1 htransparent
    have hsplit := content_hijack false r
    rw [hcontent, BufReader.content, hbuf, ← hrest] at hsplit
    exact absurd hsplit (by simp)

end SingBox
