import Shairplay.Proto.Digest.Header
import Shairplay.Raop.Connection
import Shairplay.Raop.Handlers.Control

/-!
# Request dispatch

A request is authenticated, resolved to a handler by the route table or by the methods with
rules of their own, and answered. Handlers are named by an enumeration, so that which one a
request reaches can be stated.
-/

namespace Shairplay.Raop

open Lib Proto Crypto

/-- The handlers. -/
inductive Endpoint
  | pairSetup | pairSetupAp1 | pairVerify | pairVerifyAp1 | pairPinStart | fpSetup
  | feedback | command | audioMode
  | options | announce | getParameter | setParameter
  | setRateAnchorTime | setPeers | flushBuffered | info
  | serverInfo | play | playbackInfo | stop | scrub | rate
  | authSetup | setup | setupAp1 | record | recordAp2 | flush | teardown
  deriving DecidableEq

/-- A route: a method, a path or `*`, and the handler. -/
structure Route where
  method : String
  path : String
  endpoint : Endpoint

section Routes

variable (features : Features)

def gated (included : Bool) (routes : List Route) : List Route := if included then routes else []

/-- The route table; the first match wins. -/
def routes : List Route :=
  gated features.ap2 [⟨"POST", "/pair-setup", .pairSetup⟩] ++
  gated (!features.ap2) [⟨"POST", "/pair-setup", .pairSetupAp1⟩] ++
  gated features.ap2
    [⟨"POST", "/pair-verify", .pairVerify⟩, ⟨"POST", "/pair-pin-start", .pairPinStart⟩] ++
  gated (!features.ap2) [⟨"POST", "/pair-verify", .pairVerifyAp1⟩] ++
  [⟨"POST", "/fp-setup", .fpSetup⟩] ++
  gated features.ap2
    [⟨"POST", "/feedback", .feedback⟩, ⟨"POST", "/command", .command⟩,
      ⟨"POST", "/audioMode", .audioMode⟩] ++
  [⟨"OPTIONS", "*", .options⟩, ⟨"ANNOUNCE", "*", .announce⟩,
    ⟨"GET_PARAMETER", "*", .getParameter⟩, ⟨"SET_PARAMETER", "*", .setParameter⟩] ++
  gated features.ap2
    [⟨"SETRATEANCHORTIME", "*", .setRateAnchorTime⟩, ⟨"SETPEERS", "*", .setPeers⟩,
      ⟨"SETPEERSX", "*", .setPeers⟩, ⟨"FLUSHBUFFERED", "*", .flushBuffered⟩,
      ⟨"GET", "/info", .info⟩] ++
  gated features.hls
    [⟨"GET", "/server-info", .serverInfo⟩, ⟨"POST", "/play", .play⟩,
      ⟨"GET", "/playback-info", .playbackInfo⟩, ⟨"POST", "/stop", .stop⟩,
      ⟨"POST", "/scrub", .scrub⟩, ⟨"POST", "/rate", .rate⟩]

end Routes

def urlPath (url : String) : String := String.ofList (url.toList.takeWhile (· ≠ '?'))

def Route.accepts (route : Route) (method url : String) : Bool :=
  route.method == method && (route.path == "*" || route.path == urlPath url)

variable (env : Platform) (config : RaopConfig)

/-- `pipewire_auth_setup_route`: an exact target, and only before a pairing. -/
def pipewireAuthSetupRoute (conn : RaopConnection) (request : Request) : Bool :=
  config.features.pipewireAuthSetupCompat && config.pipewireAuthSetupCompat &&
    !(config.features.ap2 && conn.isAp2) &&
    request.method = some "POST" && request.url = some "/auth-setup"

/-- `request_body_policy`. -/
def requestBodyPolicy (conn : RaopConnection) (request : Request) : Except ProtocolError Nat :=
  if pipewireAuthSetupRoute config conn request then authSetupBodyPolicy request
  else .ok maxBodyBytes

/-- A body that starts as a binary property list does. -/
def isPlist (request : Request) : Bool :=
  match request.body with
  | some data => (Utf8.encode "bplist").isPrefixOf data
  | none => false

/-- `resolve_setup`: a pairing or a property list selects the second protocol version. -/
def resolveSetup (conn : RaopConnection) (request : Request) : Endpoint :=
  if config.features.ap2 && (conn.isAp2 || isPlist request) then .setup else .setupAp1

def resolveRecord (conn : RaopConnection) : Endpoint :=
  if config.features.ap2 && conn.isAp2 then .recordAp2 else .record

/-- `resolve_handler`. -/
def resolveHandler (conn : RaopConnection) (request : Request) (method url : String) :
    Option Endpoint :=
  if pipewireAuthSetupRoute config conn request then some .authSetup
  else
    match (routes config.features).find? fun route => route.accepts method url with
    | some route => some route.endpoint
    | none =>
      if method = "SETUP" then some (resolveSetup config conn request)
      else if method = "RECORD" then some (resolveRecord config conn)
      else if method = "FLUSH" then some .flush
      else if method = "TEARDOWN" then some .teardown
      else none

def Endpoint.handler : Endpoint → Handler
  | .pairSetup => handlePairSetup env config
  | .pairSetupAp1 => handlePairSetupAp1 env config
  | .pairVerify => handlePairVerify env config
  | .pairVerifyAp1 => handlePairVerifyAp1 env config
  | .pairPinStart => handlePairPinStart
  | .fpSetup => handleFpSetup env
  | .feedback => handleFeedback env
  | .command => handleCommand env
  | .audioMode => handleAudioMode
  | .options => handleOptions config
  | .announce => handleAnnounce env
  | .getParameter => handleGetParameter
  | .setParameter => handleSetParameter env
  | .setRateAnchorTime => handleSetRateAnchorTime env
  | .setPeers => handleSetPeers
  | .flushBuffered => handleFlushBuffered env
  | .info => handleInfo env config
  | .serverInfo => handleServerInfo env config
  | .play => handlePlay env config
  | .playbackInfo => handlePlaybackInfo env
  | .stop => handleStop
  | .scrub => handleScrub env
  | .rate => handleRate env
  | .authSetup => handleAuthSetup
  | .setup => handleSetup env config
  | .setupAp1 => handleSetupAp1
  | .record => handleRecord
  | .recordAp2 => handleRecordAp2
  | .flush => fun w request response => .none (handleFlushInline w request) response
  | .teardown => handleTeardown config

def digestRealm : String := "airplay"

/-- The guard of the password: OPTIONS is free, and so is a server without a password. -/
def authenticated (conn : RaopConnection) (request : Request) : Bool :=
  let method := request.method.getD ""
  method = "OPTIONS" || config.password.isEmpty ||
    Digest.isValid env.md5 digestRealm.toList config.password.toList conn.nonce.toList
      method.toList (request.url.getD "").toList
      ((request.header "Authorization").map String.toList)

def cseqOf (request : Request) : String := (request.header "CSeq").getD "0"

/-- The challenge for a client that did not authenticate. -/
def unauthorized (conn : RaopConnection) (request : Request) : HttpResponse :=
  ((newResponse 401 "Unauthorized" (cseqOf request)).addHeader "WWW-Authenticate"
    ("Digest realm=\"" ++ digestRealm ++ "\", nonce=\"" ++ conn.nonce ++ "\"")).finish none

def notFound (request : Request) : HttpResponse :=
  (newResponse 404 "Not Found" (cseqOf request)).finish none

/-- The response that handlers complete, with the answer to an Apple challenge. -/
def acceptedResponse (conn : RaopConnection) (request : Request) : HttpResponse :=
  let response := (newResponse 200 "OK" (cseqOf request)).addHeader "Apple-Jack-Status"
    "connected; type=analog"
  match (request.header "Apple-Challenge").bind fun challenge =>
      env.signChallenge challenge conn.localAddr config.hwaddr with
  | some signature => response.addHeader "Apple-Response" signature
  | none => response

/-- The part of `dispatch` behind the guard: resolve the route and run its handler. -/
def route (w : World) (request : Request) : World × HttpResponse :=
  match resolveHandler config w.conn request (request.method.getD "") (request.url.getD "") with
  | none => (w, notFound request)
  | some endpoint =>
    let outcome := endpoint.handler env config w request
      (acceptedResponse env config w.conn request)
    (outcome.world, outcome.response.finish outcome.body)

/-- `dispatch`. -/
def dispatch (w : World) (request : Request) : World × HttpResponse :=
  if !authenticated env config w.conn request then (w, unauthorized w.conn request)
  else route env config w request

/-- The handler that a request runs, if any. -/
def handledBy (conn : RaopConnection) (request : Request) : Option Endpoint :=
  if authenticated env config conn request then
    resolveHandler config conn request (request.method.getD "") (request.url.getD "")
  else none

variable {env config}

/-- What a dispatched request leaves behind is what its handler leaves behind. -/
theorem dispatch_world (w : World) (request : Request) :
    (dispatch env config w request).1 =
      match handledBy env config w.conn request with
      | none => w
      | some endpoint =>
        (endpoint.handler env config w request
          (acceptedResponse env config w.conn request)).world := by
  unfold dispatch handledBy
  cases authenticated env config w.conn request with
  | false => rfl
  | true =>
    simp only [Bool.not_true, Bool.false_eq_true, if_false, if_true, route]
    cases resolveHandler config w.conn request (request.method.getD "") (request.url.getD "") <;>
      rfl

/-- The header of a request authorizes it on a connection. -/
def HasAuthorization (env : Platform) (config : RaopConfig) (conn : RaopConnection)
    (request : Request) : Prop :=
  ∃ auth, request.header "Authorization" = some auth ∧
    Digest.Authorizes env.md5 digestRealm.toList config.password.toList conn.nonce.toList
      (request.method.getD "").toList (request.url.getD "").toList auth.toList

theorem authenticated_iff {conn : RaopConnection} {request : Request}
    (password : config.password ≠ "") (method : request.method.getD "" ≠ "OPTIONS") :
    authenticated env config conn request = true ↔ HasAuthorization env config conn request := by
  have guarded : config.password.isEmpty = false := by
    simpa [String.isEmpty_iff] using password
  simp only [authenticated, method, guarded, decide_false, Bool.or_false, Bool.false_or]
  cases header : request.header "Authorization" with
  | none => simp [HasAuthorization, header, Digest.isValid]
  | some auth => simp [HasAuthorization, header, Digest.isValid_iff]

/-- A configuration without options. -/
def plainConfig : RaopConfig where
  features := ⟨true, false, false, false⟩
  hwaddr := [0x48, 0x5d, 0x60, 0x7c, 0xee, 0x22]
  password := ""
  pipewireAuthSetupCompat := false
  identitySeed := List.replicate 32 0
  pairingSeed := List.replicate 32 0
  pin := none
  deviceId := "48:5d:60:7c:ee:22"
  pairingId := "pi"
  airplayName := "Receiver"
  outputSampleRate := none
  outputMaxChannels := none
  hasVideoHandler := false
  hasHlsHandler := false

/-- A hash that tells nothing apart. -/
def zeroHash (_ : List UInt8) : List UInt8 := List.replicate 64 0

theorem length_zeroHash (data : List UInt8) : (zeroHash data).length = 64 := List.length_replicate

/-- Surroundings in which every third-party call fails or returns nothing. -/
def inertPlatform : Platform where
  crypto :=
    { aead := ⟨fun _ _ _ _ => none, fun _ _ _ _ => none⟩, hkdf := fun _ _ _ _ => none
      sha512 := ⟨zeroHash, length_zeroHash⟩
      ed25519 := ⟨fun _ => [], fun _ _ => [], fun _ => false, fun _ _ _ => false⟩
      x25519 := ⟨fun _ => [], fun _ _ => []⟩ }
  md5 := fun _ => []
  plistFromBytes := fun _ => none
  plistToBinary := fun _ => none
  plistToXml := fun _ => none
  signChallenge := fun _ _ _ => none
  rsaDecrypt := fun _ => .error .rsaDecrypt
  base64Decode := fun _ => .error .rsaDecrypt
  aesCtr := fun _ _ data => data
  parseFloat := fun _ => none
  log10 := fun x => x
  fairplayReply := fun _ => []
  playfairDecrypt := fun _ _ => []

end Shairplay.Raop
