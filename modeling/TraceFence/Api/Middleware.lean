import TraceFence.Lib.Dialogue
import TraceFence.RateLimits

/-!
# What stands before the API

`api/middleware.py`: the limit on the size of a request, the limit on the rate of requests and the
headers of every response. The rest of the application is any dialogue that receives and sends the
messages of one request. A byte is a character below 256. What Python's `ipaddress` and `hashlib`
compute are parameters, and so is what comes over the network.

## Main definitions

* `Scope`, `Received`, `Sent` — a request and its messages
* `requestSizeLimit`, `rateLimit`, `securityHeaders` — the three layers
* `guarded` — the layers as `api/main.py` puts them around the application
-/

namespace TraceFence

/-! ### Messages -/

/-- A byte is a character below 256. -/
abbrev Bytes := List Char

/-- The scope of a connection. -/
structure Scope where
  type : String := "http"
  method : Option String := none
  path : String := ""
  headers : List (Bytes × Bytes) := []
  /-- The first component of `client`, if that is a tuple that has one. -/
  client : Option String := none

inductive Received
  | request (body : Bytes := []) (moreBody : Bool := false)
  /-- A message of another type. -/
  | other (type : String)

inductive Sent
  | start (status : ℕ) (headers : List (Bytes × Bytes))
  | body (body : Bytes)
  /-- A message of another type. -/
  | other (type : String)

inductive AsgiError
  /-- `_RequestBodyTooLarge`. -/
  | bodyTooLarge
  /-- Any other exception. -/
  | other (name : String)
  deriving DecidableEq

/-- An application, once it has its scope. -/
abbrev App := Dialogue Received Sent AsgiError

/-- `bytes.lower`. -/
def lowerBytes (value : Bytes) : Bytes :=
  value.map fun c => if 'A' ≤ c ∧ c ≤ 'Z' then Char.ofNat (c.toNat + 32) else c

def isSpace (c : Char) : Bool := c = ' ' || ('\t' ≤ c && c ≤ '\r')

/-- `bytes.strip`. -/
def stripBytes (value : Bytes) : Bytes :=
  ((value.dropWhile isSpace).reverse.dropWhile isSpace).reverse

/-- The last header with a name, whatever the case of its letters. -/
def Scope.header? (scope : Scope) (name : String) : Option Bytes :=
  ((scope.headers.filter fun header => lowerBytes header.1 = name.toList).getLast?).map (·.2)

/-- `JSONResponse`, with the body of an error. -/
def jsonResponse (status : ℕ) (code message : String) (headers : List (Bytes × Bytes) := []) : App :=
  let body := ("\x7b\"error\":\x7b\"code\":\"" ++ code ++ "\",\"message\":\"" ++ message ++
    "\"\x7d\x7d").toList
  .send (.start status (headers ++ [("content-length".toList, (toString body.length).toList),
    ("content-type".toList, "application/json".toList)])) (.send (.body body) .stop)

/-! ### `RequestSizeLimitMiddleware` -/

/-- The digits of a number, which single underscores may separate. -/
def scanDigits : Bytes → Option (List ℕ)
  | [] => none
  | [c] => if c.isDigit then some [c.toNat - 48] else none
  | c :: '_' :: rest => if c.isDigit then ((c.toNat - 48) :: ·) <$> scanDigits rest else none
  | c :: rest => if c.isDigit then ((c.toNat - 48) :: ·) <$> scanDigits rest else none

/-- `int` of bytes, with the default limit on the number of digits. -/
def parseInt (value : Bytes) : Option ℤ :=
  let (sign, digits) : ℤ × Bytes :=
    match stripBytes value with
    | '-' :: rest => (-1, rest)
    | '+' :: rest => (1, rest)
    | rest => (1, rest)
  ((scanDigits digits).filter fun ds => ds.length ≤ 4300).map fun ds =>
    sign * (ds.foldl (fun n d => 10 * n + d) 0 : ℕ)

/-- The number of body bytes in what is received. -/
def bodyLength : Except AsgiError Received → ℕ
  | .ok (.request body _) => body.length
  | .ok (.other _) | .error _ => 0

/-- `limited_receive`, with the number of bytes received before. -/
def limitedReceive (maxBytes : ℕ) (received : ℕ) (message : Except AsgiError Received) :
    ℕ × Except AsgiError Received :=
  match message with
  | .ok (.request body moreBody) =>
    let received := received + body.length
    (received, if maxBytes < received then .error .bodyTooLarge else .ok (.request body moreBody))
  | message => (received, message)

/-- Whether a message is `http.response.start`. -/
def Sent.isStart : Sent → Bool
  | .start _ _ => true
  | .body _ | .other _ => false

/-- `_send_too_large`. -/
def tooLarge : App :=
  jsonResponse 413 "REQUEST_TOO_LARGE" "Request body exceeds the configured limit"

/-- The exception that the middleware handles. -/
def handleTooLarge (e : AsgiError) : Option App := if e = .bodyTooLarge then some tooLarge else none

/-- The application behind `limited_receive` and `tracked_send`. -/
def limitBody (maxBytes : ℕ) (app : App) : App :=
  (app.filter (limitedReceive maxBytes) 0).rescue Sent.isStart handleTooLarge false

def invalidContentLength : App :=
  jsonResponse 400 "INVALID_CONTENT_LENGTH" "Invalid Content-Length header"

/-- The methods whose requests have a body that is limited. -/
def Scope.limitsBody (scope : Scope) : Prop :=
  scope.type = "http" ∧ scope.method ∈ [some "POST", some "PUT", some "PATCH"]

instance (scope : Scope) : Decidable scope.limitsBody :=
  inferInstanceAs (Decidable (_ ∧ _))

/-- `RequestSizeLimitMiddleware`. -/
def requestSizeLimit (maxBytes : ℕ) (scope : Scope) (app : App) : App :=
  if scope.limitsBody then
    match scope.header? "content-length" with
    | none => limitBody maxBytes app
    | some rawLength =>
      match parseInt rawLength with
      | none => invalidContentLength
      | some declared =>
        if declared < 0 then invalidContentLength
        else if (maxBytes : ℤ) < declared then tooLarge
        else limitBody maxBytes app
  else app

/-! ### `RateLimitMiddleware` -/

/-- The settings of the middleware, and what it uses of Python. -/
structure ApiLimits where
  maxRequestBytes : ℕ
  requestsPerMinute : ℕ
  proofRequestsPerMinute : ℕ
  maxBuckets : ℕ
  trustedProxyHosts : List String := []
  /-- `settings.operator_key`, empty if there is none. -/
  operatorKey : String := ""
  /-- `str(ipaddress.ip_address(value))`, for ASCII text. -/
  ipAddress : Bytes → Option String
  /-- `hashlib.sha256(value).hexdigest()[:24]`. -/
  digest : Bytes → String

variable (limits : ApiLimits)

def isAscii (value : Bytes) : Bool := value.all fun c => c.toNat < 128

/-- `_client_host`. -/
def clientHost (scope : Scope) : String :=
  let directHost := scope.client.getD "unknown"
  if directHost ∈ limits.trustedProxyHosts then
    let forwarded := stripBytes
      (((scope.header? "x-forwarded-for").getD []).takeWhile fun c => c ≠ ',')
    ((if isAscii forwarded then limits.ipAddress forwarded else none)).getD directHost
  else directHost

/-- `operator_key_matches`. -/
def operatorKeyMatches (candidate : Bytes) : Prop :=
  limits.operatorKey ≠ "" ∧ candidate = limits.operatorKey.toList

instance (candidate : Bytes) : Decidable (operatorKeyMatches limits candidate) :=
  inferInstanceAs (Decidable (_ ∧ _))

/-- `_operator_key`. -/
def operatorKeyOf (scope : Scope) : Option String :=
  (scope.header? "x-operator-key").bind fun raw =>
    if isAscii raw ∧ operatorKeyMatches limits raw then some ("operator:" ++ limits.digest raw)
    else none

/-- `path.startswith("/v1/")`. -/
def Scope.isApi (scope : Scope) : Bool := "/v1/".toList.isPrefixOf scope.path.toList

/-- `is_proof`. -/
def Scope.isProof (scope : Scope) : Bool :=
  "/v1/commands/".toList.isPrefixOf scope.path.toList &&
    "/proof".toList.isSuffixOf scope.path.toList

/-- Whether the rate of these requests is limited. -/
def Scope.counts (scope : Scope) : Prop := scope.type = "http" ∧ scope.isApi = true

instance (scope : Scope) : Decidable scope.counts := inferInstanceAs (Decidable (_ ∧ _))

/-- The keys a request is counted under, with their limits: that of the client, and that of the
operator. -/
def Scope.clientKey (scope : Scope) : String := "ip-abuse:" ++ clientHost limits scope

def Scope.operatorBucket (scope : Scope) : Option (String × ℕ) :=
  (operatorKeyOf limits scope).map fun operator =>
    if scope.isProof then ("proof:" ++ operator, limits.proofRequestsPerMinute)
    else ("operator:" ++ operator, limits.requestsPerMinute)

/-- What `__call__` does under its lock. -/
def retryAfter (buckets : Buckets String) (now : ℚ) (scope : Scope) : Buckets String × ℤ :=
  let client := consume limits.maxBuckets buckets (scope.clientKey limits) limits.requestsPerMinute now
  match scope.operatorBucket limits with
  | some (key, limit) =>
    if client.2 = 0 then consume limits.maxBuckets client.1 key limit now else client
  | none => client

def rateLimitExceeded (seconds : ℤ) : App :=
  jsonResponse 429 "RATE_LIMIT_EXCEEDED" "Request rate limit exceeded"
    [("retry-after".toList, (toString seconds).toList)]

/-- `RateLimitMiddleware`. -/
def rateLimit (buckets : Buckets String) (now : ℚ) (scope : Scope) (app : App) :
    Buckets String × App :=
  if scope.counts then
    let (buckets, seconds) := retryAfter limits buckets now scope
    (buckets, if seconds ≠ 0 then rateLimitExceeded seconds else app)
  else (buckets, app)

/-- A request to the API, and when it comes. -/
structure ApiRequest where
  scope : Scope
  now : ℚ

/-- The table of the middleware, and the requests that it has let pass. -/
structure Gate where
  buckets : Buckets String := []
  passed : List ApiRequest := []

/-- A request comes to the middleware. -/
def Gate.serve (gate : Gate) (request : ApiRequest) : Gate :=
  if request.scope.counts then
    let (buckets, seconds) := retryAfter limits gate.buckets request.now request.scope
    { buckets := buckets
      passed := gate.passed ++ if seconds ≠ 0 then [] else [request] }
  else { gate with passed := gate.passed ++ [request] }

/-- Requests come to the middleware, in order. -/
def serveApi (requests : List ApiRequest) : Gate := requests.foldl (Gate.serve limits) {}

/-! ### `SecurityHeadersMiddleware` -/

def securityHeaderFields : List (Bytes × Bytes) :=
  [("content-security-policy", "default-src 'self'; script-src 'self'; style-src 'self' " ++
      "'unsafe-inline'; connect-src 'self'; img-src 'self' data:; object-src 'none'; " ++
      "base-uri 'none'; frame-ancestors 'none'"),
    ("x-content-type-options", "nosniff"),
    ("x-frame-options", "DENY"),
    ("referrer-policy", "no-referrer"),
    ("permissions-policy", "camera=(), microphone=(), geolocation=()"),
    ("cross-origin-opener-policy", "same-origin")].map fun field =>
    (field.1.toList, field.2.toList)

/-- Whether a response must not be cached unless it says otherwise. -/
def Scope.isPrivate (scope : Scope) : Bool := scope.path = "/health" || scope.isApi

/-- `secure_send`. -/
def secure (scope : Scope) : Sent → Sent
  | .start status headers =>
    let headers := headers ++ securityHeaderFields
    .start status (if scope.isPrivate ∧ ¬ headers.any (fun header => lowerBytes header.1 =
        "cache-control".toList) then
      headers ++ [("cache-control".toList, "no-store, private".toList)] else headers)
  | message => message

/-- `SecurityHeadersMiddleware`. -/
def securityHeaders (scope : Scope) (app : App) : App :=
  if scope.type = "http" then app.mapSent (secure scope) else app

/-! ### The layers -/

/-- The application behind the middleware. -/
def guarded (buckets : Buckets String) (now : ℚ) (scope : Scope) (app : App) :
    Buckets String × App :=
  let (buckets, limited) := rateLimit limits buckets now scope
    (requestSizeLimit limits.maxRequestBytes scope app)
  (buckets, securityHeaders scope limited)

/-- Six bytes, two requests a minute and one for a proof. -/
def sampleLimits : ApiLimits where
  maxRequestBytes := 6
  requestsPerMinute := 2
  proofRequestsPerMinute := 1
  maxBuckets := 4
  ipAddress := fun _ => none
  digest := fun key => String.ofList key

end TraceFence
