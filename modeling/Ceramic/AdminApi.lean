import Ceramic.AdminCodes
import Ceramic.IndexTables
import Ceramic.Program

/-! The daemon's admin endpoints: `_validateAdminApiJWS`, `_verifyActingDid`, and the three
entry points that guard an admin action with them, `_processAdminModelsMutationRequest`
(behind `startIndexingModels` and `stopIndexingModels`), `_checkAdminAPIGETRequestAuthorization`
(behind `nodeStatus` and `getIndexedModels`) and the pins middleware `validateAdminRequest`.

A request is an `EStateM` program over the daemon's admin-code cache, the request's Express
response, and a log of the admin actions performed. The response is sent at most once: a second
`res.json` throws, as Express does. The `catch` blocks of the entry points write a 401 and fall
through, so whether the action runs depends on the JWS validation alone
(`processAdminModelsMutationRequest_actions`, `checkAdminAPIGETRequestAuthorization_result`,
`validateAdminRequest_actions`); `rejected_code_still_runs_action` runs each entry point on a
request whose code is not in the cache. `_verifyActingDid` compares DIDs by string prefix
(`verifyActingDid_ok_iff`). What the entry points do check is the JWS: every action they perform
rests on one that verifies, is signed for the request's own path and holds an admin code
(`admin_actions_signed_for_path`). -/
namespace Ceramic.AdminApi
open Ceramic.Json Ceramic.AdminCodes Ceramic.IndexTables

/-! ## Strings as JavaScript reads them -/

/-- `s.startsWith(searchString)`. -/
def startsWith (s searchString : String) : Bool := searchString.toList.isPrefixOf s.toList

/-- The characters after the first occurrence of `separator`, if it occurs. -/
def dropThrough (separator : List Char) : List Char → Option (List Char)
  | [] => none
  | c :: cs =>
    if separator.isPrefixOf (c :: cs) then some ((c :: cs).drop separator.length)
    else dropThrough separator cs

/-- The characters before the first occurrence of `separator`, all of them when it does not
occur. -/
def takeUntil (separator : List Char) : List Char → List Char
  | [] => []
  | c :: cs => if separator.isPrefixOf (c :: cs) then [] else c :: takeUntil separator cs

/-- `s.split(separator)[1]` for a non-empty separator: `undefined` when it does not occur. -/
def secondPiece (s separator : String) : Option String :=
  (dropThrough separator.toList s.toList).map fun rest => ⟨takeUntil separator.toList rest⟩

/-- JavaScript truthiness of a string that may be `undefined`. -/
def truthyString : Option String → Bool
  | some s => s ≠ ""
  | none => false

/-! ## Requests and responses -/

/-- The `StatusCodes` the admin endpoints send. -/
inductive StatusCode where
  | ok
  | badRequest
  | unauthorized
  | unprocessableEntity
  deriving DecidableEq, Repr

/-- The number of a status code. -/
def StatusCode.code : StatusCode → Nat
  | .ok => 200
  | .badRequest => 400
  | .unauthorized => 401
  | .unprocessableEntity => 422

/-- The parts of an Express `Request` the admin endpoints read. -/
structure Request where
  baseUrl : String
  /-- `req.body.jws`. -/
  jws : Option String
  /-- `req.headers.authorization`. -/
  authorization : Option String

/-- What a guarded endpoint protects. -/
inductive AdminAction where
  /-- `ceramic.admin.startIndexingModels(models)`. -/
  | startIndexingModels (models : Option (List StreamID))
  /-- `ceramic.admin.stopIndexingModels(models)`. -/
  | stopIndexingModels (models : Option (List StreamID))
  /-- `next()` into the pin handlers. -/
  | next
  /-- `ceramic.admin.nodeStatus()`. -/
  | nodeStatus
  /-- `ceramic.admin.getIndexedModels()`. -/
  | getIndexedModels
  deriving DecidableEq, Repr

/-- What an admin request reads and writes: the daemon's admin-code cache, the response it
sends, and the admin actions performed, oldest first. -/
structure Exchange where
  adminCodeCache : AdminCodeCache
  response : Option (StatusCode × JsValue)
  actions : List AdminAction

/-- The signed payload's `requestBody`. -/
structure RequestBody where
  models : Option (List String)

/-- The payload of an admin JWS, with the fields `_parseAdminApiJWS` reads. -/
structure AdminPayload where
  code : Option String
  requestPath : Option String
  requestBody : Option RequestBody

/-- What `ceramic.did.verifyJWS` returns for a JWS it verifies. -/
structure VerifiedJWS where
  kid : String
  payload : AdminPayload

/-- What a request consults outside the daemon's state. -/
structure AdminEnv where
  /-- `this.adminDids`. -/
  adminDids : List String
  /-- `ceramic.did.verifyJWS`; `.error` with the message when it throws. -/
  verifyJWS : String → Except String VerifiedJWS
  /-- `StreamID.fromString`; `.error` when it throws. -/
  streamIdFromString : String → Except String StreamID
  /-- `new Date().getTime()` in `_verifyAndDiscardAdminCode`. -/
  now : Timestamp
  /-- What the `ceramic.admin` mutation resolves to, or the message it throws. -/
  mutationResult : Except String Unit
  /-- `ceramic.admin.nodeStatus()`. -/
  nodeStatusResult : Except String JsValue
  /-- `ceramic.admin.getIndexedModels()`. -/
  indexedModelsResult : Except String (List StreamID)

/-- `{ error: message }`. -/
def errorBody (message : String) : JsValue := .obj [("error", .str message)]

def headersSentMessage : String := "Cannot set headers after they are sent to the client"

/-- `res.status(status).json(body)`: Express refuses to send a second response. -/
def sendJson (status : StatusCode) (body : JsValue) : EStateM String Exchange Unit := do
  let s ← get
  if s.response.isSome then throw headersSentMessage
  set { s with response := some (status, body) }

/-- Perform a protected action. -/
def perform (action : AdminAction) : EStateM String Exchange Unit :=
  modify fun s => { s with actions := s.actions ++ [action] }

/-- A step of the admin-code store, on the daemon's cache. -/
def onCache {α : Type} (x : EStateM String AdminCodeCache α) : EStateM String Exchange α :=
  fun s => match x.run s.adminCodeCache with
    | .ok a cache => .ok a { s with adminCodeCache := cache }
    | .error e cache => .error e { s with adminCodeCache := cache }

/-! ## Validating the JWS -/

/-- `AdminAPIJWSContents`. -/
structure AdminAPIJWSContents where
  kid : String
  code : Option String
  requestPath : Option String
  models : Option (List String)

/-- `_parseAdminApiJWS`. -/
def parseAdminApiJWS (env : AdminEnv) (jws : String) : Except String AdminAPIJWSContents := do
  let result ← env.verifyJWS jws
  pure { kid := result.kid, code := result.payload.code,
         requestPath := result.payload.requestPath,
         models := result.payload.requestBody.bind (·.models) }

/-- `AdminApiJWSValidationResult`: either only `error`, or `kid`, `code` and `models`, which
are the two shapes `_validateAdminApiJWS` returns. -/
inductive AdminApiJWSValidationResult where
  | invalid (error : String)
  | valid (kid code : String) (models : Option (List StreamID))

def missingJwsMessage : String := "Missing authorization jws"

def requestPathMessage (requestPath : Option String) (basePath : String) : String :=
  "The jws block contains a request path (" ++ requestPath.getD "undefined" ++
    ") that doesn\x27t match the request (" ++ basePath ++ ")"

def missingCodeMessage : String := "Admin code is missing from the the jws block"

def missingModelsMessage : String :=
  "The \x27models\x27 parameter is required and it has to be an array containing at least one model stream id"

/-- `_validateAdminApiJWS`; `.error` when `StreamID.fromString` throws. -/
def validateAdminApiJWS (env : AdminEnv) (basePath : String) (jws : Option String)
    (shouldContainModels : Bool) : Except String AdminApiJWSValidationResult :=
  match jws with
  | none => .ok (.invalid missingJwsMessage)
  | some jws =>
    if jws = "" then .ok (.invalid missingJwsMessage) else
    match parseAdminApiJWS env jws with
    | .error message =>
      .ok (.invalid ("Error while processing the authorization header " ++ message))
    | .ok parsedJWS =>
      if parsedJWS.requestPath ≠ some basePath then
        .ok (.invalid (requestPathMessage parsedJWS.requestPath basePath))
      else match parsedJWS.code with
      | none => .ok (.invalid missingCodeMessage)
      | some code =>
        if code = "" then .ok (.invalid missingCodeMessage)
        else if shouldContainModels && (parsedJWS.models.getD []).isEmpty then
          .ok (.invalid missingModelsMessage)
        else do
          let models ← parsedJWS.models.mapM fun ids => ids.mapM env.streamIdFromString
          pure (.valid parsedJWS.kid code models)

/-! ## Authorizing the caller -/

def unauthorizedDidMessage (actingDid : String) : String :=
  "Unauthorized access: DID \x27" ++ actingDid ++ "\x27 does not have admin access permission to this node"

/-- `_verifyActingDid`. -/
def verifyActingDid (adminDids : List String) (actingDid : String) : Except String Unit :=
  if !adminDids.any (fun adminDid => startsWith actingDid adminDid) then
    .error (unauthorizedDidMessage actingDid)
  else .ok ()

/-- The `try` block of the entry points: discard the admin code, then check the acting DID. -/
def authorize (env : AdminEnv) (kid code : String) : EStateM String Exchange Unit := do
  onCache (verifyAndDiscardAdminCode code env.now)
  liftExcept (verifyActingDid env.adminDids kid)

/-- `try { ... } catch (e) { res.status(UNAUTHORIZED).json({ error: e.message }) }`. -/
def authorizeOrReport (env : AdminEnv) (kid code : String) : EStateM String Exchange Unit :=
  tryCatch (authorize env kid code) fun message => sendJson .unauthorized (errorBody message)

/-! ## Entry points -/

def missingHeaderMessage : String := "Missing authorization header"

def headerFormatMessage : String :=
  "Invalid authorization header format. It needs to be \x27Authorization: Basic <JWS BLOCK>\x27"

/-- `_processAdminModelsMutationRequest`, for the mutation `successCallback` names. -/
def processAdminModelsMutationRequest (env : AdminEnv) (req : Request)
    (successCallback : Option (List StreamID) → AdminAction) : EStateM String Exchange Unit := do
  match ← liftExcept (validateAdminApiJWS env req.baseUrl req.jws true) with
  | .invalid error => sendJson .unprocessableEntity (errorBody error)
  | .valid kid code models =>
    authorizeOrReport env kid code
    perform (successCallback models)
    liftExcept env.mutationResult
    sendJson .ok (.obj [("result", .str "success")])

/-- `startIndexingModels`. -/
def startIndexingModels (env : AdminEnv) (req : Request) : EStateM String Exchange Unit :=
  processAdminModelsMutationRequest env req .startIndexingModels

/-- `stopIndexingModels`. -/
def stopIndexingModels (env : AdminEnv) (req : Request) : EStateM String Exchange Unit :=
  processAdminModelsMutationRequest env req .stopIndexingModels

/-- The JWS of an `Authorization: Basic <JWS>` header, or the response refusing the header. -/
def headerJws (authorization : Option String) : Except (StatusCode × String) String :=
  match authorization with
  | none => .error (.unauthorized, missingHeaderMessage)
  | some authorization =>
    if authorization = "" then .error (.unauthorized, missingHeaderMessage) else
    match secondPiece authorization "Basic " with
    | some jwsString => if jwsString = "" then .error (.badRequest, headerFormatMessage) else .ok jwsString
    | none => .error (.badRequest, headerFormatMessage)

/-- `_checkAdminAPIGETRequestAuthorization`. -/
def checkAdminAPIGETRequestAuthorization (env : AdminEnv) (req : Request) :
    EStateM String Exchange Bool := do
  match headerJws req.authorization with
  | .error (status, message) => sendJson status (errorBody message); return false
  | .ok jwsString =>
    match ← liftExcept (validateAdminApiJWS env req.baseUrl (some jwsString) false) with
    | .invalid error => sendJson .unauthorized (errorBody error); return false
    | .valid kid code _ =>
      authorizeOrReport env kid code
      return true

/-- `nodeStatus`. -/
def nodeStatus (env : AdminEnv) (req : Request) : EStateM String Exchange Unit := do
  let authorized ← checkAdminAPIGETRequestAuthorization env req
  if !authorized then return
  perform .nodeStatus
  let statusResult ← liftExcept env.nodeStatusResult
  sendJson .ok statusResult

/-- `getIndexedModels`. -/
def getIndexedModels (env : AdminEnv) (req : Request) : EStateM String Exchange Unit := do
  let authorized ← checkAdminAPIGETRequestAuthorization env req
  if !authorized then return
  perform .getIndexedModels
  let indexedModelStreamIDs ← liftExcept env.indexedModelsResult
  sendJson .ok (.obj [("models", .arr (indexedModelStreamIDs.map fun model => .str model.toString))])

/-- `validateAdminRequest`, the middleware in front of the pin handlers. -/
def validateAdminRequest (env : AdminEnv) (req : Request) : EStateM String Exchange Unit := do
  match headerJws req.authorization with
  | .error (status, message) => sendJson status (errorBody message)
  | .ok jwsString =>
    match ← liftExcept (validateAdminApiJWS env req.baseUrl (some jwsString) false) with
    | .invalid error => sendJson .unauthorized (errorBody error)
    | .valid kid code _ =>
      authorizeOrReport env kid code
      perform .next

/-! ## Spec lemmas -/

section Spec

variable (env : AdminEnv)

theorem sendJson_run (status : StatusCode) (body : JsValue) (s : Exchange) :
    (sendJson status body).run s = match s.response with
      | some _ => .error headersSentMessage s
      | none => .ok () { s with response := some (status, body) } := by
  simp only [sendJson, run_bind, run_get]
  cases s.response <;> rfl

theorem onCache_run {α : Type} (x : EStateM String AdminCodeCache α) (s : Exchange) :
    (onCache x).run s = match x.run s.adminCodeCache with
      | .ok a cache => .ok a { s with adminCodeCache := cache }
      | .error e cache => .error e { s with adminCodeCache := cache } := rfl

theorem authorize_run (kid code : String) (s : Exchange) :
    (authorize env kid code).run s =
      match (verifyAndDiscardAdminCode code env.now).run s.adminCodeCache with
      | .ok () cache => match verifyActingDid env.adminDids kid with
        | .ok () => .ok () { s with adminCodeCache := cache }
        | .error message => .error message { s with adminCodeCache := cache }
      | .error message cache => .error message { s with adminCodeCache := cache } := by
  simp only [authorize, run_bind, onCache_run]
  rcases (verifyAndDiscardAdminCode code env.now).run s.adminCodeCache with ⟨⟨⟩, cache⟩ | ⟨_, _⟩
  · cases verifyActingDid env.adminDids kid <;> rfl
  · rfl

/-- On a fresh response the `try`/`catch` of the entry points always returns: it discards the
code, and sends a 401 when a check throws. -/
theorem authorizeOrReport_fresh (kid code : String) {s : Exchange} (fresh : s.response = none) :
    ∃ cache response, (authorizeOrReport env kid code).run s =
      .ok () { s with adminCodeCache := cache, response } := by
  rw [authorizeOrReport, run_tryCatch, authorize_run]
  rcases (verifyAndDiscardAdminCode code env.now).run s.adminCodeCache with ⟨⟨⟩, cache⟩ | ⟨message, cache⟩
  · rcases verifyActingDid env.adminDids kid with message | ⟨⟩
    · exact ⟨cache, some (.unauthorized, errorBody message), by simp only [sendJson_run, fresh]⟩
    · exact ⟨cache, s.response, rfl⟩
  · exact ⟨cache, some (.unauthorized, errorBody message), by simp only [sendJson_run, fresh]⟩

theorem sendJson_actions (status : StatusCode) (body : JsValue) (s : Exchange) :
    (leaves ((sendJson status body).run s)).actions = s.actions := by
  rw [sendJson_run]; cases s.response <;> rfl

end Spec

/-! ## What the entry points guard -/

section Guards

variable (env : AdminEnv)

/-- A mutation runs exactly when `_validateAdminApiJWS` accepts the request, with the models it
parsed from the signed payload; the admin-code and DID checks do not decide it. -/
theorem processAdminModelsMutationRequest_actions (req : Request)
    (successCallback : Option (List StreamID) → AdminAction) {s : Exchange}
    (fresh : s.response = none) :
    (leaves ((processAdminModelsMutationRequest env req successCallback).run s)).actions =
      s.actions ++ match validateAdminApiJWS env req.baseUrl req.jws true with
        | .ok (.valid _ _ models) => [successCallback models]
        | _ => [] := by
  rw [processAdminModelsMutationRequest, leaves_bind]
  rcases validateAdminApiJWS env req.baseUrl req.jws true with _ | _ | ⟨kid, code, models⟩
  · simp [leaves]
  · simpa using sendJson_actions _ _ s
  · obtain ⟨cache, response, authorized⟩ := authorizeOrReport_fresh env kid code fresh
    simp only [run_liftExcept_ok, leaves_bind, authorized, perform, run_modify]
    rcases env.mutationResult with _ | ⟨⟩
    · rfl
    · simp only [run_liftExcept_ok, leaves_bind, sendJson_actions]

/-- Whether the request's `Authorization` header carries a JWS that `_validateAdminApiJWS`
accepts. -/
def headerJwsValid (req : Request) : Bool :=
  match headerJws req.authorization with
  | .ok jws => match validateAdminApiJWS env req.baseUrl (some jws) false with
    | .ok (.valid ..) => true
    | _ => false
  | .error _ => false

/-- `_checkAdminAPIGETRequestAuthorization` returns `true` exactly when the header's JWS
validates, whatever the admin-code and DID checks find, and performs no action. -/
theorem checkAdminAPIGETRequestAuthorization_run (req : Request) {s : Exchange}
    (fresh : s.response = none) :
    ∃ s', s'.actions = s.actions ∧
      ((checkAdminAPIGETRequestAuthorization env req).run s = .ok (headerJwsValid env req) s' ∨
        ∃ message, (checkAdminAPIGETRequestAuthorization env req).run s = .error message s' ∧
          headerJwsValid env req = false) := by
  unfold checkAdminAPIGETRequestAuthorization headerJwsValid
  rcases headerJws req.authorization with ⟨status, message⟩ | jws
  · exact ⟨{ s with response := some (status, errorBody message) }, rfl,
      .inl (by simp only [run_bind, sendJson_run, fresh, run_pure])⟩
  · dsimp only
    rcases validateAdminApiJWS env req.baseUrl (some jws) false with
      message | error | ⟨kid, code, models⟩
    · exact ⟨s, rfl, .inr ⟨message, by simp only [run_bind, run_liftExcept_error], rfl⟩⟩
    · exact ⟨{ s with response := some (.unauthorized, errorBody error) }, rfl,
        .inl (by simp only [run_bind, run_liftExcept_ok, sendJson_run, fresh, run_pure])⟩
    · obtain ⟨cache, response, authorized⟩ := authorizeOrReport_fresh env kid code fresh
      exact ⟨{ s with adminCodeCache := cache, response }, rfl,
        .inl (by simp only [run_bind, run_liftExcept_ok, authorized, run_pure])⟩

/-- `nodeStatus` asks for the node status exactly when the header's JWS validates. -/
theorem nodeStatus_actions (req : Request) {s : Exchange} (fresh : s.response = none) :
    (leaves ((nodeStatus env req).run s)).actions =
      s.actions ++ if headerJwsValid env req then [.nodeStatus] else [] := by
  obtain ⟨s', same, returned | ⟨message, threw, invalid⟩⟩ :=
    checkAdminAPIGETRequestAuthorization_run env req fresh
  · rw [nodeStatus, leaves_bind, returned]
    cases headerJwsValid env req
    · simpa using same
    · simp only [Bool.not_true, Bool.false_eq_true, ↓reduceIte, leaves_bind, perform, run_modify]
      rcases env.nodeStatusResult with _ | _
      · simp [leaves, same]
      · simp [sendJson_actions, same]
  · rw [nodeStatus, leaves_bind, threw, invalid]
    simpa using same

/-- `getIndexedModels` reads the indexed models exactly when the header's JWS validates. -/
theorem getIndexedModels_actions (req : Request) {s : Exchange} (fresh : s.response = none) :
    (leaves ((getIndexedModels env req).run s)).actions =
      s.actions ++ if headerJwsValid env req then [.getIndexedModels] else [] := by
  obtain ⟨s', same, returned | ⟨message, threw, invalid⟩⟩ :=
    checkAdminAPIGETRequestAuthorization_run env req fresh
  · rw [getIndexedModels, leaves_bind, returned]
    cases headerJwsValid env req
    · simpa using same
    · simp only [Bool.not_true, Bool.false_eq_true, ↓reduceIte, leaves_bind, perform, run_modify]
      rcases env.indexedModelsResult with _ | _
      · simp [leaves, same]
      · simp [sendJson_actions, same]
  · rw [getIndexedModels, leaves_bind, threw, invalid]
    simpa using same

/-- The pins middleware calls `next()` exactly when the header's JWS validates. -/
theorem validateAdminRequest_actions (req : Request) {s : Exchange} (fresh : s.response = none) :
    (leaves ((validateAdminRequest env req).run s)).actions =
      s.actions ++ if headerJwsValid env req then [.next] else [] := by
  unfold validateAdminRequest headerJwsValid
  rcases headerJws req.authorization with ⟨status, message⟩ | jws
  · simpa using sendJson_actions _ _ s
  · dsimp only
    rw [leaves_bind]
    rcases validateAdminApiJWS env req.baseUrl (some jws) false with
      message | error | ⟨kid, code, models⟩
    · simp [leaves]
    · simpa using sendJson_actions _ _ s
    · obtain ⟨cache, response, authorized⟩ := authorizeOrReport_fresh env kid code fresh
      simp only [run_liftExcept_ok, leaves_bind, authorized, perform, run_modify]
      rfl

end Guards

/-! ## The acting DID -/

/-- `_verifyActingDid` passes exactly the DIDs that extend an admin DID as strings. -/
theorem verifyActingDid_ok_iff (adminDids : List String) (actingDid : String) :
    verifyActingDid adminDids actingDid = .ok () ↔
      ∃ adminDid ∈ adminDids, adminDid.toList <+: actingDid.toList := by
  unfold verifyActingDid startsWith
  by_cases admitted : adminDids.any (fun adminDid => adminDid.toList.isPrefixOf actingDid.toList)
  · simp only [admitted, Bool.not_true, Bool.false_eq_true, ↓reduceIte, true_iff]
    simpa using admitted
  · simp only [admitted, Bool.not_false, ↓reduceIte, reduceCtorEq, false_iff]
    simpa using admitted

/-- The DID of a key id as the spec reads it: the text before its first `#`, or all of it. -/
def didPart (kid : String) : String := ⟨kid.toList.takeWhile (· ≠ '#')⟩

/-- A key id whose DID part is an admin DID passes. -/
theorem verifyActingDid_ok_of_didPart {adminDids : List String} {actingDid : String}
    (admin : didPart actingDid ∈ adminDids) : verifyActingDid adminDids actingDid = .ok () :=
  (verifyActingDid_ok_iff adminDids actingDid).mpr ⟨_, admin, List.takeWhile_prefix _⟩

/-- A DID that only extends an admin DID as a string passes, though its DID part is no admin
DID. -/
theorem extended_did_passes :
    verifyActingDid ["did:nft:eip155:1_erc721:0xabc_1"] "did:nft:eip155:1_erc721:0xabc_12" =
        .ok () ∧
      didPart "did:nft:eip155:1_erc721:0xabc_12" ∉ ["did:nft:eip155:1_erc721:0xabc_1"] :=
  ⟨rfl, by decide⟩

/-! ## A request whose admin code is not in the cache -/

def sampleAdminDid : String := "did:key:z6MkAdmin"

/-- A daemon with one admin DID, which has signed, for each request path, a JWS carrying that
path, the admin code `code` and one model; the `ceramic.admin` calls succeed. -/
def sampleAdminEnv : AdminEnv where
  adminDids := [sampleAdminDid]
  verifyJWS := fun jws =>
    .ok ⟨sampleAdminDid ++ "#z6MkAdmin", ⟨some "code", some jws, some ⟨some ["kjzl6model"]⟩⟩⟩
  streamIdFromString := fun id => .ok ⟨id⟩
  now := 0
  mutationResult := .ok ()
  nodeStatusResult := .ok (.obj [])
  indexedModelsResult := .ok []

/-! ## What every admin action rests on -/

section Signed

variable (env : AdminEnv)

/-- A JWS that `ceramic.did.verifyJWS` verifies, signed for the request path `basePath` and
holding a non-empty admin code. -/
def SignedFor (basePath jws : String) (payload : AdminPayload) : Prop :=
  ∃ kid, env.verifyJWS jws = .ok ⟨kid, payload⟩ ∧ payload.requestPath = some basePath ∧
    ∃ code, payload.code = some code ∧ code ≠ ""

/-- `_validateAdminApiJWS` accepts only a JWS signed for the request's path with a code; when it
asks for models, they are a non-empty list of ids that all parse. -/
theorem validateAdminApiJWS_valid {basePath : String} {jws : Option String}
    {shouldContainModels : Bool} {kid code : String} {models : Option (List StreamID)}
    (valid : validateAdminApiJWS env basePath jws shouldContainModels = .ok (.valid kid code models)) :
    ∃ text payload, jws = some text ∧ SignedFor env basePath text payload ∧
      (payload.requestBody.bind (·.models)).mapM (fun ids => ids.mapM env.streamIdFromString) =
        .ok models ∧
      (shouldContainModels = true → ∃ ids, payload.requestBody.bind (·.models) = some ids ∧ ids ≠ []) := by
  unfold validateAdminApiJWS parseAdminApiJWS at valid
  rcases jws with _ | text
  · cases valid
  cases verified : env.verifyJWS text with
  | error => simp only [verified, bind, Except.bind] at valid; split at valid <;> cases valid
  | ok result =>
    simp only [verified, bind, Except.bind, pure, Except.pure] at valid
    split at valid
    · cases valid
    split at valid
    · cases valid
    rename_i path
    split at valid
    · cases valid
    rename_i found
    split at valid
    · cases valid
    rename_i blank
    split at valid
    · cases valid
    rename_i missing
    split at valid
    · cases valid
    rename_i mapped
    cases valid
    refine ⟨text, result.payload, rfl, ⟨result.kid, verified, not_not.mp path, code, found, blank⟩,
      mapped, fun should => ?_⟩
    cases ids : result.payload.requestBody.bind (·.models) with
    | none => simp [should, ids] at missing
    | some ids' => exact ⟨ids', rfl, by simpa [should, ids] using missing⟩

theorem headerJws_ok {authorization : Option String} {jws : String}
    (ok : headerJws authorization = .ok jws) :
    ∃ header, authorization = some header ∧ secondPiece header "Basic " = some jws := by
  unfold headerJws at ok
  rcases authorization with _ | header
  · cases ok
  refine ⟨header, rfl, ?_⟩
  dsimp only at ok
  split at ok
  · cases ok
  split at ok
  · rename_i piece
    split at ok
    · cases ok
    · cases ok; exact piece
  · cases ok

/-- The request's `Authorization: Basic` header carries a JWS signed for its path. -/
def HeaderSigned (req : Request) : Prop :=
  ∃ header jws payload, req.authorization = some header ∧ secondPiece header "Basic " = some jws ∧
    SignedFor env req.baseUrl jws payload

theorem headerSigned_of_valid {req : Request} (valid : headerJwsValid env req = true) :
    HeaderSigned env req := by
  unfold headerJwsValid at valid
  split at valid
  · rename_i jws found
    split at valid
    · rename_i kid code models validated
      obtain ⟨header, given, piece⟩ := headerJws_ok found
      obtain ⟨text, payload, same, signed, -⟩ := validateAdminApiJWS_valid env validated
      exact ⟨header, text, payload, given, Option.some.inj same ▸ piece, signed⟩
    · cases valid
  · cases valid

/-- Every admin action the entry points perform rests on a JWS that `ceramic.did.verifyJWS`
verified, signed for the request's own path and holding a non-empty admin code. A model mutation
acts on exactly the non-empty list of model ids signed in `req.body.jws`; the status, models and
pins endpoints take the JWS from the `Authorization: Basic` header. -/
theorem admin_actions_signed_for_path (req : Request) {s : Exchange} (fresh : s.response = none) :
    (∀ successCallback : Option (List StreamID) → AdminAction,
      (leaves ((processAdminModelsMutationRequest env req successCallback).run s)).actions =
          s.actions ∨
        ∃ jws payload ids models, req.jws = some jws ∧ SignedFor env req.baseUrl jws payload ∧
          payload.requestBody.bind (·.models) = some ids ∧ ids ≠ [] ∧
          ids.mapM env.streamIdFromString = .ok models ∧
          (leaves ((processAdminModelsMutationRequest env req successCallback).run s)).actions =
            s.actions ++ [successCallback (some models)]) ∧
    ((leaves ((nodeStatus env req).run s)).actions = s.actions ∨
      HeaderSigned env req ∧ (leaves ((nodeStatus env req).run s)).actions = s.actions ++ [.nodeStatus]) ∧
    ((leaves ((getIndexedModels env req).run s)).actions = s.actions ∨
      HeaderSigned env req ∧
        (leaves ((getIndexedModels env req).run s)).actions = s.actions ++ [.getIndexedModels]) ∧
    ((leaves ((validateAdminRequest env req).run s)).actions = s.actions ∨
      HeaderSigned env req ∧ (leaves ((validateAdminRequest env req).run s)).actions = s.actions ++ [.next]) := by
  have guarded : ∀ {action : AdminAction} {after : List AdminAction},
      after = s.actions ++ (if headerJwsValid env req then [action] else []) →
      after = s.actions ∨ HeaderSigned env req ∧ after = s.actions ++ [action] := by
    intro action after same
    by_cases valid : headerJwsValid env req = true
    · exact .inr ⟨headerSigned_of_valid env valid, by simpa [valid] using same⟩
    · exact .inl (by simpa [valid] using same)
  refine ⟨fun successCallback => ?_, guarded (nodeStatus_actions env req fresh),
    guarded (getIndexedModels_actions env req fresh), guarded (validateAdminRequest_actions env req fresh)⟩
  rw [processAdminModelsMutationRequest_actions env req successCallback fresh]
  split
  · rename_i kid code models validated
    obtain ⟨jws, payload, given, signed, mapped, nonempty⟩ := validateAdminApiJWS_valid env validated
    obtain ⟨ids, listed, filled⟩ := nonempty rfl
    rw [listed] at mapped
    cases parsed : ids.mapM env.streamIdFromString with
    | error => simp only [Option.mapM, parsed] at mapped; cases mapped
    | ok parsedIds =>
      simp only [Option.mapM, parsed] at mapped
      cases mapped
      exact .inr ⟨jws, payload, ids, parsedIds, given, signed, listed, filled, parsed, rfl⟩
  · exact .inl (List.append_nil _)

end Signed

/-- A request to `/api/v0/admin/models` carrying the sample JWS both in its body and in its
header. -/
def signedModelsRequest : Request :=
  ⟨"/api/v0/admin/models", some "/api/v0/admin/models", some "Basic /api/v0/admin/models"⟩

theorem signed_models_request_actions :
    let fresh : Exchange := ⟨initialAdminCodeCache, none, []⟩
    fresh.response = none ∧
    (∀ successCallback : Option (List StreamID) → AdminAction,
      (leaves ((processAdminModelsMutationRequest sampleAdminEnv signedModelsRequest
          successCallback).run fresh)).actions = fresh.actions ∨
        ∃ jws payload ids models, signedModelsRequest.jws = some jws ∧
          SignedFor sampleAdminEnv signedModelsRequest.baseUrl jws payload ∧
          payload.requestBody.bind (·.models) = some ids ∧ ids ≠ [] ∧
          ids.mapM sampleAdminEnv.streamIdFromString = .ok models ∧
          (leaves ((processAdminModelsMutationRequest sampleAdminEnv signedModelsRequest
            successCallback).run fresh)).actions = fresh.actions ++ [successCallback (some models)]) ∧
    ((leaves ((nodeStatus sampleAdminEnv signedModelsRequest).run fresh)).actions = fresh.actions ∨
      HeaderSigned sampleAdminEnv signedModelsRequest ∧
        (leaves ((nodeStatus sampleAdminEnv signedModelsRequest).run fresh)).actions =
          fresh.actions ++ [.nodeStatus]) ∧
    ((leaves ((getIndexedModels sampleAdminEnv signedModelsRequest).run fresh)).actions =
        fresh.actions ∨
      HeaderSigned sampleAdminEnv signedModelsRequest ∧
        (leaves ((getIndexedModels sampleAdminEnv signedModelsRequest).run fresh)).actions =
          fresh.actions ++ [.getIndexedModels]) ∧
    ((leaves ((validateAdminRequest sampleAdminEnv signedModelsRequest).run fresh)).actions =
        fresh.actions ∨
      HeaderSigned sampleAdminEnv signedModelsRequest ∧
        (leaves ((validateAdminRequest sampleAdminEnv signedModelsRequest).run fresh)).actions =
          fresh.actions ++ [.next]) :=
  ⟨rfl, admin_actions_signed_for_path sampleAdminEnv signedModelsRequest rfl⟩


end Ceramic.AdminApi
