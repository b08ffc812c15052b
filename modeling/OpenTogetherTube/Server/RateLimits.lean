import OpenTogetherTube.Lib.Routine
import OpenTogetherTube.Server.Adapters
import OpenTogetherTube.Server.LoginLimit
import OpenTogetherTube.Server.LoginNames

/-!
# Handlers with a rate limit

`consumeRateLimitPoints` answers a request that is refused with 429, and says so by its result. A
handler that looks at the result returns, and nothing else happens for the request. The two handlers of
the account recovery do not look at it: they go on, and respond once more (`stopped_iff`).

What the handlers call is behind a `Call`, each with the arguments that it gets. A body is what the
schema of the handler makes of it: a parsed one, or a message. Logs, metrics and the `X-RateLimit`
headers are left out.
-/

namespace OpenTogetherTube.Server.RateLimits

open OpenTogetherTube.Lib
open OpenTogetherTube.Common hiding User
open Accounts (User Buffer truthy isPasswordValid codeUnits USERNAME_LENGTH_MAX)
open LoginLimit (RateLimiterRes retrySecs)

/-! ## Responses -/

/-- The `error` of a body. -/
structure ErrorBody where
  name : Option String := none
  message : Option String := none
  arg : Option String := none
  reason : Option String := none
  fields : Option (List String) := none
  deriving DecidableEq, Repr

/-- The body of a response, without its `success`. -/
inductive Payload where
  | success
  | room (name : String)
  | account (username : String) (email : Option String) (discordLinked hasPassword : Bool)
  | preview (videos : List QueueItem) (highlighted : Option QueueItem) (maxAge : Nat)
  | user (email : Option String) (username : String)
  | error (body : ErrorBody)
  | limited (retryAfter : Nat) (body : ErrorBody)
  deriving DecidableEq, Repr

structure Response where
  status : Nat
  payload : Payload
  deriving DecidableEq, Repr

def success : Response := ⟨200, .success⟩

def failure (status : Nat) (name message : String) : Response :=
  ⟨status, .error { name := some name, message := some message }⟩

def tooManyRequests (info : RateLimiterRes) : Response :=
  ⟨429, .limited (retrySecs info.msBeforeNext)
    { name := some "TooManyRequests", message := some "Too many requests." }⟩

def unknownError : Response := failure 500 "Unknown" "An unknown error occurred. Try again later."

/-! ## What is thrown -/

inductive Thrown where
  /-- An `OttException`. -/
  | ott (name message : String)
  | badApiArgument (arg reason : String)
  | zod (message : String)
  | uniqueConstraint (fields : List String)
  /-- Any other `Error`. -/
  | error (name message : String)
  deriving DecidableEq, Repr

namespace Thrown

def name : Thrown → String
  | .ott name _ => name
  | .badApiArgument _ _ => "BadApiArgumentException"
  | .zod _ => "ZodError"
  | .uniqueConstraint _ => "SequelizeUniqueConstraintError"
  | .error name _ => name

def message : Thrown → String
  | .ott _ message => message
  | .badApiArgument arg reason => "Bad argument: " ++ arg ++ ": " ++ reason
  | .zod message => message
  | .uniqueConstraint _ => "Validation error"
  | .error _ message => message

def featureDisabled (reason : String) : Thrown :=
  .ott "FeatureDisabledException" ("Sorry, this feature is disabled: " ++ reason)

def badPassword : Thrown :=
  .ott "BadPasswordError" ("Password does not meet minimum requirements. " ++
    "Must be at least 8 characters long, and contain 2 of the following categories of characters: " ++
    "lowercase letters, uppercase letters, numbers, special characters.")

def userNotFound : Thrown := .ott "UserNotFound" "User not found"

def noEmail : Thrown := .ott "NoEmail" "The account does not have an email address."

def invalidVerifyKey : Thrown := .ott "InvalidVerifyKey" "Invalid verify key"

/-- Express, of a response that has been sent. -/
def headersSent : Thrown :=
  .error "Error" "Cannot set headers after they are sent to the client"

end Thrown

/-! ## Calls -/

structure Email where
  to_ : String
  subject : String
  body : String
  deriving DecidableEq, Repr

/-- `OttApiRequestRoomCreateSchema`, without the name. -/
structure RoomCreate where
  title : Option String
  description : Option String
  isTemporary : Bool
  visibility : Option Visibility
  queueMode : Option QueueMode
  autoSkipSegmentCategories : Option (List Category)
  deriving DecidableEq

/-- What `resolveVideoQuery` finds. -/
structure AddPreview where
  videos : List QueueItem
  highlighted : Option QueueItem
  cacheDuration : Nat
  deriving DecidableEq, Repr

/-- What a user is looked up by. -/
inductive Where where
  | user (user : String)
  | email (email : String)
  | username (username : String)
  deriving DecidableEq, Repr

inductive Call where
  | consume (key : String) (points : Nat)
  | reward (key : String) (points : Nat)
  | respond (r : Response)
  | createRoom (name : String) (options : RoomCreate) (owner : Option User)
  /-- It loads a room that is not loaded. -/
  | getRoom (name : String)
  | processUnauthorizedRequest (room : String) (request : RoomRequest) (token : Option String)
  /-- It writes the cache of videos. -/
  | resolveVideoQuery (query searchProvider : String) (adapter : Option String)
  | findUser (by_ : Where)
  | createUser (email : Option String) (username : String) (salt hash : Buffer)
  | saveUser (user : User)
  | login (user : User)
  | emitLogin (user : User) (token : Option String)
  | setSessionInfo (token : Option String) (userId : Nat)
  | redisGet (key : String)
  | redisSetEx (key : String) (seconds : Nat) (value : String)
  | redisDel (key : String)
  | sendMail (mail : Email)
  | uuid
  | randomBytes (size : Nat)
  | argon2Hash (salt : Buffer) (password : String)
  /-- Of the hash without the null bytes at its end. -/
  | argon2Verify (hash salt : Buffer) (password : String)
  | argon2NeedsRehash (hash : Buffer)

/-- The limiter rejects with its result where there are no points left. -/
inductive Consumed where
  | granted (info : RateLimiterRes)
  | refused (info : RateLimiterRes)
  deriving DecidableEq, Repr

namespace Call

abbrev Answer : Call → Type
  | .consume _ _ => Consumed
  | .resolveVideoQuery _ _ _ => AddPreview
  | .findUser _ => Option User
  | .createUser _ _ _ _ => User
  | .redisGet _ => Option String
  | .sendMail _ => Bool
  | .uuid => String
  | .randomBytes _ => Buffer
  | .argon2Hash _ _ => Buffer
  | .argon2Verify _ _ _ => Bool
  | .argon2NeedsRehash _ => Bool
  | _ => Unit

/-- What a refused request must not do. Looking something up, drawing and hashing are none of it. -/
def isEffect : Call → Bool
  | .findUser _ | .redisGet _ | .uuid | .randomBytes _ | .argon2Hash _ _ | .argon2Verify _ _ _
  | .argon2NeedsRehash _ => false
  | _ => true

def isConsume : Call → Bool
  | .consume _ _ => true
  | _ => false

def isRespond : Call → Bool
  | .respond _ => true
  | _ => false

end Call

abbrev Event := CallEvent Call Call.Answer Thrown

abbrev Action (α : Type) := Routine Call Call.Answer Thrown α

def perform (c : Call) : Action c.Answer := Routine.perform c

def respond (r : Response) : Action Unit := perform (.respond r)

def parse {α : Type} (body : Except String α) : Action α :=
  match body with
  | .ok a => .done a
  | .error message => .throw (.zod message)

/-! ## The configuration, and requests -/

structure Conf where
  rateLimitEnabled : Bool
  enableCreateTemporary : Bool
  enableCreatePermanent : Bool
  searchProvider : String
  mailEnabled : Bool
  hostname : String
  baseUrl : String
  accounts : Accounts.Conf
  runtime : Adapters.Runtime

/-- What the middlewares have set on the request. -/
structure Sender where
  ip : String
  user : Option User
  token : Option String
  deriving DecidableEq, Repr

/-- `OttApiRequestAddToQueueSchema`. -/
inductive AddToQueue where
  | videos (videos : List VideoAdd)
  | video (video : VideoAdd)
  | url (url : String)
  deriving DecidableEq, Repr

structure RegisterBody where
  email : Option String
  username : String
  password : String
  deriving DecidableEq, Repr

/-- `OttApiRequestAccountUpdateSchema`. -/
structure AccountUpdate where
  email : Option String
  currentPassword : Option String
  newPassword : Option String
  deriving DecidableEq, Repr

/-- `OttApiRequestAccountRecoveryStartSchema`. -/
inductive RecoveryStart where
  | email (email : String)
  | username (username : String)
  deriving DecidableEq, Repr

/-- `OttApiRequestAccountRecoveryVerifySchema`. -/
structure RecoveryVerify where
  verifyKey : String
  newPassword : String
  deriving DecidableEq, Repr

inductive Request where
  | generateRoom (body : Except String (Option (List Category)))
  | createRoom (body : Except String (String × RoomCreate))
  | addToQueue (room : String) (body : Except String AddToQueue)
  | removeFromQueue (room : String) (body : Except String VideoId)
  | updateQueueItem (room : String) (body : Except String VideoAdd)
  | addPreview (input adapter : Option String)
  | register (body : RegisterBody)
  | getAccount
  | patchAccount (body : Except (Option String) AccountUpdate)
  | deleteDiscordLink
  | accountRecoveryStart (body : Except String RecoveryStart)
  | accountRecoveryVerify (body : Except String RecoveryVerify)

section Handlers

variable (conf : Conf) (s : Sender)

/-! ## The rate limit -/

def handleRateLimit (info : RateLimiterRes) : Action Unit := respond (tooManyRequests info)

def consumeRateLimitPoints (key : String) (points : Nat) : Action Bool :=
  if !conf.rateLimitEnabled then .done true
  else do
    match ← perform (.consume key points) with
    | .granted _ => return true
    | .refused info =>
      handleRateLimit info
      return false

/-- `if (!(await consumeRateLimitPoints(res, req.ip, points))) return;`, and what follows. -/
def limited (points : Nat) (rest : Action Unit) : Action Unit := do
  if ← consumeRateLimitPoints conf s.ip points then rest else .done ()

/-- `if (conf.get("rate_limit.enabled")) await consumeRateLimitPoints(res, req.ip, points);`, and what
follows. -/
def unchecked (points : Nat) (rest : Action Unit) : Action Unit :=
  if conf.rateLimitEnabled then do
    let _ ← consumeRateLimitPoints conf s.ip points
    rest
  else rest

/-! ## Rooms -/

/-- The `errorHandler` of the room routes. -/
def roomError : Thrown → Response
  | .badApiArgument arg reason =>
    ⟨400, .error { name := some "BadApiArgumentException",
                   message := some (Thrown.badApiArgument arg reason).message,
                   arg := some arg, reason := some reason }⟩
  | .ott name message =>
    if name = "RoomNotFoundException" then failure 404 name "Room not found"
    else if name = "FeatureDisabledException" then failure 403 name message
    else failure 400 name message
  | .zod message => failure 400 "ZodValidationError" message
  | .uniqueConstraint _ | .error _ _ => unknownError

def generateRoom (body : Except String (Option (List Category))) : Action Unit :=
  if !conf.enableCreateTemporary then
    .throw (.featureDisabled "Temporary rooms are disabled.")
  else do
    let categories ← parse body
    limited conf s 50 do
      let roomName ← perform .uuid
      perform (.createRoom roomName ⟨none, none, true, none, none, categories⟩ s.user)
      respond ⟨201, .room roomName⟩

def createRoom (body : Except String (String × RoomCreate)) : Action Unit := do
  let (name, options) ← parse body
  if options.isTemporary && !conf.enableCreateTemporary then
    .throw (.featureDisabled "Temporary rooms are disabled.")
  else if !options.isTemporary && !conf.enableCreatePermanent then
    .throw (.featureDisabled "Permanent rooms are disabled.")
  else
    limited conf s (if options.isTemporary then 50 else 50 * 4) do
      perform (.createRoom name options s.user)
      respond ⟨201, .success⟩

/-- A request to the room, of whoever has the token. -/
def requestRoom (room : String) (request : RoomRequest) : Action Unit := do
  perform (.getRoom room)
  perform (.processUnauthorizedRequest room request s.token)
  respond success

def AddToQueue.request : AddToQueue → RoomRequest
  | .videos vs => .add none (some vs) none
  | .video v => .add (some v) none none
  | .url u => .add none none (some u)

def addToQueue (room : String) (body : Except String AddToQueue) : Action Unit := do
  let add ← parse body
  let points := match add with
    | .videos videos => 3 * videos.length
    | _ => 5
  limited conf s points (requestRoom s room add.request)

def removeFromQueue (room : String) (body : Except String VideoId) : Action Unit := do
  let video ← parse body
  limited conf s 5 (requestRoom s room (.remove video))

def updateQueueItem (room : String) (body : Except String VideoAdd) : Action Unit := do
  let video ← parse body
  limited conf s 5
    (requestRoom s room (.updateQueueItem video.toVideoId ⟨none, none, video.subtitleUrl⟩))

/-! ## Previews -/

/-- The `errorHandler` of the data routes. -/
def dataError : Thrown → Response
  | .badApiArgument arg reason => roomError (.badApiArgument arg reason)
  | .ott name message => failure 400 name message
  | .zod _ | .uniqueConstraint _ | .error _ _ => unknownError

/-- The errors of a preview that are told to the client. -/
def previewErrors : List String :=
  ["UnsupportedServiceException", "InvalidAddPreviewInputException", "OutOfQuotaException",
    "InvalidVideoIdException", "FeatureDisabledException", "UnsupportedMimeTypeException",
    "LocalFileException", "MissingMetadataException", "UnsupportedVideoType",
    "UpstreamInvidiousException", "VideoNotFoundException", "FfprobeTimeoutError",
    "OdyseeUnavailableVideo", "OttException"]

def previewError (e : Thrown) : Response :=
  if e.name ∈ previewErrors then failure 400 e.name e.message
  else failure 500 "Unknown" "Unknown error occurred."

def addPreview (input adapter : Option String) : Action Unit :=
  match input.filter (fun text => text ≠ "") with
  | none => .throw (.badApiArgument "input" "missing")
  | some text =>
    limited conf s (if Adapters.isURL conf.runtime text then 5 else 5 * 15) <|
      Routine.catchWith
        (do
          let result ← perform
            (.resolveVideoQuery (Adapters.trim text) conf.searchProvider adapter)
          respond ⟨200, .preview result.videos result.highlighted result.cacheDuration⟩)
        (fun e => respond (previewError e))

/-! ## Users -/

/-- `.catch(() => false)`. -/
def isTaken (by_ : Where) : Action Bool :=
  Routine.catchWith
    (do
      let user ← perform (.findUser by_)
      return user.isSome)
    (fun _ => .done false)

/-- `email && (await isEmailTaken(email))`. -/
def isEmailTaken : Option String → Action Bool
  | some email => isTaken (.email email)
  | none => .done false

/-- `getUser({ user })`. -/
def getUser (user : String) : Action User :=
  if user = "" then .throw (.error "Error" "Invalid parameters to find user")
  else do
    match ← perform (.findUser (.user user)) with
    | some found => return found
    | none => .throw .userNotFound

/-- It has validated the password, unless it was told not to. -/
def changeUserPassword (user : User) (newPassword : String) (validatePassword : Bool) :
    Action Unit :=
  if validatePassword && !isPasswordValid conf.accounts newPassword then .throw .badPassword
  else do
    let newSalt ← perform (.randomBytes 128)
    let hash ← perform (.argon2Hash newSalt newPassword)
    perform (.saveUser { user with hash := some hash, salt := some newSalt })

/-- Whether the password is right, and the user with the hash that was made anew. -/
def verifyUserPassword (user : User) (password : String) : Action (Bool × User) :=
  match user.hash, user.salt with
  | some hash, some salt => do
    let result ← perform (.argon2Verify hash salt password)
    if !result then return (false, user)
    else
      let outdated ← perform (.argon2NeedsRehash hash)
      if !outdated then return (true, user)
      else
        let rehashed ← perform (.argon2Hash salt password)
        let user' := { user with hash := some rehashed }
        perform (.saveUser user')
        return (true, user')
  | _, _ => .done (false, user)

def registerUser (body : RegisterBody) : Action User :=
  if !conf.accounts.enableRegistration then
    .throw (.featureDisabled "Disabled by administrator.")
  else if !isPasswordValid conf.accounts body.password then .throw .badPassword
  else if codeUnits body.username.toList > USERNAME_LENGTH_MAX then
    .throw (.ott "LengthOutOfRangeException"
      ("Username length must be less than or equal to " ++ toString USERNAME_LENGTH_MAX ++ "."))
  else do
    let email := body.email.filter (fun e => e ≠ "")
    let salt ← perform (.randomBytes 128)
    let hash ← perform (.argon2Hash salt body.password)
    if ← isTaken (.username body.username) then
      .throw (.ott "UsernameTakenError" "Username taken.")
    else do
      let emailTaken ← isEmailTaken email
      if emailTaken then .throw (.ott "EmailAlreadyInUseError" "Email taken.")
      else perform (.createUser email body.username salt hash)

def alreadyInUse (field message : String) : Response :=
  ⟨400, .error { name := some "AlreadyInUse", message := some message, fields := some [field] }⟩

def registerError : Thrown → Response
  | .uniqueConstraint fields =>
    ⟨400, .error { name := some "AlreadyInUse"
                   message := some (String.intercalate "," fields ++ " " ++
                     (if fields.length > 1 then "are" else "is") ++ " already in use.")
                   fields := some fields }⟩
  | e =>
    if e.name = "FeatureDisabledException" then failure 403 e.name e.message
    else if e.name = "UsernameTakenError" then
      alreadyInUse "username" "Username is already in use."
    else if e.name = "EmailAlreadyInUseError" then
      alreadyInUse "email" "Email is already associated with an account."
    else if e.name ∈ ["SequelizeValidationError", "BadPasswordError", "LengthOutOfRangeException"]
    then failure 400 "ValidationError" e.message
    else unknownError

/-- The callback of `req.login`, which does not look at its error. -/
def registered (user : User) : Action Unit := do
  (perform (.login user)).catchWith (fun _ => .done ())
  perform (.setSessionInfo s.token user.id)
  (perform (.emitLogin user s.token)).catchWith (fun _ => .done ())
  respond ⟨201, .user user.email user.username⟩

/-- Nothing catches what the callback throws. -/
def register (body : RegisterBody) : Action Unit :=
  limited conf s 100 do
    let result ← Routine.catchWith
      (do
        let user ← registerUser conf body
        return some user)
      (fun e => do
        respond (registerError e)
        return none)
    match result with
    | some user => registered s user
    | none => .done ()

def unauthorized : Action Unit := respond (failure 401 "Unauthorized" "Not logged in.")

def ACCOUNT_READ_RATE_LIMIT_POINTS : Nat := 1

def ACCOUNT_WRITE_RATE_LIMIT_POINTS : Nat := 10

def getAccount : Action Unit :=
  match s.user with
  | none => unauthorized
  | some user =>
    limited conf s ACCOUNT_READ_RATE_LIMIT_POINTS <|
      respond ⟨200, .account user.username user.email (truthy user.discordId)
        (user.hash.isSome && user.salt.isSome)⟩

/-- From where the password is changed. -/
def setPassword (user : User) (newPassword : String) : Action Unit := do
  let error ← Routine.catchWith
    (do
      changeUserPassword conf user newPassword true
      return none)
    (fun e => return some e)
  match error with
  | some e => respond (failure 400 e.name e.message)
  | none => respond success

/-- A new password, where the current one has to be given. -/
def replacePassword (user : User) (currentPassword : Option String) (newPassword : String) :
    Action Unit :=
  match currentPassword.filter (fun p => p ≠ "") with
  | none => respond (failure 400 "CurrentPasswordRequired" "Current password is required.")
  | some current => do
    let (isCurrentPasswordValid, user') ← verifyUserPassword user current
    if !isCurrentPasswordValid then
      respond (failure 400 "InvalidPassword" "Current password is incorrect.")
    else setPassword conf user' newPassword

def updateAccount (user : User) (update : AccountUpdate) : Action Unit := do
  let emailTaken ← isEmailTaken (update.email.filter (fun e => user.email ≠ some e))
  if emailTaken then
    respond (alreadyInUse "email" "Email is already associated with an account.")
  else
    let edited := { user with email := update.email.or user.email }
    match update.newPassword with
    | some newPassword =>
      if edited.hash.isSome || edited.salt.isSome then
        replacePassword conf edited update.currentPassword newPassword
      else setPassword conf edited newPassword
    | none => do
      Routine.when update.email.isSome (perform (.saveUser edited))
      respond success

def patchAccount (body : Except (Option String) AccountUpdate) : Action Unit :=
  match s.user with
  | none => unauthorized
  | some user =>
    limited conf s ACCOUNT_WRITE_RATE_LIMIT_POINTS <|
      match body with
      | .error message =>
        respond (failure 400 "ValidationError"
          (message.getD "Invalid account update request."))
      | .ok update => updateAccount conf user update

def deleteDiscordLink : Action Unit :=
  match s.user with
  | none => unauthorized
  | some user =>
    limited conf s ACCOUNT_WRITE_RATE_LIMIT_POINTS <|
      if !truthy user.discordId then
        respond (failure 400 "DiscordNotLinked" "This account is not linked to Discord.")
      else if user.hash.isNone || user.salt.isNone then
        respond (failure 400 "PasswordRequired" "Add a password before unlinking Discord.")
      else do
        perform (.saveUser { user with discordId := none })
        respond success

/-! ## Account recovery -/

/-- The `errorHandler` of the user routes. -/
def userError : Thrown → Response
  | .badApiArgument arg reason => roomError (.badApiArgument arg reason)
  | .ott name message => failure 400 name message
  | .zod _ => ⟨400, .error { name := some "ZodValidationError" }⟩
  | .uniqueConstraint _ | .error _ _ => unknownError

/-- `toString("hex")`. -/
def hex (bytes : Buffer) : String :=
  String.ofList
    (bytes.flatMap (fun b => [Nat.digitChar (b.toNat / 16), Nat.digitChar (b.toNat % 16)]))

def recoveryKey (verifyKey : String) : String := "accountrecovery:" ++ verifyKey

def includes (text part : String) : Bool := text.toList.tails.any part.toList.isPrefixOf

def resetEmail (email verificationKey : String) : Email :=
  let proto := if includes conf.hostname "localhost" then "http" else "https"
  let resetLink := proto ++ "://" ++ conf.hostname ++ conf.baseUrl ++ "/passwordreset?verifyKey=" ++
    verificationKey
  { to_ := email
    subject := "OpenTogetherTube - Password Reset"
    body := "Click this link to reset your password for OpenTogetherTube: <a href=\"" ++ resetLink ++
      "\">" ++ resetLink ++ "</a>" }

def sendPasswordResetEmail (email : String) : Action Unit :=
  if !conf.mailEnabled then
    .throw (.featureDisabled "This instance does not have email enabled.")
  else do
    let bytes ← perform (.randomBytes 32)
    let verificationKey := hex bytes
    perform (.redisSetEx (recoveryKey verificationKey) (60 * 10) email)
    if ← perform (.sendMail (resetEmail conf email verificationKey)) then .done ()
    else .throw (.error "MailerError" "Failed to send email")

def RecoveryStart.user : RecoveryStart → String
  | .email e => e
  | .username name => name

/-- From where the user is looked up. -/
def startRecovery (body : RecoveryStart) : Action Unit := do
  let user ← getUser body.user
  match user.email.filter (fun e => e ≠ "") with
  | none => .throw .noEmail
  | some email => do
    sendPasswordResetEmail conf email
    respond success

def accountRecoveryStart (body : Except String RecoveryStart) : Action Unit := do
  let start ← parse body
  unchecked conf s 100 (startRecovery conf start)

/-- From where the user is known. -/
def resetPassword (user : User) (body : RecoveryVerify) : Action Unit := do
  changeUserPassword conf user body.newPassword false
  perform (.redisDel (recoveryKey body.verifyKey))
  Routine.when (truthy s.token) (perform (.setSessionInfo s.token user.id))
  Routine.when conf.rateLimitEnabled (perform (.reward s.ip 100))
  respond success

/-- From where the password is validated. -/
def verifyRecovery (body : RecoveryVerify) : Action Unit :=
  if !isPasswordValid conf.accounts body.newPassword then .throw .badPassword
  else do
    let accountEmail ← perform (.redisGet (recoveryKey body.verifyKey))
    match accountEmail.filter (fun e => e ≠ "") with
    | none => .throw .invalidVerifyKey
    | some email => do
      match ← perform (.findUser (.email email)) with
      | none => .throw .userNotFound
      | some user => resetPassword conf s user body

def accountRecoveryVerify (body : Except String RecoveryVerify) : Action Unit := do
  let verify ← parse body
  unchecked conf s 10 (verifyRecovery conf s verify)

/-! ## Routes -/

/-- `try … catch (e) { errorHandler(e, req, res, next); }`. -/
def route (errorHandler : Thrown → Response) (handler : Action Unit) : Action Unit :=
  handler.catchWith (fun e => respond (errorHandler e))

/-- The account routes and `/register` have no `errorHandler`. -/
def handle : Request → Action Unit
  | .generateRoom body => route roomError (generateRoom conf s body)
  | .createRoom body => route roomError (createRoom conf s body)
  | .addToQueue room body => route roomError (addToQueue conf s room body)
  | .removeFromQueue room body => route roomError (removeFromQueue conf s room body)
  | .updateQueueItem room body => route roomError (updateQueueItem conf s room body)
  | .addPreview input adapter => route dataError (addPreview conf s input adapter)
  | .register body => register conf s body
  | .getAccount => getAccount conf s
  | .patchAccount body => patchAccount conf s body
  | .deleteDiscordLink => deleteDiscordLink conf s
  | .accountRecoveryStart body => route userError (accountRecoveryStart conf s body)
  | .accountRecoveryVerify body => route userError (accountRecoveryVerify conf s body)

end Handlers

/-! ## The specification -/

/-- The limiter has refused the request. -/
def Refused (e : Event) : Prop := ∃ key points info, e = ⟨.consume key points, .ok (.refused info)⟩

def effects (t : List Event) : List Call := (t.map CallEvent.call).filter Call.isEffect

/-- **The purpose**: after a refusal nothing happens but one response, of status 429. -/
def Stopped (t : List Event) : Prop :=
  ∀ before e after, t = before ++ e :: after → Refused e →
    ∃ r, r.status = 429 ∧ effects after = [.respond r]

/-- Express: a response is sent once, and whoever sends another one gets an error. -/
def SentOnce (t : List Event) : Prop :=
  ∀ before r x after, t = before ++ ⟨.respond r, x⟩ :: after →
    (x = .ok () ↔ ∀ e ∈ before, e.call.isRespond = false)

/-- A run in which the request is refused. -/
structure RefusedRun (conf : Conf) (s : Sender) (request : Request) (t : List Event) : Prop where
  runs : ∃ x, Routine.Runs (handle conf s request) t x
  sentOnce : SentOnce t
  refused : ∃ e ∈ t, Refused e

def Request.isRecovery : Request → Bool
  | .accountRecoveryStart _ | .accountRecoveryVerify _ => true
  | _ => false

/-! ## Handlers that look at the result -/

/-- The rate limit is not asked. -/
abbrev Unlimited {α : Type} (p : Action α) : Prop := p.Calls (fun c => c.isConsume = false)

section Stopped

variable {conf : Conf} {s : Sender} {t : List Event}

theorem Refused.isConsume {e : Event} (h : Refused e) : e.call.isConsume = true := by
  obtain ⟨key, points, info, rfl⟩ := h
  rfl

theorem Unlimited.not_refused {α : Type} {p : Action α} {x : Except Thrown α} (hp : Unlimited p)
    (hr : Routine.Runs p t x) : ∀ e ∈ t, ¬ Refused e := by
  intro e he hrefused
  have hconsume := hrefused.isConsume
  rw [hp.of_mem hr he] at hconsume
  cases hconsume

theorem stopped_of_not_refused (h : ∀ e ∈ t, ¬ Refused e) : Stopped t := by
  rintro before e after rfl hrefused
  exact absurd hrefused (h e (List.mem_append_right before List.mem_cons_self))

/-- A refusal, and the response to it. -/
theorem stopped_tooManyRequests (e : Event) (info : RateLimiterRes) (a : Except Thrown Unit) :
    Stopped [e, ⟨.respond (tooManyRequests info), a⟩] := by
  intro before e' after heq hrefused
  match before, heq with
  | [], heq =>
    cases heq
    exact ⟨tooManyRequests info, rfl, rfl⟩
  | [_], heq =>
    cases heq
    obtain ⟨key, points, info', hcall⟩ := hrefused
    cases hcall
  | _ :: _ :: before, heq => simp at heq

theorem not_refused_consume {key : String} {points : Nat} {a : Except Thrown Consumed}
    (ha : ∀ info, a ≠ .ok (.refused info)) :
    ∀ e ∈ ([⟨.consume key points, a⟩] : List Event), ¬ Refused e := by
  rintro e he ⟨key', points', info, rfl⟩
  cases List.mem_singleton.mp he
  exact ha info rfl

/-- A refusal is the first call, and the response the second one. -/
theorem runs_consumeRateLimitPoints {key : String} {points : Nat} {x : Except Thrown Bool}
    (hr : Routine.Runs (consumeRateLimitPoints conf key points) t x) :
    ((∀ e ∈ t, ¬ Refused e) ∧ x ≠ .ok false) ∨
      ∃ info a, t = [⟨.consume key points, .ok (.refused info)⟩,
        ⟨.respond (tooManyRequests info), a⟩] ∧ x = a.map (fun _ => false) := by
  unfold consumeRateLimitPoints at hr
  split at hr
  · obtain ⟨rfl, rfl⟩ := Routine.runs_done_iff.mp hr
    refine .inl ⟨fun e he => absurd he List.not_mem_nil, fun h => ?_⟩
    cases h
  · obtain ⟨c, t', rfl, hrest⟩ := Routine.runs_call_iff.mp hr
    cases c with
    | error e =>
      obtain ⟨rfl, rfl⟩ := Routine.runs_throw_iff.mp hrest
      refine .inl ⟨not_refused_consume (fun _ h => ?_), fun h => ?_⟩ <;> cases h
    | ok consumed =>
      cases consumed with
      | granted info =>
        obtain ⟨rfl, rfl⟩ := Routine.runs_done_iff.mp hrest
        refine .inl ⟨not_refused_consume (fun _ h => ?_), fun h => ?_⟩ <;> cases h
      | refused info =>
        obtain ⟨a, t'', rfl, hresponded⟩ := Routine.runs_call_iff.mp hrest
        refine .inr ⟨info, a, ?_⟩
        cases a with
        | ok _ =>
          obtain ⟨rfl, rfl⟩ := Routine.runs_done_iff.mp hresponded
          exact ⟨rfl, rfl⟩
        | error e =>
          obtain ⟨rfl, rfl⟩ := Routine.runs_throw_iff.mp hresponded
          exact ⟨rfl, rfl⟩

variable {points : Nat} {rest : Action Unit}

theorem runs_limited {x : Except Thrown Unit} (hrest : Unlimited rest)
    (hr : Routine.Runs (limited conf s points rest) t x) :
    (∀ e ∈ t, ¬ Refused e) ∨
      ∃ info, t = [⟨.consume s.ip points, .ok (.refused info)⟩,
        ⟨.respond (tooManyRequests info), x⟩] := by
  rcases hr.of_bind with ⟨t₁, granted, t₂, rfl, hconsume, hr⟩ | ⟨e, rfl, hconsume⟩
  · rcases runs_consumeRateLimitPoints hconsume with ⟨hnone, hgranted⟩ | ⟨info, a, rfl, ha⟩
    · cases granted with
      | false => exact absurd rfl hgranted
      | true =>
        refine .inl fun e he => ?_
        rcases List.mem_append.mp he with he | he
        · exact hnone e he
        · exact hrest.not_refused hr e he
    · cases a with
      | ok _ =>
        cases ha
        obtain ⟨rfl, rfl⟩ := Routine.runs_done_iff.mp hr
        exact .inr ⟨info, rfl⟩
      | error e => cases ha
  · rcases runs_consumeRateLimitPoints hconsume with ⟨hnone, -⟩ | ⟨info, a, rfl, ha⟩
    · exact .inl hnone
    · cases a with
      | ok _ => cases ha
      | error e' =>
        cases ha
        exact .inr ⟨info, rfl⟩

/-- The response to a refusal is the first one, so it is sent. -/
theorem answer_of_sentOnce {key : String} {c : Except Thrown Consumed} {r : Response}
    {x : Except Thrown Unit} {after : List Event}
    (hsent : SentOnce (⟨.consume key points, c⟩ :: ⟨.respond r, x⟩ :: after)) : x = .ok () := by
  refine (hsent [⟨.consume key points, c⟩] r x after rfl).mpr fun e he => ?_
  cases List.mem_singleton.mp he
  rfl

/-- **A handler that looks at the result stops**, whatever catches what it throws. -/
theorem stopped_limited {h : Thrown → Action Unit} {x : Except Thrown Unit}
    (hrest : Unlimited rest) (hh : ∀ e, Unlimited (h e))
    (hr : Routine.Runs ((limited conf s points rest).catchWith h) t x) (hsent : SentOnce t) :
    Stopped t := by
  rcases hr.of_catchWith with ⟨a, -, hr⟩ | ⟨t₁, e, t₂, rfl, hr, hcatch⟩
  · rcases runs_limited hrest hr with hnone | ⟨info, rfl⟩
    · exact stopped_of_not_refused hnone
    · exact stopped_tooManyRequests _ info _
  · rcases runs_limited hrest hr with hnone | ⟨info, rfl⟩
    · refine stopped_of_not_refused fun e' he => ?_
      rcases List.mem_append.mp he with he | he
      · exact hnone e' he
      · exact (hh e).not_refused hcatch e' he
    · cases answer_of_sentOnce hsent

end Stopped

/-- In all its runs. -/
def Stops (p : Action Unit) : Prop := ∀ t x, Routine.Runs p t x → SentOnce t → Stopped t

section Stops

variable {conf : Conf} {s : Sender} {h : Thrown → Action Unit}

theorem Unlimited.stops {p : Action Unit} (hp : Unlimited p) : Stops p :=
  fun _ _ hr _ => stopped_of_not_refused (hp.not_refused hr)

theorem stops_limited {points : Nat} {rest : Action Unit} (hrest : Unlimited rest) :
    Stops (limited conf s points rest) := by
  intro t x hr hsent
  rw [← Routine.catchWith_throw (limited conf s points rest)] at hr
  exact stopped_limited hrest (fun e => .throw e) hr hsent

theorem stops_limited_catchWith {points : Nat} {rest : Action Unit} (hrest : Unlimited rest)
    (hh : ∀ e, Unlimited (h e)) : Stops ((limited conf s points rest).catchWith h) :=
  fun _ _ hr hsent => stopped_limited hrest hh hr hsent

theorem stops_parse {α : Type} {body : Except String α} {f : α → Action Unit}
    (hf : ∀ a, Stops ((f a).catchWith h)) (hh : ∀ e, Unlimited (h e)) :
    Stops ((parse body >>= f).catchWith h) := by
  cases body with
  | ok a => exact hf a
  | error message => exact (hh (.zod message)).stops

theorem unlimited_respond (r : Response) : Unlimited (respond r) := .perform rfl

theorem unlimited_requestRoom (room : String) (request : RoomRequest) :
    Unlimited (requestRoom s room request) := by
  refine .bind (.perform rfl) fun _ => ?_
  refine .bind (.perform rfl) fun _ => ?_
  exact unlimited_respond success

theorem unlimited_isTaken (by_ : Where) : Unlimited (isTaken by_) := by
  refine .catchWith ?_ fun _ => .done false
  exact .bind (.perform rfl) fun user => .done user.isSome

theorem unlimited_isEmailTaken (email : Option String) : Unlimited (isEmailTaken email) := by
  cases email with
  | some e => exact unlimited_isTaken (.email e)
  | none => exact .done false

theorem unlimited_getUser (user : String) : Unlimited (getUser user) := by
  refine .ite (.throw _) (.bind (.perform rfl) fun found => ?_)
  cases found with
  | some user => exact .done user
  | none => exact .throw _

theorem unlimited_changeUserPassword (user : User) (newPassword : String) (validate : Bool) :
    Unlimited (changeUserPassword conf user newPassword validate) := by
  refine .ite (.throw _) ?_
  refine .bind (.perform rfl) fun newSalt => ?_
  refine .bind (.perform rfl) fun hash => ?_
  exact .perform rfl

theorem unlimited_verifyUserPassword (user : User) (password : String) :
    Unlimited (verifyUserPassword user password) := by
  unfold verifyUserPassword
  split
  · refine .bind (.perform rfl) fun result => .ite (.done _) ?_
    refine .bind (.perform rfl) fun outdated => .ite (.done _) ?_
    refine .bind (.perform rfl) fun rehashed => ?_
    exact .bind (.perform rfl) fun _ => .done _
  · exact .done _

theorem unlimited_registerUser (body : RegisterBody) : Unlimited (registerUser conf body) := by
  refine .ite (.throw _) (.ite (.throw _) (.ite (.throw _) ?_))
  refine .bind (.perform rfl) fun salt => .bind (.perform rfl) fun hash => ?_
  refine .bind (unlimited_isTaken _) fun usernameTaken => .ite (.throw _) ?_
  exact .bind (unlimited_isEmailTaken _) fun emailTaken => .ite (.throw _) (.perform rfl)

theorem unlimited_registered (user : User) : Unlimited (registered s user) := by
  refine .bind (.catchWith (.perform rfl) fun _ => .done ()) fun _ => ?_
  refine .bind (.perform rfl) fun _ => ?_
  refine .bind (.catchWith (.perform rfl) fun _ => .done ()) fun _ => ?_
  exact unlimited_respond _

theorem unlimited_setPassword (user : User) (newPassword : String) :
    Unlimited (setPassword conf user newPassword) := by
  refine .bind (.catchWith ?_ fun e => .done (some e)) fun error => ?_
  · exact .bind (unlimited_changeUserPassword user newPassword true) fun _ => .done none
  · cases error with
    | some e => exact unlimited_respond _
    | none => exact unlimited_respond _

theorem unlimited_replacePassword (user : User) (currentPassword : Option String)
    (newPassword : String) :
    Unlimited (replacePassword conf user currentPassword newPassword) := by
  unfold replacePassword
  split
  · exact unlimited_respond _
  · next current _ =>
    refine .bind (unlimited_verifyUserPassword user current) fun verified => ?_
    exact .ite (unlimited_respond _) (unlimited_setPassword _ newPassword)

theorem unlimited_updateAccount (user : User) (update : AccountUpdate) :
    Unlimited (updateAccount conf user update) := by
  refine .bind (unlimited_isEmailTaken _) fun emailTaken => .ite (unlimited_respond _) ?_
  split
  · exact .ite (unlimited_replacePassword _ _ _) (unlimited_setPassword _ _)
  · exact .bind (.when (.perform rfl)) fun _ => unlimited_respond _

/-- The handlers but those of the account recovery. -/
theorem stops_handle {request : Request} (h : request.isRecovery = false) :
    Stops (handle conf s request) := by
  have hcatch (errorHandler : Thrown → Response) (e : Thrown) :
      Unlimited (respond (errorHandler e)) := unlimited_respond _
  cases request with
  | generateRoom body =>
    show Stops (route roomError (generateRoom conf s body))
    unfold generateRoom
    split
    · exact Unlimited.stops (hcatch roomError _)
    · refine stops_parse (fun categories => stops_limited_catchWith ?_ (hcatch roomError))
        (hcatch roomError)
      refine .bind (.perform rfl) fun roomName => .bind (.perform rfl) fun _ => ?_
      exact unlimited_respond _
  | createRoom body =>
    refine stops_parse (fun options => ?_) (hcatch roomError)
    dsimp only
    split
    · exact Unlimited.stops (hcatch roomError _)
    · split
      · exact Unlimited.stops (hcatch roomError _)
      · refine stops_limited_catchWith ?_ (hcatch roomError)
        exact .bind (.perform rfl) fun _ => unlimited_respond _
  | addToQueue room body =>
    exact stops_parse (fun add => stops_limited_catchWith (unlimited_requestRoom room _)
      (hcatch roomError)) (hcatch roomError)
  | removeFromQueue room body =>
    exact stops_parse (fun video => stops_limited_catchWith (unlimited_requestRoom room _)
      (hcatch roomError)) (hcatch roomError)
  | updateQueueItem room body =>
    exact stops_parse (fun video => stops_limited_catchWith (unlimited_requestRoom room _)
      (hcatch roomError)) (hcatch roomError)
  | addPreview input adapter =>
    show Stops (route dataError (addPreview conf s input adapter))
    unfold addPreview
    split
    · exact Unlimited.stops (hcatch dataError _)
    · refine stops_limited_catchWith (.catchWith ?_ (hcatch previewError)) (hcatch dataError)
      exact .bind (.perform rfl) fun result => unlimited_respond _
  | register body =>
    refine stops_limited (.bind (.catchWith ?_ fun e => ?_) fun result => ?_)
    · exact .bind (unlimited_registerUser body) fun user => .done (some user)
    · exact .bind (unlimited_respond _) fun _ => .done none
    · cases result with
      | some user => exact unlimited_registered user
      | none => exact .done ()
  | getAccount =>
    show Stops (getAccount conf s)
    unfold getAccount
    split
    · exact (unlimited_respond _).stops
    · exact stops_limited (unlimited_respond _)
  | patchAccount body =>
    show Stops (patchAccount conf s body)
    unfold patchAccount
    split
    · exact (unlimited_respond _).stops
    · refine stops_limited ?_
      split
      · exact unlimited_respond _
      · exact unlimited_updateAccount _ _
  | deleteDiscordLink =>
    show Stops (deleteDiscordLink conf s)
    unfold deleteDiscordLink
    split
    · exact (unlimited_respond _).stops
    · refine stops_limited (.ite (unlimited_respond _) (.ite (unlimited_respond _) ?_))
      exact .bind (.perform rfl) fun _ => unlimited_respond _
  | accountRecoveryStart _ | accountRecoveryVerify _ => cases h

end Stops

/-! ## Handlers that do not look at the result -/

/-- There is a response in what happens. -/
abbrev Responds {α : Type} (p : Action α) : Prop := p.ReturnsAfter (fun c => c.isRespond = true)

section GoesOn

variable {conf : Conf} {s : Sender} {t : List Event}

/-- A second response. -/
theorem not_stopped_of_respond {key : String} {points : Nat} {info : RateLimiterRes} {r : Response}
    {a : Except Thrown Unit} {after : List Event}
    (hafter : ∃ e ∈ after, e.call.isRespond = true) :
    ¬ Stopped (⟨.consume key points, .ok (.refused info)⟩ :: ⟨.respond r, a⟩ :: after) := by
  intro hstopped
  obtain ⟨r', -, heffects⟩ := hstopped [] _ _ rfl ⟨key, points, info, rfl⟩
  obtain ⟨e, he, hrespond⟩ := hafter
  have hmem : e.call ∈ effects after := by
    refine List.mem_filter.mpr ⟨List.mem_map_of_mem he, ?_⟩
    revert hrespond
    cases e.call <;> simp [Call.isRespond, Call.isEffect]
  have hcons : effects (⟨.respond r, a⟩ :: after) = .respond r :: effects after := rfl
  rw [hcons, List.cons.injEq] at heffects
  rw [heffects.2] at hmem
  exact absurd hmem List.not_mem_nil

theorem endsAfter_respond (r : Response) :
    (respond r).EndsAfter (fun c => c.isRespond = true) :=
  .call rfl

/-- **A handler that does not look at the result goes on**, and responds in the end. -/
theorem not_stopped_unchecked {points : Nat} {rest : Action Unit} {errorHandler : Thrown → Response}
    {x : Except Thrown Unit} (hrest : Unlimited rest) (hresponds : Responds rest)
    (hr : Routine.Runs (route errorHandler (unchecked conf s points rest)) t x)
    (hrefused : ∃ e ∈ t, Refused e) : ¬ Stopped t := by
  have hcatch : Unlimited (route errorHandler rest) := hrest.catchWith fun _ => unlimited_respond _
  obtain ⟨e, he, hrefused⟩ := hrefused
  unfold route unchecked at hr
  split at hr
  · obtain ⟨t₁, granted, t₂, rfl, hconsume, hr⟩ := hr.of_bind_catchWith
    -- what follows the question to the rate limit: the rest, or the error handler
    have hfollows : (∀ e ∈ t₂, ¬ Refused e) ∧ ∃ e ∈ t₂, e.call.isRespond = true := by
      rcases hr with ⟨a, rfl, hr⟩ | ⟨e, rfl, hr⟩
      · exact ⟨hcatch.not_refused hr, hresponds.catchWith (fun _ => endsAfter_respond _) t₂ x hr⟩
      · exact ⟨(unlimited_respond _).not_refused hr, endsAfter_respond _ t₂ x hr⟩
    rcases runs_consumeRateLimitPoints hconsume with ⟨hnone, -⟩ | ⟨info, a, rfl, -⟩
    · rcases List.mem_append.mp he with he | he
      · exact absurd hrefused (hnone e he)
      · exact absurd hrefused (hfollows.1 e he)
    · exact not_stopped_of_respond hfollows.2
  · exact absurd hrefused (hcatch.not_refused hr e he)

theorem responds_respond (r : Response) : Responds (respond r) := (endsAfter_respond r).returns

theorem unlimited_sendPasswordResetEmail (email : String) :
    Unlimited (sendPasswordResetEmail conf email) := by
  refine .ite (.throw _) (.bind (.perform rfl) fun bytes => ?_)
  refine .bind (.perform rfl) fun _ => .bind (.perform rfl) fun sent => ?_
  exact .ite (.done ()) (.throw _)

theorem unlimited_startRecovery (body : RecoveryStart) : Unlimited (startRecovery conf body) := by
  refine .bind (unlimited_getUser _) fun user => ?_
  split
  · exact .throw _
  · exact .bind (unlimited_sendPasswordResetEmail _) fun _ => unlimited_respond _

theorem responds_startRecovery (body : RecoveryStart) : Responds (startRecovery conf body) := by
  refine .bind fun user => ?_
  split
  · exact .throw _
  · exact .bind fun _ => responds_respond _

theorem unlimited_resetPassword (user : User) (body : RecoveryVerify) :
    Unlimited (resetPassword conf s user body) := by
  refine .bind (unlimited_changeUserPassword _ _ _) fun _ => ?_
  refine .bind (.perform rfl) fun _ => .bind (.when (.perform rfl)) fun _ => ?_
  exact .bind (.when (.perform rfl)) fun _ => unlimited_respond _

theorem responds_resetPassword (user : User) (body : RecoveryVerify) :
    Responds (resetPassword conf s user body) :=
  .bind fun _ => .bind fun _ => .bind fun _ => .bind fun _ => responds_respond _

theorem unlimited_verifyRecovery (body : RecoveryVerify) :
    Unlimited (verifyRecovery conf s body) := by
  refine .ite (.throw _) (.bind (.perform rfl) fun accountEmail => ?_)
  split
  · exact .throw _
  · refine .bind (.perform rfl) fun found => ?_
    cases found with
    | none => exact .throw _
    | some user => exact unlimited_resetPassword user body

theorem responds_verifyRecovery (body : RecoveryVerify) :
    Responds (verifyRecovery conf s body) := by
  unfold verifyRecovery
  split
  · exact .throw _
  · refine .bind fun accountEmail => ?_
    split
    · exact .throw _
    · refine .bind fun found => ?_
      cases found with
      | none => exact .throw _
      | some user => exact responds_resetPassword user body

/-- The handlers of the account recovery. -/
theorem not_stopped_recovery {request : Request} (h : request.isRecovery = true)
    (hrun : RefusedRun conf s request t) : ¬ Stopped t := by
  obtain ⟨⟨x, hr⟩, -, hrefused⟩ := hrun
  cases request with
  | accountRecoveryStart body =>
    cases body with
    | ok start =>
      exact not_stopped_unchecked (unlimited_startRecovery start) (responds_startRecovery start)
        hr hrefused
    | error message =>
      obtain ⟨e, he, hrefused⟩ := hrefused
      exact absurd hrefused ((unlimited_respond _).not_refused hr e he)
  | accountRecoveryVerify body =>
    cases body with
    | ok verify =>
      exact not_stopped_unchecked (unlimited_verifyRecovery verify)
        (responds_verifyRecovery verify) hr hrefused
    | error message =>
      obtain ⟨e, he, hrefused⟩ := hrefused
      exact absurd hrefused ((unlimited_respond _).not_refused hr e he)
  | _ => cases h

end GoesOn

/-! ## When a refusal stops the request -/

/-- **A refused rate limit stops the request**, if and only if the request is not one of the account
recovery. -/
theorem stopped_iff {conf : Conf} {s : Sender} {request : Request} {t : List Event}
    (hrun : RefusedRun conf s request t) : Stopped t ↔ request.isRecovery = false := by
  constructor
  · intro hstopped
    cases hrecovery : request.isRecovery with
    | false => rfl
    | true => exact absurd hstopped (not_stopped_recovery hrecovery hrun)
  · intro hrecovery
    obtain ⟨⟨x, hr⟩, hsent, -⟩ := hrun
    exact stops_handle hrecovery t x hr hsent

/-! ### An instance where the points are used up -/

/-- Whatever is called answers, but a response is sent once. -/
def usedUp (before : List Event) : (c : Call) → Except Thrown c.Answer
  | .consume _ _ => .ok (.refused ⟨1001, 60000⟩)
  | .respond _ => if before.all (fun e => !e.call.isRespond) then .ok () else .error .headersSent
  | .findUser _ => .ok (some ⟨1, "alice", some "alice@example.org", some [1], some [2], none⟩)
  | .createUser email username salt hash => .ok ⟨2, username, email, some salt, some hash, none⟩
  | .resolveVideoQuery _ _ _ => .ok ⟨[], none, 0⟩
  | .redisGet _ => .ok none
  | .sendMail _ => .ok true
  | .uuid => .ok "6f6ed2c0-6f2c-4a4c-9d7a-2f7f0d1c2b3a"
  | .randomBytes _ => .ok [1]
  | .argon2Hash _ _ => .ok [3]
  | .argon2Verify _ _ _ => .ok true
  | .argon2NeedsRehash _ => .ok false
  | .reward _ _ | .createRoom _ _ _ | .getRoom _ | .processUnauthorizedRequest _ _ _ | .saveUser _
  | .login _ | .emitLogin _ _ | .setSessionInfo _ _ | .redisSetEx _ _ _ | .redisDel _ => .ok ()

theorem sentOnce_runIn_usedUp (p : Action Unit) (history : List Event) :
    ∀ before r x after, (p.runIn usedUp history).1 = before ++ ⟨.respond r, x⟩ :: after →
      (x = .ok () ↔ ∀ e ∈ history ++ before, e.call.isRespond = false) := by
  induction p generalizing history with
  | done a | throw e =>
    intro before r x after heq
    exact absurd heq.symm (List.append_ne_nil_of_right_ne_nil _ (List.cons_ne_nil _ _))
  | call c k ih =>
    intro before r x after heq
    cases before with
    | nil =>
      cases heq
      rw [List.append_nil]
      show (if history.all (fun e => !e.call.isRespond) then Except.ok () else _) = _ ↔ _
      split
      · next hall => simpa using hall
      · next hall => simpa using hall
    | cons e before =>
      obtain ⟨rfl, htail⟩ := List.cons.inj heq
      rw [List.append_cons]
      exact ih _ _ before r x after htail

/-- The trace of a request. -/
def traceIn (conf : Conf) (s : Sender) (request : Request) : List Event :=
  ((handle conf s request).runIn usedUp []).1

theorem refusedRun_traceIn {conf : Conf} {s : Sender} {request : Request}
    (hrefused : ∃ e ∈ traceIn conf s request, Refused e) :
    RefusedRun conf s request (traceIn conf s request) where
  runs := ⟨_, Routine.runs_runIn usedUp _ _⟩
  sentOnce := sentOnce_runIn_usedUp _ []
  refused := hrefused

def exampleConf : Conf where
  rateLimitEnabled := true
  enableCreateTemporary := true
  enableCreatePermanent := true
  searchProvider := "youtube"
  mailEnabled := true
  hostname := "opentogethertube.com"
  baseUrl := ""
  accounts := ⟨true, false⟩
  runtime := ⟨fun _ _ => none, fun url _ => url, fun _ => none, id⟩

def stranger : Sender := ⟨"203.0.113.7", none, none⟩

def removesVideo : Request := .removeFromQueue "room" (.ok ⟨.youtube, "dQw4w9WgXcQ"⟩)

def startsRecovery : Request := .accountRecoveryStart (.ok (.email "alice@example.org"))

theorem stopped_iff_removesVideo : RefusedRun exampleConf stranger removesVideo
      (traceIn exampleConf stranger removesVideo) ∧
    (Stopped (traceIn exampleConf stranger removesVideo) ↔ removesVideo.isRecovery = false) := by
  have hrun := @refusedRun_traceIn exampleConf stranger removesVideo
    ⟨_, List.mem_cons_self, _, _, _, rfl⟩
  exact ⟨hrun, stopped_iff hrun⟩

/-- **A refused request for a recovery has its mail sent**, and a key stored for it. -/
theorem not_stopped : ∃ t, RefusedRun exampleConf stranger startsRecovery t ∧
    (∃ key seconds, .redisSetEx key seconds "alice@example.org" ∈ effects t) ∧
    (∃ mail, .sendMail mail ∈ effects t) ∧ ¬ Stopped t := by
  have hrun := @refusedRun_traceIn exampleConf stranger startsRecovery
    ⟨_, List.mem_cons_self, _, _, _, rfl⟩
  refine ⟨_, hrun, ⟨_, _, List.mem_of_getElem? (i := 2) rfl⟩, ⟨_, List.mem_of_getElem? (i := 3) rfl⟩,
    not_stopped_recovery rfl hrun⟩

end OpenTogetherTube.Server.RateLimits
