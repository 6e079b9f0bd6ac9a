import MatrixSession.Client.Basic

/-!
Sending commands. A command that needs a token is sent with the access token of the moment. If
the server rejects the token, it is renewed at most once and the command is sent again at most
once. Renewing happens under a lock, so that of several callers whose token was rejected one
renews it and the others take the new one.
-/
namespace MatrixSession.Client

def accessToken : Call String := do
  match ← Call.ask (.readToken .access) with
  | some token => pure token
  | none => throw .missingAccessToken

def refreshCommand (c : Client) : Call Command := do
  match ← Call.ask (.readToken .refresh) with
  | some token => Call.ofExcept (c.refreshBuilder c.server token)
  | none => throw .authExpired

def canRefresh (c : Client) : Call Bool := do
  let token ← Call.ask (.readToken .refresh)
  pure (token.isSome && c.features.has .refreshTokenV3)

def storeTokens (tokens : RefreshedTokens) : Call Unit := do
  Call.ask (.writeToken .access tokens.access)
  match tokens.refresh with
  | some token => Call.ask (.writeToken .refresh token)
  | none => pure ()

/-- Exchanges the refresh token, and tells whether new tokens are stored. The exchange is sent as
    it is, so a rejection of it renews nothing. -/
def exchange (c : Client) : Call Bool := do
  let command ← c.refreshCommand
  let response ← Call.send command (c.options false)
  if response.status = 200 then
    let tokens ← Call.ofExcept (response.decode RefreshedTokens.ofBytes?)
    storeTokens tokens
    pure true
  else if response.status = 401 then throw .authExpired
  else pure false

/-- Replaces a rejected access token, unless another caller has already done so. Tells whether
    sending again makes sense. -/
def renew (c : Client) (rejected : String) : Call Bool := do
  let current ← Call.ask (.readToken .access)
  if current = some rejected then c.exchange else pure true

def sendAuthorized (c : Client) (command : Command) (token : String) : Call Response :=
  Call.send (command.withBearer token) (c.options false)

/-- What becomes of a command whose token was rejected: the rejection itself if the token cannot
    be renewed, else the response to sending it again. -/
def recover (c : Client) (command : Command) (rejection : Response) (rejected : String) :
    Call Response := do
  if ← c.canRefresh then
    match ← Call.underLock c.config.lockName c.config.lockTimeout (c.renew rejected) with
    | some true =>
      let token ← accessToken
      c.sendAuthorized command token
    | _ => pure rejection
  else pure rejection

/-- Sends a command. Without need of a token it is sent once, and a response that is no success
    is a failure. -/
def execute (c : Client) (command : Command) : Call Response :=
  if command.requiresAuth then do
    let token ← accessToken
    let response ← c.sendAuthorized command token
    if response.status = 401 then c.recover command response token else pure response
  else Call.send command (c.options true)

end MatrixSession.Client
