import Teiryo.Providers.Parser

/-!
# The Claude login

Where the access token of a poll comes from, following `teiryo-providers/src/claude/credentials.rs`
and the authenticator of `claude/mod.rs`. What a read of the file or of the Keychain produced is an
input.
-/

namespace Teiryo

/-- Credential discovery/resolution failure. -/
inductive AuthError where
  | notLoggedIn (message : String)
  | expired (message : String)
  | store (message : String)
  deriving DecidableEq, Repr

def AuthError.display : AuthError → String
  | .notLoggedIn m => "not logged in: " ++ m
  | .expired m => "credential expired or invalid: " ++ m
  | .store m => "credential store: " ++ m

inductive Credential where
  | oAuthToken (token : String)
  | apiKey (key : String)
  | cookieJar (jar : String)
  deriving DecidableEq

/-- `Debug`, which prints only the variant name. -/
def Credential.debug : Credential → String
  | .oAuthToken _ => "Credential::OAuthToken([REDACTED])"
  | .apiKey _ => "Credential::ApiKey([REDACTED])"
  | .cookieJar _ => "Credential::CookieJar([REDACTED])"

namespace Claude

structure ClaudeCredentials where
  accessToken : String
  expiresAtMs : Int
  deriving DecidableEq

/-- Whether the access token is past its recorded expiry. -/
def ClaudeCredentials.isExpired (creds : ClaudeCredentials) (nowMs : Int) : Bool :=
  decide (creds.expiresAtMs ≤ nowMs)

structure OauthSection where
  accessToken : Option String
  expiresAt : Option Int

/-- An `i64`: digits without a fraction. To `serde_json`, `-0` is a float. -/
def i64Value : Json → Option Int
  | .number text =>
    let (negative, digits) := match text.toList with
      | '-' :: digits => (true, digits)
      | digits => (false, digits)
    let magnitude : Nat := digits.foldl (fun n c => 10 * n + (c.toNat - 48)) 0
    let value : Int := if negative then -magnitude else magnitude
    if digits.all Char.isDigit && text != "-0" && decide (-2 ^ 63 ≤ value) &&
        decide (value < 2 ^ 63) then some value
    else none
  | _ => none

/-- Read as a sequence, the section needs its first field. -/
def OauthSection.deserialize : Json → Option OauthSection
  | .array [] => none
  | value =>
    match value.fields ["accessToken", "expiresAt"] with
    | some [accessToken, expiresAt] => do
      let accessToken ← Json.optional Json.asString accessToken
      let expiresAt ← Json.optional i64Value expiresAt
      return { accessToken, expiresAt }
    | _ => none

structure CredentialsFile where
  claudeAiOauth : Option OauthSection

def CredentialsFile.deserialize : Json → Option CredentialsFile
  | .array [] => none
  | value =>
    match value.fields ["claudeAiOauth"] with
    | some [claudeAiOauth] =>
      (Json.optional OauthSection.deserialize claudeAiOauth).map fun claudeAiOauth =>
        { claudeAiOauth }
    | _ => none

/-- What one run of the Keychain reader produced: the password without the blanks around it, or the
exit code and the first line of stderr. -/
inductive KeychainRead where
  | found (password : List UInt8)
  | exited (code : Option Int) (detail : String)
  | timedOut
  | spawn (message : String)

/-- What a read of the credentials file produced. -/
inductive FileRead where
  | bytes (bytes : List UInt8)
  | notFound
  | failed (message : String)

/-- Where an adapter reads credentials from, and what is there on a given call. -/
structure CredentialStore where
  path : String
  /-- Read the Keychain when the file does not exist. -/
  keychainFallback : Bool
  fileExists : Bool
  file : FileRead
  keychain : KeychainRead

def keychainService : String := "Claude Code-credentials"

def security : String := "/usr/bin/security"

def keychainTimeoutSecs : Nat := 5

/-- `security`'s exit status for `errSecItemNotFound`. -/
def itemNotFound : Int := 44

section

variable {F : Type} (serde : Serde F)

/-- Parse the credentials JSON; `origin` names where it came from in errors. -/
def parseCredentials (bytes : List UInt8) (origin : String) : Except AuthError ClaudeCredentials :=
  match serde.fromSlice bytes with
  | .error e => .error (.store ("parsing " ++ origin ++ ": " ++ e))
  | .ok value =>
    match CredentialsFile.deserialize value with
    | none => .error (.store ("parsing " ++ origin ++ ": " ++ serde.unexpected bytes))
    | some file =>
      match file.claudeAiOauth with
      | none => .error (.notLoggedIn (origin ++ " has no claudeAiOauth section"))
      | some oauth =>
        match oauth.accessToken.filter (· ≠ "") with
        | none => .error (.notLoggedIn (origin ++ " has no access token"))
        -- A missing expiry counts as expired.
        | some accessToken => .ok { accessToken, expiresAtMs := oauth.expiresAt.getD 0 }

/-- Load and parse the credentials file. -/
def loadFile (path : String) : FileRead → Except AuthError ClaudeCredentials
  | .notFound => .error (.notLoggedIn
      ("no Claude Code credentials at " ++ path ++ "; run `claude` and log in"))
  | .failed e => .error (.store ("reading " ++ path ++ ": " ++ e))
  | .bytes bytes => parseCredentials serde bytes path

/-- Map one reader outcome to credentials, or to the error the daemon reports. -/
def interpret (read : KeychainRead) : Except AuthError ClaudeCredentials :=
  let origin := "the Keychain item \"" ++ keychainService ++ "\""
  match read with
  | .found password => parseCredentials serde password origin
  | .exited code detail =>
    if code = some itemNotFound then .error (.notLoggedIn
      ("no Claude Code login in the macOS Keychain (" ++ origin ++ "); run `claude` and log in"))
    else
      let status := (code.map fun c => "status " ++ toString c).getD "a signal"
      let exited := "reading " ++ origin ++ ": " ++ security ++ " exited with " ++ status
      .error (.store (if detail = "" then exited else exited ++ ": " ++ detail))
  | .timedOut => .error (.store ("reading " ++ origin ++ " timed out after " ++
      toString keychainTimeoutSecs ++ "s; macOS is probably waiting for you to allow " ++
      security ++ " to access it"))
  | .spawn e => .error (.store ("cannot run " ++ security ++ ": " ++ e))

/-- Load the current credentials from wherever the adapter reads them. -/
def loadCredentials (store : CredentialStore) : Except AuthError ClaudeCredentials :=
  if store.keychainFallback && !store.fileExists then interpret serde store.keychain
  else loadFile serde store.path store.file

def discoverAccounts (store : CredentialStore) : Except AuthError (List Account) := do
  let _ ← loadCredentials serde store
  return [{ id := ⟨"claude:default"⟩, provider := "claude", label := "default" }]

def credentialFor (store : CredentialStore) (nowMs : Int) : Except AuthError Credential :=
  match loadCredentials serde store with
  | .error e => .error e
  | .ok creds =>
    if creds.isExpired nowMs then .error (.expired
      "Claude Code access token is past its expiry; run `claude` to refresh")
    else .ok (.oAuthToken creds.accessToken)

/-- The token a poll may send: one on record whose expiry has not come. -/
def liveToken (store : CredentialStore) (nowMs : Int) : Option String :=
  match loadCredentials serde store with
  | .ok creds => if nowMs < creds.expiresAtMs then some creds.accessToken else none
  | .error _ => none

variable {serde}

theorem credentialFor_of_live {store : CredentialStore} {nowMs : Int} {token : String}
    (h : liveToken serde store nowMs = some token) :
    credentialFor serde store nowMs = .ok (.oAuthToken token) := by
  unfold liveToken at h
  unfold credentialFor
  cases hload : loadCredentials serde store with
  | error e => simp [hload] at h
  | ok creds =>
    simp only [hload, Option.ite_none_right_eq_some, Option.some.injEq] at h
    obtain ⟨hlive, rfl⟩ := h
    have hexpired : creds.isExpired nowMs = false := decide_eq_false (by omega)
    simp only [hexpired, Bool.false_eq_true, if_false]

theorem credentialFor_of_none {store : CredentialStore} {nowMs : Int}
    (h : liveToken serde store nowMs = none) :
    ∃ e, credentialFor serde store nowMs = .error e := by
  unfold liveToken at h
  unfold credentialFor
  cases hload : loadCredentials serde store with
  | error e => exact ⟨e, rfl⟩
  | ok creds =>
    simp only [hload, ite_eq_right_iff, reduceCtorEq, imp_false] at h
    have hexpired : creds.isExpired nowMs = true := decide_eq_true (by omega)
    simp only [hexpired, if_true]
    exact ⟨_, rfl⟩

end

end Claude
end Teiryo
