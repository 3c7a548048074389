import SignetDrive.Model.Passkeys

/-!
# An account over rotations, reloads and sign-ins

`rotatePasskey` of `web/src/routes/account/+page.svelte` with `web/src/lib/account.svelte.ts`, the
sign-in of `web/src/routes/signin/+page.svelte`, and the restore that a loaded page begins. The server
stores a new credential and the posted blob together, or neither.
-/

namespace SignetDrive.PasskeyAccount
open Client Unlock Dialogue

variable {Point : Type} [AddCommGroup Point] (c : KeyPlatform Point)

structure Registered where
  credentialId : Bytes
  blob : Json

structure World where
  server : Registered
  /-- `sessionStore.current`. -/
  live : Option (Unlock.Session CryptoKey)
  unlock : Unlock.State CryptoKey
  reported : Bool
  seals : List (Bytes × Aead.Call Bytes Bytes Bytes)

/-- The answers of an event come from the server, the authenticator and the platform. -/
inductive Event where
  /-- The rotation of the account page, and whether the server commits it when it is asked to. -/
  | rotate (answer : Answers c) (committed : Bool)
  | signIn (answer : Answers c) (email : String)
  | reload
  /-- A persist or a restore goes on. -/
  | unlock (answer : Answers c) (event : Unlock.Event CryptoKey)

variable {c}

def sealOf : Exchange (FlowAnswer c) → Option (Bytes × Aead.Call Bytes Bytes Bytes)
  | ⟨.encrypt key nonce message aad, _⟩ => some (key, ⟨nonce, aad, message⟩)
  | _ => none

variable (c) in
/-- What the server is asked to store: the new credential, by the id in its response, and the blob. -/
def completionOf : Exchange (FlowAnswer c) → Option Registered
  | ⟨.request (.rotatePasskeyComplete body blob), _⟩ =>
    (decode c (optionalProp (body.get "new_credential") "rawId")).toOption.map (⟨·, blob⟩)
  | _ => none

namespace World

def sealed (w : World) (transcript : Transcript c) : World :=
  { w with seals := w.seals ++ transcript.filterMap sealOf }

def committed (w : World) (commits : Bool) (transcript : Transcript c) : World :=
  if commits then { w with server := (transcript.filterMap (completionOf c)).getLast?.getD w.server } else w

/-- A session of a gesture becomes the live one, and its persist is started and not awaited. -/
def hold (w : World) (session : Unlock.Session CryptoKey) : World :=
  { w with live := some session, unlock := w.unlock.start (.fetchingConfig session) }

/-- `rotatePasskey` of the account page. An error is shown, and nothing else is done. -/
def rotate (w : World) (answer : Answers c) (commits : Bool) : Option World := do
  let session ← w.live
  let ended := run answer [] (rotatePasskey c session.wrappedKemPrivkeyBlob)
  let w := (w.committed commits ended.2).sealed ended.2
  match ended.1 with
  | .ok newBlob =>
    return { w.hold { session with wrappedKemPrivkeyBlob := some newBlob } with reported := true }
  | .error _ => return w

def signIn (w : World) (answer : Answers c) (email : String) : Option World :=
  match w.live with
  | some _ => none
  | none =>
    let ended := run answer [] (SignetDrive.signIn c email)
    match ended.1 with
    | .ok session => some ((w.sealed ended.2).hold session)
    | .error _ => some (w.sealed ended.2)

/-- The page is loaded again: its session and its calls are gone, and a restore begins. -/
def reload (w : World) : World := { w with live := none, unlock := ⟨w.unlock.store, [.getting]⟩ }

def restoredBy (u : Unlock.State CryptoKey) : Unlock.Event CryptoKey → Option (Unlock.Session CryptoKey)
  | .derived i =>
    match u.calls[i]? with
    | some (.restored session) => session
    | _ => none
  | _ => none

/-- A call goes on. A restored session is taken up unless there is one already. -/
def goOn (w : World) (answer : Answers c) (event : Unlock.Event CryptoKey) : Option World :=
  match event with
  | .persist _ | .restore | .purge _ => none
  | event => do
    let u ← Unlock.step (unlockCrypto c answer) w.unlock event
    return { w with unlock := u, live := w.live.or (restoredBy u event) }

end World

variable (c) in
def step (w : World) : Event c → Option World
  | .rotate answer commits => w.rotate answer commits
  | .signIn answer email => w.signIn answer email
  | .reload => some w.reload
  | .unlock answer event => w.goOn answer event

end SignetDrive.PasskeyAccount
