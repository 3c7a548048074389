import SignetDrive.Lib.EventLoop

/-!
# The stores behind the account pages

`GarnetStore` (`web/src/lib/garnet.svelte.ts`), `EnrollmentStore` (`enrollment.svelte.ts`) and
`AccountStore` (`account.svelte.ts`) as scripts of a page. An error comes with the text that
`friendlyCeremonyError` gives it; a passkey gesture is awaited together with the request before it.
-/

namespace SignetDrive

open EventLoop

structure GarnetGrant where
  status : String
  enrollmentConfirmed : Bool
  contested : Bool
  overdue : Bool
  deriving DecidableEq

def hasHotGrant (grants : List GarnetGrant) : Bool :=
  grants.any fun g => g.status = "active" && (!g.enrollmentConfirmed || g.contested || g.overdue)

structure GarnetPanel where
  grants : List GarnetGrant
  brokers : List String

structure GarnetStore where
  grants : List GarnetGrant
  brokers : List String
  loading : Bool
  busy : Bool
  error : String
  pollTimer : Option ℕ
  deriving DecidableEq

inductive GarnetTick where
  | poll
  deriving DecidableEq

inductive GarnetRequest where
  | listGarnetGrants
  | listPrsns
  | listGarnetBrokers
  | ceremonyBegin (operation : String) (beginBody : String × String)
  | ceremonyComplete (operation : String)
  deriving DecidableEq

/-- A suspended call, by its `await`. The last three are those of an action. -/
inductive GarnetCall where
  | init
  | quietRefresh
  | ceremonyBegin (operation : String)
  | ceremonyComplete
  | loadGrants
  deriving DecidableEq

inductive GarnetEntry where
  | init
  | authorize (subjectAccountId : String)
  | revoke (grantId : String)
  | confirm (grantId : String)

abbrev GarnetAnswer : GarnetCall → Type
  | .init | .quietRefresh => Except String GarnetPanel
  | .ceremonyBegin _ | .ceremonyComplete => Except String Unit
  | .loadGrants => Except String (List GarnetGrant)

abbrev GarnetPage := Page GarnetStore GarnetTick GarnetCall GarnetRequest

namespace GarnetStore

def new : GarnetStore := ⟨[], [], true, false, "", none⟩

def hasBroker (s : GarnetStore) : Bool := 0 < s.brokers.length

def readPanel : List GarnetRequest := [.listGarnetGrants, .listPrsns, .listGarnetBrokers]

variable (p : GarnetPage)

def schedulePoll : GarnetPage :=
  if p.store.pollTimer ≠ none then p
  else if !hasHotGrant p.store.grants && p.store.hasBroker then p
  else if !p.visible then p
  else p.setTimeout .poll fun handle s => { s with pollTimer := some handle }

def quietRefresh (p : GarnetPage) : GarnetPage := p.await .quietRefresh readPanel

/-- `authorize`, `revoke` and `confirm`: a ceremony, then the grants are read again. -/
def act (operation : String) (beginBody : String × String) (p : GarnetPage) : GarnetPage :=
  (p.update fun s => { s with busy := true, error := "" }).await (.ceremonyBegin operation)
    [.ceremonyBegin operation beginBody]

def enter : GarnetEntry → GarnetPage → GarnetPage
  | .init, p => (p.update fun s => { s with loading := true, error := "" }).await .init readPanel
  | .authorize subjectAccountId, p => act "garnet-authorize-grant" ("subject_account_id", subjectAccountId) p
  | .revoke grantId, p => act "garnet-revoke-grant" ("grant_id", grantId) p
  | .confirm grantId, p => act "garnet-confirm-enrollment" ("grant_id", grantId) p

def actFailed (error : String) (p : GarnetPage) : GarnetPage :=
  p.update fun s => { s with error, busy := false }

/-- `init` behind its `try`. -/
def initialized : GarnetPage :=
  schedulePoll (p.update fun s => { s with loading := false }).addEventListener

def takePanel (panel : GarnetPanel) (s : GarnetStore) : GarnetStore :=
  { s with grants := panel.grants, brokers := panel.brokers }

def resume : ℕ → (call : GarnetCall) → GarnetAnswer call → GarnetPage → GarnetPage
  | _, .init, .ok panel, p => initialized (p.update (takePanel panel))
  | _, .init, .error e, p => initialized (p.update fun s => { s with error := e })
  | _, .quietRefresh, .ok panel, p => schedulePoll (p.update (takePanel panel))
  | _, .quietRefresh, .error _, p => schedulePoll p
  | id, .ceremonyBegin operation, .ok _, p => p.awaitAgain id .ceremonyComplete [.ceremonyComplete operation]
  | _, .ceremonyBegin _, .error e, p => actFailed e p
  | id, .ceremonyComplete, .ok _, p => p.awaitAgain id .loadGrants [.listGarnetGrants]
  | _, .ceremonyComplete, .error e, p => actFailed e p
  | _, .loadGrants, .ok grants, p =>
    (schedulePoll (p.update fun s => { s with grants })).update fun s => { s with busy := false }
  | _, .loadGrants, .error e, p => actFailed e p

def fire : GarnetTick → GarnetPage → GarnetPage
  | .poll, p => quietRefresh (p.update fun s => { s with pollTimer := none })

def onVisibilityChange : GarnetPage := if p.visible then quietRefresh p else p

def dispose : GarnetPage :=
  let p := if p.store.pollTimer ≠ none then
      (p.clearTimeout p.store.pollTimer).update fun s => { s with pollTimer := none }
    else p
  p.removeEventListener

def script : Script GarnetStore GarnetTick GarnetCall GarnetRequest GarnetEntry GarnetAnswer :=
  ⟨enter, resume, fire, onVisibilityChange, dispose⟩

end GarnetStore

def isHandleEdge (c : Char) : Bool := ('a' ≤ c && c ≤ 'z') || ('0' ≤ c && c ≤ '9')

def matchesHandleRe (handle : String) : Bool :=
  match handle.toList with
  | [] => false
  | first :: rest =>
    isHandleEdge first && rest.length ≤ 63 && rest.dropLast.all (fun c => isHandleEdge c || c = '-') &&
      rest.getLast?.any isHandleEdge

section Handles

-- `trim` and `toLowerCase` are the methods of JavaScript strings.
variable (trim toLowerCase : String → String)

def normalizeHandle (raw : String) : String := toLowerCase (trim raw)

def endsInAi (handle : String) : Bool := "-ai".toList.isSuffixOf handle.toList

def appendAiSuffix (base : String) : String :=
  let b := trim base
  if endsInAi b then b else s!"{b}-ai"

def validatePrsnHandle (suffixed : String) : Bool := matchesHandleRe suffixed && endsInAi suffixed

end Handles

inductive EnrollPhase where
  | resolving
  | confirm
  | waiting
  | approve
  | done
  deriving DecidableEq

/-- A failed request: the code of a `SignetApiError`, if it is one, and its friendly text. -/
structure ApiFailure where
  code : Option String
  friendly : String

def friendlyEnrollError (error : ApiFailure) : String :=
  if error.code = some "not_found" then "This enrollment expired — start over from + Add PRSN."
  else error.friendly

structure EnrollmentStatusResponse where
  status : String
  handle : Option String

structure EnrollmentStore where
  timer : Option ℕ
  slowTimer : Option ℕ
  phase : EnrollPhase
  handle : String
  sharing : String
  busy : Bool
  error : String
  status : String
  slow : Bool
  deriving DecidableEq

inductive EnrollmentTick where
  | poll
  | slow
  deriving DecidableEq

inductive EnrollmentRequest where
  | pollEnrollment (code : String)
  | confirmEnrollment (code handle sharing : String)
  | ceremonyBegin (operation : String) (beginBody : String × String)
  | ceremonyComplete (operation : String)
  deriving DecidableEq

inductive EnrollmentCall where
  | resume
  | confirm
  | poll
  | approveBegin
  | approveComplete
  deriving DecidableEq

inductive EnrollmentEntry where
  | resume
  | edit (handle sharing : String)
  | confirm
  | approve

abbrev EnrollmentAnswer : EnrollmentCall → Type
  | .resume | .poll => Except ApiFailure EnrollmentStatusResponse
  | .confirm | .approveBegin | .approveComplete => Except ApiFailure Unit

abbrev EnrollmentPage := Page EnrollmentStore EnrollmentTick EnrollmentCall EnrollmentRequest

namespace EnrollmentStore

def new : EnrollmentStore := ⟨none, none, .resolving, "", "read_only", false, "", "pending", false⟩

variable (p : EnrollmentPage)

def clearSlow : EnrollmentPage :=
  (p.clearTimeout p.store.slowTimer).update fun s => { s with slowTimer := none }

def fail (message : String) (p : EnrollmentPage) : EnrollmentPage :=
  (clearSlow p).update fun s => { s with error := message, status := "failed" }

def pollLater : EnrollmentPage :=
  p.setTimeout .poll fun handle s => { s with timer := some handle }

/-- The page waits for the agent: the phase and the timer of the hint. -/
def startWaiting : EnrollmentPage :=
  (p.update fun s => { s with phase := .waiting, slow := false }).setTimeout .slow fun handle s =>
    { s with slowTimer := some handle }

def backToConfirm (error : String) (p : EnrollmentPage) : EnrollmentPage :=
  p.update fun s => { s with phase := .confirm, error }

section Script

variable (code : String) (trim toLowerCase : String → String)

def poll (p : EnrollmentPage) : EnrollmentPage := p.await .poll [.pollEnrollment code]

def confirm (p : EnrollmentPage) : EnrollmentPage :=
  let handle := appendAiSuffix trim (normalizeHandle trim toLowerCase p.store.handle)
  if !validatePrsnHandle handle then
    p.update fun s => { s with error := "Use lowercase letters, digits and hyphens (2–61 characters)." }
  else
    (p.update fun s => { s with handle, busy := true, error := "" }).await .confirm
      [.confirmEnrollment code handle p.store.sharing]

def enter : EnrollmentEntry → EnrollmentPage → EnrollmentPage
  | .resume, p => p.await .resume [.pollEnrollment code]
  | .edit handle sharing, p => p.update fun s => { s with handle, sharing }
  | .confirm, p => confirm code trim toLowerCase p
  | .approve, p =>
    (p.update fun s => { s with busy := true, error := "" }).await .approveBegin
      [.ceremonyBegin "issue-attestation" ("enrollment_code", code)]

/-- `resume` behind the answer of its poll. An empty handle is not taken over. -/
def resumed (res : EnrollmentStatusResponse) (p : EnrollmentPage) : EnrollmentPage :=
  let p := p.update fun s =>
    { s with status := res.status, handle := (res.handle.filter (· ≠ "")).getD s.handle }
  if res.status = "keys_submitted" ∨ res.status = "completed" then p.update fun s =>
    { s with phase := .approve }
  else if res.status = "confirmed" then pollLater (startWaiting p)
  else if res.status = "expired" then backToConfirm "This enrollment expired — start over from + Add PRSN." p
  else if res.status = "cancelled" then backToConfirm
    "This enrollment was cancelled — start over from + Add PRSN." p
  else if res.status = "failed" then backToConfirm "This enrollment failed — start over from + Add PRSN." p
  else p.update fun s => { s with phase := .confirm }

def polled (res : EnrollmentStatusResponse) (p : EnrollmentPage) : EnrollmentPage :=
  let p := p.update fun s => { s with status := res.status }
  if res.status = "keys_submitted" ∨ res.status = "completed" then
    (clearSlow p).update fun s => { s with phase := .approve }
  else if res.status = "expired" then fail "This enrollment expired. Start over from Add PRSN." p
  else if res.status = "cancelled" then fail "This enrollment was cancelled." p
  else if res.status = "failed" then fail "This enrollment failed. Start over from Add PRSN." p
  else pollLater p

def resume : ℕ → (call : EnrollmentCall) → EnrollmentAnswer call → EnrollmentPage → EnrollmentPage
  | _, .resume, .ok res, p => resumed res p
  | _, .resume, .error e, p => p.update fun s =>
    { s with phase := .confirm, error := if e.code = some "not_found" then friendlyEnrollError e else s.error }
  | _, .confirm, .ok _, p => (poll code (startWaiting p)).update fun s => { s with busy := false }
  | _, .confirm, .error e, p => p.update fun s => { s with error := friendlyEnrollError e, busy := false }
  | _, .poll, .ok res, p => polled res p
  | _, .poll, .error _, p => pollLater p
  | id, .approveBegin, .ok _, p => p.awaitAgain id .approveComplete [.ceremonyComplete "issue-attestation"]
  | _, .approveComplete, .ok _, p => p.update fun s => { s with phase := .done, busy := false }
  | _, .approveBegin, .error e, p | _, .approveComplete, .error e, p =>
    p.update fun s => { s with error := friendlyEnrollError e, busy := false }

def fire : EnrollmentTick → EnrollmentPage → EnrollmentPage
  | .poll, p => poll code p
  | .slow, p => p.update fun s => { s with slow := true }

def dispose : EnrollmentPage :=
  clearSlow ((p.clearTimeout p.store.timer).update fun s => { s with timer := none })

/-- The store never listens to the document. -/
def script : Script EnrollmentStore EnrollmentTick EnrollmentCall EnrollmentRequest EnrollmentEntry
    EnrollmentAnswer :=
  ⟨enter code trim toLowerCase, resume code, fire code, id, dispose⟩

end Script

end EnrollmentStore

structure AccountMe where
  accountType : String
  needsActivation : Bool
  deriving DecidableEq

structure AccountStore where
  me : Option AccountMe
  loading : Bool
  error : String
  deriving DecidableEq

inductive AccountRequest where
  | getMe
  | getQuota
  | listPrsns
  | getTiers
  deriving DecidableEq

inductive AccountCall where
  | initMe
  | initPrsns (needsActivation : Bool)
  | initTiers
  | refreshMe
  | refreshPrsns
  deriving DecidableEq

inductive AccountEntry where
  | init

abbrev AccountAnswer : AccountCall → Type
  | .initMe | .refreshMe => Except String AccountMe
  | .initPrsns _ | .initTiers | .refreshPrsns => Except String Unit

abbrev AccountPage := Page AccountStore Empty AccountCall AccountRequest

namespace AccountStore

def new : AccountStore := ⟨none, true, ""⟩

def quietRefresh (p : AccountPage) : AccountPage := p.await .refreshMe [.getMe, .getQuota]

def enter : AccountEntry → AccountPage → AccountPage
  | .init, p => (p.update fun s => { s with loading := true, error := "" }).await .initMe [.getMe, .getQuota]

/-- `init` behind its `try`. -/
def initialized (p : AccountPage) : AccountPage :=
  (p.update fun s => { s with loading := false }).addEventListener

def initFailed (error : String) (p : AccountPage) : AccountPage :=
  initialized (p.update fun s => { s with error })

def resume : ℕ → (call : AccountCall) → AccountAnswer call → AccountPage → AccountPage
  | id, .initMe, .ok me, p =>
    let p := p.update fun s => { s with me := some me }
    if me.accountType = "human" then p.awaitAgain id (.initPrsns me.needsActivation) [.listPrsns]
    else initialized p
  | id, .initPrsns needsActivation, .ok _, p =>
    if needsActivation then p.awaitAgain id .initTiers [.getTiers] else initialized p
  | _, .initTiers, .ok _, p => initialized p
  | _, .initMe, .error e, p | _, .initPrsns _, .error e, p | _, .initTiers, .error e, p => initFailed e p
  | id, .refreshMe, .ok me, p =>
    let p := p.update fun s => { s with me := some me }
    if me.accountType = "human" then p.awaitAgain id .refreshPrsns [.listPrsns] else p
  | _, .refreshMe, .error _, p | _, .refreshPrsns, _, p => p

def onVisibilityChange (p : AccountPage) : AccountPage := if p.visible then quietRefresh p else p

/-- The store never arms a timer. -/
def script : Script AccountStore Empty AccountCall AccountRequest AccountEntry AccountAnswer :=
  ⟨enter, resume, nofun, onVisibilityChange, Page.removeEventListener⟩

end AccountStore

end SignetDrive
