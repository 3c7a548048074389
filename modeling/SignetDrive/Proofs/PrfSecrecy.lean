import SignetDrive.Model.Passkeys
import SignetDrive.Proofs.WebKeys

/-!
# The outputs of the PRF stay in the browser

Two runs of a flow that differ only in the outputs of the PRF ask the same of their surroundings, up
to the keys that come from the outputs.
-/

namespace SignetDrive.Proofs

open Dialogue Client

variable {Point : Type} [AddCommGroup Point] {c : KeyPlatform Point} {V : Type}

def publicRegistration (cred : RegistrationCredential) : RegistrationCredential := cred.withPrf (none, none)

def publicAssertion (cred : AssertionCredential) : AssertionCredential × Option ℕ :=
  (cred.withPrf (none, none), (cred.extensionResults.prf.bind (·.first)).map List.length)

variable (c) in
/-- The two questions are the same, except for the wrapped keys of a request and the key of the
cipher. -/
def SameQuestion (view : Json → V) : Question → Question → Prop
  | .request r, .request r' => r.map view = r'.map view
  | .create options, .create options' => options = options'
  | .get options, .get options' => options = options'
  | .getRandomValues n, .getRandomValues n' => n = n'
  | .generateKey, .generateKey => True
  | .mlkemSeed, .mlkemSeed => True
  | .encrypt key nonce message aad, .encrypt key' nonce' message' aad' =>
    (key.length = 32 ∧ key'.length = 32) ∧ nonce = nonce' ∧ message = message' ∧ aad = KEM_WRAP_LABEL ∧
      aad' = KEM_WRAP_LABEL
  | .decrypt _ nonce sealed aad, .decrypt _ nonce' sealed' aad' =>
    nonce = nonce' ∧ sealed = sealed' ∧ aad = aad'
  | _, _ => False

variable (c) in
/-- The two answers are the same, except for the outputs of the PRF and what was sealed. -/
def SameAnswer (view : Json → V) : (q r : Question) → FlowAnswer c q → FlowAnswer c r → Prop
  | .request _, .request _, a, b => a = b
  | .create _, .create _, a, b => a.map (Option.map publicRegistration) = b.map (Option.map publicRegistration)
  | .get _, .get _, a, b => a.map (Option.map publicAssertion) = b.map (Option.map publicAssertion)
  | .getRandomValues _, .getRandomValues _, a, b => a.toList = b.toList
  | .generateKey, .generateKey, a, b => a = b
  | .mlkemSeed, .mlkemSeed, a, b => a = b
  | .encrypt _ nonce _ _, .encrypt _ _ _ _, a, b =>
    a.map (fun sealed => view (kemPrivkeyWrap c nonce sealed)) = b.map fun sealed => view
      (kemPrivkeyWrap c nonce sealed)
  | .decrypt _ _ _ _, .decrypt _ _ _ _, a, b => a = b
  | _, _, _, _ => False

variable (view : Json → V)

/-- Two parts of a flow that cannot be told apart from outside. -/
abbrev SameFlow {α β : Type} (Results : α → β → Prop) (d : Flow c α) (d' : Flow c β) : Prop :=
  Alike (SameQuestion view) (SameAnswer c view) Results d d'

lemma sameFlow_api {r r' : PasskeyRequest Json} (h : r.map view = r'.map view) :
    SameFlow view Eq (api c r) (api c r') := by
  refine .bind (Alike.question h) ?_
  rintro a b rfl
  exact .check a

lemma sameFlow_getRandomValues (n : ℕ) : SameFlow view Eq (getRandomValues c n) (getRandomValues c n) := by
  refine .bind (Alike.question rfl) ?_
  intro a b h
  exact .pure h

lemma sameFlow_generateKey : SameFlow view Eq (ask c .generateKey) (ask c .generateKey) :=
  .question (q := Question.generateKey) (r := Question.generateKey) trivial

lemma sameFlow_mlkemSeed : SameFlow view Eq (ask c .mlkemSeed) (ask c .mlkemSeed) :=
  .question (q := Question.mlkemSeed) (r := Question.mlkemSeed) trivial

lemma sameFlow_okOr {α β : Type} {f : α → β} {x y : Option α} (h : x.map f = y.map f) (e : WebError) :
    SameFlow view (fun a b => f a = f b) (check (okOr x e) : Flow c α) (check (okOr y e)) := by
  cases x with
  | none =>
    cases y with
    | none => exact .error e e
    | some b => cases h
  | some a =>
    cases y with
    | none => cases h
    | some b => exact .ok (Option.some_inj.mp h)

lemma sameFlow_except {α β : Type} {f : α → β} {x y : Except WebError (Option α)}
    (h : x.map (Option.map f) = y.map (Option.map f)) :
    SameFlow view (fun a b => a.map f = b.map f) (check x : Flow c (Option α)) (check y) := by
  cases x with
  | error e =>
    cases y with
    | error e' => exact .error e e'
    | ok b => cases h
  | ok a =>
    cases y with
    | error e' => cases h
    | ok b => exact .ok (Except.ok.inj h)

lemma sameFlow_gatewayCreate (options : CreationOptions) :
    SameFlow view (fun a b => a.map publicRegistration = b.map publicRegistration) (gatewayCreate c options)
      (gatewayCreate c options) := by
  refine .bind (Alike.question rfl) ?_
  intro a b h
  exact sameFlow_except view h

lemma sameFlow_gatewayGet (options : RequestOptions) :
    SameFlow view (fun a b => a.map publicAssertion = b.map publicAssertion) (gatewayGet c options)
      (gatewayGet c options) := by
  refine .bind (Alike.question rfl) ?_
  intro a b h
  exact sameFlow_except view h

lemma sameFlow_gesture (options : RequestOptions) (dismissed : WebError) :
    SameFlow view (fun a b => publicAssertion a = publicAssertion b) (gesture c options dismissed)
      (gesture c options dismissed) := by
  refine .bind (sameFlow_gatewayGet view options) ?_
  intro x y hxy
  exact sameFlow_okOr view hxy _

lemma extractPrfFirst_eq (cred : AssertionCredential) : extractPrfFirst cred =
    match cred.extensionResults.prf.bind (·.first) with
    | none => .error (.invalidInput "assertion did not return a PRF result")
    | some first =>
      if first.length = 32 then .ok first else .error (.invalidInput "PRF output must be 32 bytes") := by
  unfold extractPrfFirst
  cases cred.extensionResults.prf.bind (·.first) with
  | none => rfl
  | some first =>
    change (ensure (first.length = 32) _ >>= fun _ => pure first) = ite _ _ _
    unfold ensure
    split_ifs <;> rfl

lemma sameFlow_extractPrfFirst {a b : AssertionCredential} (h : publicAssertion a = publicAssertion b) :
    SameFlow view (fun f g => f.length = 32 ∧ g.length = 32) (check (extractPrfFirst a) : Flow c Bytes)
      (check (extractPrfFirst b)) := by
  have hlength := (Prod.mk.inj h).2
  rw [extractPrfFirst_eq, extractPrfFirst_eq]
  cases hfirst : a.extensionResults.prf.bind (·.first) with
  | none =>
    rw [hfirst, Option.map_none, eq_comm, Option.map_eq_none_iff] at hlength
    rw [hlength]
    exact .error _ _
  | some f =>
    rw [hfirst, Option.map_some, eq_comm, Option.map_eq_some_iff] at hlength
    obtain ⟨g, hg, hfg⟩ := hlength
    rw [hg]
    dsimp only
    rw [hfg]
    split_ifs with h32
    · exact .ok ⟨h32, hfg.trans h32⟩
    · exact .error _ _

lemma sameFlow_deriveWrapKey {f g : Bytes} (h : f.length = 32 ∧ g.length = 32) :
    SameFlow view (fun k l => k.length = 32 ∧ l.length = 32) (check (deriveWrapKey c f) : Flow c Bytes)
      (check (deriveWrapKey c g)) := by
  simp only [deriveWrapKey, ensure, h.1, h.2, if_true]
  exact .ok ⟨c.length_hkdfSha256 _ _ _ _, c.length_hkdfSha256 _ _ _ _⟩

lemma sameFlow_wrapKemPrivkey {k l : Bytes} (h : k.length = 32 ∧ l.length = 32) (plain iv : Bytes) :
    SameFlow view (fun x y => view x = view y) (wrapKemPrivkey c k plain iv) (wrapKemPrivkey c l plain iv) := by
  refine .bind_check _ fun _ => ?_
  have hseal : SameFlow view (fun s t => view (kemPrivkeyWrap c iv s) = view (kemPrivkeyWrap c iv t))
      (aesGcmSeal c k iv plain KEM_WRAP_LABEL) (aesGcmSeal c l iv plain KEM_WRAP_LABEL) := by
    unfold aesGcmSeal
    simp only [require, ensure, h.1, h.2, if_true]
    refine .bind_check _ fun _ => ?_
    refine .bind (Alike.question ⟨h, rfl, rfl, rfl, rfl⟩) ?_
    intro a b hab
    exact sameFlow_okOr view hab _
  refine .bind hseal ?_
  intro s t hst
  exact .pure hst

lemma sameFlow_unwrapKemPrivkey {k l : Bytes} (h : k.length = 32 ∧ l.length = 32) (blob : Option Json) :
    SameFlow view Eq (unwrapKemPrivkey c k blob) (unwrapKemPrivkey c l blob) := by
  unfold unwrapKemPrivkey
  refine .bind_check _ fun alg => ?_
  refine .bind_check _ fun _ => ?_
  refine .bind_check _ fun iv => ?_
  refine .bind_check _ fun _ => ?_
  refine .bind_check _ fun tag => ?_
  refine .bind_check _ fun _ => ?_
  refine .bind_check _ fun ct => ?_
  simp only [aesGcmOpenWith, require, ensure, h.1, h.2, if_true]
  refine .bind_check _ fun _ => ?_
  refine .bind (Alike.question ⟨rfl, rfl, rfl⟩) ?_
  rintro a _ rfl
  exact .check _

lemma sameFlow_buildPrfAssertionOptions (credentialId salt : Bytes) (rpId : Option String) :
    SameFlow view Eq (buildPrfAssertionOptions c credentialId salt rpId)
      (buildPrfAssertionOptions c credentialId salt rpId) := by
  refine .bind_eq (sameFlow_getRandomValues view 32) fun challenge => ?_
  exact .pure rfl

lemma sameFlow_kemKeypairMatches (key : CryptoKey) (publicX963 : Bytes) :
    SameFlow view Eq (kemKeypairMatches c key publicX963) (kemKeypairMatches c key publicX963) := by
  refine .bind_eq (sameFlow_getRandomValues view 32) fun probe => ?_
  have hwrap : SameFlow view Eq (wrapTo c publicX963 probe []) (wrapTo c publicX963 probe []) := by
    refine .bind_check _ fun _ => ?_
    refine .bind_check _ fun recipient => ?_
    refine .bind_eq (sameFlow_generateKey view) fun ephemeral => ?_
    refine .bind_check _ fun z => ?_
    refine .bind_check _ fun wrapped => ?_
    refine .bind_check _ fun epk => ?_
    refine .bind_check _ fun rfp => ?_
    exact .pure rfl
  have hunwrap : ∀ envelope envelope', envelope = envelope' →
      SameFlow view Eq (check (unwrapWith c key envelope []) : Flow c Bytes)
      (check (unwrapWith c key envelope' [])) := by
    rintro envelope _ rfl
    exact .check _
  have hprobe := Alike.attempt (Alike.bind hwrap hunwrap)
  refine .bind hprobe ?_
  rintro x y (⟨a, _, rfl, rfl, rfl⟩ | ⟨e, e', rfl, rfl⟩)
  · exact .pure rfl
  · exact .pure rfl

lemma serializeAssertionResponse_eq {a b : AssertionCredential} (h : publicAssertion a = publicAssertion b) :
    serializeAssertionResponse c a = serializeAssertionResponse c b :=
  congrArg (serializeAssertionResponse c ·.1) h

lemma registrationExtensionsForServer_withPrf (results : ExtensionResults)
    (outputs : Option Bytes × Option Bytes) :
    registrationExtensionsForServer (results.withPrf outputs) = registrationExtensionsForServer results := by
  cases results with
  | mk prf others => cases prf <;> rfl

lemma serializeRegistrationResponse_eq {a b : RegistrationCredential}
    (h : publicRegistration a = publicRegistration b) :
    serializeRegistrationResponse c a = serializeRegistrationResponse c b := by
  have hpublic : ∀ cred, serializeRegistrationResponse c (publicRegistration cred) =
      serializeRegistrationResponse c cred := by
    intro cred
    simp only [serializeRegistrationResponse, publicRegistration, RegistrationCredential.withPrf,
      registrationExtensionsForServer_withPrf]
  rw [← hpublic a, ← hpublic b, h]

lemma registrationReportsPrfEnabled_eq {a b : RegistrationCredential}
    (h : publicRegistration a = publicRegistration b) :
    registrationReportsPrfEnabled a = registrationReportsPrfEnabled b := by
  have hpublic : ∀ cred, registrationReportsPrfEnabled (publicRegistration cred) =
      registrationReportsPrfEnabled cred := by
    intro cred
    cases hprf : cred.extensionResults.prf <;>
      simp [registrationReportsPrfEnabled, publicRegistration, RegistrationCredential.withPrf,
        ExtensionResults.withPrf, hprf]
  rw [← hpublic a, ← hpublic b, h]

lemma sameFlow_newPasskey (options : CreationOptions) (dismissed : WebError) :
    SameFlow view (fun a b => publicRegistration a = publicRegistration b) (newPasskey c options dismissed)
      (newPasskey c options dismissed) := by
  refine .bind (sameFlow_gatewayCreate view options) ?_
  intro x y hxy
  refine .bind (sameFlow_okOr view hxy _) ?_
  intro a b hab
  rw [registrationReportsPrfEnabled_eq hab]
  refine .bind_check _ fun _ => ?_
  exact .pure hab

lemma sameFlow_registerSignupCredential (accountId : String) :
    SameFlow view (fun _ _ => True) (registerSignupCredential c accountId)
    (registerSignupCredential c accountId) := by
  refine .bind_eq (sameFlow_api view rfl) fun reg => ?_
  refine .bind_check _ fun options => ?_
  refine .bind_check _ fun creation => ?_
  refine .bind (sameFlow_newPasskey view creation _) ?_
  intro a b hab
  rw [serializeRegistrationResponse_eq hab]
  refine .bind_eq (sameFlow_api view rfl) fun _ => ?_
  exact .pure trivial

lemma sameFlow_initializeKeysFromPrf (accountId : String) {f g : Bytes} (h : f.length = 32 ∧ g.length = 32)
    (credentialId : Bytes) :
    SameFlow view (fun _ _ => True) (initializeKeysFromPrf c accountId f credentialId)
      (initializeKeysFromPrf c accountId g credentialId) := by
  refine .bind (sameFlow_deriveWrapKey view h) ?_
  intro k l hkl
  refine .bind_eq (sameFlow_generateKey view) fun d => ?_
  refine .bind_eq (sameFlow_mlkemSeed view) fun seed => ?_
  refine .bind_eq (sameFlow_getRandomValues view 12) fun iv => ?_
  refine .bind_check _ fun plain => ?_
  refine .bind (sameFlow_wrapKemPrivkey view hkl plain iv) ?_
  intro blob blob' hblob
  have hsent : (PasskeyRequest.keysInitialize (c.b64uEncode (exportRaw c (c.curve.publicKey d.1)))
        (c.b64uEncode (c.mlkemEk seed.toList)) (c.b64uEncode credentialId) blob).map view =
      (PasskeyRequest.keysInitialize (c.b64uEncode (exportRaw c (c.curve.publicKey d.1)))
        (c.b64uEncode (c.mlkemEk seed.toList)) (c.b64uEncode credentialId) blob').map view := by
    rw [PasskeyRequest.map, PasskeyRequest.map, hblob]
  refine .bind_eq (sameFlow_api view hsent) fun _ => ?_
  refine .bind_check _ fun key => ?_
  exact .pure trivial

lemma sameFlow_unlockSignupKeys (accountId : String) (credential : SignupCredential) :
    SameFlow view (fun _ _ => True) (unlockSignupKeys c accountId credential)
      (unlockSignupKeys c accountId credential) := by
  refine .bind_eq (sameFlow_buildPrfAssertionOptions view _ _ _) fun options => ?_
  refine .bind (sameFlow_gesture view options _) ?_
  intro a b hab
  refine .bind (sameFlow_extractPrfFirst view hab) ?_
  intro f g hfg
  exact sameFlow_initializeKeysFromPrf view accountId hfg _

lemma sameFlow_recoverKeys (result : Option Json) {f g : Bytes} (h : f.length = 32 ∧ g.length = 32) :
    SameFlow view (fun _ _ => True) (recoverKeys c result f) (recoverKeys c result g) := by
  refine .bind (sameFlow_deriveWrapKey view h) ?_
  intro k l hkl
  refine .bind_eq (sameFlow_unwrapKemPrivkey view hkl _) fun plain => ?_
  refine .bind_check _ fun halves => ?_
  refine .bind_check _ fun key => ?_
  refine .bind_check _ fun kemPubkey => ?_
  refine .bind_check _ fun bytes => ?_
  refine .bind_eq (sameFlow_kemKeypairMatches view key bytes) fun matched => ?_
  refine .bind_check _ fun _ => ?_
  refine .bind_check _ fun _ => ?_
  refine .bind_check _ fun ek => ?_
  refine .bind_check _ fun kemPqPubkey => ?_
  refine .bind_check _ fun registered => ?_
  refine .bind_check _ fun _ => ?_
  exact .pure trivial

lemma sameFlow_signInGesture (email : String) :
    SameFlow view (fun x y => x.1.rawId = y.1.rawId ∧ (x.2.1.length = 32 ∧ y.2.1.length = 32) ∧ x.2.2 = y.2.2)
      (signInGesture c email) (signInGesture c email) := by
  refine .bind_eq (sameFlow_api view rfl) fun begun => ?_
  refine .bind_check _ fun options => ?_
  refine .bind_check _ fun request => ?_
  refine .bind (sameFlow_gesture view request _) ?_
  intro a b hab
  rw [serializeAssertionResponse_eq hab]
  refine .bind (sameFlow_extractPrfFirst view hab) ?_
  intro f g hfg
  refine .bind_eq (sameFlow_api view rfl) fun result => ?_
  exact .pure ⟨congrArg (·.1.rawId) hab, hfg, rfl⟩

lemma sameFlow_signIn (email : String) : SameFlow view (fun _ _ => True) (signIn c email) (signIn c email) := by
  refine .bind (sameFlow_signInGesture view email) ?_
  rintro ⟨a, f, result⟩ ⟨b, g, _⟩ ⟨hrawId, hfg, rfl⟩
  dsimp only at hrawId hfg ⊢
  rw [hrawId]
  refine .bind_check _ fun blob => ?_
  split_ifs
  · exact sameFlow_recoverKeys view result hfg
  · exact sameFlow_initializeKeysFromPrf view _ hfg _

lemma sameFlow_currentKeys (currentBlob : Option Json) :
    SameFlow view (fun x y => x.1 = y.1 ∧ publicAssertion x.2.1 = publicAssertion y.2.1 ∧ x.2.2 = y.2.2)
      (currentKeys c currentBlob) (currentKeys c currentBlob) := by
  refine .bind_eq (sameFlow_api view rfl) fun begun => ?_
  refine .bind_check _ fun options => ?_
  refine .bind_check _ fun request => ?_
  refine .bind (sameFlow_gesture view request _) ?_
  intro a b hab
  refine .bind (sameFlow_extractPrfFirst view hab) ?_
  intro f g hfg
  refine .bind (sameFlow_deriveWrapKey view hfg) ?_
  intro k l hkl
  refine .bind_eq (sameFlow_unwrapKemPrivkey view hkl currentBlob) fun pkcs8 => ?_
  exact .pure ⟨rfl, hab, rfl⟩

lemma sameFlow_rewrap (begun : Option Json) (pkcs8 : Bytes) :
    SameFlow view (fun x y => publicRegistration x.1 = publicRegistration y.1 ∧ view x.2 = view y.2)
      (rewrap c begun pkcs8) (rewrap c begun pkcs8) := by
  refine .bind_check _ fun creation => ?_
  refine .bind (sameFlow_newPasskey view creation _) ?_
  intro newCredential newCredential' hnew
  have hrawId : newCredential.rawId = newCredential'.rawId := congrArg (·.rawId) hnew
  rw [hrawId]
  refine .bind_eq (sameFlow_buildPrfAssertionOptions view _ _ _) fun request => ?_
  refine .bind (sameFlow_gesture view request _) ?_
  intro a b hab
  refine .bind (sameFlow_extractPrfFirst view hab) ?_
  intro f g hfg
  refine .bind (sameFlow_deriveWrapKey view hfg) ?_
  intro k l hkl
  refine .bind_eq (sameFlow_getRandomValues view 12) fun iv => ?_
  refine .bind (sameFlow_wrapKemPrivkey view hkl pkcs8 iv) ?_
  intro blob blob' hblob
  exact .pure ⟨hnew, hblob⟩

lemma sameFlow_rotatePasskey (currentBlob : Option Json) :
    SameFlow view (fun _ _ => True) (rotatePasskey c currentBlob) (rotatePasskey c currentBlob) := by
  refine .bind (sameFlow_currentKeys view currentBlob) ?_
  rintro ⟨begun, oldAssertion, pkcs8⟩ ⟨_, oldAssertion', _⟩ ⟨rfl, hold, rfl⟩
  refine .bind (sameFlow_rewrap view begun pkcs8) ?_
  rintro ⟨newCredential, newBlob⟩ ⟨newCredential', newBlob'⟩ ⟨hnew, hblob⟩
  have hsent : (completion c begun oldAssertion newCredential newBlob).map view =
      (completion c begun oldAssertion' newCredential' newBlob').map view := by
    simp only [completion, PasskeyRequest.map, serializeAssertionResponse_eq hold,
      serializeRegistrationResponse_eq hnew, hblob]
  refine .bind_eq (sameFlow_api view hsent) fun _ => ?_
  exact .pure trivial

lemma sameFlow_runCeremony (operation : String) (beginBody : Json) :
    SameFlow view Eq (runCeremony c operation beginBody) (runCeremony c operation beginBody) := by
  refine .bind_eq (sameFlow_api view rfl) fun begun => ?_
  refine .bind_check _ fun options => ?_
  refine .bind_check _ fun request => ?_
  refine .bind (sameFlow_gesture view request _) ?_
  intro a b hab
  rw [serializeAssertionResponse_eq hab]
  exact sameFlow_api view rfl

/-- The flows that use a passkey. -/
inductive PasskeyFlow where
  | registerSignupCredential (accountId : String)
  | unlockSignupKeys (accountId : String) (credential : SignupCredential)
  | signIn (email : String)
  | rotatePasskey (currentBlob : Option Json)
  | runCeremony (operation : String) (beginBody : Json)

variable (c) in
def PasskeyFlow.program : PasskeyFlow → Flow c Unit
  | registerSignupCredential accountId => do let _ ← SignetDrive.registerSignupCredential c accountId
  | unlockSignupKeys accountId credential => do let _ ← SignetDrive.unlockSignupKeys c accountId credential
  | signIn email => do let _ ← SignetDrive.signIn c email
  | rotatePasskey currentBlob => do let _ ← SignetDrive.rotatePasskey c currentBlob
  | runCeremony operation beginBody => do let _ ← SignetDrive.runCeremony c operation beginBody

lemma sameFlow_program (flow : PasskeyFlow) : SameFlow view Eq (flow.program c) (flow.program c) := by
  cases flow with
  | registerSignupCredential accountId =>
    exact .bind (sameFlow_registerSignupCredential view accountId) fun _ _ _ => .pure rfl
  | unlockSignupKeys accountId credential =>
    exact .bind (sameFlow_unlockSignupKeys view accountId credential) fun _ _ _ => .pure rfl
  | signIn email => exact .bind (sameFlow_signIn view email) fun _ _ _ => .pure rfl
  | rotatePasskey currentBlob =>
    exact .bind (sameFlow_rotatePasskey view currentBlob) fun _ _ _ => .pure rfl
  | runCeremony operation beginBody =>
    exact .bind (sameFlow_runCeremony view operation beginBody) fun _ _ _ => .pure rfl

variable {o : Outside c V} {prf prf' : Prf}

variable (c) in
/-- In the same place of two transcripts, what is unwrapped has the same outcome. -/
def SameUnwraps (x y : Exchange (FlowAnswer c)) : Prop :=
  match x, y with
  | ⟨.decrypt _ _ _ _, m⟩, ⟨.decrypt _ _ _ _, m'⟩ => m = m'
  | _, _ => True

lemma sent_eq_of_match {before before' : Transcript c}
    (h : List.Forall₂ (Match (SameQuestion o.view) (SameAnswer c o.view)) before before') :
    o.sent before = o.sent before' ∧ before.filterMap (gestureOf c) = before'.filterMap (gestureOf c) := by
  induction h with
  | nil => exact ⟨rfl, rfl⟩
  | @cons x y before before' hxy _ ih =>
    obtain ⟨q, a⟩ := x
    obtain ⟨r, b⟩ := y
    have hasks : SameQuestion o.view q r := hxy.1
    have hrequest : o.requestOf ⟨q, a⟩ = o.requestOf ⟨r, b⟩ := by
      cases q <;> cases r <;> first | rfl | exact hasks.elim | exact congrArg some hasks
    have hgesture : gestureOf c ⟨q, a⟩ = gestureOf c ⟨r, b⟩ := by
      cases q <;> cases r <;> first | rfl | exact hasks.elim | (cases hasks; rfl)
    rw [Outside.sent, Outside.sent] at ih ⊢
    rw [List.filterMap_cons, List.filterMap_cons, List.filterMap_cons, List.filterMap_cons, hrequest, hgesture,
      ih.1, ih.2]
    exact ⟨rfl, rfl⟩

lemma publicRegistration_withPrf (cred : RegistrationCredential) (outputs : Option Bytes × Option Bytes) :
    publicRegistration (cred.withPrf outputs) = publicRegistration cred := by
  cases hprf : cred.extensionResults.prf <;>
    simp [publicRegistration, RegistrationCredential.withPrf, ExtensionResults.withPrf, hprf]

lemma publicAssertion_withPrf {outputs outputs' : Option Bytes × Option Bytes}
    (h : outputs.1.map List.length = outputs'.1.map List.length) (cred : AssertionCredential) :
    publicAssertion (cred.withPrf outputs) = publicAssertion (cred.withPrf outputs') := by
  cases hprf : cred.extensionResults.prf <;>
    simp [publicAssertion, AssertionCredential.withPrf, ExtensionResults.withPrf, hprf, h]

lemma sameAnswer_of_match
    (hlength : ∀ gestures, (prf gestures).1.map List.length = (prf' gestures).1.map List.length)
    (hsealed : ∀ key key' nonce message : Bytes, key.length = 32 → key'.length = 32 →
      (c.gcm.encrypt key nonce message KEM_WRAP_LABEL).map
          (fun sealed => o.view (kemPrivkeyWrap c nonce sealed)) =
        (c.gcm.encrypt key' nonce message KEM_WRAP_LABEL).map
          fun sealed => o.view (kemPrivkeyWrap c nonce sealed))
    {before before' : Transcript c}
    (h : List.Forall₂ (Match (SameQuestion o.view) (SameAnswer c o.view)) before before') {q r : Question}
    (hasks : SameQuestion o.view q r)
    (hunwrap : SameUnwraps c ⟨q, o.answer prf before q⟩ ⟨r, o.answer prf' before' r⟩) :
    SameAnswer c o.view q r (o.answer prf before q) (o.answer prf' before' r) := by
  obtain ⟨hsent, hgestures⟩ := sent_eq_of_match h
  cases q with
  | request a =>
    cases r with
    | request b =>
      have hab : a.map o.view = b.map o.view := hasks
      change o.server (o.sent before ++ [a.map o.view]) = o.server (o.sent before' ++ [b.map o.view])
      rw [hsent, hab]
    | _ => exact hasks.elim
  | create options =>
    cases r with
    | create options' =>
      cases hasks
      change Except.map (Option.map publicRegistration) (Outside.answer o prf before (.create options)) =
        Except.map (Option.map publicRegistration) (Outside.answer o prf' before' (.create options))
      simp only [Outside.answer, hgestures]
      cases o.create _ with
      | error e => rfl
      | ok created => cases created <;> simp [Except.map, publicRegistration_withPrf]
    | _ => exact hasks.elim
  | get options =>
    cases r with
    | get options' =>
      cases hasks
      change Except.map (Option.map publicAssertion) (Outside.answer o prf before (.get options)) =
        Except.map (Option.map publicAssertion) (Outside.answer o prf' before' (.get options))
      simp only [Outside.answer, hgestures]
      cases o.get _ with
      | error e => rfl
      | ok assertion => cases assertion <;> simp [Except.map, publicAssertion_withPrf (hlength _)]
    | _ => exact hasks.elim
  | getRandomValues n =>
    cases r with
    | getRandomValues n' =>
      cases hasks
      change (o.randomBytes before.length n).toList = (o.randomBytes before'.length n).toList
      rw [h.length_eq]
    | _ => exact hasks.elim
  | generateKey =>
    cases r with
    | generateKey => exact congrArg o.secret h.length_eq
    | _ => exact hasks.elim
  | mlkemSeed =>
    cases r with
    | mlkemSeed => exact congrArg o.seed h.length_eq
    | _ => exact hasks.elim
  | encrypt key nonce message aad =>
    cases r with
    | encrypt key' nonce' message' aad' =>
      obtain ⟨hkeys, rfl, rfl, rfl, rfl⟩ := hasks
      exact hsealed key key' nonce message hkeys.1 hkeys.2
    | _ => exact hasks.elim
  | decrypt key nonce sealed aad =>
    cases r with
    | decrypt key' nonce' sealed' aad' => exact hunwrap
    | _ => exact hasks.elim

def rotationOutside : Outside fivePoints (Option Json) where
  view blob := blob.get "ct"
  server _ := .ok (some (.object [
    ("options", .object [("publicKey", .object [("challenge", .string "")])]),
    ("registration_options", .object [("publicKey",
      .object [("user", .object [("id", .string "")]), ("challenge", .string "")])])]))
  create _ := .ok (some ⟨"new", [7], "public-key", [], [], none, ⟨some ⟨true, none, none⟩, []⟩⟩)
  get _ := .ok (some ⟨"any", [6], "public-key", [], [], [], none, ⟨some ⟨true, none, none⟩, []⟩⟩)
  randomBytes _ n := List.Vector.replicate n 0
  secret _ := ⟨1, one_mem_five⟩
  seed _ := List.Vector.replicate 64 0

def zeroBlob : Json := kemPrivkeyWrap fivePoints (List.replicate 12 0) ([2, 3] ++ List.replicate 16 0)

def zeroPrf : Prf := fun _ => (some (List.replicate 32 0), none)

def otherPrf : Prf := fun _ => (some (List.replicate 16 0 ++ List.replicate 16 1), none)

lemma rotationOutside_sealed (key nonce message : Bytes) :
    (fivePoints.gcm.encrypt key nonce message KEM_WRAP_LABEL).map
      (fun sealed => rotationOutside.view (kemPrivkeyWrap fivePoints nonce sealed)) =
        some (some (.string (hexEncode message))) := by
  have hlength : (message ++ firstBytes 16 key).length - 16 = message.length := by
    rw [List.length_append, length_firstBytes, Nat.add_sub_cancel]
  change some (some (Json.string (hexEncode ((message ++ firstBytes 16 key).take _)))) = _
  rw [GCM_TAG_LEN, hlength, List.take_left]

def unwrapsOf (transcript : Transcript c) : List (Option (Option Bytes)) :=
  transcript.map fun x =>
    match x with
    | ⟨.decrypt _ _ _ _, opened⟩ => some opened
    | _ => none

lemma sameUnwraps_of_unwrapsOf {transcript transcript' : Transcript c}
    (h : unwrapsOf transcript = unwrapsOf transcript') (i : ℕ) (x y : Exchange (FlowAnswer c))
    (hx : transcript[i]? = some x) (hy : transcript'[i]? = some y) : SameUnwraps c x y := by
  have hi := congrArg (fun unwraps => unwraps[i]?) h
  simp only [unwrapsOf, List.getElem?_map, hx, hy, Option.map_some, Option.some_inj] at hi
  obtain ⟨q, a⟩ := x
  obtain ⟨r, b⟩ := y
  cases q <;> first | exact trivial | skip
  cases r <;> first | exact trivial | exact Option.some_inj.mp hi

/-- Two runs of a flow that differ only in the outputs of the PRF send the same requests, as long
as every unwrap has the same outcome in both and a wrapped key is seen without its wrap key. -/
theorem requests_without_prf (flow : PasskeyFlow) (o : Outside c V) (prf prf' : Prf)
    (hlength : ∀ gestures, (prf gestures).1.map List.length = (prf' gestures).1.map List.length)
    (hsealed : ∀ key key' nonce message : Bytes, key.length = 32 → key'.length = 32 →
      (c.gcm.encrypt key nonce message KEM_WRAP_LABEL).map
          (fun sealed => o.view (kemPrivkeyWrap c nonce sealed)) =
        (c.gcm.encrypt key' nonce message KEM_WRAP_LABEL).map
          fun sealed => o.view (kemPrivkeyWrap c nonce sealed))
    (hunwraps : ∀ (i : ℕ) x y, (o.transcript prf (flow.program c))[i]? = some x →
      (o.transcript prf' (flow.program c))[i]? = some y → SameUnwraps c x y) :
    o.sent (o.transcript prf (flow.program c)) = o.sent (o.transcript prf' (flow.program c)) := by
  have hmatch := (sameFlow_program o.view flow).transcripts (SameUnwraps c)
    (fun before before' hbefore q r hasks hunwrap => sameAnswer_of_match hlength hsealed hbefore hasks hunwrap)
    (show List.Forall₂ _ [] [] from .nil) hunwraps
  exact (sent_eq_of_match hmatch).1

/-- Two rotations with different outputs, both of which send their two requests. -/
theorem rotation_without_prf : zeroPrf ≠ otherPrf ∧
    let flow := (PasskeyFlow.rotatePasskey (some zeroBlob)).program fivePoints
    (rotationOutside.sent (rotationOutside.transcript zeroPrf flow)).length = 2 ∧
    rotationOutside.sent (rotationOutside.transcript zeroPrf flow) =
      rotationOutside.sent (rotationOutside.transcript otherPrf flow) := by
  refine ⟨fun h => absurd (congrFun h []) (by decide), rfl, ?_⟩
  apply requests_without_prf
  · intro gestures
    rfl
  · intro key key' nonce message _ _
    rw [rotationOutside_sealed, rotationOutside_sealed]
  · apply sameUnwraps_of_unwrapsOf
    rfl

end SignetDrive.Proofs
