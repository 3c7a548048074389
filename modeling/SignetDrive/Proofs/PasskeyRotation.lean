import SignetDrive.Model.PasskeyRotation
import SignetDrive.Proofs.OwnKeys

/-!
# A rotation keeps the keys of the account

A rotation wraps what it has unwrapped, and everything that opens was sealed by an earlier rotation or
at signup.
-/

namespace SignetDrive.Proofs

open Dialogue Client PasskeyAccount

variable {Point : Type} [AddCommGroup Point] {c : KeyPlatform Point}
variable {answer : Answers c} {before after : Transcript c}

/-! ### The parts of a rotation -/

/-- The questions before the last request; `sealed` is what may be sealed. -/
def BeforeCompletion (sealed : Option Bytes) : Question → Prop
  | .request (.rotatePasskeyComplete _ _) => False
  | .encrypt _ _ message aad => sealed = some message ∧ aad = KEM_WRAP_LABEL
  | _ => True

section

variable {sealed : Option Bytes}

lemma asksOnly_api {r : PasskeyRequest Json} (h : BeforeCompletion sealed (.request r)) :
    AsksOnly (BeforeCompletion sealed) (api c r) :=
  .bind (.question h) fun _ => .check _

lemma asksOnly_getRandomValues (n : ℕ) : AsksOnly (BeforeCompletion sealed) (getRandomValues c n) :=
  .bind (.question trivial) fun _ => .pure _

lemma asksOnly_gesture (options : RequestOptions) (dismissed : WebError) :
    AsksOnly (BeforeCompletion sealed) (gesture c options dismissed) :=
  .bind (.bind (.question trivial) fun _ => .check _) fun _ => .check _

lemma asksOnly_newPasskey (options : CreationOptions) (dismissed : WebError) :
    AsksOnly (BeforeCompletion sealed) (newPasskey c options dismissed) :=
  .bind (.bind (.question trivial) fun _ => .check _) fun _ => .bind (.check _) fun _ =>
    .bind (.check _) fun _ => .pure _

lemma asksOnly_unwrapKemPrivkey (wrapKey : Bytes) (blob : Option Json) :
    AsksOnly (BeforeCompletion sealed) (unwrapKemPrivkey c wrapKey blob) := by
  refine .bind (.check _) fun _ => .bind (.check _) fun _ => .bind (.check _) fun _ => .bind (.check _) fun _ =>
    .bind (.check _) fun _ => .bind (.check _) fun _ => .bind (.check _) fun _ => ?_
  exact .bind (.check _) fun _ => .bind (.question trivial) fun _ => .check _

lemma asksOnly_currentKeys (blob : Option Json) : AsksOnly (BeforeCompletion none) (currentKeys c blob) :=
  .bind (asksOnly_api trivial) fun _ => .bind (.check _) fun _ => .bind (.check _) fun _ =>
    .bind (asksOnly_gesture _ _) fun _ => .bind (.check _) fun _ => .bind (.check _) fun _ =>
      .bind (asksOnly_unwrapKemPrivkey _ _) fun _ => .pure _

lemma asksOnly_rewrap (begun : Option Json) (pkcs8 : Bytes) :
    AsksOnly (BeforeCompletion (some pkcs8)) (rewrap c begun pkcs8) := by
  have hwrap (wrapKey iv) : AsksOnly (BeforeCompletion (some pkcs8)) (wrapKemPrivkey c wrapKey pkcs8 iv) :=
    .bind (.check _) fun _ => .bind (.bind (.check _) fun _ => .bind (.question ⟨rfl, rfl⟩) fun _ => .check _)
      fun _ => .pure _
  exact .bind (.check _) fun _ => .bind (asksOnly_newPasskey _ _) fun _ =>
    .bind (.bind (asksOnly_getRandomValues 32) fun _ => .pure _) fun _ =>
      .bind (asksOnly_gesture _ _) fun _ => .bind (.check _) fun _ => .bind (.check _) fun _ =>
        .bind (asksOnly_getRandomValues 12) fun _ => .bind (hwrap _ _) fun _ => .pure _

end

/-! ### The surroundings -/

section

variable {prf : Bytes → Bytes → List.Vector UInt8 32}

variable (c prf) in
def passkeyKey (credentialId : Bytes) : Bytes :=
  c.hkdfSha256 (prf credentialId (prfSalt c)).toList [] KEM_WRAP_LABEL 32

variable (prf) in
/-- The cipher is the platform's, an assertion is of an allowed passkey, and an output of the PRF is
the one of this passkey for the given salt. -/
structure Faithful (answer : Answers c) : Prop where
  encrypt : ∀ before key nonce message aad,
    answer before (.encrypt key nonce message aad) = c.gcm.encrypt key nonce message aad
  decrypt : ∀ before key nonce sealed aad,
    answer before (.decrypt key nonce sealed aad) = c.gcm.decrypt key nonce sealed aad
  allowed : ∀ before options assertion ids, answer before (.get options) = .ok (some assertion) →
    options.allowCredentials = some ids → ids ≠ [] → assertion.rawId ∈ ids.map (·.id)
  output : ∀ before options assertion first, answer before (.get options) = .ok (some assertion) →
    assertion.extensionResults.prf.bind (·.first) = some first →
    ∃ salt second, ("prf", .prfEval (some salt) second) ∈ options.extensions.getD [] ∧
      first = (prf assertion.rawId salt).toList

variable {assertion oldAssertion : AssertionCredential} {options : CreationOptions} {blob newBlob : Json}
  {begun : Option Json} {pkcs8 : Bytes} {newCredential : RegistrationCredential}
  {result : Except WebError Json} {sealed : Option Bytes} {e : PasskeyAccount.Event c}
  {request : RequestOptions} {session : Unlock.Session CryptoKey}

/-- Where one passkey is allowed and one salt given, the output is that of the two. -/
lemma Faithful.own_output (hanswer : Faithful prf answer) {options : RequestOptions} {first salt : Bytes}
    {allowed : CredentialDescriptor} (hget : answer before (.get options) = .ok (some assertion))
    (hfirst : assertion.extensionResults.prf.bind (·.first) = some first)
    (hallowed : options.allowCredentials = some [allowed])
    (hsalt : options.extensions = some [("prf", .prfEval (some salt) none)]) :
    first = (prf allowed.id salt).toList := by
  obtain ⟨used, second, hused, rfl⟩ := hanswer.output _ _ _ _ hget hfirst
  have hid := hanswer.allowed _ _ _ _ hget hallowed (List.cons_ne_nil _ _)
  rw [List.map_singleton, List.mem_singleton] at hid
  simp only [hsalt, Option.getD_some, List.mem_singleton, Prod.mk.injEq, ExtensionInput.prfEval.injEq,
    Option.some_inj] at hused
  rw [hid, hused.2.1]

lemma extractPrfFirst_ok {output : Bytes} :
    extractPrfFirst assertion = .ok output ↔
      assertion.extensionResults.prf.bind (·.first) = some output ∧ output.length = 32 := by
  simp only [extractPrfFirst, except_bind_ok, okOr_ok, ensure_ok, except_pure_ok]
  constructor
  · rintro ⟨_, hfirst, _, hlength, rfl⟩
    exact ⟨hfirst, hlength⟩
  · rintro ⟨hfirst, hlength⟩
    exact ⟨output, hfirst, (), hlength, rfl⟩

lemma gatewayCreate_ok {v : Option RegistrationCredential} :
    run answer before (gatewayCreate c options) = (.ok v, after) ↔
      answer before (.create options) = .ok v ∧ before ++ [⟨.create options, .ok v⟩] = after := by
  rw [gatewayCreate, ask, run_question_bind_ok, run_check_ok]
  exact and_congr_right fun ha => by rw [ha]

lemma newPasskey_ok {dismissed : WebError} {created : RegistrationCredential} :
    run answer before (newPasskey c options dismissed) = (.ok created, after) ↔
      answer before (.create options) = .ok (some created) ∧ registrationReportsPrfEnabled created = true ∧
        before ++ [⟨.create options, .ok (some created)⟩] = after := by
  simp only [newPasskey, ↓run_check_bind_ok, ↓run_require_bind_ok, run_bind_ok, gatewayCreate_ok,
    okOr_ok, run_pure_ok]
  constructor
  · rintro ⟨_, _, ⟨ha, rfl⟩, _, rfl, henabled, rfl, rfl⟩
    exact ⟨ha, henabled, rfl⟩
  · rintro ⟨ha, henabled, rfl⟩
    exact ⟨_, _, ⟨ha, rfl⟩, _, rfl, henabled, rfl, rfl⟩

lemma wrapKemPrivkey_ok {wrapKey plain iv : Bytes} :
    run answer before (wrapKemPrivkey c wrapKey plain iv) = (.ok blob, after) ↔
      iv.length = 12 ∧ ∃ sealed,
        run answer before (aesGcmSeal c wrapKey iv plain KEM_WRAP_LABEL) = (.ok sealed, after) ∧
          kemPrivkeyWrap c iv sealed = blob := by
  rw [wrapKemPrivkey, run_require_bind_ok]
  simp only [run_bind_ok, run_pure_ok]
  constructor
  · rintro ⟨hiv, sealed, _, hsealed, rfl, rfl⟩
    exact ⟨hiv, sealed, hsealed, rfl⟩
  · rintro ⟨hiv, sealed, hsealed, rfl⟩
    exact ⟨hiv, sealed, _, hsealed, rfl, rfl⟩

lemma currentKeys_ok {blob : Option Json}
    (h : run answer before (currentKeys c blob) = (.ok (begun, oldAssertion, pkcs8), after)) :
    ∃ key iv sealed, blobParts c blob = .ok (iv, sealed) ∧
      (∃ middle, answer middle (.decrypt key iv sealed KEM_WRAP_LABEL) = some pkcs8) ∧
      ⟨.decrypt key iv sealed KEM_WRAP_LABEL, some pkcs8⟩ ∈ after := by
  simp only [currentKeys, ↓run_check_bind_ok, run_bind_ok, run_pure_ok] at h
  obtain ⟨_, _, -, _, -, _, -, _, _, -, _, -, oldWrapKey, -, _, _, hplain, heq, rfl⟩ := h
  cases heq
  obtain ⟨iv, sealed, hparts, hopen⟩ := unwrapKemPrivkey_ok.mp hplain
  obtain ⟨-, hanswer, rfl⟩ := aesGcmOpenWith_ok.mp hopen
  exact ⟨oldWrapKey, iv, sealed, hparts, ⟨_, hanswer⟩, by simp⟩

variable (c prf) in
/-- The stored blob opens to the key blob, under the stored passkey. -/
def StoredOpens (keyBlob : Bytes) (stored : Registered) : Prop :=
  ∃ iv sealed, blobParts c (some stored.blob) = .ok (iv, sealed) ∧
    c.gcm.decrypt (passkeyKey c prf stored.credentialId) iv sealed KEM_WRAP_LABEL = some keyBlob

lemma storedOpens_of_wrap {keyBlob credentialId iv : Bytes} (hanswer : Faithful prf answer)
    (h : run answer before (wrapKemPrivkey c (passkeyKey c prf credentialId) keyBlob iv) = (.ok blob, after)) :
    StoredOpens c prf keyBlob ⟨credentialId, blob⟩ := by
  obtain ⟨hiv, sealed, hsealed, rfl⟩ := wrapKemPrivkey_ok.mp h
  obtain ⟨-, hencrypt, -⟩ := aesGcmSeal_ok.mp hsealed
  rw [hanswer.encrypt] at hencrypt
  have hlength := c.length_encrypt _ _ _ _ _ hencrypt
  exact ⟨iv, sealed, blobParts_kemPrivkeyWrap hiv (by omega), c.gcm.decrypt_encrypt _ _ _ _ _ hencrypt⟩

lemma rewrap_ok (hanswer : Faithful prf answer)
    (h : run answer before (rewrap c begun pkcs8) = (.ok (newCredential, newBlob), after)) :
    StoredOpens c prf pkcs8 ⟨newCredential.rawId, newBlob⟩ := by
  rw [rewrap] at h
  simp only [↓run_check_bind_ok, run_bind_ok, run_pure_ok, gesture_ok, deriveWrapKey_ok, extractPrfFirst_ok,
    buildPrfAssertionOptions] at h
  obtain ⟨creation, -, created, _, -, request, _, ⟨challenge, _, -, rfl, -⟩, h⟩ := h
  obtain ⟨assertion, _, ⟨hget, -⟩, newPrf, ⟨hfirst, -⟩, wrapKey, ⟨-, rfl⟩, h⟩ := h
  obtain ⟨iv, _, -, _, _, hwrap, heq, -⟩ := h
  cases heq
  obtain rfl := hanswer.own_output hget hfirst rfl rfl
  exact storedOpens_of_wrap hanswer hwrap

lemma completionOf_completion (a : Except WebError (Option Json)) :
    completionOf c ⟨.request (completion c begun oldAssertion newCredential newBlob), a⟩ =
      some ⟨newCredential.rawId, newBlob⟩ := by
  have hmember : (jsonObject [("ceremony_id", optionalProp begun "ceremony_id"),
      ("registration_ceremony_id", optionalProp begun "registration_ceremony_id"),
      ("old_credential_assertion", some (serializeAssertionResponse c oldAssertion)),
      ("new_credential", some (serializeRegistrationResponse c newCredential))]).get "new_credential" =
        some (serializeRegistrationResponse c newCredential) := by
    simp only [jsonObject]
    cases optionalProp begun "ceremony_id" <;> cases optionalProp begun "registration_ceremony_id" <;> rfl
  have hid : decode c (optionalProp (some (serializeRegistrationResponse c newCredential)) "rawId") =
      .ok newCredential.rawId := decode_string.mpr (c.b64uDecode_b64uEncode _)
  simp only [completion, completionOf, hmember, hid]
  rfl

lemma BeforeCompletion.some {q : Question} (h : BeforeCompletion none q) (sealed : Option Bytes) :
    BeforeCompletion sealed q := by
  cases q with
  | request r => cases r <;> first | exact trivial | exact h
  | encrypt key nonce message aad => exact absurd h.1 nofun
  | _ => trivial

variable {transcript : Transcript c}

lemma run_rotatePasskey (answer : Answers c) (blob : Option Json)
    (h : run answer [] (rotatePasskey c blob) = (result, transcript)) :
    (∃ e, result = .error e ∧ ∀ x ∈ transcript, BeforeCompletion none x.1) ∨
      ∃ begun oldAssertion pkcs8 first, run answer [] (currentKeys c blob) =
        (.ok (begun, oldAssertion, pkcs8), first) ∧
        first <+: transcript ∧ ((∃ e, result = .error e ∧ ∀ x ∈ transcript, BeforeCompletion (some pkcs8) x.1) ∨
          ∃ newCredential newBlob second a, run answer first (rewrap c begun pkcs8) =
            (.ok (newCredential, newBlob), second) ∧
            (∀ x ∈ second, BeforeCompletion (some pkcs8) x.1) ∧
            answer second (.request (completion c begun oldAssertion newCredential newBlob)) = a ∧
            transcript = second ++ [⟨.request (completion c begun oldAssertion newCredential newBlob), a⟩] ∧
            result = a.map fun _ => newBlob) := by
  rw [rotatePasskey, run_bind] at h
  obtain ⟨added, hfirst, hadded⟩ := (asksOnly_currentKeys blob).run answer []
  rw [List.nil_append] at hfirst
  rw [← hfirst] at hadded
  cases hcurrent : run answer [] (currentKeys c blob) with
  | mk current first =>
    rw [hcurrent] at h hadded
    cases current with
    | error e =>
      obtain ⟨rfl, rfl⟩ := Prod.mk.inj h
      exact .inl ⟨e, rfl, hadded⟩
    | ok current =>
      obtain ⟨begun, oldAssertion, pkcs8⟩ := current
      refine .inr ⟨begun, oldAssertion, pkcs8, first, rfl, ?_⟩
      dsimp only at h
      refine ⟨isPrefix_of_run h, ?_⟩
      rw [run_bind] at h
      obtain ⟨more, hsecond, hmore⟩ := (asksOnly_rewrap begun pkcs8).run answer first
      have hall : ∀ x ∈ (run answer first (rewrap c begun pkcs8)).2, BeforeCompletion (some pkcs8) x.1 := by
        intro x hx
        rw [hsecond] at hx
        rcases List.mem_append.mp hx with hold | hnew
        · exact (hadded x hold).some _
        · exact hmore x hnew
      cases hrenewed : run answer first (rewrap c begun pkcs8) with
      | mk renewed second =>
        rw [hrenewed] at h hall
        cases renewed with
        | error e =>
          obtain ⟨rfl, rfl⟩ := Prod.mk.inj h
          exact .inl ⟨e, rfl, hall⟩
        | ok renewed =>
          obtain ⟨newCredential, newBlob⟩ := renewed
          refine .inr ⟨newCredential, newBlob, second, _, rfl, hall, rfl, ?_⟩
          dsimp only at h
          simp only [api, run_bind, ask, question, run, check] at h
          cases ha : answer second (.request (completion c begun oldAssertion newCredential newBlob)) with
          | error | ok =>
            rw [ha] at h
            obtain ⟨rfl, rfl⟩ := Prod.mk.inj h
            exact ⟨rfl, rfl⟩

/-! ### The parts of a sign-in -/

lemma asksOnly_signInGesture (email : String) : AsksOnly (BeforeCompletion none) (signInGesture c email) :=
  .bind (asksOnly_api trivial) fun _ => .bind (.check _) fun _ => .bind (.check _) fun _ =>
    .bind (asksOnly_gesture _ _) fun _ => .bind (.check _) fun _ => .bind
      (asksOnly_api trivial) fun _ => .pure _

lemma asksOnly_kemKeypairMatches (key : CryptoKey) (bytes : Bytes) :
    AsksOnly (BeforeCompletion none) (kemKeypairMatches c key bytes) := by
  refine .bind (asksOnly_getRandomValues 32) fun probe => .bind (AsksOnly.attempt ?_) fun _ => .pure _
  refine .bind ?_ fun _ => .check _
  exact .bind (.check _) fun _ => .bind (.check _) fun _ => .bind (.question trivial) fun _ =>
    .bind (.check _) fun _ => .bind (.check _) fun _ => .bind (.check _) fun _ => .bind (.check _) fun _ =>
    .pure _

lemma asksOnly_recoverKeys (result : Option Json) (prfOutput : Bytes) :
    AsksOnly (BeforeCompletion none) (recoverKeys c result prfOutput) := by
  refine .bind (.check _) fun _ => .bind (asksOnly_unwrapKemPrivkey _ _) fun _ => .bind (.check _) fun _ => ?_
  refine .bind (.check _) fun _ => .bind (.check _) fun _ => .bind (.check _) fun _ => ?_
  refine .bind (asksOnly_kemKeypairMatches _ _) fun _ => .bind (.check _) fun _ => .bind (.check _) fun _ => ?_
  exact .bind (.check _) fun _ => .bind (.check _) fun _ => .bind (.check _) fun _ =>
    .bind (.check _) fun _ => .pure _

lemma run_signIn_of_hasKeys (email : String)
    (hserver : ∀ before body v, answer before (.request (.completeSignin body)) = .ok v →
      hasKeys v = true ∧ optionalProp v "wrapped_kem_privkey_blob" = some blob) :
    (∀ x ∈ (run answer [] (signIn c email)).2, BeforeCompletion none x.1) ∧
      ∀ session, (run answer [] (signIn c email)).1 = .ok session →
        session.wrappedKemPrivkeyBlob = some blob := by
  obtain ⟨added, hfirst, hadded⟩ := (asksOnly_signInGesture email).run answer []
  rw [List.nil_append] at hfirst
  rw [← hfirst] at hadded
  rw [signIn, run_bind]
  cases hgesture : run answer [] (signInGesture c email) with
  | mk x first =>
    rw [hgesture] at hadded
    cases x with
    | error e => exact ⟨hadded, fun _ h => by cases h⟩
    | ok x =>
      obtain ⟨assertion, prfOutput, result⟩ := x
      have hheard : ∃ before body, answer before (.request (.completeSignin body)) = .ok result := by
        simp only [signInGesture, ↓run_check_bind_ok, run_bind_ok, run_pure_ok, api_ok] at hgesture
        obtain ⟨_, _, -, _, -, _, -, _, _, -, _, -, _, _, ⟨hresult, -⟩, heq, -⟩ := hgesture
        cases heq
        exact ⟨_, _, hresult⟩
      obtain ⟨before, body, hbody⟩ := hheard
      obtain ⟨hkeys, hblob⟩ := hserver before body _ hbody
      unfold hasKeys at hkeys
      dsimp only
      rw [run_bind, check, run]
      cases hprop : propOf c result "wrapped_kem_privkey_blob" with
      | error e => exact ⟨hadded, fun _ h => by cases h⟩
      | ok read =>
        dsimp only
        rw [← optionalProp_of_propOf hprop, if_pos hkeys]
        obtain ⟨more, hsecond, hmore⟩ := (asksOnly_recoverKeys result prfOutput).run answer first
        refine ⟨fun y hy => ?_, fun session hsession => ?_⟩
        · rw [hsecond] at hy
          rcases List.mem_append.mp hy with hold | hnew
          · exact hadded y hold
          · exact hmore y hnew
        · obtain ⟨_, _, _, _, _, _, -, -, -, -, -, -, -, -, -, -, -, hfields⟩ :=
            recoverKeys_ok.mp (Prod.ext hsession rfl : run answer first (recoverKeys c result prfOutput) =
              (.ok session, _))
          rw [hfields]
          exact hblob

/-! ### What every step keeps -/

def sealedUnder (w : World) (key : Bytes) : Set (Aead.Call Bytes Bytes Bytes) := {call | (key, call) ∈ w.seals}

variable (prf) in
/-- The server answers a completion only if it commits it, and a sign-in with the stored blob; what
opens in a rotation was sealed under its key. -/
def Honest (w : World) : PasskeyAccount.Event c → Prop
  | .rotate answer commits => Faithful prf answer ∧
      (∀ before body blob v, answer before (.request (.rotatePasskeyComplete body blob)) = .ok v →
      commits = true) ∧ ∀ session, w.live = some session →
        OpensOnlySealed c (sealedUnder w) (run answer [] (rotatePasskey c session.wrappedKemPrivkeyBlob)).2
  | .signIn answer _ => ∀ before body v, answer before (.request (.completeSignin body)) = .ok v →
      hasKeys v = true ∧ optionalProp v "wrapped_kem_privkey_blob" = some w.server.blob
  | _ => True

variable (c prf) in
/-- What is stored opens to the key blob, and nothing else was sealed. -/
structure KeepsAccountKeys (keyBlob : Bytes) (w : World) : Prop where
  stored : StoredOpens c prf keyBlob w.server
  seals : ∀ x ∈ w.seals, x.2.aad = KEM_WRAP_LABEL → x.2.message = keyBlob

lemma sealOf_of_beforeCompletion (h : ∀ x ∈ transcript, BeforeCompletion sealed x.1)
    {y : Bytes × Aead.Call Bytes Bytes Bytes} (hy : y ∈ transcript.filterMap sealOf) :
    sealed = some y.2.message := by
  obtain ⟨⟨q, a⟩, hx, hseal⟩ := List.mem_filterMap.mp hy
  cases q with
  | encrypt key nonce message aad =>
    rw [← Option.some_inj.mp hseal]
    exact (h _ hx).1
  | _ => cases hseal

lemma completionOf_of_beforeCompletion (h : ∀ x ∈ transcript, BeforeCompletion sealed x.1) :
    transcript.filterMap (completionOf c) = [] := by
  rw [List.filterMap_eq_nil_iff]
  rintro ⟨q, a⟩ hx
  cases q with
  | request r =>
    cases r with
    | rotatePasskeyComplete body blob => exact (h _ hx).elim
    | _ => rfl
  | _ => rfl

section

variable {keyBlob : Bytes} {w w' : World}

variable {transcript : Transcript c}

lemma server_of_unsent (h : ∀ x ∈ transcript, BeforeCompletion sealed x.1) (commits : Bool) :
    ((w.committed commits transcript).sealed transcript).server = w.server := by
  cases commits with
  | false => rfl
  | true =>
    simp only [World.sealed, World.committed, completionOf_of_beforeCompletion h, if_true, List.getLast?_nil,
      Option.getD_none]

lemma server_of_sent {second : Transcript c} (h : ∀ x ∈ second, BeforeCompletion sealed x.1)
    (a : Except WebError (Option Json)) :
    let transcript := second ++ [⟨.request (completion c begun oldAssertion newCredential newBlob), a⟩]
    ((w.committed true transcript).sealed transcript).server = ⟨newCredential.rawId, newBlob⟩ := by
  simp only [World.sealed, World.committed, if_true, List.filterMap_append, completionOf_of_beforeCompletion h,
    List.nil_append, List.filterMap_cons, completionOf_completion, List.filterMap_nil, List.getLast?_singleton,
    Option.getD_some]

section

variable (h : KeepsAccountKeys c prf keyBlob w)

include h

lemma KeepsAccountKeys.unwrapped (hanswer : Faithful prf answer) {blob : Option Json}
    {first transcript : Transcript c} (hsealed : OpensOnlySealed c (sealedUnder w) transcript)
    (hcurrent : run answer [] (currentKeys c blob) = (.ok (begun, oldAssertion, pkcs8), first))
    (hfirst : first <+: transcript) : pkcs8 = keyBlob := by
  obtain ⟨key, iv, sealed, -, ⟨middle, hopen⟩, hmem⟩ := currentKeys_ok hcurrent
  rw [hanswer.decrypt] at hopen
  exact h.seals _ ((hsealed _ _ _ _ _ (hfirst.subset hmem)).mem hopen) rfl

lemma KeepsAccountKeys.committed (hanswer : Faithful prf answer) (commits : Bool) {blob : Option Json}
    (hrun : run answer [] (rotatePasskey c blob) = (result, transcript))
    (hsealed : OpensOnlySealed c (sealedUnder w) transcript) :
    KeepsAccountKeys c prf keyBlob ((w.committed commits transcript).sealed transcript) := by
  have hsealsOf : (∀ y ∈ transcript.filterMap sealOf, y.2.message = keyBlob) →
      ∀ y ∈ w.seals ++ transcript.filterMap sealOf, y.2.aad = KEM_WRAP_LABEL → y.2.message = keyBlob := by
    intro hnew y hy haad
    rcases List.mem_append.mp hy with hold | hadded
    · exact h.seals y hold haad
    · exact hnew y hadded
  have hseals : ((w.committed commits transcript).sealed transcript).seals =
      w.seals ++ transcript.filterMap sealOf := by
    cases commits <;> rfl
  rcases run_rotatePasskey answer blob hrun with ⟨e, -, hall⟩ | ⟨_, _, _, first, hcurrent, hfirst, hrest⟩
  · refine ⟨by rw [server_of_unsent hall]; exact h.stored, ?_⟩
    rw [hseals]
    exact hsealsOf fun y hy => absurd (sealOf_of_beforeCompletion hall hy) nofun
  · obtain rfl := h.unwrapped hanswer hsealed hcurrent hfirst
    rcases hrest with ⟨e, -, hall⟩ | ⟨_, _, second, a, hrenewed, hall, -, rfl, -⟩
    · refine ⟨by rw [server_of_unsent hall]; exact h.stored, ?_⟩
      rw [hseals]
      exact hsealsOf fun y hy => (Option.some_inj.mp (sealOf_of_beforeCompletion hall hy)).symm
    · refine ⟨?_, ?_⟩
      · cases commits with
        | false => exact h.stored
        | true =>
          rw [server_of_sent hall]
          exact rewrap_ok hanswer hrenewed
      · rw [hseals]
        apply hsealsOf
        rw [List.filterMap_append]
        intro y hy
        rcases List.mem_append.mp hy with hold | hlast
        · exact (Option.some_inj.mp (sealOf_of_beforeCompletion hall hold)).symm
        · cases hlast

lemma KeepsAccountKeys.step (hhonest : Honest prf w e) (hstep : PasskeyAccount.step c w e = some w') :
    KeepsAccountKeys c prf keyBlob w' := by
  cases e with
  | rotate answer commits =>
    obtain ⟨hanswer, -, hsealed⟩ := hhonest
    obtain ⟨session, hlive, hrest⟩ := Option.bind_eq_some_iff.mp hstep
    have hkept := h.committed hanswer commits (Prod.eta _).symm (hsealed session hlive)
    cases hresult : (run answer [] (rotatePasskey c session.wrappedKemPrivkeyBlob)).1 with
    | error e =>
      simp only [hresult] at hrest
      rw [← Option.some_inj.mp hrest]
      exact hkept
    | ok newBlob =>
      simp only [hresult] at hrest
      rw [← Option.some_inj.mp hrest]
      exact ⟨hkept.stored, hkept.seals⟩
  | signIn answer email =>
    obtain ⟨hall, -⟩ := run_signIn_of_hasKeys email hhonest
    have hsealed : KeepsAccountKeys c prf keyBlob (w.sealed (run answer [] (signIn c email)).2) := by
      refine ⟨h.stored, fun y hy haad => ?_⟩
      rcases List.mem_append.mp hy with hold | hadded
      · exact h.seals y hold haad
      · exact absurd (sealOf_of_beforeCompletion hall hadded) nofun
    simp only [PasskeyAccount.step, World.signIn] at hstep
    split at hstep
    · cases hstep
    · split at hstep
      · rw [← Option.some_inj.mp hstep]
        exact ⟨hsealed.stored, hsealed.seals⟩
      · rw [← Option.some_inj.mp hstep]
        exact hsealed
  | reload =>
    rw [← Option.some_inj.mp hstep]
    exact ⟨h.stored, h.seals⟩
  | unlock answer event =>
    simp only [PasskeyAccount.step, World.goOn] at hstep
    split at hstep
    · cases hstep
    · cases hstep
    · cases hstep
    · obtain ⟨u, -, hrest⟩ := Option.bind_eq_some_iff.mp hstep
      rw [← Option.some_inj.mp hrest]
      exact ⟨h.stored, h.seals⟩

end

/-! ### The blob of the session -/

def CallHolds (blob : Json) : Unlock.Call CryptoKey → Prop
  | .fetchingConfig session | .sealing session _ => session.wrappedKemPrivkeyBlob = some blob
  | .putting value => value.wrappedKemPrivkeyBlob = some blob
  | .askingMe record | .unsealing record | .matching record _ | .derivingEk record _ =>
    record.wrappedKemPrivkeyBlob = some blob
  | .restored (some session) => session.wrappedKemPrivkeyBlob = some blob
  | _ => True

lemma callHolds_idle (blob : Json) : IgnoresIdle (CallHolds blob) :=
  ⟨trivial, trivial, trivial, trivial, fun _ => trivial, fun _ => trivial⟩

lemma callHolds_afterGet {value : Unlock.StoredValue CryptoKey} (now : ℚ)
    (h : value.wrappedKemPrivkeyBlob = some blob) : CallHolds blob (Unlock.afterGet (some value) now) := by
  cases hrecord : Unlock.isRecordShaped value with
  | none =>
    simp only [Unlock.afterGet, hrecord]
    trivial
  | some record =>
    have hblob : record.wrappedKemPrivkeyBlob = value.wrappedKemPrivkeyBlob := by
      simp only [Unlock.isRecordShaped, Option.bind_eq_bind, Option.bind_eq_some_iff] at hrecord
      obtain ⟨_, -, _, -, _, -, _, -, _, -, _, -, hrecord⟩ := hrecord
      split_ifs at hrecord
      rw [← Option.some_inj.mp hrecord]
    simp only [Unlock.afterGet, hrecord]
    split_ifs
    · trivial
    · exact hblob.trans h

lemma callHolds_resume {p : Unlock.UnlockCrypto CryptoKey} {call next : Unlock.Call CryptoKey}
    {e : Unlock.Event CryptoKey} (h : CallHolds blob call) (hnext : call.resume p e = some next) :
    CallHolds blob next := by
  unfold Unlock.Call.resume at hnext
  split at hnext
  · cases hnext
    exact h
  · rename_i session hours _ drawn now
    cases hnext
    cases drawn with
    | none => trivial
    | some drawn => exact h
  · rename_i record _ answered
    cases hnext
    cases answered with
    | error status =>
      simp only [Unlock.afterMe]
      split_ifs <;> trivial
    | ok me =>
      simp only [Unlock.afterMe]
      split_ifs
      · exact h
      · trivial
  · split at hnext
    · cases hnext
      exact h
    · cases hnext
      trivial
  · cases hnext
    split_ifs
    · exact h
    · trivial
  · cases hnext
    split_ifs
    · exact h
    · trivial
  · cases hnext

/-- The session has the stored blob; without a session, the record and the restores in progress have it. -/
structure HoldsStored (w : World) : Prop where
  live : ∀ session, w.live = some session → session.wrappedKemPrivkeyBlob = some w.server.blob
  unlock : w.live = none →
    Records (fun value => value.wrappedKemPrivkeyBlob = some w.server.blob) (CallHolds w.server.blob) w.unlock

/-- After a reported rotation, one that the server commits is answered, and a page is loaded again only
when the record, if any, has the stored blob. -/
def Timely (w : World) : PasskeyAccount.Event c → Prop
  | .rotate answer commits => w.reported = true → commits = true →
      ∀ before body blob, ∃ v, answer before (.request (.rotatePasskeyComplete body blob)) = .ok v
  | .reload =>
    w.reported = true → ∀ value, w.unlock.store = some value → value.wrappedKemPrivkeyBlob = some w.server.blob
  | _ => True

lemma server_of_rotation {commits : Bool} {blob : Option Json}
    (hrun : run answer [] (rotatePasskey c blob) = (result, transcript))
    (hcommits : ∀ before body blob v, answer before (.request (.rotatePasskeyComplete body blob)) = .ok v →
    commits = true) : (∀ newBlob, result = .ok newBlob →
    ((w.committed commits transcript).sealed transcript).server.blob = newBlob) ∧
      ∀ e, result = .error e →
        (commits = true → ∀ before body blob, ∃ v, answer before (.request (.rotatePasskeyComplete body blob)) =
        .ok v) → ((w.committed commits transcript).sealed transcript).server = w.server := by
  rcases run_rotatePasskey answer blob hrun with ⟨e, rfl, hall⟩ | ⟨_, _, _, first, -, -, hrest⟩
  · exact ⟨fun _ h => (by cases h), fun _ _ _ => server_of_unsent hall commits⟩
  · rcases hrest with ⟨e, rfl, hall⟩ | ⟨_, _, second, a, -, hall, ha, rfl, rfl⟩
    · exact ⟨fun _ h => (by cases h), fun _ _ _ => server_of_unsent hall commits⟩
    · cases a with
      | error e =>
        refine ⟨fun _ h => (by cases h), fun _ _ hanswered => ?_⟩
        cases commits with
        | false => rfl
        | true =>
          obtain ⟨v, hv⟩ := hanswered rfl second _ _
          rw [completion, hv] at ha
          cases ha
      | ok v =>
        refine ⟨fun newBlob hblob => ?_, fun _ h => (by cases h)⟩
        rw [hcommits _ _ _ _ ha, server_of_sent hall]
        exact Except.ok.inj hblob

lemma HoldsStored.step (h : w.reported = true → HoldsStored w) (hhonest : Honest prf w e)
    (htimely : Timely w e) (hstep : PasskeyAccount.step c w e = some w') :
    w'.reported = true → HoldsStored w' := by
  cases e with
  | rotate answer commits =>
    obtain ⟨-, hcommits, -⟩ := hhonest
    obtain ⟨session, hlive, hrest⟩ := Option.bind_eq_some_iff.mp hstep
    obtain ⟨hok, herror⟩ := server_of_rotation (w := w) (Prod.eta _).symm hcommits
    cases hresult : (run answer [] (rotatePasskey c session.wrappedKemPrivkeyBlob)).1 with
    | error e =>
      simp only [hresult] at hrest
      rw [← Option.some_inj.mp hrest]
      have hkept : ∀ t : Transcript c, ((w.committed commits t).sealed t).live = w.live ∧
          ((w.committed commits t).sealed t).unlock = w.unlock ∧
          ((w.committed commits t).sealed t).reported = w.reported := by
        intro t
        cases commits <;> exact ⟨rfl, rfl, rfl⟩
      intro hreported
      rw [(hkept _).2.2] at hreported
      have hserver := herror e hresult (htimely hreported)
      refine ⟨fun s hs => ?_, fun hnone => ?_⟩
      · rw [(hkept _).1] at hs
        rw [hserver]
        exact (h hreported).live s hs
      · rw [(hkept _).1, hlive] at hnone
        cases hnone
    | ok newBlob =>
      simp only [hresult] at hrest
      rw [← Option.some_inj.mp hrest]
      intro _
      refine ⟨fun s hs => ?_, fun hnone => by cases hnone⟩
      rw [← Option.some_inj.mp hs]
      exact congrArg some (hok newBlob hresult).symm
  | signIn answer email =>
    obtain ⟨-, hblob⟩ := run_signIn_of_hasKeys email hhonest
    simp only [PasskeyAccount.step, World.signIn] at hstep
    split at hstep
    · cases hstep
    · rename_i hnone
      split at hstep
      · rename_i session hsession
        rw [← Option.some_inj.mp hstep]
        intro _
        refine ⟨fun s hs => ?_, fun hlive => by cases hlive⟩
        rw [← Option.some_inj.mp hs]
        exact hblob session hsession
      · rw [← Option.some_inj.mp hstep]
        intro hreported
        exact ⟨(h hreported).live, (h hreported).unlock⟩
  | reload =>
    rw [← Option.some_inj.mp hstep]
    intro hreported
    refine ⟨fun s hs => (by cases hs), fun _ => ⟨htimely hreported, fun call hcall => ?_⟩⟩
    rw [List.mem_singleton.mp hcall]
    trivial
  | unlock answer event =>
    simp only [PasskeyAccount.step, World.goOn] at hstep
    split at hstep
    · cases hstep
    · cases hstep
    · cases hstep
    · rename_i hpersist _ _
      obtain ⟨u, hu, hrest⟩ := Option.bind_eq_some_iff.mp hstep
      rw [← Option.some_inj.mp hrest]
      intro hreported
      cases hlive : w.live with
      | some session =>
        refine ⟨fun s hs => (h hreported).live s ?_, fun hnone => by cases hnone⟩
        rw [hlive]
        exact hs
      | none =>
        have hrecords := ((h hreported).unlock hlive).step (callHolds_idle _)
          (fun session he => (hpersist session he).elim) (fun _ hput => hput)
          (fun _ now hget => callHolds_afterGet now hget)
          (fun _ _ hcall hnext => callHolds_resume hcall hnext) hu
        refine ⟨fun s hs => ?_, fun _ => hrecords⟩
        -- a session that was restored is the result of one of the calls
        simp only [World.restoredBy, Option.none_or] at hs
        split at hs
        · split at hs
          · rename_i i _ restored hi
            subst hs
            exact hrecords.calls _ (List.mem_of_getElem? hi)
          · cases hs
        · cases hs

/-! ### The next rotation -/

lemma lookup_setMember {α : Type} (key : String) (value : α) (members : List (String × α)) :
    (setMember key value members).lookup key = some value := by
  induction members with
  | nil => simp [setMember]
  | cons member members ih =>
    rw [setMember]
    split_ifs with h
    · simp
    · rw [List.lookup_cons, beq_false_of_ne (Ne.symm h), ih]

lemma mem_setMember_self {α : Type} (key : String) (value : α) (members : List (String × α)) :
    (key, value) ∈ setMember key value members := by
  induction members with
  | nil => exact List.mem_singleton.mpr rfl
  | cons member members ih =>
    rw [setMember]
    split_ifs
    · exact List.mem_cons_self
    · exact List.mem_cons_of_mem member ih

lemma mem_setMember {α : Type} {key : String} {value : α} {members : List (String × α)} {x : String × α}
    (h : x ∈ setMember key value members) : x = (key, value) ∨ x ∈ members := by
  induction members with
  | nil => exact .inl (List.mem_singleton.mp h)
  | cons member members ih =>
    rw [setMember] at h
    split_ifs at h
    · rcases List.mem_cons.mp h with rfl | hmem
      · exact .inl rfl
      · exact .inr (List.mem_cons_of_mem _ hmem)
    · rcases List.mem_cons.mp h with rfl | hmem
      · exact .inr List.mem_cons_self
      · rcases ih hmem with heq | hold
        · exact .inl heq
        · exact .inr (List.mem_cons_of_mem _ hold)

lemma convertAssertionExtensions_local (members : List (String × Json)) :
    convertAssertionExtensions c (some (.object (setMember "prf"
      (.object [("eval", .object [("first", .string (c.b64uEncode (prfSalt c)))])]) members))) =
      .ok (some (setMember "prf" (.prfEval (some (prfSalt c)) none) ((setMember "prf"
        (.object [("eval", .object [("first", .string (c.b64uEncode (prfSalt c)))])]) members).map
          fun m => (m.1, ExtensionInput.json m.2)))) := by
  have hsalt : decode c (some (.string (c.b64uEncode (prfSalt c)))) = .ok (prfSalt c) :=
    decode_string.mpr (c.b64uDecode_b64uEncode _)
  simp only [convertAssertionExtensions, whenTruthy, truthy, if_true, Json.get, lookup_setMember,
    optionalProp, spread]
  simp only [List.lookup_cons, decodeSalt]
  change ((do
    let first ← (do return some (← decode c (some (.string (c.b64uEncode (prfSalt c))))))
    return some (setMember "prf" (ExtensionInput.prfEval first none) _)) : Except WebError _) = _
  rw [hsalt]
  rfl

lemma extensions_of_local {options : Option Json} (h : assertionOptionsWithLocalPrf c options = .ok request) :
    ∃ members : List (String × Json), request.extensions =
      some (setMember "prf" (.prfEval (some (prfSalt c)) none) (members.map fun m => (m.1, .json m.2))) := by
  simp only [assertionOptionsWithLocalPrf, assertionOptionsFromServer, except_bind_ok, except_pure_ok] at h
  obtain ⟨pk, -, extensions, -, members, -, _, hpk, _, -, _, -, allow, -, converted, hconverted, rfl⟩ := h
  cases hpk
  have hlocal := (congrArg (convertAssertionExtensions c)
    (lookup_setMember "extensions" _ ((pk.getD .null).asObject.getD []))).trans
    (convertAssertionExtensions_local members)
  exact ⟨_, Except.ok.inj (hconverted.symm.trans hlocal)⟩

lemma salt_of_local {options : Option Json} {salt : Bytes} {second : Option Bytes}
    (h : assertionOptionsWithLocalPrf c options = .ok request)
    (hmem : ("prf", .prfEval (some salt) second) ∈ request.extensions.getD []) : salt = prfSalt c := by
  obtain ⟨members, hextensions⟩ := extensions_of_local h
  rw [hextensions, Option.getD_some] at hmem
  rcases mem_setMember hmem with heq | hold
  · simp only [Prod.mk.injEq, ExtensionInput.prfEval.injEq, Option.some_inj] at heq
    exact heq.2.1
  · obtain ⟨m, -, hm⟩ := List.mem_map.mp hold
    cases congrArg Prod.snd hm

variable (prf) in
/-- A rotation that nothing disturbs: the server asks for the stored passkey and answers, the gestures
are made, with an output if there is a salt, and the platform seals. -/
structure UndisturbedRotation (w : World) (answer : Answers c) : Prop where
  faithful : Faithful prf answer
  begun : ∃ begun options request creation ids, answer [] (.request .rotatePasskeyBegin) = .ok begun ∧
    propOf c begun "options" = .ok options ∧ assertionOptionsWithLocalPrf c options = .ok request ∧
    request.allowCredentials = some ids ∧ ids.map (·.id) = [w.server.credentialId] ∧
    registrationOptionsFromServer c (optionalProp begun "registration_options") = .ok creation
  asserted : ∀ before options salt second, ("prf", .prfEval (some salt) second) ∈ options.extensions.getD [] →
    ∃ assertion first, answer before (.get options) = .ok (some assertion) ∧
      assertion.extensionResults.prf.bind (·.first) = some first
  created : ∀ before options, ∃ credential, answer before (.create options) = .ok (some credential) ∧
    registrationReportsPrfEnabled credential = true
  seals : ∀ before key nonce message, key.length = 32 → nonce.length = 12 →
    ∃ sealed, answer before (.encrypt key nonce message KEM_WRAP_LABEL) = some sealed
  completed : ∀ before body blob, ∃ v, answer before (.request (.rotatePasskeyComplete body blob)) = .ok v

section

variable (h : UndisturbedRotation prf w answer)

include h

lemma UndisturbedRotation.gesture (before : Transcript c) {options : RequestOptions} {given : Bytes}
    (hgiven : ("prf", .prfEval (some given) none) ∈ options.extensions.getD []) :
    ∃ assertion first salt second, answer before (.get options) = .ok (some assertion) ∧
      extractPrfFirst assertion = .ok first ∧
        ("prf", .prfEval (some salt) second) ∈ options.extensions.getD [] ∧
      first = (prf assertion.rawId salt).toList := by
  obtain ⟨assertion, first, hget, hfirst⟩ := h.asserted before options given none hgiven
  obtain ⟨salt, second, hmem, rfl⟩ := h.faithful.output _ _ _ _ hget hfirst
  exact ⟨assertion, _, salt, second, hget,
    extractPrfFirst_ok.mpr ⟨hfirst, List.Vector.toList_length _⟩, hmem, rfl⟩

lemma UndisturbedRotation.current (hstored : StoredOpens c prf keyBlob w.server) :
    ∃ begun oldAssertion creation,
      registrationOptionsFromServer c (optionalProp begun "registration_options") = .ok creation ∧
      ∃ first, run answer [] (currentKeys c (some w.server.blob)) =
        (.ok (begun, oldAssertion, keyBlob), first) := by
  obtain ⟨begun, options, request, creation, ids, hbegun, hoptions, hrequest, hids, hid, hcreation⟩ := h.begun
  obtain ⟨members, hextensions⟩ := extensions_of_local hrequest
  have hlocal : ("prf", .prfEval (some (prfSalt c)) none) ∈ request.extensions.getD [] := by
    rw [hextensions]
    exact mem_setMember_self _ _ _
  obtain ⟨assertion, output, salt, second, hget, hfirst, hmem, rfl⟩ :=
    h.gesture ([] ++ [⟨.request .rotatePasskeyBegin, .ok begun⟩]) hlocal
  have hne : ids ≠ [] := by
    rintro rfl
    cases hid
  have hassertion := h.faithful.allowed _ _ _ _ hget hids hne
  rw [hid, List.mem_singleton] at hassertion
  rw [salt_of_local hrequest hmem, hassertion] at hfirst
  obtain ⟨iv, sealed, hparts, hopen⟩ := hstored
  rw [← h.faithful.decrypt
    ([] ++ [⟨.request .rotatePasskeyBegin, .ok begun⟩] ++ [⟨.get request, .ok (some assertion)⟩])] at hopen
  have hunwrap := unwrapKemPrivkey_ok.mpr ⟨iv, sealed, hparts, aesGcmOpenWith_ok.mpr
    ⟨c.length_hkdfSha256 _ _ _ _, hopen, rfl⟩⟩
  refine ⟨begun, assertion, creation, hcreation, ?_⟩
  simp only [currentKeys, ↓run_check_bind_ok, run_bind_ok, run_pure_ok, api_ok, gesture_ok, deriveWrapKey_ok]
  exact ⟨_, begun, _, ⟨hbegun, rfl⟩, options, hoptions, request, hrequest, assertion, _, ⟨hget, rfl⟩, _, hfirst,
    _, ⟨List.Vector.toList_length _, rfl⟩, keyBlob, _, hunwrap, rfl, rfl⟩

lemma UndisturbedRotation.rewraps {creation : CreationOptions}
    (hcreation : registrationOptionsFromServer c (optionalProp begun "registration_options") = .ok creation)
    (before : Transcript c) (pkcs8 : Bytes) :
    ∃ newCredential newBlob after, run answer before (rewrap c begun pkcs8) =
      (.ok (newCredential, newBlob), after) := by
  obtain ⟨credential, hcreate, henabled⟩ := h.created before creation
  unfold rewrap
  simp only [↓run_check_bind_ok, run_bind_ok, run_pure_ok, gesture_ok, newPasskey_ok, deriveWrapKey_ok,
    buildPrfAssertionOptions, run_getRandomValues_ok, wrapKemPrivkey_ok, aesGcmSeal_ok]
  have hgiven (challenge : Bytes) (rpId : Option Json) :
      ("prf", .prfEval (some (prfSalt c)) none) ∈ (RequestOptions.extensions ⟨challenge, none, rpId,
        some [⟨credential.rawId, some (.string "public-key"), none⟩], some (.string "required"),
        some [("prf", .prfEval (some (prfSalt c)) none)]⟩).getD [] := List.mem_singleton.mpr rfl
  obtain ⟨assertion, output, salt, second, hget, hfirst, -, rfl⟩ := h.gesture _ (hgiven _ _)
  obtain ⟨sealed, hsealed⟩ := h.seals _ _ _ pkcs8 (c.length_hkdfSha256 _ _ _ _) (List.Vector.toList_length _)
  exact ⟨_, _, _, creation, hcreation, credential, _, ⟨hcreate, henabled, rfl⟩, _, _,
    ⟨_, _, ⟨rfl, rfl⟩, rfl, rfl⟩, assertion, _, ⟨hget, rfl⟩, _, hfirst, _, ⟨List.Vector.toList_length _, rfl⟩,
    _, _, ⟨rfl, rfl⟩, _, _, ⟨List.Vector.toList_length _, sealed, ⟨c.length_hkdfSha256 _ _ _ _, hsealed, rfl⟩,
      rfl⟩, rfl, rfl⟩

lemma UndisturbedRotation.succeeds (hstored : StoredOpens c prf keyBlob w.server) :
    ∃ newBlob, (run answer [] (rotatePasskey c (some w.server.blob))).1 = .ok newBlob := by
  obtain ⟨begun, oldAssertion, creation, hcreation, first, hcurrent⟩ := h.current hstored
  obtain ⟨newCredential, newBlob, second, hrenewed⟩ := h.rewraps hcreation first keyBlob
  have hsent : ∃ v, answer second (.request (completion c begun oldAssertion newCredential newBlob)) = .ok v :=
    h.completed second _ newBlob
  obtain ⟨v, hv⟩ := hsent
  have hrun : run answer [] (rotatePasskey c (some w.server.blob)) = (.ok newBlob, _) :=
    run_bind_ok.mpr ⟨_, first, hcurrent, run_bind_ok.mpr ⟨_, second, hrenewed, run_bind_ok.mpr
      ⟨v, _, api_ok.mpr ⟨hv, rfl⟩, run_pure_ok.mpr ⟨rfl, rfl⟩⟩⟩⟩
  exact ⟨newBlob, congrArg Prod.fst hrun⟩

end

/-! ### From the signup on -/

variable (c prf) in
/-- An account right after its signup, with the key blob that holds the halves of the session. -/
def SignedUp (keyBlob : Bytes) (w : World) : Prop :=
  ∃ answer accountId credential session transcript blob, Faithful prf answer ∧
    run answer [] (unlockSignupKeys c accountId credential) = (.ok session, transcript) ∧
    session.wrappedKemPrivkeyBlob = some blob ∧
    (∃ d : c.curve.Scalar, session.kemPrivateKey = .ecdh d.1 ∧
      encodeKeyBlobV2 (c.exportPkcs8 d) session.mlkemSeed = .ok keyBlob) ∧
    w = ⟨⟨credential.credentialId, blob⟩, some session, ⟨none, [.fetchingConfig session]⟩, false,
      transcript.filterMap sealOf⟩

lemma keepsKeys_of_signedUp (h : SignedUp c prf keyBlob w) : KeepsAccountKeys c prf keyBlob w := by
  obtain ⟨answer, accountId, credential, session, transcript, blob, hanswer, hrun, hblob,
    ⟨d, hkey, hkeyBlob⟩, rfl⟩ := h
  simp only [unlockSignupKeys, buildPrfAssertionOptions, ↓run_check_bind_ok, run_bind_ok,
    run_pure_ok, gesture_ok,
    extractPrfFirst_ok, run_getRandomValues_ok] at hrun
  obtain ⟨request, _, ⟨challenge, _, ⟨-, rfl⟩, rfl, rfl⟩, assertion, _, ⟨hget, rfl⟩, output,
    ⟨hfirst, -⟩, hinit⟩ := hrun
  obtain ⟨d', seed, iv, plain, blob', r, v, _, sealed, -, hplain, rfl, hwrap, rfl, rfl⟩ :=
    initializeKeysFromPrf_ok hinit
  -- the passkey is the registered one, and what was sealed is the key blob
  obtain rfl := hanswer.own_output hget hfirst rfl rfl
  obtain rfl : d' = d := Subtype.ext (CryptoKey.ecdh.inj hkey)
  obtain rfl : plain = keyBlob := Except.ok.inj (hplain.symm.trans hkeyBlob)
  obtain rfl : blob' = blob := Option.some_inj.mp hblob
  refine ⟨storedOpens_of_wrap hanswer hwrap, ?_⟩
  obtain ⟨-, _, hsealed, -⟩ := wrapKemPrivkey_ok.mp hwrap
  obtain ⟨-, -, rfl⟩ := aesGcmSeal_ok.mp hsealed
  intro x hx _
  simp only [List.filterMap_append, List.filterMap_cons, List.filterMap_nil, sealOf, List.nil_append,
    List.append_nil, List.mem_singleton] at hx
  rw [hx]

/-! ### An account with one passkey after another -/

def idPrf (id _salt : Bytes) : List.Vector UInt8 32 := List.Vector.replicate 32 (id.headD 0)

def saltOf (options : RequestOptions) : Option Bytes :=
  (options.extensions.getD []).findSome? fun m =>
    match m.2 with
    | .prfEval salt _ => if m.1 = "prf" then salt else none
    | .json _ => none

def rotationOptions (current : UInt8) : Json := .object [
  ("options", .object [("publicKey", .object [("challenge", .string ""),
    ("allowCredentials", .array [.object [("id", .string (hexEncode [current]))]])])]),
  ("registration_options", .object [("publicKey",
    .object [("user", .object [("id", .string "")]), ("challenge", .string "")])])]

def accountAnswers (current new : UInt8) : Answers fivePoints
  | _, .request _ => .ok (some (rotationOptions current))
  | _, .create _ => .ok (some ⟨"new", [new], "public-key", [], [], none, ⟨some ⟨true, none, none⟩, []⟩⟩)
  | _, .get options =>
    let id := match options.allowCredentials with
      | some (d :: _) => d.id
      | _ => [current]
    .ok (some ⟨"any", id, "public-key", [], [], [], none,
      ⟨some ⟨true, (saltOf options).map fun salt => (idPrf id salt).toList, none⟩, []⟩⟩)
  | _, .getRandomValues n => List.Vector.replicate n 0
  | _, .generateKey => ⟨1, one_mem_five⟩
  | _, .mlkemSeed => List.Vector.replicate 64 0
  | _, .encrypt key nonce message aad => fivePoints.gcm.encrypt key nonce message aad
  | _, .decrypt key nonce sealed aad => fivePoints.gcm.decrypt key nonce sealed aad

lemma accountAnswers_faithful (current new : UInt8) : Faithful idPrf (accountAnswers current new) where
  encrypt _ _ _ _ _ := rfl
  decrypt _ _ _ _ _ := rfl
  allowed := by
    intro before options assertion ids hget hids hne
    obtain ⟨d, rest, rfl⟩ := List.exists_cons_of_ne_nil hne
    simp only [accountAnswers, hids, Except.ok.injEq, Option.some_inj] at hget
    rw [← hget]
    exact List.mem_cons_self
  output := by
    intro before options assertion first hget hfirst
    simp only [accountAnswers, Except.ok.injEq, Option.some_inj] at hget
    rw [← hget] at hfirst
    obtain ⟨salt, hsalt, rfl⟩ := Option.map_eq_some_iff.mp hfirst
    obtain ⟨⟨name, input⟩, hmem, hinput⟩ := List.exists_of_findSome?_eq_some hsalt
    cases input with
    | json value => cases hinput
    | prfEval given second =>
      simp only at hinput
      split_ifs at hinput with hname
      rw [hname, hinput] at hmem
      exact ⟨salt, second, hmem, by rw [← hget]⟩

variable (unlock : Unlock.State CryptoKey) (id : UInt8)

def sealedKeyBlob : Bytes := zeroKeyBlob ++ List.replicate 16 id

def wrappedUnder : Json := kemPrivkeyWrap fivePoints zeroIv (sealedKeyBlob id)

def accountSession : Unlock.Session CryptoKey :=
  ⟨"pat", .ecdh 1, hexEncode (exportRaw fivePoints 1), List.replicate 64 0,
    hexEncode (List.replicate MLKEM1024_EK_LEN 0), some (wrappedUnder id)⟩

def signedUpWorld : World :=
  ⟨⟨[6], wrappedUnder 6⟩, some (accountSession 6), ⟨none, [.fetchingConfig (accountSession 6)]⟩, false,
    [(List.replicate 32 6, ⟨zeroIv, KEM_WRAP_LABEL, zeroKeyBlob⟩)]⟩

lemma signedUpWorld_signedUp : SignedUp fivePoints idPrf zeroKeyBlob signedUpWorld := by
  refine ⟨accountAnswers 6 7, "pat", ⟨[6], none⟩, accountSession 6,
    (run (accountAnswers 6 7) [] (unlockSignupKeys fivePoints "pat" ⟨[6], none⟩)).2, wrappedUnder 6,
    accountAnswers_faithful 6 7, ?_, rfl, ⟨⟨1, one_mem_five⟩, rfl, rfl⟩, rfl⟩
  apply Prod.ext
  · rfl
  · rfl

def openingOf : Exchange (FlowAnswer c) → Option (Bytes × Bytes × Bytes × Bytes)
  | ⟨.decrypt key nonce sealed aad, _⟩ => some (key, nonce, sealed, aad)
  | _ => none

lemma blobParts_wrappedUnder :
    blobParts fivePoints (some (wrappedUnder id)) = .ok (zeroIv, sealedKeyBlob id) :=
  blobParts_kemPrivkeyWrap (by decide) (by rw [sealedKeyBlob, List.length_append, List.length_replicate]; omega)

lemma rotation_sample : ∃ transcript,
    run (accountAnswers 6 7) [] (rotatePasskey fivePoints (some (wrappedUnder 6))) =
    (.ok (wrappedUnder 7), transcript) ∧
      transcript.filterMap openingOf = [(List.replicate 32 6, zeroIv, sealedKeyBlob 6, KEM_WRAP_LABEL)] ∧
      transcript.filterMap sealOf = [(List.replicate 32 7, ⟨zeroIv, KEM_WRAP_LABEL, zeroKeyBlob⟩)] ∧
      transcript.filterMap (completionOf fivePoints) = [⟨[7], wrappedUnder 7⟩] := by
  unfold rotatePasskey currentKeys rewrap
  simp only [↓run_check_bind_ok, run_bind_ok, run_pure_ok, api_ok, gesture_ok,
    newPasskey_ok, buildPrfAssertionOptions, run_getRandomValues_ok, deriveWrapKey_ok, unwrapKemPrivkey_ok,
    aesGcmOpenWith_ok, wrapKemPrivkey_ok, aesGcmSeal_ok]
  have hopen : fivePoints.gcm.decrypt (List.replicate 32 6) zeroIv (sealedKeyBlob 6) KEM_WRAP_LABEL =
      some zeroKeyBlob := by
    decide
  exact ⟨_, ⟨_, _, ⟨_, _, ⟨rfl, rfl⟩, _, rfl, _, rfl, _, _, ⟨rfl, rfl⟩, _, rfl, _, ⟨rfl, rfl⟩, zeroKeyBlob, _,
      ⟨zeroIv, _, blobParts_wrappedUnder 6, rfl, hopen, rfl⟩, rfl, rfl⟩,
    _, _, ⟨_, rfl, _, _, ⟨rfl, rfl, rfl⟩, _, _, ⟨_, _, ⟨rfl, rfl⟩, rfl, rfl⟩, _, _, ⟨rfl, rfl⟩, _,
      rfl, _, ⟨rfl, rfl⟩,
      _, _, ⟨rfl, rfl⟩, wrappedUnder 7, _, ⟨rfl, _, ⟨rfl, rfl, rfl⟩, rfl⟩, rfl, rfl⟩,
    _, _, ⟨rfl, rfl⟩, rfl, rfl⟩, rfl, rfl, rfl⟩

def rotatedWorld : World :=
  ⟨⟨[7], wrappedUnder 7⟩, some (accountSession 7), unlock.start (.fetchingConfig (accountSession 7)), true,
    [(List.replicate 32 6, ⟨zeroIv, KEM_WRAP_LABEL, zeroKeyBlob⟩),
      (List.replicate 32 7, ⟨zeroIv, KEM_WRAP_LABEL, zeroKeyBlob⟩)]⟩

lemma rotate_of_ok {w : World} (commits : Bool) (hlive : w.live = some session)
    (hrun : run answer [] (rotatePasskey c session.wrappedKemPrivkeyBlob) = (.ok newBlob, transcript)) :
    w.rotate answer commits = some { ((w.committed commits transcript).sealed transcript).hold
      { session with wrappedKemPrivkeyBlob := some newBlob } with reported := true } := by
  simp only [World.rotate, hlive, Option.bind_eq_bind, Option.bind_some, hrun]
  rfl

lemma rotate_sample :
    PasskeyAccount.step fivePoints { signedUpWorld with unlock } (.rotate (accountAnswers 6 7) true) =
    some (rotatedWorld unlock) := by
  obtain ⟨transcript, hrun, -, hseals, hcompleted⟩ := rotation_sample
  have hlive : { signedUpWorld with unlock }.live = some (accountSession 6) := rfl
  apply (rotate_of_ok true hlive hrun).trans
  simp only [World.committed, World.sealed, World.hold, hseals, hcompleted]
  rfl

lemma rotate_sample_honest :
    Honest idPrf { signedUpWorld with unlock } (.rotate (accountAnswers 6 7) true) := by
  refine ⟨accountAnswers_faithful 6 7, fun _ _ _ _ _ => rfl, ?_⟩
  intro session hlive key nonce sealed aad plain hmem message _
  obtain rfl : accountSession 6 = session := Option.some_inj.mp hlive
  obtain ⟨transcript, hrun, hopened, -⟩ := rotation_sample
  rw [accountSession, hrun] at hmem
  have hopening : (key, nonce, sealed, aad) ∈ transcript.filterMap openingOf :=
    List.mem_filterMap.mpr ⟨_, hmem, rfl⟩
  rw [hopened, List.mem_singleton] at hopening
  simp only [Prod.mk.injEq] at hopening
  obtain ⟨rfl, rfl, rfl, rfl⟩ := hopening
  exact ⟨⟨zeroIv, KEM_WRAP_LABEL, zeroKeyBlob⟩, List.mem_singleton.mpr rfl, rfl, rfl, rfl⟩

lemma accountAnswers_undisturbed {w : World} (hw : w.server.credentialId = [7]) :
    UndisturbedRotation idPrf w (accountAnswers 7 8) where
  faithful := accountAnswers_faithful 7 8
  begun := by
    rw [hw]
    exact ⟨_, _, _, _, _, rfl, rfl, rfl, rfl, rfl, rfl⟩
  asserted := by
    intro before options salt second hmem
    have hsalt : (saltOf options).isSome := List.findSome?_isSome_iff.mpr ⟨_, hmem, rfl⟩
    obtain ⟨found, hfound⟩ := Option.isSome_iff_exists.mp hsalt
    exact ⟨_, _, rfl, congrArg (Option.map _) hfound⟩
  created _ _ := ⟨_, rfl, rfl⟩
  seals _ _ _ _ _ _ := ⟨_, rfl⟩
  completed _ _ _ := ⟨_, rfl⟩

/-! ### A restore of what a persist has put -/

section

variable (p : Unlock.UnlockCrypto CryptoKey) (session : Unlock.Session CryptoKey) (hours : ℚ)
  (sealKey : CryptoKey) (sealIv : Bytes)

def persistedRecord : Unlock.UnlockRecord CryptoKey :=
  ⟨session.accountId, session.kemPrivateKey, sealKey,
    some (p.encrypt sealKey sealIv (Unlock.sealAad session.accountId) session.mlkemSeed), some sealIv,
    session.kemPubkeyX963, session.kemPqPubkeyEk, session.wrappedKemPrivkeyBlob, 0 + hours * 3600000⟩

structure Restorable : Prop where
  current : 0 < hours
  pub : session.kemPubkeyX963 ≠ ""
  pq : session.kemPqPubkeyEk ≠ ""
  unseals : p.decrypt sealKey (some sealIv) (Unlock.sealAad session.accountId)
    (some (p.encrypt sealKey sealIv (Unlock.sealAad session.accountId) session.mlkemSeed)) =
      some session.mlkemSeed
  keypair : (p.b64uDecode session.kemPubkeyX963).bind (p.kemKeypairMatches session.kemPrivateKey) = some true
  ek : ∃ ek, p.mlkemEkFromSeed session.mlkemSeed = some ek ∧ p.b64uDecode session.kemPqPubkeyEk = some ek

variable {p session hours sealKey sealIv}

section

variable (h : Restorable p session hours sealKey sealIv)

include h

lemma Restorable.afterGet :
    Unlock.afterGet (some (Unlock.unlockValue p session hours sealKey sealIv 0)) 0 =
      .askingMe (persistedRecord p session hours sealKey sealIv) := by
  have hshape : Unlock.isRecordShaped (Unlock.unlockValue p session hours sealKey sealIv 0) =
      some (persistedRecord p session hours sealKey sealIv) := by
    simp [Unlock.isRecordShaped, Unlock.unlockValue, persistedRecord]
  have hexpires : ¬(0 : ℚ) ≥ (persistedRecord p session hours sealKey sealIv).expiresAt := by
    have := h.current
    simp only [persistedRecord]
    linarith
  simp only [Unlock.afterGet, hshape, if_neg hexpires]

lemma Restorable.continuity :
    Unlock.continuity (registered (persistedRecord p session hours sealKey sealIv))
      (persistedRecord p session hours sealKey sealIv) = true := by
  simp [Unlock.continuity, Unlock.truthyText, registered, persistedRecord, h.pub, h.pq]

lemma Restorable.keypairGate :
    Unlock.keypairGate p (persistedRecord p session hours sealKey sealIv) = true := by
  simp only [Unlock.keypairGate, persistedRecord, h.keypair, decide_true]

lemma Restorable.ekGate :
    Unlock.ekGate p (persistedRecord p session hours sealKey sealIv) session.mlkemSeed = true := by
  obtain ⟨ek, hek, hpq⟩ := h.ek
  simp only [Unlock.ekGate, persistedRecord, hek, hpq, decide_true]

end

end

def restoring (answer : Answers c) (record : Unlock.UnlockRecord CryptoKey) :
    List (PasskeyAccount.Event c) :=
  [.unlock answer (.got 0 true 0), .unlock answer (.meAnswered 0 (.ok (registered record))),
    .unlock answer (.unsealed 0), .unlock answer (.matched 0), .unlock answer (.derived 0)]

def restoringAt (w : World) (call : Unlock.Call CryptoKey) : World :=
  { w with live := none, unlock := ⟨w.unlock.store, [call]⟩ }

lemma Restorable.run {hours : ℚ} {sealKey : CryptoKey} {sealIv : Bytes}
    (h : Restorable (unlockCrypto c answer) session hours sealKey sealIv)
    (hstore : w.unlock.store =
    some (Unlock.unlockValue (unlockCrypto c answer) session hours sealKey sealIv 0)) : Automaton.run
    (PasskeyAccount.step c) w
        (.reload :: restoring answer (persistedRecord (unlockCrypto c answer) session hours sealKey sealIv)) =
      some { w with live := some session, unlock := ⟨w.unlock.store, [.restored (some session)]⟩ } := by
  set record := persistedRecord (unlockCrypto c answer) session hours sealKey sealIv
  have hgot : PasskeyAccount.step c (restoringAt w .getting) (.unlock answer (.got 0 true 0)) =
      some (restoringAt w (.askingMe record)) := by
    rw [← h.afterGet, ← hstore]
    rfl
  have hme : PasskeyAccount.step c (restoringAt w (.askingMe record))
      (.unlock answer (.meAnswered 0 (.ok (registered record)))) = some (restoringAt w (.unsealing record)) :=
      congrArg (fun call => some (restoringAt w call)) (if_pos h.continuity)
  have hunsealed : PasskeyAccount.step c (restoringAt w (.unsealing record)) (.unlock answer (.unsealed 0)) =
      some (restoringAt w (.matching record session.mlkemSeed)) := by
    have hresume : (Unlock.Call.unsealing record).resume (unlockCrypto c answer) (.unsealed 0) =
        some (.matching record session.mlkemSeed) := by
      simp only [Unlock.Call.resume, Unlock.unsealSeed, record, persistedRecord, h.unseals]
    change ((((Unlock.Call.unsealing record).resume (unlockCrypto c answer) (.unsealed 0)).bind _).bind _) = _
    rw [hresume]
    rfl
  have hmatched : PasskeyAccount.step c (restoringAt w (.matching record session.mlkemSeed))
      (.unlock answer (.matched 0)) = some (restoringAt w (.derivingEk record session.mlkemSeed)) :=
    congrArg (fun call => some (restoringAt w call)) (if_pos h.keypairGate)
  have hderived : PasskeyAccount.step c (restoringAt w (.derivingEk record session.mlkemSeed))
      (.unlock answer (.derived 0)) = some { w with live := some session, unlock :=
        ⟨w.unlock.store, [.restored (some session)]⟩ } := by
    have hstep : Unlock.step (unlockCrypto c answer) ⟨w.unlock.store, [.derivingEk record session.mlkemSeed]⟩
        (.derived 0) = some ⟨w.unlock.store, [.restored (some session)]⟩ :=
      congrArg (fun call => some (⟨w.unlock.store, [call]⟩ : Unlock.State CryptoKey)) (if_pos h.ekGate)
    simp only [PasskeyAccount.step, World.goOn, restoringAt, hstep]
    rfl
  simp only [restoring, Automaton.run_cons, Automaton.run_nil]
  exact ⟨_, rfl, _, hgot, _, hme, _, hunsealed, _, hmatched, _, hderived, rfl⟩

/-! ### The record of the signup is taken up after a rotation -/

def zeroSealKey : CryptoKey := .aesGcm (List.replicate 32 0)

lemma accountSession_restorable : Restorable (unlockCrypto fivePoints (accountAnswers 6 7)) (accountSession id)
    Unlock.DEFAULT_PERSIST_HOURS zeroSealKey zeroIv where
  current := by norm_num [Unlock.DEFAULT_PERSIST_HOURS]
  pub := hexEncode_ne_empty (by decide)
  pq := hexEncode_ne_empty (List.ne_nil_of_length_pos (by rw [List.length_replicate]; exact Nat.succ_pos _))
  unseals := tagCipher.decrypt_encrypt (List.replicate 32 0) zeroIv (List.replicate 64 0)
    (Unlock.sealAad "pat") _ rfl
  keypair := by
    have hpub : fivePoints.b64uDecode (accountSession id).kemPubkeyX963 = some (exportRaw fivePoints 1) :=
      fivePoints.b64uDecode_b64uEncode _
    have hQ : fivePoints.importRaw (exportRaw fivePoints 1) = some 1 :=
      fivePoints.importRaw_exportRaw 1 (by decide)
    have hmatch : run (accountAnswers 6 7) [] (kemKeypairMatches fivePoints (.ecdh 1) (exportRaw fivePoints 1))
        = (.ok true, _) :=
      kemKeypairMatches_of_opposite (d := ⟨1, one_mem_five⟩) (e := ⟨1, one_mem_five⟩) hQ (.inl rfl) rfl rfl
    simp only [unlockCrypto, hpub, Option.bind_some]
    exact congrArg (fun ended => ended.1.toOption) hmatch
  ek := by
    have hpq : fivePoints.b64uDecode (accountSession id).kemPqPubkeyEk =
        some (List.replicate MLKEM1024_EK_LEN 0) :=
      fivePoints.b64uDecode_b64uEncode _
    refine ⟨List.replicate MLKEM1024_EK_LEN 0, ?_, ?_⟩
    · simp only [unlockCrypto, accountSession, zeroSeed_ek, Except.toOption]
    · simp only [unlockCrypto, hpq]

def signupRecord : Unlock.StoredValue CryptoKey :=
  Unlock.unlockValue (unlockCrypto fivePoints (accountAnswers 6 7))
    (accountSession 6) Unlock.DEFAULT_PERSIST_HOURS zeroSealKey zeroIv 0

/-- The persist of the signup puts its record, the one of the rotation fails, and the page is loaded again. -/
def staleEvents : List (PasskeyAccount.Event fivePoints) :=
  let answer := accountAnswers 6 7
  [.unlock answer (.configAnswered 0 none), .unlock answer (.seedSealed 0 (some (zeroSealKey, zeroIv)) 0),
    .unlock answer (.putDone 0 true), .rotate answer true, .unlock answer (.configAnswered 1 none),
    .unlock answer (.seedSealed 1 none 0)] ++
  .reload :: restoring answer
    (persistedRecord (unlockCrypto fivePoints answer) (accountSession 6) Unlock.DEFAULT_PERSIST_HOURS
      zeroSealKey zeroIv)

def failedPersist : World := { rotatedWorld ⟨some signupRecord, [.persisted]⟩ with
  unlock := ⟨some signupRecord, [.persisted, .persisted]⟩ }

def staleWorld : World := { failedPersist with
  live := some (accountSession 6)
  unlock := ⟨some signupRecord, [.restored (some (accountSession 6))]⟩ }

lemma staleEvents_run : Automaton.run (PasskeyAccount.step fivePoints) signedUpWorld staleEvents =
    some staleWorld := by
  apply Automaton.run_append.mpr
  refine ⟨failedPersist, ?_, (accountSession_restorable 6).run rfl⟩
  simp only [Automaton.run_cons, Automaton.run_nil]
  exact ⟨_, rfl, _, rfl, _, rfl, _, rotate_sample ⟨some signupRecord, [.persisted]⟩, _, rfl, _, rfl, rfl⟩

lemma staleEvents_honest :
    Automaton.Throughout (PasskeyAccount.step fivePoints) (Honest idPrf) signedUpWorld staleEvents := by
  apply Automaton.throughout_append
  · refine .cons trivial rfl (.cons trivial rfl (.cons trivial rfl (.cons ?_
      (rotate_sample ⟨some signupRecord, [.persisted]⟩) (.cons trivial rfl (.cons trivial rfl trivial)))))
    exact rotate_sample_honest ⟨some signupRecord, [.persisted]⟩
  · intro u _
    apply Automaton.throughout_of_forall
    intro e he u
    simp only [restoring, List.mem_cons, List.not_mem_nil, or_false] at he
    rcases he with rfl | rfl | rfl | rfl | rfl | rfl <;> trivial

lemma stale_rotation (newBlob : Json) :
    (run (accountAnswers 7 8) [] (rotatePasskey fivePoints (some (wrappedUnder 6)))).1 ≠ .ok newBlob := by
  intro h
  rcases hrun : run (accountAnswers 7 8) [] (rotatePasskey fivePoints (some (wrappedUnder 6)))
    with ⟨result, transcript⟩
  rw [hrun] at h
  cases h
  obtain ⟨current, _, hcurrent, -⟩ := run_bind_ok.mp hrun
  simp only [currentKeys, ↓run_check_bind_ok, run_bind_ok, run_pure_ok, api_ok, gesture_ok,
    deriveWrapKey_ok] at hcurrent
  obtain ⟨begun, _, ⟨hbegun, rfl⟩, options, hoptions, request, hrequest, assertion, _,
    ⟨hget, rfl⟩, h⟩ := hcurrent
  obtain ⟨output, houtput, key, ⟨-, rfl⟩, plain, _, hplain, -⟩ := h
  cases hbegun
  cases hoptions
  cases hrequest
  cases hget
  cases houtput
  obtain ⟨iv, sealed, hparts, hopen⟩ := unwrapKemPrivkey_ok.mp hplain
  cases (blobParts_wrappedUnder 6).symm.trans hparts
  obtain ⟨-, hdecrypt, -⟩ := aesGcmOpenWith_ok.mp hopen
  have hclosed : fivePoints.gcm.decrypt (List.replicate 32 7) zeroIv
      (sealedKeyBlob 6) KEM_WRAP_LABEL = none := by
    decide
  exact Option.some_ne_none _ (hdecrypt.symm.trans hclosed)

/-- Over rotations, reloads and sign-ins, what the server stores opens at every moment to the key blob
of the signup. After a reported rotation the session has the stored blob, and the next undisturbed
rotation succeeds, as long as committed rotations are answered and no page is loaded with an old
record. -/
theorem rotation_keeps_access (prf : Bytes → Bytes → List.Vector UInt8 32) (keyBlob : Bytes) (w₀ w : World)
    (events : List (PasskeyAccount.Event c)) (hstart : SignedUp c prf keyBlob w₀)
    (hrun : Automaton.run (PasskeyAccount.step c) w₀ events = some w)
    (hhonest : Automaton.Throughout (PasskeyAccount.step c) (Honest prf) w₀ events) :
    StoredOpens c prf keyBlob w.server ∧
      (Automaton.Throughout (PasskeyAccount.step c) Timely w₀ events → w.reported = true →
        ∀ session, w.live = some session → session.wrappedKemPrivkeyBlob = some w.server.blob ∧
          ∀ answer, UndisturbedRotation prf w answer →
            ∃ newBlob, (run answer [] (rotatePasskey c session.wrappedKemPrivkeyBlob)).1 = .ok newBlob) := by
  have hkeys : KeepsAccountKeys c prf keyBlob w :=
    Automaton.invariant_throughout (KeepsAccountKeys c prf keyBlob) (keepsKeys_of_signedUp hstart)
      (fun u e v he hu hstep => hu.step he hstep) hhonest hrun
  refine ⟨hkeys.stored, fun htimely hreported session hlive => ?_⟩
  have hstart' : w₀.reported = true → HoldsStored w₀ := by
    obtain ⟨answer, accountId, credential, session, transcript, blob, -, -, -, -, rfl⟩ := hstart
    exact fun h => absurd h nofun
  have hholds := Automaton.invariant_throughout (fun u => u.reported = true → HoldsStored u) hstart'
    (fun u e v he hu hstep => HoldsStored.step hu he.1 he.2 hstep) (hhonest.and htimely) hrun
  have hblob := (hholds hreported).live session hlive
  refine ⟨hblob, fun answer hundisturbed => ?_⟩
  rw [hblob]
  exact hundisturbed.succeeds hkeys.stored

theorem access_after_rotation :
      ∃ w, Automaton.run (PasskeyAccount.step fivePoints) signedUpWorld [.rotate (accountAnswers 6 7) true] =
      some w ∧ w.reported = true ∧ StoredOpens fivePoints idPrf zeroKeyBlob w.server ∧
      UndisturbedRotation idPrf w (accountAnswers 7 8) ∧
      ∃ newBlob, (run (accountAnswers 7 8) [] (rotatePasskey fivePoints (some w.server.blob))).1 =
        .ok newBlob := by
  have hstep := rotate_sample signedUpWorld.unlock
  have hrun : Automaton.run (PasskeyAccount.step fivePoints) signedUpWorld [.rotate (accountAnswers 6 7) true] =
      some (rotatedWorld signedUpWorld.unlock) := Automaton.run_cons.mpr ⟨_, hstep, rfl⟩
  have hhonest : Automaton.Throughout (PasskeyAccount.step fivePoints) (Honest idPrf) signedUpWorld
      [.rotate (accountAnswers 6 7) true] :=
    .cons (rotate_sample_honest signedUpWorld.unlock) hstep trivial
  obtain ⟨hstored, hnext⟩ := rotation_keeps_access idPrf zeroKeyBlob signedUpWorld
    (rotatedWorld signedUpWorld.unlock) _ signedUpWorld_signedUp hrun hhonest
  have htimely : Automaton.Throughout (PasskeyAccount.step fivePoints) Timely signedUpWorld
      [.rotate (accountAnswers 6 7) true] :=
    .cons (fun hreported => absurd hreported nofun) hstep trivial
  have hundisturbed : UndisturbedRotation idPrf (rotatedWorld signedUpWorld.unlock) (accountAnswers 7 8) :=
    accountAnswers_undisturbed rfl
  exact ⟨_, hrun, rfl, hstored, hundisturbed, (hnext htimely rfl _ rfl).2 _ hundisturbed⟩

/-- After a reported rotation whose persist fails, a page that is loaded again has the blob of the
signup, and a rotation that nothing disturbs fails. -/
theorem restored_session_cannot_rotate : SignedUp fivePoints idPrf zeroKeyBlob signedUpWorld ∧
    Automaton.run (PasskeyAccount.step fivePoints) signedUpWorld staleEvents = some staleWorld ∧
    Automaton.Throughout (PasskeyAccount.step fivePoints) (Honest idPrf) signedUpWorld staleEvents ∧
    staleWorld.reported = true ∧ staleWorld.live = some (accountSession 6) ∧
    (accountSession 6).wrappedKemPrivkeyBlob ≠ some staleWorld.server.blob ∧
    UndisturbedRotation idPrf staleWorld (accountAnswers 7 8) ∧
    ∀ newBlob, (run (accountAnswers 7 8) []
      (rotatePasskey fivePoints (accountSession 6).wrappedKemPrivkeyBlob)).1 ≠
      .ok newBlob := by
  refine ⟨signedUpWorld_signedUp, staleEvents_run, staleEvents_honest, rfl, rfl, ?_,
    accountAnswers_undisturbed rfl, stale_rotation⟩
  intro hsame
  have hparts := congrArg (blobParts fivePoints) hsame
  have hsealed := Except.ok.inj
    ((blobParts_wrappedUnder 6).symm.trans (hparts.trans (blobParts_wrappedUnder 7)))
  exact absurd hsealed (by decide)

end

end

end SignetDrive.Proofs
