import SignetDrive.Model.Enroll
import SignetDrive.Proofs.HostSigner

/-!
# What an enrollment does to the keystore

Cleanup is by label, and the labels are those of the handle that the server confirmed.
-/

namespace SignetDrive.Proofs
open Client Enroll Procedure

/-- A backend that is a map from labels to keys: a taken label is refused and keeps its key, and a
deletion that fails leaves it. -/
structure KeyMap (Key Rand : Type) extends Backend Key Rand where
  generate_taken : ∀ l algorithm rand k, ∃ e, generate l algorithm rand (some k) = (.error e, some k)
  generate_free : ∀ l algorithm rand m, (generate l algorithm rand none).1 = .ok m →
    m.label = l.full ∧ (generate l algorithm rand none).2.isSome
  delete_taken : ∀ l k, delete l (some k) = (.ok (), none) ∨ ∃ e, delete l (some k) = (.error e, some k)

def softwareKeyMap {Rand : Type} (c : SoftwareCrypto Rand) : KeyMap StoredKey Rand where
  toBackend := SoftwareKeystore.backend c
  generate_taken _ _ _ _ := ⟨_, rfl⟩
  generate_free l algorithm rand m := by
    simp only [SoftwareKeystore.backend, SoftwareKeystore.generate]
    cases SoftwareKeystore.newRecord c l algorithm rand with
    | error e => simp
    | ok stored =>
      rintro ⟨⟩
      exact ⟨rfl, rfl⟩
  delete_taken _ _ := .inl rfl

section

variable {Key Rand Envelope α β : Type} {b : KeyMap Key Rand} {p : PopPrimitives Envelope}
  {env : Inputs Rand} {s t : State Key} {ks : Keystore Key} {labels : EnrollLabels} {l : KeyLabel}

/-- Every key is there as before. -/
def KeepsKeys (before after : Keystore Key) : Prop := ∀ l k, before.get l = some k → after.get l = some k

def Quiet (s t : State Key) : Prop := t.keystore = s.keystore ∧ t.popAccepted = s.popAccepted

lemma Quiet.refl (s : State Key) : Quiet s s := ⟨rfl, rfl⟩

lemma Quiet.trans (s t u : State Key) (h : Quiet s t) (h' : Quiet t u) : Quiet s u :=
  ⟨h'.1.trans h.1, h'.2.trans h.2⟩

/-! ### Steps that leave the keystore alone -/

variable {c : ConfirmedHandle} {q : Procedure (State Key) Stop α} {f : α → Procedure (State Key) Stop β}

lemma quiet_bind
    (hq : Keeps Quiet q) (hf : ∀ a, Keeps Quiet (f a)) : Keeps Quiet (q >>= f) :=
  keeps_bind Quiet.trans hq hf

lemma quiet_pure (a : α) : Keeps Quiet (pure a : Procedure (State Key) Stop α) := keeps_pure Quiet.refl a

lemma quiet_check (x : Except Stop α) : Keeps Quiet (check x : Procedure (State Key) Stop α) :=
  keeps_check Quiet.refl x

lemma quiet_attempt (x : Except CliError α) : Keeps Quiet (attempt x : Procedure (State Key) Stop α) :=
  quiet_check _

lemma quiet_send (r : Request) : Keeps Quiet (send r : Procedure (State Key) Stop Unit) := fun _ => ⟨rfl, rfl⟩

lemma quiet_withKey (op : KeyLabel → Option Key → Except CliError α) : Keeps Quiet (withKey l op) := Quiet.refl

lemma quiet_join (code : String) : Keeps Quiet (join env code : Procedure (State Key) Stop String) :=
  quiet_bind (quiet_send _) fun _ => quiet_bind (quiet_attempt _) fun _ => quiet_attempt _

lemma quiet_submitKeys (code token : String) (m₁ m₂ m₃ m₄ : KeyMeta) :
    Keeps Quiet (submitKeys p env code token m₁ m₂ m₃ m₄ : Procedure (State Key) Stop _) :=
  quiet_bind (quiet_send _) fun _ => quiet_bind (quiet_attempt _) fun _ => quiet_attempt _

lemma quiet_unwrapKeyHybrid (kem kemPq : KeyLabel) (envelope : Envelope) (partyV : Bytes) :
    Keeps Quiet (unwrapKeyHybrid b.toBackend p kem kemPq envelope partyV) := by
  refine quiet_bind (quiet_attempt _) fun _ => quiet_bind (quiet_attempt _) fun _ => ?_
  refine quiet_bind (quiet_withKey _) fun _ => quiet_bind (quiet_withKey _) fun _ => ?_
  exact quiet_bind (quiet_withKey _) fun _ => quiet_bind (quiet_withKey _) fun _ => quiet_attempt _

lemma quiet_writeDefaultConfig (env : Inputs Rand) (signing kem : KeyMeta) :
    Keeps Quiet (writeDefaultConfig env signing kem : Procedure (State Key) Stop _) := by
  unfold writeDefaultConfig
  split
  · refine quiet_bind (quiet_attempt _) fun _ => quiet_bind (quiet_attempt _) fun _ => ?_
    exact quiet_bind (keeps_update fun _ => ⟨rfl, rfl⟩) fun _ => quiet_pure _
  · exact quiet_pure _

lemma quiet_awaitConfirmation (env : Inputs Rand) :
    Keeps Quiet (awaitConfirmation env : Procedure (State Key) Stop ConfirmedHandle) := by
  refine quiet_bind (quiet_attempt _) fun _ => quiet_bind (quiet_join _) fun _ => ?_
  refine quiet_bind (quiet_check _) fun _ => quiet_bind (quiet_attempt _) fun _ => ?_
  exact quiet_bind (quiet_attempt _) fun _ => quiet_pure _

/-! ### Generating the keys -/

/-- The key that the keystore makes for a label. -/
def generated (b : KeyMap Key Rand) (env : Inputs Rand) (l : KeyLabel) : Option Key :=
  (b.generate l l.purpose.defaultAlg (env.keyRand l.purpose) none).2

variable {k : Key}

lemma generate_of_taken (b : KeyMap Key Rand) (env : Inputs Rand) (h : s.keystore.get l = some k) :
    ∃ e t, Enroll.generate b.toBackend env l s = (.error (.failed e), t) := by
  obtain ⟨e, he⟩ := b.generate_taken l l.purpose.defaultAlg (env.keyRand l.purpose) k
  exact ⟨e, _, by simp only [Enroll.generate, Keystore.generate, h, he]; rfl⟩

lemma generate_keepsKeys (b : KeyMap Key Rand) (env : Inputs Rand) (l : KeyLabel) (s : State Key) :
    KeepsKeys s.keystore (Enroll.generate b.toBackend env l s).2.keystore := by
  intro l' k hk
  simp only [Enroll.generate, Keystore.generate]
  by_cases hl : l' = l
  · subst hl
    obtain ⟨e, he⟩ := b.generate_taken l' l'.purpose.defaultAlg (env.keyRand l'.purpose) k
    rw [Keystore.get_set_self, hk, he]
  · rw [Keystore.get_set_ne _ _ hl, hk]

lemma generate_ok {m : KeyMeta} (h : Enroll.generate b.toBackend env l s = (.ok m, t)) :
    m.label = l.full ∧ (generated b env l).isSome ∧ t.keystore = s.keystore.set l (generated b env l) := by
  have hfree : s.keystore.get l = none := by
    by_contra hne
    obtain ⟨k, hk⟩ := Option.ne_none_iff_exists'.mp hne
    obtain ⟨e, t', he⟩ := generate_of_taken b env hk
    rw [he] at h
    cases h
  simp only [Enroll.generate, Keystore.generate, hfree, Prod.mk.injEq, except_mapError_ok] at h
  obtain ⟨hm, rfl⟩ := h
  obtain ⟨hlabel, hsome⟩ := b.generate_free _ _ _ _ hm
  exact ⟨hlabel, hsome, rfl⟩

lemma ofHandle_nodup {handle : String} (h : EnrollLabels.ofHandle handle = .ok labels) :
    labels.toList.Nodup := by
  have hpurpose : ∀ {purpose : Purpose} {l : KeyLabel}, KeyLabel.fromHandle handle purpose = .ok l →
      l.purpose = purpose := by
    intro purpose l hl
    unfold KeyLabel.fromHandle at hl
    split at hl
    · cases hl
      rfl
    · cases hl
  simp only [EnrollLabels.ofHandle, except_bind_ok, except_pure_ok] at h
  obtain ⟨l₁, h₁, l₂, h₂, l₃, h₃, l₄, h₄, rfl⟩ := h
  apply List.Nodup.of_map KeyLabel.purpose
  simp [EnrollLabels.toList, hpurpose h₁, hpurpose h₂, hpurpose h₃, hpurpose h₄]

/-! ### Cleaning up -/

def cleaned (b : KeyMap Key Rand) (env : Inputs Rand) (l : KeyLabel) (entry : Option Key) : Option Key :=
  if env.cleanupLookupFails l then entry else entry.bind fun k => (b.delete l (some k)).2

/-- The cleanup finds the key and can delete it. -/
def Removable (b : KeyMap Key Rand) (env : Inputs Rand) (l : KeyLabel) (k : Key) : Prop :=
  env.cleanupLookupFails l = false ∧ (b.delete l (some k)).1 = .ok ()

lemma cleaned_of_removable (h : Removable b env l k) : cleaned b env l (some k) = none := by
  obtain hdelete | ⟨e, hdelete⟩ := b.delete_taken l k
  · simp [cleaned, h.1, hdelete]
  · have hok := h.2
    rw [hdelete] at hok
    cases hok

lemma cleaned_of_not_removable (h : ¬ Removable b env l k) : cleaned b env l (some k) = some k := by
  by_cases hfails : env.cleanupLookupFails l = true
  · simp [cleaned, hfails]
  · obtain hdelete | ⟨e, hdelete⟩ := b.delete_taken l k
    · exact absurd ⟨by simpa using hfails, by rw [hdelete]⟩ h
    · simp [cleaned, hfails, hdelete]

lemma cleanupKey_get (s : State Key) (l l' : KeyLabel) :
    (cleanupKey b.toBackend env s l).keystore.get l' =
      if l' = l then cleaned b env l (s.keystore.get l) else s.keystore.get l' := by
  unfold cleanupKey existsOrFalse Keystore.contains
  by_cases hl : l' = l
  · subst hl
    cases hfails : env.cleanupLookupFails l' <;> cases hget : s.keystore.get l' <;>
      simp [cleaned, hfails, hget, Keystore.delete, Keystore.get_set_self]
  · split
    · simp [Keystore.delete, Keystore.get_set_ne _ _ hl]
    · simp

lemma cleanup_popAccepted (ls : List KeyLabel) (s : State Key) :
    (ls.foldl (cleanupKey b.toBackend env) s).popAccepted = s.popAccepted := by
  induction ls generalizing s with
  | nil => rfl
  | cons l ls ih =>
    rw [List.foldl_cons, ih]
    unfold cleanupKey
    split <;> rfl

lemma cleanup_get {ls : List KeyLabel} (hnodup : ls.Nodup) (s : State Key) (l : KeyLabel) :
    (ls.foldl (cleanupKey b.toBackend env) s).keystore.get l =
      if l ∈ ls then cleaned b env l (s.keystore.get l) else s.keystore.get l := by
  induction ls generalizing s with
  | nil => simp
  | cons l₀ ls ih =>
    obtain ⟨hnotin, hnodup⟩ := List.nodup_cons.mp hnodup
    rw [List.foldl_cons, ih hnodup, cleanupKey_get]
    by_cases hl : l = l₀
    · subst hl
      simp [hnotin]
    · simp [hl]

/-! ### From the first keygen on -/

def afterKeygen (b : KeyMap Key Rand) (p : PopPrimitives Envelope) (env : Inputs Rand) (c : ConfirmedHandle)
    (signing kem signingPq kemPq : KeyMeta) : Procedure (State Key) Stop EnrollResult := do
  let pop ← submitKeys p env c.code c.submitToken signing kem signingPq kemPq
  provePossession b.toBackend p env c.code c.submitToken c.labels pop.1 pop.2
  let completed ← check (pollUntil "completed" "the attestation" env.completing)
  let configPath ← writeDefaultConfig env signing kem
  return ⟨c.handle, env.tier.wireStr, completed.attestationId, configPath, false⟩

abbrev completeFor (b : KeyMap Key Rand) (p : PopPrimitives Envelope) (env : Inputs Rand)
    (c : ConfirmedHandle) : Procedure (State Key) Stop EnrollResult :=
  complete b.toBackend p env c.code c.submitToken c.handle c.labels

lemma completeFor_eq (c : ConfirmedHandle) : completeFor b p env c = (do
    let signing ← Enroll.generate b.toBackend env c.labels.signing
    let kem ← Enroll.generate b.toBackend env c.labels.kem
    let signingPq ← Enroll.generate b.toBackend env c.labels.signingPq
    let kemPq ← Enroll.generate b.toBackend env c.labels.kemPq
    afterKeygen b p env c signing kem signingPq kemPq) := rfl

def SameKeys (s t : State Key) : Prop := t.keystore = s.keystore

lemma sameKeys_of_quiet (h : Keeps Quiet q) : Keeps SameKeys q :=
  fun s => (h s).1

lemma sameKeys_bind
    (hq : Keeps SameKeys q) (hf : ∀ a, Keeps SameKeys (f a)) : Keeps SameKeys (q >>= f) :=
  keeps_bind (fun _ _ _ h h' => Eq.trans h' h) hq hf

lemma sameKeys_submitPop (code token : String) (x y z : Bytes) :
    Keeps SameKeys (submitPop p env code token x y z : Procedure (State Key) Stop Unit) := by
  refine sameKeys_bind (sameKeys_of_quiet (quiet_send _)) fun _ => ?_
  exact sameKeys_bind (keeps_update fun _ => rfl) fun _ => sameKeys_of_quiet (quiet_attempt _)

lemma afterKeygen_sameKeys (c : ConfirmedHandle) (m₁ m₂ m₃ m₄ : KeyMeta) :
    Keeps SameKeys (afterKeygen b p env c m₁ m₂ m₃ m₄) := by
  refine sameKeys_bind (sameKeys_of_quiet (quiet_submitKeys _ _ _ _ _ _)) fun _ => sameKeys_bind ?_ fun _ => ?_
  · refine sameKeys_bind (sameKeys_of_quiet (quiet_withKey _)) fun _ => ?_
    refine sameKeys_bind (sameKeys_of_quiet (quiet_withKey _)) fun _ => ?_
    exact sameKeys_bind (sameKeys_of_quiet (quiet_unwrapKeyHybrid _ _ _ _)) fun _ =>
      sameKeys_submitPop _ _ _ _ _
  · apply sameKeys_of_quiet
    exact quiet_bind (quiet_check _) fun _ => quiet_bind (quiet_writeDefaultConfig _ _ _) fun _ => quiet_pure _

def Fails (q : Procedure (State Key) Stop α) (s : State Key) : Prop := ∃ e t, q s = (.error (.failed e), t)

lemma fails_generate_bind {l₀ : KeyLabel} {f : KeyMeta → Procedure (State Key) Stop β}
    (hk : s.keystore.get l₀ = some k) (hf : ∀ m t, l₀ ≠ l → t.keystore.get l₀ = some k → Fails (f m) t) :
    Fails (Enroll.generate b.toBackend env l >>= f) s := by
  by_cases hl : l₀ = l
  · subst hl
    obtain ⟨e, t, he⟩ := generate_of_taken b env hk
    exact ⟨e, t, bind_of_error he⟩
  · have hkept := generate_keepsKeys b env l s l₀ k hk
    cases hg : Enroll.generate b.toBackend env l s with
    | mk result t =>
      rw [hg] at hkept
      cases result with
      | ok m =>
        obtain ⟨e, u, hu⟩ := hf m t hl hkept
        exact ⟨e, u, (bind_of_ok hg).trans hu⟩
      | error stop =>
        cases stop with
        | failed e => exact ⟨e, t, bind_of_error hg⟩
        | waiting =>
          -- a keygen ends: it has no poll in it
          have hresult := congrArg Prod.fst hg
          simp only [Enroll.generate] at hresult
          cases hr : (s.keystore.generate b.toBackend l l.purpose.defaultAlg (env.keyRand l.purpose)).1 <;>
            simp [hr, Except.mapError] at hresult

lemma complete_fails_of_taken {l₀ : KeyLabel} (hl : l₀ ∈ c.labels.toList) (hk : s.keystore.get l₀ = some k) :
    Fails (completeFor b p env c) s := by
  rw [completeFor_eq]
  refine fails_generate_bind hk fun _ _ h₁ hk => fails_generate_bind hk fun _ _ h₂ hk => ?_
  refine fails_generate_bind hk fun _ _ h₃ hk => fails_generate_bind hk fun _ _ h₄ hk => ?_
  simp [EnrollLabels.toList, h₁, h₂, h₃, h₄] at hl

def KeepsState (s t : State Key) : Prop := KeepsKeys s.keystore t.keystore

lemma keepsState_bind
    (hq : Keeps KeepsState q) (hf : ∀ a, Keeps KeepsState (f a)) : Keeps KeepsState (q >>= f) :=
  keeps_bind (fun _ _ _ h h' l k hk => h' l k (h l k hk)) hq hf

lemma complete_keepsKeys (b : KeyMap Key Rand) (p : PopPrimitives Envelope) (env : Inputs Rand)
    (c : ConfirmedHandle) (s : State Key) : KeepsKeys s.keystore (completeFor b p env c s).2.keystore := by
  have hgen : ∀ l, Keeps KeepsState (Enroll.generate b.toBackend env l) := generate_keepsKeys b env
  have htail : ∀ m₁ m₂ m₃ m₄, Keeps KeepsState (afterKeygen b p env c m₁ m₂ m₃ m₄) := by
    intro m₁ m₂ m₃ m₄ s l k hk
    rw [afterKeygen_sameKeys c m₁ m₂ m₃ m₄ s]
    exact hk
  refine (show Keeps KeepsState (completeFor b p env c) from ?_) s
  rw [completeFor_eq]
  refine keepsState_bind (hgen _) fun _ => keepsState_bind (hgen _) fun _ => ?_
  exact keepsState_bind (hgen _) fun _ => keepsState_bind (hgen _) fun _ => htail _ _ _ _

/-! ### Up to the confirmed handle -/

/-- The enrolment gets as far as the keys, with the confirmed handle. -/
structure ReachesKeygen (env : Inputs Rand) (ks : Keystore Key) (c : ConfirmedHandle) : Prop where
  opened : env.openKeystore = .ok ()
  notEnrolled : enrolledHandle env ks = .ok none
  code : env.code = some c.code
  joined : ∃ resp, env.join = .ok resp ∧ jsonStr resp "submit_token" = .ok c.submitToken
  confirmed : ∃ state, pollUntil "confirmed" "confirmation" env.confirming = .ok state ∧
    state.handle = some c.handle
  labels : EnrollLabels.ofHandle c.handle = .ok c.labels

lemma attempt_of_ok {x : Except CliError α} {a : α} (h : x = .ok a) (s : State Key) :
    attempt x s = (.ok a, s) := by
  subst h
  rfl

lemma of_attempt_ok {x : Except CliError α} {a : α} (h : attempt x s = (.ok a, t)) : x = .ok a := by
  simp only [attempt, check_apply, Prod.mk.injEq, except_mapError_ok] at h
  exact h.1

lemma awaitConfirmation_ok (hopened : env.openKeystore = .ok ())
    (hnot : enrolledHandle env ks = .ok none) (h : awaitConfirmation env s = (.ok c, t)) :
    ReachesKeygen env ks c := by
  unfold awaitConfirmation at h
  obtain ⟨code, _, hcode, hrest⟩ := bind_ok h
  obtain ⟨token, _, hjoin, hpolled⟩ := bind_ok hrest
  unfold join at hjoin
  obtain ⟨_, _, _, hanswer⟩ := bind_ok hjoin
  obtain ⟨resp, _, hresp, htoken⟩ := bind_ok hanswer
  obtain ⟨state, _, hstate, hnamed⟩ := bind_ok hpolled
  obtain ⟨handle, _, hhandle, hlabelled⟩ := bind_ok hnamed
  obtain ⟨labels, _, hlabels, hreturn⟩ := bind_ok hlabelled
  cases hreturn
  exact ⟨hopened, hnot, okOr_ok.mp (of_attempt_ok hcode),
    ⟨resp, of_attempt_ok hresp, of_attempt_ok htoken⟩,
    ⟨state, congrArg Prod.fst hstate, okOr_ok.mp (of_attempt_ok hhandle)⟩, of_attempt_ok hlabels⟩

lemma awaitConfirmation_of_reaches (h : ReachesKeygen env ks c) (s : State Key) :
    ∃ t, awaitConfirmation env s = (.ok c, t) := by
  obtain ⟨resp, hresp, htoken⟩ := h.joined
  obtain ⟨state, hstate, hhandle⟩ := h.confirmed
  unfold awaitConfirmation
  rw [bind_of_ok (attempt_of_ok (okOr_ok.mpr h.code) s)]
  have hjoin : join env c.code s = (.ok c.submitToken, { s with sent := s.sent ++ [.join c.code] }) := by
    unfold join
    rw [bind_of_ok (show send (.join c.code) s = (.ok (), _) from rfl), bind_of_ok (attempt_of_ok hresp _)]
    exact attempt_of_ok htoken _
  rw [bind_of_ok hjoin, bind_of_ok
    (show check (pollUntil _ _ env.confirming) _ = (.ok state, _) by rw [hstate]; rfl),
    bind_of_ok (attempt_of_ok (okOr_ok.mpr hhandle) _), bind_of_ok (attempt_of_ok h.labels _)]
  exact ⟨_, rfl⟩

lemma enroll_of_checked {enrolled : Option String} (hopened : env.openKeystore = .ok ())
    (henrolled : enrolledHandle env s.keystore = .ok enrolled) :
    (enroll b.toBackend p env s).2 = (enrollUnless b.toBackend p env enrolled s).2 ∧
      ((enrollUnless b.toBackend p env enrolled s).1 = .error .waiting →
        (enroll b.toBackend p env s).1 = .error .waiting) := by
  have hchecked : checkEnrolled env s = (.ok enrolled, s) := by
    simp only [checkEnrolled, henrolled]
    rfl
  unfold enroll
  rw [bind_of_ok (attempt_of_ok hopened s), bind_of_ok hchecked]
  cases hresult : enrollUnless b.toBackend p env enrolled s with
  | mk result t =>
    cases result with
    | error stop =>
      rw [bind_of_error hresult]
      exact ⟨rfl, id⟩
    | ok r =>
      rw [bind_of_ok hresult]
      cases env.printJson <;> exact ⟨rfl, nofun⟩

lemma enroll_cases (b : KeyMap Key Rand) (p : PopPrimitives Envelope) (env : Inputs Rand) (s : State Key) :
    (∃ c t, ReachesKeygen env s.keystore c ∧ Quiet s t ∧
      (enroll b.toBackend p env s).2 = (completeOrCleanup b.toBackend p env c t).2 ∧
      ((completeOrCleanup b.toBackend p env c t).1 = .error .waiting →
        (enroll b.toBackend p env s).1 = .error .waiting)) ∨
    (∀ c, ¬ ReachesKeygen env s.keystore c) ∧ Quiet s (enroll b.toBackend p env s).2 := by
  cases hopened : env.openKeystore with
  | error e =>
    refine .inr ⟨fun c h => by simpa [hopened] using h.opened, ?_⟩
    have hfailed : attempt env.openKeystore s = (.error (.failed e), s) := by
      rw [hopened]
      rfl
    unfold enroll
    rw [bind_of_error hfailed]
    exact Quiet.refl s
  | ok u =>
    cases henrolled : enrolledHandle env s.keystore with
    | error e =>
      refine .inr ⟨fun c h => by simpa [henrolled] using h.notEnrolled, ?_⟩
      have hfailed : checkEnrolled env s = (.error (.failed e), s) := by
        simp only [checkEnrolled, henrolled]
        rfl
      unfold enroll
      rw [bind_of_ok (attempt_of_ok hopened s), bind_of_error hfailed]
      exact Quiet.refl s
    | ok enrolled =>
      obtain ⟨hstate, hwaiting⟩ := enroll_of_checked (b := b) (p := p) hopened henrolled
      rw [hstate]
      cases enrolled with
      | some handle => exact .inr ⟨fun c h => by simpa [henrolled] using h.notEnrolled, Quiet.refl s⟩
      | none =>
        have hquiet := quiet_awaitConfirmation env s
        simp only [enrollUnless] at hwaiting ⊢
        cases hawait : awaitConfirmation env s with
        | mk result t =>
          rw [hawait] at hquiet
          cases result with
          | ok c =>
            rw [bind_of_ok hawait] at hwaiting ⊢
            exact .inl ⟨c, t, awaitConfirmation_ok hopened henrolled hawait, hquiet, rfl, hwaiting⟩
          | error stop =>
            rw [bind_of_error hawait]
            refine .inr ⟨fun c h => ?_, hquiet⟩
            obtain ⟨t', ht'⟩ := awaitConfirmation_of_reaches h s
            rw [hawait] at ht'
            cases ht'

lemma ReachesKeygen.labels_eq {c c' : ConfirmedHandle} (h : ReachesKeygen env ks c)
    (h' : ReachesKeygen env ks c') : c = c' := by
  obtain ⟨t, ht⟩ := awaitConfirmation_of_reaches h (⟨ks, none, [], false⟩ : State Key)
  obtain ⟨t', ht'⟩ := awaitConfirmation_of_reaches h' (⟨ks, none, [], false⟩ : State Key)
  rw [ht] at ht'
  cases ht'
  rfl

lemma completeOrCleanup_of_fails (h : Fails (completeFor b p env c) s) :
    (completeOrCleanup b.toBackend p env c s).2 =
      cleanupKeys b.toBackend env c.labels (completeFor b p env c s).2 := by
  obtain ⟨e, t, ht⟩ := h
  simp only [completeOrCleanup, ht]

lemma completeOrCleanup_of_not_fails (h : ¬ Fails (completeFor b p env c) s) :
    completeOrCleanup b.toBackend p env c s = completeFor b p env c s := by
  simp only [completeOrCleanup]
  split
  case h_1 e t ht => exact absurd ⟨e, t, ht⟩ h
  case h_2 => rfl

/-! ### Keys whose proof of possession was accepted -/

/-- After the keys were submitted, the proof is answered, a poll reports the enrollment completed, and
the config default is written or left. -/
structure Completes (env : Inputs Rand) (c : ConfirmedHandle) : Prop where
  answered : env.submitPop.answer = .ok ()
  attested : ∃ state, pollUntil "completed" "the attestation" env.completing = .ok state
  configured : shouldWriteDefault env.existingDefault c.labels.signing.full →
    createConfigDir env = .ok () ∧ writeFile env = .ok ()

def SamePop (s t : State Key) : Prop := t.popAccepted = s.popAccepted

lemma samePop_of_quiet (h : Keeps Quiet q) : Keeps SamePop q := fun s => (h s).2

lemma samePop_generate (l : KeyLabel) : Keeps SamePop (Enroll.generate b.toBackend env l) := fun _ => rfl

lemma bind_of_accepted_later
    (hq : Keeps SamePop q) (hfresh : s.popAccepted = false) (hpop : ((q >>= f) s).2.popAccepted = true) :
    ∃ a t, q s = (.ok a, t) ∧ t.popAccepted = false ∧ (q >>= f) s = f a t := by
  have hsame := hq s
  cases hqs : q s with
  | mk result t =>
    rw [hqs] at hsame
    have ht : t.popAccepted = false := hsame.trans hfresh
    cases result with
    | ok a => exact ⟨a, t, rfl, ht, bind_of_ok hqs⟩
    | error e =>
      rw [bind_of_error hqs] at hpop
      exact absurd hpop (by simp [ht])

lemma writeDefaultConfig_isOk (signing kem : KeyMeta) (s : State Key) :
    (∃ path t, writeDefaultConfig env signing kem s = (.ok path, t)) ↔
      (shouldWriteDefault env.existingDefault signing.label → createConfigDir env = .ok () ∧
        writeFile env = .ok ()) := by
  unfold writeDefaultConfig
  by_cases hwrite : shouldWriteDefault env.existingDefault signing.label = true
  · rw [if_pos hwrite]
    simp only [hwrite, forall_const]
    constructor
    · rintro ⟨path, t, h⟩
      obtain ⟨_, _, hdir, hrest⟩ := bind_ok h
      obtain ⟨_, _, hfile, -⟩ := bind_ok hrest
      exact ⟨of_attempt_ok hdir, of_attempt_ok hfile⟩
    · rintro ⟨hdir, hfile⟩
      rw [bind_of_ok (attempt_of_ok hdir s), bind_of_ok (attempt_of_ok hfile s)]
      exact ⟨_, _, rfl⟩
  · rw [if_neg hwrite]
    simp only [hwrite, Bool.false_eq_true, false_implies, iff_true]
    exact ⟨_, _, rfl⟩

lemma afterKeygen_isOk {signing kem signingPq kemPq : KeyMeta}
    (hlabel : signing.label = c.labels.signing.full) (hfresh : s.popAccepted = false)
    (hpop : (afterKeygen b p env c signing kem signingPq kemPq s).2.popAccepted = true) :
    (∃ r t, afterKeygen b p env c signing kem signingPq kemPq s = (.ok r, t)) ↔ Completes env c := by
  constructor
  · rintro ⟨r, t, h⟩
    unfold afterKeygen at h
    obtain ⟨_, _, -, hproved⟩ := bind_ok h
    obtain ⟨_, _, hprove, hpolled⟩ := bind_ok hproved
    unfold provePossession at hprove
    obtain ⟨_, _, -, hprove₂⟩ := bind_ok hprove
    obtain ⟨_, _, -, hprove₃⟩ := bind_ok hprove₂
    obtain ⟨_, _, -, hsubmit⟩ := bind_ok hprove₃
    unfold submitPop at hsubmit
    obtain ⟨_, _, -, hsubmit₂⟩ := bind_ok hsubmit
    obtain ⟨_, _, -, hanswer⟩ := bind_ok hsubmit₂
    obtain ⟨state, _, hstate, hwritten⟩ := bind_ok hpolled
    obtain ⟨path, _, hconfig, -⟩ := bind_ok hwritten
    refine ⟨of_attempt_ok hanswer, ⟨state, congrArg Prod.fst hstate⟩, ?_⟩
    rw [← hlabel]
    exact (writeDefaultConfig_isOk signing kem _).mp ⟨path, _, hconfig⟩
  · intro hcompletes
    unfold afterKeygen at hpop ⊢
    obtain ⟨pop, s₁, -, hfresh₁, heq⟩ :=
      bind_of_accepted_later (samePop_of_quiet (quiet_submitKeys _ _ _ _ _ _)) hfresh hpop
    rw [heq] at hpop ⊢
    -- the proof goes through: what could fail in it before the request would leave it unsent
    have hproved : ∃ t, provePossession b.toBackend p env c.code c.submitToken c.labels pop.1 pop.2 s₁ =
        (.ok (), t) := by
      have hsent : (provePossession b.toBackend p env c.code c.submitToken c.labels pop.1 pop.2
          s₁).2.popAccepted = true := by
        cases hprove : provePossession b.toBackend p env c.code c.submitToken c.labels pop.1 pop.2 s₁ with
        | mk result t =>
          cases result with
          | error e =>
            rw [bind_of_error hprove] at hpop
            exact hpop
          | ok u =>
            rw [bind_of_ok hprove] at hpop
            have hlater := quiet_bind (quiet_check (pollUntil "completed" "the attestation" env.completing))
                (fun completed =>
              quiet_bind (quiet_writeDefaultConfig env signing kem) fun path =>
                quiet_pure (⟨c.handle, env.tier.wireStr, completed.attestationId, path, false⟩ :
                  EnrollResult)) t
            exact hlater.2.symm.trans hpop
      unfold provePossession at hsent ⊢
      obtain ⟨_, s₂, -, hfresh₂, heq₂⟩ :=
        bind_of_accepted_later (samePop_of_quiet (quiet_withKey _)) hfresh₁ hsent
      rw [heq₂] at hsent ⊢
      obtain ⟨_, s₃, -, hfresh₃, heq₃⟩ :=
        bind_of_accepted_later (samePop_of_quiet (quiet_withKey _)) hfresh₂ hsent
      rw [heq₃] at hsent ⊢
      obtain ⟨_, s₄, -, -, heq₄⟩ :=
        bind_of_accepted_later (samePop_of_quiet (quiet_unwrapKeyHybrid _ _ _ _)) hfresh₃ hsent
      rw [heq₄]
      unfold submitPop
      rw [bind_of_ok (show send _ s₄ = (.ok (), _) from rfl), bind_of_ok (update_apply _),
        attempt_of_ok hcompletes.answered]
      exact ⟨_, rfl⟩
    obtain ⟨t, ht⟩ := hproved
    obtain ⟨state, hstate⟩ := hcompletes.attested
    have hpolled : check (pollUntil "completed" "the attestation" env.completing) t = (.ok state, t) := by
      rw [hstate]
      rfl
    obtain ⟨path, u, hconfig⟩ := (writeDefaultConfig_isOk signing kem t).mpr (hlabel ▸ hcompletes.configured)
    rw [bind_of_ok ht, bind_of_ok hpolled, bind_of_ok hconfig]
    exact ⟨_, _, rfl⟩

lemma complete_of_accepted (hnodup : c.labels.toList.Nodup) (hfresh : s.popAccepted = false)
    (hpop : (completeFor b p env c s).2.popAccepted = true) :
    (∀ l ∈ c.labels.toList, (generated b env l).isSome ∧
      (completeFor b p env c s).2.keystore.get l = generated b env l) ∧
      ((∃ r t, completeFor b p env c s = (.ok r, t)) ↔ Completes env c) := by
  rw [completeFor_eq] at hpop ⊢
  obtain ⟨m₁, s₁, hg₁, hf₁, heq⟩ := bind_of_accepted_later (samePop_generate _) hfresh hpop
  rw [heq] at hpop ⊢
  obtain ⟨m₂, s₂, hg₂, hf₂, heq⟩ := bind_of_accepted_later (samePop_generate _) hf₁ hpop
  rw [heq] at hpop ⊢
  obtain ⟨m₃, s₃, hg₃, hf₃, heq⟩ := bind_of_accepted_later (samePop_generate _) hf₂ hpop
  rw [heq] at hpop ⊢
  obtain ⟨m₄, s₄, hg₄, hf₄, heq⟩ := bind_of_accepted_later (samePop_generate _) hf₃ hpop
  rw [heq] at hpop ⊢
  obtain ⟨hlabel, hsome₁, hk₁⟩ := generate_ok hg₁
  obtain ⟨-, hsome₂, hk₂⟩ := generate_ok hg₂
  obtain ⟨-, hsome₃, hk₃⟩ := generate_ok hg₃
  obtain ⟨-, hsome₄, hk₄⟩ := generate_ok hg₄
  refine ⟨fun l hl => ?_, afterKeygen_isOk hlabel hf₄ hpop⟩
  rw [afterKeygen_sameKeys c m₁ m₂ m₃ m₄ s₄, hk₄, hk₃, hk₂, hk₁]
  simp only [EnrollLabels.toList, List.nodup_cons, List.mem_cons, List.not_mem_nil, or_false,
    not_or] at hnodup hl
  obtain ⟨⟨h₁₂, h₁₃, h₁₄⟩, ⟨h₂₃, h₂₄⟩, h₃₄, -⟩ := hnodup
  obtain rfl | rfl | rfl | rfl := hl
  · refine ⟨hsome₁, ?_⟩
    rw [Keystore.get_set_ne _ _ h₁₄, Keystore.get_set_ne _ _ h₁₃, Keystore.get_set_ne _ _ h₁₂,
      Keystore.get_set_self]
  · exact ⟨hsome₂, by rw [Keystore.get_set_ne _ _ h₂₄, Keystore.get_set_ne _ _ h₂₃, Keystore.get_set_self]⟩
  · exact ⟨hsome₃, by rw [Keystore.get_set_ne _ _ h₃₄, Keystore.get_set_self]⟩
  · exact ⟨hsome₄, by rw [Keystore.get_set_self]⟩

end

/-! ### Runs -/

def enrollPrimitives : PopPrimitives Unit where
  base64UrlDecode text := if text = "ek" then some (List.replicate 1568 0) else some [1]
  base64UrlEncode _ := "b64"
  envelopeFromValue _ := some ()
  ephemeralPubkeyX963 _ := some [4, 9]
  ek _ := "ek"
  unwrapWithSharedSecrets _ _ _ _ _ _ := .ok (List.Vector.replicate 32 8)

/-- A run that the server takes to its end for `hlin-ai`, up to the outcome of the config write. -/
def enrollInputs (writeConfig : Except String Unit) : Inputs Unit where
  baseUrl := "https://drive.mysignet.ca/"
  code := some "CODE"
  openKeystore := .ok ()
  tier := .software
  assertedHandle := none
  lookupFails _ := false
  cleanupLookupFails _ := false
  join := .ok (.object [("submit_token", .string "token")])
  confirming := [⟨.ok (.object [("status", .string "confirmed"), ("handle", .string "hlin-ai")]), false⟩]
  keyRand _ := ()
  submitKeys := .ok (.object [("pop_challenge", .string "challenge"), ("pop_nonce_envelope", .object [])])
  signRand _ := ()
  submitPop := .accepted
  completing := [⟨.ok (.object [("status", .string "completed")]), false⟩]
  existingDefault := none
  configParent := some "/home/.config/signet"
  configPath := "/home/.config/signet/config.toml"
  createDirAll := .ok ()
  writeConfig := writeConfig
  printJson := .ok ()

lemma hlin_valid : validateHandle "hlin-ai" = .ok () := by decide

def hlin (purpose : Purpose) : KeyLabel := ⟨"hlin-ai", purpose, hlin_valid⟩

def emptyState : State StoredKey := ⟨.empty, none, [], false⟩

def heldKey : StoredKey := ⟨"ES256", "software", "0011", [4, 0], [0]⟩

def heldState : State StoredKey :=
  { emptyState with keystore := Keystore.empty.set (hlin .signing) (some heldKey) }

/-! ### The keys after a run -/

section

variable {Key Rand Envelope : Type}

/-- A run keeps every key that was there exactly if no key under one of the four labels of the
confirmed handle is there for the cleanup to delete. -/
theorem enroll_keeps_prior_keys (b : KeyMap Key Rand) (p : PopPrimitives Envelope) (env : Inputs Rand)
    (s : State Key) : KeepsKeys s.keystore (enroll b.toBackend p env s).2.keystore ↔
      ∀ c, ReachesKeygen env s.keystore c → ∀ l ∈ c.labels.toList, ∀ k, s.keystore.get l = some k →
        ¬ Removable b env l k := by
  obtain ⟨c, t, hreaches, hquiet, henroll, -⟩ | ⟨hnot, hquiet⟩ := enroll_cases b p env s
  · have hnodup := ofHandle_nodup hreaches.labels
    have hkept := complete_keepsKeys b p env c t
    rw [hquiet.1] at hkept
    rw [henroll]
    constructor
    · intro hkeeps c' hc' l hl k hk hremovable
      obtain rfl := hreaches.labels_eq hc'
      have hfails : Fails (completeFor b p env c) t := complete_fails_of_taken hl (hquiet.1 ▸ hk)
      have hget := hkeeps l k hk
      rw [completeOrCleanup_of_fails hfails, cleanupKeys, cleanup_get hnodup, if_pos hl, hkept l k hk,
        cleaned_of_removable hremovable] at hget
      cases hget
    · intro hsafe l k hk
      by_cases hfails : Fails (completeFor b p env c) t
      · rw [completeOrCleanup_of_fails hfails, cleanupKeys, cleanup_get hnodup, hkept l k hk]
        split
        case isTrue hl => exact cleaned_of_not_removable (hsafe c hreaches l hl k hk)
        case isFalse => rfl
      · rw [completeOrCleanup_of_not_fails hfails]
        exact hkept l k hk
  · constructor
    · intro _ c hc
      exact absurd hc (hnot c)
    · intro _ l k hk
      rw [hquiet.1]
      exact hk

/-- The server confirms a handle whose signing key is there: the keygen is refused, and the cleanup
deletes that key. -/
theorem enroll_deletes_held_key :
    ¬ KeepsKeys heldState.keystore (enroll (softwareKeyMap keystoreCrypto).toBackend enrollPrimitives
      (enrollInputs (.ok ())) heldState).2.keystore := by
  intro hkeeps
  have hgone : (enroll (softwareKeyMap keystoreCrypto).toBackend enrollPrimitives (enrollInputs (.ok ()))
      heldState).2.keystore.get (hlin .signing) = none := by
    decide +kernel
  have hheld := hkeeps (hlin .signing) heldKey (Keystore.get_set_self _ _ _)
  rw [hgone] at hheld
  cases hheld

/-- Once the server has accepted the proof of possession, a run that returns leaves each of its four
keys exactly if it completed, or the cleanup cannot remove the key; otherwise the key is gone. -/
theorem enrolled_keys_after_pop (b : KeyMap Key Rand) (p : PopPrimitives Envelope) (env : Inputs Rand)
    (s : State Key) (hfresh : s.popAccepted = false) (hpop : (enroll b.toBackend p env s).2.popAccepted = true)
    (hreturned : (enroll b.toBackend p env s).1 ≠ .error .waiting) :
    ∃ c, ReachesKeygen env s.keystore c ∧ ∀ l ∈ c.labels.toList, ∃ k, generated b env l = some k ∧
      ((enroll b.toBackend p env s).2.keystore.get l = some k ↔ Completes env c ∨ ¬ Removable b env l k) ∧
      ((enroll b.toBackend p env s).2.keystore.get l = none ↔ ¬ Completes env c ∧ Removable b env l k) := by
  obtain ⟨c, t, hreaches, hquiet, henroll, hwaiting⟩ | ⟨-, hquiet⟩ := enroll_cases b p env s
  · refine ⟨c, hreaches, fun l hl => ?_⟩
    have hnodup := ofHandle_nodup hreaches.labels
    have hfresh' : t.popAccepted = false := hquiet.2.trans hfresh
    rw [henroll] at hpop ⊢
    by_cases hfails : Fails (completeFor b p env c) t
    · rw [completeOrCleanup_of_fails hfails, cleanupKeys, cleanup_popAccepted] at hpop
      obtain ⟨hkeys, hok⟩ := complete_of_accepted hnodup hfresh' hpop
      obtain ⟨hsome, hget⟩ := hkeys l hl
      obtain ⟨k, hk⟩ := Option.isSome_iff_exists.mp hsome
      have hnot : ¬ Completes env c := by
        intro hcompletes
        obtain ⟨r, u, hu⟩ := hok.mpr hcompletes
        obtain ⟨e, v, hv⟩ := hfails
        rw [hu] at hv
        cases hv
      refine ⟨k, hk, ?_⟩
      rw [completeOrCleanup_of_fails hfails, cleanupKeys, cleanup_get hnodup, if_pos hl, hget, hk]
      by_cases hremovable : Removable b env l k
      · simp [cleaned_of_removable hremovable, hremovable, hnot]
      · simp [cleaned_of_not_removable hremovable, hremovable]
    · rw [completeOrCleanup_of_not_fails hfails] at hpop hwaiting ⊢
      obtain ⟨hkeys, hok⟩ := complete_of_accepted hnodup hfresh' hpop
      obtain ⟨hsome, hget⟩ := hkeys l hl
      obtain ⟨k, hk⟩ := Option.isSome_iff_exists.mp hsome
      have hcompletes : Completes env c := by
        apply hok.mp
        cases hresult : completeFor b p env c t with
        | mk result u =>
          cases result with
          | ok r => exact ⟨r, u, rfl⟩
          | error stop =>
            cases stop with
            | failed e => exact absurd ⟨e, u, hresult⟩ hfails
            | waiting => exact absurd (hwaiting (by rw [hresult])) hreturned
      refine ⟨k, hk, ?_⟩
      rw [hget, hk]
      simp [hcompletes]
  · rw [hquiet.2, hfresh] at hpop
    cases hpop

theorem enrolled_keys_after_pop_completed :
    ∃ c, ReachesKeygen (enrollInputs (.ok ())) emptyState.keystore c ∧ ∀ l ∈ c.labels.toList, ∃ k,
      generated (softwareKeyMap keystoreCrypto) (enrollInputs (.ok ())) l = some k ∧
      ((enroll (softwareKeyMap keystoreCrypto).toBackend enrollPrimitives (enrollInputs (.ok ()))
          emptyState).2.keystore.get l = some k ↔
        Completes (enrollInputs (.ok ())) c ∨
          ¬ Removable (softwareKeyMap keystoreCrypto) (enrollInputs (.ok ())) l k) ∧
      ((enroll (softwareKeyMap keystoreCrypto).toBackend enrollPrimitives (enrollInputs (.ok ()))
          emptyState).2.keystore.get l = none ↔
        ¬ Completes (enrollInputs (.ok ())) c ∧
          Removable (softwareKeyMap keystoreCrypto) (enrollInputs (.ok ())) l k) :=
  enrolled_keys_after_pop (softwareKeyMap keystoreCrypto) enrollPrimitives (enrollInputs (.ok ())) emptyState
    rfl (by decide +kernel) (by decide +kernel)

/-- The proof is accepted and the attestation reported, but the config file cannot be written: all
four keys are gone. -/
theorem enroll_deletes_attested_keys :
    let run := enroll (softwareKeyMap keystoreCrypto).toBackend enrollPrimitives
      (enrollInputs (.error "No space left on device")) emptyState
    run.2.popAccepted = true ∧ run.1 ≠ .error .waiting ∧
      ∀ purpose ∈ [Purpose.signing, .kem, .signingPq, .kemPq], run.2.keystore.get (hlin purpose) = none := by
  decide +kernel

end

end SignetDrive.Proofs
