import SignetDrive.Proofs.HostSigner

/-!
# Channels and the keys they created

A channel is bound to a handle, while a keygen is refused per label.
-/

namespace SignetDrive.Proofs
open Run Client SoftwareKeystore

def usedLabel : Op → Option String
  | .sign label _ => some label
  | .ecdh label _ => some label
  | .mlKemDecapsulate label _ => some label
  | .mlDsaSign label _ _ => some label
  | .delete label => some label
  | _ => none

def makesKey (label : String) : Op → Bool
  | .keygen l _ => l == label
  | _ => false

lemma makesKey_eq_true {label : String} {op : Op} :
    makesKey label op = true ↔ ∃ algorithm, op = .keygen label algorithm := by
  cases op <;> simp [makesKey]

section Dispatch

variable {Rand : Type} {c : SoftwareCrypto Rand} {ks : Keystore StoredKey} {h : String} {op : Op}
  {rand : Rand} {l : KeyLabel} {entry : Option StoredKey}

lemma isOk_handleOp :
    (handleOp (backend c) ks h op rand).1.isOk = true ↔
      ∃ result, (dispatch (backend c) ks h op rand).1 = .ok result := by
  simp only [handleOp]
  cases (dispatch (backend c) ks h op rand).1 <;> simp [Response.ofResult, Response.isOk]

lemma readStored_ok {stored : StoredKey} :
    readStored l entry = .ok stored ↔ entry = some stored := by
  cases entry <;> simp [readStored]

lemma isSome_of_openFor {purpose : Purpose} {refusal : String} {secret : Bytes}
    (hopen : openFor c purpose refusal l entry = .ok secret) : entry.isSome := by
  unfold openFor at hopen
  split at hopen
  · cases hopen
  · simp only [except_bind_ok, readStored_ok] at hopen
    obtain ⟨stored, rfl, _⟩ := hopen
    rfl

lemma stored_of_used {label : String} {result : OpOk} (hused : usedLabel op = some label)
    (hok : (dispatch (backend c) ks h op rand).1 = .ok result) :
    ∃ l : KeyLabel, l.full = label ∧ l.handle = h ∧ (ks.get l).isSome := by
  cases op with
  | sign _ msg =>
    cases hused
    simp only [dispatch, except_bind_ok, scopedLabel_ok, backend,
      sign] at hok
    obtain ⟨l, ⟨hfull, hhandle⟩, _, ⟨_, hopen, _⟩, _⟩ := hok
    exact ⟨l, hfull, hhandle, isSome_of_openFor hopen⟩
  | ecdh _ peer =>
    cases hused
    simp only [dispatch, except_bind_ok, scopedLabel_ok, backend,
      ecdh] at hok
    obtain ⟨l, ⟨hfull, hhandle⟩, _, ⟨_, hopen, _⟩, _⟩ := hok
    exact ⟨l, hfull, hhandle, isSome_of_openFor hopen⟩
  | mlKemDecapsulate _ ek =>
    cases hused
    simp only [dispatch, except_bind_ok, scopedLabel_ok, backend] at hok
    obtain ⟨l, ⟨hfull, hhandle⟩, hok⟩ := hok
    refine ⟨l, hfull, hhandle, ?_⟩
    split at hok
    · cases hok
    · simp only [except_bind_ok, mlKemDecapsulate] at hok
      obtain ⟨_, ⟨_, hopen, _⟩, _⟩ := hok
      exact isSome_of_openFor hopen
  | mlDsaSign _ msg ctx =>
    cases hused
    simp only [dispatch, except_bind_ok, scopedLabel_ok, backend] at hok
    obtain ⟨l, ⟨hfull, hhandle⟩, _, _, signature, hsign, _⟩ := hok
    refine ⟨l, hfull, hhandle, ?_⟩
    unfold mlDsaSign at hsign
    split at hsign
    · cases hsign
    · simp only [except_bind_ok, readStored_ok] at hsign
      obtain ⟨_, _, stored, hget, _⟩ := hsign
      exact Option.isSome_iff_exists.mpr ⟨stored, hget⟩
  | delete _ =>
    cases hused
    simp only [dispatch] at hok
    split at hok
    · cases hok
    · rename_i l hlabel
      obtain ⟨hfull, hhandle⟩ := scopedLabel_ok.mp hlabel
      refine ⟨l, hfull, hhandle, ?_⟩
      cases hget : ks.get l with
      | none => simp [Keystore.delete, backend, delete, hget,
          readStored, Except.map] at hok
      | some stored => rfl
  | _ => cases hused

lemma generate_isSome {algorithm : String} (hsome : (generate c l algorithm rand entry).2.isSome) :
    entry.isSome ∨ ∃ m, (generate c l algorithm rand entry).1 = .ok m := by
  cases entry with
  | some stored => exact Or.inl rfl
  | none =>
    right
    revert hsome
    simp only [generate]
    cases newRecord c l algorithm rand with
    | error e => simp
    | ok stored => simp

lemma stored_before_or_made (hsome : ((dispatch (backend c) ks h op rand).2.get l).isSome) :
    (ks.get l).isSome ∨
      makesKey l.full op ∧ l.handle = h ∧
        ∃ result, (dispatch (backend c) ks h op rand).1 = .ok result := by
  cases op with
  | keygen label algorithm =>
    simp only [dispatch] at hsome ⊢
    split at hsome
    · exact Or.inl hsome
    · rename_i l' hlabel
      obtain ⟨hfull, hhandle⟩ := scopedLabel_ok.mp hlabel
      by_cases hl : l = l'
      · subst hl
        simp only [Keystore.generate, Keystore.get_set_self] at hsome ⊢
        refine (generate_isSome hsome).imp_right ?_
        rintro ⟨m, hm⟩
        refine ⟨makesKey_eq_true.mpr ⟨algorithm, by rw [hfull]⟩, hhandle, _, except_map_ok.mpr ⟨m, hm, rfl⟩⟩
      · left
        rwa [Keystore.generate, Keystore.get_set_ne _ _ hl] at hsome
  | delete label =>
    left
    simp only [dispatch] at hsome
    split at hsome
    · exact hsome
    · rename_i l' hlabel
      by_cases hl : l = l'
      · subst hl
        have hnone : (delete l (ks.get l)).2 = none := by
          unfold delete
          cases readStored l (ks.get l) <;> rfl
        simp [Keystore.delete, Keystore.get_set_self, backend, hnone] at hsome
      · rwa [Keystore.delete, Keystore.get_set_ne _ _ hl] at hsome
  | _ => exact Or.inl hsome

lemma handle_of_made {result : OpOk} (hmakes : makesKey l.full op)
    (hok : (dispatch (backend c) ks h op rand).1 = .ok result) : l.handle = h := by
  obtain ⟨algorithm, rfl⟩ := makesKey_eq_true.mp hmakes
  simp only [dispatch] at hok
  split at hok
  · cases hok
  · rename_i l' hlabel
    obtain ⟨hfull, hhandle⟩ := scopedLabel_ok.mp hlabel
    rw [← KeyLabel.full_injective hfull]
    exact hhandle

lemma dispatch_keygen_ok {algorithm : String} :
    (∃ result, (dispatch (backend c) ks l.handle (.keygen l.full algorithm) rand).1 =
      .ok result) ↔
      ks.get l = none ∧ ∃ stored, newRecord c l algorithm rand = .ok stored := by
  simp only [dispatch, scopedLabel_ok.mpr ⟨rfl, rfl⟩, Keystore.generate, except_map_ok,
    backend]
  cases ks.get l with
  | some stored => simp [generate]
  | none =>
    cases hrecord : newRecord c l algorithm rand with
    | error | ok => simp [generate, hrecord]

lemma dispatch_delete_ok (hsome : (ks.get l).isSome) :
    (dispatch (backend c) ks l.handle (.delete l.full) rand).1 = .ok .delete := by
  obtain ⟨stored, hget⟩ := Option.isSome_iff_exists.mp hsome
  simp only [dispatch, scopedLabel_ok.mpr ⟨rfl, rfl⟩, Keystore.delete, hget]
  rfl

end Dispatch

section Channels

variable {Rand Channel : Type} [DecidableEq Channel] {c : SoftwareCrypto Rand}
  {s : HostSigner StoredKey Channel} {r : ChannelRequest Channel Rand}

/-- The handle that the channel is pinned to. -/
def pinned (s : HostSigner StoredKey Channel) (channel : Channel) : Option String :=
  (s.channels channel).pinnedHandle

/-- Serving a request does nothing, an operation on the handle of the channel, or a keygen on a channel
without one, which fails or binds it. -/
inductive ChannelServes (c : SoftwareCrypto Rand) (s : HostSigner StoredKey Channel)
    (r : ChannelRequest Channel Rand) : HostSigner StoredKey Channel × Response → Prop where
  | aside (response : Response) (hquiet : response.isOk → r.op = .identity) : ChannelServes c s r (s, response)
  | bound (h : String) (hpinned : pinned s r.channel = some h) :
      ChannelServes c s r
        (⟨(handleOp (backend c) s.keystore h r.op r.rand).2, s.channels⟩,
          (handleOp (backend c) s.keystore h r.op r.rand).1)
  | fails (l : KeyLabel) (algorithm : String) (hop : r.op = .keygen l.full algorithm)
      (hfails : ¬ (handleOp (backend c) s.keystore l.handle r.op r.rand).1.isOk) :
      ChannelServes c s r
        (⟨(handleOp (backend c) s.keystore l.handle r.op r.rand).2, s.channels⟩,
          (handleOp (backend c) s.keystore l.handle r.op r.rand).1)
  | binds (l : KeyLabel) (algorithm : String) (hpinned : pinned s r.channel = none)
      (hop : r.op = .keygen l.full algorithm)
      (hok : (handleOp (backend c) s.keystore l.handle r.op r.rand).1.isOk) :
      ChannelServes c s r
        (⟨(handleOp (backend c) s.keystore l.handle r.op r.rand).2,
          Function.update s.channels r.channel ⟨some l.handle⟩⟩,
          (handleOp (backend c) s.keystore l.handle r.op r.rand).1)

lemma serve_channelServes (c : SoftwareCrypto Rand) (s : HostSigner StoredKey Channel)
    (r : ChannelRequest Channel Rand) : ChannelServes c s r (s.serve (backend c) r) := by
  have haside : ∀ response : Response, (response.isOk → r.op = .identity) → ChannelServes c s r
      (⟨s.keystore, Function.update s.channels r.channel (s.channels r.channel)⟩, response) := by
    intro response hquiet
    rw [Function.update_eq_self]
    exact .aside response hquiet
  simp only [HostSigner.serve, ChannelState.handle]
  split
  · exact haside _ fun _ => ‹_›
  · rename_i hop
    cases hpinned : (s.channels r.channel).pinnedHandle with
    | some h =>
      simp only [Function.update_eq_self]
      exact .bound h hpinned
    | none =>
      cases hr : r.op with
      | keygen label algorithm =>
        cases hparse : KeyLabel.parse label none with
        | error e =>
          simp only [hparse]
          exact haside _ nofun
        | ok l =>
          obtain rfl := KeyLabel.parse_ok.mp hparse
          simp only [hparse, ← hr]
          by_cases hok : (handleOp (backend c) s.keystore l.handle r.op r.rand).1.isOk
          · simp only [if_pos hok]
            exact .binds l algorithm hpinned hr hok
          · simp only [if_neg hok, Function.update_eq_self]
            exact .fails l algorithm hr hok
      | identity => exact absurd hr hop
      | _ => exact haside _ nofun

/-- A channel without a pin generates a key under a handle that another one is pinned to. -/
def SharesHandle (c : SoftwareCrypto Rand) (s : HostSigner StoredKey Channel)
    (r : ChannelRequest Channel Rand) : Prop :=
  ∃ (l : KeyLabel) (algorithm : String), r.op = .keygen l.full algorithm ∧
    pinned s r.channel = none ∧ (∃ other, pinned s other = some l.handle) ∧
    s.keystore.get l = none ∧ ∃ stored, newRecord c l algorithm r.rand = .ok stored

abbrev HostStep (Rand Channel : Type) :=
  Step (HostSigner StoredKey Channel) (ChannelRequest Channel Rand) Response

/-- The channel on which the key now under the label was generated: that of the last keygen that
succeeded. -/
def generator (past : List (HostStep Rand Channel)) (label : String) : Option Channel :=
  (past.filter fun e => makesKey label e.input.op && e.output.isOk).getLast?.map (·.input.channel)

omit [DecidableEq Channel] in
lemma generator_concat {past : List (HostStep Rand Channel)} {e : HostStep Rand Channel} {label : String} :
    generator (past ++ [e]) label =
      if makesKey label e.input.op && e.output.isOk then some e.input.channel
      else generator past label := by
  unfold generator
  rw [List.filter_append, List.filter_singleton]
  cases makesKey label e.input.op && e.output.isOk with
  | true => simp
  | false => simp

/-- A key is used only on the channel that generated it. -/
def UsesOwnKey (past : List (HostStep Rand Channel)) (e : HostStep Rand Channel) : Prop :=
  ∀ label, usedLabel e.input.op = some label → e.output.isOk = true →
    generator past label = some e.input.channel

/-- No two channels have one handle, and the channel that generated a key has its handle. -/
structure OneChannelPerHandle (past : List (HostStep Rand Channel))
    (s : HostSigner StoredKey Channel) : Prop where
  unique : ∀ channel channel' h, pinned s channel = some h → pinned s channel' = some h →
    channel = channel'
  generated : ∀ l : KeyLabel, (s.keystore.get l).isSome →
    ∃ channel, generator past l.full = some channel ∧ pinned s channel = some l.handle

variable {past : List (HostStep Rand Channel)} {after : HostSigner StoredKey Channel}
  {response : Response}

lemma OneChannelPerHandle.usesOwnKey (hinv : OneChannelPerHandle past s)
    (hserves : ChannelServes c s r (after, response)) : UsesOwnKey past ⟨s, r, response, after⟩ := by
  intro label hused hok
  cases hserves with
  | aside _ hquiet =>
    rw [hquiet hok] at hused
    cases hused
  | bound h hpinned =>
    obtain ⟨result, hresult⟩ := isOk_handleOp.mp hok
    obtain ⟨l, rfl, rfl, hsome⟩ := stored_of_used hused hresult
    obtain ⟨channel, hgenerator, hchannel⟩ := hinv.generated l hsome
    rw [hgenerator, hinv.unique _ _ _ hpinned hchannel]
  | fails l algorithm hop | binds l algorithm _ hop =>
    rw [hop] at hused
    cases hused

omit [DecidableEq Channel] in
/-- After an operation on the handle `h`, a key has the generator it had, or is of `h` and was
generated on the channel of the request. -/
lemma OneChannelPerHandle.generated_of_handleOp {h : String} (hinv : OneChannelPerHandle past s)
    {l : KeyLabel} (hsome : ((handleOp (backend c) s.keystore h r.op r.rand).2.get l).isSome)
    (hresponse : (handleOp (backend c) s.keystore h r.op r.rand).1 = response) :
    ∃ channel, generator (past ++ [⟨s, r, response, after⟩]) l.full = some channel ∧
      (pinned s channel = some l.handle ∨ channel = r.channel ∧ l.handle = h ∧ response.isOk) := by
  rw [generator_concat]
  by_cases hmade : makesKey l.full r.op && response.isOk
  · rw [if_pos hmade]
    rw [Bool.and_eq_true] at hmade
    have hok := hmade.2
    rw [← hresponse] at hok
    obtain ⟨result, hresult⟩ := isOk_handleOp.mp hok
    exact ⟨r.channel, rfl, Or.inr ⟨rfl, handle_of_made hmade.1 hresult, hmade.2⟩⟩
  · rw [if_neg hmade]
    rcases stored_before_or_made hsome with hbefore | ⟨hmakes, _, hok⟩
    · obtain ⟨channel, hgenerator, hpinned⟩ := hinv.generated l hbefore
      exact ⟨channel, hgenerator, Or.inl hpinned⟩
    · rw [← hresponse, hmakes, isOk_handleOp.mpr hok] at hmade
      exact absurd rfl hmade

omit [DecidableEq Channel] in
lemma sharesHandle_of_binds {l : KeyLabel} {algorithm : String} {other : Channel}
    (hpinned : pinned s r.channel = none) (hop : r.op = .keygen l.full algorithm)
    (hother : pinned s other = some l.handle)
    (hok : (handleOp (backend c) s.keystore l.handle r.op r.rand).1.isOk) : SharesHandle c s r := by
  rw [hop] at hok
  exact ⟨l, algorithm, hop, hpinned, ⟨other, hother⟩, dispatch_keygen_ok.mp (isOk_handleOp.mp hok)⟩

lemma pinned_update {ks : Keystore StoredKey} {channel channel' : Channel} {h : String} :
    pinned ⟨ks, Function.update s.channels channel ⟨some h⟩⟩ channel' =
      if channel' = channel then some h else pinned s channel' := by
  simp only [pinned, Function.update_apply]
  split <;> rfl

lemma unique_update {ks : Keystore StoredKey} {channel : Channel} {h : String}
    (hinv : OneChannelPerHandle past s) (hfree : ∀ other, pinned s other ≠ some h) :
    ∀ channel₁ channel₂ h', pinned ⟨ks, Function.update s.channels channel ⟨some h⟩⟩ channel₁ = some h' →
      pinned ⟨ks, Function.update s.channels channel ⟨some h⟩⟩ channel₂ = some h' →
      channel₁ = channel₂ := by
  intro channel₁ channel₂ h' h₁ h₂
  rw [pinned_update] at h₁ h₂
  split at h₁
  · split at h₂
    · simp_all
    · rw [← h₁] at h₂
      exact absurd h₂ (hfree channel₂)
  · split at h₂
    · rw [← h₂] at h₁
      exact absurd h₁ (hfree channel₁)
    · exact hinv.unique _ _ _ h₁ h₂

lemma OneChannelPerHandle.step (hinv : OneChannelPerHandle past s)
    (hserves : ChannelServes c s r (after, response)) (hshares : ¬ SharesHandle c s r) :
    OneChannelPerHandle (past ++ [⟨s, r, response, after⟩]) after := by
  cases hserves with
  | aside _ hquiet =>
    refine ⟨hinv.unique, ?_⟩
    intro l hsome
    have hnot : ¬ (makesKey l.full r.op && response.isOk) := by
      intro hmade
      rw [Bool.and_eq_true] at hmade
      rw [hquiet hmade.2] at hmade
      exact absurd hmade.1 Bool.false_ne_true
    rw [generator_concat, if_neg hnot]
    exact hinv.generated l hsome
  | bound h hpinned =>
    refine ⟨hinv.unique, ?_⟩
    intro l hsome
    obtain ⟨channel, hgenerator, hchannel⟩ := hinv.generated_of_handleOp hsome rfl
    refine ⟨channel, hgenerator, ?_⟩
    rcases hchannel with hchannel | ⟨rfl, rfl, _⟩
    · exact hchannel
    · exact hpinned
  | fails l algorithm hop hfails =>
    refine ⟨hinv.unique, ?_⟩
    intro l' hsome
    obtain ⟨channel, hgenerator, hchannel⟩ := hinv.generated_of_handleOp hsome rfl
    refine ⟨channel, hgenerator, hchannel.resolve_right ?_⟩
    rintro ⟨_, _, hok⟩
    exact hfails hok
  | binds l algorithm hpinned hop hok =>
    -- no channel had the handle, or else it would now be shared
    have hfree : ∀ other, pinned s other ≠ some l.handle := by
      intro other hother
      exact hshares (sharesHandle_of_binds hpinned hop hother hok)
    refine ⟨unique_update hinv hfree, ?_⟩
    intro l' hsome
    obtain ⟨channel, hgenerator, hchannel⟩ := hinv.generated_of_handleOp hsome rfl
    refine ⟨channel, hgenerator, ?_⟩
    rw [pinned_update]
    rcases hchannel with hchannel | ⟨rfl, hhandle, _⟩
    · rw [if_neg]
      · exact hchannel
      · rintro rfl
        rw [hpinned] at hchannel
        cases hchannel
    · rw [if_pos rfl, hhandle]

variable {requests : List (ChannelRequest Channel Rand)}

lemma oneChannelPerHandle_run (c : SoftwareCrypto Rand) (requests : List (ChannelRequest Channel Rand)) :
    Always (fun past e => (∀ x ∈ past, ¬ SharesHandle c x.before x.input) →
        OneChannelPerHandle past e.before)
      (steps (HostSigner.serve (backend c)) .fresh requests) := by
  apply Run.invariant (fun past s => (∀ x ∈ past, ¬ SharesHandle c x.before x.input) →
    OneChannelPerHandle past s)
  · intro _
    exact ⟨nofun, nofun⟩
  · intro past e rest hsteps hinv hpast
    have hserves := serve_channelServes c e.before e.input
    rw [step_of_eq_append hsteps] at hserves
    refine (hinv ?_).step hserves (hpast e (by simp))
    intro x hx
    exact hpast x (by simp [hx])

lemma serve_keygen {l : KeyLabel} {algorithm : String} {stored : StoredKey}
    (hop : r.op = .keygen l.full algorithm) (hpinned : pinned s r.channel = none)
    (hfree : s.keystore.get l = none) (hrecord : newRecord c l algorithm r.rand = .ok stored) :
    s.serve (backend c) r =
      (⟨s.keystore.set l (some stored), Function.update s.channels r.channel ⟨some l.handle⟩⟩,
        .ok (.keygen stored.publicKey stored.fingerprint stored.algorithm)) := by
  unfold pinned at hpinned
  simp [HostSigner.serve, ChannelState.handle, hop, hpinned, KeyLabel.parse_ok.mpr rfl, handleOp,
    dispatch, scopedLabel_ok.mpr ⟨rfl, rfl⟩, Keystore.generate, backend,
    generate, hfree, hrecord, Except.map, Response.ofResult, Response.isOk,
    StoredKey.toMeta]

lemma serve_delete {channel : Channel} {l : KeyLabel} {rand : Rand}
    (hpinned : pinned s channel = some l.handle) (hsome : (s.keystore.get l).isSome) :
    (s.serve (backend c) ⟨channel, .delete l.full, rand⟩).2.isOk := by
  unfold pinned at hpinned
  simp [HostSigner.serve, ChannelState.handle, hpinned, isOk_handleOp, dispatch_delete_ok hsome]

lemma SharesHandle.foreign_delete (past : List (HostStep Rand Channel)) (hshares : SharesHandle c s r) :
    ∃ delete : ChannelRequest Channel Rand, ¬ UsesOwnKey
      (past ++ [⟨s, r, (s.serve (backend c) r).2,
        (s.serve (backend c) r).1⟩])
      ⟨(s.serve (backend c) r).1, delete,
        ((s.serve (backend c) r).1.serve (backend c) delete).2,
        ((s.serve (backend c) r).1.serve (backend c) delete).1⟩ := by
  obtain ⟨l, algorithm, hop, hpinned, ⟨other, hother⟩, hfree, stored, hrecord⟩ := hshares
  have hne : other ≠ r.channel := by
    rintro rfl
    rw [hpinned] at hother
    cases hother
  rw [serve_keygen hop hpinned hfree hrecord]
  refine ⟨⟨other, .delete l.full, r.rand⟩, ?_⟩
  intro hown
  have hgenerator := hown l.full rfl (serve_delete ?_ ?_)
  · rw [generator_concat, if_pos, Option.some.injEq] at hgenerator
    · exact hne hgenerator.symm
    · simp [hop, makesKey, Response.isOk]
  · rw [pinned_update, if_neg hne]
    exact hother
  · rw [Keystore.get_set_self]
    rfl

/-- At every point of a run over a fresh store, whatever request comes next uses only keys
generated on its own channel, exactly if no keygen of the run bound a channel to a handle that
another channel had. -/
theorem channels_use_own_keys (c : SoftwareCrypto Rand) (requests : List (ChannelRequest Channel Rand)) :
    (∀ served, served <+: requests → ∀ next,
      Always UsesOwnKey
        (steps (HostSigner.serve (backend c)) .fresh (served ++ [next]))) ↔
    Always (fun _ e => ¬ SharesHandle c e.before e.input)
      (steps (HostSigner.serve (backend c)) .fresh requests) := by
  constructor
  · intro hown past e rest hsteps hshares
    obtain ⟨served, hserved, hmore⟩ := steps_through hsteps
    obtain ⟨delete, hforeign⟩ := hshares.foreign_delete past
    rw [step_of_eq_append hsteps] at hforeign
    apply hforeign
    apply hown served hserved delete _ _ []
    rw [hmore [delete], List.append_assoc]
    rfl
  · intro hshares served hserved next past e rest hsteps
    have hserves := serve_channelServes c e.before e.input
    rw [step_of_eq_append hsteps] at hserves
    refine (oneChannelPerHandle_run c (served ++ [next]) past e rest hsteps ?_).usesOwnKey hserves
    intro x hx
    have hmem := ((past_isPrefix_steps hsteps).trans (steps_isPrefix hserved)).subset hx
    exact Always.of_mem (C := fun e : HostStep Rand Channel => ¬ SharesHandle c e.before e.input)
      hshares hmem

end Channels

/-- Channel 1 makes the signing key of a handle; channel 2, still unbound, makes its KEM key, is
bound to the same handle, and signs with the key of channel 1. -/
theorem channel_signs_with_foreign_key :
    ¬ Always UsesOwnKey (steps (HostSigner.serve (backend keystoreCrypto)) .fresh
      [⟨1, .keygen "hlin-ai-signing" "ES256", ()⟩, ⟨2, .keygen "hlin-ai-kem" "ECDH-ES+A256KW", ()⟩,
        ⟨2, .sign "hlin-ai-signing" [7], ()⟩]) := by
  intro hown
  have hgenerator := hown [_, _] _ [] rfl "hlin-ai-signing" rfl (by decide +kernel)
  revert hgenerator
  decide +kernel

end SignetDrive.Proofs
