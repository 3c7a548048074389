import SignetDrive.Proofs.Anchored
import SignetDrive.Proofs.RecipientCosigned

namespace SignetDrive.Proofs
open Client Program

section

variable (p : Primitives) (fromStr : String → Except String Json) (env : AnchorEnv) (file : Option Json)
  (serverUrl : String)

/-- The proof verifies for the account under the key, and this is the index it yields. -/
def YieldsIndex (vrfPublicKey : List.Vector UInt8 32) (accountId : String) (proof : Option String)
    (index : List.Vector UInt8 64) : Prop :=
  ∃ account proofHex, ∃ bytes : List.Vector UInt8 80, p.uuidParse accountId = some account ∧
    proof = some proofHex ∧ p.hexDecode proofHex = some bytes.toList ∧
    p.vrfVerify vrfPublicKey account bytes = some index

/-- The receipt is for the account: for its id in epoch 1, then for its index under the pinned key.
-/
def NamesAccount (epoch : U16) (accountId : String) (proof : Option String) (receipt : Json) : Prop :=
  epoch = 1 ∧ (∃ id, receipt.getStr "account_id" = some id ∧ eqIgnoreAsciiCase id accountId) ∨
    1 < epoch ∧ ∃ key index, PinnedKey p fromStr env file serverUrl key ∧ key.epoch = epoch ∧
      YieldsIndex p key.vrfPublicKey accountId proof index ∧
      (receipt.getU64 "epoch").map Fin.val = some epoch.val ∧
      (receipt.getStr "account_index").bind p.hexDecode = some index.toList ∧ receipt.get "account_id" = none

end

section

variable {p : Primitives} {fromStr : String → Except String Json} {env : AnchorEnv} {file : Option Json}
  {serverUrl : String}

variable {index : List.Vector UInt8 64} {binding : AccountBinding} {receipt : Json}

lemma accountIndex_ok {key : List.Vector UInt8 32} {accountId who : String} {proof : Option String}
    (h : p.accountIndex key accountId proof who = .ok index) : YieldsIndex p key accountId proof index := by
  simp only [Primitives.accountIndex, except_bind_ok, okOr_ok, Option.bind_eq_some_iff] at h
  obtain ⟨account, haccount, proofHex, hproof, bytes, ⟨decoded, hdecoded, hlength⟩, hindex⟩ := h
  split at hlength
  next hlen =>
    obtain rfl := Option.some.inj hlength
    exact ⟨account, proofHex, ⟨decoded, hlen⟩, haccount, hproof, hdecoded, hindex⟩
  next => cases hlength

lemma verifyOneReceipt_bound {fp purpose : String} {pub : Bytes} {vk : Option Bytes}
    (h : p.verifyOneReceipt receipt fp binding purpose pub vk = .ok ()) :
    p.checkBinding receipt binding purpose = .ok () := by
  simp only [Primitives.verifyOneReceipt, except_bind_ok, okOr_ok, ensure_ok] at h
  obtain ⟨_, _, _, _, _, hbinding, _⟩ := h
  exact hbinding

lemma checkReceiptIndex_ok {epoch : U16} {purpose : String} {u : Unit}
    (h : p.checkReceiptIndex receipt epoch index purpose = .ok u) :
    (receipt.getU64 "epoch").map Fin.val = some epoch.val ∧
      (receipt.getStr "account_index").bind p.hexDecode = some index.toList ∧
      receipt.get "account_id" = none := by
  simp only [Primitives.checkReceiptIndex, except_bind_ok, okOr_ok, ensure_ok] at h
  obtain ⟨_, ⟨-, -, hnone⟩, _, hepoch, served, hserved, rfl⟩ := h
  exact ⟨hepoch, hserved, Option.isNone_iff_eq_none.mp hnone⟩

lemma namesAccount_of_accepted {server : HttpServer} {trust : ServerTrust} {accountId who : String}
    {proof : Option String} {index : Option (U16 × List.Vector UInt8 64)} {t t' : Session String (Accepted p)}
    (hfetch : ServerTrust.fetch p fromStr server env file serverUrl t = .ok (trust, t'))
    (hindex : trust.indexFor p accountId proof who = .ok index) {a : Accepted p}
    (hbinding : a.binding = bindingOf index (.accountId accountId)) :
    NamesAccount p fromStr env file serverUrl trust.epoch accountId proof a.receipt := by
  have hbound := verifyOneReceipt_bound a.ok
  rw [hbinding] at hbound
  rcases fetch_mode hfetch with ⟨hone, hmode⟩ | ⟨hlater, key, hpinned, hepoch, hmode⟩
  · rw [ServerTrust.indexFor, hmode] at hindex
    obtain rfl : none = index := Except.ok.inj hindex
    simp only [bindingOf, Primitives.checkBinding, except_bind_ok, okOr_ok, ensure_ok] at hbound
    exact Or.inl ⟨hone, hbound⟩
  · rw [ServerTrust.indexFor, hmode] at hindex
    simp only [Primitives.indexUnder, except_bind_ok, except_pure_ok] at hindex
    obtain ⟨index', hyields, rfl⟩ := hindex
    exact Or.inr ⟨hlater, key, index', hpinned, hepoch, accountIndex_ok hyields, checkReceiptIndex_ok hbound⟩

end

/-- Whatever the server answers and whatever else the bundle holds: a human's keys rest on two log
receipts that name the bundle's account, and a PRSN's on its attestation. -/
theorem verifiedWrapKeys_bound (p : Primitives) (fromStr : String → Except String Json) (server : HttpServer)
    (env : AnchorEnv) (file : Option Json) (serverUrl : String) (trust : ServerTrust)
    (t t' : Session String (Accepted p))
    (hfetch : ServerTrust.fetch p fromStr server env file serverUrl t = .ok (trust, t'))
    (bundle : Json) (expectation : HandleExpectation) (who : String) (keys : RecipientWrapKeys)
    (s s' : Session String (Accepted p))
    (h : verifiedWrapKeys p server trust serverUrl bundle expectation who s = .ok (keys, s')) :
    ∃ handle rkPq, bundle.getStr "handle" = some handle ∧ keys.rkPq = some rkPq ∧
      (∀ typed, expectation = .userNamed typed → handle = typed) ∧
      (¬ isPrsn handle → ∃ fp accountId proof a a', p.fingerprint keys.rkEc = some fp ∧
        bundleAccount bundle = some (accountId, proof) ∧ s'.noted = s.noted ++ [a, a'] ∧
        Logged "kem" fp [a] ∧ Logged "kem_pq" (p.fingerprintRaw rkPq) [a'] ∧
        NamesAccount p fromStr env file serverUrl trust.epoch accountId proof a.receipt ∧
        NamesAccount p fromStr env file serverUrl trust.epoch accountId proof a'.receipt) ∧
      (isPrsn handle → ∃ accountId,
        verifyAgainstAttestation p server trust serverUrl bundle keys accountId handle who s =
        .ok ((), s')) := by
  obtain ⟨handle, hhandle, hexpectation, hkeys, _, accountId, proof, haccount, _, hpath⟩ :=
    verifiedWrapKeys_ok.mp h
  obtain ⟨fp, rkPq, hfp, hstated, hrkPq, hstatedPq⟩ := verifyRecipientWrapKeys_ok hkeys
  refine ⟨handle, rkPq, hhandle, hrkPq, ?_, ?_, ?_⟩
  · rintro typed rfl
    exact ensure_ok.mp hexpectation
  · intro hhuman
    rw [if_neg hhuman] at hpath
    obtain ⟨index, fpEc, fpPq, vk, kem, kemPq, a, a', hindex, hec, hpq, _, _, _, ha, ha', rfl⟩ :=
      verifyAgainstReceipts_noted hpath
    rw [hstated, Option.some.injEq] at hec
    rw [hstatedPq, Option.some.injEq] at hpq
    subst hec hpq
    exact ⟨fp, accountId, proof, a, a', hfp, haccount, rfl, ha.logged, ha'.logged,
      namesAccount_of_accepted hfetch hindex ha.binding, namesAccount_of_accepted hfetch hindex ha'.binding⟩
  · intro hprsn
    rw [if_pos hprsn] at hpath
    exact ⟨accountId, hpath⟩

def humanServer : HttpServer
  | [_] => .ok sampleTrust.info
  | [_, _] => .ok (classicalReceipt "kem" ecKeyFp)
  | _ => .ok (classicalReceipt "kem_pq" pqKeyFp)

lemma humanFetch_ok : ServerTrust.fetch samplePrimitives cutFromStr humanServer offlineEnv none "server"
    ⟨[], []⟩ = .ok (sampleTrust, ⟨["server" ++ "/v1/server-info"], []⟩) := by
  have hrepo : anchorRepoFor samplePrimitives "server" offlineEnv.envRepo = .ok none := by
    decide
  exact fetch_of_anchored rfl sampleTrust_activePq (anchorServed_ok.mpr ⟨_, rfl, none, hrepo,
    anchorLoaded_unread rfl (fun _ => rfl) rfl (Fin.zero_le 1)⟩) rfl

lemma humanRun_ok : ∃ s', verifiedWrapKeys samplePrimitives humanServer sampleTrust "server" humanBundle
    (.userNamed "pat") "pat" ⟨["server" ++ "/v1/server-info"], []⟩ = .ok (⟨ecKey, some pqKey⟩, s') := by
  obtain ⟨s', hpath⟩ : ∃ s', verifyAgainstReceipts samplePrimitives humanServer sampleTrust "server" humanBundle
      "pat" none "pat" ⟨["server" ++ "/v1/server-info"], []⟩ = .ok ((), s') := by
    refine (verifyAgainstReceipts_of_known none rfl rfl rfl sampleTrust_activePq rfl rfl
      ⟨"es-1", rfl, sampleTrust_es⟩ ⟨"es-1", rfl, sampleTrust_es⟩).mpr ?_
    exact ⟨classicalReceipt_ok samplePrimitives rfl rfl (fun _ _ _ => rfl) _ _ _,
      classicalReceipt_ok samplePrimitives rfl rfl (fun _ _ _ => rfl) _ _ _⟩
  refine ⟨s', verifiedWrapKeys_ok.mpr ?_⟩
  refine ⟨"pat", rfl, rfl, sampleKeys_of_fields humanBundle "pat" rfl rfl rfl rfl, rfl, "pat",
    none, rfl, rfl, ?_⟩
  rw [if_neg not_isPrsn_pat]
  exact hpath

theorem verifiedWrapKeys_bound_pat :
    ∃ keys s' a a', verifiedWrapKeys samplePrimitives humanServer sampleTrust "server" humanBundle
        (.userNamed "pat") "pat" ⟨["server" ++ "/v1/server-info"], []⟩ = .ok (keys, s') ∧
      s'.noted = [a, a'] ∧
      NamesAccount samplePrimitives cutFromStr offlineEnv none "server" 1 "pat" none a.receipt ∧
      NamesAccount samplePrimitives cutFromStr offlineEnv none "server" 1 "pat" none a'.receipt := by
  obtain ⟨s', hrun⟩ := humanRun_ok
  obtain ⟨handle, rkPq, hhandle, _, _, hhuman, _⟩ :=
    verifiedWrapKeys_bound _ _ _ _ _ _ _ _ _ humanFetch_ok _ _ _ _ _ _ hrun
  obtain rfl : "pat" = handle := Option.some.inj hhandle
  obtain ⟨fp, accountId, proof, a, a', _, haccount, hnoted, _, _, hnames, hnames'⟩ := hhuman not_isPrsn_pat
  obtain ⟨rfl, rfl⟩ : "pat" = accountId ∧ none = proof := Prod.mk.inj (Option.some.inj haccount)
  exact ⟨_, s', a, a', hrun, hnoted, hnames, hnames'⟩

end SignetDrive.Proofs
