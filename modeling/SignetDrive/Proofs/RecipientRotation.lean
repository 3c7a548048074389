import SignetDrive.Proofs.RecipientCosigned

/-!
# Receipts across key rotations

An ES256 signature is checked under the key that it names, which server-info lists for ever; an
ML-DSA-87 signature is checked under the active key.
-/

namespace SignetDrive.Proofs
open Client Program

structure SigningKey (p : Primitives) where
  keyId : String
  publicKey : String
  bytes : Bytes
  decodes : p.base64UrlDecode publicKey = some bytes

structure SigningKeys (p : Primitives) where
  es256 : SigningKey p
  mldsa87 : SigningKey p
  retired : List (SigningKey p)

inductive Rotation (p : Primitives) where
  | es256 (next : SigningKey p)
  | mldsa87 (next : SigningKey p)

namespace SigningKeys

variable {p : Primitives}

variable (keys : SigningKeys p) (rotations : List (Rotation p))

/-- The keys of the server, retired ones included. -/
def all : List (SigningKey p) := keys.es256 :: keys.mldsa87 :: keys.retired

def rotate : Rotation p → SigningKeys p
  | .es256 next => { keys with es256 := next, retired := keys.es256 :: keys.retired }
  | .mldsa87 next => { keys with mldsa87 := next, retired := keys.mldsa87 :: keys.retired }

/-- The keys after the rotations. -/
def after : SigningKeys p :=
  rotations.foldl rotate keys

lemma all_subset_rotate (rotation : Rotation p) : keys.all ⊆ (keys.rotate rotation).all := by
  intro key hkey
  cases rotation <;> simp only [all, rotate, List.mem_cons] at hkey ⊢ <;> tauto

lemma all_subset_after :
    keys.all ⊆ (keys.after rotations).all := by
  induction rotations generalizing keys with
  | nil => exact List.Subset.refl _
  | cons rotation rotations ih =>
    exact List.Subset.trans (all_subset_rotate keys rotation) (ih (keys.rotate rotation))

lemma mldsa87_after {rotations : List (Rotation p)} (h : ∀ next, .mldsa87 next ∉ rotations) :
    (keys.after rotations).mldsa87 = keys.mldsa87 := by
  induction rotations generalizing keys with
  | nil => rfl
  | cons rotation rotations ih =>
    have hrest : ∀ next, .mldsa87 next ∉ rotations := fun next hnext => h next (List.mem_cons_of_mem _ hnext)
    cases rotation with
    | es256 next => exact ih _ hrest
    | mldsa87 next => exact absurd List.mem_cons_self (h next)

lemma after_take_drop (n : ℕ) :
    (keys.after (rotations.take n)).after (rotations.drop n) = keys.after rotations := by
  rw [after, after, ← List.foldl_append, List.take_append_drop, after]

end SigningKeys

section

variable {p : Primitives}

def Lists (entry : Json) (key : SigningKey p) : Prop :=
  entry.getStr "key_id" = some key.keyId ∧ entry.getStr "public_key" = some key.publicKey

/-- Server-info lists the keys in force as current and the others as retired, and an id stands for
one key. -/
structure HonestInfo (info : Json) (keys : SigningKeys p) : Prop where
  es256 : ∃ entry ∈ ServerTrust.signingKeys info "current_signing_keys", Lists entry keys.es256
  mldsa87 : ∃ entry ∈ ServerTrust.signingKeys info "current_signing_keys",
    entry.getStr "purpose" = some "attestation_verification_pq"
  active : ∀ entry ∈ ServerTrust.signingKeys info "current_signing_keys",
    entry.getStr "purpose" = some "attestation_verification_pq" → Lists entry keys.mldsa87
  retired : ∀ key ∈ keys.retired, ∃ entry ∈ ServerTrust.signingKeys info "retired_signing_keys", Lists entry key
  ids : ∀ entry ∈ ServerTrust.signingKeys info "current_signing_keys" ++
      ServerTrust.signingKeys info "retired_signing_keys",
    ∀ key ∈ keys.all, entry.getStr "key_id" = some key.keyId → Lists entry key

/-- A receipt as the server issues it under the keys in force: it names both and is signed with both. -/
structure DualSigned (keys : SigningKeys p) (fp purpose : String) (binding : AccountBinding)
    (receipt : Json) : Prop where
  object : receipt.isObject
  fingerprint : receipt.getStr "public_key_fingerprint" = some fp
  keyPurpose : receipt.getStr "key_purpose" = some purpose
  bound : p.checkBinding receipt binding purpose = .ok ()
  signer : receipt.getStr "server_key_id" = some keys.es256.keyId
  pqSigner : receipt.getStr "server_pq_key_id" = some keys.mldsa87.keyId
  signed : ∃ sigB64 sig msg, receipt.getStr "server_signature" = some sigB64 ∧
    p.base64UrlDecode sigB64 = some sig ∧ p.receiptSigningInput (Primitives.unsigned receipt) = some msg ∧
    p.verifyEs256 keys.es256.bytes msg sig
  cosigned : CosignedUnder p keys.mldsa87.bytes receipt

lemma publicKeyOf_lists {entry : Json} {key : SigningKey p} (h : Lists entry key) :
    publicKeyOf p entry = .ok key.bytes := by
  simp only [publicKeyOf, except_bind_ok, okOr_ok]
  exact ⟨key.publicKey, h.2, key.decodes⟩

variable {keys : SigningKeys p} {binding : AccountBinding}

lemma HonestInfo.listed {info : Json} (h : HonestInfo info keys) {key : SigningKey p}
    (hkey : key ∈ keys.all) : ∃ entry ∈ ServerTrust.signingKeys info "current_signing_keys" ++
      ServerTrust.signingKeys info "retired_signing_keys", Lists entry key := by
  simp only [SigningKeys.all, List.mem_cons] at hkey
  rcases hkey with rfl | rfl | hkey
  · obtain ⟨entry, hentry, hlists⟩ := h.es256
    exact ⟨entry, List.mem_append_left _ hentry, hlists⟩
  · obtain ⟨entry, hentry, hpurpose⟩ := h.mldsa87
    exact ⟨entry, List.mem_append_left _ hentry, h.active entry hentry hpurpose⟩
  · obtain ⟨entry, hentry, hlists⟩ := h.retired key hkey
    exact ⟨entry, List.mem_append_right _ hentry, hlists⟩

lemma exists_find {α : Type} {xs : List α} (q : α → Prop) [DecidablePred q] (h : ∃ x ∈ xs, q x) :
    ∃ x ∈ xs, q x ∧ xs.find? (fun x => q x) = some x := by
  obtain ⟨x, hx, hqx⟩ := h
  have hfound : (xs.find? fun x => q x).isSome := List.find?_isSome.mpr ⟨x, hx, decide_eq_true hqx⟩
  obtain ⟨first, hfirst⟩ := Option.isSome_iff_exists.mp hfound
  have hq := List.find?_some hfirst
  exact ⟨first, List.mem_of_find?_eq_some hfirst, of_decide_eq_true hq, hfirst⟩

lemma HonestInfo.findKeyById {info : Json} (h : HonestInfo info keys) {key : SigningKey p}
    (hkey : key ∈ keys.all) : ServerTrust.findKeyById p info key.keyId = .ok (some key.bytes) := by
  obtain ⟨entry, hentry, hlists⟩ := h.listed hkey
  obtain ⟨first, hfirst, hid, hfind⟩ := exists_find (fun entry : Json => entry.getStr "key_id" = some key.keyId)
    ⟨entry, hentry, hlists.1⟩
  exact findKeyById_of_find hfind (publicKeyOf_lists (h.ids first hfirst key hkey hid))

lemma HonestInfo.activePqKey {trust : ServerTrust} (h : HonestInfo trust.info keys) :
    trust.activePqKey p = .ok keys.mldsa87.bytes := by
  obtain ⟨first, hfirst, hpurpose, hfind⟩ := exists_find
    (fun entry : Json => entry.getStr "purpose" = some "attestation_verification_pq") h.mldsa87
  have hlists := h.active first hfirst hpurpose
  cases hcurrent : (trust.info.get "current_signing_keys").bind Json.asArray with
  | none =>
    rw [ServerTrust.signingKeys, hcurrent] at hfirst
    cases hfirst
  | some current =>
    rw [ServerTrust.signingKeys, hcurrent, Option.getD_some] at hfind
    simp only [ServerTrust.activePqKey, except_bind_ok, okOr_ok, hcurrent, Option.some.injEq, exists_eq_left',
      hfind]
    exact publicKeyOf_lists hlists

lemma DualSigned.verifyOneReceipt {fp purpose : String}
    {receipt : Json} {vk : Bytes} (h : DualSigned keys fp purpose binding receipt) :
    p.verifyOneReceipt receipt fp binding purpose keys.es256.bytes (some vk) = .ok () ↔
      CosignedUnder p vk receipt := by
  obtain ⟨sigB64, sig, msg, hsigB64, hsig, hmsg, hverify⟩ := h.signed
  have hnames : (receipt.get "server_pq_key_id").isSome := by
    cases hget : receipt.get "server_pq_key_id" with
    | some value => rfl
    | none =>
      have hid := h.pqSigner
      rw [Json.getStr, hget] at hid
      cases hid
  rw [← checkCosignature_ok hmsg hnames]
  simp only [Primitives.verifyOneReceipt, except_bind_ok, okOr_ok, ensure_ok, h.fingerprint, h.bound,
    h.keyPurpose, hsigB64, hsig, h.object, hmsg, hverify, Option.some.injEq, exists_eq_left',
    exists_const, true_and]
  tauto

structure LoggedKey where
  fp : String
  receipt : Json
  loggedAt : ℕ

/-- A human account whose keys were logged at any points of a history of rotations, and the server
as it is after all of it. -/
structure HonestRecipient (p : Primitives) (server : HttpServer) (trust : ServerTrust) (serverUrl : String)
    (bundle : Json) (accountId : String) (proof : Option String) (who : String) where
  first : SigningKeys p
  rotations : List (Rotation p)
  index : Option (U16 × List.Vector UInt8 64)
  kem : LoggedKey
  kemPq : LoggedKey
  info : HonestInfo trust.info (first.after rotations)
  account : trust.indexFor p accountId proof who = .ok index
  kem_fp : bundle.getStr "kem_pubkey_fingerprint" = some kem.fp
  kemPq_fp : bundle.getStr "kem_pq_pubkey_fingerprint" = some kemPq.fp
  kem_signed : DualSigned (first.after (rotations.take kem.loggedAt)) kem.fp "kem"
    (bindingOf index (.accountId accountId)) kem.receipt
  kemPq_signed : DualSigned (first.after (rotations.take kemPq.loggedAt)) kemPq.fp "kem_pq"
    (bindingOf index (.accountId accountId)) kemPq.receipt
  kem_served : ∀ past, server (past ++ [receiptUrl serverUrl kem.fp "kem" trust.epoch]) = .ok kem.receipt
  kemPq_served : ∀ past, server (past ++ [receiptUrl serverUrl kemPq.fp "kem_pq" trust.epoch]) =
    .ok kemPq.receipt

lemma DualSigned.signerKnown {trust : ServerTrust} {first : SigningKeys p} {rotations : List (Rotation p)}
    {n : ℕ} {fp purpose : String} {receipt : Json}
    (h : DualSigned (first.after (rotations.take n)) fp purpose binding receipt)
    (hinfo : HonestInfo trust.info (first.after rotations)) :
    SignerKnown p trust receipt (first.after (rotations.take n)).es256.bytes := by
  refine ⟨_, h.signer, hinfo.findKeyById ?_⟩
  rw [← first.after_take_drop rotations n]
  exact SigningKeys.all_subset_after _ _ List.mem_cons_self

lemma DualSigned.cosigned_of_unrotated {first : SigningKeys p} {rotations : List (Rotation p)} {n : ℕ}
    {fp purpose : String} {receipt : Json}
    (h : DualSigned (first.after (rotations.take n)) fp purpose binding receipt)
    (hsince : ∀ next, .mldsa87 next ∉ rotations.drop n) :
    CosignedUnder p (first.after rotations).mldsa87.bytes receipt := by
  have hkey := SigningKeys.mldsa87_after (first.after (rotations.take n)) hsince
  rw [first.after_take_drop] at hkey
  rw [hkey]
  exact h.cosigned

lemma HonestRecipient.accepted_iff {server : HttpServer} {trust : ServerTrust} {serverUrl : String}
    {bundle : Json} {accountId : String} {proof : Option String} {who : String}
    (h : HonestRecipient p server trust serverUrl bundle accountId proof who)
    (s : Session String (Accepted p)) :
    (∃ s', verifyAgainstReceipts p server trust serverUrl bundle accountId proof who s = .ok ((), s')) ↔
      CosignedUnder p (h.first.after h.rotations).mldsa87.bytes h.kem.receipt ∧
        CosignedUnder p (h.first.after h.rotations).mldsa87.bytes h.kemPq.receipt := by
  rw [verifyAgainstReceipts_of_known h.index h.account h.kem_fp h.kemPq_fp h.info.activePqKey
    (h.kem_served _) (h.kemPq_served _) (h.kem_signed.signerKnown h.info) (h.kemPq_signed.signerKnown h.info),
    h.kem_signed.verifyOneReceipt, h.kemPq_signed.verifyOneReceipt]

end

/-- After any rotations, the receipts of an honest account are accepted exactly if, for each, the
ML-DSA-87 key was not rotated since it was logged, or the new one happens to verify it. -/
theorem verifyAgainstReceipts_accepts_iff (p : Primitives) (server : HttpServer) (trust : ServerTrust)
    (serverUrl : String) (bundle : Json) (accountId : String) (proof : Option String) (who : String)
    (h : HonestRecipient p server trust serverUrl bundle accountId proof who)
    (s : Session String (Accepted p)) :
    (∃ s', verifyAgainstReceipts p server trust serverUrl bundle accountId proof who s = .ok ((), s')) ↔
      ∀ key ∈ [h.kem, h.kemPq], (∀ next, .mldsa87 next ∉ h.rotations.drop key.loggedAt) ∨
        CosignedUnder p (h.first.after h.rotations).mldsa87.bytes key.receipt := by
  rw [h.accepted_iff]
  simp only [List.forall_mem_cons, List.not_mem_nil, false_imp_iff, implies_true, and_true]
  constructor
  · rintro ⟨hkem, hkemPq⟩
    exact ⟨Or.inr hkem, Or.inr hkemPq⟩
  · rintro ⟨hkem, hkemPq⟩
    exact ⟨hkem.elim h.kem_signed.cosigned_of_unrotated id, hkemPq.elim h.kemPq_signed.cosigned_of_unrotated id⟩

def nextEsKey : Bytes := toBeBytes 65
  0x047cf27b188d034f7e8a52380304b51ac3c08969e277f21b35a60b48fc4766997807775510db8ed040293d9ac69f7430dbba7dade63ce982299e04b79d227873d1

def nextEsKeyB64 : String :=
  "BHzyexiNA09-ilI4AwS1GsPAiWnid_IbNaYLSPxHZpl4B3dVENuO0EApPZrGn3Qw27p9reY86YIpngS3nSJ4c9E"

def onesB64 (chars : ℕ) : String := String.ofList (List.replicate chars '_')

/-- The sample's primitives with two more texts; an ML-DSA-87 signature verifies under the first key
only. -/
def rotatedPrimitives : Primitives :=
  { samplePrimitives with
    base64UrlDecode := fun s =>
      if s = nextEsKeyB64 then some nextEsKey
      else if s.toList.all (· = '_') then some (List.replicate (s.toList.length * 3 / 4) 0xff)
      else samplePrimitives.base64UrlDecode s
    mldsa87Verifies := fun vk _ _ _ => vk = List.replicate 2592 0 }

lemma rotatedPrimitives_onesB64 (n : ℕ) :
    rotatedPrimitives.base64UrlDecode (onesB64 n) = some (List.replicate (n * 3 / 4) 0xff) := by
  have hne : onesB64 n ≠ nextEsKeyB64 := by
    intro h
    have hall := congrArg (fun s => s.toList.all (· = '_')) h
    simp [onesB64, nextEsKeyB64] at hall
  have hones : (onesB64 n).toList.all (· = '_') = true := by
    simp [onesB64]
  have hlen : (onesB64 n).toList.length = n := by
    simp [onesB64]
  simp only [rotatedPrimitives, if_neg hne, hones, if_true, hlen]

lemma rotatedPrimitives_zerosB64 (n : ℕ) (hn : 0 < n) :
    rotatedPrimitives.base64UrlDecode (zerosB64 n) = some (List.replicate (n * 3 / 4) 0) := by
  have hne : zerosB64 n ≠ nextEsKeyB64 := by
    intro h
    have hall := congrArg (fun s => s.toList.all (· = 'A')) h
    simp [zerosB64, nextEsKeyB64] at hall
  have hones : (zerosB64 n).toList.all (· = '_') = false := by
    simp [zerosB64, hn.ne']
  simp only [rotatedPrimitives, if_neg hne, hones]
  exact samplePrimitives_zerosB64 n

lemma rotatedPrimitives_ecKeyB64 : rotatedPrimitives.base64UrlDecode ecKeyB64 = some ecKey := by
  have hne : ecKeyB64 ≠ nextEsKeyB64 := by
    simp [ecKeyB64, nextEsKeyB64]
  have hones : ecKeyB64.toList.all (· = '_') = false := by
    simp [ecKeyB64]
  simp only [rotatedPrimitives, if_neg hne, hones]
  exact samplePrimitives_ecKeyB64

def firstKeys : SigningKeys rotatedPrimitives where
  es256 := ⟨"es-1", ecKeyB64, ecKey, rotatedPrimitives_ecKeyB64⟩
  mldsa87 := ⟨"pq-1", zerosB64 3456, List.replicate 2592 0, rotatedPrimitives_zerosB64 3456 (by norm_num)⟩
  retired := []

def nextEs256 : SigningKey rotatedPrimitives :=
  ⟨"es-2", nextEsKeyB64, nextEsKey, by simp only [rotatedPrimitives, if_true]⟩

def nextMldsa87 : SigningKey rotatedPrimitives :=
  ⟨"pq-2", onesB64 3456, List.replicate 2592 0xff, rotatedPrimitives_onesB64 3456⟩

def keyEntry (key : SigningKey rotatedPrimitives) (purpose : String) : Json := .object
  [("key_id", .string key.keyId), ("public_key", .string key.publicKey), ("purpose", .string purpose)]

def infoOf (keys : SigningKeys rotatedPrimitives) : Json := .object
  [("current_signing_keys", .array [keyEntry keys.es256 "attestation_verification",
      keyEntry keys.mldsa87 "attestation_verification_pq"]),
    ("retired_signing_keys", .array (keys.retired.map fun key => keyEntry key "retired"))]

lemma infoOf_honest {keys : SigningKeys rotatedPrimitives} (hids : (keys.all.map SigningKey.keyId).Nodup) :
    HonestInfo (infoOf keys) keys where
  es256 := ⟨_, List.mem_cons_self, rfl, rfl⟩
  mldsa87 := ⟨_, List.mem_cons_of_mem _ List.mem_cons_self, rfl⟩
  active := by
    intro entry hentry hpurpose
    rcases List.mem_pair.mp hentry with rfl | rfl
    · have hne : "attestation_verification" = "attestation_verification_pq" := Option.some.inj hpurpose
      exact absurd hne (by decide)
    · exact ⟨rfl, rfl⟩
  retired := by
    intro key hkey
    exact ⟨_, List.mem_map_of_mem hkey, rfl, rfl⟩
  ids := by
    intro entry hentry key hkey hid
    obtain ⟨listed, hlisted, purpose, rfl⟩ : ∃ listed ∈ keys.all, ∃ purpose, entry =
        keyEntry listed purpose := by
      rcases List.mem_append.mp hentry with hcurrent | hretired
      · rcases List.mem_pair.mp hcurrent with rfl | rfl
        · exact ⟨_, List.mem_cons_self, _, rfl⟩
        · exact ⟨_, List.mem_cons_of_mem _ List.mem_cons_self, _, rfl⟩
      · obtain ⟨listed, hlisted, rfl⟩ := List.mem_map.mp hretired
        exact ⟨listed, List.mem_cons_of_mem _ (List.mem_cons_of_mem _ hlisted), _, rfl⟩
    obtain rfl := List.inj_on_of_nodup_map hids hlisted hkey (Option.some.inj hid)
    exact ⟨rfl, rfl⟩

def dualReceipt (purpose fp : String) : Json := .object
  [("account_id", .string "pat"), ("key_purpose", .string purpose), ("public_key_fingerprint", .string fp),
    ("server_key_id", .string "es-1"), ("server_pq_key_id", .string "pq-1"),
    ("server_signature", .string (zerosB64 86)), ("server_signature_mldsa87", .string (zerosB64 6170))]

lemma dualReceipt_signed (purpose fp : String) :
    DualSigned firstKeys fp purpose (.accountId "pat") (dualReceipt purpose fp) where
  object := rfl
  fingerprint := rfl
  keyPurpose := rfl
  bound := by
    simp only [Primitives.checkBinding, except_bind_ok, okOr_ok, ensure_ok]
    exact ⟨"pat", rfl, by simp [eqIgnoreAsciiCase]⟩
  signer := rfl
  pqSigner := rfl
  signed := by
    obtain ⟨msg, hmsg⟩ : ∃ msg, rotatedPrimitives.receiptSigningInput
        (Primitives.unsigned (dualReceipt purpose fp)) = some msg := ⟨_, rfl⟩
    exact ⟨zerosB64 86, _, msg, rfl, rotatedPrimitives_zerosB64 86 (by norm_num), hmsg, rfl⟩
  cosigned := by
    obtain ⟨msg, hmsg⟩ : ∃ msg, rotatedPrimitives.receiptSigningInput
        (Primitives.unsigned (dualReceipt purpose fp)) = some msg := ⟨_, rfl⟩
    refine ⟨zerosB64 6170, _, msg, rfl, rotatedPrimitives_zerosB64 6170 (by norm_num), hmsg, ?_⟩
    have hkey : firstKeys.mldsa87.bytes = List.replicate 2592 0 := rfl
    simp only [Primitives.verifyMldsa87, hkey, except_bind_ok, ensure_ok, exists_const, List.length_replicate]
    exact ⟨trivial, trivial, rfl, by simp only [rotatedPrimitives, decide_true]⟩

def logServer (sent : List String) : Except CliError Json :=
  if sent.getLast? = some (receiptUrl "server" ecKeyFp "kem" 1) then .ok (dualReceipt "kem" ecKeyFp)
  else .ok (dualReceipt "kem_pq" pqKeyFp)

lemma receiptUrl_kemPq_ne : receiptUrl "server" pqKeyFp "kem_pq" 1 ≠ receiptUrl "server" ecKeyFp "kem" 1 := by
  intro h
  have hlen := congrArg String.length h
  have htext (s : String) : toString s = s := rfl
  have hkem : "kem".length = 3 := rfl
  have hkemPq : "kem_pq".length = 6 := rfl
  simp only [receiptUrl, String.length_append, htext, ecKeyFp, pqKeyFp, length_hexEncode,
    List.Vector.toList_length] at hlen
  omega

def rotatedTrust (rotations : List (Rotation rotatedPrimitives)) : ServerTrust :=
  ⟨infoOf (firstKeys.after rotations), .legacy, 1⟩

def rotatedRecipient (rotations : List (Rotation rotatedPrimitives))
    (hids : ((firstKeys.after rotations).all.map SigningKey.keyId).Nodup) :
    HonestRecipient rotatedPrimitives logServer (rotatedTrust rotations) "server" humanBundle "pat"
      none "pat" where
  first := firstKeys
  rotations := rotations
  index := none
  kem := ⟨ecKeyFp, dualReceipt "kem" ecKeyFp, 0⟩
  kemPq := ⟨pqKeyFp, dualReceipt "kem_pq" pqKeyFp, 0⟩
  info := infoOf_honest hids
  account := rfl
  kem_fp := rfl
  kemPq_fp := rfl
  kem_signed := dualReceipt_signed "kem" ecKeyFp
  kemPq_signed := dualReceipt_signed "kem_pq" pqKeyFp
  kem_served := by
    intro past
    rw [logServer, List.getLast?_concat]
    exact if_pos rfl
  kemPq_served := by
    intro past
    rw [logServer, List.getLast?_concat]
    exact if_neg fun h => receiptUrl_kemPq_ne (Option.some.inj h)

lemma not_cosignedUnder_nextMldsa87 (receipt : Json) :
    ¬ CosignedUnder rotatedPrimitives nextMldsa87.bytes receipt := by
  rintro ⟨_, _, _, _, _, _, hverify⟩
  simp only [Primitives.verifyMldsa87, except_bind_ok, ensure_ok] at hverify
  obtain ⟨_, _, _, _, _, _, hverifies⟩ := hverify
  have hkey : List.replicate 2592 (0xff : UInt8) = List.replicate 2592 0 := of_decide_eq_true hverifies
  rw [List.replicate_right_inj (by norm_num)] at hkey
  exact absurd hkey (by decide)

/-- The ML-DSA-87 key is rotated once after the keys were logged, and the account is refused. -/
theorem verifyAgainstReceipts_orphaned :
    Nonempty (HonestRecipient rotatedPrimitives logServer (rotatedTrust [.mldsa87 nextMldsa87])
      "server" humanBundle "pat" none "pat") ∧
      ¬ ∃ s', verifyAgainstReceipts rotatedPrimitives logServer (rotatedTrust [.mldsa87 nextMldsa87]) "server"
        humanBundle "pat" none "pat" ⟨[], []⟩ = .ok ((), s') := by
  have hids : ((firstKeys.after [.mldsa87 nextMldsa87]).all.map SigningKey.keyId).Nodup := by
    decide
  refine ⟨⟨rotatedRecipient _ hids⟩, ?_⟩
  rw [(rotatedRecipient _ hids).accepted_iff]
  rintro ⟨hkem, -⟩
  exact not_cosignedUnder_nextMldsa87 _ hkem

theorem verifyAgainstReceipts_accepts_iff_es256 :
    ∃ s', verifyAgainstReceipts rotatedPrimitives logServer (rotatedTrust [.es256 nextEs256])
      "server" humanBundle "pat" none "pat" ⟨[], []⟩ = .ok ((), s') := by
  have hids : ((firstKeys.after [.es256 nextEs256]).all.map SigningKey.keyId).Nodup := by
    decide
  refine (verifyAgainstReceipts_accepts_iff _ _ _ _ _ _ _ _ (rotatedRecipient _ hids) _).mpr ?_
  simp [rotatedRecipient]

end SignetDrive.Proofs
