import SignetDrive.Model.GarnetPki

/-!
# Certificates keep their roles

Only the leaf functions write the usage of the key and the name, each its own, and the CA's own
certificate has neither.
-/

namespace SignetDrive.Proofs

open Client Signed Pki

variable {Key Sig : Type} {p : Platform Key Sig} {scalar : Scalar} {cn : String}

/-! ### What a verifier reads -/

variable (p) in
/-- The signed part is not of a CA, allows the usage and has the URI as its first one. -/
def Reads (tbs : TbsCertificate) (usage : Oid) (uri : String) : Prop :=
  ∃ exts, tbs.extensions = some exts ∧ checkNotCa p exts = .ok () ∧
    (∃ e usages, exts.find? (·.extnId = EXTENDED_KEY_USAGE) = some e ∧
      p.extendedKeyUsage.decode e.extnValue = some usages ∧ usage ∈ usages) ∧
    ∃ e names, exts.find? (·.extnId = SUBJECT_ALT_NAME) = some e ∧
      p.subjectAltName.decode e.extnValue = some names ∧ names.findSome? GeneralName.uri? = some uri

variable {issued : IssuedCert} {cert : Certificate}

variable {uri ekuText : String} {usage : Oid} {blob : Bytes} {tbs : TbsCertificate}
  {info : SubjectPublicKeyInfo} {issue : Issue} {r : LeafRequest} {time : ℕ}

lemma certSanUri_ok {der : Bytes} {exts : List Extension} (hcert : p.certificate.decode der = some cert)
    (hexts : cert.tbsCertificate.extensions = some exts) :
    certSanUri p der = .ok (some uri) ↔
      ∃ e names, exts.find? (·.extnId = SUBJECT_ALT_NAME) = some e ∧
        p.subjectAltName.decode e.extnValue = some names ∧ names.findSome? GeneralName.uri? = some uri := by
  simp only [certSanUri, except_bind_ok, okOr_ok, hcert, Option.some_inj, exists_eq_left', hexts]
  cases exts.find? (·.extnId = SUBJECT_ALT_NAME) with
  | none => simp
  | some e =>
    simp only [except_bind_ok, okOr_ok, except_pure_ok, Option.some_inj, exists_and_left, exists_eq_left']

lemma asU64_max0 (now : I64) : now.max0.asU64.val = now.1.toNat := by
  obtain ⟨now, hlow, hhigh⟩ := now
  simp only [I64.asU64, I64.max0]
  omega

lemma verifyLeafChainsToCaUri_ok {leafDer caDer : Bytes} {ca : Certificate} {spkiDer : Bytes} {key : Key}
    {now : I64} (hca : p.certificate.decode caDer = some ca)
    (hspki : p.spki.encode ca.tbsCertificate.subjectPublicKeyInfo = some spkiDer)
    (hkey : p.fromPublicKeyDer spkiDer = some key) (husage : p.oidFromStr ekuText = some usage) :
    verifyLeafChainsToCaUri p leafDer caDer ekuText now = .ok uri ↔
      ∃ leaf blob bytes sig, p.certificate.decode leafDer = some leaf ∧
        leaf.signatureAlgorithm.oid = ECDSA_WITH_SHA256 ∧ leaf.tbsCertificate.issuer = ca.tbsCertificate.subject
        ∧ p.tbsCertificate.encode leaf.tbsCertificate = some blob ∧ leaf.signature.asBytes = some bytes ∧
        parseSignature p bytes = .ok sig ∧ p.scheme.verify key blob sig = true ∧
        leaf.tbsCertificate.validity.notBefore.unix ≤ now.1.toNat ∧
        now.1.toNat ≤ leaf.tbsCertificate.validity.notAfter.unix ∧ Reads p leaf.tbsCertificate usage uri := by
  simp only [verifyLeafChainsToCaUri, verifyEs256, except_bind_ok, okOr_ok, ensure_ok, asU64_max0,
    p.fromSec1Bytes_toX963, hca, hspki, hkey, husage, Option.some_inj, exists_eq_left']
  constructor
  · rintro ⟨leaf, hleaf, -, halg, -, hissuer, blob, hblob, bytes, hbytes, -, ⟨sig, hsig, hverify⟩, h⟩
    obtain ⟨-, hbefore, -, hafter, exts, hexts, _, hnotCa, e, he, usages, husages, -, hmem, found,
      hfound, rfl⟩ := h
    exact ⟨leaf, blob, bytes, sig, hleaf, halg, hissuer, hblob, hbytes, hsig, hverify, hbefore, hafter, exts,
      hexts, hnotCa, ⟨e, usages, he, husages, hmem⟩, (certSanUri_ok hleaf hexts).mp hfound⟩
  · rintro ⟨leaf, blob, bytes, sig, hleaf, halg, hissuer, hblob, hbytes, hsig, hverify, hbefore, hafter, h⟩
    obtain ⟨exts, hexts, hnotCa, ⟨e, usages, he, husages, hmem⟩, hname⟩ := h
    exact ⟨leaf, hleaf, (), halg, (), hissuer, blob, hblob, bytes, hbytes, (), ⟨sig, hsig, hverify⟩, (),
      hbefore, (), hafter, exts, hexts, (), hnotCa, e, he, usages, husages, (), hmem, some uri,
      (certSanUri_ok hleaf hexts).mpr hname, rfl⟩

/-! ### What is issued -/

variable (p) in
/-- The signed part of a leaf: its issuer, its key, its validity, and the one usage and the one name
that are read from it. -/
structure LeafPart (info : SubjectPublicKeyInfo) (uri : String) (usage : Oid) (issuer : Name) (now secs : ℕ)
    (tbs : TbsCertificate) : Prop where
  issuer : tbs.issuer = issuer
  key : tbs.subjectPublicKeyInfo = info
  notBefore : tbs.validity.notBefore.unix = now
  notAfter : tbs.validity.notAfter.unix = now + secs
  written : now + secs < 2 ^ 63
  reads : ∀ other otherUri, Reads p tbs other otherUri ↔ other = usage ∧ otherUri = uri

variable (p) in
structure MadeOf (scalar : Scalar) (tbs : TbsCertificate) (blob : Bytes) (sig : Sig) (der : Bytes) : Prop where
  encoded : p.tbsCertificate.encode tbs = some blob
  signed : p.scheme.sign scalar blob = some sig
  certificate : p.certificate.encode ⟨tbs, ⟨ECDSA_WITH_SHA256, none⟩, ⟨0, p.sigToDer sig⟩⟩ = some der

lemma MadeOf.decode {sig : Sig} {der : Bytes} (h : MadeOf p scalar tbs blob sig der) :
    p.certificate.decode der = some ⟨tbs, ⟨ECDSA_WITH_SHA256, none⟩, ⟨0, p.sigToDer sig⟩⟩ :=
  p.certificate.decode_encode _ _ h.certificate

lemma finish_ok (h : finish p cert = .ok issued) :
    p.certificate.encode cert = some issued.der := by
  simp only [finish, except_bind_ok, okOr_ok, except_pure_ok] at h
  obtain ⟨der, hder, pem, -, rfl⟩ := h
  exact hder

lemma madeOf_build {builder : CertificateBuilder}
    (halg : builder.tbs.signature = ⟨ECDSA_WITH_SHA256, none⟩) (hne : builder.extensions ≠ [])
    (hbuild : builder.build p scalar = some cert) (hfinish : finish p cert = .ok issued) :
    ∃ blob sig, MadeOf p scalar { builder.tbs with extensions := some builder.extensions } blob sig
      issued.der := by
  simp only [CertificateBuilder.build, if_neg hne, option_bind_eq_some, option_pure_eq_some] at hbuild
  obtain ⟨blob, hblob, sig, hsig, rfl⟩ := hbuild
  refine ⟨blob, sig, hblob, hsig, ?_⟩
  rw [← halg]
  exact finish_ok hfinish

lemma reads_leafExtensions {exts : List Extension} {san eku : Extension}
    (hprofile : (∃ e, exts.find? (·.extnId = BASIC_CONSTRAINTS) = some e ∧
      ∃ constraints, p.basicConstraints.decode e.extnValue = some constraints ∧ constraints.ca = false) ∧
      ∀ e ∈ exts, e.extnId ≠ SUBJECT_ALT_NAME ∧ e.extnId ≠ EXTENDED_KEY_USAGE)
    (htbs : tbs.extensions = some (exts ++ [san] ++ [eku])) (hsan : san.extnId = SUBJECT_ALT_NAME)
    (heku : eku.extnId = EXTENDED_KEY_USAGE)
    (hnames : p.subjectAltName.decode san.extnValue = some [.uniformResourceIdentifier uri])
    (husages : p.extendedKeyUsage.decode eku.extnValue = some [usage]) (other : Oid) (otherUri : String) :
    Reads p tbs other otherUri ↔ other = usage ∧ otherUri = uri := by
  obtain ⟨⟨e, he, constraints, hconstraints, hca⟩, hprofile⟩ := hprofile
  have hfindSan : (exts ++ [san] ++ [eku]).find? (·.extnId = SUBJECT_ALT_NAME) = some san := by
    have hnone : exts.find? (·.extnId = SUBJECT_ALT_NAME) = none := by
      simp only [List.find?_eq_none, decide_eq_true_eq]
      exact fun x hx => (hprofile x hx).1
    simp [List.find?_append, hnone, hsan]
  have hfindEku : (exts ++ [san] ++ [eku]).find? (·.extnId = EXTENDED_KEY_USAGE) = some eku := by
    have hnone : exts.find? (·.extnId = EXTENDED_KEY_USAGE) = none := by
      simp only [List.find?_eq_none, decide_eq_true_eq]
      exact fun x hx => (hprofile x hx).2
    have hother : san.extnId ≠ EXTENDED_KEY_USAGE := by
      rw [hsan]
      decide
    simp [List.find?_append, hnone, heku, hother]
  have hnotCa : checkNotCa p (exts ++ [san] ++ [eku]) = .ok () := by
    simp [checkNotCa, List.find?_append, he, hconstraints, hca, okOr, ensure]
  constructor
  · rintro ⟨all, hall, -, ⟨e₁, usages, he₁, husages₁, hmem⟩, e₂, names, he₂, hnames₂, hfound⟩
    obtain rfl := Option.some_inj.mp (htbs.symm.trans hall)
    obtain rfl := Option.some_inj.mp (hfindEku.symm.trans he₁)
    obtain rfl := Option.some_inj.mp (hfindSan.symm.trans he₂)
    obtain rfl := Option.some_inj.mp (husages.symm.trans husages₁)
    obtain rfl := Option.some_inj.mp (hnames.symm.trans hnames₂)
    exact ⟨List.mem_singleton.mp hmem, (Option.some_inj.mp hfound).symm⟩
  · rintro ⟨rfl, rfl⟩
    exact ⟨_, htbs, hnotCa, ⟨eku, _, hfindEku, husages, List.mem_singleton.mpr rfl⟩, san, _,
      hfindSan, hnames, rfl⟩

lemma buildLeaf_ok {serial : Bytes} {secs now : ℕ}
    (h : buildLeaf p info uri ekuText scalar cn serial secs now = .ok issued) :
    ∃ issuer usage tbs blob sig, p.nameFromStr ("CN=" ++ cn) = some issuer ∧ p.oidFromStr ekuText = some usage ∧
      LeafPart p info uri usage issuer now secs tbs ∧ MadeOf p scalar tbs blob sig issued.der := by
  simp only [buildLeaf, name, CertificateBuilder.new, CertificateBuilder.addExtension, except_bind_ok, okOr_ok,
    option_bind_eq_some, option_pure_eq_some] at h
  obtain ⟨key, -, issuer, hissuer, subject, -, serialNumber, -, validity, hvalidity, h⟩ := h
  obtain ⟨_, ⟨exts, hexts, rfl⟩, san, hsan, _, ⟨names, hnames, rfl⟩, usage, husage, _,
    ⟨usages, husages, rfl⟩, h⟩ := h
  obtain ⟨cert, hbuild, hfinish⟩ := h
  obtain rfl := p.ia5String_eq _ _ hsan
  obtain ⟨hbefore, hafter, hwritten⟩ := p.validity_from_now _ _ _ hvalidity
  obtain ⟨blob, sig, hmade⟩ := madeOf_build rfl (List.concat_ne_nil _ _) hbuild hfinish
  refine ⟨issuer, usage, _, blob, sig, hissuer, husage, ⟨rfl, rfl, hbefore, hafter, hwritten, ?_⟩, hmade⟩
  exact reads_leafExtensions (p.leaf_profile _ _ _ _ hexts) rfl rfl rfl
    (p.subjectAltName.decode_encode _ _ hnames) (p.extendedKeyUsage.decode_encode _ _ husages)

lemma buildCaCert_ok {serial : Bytes} {secs now : ℕ}
    (h : buildCaCert p scalar cn serial secs now = .ok issued) :
    ∃ key spkiDer tbs blob sig, p.scheme.publicKey scalar = some key ∧
      p.nameFromStr ("CN=" ++ cn) = some tbs.subject ∧
      p.spki.encode tbs.subjectPublicKeyInfo = some spkiDer ∧ p.fromPublicKeyDer spkiDer = some key ∧
      (∀ usage uri, ¬Reads p tbs usage uri) ∧ MadeOf p scalar tbs blob sig issued.der := by
  simp only [buildCaCert, name, CertificateBuilder.new, CertificateBuilder.addExtension, except_bind_ok,
    okOr_ok, option_bind_eq_some, option_pure_eq_some] at h
  obtain ⟨key, hkey, keyDer, hkeyDer, info, hinfo, subject, hsubject, serialNumber, -, validity, -, h⟩ := h
  obtain ⟨_, ⟨added, hadded, rfl⟩, _, ⟨constraints, -, rfl⟩, _, ⟨usages, -, rfl⟩, cert, hbuild, hfinish⟩ := h
  cases hadded
  obtain ⟨spkiDer, hspkiDer, hread⟩ := p.fromPublicKeyDer_spki _ _ _ hkeyDer hinfo
  obtain ⟨blob, sig, hmade⟩ := madeOf_build rfl (List.concat_ne_nil _ _) hbuild hfinish
  refine ⟨key, spkiDer, _, blob, sig, hkey, hsubject, hspkiDer, hread, ?_, hmade⟩
  rintro usage uri ⟨exts, hexts, -, ⟨e, usages, he, -⟩, -⟩
  cases hexts
  simp [BASIC_CONSTRAINTS, EXTENDED_KEY_USAGE, KEY_USAGE] at he

/-! ### The roles -/

structure LeafRequest where
  key : Except CryptoError SubjectPublicKeyInfo
  uri : String
  eku : String
  secs : ℕ

variable (p) in
/-- What a leaf is asked for with; the certificate of the CA is none. -/
def leafRequest : Issue → Option LeafRequest
  | .caCert _ _ => none
  | .agentCert csr handle _ secs =>
    some ⟨(verifyCsr p csr).map (·.spki), SAN_URN_PREFIX ++ handle, ID_KP_CLIENT_AUTH, secs⟩
  | .brokerClientCert csr id _ secs =>
    some ⟨(verifyCsr p csr).map (·.spki), SAN_URN_BROKER_PREFIX ++ id, ID_KP_CLIENT_AUTH, secs⟩
  | .serverLeaf pubkey id _ secs =>
    some ⟨serverSpki p pubkey, SAN_URN_SERVER_PREFIX ++ id, ID_KP_SERVER_AUTH, secs⟩

lemma run_leaf {now : ℕ} (hleaf : leafRequest p issue = some r) (h : issue.run p scalar cn now = .ok issued) :
    ∃ info issuer usage tbs blob sig, r.key = .ok info ∧ p.nameFromStr ("CN=" ++ cn) = some issuer ∧
      p.oidFromStr r.eku = some usage ∧ LeafPart p info r.uri usage issuer now r.secs tbs ∧
      MadeOf p scalar tbs blob sig issued.der := by
  cases issue with
  | caCert serial secs => cases hleaf
  | agentCert csr handle serial secs =>
    cases hleaf
    simp only [Issue.run, issueAgentCert, except_bind_ok] at h
    obtain ⟨verified, hverified, hbuild⟩ := h
    obtain ⟨issuer, usage, tbs, blob, sig, hmade⟩ := buildLeaf_ok hbuild
    exact ⟨verified.spki, issuer, usage, tbs, blob, sig, except_map_ok.mpr ⟨verified, hverified, rfl⟩, hmade⟩
  | brokerClientCert csr id serial secs =>
    cases hleaf
    simp only [Issue.run, issueBrokerClientCert, except_bind_ok] at h
    obtain ⟨verified, hverified, hbuild⟩ := h
    obtain ⟨issuer, usage, tbs, blob, sig, hmade⟩ := buildLeaf_ok hbuild
    exact ⟨verified.spki, issuer, usage, tbs, blob, sig, except_map_ok.mpr ⟨verified, hverified, rfl⟩, hmade⟩
  | serverLeaf pubkey id serial secs =>
    cases hleaf
    simp only [Issue.run, buildServerLeaf, except_bind_ok] at h
    obtain ⟨info, hinfo, hbuild⟩ := h
    obtain ⟨issuer, usage, tbs, blob, sig, hmade⟩ := buildLeaf_ok hbuild
    exact ⟨info, issuer, usage, tbs, blob, sig, hinfo, hmade⟩

lemma request_of_reads (hrun : issue.run p scalar cn time = .ok issued)
    (hcert : p.certificate.decode issued.der = some cert) (hreads : Reads p cert.tbsCertificate usage uri) :
    ∃ r info issuer, leafRequest p issue = some r ∧ r.key = .ok info ∧
      p.oidFromStr r.eku = some usage ∧ r.uri = uri ∧
      LeafPart p info uri usage issuer time r.secs cert.tbsCertificate := by
  cases hrequest : leafRequest p issue with
  | none =>
    cases issue with
    | caCert serial secs =>
      obtain ⟨_, _, tbs, _, _, -, -, -, -, hnot, hmade⟩ := buildCaCert_ok hrun
      obtain rfl := Option.some_inj.mp (hmade.decode.symm.trans hcert)
      exact absurd hreads (hnot usage uri)
    | agentCert | brokerClientCert | serverLeaf => cases hrequest
  | some r =>
    obtain ⟨info, issuer, own, tbs, _, _, hinfo, -, hown, hpart, hmade⟩ := run_leaf hrequest hrun
    obtain rfl := Option.some_inj.mp (hmade.decode.symm.trans hcert)
    obtain ⟨rfl, rfl⟩ := (hpart.reads _ _).mp hreads
    exact ⟨r, info, issuer, rfl, hinfo, hown, rfl, hpart⟩

variable (p scalar cn) in
def signedParts (calls : Set (Issue × ℕ)) : Set TbsCertificate :=
  {tbs | ∃ issue time issued cert, (issue, time) ∈ calls ∧ issue.run p scalar cn time = .ok issued ∧
    p.certificate.decode issued.der = some cert ∧ cert.tbsCertificate = tbs}

variable (p scalar cn) in
/-- The CA key signs only in these calls, and its signatures cannot be forged. -/
def SignsOnly (key : Key) (calls : Set (Issue × ℕ)) : Prop :=
  p.scheme.Unforged key {m | ∃ tbs ∈ signedParts p scalar cn calls, p.tbsCertificate.encode tbs = some m}

variable (p scalar cn) in
/-- The signed part of the leaf is that of the certificate the call issued, over the key of the
request, and the time is in its validity. -/
def Produced (issue : Issue) (time : ℕ) (leafDer : Bytes) (now : I64) : Prop :=
  ∃ r issued cert leaf, leafRequest p issue = some r ∧ issue.run p scalar cn time = .ok issued ∧
    p.certificate.decode issued.der = some cert ∧ p.certificate.decode leafDer = some leaf ∧
    leaf.tbsCertificate = cert.tbsCertificate ∧ r.key = .ok leaf.tbsCertificate.subjectPublicKeyInfo ∧
    time ≤ now.1.toNat ∧ now.1.toNat ≤ time + r.secs

variable (p) in
/-- The DER form of the signature is not read as a raw one, or verifies as such too. -/
def SignatureReadsBack (key : Key) (blob : Bytes) (sig : Sig) : Prop :=
  (p.sigToDer sig).length ≠ 64 ∨
    ∃ raw, p.sigFromSlice (p.sigToDer sig) = some raw ∧ p.scheme.verify key blob raw = true

lemma stripStart_eq_some {start s rest : String} : stripStart start s = some rest ↔ s = start ++ rest := by
  rw [stripStart, ← String.toList_inj, String.toList_append]
  split_ifs with h
  · obtain ⟨more, hmore⟩ := h
    rw [← hmore, List.drop_left, Option.some_inj, List.append_cancel_left_eq]
    constructor
    · rintro rfl
      exact String.toList_ofList.symm
    · rintro rfl
      exact String.ofList_toList
  · simp only [false_iff]
    intro hs
    exact h ⟨rest.toList, hs.symm⟩

lemma verifyLeafChainsToCa_ok {leafDer caDer : Bytes} {handle : String} {now : I64} :
    verifyLeafChainsToCa p leafDer caDer ekuText now = .ok handle ↔
      verifyLeafChainsToCaUri p leafDer caDer ekuText now = .ok (SAN_URN_PREFIX ++ handle) := by
  simp only [verifyLeafChainsToCa, except_bind_ok, okOr_ok, stripStart_eq_some, exists_eq_right]

lemma append_ne_append {start other : String} (n : ℕ) (hstart : n ≤ start.toList.length)
    (hother : n ≤ other.toList.length) (hne : start.toList.take n ≠ other.toList.take n) (s t : String) :
    start ++ s ≠ other ++ t := by
  intro heq
  have hlist := congrArg (fun s => s.toList.take n) heq
  simp only [String.toList_append] at hlist
  rw [List.take_append_of_le_length hstart, List.take_append_of_le_length hother] at hlist
  exact hne hlist

lemma broker_ne_agent (id handle : String) : SAN_URN_BROKER_PREFIX ++ id ≠ SAN_URN_PREFIX ++ handle :=
  append_ne_append 12 (by decide) (by decide) (by decide) id handle

lemma readsBack_iff {key : Key} {sig : Sig} (hkey : p.scheme.publicKey scalar = some key)
    (hsign : p.scheme.sign scalar blob = some sig) :
    SignatureReadsBack p key blob sig ↔ ∃ parsed, parseSignature p (p.sigToDer sig) = .ok parsed ∧
    p.scheme.verify key blob parsed = true := by
  by_cases hlength : (p.sigToDer sig).length = 64
  · simp only [SignatureReadsBack, parseSignature, hlength, if_true, okOr_ok, ne_eq,
      not_true_eq_false, false_or]
  · have hverify := p.scheme.verify_sign _ _ _ _ hkey hsign
    have hparse : parseSignature p (p.sigToDer sig) = .ok sig := by
      rw [parseSignature, if_neg hlength, if_pos (p.length_sigToDer sig), p.sigFromDer_toDer]
      rfl
    exact iff_of_true (.inl hlength) ⟨sig, hparse, hverify⟩

section

variable {key : Key} {ca : IssuedCert} {serial : Bytes} {secs start : ℕ} {calls : Set (Issue × ℕ)}
variable (hca : buildCaCert p scalar cn serial secs start = .ok ca)
  (hkey : p.scheme.publicKey scalar = some key)

include hca hkey

variable {now : I64} {leafDer : Bytes}

lemma verify_under_ca (husage : p.oidFromStr ekuText = some usage) :
    verifyLeafChainsToCaUri p leafDer ca.der ekuText now = .ok uri ↔
      ∃ leaf blob bytes sig, p.certificate.decode leafDer = some leaf ∧
        leaf.signatureAlgorithm.oid = ECDSA_WITH_SHA256 ∧
        p.nameFromStr ("CN=" ++ cn) = some leaf.tbsCertificate.issuer ∧
        p.tbsCertificate.encode leaf.tbsCertificate = some blob ∧ leaf.signature.asBytes = some bytes ∧
        parseSignature p bytes = .ok sig ∧ p.scheme.verify key blob sig = true ∧
        leaf.tbsCertificate.validity.notBefore.unix ≤ now.1.toNat ∧
        now.1.toNat ≤ leaf.tbsCertificate.validity.notAfter.unix ∧ Reads p leaf.tbsCertificate usage uri := by
  obtain ⟨key', spkiDer, tbs, blob, sig, hkey', hsubject, hspkiDer, hread, -, hmade⟩ := buildCaCert_ok hca
  obtain rfl := Option.some_inj.mp (hkey.symm.trans hkey')
  rw [verifyLeafChainsToCaUri_ok hmade.decode hspkiDer hread husage, hsubject]
  simp only [Option.some_inj, eq_comm]

lemma produced_of_verified (honly : SignsOnly p scalar cn key calls)
    (husage : p.oidFromStr ekuText = some usage)
    (hverify : verifyLeafChainsToCaUri p leafDer ca.der ekuText now = .ok uri) :
    ∃ issue time r, (issue, time) ∈ calls ∧ leafRequest p issue = some r ∧ r.uri = uri ∧
      p.oidFromStr r.eku = some usage ∧
      Produced p scalar cn issue time leafDer now := by
  obtain ⟨leaf, blob, bytes, sig, hleaf, -, -, hblob, -, -, hverified, hbefore, hafter, hreads⟩ :=
    (verify_under_ca hca hkey husage).mp hverify
  obtain ⟨issue, time, issued, cert, hcall, hrun, hcert, htbs⟩ := honly.value hblob hverified
  rw [← htbs] at hreads hbefore hafter
  obtain ⟨r, info, issuer, hrequest, hinfo, husage, huri, hpart⟩ := request_of_reads hrun hcert hreads
  rw [hpart.notBefore] at hbefore
  rw [hpart.notAfter] at hafter
  exact ⟨issue, time, r, hcall, hrequest, huri, husage,
    r, issued, cert, leaf, hrequest, hrun, hcert, hleaf, htbs.symm,
    by rw [hinfo, ← htbs, hpart.key], hbefore, hafter⟩

lemma verify_issued {issuer : Name} {otherUri : String} {span : ℕ} {sig : Sig} {issued : IssuedCert}
    (hissuer : p.nameFromStr ("CN=" ++ cn) = some issuer) (husage : p.oidFromStr ekuText = some usage)
    {own : Oid} (hpart : LeafPart p info uri own issuer time span tbs)
    (hmade : MadeOf p scalar tbs blob sig issued.der) :
    verifyLeafChainsToCaUri p issued.der ca.der ekuText now = .ok otherUri ↔
      time ≤ now.1.toNat ∧ now.1.toNat ≤ time + span ∧ SignatureReadsBack p key blob sig ∧ usage = own ∧
      otherUri = uri := by
  rw [verify_under_ca hca hkey husage, ← hpart.reads, ← hpart.notAfter, ← hpart.notBefore,
    readsBack_iff hkey hmade.signed]
  constructor
  · rintro ⟨leaf, blob', bytes, sig', hleaf, -, -, hblob, hbytes, hsig, hverify, hbefore, hafter, hreads⟩
    obtain rfl := Option.some_inj.mp (hmade.decode.symm.trans hleaf)
    obtain rfl := Option.some_inj.mp (hmade.encoded.symm.trans hblob)
    cases hbytes
    exact ⟨hbefore, hafter, ⟨sig', hsig, hverify⟩, hreads⟩
  · rintro ⟨hbefore, hafter, ⟨sig', hsig, hverify⟩, hreads⟩
    exact ⟨_, blob, _, sig', hmade.decode, rfl, hissuer.trans (congrArg some hpart.issuer.symm), hmade.encoded,
      rfl, hsig, hverify, hbefore, hafter, hreads⟩

section

variable (honly : SignsOnly p scalar cn key calls)

include honly

lemma client_produced (hverify : verifyLeafChainsToCaUri p leafDer ca.der ID_KP_CLIENT_AUTH now = .ok uri) :
    (∃ csr handle serial secs time, uri = SAN_URN_PREFIX ++ handle ∧
      (.agentCert csr handle serial secs, time) ∈ calls ∧
      Produced p scalar cn (.agentCert csr handle serial secs) time leafDer now) ∨
    ∃ csr id serial secs time, uri = SAN_URN_BROKER_PREFIX ++ id ∧
      (.brokerClientCert csr id serial secs, time) ∈ calls ∧
      Produced p scalar cn (.brokerClientCert csr id serial secs) time leafDer now := by
  obtain ⟨issue, time, r, hcall, hrequest, rfl, husage, hproduced⟩ :=
    produced_of_verified hca hkey honly p.oid_clientAuth hverify
  cases issue with
  | caCert serial secs => cases hrequest
  | agentCert csr handle serial secs =>
    cases hrequest
    exact .inl ⟨csr, handle, serial, secs, time, rfl, hcall, hproduced⟩
  | brokerClientCert csr id serial secs =>
    cases hrequest
    exact .inr ⟨csr, id, serial, secs, time, rfl, hcall, hproduced⟩
  | serverLeaf pubkey id serial secs =>
    cases hrequest
    exact absurd (Option.some_inj.mp (p.oid_serverAuth.symm.trans husage)) (by decide)

lemma agent_produced {handle : String}
    (hverify : verifyLeafChainsToCa p leafDer ca.der ID_KP_CLIENT_AUTH now = .ok handle) :
    ∃ csr serial secs time, (.agentCert csr handle serial secs, time) ∈ calls ∧
      Produced p scalar cn (.agentCert csr handle serial secs) time leafDer now := by
  rcases client_produced hca hkey honly (verifyLeafChainsToCa_ok.mp hverify) with
    ⟨csr, other, serial, secs, time, huri, hcall, hproduced⟩ | ⟨csr, id, serial, secs, time, huri,
      hcall, hproduced⟩
  · have hhandle : handle = other := Option.some_inj.mp
      ((stripStart_eq_some.mpr rfl).symm.trans (stripStart_eq_some.mpr huri))
    rw [hhandle]
    exact ⟨csr, serial, secs, time, hcall, hproduced⟩
  · exact absurd huri.symm (broker_ne_agent id handle)

lemma server_produced (hverify : verifyLeafChainsToCaUri p leafDer ca.der ID_KP_SERVER_AUTH now = .ok uri) :
    ∃ pubkey id serial secs time, uri = SAN_URN_SERVER_PREFIX ++ id ∧
      (.serverLeaf pubkey id serial secs, time) ∈ calls ∧
      Produced p scalar cn (.serverLeaf pubkey id serial secs) time leafDer now := by
  obtain ⟨issue, time, r, hcall, hrequest, rfl, husage, hproduced⟩ :=
    produced_of_verified hca hkey honly p.oid_serverAuth hverify
  cases issue with
  | caCert serial secs => cases hrequest
  | agentCert | brokerClientCert =>
    cases hrequest
    exact absurd (Option.some_inj.mp (p.oid_clientAuth.symm.trans husage)) (by decide)
  | serverLeaf pubkey id serial secs =>
    cases hrequest
    exact ⟨pubkey, id, serial, secs, time, rfl, hcall, hproduced⟩

end

lemma not_agent {issued : IssuedCert} {leaf cert : Certificate} {handle : String}
    (hissue : ∀ csr handle serial secs, issue ≠ .agentCert csr handle serial secs)
    (hrun : issue.run p scalar cn time = .ok issued) (hcert : p.certificate.decode issued.der = some cert)
    (hleaf : p.certificate.decode leafDer = some leaf) (hpart : leaf.tbsCertificate = cert.tbsCertificate) :
    verifyLeafChainsToCa p leafDer ca.der ID_KP_CLIENT_AUTH now ≠ .ok handle := by
  intro hverify
  obtain ⟨leaf', _, _, _, hleaf', -, -, -, -, -, -, -, -, hreads⟩ :=
    (verify_under_ca hca hkey p.oid_clientAuth).mp (verifyLeafChainsToCa_ok.mp hverify)
  obtain rfl := Option.some_inj.mp (hleaf.symm.trans hleaf')
  rw [hpart] at hreads
  obtain ⟨r, info, issuer, hrequest, -, hown, huri, -⟩ := request_of_reads hrun hcert hreads
  cases issue with
  | caCert serial secs => cases hrequest
  | agentCert csr handle serial secs => exact hissue _ _ _ _ rfl
  | brokerClientCert csr id serial secs =>
    cases hrequest
    exact broker_ne_agent id handle huri
  | serverLeaf pubkey id serial secs =>
    cases hrequest
    exact absurd (Option.some_inj.mp (p.oid_serverAuth.symm.trans hown)) (by decide)

omit hca hkey in
variable (p) in
/-- The certificate passes the check for the role that it was issued for. -/
def AcceptedInRole (caDer der : Bytes) (now : I64) : Issue → Prop
  | .caCert _ _ => False
  | .agentCert _ handle _ _ => verifyLeafChainsToCa p der caDer ID_KP_CLIENT_AUTH now = .ok handle
  | .brokerClientCert _ id _ _ =>
    verifyLeafChainsToCaUri p der caDer ID_KP_CLIENT_AUTH now = .ok (SAN_URN_BROKER_PREFIX ++ id)
  | .serverLeaf _ id _ _ =>
    verifyLeafChainsToCaUri p der caDer ID_KP_SERVER_AUTH now = .ok (SAN_URN_SERVER_PREFIX ++ id)

omit hca hkey in
lemma acceptedInRole_iff {caDer der : Bytes} (hrequest : leafRequest p issue = some r) :
    AcceptedInRole p caDer der now issue ↔ verifyLeafChainsToCaUri p der caDer r.eku now = .ok r.uri := by
  cases issue with
  | caCert serial secs => cases hrequest
  | agentCert csr handle serial secs =>
    cases hrequest
    exact verifyLeafChainsToCa_ok
  | brokerClientCert | serverLeaf =>
    cases hrequest
    exact Iff.rfl

lemma accepted_iff {issued : IssuedCert} (hrequest : leafRequest p issue = some r)
    (hrun : issue.run p scalar cn time = .ok issued) :
    ∃ cert blob sig, p.certificate.decode issued.der = some cert ∧
      p.tbsCertificate.encode cert.tbsCertificate = some blob ∧
      p.scheme.sign scalar blob = some sig ∧
      ((∀ now : I64, time ≤ now.1.toNat → now.1.toNat ≤ time + r.secs →
        AcceptedInRole p ca.der issued.der now issue) ↔
        SignatureReadsBack p key blob sig) := by
  obtain ⟨info, issuer, usage, tbs, blob, sig, -, hissuer, husage, hpart, hmade⟩ := run_leaf hrequest hrun
  refine ⟨_, blob, sig, hmade.decode, hmade.encoded, hmade.signed, ?_⟩
  simp only [acceptedInRole_iff hrequest, verify_issued hca hkey hissuer husage hpart hmade, and_true]
  constructor
  · intro h
    have hwritten := hpart.written
    obtain ⟨-, -, hreads⟩ := h ⟨time, by omega, by omega⟩ (Int.toNat_natCast time).ge (by
      rw [Int.toNat_natCast]
      omega)
    exact hreads
  · exact fun hreads now hbefore hafter => ⟨hbefore, hafter, hreads⟩

end

/-! ### A small deployment -/

def byteSpki (key : UInt8) : SubjectPublicKeyInfo := ⟨⟨[1], none⟩, ⟨0, [key]⟩⟩

def clientAuthOid : Oid := [1, 3, 6, 1, 5, 5, 7, 3, 2]

def serverAuthOid : Oid := [1, 3, 6, 1, 5, 5, 7, 3, 1]

def smallPart (serial : UInt8) (start finish : ℕ) (key : UInt8) (extensions : List Extension) :
    TbsCertificate :=
  ⟨2, [serial], ⟨ECDSA_WITH_SHA256, none⟩, [1], ⟨⟨start, false⟩, ⟨finish, false⟩⟩, [1], byteSpki key, none,
    none, some extensions⟩

def smallLeaf (names usages : ℕ) : List Extension :=
  [⟨BASIC_CONSTRAINTS, false, []⟩, ⟨SUBJECT_ALT_NAME, false, List.replicate names 0⟩,
    ⟨EXTENDED_KEY_USAGE, false, List.replicate usages 0⟩]

def smallParts : List TbsCertificate :=
  [smallPart 1 0 1000 0 [⟨BASIC_CONSTRAINTS, false, [0]⟩, ⟨KEY_USAGE, false, []⟩], smallPart 2 100 110 1
    (smallLeaf 0 0), smallPart 3 100 900 2 (smallLeaf 1 1), smallPart 4 100 200 3 (smallLeaf 2 1)]

def smallInfo : CertReqInfo := ⟨0, [1], byteSpki 1, []⟩

def smallCertificates : Codec Bytes Certificate where
  encode cert :=
    if smallParts.contains cert.tbsCertificate ∧ cert.signatureAlgorithm = ⟨ECDSA_WITH_SHA256, none⟩ ∧
        cert.signature.unusedBits = 0 then
      some (List.replicate (smallParts.idxOf cert.tbsCertificate) 0 ++ 1 :: cert.signature.rawBytes)
    else none
  decode b := smallParts[(b.takeWhile (· = 0)).length]?.map fun part =>
    ⟨part, ⟨ECDSA_WITH_SHA256, none⟩, ⟨0, (b.dropWhile (· = 0)).tail⟩⟩
  decode_encode := by
    rintro ⟨part, algorithm, unused, bytes⟩ b h
    split_ifs at h with hcert
    obtain ⟨hpart, rfl, rfl⟩ := hcert
    obtain rfl := Option.some_inj.mp h
    have hplace := List.getElem?_idxOf (List.contains_iff_mem.mp hpart)
    simp [hplace]

def smallMessages : List Bytes := (List.range 4).map (List.replicate · 0)

/-- Keys of one byte, the CA's is 0. A signature is a bit; the DER form of the one that is made has the
given length, and read as a raw one it is the other bit. -/
def smallPki (n : ℕ) (hpos : 0 < n) (hlength : n ≤ 72) : Platform UInt8 Bool where
  scheme := {
    publicKey := fun scalar => some scalar.head
    sign := fun scalar message => if scalar.head ≠ 0 ∨ message ∈ smallMessages then some false else none
    verify := fun key message signature => !signature && (key ≠ 0 || smallMessages.contains message)
    verify_sign := by
      rintro secret key message signature ⟨⟩ hsign
      split_ifs at hsign with h
      obtain rfl := Option.some_inj.mp hsign
      simpa using h }
  certificate := smallCertificates
  tbsCertificate := .ofList 0 smallParts
  certReq := .ofList 0 [⟨smallInfo, ⟨ECDSA_WITH_SHA256, none⟩, ⟨0, List.replicate 64 2⟩⟩]
  certReqInfo := .ofList 0 [smallInfo]
  spki := {
    encode := fun info => if info.algorithm = ⟨[1], none⟩ ∧ info.subjectPublicKey.unusedBits = 0 then
      some info.subjectPublicKey.rawBytes else none
    decode := fun b => some ⟨⟨[1], none⟩, ⟨0, b⟩⟩
    decode_encode := by
      rintro ⟨algorithm, unused, bytes⟩ b h
      split_ifs at h with hinfo
      obtain ⟨rfl, rfl⟩ := hinfo
      rw [← Option.some_inj.mp h] }
  subjectAltName := .ofList 0
    [[.uniformResourceIdentifier "urn:signet:prsn:a"], [.uniformResourceIdentifier "urn:signet:server:s"],
      [.uniformResourceIdentifier "urn:signet:server:b"]]
  basicConstraints := .ofList 0 [⟨false, none⟩, ⟨true, some 0⟩]
  extendedKeyUsage := .ofList 0 [[clientAuthOid], [serverAuthOid]]
  keyUsage _ := some []
  fromPublicKeyDer b := b.head?
  toPublicKeyDer key := some [key]
  fromSec1Bytes b := b.head?
  toX963 key := [key]
  sigFromSlice b := b.head?.map (· ≠ 2)
  sigFromDer b := b.head?.map (· = 1)
  sigToBytes sig := List.replicate 64 (if sig then 3 else 2)
  sigToDer sig := List.replicate n (if sig then 1 else 0)
  nameFromStr _ := some [1]
  serialNumber := some
  oidFromStr s := if s = ID_KP_CLIENT_AUTH then some clientAuthOid else if s =
    ID_KP_SERVER_AUTH then some serverAuthOid else none
  ia5String := some
  validityFromNow now secs := if now + secs < 2 ^ 63 then some ⟨⟨now, false⟩, ⟨now + secs, false⟩⟩ else none
  critical _ _ _ := false
  leafExtensions _ _ _ := some [⟨BASIC_CONSTRAINTS, false, []⟩]
  certificateToPem _ := some ""
  sha256 b := List.Vector.replicate 32 (b.headD 0)
  b64uEncode := hexEncode
  certificate_resigned := by
    intro cert der sig h _
    obtain ⟨part, algorithm, signature⟩ := cert
    simp only [smallCertificates] at h ⊢
    split_ifs at h with hcert
    rw [if_pos ⟨hcert.1, hcert.2.1, trivial⟩]
    exact ⟨_, rfl⟩
  fromPublicKeyDer_spki := by
    rintro key der info ⟨⟩ ⟨⟩
    exact ⟨[key], rfl, rfl⟩
  fromSec1Bytes_toX963 _ := rfl
  sigFromSlice_toBytes sig := by cases sig <;> rfl
  length_sigToBytes _ := List.length_replicate
  sigFromDer_toDer sig := by
    obtain ⟨m, rfl⟩ := Nat.exists_eq_succ_of_ne_zero hpos.ne'
    cases sig <;> rfl
  length_sigToDer _ := by
    rw [List.length_replicate]
    exact hlength
  oid_clientAuth := rfl
  oid_serverAuth := rfl
  ia5String_eq _ _ h := (Option.some_inj.mp h).symm
  validity_from_now := by
    intro now secs validity h
    split_ifs at h with hlt
    obtain rfl := Option.some_inj.mp h
    exact ⟨rfl, rfl, hlt⟩
  leaf_profile := by
    rintro subject info key extensions ⟨⟩
    refine ⟨⟨_, rfl, ⟨false, none⟩, rfl, rfl⟩, ?_⟩
    intro e he
    obtain rfl := List.mem_singleton.mp he
    exact ⟨by decide, by decide⟩
  b64uEncode_injective := hexEncode_injective

def zeroScalar : Scalar := List.Vector.replicate 32 0

def smallIssued (n place : ℕ) (serial : UInt8) : IssuedCert :=
  ⟨List.replicate place 0 ++ 1 :: List.replicate n 0, "", hexEncode [serial],
    hexEncode (List.Vector.replicate 32 (if place = 0 then 1 else 0)).toList⟩

def smallCalls : Set (Issue × ℕ) :=
  {(.caCert [1] 1000, 0), (.agentCert [] "a" [2] 10, 100), (.serverLeaf [2] "s" [3] 800, 100),
    (.serverLeaf [3] "b" [4] 100, 100)}

section

variable (n : ℕ) (hpos : 0 < n) (hlength : n ≤ 72)

lemma small_ca : Issue.run (smallPki n hpos hlength) zeroScalar "ca" 0 (.caCert [1] 1000) =
    .ok (smallIssued n 0 1) := rfl

lemma small_agent : Issue.run (smallPki n hpos hlength) zeroScalar "ca" 100 (.agentCert [] "a" [2] 10) =
    .ok (smallIssued n 1 2) := rfl

lemma small_server : Issue.run (smallPki n hpos hlength) zeroScalar "ca" 100 (.serverLeaf [2] "s" [3] 800) =
    .ok (smallIssued n 2 3) := rfl

lemma small_broker : Issue.run (smallPki n hpos hlength) zeroScalar "ca" 100 (.serverLeaf [3] "b" [4] 100) =
    .ok (smallIssued n 3 4) := rfl

lemma small_signsOnly : SignsOnly (smallPki n hpos hlength) zeroScalar "ca" 0 smallCalls := by
  intro message signature hverify
  have hmem : message ∈ smallMessages := by
    simpa [smallPki] using (Bool.and_eq_true_iff.mp hverify).2
  obtain ⟨place, hplace, rfl⟩ := List.mem_map.mp hmem
  have hlt := List.mem_range.mp hplace
  interval_cases place
  · exact ⟨_, ⟨_, _, _, _, .inl rfl, small_ca n hpos hlength, rfl, rfl⟩, rfl⟩
  · exact ⟨_, ⟨_, _, _, _, .inr (.inl rfl), small_agent n hpos hlength, rfl, rfl⟩, rfl⟩
  · exact ⟨_, ⟨_, _, _, _, .inr (.inr (.inl rfl)), small_server n hpos hlength, rfl, rfl⟩, rfl⟩
  · exact ⟨_, ⟨_, _, _, _, .inr (.inr (.inr rfl)), small_broker n hpos hlength, rfl, rfl⟩, rfl⟩

end

/-- A certificate is accepted only in the role, under the name, over the key and in the validity that
it was issued for; as an agent, nothing else is. Each leaf is accepted in its role throughout its
validity exactly if its signature reads back. -/
theorem certificates_keep_roles (p : Platform Key Sig) (scalar : Scalar) (cn : String) (key : Key)
    (ca : IssuedCert) (serial : Bytes) (secs start : ℕ) (calls : Set (Issue × ℕ))
    (hca : buildCaCert p scalar cn serial secs start = .ok ca) (hkey : p.scheme.publicKey scalar = some key)
    (honly : SignsOnly p scalar cn key calls) :
    (∀ leafDer handle now, verifyLeafChainsToCa p leafDer ca.der ID_KP_CLIENT_AUTH now = .ok handle →
      ∃ csr serial secs time, (.agentCert csr handle serial secs, time) ∈ calls ∧
        Produced p scalar cn (.agentCert csr handle serial secs) time leafDer now) ∧
    (∀ leafDer uri now, verifyLeafChainsToCaUri p leafDer ca.der ID_KP_SERVER_AUTH now = .ok uri →
      ∃ pubkey id serial secs time, uri = SAN_URN_SERVER_PREFIX ++ id ∧
        (.serverLeaf pubkey id serial secs, time) ∈ calls ∧
        Produced p scalar cn (.serverLeaf pubkey id serial secs) time leafDer now) ∧
    (∀ leafDer uri now, verifyLeafChainsToCaUri p leafDer ca.der ID_KP_CLIENT_AUTH now = .ok uri →
      (∃ csr handle serial secs time, uri = SAN_URN_PREFIX ++ handle ∧
        (.agentCert csr handle serial secs, time) ∈ calls ∧
        Produced p scalar cn (.agentCert csr handle serial secs) time leafDer now) ∨
      ∃ csr id serial secs time, uri = SAN_URN_BROKER_PREFIX ++ id ∧
        (.brokerClientCert csr id serial secs, time) ∈ calls ∧
        Produced p scalar cn (.brokerClientCert csr id serial secs) time leafDer now) ∧
    (∀ (issue : Issue) time issued leafDer leaf cert now handle,
      (∀ csr handle serial secs, issue ≠ .agentCert csr handle serial secs) →
      issue.run p scalar cn time = .ok issued → p.certificate.decode issued.der = some cert →
      p.certificate.decode leafDer = some leaf → leaf.tbsCertificate = cert.tbsCertificate →
      verifyLeafChainsToCa p leafDer ca.der ID_KP_CLIENT_AUTH now ≠ .ok handle) ∧
    ∀ issue r time issued, leafRequest p issue = some r → issue.run p scalar cn time = .ok issued →
      ∃ cert blob sig, p.certificate.decode issued.der = some cert ∧
        p.tbsCertificate.encode cert.tbsCertificate = some blob ∧
        p.scheme.sign scalar blob = some sig ∧
        ((∀ now : I64, time ≤ now.1.toNat → now.1.toNat ≤ time + r.secs →
          AcceptedInRole p ca.der issued.der now issue) ↔
          SignatureReadsBack p key blob sig) :=
  ⟨fun _ _ _ h => agent_produced hca hkey honly h, fun _ _ _ h => server_produced hca hkey honly h,
    fun _ _ _ h => client_produced hca hkey honly h,
    fun _ _ _ _ _ _ _ _ hissue hrun hcert hleaf hpart => not_agent hca hkey hissue hrun hcert hleaf hpart,
    fun _ _ _ _ hrequest hrun => accepted_iff hca hkey hrequest hrun⟩

def usualPki : Platform UInt8 Bool := smallPki 70 (by decide) (by decide)

theorem small_agent_keeps_role :
    verifyLeafChainsToCa usualPki (smallIssued 70 1 2).der (smallIssued 70 0 1).der ID_KP_CLIENT_AUTH
      ⟨105, by decide⟩ = .ok "a" ∧
      ∃ csr serial secs time, (.agentCert csr "a" serial secs, time) ∈ smallCalls ∧
        Produced usualPki zeroScalar "ca" (.agentCert csr "a" serial secs) time (smallIssued 70 1 2).der
          ⟨105, by decide⟩ := by
  have hverify : verifyLeafChainsToCa usualPki (smallIssued 70 1 2).der
      (smallIssued 70 0 1).der ID_KP_CLIENT_AUTH ⟨105, by decide⟩ = .ok "a" := rfl
  refine ⟨hverify, ?_⟩
  exact (certificates_keep_roles usualPki zeroScalar "ca" 0 (smallIssued 70 0 1) [1] 1000 0 smallCalls
    (small_ca 70 _ _) rfl (small_signsOnly 70 _ _)).1 _ _ _ hverify

def shortPki : Platform UInt8 Bool := smallPki 64 (by decide) (by decide)

/-- A leaf whose DER signature is 64 bytes long is refused in its role and in its validity. -/
theorem short_signature_refused :
    buildCaCert shortPki zeroScalar "ca" [1] 1000 0 = .ok (smallIssued 64 0 1) ∧
    SignsOnly shortPki zeroScalar "ca" 0 smallCalls ∧
    issueAgentCert shortPki [] "a" zeroScalar "ca" [2] 10 100 = .ok (smallIssued 64 1 2) ∧
    verifyLeafChainsToCa shortPki (smallIssued 64 1 2).der (smallIssued 64 0 1).der ID_KP_CLIENT_AUTH
      ⟨105, by decide⟩ = .error .signatureInvalid :=
  ⟨rfl, small_signsOnly 64 _ _, rfl, rfl⟩

end SignetDrive.Proofs
