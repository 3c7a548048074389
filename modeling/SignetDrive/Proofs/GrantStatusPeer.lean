import SignetDrive.Proofs.GarnetPki

/-!
# Who can answer grant-status

The server certificates of brokers are issued by the same function as the one of the deployment's
server.
-/

namespace SignetDrive.Proofs

open Client Signed Pki

variable {Key Sig Peer : Type} {p : Platform Key Sig} {scalar : Scalar} {cn : String}

variable (p) in
/-- The public key info of a certificate. -/
def leafSpkiDer (der : Bytes) : Option Bytes := do
  let cert ← p.certificate.decode der
  p.spki.encode cert.tbsCertificate.subjectPublicKeyInfo

variable (p) in
/-- The public key of a certificate. -/
def leafKey (der : Bytes) : Option Key := (leafSpkiDer p der).bind p.fromPublicKeyDer

variable (p) in
/-- The peer presents a certificate that the verifier accepts, and holds its key. -/
def AcceptsPeer (holds : Peer → Key → Prop) (verifier : K2ServerCertVerifier) (now : U64)
    (peer : Peer) : Prop :=
  ∃ endEntity intermediates key, verifier.verifyServerCert p endEntity intermediates now = .ok () ∧
    leafKey p endEntity = some key ∧ holds peer key

variable {intermediates : List Bytes} {now : U64} {verifier : K2ServerCertVerifier}
  {info : SubjectPublicKeyInfo} {holds : Peer → Key → Prop}

lemma verifyServerCert_ok {endEntity : Bytes} :
    verifier.verifyServerCert p endEntity intermediates now = .ok () ↔
      intermediates = [] ∧
      (∃ uri, verifyLeafChainsToCaUri p endEntity verifier.caAnchorDer ID_KP_SERVER_AUTH now.asI64 = .ok uri) ∧
      ∀ pin, verifier.pinnedBrokerSpki = some pin → certSpkiSha256B64url p endEntity = .ok pin := by
  obtain ⟨caDer, pinned⟩ := verifier
  simp only [K2ServerCertVerifier.verifyServerCert, except_bind_ok, ensure_ok, except_mapError_ok]
  cases pinned with
  | none =>
    constructor
    · rintro ⟨-, hdepth, uri, huri, -⟩
      exact ⟨hdepth, ⟨uri, huri⟩, fun _ h => by cases h⟩
    · rintro ⟨hdepth, ⟨uri, huri⟩, -⟩
      exact ⟨(), hdepth, uri, huri, rfl⟩
  | some pin =>
    simp only [except_bind_ok, except_mapError_ok, ensure_ok, Option.some_inj, forall_eq']
    constructor
    · rintro ⟨-, hdepth, uri, huri, presented, hpresented, rfl⟩
      exact ⟨hdepth, ⟨uri, huri⟩, hpresented⟩
    · rintro ⟨hdepth, ⟨uri, huri⟩, hpresented⟩
      exact ⟨(), hdepth, uri, huri, pin, hpresented, rfl⟩

lemma serverSpki_ok {pubkey : Bytes} (h : serverSpki p pubkey = .ok info) :
    ∃ key der, p.fromSec1Bytes pubkey = some key ∧ p.spki.encode info = some der ∧
      p.fromPublicKeyDer der = some key := by
  simp only [serverSpki, except_bind_ok, okOr_ok] at h
  obtain ⟨key, hkey, keyDer, hkeyDer, hinfo⟩ := h
  obtain ⟨der, hder, hread⟩ := p.fromPublicKeyDer_spki _ _ _ hkeyDer hinfo
  exact ⟨key, der, hkey, hder, hread⟩

lemma leafKey_of_decode {der spkiDer : Bytes} {cert : Certificate} {key : Key}
    (hcert : p.certificate.decode der = some cert)
    (hspki : p.spki.encode cert.tbsCertificate.subjectPublicKeyInfo = some spkiDer)
    (hkey : p.fromPublicKeyDer spkiDer = some key) : leafKey p der = some key := by
  rw [leafKey, leafSpkiDer, hcert, Option.bind_eq_bind, Option.bind_some, hspki, Option.bind_some, hkey]

section

variable {key : Key} {ca : IssuedCert} {serial : Bytes} {secs start : ℕ} {calls : Set (Issue × ℕ)}
variable (hca : buildCaCert p scalar cn serial secs start = .ok ca)
  (hkey : p.scheme.publicKey scalar = some key)

include hca hkey

lemma resigned_accepted {issuer : Name} {uri ekuText : String} {usage : Oid} {time span : ℕ}
    {tbs : TbsCertificate} {blob : Bytes} {sig : Sig} {der : Bytes} {now : I64}
    (hissuer : p.nameFromStr ("CN=" ++ cn) = some issuer) (husage : p.oidFromStr ekuText = some usage)
    (hpart : LeafPart p info uri usage issuer time span tbs) (hmade : MadeOf p scalar tbs blob sig der)
    (hbefore : time ≤ now.1.toNat) (hafter : now.1.toNat ≤ time + span) :
    ∃ der' cert, p.certificate.decode der' = some cert ∧ cert.tbsCertificate = tbs ∧
      verifyLeafChainsToCaUri p der' ca.der ekuText now = .ok uri := by
  have hlength := p.length_sigToBytes sig
  obtain ⟨der', hder'⟩ := p.certificate_resigned _ _ (p.sigToBytes sig) hmade.certificate (by omega)
  have hdecode := p.certificate.decode_encode _ _ hder'
  have hparse : parseSignature p (p.sigToBytes sig) = .ok sig := by
    rw [parseSignature, if_pos hlength, p.sigFromSlice_toBytes]
    rfl
  refine ⟨der', _, hdecode, rfl, (verify_under_ca hca hkey husage).mpr ?_⟩
  exact ⟨_, blob, _, sig, hdecode, rfl, hissuer.trans (congrArg some hpart.issuer.symm), hmade.encoded, rfl,
    hparse, p.scheme.verify_sign _ _ _ _ hkey hmade.signed, hpart.notBefore.trans_le hbefore,
    hafter.trans_eq hpart.notAfter.symm, (hpart.reads _ _).mpr ⟨rfl, rfl⟩⟩

lemma acceptsPeer_of_issued {pubkey : Bytes} {id : String} {serial : Bytes} {secs time : ℕ}
    {issued : IssuedCert} {own : Key} {peer : Peer}
    (hrun : buildServerLeaf p pubkey id scalar cn serial secs time = .ok issued)
    (hown : p.fromSec1Bytes pubkey = some own) (hbefore : time ≤ now.asI64.1.toNat)
    (hafter : now.asI64.1.toNat ≤ time + secs) (hpeer : holds peer own) :
    AcceptsPeer p holds (k2PinnedClientConfig ca.der) now peer := by
  have hrequest : leafRequest p (.serverLeaf pubkey id serial secs) =
      some ⟨serverSpki p pubkey, SAN_URN_SERVER_PREFIX ++ id, ID_KP_SERVER_AUTH, secs⟩ := rfl
  obtain ⟨info, issuer, usage, tbs, blob, sig, hinfo, hissuer, husage, hpart, hmade⟩ := run_leaf hrequest hrun
  obtain ⟨der, cert, hdecode, rfl, hverify⟩ :=
    resigned_accepted hca hkey hissuer husage hpart hmade hbefore hafter
  obtain ⟨key', spkiDer, hkey', hspkiDer, hread⟩ := serverSpki_ok hinfo
  obtain rfl := Option.some_inj.mp (hown.symm.trans hkey')
  rw [← hpart.key] at hspkiDer
  exact ⟨der, [], own, verifyServerCert_ok.mpr ⟨rfl, ⟨_, hverify⟩, nofun⟩,
    leafKey_of_decode hdecode hspkiDer hread, hpeer⟩

lemma issued_of_acceptsPeer (honly : SignsOnly p scalar cn key calls) {peer : Peer}
    (h : AcceptsPeer p holds (k2PinnedClientConfig ca.der) now peer) :
    ∃ pubkey id serial secs time issued own, (.serverLeaf pubkey id serial secs, time) ∈ calls ∧
      buildServerLeaf p pubkey id scalar cn serial secs time = .ok issued ∧ time ≤ now.asI64.1.toNat ∧
      now.asI64.1.toNat ≤ time + secs ∧ p.fromSec1Bytes pubkey = some own ∧ holds peer own := by
  obtain ⟨endEntity, intermediates, own, hverify, hown, hholds⟩ := h
  obtain ⟨-, ⟨uri, huri⟩, -⟩ := verifyServerCert_ok.mp hverify
  obtain ⟨pubkey, id, serial, secs, time, -, hcall, hproduced⟩ := server_produced hca hkey honly huri
  obtain ⟨r, issued, cert, leaf, hrequest, hrun, hcert, hleaf, htbs, hinfo, hbefore, hafter⟩ := hproduced
  cases hrequest
  obtain ⟨key', spkiDer, hkey', hspkiDer, hread⟩ := serverSpki_ok hinfo
  obtain rfl := Option.some_inj.mp (hown.symm.trans (leafKey_of_decode hleaf hspkiDer hread))
  exact ⟨pubkey, id, serial, secs, time, issued, own, hcall, hrun, hbefore, hafter, hkey', hholds⟩

end

lemma pinned_key {pin : String} {endEntity pinned : Bytes} {own : Key}
    (hpin : verifier.pinnedBrokerSpki = some pin) (hpinned : pin = p.b64uEncode (p.sha256 pinned).toList)
    (hsha : ∀ der, leafSpkiDer p endEntity = some der → p.sha256 der = p.sha256 pinned → der = pinned)
    (hverify : verifier.verifyServerCert p endEntity intermediates now = .ok ())
    (hown : leafKey p endEntity = some own) : p.fromPublicKeyDer pinned = some own := by
  obtain ⟨-, -, hmatch⟩ := verifyServerCert_ok.mp hverify
  have hpresented := hmatch pin hpin
  simp only [certSpkiSha256B64url, except_bind_ok, okOr_ok, except_pure_ok] at hpresented
  obtain ⟨cert, hcert, der, hder, hhash⟩ := hpresented
  have hspki : leafSpkiDer p endEntity = some der := by
    rw [leafSpkiDer, hcert]
    exact hder
  have hsame : p.sha256 der = p.sha256 pinned :=
    List.Vector.toList_injective (p.b64uEncode_injective (hhash.trans hpinned))
  rw [← hsha der hspki hsame]
  rw [leafKey, hspki, Option.bind_some] at hown
  exact hown

def holdsOwn (peer key : UInt8) : Prop := peer = key

/-- The client of grant-status accepts only the deployment's server exactly if no server certificate
over another key is valid. With a pin, who is accepted holds the key that was pinned. -/
theorem only_server_answers_iff (p : Platform Key Sig) (scalar : Scalar) (cn : String) (key : Key)
    (ca : IssuedCert) (serial : Bytes) (secs start : ℕ) (calls : Set (Issue × ℕ)) (holds : Peer → Key → Prop)
    (server : Peer) (serverKey : Key) (now : U64) (hca : buildCaCert p scalar cn serial secs start = .ok ca)
    (hkey : p.scheme.publicKey scalar = some key) (honly : SignsOnly p scalar cn key calls)
    (hserver : ∀ peer, holds peer serverKey ↔ peer = server)
    (hbrokers : ∀ pubkey id serial secs time own, (.serverLeaf pubkey id serial secs, time) ∈ calls →
      p.fromSec1Bytes pubkey = some own → own ≠ serverKey → ∃ broker, broker ≠ server ∧ holds broker own) :
    ((∀ peer, AcceptsPeer p holds (k2PinnedClientConfig ca.der) now peer → peer = server) ↔
      ∀ pubkey id serial secs time issued, (.serverLeaf pubkey id serial secs, time) ∈ calls →
        buildServerLeaf p pubkey id scalar cn serial secs time = .ok issued → time ≤ now.asI64.1.toNat →
        now.asI64.1.toNat ≤ time + secs → p.fromSec1Bytes pubkey = some serverKey) ∧
    ∀ pin pinned endEntity intermediates own peer,
      (brokerPinnedClientConfig ca.der pin).verifyServerCert p endEntity intermediates now = .ok () →
      leafKey p endEntity = some own → holds peer own → pin = p.b64uEncode (p.sha256 pinned).toList →
      (∀ der, leafSpkiDer p endEntity = some der → p.sha256 der = p.sha256 pinned → der = pinned) →
      ∃ pinnedKey, p.fromPublicKeyDer pinned = some pinnedKey ∧ holds peer pinnedKey := by
  constructor
  · constructor
    · intro honlyServer pubkey id serial secs time issued hcall hrun hbefore hafter
      obtain ⟨info, hinfo, -⟩ := except_bind_ok.mp hrun
      obtain ⟨own, -, hown, -⟩ := serverSpki_ok hinfo
      by_contra hother
      have hne : own ≠ serverKey := by
        rintro rfl
        exact hother hown
      obtain ⟨broker, hbroker, hholds⟩ := hbrokers _ _ _ _ _ _ hcall hown hne
      exact hbroker (honlyServer broker (acceptsPeer_of_issued hca hkey hrun hown hbefore hafter hholds))
    · intro hvalid peer haccepts
      obtain ⟨pubkey, id, serial, secs, time, issued, own, hcall, hrun, hbefore, hafter, hown, hholds⟩ :=
        issued_of_acceptsPeer hca hkey honly haccepts
      have hsame := hvalid _ _ _ _ _ _ hcall hrun hbefore hafter
      obtain rfl := Option.some_inj.mp (hown.symm.trans hsame)
      exact (hserver peer).mp hholds
  · intro pin pinned endEntity intermediates own peer hverify hown hholds hpinned hsha
    exact ⟨own, pinned_key rfl hpinned hsha hverify hown, hholds⟩

/-- When the certificate of the broker has expired, the server is accepted and nobody else is. -/
theorem server_answers_after_expiry :
    AcceptsPeer usualPki holdsOwn (k2PinnedClientConfig (smallIssued 70 0 1).der) ⟨500, by decide⟩ 2 ∧
      ∀ peer, AcceptsPeer usualPki holdsOwn (k2PinnedClientConfig (smallIssued 70 0 1).der)
        ⟨500, by decide⟩ peer → peer = 2 := by
  refine ⟨⟨(smallIssued 70 2 3).der, [], 2, rfl, rfl, rfl⟩, ?_⟩
  refine (only_server_answers_iff usualPki zeroScalar "ca" 0 (smallIssued 70 0 1) [1] 1000 0 smallCalls holdsOwn
    2 2 ⟨500, by decide⟩ (small_ca 70 _ _) rfl (small_signsOnly 70 _ _) (fun _ => Iff.rfl)
    (fun _ _ _ _ _ own _ _ hne => ⟨own, hne, rfl⟩)).1.mpr ?_
  rintro pubkey id serial secs time issued (hcall | hcall | hcall | hcall) - - hafter
  · cases hcall
  · cases hcall
  · cases hcall
    rfl
  · cases hcall
    exact absurd hafter (by decide)

/-- While the certificate of the broker is valid, the broker is accepted as the server. -/
theorem broker_answers_as_server :
    SignsOnly usualPki zeroScalar "ca" 0 smallCalls ∧ (∀ peer, holdsOwn peer 2 ↔ peer = 2) ∧
    buildCaCert usualPki zeroScalar "ca" [1] 1000 0 = .ok (smallIssued 70 0 1) ∧
    buildServerLeaf usualPki [3] "b" zeroScalar "ca" [4] 100 100 = .ok (smallIssued 70 3 4) ∧
    AcceptsPeer usualPki holdsOwn (k2PinnedClientConfig (smallIssued 70 0 1).der) ⟨150, by decide⟩ 3 :=
  ⟨small_signsOnly 70 _ _, fun _ => Iff.rfl, rfl, rfl, (smallIssued 70 3 4).der, [], 3, rfl, rfl, rfl⟩

end SignetDrive.Proofs
