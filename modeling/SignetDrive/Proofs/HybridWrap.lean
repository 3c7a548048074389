import SignetDrive.Model.HybridWrap
import SignetDrive.Proofs.OwnerWatch

/-!
# A hybrid wrap opens only in its own context

Every field of the info has a length before it, and all but the last have a fixed length after the
checks. So equal infos have equal fields.
-/

namespace SignetDrive.Proofs
open Client

lemma pushField_append_inj {a b r r' : Bytes} (hlen : a.length = b.length)
    (h : pushField a ++ r = pushField b ++ r') : a = b ∧ r = r' := by
  rw [pushField, pushField, List.append_assoc, List.append_assoc] at h
  obtain ⟨-, h⟩ := List.append_inj h rfl
  exact List.append_inj h hlen

lemma length_pushField (data : Bytes) : (pushField data).length = 4 + data.length := by
  rw [pushField, List.length_append]
  rfl

lemma pushField_injective : Function.Injective pushField := by
  intro a b h
  have hlen := congrArg List.length h
  rw [length_pushField, length_pushField] at hlen
  rw [← List.append_nil (pushField a), ← List.append_nil (pushField b)] at h
  exact (pushField_append_inj (by omega) h).1

lemma buildFixedInfo_inj {epk epk' ek ek' rkEc rkEc' rkPq rkPq' partyV partyV' : Bytes}
    (hepk : epk.length = epk'.length) (hek : ek.length = ek'.length) (hrkEc : rkEc.length = rkEc'.length)
    (hrkPq : rkPq.length = rkPq'.length)
    (h : buildFixedInfo epk ek rkEc rkPq partyV = buildFixedInfo epk' ek' rkEc' rkPq' partyV') :
    epk = epk' ∧ ek = ek' ∧ rkEc = rkEc' ∧ rkPq = rkPq' ∧ partyV = partyV' := by
  simp only [buildFixedInfo, List.append_assoc] at h
  obtain ⟨-, h⟩ := pushField_append_inj rfl h
  obtain ⟨hepk, h⟩ := pushField_append_inj hepk h
  obtain ⟨hek, h⟩ := pushField_append_inj hek h
  obtain ⟨hrkEc, h⟩ := pushField_append_inj hrkEc h
  obtain ⟨hrkPq, h⟩ := pushField_append_inj hrkPq h
  obtain ⟨-, h⟩ := pushField_append_inj rfl h
  exact ⟨hepk, hek, hrkEc, hrkPq, pushField_injective h⟩

lemma length_uncompressed (point : P256Point) : point.uncompressed.length = 65 := by
  rw [P256Point.uncompressed, List.length_append, List.length_cons, List.Vector.toList_length,
    List.Vector.toList_length]

lemma uncompressed_injective : Function.Injective P256Point.uncompressed := by
  rintro ⟨x, y⟩ ⟨x', y'⟩ h
  obtain ⟨hx, hy⟩ := List.append_inj (List.cons.inj h).2
    (by rw [List.Vector.toList_length, List.Vector.toList_length])
  have hx : x = x' := List.Vector.toList_injective hx
  have hy : y = y' := List.Vector.toList_injective hy
  rw [hx, hy]

section

variable {c : WrapCrypto}

@[simp] lemma base64Url_roundTrip (bytes : Bytes) : c.base64UrlDecode (c.base64UrlEncode bytes) = some bytes :=
  (c.base64UrlDecode_eq_some _ _).mpr rfl

lemma toVector_toList {len : ℕ} (v : List.Vector UInt8 len) : toVector len v.toList = some v := by
  rw [toVector, dif_pos v.toList_length]
  rfl

lemma x963FromEpk_epkJwk {point : P256Point} (h : c.fromSec1Bytes point.uncompressed) :
    x963FromEpk c (epkJwk c point) = .ok point.uncompressed := by
  simp only [x963FromEpk, epkJwk, except_bind_ok, ensure_ok, okOr_ok, except_pure_ok,
    base64Url_roundTrip, Option.some_inj]
  exact ⟨(), ⟨trivial, trivial⟩, _, rfl, _, rfl, (), ⟨point.x.toList_length, point.y.toList_length⟩, (), h, rfl⟩

lemma x963FromEpk_ok {epk : EpkJwk} {bytes : Bytes} (h : x963FromEpk c epk = .ok bytes) :
    ∃ point, bytes = P256Point.uncompressed point ∧ epk = epkJwk c point := by
  simp only [x963FromEpk, except_bind_ok, ensure_ok, okOr_ok, except_pure_ok,
    c.base64UrlDecode_eq_some] at h
  obtain ⟨-, ⟨hkty, hcrv⟩, x, hx, y, hy, -, ⟨hxlen, hylen⟩, -, -, rfl⟩ := h
  refine ⟨⟨⟨x, hxlen⟩, ⟨y, hylen⟩⟩, rfl, ?_⟩
  cases epk
  rw [EpkJwk.mk.injEq]
  exact ⟨hkty, hcrv, hx, hy⟩

lemma validateRecipientKeys_ok {rkEc rkPq : Bytes} (h : validateRecipientKeys c rkEc rkPq = .ok ()) :
    rkEc.length = 65 ∧ rkPq.length = MLKEM1024_EK_LEN := by
  simp only [validateRecipientKeys, except_bind_ok, ensure_ok] at h
  obtain ⟨-, ⟨hec, -⟩, -, -, hpq⟩ := h
  exact ⟨hec, hpq⟩

@[ext] structure KdfInput where
  ikm : Bytes
  info : Bytes

variable (c) in
def KdfInput.kek (input : KdfInput) : Option Dek := c.hkdfExpand input.ikm [] input.info 32

/-- What the key that wraps is derived from. -/
def kdfInput (zEcdh zMlkem : List.Vector UInt8 32) (epk ek rkEc rkPq partyV : Bytes) : KdfInput :=
  ⟨zEcdh.toList ++ zMlkem.toList, buildFixedInfo epk ek rkEc rkPq partyV⟩

variable {zEcdh zMlkem : List.Vector UInt8 32} {env : HybridWrapEnvelope}

variable {kek : Dek}

lemma contentWrapKek_ok {epk ek rkEc rkPq partyV : Bytes} :
    contentWrapKek c zEcdh zMlkem (buildFixedInfo epk ek rkEc rkPq partyV) = .ok kek ↔
      (kdfInput zEcdh zMlkem epk ek rkEc rkPq partyV).kek c = some kek := by
  simp only [contentWrapKek, hkdfSha256, except_bind_ok, okOr_ok, except_pure_ok]
  constructor
  · rintro ⟨-, ⟨okm, hokm, rfl⟩, h⟩
    rw [toVector_toList] at h
    exact hokm.trans h
  · intro h
    exact ⟨_, ⟨kek, h, rfl⟩, toVector_toList kek⟩

lemma kdfInput_inj {zEcdh zEcdh' zMlkem zMlkem' : List.Vector UInt8 32}
    {epk epk' ek ek' rkEc rkEc' rkPq rkPq' partyV partyV' : Bytes}
    (hepk : epk.length = epk'.length) (hek : ek.length = ek'.length) (hrkEc : rkEc.length = rkEc'.length)
    (hrkPq : rkPq.length = rkPq'.length)
    (h : kdfInput zEcdh zMlkem epk ek rkEc rkPq partyV = kdfInput zEcdh' zMlkem' epk' ek' rkEc' rkPq' partyV') :
    (zEcdh = zEcdh' ∧ zMlkem = zMlkem') ∧
      epk = epk' ∧ ek = ek' ∧ rkEc = rkEc' ∧ rkPq = rkPq' ∧ partyV = partyV' := by
  obtain ⟨hikm, hinfo⟩ := KdfInput.mk.inj h
  obtain ⟨hz, hz'⟩ := List.append_inj hikm (by rw [List.Vector.toList_length, List.Vector.toList_length])
  exact ⟨⟨List.Vector.toList_injective hz, List.Vector.toList_injective hz'⟩,
    buildFixedInfo_inj hepk hek hrkEc hrkPq hinfo⟩

lemma keywrapWrap_ok {keyData wk : Bytes} (h : keywrapWrap c kek keyData = .ok wk) :
    16 ≤ keyData.length ∧ keyData.length % 8 = 0 ∧ wk.length = keyData.length + 8 ∧
      (c.kwUnwrap kek wk).map List.Vector.toList = some keyData := by
  simp only [keywrapWrap, except_bind_ok, ensure_ok, okOr_ok, except_pure_ok] at h
  obtain ⟨-, ⟨hlen, hmod⟩, out, hout, rfl⟩ := h
  exact ⟨hlen, hmod, out.toList_length, c.kwUnwrap_kwWrap kek keyData out hout⟩

lemma keywrapUnwrap_ok {wrapped bytes : Bytes} (h : keywrapUnwrap c kek wrapped = .ok bytes) :
    (c.kwUnwrap kek wrapped).map List.Vector.toList = some bytes := by
  simp only [keywrapUnwrap, except_bind_ok, ensure_ok, okOr_ok, except_pure_ok] at h
  obtain ⟨-, -, out, hout, rfl⟩ := h
  rw [hout, Option.map_some]

lemma keywrapUnwrap_of_wrap {keyData wk : Bytes} (h : keywrapWrap c kek keyData = .ok wk) :
    keywrapUnwrap c kek wk = .ok keyData := by
  obtain ⟨hlen, hmod, hwk, hunwrap⟩ := keywrapWrap_ok h
  obtain ⟨out, hout, hkey⟩ := Option.map_eq_some_iff.mp hunwrap
  simp only [keywrapUnwrap, except_bind_ok, ensure_ok, okOr_ok, except_pure_ok]
  exact ⟨(), ⟨by omega, by omega⟩, out, hout, hkey⟩

lemma wrapFromSecrets_ok {epkX963 ek rkEc rkPq partyV : Bytes} {key : Dek}
    (h : wrapFromSecrets c zEcdh zMlkem epkX963 ek rkEc rkPq key partyV = .ok env) :
    validateRecipientKeys c rkEc rkPq = .ok () ∧ validatePartyV partyV = .ok () ∧ ek.length = MLKEM1024_CT_LEN ∧
      c.fromSec1Bytes epkX963 ∧ ∃ kek wk,
        (kdfInput zEcdh zMlkem (c.sec1Point epkX963).uncompressed ek rkEc rkPq partyV).kek c = some kek ∧
        keywrapWrap c kek key.toList = .ok wk ∧ env.alg = HYBRID_ALG.asJose ∧
        env.epk = epkJwk c (c.sec1Point epkX963) ∧ env.ek = c.base64UrlEncode ek ∧
        env.wk = c.base64UrlEncode wk := by
  simp only [wrapFromSecrets, p256Pub, except_bind_ok, ensure_ok, except_pure_ok, contentWrapKek_ok] at h
  obtain ⟨_, hkeys, _, hparty, -, hek, -, ⟨-, hepk, rfl⟩, kek, hkek, wk, hwk, rfp, -, rfl⟩ := h
  exact ⟨hkeys, hparty, hek, hepk, kek, wk, hkek, hwk, rfl, rfl, rfl, rfl⟩

lemma fromJose_asJose (alg : AlgId) : AlgId.fromJose alg.asJose = .ok alg := by
  cases alg <;> rfl

lemma unwrapWithSharedSecrets_ok
    {rkEc rkPq partyV : Bytes} {key : Dek}
    (h : unwrapWithSharedSecrets c zEcdh zMlkem env rkEc rkPq partyV = .ok key) :
    validateRecipientKeys c rkEc rkPq = .ok () ∧ ∃ point ek kek wrapped,
      x963FromEpk c env.epk = .ok (P256Point.uncompressed point) ∧ env.epk = epkJwk c point ∧
      env.ek = c.base64UrlEncode ek ∧ ek.length = MLKEM1024_CT_LEN ∧
      (kdfInput zEcdh zMlkem point.uncompressed ek rkEc rkPq partyV).kek c = some kek ∧
      env.wk = c.base64UrlEncode wrapped ∧
      (c.kwUnwrap kek wrapped).map List.Vector.toList = some key.toList := by
  simp only [unwrapWithSharedSecrets, fixed32, except_bind_ok, ensure_ok, okOr_ok, contentWrapKek_ok,
    c.base64UrlDecode_eq_some] at h
  obtain ⟨-, -, -, -, _, hkeys, -, -, epk, hepk, ek, hek, -, hlen, kek, hkek, wrapped, hwrapped, bytes, hbytes,
    hkey⟩ := h
  obtain ⟨point, rfl, hpoint⟩ := x963FromEpk_ok hepk
  rw [toVector_eq_some hkey] at hbytes
  exact ⟨hkeys, point, ek, kek, wrapped, hepk, hpoint, hek, hlen, hkek, hwrapped, keywrapUnwrap_ok hbytes⟩

lemma unwrap_of_wrap {epkX963 ek rkEc rkPq partyV : Bytes} {key : Dek}
    (h : wrapFromSecrets c zEcdh zMlkem epkX963 ek rkEc rkPq key partyV = .ok env) :
    unwrapWithSharedSecrets c zEcdh zMlkem env rkEc rkPq partyV = .ok key := by
  obtain ⟨hkeys, hparty, hek, hepk, kek, wk, hkek, hwk, halg, hjwk, henv, hwkText⟩ := wrapFromSecrets_ok h
  simp only [unwrapWithSharedSecrets, fixed32, except_bind_ok, ensure_ok, okOr_ok, contentWrapKek_ok,
    halg, hjwk, henv, hwkText, fromJose_asJose, base64Url_roundTrip,
    x963FromEpk_epkJwk (c.fromSec1Bytes_uncompressed _ hepk)]
  exact ⟨HYBRID_ALG, rfl, (), rfl, (), hkeys, (), hparty, _, rfl, ek, rfl, (), hek, kek, hkek, wk, rfl,
    key.toList, keywrapUnwrap_of_wrap hwk, toVector_toList key⟩

variable (c) in
/-- The assumptions on a wrap and one attempt to use it: HKDF derives its key from no other input that
is used, and what AES-KW made under that key unwraps under no other one. -/
structure KeysApart (made used : KdfInput) (wk : String) : Prop where
  hkdf : used.kek c = made.kek c → used = made
  kw : ∀ kek kek' wrapped, made.kek c = some kek → used.kek c = some kek' →
    wk = c.base64UrlEncode wrapped → (c.kwUnwrap kek' wrapped).isSome → kek' = kek

lemma keysApart_self (c : WrapCrypto) (input : KdfInput) (wk : String) : KeysApart c input input wk := by
  refine ⟨fun _ => rfl, ?_⟩
  intro kek kek' wrapped hkek hkek' _ _
  exact Option.some_inj.mp (hkek'.symm.trans hkek)

/-- A wrap opens in its own context, and what opens with its wrapped key is in that context: the
ephemeral key and the ciphertext, the keys of the recipient, the folder and the two secrets are
those of the wrap. -/
theorem hybrid_wrap_opens_in_its_context (c : WrapCrypto) (zEcdh zMlkem : List.Vector UInt8 32)
    (epkX963 ek rkEc rkPq : Bytes) (key : Dek) (partyV : Bytes) (env : HybridWrapEnvelope)
    (hwrap : wrapFromSecrets c zEcdh zMlkem epkX963 ek rkEc rkPq key partyV = .ok env) :
    unwrapWithSharedSecrets c zEcdh zMlkem env rkEc rkPq partyV = .ok key ∧
      ∀ (zEcdh' zMlkem' : List.Vector UInt8 32) (env' : HybridWrapEnvelope) (rkEc' rkPq' partyV' : Bytes)
        (key' : Dek),
        env'.wk = env.wk →
        (∀ epk' ek', x963FromEpk c env'.epk = .ok epk' → c.base64UrlDecode env'.ek = some ek' →
          KeysApart c (kdfInput zEcdh zMlkem (c.sec1Point epkX963).uncompressed ek rkEc rkPq partyV)
            (kdfInput zEcdh' zMlkem' epk' ek' rkEc' rkPq' partyV') env.wk) →
        unwrapWithSharedSecrets c zEcdh' zMlkem' env' rkEc' rkPq' partyV' = .ok key' →
        (env'.epk = env.epk ∧ env'.ek = env.ek) ∧ (rkEc' = rkEc ∧ rkPq' = rkPq) ∧ partyV' = partyV ∧
          (zEcdh' = zEcdh ∧ zMlkem' = zMlkem) ∧ key' = key := by
  refine ⟨unwrap_of_wrap hwrap, ?_⟩
  intro zEcdh' zMlkem' env' rkEc' rkPq' partyV' key' hwkSame hapart hunwrap
  obtain ⟨hkeys, -, hek, -, kek, wk, hkek, hwk, -, hepk, hekText, hwkText⟩ := wrapFromSecrets_ok hwrap
  obtain ⟨hkeys', point, ek', kek', wrapped, hread, hjwk, hekText', hek', hkek', hwkText', hopen⟩ :=
    unwrapWithSharedSecrets_ok hunwrap
  obtain ⟨hrkEc, hrkPq⟩ := validateRecipientKeys_ok hkeys
  obtain ⟨hrkEc', hrkPq'⟩ := validateRecipientKeys_ok hkeys'
  have hpair := hapart _ ek' hread (by rw [hekText', base64Url_roundTrip])
  -- the wrapped bytes are those of the wrap, so the keys are one key and its inputs one input
  have hbytes : c.base64UrlEncode wrapped = c.base64UrlEncode wk := by rw [← hwkText', hwkSame, hwkText]
  have hsame : wrapped = wk := by
    have hdecode := congrArg c.base64UrlDecode hbytes
    rw [base64Url_roundTrip, base64Url_roundTrip] at hdecode
    exact Option.some_inj.mp hdecode
  subst hsame
  obtain ⟨out, hout, -⟩ := Option.map_eq_some_iff.mp hopen
  have hkekSame := hpair.kw kek kek' wrapped hkek hkek' hwkText (by rw [hout]; rfl)
  subst hkekSame
  have hinput := hpair.hkdf (hkek'.trans hkek.symm)
  obtain ⟨hsecrets, hpoint, hciphertext, hec, hpq, hparty⟩ := kdfInput_inj
    (by rw [length_uncompressed, length_uncompressed]) (by rw [hek, hek']) (by rw [hrkEc, hrkEc'])
    (by rw [hrkPq, hrkPq']) hinput
  refine ⟨⟨?_, ?_⟩, ⟨hec, hpq⟩, hparty, hsecrets, ?_⟩
  · rw [hjwk, hepk, uncompressed_injective hpoint]
  · rw [hekText', hekText, hciphertext]
  · rw [(keywrapWrap_ok hwk).2.2.2] at hopen
    exact List.Vector.toList_injective (Option.some_inj.mp hopen).symm

end

def strictHexDecode (s : String) : Option Bytes := (decodeHex s.toList).filter fun bytes => hexEncode bytes = s

lemma strictHexDecode_eq_some (s : String) (bytes : Bytes) :
    strictHexDecode s = some bytes ↔ s = hexEncode bytes := by
  rw [strictHexDecode, Option.filter_eq_some_iff, decide_eq_true_iff]
  constructor
  · rintro ⟨-, h⟩
    exact h.symm
  · rintro rfl
    exact ⟨decodeHex_hexEncode bytes, rfl⟩

def samplePoint (bytes : Bytes) : P256Point :=
  ⟨(toVector 32 (bytes.tail.take 32)).getD (.replicate 32 0), (toVector 32 (bytes.tail.drop 32)).getD
    (.replicate 32 0)⟩

def sampleUnwrap (kek : Dek) (wrapped : Bytes) : Option (List.Vector UInt8 (wrapped.length - 8)) :=
  if wrapped.drop (wrapped.length - 8) = kek.toList.take 8 then
    toVector (wrapped.length - 8) (wrapped.take (wrapped.length - 8))
  else none

def sampleWrap (kek : Dek) (keyData : Bytes) : List.Vector UInt8 (keyData.length + 8) :=
  ⟨keyData ++ kek.toList.take 8, by simp⟩

lemma sampleUnwrap_wrap (kek : Dek) (keyData : Bytes) :
    (sampleUnwrap kek (sampleWrap kek keyData).toList).map List.Vector.toList = some keyData := by
  have hlen : (sampleWrap kek keyData).toList.length - 8 = keyData.length := by
    rw [List.Vector.toList_length, Nat.add_sub_cancel]
  have htoList : (sampleWrap kek keyData).toList = keyData ++ kek.toList.take 8 := rfl
  have hdrop : (sampleWrap kek keyData).toList.drop ((sampleWrap kek keyData).toList.length - 8) =
      kek.toList.take 8 := by
    rw [hlen, htoList, List.drop_left]
  have htake : (sampleWrap kek keyData).toList.take ((sampleWrap kek keyData).toList.length - 8) = keyData := by
    rw [hlen, htoList, List.take_left]
  rw [sampleUnwrap, if_pos hdrop, htake, toVector, dif_pos hlen.symm]
  rfl

def sampleWrapCrypto : WrapCrypto where
  toPrimitives := { watchPrimitives with
    base64UrlDecode := strictHexDecode
    fromSec1Bytes := fun bytes => bytes.length = 65 }
  base64UrlEncode := hexEncode
  base64UrlDecode_eq_some := strictHexDecode_eq_some
  sec1Point := samplePoint
  fromSec1Bytes_uncompressed := fun bytes _ => decide_eq_true (length_uncompressed (samplePoint bytes))
  hkdfExpand := fun _ _ info len => some (.replicate len (info.getLastD 0))
  kwWrap := fun kek keyData => some (sampleWrap kek keyData)
  kwUnwrap := sampleUnwrap
  kwUnwrap_kwWrap := by
    rintro kek keyData wrapped h
    rw [← Option.some_inj.mp h]
    exact sampleUnwrap_wrap kek keyData

def sampleRkEc : Bytes := P256Point.uncompressed ⟨.replicate 32 5, .replicate 32 6⟩

def sampleRkPq : Bytes := List.replicate 1568 7

def sampleEk : Bytes := List.replicate 1568 8

def sampleFolder : Bytes := List.replicate 16 9

lemma sample_fromSec1Bytes : sampleWrapCrypto.fromSec1Bytes sampleRkEc := by
  change decide (sampleRkEc.length = 65) = true
  exact decide_eq_true (length_uncompressed _)

lemma sample_validateRecipientKeys : validateRecipientKeys sampleWrapCrypto sampleRkEc sampleRkPq = .ok () := by
  simp only [validateRecipientKeys, except_bind_ok, ensure_ok]
  exact ⟨(), ⟨length_uncompressed _, rfl⟩, (), sample_fromSec1Bytes, List.length_replicate⟩

lemma sample_wrapFromSecrets : ∃ env, wrapFromSecrets sampleWrapCrypto (.replicate 32 1)
    (.replicate 32 2) sampleRkEc sampleEk sampleRkEc sampleRkPq (.replicate 32 3) sampleFolder = .ok env := by
  simp only [wrapFromSecrets, hybridRfpOf, p256Pub, validatePartyV, keywrapWrap, except_bind_ok, ensure_ok,
    okOr_ok, except_pure_ok, contentWrapKek_ok, sample_validateRecipientKeys]
  exact ⟨_, (), trivial, (), .inr List.length_replicate, (), List.length_replicate, _,
    ⟨(), sample_fromSec1Bytes, rfl⟩, _, rfl, _, ⟨(), by decide, _, rfl, rfl⟩, _, ⟨(), trivial, rfl⟩, rfl⟩

/-- A wrap to a folder, and the same wrap with other values in the two fields that are not checked. -/
theorem hybrid_wrap_opens_in_its_context_sample : ∃ env,
    unwrapWithSharedSecrets sampleWrapCrypto (.replicate 32 1) (.replicate 32 2) env sampleRkEc sampleRkPq
        sampleFolder = .ok (.replicate 32 3) ∧
      ∀ key', unwrapWithSharedSecrets sampleWrapCrypto (.replicate 32 1) (.replicate 32 2)
        { env with v := 2, rfp := "" } sampleRkEc sampleRkPq sampleFolder = .ok key' →
        key' = .replicate 32 3 := by
  obtain ⟨env, henv⟩ := sample_wrapFromSecrets
  obtain ⟨hopen, honly⟩ := hybrid_wrap_opens_in_its_context sampleWrapCrypto _ _ _ _ _ _ _ _ env henv
  refine ⟨env, hopen, ?_⟩
  intro key' hkey'
  refine (honly _ _ _ _ _ _ key' rfl ?_ hkey').2.2.2.2
  intro epk' ek' hepk' hek'
  obtain ⟨-, -, -, -, -, -, -, -, -, hepk, hek, -⟩ := wrapFromSecrets_ok henv
  rw [hepk, x963FromEpk_epkJwk (sampleWrapCrypto.fromSec1Bytes_uncompressed _ sample_fromSec1Bytes)] at hepk'
  rw [hek, base64Url_roundTrip] at hek'
  rw [← Except.ok.inj hepk', ← Option.some_inj.mp hek']
  exact keysApart_self sampleWrapCrypto _ _

end SignetDrive.Proofs
