import SignetDrive.Model.GarnetToken

/-!
# What a token is accepted for

The texts of the parts have no dots, so what verifies is cut where the minter joined it.
-/

namespace SignetDrive.Proofs
open Client Token

variable {p : TokenPrimitives} {profile : Profile} {key : Bytes} {mints : Set Mint} {m : Mint}
  {jws input : List Char} {claims : Claims} {audience : Audience} {sub cnf : String}

lemma splitOn_two {a b : List Char} (ha : '.' ∉ a) (hb : '.' ∉ b) : (a ++ '.' :: b).splitOn '.' = [a, b] := by
  have hparts : (['.'].intercalate [a, b]).splitOn '.' = [a, b] :=
    List.splitOn_intercalate '.' (by simp [ha, hb]) (List.cons_ne_nil _ _)
  simpa [List.intercalate] using hparts

lemma splitOn_three {a b c : List Char} (ha : '.' ∉ a) (hb : '.' ∉ b) (hc : '.' ∉ c) :
    (a ++ '.' :: b ++ '.' :: c).splitOn '.' = [a, b, c] := by
  have hparts : (['.'].intercalate [a, b, c]).splitOn '.' = [a, b, c] :=
    List.splitOn_intercalate '.' (by simp [ha, hb, hc]) (List.cons_ne_nil _ _)
  simpa [List.intercalate] using hparts

lemma eq_of_splitOn_three {a b c : List Char} (h : jws.splitOn '.' = [a, b, c]) :
    jws = a ++ '.' :: b ++ '.' :: c := by
  have hjoined : ['.'].intercalate (jws.splitOn '.') = jws := List.intercalate_splitOn '.'
  rw [h] at hjoined
  simpa [List.intercalate] using hjoined.symm

lemma jwsParts_ok {a b c : List Char} : jwsParts jws = .ok (a, b, c) ↔ jws.splitOn '.' = [a, b, c] := by
  unfold jwsParts
  split
  case h_1 header claims signature h => simp [h]
  case h_2 h =>
    constructor
    · intro hne
      cases hne
    · intro heq
      exact absurd heq (h a b c)

lemma no_dot_encode (bytes : Bytes) : '.' ∉ p.b64uEncode bytes := p.no_dot _ _ (p.b64uDecode_b64uEncode bytes)

lemma asStr_injective : Function.Injective Audience.asStr := by
  intro a b h
  cases a <;> cases b <;> first | rfl | exact absurd h (by decide)

lemma encodeSigningInput_ok : encodeSigningInput p profile m = some (.ok input) ↔
    ∃ claims headerJson claimsJson, mintClaims p profile m = some claims ∧
      p.headerJson.encode (mintHeader p m) = some headerJson ∧ p.claimsJson.encode claims = some claimsJson ∧
      input = p.b64uEncode headerJson ++ '.' :: p.b64uEncode claimsJson := by
  simp only [encodeSigningInput, option_bind_eq_some, option_pure_eq_some, except_bind_ok, okOr_ok,
    except_pure_ok]
  constructor
  · rintro ⟨claims, hclaims, headerJson, hheader, claimsJson, hjson, hinput⟩
    exact ⟨claims, headerJson, claimsJson, hclaims, hheader, hjson, hinput.symm⟩
  · rintro ⟨claims, headerJson, claimsJson, hclaims, hheader, hjson, hinput⟩
    exact ⟨claims, hclaims, headerJson, hheader, claimsJson, hjson, hinput.symm⟩

lemma mintClaims_eq (h : mintClaims p profile m = some claims) :
    profile.i64 (m.now.1 + m.ttlSeconds.1) = some claims.exp ∧
      claims = ⟨ISS, m.sub, m.audience.asStr, m.now, m.now, claims.exp, p.uuidToString m.jti,
        p.uuidToString m.grantId,
        some ⟨m.cnfThumbprint⟩⟩ := by
  simp only [mintClaims, option_bind_eq_some, option_pure_eq_some] at h
  obtain ⟨exp, hexp, rfl⟩ := h
  exact ⟨hexp, rfl⟩

lemma verifyStructural_ok : verifyStructural p jws key audience sub cnf = .ok claims ↔
    ∃ headerPart claimsPart signaturePart header sig, jws.splitOn '.' =
      [headerPart, claimsPart, signaturePart] ∧
      decodeHeader p headerPart = .ok header ∧ header.alg = ALG_ES256 ∧ header.typ = TYP_AT_JWT ∧
      p.b64uDecode signaturePart = some sig ∧
      p.verifyEs256 key (utf8 (String.ofList (headerPart ++ '.' :: claimsPart))) sig = true ∧
      decodeClaims p claimsPart = .ok claims ∧ claims.iss = ISS ∧ claims.aud = audience.asStr ∧
      claims.sub = sub ∧ claims.cnf = some ⟨cnf⟩ ∧ cnf ≠ "" := by
  simp only [verifyStructural, pinHeader, except_bind_ok, okOr_ok, ensure_ok, except_pure_ok]
  constructor
  · rintro ⟨⟨headerPart, claimsPart, signaturePart⟩, hparts, header, hheader, _, ⟨-, halg, htyp⟩, sig, hsig, h⟩
    obtain ⟨-, hverify, decoded, hclaims, -, hiss, -, haud, -, hsub, ⟨thumbprint⟩, hcnf, -, hne, -,
      heq, hdone⟩ := h
    obtain rfl : decoded = claims := hdone
    obtain rfl : thumbprint = cnf := heq
    exact ⟨headerPart, claimsPart, signaturePart, header, sig, jwsParts_ok.mp hparts, hheader, halg, htyp, hsig,
      hverify, hclaims, hiss, haud, hsub, hcnf, hne⟩
  · rintro ⟨headerPart, claimsPart, signaturePart, header, sig, hparts, hheader, halg, htyp, hsig, hverify, h⟩
    obtain ⟨hclaims, hiss, haud, hsub, hcnf, hne⟩ := h
    exact ⟨_, jwsParts_ok.mpr hparts, header, hheader, (), ⟨(), halg, htyp⟩, sig, hsig, (), hverify, claims,
      hclaims, (), hiss, (), haud, (), hsub, _, hcnf, (), hne, (), rfl, rfl⟩

variable (p profile key mints) in
/-- The key signs only signing inputs of the mints, and no signature is forged. -/
def SignsOnlyMints : Prop :=
  ∀ message sig, p.verifyEs256 key message sig = true →
    ∃ m ∈ mints, ∃ input, encodeSigningInput p profile m = some (.ok input) ∧
      message = utf8 (String.ofList input)

variable (p profile key) in
def IsToken (m : Mint) (jws : List Char) : Prop :=
  ∃ input part sig, encodeSigningInput p profile m = some (.ok input) ∧ jws = input ++ '.' :: part ∧
    p.b64uDecode part = some sig ∧ p.verifyEs256 key (utf8 (String.ofList input)) sig = true

variable (p profile key) in
/-- The text is a token of the mint, with its claims, and what is expected is what it was minted for. -/
structure MintedFor (m : Mint) (claims : Claims) (jws : List Char) (audience : Audience)
    (sub cnf : String) : Prop where
  token : IsToken p profile key m jws
  claims : mintClaims p profile m = some claims
  audience : m.audience = audience
  sub : m.sub = sub
  thumbprint : m.cnfThumbprint = cnf
  cnf_ne : cnf ≠ ""

lemma verifyStructural_minted (hsigns : SignsOnlyMints p profile key mints) :
    verifyStructural p jws key audience sub cnf = .ok claims ↔
      ∃ m ∈ mints, MintedFor p profile key m claims jws audience sub cnf := by
  rw [verifyStructural_ok]
  constructor
  · rintro ⟨headerPart, claimsPart, signaturePart, header, sig, hparts, hheader, -, -, hsig, hverify, h⟩
    obtain ⟨hclaims, -, haud, hsub, hcnf, hne⟩ := h
    obtain ⟨m, hm, input, hinput, htext⟩ := hsigns _ _ hverify
    obtain ⟨minted, headerJson, claimsJson, hminted, -, hjson, rfl⟩ := encodeSigningInput_ok.mp hinput
    have htext : headerPart ++ '.' :: claimsPart = _ := String.ofList_injective (utf8_inj htext)
    simp only [decodeHeader, decodeClaims, except_bind_ok, okOr_ok] at hheader hclaims
    obtain ⟨headerBytes, hheaderBytes, -⟩ := hheader
    obtain ⟨claimsBytes, hclaimsBytes, hdecoded⟩ := hclaims
    -- the parts of one text are cut at its only dot
    have hcut := congrArg (List.splitOn '.') htext
    rw [splitOn_two (p.no_dot _ _ hheaderBytes) (p.no_dot _ _ hclaimsBytes),
      splitOn_two (no_dot_encode _) (no_dot_encode _), List.cons.injEq, List.cons.injEq] at hcut
    obtain ⟨rfl, rfl, -⟩ := hcut
    rw [p.b64uDecode_b64uEncode, Option.some_inj] at hclaimsBytes
    rw [← hclaimsBytes, p.claimsJson.decode_encode _ _ hjson, Option.some_inj] at hdecoded
    obtain rfl := hdecoded
    rw [(mintClaims_eq hminted).2] at haud hsub hcnf
    exact ⟨m, hm, ⟨_, signaturePart, sig, hinput, eq_of_splitOn_three hparts, hsig, hverify⟩, hminted,
      asStr_injective haud, hsub, congrArg Cnf.x5tS256 (Option.some_inj.mp hcnf), hne⟩
  · rintro ⟨m, -, ⟨input, part, sig, hinput, rfl, hsig, hverify⟩, hminted, rfl, rfl, rfl, hne⟩
    obtain ⟨minted, headerJson, claimsJson, hminted', hheader, hjson, rfl⟩ := encodeSigningInput_ok.mp hinput
    obtain rfl : minted = claims := Option.some_inj.mp (hminted'.symm.trans hminted)
    obtain ⟨-, hfields⟩ := mintClaims_eq hminted
    have hdecodeHeader : decodeHeader p (p.b64uEncode headerJson) = .ok (mintHeader p m) := by
      rw [decodeHeader, p.b64uDecode_b64uEncode, okOr]
      exact okOr_ok.mpr (p.headerJson.decode_encode _ _ hheader)
    have hdecodeClaims : decodeClaims p (p.b64uEncode claimsJson) = .ok minted := by
      rw [decodeClaims, p.b64uDecode_b64uEncode, okOr]
      exact okOr_ok.mpr (p.claimsJson.decode_encode _ _ hjson)
    refine ⟨_, _, part, _, sig, splitOn_three (no_dot_encode _) (no_dot_encode _)
      (p.no_dot _ _ hsig), hdecodeHeader,
      rfl, rfl, hsig, hverify, hdecodeClaims, ?_⟩
    rw [hfields]
    exact ⟨rfl, rfl, rfl, rfl, hne⟩

variable {token : Token.VerifiedToken}

lemma intoVerified_minted (h : mintClaims p profile m = some claims) :
    intoVerified p claims = .ok token ↔ token = ⟨m.sub, m.grantId, p.uuidToString m.jti, claims.exp⟩ := by
  obtain ⟨-, hfields⟩ := mintClaims_eq h
  have hid : p.uuidParseStr claims.grantId = some m.grantId := by
    rw [hfields]
    exact p.uuidParseStr_toString m.grantId
  simp only [intoVerified, except_bind_ok, okOr_ok, except_pure_ok, hid, Option.some_inj, exists_eq_left']
  rw [hfields, eq_comm]

lemma verifySkippingTime_minted (hsigns : SignsOnlyMints p profile key mints) :
    verifySkippingTime p jws key audience sub cnf = .ok token ↔
      ∃ m ∈ mints, ∃ claims, MintedFor p profile key m claims jws audience sub cnf ∧
        token = ⟨m.sub, m.grantId, p.uuidToString m.jti, claims.exp⟩ := by
  simp only [verifySkippingTime, except_bind_ok, verifyStructural_minted hsigns]
  constructor
  · rintro ⟨claims, ⟨m, hm, hminted⟩, hverified⟩
    exact ⟨m, hm, claims, hminted, (intoVerified_minted hminted.claims).mp hverified⟩
  · rintro ⟨m, hm, claims, hminted, hverified⟩
    exact ⟨claims, ⟨m, hm, hminted⟩, (intoVerified_minted hminted.claims).mpr hverified⟩

lemma verify_minted {now skew : I64} (hsigns : SignsOnlyMints p profile key mints) :
    verify p jws key audience sub cnf now skew = .ok token ↔
      ∃ m ∈ mints, ∃ claims, MintedFor p profile key m claims jws audience sub cnf ∧
        (m.now.saturatingSub skew).1 ≤ now.1 ∧ now.1 ≤ (claims.exp.saturatingAdd skew).1 ∧
        token = ⟨m.sub, m.grantId, p.uuidToString m.jti, claims.exp⟩ := by
  simp only [verify, except_bind_ok, ensure_ok, verifyStructural_minted hsigns, not_lt, not_or]
  constructor
  · rintro ⟨claims, ⟨m, hm, hminted⟩, -, hexp, -, ⟨hnbf, -⟩, hverified⟩
    rw [(mintClaims_eq hminted.claims).2] at hnbf
    exact ⟨m, hm, claims, hminted, hnbf, hexp, (intoVerified_minted hminted.claims).mp hverified⟩
  · rintro ⟨m, hm, claims, hminted, hnow, hexp, hverified⟩
    refine ⟨claims, ⟨m, hm, hminted⟩, (), hexp, (), ?_, (intoVerified_minted hminted.claims).mpr hverified⟩
    rw [(mintClaims_eq hminted.claims).2]
    exact ⟨hnow, hnow⟩

def clampI64 (x : ℤ) : ℤ := max (-2 ^ 63) (min x (2 ^ 63 - 1))

lemma saturatingAdd_val (a b : I64) : (a.saturatingAdd b).1 = clampI64 (a.1 + b.1) := rfl

lemma saturatingSub_val (a b : I64) : (a.saturatingSub b).1 = clampI64 (a.1 - b.1) := rfl

/-- The expiry is in the range of an `i64`. -/
def Mint.ExpiryFits (m : Mint) : Prop := -2 ^ 63 ≤ m.now.1 + m.ttlSeconds.1 ∧ m.now.1 + m.ttlSeconds.1 < 2 ^ 63

variable (p) in
/-- The expiry is the sum itself, in either profile. -/
def Mint.Exact (m : Mint) : Prop :=
  ∀ profile, ∃ claims, mintClaims p profile m = some claims ∧ claims.exp.1 = m.now.1 + m.ttlSeconds.1

lemma mint_exact_iff : Mint.Exact p m ↔ Mint.ExpiryFits m := by
  constructor
  · intro h
    obtain ⟨claims, -, hexp⟩ := h .release
    rw [Mint.ExpiryFits, ← hexp]
    exact claims.exp.2
  · intro h profile
    obtain ⟨exp, hexp, hval⟩ := profile.exists_i64 _ h
    refine ⟨⟨ISS, m.sub, m.audience.asStr, m.now, m.now, exp, p.uuidToString m.jti, p.uuidToString m.grantId,
      some ⟨m.cnfThumbprint⟩⟩, ?_, hval⟩
    rw [mintClaims, hexp]
    rfl

variable (p profile key mints) in
/-- Exactly the minted tokens are accepted, for what and when they were minted. -/
def AcceptsMinted : Prop :=
  ∀ jws audience sub cnf (now skew : I64) (token : Token.VerifiedToken),
    verify p jws key audience sub cnf now skew = .ok token ↔
      ∃ m ∈ mints, IsToken p profile key m jws ∧ m.audience = audience ∧ m.sub = sub ∧
        m.cnfThumbprint = cnf ∧ cnf ≠ "" ∧
        clampI64 (m.now.1 - skew.1) ≤ now.1 ∧ now.1 ≤ clampI64 (m.now.1 + m.ttlSeconds.1 + skew.1) ∧
        token.grantId = m.grantId ∧ token.sub = m.sub ∧ token.exp.1 = m.now.1 + m.ttlSeconds.1 ∧
        token.jti = p.uuidToString m.jti

variable (p key) in
/-- Without the clock, what is accepted with some clock. -/
def SkipsOnlyTime : Prop :=
  ∀ jws audience sub cnf (token : Token.VerifiedToken), verifySkippingTime p jws key audience sub cnf =
    .ok token ↔ ∃ now skew, verify p jws key audience sub cnf now skew = .ok token

lemma acceptsMinted (hsigns : SignsOnlyMints p profile key mints) (hfits : ∀ m ∈ mints, Mint.ExpiryFits m) :
    AcceptsMinted p profile key mints := by
  intro jws audience sub cnf now skew token
  rw [verify_minted hsigns]
  constructor
  · rintro ⟨m, hm, claims, ⟨htoken, hclaims, haud, hsub, hcnf, hne⟩, hnow, hexp, rfl⟩
    have hval : claims.exp.1 = m.now.1 + m.ttlSeconds.1 := by
      obtain ⟨exp, hsum, hval⟩ := profile.exists_i64 _ (hfits m hm)
      rw [← hval, Option.some_inj.mp (hsum.symm.trans (mintClaims_eq hclaims).1)]
    rw [saturatingAdd_val, hval] at hexp
    exact ⟨m, hm, htoken, haud, hsub, hcnf, hne, hnow, hexp, rfl, rfl, hval, rfl⟩
  · rintro ⟨m, hm, htoken, haud, hsub, hcnf, hne, hnow, hexp, hgrant, hsub', hval, hjti⟩
    obtain ⟨claims, hclaims, hexact⟩ := mint_exact_iff.mpr (hfits m hm) profile
    have hsame : token.exp = claims.exp := Subtype.ext (hval.trans hexact.symm)
    refine ⟨m, hm, claims, ⟨htoken, hclaims, haud, hsub, hcnf, hne⟩, hnow, ?_, ?_⟩
    · rw [saturatingAdd_val, hexact]
      exact hexp
    · rw [← hgrant, ← hsub', ← hjti, ← hsame]

lemma exists_window {now exp : I64} (ttl : I64) (hexp : exp.1 = now.1 + ttl.1) :
    ∃ clock skew : I64, (now.saturatingSub skew).1 ≤ clock.1 ∧ clock.1 ≤ (exp.saturatingAdd skew).1 := by
  refine ⟨now.saturatingSub I64.MAX, I64.MAX, le_rfl, ?_⟩
  have hnow := now.2
  have httl := ttl.2
  have hmax : I64.MAX.1 = 2 ^ 63 - 1 := rfl
  rw [saturatingSub_val, saturatingAdd_val, hexp, hmax, clampI64, clampI64]
  omega

lemma skipsOnlyTime (hsigns : SignsOnlyMints p profile key mints) (hfits : ∀ m ∈ mints, Mint.ExpiryFits m) :
    SkipsOnlyTime p key := by
  intro jws audience sub cnf token
  simp only [verifySkippingTime_minted hsigns, verify_minted hsigns]
  constructor
  · rintro ⟨m, hm, claims, hminted, hverified⟩
    obtain ⟨claims', hclaims', hexact⟩ := mint_exact_iff.mpr (hfits m hm) profile
    obtain rfl := Option.some_inj.mp (hclaims'.symm.trans hminted.claims)
    obtain ⟨now, skew, hnow, hexp⟩ := exists_window m.ttlSeconds hexact
    exact ⟨now, skew, m, hm, claims', hminted, hnow, hexp, hverified⟩
  · rintro ⟨now, skew, m, hm, claims, hminted, -, -, hverified⟩
    exact ⟨m, hm, claims, hminted, hverified⟩

/-- A token is accepted exactly for what it was minted for, without the clock exactly as with some
clock, and minting is exact, if and only if the expiry of every mint is of its type. -/
theorem tokens_exact_iff (p : TokenPrimitives) (profile : Profile) (key : Bytes) (mints : Set Mint)
    (hsigns : SignsOnlyMints p profile key mints) :
    ((∀ m ∈ mints, Mint.Exact p m) ∧ AcceptsMinted p profile key mints ∧ SkipsOnlyTime p key) ↔
      ∀ m ∈ mints, Mint.ExpiryFits m := by
  constructor
  · rintro ⟨hexact, -, -⟩ m hm
    exact mint_exact_iff.mp (hexact m hm)
  · intro hfits
    exact ⟨fun m hm => mint_exact_iff.mpr (hfits m hm), acceptsMinted hsigns hfits, skipsOnlyTime hsigns hfits⟩

lemma decodeHex_no_dot {text : List Char} {bytes : Bytes} (h : decodeHex text = some bytes) : '.' ∉ text := by
  fun_induction decodeHex text generalizing bytes with
  | case1 => exact List.not_mem_nil
  | case2 => cases h
  | case3 a b rest ih =>
    simp only [option_bind_eq_some, option_pure_eq_some] at h
    obtain ⟨high, hhigh, low, hlow, left, hleft, -⟩ := h
    have hdot : hexValue '.' = none := by decide
    rw [List.mem_cons, List.mem_cons]
    rintro (rfl | rfl | hmem)
    · cases hdot.symm.trans hhigh
    · cases hdot.symm.trans hlow
    · exact ih hleft hmem

def unaryId (id : Uuid) : String := String.ofList (List.replicate id.val 'a')

def parseUnaryId (text : String) : Option Uuid :=
  if h : text.length < 2 ^ 128 then some ⟨text.length, h⟩ else none

lemma parseUnaryId_unaryId (id : Uuid) : parseUnaryId (unaryId id) = some id := by
  have hlength : (unaryId id).length = id.val := by rw [unaryId, String.length_ofList, List.length_replicate]
  simp only [parseUnaryId, hlength, id.isLt, dif_pos]

def oneToken (header : Header) (claims : Claims) : TokenPrimitives where
  b64uEncode bytes := (hexEncode bytes).toList
  b64uDecode := decodeHex
  b64uDecode_b64uEncode := decodeHex_hexEncode
  no_dot _ _ := decodeHex_no_dot
  headerJson := Signed.Codec.ofList 0 [header]
  claimsJson := Signed.Codec.ofList 0 [claims]
  uuidToString := unaryId
  uuidParseStr := parseUnaryId
  uuidParseStr_toString := parseUnaryId_unaryId
  verifyEs256 _ message sig := message = utf8 "." && sig = [1]

def mintAt (now ttlSeconds : I64) : Mint := ⟨1, .broker, "hlin-ai", "Zm9v", 7, ttlSeconds, now, 9⟩

def tokenOf (now exp : I64) : TokenPrimitives :=
  oneToken ⟨ALG_ES256, TYP_AT_JWT, "a"⟩
    ⟨ISS, "hlin-ai", "signet-broker", now, now, exp, "aaaaaaaaa", "aaaaaaa", some ⟨"Zm9v"⟩⟩

lemma encodeSigningInput_tokenOf (now ttl : I64) {exp : I64} (h : profile.i64 (now.1 + ttl.1) = some exp) :
    encodeSigningInput (tokenOf now exp) profile (mintAt now ttl) = some (.ok ['.']) := by
  rw [encodeSigningInput_ok]
  refine ⟨_, [], [], by rw [mintClaims, mintAt, h]; rfl, ?_, ?_, rfl⟩
  · rfl
  · simp [tokenOf, oneToken, Signed.Codec.ofList, unaryId, Audience.asStr]

lemma signsOnlyMints_tokenOf (now ttl : I64) {exp : I64} (h : profile.i64 (now.1 + ttl.1) = some exp) :
    SignsOnlyMints (tokenOf now exp) profile [] {mintAt now ttl} := by
  intro message sig hverify
  refine ⟨_, rfl, ['.'], encodeSigningInput_tokenOf now ttl h, ?_⟩
  simp only [tokenOf, oneToken, Bool.and_eq_true, decide_eq_true_eq] at hverify
  exact hverify.1

lemma isToken_tokenOf (now ttl : I64) {exp : I64} (h : profile.i64 (now.1 + ttl.1) = some exp) :
    IsToken (tokenOf now exp) profile [] (mintAt now ttl) "..01".toList :=
  ⟨['.'], ['0', '1'], [1], encodeSigningInput_tokenOf now ttl h, rfl, rfl, rfl⟩

theorem usual_token_accepted :
    let now : I64 := 1750000000
    let exp : I64 := 1750000120
    verify (tokenOf now exp) "..01".toList [] .broker "hlin-ai" "Zm9v" now 30 =
      .ok ⟨"hlin-ai", 7, "aaaaaaaaa", exp⟩ := by
  intro now exp
  have hsum : Profile.release.i64 (now.1 + 120) = some exp := rfl
  obtain ⟨-, haccepts, -⟩ := (tokens_exact_iff _ .release [] _
    (signsOnlyMints_tokenOf now 120 hsum)).mpr (by rintro m rfl; exact exp.2)
  refine (haccepts _ _ _ _ _ _ _).mpr
    ⟨_, rfl, isToken_tokenOf _ _ hsum, rfl, rfl, rfl, by decide, ?_, ?_, rfl, rfl, rfl, rfl⟩
  · decide
  · decide

/-- A lifetime of one second from the last second of the type: a development build panics; in a
release build the expiry wraps, and the token is accepted without a clock, but never with one. -/
theorem late_mint_wraps :
    encodeSigningInput (tokenOf I64.MAX I64.MIN) .dev (mintAt I64.MAX 1) = none ∧
    encodeSigningInput (tokenOf I64.MAX I64.MIN) .release (mintAt I64.MAX 1) = some (.ok ['.']) ∧
    verifySkippingTime (tokenOf I64.MAX I64.MIN) "..01".toList [] .broker "hlin-ai" "Zm9v" =
      .ok ⟨"hlin-ai", 7, "aaaaaaaaa", I64.MIN⟩ ∧
    ∀ now skew token, verify (tokenOf I64.MAX I64.MIN) "..01".toList [] .broker "hlin-ai" "Zm9v" now skew ≠
      .ok token := by
  have hsum : Profile.release.i64 (I64.MAX.1 + (1 : I64).1) = some I64.MIN := by decide
  have hsigns := signsOnlyMints_tokenOf I64.MAX 1 hsum
  refine ⟨by decide, encodeSigningInput_tokenOf _ _ hsum, ?_, ?_⟩
  · exact (verifySkippingTime_minted hsigns).mpr ⟨_, rfl, _,
      ⟨isToken_tokenOf _ _ hsum, by rw [mintClaims, mintAt, hsum]; rfl, rfl, rfl, rfl, by decide⟩, rfl⟩
  · intro now skew token haccepted
    obtain ⟨m, rfl, claims, hminted, hnow, hexp, -⟩ := (verify_minted hsigns).mp haccepted
    have hwrapped : I64.MIN = claims.exp :=
      Option.some_inj.mp (hsum.symm.trans (mintClaims_eq hminted.claims).1)
    have hmin : I64.MIN.1 = -2 ^ 63 := rfl
    have hmax : (mintAt I64.MAX 1).now.1 = 2 ^ 63 - 1 := rfl
    have hskew := skew.2
    rw [saturatingSub_val, hmax, clampI64] at hnow
    rw [saturatingAdd_val, ← hwrapped, hmin, clampI64] at hexp
    omega

end SignetDrive.Proofs
