import SignetDrive.Model.TransparencyVerify
import SignetDrive.Proofs.Anchored
import SignetDrive.Proofs.OwnerWatch

/-!
# What a verified key rests on

The one way to succeed without a proof is an answer of an epoch that the public files have ended.
-/

namespace SignetDrive.Proofs
open Client Program

section

variable (p : Primitives)

/-- The document is an entry for the key, and hashes to the leaf. -/
def BoundTo (doc : Json) (fingerprint purpose : String) (leaf : Hash) : Prop :=
  ∃ fields bytes ownFp, leafFields p doc = .ok fields ∧ leafBytes p doc fields = .ok bytes ∧
    p.sha256 bytes = leaf ∧ fingerprintFor p fields.purpose fields.publicKey = .ok ownFp ∧
    doc.getStr "public_key_fingerprint" = some ownFp ∧ eqIgnoreAsciiCase fingerprint ownFp ∧
    purpose = fields.purpose

def Included (proof : InclusionProof) (leaf : Hash) : Prop :=
  1 ≤ proof.entryId.val ∧
    verifyInclusion p.sha256 leaf (proof.entryId.val - 1) proof.treeSize.val proof.path proof.root

/-- The published root and its size: the explicit one, or the latest of the anchored epoch. -/
def Published (a : VerifyArgs) (anchoring : Anchoring) (root : Hash) (size : U64) : Prop :=
  (∃ hex, a.publishedRoot = some hex ∧ a.publishedSize = some size ∧
    (p.hexDecode (String.ofList (trim hex.toList))).bind (toVector 32) = some root) ∨
  (a.publishedRoot = none ∧ ∃ mode anchors line, anchoring.verdict = .anchored mode ∧
    anchoring.anchors = some anchors ∧ anchors.latestRoot anchoring.served.epoch = some line ∧
    line.merkleRoot = root ∧ line.logSize = size)

/-- The root of the proof is the published one, or a proven extension of it. -/
def HeldTo (proof : InclusionProof) (root : Hash) (size : U64) : Prop :=
  size = proof.treeSize ∧ root = proof.root ∨
    size < proof.treeSize ∧
      ∃ nodes, verifyConsistency p.sha256 size.val proof.treeSize.val root proof.root nodes

/-- The three checks: the leaf is that of the key, it is in the tree, and the tree is held to a
published root. -/
def Verified (a : VerifyArgs) (anchoring : Anchoring) (fingerprint purpose : String) (doc : Json) : Prop :=
  ∃ leaf proof, BoundTo p doc fingerprint purpose leaf ∧ readProof p doc = .ok proof ∧ Included p proof leaf ∧
    ∃ root size, Published p a anchoring root size ∧ HeldTo p proof root size

/-- The files have ended the epoch that the document names (1 if it names none), and the document does
not state another root at the final size. -/
def Retired (anchoring : Anchoring) (doc : Json) : Prop :=
  ∃ anchors line, anchoring.anchors = some anchors ∧ anchors.endLine (proofEpoch doc) = some line ∧
    (doc.getU64 "log_size_at_proof" = some line.logSize →
      (doc.getStr "merkle_root_at_proof").map asciiLowercase = some (hexEncode line.merkleRoot.toList))

variable {p} {E : Type} {server : HttpServer} {a : VerifyArgs} {s s' : Session String E}

lemma judgePublishedRoot_ok {proof : InclusionProof} {committed : Option (Hash × U64)}
    {fetch : U64 → U64 → Program String E CliError (List Hash)} {verdict : PublishedRootVerdict}
    (h : judgePublishedRoot p proof.root proof.treeSize committed fetch s = .ok (verdict, s'))
    (hok : verdictResult verdict = .ok ()) :
    ∃ root size, committed = some (root, size) ∧ HeldTo p proof root size := by
  unfold judgePublishedRoot at h
  split at h
  · obtain ⟨rfl, -⟩ := pure_ok.mp h
    cases hok
  next root size =>
    refine ⟨root, size, rfl, ?_⟩
    by_cases hsize : size = proof.treeSize
    · rw [if_pos hsize] at h
      obtain ⟨rfl, -⟩ := pure_ok.mp h
      split at hok
      next hroot => exact .inl ⟨hsize, hroot⟩
      · cases hok
    · rw [if_neg hsize] at h
      split at h
      · obtain ⟨rfl, -⟩ := pure_ok.mp h
        cases hok
      next hle =>
        simp only [bind_ok, pure_ok] at h
        obtain ⟨nodes, t, -, rfl, -⟩ := h
        split at hok
        next hverify => exact .inr ⟨lt_of_le_of_ne (not_lt.mp hle) hsize, nodes, hverify⟩
        · cases hok

variable {anchoring : Anchoring} {doc : Json} {fingerprint purpose : String}
  {anchor : Program String E CliError Anchoring} {readJsonArg : String → Except CliError Json}

lemma committedRoot_ok {root : Hash} {size : U64} (hargs : a.publishedRoot.isSome = a.publishedSize.isSome)
    (h : committedRoot p a (some anchoring) = .ok (.ok (some (root, size)))) :
    Published p a anchoring root size := by
  unfold committedRoot at h
  split at h
  next hex size' hroot hsize =>
    simp only [except_bind_ok, okOr_ok, except_pure_ok, Except.ok.injEq, Option.some.injEq,
      Prod.mk.injEq] at h
    obtain ⟨root', hread, rfl, rfl⟩ := h
    exact .inl ⟨hex, hroot, hsize, hread⟩
  next hnone =>
    split at h
    next served anchors mode known heq =>
      obtain rfl := Option.some.inj heq
      simp only [Except.ok.injEq, Option.map_eq_some_iff, Prod.mk.injEq] at h
      obtain ⟨line, hline, hroot, hsize⟩ := h
      have hpublished : a.publishedRoot = none := by
        cases hroot : a.publishedRoot with
        | none => rfl
        | some hex =>
          rw [hroot, Option.isSome_some, eq_comm, Option.isSome_iff_exists] at hargs
          obtain ⟨size', hsize'⟩ := hargs
          exact absurd hsize' (hnone hex size' hroot)
      exact .inr ⟨hpublished, mode, anchors, line, rfl, rfl, hline, hroot, hsize⟩
    · cases h
    · cases h

lemma verifyProofDoc_ok (hargs : a.publishedRoot.isSome = a.publishedSize.isSome)
    (h : verifyProofDoc p server a (.key fingerprint purpose) (some anchoring) doc s = .ok ((), s')) :
    Verified p a anchoring fingerprint purpose doc := by
  simp only [verifyProofDoc, bind_ok, check_ok, ensure_ok] at h
  obtain ⟨leaf, _, ⟨hbind, rfl⟩, proof, _, ⟨hproof, rfl⟩, committed, _, ⟨hcommitted, rfl⟩, _, _,
    ⟨hincluded, rfl⟩, h⟩ := h
  obtain ⟨fields, bytes, ownFp, hfields, hbytes, hhash, hown, hserved, hfp, hpurpose⟩ := bindLeaf_ok hbind
  have hbound : BoundTo p doc fingerprint purpose leaf :=
    ⟨fields, bytes, ownFp, hfields, hbytes, hhash, hown, hserved, hfp _ rfl, hpurpose _ rfl⟩
  have hplace : Included p proof leaf := by simpa [InclusionProof.consistent, Included] using hincluded
  cases committed with
  | error why => cases h
  | ok committed =>
    simp only [bind_ok, check_ok] at h
    obtain ⟨verdict, t, hjudge, hok, -⟩ := h
    obtain ⟨root, size, rfl, hheld⟩ := judgePublishedRoot_ok hjudge hok
    exact ⟨leaf, proof, hbound, hproof, hplace, root, size, committedRoot_ok hargs hcommitted, hheld⟩

lemma refuseViolation_ok :
    refuseViolation (some anchoring) = .ok () ↔ ¬ anchoring.verdict.isViolation := by
  cases hverdict : anchoring.verdict <;> simp [refuseViolation, hverdict, EpochVerdict.isViolation]

lemma transparencyVerifyOnce_of_doc {t : Session String E} (hfile : a.inclusionProofFile = none)
    (hanchor : anchor s = .ok (anchoring, t)) (hviolation : ¬ anchoring.verdict.isViolation)
    (hdoc : server (t.sent ++ [inclusionUrl a.serverUrl fingerprint purpose anchoring.served.epoch]) = .ok doc)
    (hjudge : (match anchoring.anchors.bind fun x => x.endLine (proofEpoch doc) with
      | some line => check (judgeRetired line doc)
      | none => verifyProofDoc p server a (.key fingerprint purpose) (some anchoring) doc)
        { t with sent := t.sent ++ [inclusionUrl a.serverUrl fingerprint purpose anchoring.served.epoch] } =
      .ok ((), s')) :
    transparencyVerifyOnce p server a anchor readJsonArg (.key fingerprint purpose) s = .ok ((), s') := by
  simp only [transparencyVerifyOnce, hfile, Option.isSome_none, Bool.false_and, Bool.false_eq_true, if_false,
    bind_ok, check_ok, pure_ok]
  exact ⟨anchoring, t, hanchor, _, t, ⟨rfl, rfl⟩, (), t, ⟨refuseViolation_ok.mpr hviolation, rfl⟩, doc, _,
    request_ok.mpr ⟨hdoc, rfl⟩, hjudge⟩

lemma transparencyVerifyOnce_ok (hargs : a.publishedRoot.isSome = a.publishedSize.isSome)
    (hfile : a.inclusionProofFile = none)
    (h : transparencyVerifyOnce p server a anchor readJsonArg (.key fingerprint purpose) s = .ok ((), s')) :
    ∃ anchoring t doc, anchor s = .ok (anchoring, t) ∧ ¬ anchoring.verdict.isViolation ∧
      server (t.sent ++ [inclusionUrl a.serverUrl fingerprint purpose anchoring.served.epoch]) = .ok doc ∧
      (Retired anchoring doc ∨ Verified p a anchoring fingerprint purpose doc) := by
  simp only [transparencyVerifyOnce, hfile, Option.isSome_none, Bool.false_and, Bool.false_eq_true, if_false,
    bind_ok, check_ok, pure_ok] at h
  obtain ⟨anchoring, t, hanchor, _, _, ⟨rfl, rfl⟩, _, _, ⟨hviolation, rfl⟩, doc, t', hdoc, h⟩ := h
  obtain ⟨hserved, rfl⟩ := request_ok.mp hdoc
  refine ⟨anchoring, t, doc, hanchor, refuseViolation_ok.mp hviolation, hserved, ?_⟩
  cases hend : anchoring.anchors.bind fun x => x.endLine (proofEpoch doc) with
  | some line =>
    simp only [Option.bind_some, hend, check_ok] at h
    obtain ⟨anchors, hanchors, hline⟩ := Option.bind_eq_some_iff.mp hend
    exact .inl ⟨anchors, line, hanchors, hline, ensure_ok.mp h.1⟩
  | none =>
    simp only [Option.bind_some, hend] at h
    exact .inr (verifyProofDoc_ok hargs h)

/-- No epoch has ended in the files that were read. -/
def EndsNoEpoch (anchoring : Anchoring) : Prop :=
  ∀ anchors, anchoring.anchors = some anchors → ∀ epoch, anchors.endLine epoch = none

/-- An answer that names an epoch and nothing else. -/
def bareAnswer (epoch : U16) : Json := .object [("epoch", .number (.posInt (Fin.ofNat _ epoch.val)))]

lemma not_verified_of_missing (hdoc : doc.getU64 "entry_version" = none) :
    ¬ Verified p a anchoring fingerprint purpose doc := by
  rintro ⟨leaf, proof, ⟨fields, -, -, hfields, -⟩, -⟩
  cases hdoc.symm.trans (leafFields_ok hfields).1

/-- One attempt takes no answer without its checks exactly if the files end no epoch. -/
lemma verifyOnce_checks_iff {t : Session String E} (hargs : a.publishedRoot.isSome = a.publishedSize.isSome)
    (hfile : a.inclusionProofFile = none) (hanchor : anchor s = .ok (anchoring, t))
    (hviolation : ¬ anchoring.verdict.isViolation) :
    (∀ server s', transparencyVerifyOnce p server a anchor readJsonArg (.key fingerprint purpose) s =
        .ok ((), s') →
      ∃ doc, server (t.sent ++ [inclusionUrl a.serverUrl fingerprint purpose anchoring.served.epoch]) =
          .ok doc ∧
        Verified p a anchoring fingerprint purpose doc) ↔ EndsNoEpoch anchoring := by
  constructor
  · intro hchecks anchors hanchors epoch
    by_contra hends
    obtain ⟨line, hline⟩ := Option.ne_none_iff_exists'.mp hends
    have hepoch : proofEpoch (bareAnswer epoch) = epoch := by
      have hread : (bareAnswer epoch).getU64 "epoch" = some (Fin.ofNat _ epoch.val) := rfl
      have hval : (Fin.ofNat (2 ^ 64) epoch.val).val = epoch.val := Nat.mod_eq_of_lt (by omega)
      simp only [proofEpoch, hread, hval, Option.bind_some, epoch.isLt, dite_true, Option.getD_some]
    obtain ⟨doc, hdoc, hverified⟩ := hchecks (fun _ => .ok (bareAnswer epoch)) _ <| by
      apply transparencyVerifyOnce_of_doc hfile hanchor hviolation rfl
      rw [hanchors, Option.bind_some, hepoch, hline]
      exact check_ok.mpr ⟨ensure_ok.mpr fun h => (by cases h), rfl⟩
    cases hdoc
    exact not_verified_of_missing rfl hverified
  · intro hends server s' hrun
    obtain ⟨_, _, doc, hanchor', -, hdoc, hcases⟩ := transparencyVerifyOnce_ok hargs hfile hrun
    cases hanchor.symm.trans hanchor'
    refine ⟨doc, hdoc, hcases.resolve_left ?_⟩
    rintro ⟨anchors, line, hanchors, hline, -⟩
    cases (hends anchors hanchors _).symm.trans hline

end

lemma onceMoreOnEpochChange_ok {α : Type} {first second : Except CliError α} {result : α}
    (h : onceMoreOnEpochChange first second = .ok result) : first = .ok result ∨ second = .ok result := by
  unfold onceMoreOnEpochChange at h
  split at h
  · exact .inl h
  · split at h
    · exact .inr h
    · cases h

lemma verifyAttempt_ok {p : Primitives} {fromStr : String → Except String Json} {a : VerifyArgs}
    {attempt : VerifyAttempt} (hargs : a.publishedRoot.isSome = a.publishedSize.isSome)
    (hfile : a.inclusionProofFile = none)
    (h : verifyAttempt p fromStr readJsonArg a (.key fingerprint purpose) attempt = .ok ()) :
    ∃ anchoring state, ∃ t : Session String Unit, ∃ doc,
      anchorLog p fromStr attempt.server attempt.env attempt.file a.serverUrl a.anchorRepo ⟨[], []⟩ =
        .ok ((anchoring, state), t) ∧ ¬ anchoring.verdict.isViolation ∧
      attempt.server (t.sent ++ [inclusionUrl a.serverUrl fingerprint purpose anchoring.served.epoch]) =
      .ok doc ∧ (Retired anchoring doc ∨ Verified p a anchoring fingerprint purpose doc) := by
  obtain ⟨⟨_, s'⟩, hrun, -⟩ := except_map_ok.mp h
  obtain ⟨anchoring, t, doc, hanchor, hviolation, hdoc, hcases⟩ := transparencyVerifyOnce_ok hargs hfile hrun
  simp only [bind_ok, pure_ok] at hanchor
  obtain ⟨⟨_, state⟩, _, hlog, rfl, rfl⟩ := hanchor
  exact ⟨_, state, _, doc, hlog, hviolation, hdoc, hcases⟩

section

variable {p : Primitives} {fromStr : String → Except String Json} {readJsonArg : String → Except CliError Json}
  (first : VerifyAttempt) {second : VerifyAttempt} {a : VerifyArgs} {fingerprint purpose : String}
  {anchoring : Anchoring} {state : OriginState} {t : Session String Unit} {doc : Json}

lemma transparencyVerify_of_doc (s' : Session String Unit)
    (hargs : checkArgs a = .ok (.key fingerprint purpose)) (hfile : a.inclusionProofFile = none)
    (hlog : anchorLog p fromStr first.server first.env first.file a.serverUrl a.anchorRepo ⟨[], []⟩ =
      .ok ((anchoring, state), t)) (hviolation : ¬ anchoring.verdict.isViolation)
    (hdoc : first.server (t.sent ++ [inclusionUrl a.serverUrl fingerprint purpose anchoring.served.epoch]) =
    .ok doc) (hjudge : (match anchoring.anchors.bind fun x => x.endLine (proofEpoch doc) with
      | some line => check (judgeRetired line doc)
      | none => verifyProofDoc p first.server a (.key fingerprint purpose) (some anchoring) doc)
        { t with sent := t.sent ++ [inclusionUrl a.serverUrl fingerprint purpose anchoring.served.epoch] } =
      .ok ((), s')) :
    transparencyVerify p fromStr readJsonArg first second a = .ok () := by
  have hfirst : verifyAttempt p fromStr readJsonArg a (.key fingerprint purpose) first = .ok () := by
    refine except_map_ok.mpr ⟨((), s'), ?_, rfl⟩
    apply transparencyVerifyOnce_of_doc hfile _ hviolation hdoc hjudge
    simp only [bind_ok, pure_ok]
    exact ⟨_, t, hlog, rfl, rfl⟩
  rw [transparencyVerify, hargs]
  show onceMoreOnEpochChange _ _ = _
  rw [hfirst]
  rfl

end

def emptyServer : HttpServer
  | [_] => .ok (cutRun 2000).info
  | [_, _] => .ok (.object [("entries", .array [cutGenesis])])
  | _ => .ok (.object [])

def kemArgs (publishedRoot : Option String) (publishedSize : Option U64) : VerifyArgs where
  inclusionProofFile := none
  fingerprint := some (hexEncode watchKeyHash.toList)
  purpose := some "kem_pq"
  publishedRoot := publishedRoot
  publishedSize := publishedSize
  anchorRepo := none
  serverUrl := "https://drive.example"

def emptyAttempt : VerifyAttempt := ⟨emptyServer, cutEnv 2000, none⟩

lemma emptyAttempt_anchored : ∃ state, anchorLog cutPrimitives cutFromStr emptyServer (cutEnv 2000) none
    "https://drive.example" none (⟨[], []⟩ : Session String Unit) =
      .ok ((⟨cutServed, some epochTwoFiles, .anchored cutMode, true⟩, state),
        ⟨["https://drive.example" ++ "/v1/server-info", genesisUrl "https://drive.example" 2], []⟩) := by
  have hdefault : (loadState none (normalizeOrigin "https://drive.example")).highestEpoch ≤ 2 := Fin.zero_le 2
  obtain ⟨cache, -, hfresh⟩ := anchorFresh_cut 2000 hdefault
    (⟨["https://drive.example" ++ "/v1/server-info"], []⟩ : Session String Unit)
    "https://drive.example" emptyServer rfl rfl
  simp only [anchorLog, bind_ok, request_ok, anchorServed_ok]
  exact ⟨_, _, _, ⟨rfl, rfl⟩, _, cutRun_served 2000, _, cutRun_repo 2000, hfresh⟩

/-- Once the files have ended epoch 1, an answer that names no epoch and no entry is enough. -/
theorem transparencyVerify_empty_answer :
    (∀ readJsonArg second, transparencyVerify cutPrimitives cutFromStr readJsonArg emptyAttempt second
      (kemArgs none none) = .ok ()) ∧
      (∀ x y z, emptyServer [x, y, z] = .ok (.object [])) ∧
      ∀ anchoring, ¬ Verified cutPrimitives (kemArgs none none) anchoring
        (hexEncode watchKeyHash.toList) "kem_pq" (.object []) := by
  obtain ⟨state, hlog⟩ := emptyAttempt_anchored
  refine ⟨?_, fun _ _ _ => rfl, ?_⟩
  · intro readJsonArg second
    exact transparencyVerify_of_doc emptyAttempt _ rfl rfl hlog nofun rfl rfl
  · exact fun _ => not_verified_of_missing rfl

def oneEntryProof : Json := watchEntry
  [("log_size_at_proof", .number (.posInt 1)), ("merkle_root_at_proof", .string (hexEncode watchRoot.toList)),
    ("inclusion_proof", .array [])]

def oneEntryAttempt : VerifyAttempt where
  server
    | [_] => .ok (.object [])
    | _ => .ok oneEntryProof
  env := offlineEnv
  file := none

def oneEntryArgs : VerifyArgs := kemArgs (some (hexEncode watchRoot.toList)) (some 1)

lemma trim_hexEncode (bytes : Bytes) : trim (hexEncode bytes).toList = (hexEncode bytes).toList := by
  have hblank : ∀ c ∈ (hexEncode bytes).toList, ¬ isWhitespace c := by
    intro c hc
    simp [not_isWhitespace ((plain_hexEncode bytes).mem hc)]
  have hdrop : (hexEncode bytes).toList.dropWhile isWhitespace = (hexEncode bytes).toList :=
    List.dropWhile_eq_self_iff.mpr fun hpos => hblank _ (List.getElem_mem hpos)
  rw [trim, hdrop, List.rdropWhile_eq_self_iff]
  exact fun hne => hblank _ (List.getLast_mem hne)

lemma oneEntryArgs_root :
    (watchPrimitives.hexDecode (String.ofList (trim (hexEncode watchRoot.toList).toList))).bind (toVector 32) =
      some watchRoot := by
  rw [trim_hexEncode, String.ofList_toList, watch_hexDecode, Option.bind_some, toVector,
    dif_pos watchRoot.toList_length]
  rfl

lemma oneEntryProof_read : readProof watchPrimitives oneEntryProof = .ok ⟨1, 1, watchRoot, []⟩ := by
  have hroot : hex32 watchPrimitives (oneEntryProof.index "merkle_root_at_proof") "merkle_root_at_proof" =
      .ok watchRoot := by
    have hindex : oneEntryProof.index "merkle_root_at_proof" = .string (hexEncode watchRoot.toList) := rfl
    rw [hindex, hex32]
    simp only [except_bind_ok, okOr_ok]
    exact ⟨_, rfl, _, watch_hexDecode _, dif_pos watchRoot.toList_length⟩
  simp only [readProof, except_bind_ok, okOr_ok, except_pure_ok]
  exact ⟨1, rfl, 1, rfl, watchRoot, hroot, [], rfl, [], rfl, rfl⟩

lemma oneEntryProof_included :
    (⟨1, 1, watchRoot, []⟩ : InclusionProof).consistent watchPrimitives watchHash := by
  have hleaf : leafHash watchPrimitives.sha256 watchHash = watchRoot := watchSha256_leaf
  have hverify : verifyInclusion watchPrimitives.sha256 watchHash 0 1 [] watchRoot := by
    rw [verifyInclusion, if_neg (by omega), hleaf, inclusionLoop]
    simp
  exact hverify

lemma oneEntry_anchored : ∃ state, anchorLog watchPrimitives cutFromStr oneEntryAttempt.server offlineEnv none
    "https://drive.example" none (⟨[], []⟩ : Session String Unit) =
      .ok ((⟨⟨1, none, le_rfl⟩, none, .anchored .legacy, false⟩, state),
        ⟨["https://drive.example" ++ "/v1/server-info"], []⟩) := by
  have hrepo : anchorRepoFor watchPrimitives "https://drive.example" (none.or offlineEnv.envRepo)
      = .ok none := by
    decide
  simp only [anchorLog, bind_ok, request_ok, anchorServed_ok]
  exact ⟨_, _, _, ⟨rfl, rfl⟩, _, rfl, _, hrepo, anchorLoaded_unread rfl (fun _ => rfl) rfl (Fin.zero_le 1)⟩

lemma oneEntry_ok : transparencyVerify watchPrimitives cutFromStr (fun _ => .error (.generic "no file"))
    oneEntryAttempt oneEntryAttempt oneEntryArgs = .ok () := by
  obtain ⟨state, hlog⟩ := oneEntry_anchored
  have hcommitted : committedRoot watchPrimitives oneEntryArgs
      (some ⟨⟨1, none, le_rfl⟩, none, .anchored .legacy, false⟩) = .ok (.ok (some (watchRoot, 1))) := by
    simp only [committedRoot, oneEntryArgs, kemArgs, except_bind_ok, okOr_ok]
    exact ⟨watchRoot, oneEntryArgs_root, rfl⟩
  refine transparencyVerify_of_doc oneEntryAttempt ⟨["https://drive.example" ++ "/v1/server-info", inclusionUrl
    "https://drive.example" (hexEncode watchKeyHash.toList) "kem_pq" 1], []⟩ rfl rfl hlog (fun h => by cases h) rfl ?_
  simp only [Option.bind_none, verifyProofDoc, bind_ok, check_ok, ensure_ok]
  have hasked : (some (hexEncode watchKeyHash.toList)).all fun asked =>
      eqIgnoreAsciiCase asked (hexEncode watchKeyHash.toList) := by
    rw [Option.all_some, eqIgnoreAsciiCase, decide_eq_true rfl]
  refine ⟨watchHash, _, ⟨watchEntry_bindLeaf _ hasked rfl, rfl⟩, _, _, ⟨oneEntryProof_read, rfl⟩, _, _,
    ⟨hcommitted, rfl⟩, (), _, ⟨oneEntryProof_included, rfl⟩, ?_⟩
  simp only [bind_ok, check_ok]
  exact ⟨.matchAtSameSize, _, by rw [judgePublishedRoot, if_pos rfl, if_pos rfl]; rfl, rfl, rfl⟩

/-- Verifying a key succeeds only if, in one of its two attempts, the server's answer for the anchored
epoch passes the three checks, or names an epoch that the files have ended. Whatever an attempt is
answered after its anchoring, it succeeds only by the checks exactly if the files end no epoch. -/
theorem transparencyVerify_checks_iff (p : Primitives) (fromStr : String → Except String Json)
    (readJsonArg : String → Except CliError Json) (a : VerifyArgs) (fingerprint purpose : String)
    (hfile : a.inclusionProofFile = none) (hfingerprint : a.fingerprint = some fingerprint)
    (hpurpose : a.purpose = some purpose) :
    (∀ first second, transparencyVerify p fromStr readJsonArg first second a = .ok () →
      ∃ attempt ∈ [first, second], ∃ anchoring state, ∃ t : Session String Unit, ∃ doc,
        anchorLog p fromStr attempt.server attempt.env attempt.file a.serverUrl a.anchorRepo ⟨[], []⟩ =
          .ok ((anchoring, state), t) ∧ ¬ anchoring.verdict.isViolation ∧
        attempt.server (t.sent ++ [inclusionUrl a.serverUrl fingerprint purpose anchoring.served.epoch]) =
          .ok doc ∧
        (Retired anchoring doc ∨ Verified p a anchoring fingerprint purpose doc)) ∧
    ∀ (anchor : Program String Unit CliError Anchoring) s t anchoring,
      a.publishedRoot.isSome = a.publishedSize.isSome → anchor s = .ok (anchoring, t) →
      ¬ anchoring.verdict.isViolation →
      ((∀ server s', transparencyVerifyOnce p server a anchor readJsonArg (.key fingerprint purpose) s =
          .ok ((), s') →
        ∃ doc, server (t.sent ++ [inclusionUrl a.serverUrl fingerprint purpose anchoring.served.epoch]) =
            .ok doc ∧
          Verified p a anchoring fingerprint purpose doc) ↔ EndsNoEpoch anchoring) := by
  refine ⟨fun first second h => ?_, fun _ _ _ _ hargs hanchor hviolation =>
    verifyOnce_checks_iff hargs hfile hanchor hviolation⟩
  simp only [transparencyVerify, checkArgs, hfile, hfingerprint, hpurpose, except_bind_ok, ensure_ok,
    except_pure_ok] at h
  obtain ⟨asked, ⟨-, hargs, rfl⟩, h⟩ := h
  rcases onceMoreOnEpochChange_ok h with hfirst | hsecond
  · exact ⟨first, by simp, verifyAttempt_ok hargs hfile hfirst⟩
  · exact ⟨second, by simp, verifyAttempt_ok hargs hfile hsecond⟩

theorem oneEntry_verified :
    transparencyVerify watchPrimitives cutFromStr (fun _ => .error (.generic "no file")) oneEntryAttempt
      oneEntryAttempt oneEntryArgs = .ok () ∧
    ∃ anchoring, EndsNoEpoch anchoring ∧
      Verified watchPrimitives oneEntryArgs anchoring (hexEncode watchKeyHash.toList) "kem_pq"
        oneEntryProof := by
  obtain ⟨attempt, hattempt, anchoring, state, t, doc, hlog, -, hdoc, hcases⟩ :=
    (transparencyVerify_checks_iff _ _ _ _ _ _ rfl rfl rfl).1 _ _ oneEntry_ok
  obtain rfl : attempt = oneEntryAttempt := by simpa using hattempt
  obtain ⟨state', hlog'⟩ := oneEntry_anchored
  cases hlog.symm.trans hlog'
  obtain rfl : oneEntryProof = doc := Except.ok.inj hdoc
  refine ⟨oneEntry_ok, _, fun _ hanchors => (by cases hanchors), hcases.resolve_left ?_⟩
  rintro ⟨anchors, -, hanchors, -⟩
  cases hanchors

end SignetDrive.Proofs
