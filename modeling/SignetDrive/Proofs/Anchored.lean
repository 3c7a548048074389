import SignetDrive.Proofs.AnchorCache

namespace SignetDrive.Proofs
open Client Program

section

variable (p : Primitives) (fromStr : String → Except String Json) (env : AnchorEnv)

/-- The files are the parsed texts of the repository, read now or kept in the state. -/
def ReadFrom (st : OriginState) (repo : Option String) (a : Anchors) : Prop :=
  ∃ r roots keys, repo = some r ∧ Anchors.parse p fromStr roots keys = .ok a ∧
    ((∃ n, fetchRaw env n r = some (roots, keys)) ∨
      ∃ cache, st.anchorCache = some cache ∧ cache.repo = r ∧ cache.rootsJsonl = roots ∧
        cache.vrfKeysJsonl = keys)

/-- The key is the one that `vrf-keys.jsonl` has for its epoch. -/
def PinnedKey (file : Option Json) (serverUrl : String) (key : EpochKey) : Prop :=
  ∃ repo a, anchorRepoFor p serverUrl env.envRepo = .ok repo ∧
    ReadFrom p fromStr env (loadState file (normalizeOrigin serverUrl)) repo a ∧
    a.key key.epoch = .ok (some key)

end

section

variable {p : Primitives} {fromStr : String → Except String Json} {E : Type} {server : HttpServer}
  {env : AnchorEnv} {st st' : OriginState} {serverUrl : String} {served : ServedEpoch} {repo : Option String}
  {useCache : Bool} {s s' : Session String E} {anchoring : Anchoring}

lemma refreshCache_highest {now : U64} {fresh : Option (FreshFiles p fromStr)} {genesisChecked : Option U16} :
    (refreshCache p fromStr st repo now fresh genesisChecked).highestEpoch = st.highestEpoch := by
  unfold refreshCache
  split
  · split <;> rfl
  · rfl

lemma anchorLoaded_ok
    (h : anchorLoaded p fromStr server env st serverUrl served repo useCache s = .ok ((anchoring, st'), s')) :
    anchoring.served = served ∧ (∀ a ∈ anchoring.anchors, ReadFrom p fromStr env st repo a) ∧
      (∀ mode, anchoring.verdict = .anchored mode →
        judgeEpoch served anchoring.anchors st.highestEpoch (st.age served.epoch env.now) = .anchored mode) ∧
      ∃ st₁, st₁.highestEpoch = st.highestEpoch ∧
        st' = updateState st₁ served.epoch anchoring.verdict env.now := by
  rw [anchorLoaded] at h
  cases hanswer : cachedAnswer p fromStr st served repo env.now useCache with
  | some answer =>
    obtain ⟨verdict, a⟩ := answer
    simp only [hanswer, pure_ok, Prod.mk.injEq] at h
    obtain ⟨⟨rfl, rfl⟩, -⟩ := h
    unfold cachedAnswer at hanswer
    split at hanswer
    · obtain ⟨r, hrepo, hcached⟩ := Option.bind_eq_some_iff.mp hanswer
      obtain ⟨cache, mode, hcache, hcacheRepo, hanchors, rfl, hjudge, -⟩ := cachedVerdict_eq_some hcached
      refine ⟨rfl, ?_, ?_, st, rfl, rfl⟩
      · intro a' ha'
        obtain rfl := Option.some.inj ha'
        exact ⟨r, _, _, hrepo, toOption_eq_some.mp hanchors, Or.inr ⟨cache, hcache, hcacheRepo, rfl, rfl⟩⟩
      · intro mode' hmode'
        exact hjudge.trans hmode'
    · cases hanswer
  | none =>
    simp only [hanswer, anchorFresh, bind_ok, pure_ok, Prod.mk.injEq] at h
    obtain ⟨⟨checked, verdict⟩, t, hgenesis, ⟨rfl, rfl⟩, -⟩ := h
    obtain ⟨⟨n, hread⟩, hjudge⟩ := readAndJudge_spec p fromStr env repo fun anchors =>
      judgeEpoch served anchors st.highestEpoch (st.age served.epoch env.now)
    refine ⟨rfl, ?_, ?_, _, refreshCache_highest, rfl⟩
    · intro a ha
      obtain ⟨files, hfiles, rfl⟩ := Option.map_eq_some_iff.mp ha
      obtain ⟨r, hr, hfetch⟩ := readFiles_eq_some (hread.symm.trans hfiles)
      exact ⟨r, _, _, hr, files.parsed, Or.inl ⟨n, hfetch⟩⟩
    · intro mode hmode
      exact hjudge.symm.trans ((checkServedGenesis_ok hgenesis).2 mode hmode)

lemma anchorLoaded_unread (hcached : cachedAnswer p fromStr st served repo env.now useCache = none)
    (hread : ∀ n, readFiles p fromStr env repo n = none) (hone : served.epoch = 1)
    (hhighest : st.highestEpoch ≤ 1) : anchorLoaded p fromStr server env st serverUrl served repo useCache s =
      .ok ((⟨served, none, .anchored .legacy, repo.isSome⟩,
        updateState st 1 (.anchored .legacy) env.now), s) := by
  have hjudge : judgeEpoch served none st.highestEpoch (st.age served.epoch env.now) = .anchored .legacy := by
    have hbelow : ¬ served.epoch < st.highestEpoch := by rw [hone]; exact not_lt.mpr hhighest
    unfold judgeEpoch
    rw [if_neg hbelow]
    exact if_pos hone.le
  have hread : readAndJudge p fromStr env repo (fun anchors =>
      judgeEpoch served anchors st.highestEpoch (st.age served.epoch env.now)) = (none, .anchored .legacy) := by
    simp only [readAndJudge, hread, Option.map_none, hjudge]
    rfl
  rw [anchorLoaded, hcached]
  simp only [anchorFresh, hread]
  rw [← hone]
  cases repo <;> rfl

lemma receiptRule_ok {verdict : EpochVerdict} (h : receiptRule verdict = .ok mode) :
    verdict = .anchored mode := by
  unfold receiptRule at h
  split at h
  · rw [Except.ok.inj h]
  · cases h
  · cases h

variable {file : Option Json} {t t' : Session String (Accepted p)}

/-- The rule that a fetch selects: by account in epoch 1, and after it by the index under the key
that the files pin for the epoch. -/
lemma fetch_mode {trust : ServerTrust}
    (h : ServerTrust.fetch p fromStr server env file serverUrl t = .ok (trust, t')) :
    trust.epoch = 1 ∧ trust.mode = .legacy ∨
      1 < trust.epoch ∧ ∃ key, PinnedKey p fromStr env file serverUrl key ∧ key.epoch = trust.epoch ∧
        trust.mode = .v3 trust.epoch key.vrfPublicKey key.genesisEntryHash := by
  simp only [ServerTrust.fetch, ↓check_bind_ok, bind_ok, anchorServed_ok, pure_ok] at h
  obtain ⟨info, _, -, _, -, ⟨anchoring, st'⟩, _, ⟨served, -, repo, hrepo, hanchor⟩, mode, hmode, rfl, -⟩ := h
  obtain ⟨rfl, hread, hjudged, -⟩ := anchorLoaded_ok hanchor
  have hverdict := hjudged mode (receiptRule_ok hmode)
  rcases judgeEpoch_anchored_cases hverdict with ⟨hone, rfl⟩ | ⟨hlater, a, ha, key, hkey, -, rfl⟩
  · exact Or.inl ⟨hone, rfl⟩
  · have hepoch := key_epoch hkey
    refine Or.inr ⟨hlater, key, ⟨repo, a, hrepo, hread a ha, ?_⟩, hepoch, rfl⟩
    rwa [hepoch]

lemma fetch_of_anchored {info : Json} {vk : Bytes}
    (hinfo : server (t.sent ++ [s!"{serverUrl}/v1/server-info"]) = .ok info)
    (hactive : ServerTrust.activePqKey p ⟨info, .legacy, 1⟩ = .ok vk)
    (hanchor : anchorServed p fromStr server env file serverUrl info none true
      { t with sent := t.sent ++ [s!"{serverUrl}/v1/server-info"] } = .ok ((anchoring, st'), t'))
    (hmode : receiptRule anchoring.verdict = .ok mode) :
    ServerTrust.fetch p fromStr server env file serverUrl t =
    .ok (⟨info, mode, anchoring.served.epoch⟩, t') := by
  simp only [ServerTrust.fetch, ↓check_bind_ok, bind_ok, request_ok, pure_ok]
  exact ⟨info, _, ⟨hinfo, rfl⟩, vk, hactive, _, t', hanchor, mode, hmode, rfl, rfl⟩

end

def offlineEnv : AnchorEnv := ⟨none, 2000, fun _ _ => .error (.generic "offline")⟩

end SignetDrive.Proofs
