import SignetDrive.Model.Anchoring
import SignetDrive.Proofs.AnchorCut
import SignetDrive.Proofs.AnchorFile

/-!
# The cache of the anchor files

The cached files judge as the files they were cut from, and answer for a later epoch only after its
genesis passed the check against them.
-/

namespace SignetDrive.Proofs
open Client Program Run

section

variable {p : Primitives} {fromStr : String → Except String Json} {a : Anchors}

/-! ### One anchoring -/

variable {E : Type} {server : HttpServer} {env : AnchorEnv} {st st' : OriginState} {serverUrl : String}
  {served : ServedEpoch} {repo : Option String} {s s' : Session String E}

variable {files : FreshFiles p fromStr} {r : String} {fresh : Option (FreshFiles p fromStr)} {now : U64}
  {a' : Anchors} {file : Option Json}

lemma readFiles_eq_some {n : ℕ} (h : readFiles p fromStr env repo n = some files) :
    ∃ r, repo = some r ∧ fetchRaw env n r = some (files.roots, files.keys) := by
  unfold readFiles at h
  split at h
  next => cases h
  next roots keys hfetch =>
    split at h
    next anchors hparse =>
      obtain rfl := Option.some.inj h
      exact Option.bind_eq_some_iff.mp hfetch
    next => cases h

lemma readFiles_of_fetchRaw {n : ℕ} {roots keys : String} (hfetch : fetchRaw env n r = some (roots, keys))
    (hparse : Anchors.parse p fromStr roots keys = .ok a) :
    readFiles p fromStr env (some r) n = some ⟨a, roots, keys, hparse⟩ := by
  unfold readFiles
  split
  next hnone =>
    rw [Option.bind_some, hfetch] at hnone
    cases hnone
  next roots' keys' hsome =>
    rw [Option.bind_some, hfetch] at hsome
    obtain ⟨rfl, rfl⟩ := Prod.mk.inj (Option.some.inj hsome)
    split
    next anchors hok =>
      obtain rfl := Except.ok.inj (hparse.symm.trans hok)
      rfl
    next e herror =>
      rw [hparse] at herror
      cases herror

lemma retryFiles_spec {judge : Option Anchors → EpochVerdict} (ns : List ℕ)
    {read : Option (FreshFiles p fromStr) × EpochVerdict}
    (hread : ∃ n, read.1 = readFiles p fromStr env repo n)
    (hjudge : read.2 = judge (read.1.map FreshFiles.anchors)) :
    (∃ n, (retryFiles p fromStr env repo judge ns read).1 = readFiles p fromStr env repo n) ∧
      (retryFiles p fromStr env repo judge ns read).2 =
        judge ((retryFiles p fromStr env repo judge ns read).1.map FreshFiles.anchors) := by
  induction ns generalizing read with
  | nil => exact ⟨hread, hjudge⟩
  | cons n ns ih =>
    rw [retryFiles]
    split
    · exact ⟨hread, hjudge⟩
    · exact ih ⟨n, rfl⟩ rfl

lemma readAndJudge_spec (p : Primitives) (fromStr : String → Except String Json) (env : AnchorEnv)
    (repo : Option String) (judge : Option Anchors → EpochVerdict) :
    (∃ n, (readAndJudge p fromStr env repo judge).1 = readFiles p fromStr env repo n) ∧
      (readAndJudge p fromStr env repo judge).2 =
        judge ((readAndJudge p fromStr env repo judge).1.map FreshFiles.anchors) :=
  retryFiles_spec [1, 2, 3] ⟨0, rfl⟩ rfl

lemma updateState_anchorCache (e : U16) (verdict : EpochVerdict) (now : U64) :
    (updateState st e verdict now).anchorCache = st.anchorCache := by
  cases verdict <;> rfl

lemma checkServedGenesis_ok {judged verdict : EpochVerdict} {checked : Option U16}
    (h : checkServedGenesis p fromStr server serverUrl fresh judged s = .ok ((checked, verdict), s')) :
    (∀ e ∈ checked, ∃ files key g page genesis, fresh = some files ∧ judged = .anchored (.v3 e key g) ∧
      server (s.sent ++ [genesisUrl serverUrl e]) = .ok page ∧ firstEntry page = .ok genesis ∧
      checkGenesis p (.v3 e key g) files.anchors genesis = .ok ()) ∧
      ∀ mode, verdict = .anchored mode → judged = .anchored mode := by
  unfold checkServedGenesis at h
  split at h
  next epoch key g files =>
    simp only [bind_ok, request_ok, check_ok] at h
    obtain ⟨page, t, ⟨hpage, rfl⟩, genesis, t', ⟨hgenesis, rfl⟩, h⟩ := h
    cases hcheck : checkGenesis p (.v3 epoch key g) files.anchors genesis with
    | ok =>
      simp only [hcheck, pure_ok, Prod.mk.injEq] at h
      obtain ⟨⟨rfl, rfl⟩, -⟩ := h
      refine ⟨?_, fun _ hmode => hmode⟩
      rintro e ⟨⟩
      exact ⟨files, key, g, page, genesis, rfl, rfl, hpage, hgenesis, hcheck⟩
    | error e =>
      simp only [hcheck, pure_ok, Prod.mk.injEq] at h
      obtain ⟨⟨rfl, rfl⟩, -⟩ := h
      exact ⟨fun _ h => (by cases h), fun _ h => (by cases h)⟩
  next =>
    simp only [pure_ok, Prod.mk.injEq] at h
    obtain ⟨⟨rfl, rfl⟩, -⟩ := h
    exact ⟨fun _ h => (by cases h), fun _ hmode => hmode⟩

lemma refreshCache_of_new {cut : AnchorCache}
    (h : AnchorCache.new p fromStr r now files.roots files.keys = some cut) (genesisChecked : Option U16) :
    refreshCache p fromStr st (some r) now (some files) genesisChecked =
      { st with anchorCache := some { cut with genesisChecked := genesisChecked } } := by
  simp only [refreshCache, h]

lemma refreshCache_cases {genesisChecked : Option U16} {cache : AnchorCache}
    (h : (refreshCache p fromStr st repo now fresh genesisChecked).anchorCache = some cache) :
    st.anchorCache = some cache ∨ ∃ r files cut, repo = some r ∧ fresh = some files ∧
      AnchorCache.new p fromStr r now files.roots files.keys = some cut ∧
      cache = { cut with genesisChecked := genesisChecked } := by
  unfold refreshCache at h
  split at h
  next r files =>
    split at h
    next cut hcut => exact Or.inr ⟨r, files, cut, rfl, rfl, hcut, (Option.some.inj h).symm⟩
    next => exact Or.inl h
  next => exact Or.inl h

/-- The run cut the cache from files of its repository, and the genesis entry that it was served passed
the check against these files, under their key line. -/
def PassedGenesis (p : Primitives) (fromStr : String → Except String Json) (run : AnchorRun) (key : EpochKey)
    (cache : AnchorCache) : Prop :=
  ∃ n roots keys files cut page genesis, fetchRaw run.env n cache.repo = some (roots, keys) ∧
    Anchors.parse p fromStr roots keys = .ok files ∧ files.key key.epoch = .ok (some key) ∧
    AnchorCache.new p fromStr cache.repo run.env.now roots keys = some cut ∧
    cache = { cut with genesisChecked := some key.epoch } ∧
    run.server [genesisUrl run.serverUrl key.epoch] = .ok page ∧ firstEntry page = .ok genesis ∧
    checkGenesis p (.v3 key.epoch key.vrfPublicKey key.genesisEntryHash) files genesis = .ok ()

lemma key_epoch {e : U16} {k : EpochKey} (h : a.key e = .ok (some k)) : k.epoch = e := by
  unfold Anchors.key at h
  split at h
  · cases h
  next k' hfilter =>
    obtain rfl := Option.some.inj (Except.ok.inj h)
    have hmem : k' ∈ a.keys.filter fun k => k.epoch = e := by
      rw [hfilter]
      exact List.mem_singleton_self k'
    simpa using (List.mem_filter.mp hmem).2
  · cases h

lemma new_fields {repo : String} {fetchedAt : U64} {roots keys : String} {cut : AnchorCache}
    (h : AnchorCache.new p fromStr repo fetchedAt roots keys = some cut) :
    cut.repo = repo ∧ cut.fetchedAt = fetchedAt ∧ cut.vrfKeysJsonl = keys := by
  simp only [AnchorCache.new, Option.bind_eq_bind, Option.bind_eq_some_iff, Option.map_eq_some_iff] at h
  obtain ⟨parsed, -, anchors, -, rfl⟩ := h
  exact ⟨rfl, rfl, rfl⟩

variable {run : AnchorRun} {anchoring : Anchoring} {cache : AnchorCache} {e : U16}

lemma anchorFresh_cache
    (h : anchorFresh p fromStr run.server run.env st run.serverUrl served repo (⟨[], []⟩ : Session String E) =
      .ok ((anchoring, st'), s'))
    (hcache : st'.anchorCache = some cache) (hgenesis : cache.genesisChecked = some e) :
    st.anchorCache = some cache ∨ ∃ key, key.epoch = e ∧ PassedGenesis p fromStr run key cache := by
  simp only [anchorFresh, bind_ok, pure_ok, Prod.mk.injEq] at h
  obtain ⟨⟨checked, verdict⟩, t, hcheck, ⟨-, rfl⟩, -⟩ := h
  rw [updateState_anchorCache] at hcache
  rcases refreshCache_cases hcache with hold | ⟨r, files, cut, hrepo, hfresh, hcut, rfl⟩
  · exact Or.inl hold
  · obtain rfl : checked = some e := hgenesis
    obtain ⟨⟨n, hread⟩, hjudge⟩ := readAndJudge_spec p fromStr run.env repo
      fun anchors => judgeEpoch served anchors st.highestEpoch (st.age served.epoch run.env.now)
    obtain ⟨_, vrf, g, page, genesis, hfiles, hjudged, hpage, hentry, hpass⟩ :=
      (checkServedGenesis_ok hcheck).1 e rfl
    obtain rfl := Option.some.inj (hfresh.symm.trans hfiles)
    obtain ⟨r', hrepo', hfetch⟩ := readFiles_eq_some (hread.symm.trans hfresh)
    obtain rfl := Option.some.inj (hrepo.symm.trans hrepo')
    rw [hjudge, hfresh, Option.map_some] at hjudged
    rcases judgeEpoch_anchored_cases hjudged with ⟨-, hmode⟩ | ⟨-, _, ha, key, hkey, -, hmode⟩
    · cases hmode
    · obtain rfl := Option.some.inj ha
      obtain ⟨rfl, rfl, rfl⟩ := LogMode.v3.inj hmode
      have hepoch := key_epoch hkey
      obtain ⟨hr, -⟩ := new_fields hcut
      refine Or.inr ⟨key, hepoch, n, files.roots, files.keys, files.anchors, cut, page, genesis, ?_⟩
      rw [hepoch, hr]
      exact ⟨hfetch, files.parsed, hkey, hcut, rfl, hpage, hentry, hpass⟩

lemma anchorLoaded_cache {useCache : Bool}
    (h : anchorLoaded p fromStr run.server run.env st run.serverUrl served repo useCache
      (⟨[], []⟩ : Session String E) = .ok ((anchoring, st'), s'))
    (hcache : st'.anchorCache = some cache) (hgenesis : cache.genesisChecked = some e) :
    st.anchorCache = some cache ∨ ∃ key, key.epoch = e ∧ PassedGenesis p fromStr run key cache := by
  rw [anchorLoaded] at h
  cases hanswer : cachedAnswer p fromStr st served repo run.env.now useCache with
  | some answer =>
    simp only [hanswer, pure_ok, Prod.mk.injEq] at h
    obtain ⟨⟨-, rfl⟩, -⟩ := h
    rw [updateState_anchorCache] at hcache
    exact Or.inl hcache
  | none =>
    rw [hanswer] at h
    exact anchorFresh_cache h hcache hgenesis

lemma cachedVerdict_eq_some {verdict : EpochVerdict}
    (h : cachedVerdict p fromStr st served r now = some (verdict, a')) :
    ∃ cache mode, st.anchorCache = some cache ∧ cache.repo = r ∧ cache.anchors p fromStr = some a' ∧
      verdict = .anchored mode ∧
      judgeEpoch served (some a') st.highestEpoch (st.age served.epoch now) = .anchored mode ∧
      (mode = .legacy ∨ cache.genesisChecked = some mode.epoch) := by
  unfold cachedVerdict at h
  simp only [Option.bind_eq_bind, Option.bind_eq_some_iff] at h
  obtain ⟨cache, hcache, h⟩ := h
  split at h
  · cases h
  next hfresh =>
    obtain ⟨hrepo, -⟩ := not_or.mp hfresh
    simp only [Option.bind_eq_some_iff] at h
    obtain ⟨anchors, hanchors, h⟩ := h
    split at h
    next hlegacy =>
      obtain ⟨rfl, rfl⟩ := Prod.mk.inj (Option.some.inj h)
      exact ⟨cache, .legacy, hcache, not_not.mp hrepo, hanchors, hlegacy, hlegacy, Or.inl rfl⟩
    next epoch vrf g hv3 =>
      split at h
      next hchecked =>
        obtain ⟨rfl, rfl⟩ := Prod.mk.inj (Option.some.inj h)
        exact ⟨cache, .v3 epoch vrf g, hcache, not_not.mp hrepo, hanchors, hv3, hv3, Or.inr hchecked⟩
      next => cases h
    next => cases h

lemma cachedVerdict_of_cache {vrf : List.Vector UInt8 32} {g : Hash} (hcache : st.anchorCache = some cache)
    (hrepo : cache.repo = r) (hage : now.val - cache.fetchedAt.val < ANCHOR_CACHE_MAX_AGE)
    (hanchors : cache.anchors p fromStr = some a')
    (hjudge : judgeEpoch served (some a') st.highestEpoch (st.age served.epoch now) = .anchored (.v3 e vrf g))
    (hchecked : cache.genesisChecked = some e) :
    cachedVerdict p fromStr st served r now = some (.anchored (.v3 e vrf g), a') := by
  have hfresh : ¬ (cache.repo ≠ r ∨ ANCHOR_CACHE_MAX_AGE ≤ now.val - cache.fetchedAt.val) := by
    rintro (hne | hold)
    · exact hne hrepo
    · omega
  simp only [cachedVerdict, hcache, Option.bind_eq_bind, Option.bind_some, if_neg hfresh, hanchors, hjudge,
    if_pos hchecked]
  rfl

/-! ### Runs -/

lemma anchorServed_ok {info : Json} {anchorRepo : Option String} {useCache : Bool}
    {x : Anchoring × OriginState} :
    anchorServed p fromStr server env file serverUrl info anchorRepo useCache s = .ok (x, s') ↔
      ∃ served, ServedEpoch.fromServerInfo p info = .ok served ∧
      ∃ repo, anchorRepoFor p serverUrl (anchorRepo.or env.envRepo) = .ok repo ∧
        anchorLoaded p fromStr server env (loadState file (normalizeOrigin serverUrl)) serverUrl served
        repo useCache s =
          .ok (x, s') := by
  simp only [anchorServed, check_bind_ok]

lemma runAnchorServed_cases {file' : Option Json} {output : Except CliError Anchoring}
    (h : runAnchorServed p fromStr file run = (file', output)) :
    file' = file ∨ ∃ anchoring served repo st' s',
      anchorLoaded p fromStr run.server run.env (loadState file (normalizeOrigin run.serverUrl)) run.serverUrl
        served repo run.useCache (⟨[], []⟩ : Session String Unit) = .ok ((anchoring, st'), s') ∧
      output = .ok anchoring ∧ file' = some (saveState file (normalizeOrigin run.serverUrl) st') := by
  simp only [runAnchorServed] at h
  split at h
  next anchoring st' s' hok =>
    obtain ⟨rfl, rfl⟩ := Prod.mk.inj h
    by_cases hsave : run.canSave
    · obtain ⟨served, -, repo, -, hok⟩ := anchorServed_ok.mp hok
      exact Or.inr ⟨anchoring, served, repo, st', s', hok, rfl, by rw [if_pos hsave]⟩
    · exact Or.inl (if_neg hsave)
  next =>
    obtain ⟨rfl, -⟩ := Prod.mk.inj h
    exact Or.inl rfl

lemma runAnchorServed_of_fresh {t : Session String Unit}
    (hserved : ServedEpoch.fromServerInfo p run.info = .ok served)
    (hrepo : anchorRepoFor p run.serverUrl (run.anchorRepo.or run.env.envRepo) = .ok repo)
    (hcached : cachedAnswer p fromStr (loadState file (normalizeOrigin run.serverUrl)) served repo run.env.now
      run.useCache = none)
    (hfresh : anchorFresh p fromStr run.server run.env (loadState file (normalizeOrigin run.serverUrl))
      run.serverUrl served repo ⟨[], []⟩ = .ok ((anchoring, st'), t)) (hsave : run.canSave) :
    runAnchorServed p fromStr file run =
      (some (saveState file (normalizeOrigin run.serverUrl) st'), .ok anchoring) := by
  have hok : (anchorServed p fromStr run.server run.env file run.serverUrl run.info run.anchorRepo
      run.useCache : Program String Unit CliError (Anchoring × OriginState)) ⟨[], []⟩ =
      .ok ((anchoring, st'), t) := by
    refine anchorServed_ok.mpr ⟨served, hserved, repo, hrepo, ?_⟩
    rw [anchorLoaded, hcached]
    exact hfresh
  simp only [runAnchorServed, hok, if_pos hsave]

lemma genesisChecked_origin (hfile : ∀ origin, (loadState file origin).anchorCache = none)
    (runs : List AnchorRun) :
    Always (fun past x => ∀ origin cache e, (loadState x.before origin).anchorCache = some cache →
      cache.genesisChecked = some e → ∃ y ∈ past, normalizeOrigin y.input.serverUrl = origin ∧
        ∃ key, key.epoch = e ∧ PassedGenesis p fromStr y.input key cache)
      (steps (runAnchorServed p fromStr) file runs) := by
  apply invariant (fun (past : List (Step (Option Json) AnchorRun (Except CliError Anchoring)))
    (st : Option Json) => ∀ origin cache e, (loadState st origin).anchorCache = some cache →
      cache.genesisChecked = some e → ∃ y ∈ past, normalizeOrigin y.input.serverUrl = origin ∧
        ∃ key, key.epoch = e ∧ PassedGenesis p fromStr y.input key cache)
  · intro origin cache e hcache
    rw [hfile origin] at hcache
    cases hcache
  · intro past x rest hsteps ih origin cache e hcache hgenesis
    have hold : (loadState x.before origin).anchorCache = some cache →
        ∃ y ∈ past ++ [x], normalizeOrigin y.input.serverUrl = origin ∧
          ∃ key, key.epoch = e ∧ PassedGenesis p fromStr y.input key cache := by
      intro hbefore
      obtain ⟨y, hy, hrest⟩ := ih origin cache e hbefore hgenesis
      exact ⟨y, List.mem_append_left _ hy, hrest⟩
    rcases runAnchorServed_cases (step_of_eq_append hsteps) with
      hsame | ⟨anchoring, served, repo, st', s', hok, -, hsaved⟩
    · exact hold (hsame ▸ hcache)
    · by_cases horigin : origin = normalizeOrigin x.input.serverUrl
      · subst horigin
        rw [hsaved, loadState_saveState_self] at hcache
        rcases anchorLoaded_cache hok hcache hgenesis with hbefore | hkey
        · exact hold hbefore
        · exact ⟨x, by simp, rfl, hkey⟩
      · rw [hsaved, loadState_saveState_of_ne _ _ _ horigin] at hcache
        exact hold hcache

lemma PassedGenesis.key_eq {key k : EpochKey} (h : PassedGenesis p fromStr run key cache)
    (hanchors : cache.anchors p fromStr = some a') (hkey : a'.key key.epoch = .ok (some k)) : k = key := by
  obtain ⟨n, roots, keys, files, cut, page, genesis, -, hparse, hfiles, hcut, rfl, -⟩ := h
  obtain ⟨-, hkeys⟩ := parse_ok.mp hparse
  have hparse' : Anchors.parse p fromStr cut.rootsJsonl keys = .ok a' := by
    rw [← (new_fields hcut).2.2]
    exact toOption_eq_some.mp hanchors
  obtain ⟨-, hkeys'⟩ := parse_ok.mp hparse'
  have hsame : a'.keys = files.keys := by
    have hok := (mapM_ok.mpr hkeys').symm.trans (mapM_ok.mpr hkeys)
    exact Except.ok.inj hok
  have hsameKey : a'.key key.epoch = files.key key.epoch := by
    rw [Anchors.key, Anchors.key, hsame]
  rw [hsameKey, hfiles] at hkey
  exact (Option.some.inj (Except.ok.inj hkey)).symm

/-- Judging by the cache is judging by the files that it was cut from, and for an epoch after the
first the cache answers only after a run whose genesis check passed against those files. -/
theorem cache_judges_as_files (p : Primitives) (fromStr : String → Except String Json)
    (hfromStr : SkipsCarriageReturn fromStr) :
    (∀ roots keys a, Anchors.parse p fromStr roots keys = .ok a → ∀ repo fetchedAt,
      ∃ cache, AnchorCache.new p fromStr repo fetchedAt roots keys = some cache ∧
        (∀ served highest age, judgeEpoch served (cache.anchors p fromStr) highest age =
          judgeEpoch served (some a) highest age) ∧
        ∀ mode genesis, (cache.anchors p fromStr).map (fun c => checkGenesis p mode c genesis) =
          some (checkGenesis p mode a genesis)) ∧
    ∀ file, (∀ origin, (loadState file origin).anchorCache = none) → ∀ runs,
      Always (fun past x => ∀ origin served repo now e vrf g anchors,
        cachedVerdict p fromStr (loadState x.before origin) served repo now =
          some (.anchored (.v3 e vrf g), anchors) →
        ∃ cache, (loadState x.before origin).anchorCache = some cache ∧ cache.repo = repo ∧
          ∃ y ∈ past, normalizeOrigin y.input.serverUrl = origin ∧
            PassedGenesis p fromStr y.input ⟨e, vrf, g⟩ cache)
        (steps (runAnchorServed p fromStr) file runs) := by
  constructor
  · intro roots keys a hparse repo fetchedAt
    obtain ⟨cache, hnew, hanchors⟩ := exists_new_cache hfromStr hparse repo fetchedAt
    refine ⟨cache, hnew, ?_, ?_⟩
    · intro served highest age
      rw [hanchors, judgeEpoch_cutAnchors]
    · intro mode genesis
      rw [hanchors, Option.map_some, checkGenesis_cutAnchors]
  · intro file hfile runs past x rest hsteps origin served repo now e vrf g anchors hanswer
    obtain ⟨cache, mode, hcache, hrepo, hanchors, hverdict, hjudge, hchecked⟩ := cachedVerdict_eq_some hanswer
    obtain rfl := EpochVerdict.anchored.inj hverdict
    have hgenesis : cache.genesisChecked = some e := hchecked.resolve_left (by simp)
    obtain ⟨y, hy, horigin, key, rfl, hpassed⟩ :=
      genesisChecked_origin hfile runs past x rest hsteps origin cache e hcache hgenesis
    refine ⟨cache, hcache, hrepo, y, hy, horigin, ?_⟩
    rcases judgeEpoch_anchored_cases hjudge with ⟨-, hmode⟩ | ⟨-, _, ha, k, hk, -, hmode⟩
    · cases hmode
    · obtain rfl := Option.some.inj ha
      obtain ⟨hepoch, rfl, rfl⟩ := LogMode.v3.inj hmode
      rw [← hepoch] at hk
      obtain rfl := hpassed.key_eq hanchors hk
      exact hpassed

end

/-! ### An epoch cut -/

def Plain (s : String) : Prop := s.toList.all fun c => 32 < c.toNat ∧ c.toNat < 127

lemma Plain.mem {s : String} (h : Plain s) {c : Char} (hc : c ∈ s.toList) : 32 < c.toNat ∧ c.toNat < 127 := by
  simpa using List.all_eq_true.mp h c hc

lemma plain_append {s t : String} (hs : Plain s) (ht : Plain t) : Plain (s ++ t) := by
  rw [Plain, String.toList_append, List.all_append, hs, ht]
  rfl

lemma plain_hexEncode (bytes : Bytes) : Plain (hexEncode bytes) := by
  have hdigit : ∀ n < 16, 32 < (hexDigit n).toNat ∧ (hexDigit n).toNat < 127 := by decide
  apply List.all_eq_true.mpr
  intro c hc
  simp only [hexEncode, String.toList_ofList, List.mem_flatMap, List.mem_cons, List.not_mem_nil, or_false] at hc
  obtain ⟨b, -, rfl | rfl⟩ := hc
  · exact decide_eq_true (hdigit _ (by have := b.toNat_lt; omega))
  · exact decide_eq_true (hdigit _ (by omega))

def cutRoot : Hash := .replicate 32 0xa4

def cutKey : EpochKey where
  epoch := 2
  vrfPublicKey := .replicate 32 7
  genesisEntryHash := hashOfNat 0x9c362a99d7cef6580b79a91911804174ff2f0b36676301266f38429318fd89dc

def cutKeyHash : Hash := hashOfNat 0x4bb06f8e4e3a7715d201d573d0aa423762e55dabd61a2c02278fa56cc6d294e0

def cutSha256 (bytes : Bytes) : Hash :=
  if bytes = cutKey.vrfPublicKey.toList then cutKeyHash else cutKey.genesisEntryHash

def cutPayload : Bytes := epochPayloadV3 cutSha256 2 11 cutRoot cutKey.vrfPublicKey

def cutPayloadB64 : String :=
  "c2lnbmV0LXB1YmtleS1sb2ctdjMtZXBvY2gAAAIAAAAAAAAAC6SkpKSkpKSkpKSkpKSkpKSkpKSkpKSkpKSkpKSkpKSkS7Bvjk46dxXSAdVz0KpCN2LlXavWGiwCJ4-lbMbSlOA"

def cutPrimitives : Primitives where
  base64UrlDecode s := if s = cutPayloadB64 then some cutPayload else none
  hexDecode s := decodeHex s.toList
  jsonText _ := ""
  debugStr s := "\"" ++ s ++ "\""
  jcsToVec _ := none
  sha256 := cutSha256
  fromSec1Bytes _ := false
  toPublicKeyDer _ := none
  verifyEs256 _ _ _ := false
  mldsa87Decodes _ := false
  mldsa87Verifies _ _ _ _ := false
  uuidParse _ := none
  vrfVerify _ _ _ := none

def rootLine (members root : String) : String :=
  "\x7b" ++ members ++ ",\"merkle_root\":\"" ++ root ++ "\"\x7d"

def keyLine (vrf genesis : String) : String :=
  "\x7b\"vrf_public_key\":\"" ++ vrf ++ "\",\"epoch\":2,\"vrf_suite\":\"ECVRF-RISTRETTO255-SHA512\"," ++
    "\"genesis_entry_hash\":\"" ++ genesis ++ "\"\x7d"

def rootText (members : String) : String := rootLine members (hexEncode cutRoot.toList)

def keyText : String :=
  keyLine (hexEncode cutKey.vrfPublicKey.toList) (hexEncode cutKey.genesisEntryHash.toList)

def rootJson (members : List (String × Json)) : Json :=
  .object (members ++ [("merkle_root", .string (hexEncode cutRoot.toList))])

def keyJson : Json := .object
  [("vrf_public_key", .string (hexEncode cutKey.vrfPublicKey.toList)), ("epoch", .number (.posInt 2)),
    ("vrf_suite", .string VRF_SUITE),
    ("genesis_entry_hash", .string (hexEncode cutKey.genesisEntryHash.toList))]

def cutFromStr (s : String) : Except String Json :=
  if s = rootText "\"log_size\":9" then .ok (rootJson [("log_size", .number (.posInt 9))])
  else if s = rootText "\"log_size\":11" then .ok (rootJson [("log_size", .number (.posInt 11))])
  else if s = rootText "\"epoch_end\":true,\"log_size\":11" then
    .ok (rootJson [("epoch_end", .bool true), ("log_size", .number (.posInt 11))])
  else if s = keyText then .ok keyJson
  else .error "expected value at line 1 column 1"

def cutRootLines : List String :=
  [rootText "\"log_size\":9", rootText "\"log_size\":11", rootText "\"epoch_end\":true,\"log_size\":11"]

def cutRoots : String := "\n".intercalate cutRootLines

def epochTwoFiles : Anchors where
  roots := [⟨1, 9, cutRoot, false⟩, ⟨1, 11, cutRoot, false⟩, ⟨1, 11, cutRoot, true⟩]
  keys := [cutKey]

lemma rootLine_inj {a b root : String} : rootLine a root = rootLine b root ↔ a = b := by
  unfold rootLine
  simp only [String.append_left_inj, String.append_right_inj]

lemma rootLine_ne_empty (members root : String) : rootLine members root ≠ "" := by
  unfold rootLine
  simp

lemma keyLine_ne_empty (vrf genesis : String) : keyLine vrf genesis ≠ "" := by
  unfold keyLine
  simp

lemma keyLine_ne_rootLine {members root vrf genesis : String}
    (h : ∀ rest, members.toList ≠ '"' :: 'v' :: rest) : keyLine vrf genesis ≠ rootLine members root := by
  unfold keyLine rootLine
  intro heq
  rw [← String.toList_inj] at heq
  rcases hchars : members.toList with - | ⟨c, - | ⟨d, rest⟩⟩
  · simp [hchars] at heq
  · simp [hchars] at heq
  · simp only [String.toList_append, hchars] at heq
    simp at heq
    exact h rest (by rw [hchars, heq.1, heq.2.1])

lemma plain_rootLine {members root : String} (hmembers : Plain members) (hroot : Plain root) :
    Plain (rootLine members root) := by
  refine plain_append (plain_append (plain_append (plain_append ?_ hmembers) ?_) hroot) ?_ <;> simp [Plain]

lemma plain_keyLine {vrf genesis : String} (hvrf : Plain vrf) (hgenesis : Plain genesis) :
    Plain (keyLine vrf genesis) := by
  refine plain_append (plain_append (plain_append (plain_append (plain_append ?_ hvrf) ?_) ?_) hgenesis) ?_ <;>
    simp [Plain]

lemma plain_keyText : Plain keyText := plain_keyLine (plain_hexEncode _) (plain_hexEncode _)

lemma plain_cutRootLines : ∀ line ∈ cutRootLines, Plain line := by
  simp only [cutRootLines, List.forall_mem_cons, List.not_mem_nil, false_imp_iff, implies_true, and_true]
  refine ⟨plain_rootLine ?_ (plain_hexEncode _), plain_rootLine ?_ (plain_hexEncode _),
    plain_rootLine ?_ (plain_hexEncode _)⟩ <;> simp [Plain]

lemma not_isWhitespace {c : Char} (h : 32 < c.toNat ∧ c.toNat < 127) : isWhitespace c = false := by
  simp only [isWhitespace, Bool.or_eq_false_iff, Bool.and_eq_false_iff, decide_eq_false_iff_not,
    beq_eq_false_iff_ne]
  omega

lemma nonBlankLines_plain {keep : List String} (h : ∀ line ∈ keep, Plain line ∧ line ≠ "") :
    nonBlankLines ("\n".intercalate keep) = keep := by
  have hkeep : ∀ line ∈ keep, '\n' ∉ line.toList ∧ ¬ isBlank line.toList := by
    intro line hline
    obtain ⟨hplain, hne⟩ := h line hline
    refine ⟨fun hnewline => absurd (hplain.mem hnewline).1 (by decide), ?_⟩
    obtain ⟨c, rest, hcons⟩ := List.exists_cons_of_ne_nil (mt String.toList_eq_nil_iff.mp hne)
    have hc := not_isWhitespace (hplain.mem (by simp [hcons] : c ∈ line.toList))
    simp [isBlank, hcons, hc]
  have hreread := nonBlankLines_intercalate hkeep
  clear hkeep
  generalize nonBlankLines ("\n".intercalate keep) = again at hreread
  induction hreread with
  | nil => rfl
  | cons hline _ ih =>
    simp only [List.forall_mem_cons] at h
    rcases hline with heq | heq
    · rw [String.toList_inj.mp heq, ih h.2]
    · have hreturn := h.1.1.mem (by simp [heq] : '\r' ∈ _)
      exact absurd hreturn.1 (by decide)

lemma cutFromStr_skips : SkipsCarriageReturn cutFromStr := by
  intro s v h
  have hreturn {line : String} (hline : Plain line) : s ++ "\r" ≠ line := by
    intro heq
    have hlast := hline.mem (by simp [← heq] : '\r' ∈ line.toList)
    exact absurd hlast.1 (by decide)
  have hroots := plain_cutRootLines
  simp only [cutRootLines, List.forall_mem_cons] at hroots
  simp [cutFromStr, hreturn hroots.1, hreturn hroots.2.1, hreturn hroots.2.2.1, hreturn plain_keyText] at h

lemma anchorHex32_hexEncode (h : Hash) (what : String) :
    anchorHex32 cutPrimitives (some (.string (hexEncode h.toList))) what = .ok h := by
  have hdecode : cutPrimitives.hexDecode (hexEncode h.toList) = some h.toList := decodeHex_hexEncode _
  simp [anchorHex32, Json.asStr, okOr, hdecode, toVector]

lemma cutFromStr_keyText : cutFromStr keyText = .ok keyJson := by
  have hne {members : String} (h : ∀ rest, members.toList ≠ '"' :: 'v' :: rest) :
      keyText ≠ rootText members := keyLine_ne_rootLine h
  rw [cutFromStr, if_neg (hne (by simp)), if_neg (hne (by simp)), if_neg (hne (by simp)), if_pos rfl]

lemma cutFromStr_rootLines :
    cutFromStr (rootText "\"log_size\":9") = .ok (rootJson [("log_size", .number (.posInt 9))]) ∧
    cutFromStr (rootText "\"log_size\":11") = .ok (rootJson [("log_size", .number (.posInt 11))]) ∧
    cutFromStr (rootText "\"epoch_end\":true,\"log_size\":11") =
      .ok (rootJson [("epoch_end", .bool true), ("log_size", .number (.posInt 11))]) := by
  simp [cutFromStr, rootText, rootLine_inj]

lemma epochTwoFiles_parse : Anchors.parse cutPrimitives cutFromStr cutRoots keyText = .ok epochTwoFiles := by
  have hkey : nonBlankLines ("\n".intercalate [keyText]) = [keyText] := by
    apply nonBlankLines_plain
    simp only [List.forall_mem_singleton]
    exact ⟨plain_keyText, keyLine_ne_empty _ _⟩
  have hroots : nonBlankLines cutRoots = cutRootLines := by
    apply nonBlankLines_plain
    intro line hline
    refine ⟨plain_cutRootLines line hline, ?_⟩
    simp only [cutRootLines, List.mem_cons, List.not_mem_nil, or_false] at hline
    rcases hline with rfl | rfl | rfl <;> exact rootLine_ne_empty _ _
  apply parse_ok.mpr
  rw [String.intercalate_singleton] at hkey
  rw [hroots, hkey]
  obtain ⟨hfirst, hlatest, hend⟩ := cutFromStr_rootLines
  refine ⟨.cons ?_ (.cons ?_ (.cons ?_ .nil)), .cons ?_ .nil⟩
  · simp [parseRootLine, hfirst, rootJson, epochOf, Json.get, Json.getU64, Json.asU64, List.lookup_cons,
      anchorHex32_hexEncode]
  · simp [parseRootLine, hlatest, rootJson, epochOf, Json.get, Json.getU64, Json.asU64, List.lookup_cons,
      anchorHex32_hexEncode]
  · simp [parseRootLine, hend, rootJson, epochOf, Json.get, Json.getU64, Json.asU64, Json.asBool,
      List.lookup_cons, anchorHex32_hexEncode]
  · simp [parseKeyLine, cutFromStr_keyText, keyJson, epochOf, Json.get, Json.getStr, Json.asStr, Json.asU64,
      List.lookup_cons, anchorHex32_hexEncode]
    rfl

def cutRepo : String := "org/log"

def cutEnv (now : U64) : AnchorEnv where
  envRepo := some cutRepo
  now := now
  getTextOnce _ url :=
    if url = "https://raw.githubusercontent.com/org/log/main/roots.jsonl" then .ok cutRoots else .ok keyText

def cutGenesis : Json := .object
  [("entry_id", .number (.posInt 1)), ("entry_version", .number (.posInt 3)), ("key_purpose", .string "epoch"),
    ("public_key", .string cutPayloadB64), ("created_at", .number (.posInt 1700000000))]

def cutServed : ServedEpoch := ⟨2, some cutKey.vrfPublicKey, by decide⟩

def cutMode : LogMode := .v3 2 cutKey.vrfPublicKey cutKey.genesisEntryHash

def cutServer : HttpServer := fun _ => .ok (.object [("entries", .array [cutGenesis])])

def cutRun (now : U64) : AnchorRun where
  server := cutServer
  env := cutEnv now
  serverUrl := "https://drive.example"
  info := .object [("translog", .object [("epoch", .number (.posInt 2)), ("vrf_suite", .string VRF_SUITE),
    ("vrf_public_key", .string (hexEncode cutKey.vrfPublicKey.toList))])]
  anchorRepo := none
  useCache := true
  canSave := true

lemma cutRun_served (now : U64) :
    ServedEpoch.fromServerInfo cutPrimitives (cutRun now).info = .ok cutServed := by
  have hepoch : epochOf (.object [("epoch", .number (.posInt 2)), ("vrf_suite", .string VRF_SUITE),
      ("vrf_public_key", .string (hexEncode cutKey.vrfPublicKey.toList))]) = .ok 2 := rfl
  have hkey := anchorHex32_hexEncode cutKey.vrfPublicKey "translog.vrf_public_key"
  simp only [ServedEpoch.fromServerInfo, cutRun, Json.get, List.lookup_cons, String.reduceBEq]
  split
  next e herror => rw [hepoch] at herror; cases herror
  next epoch hok =>
    obtain rfl : 2 = epoch := Except.ok.inj (hepoch.symm.trans hok)
    simp [servedVrfKey, checkSuite, Json.getStr, Json.get, Json.asStr, List.lookup_cons, hkey]
    rfl

lemma cutRun_repo (now : U64) :
    anchorRepoFor cutPrimitives (cutRun now).serverUrl ((cutRun now).anchorRepo.or (cutRun now).env.envRepo) =
      .ok (some cutRepo) := rfl

lemma fetchRaw_cutEnv (now : U64) (n : ℕ) : fetchRaw (cutEnv now) n cutRepo = some (cutRoots, keyText) := rfl

lemma endLine_epochTwoFiles : epochTwoFiles.endLine (2 - 1) = some ⟨1, 11, cutRoot, true⟩ := by
  simp [Anchors.endLine, epochTwoFiles]

lemma base64UrlDecode_cutPayloadB64 : cutPrimitives.base64UrlDecode cutPayloadB64 = some cutPayload := by
  simp only [cutPrimitives, if_true]

lemma cutPrimitives_sha256 {bytes : Bytes} (h : bytes.head? = some 3) :
    cutPrimitives.sha256 bytes = cutKey.genesisEntryHash := by
  have hne : bytes ≠ cutKey.vrfPublicKey.toList := by
    rintro rfl
    exact absurd h (by decide)
  simp only [cutPrimitives, cutSha256, if_neg hne]

lemma checkGenesis_cutGenesis : checkGenesis cutPrimitives cutMode epochTwoFiles cutGenesis = .ok () := by
  have hhash : entryHashV3 cutPrimitives.sha256 1 none .epoch EPOCH_ALGORITHM_V3 cutPayload 1700000000
      (.replicate 32 0) = cutKey.genesisEntryHash := by
    rw [entryHashV3]
    apply cutPrimitives_sha256
    rfl
  have hpayload : (cutGenesis.getStr "public_key").bind cutPrimitives.base64UrlDecode = some cutPayload := by
    have hget : cutGenesis.getStr "public_key" = some cutPayloadB64 := rfl
    rw [hget, Option.bind_some, base64UrlDecode_cutPayloadB64]
  simp only [checkGenesis, cutMode, except_bind_ok, okOr_ok, ensure_ok]
  exact ⟨⟨1, 11, cutRoot, true⟩, endLine_epochTwoFiles, (), ⟨rfl, rfl, rfl, rfl⟩, cutPayload, hpayload, (), rfl,
    1700000000, rfl, hhash⟩

lemma judgeEpoch_cutServed {highest : U16} (h : highest ≤ 2) (age : Option Duration) :
    judgeEpoch cutServed (some epochTwoFiles) highest age = .anchored cutMode := by
  have hbelow : ¬ cutServed.epoch < highest := not_lt.mpr h
  rw [judgeEpoch, if_neg hbelow]
  rfl

lemma readAndJudge_cutEnv (now : U64) (judge : Option Anchors → EpochVerdict)
    (hjudge : judge (some epochTwoFiles) = .anchored cutMode) :
    readAndJudge cutPrimitives cutFromStr (cutEnv now) (some cutRepo) judge =
      (some ⟨epochTwoFiles, cutRoots, keyText, epochTwoFiles_parse⟩, .anchored cutMode) := by
  have hread : readFiles cutPrimitives cutFromStr (cutEnv now) (some cutRepo) 0 =
      some ⟨epochTwoFiles, cutRoots, keyText, epochTwoFiles_parse⟩ :=
    readFiles_of_fetchRaw (fetchRaw_cutEnv now 0) epochTwoFiles_parse
  simp only [readAndJudge, hread, Option.map_some, hjudge]
  rfl

lemma checkServedGenesis_cut {E : Type} (s : Session String E) (serverUrl : String) {server : HttpServer}
    {page : Json} (hserver : server (s.sent ++ [genesisUrl serverUrl 2]) = .ok page)
    (hpage : firstEntry page = .ok cutGenesis) : checkServedGenesis cutPrimitives cutFromStr server serverUrl
      (some ⟨epochTwoFiles, cutRoots, keyText, epochTwoFiles_parse⟩) (.anchored cutMode) s =
      .ok ((some 2, .anchored cutMode), { s with sent := s.sent ++ [genesisUrl serverUrl 2] }) := by
  have hcheck := checkGenesis_cutGenesis
  simp only [cutMode] at hcheck ⊢
  simp only [checkServedGenesis, bind_ok, request_ok, check_ok]
  exact ⟨page, _, ⟨hserver, rfl⟩, cutGenesis, _, ⟨hpage, rfl⟩, by rw [hcheck]; rfl⟩

lemma anchorFresh_cut (now : U64) {st : OriginState} (hst : st.highestEpoch ≤ 2) {E : Type}
    (s : Session String E) (serverUrl : String) (server : HttpServer) {page : Json}
    (hserver : server (s.sent ++ [genesisUrl serverUrl 2]) = .ok page)
    (hpage : firstEntry page = .ok cutGenesis) :
    ∃ cache, AnchorCache.new cutPrimitives cutFromStr cutRepo now cutRoots keyText = some cache ∧
      anchorFresh cutPrimitives cutFromStr server (cutEnv now) st serverUrl cutServed (some cutRepo) s =
      .ok ((⟨cutServed, some epochTwoFiles, .anchored cutMode, true⟩,
        updateState { st with anchorCache := some { cache with genesisChecked := some 2 } } 2
          (.anchored cutMode) now),
        { s with sent := s.sent ++ [genesisUrl serverUrl 2] }) := by
  obtain ⟨cache, hnew, -⟩ := exists_new_cache cutFromStr_skips epochTwoFiles_parse cutRepo now
  refine ⟨cache, hnew, ?_⟩
  have hread := readAndJudge_cutEnv now (fun anchors => judgeEpoch cutServed anchors st.highestEpoch
    (st.age cutServed.epoch (cutEnv now).now)) (judgeEpoch_cutServed hst _)
  have hrefresh : refreshCache cutPrimitives cutFromStr st (some cutRepo) now
      (some ⟨epochTwoFiles, cutRoots, keyText, epochTwoFiles_parse⟩) (some 2) =
      { st with anchorCache := some { cache with genesisChecked := some 2 } } := by
    apply refreshCache_of_new
    exact hnew
  simp only [anchorFresh, hread, bind_ok, pure_ok]
  refine ⟨_, _, checkServedGenesis_cut s serverUrl hserver hpage, ?_, rfl⟩
  rw [← hrefresh]
  rfl

lemma cutRun_cached : ∃ st anchoring,
    runAnchorServed cutPrimitives cutFromStr none (cutRun 2000) =
      (some (saveState none (normalizeOrigin (cutRun 2000).serverUrl) st), .ok anchoring) ∧
    cachedVerdict cutPrimitives cutFromStr st cutServed cutRepo 3000 =
      some (.anchored cutMode, cutAnchors epochTwoFiles) := by
  have hdefault : OriginState.default.highestEpoch ≤ 2 := Fin.zero_le 2
  obtain ⟨cache, hnew, hfresh⟩ := anchorFresh_cut 2000 hdefault (⟨[], []⟩ : Session String Unit)
    (cutRun 2000).serverUrl cutServer rfl rfl
  refine ⟨_, _, runAnchorServed_of_fresh (cutRun_served 2000) (cutRun_repo 2000) rfl hfresh rfl, ?_⟩
  obtain ⟨cache', hnew', hanchors⟩ := exists_new_cache cutFromStr_skips epochTwoFiles_parse cutRepo 2000
  obtain rfl := Option.some.inj (hnew.symm.trans hnew')
  obtain ⟨hrepo, hfetched, -⟩ := new_fields hnew
  refine cachedVerdict_of_cache rfl hrepo ?_ hanchors ?_ rfl
  · simp only [hfetched]
    decide
  · rw [judgeEpoch_cutAnchors]
    exact judgeEpoch_cutServed (max_le hdefault le_rfl) _

theorem cache_judges_as_files_cut : ∃ file anchoring cache,
    runAnchorServed cutPrimitives cutFromStr none (cutRun 2000) = (some file, .ok anchoring) ∧
    cachedVerdict cutPrimitives cutFromStr (loadState (some file) (normalizeOrigin (cutRun 2000).serverUrl))
      cutServed cutRepo 3000 = some (.anchored cutMode, cutAnchors epochTwoFiles) ∧
    PassedGenesis cutPrimitives cutFromStr (cutRun 2000) cutKey cache := by
  obtain ⟨st, anchoring, hrun, hcached⟩ := cutRun_cached
  rw [← loadState_saveState_self none (normalizeOrigin (cutRun 2000).serverUrl) st] at hcached
  have hbefore : (runAnchorServed cutPrimitives cutFromStr none (cutRun 2000)).1 =
      some (saveState none (normalizeOrigin (cutRun 2000).serverUrl) st) := by
    rw [hrun]
  have hruns := (cache_judges_as_files cutPrimitives cutFromStr cutFromStr_skips).2 none (fun _ => rfl)
    [cutRun 2000, cutRun 3000]
  rw [steps, always_cons, steps, always_cons, hbefore] at hruns
  obtain ⟨cache, -, -, y, hy, -, hpassed⟩ := hruns.2.1 _ _ _ _ _ _ _ _ hcached
  obtain rfl := List.mem_singleton.mp hy
  exact ⟨_, anchoring, cache, hrun, hcached, hpassed⟩

end SignetDrive.Proofs
