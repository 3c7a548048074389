import SignetDrive.Lib.Run
import SignetDrive.Model.HostSigner
import SignetDrive.Model.SoftwareKeystore

namespace SignetDrive.Proofs
open Run Client

variable {Key Rand : Type} {b : Backend Key Rand} {ks ks' : Keystore Key} {h : String}

/-- The keystores have the same keys under the handle. -/
def AgreeOn (h : String) (ks ks' : Keystore Key) : Prop :=
  ∀ l : KeyLabel, l.handle = h → ks.get l = ks'.get l

variable {l : KeyLabel} {label : String}

lemma scopedLabel_ok :
    scopedLabel label h = .ok l ↔ l.full = label ∧ l.handle = h := by
  unfold scopedLabel
  rw [except_bind_ok]
  constructor
  · rintro ⟨parsed, hparse, hl⟩
    split at hl
    · cases hl
    · rename_i hne
      cases hl
      exact ⟨KeyLabel.parse_ok.mp hparse, not_not.mp hne⟩
  · rintro ⟨hfull, rfl⟩
    refine ⟨l, KeyLabel.parse_ok.mpr hfull, ?_⟩
    simp [pure, Except.pure]

lemma scopedLabel_handle (hl : scopedLabel label h = .ok l) : l.handle = h :=
  (scopedLabel_ok.mp hl).2

lemma scopedLabel_bind_congr {α : Type} {f g : KeyLabel → Except CliError α}
    (hfg : ∀ l : KeyLabel, l.handle = h → f l = g l) :
    (scopedLabel label h >>= f) = (scopedLabel label h >>= g) := by
  cases hlabel : scopedLabel label h with
  | error e => rfl
  | ok l => exact hfg l (scopedLabel_handle hlabel)

lemma listedFor_listed (l : KeyLabel) (k : Key) :
    listedFor h (b.listed l k) = decide (l.handle = h) := by
  unfold listedFor
  rw [b.listed_label, KeyLabel.parse_ok.mpr rfl]

lemma sort_filter (s : Finset KeyLabel) (p : KeyLabel → Prop) [DecidablePred p] :
    (s.sort (· ≤ ·)).filter p = (s.filter p).sort (· ≤ ·) := by
  apply List.Perm.eq_of_pairwise (fun _ _ _ _ => le_antisymm)
  · exact (s.pairwise_sort (· ≤ ·)).filter _
  · exact (s.filter p).pairwise_sort (· ≤ ·)
  · rw [List.perm_ext_iff_of_nodup ((s.sort_nodup (· ≤ ·)).filter _) ((s.filter p).sort_nodup (· ≤ ·))]
    intro l
    simp

lemma list_filter (ks : Keystore Key) :
    (ks.list b).filter (listedFor h) =
      ((ks.labels.filter (·.handle = h)).sort (· ≤ ·)).filterMap
        fun l => (ks.get l).map (b.listed l) := by
  rw [Keystore.list, ← sort_filter, List.filter_filterMap, List.filterMap_filter]
  congr 1
  funext l
  cases hget : ks.get l with
  | none => simp
  | some k =>
    by_cases hl : l.handle = h
    · simp [listedFor_listed, hl]
    · simp [listedFor_listed, hl]

lemma AgreeOn.list_filter (hagree : AgreeOn h ks ks') :
    (ks.list b).filter (listedFor h) = (ks'.list b).filter (listedFor h) := by
  have hlabels : ks.labels.filter (·.handle = h) = ks'.labels.filter (·.handle = h) := by
    ext l
    simp only [Finset.mem_filter, ks.mem_labels, ks'.mem_labels]
    constructor
    · rintro ⟨hl, hh⟩
      rw [hagree l hh] at hl
      exact ⟨hl, hh⟩
    · rintro ⟨hl, hh⟩
      rw [← hagree l hh] at hl
      exact ⟨hl, hh⟩
  rw [Proofs.list_filter, Proofs.list_filter, hlabels]
  apply List.filterMap_congr
  intro l hl
  rw [Finset.mem_sort, Finset.mem_filter] at hl
  rw [hagree l hl.2]

lemma AgreeOn.set (hagree : AgreeOn h ks ks') (entry : Option Key) :
    AgreeOn h (ks.set l entry) (ks'.set l entry) := by
  intro l' hl'
  by_cases hne : l' = l
  · subst hne
    rw [Keystore.get_set_self, Keystore.get_set_self]
  · rw [Keystore.get_set_ne _ _ hne, Keystore.get_set_ne _ _ hne, hagree l' hl']

lemma AgreeOn.dispatch (hagree : AgreeOn h ks ks') (op : Op) (rand : Rand) :
    (dispatch b ks h op rand).1 = (dispatch b ks' h op rand).1 ∧
      AgreeOn h (dispatch b ks h op rand).2 (dispatch b ks' h op rand).2 := by
  cases op with
  | keygen label algorithm =>
    simp only [SignetDrive.dispatch]
    cases hlabel : scopedLabel label h with
    | error e => exact ⟨rfl, hagree⟩
    | ok l =>
      have hget := hagree l (scopedLabel_handle hlabel)
      simp only [Keystore.generate, hget]
      exact ⟨trivial, hagree.set _⟩
  | delete label =>
    simp only [SignetDrive.dispatch]
    cases hlabel : scopedLabel label h with
    | error e => exact ⟨rfl, hagree⟩
    | ok l =>
      have hget := hagree l (scopedLabel_handle hlabel)
      simp only [Keystore.delete, hget]
      exact ⟨trivial, hagree.set _⟩
  | list =>
    refine ⟨?_, hagree⟩
    simp only [SignetDrive.dispatch, hagree.list_filter]
  | identity => exact ⟨rfl, hagree⟩
  | sign label msg | ecdh label peerPubX963 | mlKemDecapsulate label ek | mlDsaSign label msg ctx
  | keyMeta label =>
    refine ⟨?_, hagree⟩
    apply scopedLabel_bind_congr
    intro l hl
    rw [hagree l hl]
  | «exists» label =>
    refine ⟨?_, hagree⟩
    apply scopedLabel_bind_congr
    intro l hl
    rw [Keystore.contains, Keystore.contains, hagree l hl]

lemma dispatch_frame (ks : Keystore Key) (op : Op) (rand : Rand) (hl : l.handle ≠ h) :
    (dispatch b ks h op rand).2.get l = ks.get l := by
  have hset : ∀ (label : String) (l' : KeyLabel), scopedLabel label h = .ok l' →
      ∀ entry, (ks.set l' entry).get l = ks.get l := by
    intro label l' hlabel entry
    apply Keystore.get_set_ne
    rintro rfl
    exact hl (scopedLabel_handle hlabel)
  cases op with
  | keygen label algorithm =>
    simp only [dispatch]
    cases hlabel : scopedLabel label h with
    | error e => rfl
    | ok l' => exact hset label l' hlabel _
  | delete label =>
    simp only [dispatch]
    cases hlabel : scopedLabel label h with
    | error e => rfl
    | ok l' => exact hset label l' hlabel _
  | _ => rfl

/-- Operations of one handle are isolated from the keys of all others: their responses and
what they leave under the handle's labels do not depend on those keys, which stay as they were. -/
theorem handleOp_isolated (b : Backend Key Rand) (h : String) (op : Op) (rand : Rand)
    (ks ks' : Keystore Key) (hagree : AgreeOn h ks ks') :
    (handleOp b ks h op rand).1 = (handleOp b ks' h op rand).1 ∧
      AgreeOn h (handleOp b ks h op rand).2 (handleOp b ks' h op rand).2 ∧
      ∀ l : KeyLabel, l.handle ≠ h →
        (handleOp b ks h op rand).2.get l = ks.get l ∧
        (handleOp b ks' h op rand).2.get l = ks'.get l := by
  obtain ⟨hresult, hafter⟩ := hagree.dispatch op rand
  refine ⟨congrArg Response.ofResult hresult, hafter, ?_⟩
  intro l hl
  exact ⟨dispatch_frame ks op rand hl, dispatch_frame ks' op rand hl⟩

def hlinSigning : KeyLabel := ⟨"hlin-ai", .signing, by decide⟩

def bobSigning : KeyLabel := ⟨"bob-ai", .signing, by decide⟩

def storedExample : StoredKey := ⟨"ES256", "software", "f0e1", [4, 1, 2], [9]⟩

def keystoreCrypto : SoftwareCrypto Unit where
  ecdsaGenerate _ := (List.replicate 32 1, [4, 1, 2])
  ecdhGenerate _ := (List.replicate 32 2, [4, 3, 4])
  mlDsaSeed _ := List.replicate 32 3
  mlDsaVerifyingKey _ := [5, 6]
  mlKemSeed _ := List.replicate 64 4
  mlKemEncapsulationKey _ := [7, 8]
  fingerprint pub := .ok (if pub = [4, 1, 2] then "f0e1" else "d2c3")
  fingerprintRaw pub := if pub = [5, 6] then "b4a5" else "9687"
  sealBytes _ secret _ := .ok (List.replicate 12 0 ++ secret)
  openBytes blob _ := .ok (blob.drop 12)
  signEs256 _ _ := .ok (List.Vector.replicate 64 5)
  ecdhP256 _ _ := .ok (List.Vector.replicate 32 6)
  decapsulate _ _ := .ok (List.Vector.replicate 32 7)
  signRandomized _ _ _ _ := .ok [9]

def hlinOnly : Keystore StoredKey := Keystore.empty.set hlinSigning (some storedExample)

def hlinAndBob : Keystore StoredKey := hlinOnly.set bobSigning (some storedExample)

theorem handleOp_isolated_list :
    (handleOp (SoftwareKeystore.backend keystoreCrypto) hlinOnly "hlin-ai" .list ()).1 =
      .ok (.list [⟨"hlin-ai-signing", "signing", "ES256", "f0e1", [4, 1, 2]⟩]) ∧
    (handleOp (SoftwareKeystore.backend keystoreCrypto) hlinOnly "hlin-ai" .list ()).1 =
      (handleOp (SoftwareKeystore.backend keystoreCrypto) hlinAndBob "hlin-ai" .list ()).1 := by
  refine ⟨by decide +kernel, (handleOp_isolated _ "hlin-ai" .list () hlinOnly hlinAndBob ?_).1⟩
  intro l hl
  refine (Keystore.get_set_ne _ _ ?_).symm
  rintro rfl
  revert hl
  decide

/-- An operation, with the handle it is made under. -/
structure HostRequest (Rand : Type) where
  handle : String
  op : Op
  rand : Rand

/-- The keystore and the response after one operation. -/
def hostStep (b : Backend Key Rand) (ks : Keystore Key) (r : HostRequest Rand) :
    Keystore Key × Response :=
  (handleOp b ks r.handle r.op r.rand).swap

/-- In any interleaving of the requests of many handles, each handle gets the responses it
would get alone, from a store with its own keys only. -/
theorem hostRun_noninterference (b : Backend Key Rand) (h : String)
    (requests : List (HostRequest Rand)) (ks ks' : Keystore Key) (hagree : AgreeOn h ks ks') :
    ((steps (hostStep b) ks requests).filter fun e => e.input.handle = h).map Step.output =
      (steps (hostStep b) ks' (requests.filter fun r => r.handle = h)).map Step.output := by
  induction requests generalizing ks ks' with
  | nil => rfl
  | cons r requests ih =>
    by_cases hr : r.handle = h
    · subst hr
      obtain ⟨hresult, hafter⟩ := hagree.dispatch r.op r.rand
      rw [List.filter_cons_of_pos (by simp), steps, steps, List.filter_cons_of_pos (by simp),
        List.map_cons, List.map_cons]
      exact congrArg₂ List.cons (congrArg Response.ofResult hresult) (ih _ _ hafter)
    · rw [List.filter_cons_of_neg (by simpa using hr), steps,
        List.filter_cons_of_neg (by simpa using hr)]
      apply ih
      intro l hl
      rw [← hagree l hl]
      apply dispatch_frame
      rw [hl]
      exact Ne.symm hr

def twoHandles : List (HostRequest Unit) := [⟨"bob-ai", .list, ()⟩, ⟨"hlin-ai", .list, ()⟩]

theorem hostRun_noninterference_list :
    ((steps (hostStep (SoftwareKeystore.backend keystoreCrypto)) hlinAndBob twoHandles).filter fun e =>
        e.input.handle = "hlin-ai").map Step.output =
      (steps (hostStep (SoftwareKeystore.backend keystoreCrypto)) hlinOnly (twoHandles.filter fun r =>
        r.handle = "hlin-ai")).map Step.output := by
  refine hostRun_noninterference _ "hlin-ai" twoHandles hlinAndBob hlinOnly fun l hl =>
    Keystore.get_set_ne _ _ ?_
  rintro rfl
  revert hl
  decide

end SignetDrive.Proofs
