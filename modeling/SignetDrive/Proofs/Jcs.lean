import SignetDrive.Proofs.JcsOrder

namespace SignetDrive.Proofs

open Delimited Jcs

def KEY_MESSAGE : String :=
  "jcs: object key outside the enforced domain (plain ASCII, no control chars, no quote/backslash)"

section Sequences

variable {ε α β : Type}

variable {f : α → Except ε β} {bytes : Bytes}

lemma mapM_of_ok {g : α → β} {l : List α} (h : ∀ a ∈ l, f a = .ok (g a)) : l.mapM f = .ok (l.map g) := by
  induction l with
  | nil => rfl
  | cons a l ih =>
    rw [List.forall_mem_cons] at h
    rw [List.mapM_cons, h.1, ih h.2]
    rfl

lemma mapM_of_error {e : ε} {l : List α} (h : ∀ a ∈ l, (∃ b, f a = .ok b) ∨ f a = .error e)
    (herror : ∃ a ∈ l, f a = .error e) : l.mapM f = .error e := by
  induction l with
  | nil => simp at herror
  | cons a l ih =>
    rw [List.forall_mem_cons] at h
    rw [List.exists_mem_cons_iff] at herror
    rw [List.mapM_cons]
    cases h.1 with
    | inr ha =>
      rw [ha]
      rfl
    | inl hok =>
      obtain ⟨b, hb⟩ := hok
      have htail : ∃ a ∈ l, f a = .error e := by
        refine herror.resolve_left fun ha => ?_
        rw [hb] at ha
        cases ha
      rw [hb, ih h.2 htail]
      rfl

end Sequences

variable (p : Floats)

lemma webSerializeItems_eq (items : List Json) : webSerializeItems p items = items.mapM (webSerialize p) := by
  induction items with
  | nil => rfl
  | cons item items ih => rw [webSerializeItems, ih, List.mapM_cons]

lemma webSerializeMembers_eq (members : List (String × Json)) :
    webSerializeMembers p members = members.map fun m => (m.1, webSerialize p m.2) := by
  induction members with
  | nil => rfl
  | cons m members ih => rw [webSerializeMembers, ih, List.map_cons]

lemma webSerialize_number {n : Number} (h : IsSafeInteger n) :
    webSerialize p (.number n) = .ok (numberText p n) := by
  cases n with
  | posInt n =>
    have hsafe : safeInteger p (.posInt n) = some (n.val : ℤ) := if_pos h
    rw [webSerialize, hsafe, numberText]
  | negInt n =>
    have hsafe : safeInteger p (.negInt n) = some (-(n.1 : ℤ)) := if_pos h
    rw [webSerialize, hsafe, numberText]
  | float bits => exact h.elim

lemma webSerialize_array (items : List Json) :
    webSerialize p (.array items) =
      (items.mapM (webSerialize p)).map fun texts => '[' :: (join ',' texts ++ [']']) := by
  rw [webSerialize, webSerializeItems_eq]
  rfl

def memberResult (m : String × Except WebError Text) : Except WebError Text := memberText m.1 <$> m.2

variable {v : Json} {members : List (String × Json)}

lemma webSerialize_object (h : PlainKeys (members.map Prod.fst)) :
    webSerialize p (.object members) =
      (((webSerializeMembers p members).insertionSort (byKey charCodes)).mapM memberResult).map
        fun texts => '\x7b' :: (join ',' texts ++ ['\x7d']) := by
  have hdomain : (members.all fun m => webKeyInDomain m.1) = true := by
    rw [List.all_eq_true]
    exact fun m hm => (webKeyInDomain_iff m.1).mpr (h m.1 (List.mem_map_of_mem hm))
  rw [webSerialize, if_pos hdomain]
  rfl

lemma webSerialize_object_refused (h : ¬ PlainKeys (members.map Prod.fst)) :
    webSerialize p (.object members) = .error (.invalidInput KEY_MESSAGE) := by
  have hdomain : ¬ (members.all fun m => webKeyInDomain m.1) = true := by
    intro hall
    apply h
    rw [PlainKeys, List.forall_mem_map]
    exact fun m hm => (webKeyInDomain_iff m.1).mp (List.all_eq_true.mp hall m hm)
  rw [webSerialize, if_neg hdomain]
  rfl

def written (m : String × Json) : String × Except WebError Text := (m.1, .ok (write p m.2))

lemma sorted_texts
    (h : ∀ m ∈ members, webSerialize p m.2 = .ok (write p (arrange charCodes m.2))) :
    (webSerializeMembers p members).insertionSort (byKey charCodes) =
      ((arranged charCodes members).insertionSort (byKey charCodes)).map (written p) := by
  rw [List.map_insertionSort (byKey charCodes) (byKey charCodes) (written p) _ (fun _ _ _ _ => Iff.rfl),
    arranged, List.map_map, webSerializeMembers_eq]
  congr 1
  exact List.map_congr_left fun m hm => by rw [h m hm]; rfl

theorem webSerialize_accepted (hv : KeysAccepted v) :
    webSerialize p v = .ok (write p (arrange charCodes v)) := by
  induction v using json_induction with
  | null => rfl
  | bool b => rfl
  | string t => rfl
  | number n => exact webSerialize_number p hv
  | array items ih =>
    rw [KeysAccepted, every_array] at hv
    rw [webSerialize_array, mapM_of_ok fun item hitem => ih item hitem (hv item hitem), arrange_array, write,
      writeItems_eq, List.map_map]
    rfl
  | object members ih =>
    rw [KeysAccepted, every_object] at hv
    have htexts : ((arranged charCodes members).insertionSort (byKey charCodes)).mapM
        (memberResult ∘ written p) =
          .ok (((arranged charCodes members).insertionSort (byKey charCodes)).map (writeMember p)) :=
      mapM_of_ok fun _ _ => rfl
    rw [webSerialize_object p hv.1.2, sorted_texts p fun m hm => ih m hm (hv.2 m hm), List.mapM_map, htexts,
      arrange_object, write, writeMembers_eq]
    rfl

theorem webSerialize_refused (hv : InScope v) (h : ¬ v.checkKeys = true) :
    webSerialize p v = .error (.invalidInput KEY_MESSAGE) := by
  induction v using json_induction with
  | null | bool | string | number => exact absurd rfl h
  | array items ih =>
    rw [InScope, every_array] at hv
    have hparts : ∀ item ∈ items, (∃ text, webSerialize p item = .ok text) ∨
        webSerialize p item = .error (.invalidInput KEY_MESSAGE) := by
      intro item hitem
      by_cases hcheck : item.checkKeys = true
      · exact .inl ⟨_, webSerialize_accepted p (accepted_of_checkKeys (hv item hitem) hcheck)⟩
      · exact .inr (ih item hitem (hv item hitem) hcheck)
    have herror : ∃ item ∈ items, webSerialize p item = .error (.invalidInput KEY_MESSAGE) := by
      rw [Json.checkKeys, checkItems_iff] at h
      push Not at h
      obtain ⟨item, hitem, hcheck⟩ := h
      exact ⟨item, hitem, ih item hitem (hv item hitem) hcheck⟩
    rw [webSerialize_array, mapM_of_error hparts herror]
    rfl
  | object members ih =>
    rw [InScope, every_object] at hv
    by_cases hplain : PlainKeys (members.map Prod.fst)
    · have hparts : ∀ m ∈ members, (∃ text, webSerialize p m.2 = .ok text) ∨
          webSerialize p m.2 = .error (.invalidInput KEY_MESSAGE) := by
        intro m hm
        by_cases hcheck : m.2.checkKeys = true
        · exact .inl ⟨_, webSerialize_accepted p (accepted_of_checkKeys (hv.2 m hm) hcheck)⟩
        · exact .inr (ih m hm (hv.2 m hm) hcheck)
      have herror : ∃ m ∈ members, webSerialize p m.2 = .error (.invalidInput KEY_MESSAGE) := by
        rw [Json.checkKeys, checkMembers_iff] at h
        push Not at h
        obtain ⟨m, hm, hcheck⟩ := h hplain
        exact ⟨m, hm, ih m hm (hv.2 m hm) hcheck⟩
      have hmem {a : String × Except WebError Text} :
          a ∈ (webSerializeMembers p members).insertionSort (byKey charCodes) ↔
            ∃ m ∈ members, (m.1, webSerialize p m.2) = a := by
        rw [List.mem_insertionSort, webSerializeMembers_eq, List.mem_map]
      have hresults : ∀ a ∈ (webSerializeMembers p members).insertionSort (byKey charCodes),
          (∃ text, memberResult a = .ok text) ∨ memberResult a = .error (.invalidInput KEY_MESSAGE) := by
        intro a ha
        obtain ⟨m, hm, rfl⟩ := hmem.mp ha
        apply (hparts m hm).imp
        · rintro ⟨text, htext⟩
          exact ⟨memberText m.1 text, by rw [memberResult, htext]; rfl⟩
        · intro he
          rw [memberResult, he]
          rfl
      obtain ⟨m, hm, he⟩ := herror
      have hfails : memberResult (m.1, webSerialize p m.2) = .error (.invalidInput KEY_MESSAGE) := by
        rw [memberResult, he]
        rfl
      rw [webSerialize_object p hplain, mapM_of_error hresults ⟨_, hmem.mpr ⟨m, hm, rfl⟩, hfails⟩]
      rfl
    · exact webSerialize_object_refused p hplain

lemma toCanonicalBytes_accepted (hv : KeysAccepted v) :
    toCanonicalBytes p v = .ok (encode (write p (arrange serialisedKey v))) :=
  if_pos hv.checkKeys

lemma toCanonicalBytes_refused (h : ¬ v.checkKeys = true) :
    toCanonicalBytes p v = .error (.invalidInput KEY_MESSAGE) :=
  if_neg h

lemma webToCanonicalBytes_accepted (hv : KeysAccepted v) :
    webToCanonicalBytes p v = .ok (encode (write p (arrange charCodes v))) := by
  rw [webToCanonicalBytes, webSerialize_accepted p hv]
  rfl

lemma webToCanonicalBytes_refused (hv : InScope v) (h : ¬ v.checkKeys = true) :
    webToCanonicalBytes p v = .error (.invalidInput KEY_MESSAGE) := by
  rw [webToCanonicalBytes, webSerialize_refused p hv h]
  rfl

/-- Both clients refuse the value, or write the same bytes. -/
def Agree (v : Json) : Prop :=
  ((∃ e, toCanonicalBytes p v = .error e) ∧ ∃ e, webToCanonicalBytes p v = .error e) ∨
    ∃ bytes, toCanonicalBytes p v = .ok bytes ∧ webToCanonicalBytes p v = .ok bytes

lemma encode_write_inj {order order' : String → List ℕ} {v w : Json} (hv : KeysAccepted v)
    (hw : KeysAccepted w) : encode (write p (arrange order v)) = encode (write p (arrange order' w)) ↔
      arrange order v = arrange order' w := by
  constructor
  · intro h
    exact write_injective p (safeNumbers_arrange v hv.safeNumbers) (safeNumbers_arrange w hw.safeNumbers)
      (encode_injective h)
  · intro h
    rw [h]

lemma agree_iff (hv : InScope v) :
    Agree p v ↔ (v.checkKeys = true → Every (fun _ => True) NoSpaceExtension v) := by
  by_cases hcheck : v.checkKeys = true
  · have hacc := accepted_of_checkKeys hv hcheck
    rw [← arrange_serialisedKey_eq_iff hacc, ← encode_write_inj p hacc hacc, Agree,
      toCanonicalBytes_accepted p hacc, webToCanonicalBytes_accepted p hacc]
    simp [hcheck, eq_comm]
  · rw [Agree, toCanonicalBytes_refused p hcheck, webToCanonicalBytes_refused p hv hcheck]
    simp [hcheck]

lemma bytes_of_same {v w : Json} (hv : InScope v) (hw : InScope w) (h : SameUpToOrder v w) :
    toCanonicalBytes p v = toCanonicalBytes p w ∧ webToCanonicalBytes p v = webToCanonicalBytes p w := by
  have hiff := h.checkKeys_iff hv hw
  by_cases hcheck : v.checkKeys = true
  · have haccv := accepted_of_checkKeys hv hcheck
    have haccw := accepted_of_checkKeys hw (hiff.mp hcheck)
    rw [toCanonicalBytes_accepted p haccv, toCanonicalBytes_accepted p haccw,
      webToCanonicalBytes_accepted p haccv, webToCanonicalBytes_accepted p haccw,
      (arrange_eq_arrange_iff serialisedKey_separates haccv haccw).mpr h,
      (arrange_eq_arrange_iff charCodes_separates haccv haccw).mpr h]
    exact ⟨rfl, rfl⟩
  · have hcheckw : ¬ w.checkKeys = true := fun hw => hcheck (hiff.mpr hw)
    rw [toCanonicalBytes_refused p hcheck, toCanonicalBytes_refused p hcheckw,
      webToCanonicalBytes_refused p hv hcheck, webToCanonicalBytes_refused p hw hcheckw]
    exact ⟨rfl, rfl⟩

lemma accepted_of_bytes (hv : InScope v) (h : toCanonicalBytes p v = .ok bytes) : KeysAccepted v := by
  apply accepted_of_checkKeys hv
  by_contra hcheck
  rw [toCanonicalBytes_refused p hcheck] at h
  cases h

lemma accepted_of_webBytes (hv : InScope v) (h : webToCanonicalBytes p v = .ok bytes) : KeysAccepted v := by
  apply accepted_of_checkKeys hv
  by_contra hcheck
  rw [webToCanonicalBytes_refused p hv hcheck] at h
  cases h

lemma same_of_bytes {v w : Json} (hv : InScope v) (hw : InScope w) (h : toCanonicalBytes p v = .ok bytes)
    (h' : toCanonicalBytes p w = .ok bytes) : SameUpToOrder v w := by
  have haccv := accepted_of_bytes p hv h
  have haccw := accepted_of_bytes p hw h'
  rw [toCanonicalBytes_accepted p haccv, ← h', toCanonicalBytes_accepted p haccw, Except.ok.injEq,
    encode_write_inj p haccv haccw] at h
  exact (arrange_eq_arrange_iff serialisedKey_separates haccv haccw).mp h

lemma same_of_webBytes {v w : Json} (hv : InScope v) (hw : InScope w)
    (h : webToCanonicalBytes p v = .ok bytes) (h' : webToCanonicalBytes p w = .ok bytes) :
    SameUpToOrder v w := by
  have haccv := accepted_of_webBytes p hv h
  have haccw := accepted_of_webBytes p hw h'
  rw [webToCanonicalBytes_accepted p haccv, ← h', webToCanonicalBytes_accepted p haccw, Except.ok.injEq,
    encode_write_inj p haccv haccw] at h
  exact (arrange_eq_arrange_iff charCodes_separates haccv haccw).mp h

/-- The canonicalisers agree on a value exactly when they refuse it or none of its objects has a
key that is another one followed by a space or an exclamation mark. Neither depends on the order
of members, and each tells values apart that are not the same up to that order. -/
theorem canonicalisers_agree_iff (v w : Json) (hv : InScope v) (hw : InScope w) :
    (Agree p v ↔ (v.checkKeys = true → Every (fun _ => True) NoSpaceExtension v)) ∧
      (SameUpToOrder v w → toCanonicalBytes p v = toCanonicalBytes p w ∧
        webToCanonicalBytes p v = webToCanonicalBytes p w) ∧
      (∀ bytes, toCanonicalBytes p v = .ok bytes → toCanonicalBytes p w = .ok bytes →
        SameUpToOrder v w) ∧
      ∀ bytes, webToCanonicalBytes p v = .ok bytes → webToCanonicalBytes p w = .ok bytes →
        SameUpToOrder v w :=
  ⟨agree_iff p hv, bytes_of_same p hv hw, fun _ => same_of_bytes p hv hw, fun _ => same_of_webBytes p hv hw⟩

def noFloats : Floats := ⟨fun _ => [], fun _ => none⟩

def twoKeys : Json := .object [("a", .number (.posInt 1)), ("b", .null)]

def twoKeysSwapped : Json := .object [("b", .null), ("a", .number (.posInt 1))]

theorem canonicalisers_agree_two_keys :
    Agree noFloats twoKeys ∧ toCanonicalBytes noFloats twoKeys = toCanonicalBytes noFloats twoKeysSwapped := by
  have hscope : InScope twoKeys := by
    simp [InScope, twoKeys, Every, IsSafeInteger]
  have hscope' : InScope twoKeysSwapped := by
    simp [InScope, twoKeysSwapped, Every, IsSafeInteger]
  have hkeys : Every (fun _ => True) NoSpaceExtension twoKeys := by
    simp [twoKeys, Every, NoSpaceExtension, SpaceExtends]
  have hsame : SameUpToOrder twoKeys twoKeysSwapped := by
    simp [twoKeys, twoKeysSwapped, SameUpToOrder, SameMembers]
  obtain ⟨hagree, hbytes, -⟩ := canonicalisers_agree_iff noFloats twoKeys twoKeysSwapped hscope hscope'
  exact ⟨hagree.mpr fun _ => hkeys, (hbytes hsame).1⟩

def extendedKey : Json := .object [("a", .number (.posInt 1)), ("a!", .number (.posInt 2))]

theorem canonicalisers_differ :
    InScope extendedKey ∧
      toCanonicalBytes noFloats extendedKey = .ok (encode "\x7b\"a!\":2,\"a\":1\x7d".toList) ∧
      webToCanonicalBytes noFloats extendedKey = .ok (encode "\x7b\"a\":1,\"a!\":2\x7d".toList) ∧
      ¬ Agree noFloats extendedKey := by
  have hscope : InScope extendedKey := by
    simp [InScope, extendedKey, Every, IsSafeInteger]
  refine ⟨hscope, by rfl, by rfl, fun hagree => ?_⟩
  have hkeys := (agree_iff noFloats hscope).mp hagree (by rfl)
  rw [extendedKey, every_object] at hkeys
  exact hkeys.1 "a" (by simp) "a!" (by simp) ⟨'!', [], .inr rfl, rfl⟩

end SignetDrive.Proofs
