import SignetDrive.Lib.SortedKeys
import SignetDrive.Proofs.JcsText

/-!
# The two canonicalisers agree up to the order of the keys

The orders part exactly on two keys of one object of which one is the other followed by a space or an
exclamation mark, since those two characters sort below the closing quote.
-/

namespace SignetDrive.Proofs

open Delimited SortedKeys Jcs

def PlainChar (c : Char) : Prop :=
  0x20 ≤ c.toNat ∧ c.toNat ≤ 0x7e ∧ c.toNat ≠ 0x22 ∧ c.toNat ≠ 0x5c

lemma toUTF8_eq (s : String) : s.toUTF8.data.toList = s.toList.flatMap String.utf8EncodeChar := by
  have hbytes : s.toUTF8 = s.toList.utf8Encode := by
    rw [← String.toByteArray_ofList, String.ofList_toList]
    rfl
  rw [hbytes, List.utf8Encode, List.data_toByteArray]

lemma utf8EncodeChar_ascii {c : Char} (h : c.toNat < 0x80) :
    String.utf8EncodeChar c = [UInt8.ofNat c.toNat] := by
  have hle : c.val.toNat ≤ 127 := Nat.le_of_lt_succ h
  rw [String.utf8EncodeChar.eq_1, if_pos hle]
  rfl

lemma utf8EncodeChar_head {c : Char} (h : ¬ c.toNat < 0x80) :
    ∃ b ∈ String.utf8EncodeChar c, 0x7e < b.toNat := by
  have hle : ¬ c.val.toNat ≤ 127 := fun hle => h (Nat.lt_succ_of_le hle)
  rw [String.utf8EncodeChar.eq_1, if_neg hle]
  split_ifs
  · refine ⟨_, List.mem_cons_self, ?_⟩
    simp only [UInt8.toNat_ofNat']
    omega
  · refine ⟨_, List.mem_cons_self, ?_⟩
    simp only [UInt8.toNat_ofNat']
    omega
  · refine ⟨_, List.mem_cons_self, ?_⟩
    simp only [UInt8.toNat_ofNat']
    omega

lemma keyInDomain_iff (key : String) :
    Json.keyInDomain key = true ↔ ∀ c ∈ key.toList, PlainChar c := by
  rw [Json.keyInDomain, toUTF8_eq, List.all_flatMap, List.all_eq_true]
  apply forall₂_congr
  intro c _
  by_cases hc : c.toNat < 0x80
  · have hbyte : (UInt8.ofNat c.toNat).toNat = c.toNat := by
      rw [UInt8.toNat_ofNat']
      omega
    have hne (n : UInt8) : UInt8.ofNat c.toNat ≠ n ↔ c.toNat ≠ n.toNat := by
      rw [ne_eq, ← UInt8.toNat_inj, hbyte]
    simp [utf8EncodeChar_ascii hc, hbyte, hne, PlainChar, and_assoc]
  · obtain ⟨b, hb, hlarge⟩ := utf8EncodeChar_head hc
    constructor
    · intro hall
      have hdomain := List.all_eq_true.mp hall b hb
      simp at hdomain
      omega
    · intro hplain
      exact absurd (lt_of_le_of_lt hplain.2.1 (by norm_num)) hc

lemma webKeyInDomain_iff (key : String) : webKeyInDomain key = true ↔ ∀ c ∈ key.toList, PlainChar c := by
  rw [webKeyInDomain, charCodes, List.all_flatMap, List.all_eq_true]
  apply forall₂_congr
  intro c _
  split_ifs with hc
  · simp [PlainChar]
    omega
  · constructor
    · intro hall
      simp at hall
      omega
    · intro hplain
      exact absurd (lt_of_le_of_lt hplain.2.1 (by norm_num)) hc

def codes (key : String) : List ℕ := key.toList.map Char.toNat

lemma toNat_injective : Function.Injective Char.toNat :=
  fun _ _ h => Char.ext (UInt32.toNat_inj.mp h)

lemma codes_injective : Function.Injective codes :=
  fun _ _ h => String.toList_inj.mp (toNat_injective.list_map h)

variable {key key' : String}

lemma charCodes_plain (h : ∀ c ∈ key.toList, PlainChar c) : charCodes key = codes key := by
  have hsingle : ∀ c ∈ key.toList, (if c.toNat < 0x10000 then [c.toNat]
      else [0xd800 + (c.toNat - 0x10000) / 0x400, 0xdc00 + (c.toNat - 0x10000) % 0x400]) =
        [c.toNat] := by
    intro c hc
    exact if_pos (lt_of_le_of_lt (h c hc).2.1 (by norm_num))
  rw [charCodes, List.flatMap_congr hsingle, ← List.map_eq_flatMap, codes]

lemma escape_plain {c : Char} (h : PlainChar c) : escape c = [c] := by
  obtain ⟨hlow, _, hquote, hback⟩ := h
  have hne {d : Char} (hd : d.toNat < 0x20 ∨ d.toNat = 0x22 ∨ d.toNat = 0x5c) : c ≠ d := by
    rintro rfl
    omega
  unfold escape
  rw [if_neg (hne (by decide)), if_neg (hne (by decide)), if_neg (hne (by decide)),
    if_neg (hne (by decide)), if_neg (hne (by decide)), if_neg (hne (by decide)),
    if_neg (hne (by decide)), if_neg (by omega)]

lemma stringify_plain (h : ∀ c ∈ key.toList, PlainChar c) :
    stringify key = '"' :: (key.toList ++ ['"']) := by
  have hsingle : ∀ c ∈ key.toList, escape c = [c] := fun c hc => escape_plain (h c hc)
  rw [stringify, List.flatMap_congr hsingle, List.flatMap_singleton']

lemma encode_ascii {text : Text} (h : ∀ c ∈ text, c.toNat < 0x80) :
    (encode text).map UInt8.toNat = text.map Char.toNat := by
  rw [encode, toUTF8_eq, String.toList_ofList,
    List.flatMap_congr (fun c hc => utf8EncodeChar_ascii (h c hc)), ← List.map_eq_flatMap,
    List.map_map]
  apply List.map_congr_left
  intro c hc
  have hc := h c hc
  simp only [Function.comp_apply, UInt8.toNat_ofNat']
  omega

lemma serialisedKey_plain (h : ∀ c ∈ key.toList, PlainChar c) :
    serialisedKey key = 0x22 :: (codes key ++ [0x22]) := by
  have hascii : ∀ c ∈ '"' :: (key.toList ++ ['"']), c.toNat < 0x80 := by
    intro c hc
    simp only [List.mem_cons, List.mem_append, List.not_mem_nil, or_false] at hc
    rcases hc with rfl | hc | rfl
    · decide
    · exact lt_of_le_of_lt (h c hc).2.1 (by norm_num)
    · decide
  rw [serialisedKey, stringify_plain h, encode_ascii hascii, codes]
  simp

/-- The second key is the first with a space or an exclamation mark, and more, behind it. -/
def SpaceExtends (key key' : String) : Prop :=
  ∃ c rest, (c = ' ' ∨ c = '!') ∧ key'.toList = key.toList ++ c :: rest

lemma undercuts_codes_iff (h : ∀ c ∈ key'.toList, PlainChar c) :
    Undercuts 0x22 (codes key) (codes key') ↔ SpaceExtends key key' := by
  constructor
  · rintro ⟨n, t, hn, heq⟩
    obtain ⟨front, back, hsplit, hfront, hback⟩ := List.map_eq_append_iff.mp heq
    obtain ⟨c, rest, rfl, rfl, -⟩ := List.map_eq_cons_iff.mp hback
    have hc := (h c (by simp [hsplit])).1
    have hspace : c.toNat = ' '.toNat ∨ c.toNat = '!'.toNat := by
      change c.toNat = 32 ∨ c.toNat = 33
      omega
    rw [toNat_injective.list_map hfront] at hsplit
    exact ⟨c, rest, hspace.imp (fun h => toNat_injective h) (fun h => toNat_injective h), hsplit⟩
  · rintro ⟨c, rest, hc, heq⟩
    refine ⟨c.toNat, rest.map Char.toNat, ?_, ?_⟩
    · rcases hc with rfl | rfl <;> decide
    · rw [codes, heq, List.map_append, List.map_cons, codes]

lemma serialisedKey_le_iff (h : ∀ c ∈ key.toList, PlainChar c) (h' : ∀ c ∈ key'.toList, PlainChar c) :
    (serialisedKey key ≤ serialisedKey key' ↔ charCodes key ≤ charCodes key') ↔
      ¬ SpaceExtends key key' ∧ ¬ SpaceExtends key' key := by
  have hhead : serialisedKey key ≤ serialisedKey key' ↔ codes key ++ [0x22] ≤ codes key' ++ [0x22] := by
    rw [serialisedKey_plain h, serialisedKey_plain h', cons_le_cons_iff]
    simp
  rw [hhead, charCodes_plain h, charCodes_plain h', ended_le_iff, undercuts_codes_iff h',
    undercuts_codes_iff h]

section Every

variable {onNumber onNumber' : Number → Prop} {onKeys onKeys' : List String → Prop}

lemma every_mono (hnumber : ∀ n, onNumber n → onNumber' n) (hkeys : ∀ keys, onKeys keys → onKeys' keys)
    (v : Json) (hv : Every onNumber onKeys v) : Every onNumber' onKeys' v := by
  induction v using json_induction with
  | null | bool | string => exact trivial
  | number n => exact hnumber n hv
  | array items ih =>
    rw [every_array] at hv ⊢
    exact fun item hitem => ih item hitem (hv item hitem)
  | object members ih =>
    rw [every_object] at hv ⊢
    exact ⟨hkeys _ hv.1, fun m hm => ih m hm (hv.2 m hm)⟩

lemma every_and (v : Json) (hv : Every onNumber onKeys v) (hv' : Every onNumber' onKeys' v) :
    Every (fun n => onNumber n ∧ onNumber' n) (fun keys => onKeys keys ∧ onKeys' keys) v := by
  induction v using json_induction with
  | null | bool | string => exact trivial
  | number n => exact ⟨hv, hv'⟩
  | array items ih =>
    rw [every_array] at hv hv' ⊢
    exact fun item hitem => ih item hitem (hv item hitem) (hv' item hitem)
  | object members ih =>
    rw [every_object] at hv hv' ⊢
    exact ⟨⟨hv.1, hv'.1⟩, fun m hm => ih m hm (hv.2 m hm) (hv'.2 m hm)⟩

end Every

def PlainKeys (keys : List String) : Prop := ∀ key ∈ keys, ∀ c ∈ key.toList, PlainChar c

lemma checkItems_iff (items : List Json) :
    Json.checkItems items = true ↔ ∀ item ∈ items, item.checkKeys = true := by
  induction items with
  | nil => simp [Json.checkItems]
  | cons item items ih => rw [Json.checkItems, Bool.and_eq_true, ih, List.forall_mem_cons]

lemma checkMembers_iff (members : List (String × Json)) :
    Json.checkMembers members = true ↔
      PlainKeys (members.map Prod.fst) ∧ ∀ m ∈ members, m.2.checkKeys = true := by
  induction members with
  | nil => simp [Json.checkMembers, PlainKeys]
  | cons m members ih =>
    rw [Json.checkMembers, Bool.and_eq_true, Bool.and_eq_true, ih, keyInDomain_iff, PlainKeys,
      PlainKeys, List.map_cons, List.forall_mem_cons, List.forall_mem_cons]
    tauto

lemma checkKeys_iff (v : Json) : v.checkKeys = true ↔ Every (fun _ => True) PlainKeys v := by
  induction v using json_induction with
  | null | bool | string | number => simp [Json.checkKeys, Every]
  | array items ih =>
    rw [Json.checkKeys, checkItems_iff, every_array]
    exact forall₂_congr ih
  | object members ih =>
    rw [Json.checkKeys, checkMembers_iff, every_object]
    exact and_congr_right fun _ => forall₂_congr ih

/-- In scope, and with no key that the canonicalisers refuse. -/
def KeysAccepted : Json → Prop := Every IsSafeInteger fun keys => keys.Nodup ∧ PlainKeys keys

lemma accepted_of_checkKeys {v : Json} (hv : InScope v) (h : v.checkKeys = true) : KeysAccepted v :=
  every_mono (fun _ => And.left) (fun _ => id) v (every_and v hv ((checkKeys_iff v).mp h))

lemma KeysAccepted.checkKeys {v : Json} (h : KeysAccepted v) : v.checkKeys = true :=
  (checkKeys_iff v).mpr (every_mono (fun _ _ => trivial) (fun _ => And.right) v h)

lemma KeysAccepted.safeNumbers {v : Json} (h : KeysAccepted v) : SafeNumbers v :=
  every_mono (fun _ => id) (fun _ _ => trivial) v h

/-- The order tells apart the keys that the canonicalisers accept. -/
def Separates (order : String → List ℕ) : Prop :=
  ∀ key key', PlainKeys [key, key'] → order key = order key' → key = key'

lemma charCodes_separates : Separates charCodes := by
  intro key key' hplain heq
  rw [charCodes_plain (hplain key (by simp)), charCodes_plain (hplain key' (by simp))] at heq
  exact codes_injective heq

lemma serialisedKey_separates : Separates serialisedKey := by
  intro key key' hplain heq
  rw [serialisedKey_plain (hplain key (by simp)), serialisedKey_plain (hplain key' (by simp))] at heq
  exact codes_injective (List.append_cancel_right (List.cons.inj heq).2)

instance {α : Type} (order : String → List ℕ) : Std.Total (@byKey α order) :=
  ⟨fun a b => le_total (order a.1) (order b.1)⟩

instance {α : Type} (order : String → List ℕ) : IsTrans (String × α) (byKey order) :=
  ⟨fun _ _ _ hab hbc => le_trans hab hbc⟩

variable {α : Type} {order : String → List ℕ} {members members' : List (String × Json)}

lemma eq_of_key {l : List (String × α)} (h : (l.map Prod.fst).Nodup) {a b : String × α} (ha : a ∈ l)
    (hb : b ∈ l) (hkey : a.1 = b.1) : a = b :=
  List.inj_on_of_nodup_map h ha hb hkey

lemma byKey_antisymm (horder : Separates order) {l : List (String × α)}
    (h : (l.map Prod.fst).Nodup ∧ PlainKeys (l.map Prod.fst)) {a b : String × α} (ha : a ∈ l) (hb : b ∈ l)
    (hab : byKey order a b) (hba : byKey order b a) : a = b := by
  have hplain : PlainKeys [a.1, b.1] := by
    intro key hkey
    simp only [List.mem_cons, List.not_mem_nil, or_false] at hkey
    rcases hkey with rfl | rfl
    · exact h.2 _ (List.mem_map_of_mem ha)
    · exact h.2 _ (List.mem_map_of_mem hb)
  exact eq_of_key h.1 ha hb (horder a.1 b.1 hplain (le_antisymm hab hba))

def arranged (order : String → List ℕ) (members : List (String × Json)) : List (String × Json) :=
  members.map fun m => (m.1, arrange order m.2)

@[simp] lemma arranged_keys : (arranged order members).map Prod.fst = members.map Prod.fst := by
  simp [arranged, Function.comp_def]

lemma mem_arranged {a : String × Json} :
    a ∈ arranged order members ↔ ∃ m ∈ members, m.1 = a.1 ∧ arrange order m.2 = a.2 := by
  simp [arranged, Prod.ext_iff]

lemma arrange_array (items : List Json) :
    arrange order (.array items) = .array (items.map (arrange order)) := by
  rw [arrange, arrangeItems_eq]

lemma arrange_object : arrange order (.object members) =
    .object ((arranged order members).insertionSort (byKey order)) := by
  rw [arrange, arrangeMembers_eq, arranged]

lemma safeNumbers_arrange (v : Json) (hv : SafeNumbers v) : SafeNumbers (arrange order v) := by
  induction v using json_induction with
  | null | bool | string => exact trivial
  | number n => exact hv
  | array items ih =>
    rw [SafeNumbers, every_array] at hv
    rw [arrange_array, SafeNumbers, every_array, List.forall_mem_map]
    exact fun item hitem => ih item hitem (hv item hitem)
  | object members ih =>
    rw [SafeNumbers, every_object] at hv
    rw [arrange_object, SafeNumbers, every_object]
    refine ⟨trivial, fun a ha => ?_⟩
    obtain ⟨m, hm, _, hvalue⟩ := mem_arranged.mp ((List.mem_insertionSort _).mp ha)
    rw [← hvalue]
    exact ih m hm (hv.2 m hm)

mutual

/-- The values differ in the order of members only. -/
def SameUpToOrder : Json → Json → Prop
  | .array items, w => ∃ items', w = .array items' ∧ SameItems items items'
  | .object members, w =>
    ∃ members', w = .object members' ∧ members.length = members'.length ∧ SameMembers members members'
  | leaf, w => leaf = w

def SameItems : List Json → List Json → Prop
  | [], items' => items' = []
  | item :: items, items' =>
    ∃ item' rest, items' = item' :: rest ∧ SameUpToOrder item item' ∧ SameItems items rest

def SameMembers : List (String × Json) → List (String × Json) → Prop
  | [], _ => True
  | (key, value) :: members, members' =>
    (∃ value', (key, value') ∈ members' ∧ SameUpToOrder value value') ∧ SameMembers members members'

end

lemma sameMembers_iff : SameMembers members members' ↔
    ∀ m ∈ members, ∃ value', (m.1, value') ∈ members' ∧ SameUpToOrder m.2 value' := by
  induction members with
  | nil => simp [SameMembers]
  | cons m members ih => rw [SameMembers, ih, List.forall_mem_cons]

lemma sameItems_mem {items items' : List Json} (h : SameItems items items') :
    (∀ item ∈ items, ∃ item' ∈ items', SameUpToOrder item item') ∧
      ∀ item' ∈ items', ∃ item ∈ items, SameUpToOrder item item' := by
  induction items generalizing items' with
  | nil =>
    rw [SameItems] at h
    simp [h]
  | cons item items ih =>
    obtain ⟨item', rest, rfl, hitem, hrest⟩ := h
    have hmem := ih hrest
    simp only [List.forall_mem_cons, List.exists_mem_cons_iff]
    exact ⟨⟨.inl hitem, fun a ha => .inr (hmem.1 a ha)⟩, .inl hitem, fun a ha => .inr (hmem.2 a ha)⟩

lemma map_eq_map_iff_sameItems {f : Json → Json} {items items' : List Json}
    (h : ∀ item ∈ items, ∀ item' ∈ items', f item = f item' ↔ SameUpToOrder item item') :
    items.map f = items'.map f ↔ SameItems items items' := by
  induction items generalizing items' with
  | nil =>
    rw [SameItems, List.map_nil, eq_comm, List.map_eq_nil_iff]
  | cons item items ih =>
    cases items' with
    | nil => simp [SameItems]
    | cons item' rest =>
      have hhead := h item List.mem_cons_self item' List.mem_cons_self
      have htail := ih fun a ha b hb => h a (List.mem_cons_of_mem item ha) b (List.mem_cons_of_mem item' hb)
      rw [SameItems, List.map_cons, List.map_cons, List.cons.injEq, hhead, htail]
      simp

lemma sameMembers_back (hkeys : (members.map Prod.fst).Nodup) (hkeys' : (members'.map Prod.fst).Nodup)
    (hlength : members.length = members'.length) (h : SameMembers members members') {n : String × Json}
    (hn : n ∈ members') : ∃ m ∈ members, m.1 = n.1 ∧ SameUpToOrder m.2 n.2 := by
  rw [sameMembers_iff] at h
  have hsub : members.map Prod.fst ⊆ members'.map Prod.fst := by
    intro key hkey
    obtain ⟨m, hm, rfl⟩ := List.mem_map.mp hkey
    obtain ⟨value', hmem, _⟩ := h m hm
    exact List.mem_map.mpr ⟨_, hmem, rfl⟩
  have hperm : (members.map Prod.fst).Perm (members'.map Prod.fst) :=
    (hkeys.subperm hsub).perm_of_length_le (by simp [hlength])
  obtain ⟨m, hm, hkey⟩ := List.mem_map.mp (hperm.mem_iff.mpr (List.mem_map_of_mem hn))
  obtain ⟨value', hmem, hsame⟩ := h m hm
  have heq : (m.1, value') = n := eq_of_key hkeys' hmem hn hkey
  subst heq
  exact ⟨m, hm, rfl, hsame⟩

lemma SameUpToOrder.checkKeys_iff {v w : Json} (hv : InScope v) (hw : InScope w) (h : SameUpToOrder v w) :
    v.checkKeys = true ↔ w.checkKeys = true := by
  induction v using json_induction generalizing w with
  | null => rw [show Json.null = w from h]
  | bool b => rw [show Json.bool b = w from h]
  | string t => rw [show Json.string t = w from h]
  | number n => rw [show Json.number n = w from h]
  | array items ih =>
    obtain ⟨items', rfl, hitems⟩ := h
    rw [InScope, every_array] at hv hw
    obtain ⟨hforward, hback⟩ := sameItems_mem hitems
    rw [Json.checkKeys, Json.checkKeys, checkItems_iff, checkItems_iff]
    constructor
    · intro hcheck item' hitem'
      obtain ⟨item, hitem, hsame⟩ := hback item' hitem'
      exact (ih item hitem (hv item hitem) (hw item' hitem') hsame).mp (hcheck item hitem)
    · intro hcheck item hitem
      obtain ⟨item', hitem', hsame⟩ := hforward item hitem
      exact (ih item hitem (hv item hitem) (hw item' hitem') hsame).mpr (hcheck item' hitem')
  | object members ih =>
    obtain ⟨members', rfl, hlength, hmembers⟩ := h
    rw [InScope, every_object] at hv hw
    rw [Json.checkKeys, Json.checkKeys, checkMembers_iff, checkMembers_iff, PlainKeys, PlainKeys,
      List.forall_mem_map, List.forall_mem_map]
    constructor
    · rintro ⟨hplain, hcheck⟩
      have hback := fun n hn => sameMembers_back hv.1 hw.1 hlength hmembers (n := n) hn
      constructor
      · intro n hn
        obtain ⟨m, hm, hkey, _⟩ := hback n hn
        exact hkey ▸ hplain m hm
      · intro n hn
        obtain ⟨m, hm, _, hsame⟩ := hback n hn
        exact (ih m hm (hv.2 m hm) (hw.2 n hn) hsame).mp (hcheck m hm)
    · rintro ⟨hplain, hcheck⟩
      rw [sameMembers_iff] at hmembers
      constructor
      · intro m hm
        obtain ⟨value', hmem, _⟩ := hmembers m hm
        exact hplain (m.1, value') hmem
      · intro m hm
        obtain ⟨value', hmem, hsame⟩ := hmembers m hm
        exact (ih m hm (hv.2 m hm) (hw.2 _ hmem) hsame).mpr (hcheck _ hmem)

lemma arrange_object_eq_iff (horder : Separates order)
    (hkeys : (members.map Prod.fst).Nodup ∧ PlainKeys (members.map Prod.fst))
    (h : ∀ m ∈ members, ∀ n ∈ members', arrange order m.2 = arrange order n.2 ↔ SameUpToOrder m.2 n.2) :
    arrange order (.object members) = arrange order (.object members') ↔
      members.length = members'.length ∧ SameMembers members members' := by
  rw [arrange_object, arrange_object, Json.object.injEq, sameMembers_iff]
  constructor
  · intro heq
    have hperm : (arranged order members).Perm (arranged order members') := by
      have hsorted := (arranged order members').perm_insertionSort (byKey order)
      rw [← heq] at hsorted
      exact ((arranged order members).perm_insertionSort (byKey order)).symm.trans hsorted
    constructor
    · simpa [arranged] using hperm.length_eq
    · intro m hm
      have hmem : (m.1, arrange order m.2) ∈ arranged order members' :=
        hperm.mem_iff.mp (mem_arranged.mpr ⟨m, hm, rfl, rfl⟩)
      obtain ⟨n, hn, hkey, hvalue⟩ := mem_arranged.mp hmem
      exact ⟨n.2, by rw [← hkey]; exact hn, (h m hm n hn).mp hvalue.symm⟩
  · rintro ⟨hlength, hmembers⟩
    have harranged : ((arranged order members).map Prod.fst).Nodup ∧
        PlainKeys ((arranged order members).map Prod.fst) := by rwa [arranged_keys]
    have hsub : arranged order members ⊆ arranged order members' := by
      intro a ha
      obtain ⟨m, hm, hkey, hvalue⟩ := mem_arranged.mp ha
      obtain ⟨value', hmem, hsame⟩ := hmembers m hm
      exact mem_arranged.mpr ⟨_, hmem, hkey, ((h m hm _ hmem).mpr hsame).symm.trans hvalue⟩
    have hperm : (arranged order members).Perm (arranged order members') :=
      (harranged.1.of_map.subperm hsub).perm_of_length_le (by simp [arranged, hlength])
    exact insertionSort_eq_of_perm (byKey order)
      (fun a ha b hb => byKey_antisymm horder harranged ha hb) hperm

theorem arrange_eq_arrange_iff (horder : Separates order) {v w : Json} (hv : KeysAccepted v)
    (hw : KeysAccepted w) : arrange order v = arrange order w ↔ SameUpToOrder v w := by
  induction v using json_induction generalizing w with
  | null | bool | string | number => cases w <;> simp [arrange, SameUpToOrder]
  | array items ih =>
    cases w with
    | array items' =>
      rw [KeysAccepted, every_array] at hv hw
      rw [arrange_array, arrange_array, Json.array.injEq, SameUpToOrder,
        map_eq_map_iff_sameItems fun a ha b hb => ih a ha (hv a ha) (hw b hb)]
      simp
    | _ => simp [arrange, SameUpToOrder]
  | object members ih =>
    cases w with
    | object members' =>
      rw [KeysAccepted, every_object] at hv hw
      rw [SameUpToOrder,
        arrange_object_eq_iff horder hv.1 fun m hm n hn => ih m hm (hv.2 m hm) (hw.2 n hn)]
      simp
    | _ => simp [arrange, SameUpToOrder]

def NoSpaceExtension (keys : List String) : Prop := ∀ key ∈ keys, ∀ key' ∈ keys, ¬ SpaceExtends key key'

lemma compare_alike_iff (hplain : PlainKeys (members.map Prod.fst)) :
    (∀ a ∈ members, ∀ b ∈ members, byKey serialisedKey a b ↔ byKey charCodes a b) ↔
      NoSpaceExtension (members.map Prod.fst) := by
  rw [PlainKeys, List.forall_mem_map] at hplain
  simp only [NoSpaceExtension, List.forall_mem_map]
  constructor
  · intro h a ha b hb
    exact ((serialisedKey_le_iff (hplain a ha) (hplain b hb)).mp (h a ha b hb)).1
  · intro h a ha b hb
    exact (serialisedKey_le_iff (hplain a ha) (hplain b hb)).mpr ⟨h a ha b hb, h b hb a ha⟩

lemma arranged_eq_of_sorted_eq {order' : String → List ℕ} (hkeys : (members.map Prod.fst).Nodup)
    (h : (arranged order members).insertionSort (byKey order) =
      (arranged order' members).insertionSort (byKey order')) {m : String × Json} (hm : m ∈ members) :
    arrange order m.2 = arrange order' m.2 := by
  have hmem : (m.1, arrange order m.2) ∈ (arranged order members).insertionSort (byKey order) :=
    (List.mem_insertionSort _).mpr (mem_arranged.mpr ⟨m, hm, rfl, rfl⟩)
  rw [h] at hmem
  obtain ⟨n, hn, hkey, hvalue⟩ := mem_arranged.mp ((List.mem_insertionSort _).mp hmem)
  rw [eq_of_key hkeys hn hm hkey] at hvalue
  exact hvalue.symm

theorem arrange_serialisedKey_eq_iff {v : Json} (hv : KeysAccepted v) :
    arrange serialisedKey v = arrange charCodes v ↔ Every (fun _ => True) NoSpaceExtension v := by
  induction v using json_induction with
  | null | bool | string | number => simp [arrange, Every]
  | array items ih =>
    rw [KeysAccepted, every_array] at hv
    rw [arrange_array, arrange_array, Json.array.injEq, List.map_inj_left, every_array]
    exact forall₂_congr fun item hitem => ih item hitem (hv item hitem)
  | object members ih =>
    rw [KeysAccepted, every_object] at hv
    have hvalues : (∀ m ∈ members, arrange serialisedKey m.2 = arrange charCodes m.2) ↔
        ∀ m ∈ members, Every (fun _ => True) NoSpaceExtension m.2 :=
      forall₂_congr fun m hm => ih m hm (hv.2 m hm)
    have hkeys : ((arranged charCodes members).map Prod.fst).Nodup ∧
        PlainKeys ((arranged charCodes members).map Prod.fst) := by
      rw [arranged_keys]
      exact hv.1
    have hsorts := insertionSort_eq_iff (byKey serialisedKey) (byKey charCodes)
      (fun a ha b hb => byKey_antisymm serialisedKey_separates hkeys ha hb)
      (fun a ha b hb => byKey_antisymm charCodes_separates hkeys ha hb)
    rw [compare_alike_iff hkeys.2, arranged_keys] at hsorts
    rw [arrange_object, arrange_object, Json.object.injEq, every_object, ← hvalues, ← hsorts]
    have harranged (h : ∀ m ∈ members, arrange serialisedKey m.2 = arrange charCodes m.2) :
        arranged serialisedKey members = arranged charCodes members :=
      List.map_congr_left fun m hm => by rw [h m hm]
    constructor
    · intro h
      have hall := fun m hm => arranged_eq_of_sorted_eq hv.1.1 h (m := m) hm
      exact ⟨by rwa [harranged hall] at h, hall⟩
    · rintro ⟨h, hall⟩
      rwa [harranged hall]

end SignetDrive.Proofs
