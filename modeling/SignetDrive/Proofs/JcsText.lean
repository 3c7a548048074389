import SignetDrive.Model.Jcs

namespace SignetDrive.Proofs

open Delimited Jcs

@[elab_as_elim]
lemma json_induction {motive : Json → Prop} (null : motive .null) (bool : ∀ b, motive (.bool b))
    (number : ∀ n, motive (.number n)) (string : ∀ s, motive (.string s))
    (array : ∀ items, (∀ item ∈ items, motive item) → motive (.array items))
    (object : ∀ members : List (String × Json), (∀ m ∈ members, motive m.2) → motive (.object members))
    (value : Json) : motive value := by
  apply @Json.rec motive (fun items => ∀ item ∈ items, motive item)
    (fun members => ∀ m ∈ members, motive m.2) (fun m => motive m.2) null bool number string array object
  · simp
  · intro item items hitem hitems
    exact List.forall_mem_cons.mpr ⟨hitem, hitems⟩
  · simp
  · intro m members hm hmembers
    exact List.forall_mem_cons.mpr ⟨hm, hmembers⟩
  · intro key value hvalue
    exact hvalue

mutual

/-- All numbers, and the keys of all objects in the value, have a property. -/
def Every (onNumber : Number → Prop) (onKeys : List String → Prop) : Json → Prop
  | .number n => onNumber n
  | .array items => EveryItem onNumber onKeys items
  | .object members => onKeys (members.map Prod.fst) ∧ EveryMember onNumber onKeys members
  | _ => True

def EveryItem (onNumber : Number → Prop) (onKeys : List String → Prop) : List Json → Prop
  | [] => True
  | item :: items => Every onNumber onKeys item ∧ EveryItem onNumber onKeys items

def EveryMember (onNumber : Number → Prop) (onKeys : List String → Prop) : List (String × Json) → Prop
  | [] => True
  | (_, value) :: members => Every onNumber onKeys value ∧ EveryMember onNumber onKeys members

end

section Every

variable {onNumber : Number → Prop} {onKeys : List String → Prop}

@[simp] lemma every_array (items : List Json) :
    Every onNumber onKeys (.array items) ↔ ∀ item ∈ items, Every onNumber onKeys item := by
  rw [Every]
  induction items with
  | nil => simp [EveryItem]
  | cons item items ih => rw [EveryItem, ih, List.forall_mem_cons]

lemma everyMember_iff (members : List (String × Json)) :
    EveryMember onNumber onKeys members ↔ ∀ m ∈ members, Every onNumber onKeys m.2 := by
  induction members with
  | nil => simp [EveryMember]
  | cons m members ih => rw [EveryMember, ih, List.forall_mem_cons]

@[simp] lemma every_object (members : List (String × Json)) :
    Every onNumber onKeys (.object members) ↔
      onKeys (members.map Prod.fst) ∧ ∀ m ∈ members, Every onNumber onKeys m.2 := by
  rw [Every, everyMember_iff]

end Every

def IsSafeInteger : Number → Prop
  | .posInt n => n.val ≤ 2 ^ 53 - 1
  | .negInt n => n.1 ≤ 2 ^ 53 - 1
  | .float _ => False

/-- The numbers of the value are safe integers, and its objects have each key once. -/
def InScope : Json → Prop := Every IsSafeInteger List.Nodup

def SafeNumbers : Json → Prop := Every IsSafeInteger fun _ => True

section Trees

variable (p : Floats) (order : String → List ℕ)

@[simp] lemma writeItems_eq (items : List Json) : writeItems p items = items.map (write p) := by
  induction items with
  | nil => rfl
  | cons item items ih => rw [writeItems, ih, List.map_cons]

@[simp] lemma writeMembers_eq (members : List (String × Json)) :
    writeMembers p members = members.map fun m => memberText m.1 (write p m.2) := by
  induction members with
  | nil => rfl
  | cons m members ih => rw [writeMembers, ih, List.map_cons]

@[simp] lemma arrangeItems_eq (items : List Json) :
    arrangeItems order items = items.map (arrange order) := by
  induction items with
  | nil => rfl
  | cons item items ih => rw [arrangeItems, ih, List.map_cons]

@[simp] lemma arrangeMembers_eq (members : List (String × Json)) :
    arrangeMembers order members = members.map fun m => (m.1, arrange order m.2) := by
  induction members with
  | nil => rfl
  | cons m members ih => rw [arrangeMembers, ih, List.map_cons]

end Trees

def hexValue (c : Char) : ℕ := if c.toNat < 58 then c.toNat - 48 else c.toNat - 87

lemma hexValue_hexDigit {n : ℕ} (h : n < 16) : hexValue (hexDigit n) = n := by
  interval_cases n <;> rfl

def unescape (c : Char) : Char :=
  if c = 'b' then '\x08' else if c = 't' then '\t' else if c = 'n' then '\n'
  else if c = 'f' then '\x0c' else if c = 'r' then '\r' else c

def readChar : Text → Option (Char × Text)
  | [] => none
  | c :: rest =>
    if c = '\\' then
      match rest with
      | 'u' :: _ :: _ :: a :: b :: rest => some (Char.ofNat (16 * hexValue a + hexValue b), rest)
      | c :: rest => some (unescape c, rest)
      | [] => none
    else some (c, rest)

lemma readChar_escape (c : Char) (rest : Text) : readChar (escape c ++ rest) = some (c, rest) := by
  unfold escape
  split_ifs with hquote hback hb ht hn hf hr hcontrol
  · subst hquote; rfl
  · subst hback; rfl
  · subst hb; rfl
  · subst ht; rfl
  · subst hn; rfl
  · subst hf; rfl
  · subst hr; rfl
  · have hhigh : hexValue (hexDigit (c.toNat / 16)) = c.toNat / 16 := hexValue_hexDigit (by omega)
    have hlow : hexValue (hexDigit (c.toNat % 16)) = c.toNat % 16 := hexValue_hexDigit (by omega)
    simp [readChar, hhigh, hlow, Nat.div_add_mod]
  · simp [readChar, hback]

lemma escape_avoids_quote : Avoids escape (fun _ => True) '"' := by
  intro c _ r s heq
  unfold escape at heq
  split_ifs at heq with hquote <;> simp_all

lemma stringify_readsBack (s : String) : ReadsBack stringify (fun _ => True) (fun _ => True) s := by
  intro t _ rest rest' _ _ heq
  simp only [stringify, List.cons_append, List.append_assoc, List.cons.injEq, true_and,
    List.nil_append] at heq
  have hread := readsBack_flatMap (fun _ => True) (fun _ => trivial) (fun _ _ => trivial)
    escape_avoids_quote (fun c _ => ⟨trivial, readsBack_of_read readChar readChar_escape c⟩)
    (fun _ _ => trivial) heq
  exact ⟨String.toList_inj.mp hread.1, hread.2⟩

def NoDigit (text : Text) : Prop := text.takeWhile Char.isDigit = []

lemma noDigit_cons {c : Char} (h : c.isDigit = false) (text : Text) : NoDigit (c :: text) := by
  simp [NoDigit, h]

lemma toDigits_readsBack (m : ℕ) : ReadsBack (Nat.toDigits 10) (fun _ => True) NoDigit m := by
  intro n _ r s hr hs heq
  have hdigits : ∀ k, ∀ c ∈ Nat.toDigits 10 k, c.isDigit :=
    fun k c hc => Nat.isDigit_of_mem_toDigits (by norm_num) le_rfl hc
  obtain ⟨hmn, hrs⟩ := append_inj_of_class (hdigits m) (hdigits n) hr hs heq
  have hvalue : Nat.ofDigitChars 10 (Nat.toDigits 10 m) 0 = Nat.ofDigitChars 10 (Nat.toDigits 10 n) 0 := by
    rw [hmn]
  rw [Nat.ofDigitChars_toDigits (by norm_num) le_rfl,
    Nat.ofDigitChars_toDigits (by norm_num) le_rfl] at hvalue
  exact ⟨hvalue, hrs⟩

lemma toDigits_cons (n : ℕ) : ∃ c text, Nat.toDigits 10 n = c :: text ∧ c.isDigit = true := by
  cases h : Nat.toDigits 10 n with
  | nil => exact absurd h Nat.toDigits_ne_nil
  | cons c text =>
    have hc : c ∈ Nat.toDigits 10 n := by simp [h]
    exact ⟨c, text, rfl, Nat.isDigit_of_mem_toDigits (by norm_num) le_rfl hc⟩

lemma digits_append_ne_minus (n : ℕ) (r s : Text) : Nat.toDigits 10 n ++ r ≠ '-' :: s := by
  obtain ⟨c, text, heq, hdigit⟩ := toDigits_cons n
  rw [heq, List.cons_append]
  intro h
  rw [(List.cons.inj h).1] at hdigit
  cases hdigit

lemma integerText_readsBack (m : ℤ) : ReadsBack integerText (fun _ => True) NoDigit m := by
  intro n _ r s hr hs heq
  unfold integerText at heq
  split_ifs at heq with hm hn hn
  · obtain ⟨habs, hrs⟩ := toDigits_readsBack _ _ trivial r s hr hs (List.cons.inj heq).2
    exact ⟨by omega, hrs⟩
  · exact absurd heq.symm (digits_append_ne_minus _ _ _)
  · exact absurd heq (digits_append_ne_minus _ _ _)
  · obtain ⟨habs, hrs⟩ := toDigits_readsBack _ _ trivial r s hr hs heq
    exact ⟨by omega, hrs⟩

lemma numberText_readsBack (p : Floats) (n : Number) (hn : IsSafeInteger n) :
    ReadsBack (numberText p) IsSafeInteger NoDigit n := by
  intro m hm r s hr hs heq
  cases n with
  | float _ => exact hn.elim
  | posInt n =>
    cases m with
    | float _ => exact hm.elim
    | posInt m =>
      obtain ⟨hvalue, hrs⟩ := integerText_readsBack _ _ trivial r s hr hs heq
      exact ⟨congrArg Number.posInt (Fin.ext (by exact_mod_cast hvalue)), hrs⟩
    | negInt m =>
      obtain ⟨hvalue, _⟩ := integerText_readsBack _ _ trivial r s hr hs heq
      have hpos := m.2.1
      omega
  | negInt n =>
    cases m with
    | float _ => exact hm.elim
    | posInt m =>
      obtain ⟨hvalue, _⟩ := integerText_readsBack _ _ trivial r s hr hs heq
      have hpos := n.2.1
      omega
    | negInt m =>
      obtain ⟨hvalue, hrs⟩ := integerText_readsBack _ _ trivial r s hr hs heq
      exact ⟨congrArg Number.negInt (Subtype.ext (by exact_mod_cast neg_inj.mp hvalue)), hrs⟩

inductive Kind where
  | null | truth | falsity | number | string | array | object

def kindOfChar (c : Char) : Option Kind :=
  if c = 'n' then some .null else if c = 't' then some .truth else if c = 'f' then some .falsity
  else if c = '"' then some .string else if c = '[' then some .array
  else if c = '\x7b' then some .object else if c = '-' ∨ c.isDigit then some .number else none

def kindOf : Json → Kind
  | .null => .null
  | .bool true => .truth
  | .bool false => .falsity
  | .number _ => .number
  | .string _ => .string
  | .array _ => .array
  | .object _ => .object

lemma kindOfChar_digit {c : Char} (h : c.isDigit = true) : kindOfChar c = some .number := by
  unfold kindOfChar
  split_ifs with hn ht hf hs ha ho <;> first | rfl | (subst_vars; cases h) | simp_all

lemma integerText_kind (n : ℤ) : ∃ c text, integerText n = c :: text ∧ kindOfChar c = some .number := by
  unfold integerText
  split_ifs
  · exact ⟨'-', _, rfl, rfl⟩
  · obtain ⟨c, text, heq, hdigit⟩ := toDigits_cons n.natAbs
    exact ⟨c, text, heq, kindOfChar_digit hdigit⟩

lemma write_kind (p : Floats) (value : Json) (h : SafeNumbers value) :
    ∃ c text, write p value = c :: text ∧ kindOfChar c = some (kindOf value) := by
  cases value with
  | null => exact ⟨'n', _, rfl, rfl⟩
  | bool b => cases b <;> exact ⟨_, _, rfl, rfl⟩
  | number n =>
    cases n with
    | posInt n => exact integerText_kind n.val
    | negInt n => exact integerText_kind (-n.1)
    | float bits => exact h.elim
  | string s => exact ⟨'"', _, rfl, rfl⟩
  | array items => exact ⟨'[', _, rfl, rfl⟩
  | object members => exact ⟨'\x7b', _, rfl, rfl⟩

lemma kindOf_eq (p : Floats) {v w : Json} (hv : SafeNumbers v) (hw : SafeNumbers w) {r s : Text}
    (heq : write p v ++ r = write p w ++ s) : kindOf v = kindOf w := by
  obtain ⟨c, text, hc, hkind⟩ := write_kind p v hv
  obtain ⟨d, text', hd, hkind'⟩ := write_kind p w hw
  rw [hc, hd] at heq
  rw [(List.cons.inj heq).1, hkind'] at hkind
  exact (Option.some.inj hkind).symm

lemma write_avoids (p : Floats) {c : Char} (hc : kindOfChar c = none) :
    Avoids (write p) SafeNumbers c := by
  intro v hv r s heq
  obtain ⟨d, text, hd, hkind⟩ := write_kind p v hv
  rw [hd] at heq
  rw [(List.cons.inj heq).1, hc] at hkind
  cases hkind

def writeMember (p : Floats) (m : String × Json) : Text := memberText m.1 (write p m.2)

lemma writeMember_readsBack (p : Floats) {m : String × Json}
    (h : ReadsBack (write p) SafeNumbers NoDigit m.2) :
    ReadsBack (writeMember p) (fun m => SafeNumbers m.2) NoDigit m := by
  intro n hn r s hr hs heq
  simp only [writeMember, memberText, List.append_assoc, List.cons_append] at heq
  obtain ⟨hkey, hrest⟩ := stringify_readsBack m.1 n.1 trivial _ _ trivial trivial heq
  obtain ⟨hvalue, hrs⟩ := h n.2 hn r s hr hs (List.cons.inj hrest).2
  exact ⟨Prod.ext hkey hvalue, hrs⟩

lemma write_readsBack (p : Floats) (v : Json) (hv : SafeNumbers v) :
    ReadsBack (write p) SafeNumbers NoDigit v := by
  -- The first symbol tells the kind of the other value; then each kind reads its own text.
  induction v using json_induction with
  | null =>
    intro w hw r s hr hs heq
    have hkind := kindOf_eq p hv hw heq
    cases w with
    | null => exact ⟨rfl, List.append_cancel_left heq⟩
    | bool b => cases b <;> cases hkind
    | _ => cases hkind
  | bool b =>
    intro w hw r s hr hs heq
    have hkind := kindOf_eq p hv hw heq
    cases w with
    | bool b' =>
      have hb : b = b' := by cases b <;> cases b' <;> first | rfl | cases hkind
      subst hb
      exact ⟨rfl, List.append_cancel_left heq⟩
    | _ => cases b <;> cases hkind
  | number n =>
    intro w hw r s hr hs heq
    have hkind := kindOf_eq p hv hw heq
    cases w with
    | number m =>
      obtain ⟨hvalue, hrs⟩ := numberText_readsBack p n hv m hw r s hr hs heq
      exact ⟨congrArg Json.number hvalue, hrs⟩
    | bool b => cases b <;> cases hkind
    | _ => cases hkind
  | string t =>
    intro w hw r s hr hs heq
    have hkind := kindOf_eq p hv hw heq
    cases w with
    | string t' =>
      obtain ⟨hvalue, hrs⟩ := stringify_readsBack t t' trivial r s trivial trivial heq
      exact ⟨congrArg Json.string hvalue, hrs⟩
    | bool b => cases b <;> cases hkind
    | _ => cases hkind
  | array items ih =>
    intro w hw r s hr hs heq
    have hkind := kindOf_eq p hv hw heq
    cases w with
    | array items' =>
      have hitems := (every_array items).mp hv
      simp only [write, writeItems_eq, List.cons_append, List.append_assoc, List.nil_append,
        List.cons.injEq, true_and] at heq
      obtain ⟨hvalue, hrs⟩ := readsBack_join (by decide) (noDigit_cons (by decide))
        (noDigit_cons (by decide)) (write_avoids p (by decide))
        (fun x hx => ⟨hitems x hx, ih x hx (hitems x hx)⟩) ((every_array items').mp hw) heq
      exact ⟨congrArg Json.array hvalue, hrs⟩
    | bool b => cases b <;> cases hkind
    | _ => cases hkind
  | object members ih =>
    intro w hw r s hr hs heq
    have hkind := kindOf_eq p hv hw heq
    cases w with
    | object members' =>
      have hmembers := ((every_object members).mp hv).2
      simp only [write, writeMembers_eq, List.cons_append, List.append_assoc, List.nil_append,
        List.cons.injEq, true_and] at heq
      have havoid : Avoids (writeMember p) (fun m => SafeNumbers m.2) '\x7d' := by
        intro m _ r s h
        cases (List.cons.inj h).1
      obtain ⟨hvalue, hrs⟩ := readsBack_join (by decide) (noDigit_cons (by decide))
        (noDigit_cons (by decide)) havoid
        (fun m hm => ⟨hmembers m hm, writeMember_readsBack p (ih m hm (hmembers m hm))⟩)
        ((every_object members').mp hw).2 heq
      exact ⟨congrArg Json.object hvalue, hrs⟩
    | bool b => cases b <;> cases hkind
    | _ => cases hkind

theorem write_injective (p : Floats) {v w : Json} (hv : SafeNumbers v) (hw : SafeNumbers w)
    (h : write p v = write p w) : v = w := by
  have heq : write p v ++ [] = write p w ++ [] := by rw [h]
  exact (write_readsBack p v hv w hw [] [] rfl rfl heq).1

lemma encode_injective : Function.Injective encode := by
  intro a b h
  have hbytes : (String.ofList a).toUTF8 = (String.ofList b).toUTF8 :=
    ByteArray.ext (Array.toList_inj.mp h)
  exact String.ofList_injective (String.toByteArray_inj.mp hbytes)

end SignetDrive.Proofs
