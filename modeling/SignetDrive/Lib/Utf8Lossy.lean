import Mathlib.Tactic

/-!
# Bytes read as text

UTF-8 decoding that replaces each invalid sequence by one character. An ASCII byte is never part of
such a sequence, so a text can be cut at its ASCII bytes before or after it is decoded.
-/

namespace Utf8Lossy

def replacement : Char := Char.ofNat 0xfffd

def isCont (b : UInt8) : Bool := 0x80 ≤ b.toNat && b.toNat ≤ 0xbf

def secondOf3 (lead b : UInt8) : Bool :=
  if lead.toNat = 0xe0 then 0xa0 ≤ b.toNat && b.toNat ≤ 0xbf
  else if lead.toNat = 0xed then 0x80 ≤ b.toNat && b.toNat ≤ 0x9f
  else isCont b

def secondOf4 (lead b : UInt8) : Bool :=
  if lead.toNat = 0xf0 then 0x90 ≤ b.toNat && b.toNat ≤ 0xbf
  else if lead.toNat = 0xf4 then 0x80 ≤ b.toNat && b.toNat ≤ 0x8f
  else isCont b

def char2 (b c : UInt8) : Char := Char.ofNat ((b.toNat - 0xc0) * 64 + (c.toNat - 0x80))

def char3 (b c d : UInt8) : Char :=
  Char.ofNat ((b.toNat - 0xe0) * 4096 + (c.toNat - 0x80) * 64 + (d.toNat - 0x80))

def char4 (b c d e : UInt8) : Char :=
  Char.ofNat ((b.toNat - 0xf0) * 262144 + (c.toNat - 0x80) * 4096 + (d.toNat - 0x80) * 64 + (e.toNat - 0x80))

/-- The character that starts with a byte, and how many of the bytes after it belong to it. -/
def decodeFirst (b : UInt8) (rest : List UInt8) : Char × ℕ :=
  if b.toNat < 0x80 then (Char.ofNat b.toNat, 0)
  else if 0xc2 ≤ b.toNat ∧ b.toNat ≤ 0xdf then
    match rest with
    | [] => (replacement, 0)
    | c :: _ => if isCont c then (char2 b c, 1) else (replacement, 0)
  else if 0xe0 ≤ b.toNat ∧ b.toNat ≤ 0xef then
    match rest with
    | [] => (replacement, 0)
    | [c] => (replacement, if secondOf3 b c then 1 else 0)
    | c :: d :: _ =>
      if secondOf3 b c then if isCont d then (char3 b c d, 2) else (replacement, 1) else (replacement, 0)
  else if 0xf0 ≤ b.toNat ∧ b.toNat ≤ 0xf4 then
    match rest with
    | [] => (replacement, 0)
    | [c] => (replacement, if secondOf4 b c then 1 else 0)
    | [c, d] => (replacement, if secondOf4 b c then if isCont d then 2 else 1 else 0)
    | c :: d :: e :: _ =>
      if secondOf4 b c then
        if isCont d then if isCont e then (char4 b c d e, 3) else (replacement, 2) else (replacement, 1)
      else (replacement, 0)
  else (replacement, 0)

def decodeFrom : ℕ → List UInt8 → List Char
  | _, [] => []
  | 0, b :: rest => (decodeFirst b rest).1 :: decodeFrom (decodeFirst b rest).2 rest
  | skip + 1, _ :: rest => decodeFrom skip rest

def decode (bytes : List UInt8) : List Char := decodeFrom 0 bytes

@[simp] lemma decode_nil : decode [] = [] := rfl

section

variable {x : UInt8} {rest : List UInt8}

section

variable (hx : x.toNat < 0x80)

include hx

lemma not_isCont_of_ascii : isCont x = false := by
  rw [isCont, Bool.and_eq_false_iff]
  left
  exact decide_eq_false (by omega)

lemma not_secondOf3_of_ascii (b : UInt8) : secondOf3 b x = false := by
  unfold secondOf3
  split
  · simp only [Bool.and_eq_false_iff, decide_eq_false_iff_not]
    omega
  · split
    · simp only [Bool.and_eq_false_iff, decide_eq_false_iff_not]
      omega
    · exact not_isCont_of_ascii hx

lemma not_secondOf4_of_ascii (b : UInt8) : secondOf4 b x = false := by
  unfold secondOf4
  split
  · simp only [Bool.and_eq_false_iff, decide_eq_false_iff_not]
    omega
  · split
    · simp only [Bool.and_eq_false_iff, decide_eq_false_iff_not]
      omega
    · exact not_isCont_of_ascii hx

lemma decodeFirst_append (b : UInt8) (before : List UInt8) :
    decodeFirst b (before ++ x :: rest) = decodeFirst b before := by
  have hcont := not_isCont_of_ascii hx
  have h3 := not_secondOf3_of_ascii hx b
  have h4 := not_secondOf4_of_ascii hx b
  match before with
  | [] => cases rest with
    | nil => simp [decodeFirst, hcont, h3, h4]
    | cons y rest => cases rest <;> simp [decodeFirst, hcont, h3, h4]
  | [c] => cases rest <;> simp [decodeFirst, hcont] <;> grind
  | [c, d] =>
    simp only [decodeFirst, List.cons_append, List.nil_append, hcont]
    grind
  | c :: d :: e :: before => simp [decodeFirst]

end

lemma decodeFirst_le (b : UInt8) (before : List UInt8) : (decodeFirst b before).2 ≤ before.length := by
  unfold decodeFirst
  grind

section

variable (hx : x.toNat < 0x80)

include hx

lemma decodeFirst_ascii (rest : List UInt8) :
    decodeFirst x rest = (Char.ofNat x.toNat, 0) := if_pos hx

lemma decodeFrom_append {skip : ℕ} {before : List UInt8} (hskip : skip ≤ before.length) :
    decodeFrom skip (before ++ x :: rest) = decodeFrom skip before ++ Char.ofNat x.toNat :: decode rest := by
  induction before generalizing skip with
  | nil =>
    obtain rfl : skip = 0 := Nat.le_zero.mp hskip
    simp only [List.nil_append, decodeFrom, decodeFirst_ascii hx]
    rfl
  | cons b before ih =>
    cases skip with
    | zero =>
      rw [List.cons_append, decodeFrom, decodeFrom, decodeFirst_append hx, ih (decodeFirst_le b before),
        List.cons_append]
    | succ skip =>
      rw [List.cons_append, decodeFrom, decodeFrom]
      exact ih (Nat.le_of_succ_le_succ hskip)

lemma decode_append (before rest : List UInt8) :
    decode (before ++ x :: rest) = decode before ++ Char.ofNat x.toNat :: decode rest :=
  decodeFrom_append hx (Nat.zero_le _)

lemma decode_cons (rest : List UInt8) :
    decode (x :: rest) = Char.ofNat x.toNat :: decode rest := decode_append hx [] rest

end

lemma decode_ascii_append {ascii : List UInt8} (h : ∀ b ∈ ascii, b.toNat < 0x80) (rest : List UInt8) :
    decode (ascii ++ rest) = (ascii.map fun b => Char.ofNat b.toNat) ++ decode rest := by
  induction ascii with
  | nil => rfl
  | cons b ascii ih =>
    rw [List.cons_append, decode_cons (h b List.mem_cons_self), ih fun c hc => h c (List.mem_cons_of_mem b hc)]
    rfl

lemma decode_ascii {ascii : List UInt8} (h : ∀ b ∈ ascii, b.toNat < 0x80) :
    decode ascii = ascii.map fun b => Char.ofNat b.toNat := by
  have happend := decode_ascii_append h []
  rwa [List.append_nil, decode_nil, List.append_nil] at happend

lemma decode_append_ascii {ascii : List UInt8} (h : ∀ b ∈ ascii, b.toNat < 0x80) (before : List UInt8) :
    decode (before ++ ascii) = decode before ++ ascii.map fun b => Char.ofNat b.toNat := by
  cases ascii with
  | nil => rw [List.append_nil, List.map_nil, List.append_nil]
  | cons b ascii =>
    rw [decode_append (h b List.mem_cons_self), decode_ascii fun c hc => h c (List.mem_cons_of_mem b hc)]
    rfl

end

lemma ofNat_eq_of_ne_zero {n : ℕ} {ch : Char} (hne : ch.toNat ≠ 0) (h : Char.ofNat n = ch) : n = ch.toNat := by
  by_cases hvalid : n.isValidChar
  · rw [← h, Char.ofNat, dif_pos hvalid]
    rfl
  · rw [← h, Char.ofNat, dif_neg hvalid] at hne
    exact absurd rfl hne

section

variable {ch : Char} {b c d e : UInt8}

section

variable (hne : ch.toNat ≠ 0)

include hne

variable (hascii : ch.toNat < 0x80)

include hascii

lemma char2_ne (hb : 0xc2 ≤ b.toNat) : char2 b c ≠ ch := by
  intro h
  have hvalue := ofNat_eq_of_ne_zero hne h
  omega

lemma char3_ne (hb : 0xe0 ≤ b.toNat) (hc : secondOf3 b c) :
    char3 b c d ≠ ch := by
  intro h
  have hvalue := ofNat_eq_of_ne_zero hne h
  unfold secondOf3 at hc
  split at hc
  · simp only [Bool.and_eq_true, decide_eq_true_eq] at hc
    omega
  · omega

lemma char4_ne (hb : 0xf0 ≤ b.toNat) (hc : secondOf4 b c) :
    char4 b c d e ≠ ch := by
  intro h
  have hvalue := ofNat_eq_of_ne_zero hne h
  unfold secondOf4 at hc
  split at hc
  · simp only [Bool.and_eq_true, decide_eq_true_eq] at hc
    omega
  · omega

lemma decodeFirst_eq_ascii {rest : List UInt8}
    (h : (decodeFirst b rest).1 = ch) : b.toNat = ch.toNat := by
  have hreplacement : replacement ≠ ch := by
    rintro rfl
    exact absurd hascii (by decide)
  unfold decodeFirst at h
  split at h
  · exact ofNat_eq_of_ne_zero hne h
  · exfalso
    split at h
    next h2 => grind [char2_ne]
    next =>
      split at h
      next h3 => grind [char3_ne]
      next =>
        split at h
        next h4 => grind [char4_ne]
        next => exact hreplacement h

lemma mem_decodeFrom {skip : ℕ} {bytes : List UInt8}
    (h : ch ∈ decodeFrom skip bytes) : ∃ b ∈ bytes, b.toNat = ch.toNat := by
  induction bytes generalizing skip with
  | nil => cases skip <;> cases h
  | cons b bytes ih =>
    cases skip with
    | zero =>
      rw [decodeFrom, List.mem_cons] at h
      obtain h | h := h
      · exact ⟨b, List.mem_cons_self, decodeFirst_eq_ascii hne hascii h.symm⟩
      · obtain ⟨b', hb', heq⟩ := ih h
        exact ⟨b', List.mem_cons_of_mem b hb', heq⟩
    | succ skip =>
      obtain ⟨b', hb', heq⟩ := ih h
      exact ⟨b', List.mem_cons_of_mem b hb', heq⟩

lemma mem_decode {bytes : List UInt8} (h : ch ∈ decode bytes) :
    ∃ b ∈ bytes, b.toNat = ch.toNat := mem_decodeFrom hne hascii h

end

end

end Utf8Lossy
