import SignetDrive.Model.BucketTransport

/-!
# The head of a storage response
-/

namespace SignetDrive.Proofs
open Client Utf8Lossy

def isPadding (b : UInt8) : Bool := b.toNat = 0x20 || b.toNat = 0x09

def isVisible (b : UInt8) : Bool := 0x21 ≤ b.toNat && b.toNat ≤ 0x7e

/-- A byte of a header name: a visible character other than a delimiter. -/
def isTchar (b : UInt8) : Bool :=
  isVisible b && decide (b.toNat ∉ [0x22, 0x28, 0x29, 0x2c, 0x2f, 0x3a, 0x3b, 0x3c, 0x3d, 0x3e, 0x3f, 0x40,
    0x5b, 0x5c, 0x5d, 0x7b, 0x7d])

/-- A byte of a header value: a visible character, a blank, or a byte beyond ASCII. -/
def isFieldByte (b : UInt8) : Bool := isPadding b || isVisible b || 0x80 ≤ b.toNat

/-- A header line, its value between blanks. -/
structure HeaderField where
  name : Bytes
  before : Bytes
  value : Bytes
  after : Bytes

/-- Name, value and padding consist of the bytes that HTTP allows there. -/
structure HeaderField.WellFormed (f : HeaderField) : Prop where
  name_ne : f.name ≠ []
  name : ∀ b ∈ f.name, isTchar b
  before : ∀ b ∈ f.before, isPadding b
  value : ∀ b ∈ f.value, isFieldByte b
  after : ∀ b ∈ f.after, isPadding b

def HeaderField.line (f : HeaderField) : Bytes := f.name ++ 0x3a :: (f.before ++ f.value ++ f.after)

def asciiText (bytes : Bytes) : List Char := bytes.map fun b => Char.ofNat b.toNat

def HeaderField.named (lower : String) (f : HeaderField) : Bool := isHeader (asciiText f.name) lower

structure IsDigits (bytes : Bytes) : Prop where
  ne_nil : bytes ≠ []
  digit : ∀ b ∈ bytes, 0x30 ≤ b.toNat ∧ b.toNat ≤ 0x39

def digitsValue (bytes : Bytes) : ℕ := Nat.ofDigitChars 10 (asciiText bytes) 0

/-- A response, by the parts that are written out. -/
structure StorageResponse where
  version : Bytes
  code : Bytes
  reason : Bytes
  fields : List HeaderField
  body : Bytes

namespace StorageResponse

variable (r : StorageResponse)

def status : ℕ := digitsValue r.code

def statusLine : Bytes := r.version ++ 0x20 :: (r.code ++ 0x20 :: r.reason)

def head : Bytes := (r.statusLine :: r.fields.map HeaderField.line).flatMap (· ++ [13, 10]) ++ [13, 10]

def bytes : Bytes := r.head ++ r.body

def etag : Option String :=
  (r.fields.filter (HeaderField.named "etag")).getLast?.map fun f => String.ofList (Utf8Lossy.decode f.value)

/-- A response of the kind 2xx with one declared length, which is that of its body. -/
structure WellFormed : Prop where
  version_ne : r.version ≠ []
  version : ∀ b ∈ r.version, isVisible b
  code : IsDigits r.code
  success : 200 ≤ r.status ∧ r.status < 300
  reason : ∀ b ∈ r.reason, isFieldByte b
  fields : ∀ f ∈ r.fields, f.WellFormed
  contentLength : ∃ f, r.fields.filter (HeaderField.named "content-length") = [f] ∧ IsDigits f.value ∧
    digitsValue f.value = r.body.length
  not_encoded : ∀ f ∈ r.fields, f.named "transfer-encoding" = false
  etag : ∀ f ∈ r.fields, f.named "etag" → (∀ b, f.value.head? = some b → isVisible b) ∧
    ∀ b, f.value.getLast? = some b → isVisible b
  head_length : r.head.length ≤ 48 * 1024
  /-- Lengths are of type `usize`. -/
  body_length : r.body.length < 2 ^ 64

end StorageResponse

section

variable {b : UInt8}

lemma isPadding_ascii (h : isPadding b) : b.toNat = 0x20 ∨ b.toNat = 0x09 := by
  simpa [isPadding] using h

lemma isVisible_ascii (h : isVisible b) : 0x21 ≤ b.toNat ∧ b.toNat ≤ 0x7e := by
  simpa [isVisible] using h

lemma isTchar_ascii (h : isTchar b) : 0x21 ≤ b.toNat ∧ b.toNat < 0x80 ∧ b.toNat ≠ 0x3a := by
  rw [isTchar, Bool.and_eq_true, decide_eq_true_iff] at h
  obtain ⟨hlow, hhigh⟩ := isVisible_ascii h.1
  refine ⟨hlow, by omega, ?_⟩
  intro hcolon
  rw [hcolon] at h
  exact h.2 (by decide)

lemma not_lineEnd_of_isFieldByte (h : isFieldByte b) : b.toNat ≠ 13 ∧ b.toNat ≠ 10 := by
  simp only [isFieldByte, isPadding, isVisible, Bool.or_eq_true, Bool.and_eq_true, decide_eq_true_eq] at h
  omega

end

lemma toNat_ofNat_ascii : ∀ n < 0x80, (Char.ofNat n).toNat = n := by decide

lemma isWhitespace_of_visible {n : ℕ} (hlow : 0x21 ≤ n) (hhigh : n < 0x80) :
    isWhitespace (Char.ofNat n) = false := by
  simp only [isWhitespace, toNat_ofNat_ascii n hhigh]
  grind

lemma isWhitespace_of_padding {b : UInt8} (h : isPadding b) : isWhitespace (Char.ofNat b.toNat) := by
  obtain h | h := isPadding_ascii h
  · rw [h]
    rfl
  · rw [h]
    rfl

lemma splitOnce_append {c : Char} {before : List Char} (h : c ∉ before) (after : List Char) :
    splitOnce [c] (before ++ c :: after) = some (before, after) := by
  induction before with
  | nil => simp [splitOnce]
  | cons d before ih =>
    rw [List.mem_cons, not_or] at h
    rw [List.cons_append, splitOnce, if_neg (by simpa using h.1), ih h.2]
    rfl

lemma splitCrlf_append {line : List Char} (h : '\r' ∉ line) (rest : List Char) :
    splitCrlf (line ++ '\r' :: '\n' :: rest) = line :: splitCrlf rest := by
  induction line with
  | nil => rfl
  | cons c line ih =>
    rw [List.mem_cons, not_or] at h
    have hc : c ≠ '\r' := fun hc => h.1 hc.symm
    rw [List.cons_append, splitCrlf.eq_3 _ _ (fun _ heq => absurd heq hc), ih h.2]

lemma splitCrlf_lines {lines : List (List Char)} (h : ∀ line ∈ lines, '\r' ∉ line) :
    splitCrlf (lines.flatMap (· ++ ['\r', '\n']) ++ ['\r', '\n']) = lines ++ [[], []] := by
  induction lines with
  | nil => rfl
  | cons line lines ih =>
    rw [List.flatMap_cons, List.append_assoc, List.append_assoc, List.cons_append, List.cons_append,
      List.nil_append, splitCrlf_append (h line List.mem_cons_self),
      ih fun l hl => h l (List.mem_cons_of_mem line hl)]
    rfl

lemma rdropWhile_append {α : Type} {p : α → Bool} {xs ys : List α} (h : ∀ y ∈ ys, p y) :
    (xs ++ ys).rdropWhile p = xs.rdropWhile p := by
  rw [List.rdropWhile, List.rdropWhile, List.reverse_append, List.dropWhile_append_of_pos]
  intro y hy
  exact h y (List.mem_reverse.mp hy)

lemma trim_between {before text after : List Char} (hbefore : ∀ c ∈ before, isWhitespace c)
    (hafter : ∀ c ∈ after, isWhitespace c) (hhead : ∀ c, text.head? = some c → isWhitespace c = false)
    (hlast : ∀ c, text.getLast? = some c → isWhitespace c = false) : trim (before ++ text ++ after) = text := by
  rw [trim, List.append_assoc, List.dropWhile_append_of_pos hbefore]
  cases text with
  | nil =>
    rw [List.nil_append, List.dropWhile_eq_nil_iff.mpr hafter]
    rfl
  | cons c text =>
    have hc : ¬ isWhitespace c := by simp [hhead c rfl]
    rw [List.cons_append, List.dropWhile_cons_of_neg hc, ← List.cons_append, rdropWhile_append hafter,
      List.rdropWhile_eq_self_iff]
    intro hne
    have h := hlast _ (List.getLast?_eq_some_getLast hne)
    simp [h]

lemma findHeadersEnd_append_line {line : Bytes} (h : 13 ∉ line) (rest : Bytes) :
    findHeadersEnd (line ++ rest) = (findHeadersEnd rest).map (· + line.length) := by
  induction line with
  | nil => simp
  | cons b line ih =>
    rw [List.mem_cons, not_or] at h
    have hfront : ¬ CRLF2.isPrefixOf (b :: (line ++ rest)) := by
      simp [CRLF2, List.isPrefixOf, h.1]
    rw [List.cons_append, findHeadersEnd, if_neg hfront, ih h.2, Option.map_map]
    rfl

lemma findHeadersEnd_crlf {b : UInt8} (h : b ≠ 13) (rest : Bytes) :
    findHeadersEnd (13 :: 10 :: b :: rest) = (findHeadersEnd (b :: rest)).map (· + 2) := by
  have hfront : ¬ CRLF2.isPrefixOf (13 :: 10 :: b :: rest) := by
    simp [CRLF2, List.isPrefixOf, h.symm]
  rw [findHeadersEnd, if_neg hfront, findHeadersEnd, if_neg (by simp [CRLF2, List.isPrefixOf]), Option.map_map]
  rfl

lemma findHeadersEnd_lines {line : Bytes} {lines : List Bytes}
    (h : ∀ l ∈ line :: lines, l ≠ [] ∧ 13 ∉ l) :
    findHeadersEnd ((line :: lines).flatMap (· ++ [13, 10]) ++ [13, 10]) =
      some ((line :: lines).flatMap (· ++ [13, 10]) ++ [13, 10]).length := by
  induction lines generalizing line with
  | nil =>
    have hend : findHeadersEnd [13, 10, 13, 10] = some 4 := rfl
    rw [List.flatMap_singleton, List.append_assoc, findHeadersEnd_append_line (h line (by simp)).2]
    simp [hend, Nat.add_comm]
  | cons next lines ih =>
    have hnext : ∀ l ∈ next :: lines, l ≠ [] ∧ 13 ∉ l := fun l hl => h l (List.mem_cons_of_mem line hl)
    have hrest := ih hnext
    obtain ⟨b, more, rfl⟩ := List.exists_cons_of_ne_nil (h next (by simp)).1
    have hb : b ≠ 13 := by
      rintro rfl
      exact (h _ (by simp)).2 (List.mem_cons_self (l := more))
    rw [List.flatMap_cons] at hrest ⊢
    rw [List.flatMap_cons, List.append_assoc, List.append_assoc,
      findHeadersEnd_append_line (h line (by simp)).2]
    simp only [List.cons_append, List.nil_append, List.append_assoc] at hrest ⊢
    rw [findHeadersEnd_crlf hb, hrest]
    simp only [Option.map_some, List.length_append, List.length_cons]
    congr 1
    omega

variable {bytes : Bytes}

lemma mem_asciiText {ch : Char} (hascii : ∀ b ∈ bytes, b.toNat < 0x80) (h : ch ∈ asciiText bytes) :
    ∃ b ∈ bytes, b.toNat = ch.toNat := by
  obtain ⟨b, hb, rfl⟩ := List.mem_map.mp h
  exact ⟨b, hb, (toNat_ofNat_ascii _ (hascii b hb)).symm⟩

namespace HeaderField

variable {f : HeaderField}

def text (f : HeaderField) : List Char := trim (Utf8Lossy.decode (f.before ++ f.value ++ f.after))

lemma WellFormed.name_ascii (hf : f.WellFormed) : ∀ b ∈ f.name, b.toNat < 0x80 :=
  fun b hb => (isTchar_ascii (hf.name b hb)).2.1

lemma WellFormed.splitOnce_line (hf : f.WellFormed) : splitOnce [':'] (Utf8Lossy.decode f.line) =
    some (asciiText f.name, Utf8Lossy.decode (f.before ++ f.value ++ f.after)) := by
  have hcolon : ':' ∉ asciiText f.name := by
    intro h
    obtain ⟨b, hb, hb'⟩ := mem_asciiText hf.name_ascii h
    exact (isTchar_ascii (hf.name b hb)).2.2 hb'
  have hdecode : Utf8Lossy.decode f.line =
      asciiText f.name ++ ':' :: Utf8Lossy.decode (f.before ++ f.value ++ f.after) := by
    rw [line, decode_append (by decide), decode_ascii hf.name_ascii]
    rfl
  rw [hdecode]
  exact splitOnce_append hcolon _

lemma padding_ascii (h : ∀ b ∈ bytes, isPadding b) : ∀ b ∈ bytes, b.toNat < 0x80 := by
  intro b hb
  have := isPadding_ascii (h b hb)
  omega

lemma padding_whitespace (h : ∀ b ∈ bytes, isPadding b) : ∀ c ∈ asciiText bytes, isWhitespace c := by
  intro c hc
  obtain ⟨b, hb, rfl⟩ := List.mem_map.mp hc
  exact isWhitespace_of_padding (h b hb)

lemma WellFormed.decode_value (hf : f.WellFormed) : Utf8Lossy.decode (f.before ++ f.value ++ f.after) =
    asciiText f.before ++ Utf8Lossy.decode f.value ++ asciiText f.after := by
  rw [decode_append_ascii (padding_ascii hf.after),
    decode_ascii_append (padding_ascii hf.before)]
  rfl

lemma WellFormed.text_eq (hf : f.WellFormed) (hhead : ∀ b, f.value.head? = some b → isVisible b)
    (hlast : ∀ b, f.value.getLast? = some b → isVisible b) : f.text = Utf8Lossy.decode f.value := by
  rw [text, hf.decode_value]
  apply trim_between (padding_whitespace hf.before) (padding_whitespace hf.after)
  · intro c hc
    cases hvalue : f.value with
    | nil =>
      rw [hvalue] at hc
      cases hc
    | cons b rest =>
      have hb := isVisible_ascii (hhead b (by rw [hvalue]; rfl))
      rw [hvalue, decode_cons (by omega)] at hc
      rw [← Option.some_inj.mp hc]
      exact isWhitespace_of_visible hb.1 (by omega)
  · intro c hc
    rcases List.eq_nil_or_concat f.value with hvalue | ⟨init, b, hvalue⟩
    · rw [hvalue] at hc
      cases hc
    · have hb := isVisible_ascii (hlast b (by rw [hvalue, List.concat_eq_append, List.getLast?_concat]))
      rw [hvalue, List.concat_eq_append, decode_append (by omega), decode_nil,
        List.getLast?_concat] at hc
      rw [← Option.some_inj.mp hc]
      exact isWhitespace_of_visible hb.1 (by omega)

end HeaderField

lemma isDigit_ofNat : ∀ n < 0x3a, 0x30 ≤ n → (Char.ofNat n).isDigit := by decide

namespace IsDigits

variable {bytes : Bytes}

section

variable (h : IsDigits bytes)

include h

lemma ascii : ∀ b ∈ bytes, b.toNat < 0x80 := by
  intro b hb
  have := h.digit b hb
  omega

lemma visible : ∀ b ∈ bytes, isVisible b := by
  intro b hb
  have := h.digit b hb
  simp only [isVisible, Bool.and_eq_true, decide_eq_true_eq]
  omega

lemma asciiText_ne : asciiText bytes ≠ [] := by
  simpa [asciiText] using h.ne_nil

lemma all_isDigit : (asciiText bytes).all Char.isDigit := by
  rw [List.all_eq_true]
  intro c hc
  obtain ⟨b, hb, rfl⟩ := List.mem_map.mp hc
  have hdigit := h.digit b hb
  exact isDigit_ofNat _ (by omega) hdigit.1

lemma stripPlus_eq : stripPlus (asciiText bytes) = asciiText bytes := by
  have hall := h.all_isDigit
  unfold stripPlus
  split
  next heq =>
    rw [heq] at hall
    exact absurd hall (by simp [Char.isDigit])
  next => rfl

lemma parseU16_eq (hlt : digitsValue bytes < 2 ^ 16) :
    parseU16 (String.ofList (asciiText bytes)) = some ⟨digitsValue bytes, hlt⟩ := by
  simp only [parseU16, String.toList_ofList, h.stripPlus_eq]
  rw [if_pos ⟨h.asciiText_ne, h.all_isDigit⟩]
  exact dif_pos hlt

lemma parseUsize_eq (hlt : digitsValue bytes < 2 ^ 64) :
    parseUsize (asciiText bytes) = some ⟨digitsValue bytes, hlt⟩ := by
  simp only [parseUsize, h.stripPlus_eq]
  rw [if_pos ⟨h.asciiText_ne, h.all_isDigit⟩]
  exact dif_pos hlt

end

end IsDigits

namespace HeaderField

variable {f : HeaderField}

lemma WellFormed.applyHeader_line (hf : f.WellFormed) (head : ResponseHead) :
    applyHeader head (Utf8Lossy.decode f.line) =
      if f.named "etag" then { head with etag := some (String.ofList f.text) }
      else if f.named "content-length" then { head with contentLength := parseUsize f.text }
      else if f.named "transfer-encoding" && containsText "chunked".toList (f.text.map asciiLower) then
        { head with chunked := true }
      else if f.named "connection" && containsText "close".toList (f.text.map asciiLower) then
        { head with serverClose := true }
      else head := by
  rw [applyHeader, hf.splitOnce_line]
  rfl

lemma not_contentLength_of_etag (h : f.named "etag") : f.named "content-length" = false := by
  simp only [named, isHeader, decide_eq_true_eq] at h
  simp only [named, isHeader, decide_eq_false_iff_not, h]
  decide

end HeaderField

def applyFields (fields : List HeaderField) (head : ResponseHead) : ResponseHead :=
  (fields.map fun f => Utf8Lossy.decode f.line).foldl applyHeader head

lemma applyFields_cons (f : HeaderField) (fields : List HeaderField) (head : ResponseHead) :
    applyFields (f :: fields) head = applyFields fields (applyHeader head (Utf8Lossy.decode f.line)) := rfl

section

variable {fields : List HeaderField} (hfields : ∀ f ∈ fields, f.WellFormed)
include hfields

lemma applyFields_status (head : ResponseHead) : (applyFields fields head).status = head.status := by
  induction fields generalizing head with
  | nil => rfl
  | cons f fields ih =>
    rw [applyFields_cons, ih fun g hg => hfields g (List.mem_cons_of_mem f hg),
      (hfields f List.mem_cons_self).applyHeader_line]
    split_ifs <;> rfl

lemma applyFields_chunked (hnot : ∀ f ∈ fields, f.named "transfer-encoding" = false) (head : ResponseHead) :
    (applyFields fields head).chunked = head.chunked := by
  induction fields generalizing head with
  | nil => rfl
  | cons f fields ih =>
    rw [applyFields_cons, ih (fun g hg => hfields g (List.mem_cons_of_mem f hg))
      fun g hg => hnot g (List.mem_cons_of_mem f hg), (hfields f List.mem_cons_self).applyHeader_line,
      hnot f List.mem_cons_self]
    rw [Bool.false_and, if_neg Bool.false_ne_true]
    split_ifs <;> rfl

lemma applyFields_etag (head : ResponseHead) : (applyFields fields head).etag =
    ((fields.filter (HeaderField.named "etag")).getLast?.map fun f => String.ofList f.text).or head.etag := by
  induction fields generalizing head with
  | nil => rfl
  | cons f fields ih =>
    rw [applyFields_cons, ih fun g hg => hfields g (List.mem_cons_of_mem f hg),
      (hfields f List.mem_cons_self).applyHeader_line]
    by_cases h : f.named "etag"
    · rw [if_pos h, List.filter_cons_of_pos h, List.getLast?_cons]
      cases (fields.filter (HeaderField.named "etag")).getLast? <;> rfl
    · rw [if_neg h, List.filter_cons_of_neg h]
      split_ifs <;> rfl

lemma applyFields_contentLength (head : ResponseHead) : (applyFields fields head).contentLength =
    ((fields.filter (HeaderField.named "content-length")).getLast?.map fun f => parseUsize f.text).getD
      head.contentLength := by
  induction fields generalizing head with
  | nil => rfl
  | cons f fields ih =>
    rw [applyFields_cons, ih fun g hg => hfields g (List.mem_cons_of_mem f hg),
      (hfields f List.mem_cons_self).applyHeader_line]
    by_cases h : f.named "content-length"
    · have hetag : ¬ f.named "etag" := by
        intro hetag
        rw [HeaderField.not_contentLength_of_etag hetag] at h
        cases h
      rw [if_neg hetag, if_pos h, List.filter_cons_of_pos h, List.getLast?_cons]
      cases (fields.filter (HeaderField.named "content-length")).getLast? <;> rfl
    · rw [if_neg h, List.filter_cons_of_neg h]
      split_ifs <;> rfl

end

namespace StorageResponse

variable {r : StorageResponse}

lemma not_mem_lineEnd (h : ∀ b ∈ bytes, b.toNat ≠ 13) : 13 ∉ bytes := fun hmem => h 13 hmem rfl

lemma visible_not_lineEnd (h : ∀ b ∈ bytes, isVisible b) : 13 ∉ bytes := by
  apply not_mem_lineEnd
  intro b hb
  have := isVisible_ascii (h b hb)
  omega

lemma padding_not_lineEnd (h : ∀ b ∈ bytes, isPadding b) : 13 ∉ bytes := by
  apply not_mem_lineEnd
  intro b hb
  have := isPadding_ascii (h b hb)
  omega

lemma fieldBytes_not_lineEnd (h : ∀ b ∈ bytes, isFieldByte b) : 13 ∉ bytes :=
  not_mem_lineEnd fun b hb => (not_lineEnd_of_isFieldByte (h b hb)).1

lemma WellFormed.lines (hr : r.WellFormed) :
    ∀ l ∈ r.statusLine :: r.fields.map HeaderField.line, l ≠ [] ∧ 13 ∉ l := by
  rw [List.forall_mem_cons]
  constructor
  · refine ⟨by simp [statusLine], ?_⟩
    simp only [statusLine, List.mem_append, List.mem_cons, not_or]
    exact ⟨visible_not_lineEnd hr.version, by decide, visible_not_lineEnd hr.code.visible, by decide,
      fieldBytes_not_lineEnd hr.reason⟩
  · intro l hl
    obtain ⟨f, hf, rfl⟩ := List.mem_map.mp hl
    have hf := hr.fields f hf
    have hname : 13 ∉ f.name := by
      apply not_mem_lineEnd
      intro b hb
      have := isTchar_ascii (hf.name b hb)
      omega
    refine ⟨by simp [HeaderField.line], ?_⟩
    simp only [HeaderField.line, List.mem_append, List.mem_cons, not_or]
    exact ⟨hname, by decide, ⟨padding_not_lineEnd hf.before, fieldBytes_not_lineEnd hf.value⟩,
      padding_not_lineEnd hf.after⟩

lemma WellFormed.findHeadersEnd_head (hr : r.WellFormed) : findHeadersEnd r.head = some r.head.length :=
  findHeadersEnd_lines hr.lines

lemma decode_lines (lines : List Bytes) : Utf8Lossy.decode (lines.flatMap (· ++ [13, 10]) ++ [13, 10]) =
    (lines.map Utf8Lossy.decode).flatMap (· ++ ['\r', '\n']) ++ ['\r', '\n'] := by
  induction lines with
  | nil => rfl
  | cons line lines ih =>
    rw [List.flatMap_cons, List.append_assoc, List.append_assoc, List.cons_append, List.cons_append,
      List.nil_append, decode_append (by decide), decode_cons (by decide), ih, List.map_cons, List.flatMap_cons]
    simp only [List.append_assoc, List.cons_append, List.nil_append]
    rfl

lemma WellFormed.splitCrlf_head (hr : r.WellFormed) : splitCrlf (Utf8Lossy.decode r.head) =
    Utf8Lossy.decode r.statusLine :: (r.fields.map fun f => Utf8Lossy.decode f.line) ++ [[], []] := by
  rw [head, decode_lines, splitCrlf_lines, List.map_cons, List.map_map]
  · rfl
  · intro line hline
    obtain ⟨bytes, hbytes, rfl⟩ := List.mem_map.mp hline
    intro h
    obtain ⟨b, hb, hb'⟩ := mem_decode (by decide) (by decide) h
    have hb13 : b = 13 := UInt8.toNat_inj.mp hb'
    exact (hr.lines bytes hbytes).2 (hb13 ▸ hb)

lemma WellFormed.splitWhitespace_statusLine (hr : r.WellFormed) :
    (splitWhitespace (Utf8Lossy.decode r.statusLine))[1]? = some (asciiText r.code) := by
  have hversion : ∀ b ∈ r.version, b.toNat < 0x80 := by
    intro b hb
    have := isVisible_ascii (hr.version b hb)
    omega
  have hword : ∀ {bytes : Bytes}, (∀ b ∈ bytes, isVisible b) →
      ∀ c ∈ asciiText bytes, isWhitespace c = false := by
    intro bytes hbytes c hc
    obtain ⟨b, hb, rfl⟩ := List.mem_map.mp hc
    have hvisible := isVisible_ascii (hbytes b hb)
    exact isWhitespace_of_visible hvisible.1 (by omega)
  have hdecode : Utf8Lossy.decode r.statusLine =
      asciiText r.version ++ ' ' :: (asciiText r.code ++ ' ' :: Utf8Lossy.decode r.reason) := by
    rw [statusLine, decode_append (by decide), decode_append (by decide),
      decode_ascii hversion, decode_ascii hr.code.ascii]
    rfl
  have hversionNe : asciiText r.version ≠ [] := by simpa [asciiText] using hr.version_ne
  rw [hdecode, splitWhitespace, List.splitOnP_append_cons _ _ (by decide),
    List.splitOnP_append_cons _ _ (by decide), List.splitOnP_eq_singleton (hword hr.version),
    List.splitOnP_eq_singleton (hword hr.code.visible), List.singleton_append, List.singleton_append,
    List.filter_cons_of_pos (by simpa using hversionNe),
    List.filter_cons_of_pos (by simpa using hr.code.asciiText_ne)]
  rfl

lemma WellFormed.parseHead_head (hr : r.WellFormed) : ∃ head, parseHead (Utf8Lossy.decode r.head) = .ok head ∧
    head.status.val = r.status ∧ head.etag = r.etag ∧ head.contentLength.map Fin.val = some r.body.length ∧
    head.chunked = false := by
  obtain ⟨f, hfilter, hdigits, hvalue⟩ := hr.contentLength
  have hstatus : digitsValue r.code < 2 ^ 16 := by
    have h := hr.success.2
    rw [status] at h
    omega
  have hmem : f ∈ r.fields := List.mem_of_mem_filter (hfilter ▸ List.mem_singleton_self f)
  have htext : f.text = asciiText f.value := by
    rw [(hr.fields f hmem).text_eq, decode_ascii hdigits.ascii]
    · rfl
    · exact fun b hb => hdigits.visible b (List.mem_of_mem_head? hb)
    · exact fun b hb => hdigits.visible b (List.mem_of_getLast? hb)
  let start : ResponseHead := ⟨⟨digitsValue r.code, hstatus⟩, none, none, false, false⟩
  refine ⟨applyFields r.fields start, ?_, ?_, ?_, ?_, ?_⟩
  · simp only [parseHead, hr.splitCrlf_head, List.cons_append, List.headD_cons, List.tail_cons,
      hr.splitWhitespace_statusLine, Option.bind_some, hr.code.parseU16_eq hstatus, except_bind_ok, okOr_ok,
      except_pure_ok]
    refine ⟨_, rfl, ?_⟩
    rw [List.foldl_append]
    rfl
  · rw [applyFields_status hr.fields]
    rfl
  · rw [applyFields_etag hr.fields, StorageResponse.etag, Option.or_none]
    cases hlast : (r.fields.filter (HeaderField.named "etag")).getLast? with
    | none => rfl
    | some g =>
      obtain ⟨hg, hnamed⟩ := List.mem_filter.mp (List.mem_of_getLast? hlast)
      obtain ⟨hfirst, hend⟩ := hr.etag g hg hnamed
      rw [Option.map_some, Option.map_some, (hr.fields g hg).text_eq hfirst hend]
  · rw [applyFields_contentLength hr.fields, hfilter, List.getLast?_singleton, Option.map_some,
      Option.getD_some, htext, hdigits.parseUsize_eq (hvalue ▸ hr.body_length), Option.map_some]
    exact congrArg some hvalue
  · exact applyFields_chunked hr.fields hr.not_encoded start

end StorageResponse

end SignetDrive.Proofs
