import SignetDrive.Model.CliError
import Mathlib.Data.String.Basic

/-!
# Key labels

`KeyLabel` of `cli/src/keystore/mod.rs`: a handle and a purpose, written `<handle>-<purpose>`.
-/

namespace SignetDrive

inductive Purpose where
  | signing
  | kem
  | signingPq
  | kemPq
  deriving DecidableEq

namespace Purpose

def asStr : Purpose → String
  | signing => "signing"
  | kem => "kem"
  | signingPq => "signing-pq"
  | kemPq => "kem-pq"

def suffix : Purpose → String
  | signing => "-signing"
  | kem => "-kem"
  | signingPq => "-signing-pq"
  | kemPq => "-kem-pq"

end Purpose

def stripSuffix (s suffix : String) : Option String :=
  (s.toList.dropSuffix? suffix.toList).map String.ofList

def isAlnum (b : UInt8) : Bool :=
  (97 ≤ b.toNat ∧ b.toNat ≤ 122) ∨ (48 ≤ b.toNat ∧ b.toNat ≤ 57)

/-- The handle has 2 to 64 bytes, all lowercase letters, digits and hyphens, none of the latter
at either end, and ends in `-ai`. -/
def validateHandle (handle : String) : Except CliError Unit := do
  let bytes := handle.toUTF8.data.toList
  let n := bytes.length
  if ¬ (2 ≤ n ∧ n ≤ 64) then
    throw (.invalidArgs s!"handle '{handle}' must be 2–64 characters")
  if ¬ isAlnum (bytes.getD 0 0) ∨ ¬ isAlnum (bytes.getD (n - 1) 0) then
    throw (.invalidArgs s!"handle '{handle}' must start and end with a lowercase letter or digit")
  if ¬ bytes.all (fun b => isAlnum b || b == 45) then
    throw (.invalidArgs
      s!"handle '{handle}' may contain only lowercase ASCII letters, digits, and hyphens")
  if ¬ "-ai".toList <:+ handle.toList then
    throw (.invalidArgs s!"handle '{handle}' must end in '-ai' (PRSN handle convention)")

/-- A label is only ever built around a validated handle. -/
structure KeyLabel where
  handle : String
  purpose : Purpose
  valid : validateHandle handle = .ok ()
  deriving DecidableEq

namespace KeyLabel

def full (self : KeyLabel) : String := self.handle ++ self.purpose.suffix

def splitPurpose (label : String) : Option (String × Purpose) :=
  match stripSuffix label Purpose.signingPq.suffix with
  | some h => some (h, .signingPq)
  | none =>
    match stripSuffix label Purpose.kemPq.suffix with
    | some h => some (h, .kemPq)
    | none =>
      match stripSuffix label Purpose.signing.suffix with
      | some h => some (h, .signing)
      | none => (stripSuffix label Purpose.kem.suffix).map fun h => (h, .kem)

def fromHandle (handle : String) (purpose : Purpose) : Except CliError KeyLabel :=
  match h : validateHandle handle with
  | .ok () => .ok ⟨handle, purpose, h⟩
  | .error e => .error e

def parse (label : String) (expected : Option Purpose) : Except CliError KeyLabel :=
  match splitPurpose label with
  | none => .error (.invalidArgs (s!"label '{label}' must end in '-signing', '-kem', " ++
      "'-signing-pq', or '-kem-pq' (format <prsn-handle>-<purpose>)"))
  | some (handle, purpose) =>
    match expected with
    | none => fromHandle handle purpose
    | some exp =>
      if exp ≠ purpose then
        .error (.invalidArgs (s!"label '{label}' is a {purpose.asStr} key, " ++
          s!"but --{exp.asStr} was specified"))
      else fromHandle handle purpose

lemma stripSuffix_eq_some {s suffix h : String} : stripSuffix s suffix = some h ↔ s = h ++ suffix := by
  simp only [stripSuffix, Option.map_eq_some_iff, List.dropSuffix?_eq_some_iff, beq_iff_eq]
  constructor
  · rintro ⟨p, ⟨t, hs, rfl⟩, rfl⟩
    rw [← String.toList_inj, hs, String.toList_append, String.toList_ofList]
  · rintro rfl
    exact ⟨h.toList, ⟨suffix.toList, String.toList_append, rfl⟩, String.ofList_toList⟩

lemma suffix_isSuffix_suffix (p q : Purpose) (h : p.suffix.toList <:+ q.suffix.toList) : p = q := by
  revert h
  cases p <;> cases q <;> decide

/-- No label ends in the suffixes of two purposes, whatever hyphens its handle contains. -/
lemma purpose_unique {h h' : String} {p q : Purpose} (heq : h ++ p.suffix = h' ++ q.suffix) : p = q := by
  have hp : p.suffix.toList <:+ (h ++ p.suffix).toList := by
    rw [String.toList_append]
    exact List.suffix_append _ _
  have hq : q.suffix.toList <:+ (h ++ p.suffix).toList := by
    rw [heq, String.toList_append]
    exact List.suffix_append _ _
  rcases le_total p.suffix.toList.length q.suffix.toList.length with hle | hle
  · exact suffix_isSuffix_suffix p q (List.suffix_of_suffix_length_le hp hq hle)
  · exact (suffix_isSuffix_suffix q p (List.suffix_of_suffix_length_le hq hp hle)).symm

lemma stripSuffix_ne {h : String} {p q : Purpose} (hne : p ≠ q) :
    stripSuffix (h ++ p.suffix) q.suffix = none := by
  by_contra hsome
  obtain ⟨h', hh'⟩ := Option.ne_none_iff_exists'.mp hsome
  exact hne (purpose_unique (stripSuffix_eq_some.mp hh'))

lemma splitPurpose_append (h : String) (p : Purpose) : splitPurpose (h ++ p.suffix) = some (h, p) := by
  have hself : stripSuffix (h ++ p.suffix) p.suffix = some h := stripSuffix_eq_some.mpr rfl
  unfold splitPurpose
  cases p with
  | signingPq => rw [hself]
  | kemPq => rw [stripSuffix_ne (by decide), hself]
  | signing => rw [stripSuffix_ne (by decide), stripSuffix_ne (by decide), hself]
  | kem =>
    rw [stripSuffix_ne (by decide), stripSuffix_ne (by decide), stripSuffix_ne (by decide), hself]
    rfl

lemma eq_append_of_splitPurpose {label h : String} {p : Purpose}
    (hsplit : splitPurpose label = some (h, p)) : label = h ++ p.suffix := by
  unfold splitPurpose at hsplit
  split at hsplit
  · rename_i hstrip
    cases hsplit
    exact stripSuffix_eq_some.mp hstrip
  · split at hsplit
    · rename_i hstrip
      cases hsplit
      exact stripSuffix_eq_some.mp hstrip
    · split at hsplit
      · rename_i hstrip
        cases hsplit
        exact stripSuffix_eq_some.mp hstrip
      · rw [Option.map_eq_some_iff] at hsplit
        obtain ⟨h', hstrip, heq⟩ := hsplit
        cases heq
        exact stripSuffix_eq_some.mp hstrip

lemma fromHandle_ok {handle : String} {purpose : Purpose} {l : KeyLabel} :
    fromHandle handle purpose = .ok l ↔ l.handle = handle ∧ l.purpose = purpose := by
  unfold fromHandle
  constructor
  · intro h
    split at h
    · cases h
      exact ⟨rfl, rfl⟩
    · cases h
  · rintro ⟨rfl, rfl⟩
    split
    · rfl
    · rename_i e he
      rw [l.valid] at he
      cases he

theorem parse_ok {label : String} {l : KeyLabel} : parse label none = .ok l ↔ l.full = label := by
  unfold parse
  constructor
  · intro h
    cases hsplit : splitPurpose label with
    | none => simp [hsplit] at h
    | some split =>
      obtain ⟨handle, purpose⟩ := split
      rw [hsplit] at h
      obtain ⟨rfl, rfl⟩ := fromHandle_ok.mp h
      exact (eq_append_of_splitPurpose hsplit).symm
  · rintro rfl
    rw [full, splitPurpose_append]
    exact fromHandle_ok.mpr ⟨rfl, rfl⟩

lemma full_injective : Function.Injective full := by
  intro l l' h
  have hl := parse_ok.mpr h
  rw [parse_ok.mpr rfl] at hl
  cases hl
  rfl

end KeyLabel

end SignetDrive
