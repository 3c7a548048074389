import SignetDrive.Model.KeyLabel
import SignetDrive.Model.RustStd

/-!
# The keystore

`cli/src/keystore/mod.rs`: the `Keystore` trait over a map from labels to keys. Each operation
of a backend works on the entry under one label; what it draws at random is an input.
-/

namespace SignetDrive

structure KeyMeta where
  label : String
  purpose : String
  algorithm : String
  storage : String
  fingerprint : String
  publicKey : Bytes
  deriving DecidableEq

/-- A custody backend: what its operations make of the entry under the given label. -/
structure Backend (Key Rand : Type) where
  generate : KeyLabel → String → Rand → Option Key → Except CliError KeyMeta × Option Key
  keyMeta : KeyLabel → Option Key → Except CliError KeyMeta
  sign : KeyLabel → Option Key → Bytes → Rand → Except CliError (List.Vector UInt8 64)
  ecdh : KeyLabel → Option Key → Bytes → Except CliError (List.Vector UInt8 32)
  mlKemDecapsulate : KeyLabel → Option Key → Bytes → Except CliError (List.Vector UInt8 32)
  mlDsaSign : KeyLabel → Option Key → Bytes → Bytes → Rand → Except CliError Bytes
  delete : KeyLabel → Option Key → Except CliError Unit × Option Key
  /-- How `list` shows an entry: under its label. -/
  listed : KeyLabel → Key → KeyMeta
  listed_label : ∀ l k, (listed l k).label = l.full

instance : LinearOrder KeyLabel := LinearOrder.lift' KeyLabel.full KeyLabel.full_injective

structure Keystore (Key : Type) where
  get : KeyLabel → Option Key
  labels : Finset KeyLabel
  mem_labels : ∀ l, l ∈ labels ↔ (get l).isSome

namespace Keystore

variable {Key Rand : Type}

def empty : Keystore Key := ⟨fun _ => none, ∅, by simp⟩

variable (self : Keystore Key)

def set (l : KeyLabel) (entry : Option Key) : Keystore Key where
  get := Function.update self.get l entry
  labels := if entry.isSome then insert l self.labels else self.labels.erase l
  mem_labels := by
    intro l'
    by_cases hl : l' = l
    · subst hl
      cases entry <;> simp
    · cases entry <;> simp [hl, self.mem_labels]

lemma get_set_self (l : KeyLabel) (entry : Option Key) : (self.set l entry).get l = entry :=
  Function.update_self ..

lemma get_set_ne {l l' : KeyLabel} (entry : Option Key) (h : l' ≠ l) :
    (self.set l entry).get l' = self.get l' :=
  Function.update_of_ne h ..

def generate (self : Keystore Key) (b : Backend Key Rand) (l : KeyLabel) (algorithm : String)
    (rand : Rand) : Except CliError KeyMeta × Keystore Key :=
  let result := b.generate l algorithm rand (self.get l)
  (result.1, self.set l result.2)

def delete (self : Keystore Key) (b : Backend Key Rand) (l : KeyLabel) :
    Except CliError Unit × Keystore Key :=
  let result := b.delete l (self.get l)
  (result.1, self.set l result.2)

def contains (l : KeyLabel) : Bool := (self.get l).isSome

def list (b : Backend Key Rand) : List KeyMeta :=
  (self.labels.sort (· ≤ ·)).filterMap fun l => (self.get l).map (b.listed l)

end Keystore

def validateMldsaCtx (ctx : Bytes) : Except CliError Unit :=
  if ctx.length > 255 then
    .error (.invalidArgs s!"ML-DSA context must be at most 255 bytes (FIPS 204), got {ctx.length}")
  else .ok ()

end SignetDrive
