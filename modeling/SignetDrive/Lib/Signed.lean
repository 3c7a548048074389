import Mathlib.Tactic

/-!
# Signed values

A signature is made over the encoding of a value. Where encodings are read back and no signature
is forged, a value whose encoding verifies was itself signed.
-/

namespace Signed

variable {α β κ π μ σ : Type}

/-- An encoding of values; what is encoded is read back. -/
structure Codec (β α : Type) where
  encode : α → Option β
  decode : β → Option α
  decode_encode : ∀ a b, encode a = some b → decode b = some a

namespace Codec

lemma encode_inj (c : Codec β α) {a a' : α} {b : β} (ha : c.encode a = some b)
    (ha' : c.encode a' = some b) : a = a' :=
  Option.some_inj.mp ((c.decode_encode a b ha).symm.trans (c.decode_encode a' b ha'))

/-- The values of a list, each by its place, written in unary. -/
def ofList [BEq α] [LawfulBEq α] (digit : β) (values : List α) : Codec (List β) α where
  encode a := if values.contains a then some (List.replicate (values.idxOf a) digit) else none
  decode b := values[b.length]?
  decode_encode := by
    intro a b h
    split_ifs at h with hmem
    rw [← Option.some_inj.mp h, List.length_replicate]
    exact List.getElem?_idxOf (List.contains_iff_mem.mp hmem)

end Codec

/-- A scheme with secret keys `κ`, public keys `π`, messages `μ` and signatures `σ`. -/
structure Scheme (κ π μ σ : Type) where
  /-- Nothing, if the secret key is not a valid one. -/
  publicKey : κ → Option π
  sign : κ → μ → Option σ
  verify : π → μ → σ → Bool
  verify_sign : ∀ secret key message signature,
    publicKey secret = some key → sign secret message = some signature → verify key message signature = true

namespace Scheme

variable (s : Scheme κ π μ σ)

/-- Under the key only messages of the set verify. -/
def Unforged (key : π) (signed : Set μ) : Prop :=
  ∀ message signature, s.verify key message signature = true → message ∈ signed

variable {s}

lemma Unforged.value {key : π} {values : Set α} {c : Codec μ α} {a : α} {message : μ} {signature : σ}
    (h : s.Unforged key {m | ∃ v ∈ values, c.encode v = some m}) (hencode : c.encode a = some message)
    (hverify : s.verify key message signature = true) : a ∈ values := by
  obtain ⟨v, hv, hsigned⟩ := h message signature hverify
  rw [c.encode_inj hencode hsigned]
  exact hv

end Scheme

end Signed
