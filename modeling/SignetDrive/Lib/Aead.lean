import Mathlib.Tactic

/-!
# Authenticated ciphers

A cipher with associated data, as a pair of partial functions, and what it means that a
ciphertext was not forged: it opens only if one of the calls that were made produced it.
-/

namespace Aead

variable {κ ν α μ γ : Type}

/-- A cipher with keys `κ`, nonces `ν`, associated data `α`, messages `μ` and ciphertexts `γ`. -/
structure Cipher (κ ν α μ γ : Type) where
  encrypt : κ → ν → μ → α → Option γ
  decrypt : κ → ν → γ → α → Option μ
  decrypt_encrypt : ∀ key nonce message aad ciphertext,
    encrypt key nonce message aad = some ciphertext → decrypt key nonce ciphertext aad = some message

structure Call (ν α μ : Type) where
  nonce : ν
  aad : α
  message : μ

namespace Cipher

variable (c : Cipher κ ν α μ γ)

/-- The ciphertext opens under the nonce and the associated data only if one of the calls
made under the key produced it, with that nonce and that data. -/
def Unforged (key : κ) (made : Set (Call ν α μ)) (nonce : ν) (ciphertext : γ) (aad : α) : Prop :=
  ∀ message, c.decrypt key nonce ciphertext aad = some message →
    ∃ call ∈ made, call.nonce = nonce ∧ call.aad = aad ∧
      c.encrypt key nonce call.message aad = some ciphertext

variable {c}

lemma Unforged.mem {key : κ} {made : Set (Call ν α μ)} {nonce : ν} {ciphertext : γ} {aad : α} {message : μ}
    (h : c.Unforged key made nonce ciphertext aad) (hopen : c.decrypt key nonce ciphertext aad = some message) :
    ⟨nonce, aad, message⟩ ∈ made := by
  obtain ⟨call, hmade, rfl, rfl, hsealed⟩ := h message hopen
  have hmessage := c.decrypt_encrypt _ _ _ _ _ hsealed
  rw [hopen, Option.some.injEq] at hmessage
  rw [hmessage]
  exact hmade

end Cipher

/-- Where only the last of `n` elements carries a mark, the first `m`, of which only the last carries
it, are all `n`. -/
lemma count_eq_of_last {m n : ℕ} (hm : 0 < m) (h : ∀ i < m, i < n ∧ (i + 1 = m ↔ i + 1 = n)) : m = n := by
  obtain ⟨hlt, hlast⟩ := h (m - 1) (by omega)
  omega

end Aead
