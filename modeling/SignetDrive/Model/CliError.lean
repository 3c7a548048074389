import Mathlib.Tactic

/-!
# CLI errors

The constructors of `cli/src/error.rs` that the modelled commands use, with their exit codes
and machine codes.
-/

namespace SignetDrive

structure CliError where
  exitCode : ℕ
  code : String
  message : String
  epochMoved : Bool
  deriving DecidableEq

namespace CliError

def new (exitCode : ℕ) (code message : String) : CliError := ⟨exitCode, code, message, false⟩

variable (message : String)

def generic : CliError := new 1 "error" message
def invalidArgs : CliError := new 2 "invalid_arguments" message
def keyExists : CliError := new 11 "key_already_exists" message
def keyNotFound : CliError := new 12 "key_not_found" message
def signatureInvalid : CliError := new 13 "signature_invalid" message
def attestationExpired : CliError := new 14 "attestation_expired" message
def attestationRevoked : CliError := new 15 "attestation_revoked" message
def authorizationDenied : CliError := new 17 "authorization_denied" message
def filesystem : CliError := new 21 "filesystem_error" message
def inputRead : CliError := new 22 "input_error" message
def outputWrite : CliError := new 23 "output_error" message
def invalidData : CliError := new 24 "invalid_data" message
def network : CliError := new 31 "network_error" message
def transferStalled : CliError := new 32 "transfer_stalled" message
def encryptionFailed : CliError := new 40 "encryption_failed" message
def unsupportedAlgorithm : CliError := new 41 "unsupported_algorithm" message
def decryptFailed : CliError := new 42 "decrypt_failed" message
def transparencyViolation : CliError := new 60 "transparency_violation" message
def unanchored (message : String) : CliError := new 62 "unanchored" message

def asEpochMove (self : CliError) : CliError := { self with epochMoved := true }

end CliError

end SignetDrive
