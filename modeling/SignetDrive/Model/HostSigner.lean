import SignetDrive.Model.HybridWrap
import SignetDrive.Model.Keystore

/-!
# The host signer

`cli/src/host_signer.rs`, on the operations of `channel/src/wire.rs`: `handleOp` serves one operation,
`ChannelState.handle` binds a channel to its handle, `HostSigner.serve` is one request of the
daemon's loop.
-/

namespace SignetDrive

inductive Op where
  | keygen (label algorithm : String)
  | sign (label : String) (msg : Bytes)
  | ecdh (label : String) (peerPubX963 : Bytes)
  | mlKemDecapsulate (label : String) (ek : Bytes)
  | mlDsaSign (label : String) (msg ctx : Bytes)
  | keyMeta (label : String)
  | exists (label : String)
  | list
  | identity
  | delete (label : String)
  deriving DecidableEq

structure KeyEntry where
  label : String
  purpose : String
  algorithm : String
  fingerprint : String
  publicKey : Bytes
  deriving DecidableEq

inductive OpOk where
  | keygen (publicKey : Bytes) (fingerprint algorithm : String)
  | sign (signature : Bytes)
  | ecdh (sharedSecret : Bytes)
  | mlKemDecapsulate (sharedSecret : Bytes)
  | mlDsaSign (signature : Bytes)
  | keyMeta (publicKey : Bytes) (fingerprint algorithm purpose : String)
  | exists (exists_ : Bool)
  | list (keys : List KeyEntry)
  | identity (handle : Option String)
  | delete
  deriving DecidableEq

structure OpErr where
  code : String
  message : String
  deriving DecidableEq

inductive Response where
  | ok (ok : OpOk)
  | err (err : OpErr)
  deriving DecidableEq

def Response.isOk : Response → Bool
  | .ok _ => true
  | .err _ => false

def scopedLabel (label prsnHandle : String) : Except CliError KeyLabel := do
  let parsed ← KeyLabel.parse label none
  if parsed.handle ≠ prsnHandle then
    throw (.authorizationDenied
      s!"label '{label}' does not belong to this channel's PRSN ('{prsnHandle}')")
  return parsed

def listedFor (prsnHandle : String) (m : KeyMeta) : Bool :=
  match KeyLabel.parse m.label none with
  | .ok l => l.handle = prsnHandle
  | .error _ => false

def KeyMeta.toEntry (m : KeyMeta) : KeyEntry :=
  ⟨m.label, m.purpose, m.algorithm, m.fingerprint, m.publicKey⟩

section

variable {Key Rand : Type} (b : Backend Key Rand)

def dispatch (ks : Keystore Key) (prsnHandle : String) (op : Op) (rand : Rand) :
    Except CliError OpOk × Keystore Key :=
  match op with
  | .keygen label algorithm =>
    match scopedLabel label prsnHandle with
    | .error e => (.error e, ks)
    | .ok label =>
      let (m, ks) := ks.generate b label algorithm rand
      (m.map fun m => .keygen m.publicKey m.fingerprint m.algorithm, ks)
  | .sign label msg =>
    (do
      let label ← scopedLabel label prsnHandle
      let signature ← b.sign label (ks.get label) msg rand
      return .sign signature.toList, ks)
  | .ecdh label peerPubX963 =>
    (do
      let label ← scopedLabel label prsnHandle
      let sharedSecret ← b.ecdh label (ks.get label) peerPubX963
      return .ecdh sharedSecret.toList, ks)
  | .mlKemDecapsulate label ek =>
    (do
      let label ← scopedLabel label prsnHandle
      if ek.length ≠ MLKEM1024_CT_LEN then
        throw (.invalidArgs
          s!"ml-kem ciphertext must be {MLKEM1024_CT_LEN} bytes, got {ek.length}")
      let sharedSecret ← b.mlKemDecapsulate label (ks.get label) ek
      return .mlKemDecapsulate sharedSecret.toList, ks)
  | .mlDsaSign label msg ctx =>
    (do
      let label ← scopedLabel label prsnHandle
      validateMldsaCtx ctx
      let signature ← b.mlDsaSign label (ks.get label) msg ctx rand
      return .mlDsaSign signature, ks)
  | .keyMeta label =>
    (do
      let label ← scopedLabel label prsnHandle
      let m ← b.keyMeta label (ks.get label)
      return .keyMeta m.publicKey m.fingerprint m.algorithm m.purpose, ks)
  | .exists label =>
    (do
      let label ← scopedLabel label prsnHandle
      return .exists (ks.contains label), ks)
  | .list => (.ok (.list (((ks.list b).filter (listedFor prsnHandle)).map KeyMeta.toEntry)), ks)
  | .identity => (.ok (.identity (some prsnHandle)), ks)
  | .delete label =>
    match scopedLabel label prsnHandle with
    | .error e => (.error e, ks)
    | .ok label =>
      let (done, ks) := ks.delete b label
      (done.map fun _ => .delete, ks)

def Response.ofResult : Except CliError OpOk → Response
  | .ok result => .ok result
  | .error e => .err ⟨e.code, e.message⟩

def handleOp (ks : Keystore Key) (prsnHandle : String) (op : Op) (rand : Rand) :
    Response × Keystore Key :=
  let (result, ks) := dispatch b ks prsnHandle op rand
  (.ofResult result, ks)

end

structure ChannelState where
  pinnedHandle : Option String
  deriving DecidableEq

section

variable {Key Rand : Type} (b : Backend Key Rand)

def ChannelState.handle (self : ChannelState) (ks : Keystore Key) (op : Op) (rand : Rand) :
    Response × ChannelState × Keystore Key :=
  if op = .identity then (.ok (.identity self.pinnedHandle), self, ks)
  else
    match self.pinnedHandle with
    | some handle =>
      let (response, ks) := handleOp b ks handle op rand
      (response, self, ks)
    | none =>
      match op with
      | .keygen label algorithm =>
        match KeyLabel.parse label none with
        | .error e => (.err ⟨e.code, e.message⟩, self, ks)
        | .ok l =>
          let (response, ks) := handleOp b ks l.handle (.keygen label algorithm) rand
          -- a pin that cannot be written to its file is held all the same
          (response, if response.isOk then ⟨some l.handle⟩ else self, ks)
      | _ =>
        (.err ⟨"authorization_denied",
          "this channel has no enrolled PRSN yet (run `signet enroll` first)"⟩, self, ks)

/-- The daemon: the state of every channel it serves, over one keystore. -/
structure HostSigner (Key Channel : Type) where
  keystore : Keystore Key
  channels : Channel → ChannelState

variable {Channel : Type} [DecidableEq Channel]

structure ChannelRequest (Channel Rand : Type) where
  channel : Channel
  op : Op
  rand : Rand

def HostSigner.serve (self : HostSigner Key Channel) (r : ChannelRequest Channel Rand) :
    HostSigner Key Channel × Response :=
  let (response, state, ks) := (self.channels r.channel).handle b self.keystore r.op r.rand
  (⟨ks, Function.update self.channels r.channel state⟩, response)

def HostSigner.fresh : HostSigner Key Channel := ⟨.empty, fun _ => ⟨none⟩⟩

end

end SignetDrive
