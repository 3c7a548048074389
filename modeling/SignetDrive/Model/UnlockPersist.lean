import SignetDrive.Lib.Automaton
import SignetDrive.Model.Receipt

/-!
# The persisted unlock of a web session

`persistSession`, `restoreSession` and `purgePersisted` of `web/src/lib/persist.ts` over one store. Each
call stops at every `await`; an event starts a call, or says what the `await` of one call came to.
The calls are listed as they were started.
-/

namespace SignetDrive.Unlock

def RECORD_VERSION : ℚ := 1

def DEFAULT_PERSIST_HOURS : ℚ := 24

def MIN_PERSIST_HOURS : ℚ := 1

def MAX_PERSIST_HOURS : ℚ := 168

def SEAL_PURPOSE : String := "signet-unlock-v1"

section Types

variable (Key : Type)

structure Session where
  accountId : String
  kemPrivateKey : Key
  kemPubkeyX963 : String
  mlkemSeed : Bytes
  kemPqPubkeyEk : String
  wrappedKemPrivkeyBlob : Option Json

/-- A record of the right shape. The shape check leaves the sealed seed, its IV and the wrapped
key alone. -/
structure UnlockRecord where
  accountId : String
  kemPrivateKey : Key
  sealKey : Key
  mlkemSeedSealed : Option Bytes
  sealIv : Option Bytes
  kemPubkeyX963 : String
  kemPqPubkeyEk : String
  wrappedKemPrivkeyBlob : Option Json
  expiresAt : ℚ

/-- What the store holds, by the fields that are read. A field that is absent or of another type
is missing. -/
structure StoredValue where
  v : Option ℚ
  accountId : Option String
  kemPrivateKey : Option Key
  sealKey : Option Key
  mlkemSeedSealed : Option Bytes
  sealIv : Option Bytes
  kemPubkeyX963 : Option String
  kemPqPubkeyEk : Option String
  wrappedKemPrivkeyBlob : Option Json
  createdAt : Option ℚ
  expiresAt : Option ℚ

/-- The primitives behind the seal and the integrity gates; one that throws gives nothing. -/
structure UnlockCrypto where
  /-- AES-GCM of a key, an IV, additional data and a plaintext. -/
  encrypt : Key → Bytes → Bytes → Bytes → Bytes
  decrypt : Key → Option Bytes → Bytes → Option Bytes → Option Bytes
  b64uDecode : String → Option Bytes
  kemKeypairMatches : Key → Bytes → Option Bool
  mlkemEkFromSeed : Bytes → Option Bytes

structure MeResponse where
  account_id : String
  kem_pubkey : Option String
  kem_pq_pubkey : Option String

/-- A call, by the `await` it is at or its result. -/
inductive Call where
  | fetchingConfig (session : Session Key)
  | sealing (session : Session Key) (hours : ℚ)
  | putting (value : StoredValue Key)
  | persisted
  | getting
  | askingMe (record : UnlockRecord Key)
  | unsealing (record : UnlockRecord Key)
  | matching (record : UnlockRecord Key) (seed : Bytes)
  | derivingEk (record : UnlockRecord Key) (seed : Bytes)
  /-- The purge inside a restore, which then returns nothing. -/
  | givingUp
  | restored (result : Option (Session Key))
  /-- A `purgePersisted`, started by a lock or a sign-out or by another caller. -/
  | deleting (final : Bool)
  | purged (final : Bool)

structure State where
  store : Option (StoredValue Key)
  calls : List (Call Key)

inductive Event where
  /-- `persistSession`, right after a gesture. -/
  | persist (session : Session Key)
  | restore
  | purge (final : Bool)
  /-- The hours of the public config, if it is fetched and has them as a number. -/
  | configAnswered (call : ℕ) (hours : Option ℚ)
  /-- The key and the IV drawn, unless sealing failed, and the clock afterwards. -/
  | seedSealed (call : ℕ) (drawn : Option (Key × Bytes)) (now : ℚ)
  | putDone (call : ℕ) (ok : Bool)
  | got (call : ℕ) (ok : Bool) (now : ℚ)
  /-- The answer, or the status of an error of the API, or another error. -/
  | meAnswered (call : ℕ) (answer : Except (Option ℕ) MeResponse)
  | unsealed (call : ℕ)
  | matched (call : ℕ)
  | derived (call : ℕ)
  | deleted (call : ℕ) (ok : Bool)

end Types

variable {Key : Type} (p : UnlockCrypto Key)

def persistHours (hours : Option ℚ) : ℚ :=
  match hours with
  | some hours => min MAX_PERSIST_HOURS (max MIN_PERSIST_HOURS hours)
  | none => DEFAULT_PERSIST_HOURS

def sealAad (accountId : String) : Bytes := utf8 (accountId ++ SEAL_PURPOSE)

def unlockValue (session : Session Key) (hours : ℚ) (sealKey : Key) (sealIv : Bytes) (now : ℚ) :
    StoredValue Key where
  v := some RECORD_VERSION
  accountId := some session.accountId
  kemPrivateKey := some session.kemPrivateKey
  sealKey := some sealKey
  sealIv := some sealIv
  mlkemSeedSealed := some (p.encrypt sealKey sealIv (sealAad session.accountId) session.mlkemSeed)
  kemPubkeyX963 := some session.kemPubkeyX963
  kemPqPubkeyEk := some session.kemPqPubkeyEk
  wrappedKemPrivkeyBlob := session.wrappedKemPrivkeyBlob
  createdAt := some now
  expiresAt := some (now + hours * 3600000)

/-- A seal that fails ends the persist with a warning. -/
def afterSeal (session : Session Key) (hours : ℚ) (drawn : Option (Key × Bytes)) (now : ℚ) : Call Key :=
  match drawn with
  | some (sealKey, sealIv) => .putting (unlockValue p session hours sealKey sealIv now)
  | none => .persisted

def isRecordShaped (value : StoredValue Key) : Option (UnlockRecord Key) := do
  let accountId ← value.accountId
  let kemPubkeyX963 ← value.kemPubkeyX963
  let kemPqPubkeyEk ← value.kemPqPubkeyEk
  let expiresAt ← value.expiresAt
  let kemPrivateKey ← value.kemPrivateKey
  let sealKey ← value.sealKey
  if value.v = some RECORD_VERSION then
    some {
      accountId, kemPrivateKey, sealKey, kemPubkeyX963, kemPqPubkeyEk, expiresAt
      mlkemSeedSealed := value.mlkemSeedSealed
      sealIv := value.sealIv
      wrappedKemPrivkeyBlob := value.wrappedKemPrivkeyBlob }
  else none

def afterGet (stored : Option (StoredValue Key)) (now : ℚ) : Call Key :=
  match stored with
  | none => .restored none
  | some value =>
    match isRecordShaped value with
    | none => .givingUp
    | some record => if now ≥ record.expiresAt then .givingUp else .askingMe record

def truthyText (s : Option String) : Bool := s.any (· ≠ "")

def continuity (me : MeResponse) (record : UnlockRecord Key) : Bool :=
  me.account_id = record.accountId &&
    (truthyText me.kem_pubkey && me.kem_pubkey = some record.kemPubkeyX963) &&
    (truthyText me.kem_pq_pubkey && me.kem_pq_pubkey = some record.kemPqPubkeyEk)

variable (record : UnlockRecord Key)

def afterMe (answer : Except (Option ℕ) MeResponse) : Call Key :=
  match answer with
  | .error status => if status = some 401 ∨ status = some 403 then .givingUp else .restored none
  | .ok me => if continuity me record then .unsealing record else .givingUp

def unsealSeed : Option Bytes :=
  p.decrypt record.sealKey record.sealIv (sealAad record.accountId) record.mlkemSeedSealed

def keypairGate : Bool :=
  ((p.b64uDecode record.kemPubkeyX963).bind (p.kemKeypairMatches record.kemPrivateKey)) = some true

def ekGate (seed : Bytes) : Bool :=
  match p.mlkemEkFromSeed seed, p.b64uDecode record.kemPqPubkeyEk with
  | some ek, some registered => hexEncode ek = hexEncode registered
  | _, _ => false

def restoredSession (seed : Bytes) : Session Key where
  accountId := record.accountId
  kemPrivateKey := record.kemPrivateKey
  kemPubkeyX963 := record.kemPubkeyX963
  mlkemSeed := seed
  kemPqPubkeyEk := record.kemPqPubkeyEk
  wrappedKemPrivkeyBlob := record.wrappedKemPrivkeyBlob

/-- The call after its `await`, on an event that concerns no store. An exception inside the gates
purges, as a gate that fails does. -/
def Call.resume : Call Key → Event Key → Option (Call Key)
  | .fetchingConfig session, .configAnswered _ hours => some (.sealing session (persistHours hours))
  | .sealing session hours, .seedSealed _ drawn now => some (afterSeal p session hours drawn now)
  | .askingMe record, .meAnswered _ answer => some (afterMe record answer)
  | .unsealing record, .unsealed _ =>
    match unsealSeed p record with
    | some seed => some (.matching record seed)
    | none => some .givingUp
  | .matching record seed, .matched _ =>
    some (if keypairGate p record then .derivingEk record seed else .givingUp)
  | .derivingEk record seed, .derived _ =>
    some (if ekGate p record seed then .restored (some (restoredSession record seed)) else .givingUp)
  | _, _ => none

namespace State

def start (s : State Key) (call : Call Key) : State Key := { s with calls := s.calls ++ [call] }

def move (s : State Key) (i : ℕ) (call : Call Key) : State Key := { s with calls := s.calls.set i call }

def resume (s : State Key) (i : ℕ) (e : Event Key) : Option (State Key) := do
  let call ← s.calls[i]?
  let next ← call.resume p e
  return s.move i next

end State

def step (s : State Key) (e : Event Key) : Option (State Key) :=
  match e with
  | .persist session => some (s.start (.fetchingConfig session))
  | .restore => some (s.start .getting)
  | .purge final => some (s.start (.deleting final))
  | .putDone i ok =>
    match s.calls[i]? with
    | some (.putting value) =>
      some { s.move i .persisted with store := if ok then some value else s.store }
    | _ => none
  | .got i ok now =>
    match s.calls[i]? with
    | some .getting => some (s.move i (if ok then afterGet s.store now else .restored none))
    | _ => none
  | .deleted i ok =>
    match s.calls[i]? with
    | some (.deleting final) =>
      some { s.move i (.purged final) with store := if ok then none else s.store }
    | some .givingUp => some { s.move i (.restored none) with store := if ok then none else s.store }
    | _ => none
  | .configAnswered i _ | .seedSealed i _ _ | .meAnswered i _ | .unsealed i | .matched i | .derived i =>
    s.resume p i e

end SignetDrive.Unlock
