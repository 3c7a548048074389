import SignetDrive.Lib.Delimited
import SignetDrive.Model.Envelope
import SignetDrive.Model.WebRecipient

/-!
# The two canonicalisers

`crypto/src/jcs.rs` over `serde_jcs`, and its port `web/src/lib/crypto/jcs.ts` over
`JSON.stringify`. Of `serde_jcs` the model has what `jcs.rs` says of it. Floating-point numbers are
left to parameters.
-/

namespace SignetDrive.Jcs

open Delimited

abbrev Text := List Char

def escape (c : Char) : Text :=
  if c = '"' then ['\\', '"']
  else if c = '\\' then ['\\', '\\']
  else if c = '\x08' then ['\\', 'b']
  else if c = '\t' then ['\\', 't']
  else if c = '\n' then ['\\', 'n']
  else if c = '\x0c' then ['\\', 'f']
  else if c = '\r' then ['\\', 'r']
  else if c.toNat < 0x20 then ['\\', 'u', '0', '0', hexDigit (c.toNat / 16), hexDigit (c.toNat % 16)]
  else [c]

def stringify (s : String) : Text := '"' :: (s.toList.flatMap escape ++ ['"'])

def integerText (n : ℤ) : Text :=
  if n < 0 then '-' :: Nat.toDigits 10 n.natAbs else Nat.toDigits 10 n.natAbs

def encode (text : Text) : Bytes := (String.ofList text).toUTF8.data.toList

/-- `charCodeAt` of each position of a string. -/
def charCodes (s : String) : List ℕ :=
  s.toList.flatMap fun c =>
    if c.toNat < 0x10000 then [c.toNat]
    else [0xd800 + (c.toNat - 0x10000) / 0x400, 0xdc00 + (c.toNat - 0x10000) % 0x400]

/-- What is done with an `f64`, given by its bits. -/
structure Floats where
  /-- The text that `ryu_js` gives it. -/
  ryuJs : U64 → Text
  /-- The integer it is, when `Number.isSafeInteger` accepts it. -/
  safeInteger : U64 → Option ℤ

variable (p : Floats)

def numberText : Number → Text
  | .posInt n => integerText n.val
  | .negInt n => integerText (-n.1)
  | .float bits => p.ryuJs bits

def memberText (key : String) (value : Text) : Text := stringify key ++ ':' :: value

mutual

def write : Json → Text
  | .null => "null".toList
  | .bool b => (if b then "true" else "false").toList
  | .number n => numberText p n
  | .string s => stringify s
  | .array items => '[' :: (join ',' (writeItems items) ++ [']'])
  | .object members => '\x7b' :: (join ',' (writeMembers members) ++ ['\x7d'])

def writeItems : List Json → List Text
  | [] => []
  | item :: items => write item :: writeItems items

def writeMembers : List (String × Json) → List Text
  | [] => []
  | (key, value) :: members => memberText key (write value) :: writeMembers members

end

def byKey {α : Type} (order : String → List ℕ) (a b : String × α) : Prop := order a.1 ≤ order b.1

instance {α : Type} (order : String → List ℕ) : DecidableRel (@byKey α order) :=
  fun a b => inferInstanceAs (Decidable (order a.1 ≤ order b.1))

mutual

def arrange (order : String → List ℕ) : Json → Json
  | .array items => .array (arrangeItems order items)
  | .object members => .object ((arrangeMembers order members).insertionSort (byKey order))
  | leaf => leaf

def arrangeItems (order : String → List ℕ) : List Json → List Json
  | [] => []
  | item :: items => arrange order item :: arrangeItems order items

def arrangeMembers (order : String → List ℕ) : List (String × Json) → List (String × Json)
  | [] => []
  | (key, value) :: members => (key, arrange order value) :: arrangeMembers order members

end

def serialisedKey (key : String) : List ℕ := (encode (stringify key)).map UInt8.toNat

def serdeJcsToVec (value : Json) : Bytes := encode (write p (arrange serialisedKey value))

def toCanonicalBytes (value : Json) : Except CryptoError Bytes :=
  if value.checkKeys then .ok (serdeJcsToVec p value)
  else .error (.invalidInput
    "jcs: object key outside the enforced domain (plain ASCII, no control chars, no quote/backslash)")

def webKeyInDomain (s : String) : Bool :=
  (charCodes s).all fun c => !(c < 0x20 || c > 0x7e || c == 0x22 || c == 0x5c)

def safeInteger : Number → Option ℤ
  | .posInt n => if n.val ≤ 2 ^ 53 - 1 then some n.val else none
  | .negInt n => if n.1 ≤ 2 ^ 53 - 1 then some (-n.1) else none
  | .float bits => p.safeInteger bits

mutual

/-- `serialize` of the web port. The text of each member is worked out beside its key; the first error
is that of the sorted keys. -/
def webSerialize : Json → Except WebError Text
  | .null => .ok "null".toList
  | .bool b => .ok (if b then "true" else "false").toList
  | .string s => .ok (stringify s)
  | .number n =>
    match safeInteger p n with
    | none => .error (.invalidInput "jcs: non-integer or unsafe-range number outside the SigDrive domain")
    | some value => .ok (integerText value)
  | .array items => do
    let texts ← webSerializeItems items
    return '[' :: (join ',' texts ++ [']'])
  | .object members =>
    if members.all fun m => webKeyInDomain m.1 then do
      let sorted := (webSerializeMembers members).insertionSort (byKey charCodes)
      let texts ← sorted.mapM fun m => memberText m.1 <$> m.2
      return '\x7b' :: (join ',' texts ++ ['\x7d'])
    else .error (.invalidInput
      "jcs: object key outside the enforced domain (plain ASCII, no control chars, no quote/backslash)")

def webSerializeItems : List Json → Except WebError (List Text)
  | [] => .ok []
  | item :: items => do
    let text ← webSerialize item
    let texts ← webSerializeItems items
    return text :: texts

def webSerializeMembers : List (String × Json) → List (String × Except WebError Text)
  | [] => []
  | (key, value) :: members => (key, webSerialize value) :: webSerializeMembers members

end

def webToCanonicalBytes (value : Json) : Except WebError Bytes := encode <$> webSerialize p value

end SignetDrive.Jcs
