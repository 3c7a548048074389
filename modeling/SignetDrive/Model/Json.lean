import SignetDrive.Model.RustStd

/-!
# JSON values

`serde_json::Value`, with the accessors that the program uses, and the key check of
`crypto/src/jcs.rs`. `serde_json` keeps the members of an object sorted and without duplicates.
-/

namespace SignetDrive

inductive Number where
  | posInt (n : U64)
  /-- A negative `i64`, by its magnitude. -/
  | negInt (magnitude : {n : ℕ // 0 < n ∧ n ≤ 2 ^ 63})
  /-- An `f64`, by its bits. -/
  | float (bits : U64)

inductive Json where
  | null
  | bool (b : Bool)
  | number (n : Number)
  | string (s : String)
  | array (items : List Json)
  | object (members : List (String × Json))

namespace Json

variable (self : Json) (key : String)

def get : Option Json :=
  match self with
  | object members => members.lookup key
  | _ => none

def asStr : Json → Option String
  | string s => some s
  | _ => none

def asArray : Json → Option (List Json)
  | array items => some items
  | _ => none

def asU64 : Json → Option U64
  | number (.posInt n) => some n
  | _ => none

def asI64 : Json → Option I64
  | number (.posInt n) => if h : n.val < 2 ^ 63 then some ⟨n.val, by omega⟩ else none
  | number (.negInt n) => some ⟨-n.1, by omega⟩
  | _ => none

def asBool : Json → Option Bool
  | bool b => some b
  | _ => none

def asObject : Json → Option (List (String × Json))
  | object members => some members
  | _ => none

def isNull : Json → Bool
  | null => true
  | _ => false

def getStr : Option String := (self.get key).bind asStr

def getI64 : Option I64 := (self.get key).bind asI64

def getU64 : Option U64 := (self.get key).bind asU64

def remove : Json :=
  match self with
  | object members => object (members.filter fun m => m.1 ≠ key)
  | other => other

lemma lookup_filter_ne (members : List (String × Json)) (key k : String) :
    (members.filter fun m => m.1 ≠ key).lookup k = if k = key then none else members.lookup k := by
  induction members with
  | nil => simp
  | cons m members ih =>
    by_cases hm : m.1 = key
    · rw [List.filter_cons_of_neg (by simp [hm]), ih]
      by_cases hk : k = key
      · rw [if_pos hk, if_pos hk]
      · have hne : (k == m.1) = false := by simp [hm, hk]
        rw [if_neg hk, if_neg hk, List.lookup_cons, hne]
    · rw [List.filter_cons_of_pos (by simp [hm]), List.lookup_cons, List.lookup_cons]
      by_cases hk : k = m.1
      · simp [hk, hm]
      · have hne : (k == m.1) = false := by simp [hk]
        rw [hne, ih]

lemma get_remove_of_ne {key other : String} (hne : key ≠ other) (self : Json) :
    (self.remove other).get key = self.get key := by
  cases self with
  | object members => exact (lookup_filter_ne members other key).trans (if_neg hne)
  | _ => rfl

def insert (value : Json) : Json :=
  object ((self.asObject.getD []).filter (fun m => m.1 ≠ key) ++ [(key, value)])

def isObject : Json → Bool
  | object _ => true
  | _ => false

/-- Plain ASCII, no control characters, no quote and no backslash. -/
def keyInDomain : Bool :=
  key.toUTF8.data.toList.all fun b => 0x20 ≤ b.toNat && b.toNat ≤ 0x7e && b != 34 && b != 92

mutual

def checkKeys : Json → Bool
  | array items => checkItems items
  | object members => checkMembers members
  | _ => true

def checkItems : List Json → Bool
  | [] => true
  | item :: items => checkKeys item && checkItems items

def checkMembers : List (String × Json) → Bool
  | [] => true
  | (key, value) :: members => keyInDomain key && checkKeys value && checkMembers members

end

end Json

end SignetDrive
