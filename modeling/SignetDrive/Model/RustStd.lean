import Mathlib.Tactic

/-!
# Bytes, machine integers and the monotonic clock

The parts of the Rust standard library that the program uses.
-/

namespace SignetDrive

abbrev Bytes := List UInt8

/-- A 32-byte array: an entry hash, a tree node, a digest. -/
abbrev Hash := List.Vector UInt8 32

/-- A hash as a number writes it, most significant byte first. -/
def hashOfNat (n : ℕ) : Hash := List.Vector.ofFn fun i => UInt8.ofNat (n / 256 ^ (31 - i.val))

/-- `to_be_bytes` of an integer of the width, in bytes; a larger number wraps. -/
def toBeBytes (width n : ℕ) : Bytes :=
  (List.range width).map fun i => UInt8.ofNat (n / 256 ^ (width - 1 - i))

lemma toBeBytes_succ (width n : ℕ) :
    toBeBytes (width + 1) n = UInt8.ofNat (n / 256 ^ width) :: toBeBytes width n := by
  rw [toBeBytes, toBeBytes, List.range_succ_eq_map, List.map_cons, List.map_map]
  congr 1
  apply List.map_congr_left
  intro i hi
  have hi := List.mem_range.mp hi
  simp only [Function.comp_apply]
  congr 3
  omega

lemma length_toBeBytes (width n : ℕ) : (toBeBytes width n).length = width := by
  simp [toBeBytes]

lemma toBeBytes_inj {width m n : ℕ} (h : toBeBytes width m = toBeBytes width n) :
    m % 256 ^ width = n % 256 ^ width := by
  induction width with
  | zero => rw [pow_zero, Nat.mod_one, Nat.mod_one]
  | succ width ih =>
    rw [toBeBytes_succ, toBeBytes_succ] at h
    obtain ⟨hhead, htail⟩ := List.cons.inj h
    have hdigit := congrArg UInt8.toNat hhead
    simp only [UInt8.toNat_ofNat'] at hdigit
    rw [Nat.mod_pow_succ, Nat.mod_pow_succ, ih htail]
    congr 2

def fromBeBytes (bytes : Bytes) : ℕ := bytes.foldl (fun n b => n * 256 + b.toNat) 0

abbrev I64 := {x : ℤ // -2 ^ 63 ≤ x ∧ x < 2 ^ 63}

abbrev I32 := {x : ℤ // -2 ^ 31 ≤ x ∧ x < 2 ^ 31}

abbrev U32 := Fin (2 ^ 32)

abbrev U64 := Fin (2 ^ 64)

instance neZeroU32 : NeZero (2 ^ 32) := ⟨by norm_num⟩

instance neZeroU64 : NeZero (2 ^ 64) := ⟨by norm_num⟩

/-- A literal; the greatest value stands for one that is too large. -/
instance literalI64 (n : ℕ) : OfNat I64 n := ⟨⟨min n (2 ^ 63 - 1), by omega⟩⟩

instance literalI32 (n : ℕ) : OfNat I32 n := ⟨⟨min n (2 ^ 31 - 1), by omega⟩⟩

namespace I64

def MIN : I64 := ⟨-2 ^ 63, by norm_num⟩

def MAX : I64 := ⟨2 ^ 63 - 1, by norm_num⟩

def saturatingAdd (a b : I64) : I64 :=
  ⟨max (-2 ^ 63) (min (a.1 + b.1) (2 ^ 63 - 1)), by omega⟩

def saturatingSub (a b : I64) : I64 :=
  ⟨max (-2 ^ 63) (min (a.1 - b.1) (2 ^ 63 - 1)), by omega⟩

/-- `as u64`, which wraps. -/
def asU64 (x : I64) : U64 := ⟨(x.1 % 2 ^ 64).toNat, by omega⟩

/-- `as u32`, which keeps the low half. -/
def asU32 (x : I64) : U32 := ⟨(x.1 % 2 ^ 32).toNat, by omega⟩

def max0 (x : I64) : I64 := ⟨max x.1 0, by omega⟩

end I64

/-- `as i64`, which wraps. -/
def U64.asI64 (n : U64) : I64 :=
  ⟨if n.val < 2 ^ 63 then (n.val : ℤ) else (n.val : ℤ) - 2 ^ 64, by split <;> omega⟩

/-- `as i32`, which keeps the low half and reads it as a signed number. -/
def U64.asI32 (n : U64) : I32 :=
  ⟨if n.val % 2 ^ 32 < 2 ^ 31 then ((n.val % 2 ^ 32 : ℕ) : ℤ) else ((n.val % 2 ^ 32 : ℕ) : ℤ) - 2 ^ 32, by
    split <;> omega⟩

/-- `as u32`, of an `i32`. -/
def I32.asU32 (x : I32) : U32 := ⟨(x.1 % 2 ^ 32).toNat, by omega⟩

def U64.clamp (n lo hi : U64) : U64 := if n < lo then lo else if hi < n then hi else n

/-- The build profile: `dev` panics where an operation overflows, `release` wraps. -/
inductive Profile where
  | dev
  | release
  deriving DecidableEq

namespace Profile

/-- The value of a `u64` sum or product whose exact value is given; `none` is a panic. -/
def u64 (profile : Profile) (exact : ℕ) : Option U64 :=
  if h : exact < 2 ^ 64 then some ⟨exact, h⟩
  else match profile with
    | .dev => none
    | .release => some ⟨exact % 2 ^ 64, by omega⟩

/-- The difference of two `u64`; `none` is a panic. -/
def u64Sub (profile : Profile) (x y : U64) : Option U64 :=
  if y ≤ x then some (x - y)
  else match profile with
    | .dev => none
    | .release => some (x - y)

/-- The value of an `i64` operation whose exact result is given; `none` is a panic. -/
def i64 (profile : Profile) (exact : ℤ) : Option I64 :=
  if h : -2 ^ 63 ≤ exact ∧ exact < 2 ^ 63 then some ⟨exact, h⟩
  else match profile with
    | .dev => none
    | .release => some (U64.asI64 ⟨(exact % 2 ^ 64).toNat, by omega⟩)

lemma exists_u64 (profile : Profile) {exact : ℕ} (h : exact < 2 ^ 64) :
    ∃ x : U64, profile.u64 exact = some x ∧ x.val = exact := ⟨⟨exact, h⟩, dif_pos h, rfl⟩

lemma exists_u64Sub (profile : Profile) {x y : U64} (h : y.val ≤ x.val) :
    ∃ z : U64, profile.u64Sub x y = some z ∧ z.val = x.val - y.val :=
  ⟨x - y, if_pos h, Fin.sub_val_of_le h⟩

lemma exists_i64 (profile : Profile) (exact : ℤ) (h : -2 ^ 63 ≤ exact ∧ exact < 2 ^ 63) :
    ∃ x, profile.i64 exact = some x ∧ x.1 = exact := ⟨⟨exact, h⟩, dif_pos h, rfl⟩

end Profile

/-- `std::time::Duration`, in nanoseconds: its seconds are a `u64`. -/
structure Duration where
  nanos : ℕ
  lt : nanos < 2 ^ 64 * 10 ^ 9
  deriving DecidableEq

namespace Duration

def ZERO : Duration := ⟨0, by norm_num⟩

def fromSecs (secs : U64) : Duration := ⟨secs.val * 10 ^ 9, by omega⟩

def asSecs (d : Duration) : U64 := ⟨d.nanos / 10 ^ 9, by have := d.lt; omega⟩

/-- `Duration + Duration`; `none` is the panic on overflow. -/
def add (a b : Duration) : Option Duration :=
  if h : a.nanos + b.nanos < 2 ^ 64 * 10 ^ 9 then some ⟨a.nanos + b.nanos, h⟩ else none

end Duration

/-- `std::time::Instant`, in nanoseconds of the monotonic clock: its seconds are an `i64`
and the clock does not start below zero. -/
structure Instant where
  nanos : ℕ
  lt : nanos < 2 ^ 63 * 10 ^ 9
  deriving DecidableEq

namespace Instant

instance : LE Instant := ⟨fun a b => a.nanos ≤ b.nanos⟩

instance (a b : Instant) : Decidable (a ≤ b) := inferInstanceAs (Decidable (a.nanos ≤ b.nanos))

def saturatingDurationSince (now earlier : Instant) : Duration :=
  ⟨now.nanos - earlier.nanos, by have := now.lt; omega⟩

end Instant

end SignetDrive
