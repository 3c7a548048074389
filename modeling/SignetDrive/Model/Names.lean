import SignetDrive.Model.Jcs

/-!
# Choosing a free name

`dedupe_name` of `cli/src/names.rs` and `dedupeName` of `web/src/lib/names.ts`, one function over the
bytes of UTF-8 and over the code units of UTF-16. Of the search the outer `none` says that it is
still going on after the rounds, and the inner one is a panic.
-/

namespace SignetDrive

section Units

variable {υ : Type} [DecidableEq υ]

def splitUnits (dot : υ) (name : List υ) : List υ × List υ :=
  if dot ∈ name then
    let i := name.length - 1 - name.reverse.idxOf dot
    if 0 < i ∧ i < name.length - 1 then (name.take i, name.drop i) else (name, [])
  else (name, [])

/-- The next number is computed before the candidate of a number is looked at. -/
def searchFree (forward : ℕ → Option ℕ) (taken : Finset (List υ)) (candidate : ℕ → List υ) :
    ℕ → ℕ → Option (Option (List υ))
  | 0, _ => none
  | rounds + 1, n =>
    match forward n with
    | none => some none
    | some next =>
      if candidate n ∉ taken then some (some (candidate n)) else searchFree forward taken candidate rounds next

def dedupe (encode : String → List υ) (dot : υ) (forward : ℕ → Option ℕ) (rounds : ℕ) (desired : List υ)
    (taken : Finset (List υ)) : Option (Option (List υ)) :=
  if desired ∉ taken then some (some desired)
  else
    let (stem, ext) := splitUnits dot desired
    searchFree forward taken (fun n => stem ++ encode s!" ({n})" ++ ext) rounds 1

end Units

/-- `Step::forward` of a `u32` by one. -/
def forwardU32 (profile : Profile) (n : ℕ) : Option ℕ :=
  if n + 1 < 2 ^ 32 then some (n + 1)
  else match profile with
    | .dev => none
    | .release => some 0

def cliDedupeName (profile : Profile) : ℕ → Bytes → Finset Bytes → Option (Option Bytes) :=
  dedupe utf8 46 (forwardU32 profile)

def webDedupeName : ℕ → List ℕ → Finset (List ℕ) → Option (Option (List ℕ)) :=
  dedupe Jcs.charCodes 46 fun n => some (n + 1)

/-- `dedupeName` of the web client on texts. Among as many candidates as there are taken names one is
free, so the name itself is returned only if it is. -/
def dedupeName (desired : String) (taken : List String) : String :=
  match dedupe String.toList '.' (fun n => some (n + 1)) taken.length desired.toList
      (taken.toFinset.image String.toList) with
  | some (some chosen) => String.ofList chosen
  | _ => desired

end SignetDrive
