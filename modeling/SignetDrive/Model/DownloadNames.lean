import SignetDrive.Model.Jcs

/-!
# The names of the downloads of a session

`uniqueDownloadName` of `web/src/lib/browser.svelte.ts`, which `download` calls before its first `await`.
A name is its UTF-16 code units.
-/

namespace SignetDrive.DownloadNames

/-- The last dot splits, also if it is the last unit. -/
def suffixed (name : List ℕ) (seen : ℕ) : List ℕ :=
  let dot := name.length - 1 - name.reverse.idxOf 46
  let (stem, ext) := if 46 ∈ name ∧ 0 < dot then (name.take dot, name.drop dot) else (name, [])
  stem ++ Jcs.charCodes s!" ({seen})" ++ ext

/-- `seen + 1` of a JavaScript number, which rounds `2 ** 53 + 1` to `2 ** 53`. -/
def countUp (seen : ℕ) : ℕ := if seen < 2 ^ 53 then seen + 1 else seen

def uniqueDownloadName (usedDownloadNames : List ℕ → Option ℕ) (name : List ℕ) : List ℕ × (List ℕ → Option ℕ) :=
  let seen := (usedDownloadNames name).getD 0
  (if seen = 0 then name else suffixed name seen, Function.update usedDownloadNames name (some (countUp seen)))

/-- What the downloads of these files hand to the browser, in order. -/
def downloadNames (usedDownloadNames : List ℕ → Option ℕ) : List (List ℕ) → List (List ℕ)
  | [] => []
  | name :: names =>
    let (downloadName, used) := uniqueDownloadName usedDownloadNames name
    downloadName :: downloadNames used names

end SignetDrive.DownloadNames
