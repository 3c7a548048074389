import SignetDrive.Model.UploadResume
import SignetDrive.Proofs.UploadParts

namespace SignetDrive.Proofs
open Client Automaton

variable {a : UploadPartsArgs} {resume : Json} {stored newParts : List PartInput}
  {planned : List (I32 × String)}

/-- The part numbers of an upload. -/
def allNumbers (chunkCount : ℕ) : List ℤ := (List.range chunkCount).map fun i : ℕ => (i : ℤ) + 1

lemma pairwise_allNumbers (n : ℕ) : (allNumbers n).Pairwise (· < ·) := by
  apply List.pairwise_map.mpr
  apply List.Pairwise.imp _ List.pairwise_lt_range
  intro i j hij
  omega

/-- The answer to a resumed upload lists these parts. -/
def Reports (resume : Option Json) (stored : List PartInput) : Prop :=
  match resume with
  | none => stored = []
  | some resume =>
      List.Forall₂ (fun part s => (part.getI64 "part_number").map Subtype.val = some s.partNumber.1 ∧
        part.getStr "etag" = some s.etag) (jsonParts resume "uploaded_parts") stored

lemma asI32_asU64 {x : I64} {n : I32} (h : x.1 = n.1) : x.asU64.asI32 = n := by
  have hn := n.2
  apply Subtype.ext
  simp only [U64.asI32, I64.asU64, h]
  split <;> omega

lemma completeParts_eq {resume : Option Json} (h : Reports resume stored) (newParts : List PartInput) :
    completeParts resume newParts = stored ++ newParts := by
  cases resume with
  | none =>
    obtain rfl : stored = [] := h
    rfl
  | some resume =>
    rw [completeParts, uploadedParts]
    congr 1
    simp only [Reports] at h
    generalize jsonParts resume "uploaded_parts" = reported at h
    induction h with
    | nil => rfl
    | cons hpart _ ih =>
      rw [List.map_cons, ih]
      obtain ⟨hnumber, hetag⟩ := hpart
      obtain ⟨x, hx, hval⟩ := Option.map_eq_some_iff.mp hnumber
      rw [jsonU64, hx, hetag, Option.map_some, Option.getD_some, Option.getD_some, asI32_asU64 hval]

/-- Every part is listed once, in increasing order, with the etag that storage gave for it: in its
report, or in its answer to the part. -/
def WellFormedBody (chunkCount : ℕ) (stored : List PartInput) (sent : List SentPart)
    (body : List PartInput) : Prop :=
  body.map (fun part => part.partNumber.1) = allNumbers chunkCount ∧
    ∀ part ∈ body, part ∈ stored ∨ ∃ p ∈ sent, p.partNumber = part.partNumber ∧ p.etag = part.etag

lemma append_eq_allNumbers_iff {xs ys : List ℤ} {n : ℕ} (hxs : xs.Pairwise (· < ·)) (hys : ys.Pairwise (· < ·))
    (hperm : (xs ++ ys).Perm (allNumbers n)) : xs ++ ys = allNumbers n ↔ ∀ x ∈ xs, ∀ y ∈ ys, x < y := by
  constructor
  · intro h
    have hsorted := pairwise_allNumbers n
    rw [← h, List.pairwise_append] at hsorted
    exact hsorted.2.2
  · intro h
    refine List.Perm.eq_of_pairwise ?_ (List.pairwise_append.mpr ⟨hxs, hys, h⟩) (pairwise_allNumbers n) hperm
    intro x y _ _ hxy hyx
    exact absurd hxy (not_lt_of_gt hyx)

/-- The body of a complete request is well formed exactly if every part that was already stored
has a smaller number than every part that was still to be sent; a fresh upload has none stored. -/
theorem complete_body_wellFormed_iff (a : UploadPartsArgs) (resume : Option Json) (stored : List PartInput)
    (planned : List (I32 × String)) (hreport : Reports resume stored)
    (hincreasing : stored.Pairwise fun p q => p.partNumber.1 < q.partNumber.1)
    (hplanned : a.partUrls.mapM partFields = .ok planned)
    (hcover : (stored.map (fun part => part.partNumber.1) ++ planned.map fun part => part.1.1).Perm
      (allNumbers a.chunkCount.val))
    (events : List UploadPartsEvent) (t : UploadParts) (newParts : List PartInput)
    (hrun : run (UploadParts.step a) (UploadParts.start a) events = some t)
    (hresult : t.result = some (.ok newParts)) :
    WellFormedBody a.chunkCount.val stored t.sent (completeParts resume newParts) ↔
      ∀ s ∈ stored, ∀ part ∈ planned, s.partNumber.1 < part.1.1 := by
  have hnodup : (planned.map Prod.fst).Nodup := by
    have hall := (hcover.nodup_iff).mpr ((pairwise_allNumbers _).imp fun hlt => hlt.ne)
    have hmap : planned.map (fun part => part.1.1) = (planned.map Prod.fst).map Subtype.val := by
      rw [List.map_map]; rfl
    rw [hmap] at hall
    exact List.Nodup.of_map _ (List.Nodup.of_append_right hall)
  obtain ⟨hinv, -⟩ := UploadInvariant.run hplanned hrun
  obtain ⟨e, he, -⟩ | ⟨-, recorded, hparts, hperm, hrecorded⟩ := hinv.result hplanned hresult
  · cases he
  obtain rfl : newParts = sortParts recorded := Except.ok.inj hparts
  have hsorted := sortParts_perm recorded
  have hnew : ((sortParts recorded).map fun part => part.partNumber.1).Pairwise (· < ·) :=
    List.pairwise_map.mpr (sortParts_pairwise (hperm.nodup_iff.mpr hnodup))
  have hnumbers : ((sortParts recorded).map fun part => part.partNumber.1).Perm
      (planned.map fun part => part.1.1) := by
    have hmapped := ((hsorted.map PartInput.partNumber).trans hperm).map Subtype.val
    rw [List.map_map, List.map_map] at hmapped
    exact hmapped
  have hetags : ∀ part ∈ stored ++ sortParts recorded,
      part ∈ stored ∨ ∃ p ∈ t.sent, p.partNumber = part.partNumber ∧ p.etag = part.etag := by
    intro part hpart
    exact (List.mem_append.mp hpart).imp id fun hmem => hrecorded part (hsorted.mem_iff.mp hmem)
  rw [completeParts_eq hreport, WellFormedBody, and_iff_left hetags, List.map_append,
    append_eq_allNumbers_iff (List.pairwise_map.mpr hincreasing) hnew ((hnumbers.append_left _).trans hcover)]
  simp only [List.forall_mem_map]
  constructor
  · intro h s hs part hpart
    obtain ⟨p, hp, heq⟩ := List.mem_map.mp (hnumbers.mem_iff.mpr (List.mem_map.mpr ⟨part, hpart, rfl⟩))
    rw [← heq]
    exact h s hs p hp
  · intro h s hs p hp
    obtain ⟨part, hpart, heq⟩ := List.mem_map.mp (hnumbers.mem_iff.mp (List.mem_map.mpr ⟨p, hp, rfl⟩))
    rw [← heq]
    exact h s hs part hpart

def reportOf (n : U64) (etag : String) : Json :=
  .object [("uploaded_parts", .array [.object [("part_number", .number (.posInt n)), ("etag", .string etag)]])]

def resumedUpload (n : U64) (url : String) : UploadPartsArgs :=
  { sampleUpload 0 1 with partUrls := [samplePartUrl n url] }

def resumedEvents (count : ℕ) (etag : String) : List UploadPartsEvent :=
  [.opened none, .next, .prepare (.seeked none), .prepare (.read (.ok count)), .prepare (.read (.ok 0)),
    .put 0 (.ok etag), .next]

lemma ok_sortParts_singleton (part : PartInput) :
    some (Except.ok (sortParts [part]) : Except CliError (List PartInput)) = some (.ok [part]) := by
  rw [sortParts, List.mergeSort_singleton]

theorem complete_body_of_first_stored :
    ∃ t, run (UploadParts.step (resumedUpload 2 "u2")) (UploadParts.start (resumedUpload 2 "u2"))
        (resumedEvents 1 "e2") = some t ∧
      t.result = some (.ok [⟨2, "e2"⟩]) ∧
      WellFormedBody 2 [⟨1, "e1"⟩] t.sent
        (completeParts (some (reportOf 1 "e1")) [⟨2, "e2"⟩]) := by
  obtain ⟨t, hrun, hresult⟩ : ∃ t, run (UploadParts.step (resumedUpload 2 "u2"))
      (UploadParts.start (resumedUpload 2 "u2")) (resumedEvents 1 "e2") = some t ∧
      t.result = some (.ok [⟨2, "e2"⟩]) :=
    ⟨_, rfl, ok_sortParts_singleton ⟨2, "e2"⟩⟩
  refine ⟨t, hrun, hresult, ?_⟩
  exact (complete_body_wellFormed_iff (resumedUpload 2 "u2") (some (reportOf 1 "e1")) [⟨1, "e1"⟩]
    [(2, "u2")] (.cons ⟨rfl, rfl⟩ .nil) (List.pairwise_singleton _ _) rfl (.refl _)
    (resumedEvents 1 "e2") t _ hrun hresult).mpr (by decide)

/-- The second part is stored and the first is sent: the request lists the second part first. -/
theorem resumed_body_out_of_order :
    ∃ t, run (UploadParts.step (resumedUpload 1 "u1")) (UploadParts.start (resumedUpload 1 "u1"))
        [.opened none, .next, .prepare (.seeked none), .prepare (.read (.ok 3)), .put 0 (.ok "e1"),
          .next] = some t ∧
      t.result = some (.ok [⟨1, "e1"⟩]) ∧
      completeParts (some (reportOf 2 "e2")) [⟨1, "e1"⟩] =
        [⟨2, "e2"⟩, ⟨1, "e1"⟩] :=
  ⟨_, rfl, ok_sortParts_singleton ⟨1, "e1"⟩, rfl⟩

end SignetDrive.Proofs
