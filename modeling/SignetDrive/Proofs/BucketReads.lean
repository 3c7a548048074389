import SignetDrive.Proofs.BucketResponse

namespace SignetDrive.Proofs
open Client

def declaredLength (bytes : Bytes) : Option ℕ := do
  let headEnd ← findHeadersEnd bytes
  let head ← (parseHead (Utf8Lossy.decode (bytes.take headEnd))).toOption
  let length ← head.contentLength
  return headEnd + length.val

lemma declaredLength_append {bytes : Bytes} {n : ℕ} (h : declaredLength bytes = some n) (more : Bytes) :
    declaredLength (bytes ++ more) = some n := by
  obtain ⟨headEnd, hend, h⟩ := Option.bind_eq_some_iff.mp h
  have htake : (bytes ++ more).take headEnd = bytes.take headEnd :=
    List.take_append_of_le_length (findHeadersEnd_bounds hend).2
  rw [declaredLength, findHeadersEnd_append hend, Option.bind_eq_bind, Option.bind_some, htake]
  exact h

def wireBytes (reads : List WireRead) : Bytes := reads.flatMap fun
  | .ok bytes => bytes
  | _ => []

lemma wireBytes_okReads (reads : List Bytes) : wireBytes (okReads reads) = reads.flatten := by
  induction reads with
  | nil => rfl
  | cons bytes reads ih => exact congrArg (bytes ++ ·) ih

lemma wireBytes_append (first second : List WireRead) :
    wireBytes (first ++ second) = wireBytes first ++ wireBytes second :=
  List.flatMap_append

/-- What a loop does with a read: it is done without it, with a result in the relation to the bytes so
far, or fails, or goes on, or ends there, if it may. -/
inductive LoopStep {α : Type} (loop : Bytes → List WireRead → Progress α) (R : Bytes → α → Prop) (mayEnd : Prop)
    (buf : Bytes) (read : WireRead) : Prop where
  | done (value : α) (hvalue : R buf value) (h : ∀ reads, loop buf reads = .done value reads)
  | failed (e : CliError) (h : ∀ reads, loop buf (read :: reads) = .failed e)
  | next (bytes : Bytes) (hread : read = .ok bytes)
      (h : ∀ reads, loop buf (read :: reads) = loop (buf ++ bytes) reads)
  | ends (hend : mayEnd) (value : α) (h : ∀ reads, loop buf (read :: reads) = .done value reads)

structure ReadLoop {α : Type} (loop : Bytes → List WireRead → Progress α) (R : Bytes → α → Prop)
    (mayEnd : Prop) : Prop where
  step : ∀ buf read, LoopStep loop R mayEnd buf read
  nil : ∀ buf value rest, loop buf [] = .done value rest → rest = [] ∧ R buf value

section

variable {α : Type} {loop : Bytes → List WireRead → Progress α} {R : Bytes → α → Prop} {mayEnd : Prop}
  {buf : Bytes} {reads rest : List WireRead} {value : α}

lemma ReadLoop.done_concat (hloop : ReadLoop loop R mayEnd) {last : WireRead}
    (h : loop buf (reads ++ [last]) = .done value rest) :
    rest = [] ∨ ∃ rest', loop buf reads = .done value rest' ∧ rest = rest' ++ [last] := by
  induction reads generalizing buf with
  | nil =>
    rw [List.nil_append] at h
    cases hloop.step buf last with
    | done value' _ hdone =>
      rw [hdone] at h
      cases h
      exact .inr ⟨[], hdone [], rfl⟩
    | failed e hfailed =>
      rw [hfailed] at h
      cases h
    | next bytes hread hnext =>
      rw [hnext] at h
      exact .inl (hloop.nil _ _ _ h).1
    | ends _ value' hends =>
      rw [hends] at h
      cases h
      exact .inl rfl
  | cons read reads ih =>
    rw [List.cons_append] at h
    cases hloop.step buf read with
    | done value' _ hdone =>
      rw [hdone] at h
      cases h
      exact .inr ⟨read :: reads, hdone _, rfl⟩
    | failed e hfailed =>
      rw [hfailed] at h
      cases h
    | next bytes hread hnext =>
      rw [hnext] at h ⊢
      exact ih h
    | ends _ value' hends =>
      rw [hends] at h
      cases h
      exact .inr ⟨reads, hends reads, rfl⟩

lemma ReadLoop.done_used (hloop : ReadLoop loop R False) (h : loop buf reads = .done value rest) :
    ∃ used, reads = okReads used ++ rest ∧ R (buf ++ used.flatten) value := by
  induction reads generalizing buf with
  | nil =>
    obtain ⟨rfl, hvalue⟩ := hloop.nil _ _ _ h
    exact ⟨[], rfl, by simpa using hvalue⟩
  | cons read reads ih =>
    cases hloop.step buf read with
    | done value' hvalue hdone =>
      rw [hdone] at h
      cases h
      exact ⟨[], rfl, by simpa using hvalue⟩
    | failed e hfailed =>
      rw [hfailed] at h
      cases h
    | next bytes hread hnext =>
      rw [hnext] at h
      obtain ⟨used, hreads, hvalue⟩ := ih h
      refine ⟨bytes :: used, ?_, ?_⟩
      · rw [hread, hreads, okReads_cons, List.cons_append]
      · rw [List.flatten_cons, ← List.append_assoc]
        exact hvalue
    | ends hend => exact hend.elim

end

lemma readHeaders_readLoop : ReadLoop readHeaders
    (fun buf value => value.1 = buf ∧ findHeadersEnd buf = some value.2) False := by
  constructor
  · intro buf read
    cases hend : findHeadersEnd buf with
    | some headEnd => exact .done (buf, headEnd) ⟨rfl, hend⟩ (readHeaders_of_some hend)
    | none =>
      cases read with
      | deadline | timedOut | failed => exact .failed _ fun reads => by rw [readHeaders, hend]
      | ok bytes =>
        by_cases hne : bytes = []
        · exact .failed _ fun reads => by rw [readHeaders, hend]; exact if_pos hne
        · by_cases hlen : (buf ++ bytes).length ≤ 64 * 1024
          · exact .next bytes rfl (readHeaders_ok hend hne hlen)
          · refine .failed (.network "storage response headers are implausibly large") fun reads => ?_
            rw [readHeaders, hend]
            exact (if_neg hne).trans (if_pos (by omega))
  · intro buf value rest h
    rw [readHeaders] at h
    split at h
    next hend =>
      cases h
      exact ⟨rfl, rfl, hend⟩
    next => cases h

lemma readDataBody_readLoop (target : ℕ) : ReadLoop (readDataBody target)
    (fun body value => value = body ∧ target ≤ body.length) False := by
  constructor
  · intro body read
    by_cases hlt : body.length < target
    · cases read with
      | deadline | timedOut | failed => exact .failed _ fun reads => by rw [readDataBody, if_pos hlt]
      | ok bytes =>
        by_cases hne : bytes = []
        · exact .failed _ fun reads => by rw [readDataBody, if_pos hlt]; exact if_pos hne
        · exact .next bytes rfl (readDataBody_ok hlt hne)
    · exact .done body ⟨rfl, by omega⟩ (readDataBody_of_le (by omega))
  · intro body value rest h
    rw [readDataBody] at h
    split at h
    next => cases h
    next hle =>
      cases h
      exact ⟨rfl, rfl, by omega⟩

lemma readDiagnosticBody_readLoop (cap : ℕ) : ReadLoop (readDiagnosticBody cap) (fun _ _ => True) True := by
  constructor
  · intro body read
    by_cases hlt : body.length < min cap MAX_ERROR_BODY_BYTES
    · cases read with
      | deadline | timedOut | failed =>
        exact .ends trivial body fun reads => by rw [readDiagnosticBody, if_pos hlt]
      | ok bytes =>
        by_cases hne : bytes = []
        · exact .ends trivial body fun reads => by rw [readDiagnosticBody, if_pos hlt, if_pos hne]
        · exact .next bytes rfl fun reads => by rw [readDiagnosticBody, if_pos hlt, if_neg hne]
    · exact .done body trivial fun reads => by rw [readDiagnosticBody.eq_def, if_neg hlt]
  · intro body value rest h
    rw [readDiagnosticBody] at h
    split at h <;> cases h
    exact ⟨rfl, trivial⟩

def mapDone {α β : Type} (f : α → β) : Progress α → Progress β
  | .waiting => .waiting
  | .failed e => .failed e
  | .done value rest => .done (f value) rest

lemma mapDone_eq_done {α β : Type} {f : α → β} {progress : Progress α} {value : β} {rest : List WireRead}
    (h : mapDone f progress = .done value rest) : ∃ inner, progress = .done inner rest ∧ f inner = value := by
  cases progress with
  | waiting => cases h
  | failed e => cases h
  | done inner rest' =>
    cases h
    exact ⟨inner, rfl, rfl⟩

inductive BodyPhase (wantBody : Bool) (head : ResponseHead) (body : Bytes) : Prop where
  | failed (e : CliError) (h : ∀ reads, readBody wantBody head body reads = .failed e)
  | none (h : ∀ reads, readBody wantBody head body reads = .done (head.finish wantBody false body) reads)
    (hwant : wantBody = false)
  | diagnostic (cap : ℕ) (f : Bytes → BucketResponse)
    (h : ∀ reads, readBody wantBody head body reads = mapDone f (readDiagnosticBody cap body reads))
    (hf : ∀ value, (f value).reusable = false)
  | data (target : U64) (htarget : head.contentLength = some target)
    (h : ∀ reads, readBody wantBody head body reads = mapDone
      (fun value => head.finish wantBody (decide (target.val < value.length)) (value.take target.val))
      (readDataBody target.val body reads))

lemma readBody_phase (wantBody : Bool) (head : ResponseHead) (body : Bytes) : BodyPhase wantBody head body := by
  by_cases hwant : wantBody ∨ 400 ≤ head.status.val
  · by_cases hchunked : head.chunked
    · exact .failed _ fun reads => by rw [readBody, if_pos hwant, if_pos hchunked]
    · by_cases hdiagnostic : 300 ≤ head.status.val
      · refine .diagnostic ((head.contentLength.map Fin.val).getD MAX_ERROR_BODY_BYTES)
          (fun value => head.finish wantBody false
          (value.take ((head.contentLength.map Fin.val).getD value.length))) (fun reads => ?_) fun value => ?_
        · rw [readBody, if_pos hwant, if_neg hchunked, if_pos hdiagnostic]
          cases readDiagnosticBody _ body reads <;> rfl
        · have hstatus : decide (head.status.val < 300) = false := decide_eq_false (by omega)
          simp [ResponseHead.finish, hstatus]
      · cases htarget : head.contentLength with
        | none =>
          exact .failed _ fun reads =>
            by rw [readBody, if_pos hwant, if_neg hchunked, if_neg hdiagnostic, htarget]
        | some target =>
          refine .data target htarget fun reads => ?_
          rw [readBody, if_pos hwant, if_neg hchunked, if_neg hdiagnostic, htarget]
          dsimp only
          cases readDataBody target.val body reads <;> rfl
  · exact .none (fun reads => by rw [readBody, if_neg hwant]) (by simpa using fun h => hwant (.inl h))

section

variable {wantBody : Bool} {head : ResponseHead} {body : Bytes} {reads rest : List WireRead}
  {response : BucketResponse}

lemma readBody_nil (h : readBody wantBody head body [] = .done response rest) : rest = [] := by
  cases readBody_phase wantBody head body with
  | failed e hbody =>
    rw [hbody] at h
    cases h
  | none hbody =>
    rw [hbody] at h
    cases h
    rfl
  | diagnostic cap f hbody =>
    rw [hbody] at h
    obtain ⟨value, hvalue, -⟩ := mapDone_eq_done h
    exact ((readDiagnosticBody_readLoop cap).nil _ _ _ hvalue).1
  | data target _ hbody =>
    rw [hbody] at h
    obtain ⟨value, hvalue, -⟩ := mapDone_eq_done h
    exact ((readDataBody_readLoop target.val).nil _ _ _ hvalue).1

lemma readBody_done_concat {last : WireRead}
    (h : readBody wantBody head body (reads ++ [last]) = .done response rest) :
    rest = [] ∨ ∃ rest', readBody wantBody head body reads = .done response rest' := by
  cases readBody_phase wantBody head body with
  | failed e hbody =>
    rw [hbody] at h
    cases h
  | none hbody =>
    rw [hbody] at h
    cases h
    exact .inr ⟨reads, hbody reads⟩
  | diagnostic cap f hbody =>
    rw [hbody] at h
    obtain ⟨value, hvalue, rfl⟩ := mapDone_eq_done h
    obtain hnil | ⟨rest', hdone, -⟩ := (readDiagnosticBody_readLoop cap).done_concat hvalue
    · exact .inl hnil
    · exact .inr ⟨rest', by rw [hbody, hdone]; rfl⟩
  | data target _ hbody =>
    rw [hbody] at h
    obtain ⟨value, hvalue, rfl⟩ := mapDone_eq_done h
    obtain hnil | ⟨rest', hdone, -⟩ := (readDataBody_readLoop target.val).done_concat hvalue
    · exact .inl hnil
    · exact .inr ⟨rest', by rw [hbody, hdone]; rfl⟩

lemma readBody_reusable (h : readBody true head body reads = .done response rest)
    (hreusable : response.reusable) : ∃ target used, head.contentLength = some target ∧
    reads = okReads used ++ rest ∧
      (body ++ used.flatten).length = target.val := by
  cases readBody_phase true head body with
  | failed e hbody =>
    rw [hbody] at h
    cases h
  | none _ hwant => cases hwant
  | diagnostic cap f hbody hf =>
    rw [hbody] at h
    obtain ⟨value, -, rfl⟩ := mapDone_eq_done h
    rw [hf] at hreusable
    cases hreusable
  | data target htarget hbody =>
    rw [hbody] at h
    obtain ⟨value, hvalue, rfl⟩ := mapDone_eq_done h
    obtain ⟨used, hreads, rfl, hle⟩ := (readDataBody_readLoop target.val).done_used hvalue
    refine ⟨target, used, htarget, hreads, ?_⟩
    simp only [ResponseHead.finish, Bool.and_eq_true, Bool.not_eq_true', decide_eq_false_iff_not] at hreusable
    omega

end

section

variable {wantBody : Bool} {reads rest : List WireRead} {response : BucketResponse}

lemma readResponse_eq_done (h : readResponse wantBody reads = .done response rest) : ∃ used behind headEnd head,
    reads = okReads used ++ behind ∧ findHeadersEnd used.flatten = some headEnd ∧
      parseHead (Utf8Lossy.decode (used.flatten.take headEnd)) = .ok head ∧
      readBody wantBody head (used.flatten.drop headEnd) behind = .done response rest := by
  unfold readResponse at h
  split at h
  next => cases h
  next => cases h
  next buf headEnd behind hheaders =>
    split at h
    next => cases h
    next head hparse =>
      obtain ⟨used, hreads, hbuf, hend⟩ := readHeaders_readLoop.done_used hheaders
      rw [List.nil_append] at hbuf hend
      obtain rfl : buf = used.flatten := hbuf
      exact ⟨used, behind, headEnd, head, hreads, hend, hparse, h⟩

lemma wireBytes_ne_nil (h : readResponse wantBody reads = .done response rest) : wireBytes reads ≠ [] := by
  obtain ⟨used, behind, headEnd, -, rfl, hend, -⟩ := readResponse_eq_done h
  have hbounds := findHeadersEnd_bounds hend
  rw [wireBytes_append, wireBytes_okReads, ← List.length_pos_iff, List.length_append]
  omega

lemma readResponse_done_concat {last : WireRead} (hwaiting : readResponse wantBody reads = .waiting)
    (h : readResponse wantBody (reads ++ [last]) = .done response rest) : rest = [] := by
  unfold readResponse at h
  split at h
  next => cases h
  next => cases h
  next buf headEnd behind hheaders =>
    split at h
    next => cases h
    next head hparse =>
      obtain rfl | ⟨before, hdone, rfl⟩ := readHeaders_readLoop.done_concat hheaders
      · exact readBody_nil h
      · obtain hnil | ⟨rest', hbody⟩ := readBody_done_concat h
        · exact hnil
        · simp only [readResponse, hdone, hparse, hbody] at hwaiting
          cases hwaiting

lemma declaredLength_of_reusable (h : readResponse true reads = .done response [])
    (hreusable : response.reusable) : declaredLength (wireBytes reads) = some (wireBytes reads).length := by
  obtain ⟨used, behind, headEnd, head, rfl, hend, hparse, hbody⟩ := readResponse_eq_done h
  obtain ⟨target, more, htarget, rfl, hlen⟩ := readBody_reusable hbody hreusable
  rw [List.append_nil, wireBytes_append, wireBytes_okReads, wireBytes_okReads]
  have hbounds := findHeadersEnd_bounds hend
  have hdeclared : declaredLength used.flatten = some (headEnd + target.val) := by
    simp only [declaredLength, hend, Option.bind_eq_bind, Option.bind_some, hparse, Except.toOption, htarget]
    rfl
  rw [declaredLength_append hdeclared, ← hlen]
  simp only [List.length_append, List.length_drop]
  congr 1
  omega

end

end SignetDrive.Proofs
