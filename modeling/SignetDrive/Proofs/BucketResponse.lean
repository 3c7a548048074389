import SignetDrive.Proofs.BucketHead

namespace SignetDrive.Proofs
open Client

variable {buf body : Bytes} {target : ℕ}

lemma findHeadersEnd_bounds {i : ℕ} (h : findHeadersEnd buf = some i) : 4 ≤ i ∧ i ≤ buf.length := by
  induction buf generalizing i with
  | nil => cases h
  | cons b rest ih =>
    unfold findHeadersEnd at h
    split at h
    next hfront =>
      have hlen := (List.isPrefixOf_iff_prefix.mp hfront).length_le
      rw [← Option.some_inj.mp h]
      exact ⟨le_rfl, hlen⟩
    next =>
      obtain ⟨j, hj, rfl⟩ := Option.map_eq_some_iff.mp h
      obtain ⟨hlow, hhigh⟩ := ih hj
      exact ⟨by omega, Nat.succ_le_succ hhigh⟩

lemma findHeadersEnd_append {i : ℕ} (h : findHeadersEnd buf = some i) (more : Bytes) :
    findHeadersEnd (buf ++ more) = some i := by
  induction buf generalizing i with
  | nil => cases h
  | cons b rest ih =>
    unfold findHeadersEnd at h
    rw [List.cons_append, findHeadersEnd]
    split at h
    next hfront =>
      have hlonger : CRLF2.isPrefixOf (b :: (rest ++ more)) :=
        List.isPrefixOf_iff_prefix.mpr ((List.isPrefixOf_iff_prefix.mp hfront).trans ⟨more, rfl⟩)
      rw [if_pos hlonger]
      exact h
    next hfront =>
      obtain ⟨j, hj, rfl⟩ := Option.map_eq_some_iff.mp h
      -- the marker does not fit before the added bytes, so it is no prefix of the longer text either
      have hlonger : ¬ CRLF2.isPrefixOf (b :: (rest ++ more)) := by
        intro hlonger
        have hlen : CRLF2.length ≤ (b :: rest).length := by
          have hbounds := findHeadersEnd_bounds hj
          rw [List.length_cons]
          change 4 ≤ _
          omega
        exact hfront (List.isPrefixOf_iff_prefix.mpr
          (List.prefix_of_prefix_length_le (List.isPrefixOf_iff_prefix.mp hlonger) ⟨more, rfl⟩ hlen))
      rw [if_neg hlonger, ih hj]
      rfl

lemma findHeadersEnd_of_front {head : Bytes} (hhead : findHeadersEnd head = some head.length)
    (hbuf : buf <+: head ++ body) :
    findHeadersEnd buf = if head.length ≤ buf.length then some head.length else none := by
  split
  next hle =>
    obtain ⟨more, rfl⟩ := List.prefix_of_prefix_length_le ⟨body, rfl⟩ hbuf hle
    exact findHeadersEnd_append hhead more
  next hlt =>
    obtain ⟨more, hmore⟩ := List.prefix_of_prefix_length_le hbuf ⟨body, rfl⟩ (by omega)
    cases h : findHeadersEnd buf with
    | none => rfl
    | some i =>
      have hsame := findHeadersEnd_append h more
      rw [hmore, hhead] at hsame
      have hbounds := findHeadersEnd_bounds h
      have hlen := Option.some_inj.mp hsame
      omega

/-- Reads without a fault. -/
def okReads (reads : List Bytes) : List WireRead := reads.map .ok

@[simp] lemma okReads_cons (bytes : Bytes) (reads : List Bytes) :
    okReads (bytes :: reads) = .ok bytes :: okReads reads :=
  rfl

lemma readHeaders_of_some {i : ℕ} (h : findHeadersEnd buf = some i) (reads : List WireRead) :
    readHeaders buf reads = .done (buf, i) reads := by
  rw [readHeaders.eq_def, h]

lemma readHeaders_ok {bytes : Bytes} (h : findHeadersEnd buf = none) (hne : bytes ≠ [])
    (hlen : (buf ++ bytes).length ≤ 64 * 1024) (reads : List WireRead) :
    readHeaders buf (.ok bytes :: reads) = readHeaders (buf ++ bytes) reads := by
  rw [readHeaders, h]
  simp only
  rw [if_neg hne, if_neg (by omega)]

/-- The header phase over reads of a response: it goes on behind them, or it ends within them at
the end of the head. -/
lemma readHeaders_okReads {head : Bytes} (hhead : findHeadersEnd head = some head.length)
    (hsize : head.length ≤ 48 * 1024) {reads : List Bytes}
    (hreads : ∀ bytes ∈ reads, bytes ≠ [] ∧ bytes.length ≤ 8 * 1024) (later : List WireRead)
    (hfront : buf ++ reads.flatten <+: head ++ body) :
    ((buf ++ reads.flatten).length < head.length ∧
      readHeaders buf (okReads reads ++ later) = readHeaders (buf ++ reads.flatten) later) ∨
    ∃ first second, reads = first ++ second ∧ head.length ≤ (buf ++ first.flatten).length ∧
      readHeaders buf (okReads reads ++ later) =
        .done (buf ++ first.flatten, head.length) (okReads second ++ later) := by
  induction reads generalizing buf with
  | nil =>
    rw [List.flatten_nil, List.append_nil] at hfront ⊢
    by_cases hlt : buf.length < head.length
    · exact .inl ⟨hlt, rfl⟩
    · have hend := findHeadersEnd_of_front hhead hfront
      rw [if_pos (by omega)] at hend
      exact .inr ⟨[], [], rfl, by rw [List.flatten_nil, List.append_nil]; omega,
        by rw [List.flatten_nil, List.append_nil]; exact readHeaders_of_some hend _⟩
  | cons bytes reads ih =>
    rw [List.flatten_cons, ← List.append_assoc] at hfront ⊢
    have hbuf : buf <+: head ++ body :=
      ((List.prefix_append buf bytes).trans (List.prefix_append _ reads.flatten)).trans hfront
    have hend := findHeadersEnd_of_front hhead hbuf
    by_cases hlt : buf.length < head.length
    · obtain ⟨hne, hlen⟩ := hreads bytes List.mem_cons_self
      rw [if_neg (by omega)] at hend
      rw [okReads_cons, List.cons_append, readHeaders_ok hend hne (by rw [List.length_append]; omega)]
      obtain h | ⟨first, second, rfl, hle, h⟩ := ih (fun b hb => hreads b (List.mem_cons_of_mem _ hb)) hfront
      · exact .inl h
      · refine .inr ⟨bytes :: first, second, rfl, ?_, ?_⟩
        · rw [List.flatten_cons, ← List.append_assoc]
          exact hle
        · rw [List.flatten_cons, ← List.append_assoc]
          exact h
    · rw [if_pos (by omega)] at hend
      refine .inr ⟨[], bytes :: reads, rfl, ?_, ?_⟩
      · rw [List.flatten_nil, List.append_nil]
        omega
      · rw [List.flatten_nil, List.append_nil]
        exact readHeaders_of_some hend _

lemma readDataBody_of_le (h : target ≤ body.length) (reads : List WireRead) :
    readDataBody target body reads = .done body reads := by
  rw [readDataBody.eq_def, if_neg (by omega)]

lemma readDataBody_ok {bytes : Bytes} (h : body.length < target) (hne : bytes ≠ []) (reads : List WireRead) :
    readDataBody target body (.ok bytes :: reads) = readDataBody target (body ++ bytes) reads := by
  rw [readDataBody, if_pos h, if_neg hne]

lemma readDataBody_okReads {reads : List Bytes} (hreads : ∀ bytes ∈ reads, bytes ≠ [])
    (later : List WireRead) (hle : (body ++ reads.flatten).length ≤ target) :
    readDataBody target body (okReads reads ++ later) = readDataBody target (body ++ reads.flatten) later := by
  induction reads generalizing body with
  | nil =>
    rw [List.flatten_nil, List.append_nil]
    rfl
  | cons bytes reads ih =>
    rw [List.flatten_cons, ← List.append_assoc] at hle ⊢
    have hne := hreads bytes List.mem_cons_self
    have hpos := List.length_pos_iff.mpr hne
    have hlt : body.length < target := by
      rw [List.length_append, List.length_append] at hle
      omega
    rw [okReads_cons, List.cons_append, readDataBody_ok hlt hne]
    exact ih (fun b hb => hreads b (List.mem_cons_of_mem _ hb)) hle

section

variable {r : StorageResponse} (hr : r.WellFormed) {reads : List Bytes}
  (hreads : ∀ bytes ∈ reads, bytes ≠ [] ∧ bytes.length ≤ 8 * 1024) (hfront : reads.flatten <+: r.bytes)
include hr hreads hfront

lemma readResponse_okReads (later : List WireRead) :
    (reads.flatten.length < r.head.length ∧
      readHeaders [] (okReads reads ++ later) = readHeaders reads.flatten later) ∨
    ∃ head : ResponseHead, head.status.val = r.status ∧ head.etag = r.etag ∧
      head.contentLength.map Fin.val = some r.body.length ∧ head.chunked = false ∧
      ∃ body, reads.flatten = r.head ++ body ∧ readResponse true (okReads reads ++ later) =
        match readDataBody r.body.length body later with
        | .waiting => .waiting
        | .failed e => .failed e
        | .done body rest => .done (head.finish true (decide (r.body.length < body.length))
            (body.take r.body.length)) rest := by
  obtain h | ⟨first, second, rfl, hle, h⟩ := readHeaders_okReads hr.findHeadersEnd_head hr.head_length hreads
    later (show [] ++ reads.flatten <+: r.head ++ r.body from hfront)
  · exact .inl h
  · obtain ⟨head, hparse, hstatus, hetag, hlength, hchunked⟩ := hr.parseHead_head
    refine .inr ⟨head, hstatus, hetag, hlength, hchunked, ?_⟩
    rw [List.nil_append] at hle h
    rw [List.flatten_append] at hfront ⊢
    -- what was read by the end of the header phase is the head and a part of the body
    obtain ⟨part, hpart⟩ : r.head <+: first.flatten :=
      List.prefix_of_prefix_length_le ⟨r.body, rfl⟩ ((List.prefix_append _ _).trans hfront) hle
    have hbody : part ++ second.flatten <+: r.body := by
      rw [← hpart, List.append_assoc, StorageResponse.bytes] at hfront
      exact (List.prefix_append_right_inj _).mp hfront
    refine ⟨part ++ second.flatten, by rw [← hpart, List.append_assoc], ?_⟩
    have hsuccess := hr.success
    obtain ⟨target, htarget, hvalue⟩ := Option.map_eq_some_iff.mp hlength
    simp only [readResponse, h, ← hpart, List.take_left, List.drop_left, hparse, readBody, true_or, if_true,
      hchunked, Bool.false_eq_true, if_false, htarget]
    rewrite [if_neg (by omega), hvalue, readDataBody_okReads
      (fun b hb => (hreads b (List.mem_append_right first hb)).1) later hbody.length_le]
    cases readDataBody r.body.length (part ++ second.flatten) later <;> rfl

end

/-- A well-formed response is returned whole, however it arrives, and a part of it that a close ends
is an error. -/
theorem readResponse_of_any_split (r : StorageResponse) (hr : r.WellFormed) (reads : List Bytes)
    (hreads : ∀ bytes ∈ reads, bytes ≠ [] ∧ bytes.length ≤ 8 * 1024) (later : List WireRead) :
    (reads.flatten = r.bytes → ∃ response, readResponse true (okReads reads ++ later) = .done response later ∧
      response.status.val = r.status ∧ response.etag = r.etag ∧ response.body = r.body) ∧
    (reads.flatten <+: r.bytes → reads.flatten ≠ r.bytes →
      ∃ e, readResponse true (okReads reads ++ .ok [] :: later) = .failed e) := by
  constructor
  · intro hall
    have hfront : reads.flatten <+: r.bytes := hall ▸ List.prefix_rfl
    obtain ⟨hlt, -⟩ | ⟨head, hstatus, hetag, -, -, body, hbody, h⟩ :=
      readResponse_okReads hr hreads hfront later
    · rw [hall, StorageResponse.bytes, List.length_append] at hlt
      omega
    · obtain rfl : r.body = body := List.append_cancel_left (hall.symm.trans hbody)
      rw [readDataBody_of_le le_rfl] at h
      exact ⟨_, h, hstatus, hetag, List.take_length⟩
  · intro hfront hne
    obtain ⟨hlt, h⟩ | ⟨head, -, -, -, -, body, hbody, h⟩ :=
      readResponse_okReads hr hreads hfront (.ok [] :: later)
    · have hend := findHeadersEnd_of_front hr.findHeadersEnd_head hfront
      rw [if_neg (by omega)] at hend
      refine ⟨.network "storage closed the connection before responding", ?_⟩
      rw [readResponse, h, readHeaders, hend]
      rfl
    · have hlt : body.length < r.body.length := by
        rw [hbody] at hfront hne
        have hpart := (List.prefix_append_right_inj _).mp hfront
        have hle := hpart.length_le
        by_contra hge
        exact hne (congrArg (r.head ++ ·) (hpart.eq_of_length (by omega)))
      rw [readDataBody, if_pos hlt] at h
      exact ⟨_, h⟩

lemma forall_mem_of_all {p : UInt8 → Prop} [DecidablePred p] {bytes : Bytes} (h : bytes.all (p ·) = true) :
    ∀ b ∈ bytes, p b := by
  simpa using h

def taggedResponse : StorageResponse where
  version := utf8 "HTTP/1.1"
  code := utf8 "206"
  reason := utf8 "Partial Content"
  fields := [⟨utf8 "ETag", [0x20], utf8 "\"a1\"", []⟩, ⟨utf8 "content-length", [], utf8 "2", [0x20]⟩]
  body := [7, 8]

lemma taggedResponse_wellFormed : taggedResponse.WellFormed where
  version_ne := by decide
  version := forall_mem_of_all (by decide)
  code := ⟨by decide, forall_mem_of_all (by decide)⟩
  success := by decide
  reason := forall_mem_of_all (by decide)
  fields := by
    intro f hf
    simp only [taggedResponse, List.mem_cons, List.not_mem_nil, or_false] at hf
    rcases hf with rfl | rfl <;>
      exact ⟨by decide, forall_mem_of_all (by decide), forall_mem_of_all (by decide),
        forall_mem_of_all (by decide), forall_mem_of_all (by decide)⟩
  contentLength := ⟨_, rfl, ⟨by decide, forall_mem_of_all (by decide)⟩, by decide⟩
  not_encoded := by decide
  etag := by
    intro f hf
    simp only [taggedResponse, List.mem_cons, List.not_mem_nil, or_false] at hf
    rcases hf with rfl | rfl
    · intro _
      constructor
      · rintro b hb
        rw [← Option.some_inj.mp hb]
        decide
      · rintro b hb
        rw [← Option.some_inj.mp hb]
        decide
    · intro h
      exact absurd h (by decide)
  head_length := by decide
  body_length := by decide

/-- The response cut within the empty line that ends its head, and ended within its body. -/
theorem readResponse_of_split_in_two :
    (∃ response, readResponse true
      (okReads [taggedResponse.bytes.take 62, taggedResponse.bytes.drop 62] ++ []) =
      .done response [] ∧ response.status.val = 206 ∧ response.etag = some "\"a1\"" ∧ response.body = [7, 8]) ∧
    ∃ e, readResponse true (okReads [taggedResponse.bytes.take 62, (taggedResponse.bytes.drop 62).take 2] ++
      [.ok []]) = .failed e := by
  obtain ⟨response, hread, hstatus, hetag, hbody⟩ :=
    (readResponse_of_any_split taggedResponse taggedResponse_wellFormed
      [taggedResponse.bytes.take 62, taggedResponse.bytes.drop 62] (by decide) []).1 (by decide)
  refine ⟨⟨response, hread, hstatus, ?_, hbody⟩, ?_⟩
  · rw [hetag]
    decide
  · exact (readResponse_of_any_split taggedResponse taggedResponse_wellFormed
      [taggedResponse.bytes.take 62, (taggedResponse.bytes.drop 62).take 2] (by decide) []).2
      (by decide) (by decide)

end SignetDrive.Proofs
