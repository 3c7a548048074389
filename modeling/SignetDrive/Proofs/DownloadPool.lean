import SignetDrive.Lib.Automaton
import SignetDrive.Proofs.BucketReads

/-!
# A pooled connection and the answers before

A connection goes back to the pool when what was read of it ends where the response says. Bytes that
arrive later are read as the answer to the next request.
-/

namespace SignetDrive.Proofs
open Client Automaton DownloadPool

/-- How many bytes were sent before the request after the `j`-th was written. -/
def sentUpTo (sent : List (UInt8 × ℕ)) (j : ℕ) : ℕ := (sent.filter fun b => b.2 ≤ j).length

def period (sent : List (UInt8 × ℕ)) (i : ℕ) : Bytes := (sent.filter fun b => b.2 = i).map Prod.fst

def slice (sent : List (UInt8 × ℕ)) (first last : ℕ) : List (UInt8 × ℕ) := (sent.drop first).take (last - first)

def InOrder (sent : List (UInt8 × ℕ)) : Prop := sent.Pairwise fun a b => a.2 ≤ b.2

section

variable {sent : List (UInt8 × ℕ)}

lemma sentUpTo_le (j : ℕ) : sentUpTo sent j ≤ sent.length := List.length_filter_le _ _

lemma sentUpTo_append (more : List (UInt8 × ℕ)) (j : ℕ) : sentUpTo sent j ≤ sentUpTo (sent ++ more) j := by
  rw [sentUpTo, sentUpTo, List.filter_append, List.length_append]
  omega

lemma InOrder.filter_eq_take (h : InOrder sent) (j : ℕ) :
    sent.filter (fun b => b.2 ≤ j) = sent.take (sentUpTo sent j) := by
  induction sent with
  | nil => rfl
  | cons b sent ih =>
    rw [InOrder, List.pairwise_cons] at h
    by_cases hb : b.2 ≤ j
    · rw [sentUpTo, List.filter_cons_of_pos (by simpa using hb), List.length_cons, List.take_succ_cons]
      exact congrArg (b :: ·) (ih h.2)
    · have hnone : sent.filter (fun b => b.2 ≤ j) = [] := by
        rw [List.filter_eq_nil_iff]
        intro a ha
        have := h.1 a ha
        simp only [decide_eq_true_eq]
        omega
      rw [sentUpTo, List.filter_cons_of_neg (by simpa using hb), hnone]
      rfl

lemma InOrder.filter_succ (h : InOrder sent) (j : ℕ) : sent.filter (fun b => b.2 ≤ j + 1) =
    sent.filter (fun b => b.2 ≤ j) ++ sent.filter fun b => b.2 = j + 1 := by
  induction sent with
  | nil => rfl
  | cons b sent ih =>
    rw [InOrder, List.pairwise_cons] at h
    obtain hb | hb | hb := lt_trichotomy b.2 (j + 1)
    · rw [List.filter_cons_of_pos (by simpa using hb.le), List.filter_cons_of_pos
        (by simpa using Nat.lt_succ_iff.mp hb), List.filter_cons_of_neg (by simpa using hb.ne), ih h.2]
      rfl
    · have hnone : sent.filter (fun b => b.2 ≤ j) = [] := by
        rw [List.filter_eq_nil_iff]
        intro a ha
        have := h.1 a ha
        simp only [decide_eq_true_eq]
        omega
      have htail := ih h.2
      rw [hnone, List.nil_append] at htail
      rw [List.filter_cons_of_pos (by simpa using hb.le), List.filter_cons_of_neg (by simp; omega),
        List.filter_cons_of_pos (by simpa using hb), hnone, htail]
      rfl
    · rw [List.filter_cons_of_neg (by simp; omega), List.filter_cons_of_neg (by simp; omega),
        List.filter_cons_of_neg (by simp; omega), ih h.2]

lemma InOrder.period_zero (h : InOrder sent) : period sent 0 = (sent.take (sentUpTo sent 0)).map Prod.fst := by
  rw [period, ← h.filter_eq_take]
  congr 2
  funext b
  simp

lemma InOrder.period_succ (h : InOrder sent) (j : ℕ) :
    period sent (j + 1) = (slice sent (sentUpTo sent j) (sentUpTo sent (j + 1))).map Prod.fst := by
  have hsplit := h.filter_succ j
  rw [h.filter_eq_take, h.filter_eq_take] at hsplit
  rw [period, slice, ← List.drop_take, hsplit, List.drop_append_of_le_length, List.drop_eq_nil_of_le,
    List.nil_append]
  · rw [List.length_take]
    omega
  · rw [List.length_take]
    exact le_min le_rfl (sentUpTo_le j)

lemma length_slice {first last : ℕ} (h : last ≤ sent.length) :
    (slice sent first last).length = last - first := by
  rw [slice, List.length_take, List.length_drop]
  omega

lemma slice_front (first : ℕ) {middle last : ℕ} (h : middle ≤ last) :
    slice sent first middle = (slice sent first last).take (middle - first) := by
  rw [slice, slice, List.take_take, min_eq_left (by omega)]

lemma InOrder.lt_of_mem_drop (h : InOrder sent) {j : ℕ} {b : UInt8 × ℕ} (hb : b ∈ sent.drop (sentUpTo sent j)) :
    j < b.2 := by
  have hfilter := h.filter_eq_take j
  have hsplit : sent.filter (fun b => b.2 ≤ j) = (sent.take (sentUpTo sent j)).filter (fun b => b.2 ≤ j) ++
      (sent.drop (sentUpTo sent j)).filter fun b => b.2 ≤ j := by
    rw [← List.filter_append, List.take_append_drop]
  rw [← hfilter, List.filter_filter] at hsplit
  simp only [Bool.and_self] at hsplit
  have hnone : (sent.drop (sentUpTo sent j)).filter (fun b => b.2 ≤ j) = [] :=
    (List.append_cancel_left ((List.append_nil _).trans hsplit)).symm
  have hnot := List.filter_eq_nil_iff.mp hnone b hb
  simpa using hnot

/-- Bytes read from a position on were all sent after the request exactly if all bytes before it had
been read by then. -/
lemma InOrder.slice_fresh_iff (h : InOrder sent) {j first last : ℕ} (hlt : first < last)
    (hlast : last ≤ sent.length) (hfirst : first ≤ sentUpTo sent j) :
    (∀ b ∈ slice sent first last, j + 1 ≤ b.2) ↔ first = sentUpTo sent j := by
  constructor
  · intro hfresh
    by_contra hne
    have hget : sent[first] ∈ slice sent first last := by
      rw [slice, List.drop_eq_getElem_cons (by omega), show last - first = last - first - 1 + 1 by omega,
        List.take_succ_cons]
      exact List.mem_cons_self
    have htake : sent[first] ∈ sent.take (sentUpTo sent j) :=
      List.mem_take_iff_getElem.mpr ⟨first, by omega, rfl⟩
    rw [← h.filter_eq_take, List.mem_filter, decide_eq_true_iff] at htake
    have := hfresh _ hget
    omega
  · rintro rfl b hb
    exact h.lt_of_mem_drop (List.mem_of_mem_take hb)

end

/-- No byte was sent before the request that it answers. -/
def ReadFresh (r : PooledResponse) : Prop := ∀ b ∈ r.bytes, r.request ≤ b.2

/-- By then the server had sent nothing before the first request, and after each earlier request one
response that ends where its head says. -/
def AnsweredBefore (r : PooledResponse) : Prop :=
  ∀ i < r.request, if i = 0 then period r.sent 0 = []
    else declaredLength (period r.sent i) = some (period r.sent i).length

/-- The first `n` responses on a connection, which end at the bounds. -/
structure History (returned : List PooledResponse) (sent : List (UInt8 × ℕ)) (n : ℕ)
    (bound : ℕ → ℕ) : Prop where
  inOrder : InOrder sent
  zero : bound 0 = 0
  before : ∀ j ≤ n, bound j ≤ sentUpTo sent j
  past : ∀ j < n, bound j < bound (j + 1) ∧ ∃ r ∈ returned, r.request = j + 1 ∧
    r.bytes = slice sent (bound j) (bound (j + 1)) ∧
    declaredLength (r.bytes.map Prod.fst) = some r.bytes.length

section

variable {returned : List PooledResponse} {sent : List (UInt8 × ℕ)} {n : ℕ} {bound : ℕ → ℕ}

lemma History.bound_le (h : History returned sent n bound) {j : ℕ} (hj : j ≤ n) : bound j ≤ sent.length :=
  (h.before j hj).trans (sentUpTo_le j)

variable {more : List PooledResponse} {events : List DownloadPool.Event}

lemma History.mono (h : History returned sent n bound) : History (returned ++ more) sent n bound := by
  refine ⟨h.inOrder, h.zero, h.before, ?_⟩
  intro j hj
  obtain ⟨hlt, r, hr, hrest⟩ := h.past j hj
  exact ⟨hlt, r, List.mem_append_left _ hr, hrest⟩

lemma slice_append {first last : ℕ} (hlast : last ≤ sent.length) (more : List (UInt8 × ℕ)) :
    slice (sent ++ more) first last = slice sent first last := by
  rw [slice, slice, ← List.drop_take, ← List.drop_take, List.take_append_of_le_length hlast]

lemma History.receive (h : History returned sent n bound) {written : ℕ} (hstamps : ∀ b ∈ sent, b.2 ≤ written)
    (bytes : Bytes) : History returned (sent ++ bytes.map (·, written)) n bound := by
  refine ⟨?_, h.zero, fun j hj => (h.before j hj).trans (sentUpTo_append _ j), ?_⟩
  · rw [InOrder, List.pairwise_append]
    refine ⟨h.inOrder, List.pairwise_map.mpr (List.pairwise_of_forall fun _ _ => le_rfl), ?_⟩
    intro a ha b hb
    obtain ⟨byte, -, rfl⟩ := List.mem_map.mp hb
    exact hstamps a ha
  · intro j hj
    obtain ⟨hlt, r, hr, hrequest, hbytes, hdeclared⟩ := h.past j hj
    exact ⟨hlt, r, hr, hrequest, hbytes.trans (slice_append (h.bound_le hj) _).symm, hdeclared⟩

lemma History.bounds_iff (h : History returned sent n bound) : (∀ j ≤ n, bound j = sentUpTo sent j) ↔
    ∀ i ≤ n, if i = 0 then period sent 0 = [] else declaredLength (period sent i) =
      some (period sent i).length := by
  constructor
  · intro hbounds i hi
    cases i with
    | zero =>
      rw [if_pos rfl, h.inOrder.period_zero, ← hbounds 0 (Nat.zero_le n), h.zero]
      rfl
    | succ i =>
      obtain ⟨-, r, -, -, hbytes, hdeclared⟩ := h.past i hi
      rw [if_neg (Nat.succ_ne_zero i), h.inOrder.period_succ, ← hbounds i (by omega), ← hbounds (i + 1) hi,
        ← hbytes, List.length_map]
      exact hdeclared
  · intro hperiods j
    induction j with
    | zero =>
      intro _
      have hzero := hperiods 0 (Nat.zero_le n)
      rw [if_pos rfl, h.inOrder.period_zero, List.map_eq_nil_iff] at hzero
      have hlen := congrArg List.length hzero
      rw [List.length_take, List.length_nil] at hlen
      have hle : sentUpTo sent 0 ≤ sent.length := sentUpTo_le 0
      rw [h.zero]
      omega
    | succ j ih =>
      intro hj
      have hbound := ih (by omega)
      obtain ⟨hlt, r, -, -, hbytes, hdeclared⟩ := h.past j hj
      have hperiod := hperiods (j + 1) hj
      rw [if_neg (Nat.succ_ne_zero j), h.inOrder.period_succ, ← hbound] at hperiod
      -- the response is the front of the period, so both declare the same length
      have hle := h.before (j + 1) hj
      have hfront : slice sent (bound j) (sentUpTo sent (j + 1)) = r.bytes ++
          (slice sent (bound j) (sentUpTo sent (j + 1))).drop (bound (j + 1) - bound j) := by
        rw [hbytes, slice_front (bound j) hle, List.take_append_drop]
      rw [hfront, List.map_append, declaredLength_append hdeclared, ← List.map_append, ← hfront,
        List.length_map, length_slice (sentUpTo_le _), hbytes, length_slice (h.bound_le hj)] at hperiod
      have := Option.some_inj.mp hperiod
      omega

end

/-- A connection with no request under way: what was read on it is the responses so far. -/
structure Between (returned : List PooledResponse) (c : PooledConnection) : Prop where
  stamps : ∀ b ∈ c.sent, b.2 ≤ c.written
  taken_le : c.taken ≤ c.sent.length
  history : ∃ bound, History returned c.sent c.written bound ∧ bound c.written = c.taken

structure Reading (returned : List PooledResponse) (c : PooledConnection) : Prop where
  stamps : ∀ b ∈ c.sent, b.2 ≤ c.written
  start_le : c.start ≤ c.taken
  taken_le : c.taken ≤ c.sent.length
  history : ∃ n bound, c.written = n + 1 ∧ History returned c.sent n bound ∧ bound n = c.start
  bytes : wireBytes c.reads = c.answer.map Prod.fst

def Recorded (returned : List PooledResponse) (r : PooledResponse) : Prop :=
  ∃ n bound last, r.request = n + 1 ∧ History returned r.sent n bound ∧ bound n < last ∧ last ≤ r.sent.length ∧
    r.bytes = slice r.sent (bound n) last

def Running (returned : List PooledResponse) (a : PooledAttempt) : Prop :=
  if a.sending then Between returned a.conn
  else Reading returned a.conn ∧ readResponse true a.conn.reads = .waiting

structure PoolInvariant (pool : DownloadPool) : Prop where
  idle : ∀ e ∈ pool.idle, Between pool.returned e.2
  running : ∀ a ∈ pool.running, Running pool.returned a
  returned : ∀ r ∈ pool.returned, Recorded pool.returned r

section

variable {returned : List PooledResponse} {c : PooledConnection}

lemma between_opened (returned : List PooledResponse) : Between returned .opened := by
  refine ⟨by simp [PooledConnection.opened], le_rfl, fun _ => 0, ⟨List.Pairwise.nil, rfl, ?_, ?_⟩, rfl⟩
  · intro j hj
    exact Nat.zero_le _
  · intro j hj
    exact absurd hj (Nat.not_lt_zero j)

variable {more : List PooledResponse} {response : BucketResponse}

lemma Between.mono (h : Between returned c) : Between (returned ++ more) c := by
  obtain ⟨bound, hhistory, hbound⟩ := h.history
  exact ⟨h.stamps, h.taken_le, bound, hhistory.mono, hbound⟩

lemma Reading.mono (h : Reading returned c) : Reading (returned ++ more) c := by
  obtain ⟨n, bound, hn, hhistory, hbound⟩ := h.history
  exact ⟨h.stamps, h.start_le, h.taken_le, ⟨n, bound, hn, hhistory.mono, hbound⟩, h.bytes⟩

lemma Recorded.mono {r : PooledResponse} (h : Recorded returned r) :
    Recorded (returned ++ more) r := by
  obtain ⟨n, bound, last, hn, hhistory, hrest⟩ := h
  exact ⟨n, bound, last, hn, hhistory.mono, hrest⟩

lemma stamps_receive (h : ∀ b ∈ c.sent, b.2 ≤ c.written) (bytes : Bytes) :
    ∀ b ∈ (c.receive bytes).sent, b.2 ≤ c.written := by
  intro b hb
  obtain hb | hb := List.mem_append.mp hb
  · exact h b hb
  · obtain ⟨byte, -, rfl⟩ := List.mem_map.mp hb
    exact le_rfl

lemma length_receive (bytes : Bytes) : c.sent.length ≤ (c.receive bytes).sent.length := by
  rw [PooledConnection.receive, List.length_append]
  omega

lemma Between.receive (h : Between returned c) (bytes : Bytes) : Between returned (c.receive bytes) := by
  obtain ⟨bound, hhistory, hbound⟩ := h.history
  exact ⟨stamps_receive h.stamps bytes, h.taken_le.trans (length_receive bytes), bound,
    hhistory.receive h.stamps bytes, hbound⟩

lemma Reading.receive (h : Reading returned c) (bytes : Bytes) : Reading returned (c.receive bytes) := by
  obtain ⟨n, bound, hn, hhistory, hbound⟩ := h.history
  refine ⟨stamps_receive h.stamps bytes, h.start_le, h.taken_le.trans (length_receive bytes),
    ⟨n, bound, hn, hhistory.receive h.stamps bytes, hbound⟩, ?_⟩
  have hanswer : (c.receive bytes).answer = c.answer := slice_append h.taken_le _
  rw [hanswer]
  exact h.bytes

lemma Between.request (h : Between returned c) : Reading returned c.request := by
  obtain ⟨bound, hhistory, hbound⟩ := h.history
  refine ⟨fun b hb => (h.stamps b hb).trans (Nat.le_succ _), le_rfl, h.taken_le,
    ⟨c.written, bound, rfl, hhistory, hbound⟩, ?_⟩
  simp [PooledConnection.request, PooledConnection.answer, wireBytes]

lemma Reading.read (h : Reading returned c) {n : ℕ} (hn : (c.inFlight.take n).length = n) :
    Reading returned { c with taken := c.taken + n, reads := c.reads ++ [.ok (c.inFlight.take n)] } := by
  have hle : c.taken + n ≤ c.sent.length := by
    rw [List.length_take, PooledConnection.inFlight, List.length_map, List.length_drop] at hn
    have := h.taken_le
    omega
  refine ⟨h.stamps, h.start_le.trans (Nat.le_add_right _ _), hle, h.history, ?_⟩
  have hstart := h.start_le
  rw [wireBytes_append, h.bytes, PooledConnection.answer, PooledConnection.answer]
  simp only
  rw [show c.taken + n - c.start = c.taken - c.start + n
    by omega, List.take_add, List.map_append, List.drop_drop,
    show c.start + (c.taken - c.start) = c.taken by omega, PooledConnection.inFlight, ← List.map_take]
  simp [wireBytes]

lemma Reading.fault (h : Reading returned c) {read : WireRead} (hread : wireBytes [read] = []) :
    Reading returned { c with reads := c.reads ++ [read] } := by
  refine ⟨h.stamps, h.start_le, h.taken_le, h.history, ?_⟩
  rw [wireBytes_append, hread, List.append_nil]
  exact h.bytes

def recordOf (c : PooledConnection) (response : BucketResponse) : PooledResponse :=
  ⟨c.written, c.start, c.answer, c.sent, response⟩

section

variable (h : Reading returned c) (hdone : readResponse true c.reads = .done response [])

include h hdone

lemma Reading.start_lt : c.start < c.taken := by
  have hne := wireBytes_ne_nil hdone
  rw [h.bytes, Ne, List.map_eq_nil_iff, PooledConnection.answer, List.take_eq_nil_iff, not_or] at hne
  omega

lemma Reading.recorded : Recorded returned (recordOf c response) := by
  obtain ⟨n, bound, hn, hhistory, hbound⟩ := h.history
  exact ⟨n, bound, c.taken, hn, hhistory, hbound.symm ▸ h.start_lt hdone, h.taken_le, by rw [hbound]; rfl⟩

lemma Reading.between (hreusable : response.reusable) : Between (returned ++ [recordOf c response]) c := by
  obtain ⟨n, bound, hn, hhistory, hbound⟩ := h.history
  have hlt := h.start_lt hdone
  refine ⟨h.stamps, h.taken_le, fun j => if j ≤ n then bound j else c.taken, ⟨hhistory.inOrder, ?_, ?_, ?_⟩, ?_⟩
  · exact hhistory.zero
  · intro j hj
    split
    next hjn => exact hhistory.before j hjn
    next hjn =>
      have hall : c.sent.filter (fun b => b.2 ≤ j) = c.sent := by
        rw [List.filter_eq_self]
        intro b hb
        have := h.stamps b hb
        exact decide_eq_true (by omega)
      rw [sentUpTo, hall]
      exact h.taken_le
  · intro j hj
    by_cases hjn : j < n
    · rw [if_pos (by omega), if_pos (by omega)]
      obtain ⟨hlt, r, hr, hrest⟩ := hhistory.past j hjn
      exact ⟨hlt, r, List.mem_append_left _ hr, hrest⟩
    · obtain rfl : j = n := by omega
      rw [if_pos le_rfl, if_neg (by omega), hbound]
      refine ⟨hlt, recordOf c response, by simp, hn, rfl, ?_⟩
      have hdeclared := declaredLength_of_reusable hdone hreusable
      rw [h.bytes, List.length_map] at hdeclared
      exact hdeclared
  · dsimp only
    rw [if_neg (by omega)]

end

end

section

variable {pool : DownloadPool}

variable {a : PooledAttempt}

lemma Running.mono {returned : List PooledResponse} (h : Running returned a) :
    Running (returned ++ more) a := by
  unfold Running at h ⊢
  split
  next hsending =>
    rw [if_pos hsending] at h
    exact h.mono
  next hsending =>
    rw [if_neg hsending] at h
    exact ⟨h.1.mono, h.2⟩

lemma PoolInvariant.set (h : PoolInvariant pool) {k : ℕ} (ha : Running pool.returned a) :
    PoolInvariant { pool with running := pool.running.set k a } := by
  refine ⟨h.idle, ?_, h.returned⟩
  intro b hb
  obtain hb | rfl := List.mem_or_eq_of_mem_set hb
  · exact h.running b hb
  · exact ha

lemma PoolInvariant.erase (h : PoolInvariant pool) (k : ℕ) :
    PoolInvariant { pool with running := pool.running.eraseIdx k } :=
  ⟨h.idle, fun b hb => h.running b (List.mem_of_mem_eraseIdx hb), h.returned⟩

lemma PoolInvariant.add (h : PoolInvariant pool) (ha : Running pool.returned a) :
    PoolInvariant { pool with running := pool.running ++ [a] } := by
  refine ⟨h.idle, ?_, h.returned⟩
  intro b hb
  obtain hb | hb := List.mem_append.mp hb
  · exact h.running b hb
  · rw [List.mem_singleton.mp hb]
    exact ha

lemma running_opened (returned : List PooledResponse) (authority : String) :
    Running returned ⟨authority, false, .opened, true⟩ := between_opened returned

lemma PoolInvariant.fail (h : PoolInvariant pool) (k : ℕ) (a : PooledAttempt) (opens : Bool) :
    PoolInvariant (pool.fail k a opens) := by
  unfold DownloadPool.fail
  split
  · exact h.set (running_opened _ _)
  · exact h.erase k

lemma PoolInvariant.answer (h : PoolInvariant pool) {r : PooledResponse} (hr : Recorded pool.returned r) :
    PoolInvariant { pool with returned := pool.returned ++ [r] } := by
  refine ⟨fun e he => (h.idle e he).mono, fun a ha => (h.running a ha).mono, ?_⟩
  intro r' hr'
  obtain hr' | hr' := List.mem_append.mp hr'
  · exact (h.returned r' hr').mono
  · rw [List.mem_singleton.mp hr']
    exact hr.mono

lemma PoolInvariant.settle (h : PoolInvariant pool) {k : ℕ} {reads : List WireRead} {last : WireRead}
    (hreads : a.conn.reads = reads ++ [last]) (hwaiting : readResponse true reads = .waiting)
    (hsending : a.sending = false) (hconn : Reading pool.returned a.conn) (opens : Bool) :
    PoolInvariant (pool.settle k a opens) := by
  unfold DownloadPool.settle
  split
  next hmore =>
    apply h.set
    rw [Running, if_neg (by rw [hsending]; decide)]
    exact ⟨hconn, hmore⟩
  next => exact h.fail k a opens
  next response rest hdone =>
    obtain rfl : rest = [] := readResponse_done_concat hwaiting (hreads ▸ hdone)
    dsimp only
    split
    next => exact h.erase k
    next =>
      have hanswered := (h.erase k).answer (hconn.recorded hdone)
      split
      next hreusable =>
        refine ⟨?_, hanswered.running, hanswered.returned⟩
        intro e he
        obtain he | he := List.mem_append.mp he
        · exact hanswered.idle e he
        · rw [List.mem_singleton.mp he]
          exact hconn.between hdone hreusable
      next => exact hanswered

lemma mem_of_mem_swapRemove {α : Type} {xs : List α} {i : ℕ} {x : α} (h : x ∈ swapRemove xs i) :
    x ∈ xs := by
  unfold swapRemove at h
  split at h
  next => cases h
  next last hlast =>
    obtain h | rfl := List.mem_or_eq_of_mem_set (List.mem_of_mem_dropLast h)
    · exact h
    · exact List.mem_of_getLast? hlast

lemma PoolInvariant.start (h : PoolInvariant pool) (authority : String) (opens : Bool) :
    PoolInvariant (pool.start authority opens) := by
  unfold DownloadPool.start
  split
  next conn rest htake =>
    simp only [take, Option.bind_eq_bind, Option.bind_eq_some_iff] at htake
    obtain ⟨i, -, e, he, heq⟩ := htake
    obtain ⟨rfl, rfl⟩ := Prod.mk.inj (Option.some_inj.mp heq)
    have hrest : PoolInvariant { pool with idle := swapRemove pool.idle i } :=
      ⟨fun e he => h.idle e (mem_of_mem_swapRemove he), h.running, h.returned⟩
    exact hrest.add (h.idle e (List.mem_of_getElem? he))
  next =>
    split
    next => exact h.add (running_opened _ _)
    next => exact h

lemma PoolInvariant.step (h : PoolInvariant pool) {e : DownloadPool.Event} {pool' : DownloadPool}
    (hstep : pool.step e = some pool') : PoolInvariant pool' := by
  cases e with
  | request authority opens =>
    rw [← Option.some_inj.mp hstep]
    exact h.start authority opens
  | write k =>
    obtain ⟨a, ha, hstep⟩ := Option.bind_eq_some_iff.mp hstep
    have hrunning := h.running a (List.mem_of_getElem? ha)
    cases hsending : a.sending with
    | false =>
      rw [hsending] at hstep
      cases hstep
    | true =>
      rw [hsending] at hstep
      rw [← Option.some_inj.mp hstep]
      rw [Running, if_pos hsending] at hrunning
      exact h.set ⟨hrunning.request, rfl⟩
  | writeFails k opens =>
    obtain ⟨a, ha, hstep⟩ := Option.bind_eq_some_iff.mp hstep
    cases hsending : a.sending with
    | false =>
      rw [hsending] at hstep
      cases hstep
    | true =>
      rw [hsending] at hstep
      rw [← Option.some_inj.mp hstep]
      exact h.fail k a opens
  | send k bytes =>
    obtain ⟨a, ha, hstep⟩ := Option.bind_eq_some_iff.mp hstep
    have hrunning := h.running a (List.mem_of_getElem? ha)
    rw [← Option.some_inj.mp hstep]
    apply h.set
    unfold Running at hrunning ⊢
    split
    next hsending =>
      rw [if_pos hsending] at hrunning
      exact hrunning.receive bytes
    next hsending =>
      rw [if_neg hsending] at hrunning
      exact ⟨hrunning.1.receive bytes, hrunning.2⟩
  | sendIdle k bytes =>
    obtain ⟨e, he, hstep⟩ := Option.bind_eq_some_iff.mp hstep
    rw [← Option.some_inj.mp hstep]
    refine ⟨?_, h.running, h.returned⟩
    intro e' he'
    obtain he' | rfl := List.mem_or_eq_of_mem_set he'
    · exact h.idle e' he'
    · exact (h.idle e (List.mem_of_getElem? he)).receive bytes
  | read k n opens =>
    obtain ⟨a, ha, hstep⟩ := Option.bind_eq_some_iff.mp hstep
    have hrunning := h.running a (List.mem_of_getElem? ha)
    dsimp only at hstep
    split at hstep
    next => cases hstep
    next hguard =>
      simp only [Bool.or_eq_true, decide_eq_true_eq, not_or, Bool.not_eq_true, ne_eq, not_not] at hguard
      obtain ⟨⟨⟨hsending, hlen⟩, -⟩, -⟩ := hguard
      rw [← Option.some_inj.mp hstep]
      rw [Running, if_neg (by rw [hsending]; decide)] at hrunning
      let conn := { a.conn with taken := a.conn.taken + n, reads :=
        a.conn.reads ++ [WireRead.ok (a.conn.inFlight.take n)] }
      exact h.settle (a := { a with conn := conn }) rfl hrunning.2 hsending (hrunning.1.read hlen) opens
  | fault k read opens =>
    obtain ⟨a, ha, hstep⟩ := Option.bind_eq_some_iff.mp hstep
    have hrunning := h.running a (List.mem_of_getElem? ha)
    split at hstep
    next => cases hstep
    next hsending =>
      rw [Bool.not_eq_true] at hsending
      rw [Running, if_neg (by rw [hsending]; decide)] at hrunning
      split at hstep
      next => cases hstep
      next hread =>
        have hnone : wireBytes [read] = [] := by
          cases read with
          | ok bytes =>
            cases bytes with
            | nil => rfl
            | cons b bytes => exact absurd rfl (hread b bytes)
          | deadline => rfl
          | timedOut => rfl
          | failed e => rfl
        rw [← Option.some_inj.mp hstep]
        exact h.settle (a := { a with conn := { a.conn with reads := a.conn.reads ++ [read] } }) rfl hrunning.2
          hsending (hrunning.1.fault hnone) opens

end

lemma poolInvariant_of_run {pool : DownloadPool} (hrun : run step .new events = some pool) :
    PoolInvariant pool := by
  refine invariant PoolInvariant ?_ (fun _ _ _ _ h hstep => h.step hstep) hrun
  exact ⟨by simp [new], by simp [new], by simp [new]⟩

section

variable {returned : List PooledResponse} {r : PooledResponse}

lemma fresh_of_answered (h : Recorded returned r) (hanswered : AnsweredBefore r) : ReadFresh r := by
  obtain ⟨n, bound, last, hn, hhistory, hlt, hlast, hbytes⟩ := h
  have hbounds := hhistory.bounds_iff.mpr fun i hi => hanswered i (by omega)
  intro b hb
  rw [hn]
  rw [hbytes] at hb
  exact (hhistory.inOrder.slice_fresh_iff hlt hlast (hhistory.before n le_rfl)).mpr (hbounds n le_rfl) b hb

lemma answered_of_fresh (h : Recorded returned r) (hr : ReadFresh r) (hfresh : ∀ r ∈ returned, ReadFresh r) :
    AnsweredBefore r := by
  obtain ⟨n, bound, last, hn, hhistory, hlt, hlast, hbytes⟩ := h
  have hbounds : ∀ j ≤ n, bound j = sentUpTo r.sent j := by
    intro j hj
    by_cases hjn : j < n
    · obtain ⟨hlt', r', hr', hn', hbytes', -⟩ := hhistory.past j hjn
      apply (hhistory.inOrder.slice_fresh_iff hlt' (hhistory.bound_le hjn) (hhistory.before j hj)).mp
      rw [← hbytes', ← hn']
      exact hfresh r' hr'
    · obtain rfl : j = n := by omega
      apply (hhistory.inOrder.slice_fresh_iff hlt hlast (hhistory.before j hj)).mp
      rw [← hbytes, ← hn]
      exact hr
  intro i hi
  exact hhistory.bounds_iff.mp hbounds i (by omega)

end

/-- The responses that are returned are read from nothing but bytes sent after their requests, exactly
if before each of these requests the server had sent on its connection, for each request before it,
one response that ends where its head says, and nothing else. -/
theorem pooled_responses_fresh_iff (events : List DownloadPool.Event) (pool : DownloadPool)
    (hrun : run step .new events = some pool) :
    (∀ r ∈ pool.returned, ReadFresh r) ↔ ∀ r ∈ pool.returned, AnsweredBefore r := by
  have hinvariant := poolInvariant_of_run hrun
  constructor
  · intro hfresh r hr
    exact answered_of_fresh (hinvariant.returned r hr) (hfresh r hr) hfresh
  · intro hanswered r hr
    exact fresh_of_answered (hinvariant.returned r hr) (hanswered r hr)

instance (r : PooledResponse) : Decidable (ReadFresh r) := by
  unfold ReadFresh
  infer_instance

instance (r : PooledResponse) : Decidable (AnsweredBefore r) := by
  unfold AnsweredBefore
  infer_instance

def oneByteResponse (b : UInt8) : Bytes := utf8 "HTTP/1.1 200 OK\r\nContent-Length: 1\r\n\r\n" ++ [b]

def requestOnce (bytes : Bytes) : List DownloadPool.Event :=
  [.request "store" true, .write 0, .send 0 bytes, .read 0 39 true]

def requestsInTurn : List DownloadPool.Event :=
  requestOnce (oneByteResponse 65) ++ requestOnce (oneByteResponse 66)

def poolAfter (events : List DownloadPool.Event) : DownloadPool := (run step .new events).getD .new

lemma run_poolAfter (h : (run step .new events).isSome) :
    run step .new events = some (poolAfter events) := by
  obtain ⟨pool, hpool⟩ := Option.isSome_iff_exists.mp h
  rw [poolAfter, hpool, Option.getD_some]

/-- Two responses on one connection, each sent after its request. -/
theorem pooled_responses_fresh_in_turn :
    (poolAfter requestsInTurn).returned.length = 2 ∧
    ∀ r ∈ (poolAfter requestsInTurn).returned, ReadFresh r := by
  refine ⟨by decide, ?_⟩
  exact (pooled_responses_fresh_iff requestsInTurn (poolAfter requestsInTurn) (run_poolAfter (by decide))).mpr
    (by decide)

def unaskedResponse : List DownloadPool.Event :=
  requestOnce (oneByteResponse 65) ++
    [.sendIdle 0 (oneByteResponse 66), .request "store" true, .write 0, .read 0 39 true]

/-- The second request is answered with bytes that were sent before it was written. -/
theorem unasked_response_answers_request : run step .new unaskedResponse = some (poolAfter unaskedResponse) ∧
    ∃ r ∈ (poolAfter unaskedResponse).returned, r.request = 2 ∧ r.response.body = [66] ∧ ¬ ReadFresh r := by
  refine ⟨run_poolAfter (by decide), ?_⟩
  decide

end SignetDrive.Proofs
