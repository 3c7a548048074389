import SignetDrive.Lib.RecentWindow
import SignetDrive.Model.Channel

/-!
# The sealed channel answers the request it was asked

The state keeps the history of the seals; that the cipher opens nothing else is the assumption on
each frame that is opened.
-/

namespace SignetDrive.Proofs

open Channel RecentWindow Procedure

variable {c : ChannelCrypto} {w : Wire} {secret : ChannelSecret} {channelId reqId reqId' : String}
  {nonce nonce' : Nonce} {key : Dek} {aad frame body : Bytes}

/-! ### Associated data -/

lemma pushLp_inj {a b : Bytes} (h : pushLp a = pushLp b) : a = b := by
  have hdrop := congrArg (List.drop 4) h
  rwa [pushLp, pushLp, List.drop_left' (length_toBeBytes 4 _), List.drop_left' (length_toBeBytes 4 _)] at hdrop

lemma requestAad_inj (h : requestAad channelId reqId = requestAad channelId reqId') : reqId = reqId' := by
  rw [requestAad, requestAad] at h
  exact utf8_inj (pushLp_inj (List.append_cancel_left h))

lemma responseAad_inj (h : responseAad channelId reqId nonce = responseAad channelId reqId' nonce') :
    reqId = reqId' ∧ nonce = nonce' := by
  rw [responseAad, responseAad] at h
  obtain ⟨hids, hnonces⟩ := List.append_inj' h (by simp [pushLp, length_toBeBytes])
  exact ⟨utf8_inj (pushLp_inj (List.append_cancel_left hids)), List.Vector.eq _ _ (pushLp_inj hnonces)⟩

lemma requestAad_ne_responseAad : requestAad channelId reqId ≠ responseAad channelId reqId' nonce := by
  intro h
  have htake := congrArg (List.take 4) h
  simp only [requestAad, responseAad, pushLp, List.append_assoc] at htake
  rw [List.take_left' (length_toBeBytes 4 _), List.take_left' (length_toBeBytes 4 _)] at htake
  have hlength := toBeBytes_inj htake
  revert hlength
  decide

/-! ### Frames -/

lemma openWith_ok : openWith c key aad frame = .ok body ↔
    ∃ nonce, frameNonce frame = .ok nonce ∧ c.aeadOpen key nonce (frame.drop NONCE_LEN) aad = some body := by
  unfold openWith
  cases frameNonce frame with
  | error e => simp [bind, Except.bind]
  | ok nonce =>
    simp only [bind, Except.bind, Except.ok.injEq, exists_eq_left']
    cases c.aeadOpen key nonce (frame.drop NONCE_LEN) aad <;> simp

lemma take_of_frameNonce (h : frameNonce frame = .ok nonce) : frame.take NONCE_LEN = nonce.toList := by
  unfold frameNonce at h
  split_ifs at h
  cases h
  rfl

def frameCipher (c : ChannelCrypto) : Aead.Cipher Dek Nonce Bytes Bytes Bytes where
  encrypt key nonce body aad := some (c.aeadSeal key nonce body aad)
  decrypt := c.aeadOpen
  decrypt_encrypt := by
    rintro key nonce body aad _ ⟨⟩
    exact c.open_seal key nonce body aad

/-- The frame opens only if one of the seals made so far under the key made it. -/
def FrameUnforged {σ : Type} (c : ChannelCrypto) (s : State σ) (key : Dek) (aad frame : Bytes) : Prop :=
  ∀ nonce, frameNonce frame = .ok nonce →
    (frameCipher c).Unforged key {call | ⟨key, call⟩ ∈ s.seals} nonce (frame.drop NONCE_LEN) aad

lemma FrameUnforged.sealed {σ : Type} {s : State σ} (h : FrameUnforged c s key aad frame)
    (hopen : openWith c key aad frame = .ok body) :
    ∃ nonce, frameNonce frame = .ok nonce ∧ (⟨key, ⟨nonce, aad, body⟩⟩ : Seal) ∈ s.seals := by
  obtain ⟨nonce, hnonce, hbody⟩ := openWith_ok.mp hopen
  exact ⟨nonce, hnonce, (h nonce hnonce).mem hbody⟩

/-! ### What processing a request does -/

section Process

variable {σ : Type} {handler : σ → Op → Response × σ} {s : State σ}

def afterExecution (handler : σ → Op → Response × σ) (s : State σ) (replay : ReplayGuard) (reqId : String)
    (frame : Bytes) (op : Op) : State σ :=
  (execute handler reqId frame op { s with replay }).2

/-- How processing a request ends: it is refused, or recorded, and then its body is no operation, or
the operation runs. An answer that can be written is sealed. -/
inductive Processed (c : ChannelCrypto) (w : Wire) (secret : ChannelSecret) (channelId : String)
    (handler : σ → Op → Response × σ) (s : State σ) (reqId : String) (frame : Bytes) (nonce : Nonce) :
    Except ChannelError Bytes × State σ → Prop
  | refused (e : ChannelError) : Processed c w secret channelId handler s reqId frame nonce (.error e, s)
  | garbled (e : ChannelError) (body : Bytes) (replay : ReplayGuard)
      (hopen : openRequest c secret channelId reqId frame = .ok body) (hop : w.opFromBytes body = .error e) :
      Processed c w secret channelId handler s reqId frame nonce (.error e, { s with replay })
  | unanswered (e : ChannelError) (reqNonce : Nonce) (body : Bytes) (replay : ReplayGuard) (op : Op)
      (hnonce : frameNonce frame = .ok reqNonce)
      (hopen : openRequest c secret channelId reqId frame = .ok body)
      (hreplay : s.replay.checkAndRecord reqNonce = .ok replay) (hop : w.opFromBytes body = .ok op) :
      Processed c w secret channelId handler s reqId frame nonce
        (.error e, afterExecution handler s replay reqId frame op)
  | answered (reqNonce : Nonce) (body : Bytes) (replay : ReplayGuard) (op : Op) (respBody : Bytes)
      (hnonce : frameNonce frame = .ok reqNonce)
      (hopen : openRequest c secret channelId reqId frame = .ok body)
      (hreplay : s.replay.checkAndRecord reqNonce = .ok replay) (hop : w.opFromBytes body = .ok op)
      (hresp : w.responseToBytes (handler s.handlerState op).1 = .ok respBody) :
      Processed c w secret channelId handler s reqId frame nonce
        (.ok (sealResponse c secret channelId reqId reqNonce nonce respBody),
          (afterExecution handler s replay reqId frame op).logSeal (deriveKey c secret RESPONSE_KEY_INFO) nonce
            (responseAad channelId reqId reqNonce) respBody)

lemma process_processed (handler : σ → Op → Response × σ) (reqId : String) (frame : Bytes) (nonce : Nonce)
    (s : State σ) :
    Processed c w secret channelId handler s reqId frame nonce
      (process c w secret channelId handler reqId frame nonce s) := by
  unfold process
  cases hnonce : frameNonce frame with
  | error e =>
    rw [bind_of_error (check_apply (.error e))]
    exact .refused e
  | ok reqNonce =>
    rw [bind_of_ok (check_apply (.ok reqNonce))]
    cases hopen : openRequest c secret channelId reqId frame with
    | error e =>
      rw [bind_of_error (check_apply (.error e))]
      exact .refused e
    | ok body =>
      rw [bind_of_ok (check_apply (.ok body))]
      cases hreplay : s.replay.checkAndRecord reqNonce with
      | error e =>
        have hrecord : recordNonce reqNonce s = (.error e, s) := by rw [recordNonce, hreplay]
        rw [bind_of_error hrecord]
        exact .refused e
      | ok replay =>
        have hrecord : recordNonce reqNonce s = (.ok (), { s with replay }) := by rw [recordNonce, hreplay]
        rw [bind_of_ok hrecord]
        cases hop : w.opFromBytes body with
        | error e =>
          rw [bind_of_error (check_apply (.error e))]
          exact .garbled e body replay hopen hop
        | ok op =>
          have hexecute : execute handler reqId frame op { s with replay } =
              (.ok (handler s.handlerState op).1, afterExecution handler s replay reqId frame op) := rfl
          rw [bind_of_ok (check_apply (.ok op)), bind_of_ok hexecute]
          cases hresp : w.responseToBytes (handler s.handlerState op).1 with
          | error e =>
            rw [bind_of_error (check_apply (.error e))]
            exact .unanswered e reqNonce body replay op hnonce hopen hreplay hop
          | ok respBody =>
            rw [bind_of_ok (check_apply (.ok respBody))]
            exact .answered reqNonce body replay op respBody hnonce hopen hreplay hop hresp

end Process

/-! ### The guard remembers the last executions -/

section Guard

variable {σ : Type} {handler : σ → Op → Response × σ} {s : State σ} {k : ℕ} {replay : ReplayGuard} {op : Op}

/-- The nonces of the frames whose operation was executed. -/
def executedNonces (s : State σ) : List Bytes := s.executions.map fun x => x.frame.take NONCE_LEN

/-- The guard holds the nonces of the last `k` executions, and no two of them are equal. -/
structure Guarded (k : ℕ) (s : State σ) : Prop where
  capacity : s.replay.capacity = k
  order : s.replay.order.map List.Vector.toList = recent k (executedNonces s)
  seen : s.replay.seen = s.replay.order.toFinset
  apart : Apart k (executedNonces s)

lemma toList_injective : Function.Injective (List.Vector.toList : Nonce → Bytes) :=
  fun _ _ h => List.Vector.eq _ _ h

lemma Guarded.of_eq {t : State σ} (h : Guarded k s) (hreplay : t.replay = s.replay)
    (hexecutions : t.executions = s.executions) : Guarded k t := by
  have hnonces : executedNonces t = executedNonces s := by rw [executedNonces, hexecutions, executedNonces]
  constructor
  · rw [hreplay, h.capacity]
  · rw [hreplay, h.order, hnonces]
  · rw [hreplay, h.seen]
  · rw [hnonces]
    exact h.apart

lemma evict_order (guard : ReplayGuard) :
    guard.evict.order = if guard.capacity ≤ guard.order.length then guard.order.tail else guard.order := by
  unfold ReplayGuard.evict
  by_cases hfull : guard.order.length ≥ guard.capacity
  · rw [if_pos hfull, if_pos hfull]
    cases horder : guard.order with
    | nil => exact horder
    | cons evicted order => rfl
  · rw [if_neg hfull, if_neg hfull]

lemma evict_seen {guard : ReplayGuard} (hseen : guard.seen = guard.order.toFinset)
    (hnodup : guard.order.Nodup) : guard.evict.seen = guard.evict.order.toFinset := by
  unfold ReplayGuard.evict
  split_ifs
  · cases horder : guard.order with
    | nil =>
      rw [horder] at hseen
      simp [hseen, horder]
    | cons evicted order =>
      rw [horder] at hseen hnodup
      have hfresh : evicted ∉ order.toFinset := by
        rw [List.mem_toFinset]
        exact (List.nodup_cons.mp hnodup).1
      simp only [hseen, List.toFinset_cons, Finset.erase_insert hfresh]
  · exact hseen

lemma evict_capacity (guard : ReplayGuard) : guard.evict.capacity = guard.capacity := by
  unfold ReplayGuard.evict
  split_ifs
  · cases guard.order <;> rfl
  · rfl

lemma checkAndRecord_ok {guard : ReplayGuard} (h : guard.checkAndRecord nonce = .ok replay) :
    nonce ∉ guard.seen ∧ replay.capacity = guard.capacity ∧ replay.order = guard.evict.order ++ [nonce] ∧
      replay.seen = insert nonce guard.evict.seen := by
  unfold ReplayGuard.checkAndRecord at h
  split_ifs at h with hseen
  cases h
  exact ⟨hseen, evict_capacity guard, rfl, rfl⟩

lemma executedNonces_afterExecution (handler : σ → Op → Response × σ) (s : State σ) (replay : ReplayGuard)
    (reqId : String) (op : Op) (hnonce : frameNonce frame = .ok nonce) :
    executedNonces (afterExecution handler s replay reqId frame op) = executedNonces s ++ [nonce.toList] := by
  rw [← take_of_frameNonce hnonce]
  simp [executedNonces, afterExecution, execute]

lemma Guarded.afterExecution (h : Guarded k s) (hk : 0 < k) (handler : σ → Op → Response × σ) (reqId : String)
    (op : Op) (hnonce : frameNonce frame = .ok nonce)
    (hreplay : s.replay.checkAndRecord nonce = .ok replay) :
    Guarded k (afterExecution handler s replay reqId frame op) := by
  obtain ⟨hfresh, hcapacity, horder, hseen⟩ := checkAndRecord_ok hreplay
  have hnodup : s.replay.order.Nodup := by
    apply List.Nodup.of_map List.Vector.toList
    rw [h.order]
    exact recent_nodup h.apart
  have hlength : (recent k (executedNonces s)).length = s.replay.order.length := by
    rw [← h.order, List.length_map]
  constructor
  · exact hcapacity.trans h.capacity
  · rw [executedNonces_afterExecution handler s replay reqId op hnonce, recent_concat hk, hlength, ← h.order,
      ← h.capacity]
    change replay.order.map List.Vector.toList = _
    rw [horder, List.map_append, evict_order]
    split_ifs <;> simp
  · change replay.seen = replay.order.toFinset
    rw [horder, hseen, evict_seen h.seen hnodup]
    ext m
    simp
  · rw [executedNonces_afterExecution handler s replay reqId op hnonce]
    apply apart_concat h.apart
    rw [← h.order, List.mem_map_of_injective toList_injective]
    rwa [h.seen, List.mem_toFinset] at hfresh

end Guard

/-! ### What was sealed, run and accepted -/

section Sound

variable {σ : Type} {handler : σ → Op → Response × σ} {s t : State σ} {k : ℕ} {replay : ReplayGuard} {op : Op}

def IsRequestSeal (w : Wire) (channelId : String) (s : State σ) (sealed : Seal) : Prop :=
  ∃ r ∈ s.requests, sealed.call.aad = requestAad channelId r.reqId ∧ w.opToBytes r.op = .ok sealed.call.message

def IsResponseSeal (w : Wire) (channelId : String) (s : State σ) (sealed : Seal) : Prop :=
  ∃ x ∈ s.executions, ∃ reqNonce, sealed.call.aad = responseAad channelId x.reqId reqNonce ∧
    w.responseToBytes x.response = .ok sealed.call.message

structure Sound (w : Wire) (channelId : String) (s : State σ) : Prop where
  seals : ∀ sealed ∈ s.seals, IsRequestSeal w channelId s sealed ∨ IsResponseSeal w channelId s sealed
  executed : ∀ x ∈ s.executions, ∃ r ∈ s.requests, r.reqId = x.reqId ∧ r.op = x.op
  unique : ∀ r ∈ s.requests, ∀ r' ∈ s.requests, r.reqId = r'.reqId → r = r'
  waiting : ∀ r ∈ s.waiting, r ∈ s.requests
  returned : ∀ a ∈ s.returned, ∀ response, a.2 = .ok response →
    ∃ x ∈ s.executions, x.reqId = a.1.reqId ∧ x.op = a.1.op ∧ x.response = response

section

variable (h : Sound w channelId s)

include h

lemma Sound.request_of_open
    (hunforged : FrameUnforged c s (deriveKey c secret REQUEST_KEY_INFO) (requestAad channelId reqId) frame)
    (hopen : openRequest c secret channelId reqId frame = .ok body) :
    ∃ r ∈ s.requests, r.reqId = reqId ∧ w.opFromBytes body = .ok r.op := by
  obtain ⟨nonce, -, hmade⟩ := hunforged.sealed hopen
  cases h.seals _ hmade with
  | inl hrequest =>
    obtain ⟨r, hr, haad, hop⟩ := hrequest
    exact ⟨r, hr, (requestAad_inj haad).symm, w.op_round_trip _ _ hop⟩
  | inr hresponse =>
    obtain ⟨x, -, reqNonce, haad, -⟩ := hresponse
    exact absurd haad requestAad_ne_responseAad

lemma Sound.answer_of_open {r : Request} (hr : r ∈ s.requests) {response : Response}
    (hunforged : FrameUnforged c s (deriveKey c secret RESPONSE_KEY_INFO)
      (responseAad channelId r.reqId r.reqNonce) frame)
    (hopen : openResponse c secret channelId r.reqId r.reqNonce frame = .ok body)
    (hresponse : w.responseFromBytes body = .ok response) :
    ∃ x ∈ s.executions, x.reqId = r.reqId ∧ x.op = r.op ∧ x.response = response := by
  obtain ⟨nonce, -, hmade⟩ := hunforged.sealed hopen
  cases h.seals _ hmade with
  | inl hrequest =>
    obtain ⟨r', -, haad, -⟩ := hrequest
    exact absurd haad.symm requestAad_ne_responseAad
  | inr hanswer =>
    obtain ⟨x, hx, reqNonce, haad, hbody⟩ := hanswer
    have hid : x.reqId = r.reqId := (responseAad_inj haad).1.symm
    obtain ⟨r', hr', hid', hop⟩ := h.executed x hx
    rw [h.unique r' hr' r hr (hid'.trans hid)] at hop
    rw [w.response_round_trip _ _ hbody, Except.ok.injEq] at hresponse
    exact ⟨x, hx, hid, hop.symm, hresponse⟩

lemma Sound.send (op : Op) (nonce : Nonce) (ioError : Option String)
    (hfresh : ∀ r ∈ s.requests, r.reqId ≠ reqId) :
    Sound w channelId (send c w secret channelId s op reqId nonce ioError) := by
  unfold Channel.send
  cases hbody : w.opToBytes op with
  | error e => exact h
  | ok body =>
    have hseals : ∀ sealed ∈ s.seals ++
        [⟨deriveKey c secret REQUEST_KEY_INFO, ⟨nonce, requestAad channelId reqId, body⟩⟩],
        (∃ r ∈ s.requests ++ [⟨reqId, nonce, op⟩], sealed.call.aad = requestAad channelId r.reqId ∧
          w.opToBytes r.op = .ok sealed.call.message) ∨ IsResponseSeal w channelId s sealed := by
      intro sealed hsealed
      rw [List.mem_append, List.mem_singleton] at hsealed
      rcases hsealed with hsealed | rfl
      · refine (h.seals sealed hsealed).imp_left ?_
        rintro ⟨r, hr, hsealed⟩
        exact ⟨r, List.mem_append_left _ hr, hsealed⟩
      · exact .inl ⟨_, List.mem_append_right _ List.mem_cons_self, rfl, hbody⟩
    have hunique : ∀ r ∈ s.requests ++ [⟨reqId, nonce, op⟩], ∀ r' ∈ s.requests ++ [⟨reqId, nonce, op⟩],
        r.reqId = r'.reqId → r = r' := by
      intro r hr r' hr' hid
      rw [List.mem_append, List.mem_singleton] at hr hr'
      rcases hr with hr | rfl <;> rcases hr' with hr' | rfl
      · exact h.unique r hr r' hr' hid
      · exact absurd hid (hfresh r hr)
      · exact absurd hid.symm (hfresh r' hr')
      · rfl
    have hexecuted : ∀ x ∈ s.executions, ∃ r ∈ s.requests ++ [⟨reqId, nonce, op⟩], r.reqId = x.reqId ∧
        r.op = x.op := by
      intro x hx
      obtain ⟨r, hr, hx⟩ := h.executed x hx
      exact ⟨r, List.mem_append_left _ hr, hx⟩
    cases ioError with
    | some e =>
      exact ⟨hseals, hexecuted, hunique, fun r hr => List.mem_append_left _ (h.waiting r hr), h.returned⟩
    | none =>
      refine ⟨hseals, hexecuted, hunique, fun r hr => ?_, h.returned⟩
      rw [List.mem_append] at hr
      exact List.mem_append.mpr (hr.imp_left (h.waiting r))

lemma Sound.finish {r : Request} {result : Except ChannelError Response}
    (hresult : ∀ response, result = .ok response →
      ∃ x ∈ s.executions, x.reqId = r.reqId ∧ x.op = r.op ∧ x.response = response) :
    Sound w channelId (s.finish r result) := by
  refine ⟨h.seals, h.executed, h.unique, fun r' hr' => h.waiting r' (List.mem_of_mem_erase hr'), ?_⟩
  intro a ha response hresponse
  rw [State.finish, List.mem_append, List.mem_singleton] at ha
  rcases ha with ha | rfl
  · exact h.returned a ha response hresponse
  · exact hresult response hresponse

lemma Sound.cleanup (reqId : String) : Sound w channelId (s.cleanup reqId) :=
  ⟨h.seals, h.executed, h.unique, h.waiting, h.returned⟩

lemma Sound.afterExecution (handler : σ → Op → Response × σ) (replay : ReplayGuard)
    (frame : Bytes) (hr : ∃ r ∈ s.requests, r.reqId = reqId ∧ r.op = op) :
    Sound w channelId (afterExecution handler s replay reqId frame op) := by
  have hmem {x : Execution} (hx : x ∈ s.executions) :
      x ∈ (Proofs.afterExecution handler s replay reqId frame op).executions := List.mem_append_left _ hx
  refine ⟨fun sealed hsealed => ?_, fun x hx => ?_, h.unique, h.waiting, fun a ha response hresponse => ?_⟩
  · refine (h.seals sealed hsealed).imp_right ?_
    rintro ⟨x, hx, hsealed⟩
    exact ⟨x, hmem hx, hsealed⟩
  · obtain hx | hx := List.mem_append.mp hx
    · exact h.executed x hx
    · rw [List.mem_singleton] at hx
      rw [hx]
      exact hr
  · obtain ⟨x, hx, hanswer⟩ := h.returned a ha response hresponse
    exact ⟨x, hmem hx, hanswer⟩

lemma Sound.logSeal {x : Execution} (hx : x ∈ s.executions) {respBody : Bytes}
    (hbody : w.responseToBytes x.response = .ok respBody) (key : Dek) (nonce reqNonce : Nonce) :
    Sound w channelId (s.logSeal key nonce (responseAad channelId x.reqId reqNonce) respBody) := by
  refine ⟨fun sealed hsealed => ?_, h.executed, h.unique, h.waiting, h.returned⟩
  obtain hsealed | hsealed := List.mem_append.mp hsealed
  · exact h.seals sealed hsealed
  · rw [List.mem_singleton] at hsealed
    rw [hsealed]
    exact .inr ⟨x, hx, reqNonce, rfl, hbody⟩

end

structure ChannelInvariant (w : Wire) (channelId : String) (k : ℕ) (s : State σ) : Prop where
  sound : Sound w channelId s
  guarded : Guarded k s

lemma ChannelInvariant.processed (h : ChannelInvariant w channelId k s) (hk : 0 < k)
    (hunforged : FrameUnforged c s (deriveKey c secret REQUEST_KEY_INFO) (requestAad channelId reqId) frame)
    {result : Except ChannelError Bytes × State σ}
    (hprocessed : Processed c w secret channelId handler s reqId frame nonce result) :
    ChannelInvariant w channelId k result.2 := by
  cases hprocessed with
  | refused e => exact h
  | garbled e body replay hopen hop =>
    obtain ⟨r, -, -, hr⟩ := h.sound.request_of_open hunforged hopen
    rw [hop] at hr
    cases hr
  | unanswered e reqNonce body replay op hnonce hopen hreplay hop =>
    obtain ⟨r, hr, hid, hrop⟩ := h.sound.request_of_open hunforged hopen
    rw [hop, Except.ok.injEq] at hrop
    exact ⟨h.sound.afterExecution handler replay frame ⟨r, hr, hid, hrop.symm⟩,
      h.guarded.afterExecution hk handler reqId op hnonce hreplay⟩
  | answered reqNonce body replay op respBody hnonce hopen hreplay hop hresp =>
    obtain ⟨r, hr, hid, hrop⟩ := h.sound.request_of_open hunforged hopen
    rw [hop, Except.ok.injEq] at hrop
    have hsound := h.sound.afterExecution handler replay frame ⟨r, hr, hid, hrop.symm⟩
    have hguarded := h.guarded.afterExecution hk handler reqId op hnonce hreplay
    constructor
    · exact hsound.logSeal (List.mem_append_right _ List.mem_cons_self) hresp _ nonce reqNonce
    · exact hguarded.of_eq rfl rfl

/-! ### Runs -/

/-- The assumptions on one step: a request id that is drawn is new, and a frame that is opened was
not forged. -/
def AssumedAt (c : ChannelCrypto) (secret : ChannelSecret) (channelId : String) (s : State σ) : Event → Prop
  | .send _ reqId _ _ => ∀ r ∈ s.requests, r.reqId ≠ reqId
  | .checkResponse r _ => ∀ frame, s.folder.lookup (respPath r.reqId) = some frame →
    FrameUnforged c s (deriveKey c secret RESPONSE_KEY_INFO) (responseAad channelId r.reqId r.reqNonce) frame
  | .serve _ _ => ∀ path paths frame, s.phase = .polling (path :: paths) → s.folder.lookup path = some frame →
    FrameUnforged c s (deriveKey c secret REQUEST_KEY_INFO) (requestAad channelId (fileStem path)) frame
  | _ => True

lemma Sound.checkResponse (h : Sound w channelId s) {r : Request} (hr : r ∈ s.waiting) (ioError : Option String)
    (hassumed : AssumedAt c secret channelId s (.checkResponse r ioError)) :
    Sound w channelId (checkResponse c w secret channelId s r ioError) := by
  unfold Channel.checkResponse
  cases ioError with
  | some e => exact h.finish nofun
  | none =>
    simp only
    cases hframe : s.folder.lookup (respPath r.reqId) with
    | none => exact h
    | some frame =>
      simp only
      cases hopen : openResponse c secret channelId r.reqId r.reqNonce frame with
      | error e => exact h
      | ok body =>
        simp only
        cases hresponse : w.responseFromBytes body with
        | error e => exact h.finish nofun
        | ok response =>
          apply (h.cleanup r.reqId).finish
          intro response' heq
          cases heq
          exact h.answer_of_open (h.waiting r hr) (hassumed frame hframe) hopen hresponse

lemma ChannelInvariant.congr (h : ChannelInvariant w channelId k s) (folder : Folder) (phase : ClientPhase) :
    ChannelInvariant w channelId k { s with folder, phase } :=
  ⟨⟨h.sound.seals, h.sound.executed, h.sound.unique, h.sound.waiting, h.sound.returned⟩,
    h.guarded.of_eq rfl rfl⟩

lemma ChannelInvariant.serve (h : ChannelInvariant w channelId k s) (hk : 0 < k) {path : String}
    {paths : List String} (readable : Bool)
    (hunforged : ∀ frame, s.folder.lookup path = some frame →
      FrameUnforged c s (deriveKey c secret REQUEST_KEY_INFO) (requestAad channelId (fileStem path)) frame) :
    ChannelInvariant w channelId k (serve c w secret channelId handler s path paths nonce readable) := by
  unfold Channel.serve
  cases hread : (if readable then s.folder.lookup path else none) with
  | none => exact h.congr s.folder (.polling paths)
  | some frame =>
    have hframe : s.folder.lookup path = some frame := by
      split_ifs at hread
      exact hread
    have hresult := h.processed hk (hunforged frame hframe)
      (process_processed handler (fileStem path) frame nonce s)
    simp only
    split
    · rename_i heq
      rw [heq] at hresult
      exact hresult.congr _ _
    · rename_i heq
      rw [heq] at hresult
      exact hresult.congr _ _

lemma send_frame (s : State σ) (op : Op) (reqId : String) (nonce : Nonce) (ioError : Option String) :
    (send c w secret channelId s op reqId nonce ioError).replay = s.replay ∧
      (send c w secret channelId s op reqId nonce ioError).executions = s.executions := by
  unfold Channel.send
  cases w.opToBytes op with
  | error e => exact ⟨rfl, rfl⟩
  | ok body => cases ioError <;> exact ⟨rfl, rfl⟩

lemma checkResponse_frame (s : State σ) (r : Request) (ioError : Option String) :
    (checkResponse c w secret channelId s r ioError).replay = s.replay ∧
      (checkResponse c w secret channelId s r ioError).executions = s.executions := by
  unfold Channel.checkResponse
  cases ioError with
  | some e => exact ⟨rfl, rfl⟩
  | none =>
    simp only
    cases s.folder.lookup (respPath r.reqId) with
    | none => exact ⟨rfl, rfl⟩
    | some frame =>
      simp only
      cases openResponse c secret channelId r.reqId r.reqNonce frame with
      | error e => exact ⟨rfl, rfl⟩
      | ok body =>
        simp only
        cases w.responseFromBytes body <;> exact ⟨rfl, rfl⟩

lemma ChannelInvariant.step (h : ChannelInvariant w channelId k s) (hk : 0 < k) {e : Event}
    (hassumed : AssumedAt c secret channelId s e) (hstep : step c w secret channelId handler s e = some t) :
    ChannelInvariant w channelId k t := by
  cases e with
  | tamper folder =>
    cases hstep
    exact h.congr folder s.phase
  | send op reqId nonce ioError =>
    cases hstep
    obtain ⟨hreplay, hexecutions⟩ := send_frame (c := c) (w := w) s op reqId nonce ioError
    exact ⟨h.sound.send op nonce ioError hassumed, h.guarded.of_eq hreplay hexecutions⟩
  | checkResponse r ioError =>
    simp only [Channel.step] at hstep
    split_ifs at hstep with hr
    cases hstep
    obtain ⟨hreplay, hexecutions⟩ := checkResponse_frame (c := c) (w := w) s r ioError
    exact ⟨h.sound.checkResponse hr ioError hassumed, h.guarded.of_eq hreplay hexecutions⟩
  | timeOut r =>
    simp only [Channel.step] at hstep
    split_ifs at hstep
    cases hstep
    exact ⟨(h.sound.cleanup r.reqId).finish nofun, h.guarded.of_eq rfl rfl⟩
  | scan =>
    simp only [Channel.step] at hstep
    split at hstep
    · cases hstep
      exact h.congr s.folder _
    · cases hstep
  | serve nonce readable =>
    simp only [Channel.step] at hstep
    split at hstep
    · rename_i path paths hphase
      cases hstep
      exact h.serve hk readable fun frame hframe => hassumed path paths frame hphase hframe
    · cases hstep
      exact h.congr s.folder _
    · cases hstep
  | writeResponse | removeRequest =>
    simp only [Channel.step] at hstep
    split at hstep
    · cases hstep
      exact h.congr _ _
    · cases hstep

lemma channelInvariant_initial (folder : Folder) (capacity : ℕ) (handlerState : σ) :
    ChannelInvariant w channelId (max capacity 1) (initial folder capacity handlerState) where
  sound := ⟨nofun, nofun, nofun, nofun, nofun⟩
  guarded := ⟨rfl, by simp [initial, ReplayGuard.new, executedNonces, recent], rfl, apart_nil⟩

/-- For every run, over any folder that anyone may change at any time: the handler runs only the
operation of a request that a client sealed under the same id; a response that a client accepts
is the handler's answer to the operation of its request; and between two runs of the same frame
at least as many others run as the guard remembers. -/
theorem channel_answers_its_request (c : ChannelCrypto) (w : Wire) (secret : ChannelSecret) (channelId : String)
    (handler : σ → Op → Response × σ) (folder : Folder) (capacity : ℕ) (handlerState : σ) (events : List Event)
    (t : State σ)
    (hrun : Automaton.run (step c w secret channelId handler) (initial folder capacity handlerState) events =
    some t) (hassumed : Automaton.Throughout (step c w secret channelId handler) (AssumedAt c secret channelId)
      (initial folder capacity handlerState) events) :
    (∀ x ∈ t.executions, ∃ r ∈ t.requests, r.reqId = x.reqId ∧ r.op = x.op) ∧
      (∀ r response, (r, .ok response) ∈ t.returned →
        ∃ x ∈ t.executions, x.reqId = r.reqId ∧ x.op = r.op ∧ x.response = response) ∧
      ∀ i j x y, i < j → t.executions[i]? = some x → t.executions[j]? = some y → x.frame = y.frame →
        capacity ≤ ((t.executions.take j).drop (i + 1)).countP fun z => z.frame ≠ x.frame := by
  have hinv : ChannelInvariant w channelId (max capacity 1) t :=
    Automaton.invariant_throughout _ (channelInvariant_initial folder capacity handlerState)
      (fun u e v hassumed hu hstep => hu.step (by simp) hassumed hstep) hassumed hrun
  refine ⟨hinv.sound.executed, fun r response hr => hinv.sound.returned _ hr response rfl, ?_⟩
  intro i j x y hij hi hj hframe
  have hcount := count_between hinv.guarded.apart hij hi hj (by rw [hframe])
  calc capacity ≤ max capacity 1 := le_max_left _ _
    _ ≤ _ := hcount
    _ ≤ _ := by
      apply List.countP_mono_left
      intro z _ hz
      simp only [decide_eq_true_eq] at hz ⊢
      exact fun heq => hz (by rw [heq])

/-- In every run the guard refuses exactly the nonces of the last executions, as many as it has room
for, and keeps no others. -/
theorem replay_guard_is_window {folder : Folder} {capacity : ℕ} {handlerState : σ} {events : List Event}
    (hrun : Automaton.run (step c w secret channelId handler) (initial folder capacity handlerState) events =
    some t) (hassumed : Automaton.Throughout (step c w secret channelId handler) (AssumedAt c secret channelId)
      (initial folder capacity handlerState) events) :
    (∀ nonce, t.replay.checkAndRecord nonce = .error .replay ↔
        nonce.toList ∈ recent (max capacity 1) (executedNonces t)) ∧
      t.replay.seen = t.replay.order.toFinset ∧ t.replay.order.length ≤ max capacity 1 := by
  obtain ⟨-, -, horder, hseen, -⟩ : ChannelInvariant w channelId (max capacity 1) t :=
    Automaton.invariant_throughout _ (channelInvariant_initial folder capacity handlerState)
      (fun u e v hassumed hu hstep => hu.step (by simp) hassumed hstep) hassumed hrun
  refine ⟨fun nonce => ?_, hseen, ?_⟩
  · rw [← horder, List.mem_map_of_injective toList_injective, ← List.mem_toFinset, ← hseen,
      ReplayGuard.checkAndRecord]
    split_ifs with hmem <;> simp [hmem]
  · rw [← List.length_map List.Vector.toList, horder, length_recent]
    exact min_le_left _ _

end Sound

/-! ### One request and its answer -/

section Sample

def plainCrypto : ChannelCrypto where
  aeadSeal _ _ body _ := body
  aeadOpen _ _ ciphertext _ := some ciphertext
  open_seal _ _ _ _ := rfl
  hkdfSha256 _ _ _ := List.Vector.replicate 32 0

def oneOpWire : Wire where
  opToBytes op := if op = .list then .ok [] else .error (.serialization "op")
  opFromBytes _ := .ok .list
  responseToBytes response := if response = .ok (.list []) then .ok [] else .error (.serialization "response")
  responseFromBytes _ := .ok (.ok (.list []))
  op_round_trip := by
    intro op bytes h
    split_ifs at h with hop
    rw [hop]
  response_round_trip := by
    intro response bytes h
    split_ifs at h with hresponse
    rw [hresponse]

def listHandler (_ : Unit) (_ : Op) : Response × Unit := (.ok (.list []), ())

def sampleSecret : ChannelSecret := List.Vector.replicate 32 7

def sampleRequest : Request := ⟨"r", List.Vector.replicate 12 1, .list⟩

def sampleExchange : List Event :=
  [.send .list "r" (List.Vector.replicate 12 1) none, .scan, .serve (List.Vector.replicate 12 2) true,
    .writeResponse true, .removeRequest true, .checkResponse sampleRequest none]

lemma frameNonce_append (nonce : Nonce) (rest : Bytes) : frameNonce (nonce.toList ++ rest) = .ok nonce := by
  have hlong : ¬ (nonce.toList ++ rest).length < NONCE_LEN := by simp [NONCE_LEN]
  rw [frameNonce, dif_neg hlong]
  congr 1
  apply List.Vector.eq
  exact List.take_left' (List.Vector.toList_length nonce)

lemma plainCrypto_unforged {s : State Unit} {key : Dek} {nonce : Nonce} {aad body : Bytes}
    (h : (⟨key, ⟨nonce, aad, body⟩⟩ : Seal) ∈ s.seals) :
    FrameUnforged plainCrypto s key aad (nonce.toList ++ body) := by
  intro nonce' hnonce message hopen
  rw [frameNonce_append, Except.ok.injEq] at hnonce
  subst hnonce
  have hdrop : (nonce.toList ++ body).drop NONCE_LEN = body := List.drop_left' (List.Vector.toList_length nonce)
  rw [hdrop]
  exact ⟨_, h, rfl, rfl, rfl⟩

lemma sampleEvents_assumed :
    Automaton.Throughout (step plainCrypto oneOpWire sampleSecret "ch" listHandler)
      (AssumedAt plainCrypto sampleSecret "ch") (initial [] 1 ()) sampleExchange := by
  refine ⟨nofun, fun s hs => ?_⟩
  cases hs
  refine ⟨trivial, fun s hs => ?_⟩
  cases hs
  refine ⟨?_, fun s hs => ?_⟩
  · intro path paths frame hphase hframe
    cases hphase
    cases hframe
    exact plainCrypto_unforged List.mem_cons_self
  cases hs
  refine ⟨trivial, fun s hs => ?_⟩
  cases hs
  refine ⟨trivial, fun s hs => ?_⟩
  cases hs
  refine ⟨?_, fun _ _ => trivial⟩
  intro frame hframe
  cases hframe
  exact plainCrypto_unforged (List.mem_cons_of_mem _ List.mem_cons_self)

theorem channel_answers_its_request_once :
    ∃ t, Automaton.run (step plainCrypto oneOpWire sampleSecret "ch" listHandler)
      (initial [] 1 ()) sampleExchange =
        some t ∧ ∃ x ∈ t.executions, x.reqId = "r" ∧ x.op = .list ∧ x.response = .ok (.list []) := by
  refine ⟨_, rfl, ?_⟩
  exact (channel_answers_its_request plainCrypto oneOpWire sampleSecret "ch" listHandler [] 1
    () sampleExchange _ rfl sampleEvents_assumed).2.1 sampleRequest _ List.mem_cons_self

theorem replay_guard_refuses_sample :
    ∃ t, Automaton.run (step plainCrypto oneOpWire sampleSecret "ch" listHandler)
        (initial [] 1 ()) sampleExchange = some t ∧
      t.replay.checkAndRecord sampleRequest.reqNonce = .error .replay := by
  refine ⟨_, rfl, ?_⟩
  exact ((replay_guard_is_window rfl sampleEvents_assumed).1 _).mpr List.mem_cons_self

end Sample

end SignetDrive.Proofs
