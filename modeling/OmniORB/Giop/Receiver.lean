import OmniORB.Giop.Delivery

/-!
# A call receives its message

From the first buffer of a message on, which a server reads for itself and a client finds among
the messages that arrive: up to the request id, and behind it whatever is read of the body.
-/

namespace OmniORB

open Library M

/-- No call of the list is in use with the request id, nor is it `g`. -/
def Free (g : Ref) (requestId : ℕ) (l : List Ref) (s : Sys) : Prop :=
  ∀ r ∈ l, r ≠ g ∧ ((s.call r).state = .unUsed ∨ (s.call r).requestId ≠ requestId)

/-- The call `g` waits for a message of type `mtype` with the request id: a server for a request,
where no other one works on a request with this id, and a client for the reply. -/
inductive Awaits (mtype : MsgType) (requestId : ℕ) (s : Sys) : Ref → Prop
  | server {i : ℕ} {before after : List Ref} (htype : mtype = .request ∨ mtype = .locateRequest)
      (hclients : Free (.server i) requestId s.clients s)
      (hservers : s.servers = before ++ .server i :: after)
      (hbefore : Free (.server i) requestId before s)
      (hused : (s.call (.server i)).state ≠ .unUsed) : Awaits mtype requestId s (.server i)
  | client {i : ℕ} (htype : mtype = .reply ∨ mtype = .locateReply)
      (haccepts : acceptsReplies s.strand = true)
      (hclients : s.findInUse s.clients requestId = some (.client i))
      (hunmatched : (s.call (.client i)).inputMatchedId = false) :
      Awaits mtype requestId s (.client i)

/-- Nothing has been read by the call `g`. -/
structure Fresh (g : Ref) (s : Sys) : Prop where
  input : (s.call g).input = []
  unused : (s.call g).currentInputBuffer = none
  partially : (s.call g).inputFullyBuffered = false

/-- Read from the message that the call waits for, behind the request id. -/
def M.receive (env : Env) (mtype : MsgType) (rs : List ReadOp) : Ref → M (List UInt8)
  | .server i => do
    inputMessageBegin env (.server i)
    reads env (.server i) rs
  | .client i => inputReplyBegin env (.client i) mtype rs

/-- The limit on the size of a message is why receiving may fail, with `n` the size of the whole. -/
def LimitReached (env : Env) (n : ℕ) (e : Exn) : Prop :=
  (e = .marshalMessageSizeExceedLimit ∨ e = .marshalMessageSizeExceedLimitOnServer ∨
    e = .marshalMessageSizeExceedLimitOnClient) ∧ env.cfg.giopMaxMsgSize < n

lemma LimitExceeded.reached {env : Env} {n : ℕ} {e : Exn} (h : LimitExceeded env n e) :
    LimitReached env n e := ⟨.inl h.1, h.2⟩

section

variable {env : Env} {g : Ref} {mtype : MsgType} {requestId : ℕ} {rest ms : List Message}
variable {m : Message} {b : Buffer} {more : Bool} {p o full : List UInt8} {s : Sys}

/-! ### The first buffer -/

/-- The stream is behind the request id in the first buffer of a message. -/
structure FirstBuffer (env : Env) (b : Buffer) (c : Call) : Prop where
  current : c.currentInputBuffer = some b
  input : c.input = []
  inbMkr : c.inbMkr = 16
  inbEnd : c.inbEnd = b.dataSize
  byteSwap : c.unmarshalByteSwap = env.byteSwap b
  expect : c.inputExpectAnotherFragment = env.moreFragments b
  size : c.inputMessageSize = b.size
  toCome : c.inputFragmentToCome = b.size - b.dataSize

/-- The parts of a message that is in fragments. -/
structure Parts (mtype : MsgType) (requestId : ℕ) (rest : List Message) (m : Message)
    (ms : List Message) (more : Bool) (p o full : List UInt8) : Prop where
  octets : m.octets = fragment mtype requestId true more (ulongOctets requestId ++ p)
  dvd : more = true → 8 ∣ 16 + p.length
  bodies : Bodies requestId rest more o ms
  full : full = ulongOctets requestId ++ p ++ o

lemma Parts.length_eq (h : Parts mtype requestId rest m ms more p o full) :
    m.length = 16 + p.length := by
  have hlen : (ulongOctets requestId ++ p).length = 4 + p.length := List.length_append
  rw [Message.length, h.octets, length_fragment, hlen]
  change 12 + (4 + p.length) = _
  omega

lemma Parts.header (h : Parts mtype requestId rest m ms more p o full) :
    m.octets = messageHeader mtype more (4 + p.length) ++ (ulongOctets requestId ++ p) := by
  have hlen : (ulongOctets requestId ++ p).length = 4 + p.length := List.length_append
  rw [h.octets, fragment, hlen]
  rfl

/-- The first buffer holds all of the header with the request id. -/
lemma Parts.le_dataSize {st : Strand} (h : Parts mtype requestId rest m ms more p o full)
    (hb : Strand.Delivered env.cfg b st m ms)
    (hcut : b.dataSize < m.length → b.dataSize = env.cfg.bufferSize) : 16 ≤ b.dataSize := by
  have hlen := h.length_eq
  have hbufsz := env.cfg.lt_bufferSize
  have hle := hb.le
  by_cases hless : b.dataSize < m.length
  · have := hcut hless
    omega
  · omega

/-- The body of a message is not longer than what is to come with it. -/
lemma Bodies.length_le {e : Bool} (h : Bodies requestId rest e o ms) :
    o.length + ms.length ≤ (messageOctets ms).length := by
  induction h with
  | nil =>
    rw [List.length_nil, Nat.zero_add]
    induction rest with
    | nil => exact Nat.le_refl 0
    | cons m rest ih =>
      have hm := m.le_length
      rw [Message.length] at hm
      rw [messageOctets_cons, List.length_append, List.length_cons]
      omega
  | @cons m ms more p o hm hdvd hbodies ih =>
    have hlen : m.octets.length = 16 + p.length := by
      rw [hm, length_fragment]
      rfl
    rw [messageOctets_cons, List.length_append, List.length_append, List.length_cons, hlen]
    omega

lemma hasRead_of_first (h : Parts mtype requestId rest m ms more p o full)
    (hb : Strand.Delivered env.cfg b s.strand m ms)
    (hcut : b.dataSize < m.length → b.dataSize = env.cfg.bufferSize)
    (hfuel : (messageOctets (m :: ms)).length ≤ env.fuel)
    (hcall : FirstBuffer env b (s.call g)) (hfinds : s.Finds g requestId) :
    HasRead env g requestId rest full (ulongOctets requestId) s := by
  have hbufsz := env.cfg.dvd_bufferSize
  have h16 := h.le_dataSize hb hcut
  have hlen := h.length_eq
  have hle := hb.le
  have hbsize := hb.size
  have hmlen : m.octets.length = m.length := rfl
  obtain ⟨hdata, hpart⟩ := hb.holdsPart
  obtain ⟨-, -, h6, -, -⟩ := octet_of_header env h.header hdata h16
  have hmore : env.moreFragments b = more := by
    rw [Env.moreFragments, h6]
    cases more <;> rfl
  have hswap : env.byteSwap b = false := by
    rw [Env.byteSwap, h6]
    cases more <;> rfl
  have hoctets : m.octets = (messageHeader mtype more (4 + p.length) ++ ulongOctets requestId) ++ p := by
    rw [h.header, List.append_assoc]
  have hheader : (messageHeader mtype more (4 + p.length) ++ ulongOctets requestId).length = 16 :=
    rfl
  have hdrop : m.octets.drop b.dataSize = p.drop (b.dataSize - 16) := by
    rw [hoctets, List.drop_append, List.drop_eq_nil_iff.mpr (by rw [hheader]; exact h16), hheader,
      List.nil_append]
  rw [hdrop] at hpart
  have htlen : (p.take (b.dataSize - 16)).length = b.dataSize - 16 := by
    rw [List.length_take]
    omega
  have hxlen : (p.drop (b.dataSize - 16)).length = b.size - b.dataSize := by
    rw [List.length_drop]
    omega
  have hwhole : p.drop (b.dataSize - 16) ≠ [] → b.dataSize = env.cfg.bufferSize := by
    intro hne
    have hpos := List.length_pos_iff.mpr hne
    exact hcut (by omega)
  have hbuffer : (s.call g).buffer = b := by
    rw [Call.buffer, hcall.current]
    rfl
  have hidlen : (ulongOctets requestId).length = 4 := rfl
  refine ⟨p ++ o, ?_, p.take (b.dataSize - 16), p.drop (b.dataSize - 16), o, ms, ?_, ?_, ?_⟩
  · rw [h.full, List.append_assoc]
  · rw [List.take_append_drop]
  · have hbodies := h.bodies.length_le
    rw [messageOctets_cons, List.length_append] at hfuel
    rw [List.length_append]
    omega
  · constructor
    case marks =>
      rw [hcall.inbMkr, hcall.inbEnd, htlen]
      omega
    case end_lt =>
      have hlt := m.size_lt
      rw [hcall.inbEnd]
      omega
    case data =>
      right
      rw [hcall.inbMkr, hbuffer, hdata, hoctets, List.take_append,
        List.take_of_length_le (by rw [hheader]; exact h16), hheader]
      exact List.drop_left' hheader
    case toCome => rw [hcall.toCome, hxlen]
    case bodies =>
      rw [hcall.expect, hmore]
      exact h.bodies
    case size =>
      rw [hcall.size, hidlen, htlen, hxlen]
      omega
    case mod => rw [hcall.inbMkr, hidlen]
    case chunked =>
      intro hne
      have := hwhole hne
      rw [hidlen, htlen]
      omega
    case fragmented =>
      rw [hcall.expect, hmore]
      intro htrue
      have := h.dvd htrue
      rw [hidlen, htlen, hxlen]
      omega
    case input => exact hcall.input
    case capacity =>
      intro b' hb'
      rw [hcall.current] at hb'
      cases hb'
      exact hb.capacity
    case sameOrder => rw [hcall.byteSwap, hswap]
    case strand => exact hpart
    case finds => exact hfinds

/-- The read lock does not matter. -/
lemma does_lock {β : Type} {k : PUnit → M β} {c : Prop} [Decidable c] {Q : β → Sys → Prop}
    {E : Exn → Sys → Prop} (h : ∀ x, Does { s with rdLocked := x } (k ⟨⟩) Q E) :
    Does s (if c then rdLock g >>= k else k ⟨⟩) Q E := by
  split_ifs
  · refine .bind (Q := fun _ t => t = { s with rdLocked := some g }) ⟨rfl, ?_⟩ ?_
    · rfl
    · rintro - t rfl
      exact h (some g)
  · exact h s.rdLocked

/-! ### Servers -/

/-- A server takes the message off its strand. -/
lemma does_awaitRequest {i fuel : ℕ} (hbuf : env.cfg.bufferSize < env.fuel) (hfuel : 2 ≤ fuel)
    (hparts : Parts mtype requestId rest m ms more p o full)
    (htype : mtype = .request ∨ mtype = .locateRequest)
    (hstrand : s.strand.Holds env.cfg (m :: ms)) (hfresh : Fresh (.server i) s)
    {E : Exn → Sys → Prop} :
    Does s (awaitRequest env (.server i) fuel)
      (fun _ t => ∃ b, Strand.Delivered env.cfg b t.strand m ms ∧
        (b.dataSize < m.length → b.dataSize = env.cfg.bufferSize) ∧
        t.call (.server i) = { s.call (.server i) with currentInputBuffer := some b } ∧
        Touches (.server i) s t) E := by
  obtain ⟨b, st, hrun, hb, hcut, -⟩ := Strand.inputMessage_of_holds hbuf hstrand
  have h16 := hparts.le_dataSize hb hcut
  obtain ⟨h4, h5, -, h7, -⟩ := octet_of_header env hparts.header hb.holdsPart.1 h16
  obtain ⟨fuel, rfl⟩ : ∃ n, fuel = n + 2 := ⟨fuel - 2, by omega⟩
  rw [awaitRequest]
  refine agree_getCall _ ?_
  rw [hfresh.unused, if_neg (by simp), if_pos hfresh.input]
  refine .bind (Q := fun _ t => t.strand = st ∧
    t.call (.server i) = { s.call (.server i) with currentInputBuffer := some b } ∧
    Touches (.server i) s t) ?_ ?_
  · rw [inputNewServerMessage]
    refine agree_getCall _ ?_
    refine .bind (Q := fun _ t => t = s) ?_ ?_
    · rw [M.assert, hfresh.unused, Option.isNone_none, if_pos rfl]
      exact .of_pure rfl
    rintro - t rfl
    refine .bind (Q := fun a u => a = b ∧ u = { t with strand := st }) ?_ ?_
    · refine agree_onStrand (fun a st' h => ?_) (fun e h => ?_)
      · rw [hrun] at h
        cases h
        exact ⟨rfl, rfl⟩
      · rw [hrun] at h
        cases h
    rintro a u ⟨rfl, rfl⟩
    refine agree_modifyCall _ rfl ?_
    dsimp only
    refine agree_get ?_
    rw [h4, h5, h7, if_neg (by decide)]
    have htouch : Touches (.server i) t (({ t with strand := st } : Sys).setCall (.server i)
        { t.call (.server i) with currentInputBuffer := some a }) :=
      ⟨rfl, rfl, fun _ hr => Sys.call_setCall_of_ne hr⟩
    rcases htype with rfl | rfl
    · exact .of_pure ⟨rfl, Sys.call_setCall_self _ _ _, htouch⟩
    · exact .of_pure ⟨rfl, Sys.call_setCall_self _ _ _, htouch⟩
  rintro - t ⟨hst, hcall, htouch⟩
  rw [awaitRequest]
  refine agree_getCall _ ?_
  rw [hcall]
  dsimp only
  rw [Option.isSome_some, if_pos rfl]
  refine .of_pure ⟨b, ?_, hcut, hcall, htouch⟩
  rw [hst]
  exact hb

/-- A call of such a list is not found. -/
lemma Free.findInUse {l : List Ref} {t : Sys} (h : Free g requestId l s)
    (hcall : ∀ r, r ≠ g → t.call r = s.call r) : t.findInUse l requestId = none := by
  rw [Sys.findInUse, List.find?_eq_none]
  intro r hr
  obtain ⟨hne, hr⟩ := h r hr
  rw [hcall r hne]
  rcases hr with hr | hr
  · simp [hr]
  · simp [hr]

/-- With its request id a server is found for the fragments of its request. -/
lemma finds_server {i : ℕ} {before after : List Ref} {t : Sys}
    (hclients : t.findInUse t.clients requestId = none)
    (hservers : t.servers = before ++ .server i :: after)
    (hbefore : t.findInUse before requestId = none)
    (hused : (t.call (.server i)).state ≠ .unUsed)
    (hid : (t.call (.server i)).requestId = requestId)
    (hfull : (t.call (.server i)).inputFullyBuffered = false) :
    t.Finds (.server i) requestId := by
  refine ⟨hfull, .inr ⟨hclients, ?_⟩⟩
  rw [Sys.findInUse] at hbefore ⊢
  rw [hservers, List.find?_append, hbefore, Option.none_or, List.find?_cons_of_pos]
  simp [hused, hid]

/-- And the request id is read. -/
lemma does_unmarshalWildCardRequestHeader (hfuel : 1 ≤ env.fuel)
    (htype : mtype = .request ∨ mtype = .locateRequest)
    (hcurrent : (s.call g).currentInputBuffer = some b) (hmkr : (s.call g).inbMkr = 12)
    (hend : (s.call g).inbEnd = b.dataSize) (hswap : (s.call g).unmarshalByteSwap = false)
    (h16 : 16 ≤ b.dataSize) (h6 : env.octet b 6 &&& 0x1 = 1) (h7 : env.octet b 7 = mtype.octet)
    (h12 : env.ulongAt b 12 = requestId) {E : Exn → Sys → Prop} :
    Does s (unmarshalWildCardRequestHeader env g)
      (fun _ t => t.strand = s.strand ∧ Touches g s t ∧
        t.call g = { s.call g with
          inputMatchedId := true, requestType := mtype, inbMkr := 16, requestId }) E := by
  have hbuffer : (s.call g).buffer = b := by
    rw [Call.buffer, hcurrent]
    rfl
  have hoctet : (MsgType.ofOctet mtype.octet).getD .messageError = mtype := by
    rw [MsgType.ofOctet_octet]
    rfl
  have hvalue : ulongValue (octetAt (env.octets b 12 4) 0) (octetAt (env.octets b 12 4) 1)
      (octetAt (env.octets b 12 4) 2) (octetAt (env.octets b 12 4) 3) = requestId := by
    rw [← h12, Env.ulongAt, if_pos h6]
    rfl
  obtain ⟨fuel, hfuel⟩ : ∃ n, env.fuel = n + 1 := ⟨env.fuel - 1, by omega⟩
  -- the octets of the request id are in the buffer
  have hread {u : Sys} (hu : u = s.setCall g { s.call g with
      inputMatchedId := true, requestType := mtype }) :
      Does u (unmarshalPrimitive env g .align4 env.fuel)
        (fun a t => a = env.octets b 12 4 ∧ t.strand = s.strand ∧ Touches g s t ∧
          t.call g = { s.call g with
            inputMatchedId := true, requestType := mtype, inbMkr := 16 }) E := by
    have hcall : u.call g = { s.call g with inputMatchedId := true, requestType := mtype } := by
      rw [hu, Sys.call_setCall_self]
    have htouch : Touches g s u := by
      rw [hu]
      exact .setCall s g _
    have hstrand : u.strand = s.strand := by rw [hu, Sys.strand_setCall]
    rw [hfuel, unmarshalPrimitive]
    refine agree_getCall g ?_
    rw [hcall]
    dsimp only
    rw [hmkr, hend, show alignTo 12 Alignment.align4.size = 12 by decide,
      if_pos (show 12 + Alignment.align4.size ≤ _ from h16)]
    refine agree_modifyCall g rfl (.of_pure ⟨?_, hstrand, htouch.trans (.setCall u g _), ?_⟩)
    · exact congrArg (fun b => env.octets b 12 4) hbuffer
    · rw [Sys.call_setCall_self, hcall, ← hend]
      rfl
  rw [unmarshalWildCardRequestHeader]
  refine agree_modifyCall g rfl ?_
  rw [hbuffer, h7, hoctet]
  refine agree_getCall g ?_
  rw [Sys.call_setCall_self]
  rcases htype with rfl | rfl
  all_goals
    dsimp only
    refine .bind (hread rfl) ?_
    rintro a t ⟨rfl, hstrand, htouch, hcall⟩
    refine agree_modifyCall_last g rfl ⟨hstrand, htouch.trans (.setCall t g _), ?_⟩
    rw [Sys.call_setCall_self, hcall]
    dsimp only
    rw [hswap, if_neg Bool.false_ne_true, hvalue]

/-- Then the server is behind the request id. -/
lemma does_inputMessageBegin {i : ℕ} (hbuf : env.cfg.bufferSize < env.fuel)
    (hid : requestId < 2 ^ 32) (hfuel : (messageOctets (m :: ms)).length ≤ env.fuel)
    (hparts : Parts mtype requestId rest m ms more p o full)
    (hawaits : Awaits mtype requestId s (.server i))
    (hstrand : s.strand.Holds env.cfg (m :: ms)) (hfresh : Fresh (.server i) s) :
    Does s (inputMessageBegin env (.server i))
      (fun _ t => HasRead env (.server i) requestId rest full (ulongOctets requestId) t)
      (fun e _ => LimitReached env (12 + full.length) e) := by
  have hbufsz := env.cfg.lt_bufferSize
  cases hawaits with
  | @server i before after htype hclients hservers hbefore hused =>
  rw [inputMessageBegin]
  refine agree_get ?_
  dsimp only
  refine does_lock fun x => ?_
  have hheld : ({ s with rdLocked := x } : Sys).strand.Holds env.cfg (m :: ms) := hstrand
  have hfresh' : Fresh (.server i) { s with rdLocked := x } :=
    ⟨hfresh.input, hfresh.unused, hfresh.partially⟩
  refine .bind (does_awaitRequest hbuf (by omega) hparts htype hheld hfresh') ?_
  rintro - t ⟨b, hb, hcut, hcall, htouch⟩
  have h16 := hparts.le_dataSize hb hcut
  obtain ⟨-, h5, h6, h7, h12⟩ := octet_of_header env hparts.header hb.holdsPart.1 h16
  have hbuffer : (t.call (.server i)).buffer = b := by
    rw [hcall]
    rfl
  refine agree_getCall _ ?_
  rw [hbuffer, h5, if_neg (by decide)]
  refine agree_modifyCall _ rfl ?_
  rw [hbuffer]
  generalize hu : t.setCall (.server i) _ = u
  have hcallu : u.call (.server i) = { t.call (.server i) with
      unmarshalByteSwap := env.byteSwap b
      inbMkr := 12
      inbEnd := b.dataSize
      inputExpectAnotherFragment := env.moreFragments b
      inputMessageSize := b.size
      inputFragmentToCome := b.size - b.dataSize } := by
    rw [← hu, Sys.call_setCall_self]
  have htouchu : Touches (.server i) t u := by
    rw [← hu]
    exact .setCall t _ _
  have hstrandu : u.strand = t.strand := by rw [← hu, Sys.strand_setCall]
  have hflag : env.octet b 6 &&& 0x1 = 1 := by
    rw [h6]
    cases more <;> decide
  rw [Nat.mod_eq_of_lt hid] at h12
  refine .bind (does_unmarshalWildCardRequestHeader (b := b) (by omega) htype ?_ ?_ ?_ ?_ h16 hflag h7
    h12) ?_
  · rw [hcallu, hcall]
  · rw [hcallu]
  · rw [hcallu]
  · rw [hcallu]
    change env.byteSwap b = false
    rw [Env.byteSwap, hflag, decide_eq_false_iff_not, not_not]
  rintro - v ⟨hstrandv, htouchv, hcallv⟩
  refine agree_getCall _ ?_
  have htouchs : Touches (.server i) { s with rdLocked := x } v := (htouch.trans htouchu).trans htouchv
  have hothers (r : Ref) (hr : r ≠ .server i) : v.call r = s.call r := htouchs.others r hr
  have hcalls : (v.call (.server i)).state = (s.call (.server i)).state := by
    rw [hcallv, hcallu, hcall]
  refine .of_ite (fun hexc => ?_) fun _ => .of_pure ?_
  · rw [Call.exceedsLimit, hcallv, hcallu, decide_eq_true_eq] at hexc
    change env.cfg.giopMaxMsgSize < sizeT (b.size : ℤ) at hexc
    have hsize := hb.size
    have hlen := hparts.length_eq
    have hmsize := m.size_lt
    have hml : m.octets.length = m.length := rfl
    have hidlen : (ulongOctets requestId).length = 4 := rfl
    refine .of_throw ⟨.inr (.inl rfl), ?_⟩
    rw [hparts.full, List.length_append, List.length_append]
    rw [sizeT] at hexc
    omega
  · refine hasRead_of_first (b := b) hparts ?_ hcut hfuel ?_ ?_
    · rw [hstrandv, hstrandu]
      exact hb
    · constructor <;> rw [hcallv, hcallu]
      · rw [hcall]
      · change (t.call (.server i)).input = []
        rw [hcall]
        exact hfresh.input
    · have hserversv : v.servers = before ++ .server i :: after := by
        rw [htouchs.servers]
        exact hservers
      refine finds_server ?_ hserversv ?_ ?_ ?_ ?_
      · rw [htouchs.clients]
        exact hclients.findInUse hothers
      · exact hbefore.findInUse hothers
      · rw [hcalls]
        exact hused
      · rw [hcallv]
      · rw [hcallv, hcallu, hcall]
        exact hfresh.partially

/-! ### Clients -/

/-- A reply is matched with the client that waits for it. -/
lemma does_matchTarget_of_reply (htype : mtype = .reply ∨ mtype = .locateReply)
    (haccepts : acceptsReplies s.strand = true)
    (hfind : s.findInUse s.clients requestId = some g)
    (hpartially : (s.call g).inputFullyBuffered = false)
    (hunmatched : (s.call g).inputMatchedId = false) {E : Exn → Sys → Prop} :
    Does s (matchTarget mtype requestId)
      (fun a t => a = some g ∧ t = s.setCall g { s.call g with inputMatchedId := true }) E := by
  have hclient : Does s (matchClient mtype requestId)
      (fun a t => a = some g ∧ t = s.setCall g { s.call g with inputMatchedId := true }) E := by
    have hfragment : mtype ≠ .fragment := by
      rintro rfl
      rcases htype with h | h
      · cases h
      · cases h
    rw [matchClient]
    refine agree_get ?_
    rw [hfind]
    dsimp only
    rw [if_neg (by rw [hpartially]; exact Bool.false_ne_true),
      if_neg (by rw [hunmatched]; exact Bool.false_ne_true), if_neg hfragment]
    exact agree_modifyCall g rfl (.of_pure ⟨rfl, rfl⟩)
  rcases htype with rfl | rfl
  · refine agree_get ?_
    dsimp only
    rw [if_pos haccepts]
    exact hclient
  · refine agree_get ?_
    dsimp only
    rw [if_pos haccepts]
    exact hclient

/-- The size that has been seen of a message is within that of the whole. -/
lemma HasRead.lt_of_exceedsLimit {body : List UInt8}
    (h : HasRead env g requestId rest full body s) (hlt : 12 + full.length < 2 ^ 64)
    (hexc : (s.call g).exceedsLimit env.cfg = true) :
    env.cfg.giopMaxMsgSize < 12 + full.length := by
  obtain ⟨todo, rfl, cur, x, o, ms, rfl, -, hw⟩ := h
  have hsize := hw.size
  rw [Call.exceedsLimit, decide_eq_true_eq, sizeT, hsize] at hexc
  simp only [List.length_append] at hlt ⊢
  omega

/-- A client finds its reply and reads of it. -/
lemma does_inputReplyBegin {i : ℕ} {ops : List WriteOp} {rs : List ReadOp} {v body' : List UInt8}
    (hbuf : env.cfg.bufferSize < env.fuel) (hid : requestId < 2 ^ 32)
    (hlt : 12 + full.length < 2 ^ 64) (hfuel : (messageOctets (m :: ms)).length ≤ env.fuel)
    (hparts : Parts mtype requestId rest m ms more p o full)
    (hawaits : Awaits mtype requestId s (.client i))
    (hstrand : s.strand.Holds env.cfg (m :: ms)) (hfresh : Fresh (.client i) s)
    (htakes : TakesAll ops rs v) (hops : Marshals ops (ulongOctets requestId) body')
    (hpre : body' <+: full) :
    Does s (inputReplyBegin env (.client i) mtype rs)
      (fun a t => a = v ∧ HasRead env (.client i) requestId rest full body' t)
      (fun e _ => LimitReached env (12 + full.length) e) := by
  have hbufsz := env.cfg.lt_bufferSize
  cases hawaits with
  | client htype haccepts hclients hunmatched =>
  rw [inputReplyBegin]
  refine agree_get ?_
  dsimp only
  refine does_lock fun x => ?_
  have halive : ¬(s.strand.isBiDir = true ∧ s.strand.dying = true) := by
    rw [hstrand.alive]
    exact fun h => Bool.false_ne_true h.2
  have hnone : (s.call (.client i)).currentInputBuffer.isNone = true := by
    rw [hfresh.unused]
    rfl
  rw [if_neg halive, if_pos hnone]
  have hclose : mtype ≠ .closeConnection := by
    rcases htype with rfl | rfl
    · decide
    · decide
  have herror : mtype ≠ .messageError := by
    rcases htype with rfl | rfl
    · decide
    · decide
  have hheld : ({ s with rdLocked := x } : Sys).strand.Holds env.cfg (m :: ms) := hstrand
  refine .bind (does_awaitMatched (c := { s.call (.client i) with inputMatchedId := true }) hbuf
    (by omega) hid hheld hparts.header hclose herror hfresh.input hfresh.input hfresh.unused ?_) ?_
  · intro st hst
    refine (does_matchTarget_of_reply (s := { s with rdLocked := x, strand := st }) htype ?_ hclients
      hfresh.partially hunmatched).mono ?_ fun _ _ he => he
    · rw [hst]
      exact haccepts
    · rintro a t ⟨rfl, rfl⟩
      refine ⟨rfl, rfl, Sys.call_setCall_self _ _ _, rfl, rfl, fun r hr => ?_⟩
      exact Sys.call_setCall_of_ne hr
  rintro - t ⟨b, hb, hcut, h16, hcall, htouch⟩
  obtain ⟨-, -, -, h7, -⟩ := octet_of_header env hparts.header hb.holdsPart.1 h16
  have hbuffer : (t.call (.client i)).buffer = b := by
    rw [hcall]
    rfl
  refine agree_modifyCall _ rfl ?_
  rw [hbuffer]
  generalize hu : t.setCall (.client i) _ = u
  have hcallu : u.call (.client i) = { t.call (.client i) with
      unmarshalByteSwap := env.byteSwap b
      inbMkr := 16
      inbEnd := b.dataSize
      inputExpectAnotherFragment := env.moreFragments b
      inputMessageSize := b.size
      inputFragmentToCome := b.size - b.dataSize } := by
    rw [← hu, Sys.call_setCall_self]
  have htouchu : Touches (.client i) { s with rdLocked := x } u := by
    rw [← hu]
    exact htouch.trans (.setCall t _ _)
  have hread : HasRead env (.client i) requestId rest full (ulongOctets requestId) u := by
    refine hasRead_of_first (b := b) hparts ?_ hcut hfuel ?_ ?_
    · rw [← hu, Sys.strand_setCall]
      exact hb
    · constructor <;> rw [hcallu]
      · rw [hcall]
      · rw [hcall]
        exact hfresh.input
    · refine ⟨?_, .inl ⟨?_, ?_⟩⟩
      · rw [hcallu, hcall]
        exact hfresh.partially
      · rw [htouchu.clients, findInUse_congr (s := s) fun r => ?_]
        · exact hclients
        · by_cases hr : r = .client i
          · rw [hr, hcallu, hcall]
            exact ⟨rfl, rfl⟩
          · rw [htouchu.others r hr]
            exact ⟨rfl, rfl⟩
      · rw [hcallu, hcall]
  refine .bind (Q := fun a t => a = v ∧ HasRead env (.client i) requestId rest full body' t) ?_ ?_
  · rw [unmarshalReplyHeader]
    refine agree_getCall _ ?_
    rw [show (u.call (.client i)).buffer = b by rw [hcallu, ← hbuffer]; rfl, h7,
      MsgType.ofOctet_octet, if_neg (not_not.mpr rfl)]
    exact (does_reads hbuf hid hlt htakes hops hpre hread).mono (fun _ _ h => h)
      fun _ _ he => he.reached
  rintro a w ⟨rfl, hw⟩
  refine agree_getCall _ (.of_ite (fun hexc => ?_) fun _ => .of_pure ⟨rfl, hw⟩)
  exact .of_throw ⟨.inr (.inr rfl), hw.lt_of_exceedsLimit hlt hexc⟩

/-! ### Whole messages -/

/-- The call receives its message and reads of it what was written. -/
lemma does_receive {g : Ref} {ops : List WriteOp} {rs : List ReadOp} {v body' : List UInt8}
    (hbuf : env.cfg.bufferSize < env.fuel) (hid : requestId < 2 ^ 32)
    (hlt : 12 + full.length < 2 ^ 64) (hfuel : (messageOctets (m :: ms)).length ≤ env.fuel)
    (hparts : Parts mtype requestId rest m ms more p o full)
    (hawaits : Awaits mtype requestId s g)
    (hstrand : s.strand.Holds env.cfg (m :: ms)) (hfresh : Fresh g s)
    (htakes : TakesAll ops rs v) (hops : Marshals ops (ulongOctets requestId) body')
    (hpre : body' <+: full) :
    Does s (receive env mtype rs g)
      (fun a t => a = v ∧ HasRead env g requestId rest full body' t)
      (fun e _ => LimitReached env (12 + full.length) e) := by
  cases g with
  | client i =>
    exact does_inputReplyBegin hbuf hid hlt hfuel hparts hawaits hstrand hfresh htakes hops hpre
  | server i =>
    refine .bind (does_inputMessageBegin hbuf hid hfuel hparts hawaits hstrand hfresh) ?_
    rintro - t ht
    exact (does_reads hbuf hid hlt htakes hops hpre ht).mono (fun _ _ h => h)
      fun _ _ he => he.reached

end

end OmniORB
