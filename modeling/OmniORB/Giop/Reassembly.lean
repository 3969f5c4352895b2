import OmniORB.Giop.Fragments
import OmniORB.Giop.Runs

/-!
# Reading fragments

A call reads the body of a message whose fragments arrive on its strand, in whatever pieces. Between
two reads the octets to come are those between the markers, those still to be received of the
current fragment, and the bodies of the fragments that follow.
-/

namespace OmniORB

open Library M

/-! ### What is to come -/

/-- The octets `o` are the bodies of the fragments at the front of the messages, with `rest` behind
them. There are none if no fragment is expected. -/
inductive Bodies (requestId : ℕ) (rest : List Message) : Bool → List UInt8 → List Message → Prop
  | nil : Bodies requestId rest false [] rest
  | cons {m : Message} {ms : List Message} {more : Bool} {p o : List UInt8}
      (hm : m.octets = fragment .fragment requestId false more p)
      (hdvd : more = true → 8 ∣ 16 + p.length) (hbodies : Bodies requestId rest more o ms) :
      Bodies requestId rest true (p ++ o) (m :: ms)

namespace Strand

/-- The octets `x` of the current message are to be received, and behind them `ms`. -/
def HoldsPart (cfg : Config) (x : List UInt8) (ms : List Message) (s : Strand) : Prop :=
  if x = [] then s.Holds cfg ms
  else s.head = [] ∧ s.connection.coming = x ++ messageOctets ms ∧ s.SpareOk cfg ∧ s.dying = false

/-- The first of these octets have been received. -/
lemma HoldsPart.take {cfg : Config} {x y : List UInt8} {ms : List Message} {s t : Strand}
    (h : s.HoldsPart cfg x ms) (hx : x ≠ []) (hspare : t.SpareOk cfg)
    (hcoming : t.connection.coming = y ++ messageOctets ms)
    (ht : t = { s with spare := t.spare, connection := t.connection }) :
    t.HoldsPart cfg y ms := by
  rw [HoldsPart, if_neg hx] at h
  obtain ⟨hhead, -, -, halive⟩ := h
  have hthead : t.head = [] := by
    rw [ht]
    exact hhead
  have htalive : t.dying = false := by
    rw [ht]
    exact halive
  rw [HoldsPart]
  split_ifs with hy
  · rw [hy, List.nil_append] at hcoming
    refine ⟨?_, ?_, hspare, htalive⟩
    · rw [hthead]
      exact .nil _
    · rw [pending, hthead, List.flatMap_nil, List.nil_append]
      exact hcoming
  · exact ⟨hthead, hcoming, hspare, htalive⟩

end Strand

/-- A fragment with the request id is for `g`. -/
def Sys.Finds (s : Sys) (g : Ref) (requestId : ℕ) : Prop :=
  (s.call g).inputFullyBuffered = false ∧
    ((s.findInUse s.clients requestId = some g ∧ (s.call g).inputMatchedId = true) ∨
      (s.findInUse s.clients requestId = none ∧ s.findInUse s.servers requestId = some g))

/-- The call `g` is at position `pos` of its message: the octets `cur` are between its markers, `x`
are to be received of the current fragment, and `o` in the fragments behind it. -/
structure Window (env : Env) (g : Ref) (requestId : ℕ) (rest : List Message) (pos : ℕ)
    (cur x o : List UInt8) (ms : List Message) (s : Sys) : Prop where
  marks : (s.call g).inbMkr + cur.length = (s.call g).inbEnd
  end_lt : (s.call g).inbEnd < 2 ^ 64
  data : cur = [] ∨ (s.call g).buffer.data.drop (s.call g).inbMkr = cur
  toCome : (s.call g).inputFragmentToCome = x.length
  bodies : Bodies requestId rest (s.call g).inputExpectAnotherFragment o ms
  size : (s.call g).inputMessageSize = pos + cur.length + x.length
  mod : (s.call g).inbMkr % 8 = pos % 8
  chunked : x ≠ [] → 8 ∣ pos + cur.length
  fragmented : (s.call g).inputExpectAnotherFragment = true → 8 ∣ pos + cur.length + x.length
  input : (s.call g).input = []
  capacity : ∀ b, (s.call g).currentInputBuffer = some b → b.capacity ≤ env.cfg.bufferSize
  sameOrder : (s.call g).unmarshalByteSwap = false
  strand : s.strand.HoldsPart env.cfg x ms
  finds : s.Finds g requestId

/-- The call `g` is at position `pos` of its message, of which the octets `todo` are to be read. The
loops may go round often enough. -/
def At (env : Env) (g : Ref) (requestId : ℕ) (rest : List Message) (pos : ℕ) (todo : List UInt8)
    (s : Sys) : Prop :=
  ∃ cur x o ms, todo = cur ++ x ++ o ∧ todo.length + ms.length + 2 ≤ env.fuel ∧
    Window env g requestId rest pos cur x o ms s

lemma Env.octet_of_prefix {env : Env} {b : Buffer} {o : List UInt8} {i : ℕ} (h : b.data <+: o)
    (hi : i < b.dataSize) : env.octet b i = octetAt o i := by
  obtain ⟨x, rfl⟩ := h
  have hi' : i < b.data.length := hi
  rw [octetAt_append x hi', Env.octet, dif_pos hi', octetAt, List.getD_eq_getElem _ _ hi']

section

variable {env : Env} {g : Ref} {requestId : ℕ} {rest : List Message} {s t : Sys}
variable {E : Exn → Sys → Prop}

/-! ### Finding the call -/

lemma findInUse_congr {s t : Sys} {l : List Ref} {n : ℕ}
    (h : ∀ r, (t.call r).state = (s.call r).state ∧ (t.call r).requestId = (s.call r).requestId) :
    t.findInUse l n = s.findInUse l n := by
  unfold Sys.findInUse
  congr 1
  funext r
  rw [(h r).1, (h r).2]

/-- It depends on the marks of the calls only. -/
lemma Sys.Finds.congr (h : s.Finds g requestId) (hclients : t.clients = s.clients)
    (hservers : t.servers = s.servers)
    (hcall : ∀ r, (t.call r).state = (s.call r).state ∧ (t.call r).requestId = (s.call r).requestId)
    (hfull : (t.call g).inputFullyBuffered = (s.call g).inputFullyBuffered)
    (hmatched : (t.call g).inputMatchedId = (s.call g).inputMatchedId) : t.Finds g requestId := by
  rw [Sys.Finds, hclients, hservers, findInUse_congr hcall, findInUse_congr hcall, hfull, hmatched]
  exact h

/-- Of the calls only `g` has changed. -/
structure Touches (g : Ref) (s t : Sys) : Prop where
  clients : t.clients = s.clients
  servers : t.servers = s.servers
  others : ∀ r, r ≠ g → t.call r = s.call r

lemma Touches.setCall (s : Sys) (g : Ref) (c : Call) : Touches g s (s.setCall g c) :=
  ⟨rfl, rfl, fun _ hr => Sys.call_setCall_of_ne hr⟩

lemma Touches.trans {u : Sys} (hst : Touches g s t) (htu : Touches g t u) : Touches g s u where
  clients := htu.clients.trans hst.clients
  servers := htu.servers.trans hst.servers
  others := fun r hr => (htu.others r hr).trans (hst.others r hr)

lemma Sys.Finds.of_touches (h : s.Finds g requestId) (ht : Touches g s t)
    (hstate : (t.call g).state = (s.call g).state)
    (hid : (t.call g).requestId = (s.call g).requestId)
    (hfull : (t.call g).inputFullyBuffered = (s.call g).inputFullyBuffered)
    (hmatched : (t.call g).inputMatchedId = (s.call g).inputMatchedId) : t.Finds g requestId := by
  refine h.congr ht.clients ht.servers (fun r => ?_) hfull hmatched
  by_cases hr : r = g
  · rw [hr]
    exact ⟨hstate, hid⟩
  · rw [ht.others r hr]
    exact ⟨rfl, rfl⟩

lemma does_matchTarget_of_finds (h : s.Finds g requestId) :
    Does s (matchTarget .fragment requestId) (fun a t => a = some g ∧ t = s) E := by
  obtain ⟨hfull, ⟨hfind, hmatched⟩ | ⟨hnone, hfind⟩⟩ := h
  · refine agree_get (.bind (Q := fun a t => a = some g ∧ t = s) ?_ ?_)
    · refine agree_get ?_
      rw [hfind]
      dsimp only
      rw [if_neg (by simp [hfull]), if_pos hmatched, if_neg (by simp)]
      exact .of_pure ⟨rfl, rfl⟩
    · rintro a t ⟨rfl, rfl⟩
      exact .of_pure ⟨rfl, rfl⟩
  · refine agree_get (.bind (Q := fun a t => a = none ∧ t = s) ?_ ?_)
    · refine agree_get ?_
      rw [hnone]
      exact .of_pure ⟨rfl, rfl⟩
    · rintro a t ⟨rfl, rfl⟩
      refine agree_get ?_
      rw [hfind]
      dsimp only
      rw [if_neg (by simp [hfull])]
      exact .of_pure ⟨rfl, rfl⟩

/-! ### Buffers -/

lemma Strand.HoldsPart.of_spare {x : List UInt8} {ms : List Message} {st : Strand} {sp : List ℕ}
    (h : st.HoldsPart env.cfg x ms) (hsp : { st with spare := sp }.SpareOk env.cfg) :
    { st with spare := sp }.HoldsPart env.cfg x ms := by
  rw [Strand.HoldsPart] at h ⊢
  split_ifs at h ⊢ with hx
  · exact ⟨h.head, h.pending, hsp, h.alive⟩
  · exact ⟨h.1, h.2.1, hsp, h.2.2.2⟩

lemma Strand.HoldsPart.spareOk {x : List UInt8} {ms : List Message} {st : Strand}
    (h : st.HoldsPart env.cfg x ms) : st.SpareOk env.cfg := by
  rw [Strand.HoldsPart] at h
  split_ifs at h
  · exact h.spare
  · exact h.2.2.1

/-- The current buffer is given up. -/
lemma does_releaseCurrent {x : List UInt8} {ms : List Message}
    (hcap : ∀ b, (s.call g).currentInputBuffer = some b → b.capacity ≤ env.cfg.bufferSize)
    (hstrand : s.strand.HoldsPart env.cfg x ms) :
    Does s (releaseCurrent env.cfg g)
      (fun _ t => t.call g = { s.call g with currentInputBuffer := none } ∧ Touches g s t ∧
        t.strand.HoldsPart env.cfg x ms) E := by
  unfold releaseCurrent
  refine agree_getCall g ?_
  cases hb : (s.call g).currentInputBuffer with
  | none =>
    refine .of_pure ⟨?_, ⟨rfl, rfl, fun _ _ => rfl⟩, hstrand⟩
    rw [← hb]
  | some b =>
    have hspare := hstrand.spareOk.releaseInputBuffer (hcap b hb)
    refine .bind (Q := fun _ t => t.call = s.call ∧ t.clients = s.clients ∧
      t.servers = s.servers ∧ t.strand.HoldsPart env.cfg x ms) ⟨rfl, ?_⟩ ?_
    · by_cases hlock : s.rdLocked = some g
      · change Meets _ _ (EStateM.Result.ok _ (if s.rdLocked = some g then _ else _))
        rw [if_pos hlock]
        refine ⟨rfl, rfl, rfl, ?_⟩
        rw [Strand.releaseInputBuffer_eq] at hspare ⊢
        exact hstrand.of_spare hspare
      · change Meets _ _ (EStateM.Result.ok _ (if s.rdLocked = some g then _ else _))
        rw [if_neg hlock]
        exact ⟨rfl, rfl, rfl, hstrand⟩
    · rintro - t ⟨hcall, hclients, hservers, ht⟩
      refine agree_modifyCall_last g rfl ⟨?_, ⟨hclients, hservers, fun r hr => ?_⟩, ht⟩
      · rw [Sys.call_setCall_self, hcall]
      · rw [Sys.call_setCall_of_ne hr, hcall]

/-- What is left of a message that was delivered is to be received. -/
lemma Strand.Delivered.holdsPart {b : Buffer} {st : Strand} {m : Message} {ms : List Message}
    (h : Strand.Delivered env.cfg b st m ms) :
    b.data = m.octets.take b.dataSize ∧
      st.HoldsPart env.cfg (m.octets.drop b.dataSize) ms := by
  have hlen : b.data.length = b.dataSize := rfl
  have hle : b.dataSize ≤ m.octets.length := h.le
  have hoctets : b.data ++ st.pending =
      m.octets.take b.dataSize ++ (m.octets.drop b.dataSize ++ messageOctets ms) := by
    rw [h.octets, ← List.append_assoc, List.take_append_drop]
  obtain ⟨hdata, hpending⟩ := List.append_inj hoctets
    (by rw [hlen, List.length_take, Nat.min_eq_left hle])
  refine ⟨hdata, ?_⟩
  rw [Strand.HoldsPart]
  split_ifs with hx
  · refine ⟨h.head, ?_, h.spare, h.alive⟩
    rw [hpending, hx, List.nil_append]
  · have hhead := h.rest (by
      rw [List.drop_eq_nil_iff] at hx
      exact not_le.mp hx)
    refine ⟨hhead, ?_, h.spare, h.alive⟩
    rw [← hpending, Strand.pending, hhead]
    rfl

/-! ### The next fragment -/

/-- A buffer with the header of `m`. -/
lemma octet_of_header (env : Env) {b : Buffer} {m : Message} {mtype : MsgType} {more : Bool} {n : ℕ}
    {p : List UInt8} (hm : m.octets = messageHeader mtype more n ++ (ulongOctets requestId ++ p))
    (hdata : b.data = m.octets.take b.dataSize) (hlen : 16 ≤ b.dataSize) :
    env.octet b 4 = 1 ∧ env.octet b 5 = 2 ∧ env.octet b 6 = (if more then 3 else 1) ∧
      env.octet b 7 = mtype.octet ∧ env.ulongAt b 12 = requestId % 2 ^ 32 := by
  have hoctet (i : ℕ) (hi : i < 16) : env.octet b i = octetAt m.octets i := by
    refine Env.octet_of_prefix ?_ (by omega)
    rw [hdata]
    exact List.take_prefix _ _
  have hflag : (if more then (3 : UInt8) else 1) &&& 0x1 = 1 := by cases more <;> decide
  rw [hm] at hoctet
  refine ⟨hoctet 4 (by decide), hoctet 5 (by decide), hoctet 6 (by decide), hoctet 7 (by decide), ?_⟩
  rw [Env.ulongAt, hoctet 6 (by decide), hoctet 12 (by decide), hoctet 13 (by decide),
    hoctet 14 (by decide), hoctet 15 (by decide), ← ulongValue_ulongOctets requestId]
  exact if_pos hflag

/-- A buffer with a fragment of `m`, whose header is there. -/
lemma octet_of_fragment (env : Env) {b : Buffer} {m : Message} {more : Bool} {p : List UInt8}
    (hm : m.octets = fragment .fragment requestId false more p)
    (hdata : b.data = m.octets.take b.dataSize) (hlen : 16 ≤ b.dataSize) :
    env.octet b 4 = 1 ∧ env.octet b 5 = 2 ∧ env.octet b 6 = (if more then 3 else 1) ∧
      env.octet b 7 = 7 ∧ env.ulongAt b 12 = requestId % 2 ^ 32 :=
  octet_of_header (n := p.length + 4) env hm hdata hlen

/-! ### The next message -/

lemma MsgType.ofOctet_octet (mtype : MsgType) : MsgType.ofOctet mtype.octet = some mtype := by
  cases mtype <;> rfl

/-- A message with a request id goes to a call. -/
lemma inputQueueMessage_eq {b : Buffer} {mtype : MsgType} (h4 : env.octet b 4 = 1)
    (h5 : env.octet b 5 = 2) (h7 : env.octet b 7 = mtype.octet) (hclose : mtype ≠ .closeConnection)
    (herror : mtype ≠ .messageError) : inputQueueMessage env g b = queueForCall env g b mtype := by
  rw [inputQueueMessage]
  rw [h7, h4, h5, MsgType.ofOctet_octet]
  cases mtype with
  | closeConnection => exact absurd rfl hclose
  | messageError => exact absurd rfl herror
  | request => rfl
  | reply => rfl
  | cancelRequest => rfl
  | locateRequest => rfl
  | locateReply => rfl
  | fragment => rfl

/-- The message at the front is matched with `g` and becomes its current one. -/
lemma does_awaitMatched {mtype : MsgType} {c : Call} {m : Message} {ms : List Message} {more : Bool}
    {n : ℕ} {p : List UInt8} {fuel : ℕ} (hbuf : env.cfg.bufferSize < env.fuel) (hfuel : 2 ≤ fuel)
    (hid : requestId < 2 ^ 32) (hstrand : s.strand.Holds env.cfg (m :: ms))
    (hm : m.octets = messageHeader mtype more n ++ (ulongOctets requestId ++ p))
    (hclose : mtype ≠ .closeConnection) (herror : mtype ≠ .messageError)
    (hinput : (s.call g).input = []) (hcinput : c.input = [])
    (hnone : c.currentInputBuffer = none)
    (hmatch : ∀ st,
      st = { s.strand with head := st.head, spare := st.spare, connection := st.connection } →
      Does { s with strand := st } (matchTarget mtype requestId)
        (fun a t => a = some g ∧ t.strand = st ∧ t.call g = c ∧ Touches g s t) E) :
    Does s (awaitInput env g fuel)
      (fun _ t => ∃ b, Strand.Delivered env.cfg b t.strand m ms ∧
        (b.dataSize < m.length → b.dataSize = env.cfg.bufferSize) ∧ 16 ≤ b.dataSize ∧
        t.call g = { c with currentInputBuffer := some b } ∧ Touches g s t) E := by
  obtain ⟨b, st, hrun, hb, hfull, hst⟩ := Strand.inputMessage_of_holds hbuf hstrand
  have hmlen : m.length = 16 + p.length := by
    rw [Message.length, hm, List.length_append, List.length_append, length_messageHeader]
    change 12 + (4 + p.length) = _
    omega
  have hcfg := env.cfg.lt_bufferSize
  have hle := hb.le
  have h16 : 16 ≤ b.dataSize := by
    by_cases hless : b.dataSize < m.length
    · have := hfull hless
      omega
    · omega
  obtain ⟨h4, h5, -, h7, h12⟩ := octet_of_header env hm hb.holdsPart.1 h16
  rw [Nat.mod_eq_of_lt hid] at h12
  obtain ⟨fuel, rfl⟩ : ∃ n, fuel = n + 2 := ⟨fuel - 2, by omega⟩
  rw [awaitInput]
  refine agree_getCall g ?_
  rw [if_pos hinput]
  -- the message is put into `pd_input`
  refine .bind (Q := fun a t => a = b ∧ t = { s with strand := st }) ?_ ?_
  · refine agree_onStrand (fun a st' h => ?_) (fun e h => ?_)
    · rw [hrun] at h
      cases h
      exact ⟨rfl, rfl⟩
    · rw [hrun] at h
      cases h
  rintro a t ⟨rfl, rfl⟩
  refine .bind (Q := fun _ t => t.strand = st ∧
    t.call g = { c with input := [a] } ∧ Touches g s t) ?_ ?_
  · rw [inputQueueMessage_eq h4 h5 h7 hclose herror, queueForCall, h12]
    refine .bind (hmatch st hst) ?_
    rintro target t ⟨rfl, hts, hcall, htouch⟩
    refine agree_getCall g ?_
    rw [hcall, if_pos rfl]
    refine .bind (Q := fun _ u => u = t) ?_ ?_
    · rw [M.assert, decide_eq_true hcinput, if_pos rfl]
      exact .of_pure rfl
    rintro - u rfl
    refine .bind (Q := fun _ v => v = u) ?_ ?_
    · unfold releaseCurrent
      refine agree_getCall g ?_
      rw [hcall, hnone]
      exact .of_pure rfl
    rintro - v rfl
    refine agree_modifyCall_last g rfl ⟨hts, ?_, htouch.trans (.setCall v g _)⟩
    rw [Sys.call_setCall_self, hcall]
  rintro - t ⟨hts, hcall, htouch⟩
  -- and taken from there
  rw [awaitInput]
  refine agree_getCall g ?_
  rw [hcall, if_neg (by simp)]
  refine agree_modifyCall_last g rfl ⟨a, ?_, hfull, h16, ?_, ?_⟩
  · change Strand.Delivered env.cfg a t.strand m ms
    rw [hts]
    exact hb
  · rw [Sys.call_setCall_self, hcall, ← hcinput]
    rfl
  · exact htouch.trans (.setCall t g _)

/-- The fragment at the front of the messages becomes the current one. -/
lemma does_awaitInput {m : Message} {ms : List Message} {more : Bool} {p : List UInt8} {fuel : ℕ}
    (hbuf : env.cfg.bufferSize < env.fuel) (hfuel : 2 ≤ fuel) (hid : requestId < 2 ^ 32)
    (hstrand : s.strand.Holds env.cfg (m :: ms))
    (hm : m.octets = fragment .fragment requestId false more p)
    (hnone : (s.call g).currentInputBuffer = none) (hinput : (s.call g).input = [])
    (hfinds : s.Finds g requestId) :
    Does s (awaitInput env g fuel)
      (fun _ t => ∃ b, Strand.Delivered env.cfg b t.strand m ms ∧
        (b.dataSize < m.length → b.dataSize = env.cfg.bufferSize) ∧ 16 ≤ b.dataSize ∧
        t.call g = { s.call g with currentInputBuffer := some b } ∧ Touches g s t) E := by
  refine does_awaitMatched (n := p.length + 4) hbuf hfuel hid hstrand hm
    (by decide) (by decide) hinput hinput hnone fun st _ => ?_
  refine (does_matchTarget_of_finds (s := { s with strand := st }) hfinds).mono ?_ fun _ _ he => he
  rintro a t ⟨rfl, rfl⟩
  exact ⟨rfl, rfl, rfl, rfl, rfl, fun _ _ => rfl⟩

variable {pos : ℕ} {cur x o : List UInt8} {ms : List Message}

/-- The limit on the size of a message is why reading may fail, with `n` the size of the whole. -/
def LimitExceeded (env : Env) (n : ℕ) (e : Exn) : Prop :=
  e = .marshalMessageSizeExceedLimit ∧ env.cfg.giopMaxMsgSize < n

/-- Reading goes on in the next fragment, at its beginning. -/
lemma does_inputNewFragment (hbuf : env.cfg.bufferSize < env.fuel) (hid : requestId < 2 ^ 32)
    (hexpect : (s.call g).inputExpectAnotherFragment = true)
    (h : Window env g requestId rest pos cur [] o ms s) :
    Does s (inputNewFragment env g)
      (fun _ t => ∃ cur' x' o' ms', o = cur' ++ x' ++ o' ∧ ms'.length < ms.length ∧
        (x' ≠ [] → 8 ≤ cur'.length) ∧ (t.call g).inbMkr = 16 ∧
        Window env g requestId rest (pos + cur.length) cur' x' o' ms' t) E := by
  have hcfg := env.cfg.lt_bufferSize
  have hcfg8 := env.cfg.dvd_bufferSize
  have hdvd := h.fragmented hexpect
  have hsize := h.size
  have hbodies := h.bodies
  rw [hexpect] at hbodies
  cases hbodies with
  | @cons m ms' more p o' hm hdvdm hbodies =>
  rw [inputNewFragment]
  refine .bind (does_releaseCurrent h.capacity h.strand) ?_
  rintro - t ⟨hcall, htouch, hstrand⟩
  rw [Strand.HoldsPart, if_pos rfl] at hstrand
  have hfinds : t.Finds g requestId := by
    refine h.finds.of_touches htouch ?_ ?_ ?_ ?_ <;> rw [hcall]
  refine .bind (does_awaitInput hbuf (by omega) hid hstrand hm (by rw [hcall])
    (by rw [hcall]; exact h.input) hfinds) ?_
  rintro - u ⟨b, hb, hfull, h16, hcallu, htouchu⟩
  obtain ⟨hdata, hpart⟩ := hb.holdsPart
  obtain ⟨-, -, h6, h7, -⟩ := octet_of_fragment env hm hdata h16
  refine agree_getCall g ?_
  refine agree_get ?_
  have hbuffer : (u.call g).buffer = b := by rw [hcallu]; rfl
  have hswap : env.byteSwap b = (u.call g).unmarshalByteSwap := by
    rw [Env.byteSwap, h6, hcallu, hcall]
    change _ = (s.call g).unmarshalByteSwap
    rw [h.sameOrder]
    cases more <;> rfl
  rw [hbuffer, h7, if_neg (by decide), if_neg (by rw [hswap, not_not])]
  refine agree_modifyCall_last g rfl ?_
  have hmore : env.moreFragments b = more := by
    rw [Env.moreFragments, h6]
    cases more <;> rfl
  -- the octets of the buffer behind its header, and those to come
  have hoctets : m.octets =
      (messageHeader .fragment more (p.length + 4) ++ ulongOctets requestId) ++ p := by
    rw [hm, List.append_assoc]
    rfl
  have hheader : (messageHeader .fragment more (p.length + 4) ++ ulongOctets requestId).length = 16 :=
    rfl
  have hmlen : m.length = 16 + p.length := by
    rw [Message.length, hoctets, List.length_append, hheader]
  have hle := hb.le
  have hbsize := hb.size
  have htake : b.data = (messageHeader .fragment more (p.length + 4) ++ ulongOctets requestId) ++
      p.take (b.dataSize - 16) := by
    rw [hdata, hoctets, List.take_append, List.take_of_length_le (by rw [hheader]; exact h16), hheader]
  have hdrop : m.octets.drop b.dataSize = p.drop (b.dataSize - 16) := by
    rw [hoctets, List.drop_append, List.drop_eq_nil_iff.mpr (by rw [hheader]; exact h16), hheader,
      List.nil_append]
  rw [hdrop] at hpart
  have htlen : (p.take (b.dataSize - 16)).length = b.dataSize - 16 := by
    rw [List.length_take]
    omega
  have hxlen : (p.drop (b.dataSize - 16)).length = b.size - b.dataSize := by
    rw [List.length_drop]
    omega
  have hcut : p.drop (b.dataSize - 16) ≠ [] → b.dataSize = env.cfg.bufferSize := by
    intro hne
    have hpos := List.length_pos_iff.mpr hne
    exact hfull (by omega)
  have hsame : (s.call g).inputExpectAnotherFragment = true := hexpect
  refine ⟨p.take (b.dataSize - 16), p.drop (b.dataSize - 16), o', ms', ?_, ?_, ?_, ?_, ?_⟩
  · rw [List.take_append_drop]
  · exact Nat.lt_succ_self _
  · intro hne
    have := hcut hne
    omega
  · rw [Sys.call_setCall_self]
  · constructor
    case marks =>
      rw [Sys.call_setCall_self]
      change 16 + (p.take (b.dataSize - 16)).length = b.dataSize
      omega
    case end_lt =>
      have hlt := m.size_lt
      have hlen : m.octets.length = m.length := rfl
      rw [Sys.call_setCall_self]
      change b.dataSize < 2 ^ 64
      omega
    case data =>
      right
      rw [Sys.call_setCall_self]
      change (u.call g).buffer.data.drop 16 = _
      rw [hbuffer, htake]
      exact List.drop_left' hheader
    case toCome =>
      rw [Sys.call_setCall_self]
      exact hxlen.symm
    case bodies =>
      rw [Sys.call_setCall_self]
      change Bodies requestId rest (env.moreFragments b) o' ms'
      rw [hmore]
      exact hbodies
    case size =>
      rw [Sys.call_setCall_self]
      change (u.call g).inputMessageSize + (b.size : ℤ) - 16 = _
      rw [hcallu, hcall]
      change (s.call g).inputMessageSize + (b.size : ℤ) - 16 = _
      rw [List.length_nil] at hsize
      rw [hsize]
      push_cast
      omega
    case mod =>
      rw [Sys.call_setCall_self]
      change 16 % 8 = (pos + cur.length) % 8
      rw [List.length_nil] at hdvd
      omega
    case chunked =>
      intro hne
      have := hcut hne
      rw [List.length_nil] at hdvd
      omega
    case fragmented =>
      rw [Sys.call_setCall_self]
      change env.moreFragments b = true → _
      rw [hmore]
      intro htrue
      have := hdvdm htrue
      rw [List.length_nil] at hdvd
      omega
    case input =>
      rw [Sys.call_setCall_self]
      change (u.call g).input = []
      rw [hcallu, hcall]
      exact h.input
    case capacity =>
      rw [Sys.call_setCall_self]
      change ∀ b', (u.call g).currentInputBuffer = some b' → _
      rw [hcallu]
      rintro b' hb'
      cases hb'
      exact hb.capacity
    case sameOrder =>
      rw [Sys.call_setCall_self]
      change (u.call g).unmarshalByteSwap = false
      rw [hcallu, hcall]
      exact h.sameOrder
    case strand => exact hpart
    case finds =>
      refine hfinds.of_touches (htouchu.trans (.setCall u g _)) ?_ ?_ ?_ ?_ <;>
        rw [Sys.call_setCall_self, hcallu]

/-- A fragment may make the message too large. -/
lemma does_nextFragment {n : ℕ} (hbuf : env.cfg.bufferSize < env.fuel) (hid : requestId < 2 ^ 32)
    (hn : pos + cur.length + o.length = n) (hlt : n < 2 ^ 64)
    (hexpect : (s.call g).inputExpectAnotherFragment = true)
    (h : Window env g requestId rest pos cur [] o ms s) :
    Does s (nextFragment env g)
      (fun _ t => ∃ cur' x' o' ms', o = cur' ++ x' ++ o' ∧ ms'.length < ms.length ∧
        (x' ≠ [] → 8 ≤ cur'.length) ∧ (t.call g).inbMkr = 16 ∧
        Window env g requestId rest (pos + cur.length) cur' x' o' ms' t)
      (fun e _ => LimitExceeded env n e) := by
  rw [nextFragment]
  refine .bind (does_inputNewFragment hbuf hid hexpect h) ?_
  rintro - t ⟨cur', x', o', ms', hoct, hms, hx, hmkr, ht⟩
  refine agree_getCall g ?_
  have hlen := congrArg List.length hoct
  rw [List.length_append, List.length_append] at hlen
  have hsize : sizeT (t.call g).inputMessageSize = pos + cur.length + cur'.length + x'.length := by
    rw [ht.size, sizeT]
    omega
  rw [Call.exceedsLimit, hsize]
  refine .of_ite (fun hexc => ?_) fun _ => ?_
  · rw [decide_eq_true_eq] at hexc
    exact .of_throw ⟨rfl, by omega⟩
  · exact .of_pure ⟨cur', x', o', ms', hoct, hms, hx, hmkr, ht⟩

/-! ### The rest of a fragment -/

/-- The call `g` is at position `pos`, with no octets in a buffer. -/
structure Released (env : Env) (g : Ref) (requestId : ℕ) (rest : List Message) (pos : ℕ)
    (x o : List UInt8) (ms : List Message) (s : Sys) : Prop where
  toCome : (s.call g).inputFragmentToCome = x.length
  bodies : Bodies requestId rest (s.call g).inputExpectAnotherFragment o ms
  size : (s.call g).inputMessageSize = pos + x.length
  chunked : x ≠ [] → 8 ∣ pos
  fragmented : (s.call g).inputExpectAnotherFragment = true → 8 ∣ pos + x.length
  input : (s.call g).input = []
  unused : (s.call g).currentInputBuffer = none
  sameOrder : (s.call g).unmarshalByteSwap = false
  strand : s.strand.HoldsPart env.cfg x ms
  finds : s.Finds g requestId

/-- The octets between the markers are passed over. -/
lemma does_release (h : Window env g requestId rest pos cur x o ms s) :
    Does s (releaseCurrent env.cfg g)
      (fun _ t => Released env g requestId rest (pos + cur.length) x o ms t ∧
        t.call g = { s.call g with currentInputBuffer := none }) E := by
  refine (does_releaseCurrent h.capacity h.strand).mono ?_ fun _ _ he => he
  rintro - t ⟨hcall, htouch, hstrand⟩
  refine ⟨⟨?_, ?_, ?_, h.chunked, ?_, ?_, ?_, ?_, hstrand, ?_⟩, hcall⟩
  · rw [hcall]
    exact h.toCome
  · rw [hcall]
    exact h.bodies
  · rw [hcall]
    push_cast
    exact h.size
  · rw [hcall]
    exact h.fragmented
  · rw [hcall]
    exact h.input
  · rw [hcall]
  · rw [hcall]
    exact h.sameOrder
  · refine h.finds.of_touches htouch ?_ ?_ ?_ ?_ <;> rw [hcall]

/-- With the markers at one place there is nothing between them. -/
lemma Released.window (h : Released env g requestId rest pos x o ms s)
    (hmarks : (s.call g).inbMkr = (s.call g).inbEnd) (hlt : (s.call g).inbEnd < 2 ^ 64)
    (hmod : (s.call g).inbMkr % 8 = pos % 8) : Window env g requestId rest pos [] x o ms s where
  marks := hmarks
  end_lt := hlt
  data := .inl rfl
  toCome := h.toCome
  bodies := h.bodies
  size := by
    rw [h.size]
    simp
  mod := hmod
  chunked := h.chunked
  fragmented := h.fragmented
  input := h.input
  capacity := by
    intro b hb
    rw [h.unused] at hb
    cases hb
  sameOrder := h.sameOrder
  strand := h.strand
  finds := h.finds

/-- The octets that fit into a buffer come into it. -/
lemma does_nextChunk (hx : x ≠ []) (hlt : x.length < 2 ^ 64)
    (h : Released env g requestId rest pos x o ms s) :
    Does s (nextChunk env g)
      (fun _ t => ∃ cur' x', x = cur' ++ x' ∧ cur'.length = min x.length env.cfg.bufferSize ∧
        (t.call g).inbMkr = 0 ∧ Window env g requestId rest pos cur' x' o ms t) E := by
  have hcfg8 := env.cfg.dvd_bufferSize
  have hdvd := h.chunked hx
  have hstrand := h.strand
  rw [Strand.HoldsPart, if_neg hx] at hstrand
  obtain ⟨hhead, hcoming, hspare, -⟩ := hstrand
  obtain ⟨b, st, hrun, hdata, hcap, hcoming', hspare', hst⟩ := Strand.inputChunk_eq (n := x.length)
    hhead hspare (by rw [hcoming, List.length_append]; omega)
  have hbdata : b.data = x.take (min x.length env.cfg.bufferSize) := by
    rw [hdata, hcoming, List.take_append_of_le_length (Nat.min_le_left _ _)]
  have hrest : st.connection.coming =
      x.drop (min x.length env.cfg.bufferSize) ++ messageOctets ms := by
    rw [hcoming', hcoming, List.drop_append_of_le_length (Nat.min_le_left _ _)]
  have hblen : b.data.length = min x.length env.cfg.bufferSize := by
    rw [hbdata, List.length_take]
    omega
  have hbsize : b.dataSize = min x.length env.cfg.bufferSize := hblen
  have hdlen : (x.drop (min x.length env.cfg.bufferSize)).length =
      x.length - min x.length env.cfg.bufferSize := List.length_drop
  rw [nextChunk]
  refine agree_getCall g ?_
  rw [if_pos h.input]
  refine .bind (Q := fun a t => a = b ∧ t = { s with strand := st }) ?_ ?_
  · refine agree_onStrand (fun a st' hr => ?_) (fun e hr => ?_)
    · rw [h.toCome, hrun] at hr
      cases hr
      exact ⟨rfl, rfl⟩
    · rw [h.toCome, hrun] at hr
      cases hr
  rintro a t' ⟨rfl, rfl⟩
  refine agree_modifyCall g rfl ?_
  generalize ht : ({ s with strand := st } : Sys).setCall g _ = t
  have hcall : t.call g = { s.call g with currentInputBuffer := some a } := by
    rw [← ht, Sys.call_setCall_self]
  have htouch : Touches g s t := by
    rw [← ht]
    exact ⟨rfl, rfl, fun _ hr => Sys.call_setCall_of_ne hr⟩
  have hts : t.strand = st := by rw [← ht]; rfl
  refine agree_modifyCall_last g rfl ⟨x.take (min x.length env.cfg.bufferSize),
    x.drop (min x.length env.cfg.bufferSize), (List.take_append_drop _ _).symm, ?_, ?_, ?_⟩
  · rw [← hbdata, hblen]
  · rw [Sys.call_setCall_self]
  · rw [← hbdata]
    have hbuffer : (t.call g).buffer = a := by rw [hcall]; rfl
    have hcut : x.drop (min x.length env.cfg.bufferSize) ≠ [] →
        a.data.length = env.cfg.bufferSize := by
      intro hne
      have hpos := List.length_pos_iff.mpr hne
      omega
    constructor
    case marks =>
      rw [Sys.call_setCall_self]
      change 0 + a.data.length = (t.call g).buffer.dataSize
      rw [hbuffer, Nat.zero_add]
      rfl
    case end_lt =>
      rw [Sys.call_setCall_self]
      change (t.call g).buffer.dataSize < 2 ^ 64
      rw [hbuffer, hbsize]
      omega
    case data =>
      right
      rw [Sys.call_setCall_self]
      change (t.call g).buffer.data.drop 0 = _
      rw [hbuffer, List.drop_zero]
    case toCome =>
      rw [Sys.call_setCall_self]
      change sizeSub (t.call g).inputFragmentToCome (t.call g).buffer.dataSize = _
      rw [hbuffer, hbsize, hcall]
      change sizeSub (s.call g).inputFragmentToCome _ = _
      rw [h.toCome, sizeSub_of_le (Nat.min_le_left _ _) hlt, hdlen]
    case bodies =>
      rw [Sys.call_setCall_self]
      change Bodies requestId rest (t.call g).inputExpectAnotherFragment o ms
      rw [hcall]
      exact h.bodies
    case size =>
      rw [Sys.call_setCall_self]
      change (t.call g).inputMessageSize = _
      rw [hcall]
      change (s.call g).inputMessageSize = _
      rw [h.size, hblen, hdlen]
      omega
    case mod =>
      rw [Sys.call_setCall_self]
      change 0 % 8 = pos % 8
      omega
    case chunked =>
      intro hne
      have := hcut hne
      omega
    case fragmented =>
      rw [Sys.call_setCall_self]
      change (t.call g).inputExpectAnotherFragment = true → _
      rw [hcall]
      intro hexpect
      have := h.fragmented hexpect
      omega
    case input =>
      rw [Sys.call_setCall_self]
      change (t.call g).input = []
      rw [hcall]
      exact h.input
    case capacity =>
      rw [Sys.call_setCall_self]
      change ∀ b', (t.call g).currentInputBuffer = some b' → _
      rw [hcall]
      rintro b' hb'
      cases hb'
      exact hcap.le
    case sameOrder =>
      rw [Sys.call_setCall_self]
      change (t.call g).unmarshalByteSwap = false
      rw [hcall]
      exact h.sameOrder
    case strand =>
      change t.strand.HoldsPart env.cfg _ ms
      rw [hts]
      exact h.strand.take hx hspare' hrest hst
    case finds =>
      refine h.finds.of_touches (htouch.trans (.setCall t g _)) ?_ ?_ ?_ ?_ <;>
        rw [Sys.call_setCall_self, hcall]

end

end OmniORB
