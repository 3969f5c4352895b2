import OmniORB.Giop.Receiver

/-!
# Positions of the writer and of the reader

A message begins with its request id. From there on the positions of the writer and of a reader go
forward together, as long as the writer's are exact.
-/

namespace OmniORB

open Library M

/-! ### The beginning of a message -/

/-- The request id, in front of all else in the body of a message. -/
def marshalRequestId (requestId : ℕ) : WriteOp := .primitive .align4 (ulongOctets requestId) rfl

namespace GiopOut

/-- A new message whose request id has been marshalled, and whose body goes on with `ops`. -/
def begin (env : OutEnv) (sizing : Sizing) (mtype : MsgType) (requestId : ℕ) (ops : List WriteOp) :
    Except Exn GiopOut :=
  match start env sizing mtype requestId (marshalRequestId requestId :: ops) with
  | .error e => .error e
  | .ok s => s.write env (marshalRequestId requestId)

variable {env : OutEnv} {mtype : MsgType} {requestId hdrsz : ℕ} {ops : List WriteOp}
variable {body : List UInt8} {s t : GiopOut} {P : List UInt8 → GiopOut → Prop}

/-! ### The request id of the stream -/

lemma requestId_outputFlush {known : Bool} (hrun : s.outputFlush env known = .ok t) :
    t.requestId = s.requestId := by
  rw [outputFlush] at hrun
  dsimp only at hrun
  by_cases hsized : s.outputFragmentSize = 0
  · rw [if_pos hsized] at hrun
    cases known with
    | true =>
      rw [if_pos rfl] at hrun
      split_ifs at hrun <;> cases hrun <;> rfl
    | false =>
      rw [if_neg Bool.false_ne_true] at hrun
      split_ifs at hrun <;> cases hrun <;> rfl
  · rw [if_neg hsized] at hrun
    cases hrun
    rfl

/-- It stays what it is. -/
lemma Keeps.and_requestId (K : Keeps env P) (requestId : ℕ) :
    Keeps env fun body s => P body s ∧ s.requestId = requestId where
  marks := fun h => K.marks h.1
  put := fun b h hfits => ⟨K.put b h.1 hfits, h.2⟩
  flush := fun h hfull hrun => ⟨K.flush h.1 hfull hrun, (requestId_outputFlush hrun).trans h.2⟩
  sends := by
    intro body s t d h hdvd hd hrun
    refine ⟨K.sends d h.1 hdvd hd hrun, ?_⟩
    have hid : (s.announce d.length).requestId = s.requestId := by
      rw [announce]
      split_ifs
      · rfl
      · rfl
    exact ((requestId_outputFlush hrun).trans hid).trans h.2

/-! ### Behind the request id -/

lemma appends_requestId (h : Appends (marshalRequestId requestId) [] body) :
    body = ulongOctets requestId := by
  obtain ⟨pad, hpad, rfl⟩ := h
  have hnil : pad = [] := by
    have hlen : alignTo (12 + ([] : List UInt8).length) Alignment.align4.size = 12 := by decide
    have hpad' : 12 + 0 + pad.length = 12 := hpad.trans hlen
    exact List.length_eq_zero_iff.mp (by omega)
  rw [hnil]
  rfl

/-- A message in fragments, of which only the request id has been written. -/
lemma begin_fragments {hle : 12 ≤ hdrsz} {hlt : hdrsz < 2 ^ 32}
    (hrun : begin env (.fragments hdrsz hle hlt) mtype requestId ops = .ok s) :
    InFragments env mtype hdrsz [] (ulongOctets requestId) s ∧ s.requestId = requestId := by
  have hbufsz := env.cfg.lt_bufferSize
  have hnew : (outputNewMessage env mtype requestId).buffer =
      messageHeader mtype false 0xffffffff ++ [] := rfl
  have hbuf := buffer_setSizeField hdrsz hnew
  have hstart : InFragments env mtype hdrsz [] []
      ((outputNewMessage env mtype requestId).setSizeField hdrsz) ∧
      ((outputNewMessage env mtype requestId).setSizeField hdrsz).requestId = requestId := by
    refine ⟨⟨[], [], List.prefix_refl [], rfl, ?_⟩, rfl⟩
    exact {
      unsized := rfl
      sent := rfl
      buffer := ⟨hdrsz, fun _ => rfl, hbuf⟩
      whole := trivial
      headers := rfl
      le := by
        rw [GiopOut.outMkr, hbuf]
        change 12 ≤ env.cfg.bufferSize
        omega
      dvd := env.cfg.dvd_bufferSize
      pos := hbufsz.le
      outEnd_le := Nat.le_refl _
      none_sent := fun _ => rfl
      some_sent := fun h => absurd rfl h }
  change ((outputNewMessage env mtype requestId).setSizeField hdrsz).write env
    (marshalRequestId requestId) = _ at hrun
  obtain ⟨body, happ, hs⟩ := ((inFragments_keeps env mtype hdrsz []).and_requestId requestId).write
    hstart hrun
  rw [appends_requestId happ] at hs
  exact hs

lemma count_requestId (requestId : ℕ) : (marshalRequestId requestId).count 12 = 16 := by
  have h12 : alignTo 12 Alignment.align4.size = 12 := by decide
  change alignTo 12 Alignment.align4.size + 4 = 16
  rw [h12]

lemma le_foldl_count (pos : ℕ) (ops : List WriteOp) : pos ≤ ops.foldl WriteOp.count pos := by
  induction ops generalizing pos with
  | nil => exact Nat.le_refl pos
  | cons op ops ih =>
    rw [List.foldl_cons]
    exact ((le_alignTo pos op.alignment.size_pos).trans (Nat.le_add_right _ _)).trans (ih _)

/-- A message of a counted size, likewise. -/
lemma begin_counted (hrun : begin env .counted mtype requestId ops = .ok s) :
    Unflushed env mtype (ops.foldl WriteOp.count 16 - 12) (ulongOctets requestId) s ∧
      s.requestId = requestId := by
  have hbufsz := env.cfg.lt_bufferSize
  have hnew : (outputNewMessage env mtype requestId).buffer =
      messageHeader mtype false 0xffffffff ++ [] := rfl
  have hcount : (marshalRequestId requestId :: ops).foldl WriteOp.count 12 =
      ops.foldl WriteOp.count 16 := by
    rw [List.foldl_cons, count_requestId]
  unfold begin start at hrun
  dsimp only at hrun
  rw [hcount] at hrun
  generalize hsize : ops.foldl WriteOp.count 16 - 12 = size at hrun ⊢
  have hpos : size ≠ 0 := by
    have hle := le_foldl_count 16 ops
    omega
  cases hset : (outputNewMessage env mtype requestId).outputSetFragmentSize env size with
  | error e => simp [hset] at hrun
  | ok u =>
    rw [hset] at hrun
    change (u.setSizeField size).write env (marshalRequestId requestId) = _ at hrun
    rw [outputSetFragmentSize] at hset
    split_ifs at hset
    cases hset
    have hbuf := buffer_setSizeField size hnew
    have hstart : Unflushed env mtype size []
        (setSizeField size { outputNewMessage env mtype requestId with outputFragmentSize := size }) := by
      exact {
        sized := hpos
        octets := hbuf
        aligned := Nat.dvd_zero 8
        headers := rfl
        le := by
          change 12 ≤ env.cfg.bufferSize
          omega
        outEnd := rfl
        unsent := rfl
        uncounted := rfl }
    have hkeeps := (counted_keeps env mtype size).and_requestId requestId
    obtain ⟨-, -, -, hid⟩ := hkeeps.write ⟨hstart.toCounted, rfl⟩ hrun
    have hstays : (marshalRequestId requestId).staysIn env.cfg
        (setSizeField size { outputNewMessage env mtype requestId with
          outputFragmentSize := size }).outMkr := by
      have h12 : alignTo 12 Alignment.align4.size = 12 := by decide
      rw [hstart.outMkr]
      change alignTo 12 Alignment.align4.size + 4 ≤ env.cfg.bufferSize
      rw [h12]
      exact hbufsz.le
    have hsent := hstart.sent_of_stays hstays hrun
    obtain ⟨body, happ, hs⟩ := hstart.write hrun
    rw [appends_requestId happ] at hs
    exact ⟨hs.resolve_right fun hbehind => hbehind.some_sent hsent, hid⟩

/-! ### Exact positions -/

/-- From the state `s₀` on, behind the request id, positions are exact: between any two of them the
writer's differ by the octets written, and so do those of whoever receives what is sent and reads
what was written there, if that is not padding that was left out. -/
structure OffsetsExact (env : OutEnv) (mtype : MsgType) (requestId : ℕ) (s₀ : GiopOut)
    (ops : List WriteOp) : Prop where
  output : ∀ {xs ys zs : List WriteOp} {s₁ s₂ : GiopOut}, ops = xs ++ ys ++ zs →
    s₀.writes env xs = .ok s₁ → s₁.writes env ys = .ok s₂ →
    (s₂.currentOutputPtr : ℤ) - s₁.currentOutputPtr = s₂.emitted - s₁.emitted
  input : ∀ {xs ys zs : List WriteOp} {s₁ s₂ s : GiopOut} {wire : List UInt8},
    ops = xs ++ ys ++ zs → s₀.writes env xs = .ok s₁ → s₁.writes env ys = .ok s₂ →
    s₂.writes env zs = .ok s → s.outputMessageEnd = .ok wire →
    s₂.emitted + s.headers ≤ wire.length →
    ∀ {reader : Env} {g : Ref} {r : Sys} {ms rest : List Message},
      reader.cfg.bufferSize < reader.fuel → (messageOctets ms).length ≤ reader.fuel →
      messageOctets ms = wire ++ messageOctets rest → r.strand.Holds reader.cfg ms →
      Awaits mtype requestId r g → Fresh g r →
      ∀ {rs₁ rs₂ : List ReadOp} {v₁ v₂ a₁ a₂ : List UInt8} {t₁ t₂ : Sys},
        TakesAll xs rs₁ v₁ → TakesAll ys rs₂ v₂ →
        receive reader mtype rs₁ g r = .ok a₁ t₁ →
        receive reader mtype (rs₁ ++ rs₂) g r = .ok a₂ t₂ →
        ((t₂.call g).currentInputPtr : ℤ) - (t₁.call g).currentInputPtr =
          s₂.currentOutputPtr - s₁.currentOutputPtr

lemma takesAll_append {xs ys : List WriteOp} {rs₁ rs₂ : List ReadOp} {v₁ v₂ : List UInt8}
    (hxs : TakesAll xs rs₁ v₁) (hys : TakesAll ys rs₂ v₂) :
    TakesAll (xs ++ ys) (rs₁ ++ rs₂) (v₁ ++ v₂) := by
  induction hxs with
  | nil => exact hys
  | cons hop hops ih =>
    rw [List.append_assoc]
    exact .cons hop ih

/-- The position of a reader of a message. -/
lemma currentInputPtr_of_receive {reader : Env} {g : Ref} {r t : Sys} {ms rest : List Message}
    {full wire body' v a : List UInt8} {rs : List ReadOp} (hid : requestId < 2 ^ 32)
    (hbuf : reader.cfg.bufferSize < reader.fuel)
    (hfuel : (messageOctets ms).length ≤ reader.fuel)
    (hms : messageOctets ms = wire ++ messageOctets rest) (hholds : r.strand.Holds reader.cfg ms)
    (hawaits : Awaits mtype requestId r g) (hfresh : Fresh g r) (hlt : 12 + full.length < 2 ^ 64)
    (hcarries : Carries mtype requestId full wire) (htakes : TakesAll ops rs v)
    (hops : Marshals ops (ulongOctets requestId) body') (hpre : body' <+: full)
    (hrun : receive reader mtype rs g r = .ok a t) :
    a = v ∧ (t.call g).currentInputPtr = 12 + body'.length := by
  obtain ⟨m, ms', more, p, o, rfl, hm, hdvd, rfl, hbodies⟩ := hcarries
  have hall : messageOctets ms = messageOctets (m :: (ms' ++ rest)) := by
    rw [hms, messageOctets, messageOctets, messageOctets, List.flatMap_cons, List.flatMap_cons,
      List.flatMap_append, List.append_assoc]
  have hholds' : r.strand.Holds reader.cfg (m :: (ms' ++ rest)) :=
    { hholds with pending := hholds.pending.trans hall }
  rw [hall] at hfuel
  have hparts : Parts mtype requestId rest m (ms' ++ rest) more p o
      (ulongOctets requestId ++ p ++ o) := ⟨hm, hdvd, hbodies rest, rfl⟩
  have hreads := does_receive hbuf hid hlt hfuel hparts hawaits hholds' hfresh htakes hops hpre
  have hmeets := hreads.meets
  rw [hrun] at hmeets
  exact ⟨hmeets.1, hmeets.2.currentInputPtr hlt⟩

/-- A state with `body` written, where the position is exact. -/
structure ExactAt (body : List UInt8) (s : GiopOut) : Prop where
  emitted : s.emitted = body.length
  currentOutputPtr : s.currentOutputPtr = s.emitted

/-- A message that is sent with all of its body, or without padding at its end. -/
def SendsBody (mtype : MsgType) (requestId : ℕ) (body : List UInt8) (s : GiopOut) : Prop :=
  ∀ {wire : List UInt8}, s.outputMessageEnd = .ok wire → 4 + s.headers ≤ wire.length →
    ∃ full, full <+: body ∧ full.length + s.headers = wire.length ∧ 12 + full.length < 2 ^ 64 ∧
      Carries mtype requestId full wire

/-- Three parts of a run, with exact positions in between and a message at the end. -/
def Splits (env : OutEnv) (mtype : MsgType) (requestId : ℕ) (s₀ : GiopOut)
    (xs ys zs : List WriteOp) (s₁ s₂ s : GiopOut) : Prop :=
  s₀.writes env xs = .ok s₁ → s₁.writes env ys = .ok s₂ → s₂.writes env zs = .ok s →
    ∃ body₁ body₂ body, Marshals xs (ulongOctets requestId) body₁ ∧ ExactAt body₁ s₁ ∧
      Marshals ys body₁ body₂ ∧ ExactAt body₂ s₂ ∧ Marshals zs body₂ body ∧
      SendsBody mtype requestId body s

/-- Where every run splits like this, positions are exact. -/
lemma offsetsExact_of_splits {s₀ : GiopOut} (hid : requestId < 2 ^ 32)
    (hrun : s₀.writes env ops = .ok s)
    (hsplits : ∀ {xs ys zs s₁ s₂ s}, ops = xs ++ ys ++ zs →
      Splits env mtype requestId s₀ xs ys zs s₁ s₂ s) :
    OffsetsExact env mtype requestId s₀ ops where
  output := by
    intro xs ys zs s₁ s₂ hops hxs hys
    rw [hops, List.append_assoc] at hrun
    obtain ⟨u₁, hu₁, hrest⟩ := writes_append.mp hrun
    rw [hxs] at hu₁
    cases hu₁
    obtain ⟨u₂, hu₂, hzs⟩ := writes_append.mp hrest
    rw [hys] at hu₂
    cases hu₂
    obtain ⟨body₁, body₂, body, -, h₁, -, h₂, -, -⟩ := hsplits hops hxs hys hzs
    rw [h₁.currentOutputPtr, h₂.currentOutputPtr]
  input := by
    intro xs ys zs s₁ s₂ s wire hops hxs hys hzs hend hsent reader g r ms rest hbuf hfuel hms hholds
      hawaits hfresh rs₁ rs₂ v₁ v₂ a₁ a₂ t₁ t₂ htakes₁ htakes₂ hreceive₁ hreceive₂
    obtain ⟨body₁, body₂, body, hm₁, h₁, hm₂, h₂, hm, hsends⟩ := hsplits hops hxs hys hzs
    have hle₁ := hm₁.isPrefix.length_le
    have hle₂ := hm₂.isPrefix.length_le
    have hidlen : (ulongOctets requestId).length = 4 := rfl
    have hemitted := h₂.emitted
    obtain ⟨full, hfull, hlen, hlt, hcarries⟩ := hsends hend (by omega)
    have hpre₂ : body₂ <+: full :=
      List.prefix_of_prefix_length_le hm.isPrefix hfull (by omega)
    obtain ⟨-, ht₁⟩ := currentInputPtr_of_receive hid hbuf hfuel hms hholds hawaits hfresh hlt
      hcarries htakes₁ hm₁ (hm₂.isPrefix.trans hpre₂) hreceive₁
    obtain ⟨-, ht₂⟩ := currentInputPtr_of_receive hid hbuf hfuel hms hholds hawaits hfresh hlt
      hcarries (takesAll_append htakes₁ htakes₂) (hm₁.append hm₂) hpre₂ hreceive₂
    rw [ht₁, ht₂, h₁.currentOutputPtr, h₂.currentOutputPtr, h₁.emitted, h₂.emitted]
    omega

/-! ### Both ways to find the size -/

lemma flushed_mono {done done' : List (List UInt8)} (h : done <+: done') :
    done.flatten.length ≤ done'.flatten.length := by
  obtain ⟨more, rfl⟩ := h
  rw [List.flatten_append, List.length_append]
  exact Nat.le_add_right _ _

/-- In fragments positions are exact as long as the octets that were sent can be counted. -/
lemma offsetsExact_fragments {s₀ : GiopOut} (hid : requestId < 2 ^ 32) (hle : 12 ≤ hdrsz)
    (hlt : hdrsz < 2 ^ 32)
    (h₀ : InFragments env mtype hdrsz [] (ulongOctets requestId) s₀ ∧ s₀.requestId = requestId)
    (hrun : s₀.writes env ops = .ok s) (hfew : s.flushed < 2 ^ 32) :
    OffsetsExact env mtype requestId s₀ ops := by
  refine offsetsExact_of_splits hid hrun fun {xs ys zs s₁ s₂ t} hops hxs hys hzs => ?_
  have hsame : t = s := by
    have hall : s₀.writes env ops = .ok t := by
      rw [hops]
      exact writes_append.mpr ⟨s₂, writes_append.mpr ⟨s₁, hxs, hys⟩, hzs⟩
    rw [hrun] at hall
    cases hall
    rfl
  subst hsame
  -- the fragments that were sent are the first of those sent later
  obtain ⟨body₁, hm₁, ⟨done₁, cur₁, hpre₁, rfl, h₁⟩, hid₁⟩ :=
    ((inFragments_keeps env mtype hdrsz []).and_requestId requestId).writes h₀ hxs
  have hin₁ : InFragments env mtype hdrsz done₁ (done₁.flatten ++ cur₁) s₁ :=
    ⟨done₁, cur₁, List.prefix_refl _, rfl, h₁⟩
  obtain ⟨body₂, hm₂, ⟨done₂, cur₂, hpre₂, rfl, h₂⟩, hid₂⟩ :=
    ((inFragments_keeps env mtype hdrsz done₁).and_requestId requestId).writes ⟨hin₁, hid₁⟩ hys
  have hin₂ : InFragments env mtype hdrsz done₂ (done₂.flatten ++ cur₂) s₂ :=
    ⟨done₂, cur₂, List.prefix_refl _, rfl, h₂⟩
  obtain ⟨body, hm, ⟨done, cur, hpre, rfl, h⟩, hid'⟩ :=
    ((inFragments_keeps env mtype hdrsz done₂).and_requestId requestId).writes ⟨hin₂, hid₂⟩ hzs
  have hflushed := h.flushed
  have hfew₂ : s₂.flushed < 2 ^ 32 := by
    have := flushed_mono hpre
    rw [h₂.flushed]
    omega
  have hfew₁ : s₁.flushed < 2 ^ 32 := by
    have := flushed_mono hpre₂
    have hflushed₂ := h₂.flushed
    rw [h₁.flushed]
    omega
  refine ⟨_, _, _, hm₁, ⟨h₁.emitted, h₁.currentOutputPtr_eq_iff.mpr hfew₁⟩, hm₂,
    ⟨h₂.emitted, h₂.currentOutputPtr_eq_iff.mpr hfew₂⟩, hm, ?_⟩
  intro wire hend hlong
  have hbufsz := env.cfg.bufferSize_lt
  have hmkr := h.outMkr
  have hle' := h.le
  have hendle := h.outEnd_le
  have hheaders := h.headers
  obtain ⟨last, hlast, rfl⟩ := h.outputMessageEnd hle hlt hfew hend
  rw [hid'] at hlong ⊢
  have hlastlen := hlast.length_le
  have hfull : done.flatten ++ last <+: done.flatten ++ cur :=
    (List.prefix_append_right_inj _).mpr hlast
  have hlen : (done.flatten ++ last).length + t.headers =
      (fragments mtype requestId true done ++
        fragment mtype requestId done.isEmpty false last).length := by
    rw [List.length_append, List.length_append, length_fragment, hheaders]
    by_cases hdone : done = []
    · rw [hdone]
      change 0 + last.length + (12 + 0) = 0 + (12 + last.length)
      omega
    · have hfragments := length_fragments mtype requestId hdone
      rw [List.isEmpty_eq_false_iff.mpr hdone]
      change _ = _ + (16 + last.length)
      omega
  refine ⟨done.flatten ++ last, hfull, hlen, ?_, carries_fragments h.whole (by omega) ?_⟩
  · rw [List.length_append]
    omega
  · have hall := (hm₁.isPrefix.trans hm₂.isPrefix).trans hm.isPrefix
    have hidlen : (ulongOctets requestId).length = 4 := rfl
    exact List.prefix_of_prefix_length_le hall hfull (by omega)

lemma staysInBuffer_append {cfg : Config} {pos : ℕ} {xs ys : List WriteOp} :
    staysInBuffer cfg pos (xs ++ ys) ↔
      staysInBuffer cfg pos xs ∧ staysInBuffer cfg (xs.foldl WriteOp.count pos) ys := by
  induction xs generalizing pos with
  | nil => exact (iff_of_eq (true_and _)).symm
  | cons op xs ih => rw [List.cons_append, staysInBuffer, staysInBuffer, ih, and_assoc, List.foldl_cons]

/-- A counted message has exact positions if it stays in its buffer. -/
lemma offsetsExact_counted {size : ℕ} {s₀ : GiopOut} (hid : requestId < 2 ^ 32)
    (hsize : size = ops.foldl WriteOp.count 16 - 12)
    (h₀ : Unflushed env mtype size (ulongOctets requestId) s₀) (hrun : s₀.writes env ops = .ok s)
    (hstays : staysInBuffer env.cfg 16 ops) : OffsetsExact env mtype requestId s₀ ops := by
  refine offsetsExact_of_splits hid hrun fun {xs ys zs s₁ s₂ t} hops hxs hys hzs => ?_
  rw [hops, staysInBuffer_append, staysInBuffer_append] at hstays
  obtain ⟨⟨hstays₁, hstays₂⟩, hstays₃⟩ := hstays
  have hbufsz := env.cfg.bufferSize_lt
  have hidlen : 12 + (ulongOctets requestId).length = 16 := rfl
  obtain ⟨body₁, hm₁, h₁⟩ := h₀.writes (by rwa [hidlen]) hxs
  have hcount₁ := hm₁.count
  rw [hidlen] at hcount₁
  obtain ⟨body₂, hm₂, h₂⟩ := h₁.writes (by rwa [hcount₁]) hys
  have hcount₂ := hm₂.count
  rw [hcount₁, ← List.foldl_append] at hcount₂
  obtain ⟨body, hm, h⟩ := h₂.writes (by rwa [hcount₂]) hzs
  have hcount := hm.count
  rw [hcount₂, ← List.foldl_append, ← hops] at hcount
  refine ⟨_, _, _, hm₁, ⟨h₁.emitted, h₁.currentOutputPtr⟩, hm₂, ⟨h₂.emitted, h₂.currentOutputPtr⟩,
    hm, ?_⟩
  intro wire hend hlong
  -- the counted size is that of the body
  have hbody : size = body.length := by omega
  have hmkr := h.outMkr
  have hle := h.le.trans_eq h.outEnd
  rw [h.outputMessageEnd hend]
  refine ⟨body, List.prefix_refl body, ?_, by omega, ?_⟩
  · rw [h.headers, List.length_append, length_messageHeader]
    omega
  · have hpre := (hm₁.isPrefix.trans hm₂.isPrefix).trans hm.isPrefix
    have hcarries := @carries_fragments mtype requestId [] body trivial
      (show 12 + body.length < 2 ^ 32 by omega) hpre
    rw [hbody]
    exact hcarries

/-- Behind the request id, `ops` are written with exact positions: in fragments, as long as less
than 2^32 octets have been sent before the last one, and with a counted size if they stay in the first
buffer. -/
def KeepsOffsets (env : OutEnv) (ops : List WriteOp) (s : GiopOut) : Sizing → Prop
  | .fragments _ _ _ => s.flushed < 2 ^ 32
  | .counted => staysInBuffer env.cfg 16 ops

/-- When positions are exact. -/
theorem offsetsExact_iff {sizing : Sizing} {s₀ : GiopOut} (hid : requestId < 2 ^ 32)
    (hbegin : begin env sizing mtype requestId ops = .ok s₀) (hrun : s₀.writes env ops = .ok s) :
    OffsetsExact env mtype requestId s₀ ops ↔ KeepsOffsets env ops s sizing := by
  cases sizing with
  | fragments hdrsz hle hlt =>
    have h₀ := begin_fragments hbegin
    refine ⟨fun hexact => ?_, offsetsExact_fragments hid hle hlt h₀ hrun⟩
    obtain ⟨done₀, cur₀, -, hbody₀, hin₀⟩ := h₀.1
    obtain ⟨body, -, ⟨done, cur, -, rfl, hin⟩, -⟩ :=
      ((inFragments_keeps env mtype hdrsz []).and_requestId requestId).writes h₀ hrun
    have hzero : s₀.currentOutputPtr = s₀.emitted := by
      have hlen := congrArg List.length hbody₀
      have hidlen : (ulongOctets requestId).length = 4 := rfl
      rw [List.length_append] at hlen
      refine hin₀.currentOutputPtr_eq_iff.mpr ?_
      rw [hin₀.flushed]
      omega
    have hdiff := @OffsetsExact.output _ _ _ _ _ hexact [] ops [] _ _ (List.append_nil ops).symm rfl hrun
    exact hin.currentOutputPtr_eq_iff.mp (by omega)
  | counted =>
    obtain ⟨h₀, -⟩ := begin_counted hbegin
    refine ⟨fun hexact => ?_, offsetsExact_counted hid rfl h₀ hrun⟩
    by_contra hleaves
    have hidlen : 12 + (ulongOctets requestId).length = 16 := rfl
    obtain ⟨xs, zs, u, hops, hxs, hne⟩ := h₀.exists_wrong (by rwa [hidlen]) hrun
    have hzero := h₀.currentOutputPtr
    have hdiff := @OffsetsExact.output _ _ _ _ _ hexact [] xs zs _ _ hops rfl hxs
    omega

/-! ### One counted message that does not fit, and one that does -/

/-- The parameters as they are initialised, and a loop that goes round ten times. -/
def initialOut : OutEnv := ⟨Config.initial, fun _ => 0, 10⟩

/-- An array as long as a buffer. -/
def wholeBuffer : List WriteOp :=
  [.octetArray (List.replicate 8192 0) .align1 (by rw [List.length_replicate]; decide)]

/-- How far the position goes while `ops` is written, and how many octets are written. -/
def advances (env : OutEnv) (sizing : Sizing) (ops : List WriteOp) : Option (ℕ × ℕ) :=
  match begin env sizing .request 7 ops with
  | .error _ => none
  | .ok s₀ =>
    match s₀.writes env ops with
    | .error _ => none
    | .ok s => some (s.currentOutputPtr - s₀.currentOutputPtr, s.emitted - s₀.emitted)

set_option maxRecDepth 100000 in
/-- 8192 octets of a counted message move the position by 8176. -/
theorem advances_wholeBuffer :
    advances initialOut .counted wholeBuffer = some (8176, 8192) ∧
      ∃ s₀ s, begin initialOut .counted .request 7 wholeBuffer = .ok s₀ ∧
        s₀.writes initialOut wholeBuffer = .ok s ∧
        ¬OffsetsExact initialOut .request 7 s₀ wholeBuffer := by
  have hrun : advances initialOut .counted wholeBuffer = some (8176, 8192) := by decide
  refine ⟨hrun, ?_⟩
  rw [advances] at hrun
  cases hbegin : begin initialOut .counted .request 7 wholeBuffer with
  | error e => simp [hbegin] at hrun
  | ok s₀ =>
    rw [hbegin] at hrun
    dsimp only at hrun
    cases hwrites : s₀.writes initialOut wholeBuffer with
    | error e => simp [hwrites] at hrun
    | ok s =>
      rw [hwrites] at hrun
      rw [Option.some.injEq, Prod.mk.injEq] at hrun
      refine ⟨s₀, s, rfl, hwrites, fun hexact => ?_⟩
      have hdiff := @OffsetsExact.output _ _ _ _ _ hexact [] wholeBuffer [] _ _
        (List.append_nil _).symm rfl hwrites
      omega

def threeOctets : List WriteOp := [.octetArray [1, 2, 3] .align1 (by decide)]

theorem offsetsExact_threeOctets :
    ∃ s₀ s, begin initialOut .counted .request 7 threeOctets = .ok s₀ ∧
      s₀.writes initialOut threeOctets = .ok s ∧
      OffsetsExact initialOut .request 7 s₀ threeOctets := by
  have hrun : advances initialOut .counted threeOctets = some (3, 3) := by decide
  rw [advances] at hrun
  cases hbegin : begin initialOut .counted .request 7 threeOctets with
  | error e => simp [hbegin] at hrun
  | ok s₀ =>
    rw [hbegin] at hrun
    dsimp only at hrun
    cases hwrites : s₀.writes initialOut threeOctets with
    | error e => simp [hwrites] at hrun
    | ok s =>
      have hstays : staysInBuffer Config.initial 16 threeOctets := by decide
      exact ⟨s₀, s, rfl, hwrites, (offsetsExact_iff (by decide) hbegin hwrites).mpr hstays⟩

end GiopOut

end OmniORB
