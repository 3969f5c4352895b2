import OmniORB.Giop.Written

/-!
# Messages and their fragments

What is sent of a message whose size is not known: the octets of its body in fragments, each with a
header of its own. All fragments but the last end on a multiple of eight octets. A message whose
size was counted is one header and the body.
-/

namespace OmniORB

open Library

/-! ### Headers -/

/-- The header of a message of `size` octets. -/
def messageHeader (mtype : MsgType) (more : Bool) (size : ℕ) : List UInt8 :=
  [0x47, 0x49, 0x4f, 0x50, 1, 2, if more then 3 else 1, mtype.octet] ++ ulongOctets size

@[simp] lemma length_messageHeader (mtype : MsgType) (more : Bool) (size : ℕ) :
    (messageHeader mtype more size).length = 12 := rfl

lemma sizeField_messageHeader (mtype : MsgType) (more : Bool) (size : ℕ) (x : List UInt8) :
    sizeField (messageHeader mtype more size ++ x) = size % 2 ^ 32 := by
  have hflag : (if more then (3 : UInt8) else 1) &&& 0x1 = 1 := by cases more <;> decide
  rw [← ulongValue_ulongOctets]
  exact if_pos hflag

namespace GiopOut

lemma buffer_setSizeField {s : GiopOut} {mtype : MsgType} {more : Bool} {size : ℕ} {x : List UInt8}
    (n : ℕ) (h : s.buffer = messageHeader mtype more size ++ x) :
    (s.setSizeField n).buffer = messageHeader mtype more n ++ x := by
  rw [setSizeField, h]
  rfl

lemma buffer_setMoreFragments {s : GiopOut} {mtype : MsgType} {more : Bool} {size : ℕ}
    {x : List UInt8} (h : s.buffer = messageHeader mtype more size ++ x) :
    s.setMoreFragments.buffer = messageHeader mtype true size ++ x := by
  have hflag : (if more then (3 : UInt8) else 1) ||| 0x2 = 3 := by cases more <;> decide
  rw [setMoreFragments, h]
  change [0x47, 0x49, 0x4f, 0x50, 1, 2, (if more then (3 : UInt8) else 1) ||| 0x2, mtype.octet] ++
    ulongOctets size ++ x = _
  rw [hflag]
  rfl

end GiopOut

/-! ### Fragments -/

/-- The message type of a fragment, of which the first is the message itself. -/
def fragmentType (mtype : MsgType) (first : Bool) : MsgType := if first then mtype else .fragment

/-- What comes behind the header of a fragment. -/
def fragmentId (requestId : ℕ) (first : Bool) : List UInt8 :=
  if first then [] else ulongOctets requestId

def fragment (mtype : MsgType) (requestId : ℕ) (first more : Bool) (p : List UInt8) : List UInt8 :=
  messageHeader (fragmentType mtype first) more (p.length + (fragmentId requestId first).length) ++
    (fragmentId requestId first ++ p)

/-- Fragments that others follow. -/
def fragments (mtype : MsgType) (requestId : ℕ) : Bool → List (List UInt8) → List UInt8
  | _, [] => []
  | first, p :: ps => fragment mtype requestId first true p ++ fragments mtype requestId false ps

/-- The octets in front of those of a fragment. -/
def frontLength (first : Bool) : ℕ := if first then 12 else 16

/-- A fragment that another one may follow. -/
def WholeFragment (first : Bool) (p : List UInt8) : Prop :=
  8 ∣ frontLength first + p.length ∧ frontLength first + p.length < 2 ^ 32

def WholeFragments : Bool → List (List UInt8) → Prop
  | _, [] => True
  | first, p :: ps => WholeFragment first p ∧ WholeFragments false ps

section

variable {mtype : MsgType} {requestId : ℕ}

lemma length_fragmentId (requestId : ℕ) (first : Bool) :
    12 + (fragmentId requestId first).length = frontLength first := by
  cases first <;> rfl

lemma length_fragment (first more : Bool) (p : List UInt8) :
    (fragment mtype requestId first more p).length = frontLength first + p.length := by
  rw [fragment, List.length_append, List.length_append, length_messageHeader,
    ← length_fragmentId requestId]
  omega

lemma fragments_append (first : Bool) (ps : List (List UInt8)) (q : List UInt8) :
    fragments mtype requestId first (ps ++ [q]) =
      fragments mtype requestId first ps ++
        fragment mtype requestId (first && ps.isEmpty) true q := by
  induction ps generalizing first with
  | nil =>
    rw [List.isEmpty_nil, Bool.and_true]
    exact List.append_nil _
  | cons p ps ih =>
    rw [List.cons_append, fragments, ih, fragments, List.append_assoc, List.isEmpty_cons,
      Bool.and_false, Bool.false_and]

lemma wholeFragments_append (first : Bool) (ps : List (List UInt8)) (q : List UInt8) :
    WholeFragments first (ps ++ [q]) ↔
      WholeFragments first ps ∧ WholeFragment (first && ps.isEmpty) q := by
  induction ps generalizing first with
  | nil =>
    rw [List.isEmpty_nil, Bool.and_true]
    exact and_comm
  | cons p ps ih =>
    rw [List.cons_append, WholeFragments, ih, WholeFragments, and_assoc, List.isEmpty_cons,
      Bool.and_false, Bool.false_and]

/-- The bodies of the fragments behind the first one are multiples of eight octets. -/
lemma WholeFragments.dvd {ps : List (List UInt8)} (h : WholeFragments false ps) :
    8 ∣ ps.flatten.length := by
  induction ps with
  | nil => exact Nat.dvd_zero 8
  | cons p ps ih =>
    have hp : 8 ∣ 16 + p.length := h.1.1
    have hps := ih h.2
    rw [List.flatten_cons, List.length_append]
    omega

/-- The header of the first fragment has to be added. -/
lemma WholeFragments.dvd_first {ps : List (List UInt8)} (hne : ps ≠ [])
    (h : WholeFragments true ps) : 8 ∣ 12 + ps.flatten.length := by
  cases ps with
  | nil => exact absurd rfl hne
  | cons p ps =>
    have hp : 8 ∣ 12 + p.length := h.1.1
    have hps := WholeFragments.dvd h.2
    rw [List.flatten_cons, List.length_append]
    omega

end

namespace GiopOut

/-! ### A message in fragments -/

/-- Fragments with the bodies `done` were sent, and the buffer holds the beginning `cur` of the
body of the next one. -/
structure Fragmented (env : OutEnv) (mtype : MsgType) (hdrsz : ℕ) (done : List (List UInt8))
    (cur : List UInt8) (s : GiopOut) : Prop where
  unsized : s.outputFragmentSize = 0
  sent : s.sent = fragments mtype s.requestId true done
  buffer : ∃ size, (done = [] → size = hdrsz) ∧
    s.buffer = messageHeader (fragmentType mtype done.isEmpty) false size ++
      (fragmentId s.requestId done.isEmpty ++ cur)
  whole : WholeFragments true done
  headers : s.headers = 12 + 16 * done.length
  le : s.outMkr ≤ s.outEnd
  dvd : 8 ∣ s.outEnd
  pos : 16 ≤ s.outEnd
  outEnd_le : s.outEnd ≤ env.cfg.bufferSize
  none_sent : done = [] → s.outputMessageSize = 0
  some_sent : done ≠ [] → s.outputMessageSize < 2 ^ 32 ∧
    (done.flatten.length < 2 ^ 32 → s.outputMessageSize = done.flatten.length)

/-- The body is in the fragments that were sent, of which those of `before` are the first, and in
the buffer. -/
def InFragments (env : OutEnv) (mtype : MsgType) (hdrsz : ℕ) (before : List (List UInt8))
    (body : List UInt8) (s : GiopOut) : Prop :=
  ∃ done cur, before <+: done ∧ body = done.flatten ++ cur ∧ Fragmented env mtype hdrsz done cur s

variable {env : OutEnv} {mtype : MsgType} {hdrsz : ℕ}

/-- A flush, with the size field set beforehand. -/
lemma outputFlush_sized {s : GiopOut} {mt : MsgType} {n : ℕ} {x : List UInt8}
    (hunsized : s.outputFragmentSize = 0) (hbuf : s.buffer = messageHeader mt false n ++ x)
    (hn : n < 2 ^ 32) :
    s.outputFlush env true =
      let msz := s.outputMessageSize % 2 ^ 32
      let total := if msz ≠ 0 then ulongSub (msz + n) 4 else n
      if env.cfg.giopMaxMsgSize < total then .error .marshalMessageSizeExceedLimitOnClient
      else .ok ({ s with buffer := messageHeader mt true n ++ x }.startFragment env total) := by
  have hmore := buffer_setMoreFragments hbuf
  have hs : s.setMoreFragments = { s with buffer := messageHeader mt true n ++ x } := by
    rw [← hmore]
    rfl
  have hsz : sizeField (messageHeader mt true n ++ x) = n := by
    rw [sizeField_messageHeader, Nat.mod_eq_of_lt hn]
  rw [outputFlush]
  dsimp only
  rw [if_pos hunsized, if_pos rfl, hs]
  dsimp only
  rw [hsz]

/-- A flush sets the size field to what is in the buffer. -/
lemma outputFlush_unsized {s : GiopOut} {mt : MsgType} {n : ℕ} {x : List UInt8}
    (hunsized : s.outputFragmentSize = 0) (hbuf : s.buffer = messageHeader mt false n ++ x) :
    s.outputFlush env false = (s.announce 0).outputFlush env true := by
  have hann : s.announce 0 = s.setSizeField (ulongSub s.outMkr 12) := if_pos hunsized
  have hset := buffer_setSizeField (ulongSub s.outMkr 12) hbuf
  have hcomm : s.setMoreFragments.setSizeField (ulongSub s.outMkr 12) =
      (s.setSizeField (ulongSub s.outMkr 12)).setMoreFragments := by
    have hleft := buffer_setSizeField (ulongSub s.outMkr 12) (buffer_setMoreFragments hbuf)
    have hright := buffer_setMoreFragments hset
    change { s with buffer := (s.setMoreFragments.setSizeField (ulongSub s.outMkr 12)).buffer } =
      { s with buffer := (s.setSizeField (ulongSub s.outMkr 12)).setMoreFragments.buffer }
    rw [hleft, hright]
  have hset' : (if false = true then s.setMoreFragments
      else s.setMoreFragments.setSizeField (ulongSub s.outMkr 12)) =
        (s.setSizeField (ulongSub s.outMkr 12)).setMoreFragments :=
    (if_neg Bool.false_ne_true).trans hcomm
  rw [hann, outputFlush, outputFlush]
  dsimp only
  rw [if_pos hunsized, hset']
  exact (if_pos hunsized).symm

lemma Fragmented.outMkr {done : List (List UInt8)} {cur : List UInt8} {s : GiopOut}
    (h : Fragmented env mtype hdrsz done cur s) :
    s.outMkr = frontLength done.isEmpty + cur.length := by
  obtain ⟨size, -, hbuf⟩ := h.buffer
  rw [GiopOut.outMkr, hbuf, List.length_append, List.length_append, length_messageHeader,
    ← length_fragmentId s.requestId done.isEmpty]
  omega

lemma ulongSub_of_le {a b : ℕ} (hba : b ≤ a) (ha : a < 2 ^ 32) : ulongSub a b = a - b := by
  rw [ulongSub]
  omega

lemma ulongSub_lt (a b : ℕ) : ulongSub a b < 2 ^ 32 := Nat.mod_lt _ (by decide)

/-- The end of a buffer whose message has not reached its limit. -/
lemma fragmentEnd_spec (env : OutEnv) (total : ℕ) :
    8 ∣ fragmentEnd env total ∧ 16 ≤ fragmentEnd env total ∧
      fragmentEnd env total ≤ env.cfg.bufferSize := by
  have hdvd := env.cfg.dvd_bufferSize
  have hlt := env.cfg.lt_bufferSize
  rw [fragmentEnd]
  split_ifs
  · omega
  · omega

/-- A flush sends what is in the buffer, with the octets `d` that follow it. -/
lemma Fragmented.flush {done : List (List UInt8)} {cur d : List UInt8} {s t : GiopOut}
    (h : Fragmented env mtype hdrsz done cur s) (hdvd : 8 ∣ s.outMkr + d.length)
    (hd : d.length < 2 ^ 31) (hrun : (s.announce d.length).outputFlush env true = .ok t) :
    Fragmented env mtype hdrsz (done ++ [cur ++ d]) [] (t.sendCopyChunk d) := by
  have hbufsz := env.cfg.bufferSize_lt
  have hmkr := h.outMkr
  have hle := h.le
  have hend := h.outEnd_le
  obtain ⟨size, -, hbuf⟩ := h.buffer
  have hfront := length_fragmentId s.requestId done.isEmpty
  -- the size of the fragment without its header
  generalize hn : ulongSub (s.outMkr + d.length) 12 = n at hrun
  have hneq : n = (cur ++ d).length + (fragmentId s.requestId done.isEmpty).length := by
    rw [← hn, ulongSub_of_le (by omega) (by omega), List.length_append]
    omega
  have hnlt : n < 2 ^ 32 := by
    rw [← hn]
    exact ulongSub_lt _ _
  have hann : s.announce d.length = s.setSizeField n := by
    rw [announce, if_pos h.unsized, hn]
  have hbuf' := buffer_setSizeField n hbuf
  rw [hann, outputFlush_sized (s := s.setSizeField n) h.unsized hbuf' hnlt] at hrun
  dsimp only at hrun
  generalize htotal : (if (s.setSizeField n).outputMessageSize % 2 ^ 32 ≠ 0 then
    ulongSub ((s.setSizeField n).outputMessageSize % 2 ^ 32 + n) 4 else n) = total at hrun
  change (if s.outputMessageSize % 2 ^ 32 ≠ 0 then
    ulongSub (s.outputMessageSize % 2 ^ 32 + n) 4 else n) = total at htotal
  split_ifs at hrun
  cases hrun
  obtain ⟨hdvdEnd, hposEnd, hleEnd⟩ := fragmentEnd_spec env total
  have hne : done ++ [cur ++ d] ≠ [] := by simp
  have hempty : (done ++ [cur ++ d]).isEmpty = false := by simp
  have hmkr' : (sendCopyChunk d (startFragment env total { s.setSizeField n with
      buffer := messageHeader (fragmentType mtype done.isEmpty) true n ++
        (fragmentId s.requestId done.isEmpty ++ cur) })).outMkr = 16 := rfl
  constructor
  case unsized => exact h.unsized
  case sent =>
    change s.sent ++ (messageHeader _ true n ++ _) ++ d = fragments mtype s.requestId true _
    rw [fragments_append, ← h.sent, Bool.true_and, fragment, hneq]
    simp only [List.append_assoc]
  case buffer =>
    refine ⟨n, fun hnil => absurd hnil hne, ?_⟩
    rw [hempty]
    exact (List.append_nil _).symm
  case whole =>
    rw [wholeFragments_append]
    refine ⟨h.whole, ?_⟩
    rw [Bool.true_and, WholeFragment, List.length_append]
    constructor <;> omega
  case headers =>
    change s.headers + 16 = _
    rw [h.headers, List.length_append, List.length_singleton]
    omega
  case le =>
    rw [hmkr']
    exact hposEnd
  case dvd => exact hdvdEnd
  case pos => exact hposEnd
  case outEnd_le => exact hleEnd
  case none_sent => exact fun hnil => absurd hnil hne
  case some_sent =>
    intro _
    change total < 2 ^ 32 ∧ (_ → total = _)
    rw [List.flatten_append, List.flatten_singleton, List.length_append]
    by_cases hdone : done = []
    · have hzero := h.none_sent hdone
      rw [hzero, Nat.zero_mod, if_neg (by decide)] at htotal
      rw [hdone] at hneq ⊢
      rw [← htotal]
      refine ⟨hnlt, fun _ => ?_⟩
      rw [hneq]
      simp [fragmentId]
    · obtain ⟨hlt, heq⟩ := h.some_sent hdone
      have hfirst := h.whole.dvd_first hdone
      have hid : (fragmentId s.requestId done.isEmpty).length = 4 := by
        rw [List.isEmpty_eq_false_iff.mpr hdone]
        rfl
      rw [Nat.mod_eq_of_lt hlt] at htotal
      constructor
      · rw [← htotal]
        split_ifs
        · exact ulongSub_lt _ _
        · exact hnlt
      · intro hfew
        rw [heq (by omega), if_pos (by omega), ulongSub] at htotal
        omega

lemma inFragments_keeps (env : OutEnv) (mtype : MsgType) (hdrsz : ℕ) (before : List (List UInt8)) :
    Keeps env (InFragments env mtype hdrsz before) where
  marks := by
    rintro body s ⟨done, cur, -, rfl, h⟩
    refine ⟨h.le, h.dvd, h.pos, h.outEnd_le, ?_⟩
    rw [h.outMkr, List.length_append]
    by_cases hdone : done = []
    · rw [hdone]
      simp [frontLength]
    · have hfirst := h.whole.dvd_first hdone
      rw [List.isEmpty_eq_false_iff.mpr hdone]
      change (16 + cur.length) % 8 = _
      omega
  put := by
    rintro body s b ⟨done, cur, hbefore, rfl, h⟩ hfits
    refine ⟨done, cur ++ b, hbefore, by rw [List.append_assoc], ?_⟩
    obtain ⟨size, hsize, hbuf⟩ := h.buffer
    exact { h with
      buffer := ⟨size, hsize, by
        change s.buffer ++ b = _
        rw [hbuf]
        simp only [List.append_assoc]
        rfl⟩
      le := by
        rw [outMkr_put]
        exact hfits }
  flush := by
    rintro body s t ⟨done, cur, hbefore, rfl, h⟩ hfull hrun
    obtain ⟨size, -, hbuf⟩ := h.buffer
    rw [outputFlush_unsized h.unsized hbuf] at hrun
    have hdvd := h.dvd
    have hflush := h.flush (d := []) (by rw [hfull]; exact hdvd) (by decide) hrun
    refine ⟨done ++ [cur ++ []], [], hbefore.trans (List.prefix_append _ _), by simp, ?_⟩
    have ht : t.sendCopyChunk [] = t := by rw [sendCopyChunk, List.append_nil]
    rw [ht] at hflush
    exact hflush
  sends := by
    rintro body s t d ⟨done, cur, hbefore, rfl, h⟩ hdvd hd hrun
    exact ⟨done ++ [cur ++ d], [], hbefore.trans (List.prefix_append _ _), by simp,
      h.flush hdvd hd hrun⟩

/-! ### A message of a counted size -/

/-- The body follows its header, in what was sent and in the buffer. -/
structure Counted (env : OutEnv) (mtype : MsgType) (size : ℕ) (body : List UInt8) (s : GiopOut) :
    Prop where
  sized : s.outputFragmentSize ≠ 0
  octets : s.sent ++ s.buffer = messageHeader mtype false size ++ body
  aligned : 8 ∣ s.sent.length
  headers : s.headers = 12
  le : s.outMkr ≤ s.outEnd
  outEnd : s.outEnd = env.cfg.bufferSize

lemma outputFlush_counted {s : GiopOut} (known : Bool) (hsized : s.outputFragmentSize ≠ 0) :
    s.outputFlush env known = .ok { s with
      sent := s.sent ++ s.buffer
      buffer := []
      outEnd := env.cfg.bufferSize
      outputMessageSize :=
        if s.outputMessageSize % 2 ^ 32 ≠ 0 then
          ulongSub (s.outputMessageSize % 2 ^ 32 + s.outMkr) 16
        else ulongSub s.outMkr 12 } := by
  rw [outputFlush]
  exact if_neg hsized

lemma counted_keeps (env : OutEnv) (mtype : MsgType) (size : ℕ) :
    Keeps env (Counted env mtype size) where
  marks := by
    intro body s h
    have hend := h.outEnd
    have hbuf := env.cfg.lt_bufferSize
    have hlen := congrArg List.length h.octets
    have halign := h.aligned
    rw [List.length_append, List.length_append, length_messageHeader] at hlen
    refine ⟨h.le, ?_, ?_, hend.le, ?_⟩
    · rw [hend]
      exact env.cfg.dvd_bufferSize
    · omega
    · rw [outMkr]
      omega
  put := by
    intro body s b h hfits
    exact { h with
      octets := by
        change s.sent ++ (s.buffer ++ b) = _
        rw [← List.append_assoc, h.octets, List.append_assoc]
      le := by
        rw [outMkr_put]
        exact hfits }
  flush := by
    intro body s t h hfull hrun
    rw [outputFlush_counted false h.sized] at hrun
    cases hrun
    have hdvd := env.cfg.dvd_bufferSize
    have halign := h.aligned
    have hend := h.outEnd
    rw [outMkr] at hfull
    exact { h with
      octets := by rw [List.append_nil]; exact h.octets
      aligned := by rw [List.length_append]; omega
      le := Nat.zero_le _
      outEnd := rfl }
  sends := by
    intro body s t d h hdvd hd hrun
    have hann : s.announce d.length = s := if_neg h.sized
    rw [hann, outputFlush_counted true h.sized] at hrun
    cases hrun
    have halign := h.aligned
    rw [outMkr] at hdvd
    exact { h with
      octets := by
        change s.sent ++ s.buffer ++ d ++ [] = _
        rw [List.append_nil, h.octets, List.append_assoc]
      aligned := by
        change 8 ∣ (s.sent ++ s.buffer ++ d).length
        rw [List.length_append, List.length_append]
        omega
      le := Nat.zero_le _
      outEnd := rfl }

end GiopOut

end OmniORB
