import OmniORB.Giop.OutputOffsets
import OmniORB.Giop.BodyReading

/-!
# From the writer to the reader

What a writer sends is a message in the sense of the reader: a header with the request id, and
fragments that go on with it. A call that waits for the message finds it on its strand, and is
behind the request id when its header has been looked at.
-/

namespace OmniORB

open Library M

/-! ### Messages of fragments -/

section

variable {mtype : MsgType} {requestId : ℕ}

lemma hasMagic_fragment (mtype : MsgType) (requestId : ℕ) (first more : Bool) (p : List UInt8) :
    hasMagic (fragment mtype requestId first more p) = true := rfl

lemma sizeField_fragment {first more : Bool} {p : List UInt8}
    (hlt : frontLength first + p.length < 2 ^ 32) :
    sizeField (fragment mtype requestId first more p) + 12 =
      (fragment mtype requestId first more p).length := by
  have hid := length_fragmentId requestId first
  rw [length_fragment, fragment, sizeField_messageHeader, Nat.mod_eq_of_lt (by omega)]
  omega

lemma length_fragment_lt {first more : Bool} {p : List UInt8}
    (hlt : frontLength first + p.length < 2 ^ 32) :
    (fragment mtype requestId first more p).length < 2 ^ 32 := by
  rw [length_fragment]
  exact hlt

/-- A fragment as a message. -/
def fragmentMessage (mtype : MsgType) (requestId : ℕ) (first more : Bool) (p : List UInt8)
    (hlt : frontLength first + p.length < 2 ^ 32) : Message where
  octets := fragment mtype requestId first more p
  magic := hasMagic_fragment mtype requestId first more p
  size_eq := sizeField_fragment hlt
  size_lt := length_fragment_lt hlt

/-- The octets `wire` are a message with the body `full`. -/
def Carries (mtype : MsgType) (requestId : ℕ) (full wire : List UInt8) : Prop :=
  ∃ m ms more p o, wire = messageOctets (m :: ms) ∧
    m.octets = fragment mtype requestId true more (ulongOctets requestId ++ p) ∧
    (more = true → 8 ∣ 16 + p.length) ∧ full = ulongOctets requestId ++ p ++ o ∧
    ∀ rest, Bodies requestId rest more o (ms ++ rest)

lemma exists_bodies (mtype : MsgType) (requestId : ℕ) {ps : List (List UInt8)} {last : List UInt8}
    (hwhole : WholeFragments false ps) (hlast : 16 + last.length < 2 ^ 32) :
    ∃ ms, messageOctets ms =
        fragments mtype requestId false ps ++ fragment mtype requestId false false last ∧
      ∀ rest, Bodies requestId rest true (ps.flatten ++ last) (ms ++ rest) := by
  induction ps with
  | nil =>
    refine ⟨[fragmentMessage mtype requestId false false last hlast], ?_, fun rest => ?_⟩
    · exact List.append_nil _
    · have hbodies := Bodies.cons (m := fragmentMessage mtype requestId false false last hlast)
        (p := last) rfl (fun hfalse => absurd hfalse Bool.false_ne_true)
        (@Bodies.nil requestId rest)
      rw [List.append_nil] at hbodies
      exact hbodies
  | cons p ps ih =>
    obtain ⟨⟨hdvd, hlt⟩, hrest⟩ := hwhole
    obtain ⟨ms, hms, hbodies⟩ := ih hrest
    refine ⟨fragmentMessage mtype requestId false true p hlt :: ms, ?_, fun rest => ?_⟩
    · rw [messageOctets_cons, hms, fragments, List.append_assoc]
      rfl
    · rw [List.flatten_cons, List.append_assoc]
      exact .cons rfl (fun _ => hdvd) (hbodies rest)

/-- A message in fragments. -/
lemma carries_fragments {done : List (List UInt8)} {last : List UInt8}
    (hwhole : WholeFragments true done)
    (hlast : frontLength done.isEmpty + last.length < 2 ^ 32)
    (hid : ulongOctets requestId <+: done.flatten ++ last) :
    Carries mtype requestId (done.flatten ++ last)
      (fragments mtype requestId true done ++
        fragment mtype requestId done.isEmpty false last) := by
  cases done with
  | nil =>
    obtain ⟨p, hp⟩ := hid
    have hp' : ulongOctets requestId ++ p = last := hp
    refine ⟨fragmentMessage mtype requestId true false last hlast, [], false, p, [], ?_, ?_, ?_, ?_,
      fun rest => .nil⟩
    · rw [messageOctets_cons, messageOctets_nil, List.append_nil]
      rfl
    · rw [hp']
      rfl
    · exact fun hfalse => absurd hfalse Bool.false_ne_true
    · rw [List.append_nil, hp']
      rfl
  | cons q ps =>
    obtain ⟨⟨hdvd, hlt⟩, hrest⟩ := hwhole
    change 8 ∣ 12 + q.length at hdvd
    obtain ⟨ms, hms, hbodies⟩ := exists_bodies mtype requestId hrest hlast
    have hidlen : (ulongOctets requestId).length = 4 := rfl
    rw [List.flatten_cons, List.append_assoc] at hid
    obtain ⟨p, rfl⟩ := List.prefix_of_prefix_length_le hid (List.prefix_append q _) (by omega)
    rw [List.length_append, hidlen] at hdvd
    refine ⟨fragmentMessage mtype requestId true true _ hlt, ms, true, p, ps.flatten ++ last, ?_,
      rfl, fun _ => ?_, ?_, hbodies⟩
    · rw [messageOctets_cons, hms, fragments, List.append_assoc]
      rfl
    · omega
    · rw [List.flatten_cons, List.append_assoc]

end

/-! ### What is sent -/

namespace GiopOut

variable {env : OutEnv} {mtype : MsgType} {hdrsz size : ℕ} {done : List (List UInt8)}
variable {body cur wire : List UInt8} {s : GiopOut}

/-- The last fragment holds what is in the buffer. Of a message that is in the buffer altogether,
padding behind the header is left out. -/
lemma Fragmented.outputMessageEnd (h : Fragmented env mtype hdrsz done cur s)
    (hhdr : 12 ≤ hdrsz) (hlt : hdrsz < 2 ^ 32) (hfew : s.flushed < 2 ^ 32)
    (hrun : s.outputMessageEnd = .ok wire) :
    ∃ last, last <+: cur ∧
      wire = fragments mtype s.requestId true done ++
        fragment mtype s.requestId done.isEmpty false last := by
  have hmkr := h.outMkr
  have hle := h.le
  have hend := h.outEnd_le
  have hbufsz := env.cfg.bufferSize_lt
  obtain ⟨n, hn, hbuf⟩ := h.buffer
  have hfront := length_fragmentId s.requestId done.isEmpty
  have hne : s.buffer ≠ [] := by
    intro hnil
    rw [GiopOut.outMkr, hnil, List.length_nil] at hmkr
    omega
  have hsz : ulongSub s.outMkr 12 = cur.length + (fragmentId s.requestId done.isEmpty).length := by
    rw [ulongSub_of_le (by omega) (by omega)]
    omega
  -- what is sent when nothing is left out
  have hwhole : s.sent ++ (s.setSizeField (ulongSub s.outMkr 12)).buffer =
      fragments mtype s.requestId true done ++
        fragment mtype s.requestId done.isEmpty false cur := by
    rw [buffer_setSizeField _ hbuf, h.sent, hsz]
    rfl
  rw [GiopOut.outputMessageEnd, if_neg hne] at hrun
  cases hclose : s.closeBuffer with
  | error e => simp [hclose] at hrun
  | ok c =>
    rw [hclose] at hrun
    dsimp only at hrun
    rw [closeBuffer, if_pos h.unsized] at hclose
    dsimp only at hclose
    by_cases hdone : done = []
    · have hsize : sizeField s.buffer = hdrsz := by
        rw [hbuf, sizeField_messageHeader, hn hdone, Nat.mod_eq_of_lt hlt]
      rw [if_pos (h.none_sent hdone), hsize] at hclose
      split_ifs at hclose with _ htrunc
      · -- nothing but padding follows the header
        cases hclose
        cases hrun
        have hfits : hdrsz - 12 ≤ cur.length := by
          have hge := le_alignTo hdrsz (show 0 < 8 by decide)
          rw [hdone] at hmkr
          change s.outMkr = 12 + cur.length at hmkr
          rw [htrunc, ulongSub_of_le (by omega) (by omega)] at hge
          omega
        refine ⟨cur.take (hdrsz - 12), List.take_prefix _ _, ?_⟩
        have hcut : ({ s with buffer := s.buffer.take hdrsz } : GiopOut).buffer =
            messageHeader (fragmentType mtype done.isEmpty) false n ++ cur.take (hdrsz - 12) := by
          change s.buffer.take hdrsz = _
          rw [hbuf, hdone, List.take_append, List.take_of_length_le hhdr]
          rfl
        have hlen : (cur.take (hdrsz - 12)).length = hdrsz - 12 := by
          rw [List.length_take, Nat.min_eq_left hfits]
        have hset := buffer_setSizeField (ulongSub hdrsz 12) hcut
        generalize cur.take (hdrsz - 12) = last at hlen hset
        change s.sent ++ GiopOut.buffer _ = _
        rw [hset, h.sent, hdone, ulongSub_of_le hhdr hlt, ← hlen]
        rfl
      · cases hclose
        cases hrun
        exact ⟨cur, List.prefix_refl cur, hwhole⟩
    · have hfirst := h.whole.dvd_first hdone
      rw [h.flushed] at hfew
      have hcount := (h.some_sent hdone).2 hfew
      rw [if_neg (by omega)] at hclose
      cases hclose
      cases hrun
      exact ⟨cur, List.prefix_refl cur, hwhole⟩

lemma Counted.outputMessageEnd (h : Counted env mtype size body s)
    (hrun : s.outputMessageEnd = .ok wire) : wire = messageHeader mtype false size ++ body := by
  rw [← h.octets]
  rw [GiopOut.outputMessageEnd] at hrun
  split_ifs at hrun with hnil
  · cases hrun
    rw [hnil, List.append_nil]
  · rw [closeBuffer, if_neg h.sized] at hrun
    cases hrun
    rfl

end GiopOut

end OmniORB
