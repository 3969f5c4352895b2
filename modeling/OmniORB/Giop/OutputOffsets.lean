import OmniORB.Giop.Fragments

/-!
# Positions in the output

`currentOutputPtr` against the octets of the body that were written. A message in fragments is
counted exactly as long as less than 2^32 octets of it are in fragments that were sent. A message of
a counted size is counted wrongly as soon as a buffer has been sent.
-/

namespace OmniORB

open Library

namespace GiopOut

variable {env : OutEnv} {mtype : MsgType} {hdrsz : ℕ} {body : List UInt8} {s t : GiopOut}

/-! ### Messages in fragments -/

/-- The octets of the body that are in fragments which were sent. -/
def flushed (s : GiopOut) : ℕ := s.sent.length - (s.headers - 16)

section

variable {requestId : ℕ}

lemma length_fragments_false (ps : List (List UInt8)) :
    (fragments mtype requestId false ps).length = ps.flatten.length + 16 * ps.length := by
  induction ps with
  | nil => rfl
  | cons p ps ih =>
    have hp : (fragment mtype requestId false true p).length = 16 + p.length :=
      length_fragment false true p
    rw [fragments, List.length_append, ih, hp, List.flatten_cons, List.length_append,
      List.length_cons]
    omega

lemma length_fragments (mtype : MsgType) (requestId : ℕ) {ps : List (List UInt8)} (hne : ps ≠ []) :
    (fragments mtype requestId true ps).length + 4 = ps.flatten.length + 16 * ps.length := by
  cases ps with
  | nil => exact absurd rfl hne
  | cons p ps =>
    have hp : (fragment mtype requestId true true p).length = 12 + p.length :=
      length_fragment true true p
    rw [fragments, List.length_append, length_fragments_false, hp, List.flatten_cons,
      List.length_append, List.length_cons]
    omega

end

namespace Fragmented

variable {done : List (List UInt8)} {cur : List UInt8}

lemma emitted (h : Fragmented env mtype hdrsz done cur s) :
    s.emitted = (done.flatten ++ cur).length := by
  have hmkr := h.outMkr
  rw [GiopOut.outMkr] at hmkr
  rw [GiopOut.emitted, h.sent, h.headers, hmkr, List.length_append]
  by_cases hdone : done = []
  · rw [hdone]
    change 0 + (12 + cur.length) - (12 + 0) = 0 + cur.length
    omega
  · have hlen := length_fragments mtype s.requestId hdone
    have hfirst := h.whole.dvd_first hdone
    rw [List.isEmpty_eq_false_iff.mpr hdone]
    change _ + (16 + cur.length) - _ = _
    omega

lemma flushed (h : Fragmented env mtype hdrsz done cur s) : s.flushed = done.flatten.length := by
  rw [GiopOut.flushed, h.sent, h.headers]
  by_cases hdone : done = []
  · rw [hdone]
    rfl
  · have hlen := length_fragments mtype s.requestId hdone
    have hpos := List.length_pos_iff.mpr hdone
    omega

/-- The position is exact as long as the size of what was sent has not overflowed. -/
lemma currentOutputPtr_eq_iff (h : Fragmented env mtype hdrsz done cur s) :
    s.currentOutputPtr = s.emitted ↔ s.flushed < 2 ^ 32 := by
  have hbufsz := env.cfg.bufferSize_lt
  have hmkr := h.outMkr
  have hle := h.le
  have hend := h.outEnd_le
  rw [h.emitted, h.flushed, List.length_append, currentOutputPtr]
  by_cases hdone : done = []
  · rw [h.none_sent hdone, if_neg (not_not.mpr rfl), hmkr, hdone]
    change sizeSub (12 + cur.length) 12 = 0 + cur.length ↔ 0 < 2 ^ 32
    rw [sizeSub_of_le (by omega) (by omega)]
    omega
  · obtain ⟨hlt, heq⟩ := h.some_sent hdone
    have hfirst := h.whole.dvd_first hdone
    have hmkr' : s.outMkr = 16 + cur.length := by
      rw [hmkr, List.isEmpty_eq_false_iff.mpr hdone]
      rfl
    rw [hmkr']
    by_cases hfew : done.flatten.length < 2 ^ 32
    · rw [heq hfew, if_pos (by omega), sizeSub_of_le (by omega) (by omega)]
      omega
    · -- less was counted than was sent
      split_ifs
      · rw [sizeSub_of_le (by omega) (by omega)]
        omega
      · rw [sizeSub_of_le (by omega) (by omega)]
        omega

end Fragmented

/-! ### Messages of a counted size -/

end GiopOut

namespace WriteOp

lemma length_octets (op : WriteOp) : op.octets.length < 2 ^ 31 := by
  cases op with
  | primitive align b hlen =>
    change b.length < 2 ^ 31
    rw [hlen]
    cases align <;> decide
  | align align => exact Nat.two_pow_pos 31
  | octetArray b align hlen => exact hlen
  | smallOctetArray b hlen => exact hlen

/-- An item at `pos` is written without a flush of a buffer of its own. -/
def staysIn (cfg : Config) (pos : ℕ) : WriteOp → Prop
  | .primitive a _ _ => alignTo pos a.size + a.size ≤ cfg.bufferSize
  | .align _ => True
  | .octetArray b a _ =>
    b.length < cfg.directSendCutOff ∧ (b = [] ∨ alignTo pos a.size + b.length < cfg.bufferSize)
  | .smallOctetArray b _ => pos + b.length ≤ cfg.bufferSize

instance (cfg : Config) (pos : ℕ) (op : WriteOp) : Decidable (op.staysIn cfg pos) := by
  cases op <;> unfold staysIn <;> infer_instance

end WriteOp

/-- All items from `pos` on are written into the first buffer, without filling it. -/
def staysInBuffer (cfg : Config) : ℕ → List WriteOp → Prop
  | _, [] => True
  | pos, op :: ops => op.staysIn cfg pos ∧ staysInBuffer cfg (op.count pos) ops

instance decidableStaysInBuffer (cfg : Config) :
    ∀ pos ops, Decidable (staysInBuffer cfg pos ops)
  | _, [] => .isTrue trivial
  | pos, op :: ops =>
    have := decidableStaysInBuffer cfg (op.count pos) ops
    inferInstanceAs (Decidable (op.staysIn cfg pos ∧ staysInBuffer cfg (op.count pos) ops))

namespace GiopOut

variable {env : OutEnv} {mtype : MsgType} {size : ℕ} {body : List UInt8} {s t : GiopOut}

lemma Counted.emitted (h : Counted env mtype size body s) : s.emitted = body.length := by
  have hlen := congrArg List.length h.octets
  rw [List.length_append, List.length_append, length_messageHeader] at hlen
  rw [GiopOut.emitted, h.headers]
  omega

/-- Nothing has been sent yet. -/
structure Unflushed (env : OutEnv) (mtype : MsgType) (size : ℕ) (body : List UInt8) (s : GiopOut) :
    Prop extends Counted env mtype size body s where
  unsent : s.sent = []
  uncounted : s.outputMessageSize = 0

/-- Buffers have been sent, and each was counted for less than it holds. -/
structure Behind (env : OutEnv) (mtype : MsgType) (size : ℕ) (body : List UInt8) (s : GiopOut) :
    Prop extends Counted env mtype size body s where
  some_sent : s.sent ≠ []
  le_body : s.outputMessageSize + s.outMkr ≤ body.length

lemma Unflushed.outMkr (h : Unflushed env mtype size body s) : s.outMkr = 12 + body.length := by
  have hlen := congrArg List.length h.octets
  rw [h.unsent, List.nil_append, List.length_append, length_messageHeader] at hlen
  exact hlen

lemma unflushed_keepsPut (env : OutEnv) (mtype : MsgType) (size : ℕ) :
    KeepsPut env (Unflushed env mtype size) where
  marks := fun h => (counted_keeps env mtype size).marks h.toCounted
  put := fun b h hfits =>
    { (counted_keeps env mtype size).put b h.toCounted hfits with
      unsent := h.unsent
      uncounted := h.uncounted }

/-- A flush leaves the count behind. -/
lemma Unflushed.behind {d : List UInt8} {known : Bool} (h : Unflushed env mtype size body s)
    (hrun : s.outputFlush env known = .ok t)
    (hcounted : Counted env mtype size (body ++ d) (t.sendCopyChunk d)) :
    Behind env mtype size (body ++ d) (t.sendCopyChunk d) := by
  have hmkr := h.outMkr
  rw [outputFlush_counted known h.sized] at hrun
  cases hrun
  refine { hcounted with some_sent := ?_, le_body := ?_ }
  · change s.sent ++ s.buffer ++ d ≠ []
    intro hnil
    have hlen := congrArg List.length hnil
    rw [List.length_append, List.length_append, List.length_nil] at hlen
    rw [GiopOut.outMkr] at hmkr
    omega
  · change (if s.outputMessageSize % 2 ^ 32 ≠ 0 then _ else ulongSub s.outMkr 12) + 0 ≤ _
    rw [h.uncounted, if_neg (by decide), hmkr, List.length_append, ulongSub]
    omega

lemma unflushed_sends (env : OutEnv) (mtype : MsgType) (size : ℕ) :
    Sends env (Unflushed env mtype size) (Behind env mtype size) := by
  intro body s t d h hdvd hd hrun
  have hcounted := (counted_keeps env mtype size).sends d h.toCounted hdvd hd hrun
  rw [announce, if_neg h.sized] at hrun
  exact h.behind hrun hcounted

lemma behind_keepsBuffer (env : OutEnv) (mtype : MsgType) (size : ℕ) :
    KeepsBuffer env (Behind env mtype size) where
  marks := fun h => (counted_keeps env mtype size).marks h.toCounted
  put := by
    intro body s b h hfits
    have hle := h.le_body
    refine { (counted_keeps env mtype size).put b h.toCounted hfits with
      some_sent := h.some_sent, le_body := ?_ }
    rw [outMkr_put, List.length_append]
    change s.outputMessageSize + _ ≤ _
    omega
  flush := by
    intro body s t h hfull hrun
    have hcounted := (counted_keeps env mtype size).flush h.toCounted hfull hrun
    have hle := h.le_body
    have hbuf := env.cfg.lt_bufferSize
    have hend := h.outEnd
    rw [outputFlush_counted false h.sized] at hrun
    cases hrun
    refine { hcounted with some_sent := ?_, le_body := ?_ }
    · exact List.append_ne_nil_of_left_ne_nil h.some_sent _
    · change (if s.outputMessageSize % 2 ^ 32 ≠ 0 then
        ulongSub (s.outputMessageSize % 2 ^ 32 + s.outMkr) 16 else ulongSub s.outMkr 12) + 0 ≤ _
      rw [ulongSub, ulongSub]
      split_ifs
      · omega
      · omega

/-- The invariant of an item of a counted message: nothing has been sent, or too little counted. -/
def UnflushedOrBehind (env : OutEnv) (mtype : MsgType) (size : ℕ) (body : List UInt8)
    (s : GiopOut) : Prop :=
  Unflushed env mtype size body s ∨ Behind env mtype size body s

lemma unflushedOrBehind_keepsBuffer (env : OutEnv) (mtype : MsgType) (size : ℕ) :
    KeepsBuffer env (UnflushedOrBehind env mtype size) where
  marks := by
    rintro body s (h | h)
    · exact (unflushed_keepsPut env mtype size).marks h
    · exact (behind_keepsBuffer env mtype size).marks h
  put := by
    rintro body s b (h | h) hfits
    · exact .inl ((unflushed_keepsPut env mtype size).put b h hfits)
    · exact .inr ((behind_keepsBuffer env mtype size).put b h hfits)
  flush := by
    rintro body s t (h | h) hfull hrun
    · have hcounted := (counted_keeps env mtype size).flush h.toCounted hfull hrun
      have ht : t.sendCopyChunk [] = t := by rw [sendCopyChunk, List.append_nil]
      have hbehind := h.behind (d := []) hrun (by rwa [ht, List.append_nil])
      rw [ht, List.append_nil] at hbehind
      exact .inr hbehind
    · exact .inr ((behind_keepsBuffer env mtype size).flush h hfull hrun)

lemma Unflushed.write {op : WriteOp} (h : Unflushed env mtype size body s)
    (hrun : s.write env op = .ok t) :
    ∃ body', Appends op body body' ∧ UnflushedOrBehind env mtype size body' t :=
  write_keeps (unflushed_keepsPut env mtype size) (unflushedOrBehind_keepsBuffer env mtype size)
    (fun d h hdvd hd hrun => .inr (unflushed_sends env mtype size d h hdvd hd hrun)) .inl h hrun

lemma Unflushed.currentOutputPtr (h : Unflushed env mtype size body s) :
    s.currentOutputPtr = s.emitted := by
  have hmkr := h.outMkr
  have hle := h.le
  have hend := h.outEnd
  have hbufsz := env.cfg.bufferSize_lt
  rw [h.emitted, GiopOut.currentOutputPtr, h.uncounted]
  rw [if_neg (not_not.mpr rfl), hmkr, sizeSub_of_le (by omega) (by omega)]
  omega

/-- A position that was counted from less than was written is wrong. -/
lemma sizeSub_ne {x k n : ℕ} (hk : 0 < k) (hle : k ≤ 16) (hx : x ≤ n) (hn : n < 2 ^ 63) :
    sizeSub x k ≠ n := by
  rw [sizeSub]
  omega

lemma Behind.currentOutputPtr_ne (h : Behind env mtype size body s) (hlt : body.length < 2 ^ 63) :
    s.currentOutputPtr ≠ s.emitted := by
  have hle := h.le_body
  rw [h.emitted, GiopOut.currentOutputPtr]
  split_ifs
  · exact sizeSub_ne (by decide) (by decide) hle hlt
  · exact sizeSub_ne (by decide) (by decide) (by omega) hlt

/-! ### One item of a counted message -/

lemma copyLoop_nil (fuel : ℕ) (s : GiopOut) : copyLoop env fuel [] s = .ok s := by
  cases fuel with
  | zero => exact if_pos rfl
  | succ fuel => exact if_pos rfl

/-- An array that does not fill the buffer is put there. -/
lemma copyLoop_of_lt {fuel : ℕ} {b : List UInt8} (hlt : s.outMkr + b.length < s.outEnd)
    (hrun : copyLoop env fuel b s = .ok t) : t = s.put b := by
  by_cases hb : b = []
  · subst hb
    rw [copyLoop_nil] at hrun
    cases hrun
    rw [put, List.append_nil]
  · cases fuel with
    | zero =>
      rw [copyLoop, if_neg hb] at hrun
      cases hrun
    | succ fuel =>
      have havail : min (s.outEnd - s.outMkr) b.length = b.length := by omega
      rw [copyLoop, if_neg hb] at hrun
      dsimp only at hrun
      rw [havail, List.take_length, List.drop_length, copyLoop_nil, if_neg ?_] at hrun
      · cases hrun
        rfl
      · rw [outMkr_put]
        exact Nat.ne_of_lt hlt

/-- An array that fills the buffer makes room in it. -/
lemma Counted.room {fuel : ℕ} {b : List UInt8} (h : Counted env mtype size body s)
    (hb : b ≠ [] ∨ s.outMkr < s.outEnd) (hrun : copyLoop env fuel b s = .ok t) :
    t.outMkr < t.outEnd := by
  induction fuel generalizing b body s with
  | zero =>
    rw [copyLoop] at hrun
    split_ifs at hrun with hnil
    cases hrun
    exact hb.resolve_left (not_not.mpr hnil)
  | succ fuel ih =>
    rw [copyLoop] at hrun
    dsimp only at hrun
    by_cases hnil : b = []
    · rw [if_pos hnil] at hrun
      cases hrun
      exact hb.resolve_left (not_not.mpr hnil)
    rw [if_neg hnil] at hrun
    have hle := h.le
    have hput := (counted_keeps env mtype size).put (b.take (min (s.outEnd - s.outMkr) b.length)) h
      (by rw [List.length_take]; omega)
    generalize s.put (b.take (min (s.outEnd - s.outMkr) b.length)) = u at hput hrun
    split_ifs at hrun with hfull
    · cases hflush : u.outputFlush env false with
      | error e => simp [hflush] at hrun
      | ok v =>
        rw [hflush] at hrun
        dsimp only at hrun
        split_ifs at hrun
        have hv := (counted_keeps env mtype size).flush hput hfull hflush
        refine ih hv (.inr ?_) hrun
        rw [outputFlush_counted false hput.sized] at hflush
        cases hflush
        exact Nat.lt_trans (Nat.zero_lt_succ 15) env.cfg.lt_bufferSize
    · exact ih hput (.inr (lt_of_le_of_ne hput.le hfull)) hrun

/-- An item that stays in the buffer is written without a flush. -/
lemma Unflushed.sent_of_stays {op : WriteOp} (h : Unflushed env mtype size body s)
    (hstays : op.staysIn env.cfg s.outMkr) (hrun : s.write env op = .ok t) : t.sent = [] := by
  have hend := h.outEnd
  have hmarks := (counted_keeps env mtype size).marks h.toCounted
  cases op with
  | primitive align b hlen =>
    change s.marshalPrimitive env align b env.fuel = _ at hrun
    change alignTo s.outMkr align.size + align.size ≤ _ at hstays
    cases hfuel : env.fuel with
    | zero =>
      rw [hfuel] at hrun
      cases hrun
    | succ fuel =>
      rw [hfuel, marshalPrimitive, if_pos (by omega)] at hrun
      cases hrun
      exact h.unsent
  | align align =>
    exact ((unflushed_keepsPut env mtype size).alignOutput h hrun).unsent
  | octetArray b align hlen =>
    obtain ⟨hcut, hroom⟩ := hstays
    have halign := alignTo_le_end align hmarks.le hmarks.dvd
    change s.copyOutputData env b align = _ at hrun
    rw [copyOutputData, not_reachedLimit hmarks, if_neg (by decide), if_neg (not_lt.mpr halign)]
      at hrun
    dsimp only at hrun
    rw [if_neg (not_le.mpr hcut)] at hrun
    have haligned := (unflushed_keepsPut env mtype size).alignMkr align h
    rcases hroom with hnil | hroom
    · subst hnil
      rw [copyLoop_nil] at hrun
      cases hrun
      exact haligned.unsent
    · have ht := copyLoop_of_lt (by rw [outMkr_alignMkr]; exact hroom.trans_eq hend.symm) hrun
      rw [ht]
      exact haligned.unsent
  | smallOctetArray b hlen =>
    change s.putSmallOctetArray env b = _ at hrun
    rw [putSmallOctetArray, if_pos (hstays.trans_eq hend.symm)] at hrun
    cases hrun
    exact h.unsent

/-- And only such an item is. -/
lemma Unflushed.stays_of_sent {op : WriteOp} (h : Unflushed env mtype size body s)
    (hrun : s.write env op = .ok t) (hsent : t.sent = []) : op.staysIn env.cfg s.outMkr := by
  have hend := h.outEnd
  have hmarks := (counted_keeps env mtype size).marks h.toCounted
  have hcut := env.cfg.le_directSendCutOff
  obtain ⟨body', happ, ht⟩ := h.write hrun
  have ht' : Unflushed env mtype size body' t :=
    ht.resolve_right fun hbehind => hbehind.some_sent hsent
  have hcount := happ.count
  rw [← h.outMkr, ← ht'.outMkr] at hcount
  have hle := ht'.le.trans_eq ht'.outEnd
  rw [hcount, WriteOp.count] at hle
  cases op with
  | primitive align b hlen => exact (Nat.add_le_add_left hlen.ge _).trans hle
  | align align => exact trivial
  | octetArray b align hlen =>
    change s.copyOutputData env b align = _ at hrun
    have halign := alignTo_le_end align hmarks.le hmarks.dvd
    rw [copyOutputData, not_reachedLimit hmarks, if_neg (by decide), if_neg (not_lt.mpr halign)]
      at hrun
    dsimp only at hrun
    have haligned := (unflushed_keepsPut env mtype size).alignMkr align h
    split_ifs at hrun with hdirect
    · have hbehind := sendDirect_keeps (unflushed_keepsPut env mtype size)
        (behind_keepsBuffer env mtype size) (unflushed_sends env mtype size) hdirect hlen haligned
        hrun
      exact absurd hsent hbehind.some_sent
    · refine ⟨not_le.mp hdirect, ?_⟩
      by_cases hb : b = []
      · exact .inl hb
      · right
        have hroom := haligned.toCounted.room (.inl hb) hrun
        rw [ht'.outEnd, hcount] at hroom
        exact hroom
  | smallOctetArray b hlen =>
    refine (Nat.add_le_add_right ?_ b.length).trans hle
    exact le_alignTo _ Alignment.align1.size_pos

/-! ### Counted messages that stay in the buffer -/

lemma Unflushed.writes {ops : List WriteOp} (h : Unflushed env mtype size body s)
    (hstays : staysInBuffer env.cfg (12 + body.length) ops) (hrun : s.writes env ops = .ok t) :
    ∃ body', Marshals ops body body' ∧ Unflushed env mtype size body' t := by
  induction ops generalizing body s with
  | nil =>
    cases hrun
    exact ⟨body, .nil body, h⟩
  | cons op ops ih =>
    obtain ⟨hop, hops⟩ := hstays
    rw [GiopOut.writes] at hrun
    cases hwrite : s.write env op with
    | error e => simp [hwrite] at hrun
    | ok u =>
      rw [hwrite] at hrun
      rw [← h.outMkr] at hop
      have hsent := h.sent_of_stays hop hwrite
      obtain ⟨body', happ, hu⟩ := h.write hwrite
      have hu' : Unflushed env mtype size body' u :=
        hu.resolve_right fun hbehind => hbehind.some_sent hsent
      rw [← happ.count] at hops
      obtain ⟨body'', hmarshals, ht⟩ := ih hu' hops hrun
      exact ⟨body'', .cons happ hmarshals, ht⟩

/-- If they do not stay there, the position is wrong behind one of them. -/
lemma Unflushed.exists_wrong {ops : List WriteOp} (h : Unflushed env mtype size body s)
    (hleaves : ¬staysInBuffer env.cfg (12 + body.length) ops) (hrun : s.writes env ops = .ok t) :
    ∃ xs zs u, ops = xs ++ zs ∧ s.writes env xs = .ok u ∧ u.currentOutputPtr ≠ u.emitted := by
  induction ops generalizing body s with
  | nil => exact absurd trivial hleaves
  | cons op ops ih =>
    rw [GiopOut.writes] at hrun
    cases hwrite : s.write env op with
    | error e => simp [hwrite] at hrun
    | ok u =>
      rw [hwrite] at hrun
      obtain ⟨body', happ, hu⟩ := h.write hwrite
      have hone : s.writes env [op] = .ok u := by
        rw [GiopOut.writes, hwrite]
        rfl
      rcases hu with hu | hu
      · -- the item stays, so a later one does not
        have hop := h.stays_of_sent hwrite hu.unsent
        rw [h.outMkr] at hop
        have hlater : ¬staysInBuffer env.cfg (12 + body'.length) ops := by
          intro hops
          rw [happ.count] at hops
          exact hleaves ⟨hop, hops⟩
        obtain ⟨xs, zs, v, rfl, hxs, hne⟩ := ih hu hlater hrun
        exact ⟨op :: xs, zs, v, rfl, writes_append.mpr ⟨u, hone, hxs⟩, hne⟩
      · refine ⟨[op], ops, u, rfl, hone, hu.currentOutputPtr_ne ?_⟩
        have hmkr := h.outMkr
        have hle := h.le.trans_eq h.outEnd
        have hbufsz := env.cfg.bufferSize_lt
        have hcount := happ.count
        have hpad := alignTo_lt (12 + body.length) op.alignment.size_pos
        have hsize : op.alignment.size ≤ 8 := by cases op.alignment <;> decide
        have hoctets := op.length_octets
        rw [WriteOp.count] at hcount
        omega

end GiopOut

end OmniORB
