import OmniORB.Cdr.ValueChunks
import OmniORB.Library.Scan

/-!
# Skipping chunked input

`skipInput` of `cdrValueChunkStream` against `get_octet_array` whose octets are thrown away.
-/

namespace OmniORB

open Library

/-! ### What the chunks hold -/

/-- The chunks that follow hold `size` octets. -/
def chunksHold (host : ByteOrder) (size : ℕ) (s : CdrIn) : Bool :=
  if size = 0 then true
  else
    match s.unmarshalWord host .align4 with
    | .error _ => false
    | .ok (n, t) =>
      if toLong n ≤ 0 ∨ 0x7fffff00 ≤ toLong n then false
      else if (toLong n).toNat < size then
        decide ((toLong n).toNat ≤ t.unread.length) &&
          chunksHold host (size - (toLong n).toNat) (t.advance (toLong n).toNat)
      else decide (size ≤ t.unread.length)
termination_by size
decreasing_by omega

/-- So do those behind the end tag of a value, if there is one. -/
def chunksHoldBehindEnd (host : ByteOrder) (nestLevel : ℤ) (size : ℕ) (s : CdrIn) : Bool :=
  match s.unmarshalWord host .align4 with
  | .error _ => false
  | .ok (n, t) =>
    if toLong n < 0 then decide (-toLong n - 1 < nestLevel) && chunksHold host size t
    else chunksHold host size s

variable {host : ByteOrder}

lemma unmarshalWord_unread {s t : CdrIn} {n : ℕ} (h : s.unmarshalWord host .align4 = .ok (n, t)) :
    t = s.advance (alignTo s.mkr 4 - s.mkr + 4) := by
  rw [CdrIn.unmarshalWord] at h
  split_ifs at h
  simp only [Except.ok.injEq, Prod.mk.injEq] at h
  rw [← h.2, CdrIn.advance_advance]
  rfl

/-- Padding may be skipped first. -/
lemma unmarshalWord_advance (s : CdrIn) :
    (s.advance (alignTo s.mkr 4 - s.mkr)).unmarshalWord host .align4 =
      s.unmarshalWord host .align4 := by
  have hle := le_alignTo s.mkr (show 0 < 4 by decide)
  have hmkr : s.mkr + (alignTo s.mkr 4 - s.mkr) = alignTo s.mkr 4 := by omega
  have hzero : alignTo (s.mkr + (alignTo s.mkr 4 - s.mkr)) 4 -
      (s.mkr + (alignTo s.mkr 4 - s.mkr)) = 0 := by
    rw [hmkr, alignTo_of_dvd (by decide) (dvd_alignTo s.mkr 4), Nat.sub_self]
  rw [CdrIn.unmarshalWord, CdrIn.unmarshalWord]
  simp only [CdrIn.mkr_advance, Alignment.size, hzero, CdrIn.advance_zero]
  rfl

lemma chunksHold_advance {size : ℕ} (s : CdrIn) :
    chunksHold host size (s.advance (alignTo s.mkr 4 - s.mkr)) = chunksHold host size s := by
  rw [chunksHold, chunksHold, unmarshalWord_advance]

/-- There are so many octets at least. -/
lemma le_of_chunksHold {size : ℕ} {s : CdrIn} (h : chunksHold host size s = true) :
    size ≤ s.unread.length := by
  fun_induction chunksHold host size s with
  | case1 s => exact Nat.zero_le _
  | case2 => cases h
  | case3 => cases h
  | case4 size s hsize n t hword hlen hlt ih =>
    rw [Bool.and_eq_true, decide_eq_true_eq] at h
    have hrest := ih h.2
    have hread := CdrIn.unmarshalWord_consumes hword
    rw [CdrIn.unread_advance, List.length_drop] at hrest
    omega
  | case5 size s hsize n t hword hlen hlt =>
    rw [decide_eq_true_eq] at h
    have hread := CdrIn.unmarshalWord_consumes hword
    omega

lemma le_of_chunksHoldBehindEnd {size : ℕ} {nestLevel : ℤ} {s : CdrIn}
    (h : chunksHoldBehindEnd host nestLevel size s = true) : size ≤ s.unread.length := by
  rw [chunksHoldBehindEnd] at h
  cases hword : s.unmarshalWord host .align4 with
  | error e =>
    rw [hword] at h
    cases h
  | ok p =>
    have hread := CdrIn.unmarshalWord_consumes (n := p.1) (t := p.2) hword
    rw [hword] at h
    simp only at h
    split_ifs at h
    · rw [Bool.and_eq_true] at h
      have hle := le_of_chunksHold h.2
      omega
    · exact le_of_chunksHold h

namespace Actual

variable {refill : Refill}

@[simp] lemma toCdrIn_past (copying : Bool) (n : ℕ) (s : Actual) :
    (s.past refill copying n).toCdrIn = s.advance n := rfl

lemma unmarshalLong_of_ok (refill : Refill) {s : Actual} {n : ℕ} {t : CdrIn}
    (h : s.unmarshalWord host .align4 = .ok (n, t)) :
    ∃ a, s.unmarshalLong host refill = .ok (toLong n, a) ∧ a.toCdrIn = t := by
  refine ⟨_, by rw [unmarshalLong, h], ?_⟩
  rw [toCdrIn_past, unmarshalWord_unread h]

lemma unmarshalLong_of_error (refill : Refill) {s : Actual} {e : Exn}
    (h : s.unmarshalWord host .align4 = .error e) :
    s.unmarshalLong host refill = .error (.cdr e) := by
  rw [unmarshalLong, h]

/-- A peek moves over padding at the most. -/
lemma fetchLong_toCdrIn (refill : Refill) (s : Actual) :
    (s.fetchLong refill).toCdrIn = s.toCdrIn ∨
      (s.fetchLong refill).toCdrIn = s.advance (alignTo s.mkr 4 - s.mkr) := by
  rw [fetchLong]
  dsimp only
  split_ifs
  · exact .inl rfl
  · exact .inr rfl

end Actual

namespace ValueChunkIn

variable {host : ByteOrder} {refill : Refill}

/-! ### The loops -/

@[simp] lemma actual_copyStateFromActual (a : Actual) (s : ValueChunkIn) :
    (s.copyStateFromActual a).actual = a := rfl

/-- The octets that are left of a chunk are before the end of the data, or remain. -/
lemma avail_add_remaining_setEnd (len : ℕ) {s : ValueChunkIn} (hs : s.remaining = 0)
    (hlen : len < 2 ^ 32) : (s.setEnd len).avail + (s.setEnd len).remaining = len := by
  rw [setEnd]
  split_ifs with h
  · change s.avail + (len - s.avail) % 2 ^ 32 = len
    rw [Nat.mod_eq_of_lt (by omega)]
    omega
  · change len + s.remaining = len
    rw [hs, Nat.add_zero]

/-- Where there are not so many octets both loops fail. -/
lemma chunks_of_not_hold (refill : Refill) {size : ℕ} (s s' : ValueChunkIn)
    (heq : s'.actual.toCdrIn = s.actual.toCdrIn)
    (h : chunksHold host size s.actual.toCdrIn = false) :
    (∃ e, getChunks host refill size s = .error e) ∧
      ∃ e, skipChunks host refill size s' = .error e := by
  generalize hc : s.actual.toCdrIn = c at heq h
  fun_induction chunksHold host size c generalizing s s' with
  | case1 c => cases h
  | case2 size c hsize e hword =>
    rw [getChunks, skipChunks, if_neg hsize, if_neg hsize,
      Actual.unmarshalLong_of_error refill (hc ▸ hword),
      Actual.unmarshalLong_of_error refill (heq ▸ hword)]
    exact ⟨⟨_, rfl⟩, ⟨_, rfl⟩⟩
  | case3 size c hsize n t hword hlen =>
    obtain ⟨a, ha, -⟩ := Actual.unmarshalLong_of_ok refill (s := s.actual) (hc ▸ hword)
    obtain ⟨a', ha', -⟩ := Actual.unmarshalLong_of_ok refill (s := s'.actual) (heq ▸ hword)
    rw [getChunks, skipChunks, if_neg hsize, if_neg hsize, ha, ha']
    simp only [if_pos hlen]
    exact ⟨⟨_, rfl⟩, ⟨_, rfl⟩⟩
  | case4 size c hsize n t hword hlen hlt ih =>
    obtain ⟨a, ha, hat⟩ := Actual.unmarshalLong_of_ok refill (s := s.actual) (hc ▸ hword)
    obtain ⟨a', ha', hat'⟩ := Actual.unmarshalLong_of_ok refill (s := s'.actual) (heq ▸ hword)
    rw [getChunks, skipChunks, if_neg hsize, if_neg hsize, ha, ha']
    simp only [if_neg hlen, if_pos hlt, Actual.getOctetArray, Actual.skipInput, hat, hat']
    by_cases hfew : t.unread.length < (toLong n).toNat
    · rw [if_pos hfew, if_pos hfew]
      exact ⟨⟨_, rfl⟩, ⟨_, rfl⟩⟩
    · have hrest : chunksHold host (size - (toLong n).toNat) (t.advance (toLong n).toNat) = false := by
        rw [decide_eq_true (not_lt.mp hfew), Bool.true_and] at h
        exact h
      obtain ⟨⟨e, he⟩, e', he'⟩ := ih
        { s with actual := a.past refill true (toLong n).toNat }
        { s' with actual := a'.past refill false (toLong n).toNat }
        (by rw [Actual.toCdrIn_past, hat]) (by rw [Actual.toCdrIn_past, hat']) hrest
      rw [if_neg hfew, if_neg hfew]
      simp only [he, he']
      exact ⟨⟨_, rfl⟩, ⟨_, rfl⟩⟩
  | case5 size c hsize n t hword hlen hlt =>
    obtain ⟨a, ha, hat⟩ := Actual.unmarshalLong_of_ok refill (s := s.actual) (hc ▸ hword)
    obtain ⟨a', ha', hat'⟩ := Actual.unmarshalLong_of_ok refill (s := s'.actual) (heq ▸ hword)
    have hfew : t.unread.length < size := not_le.mp (of_decide_eq_false h)
    rw [getChunks, skipChunks, if_neg hsize, if_neg hsize, ha, ha']
    simp only [if_neg hlen, if_neg hlt, Actual.getOctetArray, Actual.skipInput, hat, hat',
      if_pos hfew]
    exact ⟨⟨_, rfl⟩, ⟨_, rfl⟩⟩

/-- Where there are, both read them, and differ in what is left of the last chunk. -/
lemma chunks_of_hold (refill : Refill) {size : ℕ} (s s' : ValueChunkIn)
    (heq : s'.actual.toCdrIn = s.actual.toCdrIn)
    (h : chunksHold host size s.actual.toCdrIn = true) :
    ∃ b t t', getChunks host refill size s = .ok (b, t) ∧ skipChunks host refill size s' = .ok t' ∧
      (size ≠ 0 → s.remaining = 0 → s'.remaining = 0 →
        t.avail + t.remaining < t'.avail + t'.remaining) := by
  generalize hc : s.actual.toCdrIn = c at heq h
  fun_induction chunksHold host size c generalizing s s' with
  | case1 c =>
    rw [getChunks, skipChunks, if_pos rfl, if_pos rfl]
    exact ⟨_, _, _, rfl, rfl, fun hne => absurd rfl hne⟩
  | case2 => cases h
  | case3 => cases h
  | case4 size c hsize n t hword hlen hlt ih =>
    obtain ⟨a, ha, hat⟩ := Actual.unmarshalLong_of_ok refill (s := s.actual) (hc ▸ hword)
    obtain ⟨a', ha', hat'⟩ := Actual.unmarshalLong_of_ok refill (s := s'.actual) (heq ▸ hword)
    rw [Bool.and_eq_true, decide_eq_true_eq] at h
    have hfew : ¬t.unread.length < (toLong n).toNat := not_lt.mpr h.1
    obtain ⟨b, u, u', hget, hskip, hdiff⟩ := ih
      { s with actual := a.past refill true (toLong n).toNat }
      { s' with actual := a'.past refill false (toLong n).toNat }
      (by rw [Actual.toCdrIn_past, hat]) (by rw [Actual.toCdrIn_past, hat']) h.2
    rw [getChunks, skipChunks, if_neg hsize, if_neg hsize, ha, ha']
    simp only [if_neg hlen, if_pos hlt, Actual.getOctetArray, Actual.skipInput, hat, hat',
      if_neg hfew, hget, hskip]
    refine ⟨_, u, u', rfl, rfl, fun _ hr hr' => hdiff ?_ hr hr'⟩
    omega
  | case5 size c hsize n t hword hlen hlt =>
    obtain ⟨a, ha, hat⟩ := Actual.unmarshalLong_of_ok refill (s := s.actual) (hc ▸ hword)
    obtain ⟨a', ha', hat'⟩ := Actual.unmarshalLong_of_ok refill (s := s'.actual) (heq ▸ hword)
    have hfew : ¬t.unread.length < size := not_lt.mpr (of_decide_eq_true h)
    rw [getChunks, skipChunks, if_neg hsize, if_neg hsize, ha, ha']
    simp only [if_neg hlen, if_neg hlt, Actual.getOctetArray, Actual.skipInput, hat, hat',
      if_neg hfew]
    refine ⟨_, _, _, rfl, rfl, fun _ hr hr' => ?_⟩
    have hread := avail_add_remaining_setEnd ((toLong n).toNat - size)
      (s := s.copyStateFromActual (a.past refill true size)) hr (by omega)
    have hskipped := avail_add_remaining_setEnd (toLong n).toNat
      (s := s'.copyStateFromActual (a'.past refill false size)) hr' (by omega)
    dsimp only
    omega

/-! ### The end of a value -/

/-- A peek does not change what the chunks hold. -/
lemma fetchLong_reads (refill : Refill) {a : Actual} {n : ℕ} {t : CdrIn}
    (h : a.unmarshalWord host .align4 = .ok (n, t)) (size : ℕ) :
    (a.fetchLong refill).unmarshalWord host .align4 = .ok (n, t) ∧
      chunksHold host size (a.fetchLong refill).toCdrIn = chunksHold host size a.toCdrIn := by
  rcases a.fetchLong_toCdrIn refill with heq | heq
  · rw [heq]
    exact ⟨h, rfl⟩
  · rw [heq, unmarshalWord_advance, chunksHold_advance]
    exact ⟨h, rfl⟩

lemma endInputValue_eq {s : ValueChunkIn} {tag : ℤ} {a : Actual}
    (h : s.actual.unmarshalLong host refill = .ok (tag, a)) :
    s.endInputValue host refill =
      if 0 ≤ tag then .error .invalidChunkedEncoding
      else if s.nestLevel ≤ -tag - 1 then .error .invalidChunkedEncoding
      else .ok { s.copyStateFromActual a with nestLevel := -tag - 1, inChunk := false, avail := 0 } := by
  rw [endInputValue, h]
  rfl

lemma endEndedValue_eq {s : ValueChunkIn} {n : ℕ} {t : CdrIn}
    (h : s.actual.unmarshalWord host .align4 = .ok (n, t)) :
    s.endEndedValue host refill =
      if toLong n < 0 then
        ((s.copyStateFromActual (s.actual.fetchLong refill)).endInputValue host refill).map
          fun s => { s with inChunk := true }
      else .ok (s.copyStateFromActual (s.actual.fetchLong refill)) := by
  rw [endEndedValue, Actual.peekChunkTag, h]
  rfl

/-- What follows the end of a value, or what is there if none has ended. -/
lemma endEndedValue_cases (host : ByteOrder) (refill : Refill) (size : ℕ) (s : ValueChunkIn) :
    (∃ e, s.endEndedValue host refill = .error e ∧
      chunksHoldBehindEnd host s.nestLevel size s.actual.toCdrIn = false) ∨
    ∃ t, s.endEndedValue host refill = .ok t ∧ t.remaining = s.remaining ∧
      chunksHold host size t.actual.toCdrIn =
        chunksHoldBehindEnd host s.nestLevel size s.actual.toCdrIn := by
  rw [chunksHoldBehindEnd]
  cases hword : s.actual.unmarshalWord host .align4 with
  | error e => exact .inl ⟨.cdr e, by rw [endEndedValue, Actual.peekChunkTag, hword]; rfl, rfl⟩
  | ok p =>
    obtain ⟨n, t⟩ := p
    obtain ⟨hpeek, hhold⟩ := fetchLong_reads refill hword size
    obtain ⟨a, ha, hat⟩ := Actual.unmarshalLong_of_ok refill hpeek
    rw [endEndedValue_eq hword]
    dsimp only
    have hlevel : (s.copyStateFromActual (s.actual.fetchLong refill)).nestLevel = s.nestLevel := rfl
    by_cases htag : toLong n < 0
    · have hend := endInputValue_eq (s := s.copyStateFromActual (s.actual.fetchLong refill)) ha
      rw [if_pos htag, if_pos htag, hend, if_neg (not_le.mpr htag), hlevel]
      by_cases hle : s.nestLevel ≤ -toLong n - 1
      · rw [if_pos hle, decide_eq_false (not_lt.mpr hle), Bool.false_and]
        exact .inl ⟨_, rfl, rfl⟩
      · rw [if_neg hle, decide_eq_true (not_le.mp hle), Bool.true_and, ← hat]
        exact .inr ⟨_, rfl, rfl, rfl⟩
    · rw [if_neg htag, if_neg htag]
      exact .inr ⟨_, rfl, rfl, hhold⟩

/-! ### Agreement -/

/-- What tells two states of a stream apart: the position in the wrapped stream, and the members. -/
def view (s : ValueChunkIn) : CdrIn × ℕ × ℕ × ℤ × Bool × Bool :=
  (s.actual.toCdrIn, s.avail, s.remaining, s.nestLevel, s.inHeader, s.inChunk)

/-- Both fail, or both succeed and leave the same state. -/
def Agree (r r' : Except ChunkExn ValueChunkIn) : Prop := r.toOption.map view = r'.toOption.map view

lemma agree_of_error {r r' : Except ChunkExn ValueChunkIn} (h : ∃ e, r = .error e)
    (h' : ∃ e, r' = .error e) : Agree r r' := by
  obtain ⟨e, rfl⟩ := h
  obtain ⟨e', rfl⟩ := h'
  rfl

lemma agree_ok {s s' : ValueChunkIn} : Agree (.ok s) (.ok s') ↔ s.view = s'.view := by
  rw [Agree, Except.toOption, Except.toOption, Option.map_some, Option.map_some, Option.some_inj]

lemma map_error_iff {α β : Type} {f : α → β} {x : Except ChunkExn α} :
    (∃ e, x.map f = .error e) ↔ ∃ e, x = .error e := by
  cases x with
  | error e => exact iff_of_true ⟨e, rfl⟩ ⟨e, rfl⟩
  | ok a => exact iff_of_false (fun ⟨_, h⟩ => by cases h) (fun ⟨_, h⟩ => by cases h)

/-- One that fails agrees with nothing that succeeds. -/
lemma agree_error_iff {r r' : Except ChunkExn ValueChunkIn} (h' : ∃ e, r' = .error e) :
    Agree r r' ↔ ∃ e, r = .error e := by
  obtain ⟨e', rfl⟩ := h'
  cases r with
  | error e => exact iff_of_true rfl ⟨e, rfl⟩
  | ok s => exact iff_of_false (by simp [Agree, Except.toOption]) (by simp)

/-- The chunks behind one that has been read hold `size` octets. Where nothing has been read, an end
tag may come first. -/
def chunksFollow (host : ByteOrder) (fresh : Prop) [Decidable fresh] (nestLevel : ℤ) (size : ℕ)
    (s : CdrIn) : Bool :=
  if fresh then chunksHoldBehindEnd host nestLevel size s else chunksHold host size s

/-- The end of a value, if it may come here. -/
def ended (host : ByteOrder) (refill : Refill) (fresh : Prop) [Decidable fresh] (s : ValueChunkIn) :
    Except ChunkExn ValueChunkIn :=
  if fresh then s.endEndedValue host refill else .ok s

lemma ended_cases (host : ByteOrder) (refill : Refill) (fresh : Prop) [Decidable fresh] (size : ℕ)
    (s : ValueChunkIn) :
    (∃ e, ended host refill fresh s = .error e ∧
      chunksFollow host fresh s.nestLevel size s.actual.toCdrIn = false) ∨
    ∃ t, ended host refill fresh s = .ok t ∧ t.remaining = s.remaining ∧
      chunksHold host size t.actual.toCdrIn =
        chunksFollow host fresh s.nestLevel size s.actual.toCdrIn := by
  rw [ended, chunksFollow]
  by_cases hfresh : fresh
  · rw [if_pos hfresh, if_pos hfresh]
    exact endEndedValue_cases host refill size s
  · rw [if_neg hfresh, if_neg hfresh]
    exact .inr ⟨s, rfl, rfl, rfl⟩

lemma le_of_chunksFollow {fresh : Prop} [Decidable fresh] {nestLevel : ℤ} {size : ℕ} {s : CdrIn}
    (h : chunksFollow host fresh nestLevel size s = true) : size ≤ s.unread.length := by
  rw [chunksFollow] at h
  split_ifs at h
  · exact le_of_chunksHoldBehindEnd h
  · exact le_of_chunksHold h

/-- The rest of `get_octet_array` behind the chunk. -/
def getOn (host : ByteOrder) (refill : Refill) (fresh : Prop) [Decidable fresh] (size : ℕ)
    (s : ValueChunkIn) : Except ChunkExn (List UInt8 × ValueChunkIn) :=
  ended host refill fresh s >>= getChunks host refill size

/-- The rest of `skipInput` behind the chunk. -/
def skipOn (host : ByteOrder) (refill : Refill) (fresh : Prop) [Decidable fresh] (size : ℕ)
    (s : ValueChunkIn) : Except ChunkExn ValueChunkIn :=
  ended host refill fresh s >>= skipChunks host refill size

section

variable {fresh : Prop} [Decidable fresh] {size : ℕ} {s : ValueChunkIn}

lemma getOn_error_iff :
    (∃ e, getOn host refill fresh size s = .error e) ↔
      chunksFollow host fresh s.nestLevel size s.actual.toCdrIn = false := by
  rcases ended_cases host refill fresh size s with ⟨e, he, hfollow⟩ | ⟨t, ht, -, hfollow⟩
  · rw [getOn, he]
    exact iff_of_true ⟨e, rfl⟩ hfollow
  · rw [getOn, ht, ← hfollow]
    change (∃ e, getChunks host refill size t = .error e) ↔ _
    cases hhold : chunksHold host size t.actual.toCdrIn with
    | false => exact iff_of_true (chunks_of_not_hold refill t t rfl hhold).1 rfl
    | true =>
      obtain ⟨b, u, -, hget, -, -⟩ := chunks_of_hold refill t t rfl hhold
      rw [hget]
      exact iff_of_false (fun ⟨_, h⟩ => by cases h) (by decide)

lemma skipOn_error_iff :
    (∃ e, skipOn host refill fresh size s = .error e) ↔
      chunksFollow host fresh s.nestLevel size s.actual.toCdrIn = false := by
  rcases ended_cases host refill fresh size s with ⟨e, he, hfollow⟩ | ⟨t, ht, -, hfollow⟩
  · rw [skipOn, he]
    exact iff_of_true ⟨e, rfl⟩ hfollow
  · rw [skipOn, ht, ← hfollow]
    change (∃ e, skipChunks host refill size t = .error e) ↔ _
    cases hhold : chunksHold host size t.actual.toCdrIn with
    | false => exact iff_of_true (chunks_of_not_hold refill t t rfl hhold).2 rfl
    | true =>
      obtain ⟨-, -, u, -, hskip, -⟩ := chunks_of_hold refill t t rfl hhold
      rw [hskip]
      exact iff_of_false (fun ⟨_, h⟩ => by cases h) (by decide)

end

/-- Two states in different parts of a chunk differ. -/
lemma not_agree_of_lt {s s' : ValueChunkIn}
    (h : s.avail + s.remaining < s'.avail + s'.remaining) : ¬Agree (.ok s) (.ok s') := by
  rw [agree_ok]
  intro heq
  simp only [view, Prod.mk.injEq] at heq
  omega

lemma agree_chunks_iff {size : ℕ} (hsize : size ≠ 0) {s s' : ValueChunkIn}
    (heq : s'.actual.toCdrIn = s.actual.toCdrIn) (hr : s.remaining = 0) (hr' : s'.remaining = 0) :
    Agree ((getChunks host refill size s).map Prod.snd) (skipChunks host refill size s') ↔
      chunksHold host size s.actual.toCdrIn = false := by
  cases hhold : chunksHold host size s.actual.toCdrIn with
  | false =>
    obtain ⟨⟨e, he⟩, herror⟩ := chunks_of_not_hold refill s s' heq hhold
    refine iff_of_true (agree_of_error ⟨e, by rw [he]; rfl⟩ herror) rfl
  | true =>
    obtain ⟨b, t, t', hget, hskip, hdiff⟩ := chunks_of_hold refill s s' heq hhold
    rw [hget, hskip]
    exact iff_of_false (not_agree_of_lt (hdiff hsize hr hr')) (by decide)

/-- Behind the chunk the two never agree on success. -/
lemma agree_on_iff {fresh : Prop} [Decidable fresh] {size : ℕ} {s : ValueChunkIn} (hsize : size ≠ 0)
    (hr : s.remaining = 0) :
    Agree ((getOn host refill fresh size s).map Prod.snd) (skipOn host refill fresh size s) ↔
      chunksFollow host fresh s.nestLevel size s.actual.toCdrIn = false := by
  rcases ended_cases host refill fresh size s with ⟨e, he, hfollow⟩ | ⟨t, ht, hrest, hfollow⟩
  · rw [getOn, skipOn, he]
    exact iff_of_true rfl hfollow
  · rw [getOn, skipOn, ht, ← hfollow]
    exact agree_chunks_iff hsize rfl (hrest.trans hr) (hrest.trans hr)

/-! ### The rest of a chunk -/

section

variable {size : ℕ} {s : ValueChunkIn}

lemma getRemaining_error (hr : s.remaining ≠ 0) (hfew : s.actual.unread.length < s.remaining)
    (hle : s.actual.unread.length < size) :
    getRemaining refill size s = .error (.cdr .marshalPassEndOfMessage) := by
  rw [getRemaining, if_neg hr]
  split_ifs
  · rw [Actual.getOctetArray, if_pos hfew]
    rfl
  · rw [Actual.getOctetArray, if_pos hle]
    rfl

lemma skipRemaining_error (hr : s.remaining ≠ 0) (hfew : s.actual.unread.length < s.remaining) :
    skipRemaining refill size s = .error (.cdr .marshalPassEndOfMessage) := by
  rw [skipRemaining, if_neg hr, Actual.skipInput, if_pos hfew]
  rfl

lemma getRemaining_all (refill : Refill) (hr : s.remaining ≠ 0) (hle : s.remaining ≤ size)
    (hroom : s.remaining ≤ s.actual.unread.length) :
    ∃ b t, getRemaining refill size s = .ok (b, size - s.remaining, t) ∧
      t.view = (s.actual.advance s.remaining, 0, 0, s.nestLevel, s.inHeader, s.inChunk) := by
  rw [getRemaining, if_neg hr, if_pos hle, Actual.getOctetArray, if_neg (not_lt.mpr hroom)]
  exact ⟨_, _, rfl, rfl⟩

lemma getRemaining_part (refill : Refill) (hlt : size < s.remaining) (hroom : size ≤ s.actual.unread.length) :
    ∃ b t, getRemaining refill size s = .ok (b, size, t) ∧
      t.actual.toCdrIn = s.actual.advance size ∧ t.nestLevel = s.nestLevel := by
  rw [getRemaining, if_neg (by omega), if_neg (not_le.mpr hlt), Actual.getOctetArray,
    if_neg (not_lt.mpr hroom)]
  exact ⟨_, _, rfl, rfl, rfl⟩

lemma skipRemaining_all (refill : Refill) (size : ℕ) (hr : s.remaining ≠ 0) (hroom : s.remaining ≤ s.actual.unread.length) :
    ∃ t, skipRemaining refill size s = .ok ((size + 2 ^ 32 - s.remaining) % 2 ^ 32, t) ∧
      t.view = (s.actual.advance s.remaining, (s.actual.past refill false s.remaining).buffered, 0,
        s.nestLevel, s.inHeader, s.inChunk) := by
  rw [skipRemaining, if_neg hr, Actual.skipInput, if_neg (not_lt.mpr hroom)]
  exact ⟨_, rfl, rfl⟩

lemma getOn_of_not {fresh : Prop} [Decidable fresh] (h : ¬fresh) :
    getOn host refill fresh size s = getChunks host refill size s := by
  rw [getOn, ended, if_neg h]
  rfl

lemma skipOn_of_not {fresh : Prop} [Decidable fresh] (h : ¬fresh) :
    skipOn host refill fresh size s = skipChunks host refill size s := by
  rw [skipOn, ended, if_neg h]
  rfl

end

/-! ### Inside a chunk -/

section

variable {size : ℕ} {s : ValueChunkIn} (hsize : ¬size ≤ s.avail) (hheader : s.inHeader = false)
  (hchunk : s.inChunk = true)

include hsize hheader hchunk

lemma getOctetArray_eq {b : List UInt8} {size' : ℕ} {t : ValueChunkIn}
    (h : getRemaining refill (size - s.avail) (s.move refill s.avail) = .ok (b, size', t)) :
    (getOctetArray host refill size s).map Prod.snd =
      (getOn host refill (size' = size) size' t).map Prod.snd := by
  have hmap (u : ValueChunkIn) (c : List UInt8) :
      (getChunks host refill size' u >>= fun r => Except.ok (c ++ r.1, r.2)).map Prod.snd =
        (getChunks host refill size' u).map Prod.snd := by
    cases getChunks host refill size' u <;> rfl
  rw [getOctetArray, if_neg hsize, if_neg (by simp [hheader]), if_neg (by simp [hchunk]), h, getOn,
    ended]
  by_cases hfresh : size' = size
  · simp only [if_pos hfresh]
    change Except.map Prod.snd (if size' = size then (t.endEndedValue host refill >>= fun u => _)
      else _) = _
    rw [if_pos hfresh]
    cases t.endEndedValue host refill with
    | error e => rfl
    | ok u => exact hmap u _
  · simp only [if_neg hfresh]
    change Except.map Prod.snd (if size' = size then _ else (Except.ok t >>= fun u => _)) = _
    rw [if_neg hfresh]
    exact hmap t _

lemma skipInput_eq {size' : ℕ} {t : ValueChunkIn}
    (h : skipRemaining refill (size - s.avail) (s.move refill s.avail) = .ok (size', t)) :
    skipInput host refill size s = skipOn host refill (size' = size) size' t := by
  rw [skipInput, if_neg hsize, if_neg (by simp [hheader]), if_neg (by simp [hchunk]), h, skipOn,
    ended]
  by_cases hfresh : size' = size
  · simp only [if_pos hfresh]
    change (if size' = size then _ else _) = _
    rw [if_pos hfresh]
  · simp only [if_neg hfresh]
    change (if size' = size then _ else _) = _
    rw [if_neg hfresh]

lemma getOctetArray_error {e : ChunkExn}
    (h : getRemaining refill (size - s.avail) (s.move refill s.avail) = .error e) :
    (getOctetArray host refill size s).map Prod.snd = .error e := by
  rw [getOctetArray, if_neg hsize, if_neg (by simp [hheader]), if_neg (by simp [hchunk]), h]
  rfl

lemma skipInput_error {e : ChunkExn}
    (h : skipRemaining refill (size - s.avail) (s.move refill s.avail) = .error e) :
    skipInput host refill size s = .error e := by
  rw [skipInput, if_neg hsize, if_neg (by simp [hheader]), if_neg (by simp [hchunk]), h]
  rfl

/-- Nothing remains of the chunk outside the buffer. -/
lemma agree_of_remaining_zero (hr : s.remaining = 0) :
    Agree ((getOctetArray host refill size s).map Prod.snd) (skipInput host refill size s) ↔
      chunksFollow host (s.avail = 0) s.nestLevel (size - s.avail)
        (s.actual.advance s.avail) = false := by
  have hget : getRemaining refill (size - s.avail) (s.move refill s.avail) =
      .ok ([], size - s.avail, s.move refill s.avail) := by
    rw [getRemaining, if_pos (by exact hr)]
  have hskip : skipRemaining refill (size - s.avail) (s.move refill s.avail) =
      .ok (size - s.avail, s.move refill s.avail) := by
    rw [skipRemaining, if_pos (by exact hr)]
  rw [getOctetArray_eq hsize hheader hchunk hget, skipInput_eq hsize hheader hchunk hskip,
    agree_on_iff (by omega) (by exact hr)]
  have hfresh : size - s.avail = size ↔ s.avail = 0 := by omega
  rw [chunksFollow, chunksFollow]
  simp only [hfresh]
  rfl

/-- The octets do not end before the chunk does. -/
lemma agree_of_remaining_le (hr : s.remaining ≠ 0) (hle : s.remaining ≤ size - s.avail)
    (hlt : size < 2 ^ 32) :
    Agree ((getOctetArray host refill size s).map Prod.snd) (skipInput host refill size s) ↔
      (s.actual.advance s.avail).unread.length < s.remaining ∨
        if size - s.avail = s.remaining then
          ((s.actual.past refill true s.avail).past refill false s.remaining).buffered = 0
        else chunksHold host (size - s.avail - s.remaining)
          ((s.actual.advance s.avail).advance s.remaining) = false := by
  by_cases hfew : (s.actual.advance s.avail).unread.length < s.remaining
  · rw [getOctetArray_error hsize hheader hchunk
      (getRemaining_error (s := s.move refill s.avail) hr hfew (hfew.trans_le hle)),
      skipInput_error hsize hheader hchunk
        (skipRemaining_error (s := s.move refill s.avail) hr hfew)]
    exact iff_of_true rfl (.inl hfew)
  obtain ⟨b, t, hget, ht⟩ := getRemaining_all refill (s := s.move refill s.avail) hr hle
    (not_lt.mp hfew)
  obtain ⟨t', hskip, ht'⟩ := skipRemaining_all refill (size - s.avail) (s := s.move refill s.avail) hr
    (not_lt.mp hfew)
  have hleft : (size - s.avail + 2 ^ 32 - (s.move refill s.avail).remaining) % 2 ^ 32 =
      size - s.avail - (s.move refill s.avail).remaining := by
    change (size - s.avail + 2 ^ 32 - s.remaining) % 2 ^ 32 = size - s.avail - s.remaining
    omega
  have hfresh : ¬size - s.avail - (s.move refill s.avail).remaining = size := by
    change ¬size - s.avail - s.remaining = size
    omega
  rw [hleft] at hskip
  rw [getOctetArray_eq hsize hheader hchunk hget, skipInput_eq hsize hheader hchunk hskip,
    getOn_of_not hfresh, skipOn_of_not hfresh, or_iff_right hfew]
  change Agree (Except.map Prod.snd (getChunks _ _ (size - s.avail - s.remaining) t))
    (skipChunks _ _ (size - s.avail - s.remaining) t') ↔ _
  simp only [view, Prod.mk.injEq] at ht ht'
  by_cases hend : size - s.avail = s.remaining
  · -- the octets end with the chunk
    rw [if_pos hend, hend, Nat.sub_self, getChunks, skipChunks, if_pos rfl, if_pos rfl]
    change Agree (.ok t) (.ok t') ↔ _
    rw [agree_ok, view, view, ht.1, ht.2.1, ht.2.2.1, ht.2.2.2.1, ht.2.2.2.2.1, ht.2.2.2.2.2, ht'.1,
      ht'.2.1, ht'.2.2.1, ht'.2.2.2.1, ht'.2.2.2.2.1, ht'.2.2.2.2.2]
    simp only [Prod.mk.injEq, true_and, and_true]
    exact eq_comm
  · rw [if_neg hend, agree_chunks_iff (by omega) (ht'.1.trans ht.1.symm) ht.2.2.1 ht'.2.2.1, ht.1]
    rfl

/-- Too much is skipped, and the size wraps around. -/
lemma skipInput_error_iff (hlt : size - s.avail < s.remaining) :
    (∃ e, skipInput host refill size s = .error e) ↔
      (s.actual.advance s.avail).unread.length < s.remaining ∨
        chunksFollow host (size - s.avail + 2 ^ 32 - s.remaining = size) s.nestLevel
          (size - s.avail + 2 ^ 32 - s.remaining)
          ((s.actual.advance s.avail).advance s.remaining) = false := by
  have hr : s.remaining ≠ 0 := by omega
  have hrem := s.remaining_lt
  have hwrap : (size - s.avail + 2 ^ 32 - s.remaining) % 2 ^ 32 =
      size - s.avail + 2 ^ 32 - s.remaining := Nat.mod_eq_of_lt (by omega)
  by_cases hfew : (s.actual.advance s.avail).unread.length < s.remaining
  · exact iff_of_true ⟨_, skipInput_error hsize hheader hchunk
      (skipRemaining_error (s := s.move refill s.avail) hr hfew)⟩ (.inl hfew)
  obtain ⟨t, hskip, ht⟩ := skipRemaining_all refill (size - s.avail) (s := s.move refill s.avail) hr
    (not_lt.mp hfew)
  change skipRemaining refill (size - s.avail) (s.move refill s.avail) =
    .ok ((size - s.avail + 2 ^ 32 - s.remaining) % 2 ^ 32, t) at hskip
  rw [hwrap] at hskip
  simp only [view, Prod.mk.injEq] at ht
  rw [skipInput_eq hsize hheader hchunk hskip, or_iff_right hfew, skipOn_error_iff, ht.1, ht.2.2.2.1]
  rfl

/-- So many octets are in no stream but one of more than 4 GiB. -/
lemma skipInput_fails (hlt : size - s.avail < s.remaining)
    (hlen : s.actual.unread.length < 2 ^ 32) :
    ∃ e, skipInput host refill size s = .error e := by
  rw [skipInput_error_iff hsize hheader hchunk hlt]
  by_cases hfew : (s.actual.advance s.avail).unread.length < s.remaining
  · exact .inl hfew
  · refine .inr (Bool.eq_false_iff.mpr fun hfollow => ?_)
    have hle := le_of_chunksFollow hfollow
    have hrem := s.remaining_lt
    rw [CdrIn.unread_advance, List.length_drop] at hle
    rw [CdrIn.unread_advance, List.length_drop] at hfew hle
    omega

/-- The octets end before the chunk does: what follows them is taken for chunks. -/
lemma getOctetArray_error_iff (hlt : size - s.avail < s.remaining) :
    (∃ e, (getOctetArray host refill size s).map Prod.snd = .error e) ↔
      (s.actual.advance s.avail).unread.length < size - s.avail ∨
        chunksFollow host (s.avail = 0) s.nestLevel (size - s.avail)
          ((s.actual.advance s.avail).advance (size - s.avail)) = false := by
  have hr : s.remaining ≠ 0 := by omega
  by_cases hfew : (s.actual.advance s.avail).unread.length < size - s.avail
  · exact iff_of_true ⟨_, getOctetArray_error hsize hheader hchunk
      (getRemaining_error (s := s.move refill s.avail) hr (hfew.trans hlt) hfew)⟩ (.inl hfew)
  obtain ⟨b, t, hget, ht, hlevel⟩ := getRemaining_part refill (s := s.move refill s.avail) hlt
    (not_lt.mp hfew)
  have hfresh : size - s.avail = size ↔ s.avail = 0 := by omega
  rw [getOctetArray_eq hsize hheader hchunk hget, or_iff_right hfew, map_error_iff, getOn_error_iff, ht,
    hlevel, chunksFollow, chunksFollow]
  simp only [hfresh]
  rfl

end

/-- In a value header the wrapped stream does the work. -/
lemma agree_of_inHeader {size : ℕ} {s : ValueChunkIn} (hsize : ¬size ≤ s.avail)
    (hheader : s.inHeader = true) :
    Agree ((getOctetArray host refill size s).map Prod.snd) (skipInput host refill size s) ↔
      s.inChunk = true ∨ s.actual.unread.length < size ∨
        (s.actual.past refill true size).buffered = (s.actual.past refill false size).buffered := by
  rw [getOctetArray, skipInput, if_neg hsize, if_neg hsize, if_pos hheader, if_pos hheader]
  by_cases hchunk : s.inChunk = true
  · rw [if_pos hchunk, if_pos hchunk]
    exact iff_of_true rfl (.inl hchunk)
  rw [if_neg hchunk, if_neg hchunk, or_iff_right hchunk, Actual.getOctetArray, Actual.skipInput]
  by_cases hfew : s.actual.unread.length < size
  · rw [if_pos hfew, if_pos hfew]
    exact iff_of_true rfl (.inl hfew)
  · rw [if_neg hfew, if_neg hfew, or_iff_right hfew]
    change Agree (.ok (s.copyStateFromActual _)) (.ok (s.copyStateFromActual _)) ↔ _
    rw [agree_ok]
    simp [view, copyStateFromActual]

lemma agree_of_not_inChunk {size : ℕ} {s : ValueChunkIn} (hsize : ¬size ≤ s.avail)
    (hheader : s.inHeader = false) (hchunk : ¬s.inChunk = true) :
    Agree ((getOctetArray host refill size s).map Prod.snd) (skipInput host refill size s) := by
  have hnot : ¬s.inHeader = true := Bool.eq_false_iff.mp hheader
  rw [getOctetArray, skipInput, if_neg hsize, if_neg hsize, if_neg hnot, if_neg hnot, if_pos hchunk,
    if_pos hchunk]
  rfl

/-- When the two agree: the octets end before `pd_inb_end`; or in a header the wrapped stream leaves
the same octets in its buffer; or there is no chunk; or there are not so many octets, so that both
fail; or they end with the chunk, and the buffer of the wrapped stream does too. -/
def SkipsAlike (host : ByteOrder) (refill : Refill) (size : ℕ) (s : ValueChunkIn) : Prop :=
  let left := size - s.avail
  let wrapped := left + 2 ^ 32 - s.remaining
  let behind := s.actual.advance s.avail
  size ≤ s.avail ∨
  if s.inHeader then
    s.inChunk ∨ s.actual.unread.length < size ∨
      (s.actual.past refill true size).buffered = (s.actual.past refill false size).buffered
  else if ¬s.inChunk then True
  else if s.remaining = 0 then chunksFollow host (s.avail = 0) s.nestLevel left behind = false
  else if left < s.remaining then
    (behind.unread.length < left ∨
      chunksFollow host (s.avail = 0) s.nestLevel left (behind.advance left) = false) ∧
    (behind.unread.length < s.remaining ∨
      chunksFollow host (wrapped = size) s.nestLevel wrapped (behind.advance s.remaining) = false)
  else
    behind.unread.length < s.remaining ∨
      if left = s.remaining then
        ((s.actual.past refill true s.avail).past refill false s.remaining).buffered = 0
      else chunksHold host (left - s.remaining) (behind.advance s.remaining) = false

end ValueChunkIn

open ValueChunkIn in
/-- Skipping leaves the stream as reading does if what is skipped ends in one of the places where it
does not matter that the end of the chunk is lost, and in a stream of less than 4 GiB only then. -/
theorem skipInput_agrees_iff (host : ByteOrder) (refill : Refill) (s : ValueChunkIn) {size : ℕ}
    (hint : size < 2 ^ 31) :
    (SkipsAlike host refill size s →
      Agree ((getOctetArray host refill size s).map Prod.snd) (skipInput host refill size s)) ∧
    (s.actual.unread.length < 2 ^ 32 →
      Agree ((getOctetArray host refill size s).map Prod.snd) (skipInput host refill size s) →
      SkipsAlike host refill size s) := by
  rw [SkipsAlike]
  by_cases hsize : size ≤ s.avail
  · refine ⟨fun _ => ?_, fun _ _ => .inl hsize⟩
    rw [getOctetArray, skipInput, if_pos hsize, if_pos hsize]
    rfl
  rw [or_iff_right hsize]
  have of_iff {p q : Prop} (h : q ↔ p) : (p → q) ∧ (s.actual.unread.length < 2 ^ 32 → q → p) :=
    ⟨h.mpr, fun _ => h.mp⟩
  cases hheader : s.inHeader with
  | true =>
    rw [if_pos rfl]
    exact of_iff (agree_of_inHeader hsize hheader)
  | false =>
    rw [if_neg (by decide)]
    by_cases hchunk : s.inChunk = true
    · rw [if_neg (not_not.mpr hchunk)]
      by_cases hr : s.remaining = 0
      · rw [if_pos hr]
        exact of_iff (agree_of_remaining_zero hsize hheader hchunk hr)
      rw [if_neg hr]
      by_cases hlt : size - s.avail < s.remaining
      · rw [if_pos hlt, ← @getOctetArray_error_iff host refill _ _ hsize hheader hchunk hlt,
          ← @skipInput_error_iff host refill _ _ hsize hheader hchunk hlt]
        refine ⟨fun h => agree_of_error h.1 h.2, fun hlen h => ?_⟩
        have hskip := @skipInput_fails host refill _ _ hsize hheader hchunk hlt hlen
        exact ⟨(agree_error_iff hskip).mp h, hskip⟩
      · rw [if_neg hlt]
        exact of_iff (agree_of_remaining_le hsize hheader hchunk hr (not_lt.mp hlt) (by omega))
    · rw [if_pos hchunk]
      exact of_iff (iff_of_true (agree_of_not_inChunk hsize hheader hchunk) trivial)

/-- A value of two chunks, of three octets and of four, in memory. -/
def twoChunks : Actual where
  mkr := 0
  unread := [3, 0, 0, 0, 7, 8, 9, 0, 4, 0, 0, 0, 1, 2, 3, 4, 0xff, 0xff, 0xff, 0xff]
  byteSwap := false
  buffered := 20

/-- The whole of a memory stream is in its buffer. -/
def memory : Refill := fun _ n s => s.unread.length - n

open ValueChunkIn in
theorem skipInput_agrees_twoChunks :
    Agree ((getOctetArray .littleEndian memory 20 (initialiseInput twoChunks)).map Prod.snd)
      (skipInput .littleEndian memory 20 (initialiseInput twoChunks)) :=
  (skipInput_agrees_iff .littleEndian memory (initialiseInput twoChunks) (by decide)).1
    (.inl (by decide))

open ValueChunkIn in
/-- Five octets end in the second chunk. Two more can be read from it then, but four if they were
skipped. -/
theorem skipInput_disagrees :
    ∃ s, startInputValueBody .littleEndian memory (initialiseInput twoChunks) = .ok s ∧
      ¬Agree ((getOctetArray .littleEndian memory 5 s).map Prod.snd)
        (skipInput .littleEndian memory 5 s) := by
  refine ⟨_, rfl, ?_⟩
  rw [agree_of_remaining_zero (by decide) rfl rfl rfl, chunksFollow, if_neg (by decide), chunksHold]
  decide

end OmniORB
