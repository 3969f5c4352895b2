import OmniORB.Giop.Output12

/-!
# What a writer writes

Whatever a property of the octets written and of the stream is, it is enough that it survives
writing into the buffer, a flush, and sending octets directly: then it survives every operation of
a writer.
-/

namespace OmniORB

open Library

/-- Padding depends on the position within eight octets only. -/
lemma alignTo_sub_congr {p q : ℕ} (align : Alignment) (h : p % 8 = q % 8) :
    alignTo p align.size - p = alignTo q align.size - q := by
  have hpad (n : ℕ) : alignTo n align.size - n = alignTo (n % 8) align.size - n % 8 := by
    have hdvd : align.size ∣ 8 * (n / 8) := by
      refine Dvd.dvd.mul_right ?_ _
      cases align <;> decide
    have hshift := alignTo_add_of_dvd (n % 8) align.size_pos hdvd
    rw [Nat.mod_add_div] at hshift
    have hle := le_alignTo (n % 8) align.size_pos
    omega
  rw [hpad p, hpad q, h]

/-- A position within a buffer that ends on a multiple of eight octets can be aligned there. -/
lemma alignTo_le_end {p n : ℕ} (align : Alignment) (hle : p ≤ n) (hdvd : 8 ∣ n) :
    alignTo p align.size ≤ n := by
  refine alignTo_le align.size_pos hle (Dvd.dvd.trans ?_ hdvd)
  cases align <;> decide

/-! ### The octets of a message -/

/-- `pad` aligns what follows a body. -/
def Aligns (body : List UInt8) (align : Alignment) (pad : List UInt8) : Prop :=
  12 + body.length + pad.length = alignTo (12 + body.length) align.size

/-- From a body, an operation makes another. -/
def Appends (op : WriteOp) (body body' : List UInt8) : Prop :=
  ∃ pad, Aligns body op.alignment pad ∧ body' = body ++ pad ++ op.octets

/-- And so does a sequence of operations. -/
inductive Marshals : List WriteOp → List UInt8 → List UInt8 → Prop
  | nil (body : List UInt8) : Marshals [] body body
  | cons {op : WriteOp} {ops : List WriteOp} {body body' body'' : List UInt8}
      (hop : Appends op body body') (hops : Marshals ops body' body'') :
      Marshals (op :: ops) body body''

lemma Appends.count {op : WriteOp} {body body' : List UInt8} (h : Appends op body body') :
    12 + body'.length = op.count (12 + body.length) := by
  obtain ⟨pad, hpad, rfl⟩ := h
  rw [Aligns] at hpad
  rw [WriteOp.count, ← hpad, List.length_append, List.length_append]
  omega

lemma Marshals.count {ops : List WriteOp} {body body' : List UInt8} (h : Marshals ops body body') :
    12 + body'.length = ops.foldl WriteOp.count (12 + body.length) := by
  induction h with
  | nil body => rfl
  | cons hop hops ih => rw [ih, List.foldl_cons, hop.count]

lemma Marshals.isPrefix {ops : List WriteOp} {body body' : List UInt8}
    (h : Marshals ops body body') : body <+: body' := by
  induction h with
  | nil body => exact List.prefix_refl body
  | cons hop hops ih =>
    obtain ⟨pad, -, rfl⟩ := hop
    exact ((List.prefix_append _ _).trans (List.prefix_append _ _)).trans ih

lemma Marshals.append {xs ys : List WriteOp} {b c d : List UInt8} (hxs : Marshals xs b c)
    (hys : Marshals ys c d) : Marshals (xs ++ ys) b d := by
  induction hxs with
  | nil body => exact hys
  | cons hop hops ih => exact .cons hop (ih hys)

lemma aligns_nil {body : List UInt8} {align : Alignment}
    (h : align.size ∣ 12 + body.length) : Aligns body align [] := by
  rw [Aligns, List.length_nil, Nat.add_zero, alignTo_of_dvd align.size_pos h]

namespace GiopOut

/-! ### Invariants -/

/-- Where the markers of a stream are, with `body` written. -/
structure Marks (env : OutEnv) (body : List UInt8) (s : GiopOut) : Prop where
  le : s.outMkr ≤ s.outEnd
  dvd : 8 ∣ s.outEnd
  pos : 16 ≤ s.outEnd
  outEnd_le : s.outEnd ≤ env.cfg.bufferSize
  mod : s.outMkr % 8 = (12 + body.length) % 8

/-- The size field for octets that are going to be sent directly. -/
def announce (n : ℕ) (s : GiopOut) : GiopOut :=
  if s.outputFragmentSize = 0 then s.setSizeField (ulongSub (s.outMkr + n) 12) else s

/-- Octets that go to the connection behind the buffer. -/
def sendCopyChunk (d : List UInt8) (s : GiopOut) : GiopOut := { s with sent := s.sent ++ d }

/-- A property of the body and the stream that survives writing into the buffer. -/
structure KeepsPut (env : OutEnv) (P : List UInt8 → GiopOut → Prop) : Prop where
  marks : ∀ {body s}, P body s → Marks env body s
  put : ∀ {body s} (b : List UInt8), P body s → s.outMkr + b.length ≤ s.outEnd →
    P (body ++ b) (s.put b)

/-- It survives that a full buffer is sent, too. -/
structure KeepsBuffer (env : OutEnv) (P : List UInt8 → GiopOut → Prop) : Prop
    extends KeepsPut env P where
  flush : ∀ {body s t}, P body s → s.outMkr = s.outEnd → s.outputFlush env false = .ok t → P body t

/-- Sending octets that are not in the buffer leads from one property to another. -/
def Sends (env : OutEnv) (P Q : List UInt8 → GiopOut → Prop) : Prop :=
  ∀ {body s t} (d : List UInt8), P body s → 8 ∣ s.outMkr + d.length → d.length < 2 ^ 31 →
    (s.announce d.length).outputFlush env true = .ok t → Q (body ++ d) (t.sendCopyChunk d)

variable {env : OutEnv} {P Q : List UInt8 → GiopOut → Prop} {body : List UInt8} {s t : GiopOut}

lemma length_padding (align : Alignment) (s : GiopOut) :
    (s.padding env align).length = alignTo s.outMkr align.size - s.outMkr := by
  rw [padding, List.length_map, List.length_range]

lemma outMkr_put (b : List UInt8) (s : GiopOut) : (s.put b).outMkr = s.outMkr + b.length :=
  List.length_append

lemma outMkr_alignMkr (align : Alignment) (s : GiopOut) :
    (s.alignMkr env align).outMkr = alignTo s.outMkr align.size := by
  have hle := le_alignTo s.outMkr align.size_pos
  rw [alignMkr, outMkr_put, length_padding]
  omega

lemma not_reachedLimit (h : Marks env body s) : s.outputHasReachedLimit = false := by
  have hpos := h.pos
  rw [outputHasReachedLimit, decide_eq_false_iff_not]
  omega

lemma Marks.aligns (h : Marks env body s) (align : Alignment) :
    Aligns body align (s.padding env align) := by
  have hpad := alignTo_sub_congr align h.mod
  have hle := le_alignTo (12 + body.length) align.size_pos
  rw [Aligns, length_padding]
  omega

lemma KeepsPut.alignMkr (K : KeepsPut env P) (align : Alignment) (h : P body s) :
    P (body ++ s.padding env align) (s.alignMkr env align) := by
  have hmarks := K.marks h
  have hle := alignTo_le_end align hmarks.le hmarks.dvd
  have hge := le_alignTo s.outMkr align.size_pos
  apply K.put _ h
  rw [length_padding]
  omega

lemma KeepsPut.alignOutput (K : KeepsPut env P) {align : Alignment} {fuel : ℕ} (h : P body s)
    (hrun : s.alignOutput env align fuel = .ok t) : P (body ++ s.padding env align) t := by
  have hmarks := K.marks h
  have hle := alignTo_le_end align hmarks.le hmarks.dvd
  cases fuel with
  | zero => cases hrun
  | succ fuel =>
    rw [GiopOut.alignOutput, if_neg (not_lt.mpr hle)] at hrun
    cases hrun
    exact K.alignMkr align h

namespace KeepsBuffer

variable (K : KeepsBuffer env P)

include K

/-- The loop over an array. -/
lemma copyLoop {fuel : ℕ} {b : List UInt8} (h : P body s)
    (hrun : copyLoop env fuel b s = .ok t) : P (body ++ b) t := by
  induction fuel generalizing b body s with
  | zero =>
    rw [GiopOut.copyLoop] at hrun
    split_ifs at hrun with hb
    cases hrun
    rw [hb, List.append_nil]
    exact h
  | succ fuel ih =>
    rw [GiopOut.copyLoop] at hrun
    dsimp only at hrun
    by_cases hb : b = []
    · rw [if_pos hb] at hrun
      cases hrun
      rw [hb, List.append_nil]
      exact h
    rw [if_neg hb] at hrun
    have hmarks := K.marks h
    have hput := K.put (b.take (min (s.outEnd - s.outMkr) b.length)) h
      (by rw [List.length_take]; have := hmarks.le; omega)
    have hbody : body ++ b = body ++ b.take (min (s.outEnd - s.outMkr) b.length) ++
        b.drop (min (s.outEnd - s.outMkr) b.length) := by
      rw [List.append_assoc, List.take_append_drop]
    rw [hbody]
    split_ifs at hrun with hfull
    · -- the buffer is full
      cases hflush : (s.put (b.take (min (s.outEnd - s.outMkr) b.length))).outputFlush env false with
      | error e => simp [hflush] at hrun
      | ok u =>
        rw [hflush] at hrun
        dsimp only at hrun
        split_ifs at hrun
        exact ih (K.flush hput hfull hflush) hrun
    · exact ih hput hrun

/-- Space is reserved behind the padding. -/
lemma getReserveSpace {align : Alignment} {sz : ℕ} (h : P body s)
    (hrun : s.getReserveSpace env align sz = .ok t) : P (body ++ s.padding env align) t := by
  have halign := K.alignMkr align h
  have hmarks := K.marks halign
  rw [GiopOut.getReserveSpace] at hrun
  dsimp only at hrun
  split_ifs at hrun with _ hsz hroom
  · cases hrun
    exact halign
  · cases hrun
    exact halign
  · change ((s.alignMkr env align).outputFlush env false >>= fun u => _) = Except.ok t at hrun
    cases hflush : (s.alignMkr env align).outputFlush env false with
    | error e =>
      rw [hflush] at hrun
      cases hrun
    | ok u =>
      rw [hflush] at hrun
      change (if u.outputHasReachedLimit = true then Except.error _ else Except.ok u) = _ at hrun
      split_ifs at hrun
      cases hrun
      exact K.flush halign (le_antisymm hmarks.le (not_lt.mp hroom)) hflush

lemma marshalPrimitive {align : Alignment} {b : List UInt8} {fuel : ℕ} (hlen : b.length = align.size)
    (h : P body s) (hrun : s.marshalPrimitive env align b fuel = .ok t) :
    ∃ pad, Aligns body align pad ∧ P (body ++ pad ++ b) t := by
  induction fuel generalizing body s with
  | zero => cases hrun
  | succ fuel ih =>
    have hpad := (K.marks h).aligns align
    rw [GiopOut.marshalPrimitive] at hrun
    split_ifs at hrun with hfits
    · cases hrun
      refine ⟨_, hpad, K.put b (K.alignMkr align h) ?_⟩
      rw [outMkr_alignMkr, hlen]
      exact hfits
    · cases hres : s.getReserveSpace env align align.size with
      | error e => simp [hres] at hrun
      | ok u =>
        rw [hres] at hrun
        obtain ⟨pad, hpad', ht⟩ := ih (K.getReserveSpace h hres) hrun
        -- nothing is left to be aligned
        have hnil : pad = [] := by
          rw [Aligns] at hpad hpad'
          rw [List.length_append, ← Nat.add_assoc, hpad, alignTo_idem _ align.size_pos] at hpad'
          exact List.length_eq_zero_iff.mp (by omega)
        rw [hnil, List.append_nil] at ht
        exact ⟨_, hpad, ht⟩

end KeepsBuffer

/-! ### Operations -/

section

variable (K : KeepsPut env P) (L : KeepsBuffer env Q) (hsends : Sends env P Q)

include K L hsends

/-- The array is sent in part from where it is. -/
lemma sendDirect_keeps {b : List UInt8} (hcut : env.cfg.directSendCutOff ≤ b.length)
    (hlen : b.length < 2 ^ 31) (h : P body s) (hrun : s.sendDirect env b = .ok t) :
    Q (body ++ b) t := by
  have hcfg := env.cfg.le_directSendCutOff
  have hmarks := K.marks h
  rw [GiopOut.sendDirect] at hrun
  dsimp only at hrun
  generalize hfill : (if s.outMkr < env.cfg.minChunkBeforeDirectSend then
    min (env.cfg.minChunkBeforeDirectSend - s.outMkr) (s.outEnd - s.outMkr) else 0) = filler at hrun
  have hfiller : filler ≤ s.outEnd - s.outMkr ∧ filler ≤ env.cfg.minChunkBeforeDirectSend := by
    rw [← hfill]
    split_ifs
    · omega
    · exact ⟨Nat.zero_le _, Nat.zero_le _⟩
  have hput := K.put (b.take filler) h (by rw [List.length_take]; have := hmarks.le; omega)
  generalize s.put (b.take filler) = u at hput hrun
  have hrest : (b.drop filler).length = b.length - filler := List.length_drop
  generalize hleft : (u.outMkr + (b.drop filler).length) % 8 = leftover at hrun
  generalize hd : (b.drop filler).take ((b.drop filler).length - leftover) = d at hrun
  have hdlen : d.length = (b.drop filler).length - leftover := by
    rw [← hd, List.length_take]
    omega
  have hdvd : 8 ∣ u.outMkr + d.length := by omega
  have hannounce : (if u.outputFragmentSize = 0 then
      u.setSizeField (ulongSub (u.outMkr + ((b.drop filler).length - leftover)) 12) else u) =
        u.announce d.length := by
    rw [hdlen]
    rfl
  rw [hannounce, ← hdlen] at hrun
  cases hflush : (u.announce d.length).outputFlush env true with
  | error e => simp [hflush] at hrun
  | ok v =>
    rw [hflush] at hrun
    dsimp only at hrun
    split_ifs at hrun
    have hsent := hsends d hput hdvd (by omega) hflush
    have hbody : body ++ b = body ++ b.take filler ++ d ++ (b.drop filler).drop d.length := by
      rw [← hd, List.append_assoc, List.append_assoc, List.length_take, Nat.min_eq_left (by omega),
        List.take_append_drop, List.take_append_drop]
    rw [hbody]
    exact L.copyLoop hsent hrun

variable (hweaken : ∀ {body s}, P body s → Q body s)

include hweaken

lemma copyOutputData_keeps {b : List UInt8} {align : Alignment} (hlen : b.length < 2 ^ 31)
    (h : P body s) (hrun : s.copyOutputData env b align = .ok t) :
    Q (body ++ s.padding env align ++ b) t := by
  rw [GiopOut.copyOutputData] at hrun
  split_ifs at hrun with _ _ hcut
  · exact sendDirect_keeps K L hsends hcut hlen (K.alignMkr align h) hrun
  · exact L.copyLoop (hweaken (K.alignMkr align h)) hrun

/-- One operation. -/
lemma write_keeps {op : WriteOp} (h : P body s) (hrun : s.write env op = .ok t) :
    ∃ body', Appends op body body' ∧ Q body' t := by
  have haligns := (K.marks h).aligns
  cases op with
  | primitive align b hlen =>
    obtain ⟨pad, hpad, ht⟩ := L.marshalPrimitive hlen (hweaken h) hrun
    exact ⟨_, ⟨pad, hpad, rfl⟩, ht⟩
  | align align =>
    refine ⟨_, ⟨_, haligns align, ?_⟩, hweaken (K.alignOutput h hrun)⟩
    exact (List.append_nil _).symm
  | octetArray b align hlen =>
    exact ⟨_, ⟨_, haligns align, rfl⟩, copyOutputData_keeps K L hsends hweaken hlen h hrun⟩
  | smallOctetArray b hlen =>
    change (if s.outMkr + b.length ≤ s.outEnd then Except.ok (s.put b) else _) = _ at hrun
    split_ifs at hrun with hfits
    · cases hrun
      refine ⟨_, ⟨[], aligns_nil (one_dvd _), ?_⟩, hweaken (K.put b h hfits)⟩
      rw [List.append_nil]
      rfl
    · exact ⟨_, ⟨_, haligns .align1, rfl⟩,
        copyOutputData_keeps K L hsends hweaken hlen h hrun⟩

end

/-! ### Runs -/

/-- A property of the body and the stream that survives every operation. -/
structure Keeps (env : OutEnv) (P : List UInt8 → GiopOut → Prop) : Prop
    extends KeepsBuffer env P where
  sends : Sends env P P

lemma Keeps.write {op : WriteOp} (K : Keeps env P) (h : P body s) (hrun : s.write env op = .ok t) :
    ∃ body', Appends op body body' ∧ P body' t :=
  write_keeps K.toKeepsPut K.toKeepsBuffer K.sends (fun h => h) h hrun

/-- A run is made of two. -/
lemma writes_append {xs ys : List WriteOp} :
    s.writes env (xs ++ ys) = .ok t ↔
      ∃ u, s.writes env xs = .ok u ∧ u.writes env ys = .ok t := by
  induction xs generalizing s with
  | nil =>
    constructor
    · intro hrun
      exact ⟨s, rfl, hrun⟩
    · rintro ⟨u, hu, hrun⟩
      cases hu
      exact hrun
  | cons op xs ih =>
    rw [List.cons_append, GiopOut.writes, GiopOut.writes]
    cases s.write env op with
    | error e => simp
    | ok u => exact ih

lemma Keeps.writes {ops : List WriteOp} (K : Keeps env P) (h : P body s)
    (hrun : s.writes env ops = .ok t) : ∃ body', Marshals ops body body' ∧ P body' t := by
  induction ops generalizing body s with
  | nil =>
    cases hrun
    exact ⟨body, .nil body, h⟩
  | cons op ops ih =>
    rw [GiopOut.writes] at hrun
    cases hop : s.write env op with
    | error e => simp [hop] at hrun
    | ok u =>
      rw [hop] at hrun
      obtain ⟨body', happ, hu⟩ := K.write h hop
      obtain ⟨body'', hops, ht⟩ := ih hu hrun
      exact ⟨body'', .cons happ hops, ht⟩

end GiopOut

end OmniORB
