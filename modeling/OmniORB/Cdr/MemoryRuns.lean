import OmniORB.Cdr.MemoryContents

/-!
# Runs of memory streams

What follows for every run of a memory stream from what its buffer holds: its answers are those of a
list of octets, cleared memory makes what is marshalled independent of the buffer, and data are read
alike wherever they lie. A counting stream counts what a memory stream writes, but for one function.
-/

namespace OmniORB

open Library List

namespace CdrMemoryStream

variable {Gap : UInt8 → Prop} {s : CdrMemoryStream} {c : Contents} {env : Allocator}

/-! ### The constructors -/

/-- Contents nothing has been written to. -/
def Contents.empty : Contents := ⟨[], 0, false⟩

lemma alignTo_le_limit {m : Block UInt8} (hlen : m.cells.length = 32) :
    m.base ≤ ensureAlign8 m.base ∧ ensureAlign8 m.base ≤ m.limit := by
  have hle := le_alignTo m.base (a := 8) (by decide)
  have hlt := alignTo_lt m.base (a := 8) (by decide)
  unfold ensureAlign8 Block.limit
  omega

lemma holds_ofInline {inlineBuffer : Block UInt8} (hlen : inlineBuffer.cells.length = 32)
    (clearMemory : Bool) (hall : ∀ x, Gap x) :
    Holds Gap (ofInline inlineBuffer clearMemory) .empty := by
  obtain ⟨hbase, hlimit⟩ := alignTo_le_limit hlen
  exact ⟨.inl hall, dvd_alignTo _ _, hbase, rfl, le_rfl, rfl, hlimit, .nil,
    fun _ => ⟨rfl, rfl, le_rfl, le_rfl, fun x _ => hall x⟩, fun hr => absurd hr Bool.false_ne_true⟩

/-- Clearing the memory of a new stream. -/
lemma Holds.cleared {t : CdrMemoryStream} (h : Holds (fun _ => True) t .empty)
    (hgaps : (∀ x, Gap x) ∨ (t.clearMemory = true ∧ Gap 0)) :
    Holds Gap { t with buffer := CdrMemoryStream.cleared t.clearMemory t.buffer } .empty := by
  have hbase : (CdrMemoryStream.cleared t.clearMemory t.buffer).base = t.buffer.base := by
    unfold CdrMemoryStream.cleared
    split_ifs <;> rfl
  have hlimit : (CdrMemoryStream.cleared t.clearMemory t.buffer).limit = t.buffer.limit := by
    unfold CdrMemoryStream.cleared
    split_ifs <;> simp [Block.limit]
  obtain ⟨hmkr, hend, hin, hin', -⟩ := h.writable rfl
  refine ⟨hgaps, h.aligned, hbase ▸ h.base_le, h.readonly, h.read_le, h.inbMkr, hlimit ▸ h.limit,
    .nil, ?_, fun hr => absurd hr Bool.false_ne_true⟩
  refine fun _ => ⟨hmkr, hend.trans hlimit.symm, hin, hin', fun x hx => ?_⟩
  cases hgaps with
  | inl hall => exact hall x
  | inr hzero =>
    dsimp only at hx
    rw [hzero.1] at hx
    rw [eq_of_mem_replicate (mem_of_mem_drop (mem_of_mem_drop hx))]
    exact hzero.2

lemma holds_new {inlineBuffer : Block UInt8} (hlen : inlineBuffer.cells.length = 32) {n : ℕ}
    {clearMemory : Bool} (hgaps : (∀ x, Gap x) ∨ (clearMemory = true ∧ Gap 0)) {s : CdrMemoryStream}
    (h : new env inlineBuffer n clearMemory = .ok () s) : Holds Gap s .empty := by
  have hinline : Holds (fun _ => True) (ofInline inlineBuffer clearMemory) .empty :=
    holds_ofInline hlen clearMemory fun _ => trivial
  have hroom : Does (ofInline inlineBuffer clearMemory)
      (if (ofInline inlineBuffer clearMemory).markers.outbEnd -
          (ofInline inlineBuffer clearMemory).markers.outbMkr < n then
        reserveOutputSpace env .align8 n else pure true)
      (fun _ t => Holds (fun _ => True) t .empty ∧ t.clearMemory = clearMemory)
      (fun _ _ => True) := by
    apply Agree.of_ite
    · exact fun _ => (hinline.reserveOutputSpace rfl env .align8 n).mono
        (fun _ _ hQ => ⟨hQ.2.1, hQ.2.2.2⟩) fun _ _ _ => trivial
    · exact fun _ => Agree.of_pure ⟨hinline, rfl⟩
  have hnew : Does (ofInline inlineBuffer clearMemory)
      ((if (ofInline inlineBuffer clearMemory).markers.outbEnd -
          (ofInline inlineBuffer clearMemory).markers.outbMkr < n then
        reserveOutputSpace env .align8 n else pure true) >>= fun _ =>
          modify fun s => { s with buffer := CdrMemoryStream.cleared clearMemory s.buffer })
      (fun _ t => Holds Gap t .empty) (fun _ _ => True) := by
    apply Agree.bind hroom
    rintro - t ⟨ht, rfl⟩
    exact Agree.modified (ht.cleared hgaps)
  have hmeets : Meets (fun _ t => Holds Gap t .empty) (fun _ _ => True)
      (new env inlineBuffer n clearMemory) := hnew.meets
  rw [h] at hmeets
  exact hmeets

/-- The contents of a buffer with data to read. -/
def Contents.ofData (b : List UInt8) (readonly : Bool) : Contents := ⟨b.map some, 0, readonly⟩

lemma holds_ofExternal {databuffer : Block UInt8} (hdvd : 8 ∣ databuffer.base) (hall : ∀ x, Gap x) :
    Holds Gap (ofExternal databuffer) (.ofData databuffer.cells true) := by
  have hsince : databuffer.since databuffer.base = databuffer.cells := by
    rw [Block.since, Nat.sub_self, drop_zero]
  have hlen : (Contents.ofData databuffer.cells true).written.length = databuffer.cells.length :=
    length_map _
  refine ⟨.inl hall, hdvd, le_rfl, rfl, Nat.zero_le _, rfl, ?_, ?_,
    fun hw => absurd hw.symm Bool.false_ne_true, fun _ => ⟨rfl, rfl, ?_, rfl⟩⟩
  · rw [hlen]
    exact le_rfl
  · rw [hlen]
    change Forall₂ _ _ ((databuffer.since databuffer.base).take _)
    rw [hsince, take_length]
    exact forall₂_map_some _
  · rw [hlen]
    rfl

lemma holds_ofEncapsulation {inlineBuffer databuffer : Block UInt8}
    (hlen : inlineBuffer.cells.length = 32) (hall : ∀ x, Gap x) {s : CdrMemoryStream}
    (h : ofEncapsulation env inlineBuffer databuffer = .ok () s) :
    ∃ readonly, Holds Gap s (.ofData databuffer.cells readonly) := by
  rw [ofEncapsulation] at h
  split_ifs at h with haligned
  · cases h
    exact ⟨true, holds_ofExternal (haligned ▸ dvd_alignTo _ _) hall⟩
  · have hput :=
      ((holds_ofInline hlen false hall).putOctetArray rfl env databuffer.cells .align1).meets
    rw [h] at hput
    exact ⟨false, hput⟩

/-- The streams that programs start with, and their contents. -/
inductive Opened (env : Allocator) : CdrMemoryStream → Contents → Prop
  | created {inlineBuffer : Block UInt8} (hlen : inlineBuffer.cells.length = 32) {n : ℕ}
      {clearMemory : Bool} {s : CdrMemoryStream}
      (h : new env inlineBuffer n clearMemory = .ok () s) : Opened env s .empty
  | external {databuffer : Block UInt8} (h : 8 ∣ databuffer.base) :
      Opened env (ofExternal databuffer) (.ofData databuffer.cells true)

lemma Opened.holds {s : CdrMemoryStream} {c : Contents} (h : Opened env s c) :
    Holds (fun _ => True) s c := by
  cases h with
  | created hlen h => exact holds_new hlen (.inl fun _ => trivial) h
  | external hdvd => exact holds_ofExternal hdvd fun _ => trivial

/-! ### Results -/

/-- `bufSize()` octets from `bufPtr()` on. -/
def octets (s : CdrMemoryStream) : List UInt8 := (s.buffer.since s.bufp8).take s.bufSize

lemma Holds.octets_eq (h : Holds Gap s c) (hw : c.readonly = false) :
    Forall₂ (Fills Gap) c.written s.octets := by
  obtain ⟨hmkr, -⟩ := h.writable hw
  have hsize : s.bufSize = c.written.length := by
    rw [bufSize, hmkr]
    omega
  rw [octets, hsize]
  exact h.written

/-- An answer that the source gives: no access was outside of the buffer, and no function called
itself again and again. -/
def Answer.Proper {α : Type} (a : Answer α) : Prop :=
  ∀ e, a = .raised e → e ≠ .outOfBounds ∧ e ≠ .outOfFuel

/-- What contents answer is proper, and the buffer stays external. -/
def Contents.Answers (c : Contents) (r : Answer (Option UInt8) × Contents) : Prop :=
  r.1.Proper ∧ r.2.readonly = c.readonly

namespace Contents

lemma answers_of_eq {a : Answer (Option UInt8)} (ha : ∀ e, a ≠ .raised e) {c c' : Contents}
    (hc : c'.readonly = c.readonly) : c.Answers (a, c') :=
  ⟨fun e he => absurd he (ha e), hc⟩

lemma answers_write (align : Alignment) (b : List UInt8) (c : Contents) :
    c.Answers (c.write align b) := by
  unfold write
  split_ifs
  · refine ⟨fun e he => ?_, rfl⟩
    cases he
    decide
  · exact answers_of_eq (by simp) rfl

lemma answers_take (align : Alignment) (n : ℕ) (c : Contents) : c.Answers (c.take align n) := by
  unfold take
  dsimp only
  split_ifs
  · exact answers_of_eq (by simp) rfl
  · refine ⟨fun e he => ?_, rfl⟩
    cases he
    decide

lemma answers_pass (align : Alignment) (n : ℕ) (c : Contents) : c.Answers (c.pass align n) := by
  unfold pass
  dsimp only
  split_ifs
  · exact answers_of_eq (by simp) rfl
  · refine ⟨fun e he => ?_, rfl⟩
    cases he
    decide

lemma answers_output (op : OutputOp) (c : Contents) : c.Answers (c.output op) := by
  cases op with
  | marshal type b hlen => exact answers_write _ _ c
  | putOctetArray b align => exact answers_write _ _ c
  | putSmallOctetArray b =>
    rw [output]
    split_ifs
    · exact answers_of_eq (by simp) rfl
    · exact answers_write _ _ c
  | alignOutput align =>
    refine answers_of_eq (by simp) ?_
    split_ifs <;> rfl
  | copied align b => exact answers_write _ _ c

lemma answers_perform (op : StreamOp) (c : Contents) : c.Answers (c.perform op) := by
  cases op with
  | output op => exact answers_output op c
  | unmarshal type => exact answers_take _ _ c
  | getOctetArray size align => exact answers_take _ _ c
  | alignInput align => exact answers_pass _ _ c
  | skipInput size => exact answers_pass _ _ c
  | checkInputOverrun itemSize nItems align => exact answers_of_eq (by simp) rfl
  | rewindInputPtr => exact answers_of_eq (by simp) rfl
  | rewindPtrs =>
    refine answers_of_eq (by simp) ?_
    split_ifs <;> rfl

end Contents

lemma Answer.Fills.proper {a : Answer (Option UInt8)} {x : Answer UInt8} (h : a.Fills Gap x)
    (ha : a.Proper) : x.Proper := by
  rintro e rfl
  cases a with
  | raised f =>
    cases h
    exact ha _ rfl
  | _ => exact h.elim

lemma Follows.proper {c c' : Contents} {answers : List (StreamOp × Answer UInt8)}
    (h : Follows Gap c answers c') :
    (∀ x ∈ answers, x.2.Proper) ∧ c'.readonly = c.readonly := by
  induction h with
  | nil c => exact ⟨by simp, rfl⟩
  | @performed c c' op a answers h ht ih =>
    obtain ⟨hproper, hreadonly⟩ := Contents.answers_perform op c
    refine ⟨?_, ih.2.trans hreadonly⟩
    rintro x (_ | ⟨_, hx⟩)
    · exact h.proper hproper
    · exact ih.1 x hx
  | noMemory ht ih =>
    refine ⟨?_, ih.2⟩
    rintro x (_ | ⟨_, hx⟩)
    · intro e he
      cases he
      decide
    · exact ih.1 x hx

/-- A memory stream is a list of octets with a place to read from: whatever memory the allocator
finds, in every run the answers are those of such a list, no access is outside of the buffer, and
the buffer of a stream that can be written to has the list's octets. -/
theorem memory_stream_is_octets {s : CdrMemoryStream} {c : Contents} (h : Opened env s c)
    (ops : List StreamOp) :
    ∃ c', Follows (fun _ => True) c (run env ops s).1 c' ∧
      (∀ x ∈ (run env ops s).1, x.2.Proper) ∧
      (c.readonly = false → Forall₂ (Fills fun _ => True) c'.written (run env ops s).2.octets) := by
  have hrun : .rewindPtrs ∈ ops → ∀ x : UInt8, (fun _ => True) x := fun _ _ => trivial
  obtain ⟨c', hfollows, hholds⟩ := h.holds.run env hrun
  obtain ⟨hproper, hreadonly⟩ := hfollows.proper
  exact ⟨c', hfollows, hproper, fun hw => hholds.octets_eq (hreadonly.trans hw)⟩

/-- An allocator whose blocks do not start at a multiple of 8. -/
def oddAllocator : Allocator where
  alloc k n := some ⟨4096 * k + 5, List.replicate n 0xcd⟩
  length_cells := by
    rintro k n m ⟨⟩
    exact length_replicate

/-- `pd_inline_buffer` of a stream. -/
def oddInlineBuffer : Block UInt8 := ⟨3, List.replicate 32 0xab⟩

lemma new_odd :
    new oddAllocator oddInlineBuffer 0 false = .ok () (ofInline oddInlineBuffer false) :=
  rfl

/-- Writes that make the buffer grow, and reads up to the end. -/
def grownOps : List StreamOp :=
  [.output (.marshal .octet [1] rfl), .output (.putOctetArray (List.replicate 40 7) .align8),
    .unmarshal .octet, .alignInput .align8, .unmarshal .long, .skipInput 100]

theorem memory_stream_is_octets_grown :
    ∃ c', Follows (fun _ => True) .empty
      (run oddAllocator grownOps (ofInline oddInlineBuffer false)).1 c' ∧
      (∀ x ∈ (run oddAllocator grownOps (ofInline oddInlineBuffer false)).1, x.2.Proper) ∧
      (Contents.empty.readonly = false → Forall₂ (Fills fun _ => True) c'.written
        (run oddAllocator grownOps (ofInline oddInlineBuffer false)).2.octets) :=
  memory_stream_is_octets (.created (by decide) new_odd) grownOps

/-! ### Streams that cannot be told apart -/

lemma fills_unique (hgap : ∀ x y, Gap x → Gap y → x = y) {o : Option UInt8} {x y : UInt8}
    (hx : Fills Gap o x) (hy : Fills Gap o y) : x = y := by
  cases o with
  | none => exact hgap x y hx hy
  | some z => exact hx.trans hy.symm

lemma forall₂_fills_unique {l : List (Option UInt8)} {b b' : List UInt8}
    (hgap : (∀ x y, Gap x → Gap y → x = y) ∨ none ∉ l) (h : Forall₂ (Fills Gap) l b)
    (h' : Forall₂ (Fills Gap) l b') : b = b' := by
  induction h generalizing b' with
  | nil => exact (forall₂_nil_left_iff.mp h').symm
  | @cons o x l b hx h ih =>
    obtain ⟨y, b', hy, htail, rfl⟩ := forall₂_cons_left_iff.mp h'
    have hhead : x = y := by
      cases hgap with
      | inl hgap => exact fills_unique hgap hx hy
      | inr hknown =>
        cases o with
        | none => exact absurd (mem_cons_self ..) hknown
        | some z => exact hx.trans hy.symm
    rw [hhead, ih (hgap.imp_right fun hknown hmem => hknown (mem_cons_of_mem _ hmem)) htail]

/-- Whether no octet of an answer is unknown. -/
def Answer.Known : Answer (Option UInt8) → Prop
  | .octets l => none ∉ l
  | _ => True

lemma Answer.Fills.unique {a : Answer (Option UInt8)} {x y : Answer UInt8}
    (hgap : (∀ x y, Gap x → Gap y → x = y) ∨ a.Known) (hx : a.Fills Gap x) (hy : a.Fills Gap y) :
    x = y := by
  cases a with
  | octets l =>
    cases x with
    | octets b =>
      cases y with
      | octets b' => exact congrArg _ (forall₂_fills_unique hgap hx hy)
      | _ => exact hy.elim
    | _ => exact hx.elim
  | done =>
    cases x <;> cases y <;> first | rfl | exact hx.elim | exact hy.elim
  | fits b =>
    cases x <;> cases y <;>
      first | exact congrArg _ (hx.symm.trans hy) | exact hx.elim | exact hy.elim
  | raised e =>
    cases x <;> cases y <;>
      first | exact congrArg _ (hx.symm.trans hy) | exact hx.elim | exact hy.elim

/-- Whether there was no memory for an operation. -/
def Answer.failed {α : Type} : Answer α → Bool
  | .raised .badAlloc => true
  | _ => false

/-- There was memory for every operation of a run. -/
def Unfailing (answers : List (StreamOp × Answer UInt8)) : Prop := ∀ x ∈ answers, x.2.failed = false

instance (answers : List (StreamOp × Answer UInt8)) : Decidable (Unfailing answers) :=
  inferInstanceAs (Decidable (∀ x ∈ answers, x.2.failed = false))

lemma Unfailing.head {op : StreamOp} {a : Answer UInt8} {answers : List (StreamOp × Answer UInt8)}
    (h : Unfailing ((op, a) :: answers)) : a ≠ .raised .badAlloc := by
  rintro rfl
  cases h _ (mem_cons_self ..)

lemma Unfailing.tail {x : StreamOp × Answer UInt8} {answers : List (StreamOp × Answer UInt8)}
    (h : Unfailing (x :: answers)) : Unfailing answers := fun y hy => h y (mem_cons_of_mem x hy)

/-- Two streams with the same contents give the same answers, if an unknown octet is always the
same. -/
lemma run_eq_of_holds {env' : Allocator} {s' : CdrMemoryStream} {ops : List StreamOp}
    (hgap : ∀ x y, Gap x → Gap y → x = y) (hops : .rewindPtrs ∉ ops) (h : Holds Gap s c)
    (h' : Holds Gap s' c) (hmem : Unfailing (run env ops s).1)
    (hmem' : Unfailing (run env' ops s').1) :
    (run env ops s).1 = (run env' ops s').1 ∧
      ∃ c', Holds Gap (run env ops s).2 c' ∧ Holds Gap (run env' ops s').2 c' ∧
        c'.readonly = c.readonly := by
  induction ops generalizing s s' c with
  | nil => exact ⟨rfl, c, h, h', rfl⟩
  | cons op ops ih =>
    have hne : op = .rewindPtrs → ∀ x, Gap x := fun hop => absurd (hop ▸ mem_cons_self ..) hops
    obtain ⟨ha, hs⟩ := (h.perform env op hne).resolve_right fun hfailed => hmem.head hfailed.1
    obtain ⟨ha', hs'⟩ := (h'.perform env' op hne).resolve_right fun hfailed => hmem'.head hfailed.1
    obtain ⟨hanswers, c', hc, hc', hread⟩ :=
      ih (fun hmem => hops (mem_cons_of_mem op hmem)) hs hs' hmem.tail hmem'.tail
    refine ⟨?_, c', hc, hc', hread.trans (Contents.answers_perform op c).2⟩
    rw [run, run]
    dsimp only
    rw [Answer.Fills.unique (.inl hgap) ha ha', hanswers]

/-- An octet of cleared memory. -/
def IsZero (x : UInt8) : Prop := x = 0

/-- What is marshalled into streams with cleared memory does not depend on where their buffers are:
the same operations give the same answers and the same octets, the padding included, unless the
stream is rewound to be written to again. -/
theorem cleared_streams_alike {env env' : Allocator} {b b' : Block UInt8} (hb : b.cells.length = 32)
    (hb' : b'.cells.length = 32) {n n' : ℕ} {s s' : CdrMemoryStream}
    (h : new env b n true = .ok () s)
    (h' : new env' b' n' true = .ok () s') {ops : List StreamOp} (hops : .rewindPtrs ∉ ops)
    (hmem : Unfailing (run env ops s).1) (hmem' : Unfailing (run env' ops s').1) :
    (run env ops s).1 = (run env' ops s').1 ∧
      (run env ops s).2.octets = (run env' ops s').2.octets := by
  have hgap : ∀ x y, IsZero x → IsZero y → x = y := fun x y hx hy => hx.trans hy.symm
  have hzero : IsZero 0 := rfl
  have hs : Holds IsZero s .empty := holds_new hb (.inr ⟨rfl, hzero⟩) h
  have hs' : Holds IsZero s' .empty := holds_new hb' (.inr ⟨rfl, hzero⟩) h'
  obtain ⟨hanswers, c, hc, hc', hread⟩ := run_eq_of_holds hgap hops hs hs' hmem hmem'
  exact ⟨hanswers, forall₂_fills_unique (.inl hgap) (hc.octets_eq hread) (hc'.octets_eq hread)⟩

/-- `pd_inline_buffer` at another address. -/
def evenInlineBuffer : Block UInt8 := ⟨16, List.replicate 32 0xee⟩

/-- A stream whose memory was cleared. -/
def clearedStream (inlineBuffer : Block UInt8) : CdrMemoryStream :=
  { ofInline inlineBuffer true with buffer := cleared true inlineBuffer }

lemma new_cleared_odd :
    new oddAllocator oddInlineBuffer 0 true = .ok () (clearedStream oddInlineBuffer) := rfl

lemma new_cleared_even :
    new oddAllocator evenInlineBuffer 0 true = .ok () (clearedStream evenInlineBuffer) := rfl

lemma length_eight : [1, 2, 3, 4, 5, 6, 7, 8].length = Primitive.longLong.size := rfl

/-- Values with padding between them. -/
def paddedOps : List StreamOp :=
  [.output (.marshal .octet [1] rfl),
    .output (.marshal .longLong [1, 2, 3, 4, 5, 6, 7, 8] length_eight),
    .output (.putOctetArray [9] .align1), .output (.alignOutput .align8), .getOctetArray 3 .align4]

theorem cleared_streams_alike_padded :
    (run oddAllocator paddedOps (clearedStream oddInlineBuffer)).1 =
      (run oddAllocator paddedOps (clearedStream evenInlineBuffer)).1 ∧
    (run oddAllocator paddedOps (clearedStream oddInlineBuffer)).2.octets =
      (run oddAllocator paddedOps (clearedStream evenInlineBuffer)).2.octets :=
  cleared_streams_alike (by decide) (by decide) new_cleared_odd new_cleared_even
    (by simp [paddedOps]) (by decide) (by decide)

/-! ### The octets written -/

end CdrMemoryStream

/-- The operation on the octets that have been written to a stream. -/
def OutputOp.apply (out : CdrOut) : OutputOp → CdrOut
  | .marshal type b _ => (out.alignOutput type.align).putOctetArray b
  | .putOctetArray b align => (out.alignOutput align).putOctetArray b
  | .putSmallOctetArray b => out.putOctetArray b
  | .alignOutput align => out.alignOutput align
  | .copied align b => (out.alignOutput align).putOctetArray b

namespace CdrMemoryStream

/-- Contents with the octets that memory held where alignment passed over. -/
def filled (stale : ℕ → UInt8) (w : List (Option UInt8)) : List UInt8 :=
  w.mapIdx fun i o => o.getD (stale i)

lemma filled_append (stale : ℕ → UInt8) (w : List (Option UInt8)) (b : List UInt8) :
    filled stale (w ++ b.map some) = filled stale w ++ b := by
  rw [filled, mapIdx_append, ← filled]
  congr 1
  apply ext_getElem
  · simp
  · intro i _ _
    simp

lemma alignOutput_filled {out : CdrOut} {w : List (Option UInt8)} (align : Alignment)
    (h : out.octets = filled out.stale w) :
    (out.alignOutput align).octets = filled out.stale (w ++ Contents.gap w.length align) := by
  have hmkr : out.mkr = w.length := by
    rw [CdrOut.mkr, h, filled, length_mapIdx]
  rw [CdrOut.alignOutput, hmkr, h, filled, filled, mapIdx_append]
  refine congrArg (_ ++ ·) (ext_getElem ?_ ?_)
  · simp [Contents.gap]
  · intro i _ _
    simp [Contents.gap, Nat.add_comm]

lemma put_filled {out : CdrOut} {c : Contents} (align : Alignment) (b : List UInt8)
    (h : out.octets = filled out.stale c.written) :
    ((out.alignOutput align).putOctetArray b).octets =
      filled out.stale (c.put align b).written := by
  rw [CdrOut.octets_putOctetArray, alignOutput_filled align h, Contents.put, filled_append]
  rfl

lemma write_of_writable {c : Contents} (hw : c.readonly = false) (align : Alignment)
    (b : List UInt8) : c.write align b = (.done, c.put align b) := by
  rw [Contents.write, hw]
  rfl

lemma apply_filled {out : CdrOut} {c : Contents} (hw : c.readonly = false) (op : OutputOp)
    (h : out.octets = filled out.stale c.written) :
    (op.apply out).octets = filled out.stale (c.output op).2.written ∧
      (op.apply out).stale = out.stale := by
  cases op with
  | marshal type b hlen =>
    rw [Contents.output, write_of_writable hw]
    exact ⟨put_filled _ b h, rfl⟩
  | putOctetArray b align =>
    rw [Contents.output, write_of_writable hw]
    exact ⟨put_filled _ b h, rfl⟩
  | putSmallOctetArray b =>
    rw [Contents.output, write_of_writable hw]
    refine ⟨?_, rfl⟩
    have hone : (c.put .align1 b).written = c.written ++ b.map some := by
      simp [Contents.put, Contents.pad, Contents.gap, Alignment.size]
    by_cases hb : b = []
    · rw [if_pos hb, hb]
      simpa [OutputOp.apply] using h
    · rw [if_neg hb, hone, filled_append, ← h]
      rfl
  | alignOutput align =>
    rw [Contents.output, hw]
    exact ⟨alignOutput_filled align h, rfl⟩
  | copied align b =>
    rw [Contents.output, write_of_writable hw]
    exact ⟨put_filled _ b h, rfl⟩

/-- What operations write to contents. -/
def Contents.outputs (c : Contents) (ops : List OutputOp) : Contents :=
  ops.foldl (fun c op => (c.output op).2) c

lemma outputs_filled {ops : List OutputOp} {out : CdrOut} {c : Contents} (hw : c.readonly = false)
    (h : out.octets = filled out.stale c.written) :
    (ops.foldl OutputOp.apply out).octets = filled out.stale (c.outputs ops).written := by
  induction ops generalizing out c with
  | nil => exact h
  | cons op ops ih =>
    obtain ⟨hoctets, hstale⟩ := apply_filled hw op h
    rw [← hstale] at hoctets
    have hread := (Contents.answers_output op c).2
    have hrest := ih (hread.trans hw) hoctets
    rwa [hstale] at hrest

lemma Holds.outputs {ops : List OutputOp} (h : Holds Gap s c)
    (hmem : Unfailing (CdrMemoryStream.run env (ops.map .output) s).1) :
    Holds Gap (CdrMemoryStream.run env (ops.map .output) s).2 (c.outputs ops) := by
  induction ops generalizing s c with
  | nil => exact h
  | cons op ops ih =>
    obtain ⟨-, hs⟩ := (h.perform env (.output op) (by simp)).resolve_right
      fun hfailed => hmem.head hfailed.1
    exact ih hs hmem.tail

lemma filled_eq {w : List (Option UInt8)} {l : List UInt8} (h : Forall₂ (Fills Gap) w l)
    {stale : ℕ → UInt8} (hstale : ∀ i x, l[i]? = some x → Gap x → stale i = x) :
    filled stale w = l := by
  induction h generalizing stale with
  | nil => rfl
  | @cons o x w l hx h ih =>
    have htail : filled (fun i => stale (i + 1)) w = l := ih fun i y hy => hstale (i + 1) y hy
    have hhead : o.getD (stale 0) = x := by
      cases o with
      | none => exact hstale 0 x rfl hx
      | some y => exact hx.symm
    rw [filled, mapIdx_cons, hhead, ← htail]
    rfl

lemma readonly_outputs (ops : List OutputOp) (c : Contents) :
    (c.outputs ops).readonly = c.readonly := by
  induction ops generalizing c with
  | nil => rfl
  | cons op ops ih => exact (ih _).trans (Contents.answers_output op c).2

/-- The buffer of a memory stream holds the octets of the streams of `Cdr.Stream`: there is a
content of the memory passed over with which both have the same octets, and if the memory is
cleared it is zero. -/
theorem memory_stream_refines_cdrOut {inlineBuffer : Block UInt8}
    (hlen : inlineBuffer.cells.length = 32) {n : ℕ} {clearMemory : Bool} {s : CdrMemoryStream}
    (h : new env inlineBuffer n clearMemory = .ok () s) {ops : List OutputOp}
    (hmem : Unfailing (run env (ops.map .output) s).1) :
    ∃ stale, (run env (ops.map .output) s).2.octets =
      (ops.foldl OutputOp.apply ⟨[], stale⟩).octets ∧
      (clearMemory = true → stale = fun _ => 0) := by
  have hw : (Contents.empty.outputs ops).readonly = false := readonly_outputs ops .empty
  cases clearMemory with
  | false =>
    have hs : Holds (fun _ => True) s .empty := holds_new hlen (.inl fun _ => trivial) h
    have hoctets := (hs.outputs hmem).octets_eq hw
    refine ⟨fun i => (run env (ops.map .output) s).2.octets.getD i 0, ?_,
      fun hfalse => by cases hfalse⟩
    rw [outputs_filled (c := .empty) rfl rfl, filled_eq hoctets]
    intro i x hx _
    simp [getD_eq_getElem?_getD, hx]
  | true =>
    have hzero : IsZero 0 := rfl
    have hs : Holds IsZero s .empty := holds_new hlen (.inr ⟨rfl, hzero⟩) h
    have hoctets := (hs.outputs hmem).octets_eq hw
    refine ⟨fun _ => 0, ?_, fun _ => rfl⟩
    rw [outputs_filled (c := .empty) rfl rfl, filled_eq hoctets]
    exact fun i x _ hx => Eq.symm hx

/-- What is marshalled for a grown buffer, padding included. -/
def sampleOutputs : List OutputOp :=
  [.marshal .octet [1] rfl, .alignOutput .align8, .putOctetArray (List.replicate 40 7) .align1,
    .marshal .long [1, 0, 0, 0] rfl]

theorem memory_stream_refines_cdrOut_grown :
    ∃ stale, (run oddAllocator (sampleOutputs.map .output)
      (ofInline oddInlineBuffer false)).2.octets =
        (sampleOutputs.foldl OutputOp.apply ⟨[], stale⟩).octets ∧
      (false = true → stale = fun _ => 0) :=
  memory_stream_refines_cdrOut (by decide) new_odd (by decide)

/-! ### Where an encapsulation lies -/

/-- An operation that reads does not depend on whether the buffer is external. -/
lemma Contents.perform_of_reads {op : StreamOp} (hop : op.Reads) {w : List (Option UInt8)}
    (hknown : none ∉ w) (n : ℕ) :
    ∃ a m, a.Known ∧ ∀ readonly, Contents.perform op ⟨w, n, readonly⟩ = (a, ⟨w, m, readonly⟩) := by
  have htake (align : Alignment) (size : ℕ) : ∃ a m, a.Known ∧
      ∀ readonly, Contents.take align size ⟨w, n, readonly⟩ = (a, ⟨w, m, readonly⟩) := by
    by_cases hle : alignTo n align.size + size ≤ w.length
    · refine ⟨.octets ((w.drop (alignTo n align.size)).take size), alignTo n align.size + size, ?_,
        fun readonly => if_pos hle⟩
      exact fun hmem => hknown (mem_of_mem_drop (mem_of_mem_take hmem))
    · exact ⟨.raised .passEndOfMessage, n, trivial, fun readonly => if_neg hle⟩
  have hpass (align : Alignment) (size : ℕ) : ∃ a m, a.Known ∧
      ∀ readonly, Contents.pass align size ⟨w, n, readonly⟩ = (a, ⟨w, m, readonly⟩) := by
    by_cases hle : alignTo n align.size + size ≤ w.length
    · exact ⟨.done, alignTo n align.size + size, trivial, fun readonly => if_pos hle⟩
    · exact ⟨.raised .passEndOfMessage, n, trivial, fun readonly => if_neg hle⟩
  cases op with
  | output op => exact hop.elim
  | unmarshal type => exact htake _ _
  | getOctetArray size align => exact htake _ _
  | alignInput align => exact hpass _ _
  | skipInput size => exact hpass _ _
  | checkInputOverrun itemSize nItems align =>
    exact ⟨.fits (alignTo n align.size + itemSize * nItems % 2 ^ 32 ≤ w.length), n, trivial,
      fun readonly => rfl⟩
  | rewindInputPtr => exact ⟨.done, 0, trivial, fun readonly => rfl⟩
  | rewindPtrs => exact hop.elim

lemma run_eq_of_reads {env' : Allocator} {s s' : CdrMemoryStream} {ops : List StreamOp}
    (hops : ∀ op ∈ ops, op.Reads) {w : List (Option UInt8)} (hknown : none ∉ w) {n : ℕ}
    {readonly readonly' : Bool} (h : Holds Gap s ⟨w, n, readonly⟩)
    (h' : Holds Gap s' ⟨w, n, readonly'⟩) : (run env ops s).1 = (run env' ops s').1 := by
  induction ops generalizing s s' n with
  | nil => rfl
  | cons op ops ih =>
    have hop := hops op (mem_cons_self ..)
    obtain ⟨a, m, ha, hperform⟩ := Contents.perform_of_reads hop hknown n
    have hs := h.perform_reads env hop
    have hs' := h'.perform_reads env' hop
    rw [hperform] at hs hs'
    rw [run, run]
    dsimp only
    rw [hs.1.unique (.inr ha) hs'.1,
      ih (fun op hmem => hops op (mem_cons_of_mem _ hmem)) hs.2 hs'.2]

/-- Data are read alike wherever they lie in memory, whether they have to be copied to be aligned or
not. -/
theorem encapsulations_read_alike {env env' : Allocator} {b b' : Block UInt8}
    (hb : b.cells.length = 32) (hb' : b'.cells.length = 32) {d d' : Block UInt8}
    (hcells : d.cells = d'.cells) {s s' : CdrMemoryStream} (h : ofEncapsulation env b d = .ok () s)
    (h' : ofEncapsulation env' b' d' = .ok () s') {ops : List StreamOp}
    (hops : ∀ op ∈ ops, op.Reads) :
    (run env ops s).1 = (run env' ops s').1 := by
  have hall : ∀ x : UInt8, (fun _ => True) x := fun _ => trivial
  obtain ⟨readonly, hs⟩ := holds_ofEncapsulation hb hall h
  obtain ⟨readonly', hs'⟩ := holds_ofEncapsulation hb' hall h'
  rw [← hcells] at hs'
  exact run_eq_of_reads hops (by simp) hs hs'

/-- An octet, a number and three octets. -/
def sampleData : List UInt8 := [1, 0, 0, 0, 5, 0, 0, 0, 6, 7, 8]

def readingOps : List StreamOp :=
  [.unmarshal .octet, .unmarshal .long, .getOctetArray 3 .align1, .unmarshal .octet]

/-- A stream that copied the data. -/
def copiedStream : CdrMemoryStream :=
  { ofInline evenInlineBuffer false with
    buffer := ⟨16, sampleData ++ List.replicate 21 0xee⟩
    markers := ⟨16, 16, 48, 27⟩ }

lemma ofEncapsulation_aligned :
    ofEncapsulation oddAllocator oddInlineBuffer ⟨64, sampleData⟩ =
      .ok () (ofExternal ⟨64, sampleData⟩) := rfl

lemma ofEncapsulation_copied :
    ofEncapsulation oddAllocator evenInlineBuffer ⟨69, sampleData⟩ = .ok () copiedStream := rfl

theorem encapsulations_read_alike_copied :
    (run oddAllocator readingOps (ofExternal ⟨64, sampleData⟩)).1 =
      (run oddAllocator readingOps copiedStream).1 :=
  have hodd : oddInlineBuffer.cells.length = 32 := by decide
  have heven : evenInlineBuffer.cells.length = 32 := by decide
  have hcells : (Block.mk 64 sampleData).cells = (Block.mk 69 sampleData).cells := rfl
  encapsulations_read_alike hodd heven hcells ofEncapsulation_aligned ofEncapsulation_copied
    (by simp [readingOps, StreamOp.Reads])

end CdrMemoryStream

/-! ### Counting -/

/-- Where a memory stream is after an operation at `n`. -/
def OutputOp.place (n : ℕ) : OutputOp → ℕ
  | .marshal type _ _ => alignTo n type.align.size + type.size
  | .putOctetArray b align => alignTo n align.size + b.length
  | .putSmallOctetArray b => n + b.length
  | .alignOutput align => alignTo n align.size
  | .copied align b => alignTo n align.size + b.length

/-- Where a counting stream is: `alignOutput` moves the markers, which it does not use. -/
def OutputOp.counted (n : ℕ) : OutputOp → ℕ
  | .alignOutput _ => n
  | op => op.place n

lemma CdrMemoryStream.Contents.length_output {c : Contents} (hw : c.readonly = false)
    (op : OutputOp) : (c.output op).2.written.length = op.place c.written.length := by
  have hput (align : Alignment) (b : List UInt8) :
      (c.write align b).2.written.length = alignTo c.written.length align.size + b.length := by
    rw [write_of_writable hw, length_put]
  cases op with
  | marshal type b hlen => exact (hput _ b).trans (congrArg _ hlen)
  | putOctetArray b align => exact hput align b
  | putSmallOctetArray b =>
    rw [Contents.output]
    split_ifs with hb
    · rw [hb]
      rfl
    · exact (hput .align1 b).trans (congrArg (· + _) (alignTo_one _))
  | alignOutput align =>
    have hle := le_alignTo c.written.length align.size_pos
    rw [Contents.output, hw]
    simp only [Bool.false_eq_true, if_false, Contents.pad, Contents.gap, length_append,
      length_replicate, OutputOp.place]
    omega
  | copied align b => exact hput align b

lemma CdrMemoryStream.Contents.length_outputs {ops : List OutputOp} {c : Contents}
    (hw : c.readonly = false) :
    (c.outputs ops).written.length = ops.foldl OutputOp.place c.written.length := by
  induction ops generalizing c with
  | nil => rfl
  | cons op ops ih =>
    rw [foldl_cons, ← Contents.length_output hw op]
    exact ih ((Contents.answers_output op c).2.trans hw)

namespace CdrCountingStream

lemma write_eq (n : ℕ) (op : OutputOp) :
    streamClass.write op (new n) = .ok () (new (op.counted n)) := by
  cases op with
  | marshal type b hlen =>
    have hzero : alignTo 0 type.align.size = 0 := alignTo_of_dvd type.align.size_pos (dvd_zero _)
    have hpos := type.size_pos
    change (if alignTo 0 type.align.size + type.size ≤ 0 then _ else
      maybeReserveOutputSpace type.align type.size >>= fun ok =>
        if ok then streamClass.marshal 1 type b else pure () : EStateM _ _ _) (new n) = _
    rw [hzero, if_neg (by omega)]
    rfl
  | putOctetArray b align => rfl
  | putSmallOctetArray b =>
    change (if 0 + b.length ≤ 0 then
      store b >>= fun _ => modify (streamClass.setOutbMkr (0 + b.length))
      else putOctetArray b .align1 : EStateM _ _ _) (new n) = _
    by_cases hb : b = []
    · subst hb
      rfl
    · have hpos := length_pos_iff.mpr hb
      rw [if_neg (by omega)]
      change EStateM.Result.ok () (new (alignTo n 1 + b.length)) = _
      rw [alignTo_one]
      rfl
  | alignOutput align =>
    have hzero : alignTo 0 align.size = 0 := alignTo_of_dvd align.size_pos (dvd_zero _)
    change (if 0 < alignTo 0 align.size then _ else
      modify (streamClass.setOutbMkr (alignTo 0 align.size)) : EStateM _ _ _) (new n) = _
    rw [hzero]
    rfl
  | copied align b => rfl

/-- What a program writes is counted. -/
def count : List OutputOp → EStateM StreamExn CdrCountingStream Unit
  | [] => pure ()
  | op :: ops => do
    streamClass.write op
    count ops

lemma count_eq (n : ℕ) (ops : List OutputOp) :
    count ops (new n) = .ok () (new (ops.foldl OutputOp.counted n)) := by
  induction ops generalizing n with
  | nil => rfl
  | cons op ops ih => exact (bind_of_ok (write_eq n op)).trans (ih _)

end CdrCountingStream

lemma OutputOp.place_mono {m n : ℕ} (h : m ≤ n) (op : OutputOp) : op.place m ≤ op.place n := by
  have hput (align : Alignment) (k : ℕ) : alignTo m align.size + k ≤ alignTo n align.size + k :=
    Nat.add_le_add_right (alignTo_mono align.size_pos h) k
  cases op with
  | marshal type b hlen => exact hput _ _
  | putOctetArray b align => exact hput _ _
  | putSmallOctetArray b => exact Nat.add_le_add_right h _
  | alignOutput align => exact hput align 0
  | copied align b => exact hput _ _

lemma OutputOp.counted_le (n : ℕ) (op : OutputOp) : op.counted n ≤ op.place n := by
  cases op with
  | alignOutput align => exact le_alignTo n align.size_pos
  | _ => exact le_rfl

lemma foldl_counted_le {m n : ℕ} (h : m ≤ n) (ops : List OutputOp) :
    ops.foldl OutputOp.counted m ≤ ops.foldl OutputOp.place n := by
  induction ops generalizing m n with
  | nil => exact h
  | cons op ops ih => exact ih ((op.counted_le m).trans (op.place_mono h))

/-- Whether `alignOutput` is only called where there is nothing to align. -/
def AlignsNothing : ℕ → List OutputOp → Prop
  | _, [] => True
  | n, op :: ops => op.counted n = op.place n ∧ AlignsNothing (op.place n) ops

lemma foldl_counted_eq {n : ℕ} {ops : List OutputOp} (h : AlignsNothing n ops) :
    ops.foldl OutputOp.counted n = ops.foldl OutputOp.place n := by
  induction ops generalizing n with
  | nil => rfl
  | cons op ops ih =>
    rw [foldl_cons, foldl_cons, h.1]
    exact ih h.2

namespace CdrMemoryStream

/-- How many octets a new stream holds after a run. -/
lemma length_octets_run {inlineBuffer : Block UInt8} (hlen : inlineBuffer.cells.length = 32) {n : ℕ}
    {clearMemory : Bool} (h : new env inlineBuffer n clearMemory = .ok () s) {ops : List OutputOp}
    (hmem : Unfailing (run env (ops.map .output) s).1) :
    (run env (ops.map .output) s).2.octets.length = ops.foldl OutputOp.place 0 := by
  have hs : Holds (fun _ => True) s .empty := holds_new hlen (.inl fun _ => trivial) h
  have hoctets := (hs.outputs hmem).octets_eq (readonly_outputs ops .empty)
  rw [← hoctets.length_eq, Contents.length_outputs rfl]
  rfl

lemma Unfailing.of_append {xs ys : List StreamOp} (h : Unfailing (run env (xs ++ ys) s).1) :
    Unfailing (run env xs s).1 := by
  induction xs generalizing s with
  | nil => exact fun x hx => absurd hx not_mem_nil
  | cons op xs ih =>
    intro x hx
    obtain rfl | hx := mem_cons.mp hx
    · exact h _ (mem_cons_self ..)
    · exact ih h.tail x hx

/-- The counting stream finds out how many octets a memory stream will hold, from whatever was
written to it before, unless padding is made by `alignOutput`, which it does not count; it never
finds more. -/
theorem counting_stream_counts {inlineBuffer : Block UInt8} (hlen : inlineBuffer.cells.length = 32)
    {n : ℕ} {clearMemory : Bool} (h : new env inlineBuffer n clearMemory = .ok () s)
    {before ops : List OutputOp}
    (hmem : Unfailing (run env (before.map .output ++ ops.map .output) s).1) :
    ∃ total, CdrCountingStream.count ops (.new (run env (before.map .output) s).2.octets.length) =
        .ok () (.new total) ∧
      total ≤ (run env (before.map .output ++ ops.map .output) s).2.octets.length ∧
      (AlignsNothing (run env (before.map .output) s).2.octets.length ops →
        total = (run env (before.map .output ++ ops.map .output) s).2.octets.length) := by
  have hfirst := length_octets_run hlen h hmem.of_append
  rw [← map_append] at hmem ⊢
  have hall := length_octets_run hlen h hmem
  rw [foldl_append] at hall
  rw [hfirst, hall]
  exact ⟨_, CdrCountingStream.count_eq _ ops, foldl_counted_le le_rfl ops, foldl_counted_eq⟩

theorem counting_stream_counts_grown :
    ∃ total, CdrCountingStream.count sampleOutputs
        (.new (run oddAllocator ([OutputOp.putSmallOctetArray [5]].map .output)
          (ofInline oddInlineBuffer false)).2.octets.length) = .ok () (.new total) ∧
      total ≤ (run oddAllocator
        ([OutputOp.putSmallOctetArray [5]].map .output ++ sampleOutputs.map .output)
        (ofInline oddInlineBuffer false)).2.octets.length ∧
      (AlignsNothing (run oddAllocator ([OutputOp.putSmallOctetArray [5]].map .output)
          (ofInline oddInlineBuffer false)).2.octets.length sampleOutputs →
        total = (run oddAllocator ([OutputOp.putSmallOctetArray [5]].map .output ++
          sampleOutputs.map .output) (ofInline oddInlineBuffer false)).2.octets.length) :=
  counting_stream_counts (by decide) new_odd (by decide)

end CdrMemoryStream

end OmniORB
