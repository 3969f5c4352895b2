import OmniORB.Cdr.MemoryStream

/-!
# What a memory stream holds

Seen from outside a memory stream is a list of octets with a place to read from: octets that
alignment passed over are unknown, everything else is what was written. `Follows` says that the
answers of a run are those of such a list, whatever the allocator returns and however often the
buffer grows.
-/

namespace OmniORB

open Library List

namespace CdrMemoryStream

/-! ### Programs -/

/-- What a program does with a stream. -/
inductive StreamOp where
  | output (op : OutputOp)
  | unmarshal (type : Primitive)
  | getOctetArray (size : ℕ) (align : Alignment)
  | alignInput (align : Alignment)
  | skipInput (size : ℕ)
  | checkInputOverrun (itemSize nItems : ℕ) (align : Alignment)
  | rewindInputPtr
  | rewindPtrs

/-- Whether an operation only reads. -/
def StreamOp.Reads : StreamOp → Prop
  | .output _ => False
  | .rewindPtrs => False
  | _ => True

/-- What comes back from it. -/
inductive Answer (α : Type) where
  | done
  | octets (b : List α)
  | fits (b : Bool)
  | raised (e : StreamExn)

def operate (env : Allocator) : StreamOp → EStateM StreamExn CdrMemoryStream (Answer UInt8)
  | .output op => do
    (streamClass env).write op
    pure .done
  | .unmarshal type => do
    let b ← (streamClass env).unmarshal 2 type
    pure (.octets b)
  | .getOctetArray size align => do
    let b ← getOctetArray size align
    pure (.octets b)
  | .alignInput align => do
    (streamClass env).alignInput 2 align
    pure .done
  | .skipInput size => do
    skipInput size
    pure .done
  | .checkInputOverrun itemSize nItems align => do
    let b ← checkInputOverrun itemSize nItems align
    pure (.fits b)
  | .rewindInputPtr => do
    modify rewindInputPtr
    pure .done
  | .rewindPtrs => do
    modify rewindPtrs
    pure .done

/-- An operation whose exceptions are caught. -/
def perform (env : Allocator) (op : StreamOp) (s : CdrMemoryStream) :
    Answer UInt8 × CdrMemoryStream :=
  match operate env op s with
  | .ok a t => (a, t)
  | .error e t => (.raised e, t)

def run (env : Allocator) :
    List StreamOp → CdrMemoryStream → List (StreamOp × Answer UInt8) × CdrMemoryStream
  | [], s => ([], s)
  | op :: ops, s =>
    let (a, s) := perform env op s
    let (answers, s) := run env ops s
    ((op, a) :: answers, s)

/-! ### Lists of octets -/

/-- What a memory stream stands for: the octets written to it, of which those that alignment passed
over are unknown, and how many of them have been read. -/
structure Contents where
  written : List (Option UInt8)
  read : ℕ
  readonly : Bool

namespace Contents

/-- The next aligned place behind `n` octets. -/
def gap (n : ℕ) (align : Alignment) : List (Option UInt8) :=
  List.replicate (alignTo n align.size - n) none

def pad (align : Alignment) (c : Contents) : Contents :=
  { c with written := c.written ++ gap c.written.length align }

def put (align : Alignment) (b : List UInt8) (c : Contents) : Contents :=
  { c with written := (c.pad align).written ++ b.map some }

def write (align : Alignment) (b : List UInt8) (c : Contents) : Answer (Option UInt8) × Contents :=
  if c.readonly then (.raised .attemptToWriteToReadOnlyBuf, c) else (.done, c.put align b)

/-- Read `n` octets from an aligned place on. -/
def take (align : Alignment) (n : ℕ) (c : Contents) : Answer (Option UInt8) × Contents :=
  let p := alignTo c.read align.size
  if p + n ≤ c.written.length then
    (.octets ((c.written.drop p).take n), { c with read := p + n })
  else (.raised .passEndOfMessage, c)

/-- Pass over `n` octets from an aligned place on. -/
def pass (align : Alignment) (n : ℕ) (c : Contents) : Answer (Option UInt8) × Contents :=
  let p := alignTo c.read align.size
  if p + n ≤ c.written.length then (.done, { c with read := p + n })
  else (.raised .passEndOfMessage, c)

/-- What an operation writes. -/
def output : OutputOp → Contents → Answer (Option UInt8) × Contents
  | .marshal type b _, c => c.write type.align b
  | .putOctetArray b align, c => c.write align b
  | .putSmallOctetArray b, c => if b = [] then (.done, c) else c.write .align1 b
  | .alignOutput align, c => (.done, if c.readonly then c else c.pad align)
  | .copied align b, c => c.write align b

def perform : StreamOp → Contents → Answer (Option UInt8) × Contents
  | .output op, c => c.output op
  | .unmarshal type, c => c.take type.align type.size
  | .getOctetArray size align, c => c.take align size
  | .alignInput align, c => c.pass align 0
  | .skipInput size, c => c.pass .align1 size
  | .checkInputOverrun itemSize nItems align, c =>
    (.fits (alignTo c.read align.size + itemSize * nItems % 2 ^ 32 ≤ c.written.length), c)
  | .rewindInputPtr, c => (.done, { c with read := 0 })
  | .rewindPtrs, c =>
    (.done, if c.readonly then { c with read := 0 } else { c with read := 0, written := [] })

end Contents

/-- An octet for what is known of it; `Gap` says what an unknown octet may be. -/
def Fills (Gap : UInt8 → Prop) : Option UInt8 → UInt8 → Prop
  | none, x => Gap x
  | some y, x => x = y

/-- An answer of a stream for an answer of its contents. -/
def Answer.Fills (Gap : UInt8 → Prop) : Answer (Option UInt8) → Answer UInt8 → Prop
  | .done, .done => True
  | .octets l, .octets b => Forall₂ (CdrMemoryStream.Fills Gap) l b
  | .fits x, .fits y => x = y
  | .raised e, .raised f => e = f
  | _, _ => False

/-- A run of a stream with these contents can give these answers and leave those contents. An
operation for which there is no memory changes nothing. -/
inductive Follows (Gap : UInt8 → Prop) : Contents → List (StreamOp × Answer UInt8) → Contents → Prop
  | nil (c : Contents) : Follows Gap c [] c
  | performed {c c' : Contents} {op : StreamOp} {a : Answer UInt8}
      {answers : List (StreamOp × Answer UInt8)} (h : (c.perform op).1.Fills Gap a)
      (ht : Follows Gap (c.perform op).2 answers c') : Follows Gap c ((op, a) :: answers) c'
  | noMemory {c c' : Contents} {op : StreamOp} {answers : List (StreamOp × Answer UInt8)}
      (ht : Follows Gap c answers c') : Follows Gap c ((op, .raised .badAlloc) :: answers) c'

/-! ### The invariant -/

/-- How a stream holds its contents. -/
structure Holds (Gap : UInt8 → Prop) (s : CdrMemoryStream) (c : Contents) : Prop where
  gaps : (∀ x, Gap x) ∨ (s.clearMemory = true ∧ Gap 0)
  aligned : 8 ∣ s.bufp8
  base_le : s.buffer.base ≤ s.bufp8
  readonly : s.readonlyAndExternalBuffer = c.readonly
  read_le : c.read ≤ c.written.length
  inbMkr : s.markers.inbMkr = s.bufp8 + c.read
  limit : s.bufp8 + c.written.length ≤ s.buffer.limit
  written : Forall₂ (Fills Gap) c.written ((s.buffer.since s.bufp8).take c.written.length)
  writable : c.readonly = false →
    s.markers.outbMkr = s.bufp8 + c.written.length ∧ s.markers.outbEnd = s.buffer.limit ∧
      s.markers.inbMkr ≤ s.markers.inbEnd ∧ s.markers.inbEnd ≤ s.markers.outbMkr ∧
      ∀ x ∈ (s.buffer.since s.bufp8).drop c.written.length, Gap x
  external : c.readonly = true → s.markers.outbMkr = 0 ∧ s.markers.outbEnd = 0 ∧
    s.markers.inbEnd = s.bufp8 + c.written.length ∧ s.bufp8 = s.buffer.base

variable {Gap : UInt8 → Prop} {s : CdrMemoryStream} {c : Contents} {env : Allocator}

lemma load_eq {p n : ℕ} (h : s.buffer.Has p n) :
    load p n s = .ok ((s.buffer.since p).take n) s := by
  have hload := Block.load_of_has h
  simp only [load, bind, EStateM.bind, MonadState.get, getThe, MonadStateOf.get, EStateM.get, hload]
  rfl

lemma store_eq {p : ℕ} {b : List UInt8} {m : Block UInt8} (h : s.buffer.store p b = some m) :
    store p b s = .ok () { s with buffer := m } := by
  simp only [store, bind, EStateM.bind, MonadState.get, getThe, MonadStateOf.get, EStateM.get, h]
  rfl

lemma length_put (align : Alignment) (b : List UInt8) (c : Contents) :
    (c.put align b).written.length = alignTo c.written.length align.size + b.length := by
  have hle := le_alignTo c.written.length align.size_pos
  simp only [Contents.put, Contents.pad, Contents.gap, length_append, length_replicate, length_map]
  omega

lemma forall₂_map_some (b : List UInt8) : Forall₂ (Fills Gap) (b.map some) b := by
  induction b with
  | nil => exact .nil
  | cons x b ih => exact .cons rfl ih

lemma forall₂_replicate_none {n : ℕ} {l : List UInt8} (hlen : l.length = n) (h : ∀ x ∈ l, Gap x) :
    Forall₂ (Fills Gap) (replicate n none) l := by
  subst hlen
  induction l with
  | nil => exact .nil
  | cons x l ih =>
    exact .cons (h x (mem_cons_self ..)) (ih fun y hy => h y (mem_cons_of_mem x hy))

lemma mem_of_mem_drop_of_le {α : Type} {l : List α} {m n : ℕ} {x : α} (h : m ≤ n)
    (hx : x ∈ l.drop n) : x ∈ l.drop m := by
  obtain ⟨k, rfl⟩ := Nat.exists_eq_add_of_le h
  rw [← drop_drop] at hx
  exact mem_of_mem_drop hx

/-- Contents up to the next aligned place. -/
lemma written_padded {w : List (Option UInt8)} {d : List UInt8} {align : Alignment}
    (h : Forall₂ (Fills Gap) w (d.take w.length)) (hlen : alignTo w.length align.size ≤ d.length)
    (htail : ∀ x ∈ d.drop w.length, Gap x) :
    Forall₂ (Fills Gap) (w ++ Contents.gap w.length align)
      (d.take (alignTo w.length align.size)) := by
  obtain ⟨k, hk⟩ := Nat.exists_eq_add_of_le (le_alignTo w.length align.size_pos)
  rw [Contents.gap, hk, Nat.add_sub_cancel_left, take_add]
  apply rel_append h
  apply forall₂_replicate_none
  · rw [length_take, length_drop]
    omega
  · exact fun x hx => htail x (mem_of_mem_take hx)

lemma size_dvd (align : Alignment) : align.size ∣ 8 := by cases align <;> decide

namespace Holds

/-- Alignment of an address is alignment of the place in the buffer. -/
lemma alignTo_add (h : Holds Gap s c) (n : ℕ) (align : Alignment) :
    alignTo (s.bufp8 + n) align.size = s.bufp8 + alignTo n align.size := by
  rw [Nat.add_comm, alignTo_add_of_dvd n align.size_pos ((size_dvd align).trans h.aligned),
    Nat.add_comm]

lemma length_since (h : Holds Gap s c) :
    (s.buffer.since s.bufp8).length = s.buffer.limit - s.bufp8 := by
  rw [Block.length_since, max_eq_right h.base_le]

/-- The buffer with octets from the next aligned place on. -/
lemma filled (h : Holds Gap s c) (hw : c.readonly = false) {align : Alignment} {b : List UInt8}
    {m : Block UInt8}
    (hroom : s.bufp8 + alignTo c.written.length align.size + b.length ≤ s.buffer.limit)
    (hbase : m.base = s.buffer.base) (hlimit : m.limit = s.buffer.limit)
    (hsince : m.since s.bufp8 =
      (s.buffer.since s.bufp8).take (alignTo c.written.length align.size) ++
      b ++ (s.buffer.since s.bufp8).drop (alignTo c.written.length align.size + b.length)) :
    Holds Gap { s with
      buffer := m
      markers := { s.markers with
        outbMkr := s.bufp8 + alignTo c.written.length align.size + b.length } }
          (c.put align b) := by
  obtain ⟨hmkr, hend, hin, hin', htail⟩ := h.writable hw
  have hle := le_alignTo c.written.length align.size_pos
  have hlen := h.length_since
  have hread := h.read_le
  have hput := length_put align b c
  have hfront : ((s.buffer.since s.bufp8).take (alignTo c.written.length align.size) ++ b).length =
      alignTo c.written.length align.size + b.length := by
    rw [length_append, length_take]
    omega
  exact {
    gaps := h.gaps
    aligned := h.aligned
    base_le := hbase ▸ h.base_le
    readonly := h.readonly
    read_le := by
      change c.read ≤ _
      omega
    inbMkr := h.inbMkr
    limit := by
      rw [hput]
      change s.bufp8 + _ ≤ m.limit
      omega
    written := by
      change Forall₂ _ _ ((m.since s.bufp8).take _)
      rw [hput, hsince, take_left' hfront]
      exact rel_append (written_padded h.written (by omega) htail) (forall₂_map_some b)
    writable := fun _ => by
      refine ⟨?_, hend.trans hlimit.symm, hin, ?_, ?_⟩
      · rw [hput]
        exact Nat.add_assoc _ _ _
      · change s.markers.inbEnd ≤ s.bufp8 + _ + _
        omega
      · change ∀ x ∈ (m.since s.bufp8).drop _, Gap x
        rw [hput, hsince, drop_left' hfront]
        exact fun x hx => htail x (mem_of_mem_drop_of_le (by omega) hx)
    external := fun hr => absurd (hw.symm.trans hr) Bool.false_ne_true }

/-- Octets written from the next aligned place on. -/
lemma stored (h : Holds Gap s c) (hw : c.readonly = false) {align : Alignment} {b : List UInt8}
    (hroom : s.bufp8 + alignTo c.written.length align.size + b.length ≤ s.buffer.limit) :
    ∃ m, s.buffer.store (s.bufp8 + alignTo c.written.length align.size) b = some m ∧
      Holds Gap { s with
        buffer := m
        markers := { s.markers with
          outbMkr := s.bufp8 + alignTo c.written.length align.size + b.length } }
            (c.put align b) := by
  obtain ⟨m, hstore, hbase, hlimit, hsince⟩ := Block.store_since h.base_le hroom
  exact ⟨m, hstore, h.filled hw hroom hbase hlimit hsince⟩

/-- Octets that are passed over become unknown ones of the contents. -/
lemma padded (h : Holds Gap s c) (hw : c.readonly = false) {align : Alignment}
    (hroom : s.bufp8 + alignTo c.written.length align.size ≤ s.buffer.limit) :
    Holds Gap { s with
      markers := { s.markers with outbMkr := s.bufp8 + alignTo c.written.length align.size } }
      (c.pad align) := by
  have hput : c.put align [] = c.pad align := by
    rw [Contents.put, map_nil, append_nil]
    rfl
  rw [← hput]
  exact h.filled (b := []) hw hroom rfl rfl
    (by rw [append_nil, length_nil, Nat.add_zero, take_append_drop])

/-- The memory of a new buffer may be unknown octets. -/
lemma gap_of_mem_cleared (h : Holds Gap s c) {m : Block UInt8} {p : ℕ} {x : UInt8}
    (hx : x ∈ (cleared s.clearMemory m).since p) : Gap x := by
  cases h.gaps with
  | inl hall => exact hall x
  | inr hzero =>
    rw [hzero.1] at hx
    have hmem := mem_of_mem_drop hx
    rw [eq_of_mem_replicate hmem]
    exact hzero.2

/-- A new buffer holds what the old one held. -/
lemma expand (h : Holds Gap s c) (hw : c.readonly = false) (env : Allocator) (required : ℕ) :
    Does s (CdrMemoryStream.expand env required)
      (fun _ t => Holds Gap t c ∧ t.bufp8 + c.written.length + required ≤ t.buffer.limit ∧
        t.clearMemory = s.clearMemory)
      (fun e t => e = .badAlloc ∧ Holds Gap t c) := by
  obtain ⟨hmkr, hend, hin, hin', htail⟩ := h.writable hw
  have hread := h.read_le
  have hinb := h.inbMkr
  have hsize : s.markers.outbMkr - s.bufp8 = c.written.length := by omega
  have hnew : c.written.length + required + 8 ≤ newSize c.written.length required := by
    simp only [newSize]
    split_ifs <;> omega
  apply Agree.of_get
  rw [hsize]
  cases halloc : env.alloc s.allocations (newSize c.written.length required) with
  | none =>
    simp only [halloc]
    apply Agree.of_set
    refine Agree.of_throw ⟨rfl, ?_⟩
    exact ⟨h.gaps, h.aligned, h.base_le, h.readonly, h.read_le, h.inbMkr, h.limit, h.written,
      h.writable, h.external⟩
  | some m =>
    have hcells := env.length_cells _ _ _ halloc
    have hbase : (cleared s.clearMemory m).base = m.base := by
      unfold cleared
      split_ifs <;> rfl
    have hlimit : (cleared s.clearMemory m).limit = m.base + newSize c.written.length required := by
      rw [Block.limit, hbase]
      unfold cleared
      split_ifs <;> simp [hcells]
    have halign := alignTo_lt m.base (a := 8) (by decide)
    have hle := le_alignTo m.base (a := 8) (by decide)
    have hhas : s.buffer.Has s.bufp8 c.written.length := Block.has_of_le h.base_le h.limit
    have hdata := h.written.length_eq
    obtain ⟨n, hstore, hnbase, hnlimit, hnsince⟩ := (cleared s.clearMemory m).store_since
      (p := ensureAlign8 m.base) (k := 0) (b := (s.buffer.since s.bufp8).take c.written.length)
      (by rw [hbase]; exact hle)
      (by rw [hlimit, ← hdata]; change alignTo m.base 8 + _ + _ ≤ _; omega)
    rw [take_zero, nil_append, zero_add, ← hdata] at hnsince
    simp only [halloc]
    apply Agree.of_ok (load_eq hhas)
    rw [Nat.add_zero] at hstore
    simp only [hbase, hstore]
    have hlen : (n.since (ensureAlign8 m.base)).take c.written.length =
        (s.buffer.since s.bufp8).take c.written.length := by
      rw [hnsince, take_left' hdata.symm]
    refine ⟨rfl, ?_, ?_, rfl⟩
    · exact {
        gaps := h.gaps
        aligned := dvd_alignTo _ _
        base_le := by
          rw [hnbase, hbase]
          exact hle
        readonly := h.readonly
        read_le := h.read_le
        inbMkr := by
          change ensureAlign8 m.base + (s.markers.inbMkr - s.bufp8) = ensureAlign8 m.base + _
          omega
        limit := by
          rw [hnlimit, hlimit]
          change alignTo m.base 8 + _ ≤ _
          omega
        written := by
          rw [hlen]
          exact h.written
        writable := fun _ => by
          refine ⟨rfl, ?_, ?_, ?_, ?_⟩
          · rw [hnlimit, hlimit, hnbase, hbase]
          · dsimp only
            omega
          · dsimp only
            omega
          · intro x hx
            rw [hnsince, drop_left' hdata.symm] at hx
            exact h.gap_of_mem_cleared (mem_of_mem_drop hx)
        external := fun hr => absurd (hw.symm.trans hr) Bool.false_ne_true }
    · rw [hnlimit, hlimit]
      change alignTo m.base 8 + _ + _ ≤ _
      omega

lemma reserveOutputSpace (h : Holds Gap s c) (hw : c.readonly = false) (env : Allocator)
    (align : Alignment) (required : ℕ) :
    Does s (CdrMemoryStream.reserveOutputSpace env align required)
      (fun ok t => ok = true ∧ Holds Gap t c ∧
        t.bufp8 + alignTo c.written.length align.size + required ≤ t.buffer.limit ∧
        t.clearMemory = s.clearMemory)
      (fun e t => e = .badAlloc ∧ Holds Gap t c) := by
  obtain ⟨hmkr, hend, hin, hin', htail⟩ := h.writable hw
  have hle := le_alignTo c.written.length align.size_pos
  have hpad := h.alignTo_add c.written.length align
  apply Agree.of_get
  rw [if_neg (by rw [h.readonly, hw]; exact Bool.false_ne_true)]
  apply Agree.of_ite
  · intro hroom
    refine Agree.of_pure ⟨rfl, h, ?_, rfl⟩
    rw [hmkr, hpad] at hroom
    omega
  · intro hroom
    apply Agree.bind (h.expand hw env _)
    rintro - t ⟨ht, hlimit, hclear⟩
    refine Agree.of_pure ⟨rfl, ht, ?_, hclear⟩
    rw [hmkr, hpad] at hlimit
    omega

/-- There is no room in an external buffer. -/
lemma reserveOutputSpace_external (h : Holds Gap s c) (hr : c.readonly = true) (env : Allocator)
    (align : Alignment) (required : ℕ) :
    CdrMemoryStream.reserveOutputSpace env align required s =
      .error .attemptToWriteToReadOnlyBuf s := by
  change (if s.readonlyAndExternalBuffer then throw .attemptToWriteToReadOnlyBuf else _ :
    EStateM StreamExn CdrMemoryStream Bool) s = _
  rw [if_pos (h.readonly.trans hr)]
  rfl

lemma putOctetArray (h : Holds Gap s c) (hw : c.readonly = false) (env : Allocator)
    (b : List UInt8) (align : Alignment) :
    Does s (CdrMemoryStream.putOctetArray env b align)
      (fun _ t => Holds Gap t (c.put align b)) (fun e t => e = .badAlloc ∧ Holds Gap t c) := by
  apply Agree.bind (h.reserveOutputSpace hw env align b.length)
  rintro ok t ⟨-, ht, hroom, -⟩
  obtain ⟨m, hstore, hput⟩ := ht.stored hw hroom
  obtain ⟨hmkr, -⟩ := ht.writable hw
  apply Agree.of_get
  rw [hmkr, ht.alignTo_add]
  apply Agree.of_ok (store_eq hstore)
  exact Agree.modified hput

lemma marshal (h : Holds Gap s c) (hw : c.readonly = false) (env : Allocator) (type : Primitive)
    {b : List UInt8} (hlen : b.length = type.size) :
    Does s ((streamClass env).marshal 2 type b)
      (fun _ t => Holds Gap t (c.put type.align b)) (fun e t => e = .badAlloc ∧ Holds Gap t c) := by
  have hfast (fuel : ℕ) {t : CdrMemoryStream} (ht : Holds Gap t c)
      (hroom : t.bufp8 + alignTo c.written.length type.align.size + type.size ≤ t.buffer.limit) :
      Does t ((streamClass env).marshal (fuel + 1) type b)
        (fun _ t => Holds Gap t (c.put type.align b))
        (fun e t => e = .badAlloc ∧ Holds Gap t c) := by
    rw [← hlen] at hroom
    obtain ⟨m, hstore, hput⟩ := ht.stored hw hroom
    obtain ⟨hmkr, hend, -⟩ := ht.writable hw
    apply Agree.of_get
    change Does t (if alignTo t.markers.outbMkr _ + _ ≤ t.markers.outbEnd then
      modify ((streamClass env).setOutbMkr (alignTo t.markers.outbMkr type.align.size + type.size))
        >>=
        fun _ => store (alignTo t.markers.outbMkr type.align.size) b else _) _ _
    rw [hmkr, hend, ht.alignTo_add, ← hlen, if_pos hroom]
    exact Agree.of_modify (Agree.ends (store_eq hstore) hput)
  obtain ⟨hmkr, hend, -⟩ := h.writable hw
  by_cases hroom : s.bufp8 + alignTo c.written.length type.align.size + type.size ≤ s.buffer.limit
  · exact hfast 1 h hroom
  · apply Agree.of_get
    change Does s (if alignTo s.markers.outbMkr _ + _ ≤ s.markers.outbEnd then _ else
      (CdrMemoryStream.reserveOutputSpace env type.align type.size >>= fun ok =>
        if ok then (streamClass env).marshal 1 type b else pure ())) _ _
    rw [hmkr, hend, h.alignTo_add, if_neg hroom]
    apply Agree.bind (h.reserveOutputSpace hw env type.align type.size)
    rintro ok t ⟨rfl, ht, hroom, -⟩
    exact hfast 0 ht hroom

lemma putSmallOctetArray (h : Holds Gap s c) (hw : c.readonly = false) (env : Allocator)
    (b : List UInt8) :
    Does s ((streamClass env).putSmallOctetArray b)
      (fun _ t => Holds Gap t (c.put .align1 b)) (fun e t => e = .badAlloc ∧ Holds Gap t c) := by
  obtain ⟨hmkr, hend, -⟩ := h.writable hw
  have hone : alignTo c.written.length Alignment.align1.size = c.written.length := alignTo_one _
  apply Agree.of_get
  change Does s (if s.markers.outbMkr + _ ≤ s.markers.outbEnd then
    store s.markers.outbMkr b >>= fun _ =>
      modify ((streamClass env).setOutbMkr (s.markers.outbMkr + b.length))
    else CdrMemoryStream.putOctetArray env b .align1) _ _
  rw [hmkr, hend]
  apply Agree.of_ite
  · intro hroom
    have hplace : s.bufp8 + alignTo c.written.length Alignment.align1.size + b.length ≤
        s.buffer.limit := by
      rw [hone]
      exact hroom
    obtain ⟨m, hstore, hput⟩ := h.stored hw hplace
    rw [hone] at hstore hput
    exact Agree.of_ok (store_eq hstore) (Agree.modified hput)
  · intro hroom
    exact h.putOctetArray hw env b .align1

lemma copied (h : Holds Gap s c) (hw : c.readonly = false) (env : Allocator) (align : Alignment)
    (b : List UInt8) :
    Does s ((streamClass env).copied align b)
      (fun _ t => Holds Gap t (c.put align b)) (fun e t => e = .badAlloc ∧ Holds Gap t c) := by
  apply Agree.bind (h.reserveOutputSpace hw env align b.length)
  rintro ok t ⟨rfl, ht, hroom, -⟩
  obtain ⟨m, hstore, hput⟩ := ht.stored hw hroom
  obtain ⟨hmkr, -⟩ := ht.writable hw
  apply Agree.of_get
  change Does t (store (alignTo t.markers.outbMkr _) b >>= fun _ =>
    modify ((streamClass env).setOutbMkr (alignTo t.markers.outbMkr align.size + b.length))) _ _
  rw [hmkr, ht.alignTo_add]
  exact Agree.of_ok (store_eq hstore) (Agree.modified hput)

lemma alignOutput (h : Holds Gap s c) (hw : c.readonly = false) (env : Allocator)
    (align : Alignment) :
    Does s ((streamClass env).alignOutput 2 align)
      (fun _ t => Holds Gap t (c.pad align)) (fun e t => e = .badAlloc ∧ Holds Gap t c) := by
  have hfast (fuel : ℕ) {t : CdrMemoryStream} (ht : Holds Gap t c)
      (hroom : t.bufp8 + alignTo c.written.length align.size ≤ t.buffer.limit) :
      Does t ((streamClass env).alignOutput (fuel + 1) align)
        (fun _ t => Holds Gap t (c.pad align)) (fun e t => e = .badAlloc ∧ Holds Gap t c) := by
    obtain ⟨hmkr, hend, -⟩ := ht.writable hw
    apply Agree.of_get
    change Does t (if t.markers.outbEnd < alignTo t.markers.outbMkr _ then _ else
      modify ((streamClass env).setOutbMkr (alignTo t.markers.outbMkr align.size))) _ _
    rw [hmkr, hend, ht.alignTo_add, if_neg (not_lt.mpr hroom)]
    exact Agree.modified (ht.padded hw hroom)
  obtain ⟨hmkr, hend, -⟩ := h.writable hw
  by_cases hroom : s.bufp8 + alignTo c.written.length align.size ≤ s.buffer.limit
  · exact hfast 1 h hroom
  · apply Agree.of_get
    change Does s (if s.markers.outbEnd < alignTo s.markers.outbMkr _ then
      (CdrMemoryStream.reserveOutputSpace env align 0 >>= fun ok =>
        if ok then (streamClass env).alignOutput 1 align else
          modify ((streamClass env).setOutbMkr (alignTo s.markers.outbMkr align.size))) else _) _ _
    rw [hmkr, hend, h.alignTo_add, if_pos (not_le.mp hroom)]
    apply Agree.bind (h.reserveOutputSpace hw env align 0)
    rintro ok t ⟨rfl, ht, hroom, -⟩
    exact hfast 0 ht hroom

/-! ### Reading -/

lemma updateInbEnd (h : Holds Gap s c) : Holds Gap (CdrMemoryStream.updateInbEnd s) c ∧
    (CdrMemoryStream.updateInbEnd s).markers.inbEnd =
      (CdrMemoryStream.updateInbEnd s).bufp8 + c.written.length := by
  by_cases hr : c.readonly
  · have heq : CdrMemoryStream.updateInbEnd s = s := if_pos (h.readonly.trans hr)
    rw [heq]
    exact ⟨h, (h.external hr).2.2.1⟩
  · have hw : c.readonly = false := Bool.eq_false_iff.mpr hr
    obtain ⟨hmkr, hend, hin, hin', htail⟩ := h.writable hw
    have heq : CdrMemoryStream.updateInbEnd s =
      s.setMarkers { s.markers with inbEnd := s.markers.outbMkr } :=
      if_neg (by rw [h.readonly]; exact hr)
    rw [heq]
    exact ⟨⟨h.gaps, h.aligned, h.base_le, h.readonly, h.read_le, h.inbMkr, h.limit, h.written,
      fun _ => ⟨hmkr, hend, hin.trans hin', le_rfl, htail⟩, fun hr' => absurd hr' hr⟩, hmkr⟩

/-- After `fetchInputData` the octets asked for are there. -/
lemma fetchInputData (h : Holds Gap s c) (align : Alignment) (required : ℕ) :
    Does s (CdrMemoryStream.fetchInputData align required)
      (fun _ t => Holds Gap t c ∧ t.markers.inbEnd = t.bufp8 + c.written.length ∧
        alignTo c.read align.size + required ≤ c.written.length)
      (fun e t => e = .passEndOfMessage ∧ Holds Gap t c ∧
        c.written.length < alignTo c.read align.size + required) := by
  obtain ⟨ht, hend⟩ := h.updateInbEnd
  have hle := le_alignTo c.read align.size_pos
  have hread := h.read_le
  apply Agree.of_modify
  apply Agree.of_get
  generalize CdrMemoryStream.updateInbEnd s = t at ht hend
  dsimp only
  rw [hend, ht.inbMkr, ht.alignTo_add]
  apply Agree.of_ite
  · exact fun hlt => Agree.of_throw ⟨rfl, ht, by omega⟩
  · exact fun hge => Agree.of_pure ⟨ht, hend, by omega⟩

lemma inbEnd_le (h : Holds Gap s c) : s.markers.inbEnd ≤ s.bufp8 + c.written.length := by
  by_cases hr : c.readonly
  · exact (h.external hr).2.2.1.le
  · obtain ⟨hmkr, -, -, hin, -⟩ := h.writable (Bool.eq_false_iff.mpr hr)
    exact hin.trans hmkr.le

/-- Reading up to a place. -/
lemma advanced (h : Holds Gap s c) {n : ℕ} (hle : s.bufp8 + n ≤ s.markers.inbEnd) :
    Holds Gap (s.setMarkers { s.markers with inbMkr := s.bufp8 + n }) { c with read := n } := by
  have hend := h.inbEnd_le
  refine ⟨h.gaps, h.aligned, h.base_le, h.readonly, ?_, rfl, h.limit, h.written, ?_, h.external⟩
  · dsimp only
    omega
  · intro hw
    obtain ⟨hmkr, hout, -, hin, htail⟩ := h.writable hw
    exact ⟨hmkr, hout, hle, hin, htail⟩

/-- What is loaded are octets of the contents. -/
lemma loaded (h : Holds Gap s c) {p n : ℕ} (hle : p + n ≤ c.written.length) {t : CdrMemoryStream}
    (ht : t.buffer = s.buffer) :
    ∃ b, load (s.bufp8 + p) n t = .ok b t ∧ Forall₂ (Fills Gap) ((c.written.drop p).take n) b := by
  have hlimit := h.limit
  have hbase := h.base_le
  have hhas : t.buffer.Has (s.bufp8 + p) n := by
    rw [ht]
    exact Block.has_of_le (by omega) (by omega)
  refine ⟨_, load_eq hhas, ?_⟩
  have hread := forall₂_take n (forall₂_drop p h.written)
  rw [ht, Block.since_add hbase]
  rwa [drop_take, take_take, min_eq_left (by omega)] at hread

lemma getOctetArray (h : Holds Gap s c) (size : ℕ) (align : Alignment) :
    Does s (CdrMemoryStream.getOctetArray size align)
      (fun b t => (c.take align size).1.Fills Gap (.octets b) ∧ Holds Gap t (c.take align size).2)
      (fun e t => (c.take align size).1.Fills Gap (.raised e) ∧
        Holds Gap t (c.take align size).2) := by
  apply Agree.bind
  · refine (h.fetchInputData align size).mono (fun _ _ hQ => hQ) ?_
    rintro e t ⟨rfl, ht, hlt⟩
    rw [Contents.take, if_neg (not_le.mpr hlt)]
    exact ⟨rfl, ht⟩
  · rintro - t ⟨ht, hend, hle⟩
    obtain ⟨b, hload, hfills⟩ := ht.loaded hle (t := t) rfl
    apply Agree.of_get
    rw [ht.inbMkr, ht.alignTo_add]
    apply Agree.of_ok hload
    apply Agree.of_set
    rw [Contents.take, if_pos hle]
    refine Agree.of_pure ⟨hfills, ?_⟩
    rw [Nat.add_assoc]
    exact ht.advanced (by omega)

lemma unmarshal (h : Holds Gap s c) (env : Allocator) (type : Primitive) :
    Does s ((streamClass env).unmarshal 2 type)
      (fun b t => (c.take type.align type.size).1.Fills Gap (.octets b) ∧
        Holds Gap t (c.take type.align type.size).2)
      (fun e t => (c.take type.align type.size).1.Fills Gap (.raised e) ∧
        Holds Gap t (c.take type.align type.size).2) := by
  have hfast (fuel : ℕ) {t : CdrMemoryStream} (ht : Holds Gap t c)
      (hle : t.bufp8 + (alignTo c.read type.align.size + type.size) ≤ t.markers.inbEnd) :
      Does t ((streamClass env).unmarshal (fuel + 1) type)
        (fun b t => (c.take type.align type.size).1.Fills Gap (.octets b) ∧
          Holds Gap t (c.take type.align type.size).2)
        (fun e t => (c.take type.align type.size).1.Fills Gap (.raised e) ∧
          Holds Gap t (c.take type.align type.size).2) := by
    have hread : alignTo c.read type.align.size + type.size ≤ c.written.length := by
      have := ht.inbEnd_le
      omega
    have hmkr := ht.inbMkr
    have hpad := ht.alignTo_add c.read type.align
    apply Agree.of_get
    change Does t (if alignTo t.markers.inbMkr _ + _ ≤ t.markers.inbEnd then
      modify ((streamClass env).setInbMkr (alignTo t.markers.inbMkr type.align.size + type.size))
        >>=
        fun _ => load (alignTo t.markers.inbMkr type.align.size) type.size else _) _ _
    rw [hmkr, hpad, Nat.add_assoc, if_pos hle]
    apply Agree.of_modify
    obtain ⟨b, hload, hfills⟩ := ht.loaded hread
      (t := (streamClass env).setInbMkr (t.bufp8 + (alignTo c.read type.align.size + type.size)) t)
        rfl
    apply Agree.ends hload
    rw [Contents.take, if_pos hread]
    exact ⟨hfills, ht.advanced hle⟩
  by_cases hle : s.bufp8 + (alignTo c.read type.align.size + type.size) ≤ s.markers.inbEnd
  · exact hfast 1 h hle
  · have hmkr := h.inbMkr
    have hpad := h.alignTo_add c.read type.align
    apply Agree.of_get
    change Does s (if alignTo s.markers.inbMkr _ + _ ≤ s.markers.inbEnd then _ else
      (CdrMemoryStream.fetchInputData type.align type.size >>= fun _ =>
        (streamClass env).unmarshal 1 type)) _ _
    rw [hmkr, hpad, Nat.add_assoc, if_neg hle]
    apply Agree.bind
    · refine (h.fetchInputData type.align type.size).mono (fun _ _ hQ => hQ) ?_
      rintro e t ⟨rfl, ht, hlt⟩
      rw [Contents.take, if_neg (not_le.mpr hlt)]
      exact ⟨rfl, ht⟩
    · rintro - t ⟨ht, hend, hread⟩
      exact hfast 0 ht (by omega)

lemma alignInput (h : Holds Gap s c) (env : Allocator) (align : Alignment) :
    Does s ((streamClass env).alignInput 2 align)
      (fun _ t => (c.pass align 0).1.Fills Gap .done ∧ Holds Gap t (c.pass align 0).2)
      (fun e t => (c.pass align 0).1.Fills Gap (.raised e) ∧ Holds Gap t (c.pass align 0).2) := by
  have hfast (fuel : ℕ) {t : CdrMemoryStream} (ht : Holds Gap t c)
      (hle : t.bufp8 + alignTo c.read align.size ≤ t.markers.inbEnd) :
      Does t ((streamClass env).alignInput (fuel + 1) align)
        (fun _ t => (c.pass align 0).1.Fills Gap .done ∧ Holds Gap t (c.pass align 0).2)
        (fun e t => (c.pass align 0).1.Fills Gap (.raised e) ∧ Holds Gap t (c.pass align 0).2) := by
    have hread : alignTo c.read align.size + 0 ≤ c.written.length := by
      have := ht.inbEnd_le
      omega
    apply Agree.of_get
    change Does t (if t.markers.inbEnd < alignTo t.markers.inbMkr _ then _ else
      modify ((streamClass env).setInbMkr (alignTo t.markers.inbMkr align.size))) _ _
    rw [ht.inbMkr, ht.alignTo_add, if_neg (not_lt.mpr hle)]
    apply Agree.modified
    rw [Contents.pass, if_pos hread]
    exact ⟨trivial, ht.advanced hle⟩
  by_cases hle : s.bufp8 + alignTo c.read align.size ≤ s.markers.inbEnd
  · exact hfast 1 h hle
  · apply Agree.of_get
    change Does s (if s.markers.inbEnd < alignTo s.markers.inbMkr _ then
      (CdrMemoryStream.fetchInputData align 0 >>= fun _ => (streamClass env).alignInput 1 align)
        else _) _ _
    rw [h.inbMkr, h.alignTo_add, if_pos (not_le.mp hle)]
    apply Agree.bind
    · refine (h.fetchInputData align 0).mono (fun _ _ hQ => hQ) ?_
      rintro e t ⟨rfl, ht, hlt⟩
      rw [Contents.pass, if_neg (not_le.mpr hlt)]
      exact ⟨rfl, ht⟩
    · rintro - t ⟨ht, hend, hread⟩
      exact hfast 0 ht (by omega)

lemma skipInput (h : Holds Gap s c) (size : ℕ) :
    Does s (CdrMemoryStream.skipInput size)
      (fun _ t => (c.pass .align1 size).1.Fills Gap .done ∧ Holds Gap t (c.pass .align1 size).2)
      (fun e t => (c.pass .align1 size).1.Fills Gap (.raised e) ∧
        Holds Gap t (c.pass .align1 size).2) := by
  have hone : alignTo c.read Alignment.align1.size = c.read := alignTo_one _
  apply Agree.bind
  · refine (h.fetchInputData .align1 size).mono (fun _ _ hQ => hQ) ?_
    rintro e t ⟨rfl, ht, hlt⟩
    rw [Contents.pass, if_neg (not_le.mpr hlt)]
    exact ⟨rfl, ht⟩
  · rintro - t ⟨ht, hend, hle⟩
    apply Agree.modified
    rw [Contents.pass, if_pos hle, hone, ht.inbMkr, Nat.add_assoc]
    rw [hone] at hle
    exact ⟨trivial, ht.advanced (by omega)⟩

lemma checkInputOverrun (h : Holds Gap s c) (itemSize nItems : ℕ) (align : Alignment) :
    Does s (CdrMemoryStream.checkInputOverrun itemSize nItems align)
      (fun b t =>
        decide (alignTo c.read align.size + itemSize * nItems % 2 ^ 32 ≤ c.written.length) = b ∧
        Holds Gap t c) (fun _ _ => False) := by
  obtain ⟨ht, hend⟩ := h.updateInbEnd
  apply Agree.of_modify
  apply Agree.of_get
  generalize CdrMemoryStream.updateInbEnd s = t at ht hend
  refine Agree.of_pure ⟨?_, ht⟩
  rw [hend, ht.inbMkr, ht.alignTo_add, Nat.add_assoc]
  exact decide_eq_decide.mpr (Nat.add_le_add_iff_left).symm

lemma rewindInputPtr (h : Holds Gap s c) : Holds Gap s.rewindInputPtr { c with read := 0 } := by
  refine ⟨h.gaps, h.aligned, h.base_le, h.readonly, Nat.zero_le _, rfl, h.limit, h.written, ?_, ?_⟩
  · intro hw
    obtain ⟨hmkr, hend, hin, hin', htail⟩ := h.writable hw
    have hinb : s.rewindInputPtr.markers.inbEnd = s.markers.outbMkr :=
      if_neg (by rw [h.readonly, hw]; exact Bool.false_ne_true)
    refine ⟨hmkr, hend, ?_, hinb.le, htail⟩
    rw [hinb, hmkr]
    exact Nat.le_add_right _ _
  · intro hr
    obtain ⟨hmkr, hend, hin, hbase⟩ := h.external hr
    have hinb : s.rewindInputPtr.markers.inbEnd = s.markers.inbEnd := if_pos (h.readonly.trans hr)
    exact ⟨hmkr, hend, hinb.trans hin, hbase⟩

lemma rewindPtrs (h : Holds Gap s c) (hall : ∀ x, Gap x) :
    Holds Gap s.rewindPtrs
      (if c.readonly then { c with read := 0 } else { c with read := 0, written := [] }) := by
  have hlimit := h.limit
  by_cases hr : c.readonly
  · obtain ⟨hmkr, hend, hin, hbase⟩ := h.external hr
    have heq : s.rewindPtrs =
        s.setMarkers { s.markers with outbMkr := 0, outbEnd := 0, inbMkr := s.buffer.base } :=
      if_pos (h.readonly.trans hr)
    rw [if_pos hr, heq]
    exact ⟨h.gaps, h.aligned, h.base_le, h.readonly, Nat.zero_le _, hbase.symm, h.limit, h.written,
      fun hw => absurd (hw.symm.trans hr) Bool.false_ne_true, fun _ => ⟨rfl, rfl, hin, hbase⟩⟩
  · obtain ⟨hmkr, hend, hin, hin', htail⟩ := h.writable (Bool.eq_false_iff.mpr hr)
    have heq : s.rewindPtrs =
        s.setMarkers { s.markers with outbMkr := s.bufp8, inbMkr := s.bufp8, inbEnd := s.bufp8 } :=
      if_neg (by rw [h.readonly]; exact hr)
    rw [if_neg hr, heq]
    exact ⟨h.gaps, h.aligned, h.base_le, h.readonly, le_rfl, rfl,
      le_trans (Nat.le_add_right _ _) hlimit,
      .nil, fun _ => ⟨rfl, hend, le_rfl, le_rfl, fun x _ => hall x⟩, fun hr' => absurd hr' hr⟩

/-! ### Runs -/

/-- What an operation that writes does to the contents. -/
lemma write (h : Holds Gap s c) {m : EStateM StreamExn CdrMemoryStream Unit} {align : Alignment}
    {b : List UInt8}
    (hw : c.readonly = false → Does s m (fun _ t => Holds Gap t (c.put align b))
      (fun e t => e = .badAlloc ∧ Holds Gap t c))
    (hr : c.readonly = true → m s = .error .attemptToWriteToReadOnlyBuf s) :
    Does s (m >>= fun _ => pure .done)
      (fun a t => (c.write align b).1.Fills Gap a ∧ Holds Gap t (c.write align b).2)
      (fun e t => ((c.write align b).1.Fills Gap (.raised e) ∧ Holds Gap t (c.write align b).2) ∨
        (e = .badAlloc ∧ Holds Gap t c)) := by
  rw [Contents.write]
  by_cases hread : c.readonly
  · rw [if_pos hread]
    exact Agree.ends_error (bind_of_error (hr hread)) (.inl ⟨rfl, h⟩)
  · rw [if_neg hread]
    apply Agree.bind ((hw (Bool.eq_false_iff.mpr hread)).mono (fun _ _ hQ => hQ)
      fun _ _ hE => .inr hE)
    exact fun _ t ht => Agree.of_pure ⟨trivial, ht⟩

lemma put_nil (c : Contents) : c.put .align1 [] = c := by
  have hone : alignTo c.written.length Alignment.align1.size = c.written.length := alignTo_one _
  simp [Contents.put, Contents.pad, Contents.gap, hone]

lemma alignTo_zero (align : Alignment) : alignTo 0 align.size = 0 :=
  alignTo_of_dvd align.size_pos (dvd_zero _)

/-- The marker of an external buffer for output is a null pointer. -/
lemma unmoved (h : Holds Gap s c) (hr : c.readonly = true) :
    Holds Gap (s.setMarkers { s.markers with outbMkr := 0 }) c := by
  obtain ⟨hmkr, hend, hin, hbase⟩ := h.external hr
  exact ⟨h.gaps, h.aligned, h.base_le, h.readonly, h.read_le, h.inbMkr, h.limit, h.written,
    fun hw => absurd (hw.symm.trans hr) Bool.false_ne_true, fun _ => ⟨rfl, hend, hin, hbase⟩⟩

lemma output (h : Holds Gap s c) (env : Allocator) (op : OutputOp) :
    Does s ((streamClass env).write op >>= fun _ => pure .done)
      (fun a t => (c.output op).1.Fills Gap a ∧ Holds Gap t (c.output op).2)
      (fun e t => ((c.output op).1.Fills Gap (.raised e) ∧ Holds Gap t (c.output op).2) ∨
        (e = .badAlloc ∧ Holds Gap t c)) := by
  cases op with
  | marshal type b hlen =>
    apply h.write (fun hw => h.marshal hw env type hlen)
    intro hr
    obtain ⟨hmkr, hend, -⟩ := h.external hr
    have hpos := type.size_pos
    change (if alignTo s.markers.outbMkr type.align.size + type.size ≤ s.markers.outbEnd then _ else
      (CdrMemoryStream.reserveOutputSpace env type.align type.size >>= _) : EStateM _ _ _) s = _
    rw [hmkr, hend, alignTo_zero, if_neg (by omega)]
    exact bind_of_error (h.reserveOutputSpace_external hr env _ _)
  | putOctetArray b align =>
    apply h.write (fun hw => h.putOctetArray hw env b align)
    exact fun hr => bind_of_error (h.reserveOutputSpace_external hr env _ _)
  | putSmallOctetArray b =>
    rw [Contents.output]
    by_cases hb : b = []
    · subst hb
      rw [if_pos rfl]
      apply Agree.bind (Q := fun _ t => Holds Gap t c)
      · by_cases hr : c.readonly
        · obtain ⟨hmkr, hend, -⟩ := h.external hr
          apply Agree.of_get
          change Does s (if s.markers.outbMkr + 0 ≤ s.markers.outbEnd then
            store s.markers.outbMkr [] >>= fun _ =>
              modify ((streamClass env).setOutbMkr (s.markers.outbMkr + 0)) else _) _ _
          rw [hmkr, hend, if_pos le_rfl]
          exact Agree.of_ok (store_eq (Block.store_nil s.buffer)) (Agree.modified (h.unmoved hr))
        · have hput := h.putSmallOctetArray (Bool.eq_false_iff.mpr hr) env []
          rw [put_nil] at hput
          exact hput.mono (fun _ _ hQ => hQ) fun _ _ hE => .inr hE
      · exact fun _ t ht => Agree.of_pure ⟨trivial, ht⟩
    · rw [if_neg hb]
      apply h.write (fun hw => h.putSmallOctetArray hw env b)
      intro hr
      obtain ⟨hmkr, hend, -⟩ := h.external hr
      have hpos := length_pos_iff.mpr hb
      change (if s.markers.outbMkr + b.length ≤ s.markers.outbEnd then _ else
        CdrMemoryStream.putOctetArray env b .align1 : EStateM _ _ _) s = _
      rw [hmkr, hend, if_neg (by omega)]
      exact bind_of_error (h.reserveOutputSpace_external hr env _ _)
  | alignOutput align =>
    rw [Contents.output]
    by_cases hr : c.readonly
    · obtain ⟨hmkr, hend, -⟩ := h.external hr
      rw [if_pos hr]
      apply Agree.bind (Q := fun _ t => Holds Gap t c)
      · apply Agree.of_get
        change Does s (if s.markers.outbEnd < alignTo s.markers.outbMkr align.size then _ else
          modify ((streamClass env).setOutbMkr (alignTo s.markers.outbMkr align.size))) _ _
        rw [hmkr, hend, alignTo_zero, if_neg (lt_irrefl 0)]
        exact Agree.modified (h.unmoved hr)
      · exact fun _ t ht => Agree.of_pure ⟨trivial, ht⟩
    · rw [if_neg hr]
      apply Agree.bind ((h.alignOutput (Bool.eq_false_iff.mpr hr) env align).mono (fun _ _ hQ => hQ)
        fun _ _ hE => .inr hE)
      exact fun _ t ht => Agree.of_pure ⟨trivial, ht⟩
  | copied align b =>
    apply h.write (fun hw => h.copied hw env align b)
    exact fun hr => bind_of_error (h.reserveOutputSpace_external hr env _ _)

/-- An operation that reads does to the stream what it does to the contents. -/
lemma reads (h : Holds Gap s c) (env : Allocator) {op : StreamOp} (hop : op.Reads) :
    Does s (CdrMemoryStream.operate env op)
      (fun a t => (c.perform op).1.Fills Gap a ∧ Holds Gap t (c.perform op).2)
      (fun e t => (c.perform op).1.Fills Gap (.raised e) ∧ Holds Gap t (c.perform op).2) := by
  cases op with
  | output op => exact hop.elim
  | unmarshal type =>
    apply Agree.bind (h.unmarshal env type)
    exact fun b t ht => Agree.of_pure ht
  | getOctetArray size align =>
    apply Agree.bind (h.getOctetArray size align)
    exact fun b t ht => Agree.of_pure ht
  | alignInput align =>
    apply Agree.bind (h.alignInput env align)
    exact fun _ t ht => Agree.of_pure ht
  | skipInput size =>
    apply Agree.bind (h.skipInput size)
    exact fun _ t ht => Agree.of_pure ht
  | checkInputOverrun itemSize nItems align =>
    apply Agree.bind ((h.checkInputOverrun itemSize nItems align).mono (fun _ _ hQ => hQ)
      fun _ _ hE => hE.elim)
    exact fun b t ht => Agree.of_pure ht
  | rewindInputPtr =>
    apply Agree.of_modify
    exact Agree.of_pure ⟨trivial, h.rewindInputPtr⟩
  | rewindPtrs => exact hop.elim

/-- Every operation does to the stream what it does to the contents, unless there is no memory. -/
lemma operate (h : Holds Gap s c) (env : Allocator) (op : StreamOp)
    (hop : op = .rewindPtrs → ∀ x, Gap x) :
    Does s (CdrMemoryStream.operate env op)
      (fun a t => (c.perform op).1.Fills Gap a ∧ Holds Gap t (c.perform op).2)
      (fun e t => ((c.perform op).1.Fills Gap (.raised e) ∧ Holds Gap t (c.perform op).2) ∨
        (e = .badAlloc ∧ Holds Gap t c)) := by
  cases op with
  | output op => exact h.output env op
  | rewindPtrs =>
    apply Agree.of_modify
    exact Agree.of_pure ⟨trivial, h.rewindPtrs (hop rfl)⟩
  | _ =>
    refine (h.reads env ?_).mono (fun _ _ hQ => hQ) fun _ _ hE => .inl hE
    exact trivial

lemma perform_reads (h : Holds Gap s c) (env : Allocator) {op : StreamOp} (hop : op.Reads) :
    (c.perform op).1.Fills Gap (CdrMemoryStream.perform env op s).1 ∧
      Holds Gap (CdrMemoryStream.perform env op s).2 (c.perform op).2 := by
  have hmeets := (h.reads env hop).meets
  rw [CdrMemoryStream.perform]
  cases hresult : CdrMemoryStream.operate env op s with
  | ok a t =>
    rw [hresult] at hmeets
    exact hmeets
  | error e t =>
    rw [hresult] at hmeets
    exact hmeets

lemma perform (h : Holds Gap s c) (env : Allocator) (op : StreamOp)
    (hop : op = .rewindPtrs → ∀ x, Gap x) :
    ((c.perform op).1.Fills Gap (CdrMemoryStream.perform env op s).1 ∧
        Holds Gap (CdrMemoryStream.perform env op s).2 (c.perform op).2) ∨
      ((CdrMemoryStream.perform env op s).1 = .raised .badAlloc ∧
        Holds Gap (CdrMemoryStream.perform env op s).2 c) := by
  have hmeets := (h.operate env op hop).meets
  rw [CdrMemoryStream.perform]
  cases hresult : CdrMemoryStream.operate env op s with
  | ok a t =>
    rw [hresult] at hmeets
    exact .inl hmeets
  | error e t =>
    rw [hresult] at hmeets
    exact hmeets.imp_right fun ⟨he, ht⟩ => ⟨congrArg _ he, ht⟩

/-- A run of a stream is a run of its contents. -/
lemma run {ops : List StreamOp} (h : Holds Gap s c) (env : Allocator)
    (hops : .rewindPtrs ∈ ops → ∀ x, Gap x) :
    ∃ c', Follows Gap c (CdrMemoryStream.run env ops s).1 c' ∧
      Holds Gap (CdrMemoryStream.run env ops s).2 c' := by
  induction ops generalizing s c with
  | nil => exact ⟨c, .nil c, h⟩
  | cons op ops ih =>
    have hstep := h.perform env op fun hop => hops (hop ▸ mem_cons_self ..)
    have htail : .rewindPtrs ∈ ops → ∀ x, Gap x := fun hmem => hops (mem_cons_of_mem op hmem)
    cases hstep with
    | inl hdone =>
      obtain ⟨c', hfollows, hholds⟩ := ih hdone.2 htail
      exact ⟨c', .performed hdone.1 hfollows, hholds⟩
    | inr hfailed =>
      obtain ⟨c', hfollows, hholds⟩ := ih hfailed.2 htail
      refine ⟨c', ?_, hholds⟩
      rw [CdrMemoryStream.run]
      dsimp only
      rw [hfailed.1]
      exact .noMemory hfollows

end Holds

end CdrMemoryStream

end OmniORB
