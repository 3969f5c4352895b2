import OmniORB.Giop.Framing
import OmniORB.Ziop.Decompression

/-!
# When decompression is safe

Exactly the messages that lie in their buffer as a whole, whose lengths neither wrap nor exceed the
memory, and which a known compressor decompresses, are read without damage: every exception loses
the buffer with the received message.
-/

namespace OmniORB.Ziop

/-- The exceptions that are CORBA exceptions. -/
def Raised.IsCorba (e : Raised) : Prop := e ≠ .badAlloc

/-- How often a buffer was released or handed on. -/
def disposals (b : BufferName) (log : List Event) : ℕ :=
  log.count (.releases b) + log.count (.handsOn b)

/-- A run that gives a GIOP message or a CORBA exception, computes no length that wraps around,
gives the decompressor no more room than there is, reads no octet that was not received, and
disposes of each buffer once. -/
structure Safe {κ : Type} (r : Run (Buffer × Strand × Compressors κ)) : Prop where
  outcome : (∃ b s compressors, r.result = .ok (b, s, compressors) ∧
    ∃ m : Message, b.data = m.octets ∧ b.size = m.length) ∨ ∃ e, r.result = .error e ∧ e.IsCorba
  computes : ∀ n, .computes n ∈ r.log → 0 ≤ n ∧ n < 2 ^ 32
  reads : ∀ n received, .reads n received ∈ r.log → n ≤ received
  offers : ∀ n room, .offers n room ∈ r.log → n ≤ room
  compressed : disposals .compressed r.log = 1
  decompressed : disposals .decompressed r.log = r.log.count .allocates

/-- The messages that are read safely. -/
structure Fits {κ : Type} (env : Surroundings κ) (compressors : Compressors κ) (z : ZiopBuffer) :
    Prop where
  size : sizeField z.header + 12 < 2 ^ 32
  headers : 24 ≤ z.length
  whole : z.size ≤ z.length
  original : env.start + z.originalLength + 12 < 2 ^ 32
  memory : env.allocates (max env.cfg.bufferSize (z.originalLength + 12)) = true
  decompresses : ∃ compressors' i octets h,
    compressorIndex env compressors z.compressorId = some ⟨compressors', i⟩ ∧
      env.decompress (compressors'.get i).2 (z.body (z.length - 24)) z.originalLength =
        .filled octets h

/-! ### Runs -/

namespace Run

variable {α β : Type} {x : Run α} {f : α → Run β} {P : Event → Prop}

lemma bind_of_ok {a : α} (h : x.result = .ok a) :
    (x >>= f) = ⟨x.log ++ (f a).log, (f a).result⟩ := by
  change Run.bind x f = _
  rw [Run.bind, h]

@[simp]
lemma ok_bind (log : List Event) (a : α) :
    (⟨log, .ok a⟩ : Run α) >>= f = ⟨log ++ (f a).log, (f a).result⟩ := rfl

lemma bind_eq_ok {b : β} (h : (x >>= f).result = .ok b) :
    ∃ a, x.result = .ok a ∧ (f a).result = .ok b ∧ (x >>= f).log = x.log ++ (f a).log := by
  cases hx : x.result with
  | error e =>
    change (Run.bind x f).result = _ at h
    rw [Run.bind, hx] at h
    cases h
  | ok a =>
    rw [bind_of_ok hx] at h ⊢
    exact ⟨a, rfl, h, rfl⟩

/-- All events of the run are such. -/
def Logs (P : Event → Prop) (x : Run α) : Prop := ∀ e ∈ x.log, P e

lemma Logs.bind (hx : x.Logs P) (hf : ∀ a, (f a).Logs P) : (x >>= f).Logs P := by
  change (Run.bind x f).Logs P
  unfold Run.bind
  split
  · exact hx
  · intro e he
    rcases List.mem_append.mp he with he | he
    · exact hx e he
    · exact hf _ e he

lemma Logs.pure (a : α) : (Pure.pure a : Run α).Logs P := fun _ h => by cases h

lemma Logs.raise (e : Raised) : (raise e : Run α).Logs P := fun _ h => by cases h

lemma Logs.tell {e : Event} (h : P e) : (tell e).Logs P :=
  fun _ he => List.mem_singleton.mp he ▸ h

lemma Logs.ulong {n : ℤ} (h : P (.computes n)) : (ulong n).Logs P :=
  fun _ he => List.mem_singleton.mp he ▸ h

end Run

/-- The event has nothing to do with the buffer of the received message. -/
def KeepsCompressed (e : Event) : Prop := e ≠ .releases .compressed ∧ e ≠ .handsOn .compressed

section

variable {κ : Type} {env : Surroundings κ} {s : Strand} {compressors : Compressors κ}
variable {z : ZiopBuffer}

lemma logs_ulong (n : ℤ) : (Run.ulong n).Logs KeepsCompressed := .ulong ⟨by simp, by simp⟩

lemma logs_reads (n received : ℕ) : (Run.tell (.reads n received)).Logs KeepsCompressed :=
  .tell ⟨by simp, by simp⟩

lemma logs_allocate (octets : ℕ) : (allocate env octets).Logs KeepsCompressed := by
  unfold allocate
  split
  · exact .pure _
  · exact .raise _

lemma logs_compressedBody (zDataLen : ℕ) :
    (compressedBody env s z zDataLen).Logs KeepsCompressed := by
  unfold compressedBody
  split
  · refine .bind (logs_ulong _) fun n => .bind ?_ fun _ => .bind (logs_ulong _)
      fun missing => ?_
    · unfold growSource
      split
      · exact .bind (logs_ulong _) fun _ => .bind (logs_allocate _) fun _ => logs_reads _ _
      · exact .pure _
    · split
      · exact .raise _
      · exact .pure _
  · exact .pure _

lemma logs_newTarget (gDataLen : ℕ) : (newTarget env gDataLen).Logs KeepsCompressed :=
  .bind (logs_ulong _) fun _ => .bind (logs_allocate _) fun _ =>
    .bind (.tell ⟨by simp, by simp⟩) fun _ => .bind (logs_ulong _) fun _ => .pure _

lemma logs_decompressInto (capacity : ℕ) (source : List (Option UInt8)) (k : κ) :
    (decompressInto env z capacity source k).Logs KeepsCompressed := by
  refine .bind (logs_reads _ _) fun _ => .bind (.tell ⟨by simp, by simp⟩) fun _ => ?_
  split
  · exact .bind (.tell ⟨by simp, by simp⟩) fun _ => .raise _
  · exact .bind (.tell ⟨by simp, by simp⟩) fun _ => .raise _
  · exact .bind (logs_ulong _) fun _ => .bind (logs_ulong _) fun _ =>
      .bind (.tell ⟨by simp, by simp⟩) fun _ => .pure _

/-- Inside of `decompressBuffer`, nothing happens to the buffer of the received message. -/
lemma logs_decompressBuffer : (decompressBuffer env s compressors z).Logs KeepsCompressed := by
  refine .bind (logs_ulong _) fun zDataLen => .bind (logs_reads _ _) fun _ =>
    .bind (logs_newTarget _) fun _ => .bind (logs_compressedBody _) fun p => ?_
  obtain ⟨source, s'⟩ := p
  dsimp only
  split
  · exact .raise _
  · exact .bind (logs_decompressInto _ _ _) fun _ => .pure _

lemma disposals_eq_zero {log : List Event} (h : ∀ e ∈ log, KeepsCompressed e) :
    disposals .compressed log = 0 := by
  rw [disposals, List.count_eq_zero.mpr fun he => (h _ he).1 rfl,
    List.count_eq_zero.mpr fun he => (h _ he).2 rfl]

/-- An exception loses the buffer of the received message. -/
lemma result_of_safe (h : Safe (inputZiop env s compressors z)) :
    ∃ r, (decompressBuffer env s compressors z).result = .ok r := by
  cases hr : (decompressBuffer env s compressors z).result with
  | ok r => exact ⟨r, rfl⟩
  | error e =>
    have hlog : (inputZiop env s compressors z).log =
        .computes (sizeField z.header + 12) :: (decompressBuffer env s compressors z).log := by
      have hbind : (do
          let r ← decompressBuffer env s compressors z
          Run.tell (.releases .compressed)
          return r) = (⟨(decompressBuffer env s compressors z).log, .error e⟩ : Run _) := by
        change Run.bind _ _ = _
        rw [Run.bind, hr]
      rw [inputZiop, Run.bind_of_ok rfl, hbind]
      rfl
    have hzero : disposals .compressed (inputZiop env s compressors z).log = 0 := by
      rw [hlog]
      apply disposals_eq_zero
      intro e he
      rcases List.mem_cons.mp he with rfl | he
      · exact ⟨by simp, by simp⟩
      · exact logs_decompressBuffer e he
    exact absurd (h.compressed.symm.trans hzero) (by decide)

lemma allocates_of_ok {octets : ℕ} {u : Unit} (h : (allocate env octets).result = .ok u) :
    env.allocates octets = true := by
  unfold allocate at h
  split at h
  · assumption
  · cases h

/-- The size of the new buffer for the message. -/
def capacityFor (env : Surroundings κ) (z : ZiopBuffer) : ℕ :=
  targetSize env (((z.originalLength : ℤ) + 12) % 2 ^ 32).toNat

lemma newTarget_eq_ok {capacity : ℕ} (h : (newTarget env z.originalLength).result = .ok capacity) :
    capacity = capacityFor env z ∧ env.allocates (capacityFor env z) = true ∧
      (newTarget env z.originalLength).log =
        [.computes (z.originalLength + 12), .allocates, .computes (env.start + capacity)] := by
  obtain ⟨sz, h1, h, hlog⟩ := Run.bind_eq_ok h
  obtain rfl := Except.ok.inj h1
  obtain ⟨_, halloc, h, hlog2⟩ := Run.bind_eq_ok h
  have hmemory := allocates_of_ok halloc
  have hempty : (allocate env (capacityFor env z)).log = [] := by
    unfold allocate
    split <;> rfl
  obtain rfl := Except.ok.inj h
  refine ⟨rfl, hmemory, ?_⟩
  change (newTarget env z.originalLength).log = _ at hlog
  rw [hlog, hlog2]
  change _ ++ ((allocate env (capacityFor env z)).log ++ _) = _
  rw [hempty]
  rfl

lemma decompressInto_eq_ok {capacity : ℕ} {source : List (Option UInt8)} {k : κ} {b : Buffer}
    (h : (decompressInto env z capacity source k).result = .ok b) :
    ∃ octets hle, env.decompress k source z.originalLength = .filled octets hle ∧
      b = ⟨capacity, z.giopHeader octets.length ++ octets,
        (((octets.length : ℤ) + 12) % 2 ^ 32).toNat⟩ ∧
      (decompressInto env z capacity source k).log =
        [.reads source.length (source.countP Option.isSome),
          .offers z.originalLength (capacity - 12), .computes (octets.length + 12),
          .computes (env.start + octets.length + 12), .handsOn .decompressed] := by
  obtain ⟨_, -, h, hlog⟩ := Run.bind_eq_ok h
  obtain ⟨_, -, h, hlog2⟩ := Run.bind_eq_ok h
  change (decompressInto env z capacity source k).log = _ at hlog
  rw [hlog, hlog2]
  cases hfilled : env.decompress k source z.originalLength with
  | exception =>
    rw [hfilled] at h
    cases h
  | replaced =>
    rw [hfilled] at h
    cases h
  | filled octets hle =>
    rw [hfilled] at h
    exact ⟨octets, hle, rfl, (Except.ok.inj h).symm, rfl⟩

/-- What it takes to come to the end of `decompressBuffer`, and what is logged on the way. -/
lemma decompressBuffer_eq_ok {r : Buffer × Strand × Compressors κ}
    (h : (decompressBuffer env s compressors z).result = .ok r) :
    ∃ source s' compressors' i octets hle,
      env.allocates (capacityFor env z) = true ∧
      (compressedBody env s z (((z.length : ℤ) - 24) % 2 ^ 32).toNat).result = .ok (source, s') ∧
      compressorIndex env compressors z.compressorId = some ⟨compressors', i⟩ ∧
      env.decompress (compressors'.get i).2 source z.originalLength = .filled octets hle ∧
      r = (⟨capacityFor env z, z.giopHeader octets.length ++ octets,
        (((octets.length : ℤ) + 12) % 2 ^ 32).toNat⟩, s', compressors') ∧
      (decompressBuffer env s compressors z).log =
        [.computes (z.length - 24), .reads 20 z.length, .computes (z.originalLength + 12),
          .allocates, .computes (env.start + capacityFor env z)] ++
        (compressedBody env s z (((z.length : ℤ) - 24) % 2 ^ 32).toNat).log ++
        [.reads source.length (source.countP Option.isSome),
          .offers z.originalLength (capacityFor env z - 12), .computes (octets.length + 12),
          .computes (env.start + octets.length + 12), .handsOn .decompressed] := by
  obtain ⟨zDataLen, h1, h, hlog1⟩ := Run.bind_eq_ok h
  obtain rfl := Except.ok.inj h1
  obtain ⟨_, -, h, hlog2⟩ := Run.bind_eq_ok h
  obtain ⟨capacity, hnew, h, hlog3⟩ := Run.bind_eq_ok h
  obtain ⟨rfl, hmemory, hnewlog⟩ := newTarget_eq_ok hnew
  obtain ⟨⟨source, s'⟩, hbody, h, hlog4⟩ := Run.bind_eq_ok h
  change (decompressBuffer env s compressors z).log = _ at hlog1
  rw [hlog1, hlog2, hlog3, hlog4, hnewlog]
  dsimp only at h ⊢
  cases hindex : compressorIndex env compressors z.compressorId with
  | none =>
    rw [hindex] at h
    cases h
  | some p =>
    obtain ⟨compressors', i⟩ := p
    rw [hindex] at h
    obtain ⟨b, hinto, h, hlog5⟩ := Run.bind_eq_ok h
    obtain ⟨octets, hle, hfilled, rfl, hintolog⟩ := decompressInto_eq_ok hinto
    refine ⟨source, s', compressors', i, octets, hle, hmemory, hbody, rfl, hfilled,
      (Except.ok.inj h).symm, ?_⟩
    dsimp only
    rw [hlog5, hintolog]
    simp only [List.append_assoc]
    rfl

/-! ### From safety -/

/-- Where the buffer does not hold the whole message, the sequence for the source is longer than
what was received. -/
lemma compressedBody_short {source : List (Option UInt8)} {s' : Strand} (hlen : 24 ≤ z.length)
    (hshort : z.length < z.size)
    (h : (compressedBody env s z (z.length - 24)).result = .ok (source, s')) :
    source.countP Option.isSome < source.length := by
  have hsize : z.size < 2 ^ 32 := Nat.mod_lt _ (by decide)
  rw [compressedBody, if_pos hshort] at h
  obtain ⟨n, hn, h, -⟩ := Run.bind_eq_ok h
  obtain rfl := Except.ok.inj hn
  obtain ⟨_, -, h, -⟩ := Run.bind_eq_ok h
  obtain ⟨missing, hmissing, h, -⟩ := Run.bind_eq_ok h
  obtain rfl := Except.ok.inj hmissing
  have hn : (((z.size : ℤ) - 12) % 2 ^ 32).toNat = z.size - 12 := by omega
  have hmissing : (((z.size : ℤ) - z.length) % 2 ^ 32).toNat = z.size - z.length := by omega
  rw [hn, hmissing] at h
  cases hchunk : s.inputCopyChunk (z.size - z.length) with
  | error e =>
    rw [hchunk] at h
    cases h
  | ok p =>
    obtain ⟨chunk, t⟩ := p
    have hlength : chunk.length = z.size - z.length := by
      unfold Strand.inputCopyChunk at hchunk
      split at hchunk
      · cases hchunk
      · split at hchunk
        · cases hchunk
        · rename_i hrecv
          cases hchunk
          exact (Library.Pieces.recvExactly_spec hrecv).1
    rw [hchunk] at h
    cases h
    have hbody : (z.body (z.length - 24)).length = z.length - 24 := by
      rw [ZiopBuffer.body, List.length_map, List.length_range]
    generalize hheld : (z.body (z.length - 24) ++ chunk.map some).take (z.size - 12) = held
    have hheldlen : held.length ≤ z.size - 24 := by
      rw [← hheld, List.length_take, List.length_append, List.length_map, hbody, hlength]
      omega
    have hcount := List.countP_le_length (p := Option.isSome) (l := held)
    have hnone : (List.replicate (z.size - 12 - held.length) (none : Option UInt8)).countP
        Option.isSome = 0 := by simp
    rw [List.countP_append, hnone, List.length_append, List.length_replicate]
    omega

lemma compressedBody_whole (hwhole : z.size ≤ z.length) (zDataLen : ℕ) :
    compressedBody env s z zDataLen = ⟨[], .ok (z.body zDataLen, s)⟩ := by
  rw [compressedBody, if_neg (not_lt.mpr hwhole)]
  rfl

lemma capacityFor_eq (h : z.originalLength + 12 < 2 ^ 32) :
    capacityFor env z = max env.cfg.bufferSize (z.originalLength + 12) := by
  have hsz : (((z.originalLength : ℤ) + 12) % 2 ^ 32).toNat = z.originalLength + 12 := by omega
  rw [capacityFor, targetSize, hsz]
  split_ifs <;> omega

lemma inputZiop_log {r : Buffer × Strand × Compressors κ}
    (h : (decompressBuffer env s compressors z).result = .ok r) :
    (inputZiop env s compressors z).result = .ok r ∧ (inputZiop env s compressors z).log =
      .computes (sizeField z.header + 12) :: (decompressBuffer env s compressors z).log ++
        [.releases .compressed] := by
  have hbind : (do
      let r ← decompressBuffer env s compressors z
      Run.tell (.releases .compressed)
      return r) =
        (⟨(decompressBuffer env s compressors z).log ++ [.releases .compressed], .ok r⟩ : Run _) := by
    rw [Run.bind_of_ok h]
    rfl
  rw [inputZiop, Run.bind_of_ok rfl, hbind]
  exact ⟨rfl, rfl⟩

lemma Safe.fits (h : Safe (inputZiop env s compressors z)) : Fits env compressors z := by
  obtain ⟨r, hr⟩ := result_of_safe h
  obtain ⟨source, s', compressors', i, octets, hle, hmemory, hbody, hindex, hfilled, -, hlog⟩ :=
    decompressBuffer_eq_ok hr
  have hall := (inputZiop_log hr).2
  rw [hlog] at hall
  have hsize := h.computes (sizeField z.header + 12) (by rw [hall]; simp)
  have hheaders := h.computes (z.length - 24) (by rw [hall]; simp)
  have hsum := h.computes (z.originalLength + 12) (by rw [hall]; simp)
  have hend := h.computes (env.start + capacityFor env z) (by rw [hall]; simp)
  have hreads := h.reads source.length (source.countP Option.isSome) (by rw [hall]; simp)
  have hlen : 24 ≤ z.length := by omega
  have hdata : (((z.length : ℤ) - 24) % 2 ^ 32).toNat = z.length - 24 := by
    have hlt := z.length_lt
    omega
  rw [hdata] at hbody
  have hwhole : z.size ≤ z.length := by
    by_contra hshort
    exact absurd hreads (not_le.mpr (compressedBody_short hlen (not_le.mp hshort) hbody))
  have hcapacity : capacityFor env z = max env.cfg.bufferSize (z.originalLength + 12) :=
    capacityFor_eq (by omega)
  rw [compressedBody_whole hwhole] at hbody
  obtain ⟨rfl, -⟩ := Prod.mk.inj (Except.ok.inj hbody)
  rw [hcapacity] at hmemory hend
  exact ⟨by omega, hlen, hwhole, by omega, hmemory, compressors', i, octets, hle, hindex, hfilled⟩

/-! ### To safety -/

lemma countP_body {n : ℕ} (h : 24 + n ≤ z.length) :
    (z.body n).countP Option.isSome = (z.body n).length := by
  rw [List.countP_eq_length]
  intro o ho
  obtain ⟨i, hi, rfl⟩ := List.mem_map.mp ho
  rw [List.mem_range] at hi
  rw [if_pos (by omega)]
  rfl

/-- The message that comes out is a GIOP message. -/
lemma exists_message (z : ZiopBuffer) (octets : List UInt8) (h : octets.length + 12 < 2 ^ 32) :
    ∃ m : Message, z.giopHeader octets.length ++ octets = m.octets ∧
      octets.length + 12 = m.length := by
  obtain ⟨-, h1, h2, h3⟩ := z.magic
  have hheader : (z.giopHeader octets.length).length = 12 := by
    rw [ZiopBuffer.giopHeader]
    split_ifs <;> rfl
  have hfield : sizeField (z.giopHeader octets.length ++ octets) = octets.length := by
    have hvalue := ulongValue_ulongOctets octets.length
    rw [Nat.mod_eq_of_lt (by omega)] at hvalue
    have hsix : octetAt (z.giopHeader octets.length ++ octets) 6 = z.memory 6 := rfl
    rw [sizeField, hsix]
    cases horder : z.sameOrder with
    | true =>
      have hflag : z.memory 6 &&& 0x1 = 1 := of_decide_eq_true horder
      have heq : z.giopHeader octets.length =
          0x47 :: ((List.range 7).map fun i => z.memory (i + 1)) ++ ulongOctets octets.length := by
        rw [ZiopBuffer.giopHeader, horder]
        rfl
      rw [if_pos hflag, heq]
      exact hvalue
    | false =>
      have hflag : ¬z.memory 6 &&& 0x1 = 1 := of_decide_eq_false horder
      have heq : z.giopHeader octets.length =
          0x47 :: ((List.range 7).map fun i => z.memory (i + 1)) ++
            (ulongOctets octets.length).reverse := by
        rw [ZiopBuffer.giopHeader, horder]
        rfl
      rw [if_neg hflag, heq]
      exact hvalue
  refine ⟨⟨z.giopHeader octets.length ++ octets, ?_, ?_, ?_⟩, rfl, ?_⟩
  · rw [hasMagic, decide_eq_true_iff]
    change [0x47, z.memory 1, z.memory 2, z.memory 3] = _
    rw [h1, h2, h3]
  · rw [hfield, List.length_append, hheader, Nat.add_comm]
  · rw [List.length_append, hheader]
    omega
  · rw [Message.length, List.length_append, hheader, Nat.add_comm]

lemma Fits.safe (h : Fits env compressors z) (s : Strand) :
    Safe (inputZiop env s compressors z) := by
  obtain ⟨compressors', i, octets, hle, hindex, hfilled⟩ := h.decompresses
  have hsize := h.size
  have hlen := h.headers
  have hlt := z.length_lt
  have horiginal := h.original
  have hcapacity : capacityFor env z = max env.cfg.bufferSize (z.originalLength + 12) :=
    capacityFor_eq (by omega)
  have hmemory : env.allocates (capacityFor env z) = true := hcapacity ▸ h.memory
  have hbuffer := env.cfg.bufferSize_lt
  have hstart := env.start_le
  have hdata : (((z.length : ℤ) - 24) % 2 ^ 32).toNat = z.length - 24 := by omega
  have hsizeof : (((octets.length : ℤ) + 12) % 2 ^ 32).toNat = octets.length + 12 := by omega
  have htarget : newTarget env z.originalLength =
      ⟨[.computes (z.originalLength + 12), .allocates,
        .computes (env.start + capacityFor env z)], .ok (capacityFor env z)⟩ := by
    have halloc : allocate env (targetSize env (((z.originalLength : ℤ) + 12) % 2 ^ 32).toNat) =
        ⟨[], .ok ()⟩ := if_pos hmemory
    simp only [newTarget, Run.ulong, Run.tell, Run.ok_bind, halloc]
    rfl
  have hinto : decompressInto env z (capacityFor env z) (z.body (z.length - 24))
      (compressors'.get i).2 = ⟨[.reads (z.body (z.length - 24)).length
        ((z.body (z.length - 24)).countP Option.isSome),
        .offers z.originalLength (capacityFor env z - 12), .computes (octets.length + 12),
        .computes (env.start + octets.length + 12), .handsOn .decompressed],
        .ok ⟨capacityFor env z, z.giopHeader octets.length ++ octets, octets.length + 12⟩⟩ := by
    simp only [decompressInto, Run.ulong, Run.tell, Run.ok_bind, hfilled, hsizeof]
    rfl
  have hdecompress : decompressBuffer env s compressors z = ⟨[.computes (z.length - 24),
      .reads 20 z.length, .computes (z.originalLength + 12), .allocates,
      .computes (env.start + capacityFor env z), .reads (z.body (z.length - 24)).length
        ((z.body (z.length - 24)).countP Option.isSome),
      .offers z.originalLength (capacityFor env z - 12), .computes (octets.length + 12),
      .computes (env.start + octets.length + 12), .handsOn .decompressed],
      .ok (⟨capacityFor env z, z.giopHeader octets.length ++ octets, octets.length + 12⟩, s,
        compressors')⟩ := by
    simp only [decompressBuffer, Run.ulong, Run.tell, Run.ok_bind, hdata, htarget,
      compressedBody_whole h.whole, hindex, hinto]
    rfl
  have hok : (decompressBuffer env s compressors z).result =
      .ok (⟨capacityFor env z, z.giopHeader octets.length ++ octets, octets.length + 12⟩, s,
        compressors') := by rw [hdecompress]
  obtain ⟨hresult, hlog⟩ := inputZiop_log hok
  rw [hdecompress] at hlog
  refine ⟨.inl ⟨_, s, compressors', hresult, exists_message z octets (by omega)⟩, ?_, ?_, ?_, ?_, ?_⟩
  · intro n hn
    rw [hlog] at hn
    simp only [List.cons_append, List.nil_append, List.mem_cons, Event.computes.injEq, reduceCtorEq,
      List.not_mem_nil, or_false, false_or] at hn
    omega
  · intro n received hn
    rw [hlog] at hn
    simp only [List.cons_append, List.nil_append, List.mem_cons, Event.reads.injEq, reduceCtorEq,
      List.not_mem_nil, or_false, false_or] at hn
    rcases hn with ⟨rfl, rfl⟩ | ⟨rfl, rfl⟩
    · omega
    · exact (countP_body (by omega)).ge
  · intro n room hn
    rw [hlog] at hn
    simp only [List.cons_append, List.nil_append, List.mem_cons, Event.offers.injEq, reduceCtorEq,
      List.not_mem_nil, or_false, false_or] at hn
    omega
  · rw [hlog]
    simp [disposals]
  · rw [hlog]
    simp [disposals]

end

/-- A ZIOP message is read safely if and only if its size and the length of its original fit into 32
bits with what is added to them, it has room for both headers, the buffer holds the whole of it, and
memory, compressor and decompression do not fail. -/
theorem decompression_safe_iff {κ : Type} (env : Surroundings κ) (s : Strand)
    (compressors : Compressors κ) (z : ZiopBuffer) :
    Safe (inputZiop env s compressors z) ↔ Fits env compressors z :=
  ⟨Safe.fits, fun h => h.safe s⟩

/-- Nothing but a header, whose field says that nothing follows. -/
def bareHeader : ZiopBuffer where
  memory i := [0x5a, 0x49, 0x4f, 0x50, 1, 2, 1, 0].getD i 0
  length := 12
  length_lt := by decide
  magic := by decide

/-- Of a message of 12 octets, the length of the compressed body wraps around. -/
theorem bare_header_not_safe :
    ¬∀ (κ : Type) (env : Surroundings κ) (s : Strand) (compressors : Compressors κ)
      (z : ZiopBuffer), Safe (inputZiop env s compressors z) := by
  intro h
  have hsafe := h Unit ⟨.initial, 24, by decide, fun _ => true, fun _ => none, fun _ _ _ => .exception⟩
    ⟨[], [], ⟨[], by simp⟩, false, false, false, false⟩ [] bareHeader
  exact absurd hsafe.fits.headers (by decide)

end OmniORB.Ziop
