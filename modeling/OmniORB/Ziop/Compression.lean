import OmniORB.Ziop.DecompressionSafety
import OmniORB.Ziop.Negotiation

/-!
# Compressing messages

`compressBuffer`, what a compressor is allowed to write there, and how messages that are sent through
a compressor arrive at the other side.
-/

namespace OmniORB.Ziop

/-- What `compressBuffer` relies on besides: what compressors make of octets for a target of some
capacity, whether so many octets are more than the ratio of so many, and what stands in the two
octets of a new buffer that are not written. -/
structure Compressing (κ ρ : Type) extends Surroundings κ where
  compress : κ → List UInt8 → (capacity : ℕ) → Decompressed capacity
  insufficient : ℕ → ℕ → ρ → Bool
  unwritten : UInt8 × UInt8

/-- A buffer that is sent. -/
structure Chunk where
  octets : List UInt8
  header_le : 12 ≤ octets.length
  length_lt : octets.length < 2 ^ 32

/-- What `compressBuffer` makes: the octets from `start` to `last`, in a buffer with room for so
many. -/
structure CompressedBuffer where
  capacity : ℕ
  octets : List UInt8

section

variable {κ ρ : Type} (env : Compressing κ ρ)

/-- The headers for a compressed body. -/
def ziopHeaders (g : Chunk) (id : UInt16) (n : ℕ) : List UInt8 :=
  0x5a :: (g.octets.take 8).drop 1 ++ ulongOctets (n + 12) ++ ushortOctets id ++
    [env.unwritten.1, env.unwritten.2] ++ ulongOctets (g.octets.length - 12) ++ ulongOctets n

/-- The call of the compressor, and what becomes of its output. -/
def compressInto (ratio : ρ) (g : Chunk) (capacity zDataLen : ℕ) (k : CompressorIdLevel × κ) :
    Run (Option CompressedBuffer) := do
  .tell (.offers zDataLen (capacity - 24))
  match env.compress k.2 (g.octets.drop 12) zDataLen with
  | .exception =>
    .tell (.releases .compressed)
    return none
  | .replaced =>
    .tell (.releases .compressed)
    return none
  | .filled octets _ =>
    if env.insufficient octets.length (g.octets.length - 12) ratio then do
      .tell (.releases .compressed)
      return none
    else do
      let _ ← Run.ulong (octets.length + 12)
      let _ ← Run.ulong (env.start + 24 + octets.length)
      .tell (.handsOn .compressed)
      return some ⟨capacity, ziopHeaders env g k.1.compressorId octets.length ++ octets⟩

/-- The new buffer, if there is one. In a new buffer `last` is `start`. -/
def compressBuffer (c : CompressorImpl κ ρ) (g : Chunk) : Run (Option CompressedBuffer) :=
  if g.octets.length < c.minSize then return none
  else do
    if !hasMagic g.octets then .raise (.exn .assertionFailure)
    let sz ← Run.ulong (g.octets.length + 12)
    allocate env.toSurroundings (targetSize env.toSurroundings sz)
    .tell .allocates
    let zDataLen ← Run.ulong (0 - 24)
    match c.compressors.head? with
    | none => do
      -- the exception for the index is caught
      .tell (.releases .compressed)
      return none
    | some k => compressInto env c.ratio g (targetSize env.toSurroundings sz) zDataLen k

/-! ### What the compressor may write -/

/-- The room in the buffer for a compressed chunk. -/
def roomFor (g : Chunk) : ℕ :=
  targetSize env.toSurroundings (((g.octets.length : ℤ) + 12) % 2 ^ 32).toNat

/-- The chunks that are given to a compressor. -/
structure Compresses (c : CompressorImpl κ ρ) (g : Chunk) : Prop where
  size : c.minSize ≤ g.octets.length
  magic : hasMagic g.octets = true
  memory : env.allocates (roomFor env g) = true
  compressor : c.compressors ≠ []

variable {env} {c : CompressorImpl κ ρ} {g : Chunk}

/-- The run up to the call of the compressor, which may fill what a `CORBA::ULong` has left below
zero. -/
lemma compressBuffer_of_compresses {k : CompressorIdLevel × κ} {l : List (CompressorIdLevel × κ)}
    (h : Compresses env c g) (hk : c.compressors = k :: l) : compressBuffer env c g =
      ⟨[.computes (g.octets.length + 12), .allocates, .computes (0 - 24)] ++
        (compressInto env c.ratio g (roomFor env g) (2 ^ 32 - 24) k).log,
        (compressInto env c.ratio g (roomFor env g) (2 ^ 32 - 24) k).result⟩ := by
  have halloc : allocate env.toSurroundings (targetSize env.toSurroundings
      (((g.octets.length : ℤ) + 12) % 2 ^ 32).toNat) = ⟨[], .ok ()⟩ := if_pos h.memory
  have hwrap : (((0 : ℤ) - 24) % 2 ^ 32).toNat = 2 ^ 32 - 24 := by decide
  rw [compressBuffer, if_neg (not_lt.mpr h.size), h.magic, hk]
  simp only [Run.ulong, Run.tell, Run.ok_bind, halloc, hwrap]
  rfl

/-- Where no compressor is called, nothing happens, or a new buffer is released again. -/
lemma compressBuffer_of_not (h : ¬Compresses env c g) :
    (compressBuffer env c g).log = [] ∨
      (compressBuffer env c g).log = [.computes (g.octets.length + 12)] ∨
      (compressBuffer env c g).log = [.computes (g.octets.length + 12), .allocates,
        .computes (0 - 24), .releases .compressed] := by
  by_cases hsize : g.octets.length < c.minSize
  · rw [compressBuffer, if_pos hsize]
    exact .inl rfl
  rw [compressBuffer, if_neg hsize]
  by_cases hmagic : hasMagic g.octets = true
  · rw [hmagic]
    by_cases hmemory : env.allocates (roomFor env g) = true
    · have halloc : allocate env.toSurroundings (targetSize env.toSurroundings
          (((g.octets.length : ℤ) + 12) % 2 ^ 32).toNat) = ⟨[], .ok ()⟩ := if_pos hmemory
      have hnone : c.compressors = [] := by
        by_contra hne
        exact h ⟨not_lt.mp hsize, hmagic, hmemory, hne⟩
      rw [hnone]
      simp only [Run.ulong, Run.tell, Run.ok_bind, halloc]
      exact .inr (.inr rfl)
    · have halloc : allocate env.toSurroundings (targetSize env.toSurroundings
          (((g.octets.length : ℤ) + 12) % 2 ^ 32).toNat) = ⟨[], .error .badAlloc⟩ := if_neg hmemory
      simp only [Run.ulong, Run.tell, Run.ok_bind, halloc]
      exact .inr (.inl rfl)
  · rw [Bool.eq_false_iff.mpr hmagic]
    exact .inl rfl

/-- The compressor is called once, and the new buffer is released or handed on. -/
lemma compressInto_log (env : Compressing κ ρ) (ratio : ρ) (g : Chunk) (capacity zDataLen : ℕ)
    (k : CompressorIdLevel × κ) :
    ∃ l, (compressInto env ratio g capacity zDataLen k).log =
        .offers zDataLen (capacity - 24) :: l ∧
      (∀ n room, .offers n room ∉ l) ∧ disposals .compressed l = 1 ∧ l.count .allocates = 0 := by
  rw [compressInto]
  simp only [Run.tell, Run.ok_bind, List.singleton_append]
  refine ⟨_, rfl, ?_⟩
  cases env.compress k.2 (g.octets.drop 12) zDataLen with
  | exception => exact ⟨by simp [pure], rfl, rfl⟩
  | replaced => exact ⟨by simp [pure], rfl, rfl⟩
  | filled octets hle =>
    cases hratio : env.insufficient octets.length (g.octets.length - 12) ratio with
    | true =>
      exact ⟨by simp [hratio, pure], by simp [hratio, pure, disposals], by simp [hratio, pure]⟩
    | false =>
      simp only [hratio, Run.ulong, Run.ok_bind]
      exact ⟨by simp [pure], by simp [disposals, pure], by simp [pure]⟩

lemma roomFor_lt (env : Compressing κ ρ) (g : Chunk) : roomFor env g < 2 ^ 32 := by
  have hbuffer := env.cfg.bufferSize_lt
  have hsz : (((g.octets.length : ℤ) + 12) % 2 ^ 32).toNat < 2 ^ 32 := by omega
  rw [roomFor, targetSize]
  split_ifs <;> omega

end

/-- A compressor is not offered more room than there is in the new buffer, if and only if none is
called: the chunk is short, or is not the start of a message, or there is no memory or no compressor.
In every case the new buffer is released, or handed on. -/
theorem compression_confined_iff {κ ρ : Type} (env : Compressing κ ρ) (c : CompressorImpl κ ρ)
    (g : Chunk) :
    ((∀ n room, .offers n room ∈ (compressBuffer env c g).log → n ≤ room) ↔
      g.octets.length < c.minSize ∨ hasMagic g.octets = false ∨
        env.allocates (roomFor env g) = false ∨ c.compressors = []) ∧
    disposals .compressed (compressBuffer env c g).log =
      (compressBuffer env c g).log.count .allocates := by
  by_cases h : Compresses env c g
  · obtain ⟨k, rest, hk⟩ := List.exists_cons_of_ne_nil h.compressor
    obtain ⟨l, hl, hoffers, hdisposals, hallocates⟩ := compressInto_log env c.ratio g
      (roomFor env g) (2 ^ 32 - 24) k
    have hlog : (compressBuffer env c g).log = [.computes (g.octets.length + 12), .allocates,
        .computes (0 - 24)] ++ .offers (2 ^ 32 - 24) (roomFor env g - 24) :: l := by
      rw [compressBuffer_of_compresses h hk, hl]
    have hroom := roomFor_lt env g
    refine ⟨⟨fun hconfined => ?_, ?_⟩, ?_⟩
    · have hle := hconfined (2 ^ 32 - 24) (roomFor env g - 24) (by rw [hlog]; simp)
      omega
    · rintro (hsize | hmagic | hmemory | hnone)
      · exact absurd h.size (not_le.mpr hsize)
      · exact absurd (h.magic.symm.trans hmagic) (by decide)
      · exact absurd (h.memory.symm.trans hmemory) (by decide)
      · exact absurd hnone h.compressor
    · rw [hlog]
      rw [disposals] at hdisposals
      simp [disposals, hallocates, hdisposals]
  · have hnot : g.octets.length < c.minSize ∨ hasMagic g.octets = false ∨
        env.allocates (roomFor env g) = false ∨ c.compressors = [] := by
      by_contra hall
      push Not at hall
      obtain ⟨hsize, hmagic, hmemory, hne⟩ := hall
      exact h ⟨hsize, by simpa using hmagic, by simpa using hmemory, hne⟩
    rcases compressBuffer_of_not h with hlog | hlog | hlog
    · rw [hlog]
      exact ⟨⟨fun _ => hnot, by simp⟩, rfl⟩
    · rw [hlog]
      exact ⟨⟨fun _ => hnot, by simp⟩, rfl⟩
    · rw [hlog]
      exact ⟨⟨fun _ => hnot, by simp⟩, rfl⟩

/-! ### From one side to the other -/

/-- A buffer that holds just these octets, which begin with `ZIOP`. -/
def ZiopBuffer.ofOctets (o : List UInt8) (hmagic : o.take 4 = [0x5a, 0x49, 0x4f, 0x50])
    (hlt : o.length < 2 ^ 32) : ZiopBuffer where
  memory := octetAt o
  length := o.length
  length_lt := hlt
  magic := by
    match o, hmagic with
    | a :: b :: c :: d :: _, hmagic =>
      simp only [List.take_succ_cons, List.take_zero, List.cons.injEq, and_true] at hmagic
      exact hmagic

section

variable {κ κ' ρ : Type}

/-- The compressor for an id is `k`. A strand that has compressors, but none for the id, is not such:
it would take its first one. -/
def Known (env : Surroundings κ) (compressors : Compressors κ) (id : ℕ) (k : κ) : Prop :=
  (∃ i, compressors.findFinIdx? (fun c => c.1 = id) = some i ∧ (compressors.get i).2 = k) ∨
    compressors = [] ∧ env.getCompressor id = some k

lemma Known.compressorIndex {env : Surroundings κ} {compressors : Compressors κ} {id : ℕ} {k : κ}
    (h : Known env compressors id k) : ∃ compressors' i,
      compressorIndex env compressors id = some ⟨compressors', i⟩ ∧ (compressors'.get i).2 = k ∧
        Known env compressors' id k := by
  rcases h with ⟨i, hi, hk⟩ | ⟨rfl, hk⟩
  · exact ⟨compressors, i, by rw [Ziop.compressorIndex, hi], hk, .inl ⟨i, hi, hk⟩⟩
  · have hfind : List.findFinIdx? (fun c : ℕ × κ => c.1 = id) [(id, k)] = some ⟨0, by simp⟩ := by
      simp [List.findFinIdx?, List.findFinIdx?.go]
    refine ⟨[(id, k)], ⟨0, by simp⟩, ?_, rfl, .inl ⟨_, hfind, rfl⟩⟩
    rw [Ziop.compressorIndex]
    simp [hk]

variable {env : Compressing κ ρ} {env' : Surroundings κ'} {c : CompressorImpl κ ρ}
variable {k : CompressorIdLevel × κ} {k' : κ'} {l : List (CompressorIdLevel × κ)}

end

end OmniORB.Ziop
