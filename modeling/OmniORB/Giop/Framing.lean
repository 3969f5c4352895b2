import OmniORB.Giop.Receive

/-!
# Message framing

However a connection cuts a sequence of GIOP messages into pieces, `inputMessage` and `inputChunk`
give the messages back one by one. What was received of later messages waits in the strand's head
list, each message in a buffer of its own.
-/

namespace OmniORB

open Library

/-! ### Messages -/

/-- A GIOP message with its header: the magic, and a size field that is correct. -/
structure Message where
  octets : List UInt8
  magic : hasMagic octets = true
  size_eq : sizeField octets + 12 = octets.length
  size_lt : octets.length < 2 ^ 32

namespace Message

def length (m : Message) : ℕ := m.octets.length

lemma le_length (m : Message) : 12 ≤ m.length := by
  have h := m.size_eq
  unfold length
  omega

lemma headerSize_octets (m : Message) : headerSize m.octets = m.length := by
  rw [headerSize, m.size_eq]
  exact Nat.mod_eq_of_lt m.size_lt

/-- The octets that begin with a message begin with its header. -/
lemma begins (m : Message) (x : List UInt8) : Begins (m.octets ++ x) :=
  Begins.append x ⟨m.le_length, m.magic⟩

lemma headerSize_octets_append (m : Message) (x : List UInt8) :
    headerSize (m.octets ++ x) = m.octets.length := by
  rw [headerSize_append x m.le_length]
  exact m.headerSize_octets

end Message

/-- The octets of a sequence of messages. -/
def messageOctets (ms : List Message) : List UInt8 := ms.flatMap Message.octets

@[simp] lemma messageOctets_nil : messageOctets [] = [] := rfl

@[simp] lemma messageOctets_cons (m : Message) (ms : List Message) :
    messageOctets (m :: ms) = m.octets ++ messageOctets ms := rfl

lemma framed_messageOctets (ms : List Message) : Framed (messageOctets ms) := by
  induction ms with
  | nil => exact .nil
  | cons m ms ih =>
    rw [messageOctets_cons]
    have hsize := m.headerSize_octets_append (messageOctets ms)
    refine .cons (m.begins _) ?_ ?_ ?_
    · rw [hsize]
      exact m.le_length
    · rw [hsize, List.length_append]
      exact Nat.le_add_right _ _
    · rw [hsize, List.drop_left]
      exact ih

/-! ### The head list -/

/-- The buffers hold the first of the messages, one each and the last one perhaps in part. -/
inductive HeadOf : List Buffer → List Message → Prop
  | nil (ms : List Message) : HeadOf [] ms
  | cut (b : Buffer) (m : Message) (ms : List Message) (hne : b.data ≠ [])
      (hlt : b.dataSize < m.length) (hpre : b.data <+: m.octets) : HeadOf [b] (m :: ms)
  | whole (b : Buffer) (m : Message) (bs : List Buffer) (ms : List Message)
      (hdata : b.data = m.octets) (htail : HeadOf bs ms) : HeadOf (b :: bs) (m :: ms)

/-- Where the octets are messages, a cut at the headers' sizes separates them. -/
lemma HeadAt.headOf {cfg : Config} {bs : List Buffer} {ms : List Message}
    (h : HeadAt cfg bs (messageOctets ms)) : HeadOf bs ms := by
  induction bs generalizing ms with
  | nil => exact .nil ms
  | cons b bs ih =>
    obtain _ | ⟨m, ms⟩ := ms
    · cases h with
      | cut b o hne hpre hlt hdata hcap hfit =>
        exact absurd (List.prefix_nil.mp hpre) hne
      | whole b bs o hbegins hpos hle hdata hcap htail =>
        exact absurd hbegins.1 (by decide)
    · have hm := m.le_length
      have hmlen : m.octets.length = m.length := rfl
      rw [messageOctets_cons] at h
      have hsize := m.headerSize_octets_append (messageOctets ms)
      cases h with
      | cut b o hne hpre hlt hdata hcap hfit =>
        rw [hsize] at hlt
        have hless : b.dataSize < m.length := by
          by_cases h12 : 12 ≤ b.dataSize
          · exact hlt h12
          · omega
        refine .cut b m ms hne hless ?_
        exact List.prefix_of_prefix_length_le hpre (List.prefix_append _ _) hless.le
      | whole b bs o hbegins hpos hle hdata hcap htail =>
        rw [hsize, List.take_left] at hdata
        rw [hsize, List.drop_left] at htail
        exact .whole b m bs ms hdata (ih htail)

namespace Strand

/-- Between messages, with `ms` still to be read. -/
structure Holds (cfg : Config) (s : Strand) (ms : List Message) : Prop where
  head : HeadAt cfg s.head s.pending
  pending : s.pending = messageOctets ms
  spare : s.SpareOk cfg
  alive : s.dying = false

variable {cfg : Config}

/-! ### One message -/

/-- The buffer `b` holds the message `m`, or its front part if it does not fit. -/
structure Delivered (cfg : Config) (b : Buffer) (s : Strand) (m : Message) (ms : List Message) :
    Prop where
  size : b.size = m.length
  le : b.dataSize ≤ m.length
  capacity : b.capacity ≤ cfg.bufferSize
  octets : b.data ++ s.pending = m.octets ++ messageOctets ms
  head : HeadAt cfg s.head s.pending
  rest : b.dataSize < m.length → s.head = []
  spare : s.SpareOk cfg
  alive : s.dying = false

/-- `inputMessage` delivers the next message, as much as fits into a buffer. -/
lemma inputMessage_of_holds {fuel : ℕ} {s : Strand} {m : Message} {ms : List Message}
    (hfuel : cfg.bufferSize < fuel) (h : s.Holds cfg (m :: ms)) :
    ∃ b t, inputMessage cfg fuel s = .ok (b, t) ∧ Delivered cfg b t m ms ∧
      (b.dataSize < m.length → b.dataSize = cfg.bufferSize) ∧
      t = { s with head := t.head, spare := t.spare, connection := t.connection } := by
  obtain ⟨hhead, hpending, hspare, halive⟩ := h
  have hm := m.le_length
  have hmlen : m.octets.length = m.length := rfl
  have hne : s.pending ≠ [] := by
    intro hnil
    rw [hnil, messageOctets_cons] at hpending
    have hlen := congrArg List.length hpending
    simp only [List.length_nil, List.length_append] at hlen
    omega
  have hgives := inputMessage_gives hfuel hhead hspare hne halive
  rw [hpending] at hgives
  generalize inputMessage cfg fuel s = r at hgives
  cases r with
  | error e => exact absurd (framed_messageOctets (m :: ms)) hgives.1
  | ok r =>
    obtain ⟨harrived, hspare', hr⟩ := hgives
    have hsize := harrived.size
    rw [messageOctets_cons, m.headerSize_octets_append] at hsize
    refine ⟨r.1, r.2, rfl, ⟨hsize, ?_, harrived.capacity.2, harrived.octets.symm, harrived.head, ?_,
      hspare', ?_⟩, ?_, hr⟩
    · exact harrived.le.trans_eq hsize
    · intro hlt
      exact (harrived.rest (hlt.trans_eq hsize.symm)).2
    · rw [hr]
      exact halive
    · intro hlt
      exact (harrived.rest (hlt.trans_eq hsize.symm)).1

/-- A message that was delivered in full leaves the strand between messages. -/
lemma Delivered.holds {b : Buffer} {s : Strand} {m : Message} {ms : List Message}
    (h : Delivered cfg b s m ms) (hfull : b.dataSize = m.length) :
    b.data = m.octets ∧ s.Holds cfg ms := by
  have hoct := List.append_inj h.octets hfull
  exact ⟨hoct.1, h.head, hoct.2, h.spare, h.alive⟩

/-- `inputChunk` delivers what comes next, as much as fits. -/
lemma inputChunk_eq {s : Strand} {n : ℕ} (hhead : s.head = [])
    (hspare : s.SpareOk cfg) (hn : n ≤ s.connection.coming.length) :
    ∃ b t, inputChunk cfg n s = .ok (b, t) ∧
      b.data = s.connection.coming.take (min n cfg.bufferSize) ∧
      b.capacity = cfg.bufferSize ∧
      t.connection.coming = s.connection.coming.drop (min n cfg.bufferSize) ∧
      t.SpareOk cfg ∧
      t = { s with spare := t.spare, connection := t.connection } := by
  obtain ⟨hdata, hcap, hspare', hstrand⟩ := takeBuffer_spec hspare
  rw [inputChunk, if_neg (by simp [hhead])]
  generalize s.takeBuffer cfg = p at hdata hcap hspare' hstrand
  obtain ⟨buf, s'⟩ := p
  dsimp only at hdata hcap hspare' hstrand ⊢
  obtain ⟨c, hrecv, hcoming⟩ := Pieces.recvExactly_eq
    (show min n cfg.bufferSize ≤ s.connection.coming.length by omega)
  rw [hstrand, hcap, hrecv]
  exact ⟨_, _, rfl, rfl, rfl, hcoming, hspare', rfl⟩

/-! ### Whole messages -/

/-- The loop gathers exactly what is missing of a message. -/
lemma fetchRest_eq {fuel n : ℕ} {s : Strand} (hfuel : n ≤ fuel) (hhead : s.head = [])
    (hspare : s.SpareOk cfg) (hn : n ≤ s.connection.coming.length) :
    ∃ ps t, fetchRest cfg fuel n s = .ok (ps, t) ∧
      ps.flatMap Buffer.data = s.connection.coming.take n ∧
      (∀ p ∈ ps, p.capacity = cfg.bufferSize) ∧
      t.connection.coming = s.connection.coming.drop n ∧
      t.SpareOk cfg ∧
      t = { s with spare := t.spare, connection := t.connection } := by
  have hbuf := cfg.lt_bufferSize
  induction fuel generalizing n s with
  | zero =>
    obtain rfl : n = 0 := by omega
    refine ⟨[], s, ?_, ?_, ?_, ?_, hspare, rfl⟩
    · rw [fetchRest, if_pos rfl]
    · simp
    · intro p hp
      simp at hp
    · simp
  | succ fuel ih =>
    rw [fetchRest]
    by_cases hzero : n = 0
    · subst hzero
      rw [if_pos rfl]
      exact ⟨[], s, rfl, by simp, by simp, by simp, hspare, rfl⟩
    · rw [if_neg hzero]
      obtain ⟨p, t, hchunk, hdata, hcap, hcoming, hspare', hst⟩ := inputChunk_eq hhead hspare hn
      have hsize : p.dataSize = min n cfg.bufferSize := by
        rw [Buffer.dataSize, hdata, List.length_take]
        omega
      have hthead : t.head = [] := by
        rw [hst]
        exact hhead
      have hlen : n - p.dataSize ≤ t.connection.coming.length := by
        rw [hcoming, List.length_drop]
        omega
      obtain ⟨ps, u, hrest, hflat, hcaps, hucoming, huspare, hu⟩ :=
        ih (by omega) hthead hspare' hlen
      rw [hchunk]
      dsimp only
      rw [hrest]
      refine ⟨p :: ps, u, rfl, ?_, ?_, ?_, huspare, ?_⟩
      · rw [List.flatMap_cons, hdata, hflat, hcoming, hsize, ← List.take_add]
        congr 1
        omega
      · intro q hq
        rw [List.mem_cons] at hq
        rcases hq with rfl | hq
        · exact hcap
        · exact hcaps q hq
      · rw [hucoming, hcoming, List.drop_drop, hsize]
        congr 1
        omega
      · rw [hu, hst]

/-- A message read to its end: the size in its first buffer, and the octets of all its buffers,
which are then released. -/
def readMessage (cfg : Config) (fuel : ℕ) (s : Strand) :
    Except Exn ((ℕ × List UInt8) × Strand) :=
  match inputMessage cfg fuel s with
  | .error e => .error e
  | .ok (b, s) =>
    match fetchRest cfg fuel (b.size - b.dataSize) s with
    | .error e => .error e
    | .ok (ps, s) =>
      .ok ((b.size, (b :: ps).flatMap Buffer.data),
        (b :: ps).foldl (fun s p => s.releaseInputBuffer cfg p) s)

/-- Successive messages. -/
def readMessages (cfg : Config) (fuel : ℕ) :
    ℕ → Strand → Except Exn (List (ℕ × List UInt8) × Strand)
  | 0, s => .ok ([], s)
  | n + 1, s =>
    match readMessage cfg fuel s with
    | .error e => .error e
    | .ok (m, s) =>
      match readMessages cfg fuel n s with
      | .error e => .error e
      | .ok (ms, s) => .ok (m :: ms, s)

lemma Holds.releaseInputBuffer {s : Strand} {b : Buffer} {ms : List Message}
    (hb : b.capacity ≤ cfg.bufferSize) (h : s.Holds cfg ms) :
    (s.releaseInputBuffer cfg b).Holds cfg ms := by
  have hspare := h.spare.releaseInputBuffer hb
  rw [releaseInputBuffer_eq] at hspare ⊢
  exact ⟨h.head, h.pending, hspare, h.alive⟩

lemma Holds.releaseInputBuffers {s : Strand} {bs : List Buffer} {ms : List Message}
    (hbs : ∀ b ∈ bs, b.capacity ≤ cfg.bufferSize) (h : s.Holds cfg ms) :
    (bs.foldl (fun s p => s.releaseInputBuffer cfg p) s).Holds cfg ms := by
  induction bs generalizing s with
  | nil => exact h
  | cons b bs ih =>
    rw [List.forall_mem_cons] at hbs
    exact ih hbs.2 (h.releaseInputBuffer hbs.1)

lemma readMessage_of_holds {fuel : ℕ} {s : Strand} {m : Message} {ms : List Message}
    (hfuel : cfg.bufferSize < fuel) (hm : m.length ≤ fuel) (h : s.Holds cfg (m :: ms)) :
    ∃ t, readMessage cfg fuel s = .ok ((m.length, m.octets), t) ∧ t.Holds cfg ms := by
  obtain ⟨b, t, hinput, hb, -⟩ := inputMessage_of_holds hfuel h
  rw [readMessage, hinput]
  dsimp only
  by_cases hfull : b.dataSize = m.length
  · obtain ⟨hdata, ht⟩ := hb.holds hfull
    have hrest : fetchRest cfg fuel (b.size - b.dataSize) t = .ok ([], t) := by
      rw [hb.size, hfull, Nat.sub_self]
      cases fuel <;> rw [fetchRest, if_pos rfl]
    have hcaps : ∀ p ∈ [b], p.capacity ≤ cfg.bufferSize := by
      intro p hp
      rw [List.mem_singleton] at hp
      rw [hp]
      exact hb.capacity
    rw [hrest]
    refine ⟨_, ?_, ht.releaseInputBuffers hcaps⟩
    dsimp only
    rw [List.flatMap_singleton, hdata, hb.size]
  · -- the rest comes straight from the connection
    have hhead := hb.rest (lt_of_le_of_ne hb.le hfull)
    have hoct := hb.octets
    simp only [pending, hhead, List.flatMap_nil, List.nil_append] at hoct
    have hmlen : m.octets.length = m.length := rfl
    have hbd : b.data.length = b.dataSize := rfl
    have hble := hb.le
    have hlen := congrArg List.length hoct
    simp only [List.length_append, hmlen, hbd] at hlen
    have hn : b.size - b.dataSize ≤ t.connection.coming.length := by
      rw [hb.size]
      omega
    have hfuel' : b.size - b.dataSize ≤ fuel := by
      rw [hb.size]
      omega
    obtain ⟨ps, u, hfetch, hflat, hcaps, hcoming, hspare, hu⟩ :=
      fetchRest_eq hfuel' hhead hb.spare hn
    rw [hfetch]
    have hsize : b.data.length + (b.size - b.dataSize) = m.octets.length := by
      rw [hb.size]
      omega
    have hall : ∀ p ∈ b :: ps, p.capacity ≤ cfg.bufferSize := by
      intro p hp
      rw [List.mem_cons] at hp
      rcases hp with rfl | hp
      · exact hb.capacity
      · exact (hcaps p hp).le
    refine ⟨_, ?_, Holds.releaseInputBuffers hall ⟨?_, ?_, hspare, ?_⟩⟩
    · dsimp only
      rw [List.flatMap_cons, hflat, hb.size]
      have htake := congrArg (List.take m.octets.length) hoct
      rw [List.take_left, ← hsize, List.take_length_add_append, hb.size] at htake
      rw [htake]
    · rw [hu, show (_ : Strand).head = [] from hhead]
      exact .nil _
    · have hdrop := congrArg (List.drop m.octets.length) hoct
      rw [List.drop_left, ← hsize, List.drop_length_add_append] at hdrop
      rw [hu]
      simp only [pending, hhead, List.flatMap_nil, List.nil_append, hcoming]
      exact hdrop
    · rw [hu]
      exact hb.alive

/-- The strand of a connection that has just been opened. -/
def opened (c : Pieces UInt8) (isClient isBiDir : Bool) : Strand where
  head := []
  spare := []
  connection := c
  isClient := isClient
  isBiDir := isBiDir
  dying := false
  orderlyClosed := false

lemma holds_opened {c : Pieces UInt8} {ms : List Message} (h : c.coming = messageOctets ms)
    (isClient isBiDir : Bool) : (opened c isClient isBiDir).Holds cfg ms where
  head := .nil _
  pending := by
    simp only [pending, opened, List.flatMap_nil, List.nil_append]
    exact h
  spare := by
    intro c hc
    simp [opened] at hc
  alive := rfl

lemma readMessages_of_holds {fuel : ℕ} {s : Strand} {ms : List Message} (n : ℕ)
    (hfuel : cfg.bufferSize < fuel) (hms : ∀ m ∈ ms, m.length ≤ fuel) (hn : n ≤ ms.length)
    (h : s.Holds cfg ms) :
    ∃ t, readMessages cfg fuel n s = .ok ((ms.take n).map fun m => (m.length, m.octets), t) ∧
      t.Holds cfg (ms.drop n) := by
  induction n generalizing s ms with
  | zero =>
    exact ⟨s, rfl, h⟩
  | succ n ih =>
    obtain _ | ⟨m, ms⟩ := ms
    · simp at hn
    · rw [List.forall_mem_cons] at hms
      obtain ⟨t, hread, ht⟩ := readMessage_of_holds hfuel hms.1 h
      obtain ⟨u, hreads, hu⟩ := ih hms.2 (by simpa using hn) ht
      refine ⟨u, ?_, hu⟩
      rw [readMessages, hread]
      dsimp only
      rw [hreads]
      rfl

end Strand

/-! ### Result -/

/-- Whatever the pieces in which a connection delivers a sequence of messages, reading gives them
back in order, each with its size and its own octets, and what was received early of the later ones
is kept: the head list holds the first of them, one in a buffer, and the rest is to come. -/
theorem framing_independent_of_delivery (cfg : Config) (ms : List Message) (c : Pieces UInt8)
    (isClient isBiDir : Bool) (fuel n : ℕ) (hc : c.coming = messageOctets ms)
    (hfuel : cfg.bufferSize < fuel ∧ ∀ m ∈ ms, m.length ≤ fuel) (hn : n ≤ ms.length) :
    ∃ t, Strand.readMessages cfg fuel n (Strand.opened c isClient isBiDir) =
        .ok ((ms.take n).map fun m => (sizeField m.octets + 12, m.octets), t) ∧
      HeadOf t.head (ms.drop n) ∧
      t.head.flatMap Buffer.data ++ t.connection.coming = messageOctets (ms.drop n) := by
  obtain ⟨t, hread, ht⟩ := Strand.readMessages_of_holds n hfuel.1 hfuel.2 hn
    (Strand.holds_opened hc isClient isBiDir)
  refine ⟨t, ?_, (ht.pending ▸ ht.head).headOf, ht.pending⟩
  rw [hread]
  congr 2
  exact List.map_congr_left fun m _ => by rw [m.size_eq]; rfl

/-- Two CloseConnection messages, cut in the middle of either header. -/
theorem framing_of_two_messages :
    let m : Message :=
      ⟨[0x47, 0x49, 0x4f, 0x50, 1, 2, 1, 5, 0, 0, 0, 0], by decide, by decide, by decide⟩
    let c : Pieces UInt8 := ⟨[[0x47, 0x49, 0x4f, 0x50, 1],
      [2, 1, 5, 0, 0, 0, 0, 0x47, 0x49, 0x4f], [0x50, 1, 2, 1, 5, 0, 0, 0, 0]], by decide⟩
    ∃ t, Strand.readMessages Config.initial 8193 2 (Strand.opened c true false) =
        .ok ([(12, m.octets), (12, m.octets)], t) ∧
      HeadOf t.head [] ∧
      t.head.flatMap Buffer.data ++ t.connection.coming = [] := by
  intro m c
  have hc : c.coming = messageOctets [m, m] := by decide
  have hfuel : Config.initial.bufferSize < 8193 ∧ ∀ n ∈ [m, m], n.length ≤ 8193 := by decide
  have hsize : sizeField m.octets + 12 = 12 := by decide
  obtain ⟨t, hread, hhead, hpending⟩ :=
    framing_independent_of_delivery Config.initial [m, m] c true false 8193 2 hc hfuel le_rfl
  refine ⟨t, ?_, hhead, hpending⟩
  rw [hread]
  simp only [List.take, List.map, hsize]

end OmniORB
