import OmniORB.Giop.Strand

/-!
# What a strand delivers

`inputMessage` on any sequence of octets, well formed or not. A strand is between messages when its
pending octets begin with a header; the buffers of its head list are then cut at the headers'
sizes. The sizes are taken modulo `2 ^ 32` as the source computes them, so a message can be shorter
than its header.
-/

namespace OmniORB

open Library

/-! ### Headers in a sequence of octets -/

lemma octetAt_append {a : List UInt8} (b : List UInt8) {i : ℕ} (h : i < a.length) :
    octetAt (a ++ b) i = octetAt a i :=
  List.getD_append a b 0 i h

/-- A header lies in the first twelve octets. -/
lemma headerSize_append {a : List UInt8} (b : List UInt8) (h : 12 ≤ a.length) :
    headerSize (a ++ b) = headerSize a := by
  unfold headerSize sizeField
  repeat rw [octetAt_append b (by omega)]

lemma hasMagic_append {a : List UInt8} (b : List UInt8) (h : 12 ≤ a.length) :
    hasMagic (a ++ b) = hasMagic a := by
  unfold hasMagic
  rw [List.take_append_of_le_length (by omega)]

/-- The octets begin with a header. -/
def Begins (o : List UInt8) : Prop := 12 ≤ o.length ∧ hasMagic o = true

lemma Begins.append {a : List UInt8} (b : List UInt8) (h : Begins a) : Begins (a ++ b) := by
  refine ⟨?_, ?_⟩
  · rw [List.length_append]
    exact Nat.le_add_right_of_le h.1
  · rw [hasMagic_append b h.1]
    exact h.2

lemma ensureSaneHeader_of_begins {o : List UInt8} (h : Begins o) :
    ensureSaneHeader o = .ok (headerSize o) := by
  rw [ensureSaneHeader, if_pos h.2]

/-- Going from header to header, there is one with `p`. -/
inductive Reaches (p : List UInt8 → Prop) : List UInt8 → Prop
  | here {o : List UInt8} (hbegins : Begins o) (hp : p o) : Reaches p o
  | later {o : List UInt8} (hbegins : Begins o) (hpos : 0 < headerSize o)
      (hle : headerSize o ≤ o.length) (htail : Reaches p (o.drop (headerSize o))) : Reaches p o

/-- A header that the size arithmetic makes a message of no octets. -/
def Stalls (o : List UInt8) : Prop := headerSize o = 0

/-- Octets behind the header with `p` do not matter if they do not matter to `p`. -/
lemma Reaches.append {p : List UInt8 → Prop} {a : List UInt8} (b : List UInt8)
    (hp : ∀ o, Begins o → p o → p (o ++ b)) (h : Reaches p a) : Reaches p (a ++ b) := by
  induction h with
  | here hbegins hpo =>
    exact .here (hbegins.append b) (hp _ hbegins hpo)
  | later hbegins hpos hle htail ih =>
    have hsize := headerSize_append b hbegins.1
    refine .later (hbegins.append b) ?_ ?_ ?_
    · rw [hsize]
      exact hpos
    · rw [hsize, List.length_append]
      exact Nat.le_add_right_of_le hle
    · rw [hsize, List.drop_append_of_le_length hle]
      exact ih

lemma Reaches.mono {p q : List UInt8 → Prop} {o : List UInt8} (hpq : ∀ o, p o → q o)
    (h : Reaches p o) : Reaches q o := by
  induction h with
  | here hbegins hp => exact .here hbegins (hpq _ hp)
  | later hbegins hpos hle htail ih => exact .later hbegins hpos hle ih

lemma Stalls.append {o : List UInt8} (b : List UInt8) (hbegins : Begins o) (h : Stalls o) :
    Stalls (o ++ b) := by
  rw [Stalls, headerSize_append b hbegins.1]
  exact h

/-- The octets are whole messages, one after the other. -/
inductive Framed : List UInt8 → Prop
  | nil : Framed []
  | cons {o : List UInt8} (hbegins : Begins o) (h12 : 12 ≤ headerSize o)
      (hle : headerSize o ≤ o.length) (htail : Framed (o.drop (headerSize o))) : Framed o

lemma Framed.begins {o : List UInt8} (hne : o ≠ []) (h : Framed o) :
    Begins o ∧ 12 ≤ headerSize o ∧ headerSize o ≤ o.length ∧ Framed (o.drop (headerSize o)) := by
  cases h with
  | nil => exact absurd rfl hne
  | cons hbegins h12 hle htail => exact ⟨hbegins, h12, hle, htail⟩

/-- With whole messages pending `r` is a result with `P`, and it runs out of fuel only where a
header stalls the loop that splits a buffer. -/
def Gives {α : Type} (o : List UInt8) (P : α → Prop) : Except Exn α → Prop
  | .ok a => P a
  | .error e => ¬ Framed o ∧ (e = .outOfFuel → Reaches Stalls o)

/-! ### The head list -/

/-- The buffers hold the front part of the octets, cut at the headers' sizes; the last one may hold
less than its message. -/
inductive HeadAt (cfg : Config) : List Buffer → List UInt8 → Prop
  | nil (o : List UInt8) : HeadAt cfg [] o
  | cut (b : Buffer) (o : List UInt8) (hne : b.data ≠ []) (hpre : b.data <+: o)
      (hlt : 12 ≤ b.dataSize → b.dataSize < headerSize o) (hdata : b.dataSize ≤ b.capacity)
      (hcap : 12 ≤ b.capacity ∧ b.capacity ≤ cfg.bufferSize)
      (hfit : headerSize o ≤ b.capacity ∨ b.capacity = cfg.bufferSize) : HeadAt cfg [b] o
  | whole (b : Buffer) (bs : List Buffer) (o : List UInt8) (hbegins : Begins o)
      (hpos : 0 < headerSize o) (hle : headerSize o ≤ o.length)
      (hdata : b.data = o.take (headerSize o))
      (hcap : b.capacity = headerSize o ∧ b.capacity ≤ cfg.bufferSize)
      (htail : HeadAt cfg bs (o.drop (headerSize o))) : HeadAt cfg (b :: bs) o

namespace Strand

/-- The octets that were received early and those that are still to come. -/
def pending (s : Strand) : List UInt8 := s.head.flatMap Buffer.data ++ s.connection.coming

/-- The spare buffers have the usual capacity. -/
def SpareOk (cfg : Config) (s : Strand) : Prop := ∀ c ∈ s.spare, c = cfg.bufferSize

variable {cfg : Config}

lemma takeBuffer_spec {s : Strand} (h : s.SpareOk cfg) :
    (s.takeBuffer cfg).1.data = [] ∧ (s.takeBuffer cfg).1.capacity = cfg.bufferSize ∧
      (s.takeBuffer cfg).2.SpareOk cfg ∧
      (s.takeBuffer cfg).2 = { s with spare := (s.takeBuffer cfg).2.spare } := by
  unfold takeBuffer
  split
  · rename_i c cs hs
    rw [SpareOk, hs] at h
    exact ⟨rfl, h c List.mem_cons_self, fun d hd => h d (List.mem_cons_of_mem c hd), rfl⟩
  · exact ⟨rfl, rfl, h, rfl⟩

lemma SpareOk.releaseInputBuffer {s : Strand} {b : Buffer} (hb : b.capacity ≤ cfg.bufferSize)
    (h : s.SpareOk cfg) : (s.releaseInputBuffer cfg b).SpareOk cfg := by
  unfold Strand.releaseInputBuffer
  split_ifs with hr
  · exact h
  · intro c hc
    rw [List.mem_singleton] at hc
    rw [not_or, not_lt] at hr
    rw [hc]
    exact le_antisymm hb hr.2

/-- Releasing a buffer changes the spare buffers only. -/
lemma releaseInputBuffer_eq (s : Strand) (b : Buffer) :
    s.releaseInputBuffer cfg b = { s with spare := (s.releaseInputBuffer cfg b).spare } := by
  unfold releaseInputBuffer
  split_ifs
  · rfl
  · rfl

/-! ### Splitting -/

/-- A header that makes a message of no octets keeps the loop where it is. -/
lemma splitMessages_of_stalls {rest : List UInt8} (fuel : ℕ) (hbegins : Begins rest)
    (hstalls : Stalls rest) : splitMessages cfg fuel rest = .error .outOfFuel := by
  induction fuel with
  | zero => rfl
  | succ fuel ih =>
    have hne : rest ≠ [] := by
      intro hnil
      rw [hnil] at hbegins
      exact absurd hbegins.1 (by decide)
    have hsplit : splitSize cfg rest = .ok (0, 0) := by
      rw [splitSize, if_pos hbegins.1, ensureSaneHeader_of_begins hbegins, hstalls]
      exact if_pos (Nat.zero_le _)
    rw [splitMessages, hsplit]
    dsimp only
    rw [List.drop_zero, if_neg hne, ih]

/-- The loop cuts what is behind a message at the headers' sizes. -/
lemma splitMessages_gives {fuel : ℕ} {rest : List UInt8} (x : List UInt8)
    (hfuel : rest.length < fuel) (hrest : rest ≠ []) (hle : rest.length ≤ cfg.bufferSize) :
    Gives (rest ++ x)
      (fun bufs => HeadAt cfg bufs (rest ++ x) ∧ bufs.flatMap Buffer.data = rest)
      (splitMessages cfg fuel rest) := by
  have hbuf := cfg.lt_bufferSize
  induction fuel generalizing rest with
  | zero => omega
  | succ fuel ih =>
    have hpos := List.length_pos_iff.mpr hrest
    have hne : rest ++ x ≠ [] := by simp [hrest]
    by_cases h12 : 12 ≤ rest.length
    · by_cases hmagic : hasMagic rest = true
      · have hbegins : Begins rest := ⟨h12, hmagic⟩
        have hsize := headerSize_append x h12
        by_cases hstalls : Stalls rest
        · rw [splitMessages_of_stalls (fuel + 1) hbegins hstalls]
          refine ⟨?_, fun _ => ?_⟩
          · intro hframed
            obtain ⟨-, h, -⟩ := hframed.begins hne
            rw [hsize, hstalls] at h
            exact absurd h (by decide)
          · exact .here (hbegins.append x) (hstalls.append x hbegins)
        · have hn : 0 < headerSize rest := Nat.pos_of_ne_zero hstalls
          rw [splitMessages, splitSize, if_pos h12, ensureSaneHeader_of_begins hbegins]
          dsimp only
          by_cases hfit : headerSize rest ≤ rest.length
          · -- the message ends before the octets do, or with them
            rw [if_pos hfit]
            dsimp only
            have htake : (rest ++ x).take (headerSize (rest ++ x)) =
                rest.take (headerSize rest) := by
              rw [hsize, List.take_append_of_le_length hfit]
            have hdrop : (rest ++ x).drop (headerSize (rest ++ x)) =
                rest.drop (headerSize rest) ++ x := by
              rw [hsize, List.drop_append_of_le_length hfit]
            have hcap := Buffer.capacity_newBuffer cfg hn
            have hwhole : ∀ bs, HeadAt cfg bs (rest.drop (headerSize rest) ++ x) →
                HeadAt cfg ({ Buffer.newBuffer cfg (headerSize rest) with
                  data := rest.take (headerSize rest) } :: bs) (rest ++ x) := by
              intro bs hbs
              refine .whole _ _ _ (hbegins.append x) ?_ ?_ htake.symm ?_ ?_
              · rw [hsize]
                exact hn
              · rw [hsize, List.length_append]
                exact Nat.le_add_right_of_le hfit
              · rw [hsize]
                exact ⟨hcap, hcap.trans_le (hfit.trans hle)⟩
              · rw [hdrop]
                exact hbs
            by_cases hend : rest.drop (headerSize rest) = []
            · rw [if_pos hend]
              refine ⟨hwhole [] (.nil _), ?_⟩
              rw [List.flatMap_singleton]
              exact List.take_of_length_le (List.drop_eq_nil_iff.mp hend)
            · rw [if_neg hend]
              have hlen : (rest.drop (headerSize rest)).length =
                  rest.length - headerSize rest := List.length_drop
              have hrec := ih (by omega) hend (by omega)
              generalize splitMessages cfg fuel (rest.drop (headerSize rest)) = r at hrec
              cases r with
              | error e =>
                obtain ⟨hframed, hreaches⟩ := hrec
                refine ⟨?_, ?_⟩
                · intro h
                  obtain ⟨-, -, -, htail⟩ := h.begins hne
                  rw [hdrop] at htail
                  exact hframed htail
                · intro he
                  refine .later (hbegins.append x) ?_ ?_ ?_
                  · rw [hsize]
                    exact hn
                  · rw [hsize, List.length_append]
                    exact Nat.le_add_right_of_le hfit
                  · rw [hdrop]
                    exact hreaches he
              | ok bufs =>
                obtain ⟨hhead, hdata⟩ := hrec
                refine ⟨hwhole bufs hhead, ?_⟩
                rw [List.flatMap_cons, hdata]
                exact List.take_append_drop (headerSize rest) rest
          · -- the last message has been received in part
            rw [if_neg hfit]
            dsimp only
            rw [if_pos (List.drop_of_length_le le_rfl)]
            refine ⟨?_, by simp⟩
            have hcut : ∀ msz, 0 < msz → rest.length ≤ msz → msz ≤ cfg.bufferSize →
                (headerSize rest ≤ msz ∨ msz = cfg.bufferSize) →
                HeadAt cfg [{ Buffer.newBuffer cfg msz with
                  data := rest.take rest.length }] (rest ++ x) := by
              intro msz h0 hlow hhigh hor
              have hcap := Buffer.capacity_newBuffer cfg h0
              rw [List.take_length]
              refine .cut _ _ hrest (List.prefix_append _ _) ?_ ?_ ?_ ?_
              · intro _
                rw [hsize]
                exact not_le.mp hfit
              · exact hlow.trans_eq hcap.symm
              · exact ⟨(h12.trans hlow).trans_eq hcap.symm, hcap.trans_le hhigh⟩
              · rw [hsize]
                rcases hor with h | h
                · exact .inl (h.trans_eq hcap.symm)
                · exact .inr (hcap.trans h)
            by_cases hbig : cfg.bufferSize < headerSize rest
            · rw [if_pos hbig, if_neg (not_lt.mpr hle)]
              exact hcut _ (by omega) hle le_rfl (.inr rfl)
            · rw [if_neg hbig, if_neg (by omega)]
              exact hcut _ hn (by omega) (by omega) (.inl le_rfl)
      · -- these octets are no message
        rw [splitMessages, splitSize, if_pos h12, ensureSaneHeader, if_neg hmagic]
        refine ⟨?_, fun he => by simp at he⟩
        intro hframed
        obtain ⟨⟨-, h⟩, -⟩ := hframed.begins hne
        rw [hasMagic_append x h12] at h
        exact hmagic h
    · have hsplit : splitSize cfg rest = .ok (0, rest.length) := by
        rw [splitSize, if_neg h12]
      have hcap := Buffer.capacity_newBuffer_zero cfg
      rw [splitMessages, hsplit]
      dsimp only
      rw [if_pos (List.drop_of_length_le le_rfl), List.take_length]
      refine ⟨.cut _ _ hrest (List.prefix_append _ _) ?_ ?_ ?_ (.inr hcap), by simp⟩
      · intro h
        exact absurd h h12
      · exact hle.trans_eq hcap.symm
      · exact ⟨(show 12 ≤ cfg.bufferSize by omega).trans_eq hcap.symm, hcap.le⟩

/-! ### The next message -/

/-- The buffer `b` holds the message that the octets `o` begin with, or the front part of it that
fits. -/
structure Arrived (cfg : Config) (o : List UInt8) (b : Buffer) (t : Strand) : Prop where
  begins : Begins o
  size : b.size = headerSize o
  octets : o = b.data ++ t.pending
  nonempty : b.data ≠ []
  le : b.dataSize ≤ b.size
  capacity : b.dataSize ≤ b.capacity ∧ b.capacity ≤ cfg.bufferSize
  rest : b.dataSize < b.size → b.dataSize = cfg.bufferSize ∧ t.head = []
  head : HeadAt cfg t.head t.pending

/-- With nothing received beyond `buf`. -/
lemma completeMessage_gives {fuel : ℕ} {buf : Buffer} {s : Strand} (hfuel : buf.dataSize < fuel)
    (h12 : 12 ≤ buf.dataSize) (hdata : buf.dataSize ≤ buf.capacity)
    (hcap : buf.capacity ≤ cfg.bufferSize)
    (hfit : headerSize buf.data ≤ buf.capacity ∨ buf.capacity = cfg.bufferSize)
    (hhead : s.head = []) :
    Gives (buf.data ++ s.connection.coming)
      (fun r => Arrived cfg (buf.data ++ s.connection.coming) r.1 r.2 ∧
        r.2 = { s with head := r.2.head, connection := r.2.connection })
      (completeMessage cfg fuel buf s) := by
  have hd : buf.data.length = buf.dataSize := rfl
  have hsize := headerSize_append s.connection.coming h12
  have hne : buf.data ≠ [] := by
    intro hnil
    rw [hnil, List.length_nil] at hd
    omega
  have hne' : buf.data ++ s.connection.coming ≠ [] := by simp [hne]
  by_cases hmagic : hasMagic buf.data = true
  · have hbegins : Begins buf.data := ⟨h12, hmagic⟩
    unfold completeMessage
    rw [ensureSaneHeader_of_begins hbegins]
    dsimp only
    by_cases hless : buf.dataSize < headerSize buf.data
    · rw [if_pos hless]
      cases hrecv : s.connection.recvExactly
          (min (headerSize buf.data) buf.capacity - buf.dataSize) with
      | none =>
        refine ⟨?_, fun he => by simp at he⟩
        intro hframed
        obtain ⟨-, -, hle, -⟩ := hframed.begins hne'
        rw [hsize, List.length_append] at hle
        obtain ⟨c, hsome, -⟩ := Pieces.recvExactly_eq
          (show min (headerSize buf.data) buf.capacity - buf.dataSize ≤
            s.connection.coming.length by omega)
        rw [hrecv] at hsome
        exact absurd hsome (by simp)
      | some r =>
        obtain ⟨y, c⟩ := r
        obtain ⟨hy, hcoming⟩ := Pieces.recvExactly_spec hrecv
        have hlen : (buf.data ++ y).length = min (headerSize buf.data) buf.capacity := by
          rw [List.length_append]
          omega
        refine ⟨⟨hbegins.append _, hsize.symm, ?_, ?_, ?_, ?_, ?_, ?_⟩, rfl⟩
        · simp only [pending, hhead, List.flatMap_nil, List.nil_append, List.append_assoc, hcoming]
        · simp [hne]
        · rw [Buffer.dataSize, hlen]
          exact Nat.min_le_left _ _
        · rw [Buffer.dataSize, hlen]
          exact ⟨Nat.min_le_right _ _, hcap⟩
        · rw [Buffer.dataSize, hlen]
          dsimp only
          intro hlt
          refine ⟨?_, hhead⟩
          rcases hfit with h | h
          · rw [Nat.min_eq_left h] at hlt
            exact absurd hlt (lt_irrefl _)
          · rw [← h]
            exact Nat.min_eq_right (by omega)
        · rw [show (_ : Strand).head = [] from hhead]
          exact .nil _
    · rw [if_neg hless]
      by_cases hmore : headerSize buf.data < buf.dataSize
      · rw [if_pos hmore]
        have hrest : buf.data.drop (headerSize buf.data) ≠ [] := by
          rw [ne_eq, List.drop_eq_nil_iff]
          omega
        have hlen : (buf.data.drop (headerSize buf.data)).length =
            buf.dataSize - headerSize buf.data := List.length_drop
        by_cases hstalls : Stalls buf.data
        · rw [show headerSize buf.data = 0 from hstalls, List.drop_zero,
            splitMessages_of_stalls fuel hbegins hstalls]
          refine ⟨?_, fun _ => .here (hbegins.append _) (hstalls.append _ hbegins)⟩
          intro hframed
          obtain ⟨-, h, -⟩ := hframed.begins hne'
          rw [hsize, hstalls] at h
          exact absurd h (by decide)
        · have hn : 0 < headerSize buf.data := Nat.pos_of_ne_zero hstalls
          have hsplit := @splitMessages_gives cfg fuel _ s.connection.coming
            (by omega) hrest (by omega)
          have hdrop : (buf.data ++ s.connection.coming).drop
              (headerSize (buf.data ++ s.connection.coming)) =
                buf.data.drop (headerSize buf.data) ++ s.connection.coming := by
            rw [hsize, List.drop_append_of_le_length (by omega)]
          generalize splitMessages cfg fuel (buf.data.drop (headerSize buf.data)) = r at hsplit
          cases r with
          | error e =>
            obtain ⟨hframed, hreaches⟩ := hsplit
            refine ⟨?_, ?_⟩
            · intro h
              obtain ⟨-, -, -, htail⟩ := h.begins hne'
              rw [hdrop] at htail
              exact hframed htail
            · intro he
              refine .later (hbegins.append _) ?_ ?_ ?_
              · rw [hsize]
                exact hn
              · rw [hsize, List.length_append]
                omega
              · rw [hdrop]
                exact hreaches he
          | ok bufs =>
            obtain ⟨hhead', hflat⟩ := hsplit
            have hpending : pending { s with head := s.head ++ bufs } =
                buf.data.drop (headerSize buf.data) ++ s.connection.coming := by
              simp only [pending, hhead, List.nil_append, hflat]
            have hdsize : (buf.data.take (headerSize buf.data)).length = headerSize buf.data := by
              rw [List.length_take]
              omega
            refine ⟨⟨hbegins.append _, hsize.symm, ?_, ?_, ?_, ?_, ?_, ?_⟩, rfl⟩
            · rw [hpending, ← List.append_assoc, List.take_append_drop]
            · intro hnil
              dsimp only at hnil
              rw [hnil, List.length_nil] at hdsize
              omega
            · exact hdsize.le
            · rw [Buffer.dataSize, hdsize]
              dsimp only
              omega
            · rw [Buffer.dataSize, hdsize]
              intro hlt
              exact absurd hlt (lt_irrefl _)
            · rw [hpending, show (_ : Strand).head = bufs by simp [hhead]]
              exact hhead'
      · rw [if_neg hmore]
        refine ⟨⟨hbegins.append _, hsize.symm, ?_, hne, Nat.le_of_not_lt hmore, ⟨hdata, hcap⟩, ?_,
          ?_⟩, rfl⟩
        · simp only [pending, hhead, List.flatMap_nil, List.nil_append]
        · intro hlt
          exact absurd hlt hless
        · rw [hhead]
          exact .nil _
  · unfold completeMessage
    rw [ensureSaneHeader, if_neg hmagic]
    refine ⟨?_, fun he => by simp at he⟩
    intro hframed
    obtain ⟨⟨-, h⟩, -⟩ := hframed.begins hne'
    rw [hasMagic_append _ h12] at h
    exact hmagic h

/-- What `inputMessage` does with the buffer that it has chosen. -/
def startMessage (cfg : Config) (fuel : ℕ) (buf : Buffer) (s : Strand) :
    Except Exn (Buffer × Strand) :=
  match Pieces.recvAtLeast 12 buf.capacity buf.data s.connection with
  | none => .error (.commFailure "Error in network receive (start of message)")
  | some (data, c) => completeMessage cfg fuel { buf with data } { s with connection := c }

lemma inputMessage_of_alive {fuel : ℕ} {s : Strand} (halive : s.dying = false) :
    inputMessage cfg fuel s = startMessage cfg fuel (s.nextBuffer cfg).1 (s.nextBuffer cfg).2 := by
  rw [inputMessage, if_neg (by simp [halive])]
  rfl

/-- What a buffer of which part is already there leads to. -/
lemma startMessage_gives {fuel : ℕ} {s t : Strand} {buf : Buffer} {o : List UInt8}
    (hfuel : cfg.bufferSize < fuel) (hpending : o ≠ []) (hconn : t.connection = s.connection)
    (hthead : t.head = []) (htspare : t.SpareOk cfg) (ht : t = { s with head := [], spare := t.spare })
    (hpre : buf.data ++ s.connection.coming = o) (hle : buf.dataSize ≤ buf.capacity)
    (h12 : 12 ≤ buf.capacity) (hcap : buf.capacity ≤ cfg.bufferSize)
    (hfit : headerSize o ≤ buf.capacity ∨ buf.capacity = cfg.bufferSize) :
    Gives o
      (fun r => Arrived cfg o r.1 r.2 ∧ r.2.SpareOk cfg ∧
        r.2 = { s with head := r.2.head, spare := r.2.spare, connection := r.2.connection })
      (startMessage cfg fuel buf t) := by
  unfold startMessage
  rw [hconn]
  cases hrecv : Pieces.recvAtLeast 12 buf.capacity buf.data s.connection with
  | none =>
    refine ⟨?_, fun he => by simp at he⟩
    intro hframed
    obtain ⟨hbegins, -⟩ := hframed.begins hpending
    obtain ⟨x, c, hsome⟩ := Pieces.exists_recvAtLeast h12 (hpre ▸ hbegins.1)
    rw [hrecv] at hsome
    exact absurd hsome (by simp)
  | some r =>
    obtain ⟨x, c⟩ := r
    obtain ⟨hx12, hxle, -, hcoming⟩ := Pieces.recvAtLeast_spec hle hrecv
    have hxo : x ++ c.coming = o := by
      rw [← hcoming]
      exact hpre
    have hxfit : headerSize x ≤ buf.capacity ∨ buf.capacity = cfg.bufferSize := by
      rw [← hxo, headerSize_append _ hx12] at hfit
      exact hfit
    have hcomplete := @completeMessage_gives cfg fuel { buf with data := x }
      { t with connection := c } (lt_of_le_of_lt (hxle.trans hcap) hfuel) hx12 hxle hcap hxfit hthead
    dsimp only at hcomplete ⊢
    rw [hxo] at hcomplete
    generalize completeMessage cfg fuel { buf with data := x } { t with connection := c } = r
      at hcomplete
    cases r with
    | error e => exact hcomplete
    | ok r =>
      obtain ⟨harrived, hr⟩ := hcomplete
      refine ⟨harrived, ?_, ?_⟩
      · rw [hr]
        exact htspare
      · rw [hr, ht]

/-- Between messages `inputMessage` gives what the pending octets begin with. -/
theorem inputMessage_gives {fuel : ℕ} {s : Strand} (hfuel : cfg.bufferSize < fuel)
    (hhead : HeadAt cfg s.head s.pending) (hspare : s.SpareOk cfg) (hpending : s.pending ≠ [])
    (halive : s.dying = false) :
    Gives s.pending
      (fun r => Arrived cfg s.pending r.1 r.2 ∧ r.2.SpareOk cfg ∧
        r.2 = { s with head := r.2.head, spare := r.2.spare, connection := r.2.connection })
      (inputMessage cfg fuel s) := by
  have hbuf := cfg.lt_bufferSize
  rw [inputMessage_of_alive halive, nextBuffer]
  generalize ho : s.pending = o at hhead hpending ⊢
  rw [pending] at ho
  generalize hs : s.head = head at hhead
  rw [hs] at ho
  cases hhead with
  | nil =>
    obtain ⟨hdata, hcap, htspare, ht⟩ := takeBuffer_spec hspare
    generalize s.takeBuffer cfg = p at hdata hcap htspare ht
    obtain ⟨buf, t⟩ := p
    dsimp only at hdata hcap htspare ht ⊢
    refine startMessage_gives hfuel hpending ?_ ?_ htspare ?_ ?_ ?_ ?_ hcap.le (.inr hcap)
    · rw [ht]
    · rw [ht]
      exact hs
    · rw [ht, hs]
    · rw [hdata]
      exact ho
    · rw [Buffer.dataSize, hdata]
      exact Nat.zero_le _
    · rw [hcap]
      omega
  | cut b o hne hpre hlt hdata hcap hfit =>
    refine startMessage_gives hfuel hpending rfl rfl hspare rfl ?_ hdata hcap.1 hcap.2 hfit
    simp only [List.flatMap_cons, List.flatMap_nil, List.append_nil] at ho
    exact ho
  | whole b bs o hbegins hpos hle hdata hcap htail =>
    -- the whole message was received before
    have hlen : b.data.length = headerSize o := by
      rw [hdata, List.length_take]
      omega
    rw [List.flatMap_cons, List.append_assoc] at ho
    have htailo : bs.flatMap Buffer.data ++ s.connection.coming = o.drop (headerSize o) := by
      have := congrArg (List.drop (headerSize o)) ho
      rwa [← hlen, List.drop_left, hlen] at this
    dsimp only
    by_cases h12 : 12 ≤ b.data.length
    · rw [startMessage, Pieces.recvAtLeast, if_pos h12]
      have hbegins' : Begins b.data := by
        refine ⟨h12, ?_⟩
        have hmagic := hbegins.2
        rw [← ho, hasMagic_append _ h12] at hmagic
        exact hmagic
      have hsize : headerSize b.data = headerSize o := by
        conv_rhs => rw [← ho]
        exact (headerSize_append _ h12).symm
      dsimp only [completeMessage]
      rw [ensureSaneHeader_of_begins hbegins', hsize]
      dsimp only
      rw [Buffer.dataSize, hlen, if_neg (lt_irrefl _), if_neg (lt_irrefl _)]
      refine ⟨⟨hbegins, rfl, ?_, ?_, hlen.le, ?_, ?_, ?_⟩, hspare, rfl⟩
      · rw [pending]
        exact ho.symm
      · intro hnil
        rw [show b.data = [] from hnil, List.length_nil] at hlen
        omega
      · rw [Buffer.dataSize, hlen]
        exact ⟨hcap.1.ge, hcap.2⟩
      · intro hlt
        exact absurd hlt (by simp [Buffer.dataSize, hlen])
      · rw [pending, htailo]
        exact htail
    · -- a message shorter than its header; its buffer has no room for more
      have hnone : Pieces.recvAtLeast 12 b.capacity b.data s.connection = none := by
        rw [Pieces.recvAtLeast, if_neg h12, hcap.1, hlen, Nat.sub_self]
        split
        · rfl
        · rename_i y c hrecv
          rw [Pieces.recv_zero] at hrecv
          exact absurd hrecv (by simp)
      rw [startMessage, hnone]
      refine ⟨?_, fun he => by simp at he⟩
      intro hframed
      obtain ⟨-, h, -⟩ := hframed.begins hpending
      omega

/-- Nothing comes of a strand without pending octets. -/
lemma inputMessage_of_pending_nil {fuel : ℕ} {s : Strand} (hspare : s.SpareOk cfg)
    (hhead : HeadAt cfg s.head s.pending) (hpending : s.pending = []) :
    ∃ message, inputMessage cfg fuel s = .error (.commFailure message) := by
  have hbuf := cfg.lt_bufferSize
  rw [pending, List.append_eq_nil_iff] at hpending
  have hnil : s.head = [] := by
    generalize hs : s.head = head at hhead hpending
    generalize s.pending = o at hhead
    cases hhead with
    | nil => rfl
    | cut b o hne => simp [hne] at hpending
    | whole b bs o hbegins hpos hle hdata hcap htail =>
      have hlen : b.data.length = headerSize o := by
        rw [hdata, List.length_take]
        omega
      have hempty : b.data = [] := (List.append_eq_nil_iff.mp hpending.1).1
      rw [hempty, List.length_nil] at hlen
      omega
  rw [inputMessage, nextBuffer, hnil]
  split_ifs
  · exact ⟨_, rfl⟩
  · obtain ⟨hdata, hcap, -, ht⟩ := takeBuffer_spec hspare
    generalize s.takeBuffer cfg = p at hdata hcap ht
    obtain ⟨buf, t⟩ := p
    dsimp only at hdata hcap ht ⊢
    have hnone : Pieces.recvAtLeast 12 buf.capacity buf.data t.connection = none := by
      rw [ht, hdata, Pieces.recvAtLeast, if_neg (by simp)]
      split
      · rfl
      · rename_i y c hrecv
        rw [Pieces.recv_of_coming_nil hpending.2] at hrecv
        exact absurd hrecv (by simp)
    rw [hnone]
    exact ⟨_, rfl⟩

/-! ### The rest of a message -/

lemma inputChunk_spec {n : ℕ} {s t : Strand} {b : Buffer} (hspare : s.SpareOk cfg)
    (h : inputChunk cfg n s = .ok (b, t)) :
    s.head = [] ∧ b.dataSize = min n cfg.bufferSize ∧ b.capacity = cfg.bufferSize ∧
      s.connection.coming = b.data ++ t.connection.coming ∧ t.SpareOk cfg ∧
      t = { s with spare := t.spare, connection := t.connection } := by
  rw [inputChunk] at h
  split_ifs at h with hhead
  obtain ⟨hdata, hcap, htspare, ht⟩ := takeBuffer_spec hspare
  generalize s.takeBuffer cfg = p at hdata hcap htspare ht h
  obtain ⟨buf, u⟩ := p
  dsimp only at hdata hcap htspare ht h
  cases hrecv : u.connection.recvExactly (min n buf.capacity) with
  | none =>
    rw [hrecv] at h
    exact absurd h (by simp)
  | some r =>
    obtain ⟨x, c⟩ := r
    rw [hrecv] at h
    simp only [Except.ok.injEq, Prod.mk.injEq] at h
    obtain ⟨rfl, rfl⟩ := h
    obtain ⟨hlen, hcoming⟩ := Pieces.recvExactly_spec hrecv
    rw [ne_eq, not_not] at hhead
    refine ⟨hhead, ?_, hcap, ?_, htspare, ?_⟩
    · rw [← hcap]
      exact hlen
    · rw [← hcoming, ht]
    · rw [ht]

lemma inputChunk_error {n : ℕ} {s : Strand} {e : Exn} (h : inputChunk cfg n s = .error e) :
    ∃ message, e = .commFailure message := by
  rw [inputChunk] at h
  split_ifs at h
  · exact ⟨_, (Except.error.inj h).symm⟩
  · generalize s.takeBuffer cfg = p at h
    obtain ⟨buf, u⟩ := p
    dsimp only at h
    cases hrecv : u.connection.recvExactly (min n buf.capacity) with
    | none =>
      rw [hrecv] at h
      exact ⟨_, (Except.error.inj h).symm⟩
    | some r =>
      rw [hrecv] at h
      exact absurd h (by simp)

lemma inputCopyChunk_spec {n : ℕ} {s t : Strand} {x : List UInt8}
    (h : inputCopyChunk n s = .ok (x, t)) :
    s.head = [] ∧ x.length = n ∧ s.connection.coming = x ++ t.connection.coming ∧
      t = { s with connection := t.connection } := by
  rw [inputCopyChunk] at h
  split_ifs at h with hhead
  rw [ne_eq, not_not] at hhead
  cases hrecv : s.connection.recvExactly n with
  | none =>
    rw [hrecv] at h
    exact absurd h (by simp)
  | some r =>
    obtain ⟨y, c⟩ := r
    rw [hrecv] at h
    simp only [Except.ok.injEq, Prod.mk.injEq] at h
    obtain ⟨rfl, rfl⟩ := h
    obtain ⟨hlen, hcoming⟩ := Pieces.recvExactly_spec hrecv
    exact ⟨hhead, hlen, hcoming, rfl⟩

lemma inputCopyChunk_error {n : ℕ} {s : Strand} {e : Exn} (h : inputCopyChunk n s = .error e) :
    ∃ message, e = .commFailure message := by
  rw [inputCopyChunk] at h
  split_ifs at h
  · exact ⟨_, (Except.error.inj h).symm⟩
  · cases hrecv : s.connection.recvExactly n with
    | none =>
      rw [hrecv] at h
      exact ⟨_, (Except.error.inj h).symm⟩
    | some r =>
      rw [hrecv] at h
      exact absurd h (by simp)

lemma splitMessages_error {fuel : ℕ} {rest : List UInt8} {e : Exn}
    (h : splitMessages cfg fuel rest = .error e) :
    e = .outOfFuel ∨ ∃ message, e = .commFailure message := by
  induction fuel generalizing rest with
  | zero => exact .inl (Except.error.inj h).symm
  | succ fuel ih =>
    rw [splitMessages] at h
    cases hsplit : splitSize cfg rest with
    | error e' =>
      rw [hsplit] at h
      have he : e' = e := Except.error.inj h
      subst he
      by_cases h12 : 12 ≤ rest.length
      · by_cases hmagic : hasMagic rest = true
        · rw [splitSize, if_pos h12, ensureSaneHeader, if_pos hmagic] at hsplit
          dsimp only at hsplit
          split_ifs at hsplit
        · rw [splitSize, if_pos h12, ensureSaneHeader, if_neg hmagic] at hsplit
          exact .inr ⟨_, (Except.error.inj hsplit).symm⟩
      · rw [splitSize, if_neg h12] at hsplit
        exact absurd hsplit (by simp)
    | ok p =>
      obtain ⟨msz, sz⟩ := p
      rw [hsplit] at h
      dsimp only at h
      split_ifs at h
      cases hrec : splitMessages cfg fuel (rest.drop sz) with
      | error e' =>
        rw [hrec] at h
        have he : e' = e := Except.error.inj h
        subst he
        exact ih hrec
      | ok bufs =>
        rw [hrec] at h
        exact absurd h (by simp)

lemma inputMessage_error {fuel : ℕ} {s : Strand} {e : Exn}
    (h : inputMessage cfg fuel s = .error e) :
    e = .outOfFuel ∨ ∃ message, e = .commFailure message := by
  rw [inputMessage] at h
  split_ifs at h
  · exact .inr ⟨_, (Except.error.inj h).symm⟩
  · generalize s.nextBuffer cfg = p at h
    obtain ⟨buf, u⟩ := p
    dsimp only at h
    cases hrecv : Pieces.recvAtLeast 12 buf.capacity buf.data u.connection with
    | none =>
      rw [hrecv] at h
      exact .inr ⟨_, (Except.error.inj h).symm⟩
    | some r =>
      obtain ⟨data, c⟩ := r
      rw [hrecv] at h
      dsimp only [completeMessage, ensureSaneHeader] at h
      by_cases hmagic : hasMagic data = true
      · rw [if_pos hmagic] at h
        dsimp only at h
        split_ifs at h
        · cases hexact : Pieces.recvExactly
              (min (headerSize data) buf.capacity - Buffer.dataSize { buf with data }) c with
          | none =>
            rw [hexact] at h
            exact .inr ⟨_, (Except.error.inj h).symm⟩
          | some r =>
            rw [hexact] at h
            exact absurd h (by simp)
        · cases hsplit : splitMessages cfg fuel (data.drop (headerSize data)) with
          | error e' =>
            rw [hsplit] at h
            have he : e' = e := Except.error.inj h
            subst he
            exact splitMessages_error hsplit
          | ok bufs =>
            rw [hsplit] at h
            exact absurd h (by simp)
      · rw [if_neg hmagic] at h
        exact .inr ⟨_, (Except.error.inj h).symm⟩

end Strand

end OmniORB
