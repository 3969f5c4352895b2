import OmniORB.Giop.Reassembly

/-!
# Reading the body of a message

What the unmarshalling operations give: the next octets of the body, wherever the fragments and the
buffers end, and the position behind them.
-/

namespace OmniORB

open Library M

variable {env : Env} {g : Ref} {requestId : ℕ} {rest : List Message} {s t : Sys}
variable {E : Exn → Sys → Prop} {pos : ℕ} {cur x o : List UInt8} {ms : List Message}

/-! ### Octets between the markers -/

lemma Bodies.of_false {e : Bool} (he : e = false) (h : Bodies requestId rest e o ms) : o = [] := by
  cases h with
  | nil => rfl
  | cons => cases he

/-- The octets that were received are in the buffer. -/
lemma Env.octets_eq {b : Buffer} {i n : ℕ} (h : i + n ≤ b.data.length) :
    env.octets b i n = (b.data.drop i).take n := by
  refine List.ext_getElem ?_ fun j h₁ h₂ => ?_
  · rw [Env.octets, List.length_map, List.length_range, List.length_take, List.length_drop]
    omega
  · rw [Env.octets, List.length_map, List.length_range] at h₁
    rw [List.getElem_take, List.getElem_drop]
    simp only [Env.octets, List.getElem_map, List.getElem_range, Env.octet]
    rw [dif_pos (by omega)]

/-- A front part of given length, of one list written in two ways. -/
lemma append_split {a b c d : List UInt8} {k : ℕ} (h : a ++ b = c ++ d) (hk : a.length = k)
    (hle : k ≤ c.length) : c.take k = a ∧ b = c.drop k ++ d := by
  have heq : a ++ b = c.take k ++ (c.drop k ++ d) := by
    rw [← List.append_assoc, List.take_append_drop]
    exact h
  obtain ⟨hfront, hback⟩ := List.append_inj heq (by rw [List.length_take]; omega)
  exact ⟨hfront.symm, hback⟩

namespace Window

/-- Those between the markers can be read. -/
lemma octets (h : Window env g requestId rest pos cur x o ms s) {i n : ℕ}
    (hle : i + n ≤ cur.length) :
    env.octets (s.call g).buffer ((s.call g).inbMkr + i) n = (cur.drop i).take n := by
  by_cases hn : n = 0
  · rw [hn]
    rfl
  rcases h.data with hnil | hdata
  · rw [hnil, List.length_nil] at hle
    omega
  · have hlen := congrArg List.length hdata
    rw [List.length_drop] at hlen
    rw [Env.octets_eq (by omega), ← List.drop_drop, hdata]

/-- The first marker moves. -/
lemma move (h : Window env g requestId rest pos cur x o ms s) {k : ℕ} (hk : k ≤ cur.length) :
    Window env g requestId rest (pos + k) (cur.drop k) x o ms
      (s.setCall g { s.call g with inbMkr := (s.call g).inbMkr + k }) := by
  have hmarks := h.marks
  have hmod := h.mod
  have hchunked := h.chunked
  have hlen : (cur.drop k).length = cur.length - k := List.length_drop
  have hpos : pos + k + (cur.drop k).length = pos + cur.length := by omega
  constructor
  case marks =>
    rw [Sys.call_setCall_self]
    dsimp only
    omega
  case end_lt =>
    rw [Sys.call_setCall_self]
    exact h.end_lt
  case data =>
    rw [Sys.call_setCall_self]
    rcases h.data with hnil | hdata
    · left
      rw [hnil, List.drop_nil]
    · right
      rw [← hdata, List.drop_drop]
      rfl
  case toCome =>
    rw [Sys.call_setCall_self]
    exact h.toCome
  case bodies =>
    rw [Sys.call_setCall_self]
    exact h.bodies
  case size =>
    rw [Sys.call_setCall_self]
    change (s.call g).inputMessageSize = _
    rw [h.size]
    omega
  case mod =>
    rw [Sys.call_setCall_self]
    dsimp only
    omega
  case chunked =>
    rw [hpos]
    exact h.chunked
  case fragmented =>
    rw [Sys.call_setCall_self, hpos]
    exact h.fragmented
  case input =>
    rw [Sys.call_setCall_self]
    exact h.input
  case capacity =>
    rw [Sys.call_setCall_self]
    exact h.capacity
  case sameOrder =>
    rw [Sys.call_setCall_self]
    exact h.sameOrder
  case strand => exact h.strand
  case finds =>
    refine h.finds.of_touches (.setCall s g _) ?_ ?_ ?_ ?_ <;> rw [Sys.call_setCall_self]

/-- The padding in front of the next item. -/
lemma alignTo_mkr (h : Window env g requestId rest pos cur x o ms s) {align : Alignment} {pad : ℕ}
    (hpad : pos + pad = alignTo pos align.size) :
    alignTo (s.call g).inbMkr align.size = (s.call g).inbMkr + pad := by
  have hcongr := alignTo_sub_congr align h.mod
  have hle := le_alignTo (s.call g).inbMkr align.size_pos
  omega

/-- A buffer behind which more of the message follows ends on a multiple of eight octets. -/
lemma more_dvd (h : Window env g requestId rest pos cur x o ms s)
    (hmore : x ≠ [] ∨ (s.call g).inputExpectAnotherFragment = true) : 8 ∣ (s.call g).inbEnd := by
  have hmarks := h.marks
  have hmod := h.mod
  have hdvd : 8 ∣ pos + cur.length := by
    by_cases hx : x = []
    · have hfrag := h.fragmented (hmore.resolve_left (not_not.mpr hx))
      rw [hx] at hfrag
      exact hfrag
    · exact h.chunked hx
  omega

/-- Without any more of it the buffer holds all that there is. -/
lemma none_more (h : Window env g requestId rest pos cur x o ms s)
    (hmore : ¬(x ≠ [] ∨ (s.call g).inputExpectAnotherFragment = true)) : x = [] ∧ o = [] := by
  rw [not_or, not_not, Bool.not_eq_true] at hmore
  exact ⟨hmore.1, h.bodies.of_false hmore.2⟩

/-- Padding does not reach beyond the buffer. -/
lemma pad_le (h : Window env g requestId rest pos cur x o ms s) {align : Alignment} {pad : ℕ}
    (hpad : pos + pad = alignTo pos align.size) (hroom : pad ≤ cur.length + x.length + o.length) :
    pad ≤ cur.length := by
  by_cases hmore : x ≠ [] ∨ (s.call g).inputExpectAnotherFragment = true
  · have hmarks := h.marks
    have hle := alignTo_le_end align (show (s.call g).inbMkr ≤ (s.call g).inbEnd by omega)
      (h.more_dvd hmore)
    rw [h.alignTo_mkr hpad] at hle
    omega
  · obtain ⟨hx, ho⟩ := h.none_more hmore
    rw [hx, ho] at hroom
    exact hroom

/-- An item that does not fit into the buffer begins behind it. -/
lemma pad_eq (h : Window env g requestId rest pos cur x o ms s) {align : Alignment} {pad : ℕ}
    (hpad : pos + pad = alignTo pos align.size)
    (hroom : pad + align.size ≤ cur.length + x.length + o.length)
    (hfit : cur.length < pad + align.size) :
    (x ≠ [] ∨ (s.call g).inputExpectAnotherFragment = true) ∧ cur.length = pad := by
  have hle := h.pad_le hpad (by omega)
  have hmore : x ≠ [] ∨ (s.call g).inputExpectAnotherFragment = true := by
    by_contra hnone
    obtain ⟨hx, ho⟩ := h.none_more hnone
    rw [hx, ho] at hroom
    exact absurd hfit (not_lt.mpr hroom)
  refine ⟨hmore, ?_⟩
  have hmarks := h.marks
  have hend : align.size ∣ (s.call g).inbEnd :=
    Dvd.dvd.trans (by cases align <;> decide) (h.more_dvd hmore)
  have hstart : align.size ∣ (s.call g).inbMkr + pad := by
    rw [← h.alignTo_mkr hpad]
    exact dvd_alignTo _ _
  have hdiff : align.size ∣ cur.length - pad := by
    have := Nat.dvd_sub hend hstart
    rwa [← hmarks, Nat.add_sub_add_left] at this
  have hzero := Nat.eq_zero_of_dvd_of_lt hdiff (by omega)
  omega

end Window

/-! ### Primitive types -/

section

variable {n : ℕ} (hbuf : env.cfg.bufferSize < env.fuel) (hid : requestId < 2 ^ 32)
  (hlt : n < 2 ^ 64)

include hbuf hid hlt

/-- Fetch what is needed of the next item: nothing, or what is behind the padding. -/
lemma does_getInputData {align : Alignment} {pad fuel : ℕ}
    (hn : pos + cur.length + x.length + o.length = n)
    (hpad : pos + pad = alignTo pos align.size)
    (hroom : pad + align.size ≤ cur.length + x.length + o.length) (hfuel : ms.length < fuel)
    (h : Window env g requestId rest pos cur x o ms s) :
    Does s (getInputData env g align align.size fuel)
      (fun _ t => pad + align.size ≤ cur.length ∧ t = s ∨
        cur.length = pad ∧ ∃ cur' x' o' ms', x ++ o = cur' ++ x' ++ o' ∧ ms'.length ≤ ms.length ∧
          align.size ≤ cur'.length ∧ 8 ∣ (t.call g).inbMkr ∧
          Window env g requestId rest (pos + pad) cur' x' o' ms' t)
      (fun e _ => LimitExceeded env n e) := by
  have hsize := align.size_pos
  induction fuel generalizing s pos pad cur x o ms with
  | zero => omega
  | succ fuel ih =>
    have hmarks := h.marks
    rw [getInputData]
    refine agree_getCall g ?_
    dsimp only
    rw [h.alignTo_mkr hpad]
    by_cases hfit : pad + align.size ≤ cur.length
    · rw [if_pos (by omega)]
      exact .of_pure (.inl ⟨hfit, rfl⟩)
    rw [if_neg (by omega)]
    obtain ⟨hmore, hcur⟩ := h.pad_eq hpad hroom (not_le.mp hfit)
    have hextra : (s.call g).inbMkr + pad + align.size - (s.call g).inbEnd = align.size := by omega
    rw [hextra, if_neg (by simp), h.toCome]
    have henough : ¬(x.length < align.size ∧ (!(s.call g).inputExpectAnotherFragment) = true) := by
      rintro ⟨hfew, hlast⟩
      rw [Bool.not_eq_true'] at hlast
      rw [h.bodies.of_false hlast] at hroom
      simp only [List.length_nil] at hroom
      omega
    rw [if_neg henough]
    by_cases hx : x = []
    · -- the item is in the next fragment
      subst hx
      have hexpect := hmore.resolve_left (not_not.mpr rfl)
      rw [if_pos List.length_nil]
      refine .bind (does_nextFragment hbuf hid (n := n) (by simpa using hn) hlt hexpect h) ?_
      rintro - t ⟨cur', x', o', ms', hoct, hms, -, hmkr, ht⟩
      have hlen := congrArg List.length hoct
      rw [List.length_append, List.length_append] at hlen
      have halign : pos + cur.length + 0 = alignTo (pos + cur.length) align.size := by
        rw [hcur, hpad, alignTo_idem _ hsize]
        omega
      simp only [List.length_nil] at hn hroom
      refine (ih (by omega) halign (by omega) (by omega) ht).mono ?_ fun _ _ he => he
      rintro - u (⟨hfits, rfl⟩ | ⟨hcur', cur₂, x₂, o₂, ms₂, hoct₂, hms₂, hfits, hdvd, hu⟩)
      · refine .inr ⟨hcur, cur', x', o', ms', hoct, hms.le, by omega, ?_, ?_⟩
        · rw [hmkr]
          decide
        · rw [hcur] at ht
          exact ht
      · refine .inr ⟨hcur, cur₂, x₂, o₂, ms₂, ?_, by omega, hfits, hdvd, ?_⟩
        · rw [List.nil_append, hoct, List.length_eq_zero_iff.mp hcur', List.nil_append, hoct₂]
        · rw [hcur] at hu
          exact hu
    · -- it is in the current one
      have hxpos := List.length_pos_iff.mpr hx
      have hroomx : align.size ≤ min x.length env.cfg.bufferSize := by
        have hcfg := env.cfg.lt_bufferSize
        have hle8 : align.size ≤ 8 := by cases align <;> decide
        have hchunk := h.chunked hx
        by_cases hexpect : (s.call g).inputExpectAnotherFragment = true
        · have hfrag := h.fragmented hexpect
          omega
        · rw [h.bodies.of_false (Bool.not_eq_true _ ▸ hexpect)] at hroom
          simp only [List.length_nil] at hroom
          omega
      rw [if_neg (by omega)]
      refine .bind (does_release h) ?_
      rintro - t ⟨ht, -⟩
      refine (does_nextChunk hx (by omega) ht).mono ?_ fun _ _ he => he
      rintro - u ⟨cur', x', hoct, hlen, hmkr, hu⟩
      refine .inr ⟨hcur, cur', x', o, ms, ?_, le_rfl, by omega, ?_, ?_⟩
      · rw [hoct]
      · rw [hmkr]
        decide
      · rw [hcur] at hu
        exact hu

omit hbuf hid hlt in
/-- An item between the markers is taken. -/
lemma does_unmarshalFitting {align : Alignment} {pad : ℕ} (fuel : ℕ)
    (hpad : pos + pad = alignTo pos align.size) (hfit : pad + align.size ≤ cur.length)
    (h : Window env g requestId rest pos cur x o ms s) :
    Does s (unmarshalPrimitive env g align (fuel + 1))
      (fun v t => v = (cur.drop pad).take align.size ∧
        Window env g requestId rest (pos + (pad + align.size)) (cur.drop (pad + align.size)) x o ms t)
      E := by
  have hmarks := h.marks
  rw [unmarshalPrimitive]
  refine agree_getCall g ?_
  dsimp only
  rw [h.alignTo_mkr hpad, if_pos (by omega)]
  refine agree_modifyCall g rfl (.of_pure ⟨h.octets hfit, ?_⟩)
  rw [Nat.add_assoc]
  exact h.move hfit

/-- A primitive type is read. -/
lemma does_unmarshalPrimitive {align : Alignment} {pad b todo : List UInt8} {fuel : ℕ}
    (hfuel : 2 ≤ fuel) (hn : pos + (pad ++ b ++ todo).length = n)
    (hpad : pos + pad.length = alignTo pos align.size) (hb : b.length = align.size)
    (h : At env g requestId rest pos (pad ++ b ++ todo) s) :
    Does s (unmarshalPrimitive env g align fuel)
      (fun v t => v = b ∧ At env g requestId rest (pos + (pad ++ b).length) todo t)
      (fun e _ => LimitExceeded env n e) := by
  obtain ⟨cur, x, o, ms, hoct, henough, hw⟩ := h
  have hlen := congrArg List.length hoct
  simp only [List.length_append] at hlen hn henough
  obtain ⟨fuel, rfl⟩ : ∃ k, fuel = k + 2 := ⟨fuel - 2, by omega⟩
  rw [List.append_assoc cur] at hoct
  by_cases hfit : pad.length + align.size ≤ cur.length
  · refine (does_unmarshalFitting _ hpad hfit hw).mono ?_ fun _ _ he => he
    rintro v t ⟨rfl, ht⟩
    obtain ⟨hfront, hback⟩ := append_split (k := pad.length + align.size) hoct
      (by rw [List.length_append, hb]) hfit
    refine ⟨?_, cur.drop (pad.length + align.size), x, o, ms, ?_, by omega, ?_⟩
    · have hdrop := congrArg (List.drop pad.length) hfront
      rw [List.drop_take, List.drop_left, Nat.add_sub_cancel_left] at hdrop
      exact hdrop
    · rw [hback, List.append_assoc]
    · rw [List.length_append, hb]
      exact ht
  · have hmarks := hw.marks
    rw [unmarshalPrimitive]
    refine agree_getCall g ?_
    dsimp only
    rw [hw.alignTo_mkr hpad, if_neg (by omega)]
    refine .bind (does_getInputData hbuf hid hlt (by omega) hpad (by omega) (by omega) hw) ?_
    rintro - t (⟨hfits, -⟩ | ⟨hcur, cur', x', o', ms', hoct', hms, hfits, -, ht⟩)
    · exact absurd hfits hfit
    have halign : pos + pad.length + 0 = alignTo (pos + pad.length) align.size := by
      rw [hpad, alignTo_idem _ align.size_pos]
      omega
    refine (does_unmarshalFitting _ halign (by omega) ht).mono ?_ fun _ _ he => he
    rintro v u ⟨rfl, hu⟩
    -- the padding was what was left of the buffer
    rw [List.append_assoc] at hoct
    have hrest := (List.append_inj hoct hcur.symm).2
    rw [hoct', List.append_assoc] at hrest
    obtain ⟨hfront, hback⟩ := append_split (k := align.size) hrest hb hfits
    have hlen' := congrArg List.length hrest
    simp only [List.length_append] at hlen'
    refine ⟨?_, cur'.drop align.size, x', o', ms', ?_, by omega, ?_⟩
    · rw [List.drop_zero, hfront]
    · rw [hback, List.append_assoc]
    · rw [List.length_append, hb, ← Nat.add_assoc]
      simpa only [Nat.zero_add] using hu

omit hbuf hid hlt in
/-- Padding is skipped. -/
lemma does_alignInput {align : Alignment} {pad todo : List UInt8} {fuel : ℕ} (hfuel : 1 ≤ fuel)
    (hpad : pos + pad.length = alignTo pos align.size)
    (h : At env g requestId rest pos (pad ++ todo) s) :
    Does s (alignInput env g align fuel)
      (fun _ t => At env g requestId rest (pos + pad.length) todo t) E := by
  obtain ⟨cur, x, o, ms, hoct, henough, hw⟩ := h
  have hlen := congrArg List.length hoct
  simp only [List.length_append] at hlen henough
  have hle := hw.pad_le hpad (by omega)
  have hmarks := hw.marks
  obtain ⟨fuel, rfl⟩ : ∃ k, fuel = k + 1 := ⟨fuel - 1, by omega⟩
  rw [alignInput]
  refine agree_getCall g ?_
  dsimp only
  rw [hw.alignTo_mkr hpad, if_neg (by omega)]
  rw [List.append_assoc cur] at hoct
  obtain ⟨-, hback⟩ := append_split hoct rfl hle
  refine agree_modifyCall_last g rfl ⟨cur.drop pad.length, x, o, ms, ?_, by omega, hw.move hle⟩
  rw [hback, List.append_assoc]

/-! ### Arrays -/

omit hbuf hid hlt in
/-- Octets that are copied from the connection to their place. -/
lemma does_inputCopyChunk {k : ℕ} (hk : k ≤ x.length) (hx : x ≠ []) (hdvd : 8 ∣ k)
    (h : Released env g requestId rest pos x o ms s) :
    Does s (onStrand (Strand.inputCopyChunk k))
      (fun v t => v = x.take k ∧ t.call = s.call ∧
        ∀ c, c = { s.call g with inputFragmentToCome := (s.call g).inputFragmentToCome - k } →
          Released env g requestId rest (pos + k) (x.drop k) o ms (t.setCall g c)) E := by
  have hstrand := h.strand
  rw [Strand.HoldsPart, if_neg hx] at hstrand
  obtain ⟨hhead, hcoming, hspare, -⟩ := hstrand
  obtain ⟨c', hrecv, hrest⟩ := Pieces.recvExactly_eq (n := k) (c := s.strand.connection)
    (by rw [hcoming, List.length_append]; omega)
  rw [hcoming, List.take_append_of_le_length hk] at hrecv
  rw [hcoming, List.drop_append_of_le_length hk] at hrest
  have hlen : (x.drop k).length = x.length - k := List.length_drop
  have hchunked := h.chunked hx
  have hsize := h.size
  refine agree_onStrand (fun a st hr => ?_) (fun e hr => ?_)
  · rw [Strand.inputCopyChunk, if_neg (by simp [hhead]), hrecv] at hr
    cases hr
    refine ⟨rfl, rfl, ?_⟩
    rintro c rfl
    constructor
    case toCome =>
      rw [Sys.call_setCall_self]
      change (s.call g).inputFragmentToCome - k = _
      rw [h.toCome, hlen]
    case bodies =>
      rw [Sys.call_setCall_self]
      exact h.bodies
    case size =>
      rw [Sys.call_setCall_self]
      change (s.call g).inputMessageSize = _
      rw [hsize, hlen]
      omega
    case chunked => exact fun _ => Nat.dvd_add hchunked hdvd
    case fragmented =>
      rw [Sys.call_setCall_self]
      intro hexpect
      have := h.fragmented hexpect
      omega
    case input =>
      rw [Sys.call_setCall_self]
      exact h.input
    case unused =>
      rw [Sys.call_setCall_self]
      exact h.unused
    case sameOrder =>
      rw [Sys.call_setCall_self]
      exact h.sameOrder
    case strand => exact h.strand.take hx hspare hrest rfl
    case finds =>
      refine h.finds.of_touches (t := ({ s with strand := _ } : Sys).setCall g _)
        ⟨rfl, rfl, fun _ hr => Sys.call_setCall_of_ne hr⟩ ?_ ?_ ?_ ?_ <;>
        rw [Sys.call_setCall_self]
  · rw [Strand.inputCopyChunk, if_neg (by simp [hhead]), hrecv] at hr
    cases hr

/-- The loop gives the octets of the body, as many as are wanted. -/
lemma does_copyLoop {copying : Bool} {fuel sz : ℕ}
    (hn : pos + (cur ++ x ++ o).length = n) (hsz : sz ≤ (cur ++ x ++ o).length)
    (hfuel : x.length + o.length + ms.length < fuel)
    (henough : (cur ++ x ++ o).length + ms.length + 2 ≤ env.fuel)
    (h : Window env g requestId rest pos cur x o ms s) :
    Does s (copyLoop env g copying fuel sz)
      (fun v t => v = (if copying then (cur ++ x ++ o).take sz else []) ∧
        At env g requestId rest (pos + sz) ((cur ++ x ++ o).drop sz) t)
      (fun e _ => LimitExceeded env n e) := by
  induction fuel generalizing s pos cur x o ms sz with
  | zero => omega
  | succ fuel ih =>
    simp only [List.length_append] at hn hsz henough
    have hmarks := h.marks
    have hcut := env.cfg.le_directReceiveCutOff
    have havail : (s.call g).avail = cur.length := by
      have hlt := h.end_lt
      rw [Call.avail, sizeSub_of_le (by omega) hlt]
      omega
    have hvalue : (if copying then env.octets (s.call g).buffer (s.call g).inbMkr
        (min cur.length sz) else []) = if copying then cur.take (min cur.length sz) else [] := by
      have hoct := h.octets (i := 0) (n := min cur.length sz) (by omega)
      rw [Nat.add_zero, List.drop_zero] at hoct
      rw [hoct]
    rw [M.copyLoop]
    refine agree_getCall g ?_
    dsimp only
    rw [havail, hvalue]
    refine agree_modifyCall g rfl ?_
    have hmoved := h.move (Nat.min_le_left cur.length sz)
    generalize s.setCall g { s.call g with inbMkr := (s.call g).inbMkr + min cur.length sz } = t
      at hmoved
    by_cases hend : sz - min cur.length sz = 0
    · -- there are enough of them in the buffer
      rw [if_pos hend]
      have hmin : min cur.length sz = sz := by omega
      have hle : sz ≤ cur.length := by omega
      rw [hmin] at hmoved ⊢
      refine .of_pure ⟨?_, cur.drop sz, x, o, ms, ?_, ?_, hmoved⟩
      · rw [List.append_assoc, List.take_append_of_le_length hle]
      · rw [List.append_assoc, List.append_assoc, List.drop_append_of_le_length hle]
      · simp only [List.length_drop, List.length_append]
        omega
    · have hmin : min cur.length sz = cur.length := by omega
      rw [hmin, List.drop_length] at hmoved
      rw [hmin, if_neg (by omega), List.take_length]
      have hmarks' := hmoved.marks
      rw [List.length_nil, Nat.add_zero] at hmarks'
      -- what the rest of the loop gives
      have hgo {pos' : ℕ} {cur' x' o' : List UInt8} {ms' : List Message} {u : Sys}
          {y : List UInt8} {f : List UInt8 → List UInt8}
          (hoct : x ++ o = y ++ (cur' ++ x' ++ o')) (hpos : pos' = pos + cur.length + y.length)
          (hless : x'.length + o'.length + ms'.length < x.length + o.length + ms.length)
          (hms : ms'.length ≤ ms.length) (hy : y.length ≤ sz - cur.length)
          (hu : Window env g requestId rest pos' cur' x' o' ms' u)
          (hf : ∀ v, f v = (if copying then cur ++ y else []) ++ v) :
          Does u (M.copyLoop env g copying fuel (sz - cur.length - y.length) >>= fun v =>
              pure (f v))
            (fun v t => v = (if copying then (cur ++ x ++ o).take sz else []) ∧
              At env g requestId rest (pos + sz) ((cur ++ x ++ o).drop sz) t)
            (fun e _ => LimitExceeded env n e) := by
        have hlen := congrArg List.length hoct
        simp only [List.length_append] at hlen
        have hall : cur ++ x ++ o = (cur ++ y) ++ (cur' ++ x' ++ o') := by
          rw [List.append_assoc cur x o, hoct, ← List.append_assoc]
        have hfront : (cur ++ y).length = cur.length + y.length := List.length_append
        have hk : sz - (cur ++ y).length = sz - cur.length - y.length := by omega
        refine .bind (ih ?_ ?_ ?_ ?_ hu) ?_
        · rw [hpos]
          simp only [List.length_append]
          omega
        · simp only [List.length_append]
          omega
        · omega
        · simp only [List.length_append]
          omega
        · rintro v w ⟨hv, hw⟩
          refine .of_pure ⟨?_, ?_⟩
          · have htake : (cur ++ y).take sz = cur ++ y := List.take_of_length_le (by omega)
            rw [hf v, hv]
            split_ifs
            · rw [hall, ← hk]
              conv_rhs => rw [List.take_append, htake]
            · rfl
          · rw [hall, List.drop_append, List.drop_eq_nil_iff.mpr (by omega), List.nil_append, hk,
              show pos + sz = pos' + (sz - cur.length - y.length) by omega]
            exact hw
      refine agree_getCall g ?_
      have htocome := hmoved.toCome
      have hbodies := hmoved.bodies
      have henough' : ¬((t.call g).inputFragmentToCome < sz - cur.length ∧
          (!(t.call g).inputExpectAnotherFragment) = true) := by
        rintro ⟨hfew, hlast⟩
        rw [Bool.not_eq_true'] at hlast
        rw [hbodies.of_false hlast, List.length_nil] at hsz
        omega
      rw [if_neg henough', htocome]
      by_cases hx : x = []
      · -- the fragment is used up
        subst hx
        rw [if_pos List.length_nil]
        rw [List.length_nil] at hn hsz
        have hexpect : (t.call g).inputExpectAnotherFragment = true := by
          by_contra hlast
          rw [hbodies.of_false (Bool.not_eq_true _ ▸ hlast), List.length_nil] at hsz
          omega
        refine .bind (does_nextFragment hbuf hid (n := n) ?_ hlt hexpect hmoved) ?_
        · rw [List.length_nil]
          omega
        rintro - u ⟨cur', x', o', ms', hoct, hms, -, -, hu⟩
        have hlen := congrArg List.length hoct
        rw [List.length_append, List.length_append] at hlen
        refine hgo (y := []) hoct ?_ ?_ hms.le (Nat.zero_le _) hu fun v => ?_
        · rfl
        · rw [List.length_nil]
          omega
        · rw [List.append_nil]
      · -- more of the fragment is to be received
        have hxpos := List.length_pos_iff.mpr hx
        rw [if_neg (by omega)]
        refine .bind (does_release hmoved) ?_
        rintro - u ⟨hu, hcallu⟩
        rw [List.length_nil, Nat.add_zero] at hu
        refine agree_getCall g ?_
        by_cases hdirect : (u.call g).input = [] ∧ copying = true ∧
            env.cfg.directReceiveCutOff ≤ sz - cur.length
        · rw [if_pos hdirect, hcallu]
          change Does u (onStrand (Strand.inputCopyChunk
            (min (t.call g).inputFragmentToCome (sz - cur.length) / 8 * 8)) >>= _) _ _
          rw [htocome]
          have hlong : 8 ≤ x.length := by
            by_cases hexpect : (t.call g).inputExpectAnotherFragment = true
            · have hchunked := hmoved.chunked hx
              have hfrag := hmoved.fragmented hexpect
              rw [List.length_nil] at hchunked hfrag
              omega
            · rw [hbodies.of_false (Bool.not_eq_true _ ▸ hexpect), List.length_nil] at hsz
              omega
          have hle : min x.length (sz - cur.length) / 8 * 8 ≤ min x.length (sz - cur.length) :=
            Nat.div_mul_le_self _ _
          have hpos : 8 ≤ min x.length (sz - cur.length) / 8 * 8 := by omega
          generalize htransz : min x.length (sz - cur.length) / 8 * 8 = transz at hle hpos
          have hdvd : 8 ∣ transz := by
            rw [← htransz]
            exact Nat.dvd_mul_left _ _
          refine .bind (does_inputCopyChunk (by omega) hx hdvd hu) ?_
          rintro - w ⟨rfl, hcallw, hw⟩
          refine agree_modifyCall g rfl ?_
          have hdlen : (x.drop transz).length = x.length - transz := List.length_drop
          have htlen : (x.take transz).length = transz := by
            rw [List.length_take]
            omega
          have hreleased := hw { w.call g with
            inputFragmentToCome := (w.call g).inputFragmentToCome - transz } (by rw [hcallw])
          have hend_lt := hmoved.end_lt
          have hmod := hmoved.mod
          have hwin := hreleased.window (by
            rw [Sys.call_setCall_self, hcallw, hcallu]
            exact hmarks') (by
            rw [Sys.call_setCall_self, hcallw, hcallu]
            exact hend_lt) (by
            rw [Sys.call_setCall_self, hcallw, hcallu]
            change (t.call g).inbMkr % 8 = _
            omega)
          have hloop := hgo (y := x.take transz)
            (f := fun v => (if copying then cur else []) ++ x.take transz ++ v)
            (by rw [List.nil_append, ← List.append_assoc, List.take_append_drop])
            (by rw [htlen]) (by omega) le_rfl (by omega) hwin
            fun v => by rw [if_pos hdirect.2.1, if_pos hdirect.2.1]
          rw [htlen] at hloop
          exact hloop
        · rw [if_neg hdirect]
          refine .bind (does_nextChunk hx (by omega) hu) ?_
          rintro - w ⟨cur', x', hoct, hlen, -, hw⟩
          have hcfg := env.cfg.lt_bufferSize
          have hlen' := congrArg List.length hoct
          rw [List.length_append] at hlen'
          refine hgo (y := []) ?_ ?_ ?_ le_rfl (Nat.zero_le _) hw fun v => ?_
          · rw [hoct, List.nil_append]
          · rfl
          · omega
          · rw [List.append_nil]

/-- An array is read, or skipped. -/
lemma does_copyInputData {copying : Bool} {align : Alignment} {pad b todo : List UInt8}
    (hn : pos + (pad ++ b ++ todo).length = n)
    (hpad : pos + pad.length = alignTo pos align.size)
    (h : At env g requestId rest pos (pad ++ b ++ todo) s) :
    Does s (copyInputData env g copying b.length align)
      (fun v t => v = (if copying then b else []) ∧
        At env g requestId rest (pos + (pad ++ b).length) todo t)
      (fun e _ => LimitExceeded env n e) := by
  obtain ⟨cur, x, o, ms, hoct, henough, hw⟩ := h
  have hlen := congrArg List.length hoct
  simp only [List.length_append] at hlen hn henough
  have hle := hw.pad_le hpad (by omega)
  have hmarks := hw.marks
  rw [copyInputData]
  refine agree_getCall g ?_
  dsimp only
  rw [hw.alignTo_mkr hpad, if_neg (by omega)]
  refine agree_modifyCall g rfl ?_
  have hmoved := hw.move hle
  rw [List.append_assoc pad, List.append_assoc cur] at hoct
  obtain ⟨-, hback⟩ := append_split hoct rfl hle
  have hall : cur.drop pad.length ++ x ++ o = b ++ todo := by
    rw [hback, List.append_assoc]
  have hrest : (cur.drop pad.length ++ x ++ o).length = b.length + todo.length := by
    rw [hall, List.length_append]
  by_cases hb : b = []
  · rw [if_pos (by rw [hb, List.length_nil])]
    refine .of_pure ⟨?_, cur.drop pad.length, x, o, ms, ?_, by omega, ?_⟩
    · rw [hb, ite_self]
    · rw [hall, hb, List.nil_append]
    · rw [hb, List.append_nil]
      exact hmoved
  · rw [if_neg (by rwa [List.length_eq_zero_iff])]
    have hxo : x.length + o.length + ms.length < env.fuel := by omega
    refine (does_copyLoop hbuf hid hlt (by rw [hrest]; omega) (by rw [hrest]; omega) hxo
      (by rw [hrest]; omega) hmoved).mono ?_ fun _ _ he => he
    rintro v t ⟨hv, ht⟩
    rw [hall, List.take_left] at hv
    rw [hall, List.drop_left, Nat.add_assoc, ← List.length_append] at ht
    exact ⟨hv, ht⟩

end

/-! ### Reading what was written -/

/-- A read that takes what an operation wrote, and what it gives. -/
inductive Takes : WriteOp → ReadOp → List UInt8 → Prop
  | primitive (align : Alignment) (b : List UInt8) (hlen : b.length = align.size) :
      Takes (.primitive align b hlen) (.primitive align) b
  | align (align : Alignment) : Takes (.align align) (.align align) []
  | octetArray (b : List UInt8) (align : Alignment) (hlen : b.length < 2 ^ 31) :
      Takes (.octetArray b align hlen) (.octetArray b.length align) b
  | smallOctetArray (b : List UInt8) (hlen : b.length < 2 ^ 31) :
      Takes (.smallOctetArray b hlen) (.octetArray b.length .align1) b
  | skip (op : WriteOp) (hop : op.alignment = .align1) : Takes op (.skip op.octets.length) []

/-- Reads that take what a sequence of operations wrote. -/
inductive TakesAll : List WriteOp → List ReadOp → List UInt8 → Prop
  | nil : TakesAll [] [] []
  | cons {op : WriteOp} {ops : List WriteOp} {r : ReadOp} {rs : List ReadOp} {v vs : List UInt8}
      (hop : Takes op r v) (hops : TakesAll ops rs vs) : TakesAll (op :: ops) (r :: rs) (v ++ vs)

/-- The call `g` has read `body` of the body `full`. -/
def HasRead (env : Env) (g : Ref) (requestId : ℕ) (rest : List Message) (full body : List UInt8)
    (s : Sys) : Prop :=
  ∃ todo, full = body ++ todo ∧ At env g requestId rest (12 + body.length) todo s

/-- The position of the reader is that in the body, behind a header. -/
lemma HasRead.currentInputPtr {full body : List UInt8} (hlt : 12 + full.length < 2 ^ 64)
    (h : HasRead env g requestId rest full body s) :
    (s.call g).currentInputPtr = 12 + body.length := by
  obtain ⟨todo, rfl, cur, x, o, ms, -, -, hw⟩ := h
  have hsize := hw.size
  have hmarks := hw.marks
  rw [List.length_append] at hlt
  rw [Call.currentInputPtr, sizeT, hsize, hw.toCome, ← hmarks]
  push_cast
  rw [Int.emod_eq_of_lt (by omega) (by omega)]
  omega

section

variable {full body body' v : List UInt8} {op : WriteOp} {r : ReadOp}
  (hbuf : env.cfg.bufferSize < env.fuel) (hid : requestId < 2 ^ 32) (hlt : 12 + full.length < 2 ^ 64)

include hbuf hid hlt

/-- One read. -/
lemma does_read (htakes : Takes op r v) (happ : Appends op body body') (hpre : body' <+: full)
    (h : HasRead env g requestId rest full body s) :
    Does s (read env g r)
      (fun a t => a = v ∧ HasRead env g requestId rest full body' t)
      (fun e _ => LimitExceeded env (12 + full.length) e) := by
  obtain ⟨todo, hfull, hat⟩ := h
  obtain ⟨pad, hpad, rfl⟩ := happ
  obtain ⟨todo', rfl⟩ := hpre
  rw [List.append_assoc, List.append_assoc] at hfull
  obtain rfl := List.append_cancel_left hfull
  rw [← List.append_assoc] at hat
  rw [Aligns] at hpad
  have hn : 12 + body.length + (pad ++ op.octets ++ todo').length =
      12 + (body ++ pad ++ op.octets ++ todo').length := by
    simp only [List.length_append]
    omega
  have hend : 12 + body.length + (pad ++ op.octets).length =
      12 + (body ++ pad ++ op.octets).length := by
    simp only [List.length_append]
    omega
  have hfuel : 2 ≤ env.fuel := by
    have := env.cfg.lt_bufferSize
    omega
  cases htakes with
  | primitive align b hlen =>
    refine (does_unmarshalPrimitive hbuf hid hlt hfuel hn hpad hlen hat).mono ?_ fun _ _ he => he
    rintro a t ⟨rfl, ht⟩
    rw [hend] at ht
    exact ⟨rfl, todo', rfl, ht⟩
  | align align =>
    have hnil : (WriteOp.align align).octets = [] := rfl
    rw [hnil, List.append_nil] at hat
    rw [hnil, List.append_nil, List.append_nil] at hend
    refine .bind (does_alignInput (by omega) hpad hat) ?_
    rintro - t ht
    rw [hend] at ht
    refine .of_pure ⟨rfl, todo', ?_, ?_⟩
    · rw [hnil, List.append_nil]
    · rw [hnil, List.append_nil]
      exact ht
  | octetArray b align hlen =>
    refine (does_copyInputData hbuf hid hlt hn hpad hat).mono ?_ fun _ _ he => he
    rintro a t ⟨rfl, ht⟩
    rw [hend] at ht
    exact ⟨rfl, todo', rfl, ht⟩
  | smallOctetArray b hlen =>
    refine (does_copyInputData hbuf hid hlt hn hpad hat).mono ?_ fun _ _ he => he
    rintro a t ⟨rfl, ht⟩
    rw [hend] at ht
    exact ⟨rfl, todo', rfl, ht⟩
  | skip op hop =>
    rw [hop] at hpad
    refine (does_copyInputData hbuf hid hlt hn hpad hat).mono ?_ fun _ _ he => he
    rintro a t ⟨rfl, ht⟩
    rw [hend] at ht
    exact ⟨if_neg Bool.false_ne_true, todo', rfl, ht⟩

/-- A sequence of reads. -/
lemma does_reads {ops : List WriteOp} {rs : List ReadOp} (htakes : TakesAll ops rs v)
    (hops : Marshals ops body body') (hpre : body' <+: full)
    (h : HasRead env g requestId rest full body s) :
    Does s (reads env g rs)
      (fun a t => a = v ∧ HasRead env g requestId rest full body' t)
      (fun e _ => LimitExceeded env (12 + full.length) e) := by
  induction htakes generalizing body s with
  | nil =>
    cases hops
    exact .of_pure ⟨rfl, h⟩
  | cons hop htail ih =>
    cases hops with
    | cons happ hops =>
      refine .bind (does_read hbuf hid hlt hop happ (hops.isPrefix.trans hpre) h) ?_
      rintro a t ⟨rfl, ht⟩
      refine .bind (ih hops ht) ?_
      rintro b u ⟨rfl, hu⟩
      exact .of_pure ⟨rfl, hu⟩

end

end OmniORB
