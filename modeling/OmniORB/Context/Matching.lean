import OmniORB.Context.Properties
import OmniORB.Poa.Trees

/-!
# Patterns and the entries of a context

What the binary searches find in entries that are sorted by their names, ignoring case.
-/

namespace OmniORB

open Library

variable {α : Type} {name : α → List UInt8} {l : List α} {s t pattern : List UInt8}

/-! ### The order of the names -/

lemma toLower_ne_zero {c : UInt8} (h : c ≠ 0) : toLower c ≠ 0 := by
  unfold toLower
  split_ifs with hc
  · intro h0
    have := congrArg UInt8.toNat h0
    have h1 := UInt8.le_iff_toNat_le.mp hc.1
    have h2 := UInt8.le_iff_toNat_le.mp hc.2
    simp at this h1 h2
    omega
  · exact h

lemma zero_notMem_foldCase (hs : 0 ∉ s) : 0 ∉ foldCase s := by
  intro h
  obtain ⟨c, hc, h0⟩ := List.mem_map.mp h
  exact toLower_ne_zero (fun hc0 => hs (hc0 ▸ hc)) h0

/-- The names are in the order of these lists. -/
def nameKey (s : List UInt8) : List ℕ := (foldCase s).map UInt8.toNat

lemma nameKey_inj : nameKey s = nameKey t ↔ foldCase s = foldCase t :=
  (List.map_injective_iff.mpr fun _ _ => UInt8.toNat_inj.mp).eq_iff

lemma strcasecmp_neg_iff (hs : 0 ∉ s) (ht : 0 ∉ t) : strcasecmp s t < 0 ↔ nameKey s < nameKey t :=
  strcmp_neg_iff (zero_notMem_foldCase hs) (zero_notMem_foldCase ht)

lemma strcasecmp_pos_iff (hs : 0 ∉ s) (ht : 0 ∉ t) : 0 < strcasecmp s t ↔ nameKey t < nameKey s := by
  rw [strcasecmp, strcmp_pos_iff]
  exact strcasecmp_neg_iff ht hs

lemma strcasecmp_eq_zero (hs : 0 ∉ s) (ht : 0 ∉ t) : strcasecmp s t = 0 ↔ foldCase s = foldCase t :=
  compareStrings_eq_zero false (zero_notMem_foldCase hs) (zero_notMem_foldCase ht)

lemma foldCase_take (s : List UInt8) (n : ℕ) : foldCase (s.take n) = (foldCase s).take n := List.map_take

lemma nameKey_take (s : List UInt8) (n : ℕ) : nameKey (s.take n) = (nameKey s).take n := by
  rw [nameKey, foldCase_take]
  exact List.map_take

lemma zero_notMem_take (hs : 0 ∉ s) (n : ℕ) : 0 ∉ s.take n := fun h => hs (List.mem_of_mem_take h)

lemma take_le_take {k m : List ℕ} (h : k < m) (n : ℕ) : k.take n ≤ m.take n := by
  induction n generalizing k m with
  | zero => simp
  | succ n ih =>
    cases m with
    | nil => exact absurd h (List.not_lt_nil k)
    | cons y m =>
      cases k with
      | nil =>
        rw [List.take_nil, List.take_succ_cons]
        exact (List.nil_lt_cons y _).le
      | cons x k =>
        rw [List.take_succ_cons, List.take_succ_cons]
        rcases List.cons_lt_cons_iff.mp h with hxy | ⟨rfl, hkm⟩
        · exact (List.cons_lt_cons_iff.mpr (.inl hxy)).le
        · rcases (ih hkm).lt_or_eq with hlt | heq
          · exact (List.cons_lt_cons_iff.mpr (.inr ⟨rfl, hlt⟩)).le
          · exact (congrArg (x :: ·) heq).le

/-! ### Sorted entries -/

/-- The entries are in the order of their names, and no two have the same. -/
structure SortedByName (name : α → List UInt8) (l : List α) : Prop where
  noNul : ∀ e ∈ l, 0 ∉ name e
  sorted : l.Pairwise fun e f => strcasecmp (name e) (name f) < 0

namespace SortedByName

lemma lt (h : SortedByName name l) : l.Pairwise fun e f => nameKey (name e) < nameKey (name f) := by
  refine h.sorted.imp_of_mem fun {e f} he hf hlt => ?_
  exact (strcasecmp_neg_iff (h.noNul e he) (h.noNul f hf)).mp hlt

lemma of_lt (hnul : ∀ e ∈ l, 0 ∉ name e) (h : l.Pairwise fun e f => nameKey (name e) < nameKey (name f)) :
    SortedByName name l := by
  refine ⟨hnul, h.imp_of_mem fun {e f} he hf hlt => ?_⟩
  exact (strcasecmp_neg_iff (hnul e he) (hnul f hf)).mpr hlt

lemma sublist (h : SortedByName name l) {m : List α} (hm : m.Sublist l) : SortedByName name m :=
  ⟨fun e he => h.noNul e (hm.subset he), h.sorted.sublist hm⟩

/-- The entries are compared with a name, of which the first `n` octets count. -/
lemma descending_take (h : SortedByName name l) (hs : 0 ∉ s) (n : ℕ) :
    Descending (fun e => strncasecmp s (name e) n) l := by
  refine h.lt.imp_of_mem fun {e f} he hf hlt => ?_
  have hle := take_le_take hlt n
  have hs' := zero_notMem_take hs n
  have he' := zero_notMem_take (h.noNul e he) n
  have hf' := zero_notMem_take (h.noNul f hf) n
  rw [← nameKey_take, ← nameKey_take] at hle
  simp only [strncasecmp, strcasecmp_pos_iff hs' he', strcasecmp_pos_iff hs' hf',
    strcasecmp_neg_iff hs' he', strcasecmp_neg_iff hs' hf']
  exact ⟨fun hpos => hle.trans_lt hpos, fun hneg => hneg.trans_le hle⟩

lemma descending (h : SortedByName name l) (hs : 0 ∉ s) :
    Descending (fun e => strcasecmp s (name e)) l := by
  refine h.lt.imp_of_mem fun {e f} he hf hlt => ?_
  have he' := h.noNul e he
  have hf' := h.noNul f hf
  simp only [strcasecmp_pos_iff hs he', strcasecmp_pos_iff hs hf', strcasecmp_neg_iff hs he',
    strcasecmp_neg_iff hs hf']
  exact ⟨hlt.trans, fun hneg => hneg.trans hlt⟩

/-- At most one entry has the name. -/
lemma length_le_one (h : SortedByName name l) {p : α → Bool}
    (hp : ∀ e ∈ l, p e = true → foldCase s = foldCase (name e)) : (l.filter p).length ≤ 1 := by
  have hf := h.lt.sublist (List.filter_sublist (p := p))
  match hm : l.filter p with
  | [] => simp
  | [e] => simp
  | e :: f :: m =>
    rw [hm] at hf
    have hlt := (List.pairwise_cons.mp hf).1 f List.mem_cons_self
    have he := List.mem_filter.mp (hm ▸ List.mem_cons_self : e ∈ l.filter p)
    have hf := List.mem_filter.mp (hm ▸ List.mem_cons_of_mem e List.mem_cons_self : f ∈ l.filter p)
    have heq : nameKey (name e) = nameKey (name f) :=
      nameKey_inj.mpr ((hp e he.1 he.2).symm.trans (hp f hf.1 hf.2))
    exact absurd heq hlt.ne

end SortedByName

/-! ### matchPattern -/

/-- The name is the pattern, or starts with what comes before a final `*`, ignoring case. -/
def matchesPattern (pattern s : List UInt8) : Bool :=
  if endsWithStar pattern then (foldCase pattern.dropLast).isPrefixOf (foldCase s)
  else foldCase pattern = foldCase s

/-- The entries that match are those of a range. -/
def IsRange (l : List α) (p : α → Bool) (a d : List α) : Prop :=
  l = a ++ l.filter p ++ d ∧ (∀ e ∈ a, p e = false) ∧ ∀ e ∈ d, p e = false

lemma IsRange.of_parted {c : α → ℤ} {p : α → Bool} {a b d : List α} (h : Parted c l a b d)
    (hp : ∀ e ∈ l, p e = true ↔ c e = 0) : b = l.filter p ∧ IsRange l p a d := by
  have ha : ∀ e ∈ a, p e = false := by
    intro e he
    have hpos := h.before e he
    rw [Bool.eq_false_iff, Ne, hp e (by rw [h.eq]; simp [he])]
    omega
  have hb : ∀ e ∈ b, p e = true := fun e he => (hp e (by rw [h.eq]; simp [he])).mpr (h.among e he)
  have hd : ∀ e ∈ d, p e = false := by
    intro e he
    have hneg := h.after e he
    rw [Bool.eq_false_iff, Ne, hp e (by rw [h.eq]; simp [he])]
    omega
  have hbf : b = l.filter p := by
    conv_rhs => rw [h.eq]
    rw [List.filter_append, List.filter_append, List.filter_eq_nil_iff.mpr (by simpa using ha),
      List.filter_eq_self.mpr hb, List.filter_eq_nil_iff.mpr (by simpa using hd)]
    simp
  refine ⟨hbf, ?_, ha, hd⟩
  rw [← hbf]
  exact h.eq

/-- The places of the range are those of the entries that match. -/
lemma IsRange.place_iff {p : α → Bool} {a d : List α} (h : IsRange l p a d) {i : ℕ} {e : α}
    (hi : l[i]? = some e) : a.length ≤ i ∧ i < a.length + (l.filter p).length ↔ p e = true := by
  obtain ⟨hl, ha, hd⟩ := h
  generalize hm : l.filter p = m at hl
  have hm : ∀ e ∈ m, p e = true := fun e he => (List.mem_filter.mp (hm ▸ he)).2
  rw [hl, List.append_assoc] at hi
  rcases Nat.lt_or_ge i a.length with hia | hia
  · rw [List.getElem?_append_left hia] at hi
    have := ha e (List.mem_of_getElem? hi)
    simp only [this, Bool.false_eq_true, iff_false]
    omega
  · rw [List.getElem?_append_right hia] at hi
    rcases Nat.lt_or_ge (i - a.length) m.length with him | him
    · rw [List.getElem?_append_left him] at hi
      have := hm e (List.mem_of_getElem? hi)
      simp only [this, iff_true]
      omega
    · rw [List.getElem?_append_right him] at hi
      have := hd e (List.mem_of_getElem? hi)
      simp only [this, Bool.false_eq_true, iff_false]
      omega

lemma strncasecmp_dropLast {e : List UInt8} (hpattern : 0 ∉ pattern) (he : 0 ∉ e) :
    strncasecmp pattern e (pattern.length - 1) = 0 ↔
      (foldCase pattern.dropLast).isPrefixOf (foldCase e) = true := by
  rw [strncasecmp, strcasecmp_eq_zero (zero_notMem_take hpattern _) (zero_notMem_take he _),
    ← List.dropLast_eq_take, foldCase_take, List.isPrefixOf_iff_prefix, List.prefix_iff_eq_take]
  simp [foldCase]

/-- `matchPattern` tells the range of the entries that match. -/
theorem matchPattern_eq (h : SortedByName name l) (hpattern : 0 ∉ pattern) (hne : pattern ≠ []) :
    ∃ a d, IsRange l (fun e => matchesPattern pattern (name e)) a d ∧
      matchPattern name l pattern = .ok (
        if l.filter (fun e => matchesPattern pattern (name e)) = [] then none
        else some (a.length, a.length + (l.filter fun e => matchesPattern pattern (name e)).length)) := by
  rw [matchPattern, if_neg hne]
  by_cases hstar : endsWithStar pattern = true
  · have hmatches : ∀ e : α, matchesPattern pattern (name e) =
        (foldCase pattern.dropLast).isPrefixOf (foldCase (name e)) := fun e => if_pos hstar
    simp only [hstar, if_true, true_and, hmatches]
    by_cases hall : pattern.length - 1 = 0
    · have hlast : pattern.dropLast = [] := by
        rw [← List.length_eq_zero_iff, List.length_dropLast]
        exact hall
      refine ⟨[], [], ?_, ?_⟩
      · simp [IsRange, hlast, foldCase]
      · simp [hall, hlast, foldCase]
    · rw [if_neg hall]
      have hparted := (h.descending_take hpattern (pattern.length - 1)).parted
      obtain ⟨hb, hrange⟩ := IsRange.of_parted hparted fun e he =>
        (strncasecmp_dropLast hpattern (h.noNul e he)).symm
      refine ⟨_, _, hrange, ?_⟩
      rw [← hb]
      have hfound := hparted.halve l.length (Nat.zero_le _)
        (by rw [hparted.length_eq]; omega) le_rfl (by omega)
      by_cases hnone : l.filter (fun e => strncasecmp pattern (name e) (pattern.length - 1) = 0) = []
      · rw [if_pos hnone] at hfound
        rw [if_pos hnone, hfound]
        rfl
      · rw [if_neg hnone] at hfound
        obtain ⟨i, hi, hle, hlt⟩ := hfound
        have hp : ∀ e, decide (strncasecmp pattern (name e) (pattern.length - 1) = 0) = true ↔
            strncasecmp pattern (name e) (pattern.length - 1) = 0 := fun e => decide_eq_true_iff
        rw [if_neg hnone, hi, hparted.extendDown hp hle hlt.le,
          hparted.extendUp hp l.length (by omega) hlt (by omega)]
        rfl
  · have hmatches : ∀ e : α, matchesPattern pattern (name e) =
        decide (foldCase pattern = foldCase (name e)) := fun e => if_neg hstar
    simp only [hstar, hmatches]
    have hparted := (h.descending hpattern).parted
    have heq : ∀ e ∈ l, decide (foldCase pattern = foldCase (name e)) = true ↔
        strcasecmp pattern (name e) = 0 := fun e he => by
      rw [decide_eq_true_iff]
      exact (strcasecmp_eq_zero hpattern (h.noNul e he)).symm
    obtain ⟨hb, hrange⟩ := IsRange.of_parted hparted heq
    refine ⟨_, _, hrange, ?_⟩
    have hone := h.length_le_one (s := pattern) (p := fun e => decide (foldCase pattern = foldCase (name e)))
      fun e _ hp => of_decide_eq_true hp
    rw [← hb] at hone ⊢
    have hfound := hparted.halve l.length (Nat.zero_le _)
      (by rw [hparted.length_eq]; omega) le_rfl (by omega)
    by_cases hnone : l.filter (fun e => strcasecmp pattern (name e) = 0) = []
    · rw [if_pos hnone] at hfound
      rw [if_pos hnone]
      simp [hfound]
    · rw [if_neg hnone] at hfound
      obtain ⟨i, hi, hle, hlt⟩ := hfound
      rw [if_neg hnone]
      have hlength := List.length_pos_iff.mpr hnone
      simp only [Bool.false_eq_true, false_and, if_false, hi, Bool.not_true]
      rw [show (l.filter fun e => strcasecmp pattern (name e) = 0).length = 1 by omega,
        show i = (l.filter fun e => 0 < strcasecmp pattern (name e)).length by omega]

end OmniORB
