import OmniORB.Library.Scan
import OmniORB.TypeCodes.Unions

/-!
# The defaults of unions

Which unions are classified as they should be, and which of them find a value for their default.
-/

namespace OmniORB

open Library

namespace TypeCodes

/-! ### The values of a discriminator -/

namespace DiscriminatorType

def lowest : DiscriminatorType → ℤ
  | short => -2 ^ 15
  | long => -2 ^ 31
  | longlong => -2 ^ 63
  | .alias t => t.lowest
  | _ => 0

/-- The number of values. -/
def size : DiscriminatorType → ℕ
  | char | octet => 2 ^ 8
  | boolean => 2
  | short | ushort => 2 ^ 16
  | long | ulong => 2 ^ 32
  | longlong | ulonglong => 2 ^ 64
  | enum _ memberCount => memberCount.toNat
  | .alias t => t.size
  | other => 0

/-- A discriminator value as a number. -/
def read (t : DiscriminatorType) (d : Discriminator) : ℤ := if t.lowest < 0 then d.toInt else d.toNat

/-- The discriminator value is one of the type. -/
def IsValue (t : DiscriminatorType) (d : Discriminator) : Prop :=
  t.lowest ≤ t.read d ∧ t.read d < t.lowest + t.size

variable {t : DiscriminatorType} {d : Discriminator} {z : ℤ}

instance : Decidable (t.IsValue d) := inferInstanceAs (Decidable (_ ∧ _))

lemma lowest_expand (t : DiscriminatorType) : t.expand.lowest = t.lowest := by
  induction t with
  | «alias» t ih => exact ih
  | _ => rfl

lemma size_expand (t : DiscriminatorType) : t.expand.size = t.size := by
  induction t with
  | «alias» t ih => exact ih
  | _ => rfl

/-- Numbers that are read back from a word. -/
def Fits (t : DiscriminatorType) (z : ℤ) : Prop :=
  if t.lowest < 0 then -2 ^ 63 ≤ z ∧ z < 2 ^ 63 else 0 ≤ z ∧ z < 2 ^ 64

lemma fits_of_value (hlo : t.lowest ≤ z) (hhi : z < t.lowest + t.size) : t.Fits z := by
  induction t with
  | «alias» t ih => exact ih hlo hhi
  | enum id n =>
    have hn := n.isLt
    have hnonneg : (0 : ℤ) ≤ z := hlo
    have hlt : z < 0 + (n.toNat : ℤ) := hhi
    show 0 ≤ z ∧ z < 2 ^ 64
    omega
  | _ =>
    simp only [lowest, size] at hlo hhi
    simp only [Fits, lowest]
    norm_num at hlo hhi ⊢
    try omega

lemma read_ofInt (h : t.Fits z) : t.read (BitVec.ofInt 64 z) = z := by
  rw [Fits] at h
  rw [read]
  by_cases hlow : t.lowest < 0
  · rw [if_pos hlow] at h ⊢
    rw [BitVec.toInt_ofInt]
    exact Int.bmod_eq_of_le (by norm_num; omega) (by norm_num; omega)
  · rw [if_neg hlow] at h ⊢
    rw [BitVec.toNat_ofInt]
    norm_num
    omega

lemma ofInt_read (t : DiscriminatorType) (d : Discriminator) : BitVec.ofInt 64 (t.read d) = d := by
  rw [read]
  split_ifs
  · exact BitVec.ofInt_toInt
  · rw [BitVec.ofInt_natCast, BitVec.ofNat_toNat, BitVec.setWidth_eq]

lemma eq_ofInt_iff (h : t.Fits z) : d = BitVec.ofInt 64 z ↔ t.read d = z := by
  constructor
  · rintro rfl
    exact read_ofInt h
  · rintro rfl
    exact (ofInt_read t d).symm

lemma isValue_ofInt (h : t.Fits z) :
    t.IsValue (BitVec.ofInt 64 z) ↔ t.lowest ≤ z ∧ z < t.lowest + t.size := by
  rw [IsValue, read_ofInt h]

lemma not_isValue_ofInt (h : t.Fits z) (hz : t.lowest + t.size ≤ z) : ¬ t.IsValue (BitVec.ofInt 64 z) := by
  rw [isValue_ofInt h]
  omega

/-- What is classified as possible is not more than there is. -/
lemma npossible_le {n : ℕ} (h : t.npossible = .ok n) : n ≤ t.size := by
  rw [← size_expand]
  rw [npossible] at h
  cases ht : t.expand with
  | «alias» t => rw [ht] at h; cases h
  | other => rw [ht] at h; cases h
  | _ =>
    rw [ht] at h
    obtain rfl := Except.ok.inj h
    simp [size]

lemma npossible_pos_iff {n : ℕ} (h : t.npossible = .ok n) : 0 < n ↔ 0 < t.size := by
  rw [← size_expand]
  rw [npossible] at h
  cases ht : t.expand with
  | «alias» t => rw [ht] at h; cases h
  | other => rw [ht] at h; cases h
  | _ =>
    rw [ht] at h
    obtain rfl := Except.ok.inj h
    simp [size]

/-- A list that is shorter than the values are many leaves one of them out. -/
lemma exists_value_notMem {labels : List Discriminator} (h : labels.length < t.size) :
    ∃ d, t.IsValue d ∧ d ∉ labels := by
  have hfits : ∀ i, i < t.size → t.Fits (t.lowest + (i : ℕ)) := by
    intro i hi
    exact fits_of_value (by omega) (by omega)
  obtain ⟨k, hk, hnot⟩ := exists_lt_notMem
    (f := fun i => BitVec.ofInt 64 (t.lowest + (i : ℕ))) (fun i j hi hj hij => by
      have := congrArg t.read hij
      rw [read_ofInt (hfits i hi), read_ofInt (hfits j hj)] at this
      omega) h
  exact ⟨_, (isValue_ofInt (hfits k hk)).mpr ⟨by omega, by omega⟩, hnot⟩

end DiscriminatorType

/-! ### Labels -/

/-- The value is the label of a member that is not the default one. -/
def Labelled (labels : List Discriminator) (default : ℤ) (d : Discriminator) : Prop :=
  ∃ i : ℕ, (i : ℤ) ≠ default ∧ labels[i]? = some d

/-- The value is one of the discriminator's, and not a label. -/
def Free (t : DiscriminatorType) (labels : List Discriminator) (default : ℤ) (d : Discriminator) : Prop :=
  t.IsValue d ∧ ¬ Labelled labels default d

lemma Labelled.mem {labels : List Discriminator} {default : ℤ} {d : Discriminator}
    (h : Labelled labels default d) : d ∈ labels := by
  obtain ⟨i, -, hi⟩ := h
  exact List.mem_of_getElem? hi

/-- Without a default member every member counts. -/
lemma labelled_congr {labels : List Discriminator} {default default' : ℤ} {d : Discriminator}
    (h : default < 0) (h' : default' < 0) : Labelled labels default d ↔ Labelled labels default' d := by
  constructor
  · rintro ⟨i, -, hi⟩
    exact ⟨i, by omega, hi⟩
  · rintro ⟨i, -, hi⟩
    exact ⟨i, by omega, hi⟩

namespace TypeCodeUnion

lemma indexFrom_of_unlabelled {default : ℤ} {d : Discriminator} {i : ℕ} {labels : List Discriminator}
    (h : ∀ j : ℕ, ((i + j : ℕ) : ℤ) ≠ default → labels[j]? ≠ some d) :
    indexFrom default d i labels = if 0 ≤ default then default else -1 := by
  induction labels generalizing i with
  | nil => rfl
  | cons l ls ih =>
    have hfirst : ¬ (l = d ∧ (i : ℤ) ≠ default) := by
      rintro ⟨rfl, hi⟩
      exact h 0 hi rfl
    rw [indexFrom, if_neg hfirst]
    apply ih
    intro j hj
    have := h (j + 1) (by rwa [← Nat.add_assoc, Nat.add_right_comm])
    rwa [List.getElem?_cons_succ] at this

lemma indexFrom_of_labelled {default : ℤ} {d : Discriminator} {i : ℕ} {labels : List Discriminator}
    {j : ℕ} (hj : ((i + j : ℕ) : ℤ) ≠ default) (h : labels[j]? = some d) :
    0 ≤ indexFrom default d i labels ∧ indexFrom default d i labels ≠ default := by
  induction labels generalizing i j with
  | nil => cases h
  | cons l ls ih =>
    by_cases hfirst : l = d ∧ (i : ℤ) ≠ default
    · rw [indexFrom, if_pos hfirst]
      exact ⟨Int.natCast_nonneg i, hfirst.2⟩
    · rw [indexFrom, if_neg hfirst]
      cases j with
      | zero => exact absurd ⟨Option.some.inj h, hj⟩ hfirst
      | succ j =>
        rw [List.getElem?_cons_succ] at h
        exact ih (by rwa [Nat.add_right_comm, Nat.add_assoc]) h

variable {u : TypeCodeUnion} {d : Discriminator}

lemma indexFromDiscriminator_of_unlabelled (h : ¬ Labelled u.labels u.default d) :
    u.indexFromDiscriminator d = if 0 ≤ u.default then u.default else -1 := by
  apply indexFrom_of_unlabelled
  intro j hj hlabel
  rw [Nat.zero_add] at hj
  exact h ⟨j, hj, hlabel⟩

lemma leadsToDefault_iff : u.LeadsToDefault d ↔ ¬ Labelled u.labels u.default d := by
  constructor
  · rintro hleads ⟨i, hi, hlabel⟩
    have := indexFrom_of_labelled (i := 0) (by rwa [Nat.zero_add]) hlabel
    rw [LeadsToDefault, indexFromDiscriminator] at hleads
    omega
  · intro h
    rw [LeadsToDefault, indexFromDiscriminator_of_unlabelled h]
    split_ifs with hdefault
    · exact Or.inr rfl
    · exact Or.inl (by decide)

/-! ### The value that is calculated -/

/-- The search of `NP_default_value` gets to the value. The counters of `short` and `long` start behind the
smallest one, and the one of `long` cannot go past the last. -/
def Reaches : DiscriminatorType → Discriminator → Prop
  | .char, _ | .boolean, _ | .ushort, _ | .ulong, _ | .enum _ _, _ => True
  | .short, d => d ≠ BitVec.ofInt 64 (-2 ^ 15)
  | .long, d => d ≠ BitVec.ofInt 64 (-2 ^ 31) ∧ d ≠ BitVec.ofInt 64 (2 ^ 31 - 1)
  | _, _ => False

/-- The calculation has a result, which is a free value. -/
def Finds (u : TypeCodeUnion) : Prop :=
  ∃ d, u.calculateDefault = some d ∧ Free u.discrim u.labels u.default d

/-- What a search finds below `stop` is a value, and what it finds behind it is none. -/
lemma finds_iff_of_search (stop : ℤ) {start : ℤ} {left : ℕ} {f : ℤ → Discriminator}
    (hcalc : u.calculateDefault = (u.search start left).map f)
    (hstart : u.discrim.lowest ≤ start) (hstop : stop ≤ u.discrim.lowest + u.discrim.size)
    (hleft : stop ≤ start + left)
    (hin : ∀ z, start ≤ z → z < stop → f z = BitVec.ofInt 64 z)
    (hout : ∀ z, stop ≤ z → z < start + left → ¬ u.discrim.IsValue (f z))
    (hreach : ∀ d, u.discrim.IsValue d →
      (Reaches u.discrim d ↔ start ≤ u.discrim.read d ∧ u.discrim.read d < stop)) :
    u.Finds ↔ ∃ d, Free u.discrim u.labels u.default d ∧ Reaches u.discrim d := by
  have hvalue : ∀ z, start ≤ z → z < stop →
      u.discrim.read (BitVec.ofInt 64 z) = z ∧ u.discrim.IsValue (BitVec.ofInt 64 z) := by
    intro z hlo hhi
    have hfits := DiscriminatorType.fits_of_value (hstart.trans hlo) (hhi.trans_le hstop)
    exact ⟨DiscriminatorType.read_ofInt hfits,
      (DiscriminatorType.isValue_ofInt hfits).mpr ⟨hstart.trans hlo, hhi.trans_le hstop⟩⟩
  constructor
  · rintro ⟨d, hd, hfree⟩
    rw [hcalc, Option.map_eq_some_iff] at hd
    obtain ⟨z, hz, rfl⟩ := hd
    have hlt : z < stop := by
      by_contra h
      exact hout z (not_lt.mp h) (firstFrom_lt hz) hfree.1
    refine ⟨f z, hfree, (hreach _ hfree.1).mpr ?_⟩
    rw [hin z (le_firstFrom hz) hlt, (hvalue z (le_firstFrom hz) hlt).1]
    exact ⟨le_firstFrom hz, hlt⟩
  · rintro ⟨d, hfree, hd⟩
    obtain ⟨hlo, hhi⟩ := (hreach d hfree.1).mp hd
    have hleads : u.LeadsToDefault (BitVec.ofInt 64 (u.discrim.read d)) := by
      rw [DiscriminatorType.ofInt_read]
      exact leadsToDefault_iff.mpr hfree.2
    obtain ⟨z, hz, hzlt⟩ := (firstFrom_lt_iff (p := fun c => u.LeadsToDefault (BitVec.ofInt 64 c))
      hleft).mpr ⟨u.discrim.read d, hlo, hhi, hleads⟩
    have hzle := le_firstFrom hz
    refine ⟨f z, by rw [hcalc, search, hz, Option.map_some], ?_⟩
    rw [hin z hzle hzlt]
    exact ⟨(hvalue z hzle hzlt).2, leadsToDefault_iff.mp (firstFrom_holds hz)⟩

/-- The kinds that `NP_default_value` calculates a value for. -/
def Searches : DiscriminatorType → Prop
  | .char | .boolean | .short | .ushort | .long | .ulong | .enum _ _ => True
  | _ => False

lemma finds_iff_boolean (h : u.discrim = .boolean) :
    u.Finds ↔ ∃ d, Free u.discrim u.labels u.default d ∧ Reaches u.discrim d := by
  have hcalc : u.calculateDefault = some (if u.LeadsToDefault 0 then 0 else 1) := by
    rw [calculateDefault, h]
  have hvalue : ∀ d, u.discrim.IsValue d → d = 0 ∨ d = 1 := by
    intro d hd
    rw [h] at hd
    obtain ⟨-, hlt⟩ := hd
    have hnat : (d.toNat : ℤ) < 0 + 2 := hlt
    have : d.toNat = 0 ∨ d.toNat = 1 := by omega
    exact this.imp (fun h0 => BitVec.eq_of_toNat_eq h0) fun h1 => BitVec.eq_of_toNat_eq h1
  rw [h, Finds, hcalc, h]
  constructor
  · rintro ⟨d, -, hfree⟩
    exact ⟨d, hfree, trivial⟩
  · rintro ⟨d, hfree, -⟩
    refine ⟨_, rfl, ?_⟩
    by_cases hzero : u.LeadsToDefault 0
    · rw [if_pos hzero]
      exact ⟨by decide, leadsToDefault_iff.mp hzero⟩
    · rw [if_neg hzero]
      rcases hvalue d (h ▸ hfree.1) with rfl | rfl
      · exact absurd (leadsToDefault_iff.mpr hfree.2) hzero
      · exact hfree

lemma finds_iff (h : Searches u.discrim) :
    u.Finds ↔ ∃ d, Free u.discrim u.labels u.default d ∧ Reaches u.discrim d := by
  obtain ⟨t, labels, default, calculated, memory⟩ := u
  cases t with
  | boolean => exact finds_iff_boolean rfl
  | char =>
    refine finds_iff_of_search 256 rfl le_rfl le_rfl (by decide) ?_ ?_ ?_
    · intro z hlo hhi
      rw [Int.emod_eq_of_lt (by omega) (by omega), add_sub_cancel_right]
    · intro z hlo hhi
      have hlt : z < 65536 := hhi
      rcases eq_or_lt_of_le (Int.le_sub_one_of_lt hlt) with rfl | hlast
      · show ¬ DiscriminatorType.char.IsValue (BitVec.ofInt 64 (-1))
        decide
      · rw [Int.emod_eq_of_lt (by omega) (by omega), add_sub_cancel_right]
        exact DiscriminatorType.not_isValue_ofInt ⟨by omega, by omega⟩ hlo
    · intro d hd
      exact ⟨fun _ => hd, fun _ => trivial⟩
  | short =>
    have hlowest : (-2 ^ 15 : ℤ) ≤ -0x7fff := by norm_num
    have hsize : (2 ^ 15 : ℤ) ≤ -2 ^ 15 + ((2 ^ 16 : ℕ) : ℤ) := by norm_num
    refine finds_iff_of_search (2 ^ 15) rfl hlowest hsize (by norm_num)
      (fun _ _ _ => rfl) ?_ ?_
    · intro z hlo hhi
      have hlt : z < -0x7fff + ((2 ^ 31 - 1 + 0x7fff : ℕ) : ℤ) := hhi
      have hend : (-2 ^ 15 : ℤ) + ((2 ^ 16 : ℕ) : ℤ) ≤ z := by
        norm_num
        omega
      norm_num at hlt
      exact DiscriminatorType.not_isValue_ofInt ⟨by omega, by omega⟩ hend
    · intro d hd
      have hne : d ≠ BitVec.ofInt 64 (-2 ^ 15) ↔ DiscriminatorType.short.read d ≠ -2 ^ 15 :=
        not_congr (DiscriminatorType.eq_ofInt_iff ⟨by decide, by decide⟩)
      have hlow : -2 ^ 15 ≤ DiscriminatorType.short.read d := hd.1
      have hhigh : DiscriminatorType.short.read d < -2 ^ 15 + ((2 ^ 16 : ℕ) : ℤ) := hd.2
      norm_num at hlow hhigh
      refine hne.trans ⟨fun h => ⟨?_, ?_⟩, fun h => ?_⟩
      · show -0x7fff ≤ DiscriminatorType.short.read d
        omega
      · show DiscriminatorType.short.read d < 2 ^ 15
        omega
      · have : -0x7fff ≤ DiscriminatorType.short.read d := h.1
        omega
  | long =>
    have hlowest : (-2 ^ 31 : ℤ) ≤ -0x7fffffff := by norm_num
    have hsize : (2 ^ 31 - 1 : ℤ) ≤ -2 ^ 31 + ((2 ^ 32 : ℕ) : ℤ) := by norm_num
    refine finds_iff_of_search (2 ^ 31 - 1) rfl hlowest hsize (by norm_num)
      (fun _ _ _ => rfl) ?_ ?_
    · intro z hlo hhi
      have hlt : z < -0x7fffffff + ((2 ^ 32 - 2 : ℕ) : ℤ) := hhi
      norm_num at hlt
      omega
    · intro d hd
      have hne : d ≠ BitVec.ofInt 64 (-2 ^ 31) ↔ DiscriminatorType.long.read d ≠ -2 ^ 31 :=
        not_congr (DiscriminatorType.eq_ofInt_iff ⟨by decide, by decide⟩)
      have hne' : d ≠ BitVec.ofInt 64 (2 ^ 31 - 1) ↔ DiscriminatorType.long.read d ≠ 2 ^ 31 - 1 :=
        not_congr (DiscriminatorType.eq_ofInt_iff ⟨by decide, by decide⟩)
      have hlow : -2 ^ 31 ≤ DiscriminatorType.long.read d := hd.1
      have hhigh : DiscriminatorType.long.read d < -2 ^ 31 + ((2 ^ 32 : ℕ) : ℤ) := hd.2
      norm_num at hlow hhigh
      refine (and_congr hne hne').trans ⟨fun h => ⟨?_, ?_⟩, fun h => ?_⟩
      · show -0x7fffffff ≤ DiscriminatorType.long.read d
        omega
      · show DiscriminatorType.long.read d < 2 ^ 31 - 1
        omega
      · have hlo : -0x7fffffff ≤ DiscriminatorType.long.read d := h.1
        have hhi : DiscriminatorType.long.read d < 2 ^ 31 - 1 := h.2
        omega
  | ushort =>
    have hsize : (2 ^ 16 : ℤ) = 0 + ((2 ^ 16 : ℕ) : ℤ) := by norm_num
    refine finds_iff_of_search (2 ^ 16) rfl le_rfl hsize.le (by norm_num) (fun _ _ _ => rfl) ?_ ?_
    · intro z hlo hhi
      have hlt : z < 0 + ((2 ^ 32 : ℕ) : ℤ) := hhi
      norm_num at hlt
      exact DiscriminatorType.not_isValue_ofInt ⟨by omega, by omega⟩ (hsize ▸ hlo)
    · intro d hd
      exact ⟨fun _ => ⟨hd.1, hsize ▸ hd.2⟩, fun _ => trivial⟩
  | ulong =>
    have hsize : (2 ^ 32 : ℤ) = 0 + ((2 ^ 32 : ℕ) : ℤ) := by norm_num
    refine finds_iff_of_search (2 ^ 32) rfl le_rfl hsize.le hsize.le (fun _ _ _ => rfl) ?_ ?_
    · intro z hlo hhi
      exact absurd hhi (hsize ▸ not_lt.mpr hlo)
    · intro d hd
      exact ⟨fun _ => ⟨hd.1, hsize ▸ hd.2⟩, fun _ => trivial⟩
  | enum id n =>
    have hn := n.isLt
    refine finds_iff_of_search n.toNat rfl le_rfl (by simp [DiscriminatorType.lowest, DiscriminatorType.size])
      (by norm_num; omega) (fun _ _ _ => rfl) ?_ ?_
    · intro z hlo hhi
      have hlt : z < 0 + ((2 ^ 32 : ℕ) : ℤ) := hhi
      norm_num at hlt
      refine DiscriminatorType.not_isValue_ofInt ⟨by omega, by omega⟩ ?_
      simpa [DiscriminatorType.lowest, DiscriminatorType.size] using hlo
    · intro d hd
      exact ⟨fun _ => by simpa [DiscriminatorType.IsValue, DiscriminatorType.lowest, DiscriminatorType.size] using hd,
        fun _ => trivial⟩
  | _ => exact h.elim

end TypeCodeUnion

/-- A discriminator of 64 bits. -/
def DiscriminatorType.Wide (t : DiscriminatorType) : Prop := t.expand = longlong ∨ t.expand = ulonglong

lemma DiscriminatorType.fits_end {t : DiscriminatorType} (h : ¬ t.Wide) :
    t.Fits (t.lowest + t.size) := by
  induction t with
  | «alias» t ih => exact ih h
  | enum id n =>
    have hn := n.isLt
    show (0 : ℤ) ≤ 0 + n.toNat ∧ (0 : ℤ) + n.toNat < 2 ^ 64
    omega
  | longlong => exact absurd (Or.inl rfl) h
  | ulonglong => exact absurd (Or.inr rfl) h
  | _ =>
    simp only [Fits, lowest, size]
    norm_num

lemma DiscriminatorType.forall_isValue_iff {t : DiscriminatorType} : (∀ d, t.IsValue d) ↔ t.Wide := by
  constructor
  · intro h
    by_contra hwide
    exact not_isValue_ofInt (fits_end hwide) le_rfl (h _)
  · intro h d
    rw [IsValue, read, ← lowest_expand, ← size_expand]
    rcases h with h | h
    · have hlo := BitVec.le_toInt d
      have hhi := BitVec.toInt_lt (x := d)
      rw [h, lowest, size]
      norm_num at hlo hhi ⊢
      omega
    · have hhi := d.isLt
      rw [h]
      show 0 ≤ (d.toNat : ℤ) ∧ (d.toNat : ℤ) < 0 + ((2 ^ 64 : ℕ) : ℤ)
      push_cast
      omega

namespace TypeCodeUnion

lemma not_wide_of_searches {t : DiscriminatorType} (h : Searches t) : ¬ t.Wide := by
  cases t with
  | octet | longlong | ulonglong | «alias» t | other => exact h.elim
  | _ => exact fun hwide => hwide.elim (fun h => by cases h) fun h => by cases h

lemma calculateDefault_of_not_searches {u : TypeCodeUnion} (h : ¬ Searches u.discrim) :
    u.calculateDefault = some u.defaultValue := by
  obtain ⟨t, labels, default, calculated, memory⟩ := u
  cases t with
  | octet | longlong | ulonglong | «alias» t | other => rfl
  | _ => exact absurd trivial h

lemma not_reaches_of_not_searches {t : DiscriminatorType} {d : Discriminator} (h : ¬ Searches t) :
    ¬ Reaches t d := by
  cases t with
  | octet | longlong | ulonglong | «alias» t | other => exact id
  | _ => exact absurd trivial h

/-- A free value is found whatever the memory holds. -/
lemma forall_finds_iff {u : TypeCodeUnion} :
    (∀ memory, Finds { u with defaultValue := memory }) ↔
      (∃ d, Free u.discrim u.labels u.default d ∧ Reaches u.discrim d) ∨
        (u.discrim.Wide ∧ ∀ (i : ℕ) (l : Discriminator), u.labels[i]? = some l → (i : ℤ) = u.default) := by
  by_cases hsearches : Searches u.discrim
  · constructor
    · intro h
      exact Or.inl ((finds_iff (u := u) hsearches).mp (h u.defaultValue))
    · rintro (h | ⟨hwide, -⟩) memory
      · exact (finds_iff (u := { u with defaultValue := memory }) hsearches).mpr h
      · exact absurd hwide (not_wide_of_searches hsearches)
  · have hfinds : ∀ memory, Finds { u with defaultValue := memory } ↔
        Free u.discrim u.labels u.default memory := by
      intro memory
      rw [Finds, calculateDefault_of_not_searches (u := { u with defaultValue := memory }) hsearches]
      constructor
      · rintro ⟨d, hd, hfree⟩
        obtain rfl : memory = d := Option.some.inj hd
        exact hfree
      · exact fun hfree => ⟨memory, rfl, hfree⟩
    simp only [hfinds]
    constructor
    · intro h
      refine Or.inr ⟨DiscriminatorType.forall_isValue_iff.mp fun d => (h d).1, ?_⟩
      intro i l hl
      by_contra hi
      exact (h l).2 ⟨i, hi, hl⟩
    · rintro (⟨d, -, hd⟩ | ⟨hwide, hlabels⟩) memory
      · exact absurd hd (not_reaches_of_not_searches hsearches)
      · refine ⟨DiscriminatorType.forall_isValue_iff.mpr hwide memory, ?_⟩
        rintro ⟨i, hi, hl⟩
        exact hi (hlabels i memory hl)

end TypeCodeUnion

/-! ### The three constructions -/

namespace Construction

def discrim : Construction → DiscriminatorType
  | stub discrim _ _ | create discrim _ | unmarshal discrim _ _ => discrim

def labels : Construction → List Discriminator
  | stub _ labels _ => labels
  | create _ members => members.map Label.value
  | unmarshal discrim _ words => (words.mapM (unmarshalLabel discrim)).toOption.getD []

/-- The index of the default member that is given, or a negative one. -/
def index : Construction → ℤ
  | stub _ _ deflt | unmarshal _ deflt _ => deflt.toInt
  | create _ members => (members.findIdx? Label.isOctet).elim (-1) fun i => i

/-- The value is one of the discriminator's, and not the label of a member that is not the default one. -/
def IsFree (k : Construction) (d : Discriminator) : Prop := Free k.discrim k.labels k.index d

/-- How many members are known when the default is classified. -/
def known : Construction → ℕ
  | stub _ labels _ => labels.length
  | create _ members => members.length
  | unmarshal _ _ _ => 0

/-- What `pd_default` becomes. -/
def Classified (k : Construction) (default : ℤ) : Prop :=
  (0 ≤ k.index ∧ default = k.index) ∨
    (k.index < 0 ∧ ∃ n, k.discrim.npossible = .ok n ∧
      default = if k.known < n then implicitDefault else noDefault)

variable {k : Construction} {memory : Discriminator} {u : TypeCodeUnion}

lemma hasImplicitDefault_of_neg {discrim : DiscriminatorType} {default : ℤ} {n : ℕ} {b : Bool}
    (hdefault : default < 0) (h : TypeCodeUnion.hasImplicitDefault discrim default n = .ok b) :
    ∃ m, discrim.npossible = .ok m ∧ b = decide (n < m) := by
  rw [TypeCodeUnion.hasImplicitDefault, if_neg (not_le.mpr hdefault), bind_eq_ok] at h
  obtain ⟨m, hm, hb⟩ := h
  exact ⟨m, hm, (Except.ok.inj hb).symm⟩

lemma classify_of_neg {discrim : DiscriminatorType} {n : ℕ} {default : ℤ}
    (h : TypeCodeUnion.classify discrim implicitDefault n = .ok default) :
    ∃ m, discrim.npossible = .ok m ∧ default = if n < m then implicitDefault else noDefault := by
  rw [TypeCodeUnion.classify, if_pos rfl, bind_eq_ok] at h
  obtain ⟨b, hb, hdefault⟩ := h
  obtain ⟨m, hm, rfl⟩ := hasImplicitDefault_of_neg (by decide) hb
  refine ⟨m, hm, ?_⟩
  by_cases hlt : n < m
  · rw [decide_eq_true hlt] at hdefault
    rw [if_pos hlt]
    exact (Except.ok.inj hdefault).symm
  · rw [decide_eq_false hlt] at hdefault
    rw [if_neg hlt]
    exact (Except.ok.inj hdefault).symm

lemma classify_of_nonneg {discrim : DiscriminatorType} {n : ℕ} {default default' : ℤ}
    (hdefault : 0 ≤ default) (h : TypeCodeUnion.classify discrim default n = .ok default') :
    default' = default := by
  have hne : default ≠ implicitDefault := by
    rintro rfl
    exact absurd hdefault (by decide)
  rw [TypeCodeUnion.classify, if_neg hne] at h
  exact (Except.ok.inj h).symm

/-- What a construction makes. -/
structure Makes (k : Construction) (memory : Discriminator) (u : TypeCodeUnion) : Prop where
  discrim : u.discrim = k.discrim
  labels : u.labels = k.labels
  classified : k.Classified u.default
  haveCalculatedDefaultValue : u.haveCalculatedDefaultValue = false
  defaultValue : u.defaultValue = memory

lemma makes_of_stub {discrim : DiscriminatorType} {labels : List Discriminator} {deflt : BitVec 32}
    (h : TypeCodeUnion.stub memory discrim labels deflt = .ok u) :
    (stub discrim labels deflt).Makes memory u := by
  obtain ⟨default, hdefault, hu⟩ := bind_eq_ok.mp h
  obtain rfl := Except.ok.inj hu
  refine ⟨rfl, rfl, ?_, rfl, rfl⟩
  by_cases hneg : deflt.toInt < 0
  · rw [if_pos hneg] at hdefault
    exact Or.inr ⟨hneg, classify_of_neg hdefault⟩
  · rw [if_neg hneg] at hdefault
    exact Or.inl ⟨not_lt.mp hneg, classify_of_nonneg (not_lt.mp hneg) hdefault⟩

lemma makes_of_unmarshal {discrim : DiscriminatorType} {deflt : BitVec 32} {words : List (BitVec 64)}
    (h : TypeCodeUnion.unmarshal memory discrim deflt words = .ok u) :
    (unmarshal discrim deflt words).Makes memory u := by
  obtain ⟨default, hdefault, h⟩ := bind_eq_ok.mp h
  obtain ⟨labels, hlabels, hu⟩ := bind_eq_ok.mp h
  obtain rfl := Except.ok.inj hu
  have hk : (unmarshal discrim deflt words).labels = labels := by
    rw [Construction.labels, hlabels]
    rfl
  refine ⟨rfl, hk.symm, ?_, rfl, rfl⟩
  by_cases hneg : deflt.toInt < 0
  · rw [TypeCodeUnion.readDefault, if_pos hneg] at hdefault
    obtain ⟨b, hb, hdefault⟩ := bind_eq_ok.mp hdefault
    obtain ⟨m, hm, rfl⟩ := hasImplicitDefault_of_neg hneg hb
    refine Or.inr ⟨hneg, m, hm, ?_⟩
    show _ = if 0 < m then implicitDefault else noDefault
    by_cases hpos : 0 < m
    · rw [decide_eq_true hpos] at hdefault
      rw [if_pos hpos]
      exact (Except.ok.inj hdefault).symm
    · rw [decide_eq_false hpos] at hdefault
      rw [if_neg hpos]
      exact (Except.ok.inj hdefault).symm
  · rw [TypeCodeUnion.readDefault, if_neg hneg] at hdefault
    exact Or.inl ⟨not_lt.mp hneg, (Except.ok.inj hdefault).symm⟩

/-! ### The members of `create_union_tc` -/

lemma extractLabel_eq_ok {label : Label} {discrim : DiscriminatorType} {v : Discriminator}
    (h : extractLabel label discrim = .ok v) : v = label.value := by
  obtain ⟨-, -, h⟩ := bind_eq_ok.mp h
  obtain ⟨-, -, h⟩ := bind_eq_ok.mp h
  exact (Except.ok.inj h).symm

/-- What a member adds: its label, and the default if it is an octet. -/
lemma addMember_eq_ok {discrim : DiscriminatorType} {s s' : ℤ × List Discriminator} {label : Label}
    (h : TypeCodeUnion.addMember discrim s label = .ok s') :
    s'.2 = s.2 ++ [label.value] ∧
      (label.isOctet = true ∧ s.1 < 0 ∧ s'.1 = s.2.length ∨ label.isOctet = false ∧ s'.1 = s.1) := by
  obtain ⟨⟨default, alabel⟩, hmember, hs⟩ := bind_eq_ok.mp h
  have hs' : s' = (default, s.2 ++ [alabel]) := by
    dsimp only at hs
    by_cases hdup : ((s.2.length : ℤ) ≠ default ∧ ∃ j < s.2.length, (j : ℤ) ≠ default ∧ s.2[j]? = some alabel)
    · rw [if_pos hdup] at hs
      cases hs
    · rw [if_neg hdup] at hs
      exact (Except.ok.inj hs).symm
  rw [hs']
  by_cases hoctet : label.isOctet = true
  · rw [TypeCodeUnion.memberLabel, if_pos hoctet] at hmember
    split_ifs at hmember with hdefault hvalue
    · obtain ⟨rfl, rfl⟩ := Prod.mk.inj (Except.ok.inj hmember)
      rw [not_not.mp hvalue]
      exact ⟨rfl, Or.inl ⟨hoctet, not_le.mp hdefault, rfl⟩⟩
  · rw [TypeCodeUnion.memberLabel, if_neg hoctet] at hmember
    cases hv : extractLabel label discrim with
    | error e =>
      rw [hv] at hmember
      cases hmember
    | ok v =>
      rw [hv] at hmember
      obtain ⟨rfl, rfl⟩ := Prod.mk.inj (Except.ok.inj hmember)
      rw [extractLabel_eq_ok hv]
      exact ⟨rfl, Or.inr ⟨Bool.not_eq_true _ ▸ hoctet, rfl⟩⟩

lemma foldlM_addMember {discrim : DiscriminatorType} {members : List Label}
    {s s' : ℤ × List Discriminator}
    (h : members.foldlM (TypeCodeUnion.addMember discrim) s = .ok s') :
    s'.2 = s.2 ++ members.map Label.value ∧
      s'.1 = (members.findIdx? Label.isOctet).elim s.1 (fun i => ((s.2.length + i : ℕ) : ℤ)) ∧
      (0 ≤ s.1 → members.findIdx? Label.isOctet = none) := by
  induction members generalizing s with
  | nil =>
    obtain rfl := Except.ok.inj h
    exact ⟨(List.append_nil _).symm, rfl, fun _ => rfl⟩
  | cons label members ih =>
    rw [List.foldlM_cons, bind_eq_ok] at h
    obtain ⟨s1, hs1, h⟩ := h
    obtain ⟨hlabels, hdefault⟩ := addMember_eq_ok hs1
    obtain ⟨ihlabels, ihdefault, ihnone⟩ := ih h
    refine ⟨by rw [ihlabels, hlabels, List.append_assoc]; rfl, ?_⟩
    rw [List.findIdx?_cons]
    rcases hdefault with ⟨hoctet, hneg, hs⟩ | ⟨hoctet, hs⟩
    · have hnone := ihnone (by rw [hs]; exact Int.natCast_nonneg _)
      rw [hnone] at ihdefault
      rw [hoctet, ihdefault]
      exact ⟨hs, fun h0 => absurd h0 (not_le.mpr hneg)⟩
    · rw [hoctet, ihdefault, hs]
      refine ⟨?_, fun h0 => ?_⟩
      · cases members.findIdx? Label.isOctet with
        | none => rfl
        | some i =>
          show ((s1.2.length + i : ℕ) : ℤ) = ((s.2.length + (i + 1) : ℕ) : ℤ)
          rw [hlabels, List.length_append, List.length_singleton, Nat.add_assoc, Nat.add_comm 1 i]
      · rw [ihnone (hs ▸ h0)]
        rfl

lemma makes_of_create {discrim : DiscriminatorType} {members : List Label}
    (h : TypeCodeUnion.create memory discrim members = .ok u) :
    (create discrim members).Makes memory u := by
  rw [TypeCodeUnion.create] at h
  split_ifs at h with hempty
  obtain ⟨⟨default, labels⟩, hfold, h⟩ := bind_eq_ok.mp h
  obtain ⟨default', hdefault, hu⟩ := bind_eq_ok.mp h
  obtain rfl := Except.ok.inj hu
  obtain ⟨hlabels, hindex, -⟩ := foldlM_addMember hfold
  obtain rfl : labels = members.map Label.value := hlabels
  refine ⟨rfl, rfl, ?_, rfl, rfl⟩
  rw [List.length_map] at hdefault
  cases hoctet : members.findIdx? Label.isOctet with
  | none =>
    have hk : (create discrim members).index = -1 := by
      rw [index, hoctet]
      rfl
    rw [hoctet] at hindex
    obtain rfl : default = implicitDefault := hindex
    exact Or.inr ⟨hk ▸ by decide, classify_of_neg hdefault⟩
  | some i =>
    have hk : (create discrim members).index = i := by
      rw [index, hoctet]
      rfl
    rw [hoctet] at hindex
    obtain rfl : default = ((0 + i : ℕ) : ℤ) := hindex
    rw [Nat.zero_add] at hdefault
    have := classify_of_nonneg (Int.natCast_nonneg i) hdefault
    exact Or.inl ⟨hk ▸ Int.natCast_nonneg i, by rw [hk, this]⟩

lemma makes_of_build (h : k.build memory = .ok u) : k.Makes memory u := by
  cases k with
  | stub discrim labels deflt => exact makes_of_stub h
  | unmarshal discrim deflt words => exact makes_of_unmarshal h
  | create discrim members => exact makes_of_create h

/-- Whether a TypeCode is made does not depend on the memory. -/
lemma build_memory (h : k.build memory = .ok u) (memory' : Discriminator) :
    k.build memory' = .ok { u with defaultValue := memory' } := by
  cases k with
  | stub discrim labels deflt =>
    obtain ⟨default, hdefault, hu⟩ := bind_eq_ok.mp h
    obtain rfl := Except.ok.inj hu
    exact bind_eq_ok.mpr ⟨default, hdefault, rfl⟩
  | unmarshal discrim deflt words =>
    obtain ⟨default, hdefault, h⟩ := bind_eq_ok.mp h
    obtain ⟨labels, hlabels, hu⟩ := bind_eq_ok.mp h
    obtain rfl := Except.ok.inj hu
    exact bind_eq_ok.mpr ⟨default, hdefault, bind_eq_ok.mpr ⟨labels, hlabels, rfl⟩⟩
  | create discrim members =>
    rw [build, TypeCodeUnion.create] at h ⊢
    by_cases hempty : members.length = 0
    · rw [if_pos hempty] at h
      cases h
    · rw [if_neg hempty] at h ⊢
      obtain ⟨s, hs, h⟩ := bind_eq_ok.mp h
      obtain ⟨default, hdefault, hu⟩ := bind_eq_ok.mp h
      obtain rfl := Except.ok.inj hu
      exact bind_eq_ok.mpr ⟨s, hs, bind_eq_ok.mpr ⟨default, hdefault, rfl⟩⟩

end Construction

/-! ### The defaults -/

/-- The classification and the default value of a union are right. -/
structure TypeCodeUnion.DefaultsRight (u : TypeCodeUnion) : Prop where
  classified : u.default = implicitDefault ↔
    ¬ (0 ≤ u.default ∧ u.default < u.labels.length) ∧ ∃ d, Free u.discrim u.labels u.default d
  found : u.default ≠ noDefault → ∃ d u', u.getDefaultValue = some (.ok d, u') ∧
    u'.getDefaultValue = some (.ok d, u') ∧ Free u.discrim u.labels u.default d ∧
    u.indexFromDiscriminator d = u.default

lemma TypeCodeUnion.found_iff {u : TypeCodeUnion} (hfresh : u.haveCalculatedDefaultValue = false)
    (hdefault : implicitDefault ≤ u.default) :
    (∃ d u', u.getDefaultValue = some (.ok d, u') ∧ u'.getDefaultValue = some (.ok d, u') ∧
      Free u.discrim u.labels u.default d ∧ u.indexFromDiscriminator d = u.default) ↔ u.Finds := by
  have hne : u.default ≠ noDefault := fun h => absurd (h ▸ hdefault) (by decide)
  have hget : u.getDefaultValue = u.calculateDefault.map fun d =>
      (.ok d, { u with haveCalculatedDefaultValue := true, defaultValue := d }) := by
    rw [getDefaultValue, if_neg hne, hfresh, if_neg Bool.false_ne_true]
  constructor
  · rintro ⟨d, u', hd, -, hfree, -⟩
    rw [hget, Option.map_eq_some_iff] at hd
    obtain ⟨d', hcalc, hd'⟩ := hd
    obtain rfl := Except.ok.inj (Prod.mk.inj hd').1
    exact ⟨d', hcalc, hfree⟩
  · rintro ⟨d, hcalc, hfree⟩
    refine ⟨d, { u with haveCalculatedDefaultValue := true, defaultValue := d }, ?_, ?_, hfree, ?_⟩
    · rw [hget, hcalc, Option.map_some]
    · rw [getDefaultValue, if_neg hne, if_pos rfl]
    · rw [indexFromDiscriminator_of_unlabelled hfree.2]
      split_ifs with hneg
      · rfl
      · exact le_antisymm hdefault (by rw [implicitDefault] at hdefault; omega)

namespace Construction

/-- Whatever the memory of the TypeCode holds, its defaults are right. -/
def DefaultsRight (k : Construction) : Prop := ∀ memory u, k.build memory = .ok u → u.DefaultsRight

/-- Where there is no default member, the number of members says whether a value is left. -/
def Counted (k : Construction) : Prop :=
  match k with
  | unmarshal discrim _ _ => (∃ d, k.IsFree d) ∨ discrim.size = 0
  | stub .. | create .. => ∀ n, k.discrim.npossible = .ok n → n ≤ k.labels.length → ∀ d, ¬ k.IsFree d

/-- The search gets to a free value; or none is made, and every value is a free one. -/
def Searched (k : Construction) : Prop :=
  (∃ d, k.IsFree d ∧ TypeCodeUnion.Reaches k.discrim d) ∨
    (k.discrim.Wide ∧ ∀ (i : ℕ) (l : Discriminator), k.labels[i]? = some l → (i : ℤ) = k.index)

/-- When the defaults of a union are right. -/
structure DefaultsFit (k : Construction) : Prop where
  index : k.index < k.labels.length
  counted : k.index < 0 → k.Counted
  searched : 0 ≤ k.index ∨ (∃ d, k.IsFree d) → k.Searched

variable {k : Construction} {memory : Discriminator} {u : TypeCodeUnion}

lemma exists_isFree {n : ℕ} (hn : k.discrim.npossible = .ok n) (hlt : k.labels.length < n) :
    ∃ d, k.IsFree d := by
  obtain ⟨d, hvalue, hd⟩ :=
    DiscriminatorType.exists_value_notMem (hlt.trans_le (DiscriminatorType.npossible_le hn))
  exact ⟨d, hvalue, fun hlabelled => hd hlabelled.mem⟩

/-- Where more values are possible than members known, the union is taken to have a default. -/
lemma counted_iff_of_lt {n : ℕ} (hn : k.discrim.npossible = .ok n) (hlt : k.known < n) :
    k.Counted ↔ ∃ d, k.IsFree d := by
  have hfree : k.labels.length = k.known → ∃ d, k.IsFree d := fun hlen =>
    exists_isFree hn (hlen ▸ hlt)
  have hnot : ∀ m, k.discrim.npossible = .ok m → ¬ m ≤ k.known := by
    intro m hm
    rw [hn] at hm
    exact Except.ok.inj hm ▸ not_le.mpr hlt
  cases k with
  | stub discrim labels deflt =>
    exact ⟨fun _ => hfree rfl, fun _ m hm hle => absurd hle (hnot m hm)⟩
  | create discrim members =>
    have hlen : (create discrim members).labels.length = members.length := List.length_map _
    exact ⟨fun _ => hfree hlen, fun _ m hm hle => absurd (hle.trans_eq hlen) (hnot m hm)⟩
  | unmarshal discrim deflt words =>
    have hsize := (DiscriminatorType.npossible_pos_iff hn).mp hlt
    exact ⟨fun h => h.resolve_right hsize.ne', Or.inl⟩

/-- Where no more values are possible than members known, the union is taken to have no default. -/
lemma counted_iff_of_le {n : ℕ} (hn : k.discrim.npossible = .ok n) (hle : n ≤ k.known) :
    k.Counted ↔ ¬ ∃ d, k.IsFree d := by
  cases k with
  | stub discrim labels deflt =>
    exact ⟨fun h hd => hd.elim (h n hn hle), fun h _ _ _ d hd => h ⟨d, hd⟩⟩
  | create discrim members =>
    have hlen : (create discrim members).labels.length = members.length := List.length_map _
    exact ⟨fun h hd => hd.elim (h n hn (hlen ▸ hle)), fun h _ _ _ d hd => h ⟨d, hd⟩⟩
  | unmarshal discrim deflt words =>
    have hsize : discrim.size = 0 := by
      by_contra hne
      have := (DiscriminatorType.npossible_pos_iff hn).mpr (Nat.pos_of_ne_zero hne)
      exact absurd hle (not_le.mpr this)
    refine ⟨?_, fun _ => Or.inr hsize⟩
    rintro - ⟨d, hvalue, -⟩
    obtain ⟨hlo, hhi⟩ := hvalue
    have hzero : ((unmarshal discrim deflt words).discrim.size : ℤ) = 0 := by
      show (discrim.size : ℤ) = 0
      rw [hsize]
      rfl
    omega

/-- The defaults of all the unions that a construction makes, from those of one. -/
lemma defaultsRight_iff (hbuild : k.build memory = .ok u) :
    k.DefaultsRight ↔ ∀ memory', { u with defaultValue := memory' }.DefaultsRight := by
  constructor
  · intro h memory'
    exact h memory' _ (build_memory hbuild memory')
  · intro h memory' u' hu'
    have := build_memory hbuild memory'
    rw [hu'] at this
    exact Except.ok.inj this ▸ h memory'

/-- Whatever the memory holds, a free value is found. -/
lemma forall_finds_iff_searched (hmakes : k.Makes memory u)
    (hfree : ∀ d, Free u.discrim u.labels u.default d ↔ k.IsFree d)
    (hindex : ∀ i : ℕ, (i : ℤ) = u.default ↔ (i : ℤ) = k.index) :
    (∀ memory', TypeCodeUnion.Finds { u with defaultValue := memory' }) ↔ k.Searched := by
  have hfree' : ∀ d, Free k.discrim k.labels u.default d ↔ k.IsFree d := by
    intro d
    rw [← hmakes.discrim, ← hmakes.labels]
    exact hfree d
  rw [TypeCodeUnion.forall_finds_iff, Searched]
  simp only [hmakes.discrim, hmakes.labels, hfree', hindex]

/-- With a default member that is given. -/
lemma defaultsRight_iff_of_nonneg (hbuild : k.build memory = .ok u) (hindex : 0 ≤ k.index) :
    k.DefaultsRight ↔ k.DefaultsFit := by
  have hmakes := makes_of_build hbuild
  have hdefault : u.default = k.index := by
    rcases hmakes.classified with ⟨-, h⟩ | ⟨hneg, -⟩
    · exact h
    · exact absurd hindex (not_le.mpr hneg)
  have hfree : ∀ d, Free u.discrim u.labels u.default d ↔ k.IsFree d := by
    intro d
    rw [hmakes.discrim, hmakes.labels, hdefault]
    rfl
  have hsearched := forall_finds_iff_searched hmakes hfree fun i => by rw [hdefault]
  have hle : implicitDefault ≤ u.default := (by decide : implicitDefault ≤ 0).trans (hdefault ▸ hindex)
  have hne : u.default ≠ noDefault := fun h => absurd (h ▸ hle) (by decide)
  have himplicit : u.default ≠ implicitDefault := fun h =>
    absurd (h ▸ hdefault ▸ hindex : 0 ≤ implicitDefault) (by decide)
  have hfound : ∀ memory', _ := fun memory' =>
    TypeCodeUnion.found_iff (u := { u with defaultValue := memory' }) hmakes.haveCalculatedDefaultValue hle
  rw [defaultsRight_iff hbuild]
  constructor
  · intro h
    have hfinds : ∀ memory', TypeCodeUnion.Finds { u with defaultValue := memory' } := fun memory' =>
      (hfound memory').mp ((h memory').found hne)
    refine ⟨?_, fun hneg => absurd hindex (not_le.mpr hneg), fun _ => hsearched.mp hfinds⟩
    by_contra hge
    obtain ⟨d, -, hd⟩ := hfinds 0
    refine himplicit ((h 0).classified.mpr ⟨?_, d, hd⟩)
    rintro ⟨-, hlt⟩
    rw [← hdefault, ← hmakes.labels] at hge
    exact hge hlt
  · rintro ⟨hlt, -, hs⟩ memory'
    refine ⟨iff_of_false himplicit ?_, fun _ => ?_⟩
    · rintro ⟨hnone, -⟩
      rw [← hdefault, ← hmakes.labels] at hlt
      exact hnone ⟨hdefault ▸ hindex, hlt⟩
    · exact (hfound memory').mpr (hsearched.mpr (hs (Or.inl hindex)) memory')

/-- Without one. -/
lemma defaultsRight_iff_of_neg (hbuild : k.build memory = .ok u) (hindex : k.index < 0) :
    k.DefaultsRight ↔ k.DefaultsFit := by
  have hmakes := makes_of_build hbuild
  obtain ⟨n, hn, hdefault⟩ : ∃ n, k.discrim.npossible = .ok n ∧
      u.default = if k.known < n then implicitDefault else noDefault := by
    rcases hmakes.classified with ⟨hnonneg, -⟩ | ⟨-, h⟩
    · exact absurd hnonneg (not_le.mpr hindex)
    · exact h
  have hneg : u.default < 0 := by
    rw [hdefault]
    split_ifs
    · decide
    · decide
  have hfree : ∀ d, Free u.discrim u.labels u.default d ↔ k.IsFree d := by
    intro d
    rw [hmakes.discrim, hmakes.labels]
    exact and_congr_right fun _ => not_congr (labelled_congr hneg hindex)
  have hsearched := forall_finds_iff_searched hmakes hfree fun i =>
    iff_of_false (by omega) (by omega)
  have hlength : k.index < k.labels.length := hindex.trans_le (Int.natCast_nonneg _)
  have hnone : ¬ (0 ≤ u.default ∧ u.default < u.labels.length) := fun h => absurd h.1 (not_le.mpr hneg)
  have hexists : (∃ d, Free u.discrim u.labels u.default d) ↔ ∃ d, k.IsFree d := exists_congr hfree
  rw [defaultsRight_iff hbuild]
  by_cases hlt : k.known < n
  · have hcounted := counted_iff_of_lt hn hlt
    rw [if_pos hlt] at hdefault
    have hne : u.default ≠ noDefault := by
      rw [hdefault]
      decide
    have hfound : ∀ memory', _ := fun memory' =>
      TypeCodeUnion.found_iff (u := { u with defaultValue := memory' })
        hmakes.haveCalculatedDefaultValue hdefault.ge
    constructor
    · intro h
      have hsome := hexists.mp ((h 0).classified.mp hdefault).2
      exact ⟨hlength, fun _ => hcounted.mpr hsome, fun _ => hsearched.mp fun memory' =>
        (hfound memory').mp ((h memory').found hne)⟩
    · rintro ⟨-, hc, hs⟩ memory'
      have hsome := hcounted.mp (hc hindex)
      exact ⟨iff_of_true hdefault ⟨hnone, hexists.mpr hsome⟩, fun _ =>
        (hfound memory').mpr (hsearched.mpr (hs (Or.inr hsome)) memory')⟩
  · have hcounted := counted_iff_of_le hn (not_lt.mp hlt)
    rw [if_neg hlt] at hdefault
    have himplicit : u.default ≠ implicitDefault := by
      rw [hdefault]
      decide
    constructor
    · intro h
      have hno : ¬ ∃ d, k.IsFree d := fun hsome =>
        himplicit ((h 0).classified.mpr ⟨hnone, hexists.mpr hsome⟩)
      exact ⟨hlength, fun _ => hcounted.mpr hno, fun hs =>
        (hs.resolve_left (not_le.mpr hindex) |> hno).elim⟩
    · rintro ⟨-, hc, -⟩ memory'
      have hno := hcounted.mp (hc hindex)
      exact ⟨iff_of_false himplicit fun h => hno (hexists.mp h.2), fun h => absurd hdefault h⟩

/-- The defaults of a union are right exactly when they fit. -/
theorem union_defaults_right (h : ∃ memory u, k.build memory = .ok u) :
    k.DefaultsRight ↔ k.DefaultsFit := by
  obtain ⟨memory, u, hbuild⟩ := h
  rcases le_or_gt 0 k.index with hindex | hindex
  · exact defaultsRight_iff_of_nonneg hbuild hindex
  · exact defaultsRight_iff_of_neg hbuild hindex

/-- A union of shorts with one member and no default. -/
theorem union_defaults_right_short :
    (∃ memory u, (stub .short [3] (-1)).build memory = .ok u) ∧
      ((stub .short [3] (-1)).DefaultsRight ↔ (stub .short [3] (-1)).DefaultsFit) :=
  ⟨⟨0, _, rfl⟩, union_defaults_right ⟨0, _, rfl⟩⟩

/-- A union from the network that has a member for both truth values is given a default, which is the
label of a member. No default is calculated for a discriminator of 64 bits. -/
theorem union_default_is_label :
    ¬ (∀ k : Construction, (∃ memory u, k.build memory = .ok u) → k.DefaultsRight) ∧
      ¬ (unmarshal .boolean (-1) [1, 0]).DefaultsRight ∧ ¬ (stub .longlong [1, 0] 1).DefaultsRight := by
  have hboolean : ¬ (unmarshal .boolean (-1) [1, 0]).DefaultsRight := by
    intro h
    obtain ⟨-, d, ⟨-, hlt⟩, hd⟩ := (h 0 _ rfl).classified.mp rfl
    have hnat : (d.toNat : ℤ) < 0 + 2 := hlt
    have : d.toNat = 0 ∨ d.toNat = 1 := by omega
    rcases this with h0 | h1
    · obtain rfl : d = 0 := BitVec.eq_of_toNat_eq h0
      exact hd ⟨1, by decide, rfl⟩
    · obtain rfl : d = 1 := BitVec.eq_of_toNat_eq h1
      exact hd ⟨0, by decide, rfl⟩
  refine ⟨fun h => hboolean (h _ ⟨0, _, rfl⟩), hboolean, fun h => ?_⟩
  obtain ⟨d, u', hd, -, hfree, -⟩ := (h 1 _ rfl).found (by decide)
  obtain rfl : 1 = d := Except.ok.inj (Prod.mk.inj (Option.some.inj hd)).1
  exact hfree.2 ⟨0, by decide, rfl⟩

end Construction

end TypeCodes

end OmniORB
