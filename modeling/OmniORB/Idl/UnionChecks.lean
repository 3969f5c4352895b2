import OmniORB.Idl.Exactness
import OmniORB.Idl.UnionLabels

/-!
# What the checks of case labels ensure

A union without errors has different labels, all of them values of its switch type, and a default value
that is none of them.
-/

namespace OmniORB.Idl

open Library

variable {t : SwitchType} {sw : UnionSwitch} {v : LabelValue} {e : LabelExpr} {l m : CaseLabel}
variable {labels : List (List CaseLabel)} {cases : List UnionCase} {fuel : ℕ} {r : FinishedUnion}

/-! ### Values -/

/-- The values of a switch type. -/
def SwitchType.Has : SwitchType → LabelValue → Prop
  | .integer t, .integer z => t.Has z
  | .boolean, .integer z => z = 0 ∨ z = 1
  | .char, .integer z => 0 ≤ z ∧ z ≤ 0xff
  | .wchar, .integer z => 0 ≤ z ∧ z ≤ 0xffff
  | .enum e, .enumerator (some v) => v.container = e
  | _, _ => False

/-- The value of an expression of a switch type, which the evaluation has to find without an error. -/
def LabelExpr.Denotes : LabelExpr → SwitchType → LabelValue → Prop
  | .integer e, .integer t, v => ∃ x, e.eval t.mode = some (x, false) ∧ v = .integer x.value
  | .boolean b, .boolean, v => v = .integer (if b then 1 else 0)
  | .char c, .char, v => v = .integer c.toNat
  | .wchar c, .wchar, v => v = .integer c.toNat
  | .enumerator x, .enum _, v => v = .enumerator (some x)
  | _, _, _ => False

/-! ### The values are tried one after the other -/

/-- The macro tries all values of the type, each of them once. -/
def Tries (sw : UnionSwitch) (t : SwitchType) : Prop :=
  ∃ n value, Walk sw.defstart sw.islastdef sw.nextdef n value ∧ ∀ v, t.Has v ↔ ∃ i ≤ n, v = value i

lemma tries_onIntegers {eval : LabelExpr → Option (ℤ × Bool)} {start : ℤ} {isLast : ℤ → Bool} {next : ℤ → ℤ}
    {n : ℕ} {value : ℕ → ℤ} (h : Walk start isLast next n value)
    (hint : ∀ z, t.Has (.integer z) ↔ ∃ i ≤ n, z = value i) (henum : ∀ e, ¬ t.Has (.enumerator e)) :
    Tries (.onIntegers eval start isLast next) t := by
  refine ⟨n, fun i => .integer (value i), ⟨?_, h.last, fun i hi => ?_, fun i j hi hj hij => ?_⟩, fun v => ?_⟩
  · exact congrArg LabelValue.integer h.start
  · exact congrArg LabelValue.integer (h.next i hi)
  · exact h.injective i j hi hj (by simpa using hij)
  · cases v with
    | integer z => simpa using hint z
    | enumerator e => exact iff_of_false (henum e) (by simp)

lemma tries_up {eval : LabelExpr → Option (ℤ × Bool)} {lo hi : ℤ} (h : lo ≤ hi)
    (hint : ∀ z, t.Has (.integer z) ↔ lo ≤ z ∧ z ≤ hi) (henum : ∀ e, ¬ t.Has (.enumerator e)) :
    Tries (.onIntegers eval lo (· = hi) (· + 1)) t := by
  refine tries_onIntegers (walk_up h) (fun z => (hint z).trans ⟨fun hz => ?_, ?_⟩) henum
  · exact ⟨(z - lo).toNat, by omega, by omega⟩
  · rintro ⟨i, hi', rfl⟩
    omega

lemma tries_down {eval : LabelExpr → Option (ℤ × Bool)} {lo hi : ℤ} (h : lo ≤ hi)
    (hint : ∀ z, t.Has (.integer z) ↔ lo ≤ z ∧ z ≤ hi) (henum : ∀ e, ¬ t.Has (.enumerator e)) :
    Tries (.onIntegers eval hi (· = lo) (· - 1)) t := by
  refine tries_onIntegers (walk_down h) (fun z => (hint z).trans ⟨fun hz => ?_, ?_⟩) henum
  · exact ⟨(hi - z).toNat, by omega, by omega⟩
  · rintro ⟨i, hi', rfl⟩
    omega

lemma tries_boolean {eval : LabelExpr → Option (ℤ × Bool)} :
    Tries (.onIntegers eval 0 (· = 1) fun _ => 1) .boolean := by
  have hwalk : Walk (0 : ℤ) (fun z => decide (z = 1)) (fun _ => 1) 1 fun i => (i : ℤ) := by
    refine ⟨rfl, fun i _ => by simp, fun i hi => ?_, fun i j _ _ hij => by omega⟩
    obtain rfl : i = 0 := by omega
    rfl
  refine tries_onIntegers hwalk (fun z => ?_) fun e h => h
  constructor
  · rintro (rfl | rfl)
    · exact ⟨0, by omega, rfl⟩
    · exact ⟨1, le_rfl, rfl⟩
  · rintro ⟨i, hi, rfl⟩
    change (i : ℤ) = 0 ∨ (i : ℤ) = 1
    omega

/-- The enumerator at a place, or the first one. -/
def Enum.at (e : Enum) (i : ℕ) : Enumerator :=
  if h : i < e.count then ⟨e, i, h⟩ else ⟨e, 0, e.pos⟩

lemma Enum.at_of_lt {e : Enum} {i : ℕ} (h : i < e.count) : e.at i = ⟨e, i, h⟩ := dif_pos h

lemma tries_onEnum (e : Enum) : Tries (.onEnum e) (.enum e) := by
  have hpos := e.pos
  refine ⟨e.count - 1, fun i => .enumerator (some (e.at i)), ⟨?_, fun i hi => ?_, fun i hi => ?_,
    fun i j hi hj hij => ?_⟩, fun v => ?_⟩
  · rw [Enum.at_of_lt hpos]
    rfl
  · rw [Enum.at_of_lt (by omega), UnionSwitch.onEnum]
    simp only [Enumerator.next]
    split_ifs with h
    · exact iff_of_false (by simp) (by omega)
    · exact iff_of_true rfl (by omega)
  · rw [Enum.at_of_lt (by omega), Enum.at_of_lt (by omega), UnionSwitch.onEnum]
    simp only [Enumerator.next]
    rw [dif_pos (by omega)]
  · rw [Enum.at_of_lt (by omega), Enum.at_of_lt (by omega)] at hij
    simpa using hij
  · constructor
    · intro h
      match v, h with
      | .enumerator (some ⟨_, i, hlt⟩), rfl =>
        exact ⟨i, by omega, congrArg (fun v => LabelValue.enumerator (some v)) (Enum.at_of_lt hlt).symm⟩
    · rintro ⟨i, hi, rfl⟩
      exact congrArg Enumerator.container (Enum.at_of_lt (show i < e.count by omega))

lemma tries (h : t.unionSwitch = some sw) : Tries sw t := by
  have hnot : ∀ (t : Target) e, ¬ (SwitchType.integer t).Has (.enumerator e) := fun _ _ h => h
  cases t with
  | integer t =>
    cases t with
    | octet => cases h
    | short => exact Option.some.inj h ▸ tries_up (by decide) (fun z => Iff.rfl) (hnot _)
    | long => exact Option.some.inj h ▸ tries_up (by decide) (fun z => Iff.rfl) (hnot _)
    | ushort => exact Option.some.inj h ▸ tries_down (by decide) (fun z => Iff.rfl) (hnot _)
    | ulong => exact Option.some.inj h ▸ tries_down (by decide) (fun z => Iff.rfl) (hnot _)
    | longlong => exact Option.some.inj h ▸ tries_up (by decide) (fun z => Iff.rfl) (hnot _)
    | ulonglong => exact Option.some.inj h ▸ tries_down (by decide) (fun z => Iff.rfl) (hnot _)
  | boolean => exact Option.some.inj h ▸ tries_boolean
  | char => exact Option.some.inj h ▸ tries_down (by decide) (fun z => Iff.rfl) fun _ h => h
  | wchar => exact Option.some.inj h ▸ tries_down (by decide) (fun z => Iff.rfl) fun _ h => h
  | enum e => exact Option.some.inj h ▸ tries_onEnum e
  | _ => cases h

/-! ### Clashes -/

lemma clashes_eq (l : CaseLabel) (earlier : List CaseLabel) : clashes l earlier = earlier.count l := by
  rw [clashes, List.count]
  refine List.countP_congr fun m _ => ?_
  cases l with
  | none =>
    cases m with
    | none => simp
    | some w => simp
  | some v =>
    cases m with
    | none => simp
    | some w => simp

lemma clashesInCase_eq_zero {before own c : List CaseLabel} :
    clashesInCase before own c = 0 ↔ (∀ l ∈ c, l ∉ before ∧ l ∉ own) ∧ c.Nodup := by
  induction c generalizing own with
  | nil => simp [clashesInCase]
  | cons l c ih =>
    rw [clashesInCase, Nat.add_eq_zero_iff, clashes_eq, List.count_eq_zero, ih, List.mem_append,
      List.nodup_cons, List.forall_mem_cons]
    constructor
    · rintro ⟨hl, hc, hnodup⟩
      refine ⟨⟨not_or.mp hl, fun m hm => ⟨(hc m hm).1, fun hown => (hc m hm).2 (by simp [hown])⟩⟩, ?_, hnodup⟩
      exact fun hmem => (hc l hmem).2 (by simp)
    · rintro ⟨⟨hl, hc⟩, hlc, hnodup⟩
      refine ⟨not_or.mpr hl, fun m hm => ⟨(hc m hm).1, fun hmem => ?_⟩, hnodup⟩
      rcases List.mem_append.mp hmem with hown | hlast
      · exact (hc m hm).2 hown
      · obtain rfl := List.mem_singleton.mp hlast
        exact hlc hm

/-- There is no clash if and only if all labels are different. -/
lemma countClashes_eq_zero {before : List CaseLabel} :
    countClashes before labels = 0 ↔ (∀ l ∈ labels.flatten, l ∉ before) ∧ labels.flatten.Nodup := by
  induction labels generalizing before with
  | nil => simp [countClashes]
  | cons c cs ih =>
    rw [countClashes, Nat.add_eq_zero_iff, clashesInCase_eq_zero, ih, List.flatten_cons, List.nodup_append]
    constructor
    · rintro ⟨⟨hc, hnodup⟩, hcs, hnodup'⟩
      refine ⟨fun l hl => ?_, hnodup, hnodup', fun a ha b hb hab => ?_⟩
      · rcases List.mem_append.mp hl with hl | hl
        · exact (hc l hl).1
        · exact fun hmem => hcs l hl (List.mem_append_left _ hmem)
      · exact hcs b hb (List.mem_append_right _ (hab ▸ ha))
    · rintro ⟨hall, hnodup, hnodup', hdisjoint⟩
      refine ⟨⟨fun l hl => ⟨hall l (List.mem_append_left _ hl), List.not_mem_nil⟩, hnodup⟩, fun l hl => ?_, hnodup'⟩
      rw [List.mem_append, not_or]
      exact ⟨hall l (List.mem_append_right _ hl), fun hmem => hdisjoint l hmem l hl rfl⟩

lemma isListed_iff : isListed labels v = true ↔ some v ∈ labels.flatten := by
  rw [isListed, List.mem_flatten]
  simp only [List.any_eq_true]
  constructor
  · rintro ⟨c, hc, l, hl, hv⟩
    cases l with
    | none => cases hv
    | some w =>
      obtain rfl := of_decide_eq_true hv
      exact ⟨c, hc, hl⟩
  · rintro ⟨c, hc, hv⟩
    exact ⟨c, hc, some v, hv, decide_eq_true rfl⟩

lemma any_isNone_iff : labels.any (·.any Option.isNone) = true ↔ none ∈ labels.flatten := by
  rw [List.mem_flatten]
  simp only [List.any_eq_true]
  constructor
  · rintro ⟨c, hc, l, hl, hnone⟩
    obtain rfl := Option.isNone_iff_eq_none.mp hnone
    exact ⟨c, hc, hl⟩
  · rintro ⟨c, hc, hnone⟩
    exact ⟨c, hc, none, hnone, rfl⟩

/-! ### The checks -/

/-- What the checks find out about the labels. -/
structure Checked (t : SwitchType) (labels : List (List CaseLabel)) (errors : List UnionError)
    (default : Option LabelValue) : Prop where
  repeated : (∀ clash, .repeatedLabels clash ∉ errors) ↔ labels.flatten.Nodup
  none_left : .cannotDeclareDefault ∈ errors ↔ none ∈ labels.flatten ∧ ∀ v, t.Has v → some v ∈ labels.flatten
  default : none ∈ labels.flatten → ∃ d, default = some d ∧ t.Has d ∧
    (.cannotDeclareDefault ∉ errors → some d ∉ labels.flatten)

lemma mem_repeatedErrors {e : UnionError} {clash : ℕ} :
    e ∈ repeatedErrors clash ↔ clash ≠ 0 ∧ e = .repeatedLabels clash := by
  rw [repeatedErrors]
  split_ifs with h
  · simp [h]
  · simp [h]

lemma repeated_iff {errors : List UnionError} (h : ∀ clash, .repeatedLabels clash ∉ errors) :
    (∀ clash, .repeatedLabels clash ∉ repeatedErrors (countClashes [] labels) ++ errors) ↔ labels.flatten.Nodup := by
  have hzero : countClashes [] labels = 0 ↔ labels.flatten.Nodup := by
    rw [countClashes_eq_zero]
    simp
  rw [← hzero]
  constructor
  · intro hnot
    by_contra hclash
    exact hnot _ (List.mem_append_left _ (mem_repeatedErrors.mpr ⟨hclash, rfl⟩))
  · intro hclash c hmem
    rcases List.mem_append.mp hmem with hrepeated | hother
    · exact (mem_repeatedErrors.mp hrepeated).1 hclash
    · exact h c hother

lemma check_spec {errors : List UnionError} {default : Option LabelValue} (htries : Tries sw t)
    (h : sw.check fuel labels = some (errors, default)) : Checked t labels errors default := by
  obtain ⟨n, value, hwalk, hhas⟩ := htries
  rw [UnionSwitch.check] at h
  split_ifs at h with hdefault
  · have hmem := any_isNone_iff.mp hdefault
    obtain ⟨⟨d, found⟩, hd, hresult⟩ := Option.bind_eq_some_iff.mp h
    obtain ⟨rfl, rfl⟩ : _ = errors ∧ some d = default := by simpa using hresult
    obtain ⟨⟨i, hi, hvalue⟩, hlisted, hall⟩ := hwalk.outcome hd
    have hnone : UnionError.cannotDeclareDefault ∈ repeatedErrors (countClashes [] labels) ++
        (if found = false then [UnionError.cannotDeclareDefault] else []) ↔ found = false := by
      rw [List.mem_append, mem_repeatedErrors]
      cases found with
      | false => simp
      | true => simp
    refine ⟨repeated_iff fun clash => ?_, ?_, fun _ => ⟨d, rfl, (hhas d).mpr ⟨i, hi, hvalue⟩, fun hfound => ?_⟩⟩
    · split_ifs
      · simp
      · simp
    · rw [hnone, hall, and_iff_right hmem]
      constructor
      · intro h v hv
        obtain ⟨i, hi, rfl⟩ := (hhas v).mp hv
        exact isListed_iff.mp (h i hi)
      · exact fun h i hi => isListed_iff.mpr (h _ ((hhas _).mpr ⟨i, hi, rfl⟩))
    · rw [hnone, Bool.not_eq_false] at hfound
      rw [← isListed_iff, hlisted, hfound]
      exact Bool.false_ne_true
  · have hmem := mt any_isNone_iff.mpr hdefault
    obtain ⟨rfl, rfl⟩ : repeatedErrors _ = errors ∧ none = default := by simpa using h
    have hrepeated : _ ↔ labels.flatten.Nodup := repeated_iff (fun clash => List.not_mem_nil)
    refine ⟨?_, iff_of_false (fun h => ?_) fun h => hmem h.1, fun h => absurd h hmem⟩
    · rwa [List.append_nil] at hrepeated
    · cases (mem_repeatedErrors.mp h).2

/-- With more turns than there are labels the search ends. -/
lemma exists_check (htries : Tries sw t) (h : labels.flatten.length < fuel) : ∃ r, sw.check fuel labels = some r := by
  obtain ⟨n, value, hwalk, -⟩ := htries
  rw [UnionSwitch.check]
  split_ifs
  · have hused : ∀ v, isListed labels v = true → v ∈ labels.flatten.filterMap id := by
      intro v hv
      exact List.mem_filterMap.mpr ⟨some v, isListed_iff.mp hv, rfl⟩
    obtain ⟨⟨d, found⟩, hd⟩ := hwalk.exists_walk hused ((List.length_filterMap_le _ _).trans_lt h)
    rw [hd]
    exact ⟨_, rfl⟩
  · exact ⟨_, rfl⟩

/-! ### The labels of the cases -/

lemma mapM_spec {α β : Type} {f : α → Option β} {l : List α} {l' : List β} (h : l.mapM f = some l') :
    l'.length = l.length ∧ (∀ b ∈ l', ∃ a ∈ l, f a = some b) ∧ ∀ a ∈ l, ∃ b ∈ l', f a = some b := by
  induction l generalizing l' with
  | nil =>
    obtain rfl := Option.some.inj h
    exact ⟨rfl, fun b hb => absurd hb List.not_mem_nil, fun a ha => absurd ha List.not_mem_nil⟩
  | cons a l ih =>
    rw [List.mapM_cons] at h
    obtain ⟨b, hb, h⟩ := Option.bind_eq_some_iff.mp h
    obtain ⟨bs, hbs, h⟩ := Option.bind_eq_some_iff.mp h
    obtain rfl := Option.some.inj h
    obtain ⟨hlen, hback, hforth⟩ := ih hbs
    refine ⟨congrArg (· + 1) hlen, fun y hy => ?_, fun x hx => ?_⟩
    · rcases List.mem_cons.mp hy with rfl | hy
      · exact ⟨a, List.mem_cons_self, hb⟩
      · obtain ⟨x, hx, hxy⟩ := hback y hy
        exact ⟨x, List.mem_cons_of_mem a hx, hxy⟩
    · rcases List.mem_cons.mp hx with rfl | hx
      · exact ⟨b, List.mem_cons_self, hb⟩
      · obtain ⟨y, hy, hxy⟩ := hforth x hx
        exact ⟨y, List.mem_cons_of_mem b hy, hxy⟩

lemma exists_mapM {α β : Type} {f : α → Option β} {l : List α} (h : ∀ a ∈ l, ∃ b, f a = some b) :
    ∃ l', l.mapM f = some l' := by
  induction l with
  | nil => exact ⟨[], rfl⟩
  | cons a l ih =>
    rw [List.forall_mem_cons] at h
    obtain ⟨b, hb⟩ := h.1
    obtain ⟨bs, hbs⟩ := ih h.2
    refine ⟨b :: bs, ?_⟩
    rw [List.mapM_cons, hb, hbs]
    rfl

/-- The evaluation of an expression of an integer type finds its value, which the type has, or an error. -/
lemma evalAsInteger_denotes {t : Target} {z : ℤ} (h : e.evalAsInteger t = some (z, false)) :
    t.Has z ∧ (e ≠ .dummy → e.Denotes (.integer t) (.integer z)) := by
  have hstand : ∀ error, LabelExpr.standIn t error = (z, false) → t.Has z ∧ error = false := by
    intro error herror
    rw [LabelExpr.standIn] at herror
    cases error with
    | false =>
      refine ⟨?_, rfl⟩
      obtain ⟨rfl, -⟩ := Prod.mk.inj herror
      cases t <;> decide
    | true => cases (Prod.mk.inj herror).2
  cases e with
  | integer x =>
    obtain ⟨⟨v, err⟩, hv, hresult⟩ := Option.bind_eq_some_iff.mp h
    obtain ⟨hz, herr⟩ := Prod.mk.inj (Option.some.inj hresult)
    obtain ⟨rfl, hrange⟩ := Bool.or_eq_false_iff.mp herr
    obtain ⟨hhas, hvalue⟩ := t.convert_spec v
    have hin : t.Has v.value := by
      by_contra hnot
      exact Bool.false_ne_true (hrange.symm.trans (hhas.mpr hnot))
    obtain rfl : v.value = z := (hvalue hin).symm.trans hz
    exact ⟨hin, fun _ => ⟨v, hv, rfl⟩⟩
  | dummy => exact ⟨(hstand false (Option.some.inj h)).1, fun hne => absurd rfl hne⟩
  | _ => cases (hstand true (Option.some.inj h)).2

lemma eval_onIntegers {eval : LabelExpr → Option (ℤ × Bool)} {start : ℤ} {isLast : ℤ → Bool} {next : ℤ → ℤ}
    {err : Bool} (h : (UnionSwitch.onIntegers eval start isLast next).eval e = some (v, err)) :
    ∃ z, eval e = some (z, err) ∧ v = .integer z := by
  obtain ⟨⟨z, err'⟩, hz, hresult⟩ := Option.map_eq_some_iff.mp h
  obtain ⟨rfl, rfl⟩ := Prod.mk.inj hresult
  exact ⟨z, hz, rfl⟩

lemma eval_integer {tt : Target} {err : Bool} (hsw : (SwitchType.integer tt).unionSwitch = some sw)
    (h : sw.eval e = some (v, err)) : ∃ z, e.evalAsInteger tt = some (z, err) ∧ v = .integer z := by
  cases tt with
  | octet => cases hsw
  | _ =>
    obtain rfl := Option.some.inj hsw
    exact eval_onIntegers h

/-- The evaluation of a label finds its value, which the switch type has, or an error; what stands in
after an error may be null. -/
lemma eval_denotes (hsw : t.unionSwitch = some sw) (h : sw.eval e = some (v, false)) :
    (t.Has v ∨ v = .enumerator none ∧ e = .dummy) ∧ (e ≠ .dummy → t.Has v ∧ e.Denotes t v) := by
  cases t with
  | integer tt =>
    obtain ⟨z, hz, rfl⟩ := eval_integer hsw h
    obtain ⟨hhas, hdenotes⟩ := evalAsInteger_denotes hz
    exact ⟨.inl hhas, fun hne => ⟨hhas, hdenotes hne⟩⟩
  | boolean =>
    obtain rfl := Option.some.inj hsw
    obtain ⟨z, hz, rfl⟩ := eval_onIntegers h
    cases e with
    | boolean b =>
      obtain ⟨rfl, -⟩ := Prod.mk.inj (Option.some.inj hz)
      have hhas : SwitchType.boolean.Has (.integer (if b then 1 else 0)) := by
        cases b with
        | true => exact .inr rfl
        | false => exact .inl rfl
      exact ⟨.inl hhas, fun _ => ⟨hhas, rfl⟩⟩
    | dummy =>
      obtain ⟨rfl, -⟩ := Prod.mk.inj (Option.some.inj hz)
      exact ⟨.inl (.inl rfl), fun hne => absurd rfl hne⟩
    | _ => cases (Prod.mk.inj (Option.some.inj hz)).2
  | char =>
    obtain rfl := Option.some.inj hsw
    obtain ⟨z, hz, rfl⟩ := eval_onIntegers h
    cases e with
    | char c =>
      obtain ⟨rfl, -⟩ := Prod.mk.inj (Option.some.inj hz)
      have hlt := c.toNat_lt
      have hhas : SwitchType.char.Has (.integer c.toNat) := by
        change (0 : ℤ) ≤ c.toNat ∧ (c.toNat : ℤ) ≤ 0xff
        omega
      exact ⟨.inl hhas, fun _ => ⟨hhas, rfl⟩⟩
    | dummy =>
      obtain ⟨rfl, -⟩ := Prod.mk.inj (Option.some.inj hz)
      exact ⟨.inl ⟨by decide, by decide⟩, fun hne => absurd rfl hne⟩
    | _ => cases (Prod.mk.inj (Option.some.inj hz)).2
  | wchar =>
    obtain rfl := Option.some.inj hsw
    obtain ⟨z, hz, rfl⟩ := eval_onIntegers h
    cases e with
    | wchar c =>
      obtain ⟨rfl, -⟩ := Prod.mk.inj (Option.some.inj hz)
      have hlt := c.toNat_lt
      have hhas : SwitchType.wchar.Has (.integer c.toNat) := by
        change (0 : ℤ) ≤ c.toNat ∧ (c.toNat : ℤ) ≤ 0xffff
        omega
      exact ⟨.inl hhas, fun _ => ⟨hhas, rfl⟩⟩
    | dummy =>
      obtain ⟨rfl, -⟩ := Prod.mk.inj (Option.some.inj hz)
      exact ⟨.inl ⟨by decide, by decide⟩, fun hne => absurd rfl hne⟩
    | _ => cases (Prod.mk.inj (Option.some.inj hz)).2
  | enum en =>
    obtain rfl := Option.some.inj hsw
    obtain ⟨hv, herr⟩ := Prod.mk.inj (Option.some.inj h)
    cases e with
    | enumerator x =>
      obtain rfl := hv
      have hcontainer : x.container = en := by simpa [LabelExpr.evalAsEnumerator] using herr
      have hhas : (SwitchType.enum en).Has (.enumerator (some x)) := hcontainer
      exact ⟨.inl hhas, fun _ => ⟨hhas, rfl⟩⟩
    | dummy => exact ⟨.inr ⟨hv.symm, rfl⟩, fun hne => absurd rfl hne⟩
    | _ => cases herr
  | _ => cases hsw

/-- The labels of the cases, as `setType` leaves them. -/
lemma setTypes_spec {set : List (List (CaseLabel × Bool))} (h : sw.setTypes cases = some set) :
    (∀ x ∈ set.flatten, ∃ c ∈ cases, ∃ l ∈ c.labels, sw.setType l = some x) ∧
      ∀ c ∈ cases, ∀ l ∈ c.labels, ∃ x ∈ set.flatten, sw.setType l = some x := by
  obtain ⟨-, hback, hforth⟩ := mapM_spec h
  constructor
  · intro x hx
    obtain ⟨s, hs, hx⟩ := List.mem_flatten.mp hx
    obtain ⟨c, hc, hcs⟩ := hback s hs
    obtain ⟨l, hl, hlx⟩ := (mapM_spec hcs).2.1 x hx
    exact ⟨c, hc, l, hl, hlx⟩
  · intro c hc l hl
    obtain ⟨s, hs, hcs⟩ := hforth c hc
    obtain ⟨x, hx, hlx⟩ := (mapM_spec hcs).2.2 l hl
    exact ⟨x, List.mem_flatten.mpr ⟨s, hs, hx⟩, hlx⟩

lemma length_setTypes {set : List (List (CaseLabel × Bool))} (h : sw.setTypes cases = some set) :
    set.flatten.length = (cases.flatMap UnionCase.labels).length := by
  induction cases generalizing set with
  | nil =>
    obtain rfl := Option.some.inj h
    rfl
  | cons c cases ih =>
    rw [UnionSwitch.setTypes, List.mapM_cons] at h
    obtain ⟨s, hs, h⟩ := Option.bind_eq_some_iff.mp h
    obtain ⟨ss, hss, h⟩ := Option.bind_eq_some_iff.mp h
    obtain rfl := Option.some.inj h
    rw [List.flatten_cons, List.length_append, List.flatMap_cons, List.length_append, ih hss, (mapM_spec hs).1]

lemma exists_setTypes (h : ∀ c ∈ cases, ∀ e, some e ∈ c.labels → (sw.eval e).isSome = true) :
    ∃ set, sw.setTypes cases = some set := by
  refine exists_mapM fun c hc => exists_mapM fun l hl => ?_
  cases l with
  | none => exact ⟨_, rfl⟩
  | some e =>
    obtain ⟨r, hr⟩ := Option.isSome_iff_exists.mp (h c hc e hl)
    exact ⟨(some r.1, r.2), by rw [UnionSwitch.setType, hr]; rfl⟩

/-! ### Unions without errors -/

/-- `finishConstruction` has reported no error. -/
def FinishedUnion.NoErrors (r : FinishedUnion) : Prop := r.labelErrors = 0 ∧ r.errors = []

/-- The labels are right, and so is the value of the default label. -/
structure LabelsRight (t : SwitchType) (cases : List UnionCase) (r : FinishedUnion) : Prop where
  /-- All labels are different, and one at most is the default label. -/
  different : r.labels.flatten.Nodup
  range : ∀ v, some v ∈ r.labels.flatten →
    t.Has v ∨ v = .enumerator none ∧ ∃ c ∈ cases, some LabelExpr.dummy ∈ c.labels
  denoted : ∀ c ∈ cases, ∀ e, some e ∈ c.labels → e ≠ .dummy →
    ∃ v, e.Denotes t v ∧ t.Has v ∧ some v ∈ r.labels.flatten
  default : none ∈ r.labels.flatten → ∃ d, r.default = some d ∧ t.Has d ∧ some d ∉ r.labels.flatten

variable {switchType : SwitchType}

lemma finishConstruction_eq (ht : switchType.unalias = some t) (hsw : t.unionSwitch = some sw) :
    finishConstruction fuel (some switchType) cases =
      (sw.setTypes cases).bind fun set =>
        (sw.check fuel (set.map (·.map Prod.fst))).map fun x =>
          { isLocal := cases.any UnionCase.isLocal
            labelErrors := set.flatten.countP Prod.snd
            errors := x.1
            labels := set.map (·.map Prod.fst)
            default := x.2 } := by
  simp only [finishConstruction, ht, hsw]
  rcases sw.setTypes cases with _ | set
  · rfl
  · rcases hcheck : sw.check fuel (set.map (·.map Prod.fst)) with _ | ⟨errors, default⟩
    · simp [hcheck]
    · simp [hcheck]

lemma flatten_map_fst {set : List (List (CaseLabel × Bool))} :
    (set.map (·.map Prod.fst)).flatten = set.flatten.map Prod.fst := List.map_flatten.symm

lemma labelsRight {set : List (List (CaseLabel × Bool))} (hsw : t.unionSwitch = some sw)
    (hset : sw.setTypes cases = some set) (hlabels : r.labels = set.map (·.map Prod.fst))
    (hchecked : Checked t r.labels r.errors r.default) (herrors : set.flatten.countP Prod.snd = 0)
    (hnone : r.errors = []) : LabelsRight t cases r := by
  obtain ⟨hback, hforth⟩ := setTypes_spec hset
  have hclean : ∀ x ∈ set.flatten, x.2 = false := fun x hx =>
    Bool.eq_false_iff.mpr (List.countP_eq_zero.mp herrors x hx)
  have hmem : ∀ l, l ∈ r.labels.flatten ↔ ∃ x ∈ set.flatten, x.1 = l := by
    intro l
    rw [hlabels, flatten_map_fst, List.mem_map]
  refine ⟨hchecked.repeated.mp (by simp [hnone]), fun v hv => ?_, fun c hc e he hne => ?_, fun h => ?_⟩
  · obtain ⟨⟨l, err⟩, hx, rfl⟩ := (hmem _).mp hv
    obtain rfl : err = false := hclean _ hx
    obtain ⟨c, hc, l, hl, hlx⟩ := hback _ hx
    cases l with
    | none => cases hlx
    | some e =>
      obtain ⟨⟨v', err⟩, heval, hresult⟩ := Option.map_eq_some_iff.mp hlx
      obtain ⟨rfl, rfl⟩ : v' = v ∧ err = false := by simpa using hresult
      refine (eval_denotes hsw heval).1.imp id ?_
      rintro ⟨hv, rfl⟩
      exact ⟨hv, c, hc, hl⟩
  · obtain ⟨⟨l, err⟩, hx, hlx⟩ := hforth c hc _ he
    obtain rfl : err = false := hclean _ hx
    obtain ⟨⟨v, err⟩, heval, hresult⟩ := Option.map_eq_some_iff.mp hlx
    obtain ⟨rfl, rfl⟩ : some v = l ∧ err = false := by simpa using hresult
    obtain ⟨hhas, hdenotes⟩ := (eval_denotes hsw heval).2 hne
    exact ⟨v, hdenotes, hhas, (hmem _).mpr ⟨_, hx, rfl⟩⟩
  · obtain ⟨d, hd, hhas, hnot⟩ := hchecked.default h
    exact ⟨d, hd, hhas, hnot (by simp [hnone])⟩

/-- The labels of a union are checked completely: with more turns than there are labels the search for the
default value ends, no error means that the labels are right, and the error about the default is
reported if and only if there is a default and nothing is left for it. -/
theorem union_labels_checked (ht : switchType.unalias = some t) (cases : List UnionCase) :
    ((∀ sw, t.unionSwitch = some sw → ∀ c ∈ cases, ∀ e, some e ∈ c.labels → (sw.eval e).isSome = true) →
      ∀ fuel, (cases.flatMap UnionCase.labels).length < fuel →
        ∃ r, finishConstruction fuel (some switchType) cases = some r) ∧
    ∀ fuel r, finishConstruction fuel (some switchType) cases = some r →
      (r.NoErrors → LabelsRight t cases r) ∧
      (t.unionSwitch.isSome = true → (.cannotDeclareDefault ∈ r.errors ↔
        none ∈ r.labels.flatten ∧ ∀ v, t.Has v → some v ∈ r.labels.flatten)) := by
  cases hsw : t.unionSwitch with
  | none =>
    have hresult : ∀ fuel, finishConstruction fuel (some switchType) cases =
        some { isLocal := cases.any UnionCase.isLocal, errors := [.invalidSwitch t.kindAsString] } := by
      intro fuel
      simp only [finishConstruction, ht, hsw]
    refine ⟨fun _ fuel _ => ⟨_, hresult fuel⟩, fun fuel r hr => ⟨fun hnone => ?_, fun h => by cases h⟩⟩
    obtain rfl := Option.some.inj ((hresult fuel).symm.trans hr)
    exact absurd hnone.2 (List.cons_ne_nil _ _)
  | some sw =>
    have htries := tries hsw
    constructor
    · intro hdefined fuel hfuel
      obtain ⟨set, hset⟩ := exists_setTypes (hdefined sw rfl)
      have hlen : (set.map (·.map Prod.fst)).flatten.length < fuel := by
        rw [flatten_map_fst, List.length_map, length_setTypes hset]
        exact hfuel
      obtain ⟨x, hx⟩ := exists_check htries hlen
      rw [finishConstruction_eq ht hsw, hset, Option.bind_some, hx]
      exact ⟨_, rfl⟩
    · intro fuel r hr
      rw [finishConstruction_eq ht hsw] at hr
      obtain ⟨set, hset, hr⟩ := Option.bind_eq_some_iff.mp hr
      obtain ⟨⟨errors, default⟩, hcheck, hr⟩ := Option.map_eq_some_iff.mp hr
      have hchecked := check_spec htries hcheck
      obtain rfl := hr
      exact ⟨fun hnone => labelsRight hsw hset rfl hchecked hnone.1 hnone.2, fun _ => hchecked.none_left⟩

theorem union_labels_checked_short :
    ∃ r, finishConstruction 3 (some (.alias (.integer .short)))
        [⟨[some (.integer (.integer 7))], false⟩, ⟨[none], false⟩] = some r ∧
      LabelsRight (.integer .short) [⟨[some (.integer (.integer 7))], false⟩, ⟨[none], false⟩] r := by
  have ht : (SwitchType.alias (.integer .short)).unalias = some (.integer .short) := rfl
  have hchecked := union_labels_checked ht [⟨[some (.integer (.integer 7))], false⟩, ⟨[none], false⟩]
  exact ⟨_, rfl, (hchecked.2 3 _ rfl).1 ⟨rfl, rfl⟩⟩

/-- A label that an earlier error has left without its expression is null in a switch on an enum, and
both values of a boolean may be listed where there is no default. -/
theorem stand_in_not_in_range :
    (∃ e r, finishConstruction 2 (some (.enum e)) [⟨[some .dummy], false⟩] = some r ∧ r.NoErrors ∧
      ∃ v, some v ∈ r.labels.flatten ∧ ¬ (SwitchType.enum e).Has v) ∧
    ∃ r, finishConstruction 3 (some .boolean) [⟨[some (.boolean true), some (.boolean false)], false⟩] = some r ∧
      (∀ v, SwitchType.boolean.Has v → some v ∈ r.labels.flatten) ∧ UnionError.cannotDeclareDefault ∉ r.errors := by
  refine ⟨⟨⟨0, 1, by decide⟩, _, rfl, ⟨rfl, rfl⟩, .enumerator none, List.mem_singleton_self _, fun h => h⟩,
    _, rfl, fun v hv => ?_, List.not_mem_nil⟩
  cases v with
  | integer z =>
    rcases hv with rfl | rfl
    · decide
    · decide
  | enumerator e => exact hv.elim

end OmniORB.Idl
