import OmniORB.Context.Deletion

/-!
# A context as a map

What holds of the entries of a context after any operations, and when `delete_values` is right.
-/

namespace OmniORB

open Library

namespace ContextImpl

variable {c : ContextImpl} {pattern : CString}

/-! ### delete_values -/

lemma entries_entry {i : ℕ} (hi : i < c.entries.length) : c.entries[i]? = some (c.entry i) := by
  rw [entry, List.getD_eq_getElem _ _ hi, List.getElem?_eq_getElem hi]

/-- The entries from `i + nmatches` on move to `i`, and those from `i` on are released. -/
lemma deleteLoop_eq (nmatches n i : ℕ) (h : i + nmatches + n = c.entries.length) :
    (deleteLoop nmatches n i c).entries.take (c.entries.length - nmatches) =
        c.entries.take i ++ c.entries.drop (i + nmatches) ∧
      (deleteLoop nmatches n i c).freed = c.freed ++ ownedStrings ((c.entries.drop i).take n) ∧
      (deleteLoop nmatches n i c).strings = c.strings := by
  induction n generalizing i c with
  | zero =>
    rw [deleteLoop]
    refine ⟨?_, by simp, rfl⟩
    rw [List.drop_eq_nil_of_le (by omega), List.append_nil, show c.entries.length - nmatches = i by omega]
  | succ n ih =>
    rw [deleteLoop]
    have hi : i < c.entries.length := by omega
    have hlater : i + nmatches < c.entries.length := by omega
    have hdrop := List.drop_eq_getElem_cons hi
    have hdroplater := List.drop_eq_getElem_cons hlater
    have hentry : c.entry i = c.entries[i] := List.getD_eq_getElem _ _ hi
    have hentrylater : c.entry (i + nmatches) = c.entries[i + nmatches] := List.getD_eq_getElem _ _ hlater
    let c1 : ContextImpl := ⟨c.entries.set i (c.entry (i + nmatches)), c.strings,
      c.freed ++ [(c.entry i).name] ++ [(c.entry i).value]⟩
    have hlen : c1.entries.length = c.entries.length := by simp [c1]
    obtain ⟨hentries, hfreed, hstrings⟩ := ih (i := i + 1) (c := c1) (by omega)
    refine ⟨?_, ?_, hstrings⟩
    · rw [hlen] at hentries
      refine hentries.trans ?_
      have htake : c1.entries.take (i + 1) = c.entries.take i ++ [c.entries[i + nmatches]] := by
        rw [← hentrylater, List.take_succ_eq_append_getElem (by omega)]
        simp [c1, List.take_set_of_le]
      have hrest : c1.entries.drop (i + 1 + nmatches) = c.entries.drop (i + nmatches + 1) := by
        rw [Nat.add_right_comm]
        exact List.drop_set_of_lt (by omega)
      rw [htake, hdroplater, hrest, List.append_assoc, List.singleton_append]
    · refine hfreed.trans ?_
      have hrest : c1.entries.drop (i + 1) = c.entries.drop (i + 1) := List.drop_set_of_lt (by omega)
      rw [hdrop, List.take_succ_cons, ownedStrings_cons, hrest]
      simp [c1, hentry]

/-- `delete_values` keeps the entries that do not match, and releases as many from the first match on as
come after the last. -/
lemma deleteValues_of_range (h : Ok c) (hne : pattern.octets ≠ []) : ∃ a d,
    IsRange c.entries (fun e => matchesPattern pattern.octets (c.name e)) a d ∧
      (c.entries.filter (fun e => matchesPattern pattern.octets (c.name e)) = [] ∧
          matchPattern c.name c.entries pattern.octets = .ok none ∧ (c.deleteValues (some pattern)).2 = c ∨
        c.entries.filter (fun e => matchesPattern pattern.octets (c.name e)) ≠ [] ∧
          matchPattern c.name c.entries pattern.octets = .ok (some (a.length,
            a.length + (c.entries.filter fun e => matchesPattern pattern.octets (c.name e)).length)) ∧
          (c.deleteValues (some pattern)).2 = ⟨a ++ d, c.strings, c.freed ++ ownedStrings
            ((c.entries.filter (fun e => matchesPattern pattern.octets (c.name e)) ++ d).take d.length)⟩) := by
  obtain ⟨a, d, hrange, hmatch⟩ := matchPattern_eq h.sorted pattern.noNul hne
  refine ⟨a, d, hrange, ?_⟩
  generalize hm : c.entries.filter (fun e => matchesPattern pattern.octets (c.name e)) = m at hrange hmatch
  by_cases hnil : m = []
  · refine .inl ⟨hnil, by rw [hmatch, if_pos hnil], ?_⟩
    rw [ContextImpl.deleteValues, Option.elim_some, hmatch, if_pos hnil]
  · refine .inr ⟨hnil, by rw [hmatch, if_neg hnil], ?_⟩
    rw [ContextImpl.deleteValues, Option.elim_some, hmatch, if_neg hnil]
    have hl : c.entries = a ++ m ++ d := by
      rw [← hm]
      exact hrange.1
    have hlen : c.entries.length = a.length + m.length + d.length := by
      rw [hl, List.length_append, List.length_append]
    obtain ⟨hentries, hfreed, hstrings⟩ :=
      deleteLoop_eq (c := c) m.length d.length a.length (by omega)
    have hn : c.entries.length - (a.length + m.length - a.length) - a.length = d.length := by omega
    have hm' : a.length + m.length - a.length = m.length := by omega
    rw [hm'] at hn
    simp only [hm', hn, hentries, hfreed, hstrings]
    have htake : c.entries.take a.length = a := by simp [hl]
    have hdrop : c.entries.drop (a.length + m.length) = d := by simp [hl]
    have hfrom : c.entries.drop a.length = m ++ d := by simp [hl]
    rw [htake, hdrop, hfrom]

/-! ### The map -/

/-- The entries are sorted by names that differ, ignoring case, their strings were not released, and
`matchPattern` tells the range of those that match a pattern, if there are any. -/
structure IsMap (c : ContextImpl) : Prop where
  sorted : SortedByName c.name c.entries
  allocated : ∀ e ∈ c.entries, e.name < c.strings.length ∧ e.value < c.strings.length ∧
    e.name ∉ c.freed ∧ e.value ∉ c.freed
  matches_none : ∀ pattern : CString, pattern.octets ≠ [] →
    (matchPattern c.name c.entries pattern.octets = .ok none ↔
      ∀ e ∈ c.entries, matchesPattern pattern.octets (c.name e) = false)
  matches_range : ∀ pattern : CString, pattern.octets ≠ [] →
    (∃ e ∈ c.entries, matchesPattern pattern.octets (c.name e) = true) → ∃ bottom top,
      matchPattern c.name c.entries pattern.octets = .ok (some (bottom, top)) ∧ top ≤ c.entries.length ∧
        ∀ i e, c.entries[i]? = some e →
          (bottom ≤ i ∧ i < top ↔ matchesPattern pattern.octets (c.name e) = true)

/-- From `c` to `c'` the entries that match were deleted, and their strings released once. -/
structure Deleted (c c' : ContextImpl) (pattern : CString) : Prop where
  entries : c'.entries = c.entries.filter fun e => !matchesPattern pattern.octets (c.name e)
  strings : c'.strings = c.strings
  freed : ∀ e ∈ c.entries, matchesPattern pattern.octets (c.name e) = true →
    c'.freed.count e.name = 1 ∧ c'.freed.count e.value = 1

/-- What an operation is to do. -/
def Right (c : ContextImpl) (op : ContextOp) : Prop :=
  IsMap (c.perform op).2 ∧
    ∀ pattern : CString, op = .deleteValues (some pattern) → pattern.octets ≠ [] →
      Deleted c (c.perform op).2 pattern

/-- As many entries come after those that `delete_values` deletes as it deletes. -/
def FollowedByAsMany (c : ContextImpl) (op : ContextOp) : Prop :=
  ∀ pattern : CString, op = .deleteValues (some pattern) → ∀ bottom top,
    matchPattern c.name c.entries pattern.octets = .ok (some (bottom, top)) →
      c.entries.length - top = top - bottom

lemma Ok.isMap (h : Ok c) : IsMap c := by
  refine ⟨h.sorted, fun e he => ?_, fun pattern hne => ?_, fun pattern hne hex => ?_⟩
  · have hn := name_mem_ownedStrings he
    have hv := value_mem_ownedStrings he
    exact ⟨h.lt_of_mem hn, h.lt_of_mem hv, List.count_eq_zero.mp (h.notMem_freed hn),
      List.count_eq_zero.mp (h.notMem_freed hv)⟩
  · obtain ⟨a, d, -, hmatch⟩ := matchPattern_eq h.sorted pattern.noNul hne
    rw [hmatch]
    have hnil := List.filter_eq_nil_iff (p := fun e => matchesPattern pattern.octets (c.name e)) (l := c.entries)
    simp only [Bool.not_eq_true] at hnil
    rw [← hnil]
    by_cases hm : c.entries.filter (fun e => matchesPattern pattern.octets (c.name e)) = []
    · rw [if_pos hm]
      exact iff_of_true rfl hm
    · rw [if_neg hm]
      exact iff_of_false (by simp) hm
  · obtain ⟨a, d, hrange, hmatch⟩ := matchPattern_eq h.sorted pattern.noNul hne
    have hm : c.entries.filter (fun e => matchesPattern pattern.octets (c.name e)) ≠ [] := by
      obtain ⟨e, he, hp⟩ := hex
      exact List.ne_nil_of_mem (List.mem_filter.mpr ⟨he, hp⟩)
    rw [if_neg hm] at hmatch
    refine ⟨_, _, hmatch, ?_, fun i e hi => hrange.place_iff hi⟩
    have hlen := congrArg List.length hrange.1
    rw [List.length_append, List.length_append] at hlen
    omega

/-- The strings of entries that are not in the part that is released. -/
lemma count_ownedStrings_eq_zero (h : Ok c) {l m : List ContextEntry} (hl : (l ++ m).Sublist c.entries)
    {p : ℕ} (hp : p ∈ ownedStrings m) : (ownedStrings l).count p = 0 := by
  have hsub : (ownedStrings (l ++ m)).Sublist (ownedStrings c.entries) := hl.flatMap _
  have hle := hsub.count_le p
  have hs := h.strings p
  have hpos := List.count_pos_iff.mpr hp
  rw [ownedStrings_append, List.count_append] at hle
  split_ifs at hs
  all_goals omega

section

variable {a m d : List ContextEntry}

/-- The entries `m` between `a` and `d` are deleted. -/
lemma Ok.delete_iff (h : Ok c) (hl : c.entries = a ++ m ++ d) (hm : m ≠ []) :
    (IsMap ⟨a ++ d, c.strings, c.freed ++ ownedStrings ((m ++ d).take d.length)⟩ ∧
        ∀ e ∈ m, (c.freed ++ ownedStrings ((m ++ d).take d.length)).count e.name = 1 ∧
          (c.freed ++ ownedStrings ((m ++ d).take d.length)).count e.value = 1) ↔
      d.length = m.length := by
  constructor
  · rintro ⟨hmap, hfreed⟩
    rcases Nat.lt_trichotomy d.length m.length with hlt | heq | hgt
    · -- the last entry is deleted, but not released
      exfalso
      rw [List.take_append_of_le_length hlt.le] at hfreed
      have hsplit := List.take_append_drop d.length m
      obtain ⟨e, r, hr⟩ := List.exists_cons_of_length_pos (l := m.drop d.length) (by
        rw [List.length_drop]
        omega)
      have he : e ∈ m.drop d.length := by
        rw [hr]
        exact List.mem_cons_self
      have hcount := (hfreed e (List.mem_of_mem_drop he)).1
      have hsub : (m.take d.length ++ m.drop d.length).Sublist c.entries := by
        rw [hsplit, hl, List.append_assoc]
        exact (List.sublist_append_left m d).trans (List.sublist_append_right a (m ++ d))
      have hzero := count_ownedStrings_eq_zero h hsub (name_mem_ownedStrings he)
      have hold : c.freed.count e.name = 0 := h.notMem_freed (name_mem_ownedStrings (by
        rw [hl]
        simp [List.mem_of_mem_drop he]))
      rw [List.count_append, hold, hzero] at hcount
      omega
    · exact heq
    · -- the first entry that is kept is released
      exfalso
      obtain ⟨e, r, rfl⟩ := List.exists_cons_of_length_pos (l := d) (by omega)
      have hin : e ∈ (m ++ e :: r).take (e :: r).length := by
        rw [List.take_append, List.mem_append]
        right
        obtain ⟨k, hk⟩ : ∃ k, (e :: r).length - m.length = k + 1 := ⟨(e :: r).length - m.length - 1, by omega⟩
        rw [hk, List.take_succ_cons]
        exact List.mem_cons_self
      have hnot := (hmap.allocated e (by simp)).2.2.1
      exact hnot (List.mem_append_right _ (name_mem_ownedStrings hin))
  · intro heq
    rw [heq, List.take_left]
    have hcount : ∀ p, (ownedStrings (a ++ d)).count p + (c.freed ++ ownedStrings m).count p =
        (ownedStrings c.entries).count p + c.freed.count p := by
      intro p
      rw [hl]
      simp only [ownedStrings_append, List.count_append]
      omega
    have hok : Ok ⟨a ++ d, c.strings, c.freed ++ ownedStrings m⟩ := by
      refine ⟨h.sorted.sublist ?_, fun p => (hcount p).trans (h.strings p)⟩
      rw [hl]
      exact (List.sublist_append_left a m).append (List.Sublist.refl d)
    refine ⟨hok.isMap, fun e he => ?_⟩
    have hcount_one : ∀ p ∈ ownedStrings m, (c.freed ++ ownedStrings m).count p = 1 := by
      intro p hp
      have hs := h.strings p
      have hpos := List.count_pos_iff.mpr hp
      rw [if_pos (h.lt_of_mem (by rw [hl]; simp [hp])), hl] at hs
      simp only [ownedStrings_append, List.count_append] at hs ⊢
      omega
    exact ⟨hcount_one _ (name_mem_ownedStrings he), hcount_one _ (value_mem_ownedStrings he)⟩

end

/-- `delete_values` is right just when it is followed by as many entries. -/
lemma Ok.deleteValues_iff (h : Ok c) (hne : pattern.octets ≠ []) :
    (IsMap (c.deleteValues (some pattern)).2 ∧ Deleted c (c.deleteValues (some pattern)).2 pattern) ↔
      ∀ bottom top, matchPattern c.name c.entries pattern.octets = .ok (some (bottom, top)) →
        c.entries.length - top = top - bottom := by
  obtain ⟨a, d, hrange, ⟨hnil, hmatch, hc⟩ | ⟨hnil, hmatch, hc⟩⟩ := deleteValues_of_range h hne
  · rw [hc, hmatch]
    have hnone := List.filter_eq_nil_iff.mp hnil
    refine iff_of_true ⟨h.isMap, ?_, rfl, fun e he hp => absurd hp (hnone e he)⟩ (by simp)
    exact (List.filter_eq_self.mpr fun e he => by simpa using hnone e he).symm
  · have hrest : c.entries.filter (fun e => !matchesPattern pattern.octets (c.name e)) = a ++ d := by
      have ha : a.filter (fun e => !matchesPattern pattern.octets (c.name e)) = a :=
        List.filter_eq_self.mpr fun e he => by simpa using hrange.2.1 e he
      have hd : d.filter (fun e => !matchesPattern pattern.octets (c.name e)) = d :=
        List.filter_eq_self.mpr fun e he => by simpa using hrange.2.2 e he
      have hm : (c.entries.filter fun e => matchesPattern pattern.octets (c.name e)).filter
          (fun e => !matchesPattern pattern.octets (c.name e)) = [] :=
        List.filter_eq_nil_iff.mpr fun e he => by simpa using (List.mem_filter.mp he).2
      conv_lhs => rw [hrange.1]
      rw [List.filter_append, List.filter_append, ha, hm, hd, List.append_nil]
    have hlen := congrArg List.length hrange.1
    rw [List.length_append, List.length_append] at hlen
    have hfreed := h.delete_iff hrange.1 hnil
    rw [hc, hmatch]
    constructor
    · rintro ⟨hmap, hdeleted⟩ bottom top hr
      obtain ⟨rfl, rfl⟩ : a.length = bottom ∧ a.length + _ = top := by
        simpa using hr
      have := hfreed.mp ⟨hmap, fun e he => hdeleted.freed e (List.mem_filter.mp he).1 (List.mem_filter.mp he).2⟩
      omega
    · intro hall
      have heq := hall _ _ rfl
      obtain ⟨hmap, hone⟩ := hfreed.mpr (by omega)
      exact ⟨hmap, hrest.symm, rfl, fun e he hp => hone e (List.mem_filter.mpr ⟨he, hp⟩)⟩

/-- A context that was right stays so if `delete_values` is followed by as many entries. -/
lemma Ok.deleteValues (h : Ok c) (hne : pattern.octets ≠ [])
    (heven : ∀ bottom top, matchPattern c.name c.entries pattern.octets = .ok (some (bottom, top)) →
      c.entries.length - top = top - bottom) : Ok (c.deleteValues (some pattern)).2 := by
  obtain ⟨a, d, hrange, ⟨hnil, hmatch, hc⟩ | ⟨hnil, hmatch, hc⟩⟩ := deleteValues_of_range h hne
  · rwa [hc]
  · have heq := heven _ _ hmatch
    have hl := hrange.1
    have hlen := congrArg List.length hl
    rw [List.length_append, List.length_append] at hlen
    generalize c.entries.filter (fun e => matchesPattern pattern.octets (c.name e)) = m at *
    rw [hc, show d.length = m.length by omega, List.take_left]
    refine ⟨h.sorted.sublist ?_, fun p => ?_⟩
    · rw [hl]
      exact (List.sublist_append_left a m).append (List.Sublist.refl d)
    · have hs := h.strings p
      rw [hl] at hs
      simp only [ownedStrings_append, List.count_append] at hs ⊢
      omega

/-! ### Runs -/

/-- Without a pattern nothing is deleted. -/
lemma deleteValues_of_empty (h : pattern.octets = []) : c.deleteValues (some pattern) =
    (.error .emptyContextPattern, c) := by
  rw [ContextImpl.deleteValues, Option.elim_some, h]
  rfl

lemma Ok.right_iff (h : Ok c) (op : ContextOp) : Right c op ↔ FollowedByAsMany c op := by
  cases op with
  | setOneValue name value =>
    refine iff_of_true ⟨(h.setOneValue name value).isMap, fun pattern heq => ?_⟩ fun pattern heq => ?_
    all_goals cases heq
  | setValues values =>
    refine iff_of_true ⟨(h.setValues values).isMap, fun pattern heq => ?_⟩ fun pattern heq => ?_
    all_goals cases heq
  | deleteValues pattern =>
    cases pattern with
    | none =>
      refine iff_of_true ⟨h.isMap, fun pattern heq => ?_⟩ fun pattern heq => ?_
      all_goals cases heq
    | some pattern =>
      by_cases hne : pattern.octets = []
      · refine iff_of_true ⟨?_, fun pattern' heq hne' => ?_⟩ fun pattern' heq bottom top hr => ?_
        · rw [perform, deleteValues_of_empty hne]
          exact h.isMap
        · cases heq
          exact absurd hne hne'
        · cases heq
          rw [hne] at hr
          cases hr
      · constructor
        · intro hright pattern' heq
          cases heq
          exact (h.deleteValues_iff hne).mp ⟨hright.1, hright.2 pattern rfl hne⟩
        · intro heven
          obtain ⟨hmap, hdeleted⟩ := (h.deleteValues_iff hne).mpr (heven pattern rfl)
          refine ⟨hmap, fun pattern' heq _ => ?_⟩
          cases heq
          exact hdeleted

lemma Ok.step {c' : ContextImpl} {op : ContextOp} (h : Ok c) (heven : FollowedByAsMany c op)
    (hs : c.step op = some c') : Ok c' := by
  obtain rfl := Option.some.inj hs
  cases op with
  | setOneValue name value => exact h.setOneValue name value
  | setValues values => exact h.setValues values
  | deleteValues pattern =>
    cases pattern with
    | none => exact h
    | some pattern =>
      by_cases hne : pattern.octets = []
      · rw [perform, deleteValues_of_empty hne]
        exact h
      · exact h.deleteValues hne (heven pattern rfl)

/-- A context is a map that ignores case, and `delete_values` deletes and releases just the entries that
match, as long as each `delete_values` is followed by as many entries as it deletes. -/
theorem context_is_map (ops : List ContextOp) :
    AllOk step Right init ops ↔ AllOk step FollowedByAsMany init ops :=
  AllOk.iff_of_keeps Ok (fun _ op h => h.right_iff op) (fun _ _ _ h heven hs => h.step heven hs) Ok.init ops

/-- Three properties are set, of which the first is deleted. -/
def threeProperties : List ContextOp :=
  [.setOneValue (some (.ofBuffer [97])) (some (.ofBuffer [49])),
    .setOneValue (some (.ofBuffer [98])) (some (.ofBuffer [50])),
    .setOneValue (some (.ofBuffer [99])) (some (.ofBuffer [51])), .deleteValues (some (.ofBuffer [97]))]

/-- The name and value of the second property were released, which is still there. -/
theorem second_property_released : ¬ AllOk step Right init threeProperties := by
  intro h
  have hright := (((h.2 _ rfl).2 _ rfl).2 _ rfl).1
  have hnot := (hright.1.allocated ⟨2, 3⟩ (by decide)).2.2.1
  exact hnot (by decide)

end ContextImpl

end OmniORB
