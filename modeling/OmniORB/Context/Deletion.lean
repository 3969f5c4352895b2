import OmniORB.Context.Matching

/-!
# Which strings a context owns

Each string that was made belongs to one entry, or was released once. This is so as long as
`delete_values` is followed by as many entries as it deletes.
-/

namespace OmniORB

open Library

variable {α : Type} {name : α → List UInt8} {l : List α} {s : List UInt8}

/-! ### insert_single_consume -/

/-- The search finds the entry of that name, or the place for it. -/
lemma findEntry_cases (h : SortedByName name l) (hs : 0 ∉ s) :
    (∃ a d, l = a ++ d ∧ findEntry name l s = (false, a.length) ∧
        (∀ e ∈ a, nameKey (name e) < nameKey s) ∧ ∀ e ∈ d, nameKey s < nameKey (name e)) ∨
      ∃ a e d, l = a ++ e :: d ∧ findEntry name l s = (true, a.length) ∧ foldCase s = foldCase (name e) := by
  have hparted := (h.descending hs).parted
  have hfound := hparted.halve l.length (Nat.zero_le _) (by rw [hparted.length_eq]; omega) le_rfl (by omega)
  have hone := h.length_le_one (s := s) (p := fun e => decide (strcasecmp s (name e) = 0))
    fun e he hp => (strcasecmp_eq_zero hs (h.noNul e he)).mp (of_decide_eq_true hp)
  generalize ha : l.filter (fun e => 0 < strcasecmp s (name e)) = a at hparted hfound
  generalize hb : l.filter (fun e => strcasecmp s (name e) = 0) = b at hparted hfound hone
  generalize hd : l.filter (fun e => strcasecmp s (name e) < 0) = d at hparted
  have hmem : ∀ e ∈ l, 0 ∉ name e := h.noNul
  match b, hone with
  | [], _ =>
    refine .inl ⟨a, d, by simpa using hparted.eq, by simpa [findEntry] using hfound, fun e he => ?_, fun e he => ?_⟩
    · have hel : e ∈ l := by
        rw [hparted.eq]
        simp [he]
      exact (strcasecmp_pos_iff hs (hmem e hel)).mp (hparted.before e he)
    · have hel : e ∈ l := by
        rw [hparted.eq]
        simp [he]
      exact (strcasecmp_neg_iff hs (hmem e hel)).mp (hparted.after e he)
  | [e], _ =>
    rw [if_neg (List.cons_ne_nil e [])] at hfound
    obtain ⟨i, hi, hle, hlt⟩ := hfound
    have hel : e ∈ l := by
      rw [hparted.eq]
      simp
    refine .inr ⟨a, e, d, by simpa using hparted.eq, ?_, ?_⟩
    · rw [List.length_singleton] at hlt
      rw [findEntry, hi, show i = a.length by omega]
    · exact (strcasecmp_eq_zero hs (hmem e hel)).mp (hparted.among e List.mem_cons_self)

/-! ### Strings and their owners -/

/-- The strings that the entries point to. -/
def ownedStrings (entries : List ContextEntry) : List ℕ := entries.flatMap fun e => [e.name, e.value]

@[simp] lemma ownedStrings_nil : ownedStrings [] = [] := rfl

@[simp] lemma ownedStrings_cons (e : ContextEntry) (entries : List ContextEntry) :
    ownedStrings (e :: entries) = e.name :: e.value :: ownedStrings entries := rfl

@[simp] lemma ownedStrings_append (l m : List ContextEntry) :
    ownedStrings (l ++ m) = ownedStrings l ++ ownedStrings m := List.flatMap_append

lemma name_mem_ownedStrings {entries : List ContextEntry} {e : ContextEntry} (h : e ∈ entries) :
    e.name ∈ ownedStrings entries := List.mem_flatMap.mpr ⟨e, h, by simp⟩

lemma value_mem_ownedStrings {entries : List ContextEntry} {e : ContextEntry} (h : e ∈ entries) :
    e.value ∈ ownedStrings entries := List.mem_flatMap.mpr ⟨e, h, by simp⟩

namespace ContextImpl

variable {c : ContextImpl}

/-- Each string belongs to one entry, or was released once. -/
structure Ok (c : ContextImpl) : Prop where
  sorted : SortedByName c.name c.entries
  strings : ∀ p, (ownedStrings c.entries).count p + c.freed.count p = if p < c.strings.length then 1 else 0

lemma Ok.init : Ok init := ⟨⟨by simp [ContextImpl.init], by simp [ContextImpl.init]⟩, by simp [ContextImpl.init]⟩

lemma Ok.lt_of_mem (h : Ok c) {p : ℕ} (hp : p ∈ ownedStrings c.entries) : p < c.strings.length := by
  by_contra hlt
  have := h.strings p
  rw [if_neg hlt] at this
  have hpos := List.count_pos_iff.mpr hp
  omega

lemma Ok.notMem_freed (h : Ok c) {p : ℕ} (hp : p ∈ ownedStrings c.entries) : c.freed.count p = 0 := by
  have := h.strings p
  rw [if_pos (h.lt_of_mem hp)] at this
  have hpos := List.count_pos_iff.mpr hp
  omega

lemma zero_notMem_text (c : ContextImpl) (p : ℕ) : 0 ∉ c.text p := by
  rw [text]
  cases c.strings[p]? with
  | none => simp
  | some s => exact s.noNul

/-- The new strings do not change the old ones. -/
lemma text_of_lt {c c' : ContextImpl} {new : List CString} (hnew : c'.strings = c.strings ++ new) {p : ℕ}
    (hp : p < c.strings.length) : c'.text p = c.text p := by
  rw [text, text, hnew, List.getElem?_append_left hp]

/-- The two strings become those of an entry. -/
lemma Ok.insertSingleConsume (h : Ok c) (propName value : CString) :
    Ok (({ c with strings := c.strings ++ [propName, value] } : ContextImpl).insertSingleConsume
      c.strings.length (c.strings.length + 1)) := by
  set c1 : ContextImpl := { c with strings := c.strings ++ [propName, value] } with hc1
  have hname : ∀ e ∈ c.entries, c1.name e = c.name e := fun e he =>
    text_of_lt rfl (h.lt_of_mem (name_mem_ownedStrings he))
  have hnew : c1.text c.strings.length = propName.octets := by simp [hc1, text]
  have hsorted : SortedByName c1.name c1.entries := by
    refine SortedByName.of_lt (fun e _ => zero_notMem_text c1 e.name) (h.sorted.lt.imp_of_mem ?_)
    intro e f he hf hlt
    rwa [hname e he, hname f hf]
  have hcount : ∀ p, (if p < c1.strings.length then 1 else 0) =
      (if p < c.strings.length then 1 else 0) + [c.strings.length, c.strings.length + 1].count p := by
    intro p
    simp only [hc1, List.length_append, List.length_cons, List.length_nil, List.count_cons, List.count_nil,
      beq_iff_eq]
    split_ifs
    all_goals omega
  rw [ContextImpl.insertSingleConsume, hnew]
  rcases findEntry_cases hsorted propName.noNul with ⟨a, d, hl, hfind, ha, hd⟩ | ⟨a, e, d, hl, hfind, hfold⟩
  · simp only [hfind, Bool.false_eq_true, if_false]
    have hins : c1.entries.insertIdx a.length ⟨c.strings.length, c.strings.length + 1⟩ =
        a ++ ⟨c.strings.length, c.strings.length + 1⟩ :: d := by
      rw [hl]
      exact insertIdx_append a d _
    refine ⟨SortedByName.of_lt (fun f _ => zero_notMem_text c1 f.name) ?_, fun p => ?_⟩
    · have hlt := hsorted.lt
      rw [hl] at hlt
      change List.Pairwise _ (c1.entries.insertIdx _ _)
      rw [hins]
      obtain ⟨hpa, hpd, had⟩ := List.pairwise_append.mp hlt
      refine List.pairwise_append.mpr ⟨hpa, List.pairwise_cons.mpr ⟨fun f hf => ?_, hpd⟩, fun f hf g hg => ?_⟩
      · have hlt' := hd f hf
        rw [← hnew] at hlt'
        exact hlt'
      · rcases List.mem_cons.mp hg with rfl | hg
        · have hlt' := ha f hf
          rw [← hnew] at hlt'
          exact hlt'
        · exact had f hf g hg
    · have hs := h.strings p
      have hl' : c.entries = a ++ d := hl
      rw [hl'] at hs
      change (ownedStrings (c1.entries.insertIdx _ _)).count p + c.freed.count p = _
      rw [hins, hcount p]
      simp only [ownedStrings_append, ownedStrings_cons, List.count_append, List.count_cons, List.count_nil] at hs ⊢
      omega
  · simp only [hfind, if_true]
    have hentry : c1.entry a.length = e := by simp [entry, hl]
    have hset : ∀ f : ContextEntry, c1.entries.set a.length f = a ++ f :: d := by
      intro f
      rw [hl]
      simp
    simp only [hentry, hset]
    refine ⟨SortedByName.of_lt (fun f _ => zero_notMem_text c1 f.name) ?_, fun p => ?_⟩
    · have hlt := hsorted.lt
      rw [hl] at hlt
      obtain ⟨hpa, hpd, had⟩ := List.pairwise_append.mp hlt
      obtain ⟨hed, hpd⟩ := List.pairwise_cons.mp hpd
      refine List.pairwise_append.mpr ⟨hpa, List.pairwise_cons.mpr ⟨fun f hf => hed f hf, hpd⟩,
        fun f hf g hg => ?_⟩
      rcases List.mem_cons.mp hg with rfl | hg
      · exact had f hf e List.mem_cons_self
      · exact had f hf g (List.mem_cons_of_mem e hg)
    · have hs := h.strings p
      have hl' : c.entries = a ++ e :: d := hl
      rw [hl'] at hs
      change (ownedStrings (a ++ ⟨e.name, c.strings.length + 1⟩ :: d)).count p +
        (c.freed ++ [e.value] ++ [c.strings.length]).count p = if p < c1.strings.length then 1 else 0
      rw [hcount p]
      simp only [ownedStrings_append, ownedStrings_cons, List.count_append, List.count_cons, List.count_nil] at hs ⊢
      omega

lemma Ok.stringFree_dup (h : Ok c) (propName : CString) :
    Ok ((c.stringDup propName).1.stringFree (c.stringDup propName).2) := by
  refine ⟨SortedByName.of_lt (fun e _ => zero_notMem_text _ e.name) (h.sorted.lt.imp_of_mem ?_), fun p => ?_⟩
  · intro e f he hf hlt
    change nameKey (text _ e.name) < nameKey (text _ f.name)
    rw [text_of_lt (c := c) rfl (h.lt_of_mem (name_mem_ownedStrings he)),
      text_of_lt (c := c) rfl (h.lt_of_mem (name_mem_ownedStrings hf))]
    exact hlt
  · have hs := h.strings p
    simp only [stringDup, stringFree, List.count_append, List.count_cons, List.count_nil, List.length_append,
      List.length_singleton, beq_iff_eq]
    split_ifs at hs ⊢
    all_goals omega

lemma Ok.setOneValue (h : Ok c) (propName value : Option CString) : Ok (c.setOneValue propName value).2 := by
  cases propName with
  | none => exact h
  | some propName =>
    rw [ContextImpl.setOneValue]
    split_ifs
    · cases value with
      | none => exact h.stringFree_dup propName
      | some value =>
        have hok := h.insertSingleConsume propName value
        simpa [stringDup] using hok
    · exact h

lemma Ok.setValues (h : Ok c) (values : List (Option CString × Option CString)) : Ok (c.setValues values).2 := by
  induction values generalizing c with
  | nil => exact h
  | cons v values ih =>
    have hone := h.setOneValue v.1 v.2
    rw [ContextImpl.setValues]
    cases (c.setOneValue v.1 v.2).1 with
    | error e => exact hone
    | ok u => exact ih hone

end ContextImpl

end OmniORB
