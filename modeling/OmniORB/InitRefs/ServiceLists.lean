import Mathlib

/-!
# Lists of initial references

There is one list of the references that the arguments and the application set, and one of those
from the configuration file.
-/

namespace OmniORB.InitRefs

/-- What an object pointer that is not null points to. -/
inductive Obj where
  | nil
  | reference (r : ℕ)
  deriving DecidableEq

structure ServiceRecord where
  id : String
  uri : Option String
  ref : Obj
  deriving DecidableEq

/-- The first entry for an identifier. -/
def findService (id : String) (l : List ServiceRecord) : Option ServiceRecord :=
  l.find? fun e => e.id = id

/-- An entry for the identifier is overwritten, and if there is none, one is appended. -/
def setService (id : String) (uri : Option String) (ref : Obj) :
    List ServiceRecord → List ServiceRecord
  | [] => [⟨id, uri, ref⟩]
  | e :: l => if e.id = id then { e with uri, ref } :: l else e :: setService id uri ref l

/-- The second search of `resolveArgs` and of `resolveFile`. -/
def storeRef (id : String) (r : ℕ) : List ServiceRecord → List ServiceRecord
  | [] => []
  | e :: l =>
    if e.id = id then
      (if e.ref = .nil then { e with uri := none, ref := .reference r } else e) :: l
    else e :: storeRef id r l

/-- The inner loop of a removal, from the place `i` on. The first argument bounds its rounds. -/
def shiftDown : ℕ → ℕ → List ServiceRecord → List ServiceRecord
  | 0, _, l => l
  | n + 1, i, l =>
    match l[i]? with
    | some e => shiftDown n (i + 1) (l.set (i - 1) e)
    | none => l

/-- The entries behind the one for the identifier move down, and the list gets shorter by one. -/
def removeService (id : String) (l : List ServiceRecord) : List ServiceRecord :=
  match l.findIdx? fun e => e.id = id with
  | some i => (shiftDown l.length (i + 1) l).take (l.length - 1)
  | none => l

variable {id : String} {uri : Option String} {ref : Obj} {r : ℕ} {e : ServiceRecord}
variable {l : List ServiceRecord}

/-- No identifier has two entries. -/
def Distinct (l : List ServiceRecord) : Prop := (l.map ServiceRecord.id).Nodup

lemma Distinct.cons_iff : Distinct (e :: l) ↔ (∀ e' ∈ l, e'.id ≠ e.id) ∧ Distinct l := by
  simp only [Distinct, List.map_cons, List.nodup_cons, List.mem_map, not_exists, not_and]

lemma findService_eq_none : findService id l = none ↔ ∀ e ∈ l, e.id ≠ id := by
  simp [findService]

lemma Distinct.find_iff (h : Distinct l) : findService id l = some e ↔ e ∈ l ∧ e.id = id := by
  induction l with
  | nil => simp [findService]
  | cons e' l ih =>
    obtain ⟨hne, h⟩ := Distinct.cons_iff.mp h
    by_cases he : e'.id = id
    · have hfound : findService id (e' :: l) = some e' := by simp [findService, he]
      rw [hfound, List.mem_cons]
      constructor
      · rintro ⟨rfl⟩
        exact ⟨.inl rfl, he⟩
      · rintro ⟨rfl | hl, hid⟩
        · rfl
        · exact absurd (hid.trans he.symm) (hne e hl)
    · have hlater : findService id (e' :: l) = findService id l := by simp [findService, he]
      rw [hlater, ih h, List.mem_cons]
      constructor
      · exact fun ⟨hl, hid⟩ => ⟨.inr hl, hid⟩
      · rintro ⟨rfl | hl, hid⟩
        · exact absurd hid he
        · exact ⟨hl, hid⟩

/-! ### Setting an entry -/

lemma Distinct.mem_set_iff (h : Distinct l) :
    e ∈ setService id uri ref l ↔ e = ⟨id, uri, ref⟩ ∨ e ∈ l ∧ e.id ≠ id := by
  induction l with
  | nil => simp [setService]
  | cons e' l ih =>
    obtain ⟨hne, h⟩ := Distinct.cons_iff.mp h
    by_cases he : e'.id = id
    · subst he
      simp only [setService, ↓reduceIte, List.mem_cons]
      constructor
      · rintro (rfl | hl)
        · exact .inl rfl
        · exact .inr ⟨.inr hl, hne e hl⟩
      · rintro (rfl | ⟨rfl | hl, hid⟩)
        · exact .inl rfl
        · exact absurd rfl hid
        · exact .inr hl
    · simp only [setService, he, ↓reduceIte, List.mem_cons, ih h]
      constructor
      · rintro (rfl | rfl | ⟨hl, hid⟩)
        · exact .inr ⟨.inl rfl, he⟩
        · exact .inl rfl
        · exact .inr ⟨.inr hl, hid⟩
      · rintro (rfl | ⟨rfl | hl, hid⟩)
        · exact .inr (.inl rfl)
        · exact .inl rfl
        · exact .inr (.inr ⟨hl, hid⟩)

lemma Distinct.set (h : Distinct l) : Distinct (setService id uri ref l) := by
  induction l with
  | nil => simp [setService, Distinct]
  | cons e' l ih =>
    obtain ⟨hne, h⟩ := Distinct.cons_iff.mp h
    by_cases he : e'.id = id
    · simp only [setService, he, ↓reduceIte]
      exact Distinct.cons_iff.mpr ⟨fun e hl => by rw [← he]; exact hne e hl, h⟩
    · simp only [setService, he, ↓reduceIte]
      apply Distinct.cons_iff.mpr
      refine ⟨fun e hl => ?_, ih h⟩
      rcases h.mem_set_iff.mp hl with rfl | ⟨hl, _⟩
      · exact Ne.symm he
      · exact hne e hl

lemma Distinct.append (h : Distinct l) (hnew : ∀ e ∈ l, e.id ≠ id) :
    Distinct (l ++ [⟨id, uri, ref⟩]) := by
  have hnot : id ∉ l.map ServiceRecord.id := by
    simpa only [List.mem_map, not_exists, not_and] using hnew
  simp only [Distinct, List.map_append, List.map_cons, List.map_nil]
  exact List.Nodup.append h (List.nodup_singleton _) (by simpa using hnot)

/-! ### Storing a reference -/

lemma Distinct.mem_store_iff (h : Distinct l) :
    e ∈ storeRef id r l ↔
      e ∈ l ∧ (e.id ≠ id ∨ e.ref ≠ .nil) ∨
        e = ⟨id, none, .reference r⟩ ∧ ∃ e' ∈ l, e'.id = id ∧ e'.ref = .nil := by
  induction l with
  | nil => simp [storeRef]
  | cons e' l ih =>
    obtain ⟨hne, h⟩ := Distinct.cons_iff.mp h
    by_cases he : e'.id = id
    · subst he
      have hnone : ¬∃ e2 ∈ l, e2.id = e'.id ∧ e2.ref = .nil := fun ⟨e2, hl, hid, _⟩ =>
        hne e2 hl hid
      by_cases href : e'.ref = .nil
      · simp only [storeRef, ↓reduceIte, href, List.mem_cons]
        constructor
        · rintro (rfl | hl)
          · exact .inr ⟨rfl, e', .inl rfl, rfl, href⟩
          · exact .inl ⟨.inr hl, .inl (hne e hl)⟩
        · rintro (⟨rfl | hl, hor⟩ | ⟨rfl, _⟩)
          · exact absurd href (hor.resolve_left fun hid => hid rfl)
          · exact .inr hl
          · exact .inl rfl
      · simp only [storeRef, ↓reduceIte, href, List.mem_cons]
        constructor
        · rintro (rfl | hl)
          · exact .inl ⟨.inl rfl, .inr href⟩
          · exact .inl ⟨.inr hl, .inl (hne e hl)⟩
        · rintro (⟨hl, _⟩ | ⟨rfl, e2, rfl | hl, hid, hnil⟩)
          · exact hl
          · exact absurd hnil href
          · exact absurd ⟨e2, hl, hid, hnil⟩ hnone
    · simp only [storeRef, he, ↓reduceIte, List.mem_cons, ih h]
      constructor
      · rintro (rfl | ⟨hl, hor⟩ | ⟨rfl, e2, hl, hid⟩)
        · exact .inl ⟨.inl rfl, .inl he⟩
        · exact .inl ⟨.inr hl, hor⟩
        · exact .inr ⟨rfl, e2, .inr hl, hid⟩
      · rintro (⟨rfl | hl, hor⟩ | ⟨rfl, e2, rfl | hl, hid⟩)
        · exact .inl rfl
        · exact .inr (.inl ⟨hl, hor⟩)
        · exact absurd hid.1 he
        · exact .inr (.inr ⟨rfl, e2, hl, hid⟩)

lemma ids_storeRef : (storeRef id r l).map ServiceRecord.id = l.map ServiceRecord.id := by
  induction l with
  | nil => rfl
  | cons e l ih =>
    simp only [storeRef]
    split_ifs <;> simp [ih]

lemma Distinct.store (h : Distinct l) : Distinct (storeRef id r l) := by
  rw [Distinct, ids_storeRef]
  exact h

/-! ### Removal -/

/-- What the loop does behind an entry: everything after it moves down by one, and the last place
keeps what it holds. -/
lemma shiftDown_append (pre post : List ServiceRecord) (n : ℕ) (hn : post.length ≤ n) :
    (shiftDown n (pre.length + 1) (pre ++ e :: post)).take (pre.length + post.length) =
      pre ++ post := by
  induction post generalizing pre e n with
  | nil =>
    cases n with
    | zero => simp [shiftDown]
    | succ n => simp [shiftDown]
  | cons e' post ih =>
    obtain ⟨n, rfl⟩ : ∃ m, n = m + 1 := ⟨n - 1, by rw [List.length_cons] at hn; omega⟩
    have hread : (pre ++ e :: e' :: post)[pre.length + 1]? = some e' := by
      rw [List.getElem?_append_right (Nat.le_succ _), Nat.succ_sub (le_refl _), Nat.sub_self]
      rfl
    have hwrite : (pre ++ e :: e' :: post).set pre.length e' = (pre ++ [e']) ++ e' :: post := by
      rw [List.set_append_right _ _ le_rfl, Nat.sub_self, List.set_cons_zero, List.append_assoc]
      rfl
    have hlater := ih (e := e') (pre ++ [e']) n (by rw [List.length_cons] at hn; omega)
    rw [List.length_append, List.length_singleton] at hlater
    rw [shiftDown, hread]
    simp only [Nat.add_sub_cancel, hwrite]
    rw [List.length_cons, Nat.add_comm post.length, ← Nat.add_assoc, hlater, List.append_assoc]
    rfl

/-- The removal takes out the entry for the identifier and no other one. -/
theorem Distinct.remove_eq_filter (h : Distinct l) :
    removeService id l = l.filter fun e => e.id ≠ id := by
  cases hi : l.findIdx? fun e => e.id = id with
  | none =>
    have hall : ∀ e ∈ l, e.id ≠ id := by simpa [List.findIdx?_eq_none_iff] using hi
    simp only [removeService, hi]
    exact (List.filter_eq_self.mpr fun e hl => decide_eq_true (hall e hl)).symm
  | some i =>
    obtain ⟨hlt, hid, hbefore⟩ := List.findIdx?_eq_some_iff_getElem.mp hi
    have hsplit : l = l.take i ++ l[i] :: l.drop (i + 1) := by
      rw [List.getElem_cons_drop, List.take_append_drop]
    have hpre : ∀ e ∈ l.take i, e.id ≠ id := by
      intro e he
      obtain ⟨j, hj, rfl⟩ := List.mem_iff_getElem.mp he
      have hji : j < i := by simp at hj; omega
      simpa using hbefore j hji
    have hpost : ∀ e ∈ l.drop (i + 1), e.id ≠ id := by
      have hdistinct : Distinct (l[i] :: l.drop (i + 1)) :=
        List.Nodup.sublist (List.Sublist.map _ (by
          rw [List.getElem_cons_drop]
          exact List.drop_sublist i l)) h
      intro e he hid'
      exact (Distinct.cons_iff.mp hdistinct).1 e he (hid'.trans (of_decide_eq_true hid).symm)
    have hlen : (l.take i).length = i := List.length_take_of_le hlt.le
    have hshift := shiftDown_append (e := l[i]) (l.take i) (l.drop (i + 1)) l.length
      (by simp)
    rw [hlen, ← hsplit] at hshift
    have hcount : l.length - 1 = i + (l.drop (i + 1)).length := by
      rw [List.length_drop]
      omega
    simp only [removeService, hi]
    rw [hcount, hshift]
    conv_rhs => rw [hsplit]
    rw [List.filter_append, List.filter_cons_of_neg (by simpa using hid)]
    rw [List.filter_eq_self.mpr fun e he => decide_eq_true (hpre e he),
      List.filter_eq_self.mpr fun e he => decide_eq_true (hpost e he)]

lemma Distinct.mem_remove_iff (h : Distinct l) : e ∈ removeService id l ↔ e ∈ l ∧ e.id ≠ id := by
  rw [h.remove_eq_filter, List.mem_filter, decide_eq_true_iff]

lemma Distinct.remove (h : Distinct l) : Distinct (removeService id l) := by
  rw [h.remove_eq_filter]
  exact List.Nodup.sublist (List.Sublist.map _ List.filter_sublist) h

end OmniORB.InitRefs
