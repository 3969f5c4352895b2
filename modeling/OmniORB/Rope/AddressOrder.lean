import OmniORB.Rope.Addresses

/-!
# The order of the addresses of a rope

What each operation on a rope does to the order, and to the addresses that there are.
-/

namespace OmniORB.FailOver

variable {par : OrbParameters}

namespace Rope

/-- The order is that of the addresses, if they have been filtered, and the index is in it. -/
structure Ok (par : OrbParameters) (r : Rope) : Prop where
  order : r.order = if r.filtered then addressOrder par r.addresses else []
  index : r.inUse = 0 ∨ r.inUse < r.order.length
  filtering : r.filtering = true → r.filtered = false

variable {r : Rope} {a b : GiopAddress} {held : List GiopAddress}

lemma getElem?_filterMap {l : List GiopAddress} {order : List ℕ} (h : ∀ i ∈ order, i < l.length)
    (p : ℕ) : (order.filterMap (l[·]?))[p]? = order[p]?.bind (l[·]?) := by
  induction order generalizing p with
  | nil => rfl
  | cons i order ih =>
    obtain ⟨hi, horder⟩ := List.forall_mem_cons.mp h
    rw [List.filterMap_cons_some (List.getElem?_eq_getElem hi)]
    cases p with
    | zero => exact (List.getElem?_eq_getElem hi).symm
    | succ p => exact ih horder p

lemma length_filterMap {l : List GiopAddress} {order : List ℕ} (h : ∀ i ∈ order, i < l.length) :
    (order.filterMap (l[·]?)).length = order.length := by
  induction order with
  | nil => rfl
  | cons i order ih =>
    obtain ⟨hi, horder⟩ := List.forall_mem_cons.mp h
    rw [List.filterMap_cons_some (List.getElem?_eq_getElem hi), List.length_cons, ih horder,
      List.length_cons]

namespace Ok

lemma lt_of_mem (h : r.Ok par) {i : ℕ} (hi : i ∈ r.order) : i < r.addresses.length := by
  rw [h.order] at hi
  split_ifs at hi
  · obtain ⟨a, hget, -⟩ := ((addressOrder_sorted par _).mem_iff i).mp hi
    exact (List.getElem?_eq_some_iff.mp hget).1
  · cases hi

lemma getElem?_ordered (h : r.Ok par) (p : ℕ) :
    r.ordered[p]? = r.order[p]?.bind (r.addresses[·]?) :=
  getElem?_filterMap (fun _ => h.lt_of_mem) p

lemma current_eq (h : r.Ok par) : r.current = r.ordered[r.inUse]? := (h.getElem?_ordered _).symm

lemma length_ordered (h : r.Ok par) : r.ordered.length = r.order.length := by
  exact length_filterMap fun _ => h.lt_of_mem

lemma inUse_lt (h : r.Ok par) (hne : r.order ≠ []) : r.inUse < r.ordered.length := by
  have hpos := List.length_pos_iff.mpr hne
  rw [h.length_ordered]
  rcases h.index with h0 | hlt
  · omega
  · exact hlt

lemma ordered_perm (h : r.Ok par) (hf : r.filtered = true) :
    r.ordered.Perm (r.addresses.filter fun a => a.accepted par) := by
  rw [ordered, h.order, if_pos hf]
  exact addressOrder_filterMap

lemma sorted (h : r.Ok par) (hf : r.filtered = true) : Sorted par r.addresses r.order := by
  rw [h.order, if_pos hf]
  exact addressOrder_sorted par r.addresses

lemma filtered_of_ne_nil (h : r.Ok par) (hne : r.order ≠ []) : r.filtered = true := by
  by_contra hf
  exact hne (by rw [h.order, if_neg hf])

/-- The next address in the order, if the one in use has failed. -/
lemma notifyCommFailure (h : r.Ok par) (hne : r.order ≠ []) (addr : Option GiopAddress) :
    ∃ u b, r.notifyCommFailure addr = some ({ r with inUse := u }, b) ∧ r.ordered[u]? = some b ∧
      (addr = r.ordered[r.inUse]? → u = (r.inUse + 1) % r.ordered.length) := by
  have hlt := h.inUse_lt hne
  have hcur : r.current = some r.ordered[r.inUse] := by
    rw [h.current_eq, List.getElem?_eq_getElem hlt]
  rw [Rope.notifyCommFailure, hcur, Option.bind_some]
  by_cases haddr : addr = some r.ordered[r.inUse]
  · have hu : (if r.order.length ≤ r.inUse + 1 then 0 else r.inUse + 1) =
        (r.inUse + 1) % r.ordered.length := by
      rw [h.length_ordered] at hlt ⊢
      split_ifs with hle
      · rw [show r.inUse + 1 = r.order.length by omega, Nat.mod_self]
      · rw [Nat.mod_eq_of_lt (by omega)]
    have hnext : (r.inUse + 1) % r.ordered.length < r.ordered.length := Nat.mod_lt _ (by omega)
    have hget := List.getElem?_eq_getElem hnext
    refine ⟨_, _, ?_, hget, fun _ => rfl⟩
    have hcur' : current { r with inUse := (r.inUse + 1) % r.ordered.length } =
        some r.ordered[(r.inUse + 1) % r.ordered.length] := by
      rw [← hget, h.getElem?_ordered]
      rfl
    rw [if_pos haddr, hu]
    dsimp only
    rw [hcur', Option.map_some]
  · rw [if_neg haddr]
    refine ⟨r.inUse, _, rfl, List.getElem?_eq_getElem hlt, fun heq => absurd heq ?_⟩
    rw [List.getElem?_eq_getElem hlt]
    exact haddr

lemma with_inUse (h : r.Ok par) {u : ℕ} (hu : r.ordered[u]? = some b) :
    Ok par { r with inUse := u } where
  order := h.order
  index := Or.inr (by
    have hlt := (List.getElem?_eq_some_iff.mp hu).1
    rwa [h.length_ordered] at hlt)
  filtering := h.filtering

lemma filterAndSortAddressList (h : r.Ok par) (hf : r.filtered = false)
    (resolved : List GiopAddress) : Ok par (r.filterAndSortAddressList par resolved) := by
  have horder := h.order
  rw [hf] at horder
  have hnil : r.order = [] := horder
  refine ⟨?_, ?_, fun hfalse => by cases hfalse⟩
  · change r.order ++ _ = _
    rw [hnil]
    rfl
  · rcases h.index with h0 | hlt
    · exact Or.inl h0
    · rw [hnil] at hlt
      cases hlt

lemma resetAddressOrder (h : r.Ok par) (held : List GiopAddress) :
    Ok par (r.resetAddressOrder par held).1 := by
  rw [Rope.resetAddressOrder]
  split_ifs
  · exact h
  · exact ⟨rfl, Or.inl rfl, fun _ => rfl⟩

end Ok

lemma mem_of_ordered {p : ℕ} (h : r.ordered[p]? = some a) : a ∈ r.addresses := by
  obtain ⟨i, -, hi⟩ := List.mem_filterMap.mp (List.mem_of_getElem? h)
  exact List.mem_of_getElem? hi

/-- A reset deletes an address, or keeps it in one of the two lists. -/
lemma resetAddressOrder_perm (par : OrbParameters) (r : Rope) (held : List GiopAddress) :
    ((r.resetAddressOrder par held).1.addresses ++ (r.resetAddressOrder par held).1.dead ++
      (r.resetAddressOrder par held).2).Perm (r.addresses ++ r.dead) := by
  rw [resetAddressOrder]
  split_ifs
  · rw [List.append_nil]
  · have hsplit : (r.expired.filter (· ∈ held) ++ r.expired.filter (· ∉ held)).Perm r.expired := by
      have hperm := List.filter_append_perm (fun a => decide (a ∈ held)) r.expired
      simpa only [decide_not] using hperm
    have hexp : r.expired.Perm (r.addresses.drop r.iorSize ++ r.dead) :=
      List.perm_append_comm.trans ((List.reverse_perm _).append_right _)
    rw [List.append_assoc]
    refine ((hsplit.trans hexp).append_left _).trans ?_
    rw [← List.append_assoc, List.take_append_drop]

/-- An address of another strand is not deleted. -/
lemma mem_resetAddressOrder (ha : a ∈ r.addresses ++ r.dead)
    (hdel : a ∉ (r.resetAddressOrder par held).2) :
    a ∈ (r.resetAddressOrder par held).1.addresses ++ (r.resetAddressOrder par held).1.dead := by
  have hmem := (resetAddressOrder_perm par r held).mem_iff.mpr ha
  rcases List.mem_append.mp hmem with hkept | hdel'
  · exact hkept
  · exact absurd hdel' hdel

lemma not_mem_of_held (ha : a ∈ held) : a ∉ (r.resetAddressOrder par held).2 := by
  rw [resetAddressOrder]
  split_ifs
  · exact List.not_mem_nil
  · intro hmem
    exact absurd ha (of_decide_eq_true (List.mem_filter.mp hmem).2)

lemma resetAddressOrder_filtering (par : OrbParameters) (r : Rope) (held : List GiopAddress) :
    (r.resetAddressOrder par held).1.filtering = r.filtering := by
  rw [resetAddressOrder]
  split_ifs <;> rfl

end Rope

end OmniORB.FailOver
