import OmniORB.Poa.Managers

/-!
# POAs follow their manager

As long as each child that an adapter activator makes is attached in the end, each POA is in the list
of its manager and in its state.
-/

namespace OmniORB

open Library

namespace PoaSystem

/-- The POA is a child of that name. -/
def IsChild (s : PoaSystem) (p : ℕ) (k : ℕ × CString) : Prop :=
  (s.poa p).parent = some k.1 ∧ (s.poa p).name = k.2

instance (s : PoaSystem) (p : ℕ) (k : ℕ × CString) : Decidable (s.IsChild p k) :=
  inferInstanceAs (Decidable (_ ∧ _))

/-- The POA is still being created by an adapter activator. -/
def Pending (s : PoaSystem) (p : ℕ) : Prop :=
  (∃ k ∈ s.running, s.IsChild p k) ∨ s.attaching = some p

lemma not_pending {s : PoaSystem} {p : ℕ} (hrun : s.running = []) (hatt : s.attaching = none) :
    ¬s.Pending p := by
  unfold Pending
  rw [hrun, hatt]
  simp

/-- The POA is in the list of its manager. -/
def Attached (s : PoaSystem) (p : ℕ) : Prop := p ∈ (s.manager (s.poa p).manager).poas

/-- What keeps the POAs in step with their managers. The POA `e`, if there is one, may be new. -/
structure Inv (e : Option ℕ) (s : PoaSystem) : Prop where
  manager_lt : ∀ p < s.nPoas, (s.poa p).manager < s.nManagers
  own : ∀ m, ∀ p ∈ (s.manager m).poas, p < s.nPoas ∧ (s.poa p).manager = m
  nodup : ∀ m, (s.manager m).poas.Nodup
  synced : ∀ p < s.nPoas, (s.poa p).phase = .alive → s.Attached p →
    (s.poa p).rqState = (s.manager (s.poa p).manager).state
  unattached : ∀ p < s.nPoas, (s.poa p).phase = .alive → ¬s.Attached p →
    (s.poa p).rqState = .holding ∧ (s.Pending p ∨ e = some p)
  unique : ∀ p < s.nPoas, ∀ q < s.nPoas, (s.poa p).phase ≠ .gone → (s.poa q).phase ≠ .gone →
    ∀ k, s.IsChild p k → s.IsChild q k → p = q
  activating : ∀ k ∈ s.running, k ∈ s.activating
  running_nodup : s.running.Nodup
  running : ∀ k ∈ s.running, ∀ p < s.nPoas, (s.poa p).phase = .alive → s.IsChild p k →
    ¬s.Attached p
  attaching : ∀ p ∈ s.attaching, p < s.nPoas ∧ ¬s.Attached p ∧ ∀ k ∈ s.running, ¬s.IsChild p k

/-- A step that leaves no child unattached: an adapter activator that is not successful leaves no
child, and one that is has left one that is not being destroyed; no child is made under a name that
an activator left behind by an exception; and no activation is started for a child that is there. -/
def Orderly (s : PoaSystem) : PoaAction → Prop
  | .insPOA => ∀ r ∈ s.rootPOA, (r, insPoaName) ∉ s.activating
  | .createPOA parent name _ _ => (parent, name) ∈ s.activating → (parent, name) ∈ s.running
  | .startActivation parent name =>
    ∀ p < s.nPoas, s.IsChild p (parent, name) → (s.poa p).phase ≠ .alive
  | .endActivation parent name .created =>
    ∀ p ∈ s.findChild parent name, (s.poa p).phase = .alive
  | .endActivation parent name _ =>
    ∀ p < s.nPoas, s.IsChild p (parent, name) → (s.poa p).phase ≠ .alive
  | .attach => ∀ p ∈ s.attaching, (s.poa p).phase = .alive
  | _ => True

instance (s : PoaSystem) : (a : PoaAction) → Decidable (s.Orderly a)
  | .insPOA => inferInstanceAs (Decidable (∀ r ∈ s.rootPOA, (r, insPoaName) ∉ s.activating))
  | .createPOA parent name _ _ =>
    inferInstanceAs (Decidable ((parent, name) ∈ s.activating → (parent, name) ∈ s.running))
  | .startActivation parent name =>
    inferInstanceAs (Decidable (∀ p < s.nPoas, s.IsChild p (parent, name) →
      (s.poa p).phase ≠ .alive))
  | .endActivation parent name .created =>
    inferInstanceAs (Decidable (∀ p ∈ s.findChild parent name, (s.poa p).phase = .alive))
  | .endActivation parent name .notCreated | .endActivation parent name .exception =>
    inferInstanceAs (Decidable (∀ p < s.nPoas, s.IsChild p (parent, name) →
      (s.poa p).phase ≠ .alive))
  | .attach => inferInstanceAs (Decidable (∀ p ∈ s.attaching, (s.poa p).phase = .alive))
  | .initialise | .activate _ | .holdRequests _ | .discardRequests _ | .deactivate _
  | .markDying _ | .discardHeld _ | .losePoa _ | .finishDestroy _ => isTrue trivial

variable {s : PoaSystem} {e : Option ℕ} {p : ℕ}

/-! ### Children -/

lemma of_findChild {k : ℕ × CString} (h : s.findChild k.1 k.2 = some p) :
    p < s.nPoas ∧ (s.poa p).phase ≠ .gone ∧ s.IsChild p k := by
  have h1 := List.find?_some h
  have h2 := List.mem_of_find?_eq_some h
  rw [decide_eq_true_eq] at h1
  exact ⟨List.mem_range.mp h2, h1.1, h1.2⟩

lemma not_isChild_of_findChild {k : ℕ × CString} (h : s.findChild k.1 k.2 = none)
    (hp : p < s.nPoas) (hgone : (s.poa p).phase ≠ .gone) : ¬s.IsChild p k := by
  intro hk
  have := List.find?_eq_none.mp h p (List.mem_range.mpr hp)
  rw [decide_eq_true_eq] at this
  exact this ⟨hgone, hk⟩

/-! ### Changes of records and managers -/

/-- A change that keeps the place of each POA, in its parent and in its manager. -/
structure Keeps (s s' : PoaSystem) : Prop where
  nPoas : s'.nPoas = s.nPoas
  parent : ∀ q, (s'.poa q).parent = (s.poa q).parent
  name : ∀ q, (s'.poa q).name = (s.poa q).name
  manager : ∀ q, (s'.poa q).manager = (s.poa q).manager
  alive : ∀ q, (s'.poa q).phase = .alive → (s.poa q).phase = .alive
  gone : ∀ q, (s'.poa q).phase ≠ .gone → (s.poa q).phase ≠ .gone
  nManagers : s.nManagers ≤ s'.nManagers
  poas : ∀ m, (s'.manager m).poas = (s.manager m).poas
  activating : s'.activating = s.activating
  running : s'.running = s.running
  attaching : s'.attaching = s.attaching

namespace Keeps

variable {s' : PoaSystem}

lemma isChild (h : Keeps s s') (q : ℕ) (k : ℕ × CString) : s'.IsChild q k ↔ s.IsChild q k := by
  unfold IsChild
  rw [h.parent, h.name]

lemma attached (h : Keeps s s') (q : ℕ) : s'.Attached q ↔ s.Attached q := by
  unfold Attached
  rw [h.manager, h.poas]

lemma pending (h : Keeps s s') (q : ℕ) : s'.Pending q ↔ s.Pending q := by
  unfold Pending
  rw [h.running, h.attaching]
  simp only [h.isChild]

end Keeps

/-- What is left to show are the states. -/
lemma Inv.of_keeps {s' : PoaSystem} (h : Inv e s) (hk : Keeps s s')
    (hsync : ∀ q < s.nPoas, (s'.poa q).phase = .alive → s.Attached q →
      (s'.poa q).rqState = (s'.manager (s.poa q).manager).state)
    (hheld : ∀ q < s.nPoas, (s'.poa q).phase = .alive → ¬s.Attached q →
      (s'.poa q).rqState = .holding) : Inv e s' := by
  refine ⟨?_, ?_, ?_, ?_, ?_, ?_, ?_, ?_, ?_, ?_⟩
  · intro q hq
    rw [hk.nPoas] at hq
    rw [hk.manager]
    exact (h.manager_lt q hq).trans_le hk.nManagers
  · intro m q hq
    rw [hk.poas] at hq
    rw [hk.manager, hk.nPoas]
    exact h.own m q hq
  · intro m
    rw [hk.poas]
    exact h.nodup m
  · intro q hq hqa hatt
    rw [hk.nPoas] at hq
    rw [hk.attached] at hatt
    rw [hk.manager]
    exact hsync q hq hqa hatt
  · intro q hq hqa hatt
    rw [hk.nPoas] at hq
    rw [hk.attached] at hatt
    rw [hk.pending]
    exact ⟨hheld q hq hqa hatt, (h.unattached q hq (hk.alive q hqa) hatt).2⟩
  · intro q hq q' hq' hg hg' k hqk hqk'
    rw [hk.nPoas] at hq hq'
    rw [hk.isChild] at hqk hqk'
    exact h.unique q hq q' hq' (hk.gone q hg) (hk.gone q' hg') k hqk hqk'
  · rw [hk.running, hk.activating]
    exact h.activating
  · rw [hk.running]
    exact h.running_nodup
  · intro k hkr q hq hqa hqk
    rw [hk.running] at hkr
    rw [hk.nPoas] at hq
    rw [hk.isChild] at hqk
    rw [hk.attached]
    exact h.running k hkr q hq (hk.alive q hqa) hqk
  · intro q hq
    rw [hk.attaching] at hq
    rw [hk.nPoas, hk.attached, hk.running]
    simp only [hk.isChild]
    exact h.attaching q hq

lemma poa_setPoa_of_ne {r : ManagedPoa} {q : ℕ} (h : q ≠ p) : (s.setPoa p r).poa q = s.poa q :=
  Function.update_of_ne h _ _

@[simp] lemma poa_setPoa_self {r : ManagedPoa} : (s.setPoa p r).poa p = r :=
  Function.update_self _ _ _

lemma keeps_setPoa {r : ManagedPoa} (hparent : r.parent = (s.poa p).parent)
    (hname : r.name = (s.poa p).name) (hmanager : r.manager = (s.poa p).manager)
    (halive : r.phase = .alive → (s.poa p).phase = .alive)
    (hgone : r.phase ≠ .gone → (s.poa p).phase ≠ .gone) : Keeps s (s.setPoa p r) := by
  have heq : ∀ q, (s.setPoa p r).poa q = s.poa q ∨ q = p ∧ (s.setPoa p r).poa q = r := by
    intro q
    rcases eq_or_ne q p with rfl | hq
    · exact .inr ⟨rfl, poa_setPoa_self⟩
    · exact .inl (poa_setPoa_of_ne hq)
  refine ⟨rfl, ?_, ?_, ?_, ?_, ?_, le_rfl, fun _ => rfl, rfl, rfl, rfl⟩
  all_goals
    intro q
    rcases heq q with hq | ⟨rfl, hq⟩
    all_goals rw [hq]
  · exact hparent
  · exact hname
  · exact hmanager
  · exact id
  · exact halive
  · exact id
  · exact hgone

/-- A POA is changed whose destruction has begun. -/
lemma Inv.setPoa (h : Inv e s) {r : ManagedPoa} (hk : Keeps s (s.setPoa p r))
    (hphase : r.phase ≠ .alive) : Inv e (s.setPoa p r) := by
  have halive : ∀ q, ((s.setPoa p r).poa q).phase = .alive → (s.setPoa p r).poa q = s.poa q := by
    intro q hq
    refine poa_setPoa_of_ne ?_
    rintro rfl
    rw [poa_setPoa_self] at hq
    exact hphase hq
  refine h.of_keeps hk ?_ ?_
  · intro q hq hqa hatt
    rw [halive q hqa]
    exact h.synced q hq (hk.alive q hqa) hatt
  · intro q hq hqa hatt
    rw [halive q hqa]
    exact (h.unattached q hq (hk.alive q hqa) hatt).1

/-- No POA is in the list of a manager that is still to be made. -/
lemma Inv.poas_eq_nil (h : Inv e s) {m : ℕ} (hm : s.nManagers ≤ m) : (s.manager m).poas = [] := by
  rw [List.eq_nil_iff_forall_not_mem]
  intro p hp
  obtain ⟨hlt, rfl⟩ := h.own m p hp
  have := h.manager_lt p hlt
  omega

lemma Inv.newManager (h : Inv e s) : Inv e s.newManager := by
  have hold : ∀ m, m ≠ s.nManagers → s.newManager.manager m = s.manager m :=
    fun m hm => Function.update_of_ne hm _ _
  have hnew : s.newManager.manager s.nManagers = ⟨.holding, []⟩ := Function.update_self _ _ _
  have hk : Keeps s s.newManager := by
    refine ⟨rfl, fun _ => rfl, fun _ => rfl, fun _ => rfl, fun _ => id, fun _ => id,
      Nat.le_succ _, fun m => ?_, rfl, rfl, rfl⟩
    rcases eq_or_ne m s.nManagers with rfl | hm
    · rw [hnew, h.poas_eq_nil le_rfl]
    · rw [hold m hm]
  refine h.of_keeps hk ?_ ?_
  · intro q hq hqa hatt
    rw [hold _ (h.manager_lt q hq).ne]
    exact h.synced q hq hqa hatt
  · intro q hq hqa hatt
    exact (h.unattached q hq hqa hatt).1

/-- The manager and all its POAs change their state. -/
lemma Inv.changeState (h : Inv e s) (m : ℕ) (st : PmState) : Inv e (s.changeState m st) := by
  have hin : ∀ q, q ∈ (s.manager m).poas →
      (s.changeState m st).poa q = { s.poa q with rqState := st } := fun q hq => if_pos hq
  have hout : ∀ q, q ∉ (s.manager m).poas → (s.changeState m st).poa q = s.poa q :=
    fun q hq => if_neg hq
  have hm : (s.changeState m st).manager m = { s.manager m with state := st } :=
    Function.update_self _ _ _
  have hn : ∀ n, n ≠ m → (s.changeState m st).manager n = s.manager n :=
    fun n hn => Function.update_of_ne hn _ _
  have hk : Keeps s (s.changeState m st) := by
    refine ⟨rfl, ?_, ?_, ?_, ?_, ?_, le_rfl, fun n => ?_, rfl, rfl, rfl⟩
    rotate_right
    · rcases eq_or_ne n m with rfl | hne
      · rw [hm]
      · rw [hn n hne]
    all_goals
      intro q
      by_cases hq : q ∈ (s.manager m).poas
      · rw [hin q hq]
        try exact id
      · rw [hout q hq]
        try exact id
  refine h.of_keeps hk ?_ ?_
  · intro q hq hqa hatt
    by_cases hqm : q ∈ (s.manager m).poas
    · obtain ⟨-, rfl⟩ := h.own m q hqm
      rw [hin q hqm, hm]
    · have hne : (s.poa q).manager ≠ m := by
        rintro rfl
        exact hqm hatt
      rw [hout q hqm, hn _ hne]
      exact h.synced q hq (hk.alive q hqa) hatt
  · intro q hq hqa hatt
    have hqm : q ∉ (s.manager m).poas := by
      intro hqm
      obtain ⟨-, rfl⟩ := h.own m q hqm
      exact hatt hqm
    rw [hout q hqm]
    exact (h.unattached q hq (hk.alive q hqa) hatt).1

/-! ### A POA that leaves its manager -/

/-- A POA that is being destroyed is taken out of the list. -/
lemma Inv.erase (h : Inv e s) (hp : (s.poa p).phase ≠ .alive) :
    Inv e { s with
      manager := Function.update s.manager (s.poa p).manager
        { s.manager (s.poa p).manager with
          poas := (s.manager (s.poa p).manager).poas.erase p } } := by
  set m := (s.poa p).manager with hm
  set s' : PoaSystem := { s with
    manager := Function.update s.manager m { s.manager m with poas := (s.manager m).poas.erase p } }
  have hself : s'.manager m = { s.manager m with poas := (s.manager m).poas.erase p } :=
    Function.update_self _ _ _
  have hother : ∀ n, n ≠ m → s'.manager n = s.manager n := fun n hn => Function.update_of_ne hn _ _
  have hstate : ∀ n, (s'.manager n).state = (s.manager n).state := by
    intro n
    rcases eq_or_ne n m with rfl | hn
    · rw [hself]
    · rw [hother n hn]
  have hsub : ∀ n, (s'.manager n).poas.Sublist (s.manager n).poas := by
    intro n
    rcases eq_or_ne n m with rfl | hn
    · rw [hself]
      exact List.erase_sublist
    · rw [hother n hn]
  have hatt : ∀ q, s'.Attached q → s.Attached q := fun q hq => (hsub _).subset hq
  have hatt' : ∀ q, q ≠ p → s.Attached q → s'.Attached q := by
    intro q hqp hq
    change q ∈ (s'.manager (s.poa q).manager).poas
    rcases eq_or_ne (s.poa q).manager m with hn | hn
    · rw [hn, hself]
      exact (List.mem_erase_of_ne hqp).mpr (hn ▸ hq)
    · rw [hother _ hn]
      exact hq
  have halive : ∀ q, (s.poa q).phase = .alive → q ≠ p := by
    rintro q hq rfl
    exact hp hq
  refine ⟨h.manager_lt, fun n q hq => h.own n q ((hsub n).subset hq),
    fun n => (h.nodup n).sublist (hsub n), ?_, ?_, h.unique, h.activating, h.running_nodup, ?_, ?_⟩
  · intro q hq hqa hqt
    rw [hstate]
    exact h.synced q hq hqa (hatt q hqt)
  · intro q hq hqa hqt
    exact h.unattached q hq hqa fun hqt' => hqt (hatt' q (halive q hqa) hqt')
  · intro k hk q hq hqa hqk hqt
    exact h.running k hk q hq hqa hqk (hatt q hqt)
  · intro q hq
    obtain ⟨h1, h2, h3⟩ := h.attaching q hq
    exact ⟨h1, fun hqt => h2 (hatt q hqt), h3⟩

/-! ### A POA that is made, and attached -/

/-- A new POA is not attached to its manager yet. -/
lemma Inv.newPoa (h : Inv none s) {parent : Option ℕ} {name : CString} {m : ℕ}
    (hm : m < s.nManagers) (hnew : ∀ r ∈ parent, s.findChild r name = none) :
    Inv (some s.nPoas) (s.newPoa parent name m) := by
  have hself : (s.newPoa parent name m).poa s.nPoas = ⟨parent, name, m, .holding, .alive⟩ :=
    Function.update_self _ _ _
  have hold : ∀ q, q < s.nPoas → (s.newPoa parent name m).poa q = s.poa q :=
    fun q hq => Function.update_of_ne hq.ne _ _
  have hcases : ∀ q < (s.newPoa parent name m).nPoas, q < s.nPoas ∨ q = s.nPoas :=
    fun q hq => Nat.lt_succ_iff_lt_or_eq.mp hq
  have hfresh : ∀ n, s.nPoas ∉ (s.manager n).poas :=
    fun n hn => absurd (h.own n _ hn).1 (lt_irrefl _)
  have hchild : ∀ q < s.nPoas, ∀ k, (s.newPoa parent name m).IsChild q k ↔ s.IsChild q k := by
    intro q hq k
    unfold IsChild
    rw [hold q hq]
  have hatt : ∀ q < s.nPoas, (s.newPoa parent name m).Attached q ↔ s.Attached q := by
    intro q hq
    unfold Attached
    rw [hold q hq]
    rfl
  have hnatt : ¬(s.newPoa parent name m).Attached s.nPoas := by
    unfold Attached
    rw [hself]
    exact hfresh m
  refine ⟨?_, ?_, h.nodup, ?_, ?_, ?_, h.activating, h.running_nodup, ?_, ?_⟩
  · intro q hq
    rcases hcases q hq with hq | rfl
    · rw [hold q hq]
      exact h.manager_lt q hq
    · rw [hself]
      exact hm
  · intro n q hq
    obtain ⟨h1, h2⟩ := h.own n q hq
    rw [hold q h1]
    exact ⟨Nat.lt_succ_of_lt h1, h2⟩
  · intro q hq hqa hqt
    rcases hcases q hq with hq | rfl
    · rw [hatt q hq] at hqt
      rw [hold q hq] at hqa ⊢
      exact h.synced q hq hqa hqt
    · exact absurd hqt hnatt
  · intro q hq hqa hqt
    rcases hcases q hq with hq | rfl
    · rw [hatt q hq] at hqt
      rw [hold q hq] at hqa ⊢
      obtain ⟨h1, h2⟩ := h.unattached q hq hqa hqt
      refine ⟨h1, .inl ?_⟩
      rcases h2.resolve_right (by simp) with ⟨k, hk, hqk⟩ | hatt
      · exact .inl ⟨k, hk, (hchild q hq k).mpr hqk⟩
      · exact .inr hatt
    · rw [hself]
      exact ⟨rfl, .inr rfl⟩
  · -- a child of that name would have been found
    have hnone : ∀ q < s.nPoas, (s.poa q).phase ≠ .gone → ∀ k, s.IsChild q k →
        ¬(s.newPoa parent name m).IsChild s.nPoas k := by
      intro q hq hg k hqk hk
      unfold IsChild at hk
      rw [hself] at hk
      obtain ⟨hk1, hk2⟩ := hk
      refine not_isChild_of_findChild ?_ hq hg hqk
      rw [← hk2]
      exact hnew k.1 hk1
    intro q hq q' hq' hg hg' k hqk hqk'
    rcases hcases q hq with hq | rfl
    · rw [hchild q hq] at hqk
      rw [hold q hq] at hg
      rcases hcases q' hq' with hq' | rfl
      · rw [hchild q' hq'] at hqk'
        rw [hold q' hq'] at hg'
        exact h.unique q hq q' hq' hg hg' k hqk hqk'
      · exact absurd hqk' (hnone q hq hg k hqk)
    · rcases hcases q' hq' with hq' | rfl
      · rw [hchild q' hq'] at hqk'
        rw [hold q' hq'] at hg'
        exact absurd hqk (hnone q' hq' hg' k hqk')
      · rfl
  · intro k hk q hq hqa hqk
    rcases hcases q hq with hq | rfl
    · rw [hchild q hq] at hqk
      rw [hold q hq] at hqa
      rw [hatt q hq]
      exact h.running k hk q hq hqa hqk
    · exact hnatt
  · intro q hq
    obtain ⟨h1, h2, h3⟩ := h.attaching q hq
    rw [hatt q h1]
    refine ⟨Nat.lt_succ_of_lt h1, h2, fun k hk => ?_⟩
    rw [hchild q h1]
    exact h3 k hk

lemma poa_gainPoa_of_ne {q : ℕ} (h : q ≠ p) : (s.gainPoa p).poa q = s.poa q := by
  unfold gainPoa
  dsimp only
  split_ifs
  · rfl
  · exact poa_setPoa_of_ne h

lemma manager_gainPoa (q : ℕ) : (s.gainPoa p).manager q =
    if q = (s.poa p).manager then
      { s.manager q with poas := (s.manager q).poas ++ [p] } else s.manager q := by
  have h : (s.gainPoa p).manager = Function.update s.manager (s.poa p).manager
      { s.manager (s.poa p).manager with poas := (s.manager (s.poa p).manager).poas ++ [p] } := by
    unfold gainPoa
    dsimp only
    split_ifs <;> rfl
  rw [h]
  rcases eq_or_ne q (s.poa p).manager with rfl | hq
  · rw [Function.update_self, if_pos rfl]
  · rw [Function.update_of_ne hq, if_neg hq]

lemma poa_gainPoa_self (h : (s.poa p).rqState = .holding) :
    (s.gainPoa p).poa p =
      { s.poa p with rqState := (s.manager (s.poa p).manager).state } := by
  unfold gainPoa
  dsimp only
  split_ifs with hst
  · rw [Function.update_self] at hst
    have hst : (s.manager (s.poa p).manager).state = .holding := hst
    rw [hst, ← h]
  · rw [poa_setPoa_self, Function.update_self]

lemma fields_gainPoa : (s.gainPoa p).nPoas = s.nPoas ∧ (s.gainPoa p).nManagers = s.nManagers ∧
    (s.gainPoa p).activating = s.activating ∧ (s.gainPoa p).running = s.running ∧
    (s.gainPoa p).attaching = s.attaching := by
  unfold gainPoa
  dsimp only
  split_ifs <;> exact ⟨rfl, rfl, rfl, rfl, rfl⟩

/-- The new POA is attached to its manager. -/
lemma Inv.gainPoa (h : Inv (some p) s) (hp : p < s.nPoas) (halive : (s.poa p).phase = .alive)
    (hatt : ¬s.Attached p) (hrun : ∀ k ∈ s.running, ¬s.IsChild p k) (hne : s.attaching ≠ some p) :
    Inv none (s.gainPoa p) := by
  obtain ⟨hN, hM, hA, hR, hT⟩ := fields_gainPoa (s := s) (p := p)
  have hself := poa_gainPoa_self (h.unattached p hp halive hatt).1
  have hstate : ∀ n, ((s.gainPoa p).manager n).state = (s.manager n).state := by
    intro n
    rw [manager_gainPoa]
    split_ifs <;> rfl
  have hpoa : ∀ q, (s.gainPoa p).poa q = s.poa q ∨ q = p := by
    intro q
    rcases eq_or_ne q p with rfl | hq
    · exact .inr rfl
    · exact .inl (poa_gainPoa_of_ne hq)
  have hmanager : ∀ q, ((s.gainPoa p).poa q).manager = (s.poa q).manager := by
    intro q
    rcases hpoa q with hq | rfl
    · rw [hq]
    · rw [hself]
  have hphase : ∀ q, ((s.gainPoa p).poa q).phase = (s.poa q).phase := by
    intro q
    rcases hpoa q with hq | rfl
    · rw [hq]
    · rw [hself]
  have hchild : ∀ q k, (s.gainPoa p).IsChild q k ↔ s.IsChild q k := by
    intro q k
    unfold IsChild
    rcases hpoa q with hq | rfl
    · rw [hq]
    · rw [hself]
  have hmem : ∀ n q, q ∈ ((s.gainPoa p).manager n).poas ↔
      q ∈ (s.manager n).poas ∨ n = (s.poa p).manager ∧ q = p := by
    intro n q
    rw [manager_gainPoa]
    split_ifs with hn
    · simp [hn]
    · simp [hn]
  have hattq : ∀ q, (s.gainPoa p).Attached q ↔ s.Attached q ∨ q = p := by
    intro q
    unfold Attached
    rw [hmanager, hmem]
    constructor
    · rintro (hq | ⟨-, hq⟩)
      · exact .inl hq
      · exact .inr hq
    · rintro (hq | rfl)
      · exact .inl hq
      · exact .inr ⟨rfl, rfl⟩
  refine ⟨?_, ?_, ?_, ?_, ?_, ?_, ?_, ?_, ?_, ?_⟩
  · intro q hq
    rw [hN] at hq
    rw [hM, hmanager]
    exact h.manager_lt q hq
  · intro n q hq
    rw [hN, hmanager]
    rcases (hmem n q).mp hq with hq | ⟨rfl, rfl⟩
    · exact h.own n q hq
    · exact ⟨hp, rfl⟩
  · intro n
    rw [manager_gainPoa]
    split_ifs with hn
    · subst hn
      have hconcat := (h.nodup _).concat hatt
      rwa [List.concat_eq_append] at hconcat
    · exact h.nodup n
  · intro q hq hqa hqt
    rw [hN] at hq
    rw [hphase] at hqa
    rw [hmanager, hstate]
    rcases eq_or_ne q p with rfl | hqp
    · rw [hself]
    · rw [poa_gainPoa_of_ne hqp]
      exact h.synced q hq hqa (((hattq q).mp hqt).resolve_right hqp)
  · intro q hq hqa hqt
    rw [hN] at hq
    rw [hphase] at hqa
    rw [hattq, not_or] at hqt
    rw [poa_gainPoa_of_ne hqt.2]
    obtain ⟨h1, h2⟩ := h.unattached q hq hqa hqt.1
    refine ⟨h1, .inl ?_⟩
    have h2 := h2.resolve_right fun heq => hqt.2 (Option.some.inj heq).symm
    unfold Pending
    rw [hR, hT]
    simp only [hchild]
    exact h2
  · intro q hq q' hq' hg hg' k hqk hqk'
    rw [hN] at hq hq'
    rw [hphase] at hg hg'
    rw [hchild] at hqk hqk'
    exact h.unique q hq q' hq' hg hg' k hqk hqk'
  · rw [hR, hA]
    exact h.activating
  · rw [hR]
    exact h.running_nodup
  · intro k hk q hq hqa hqk
    rw [hR] at hk
    rw [hN] at hq
    rw [hphase] at hqa
    rw [hchild] at hqk
    rw [hattq, not_or]
    refine ⟨h.running k hk q hq hqa hqk, ?_⟩
    rintro rfl
    exact hrun k hk hqk
  · intro q hq
    rw [hT] at hq
    obtain ⟨h1, h2, h3⟩ := h.attaching q hq
    rw [hN, hattq, hR, not_or]
    simp only [hchild]
    refine ⟨h1, ⟨h2, ?_⟩, h3⟩
    rintro rfl
    exact hne hq

/-! ### Adapter activators -/

lemma IsChild.eq {k k' : ℕ × CString} (h : s.IsChild p k) (h' : s.IsChild p k') : k = k' :=
  Prod.ext (Option.some.inj (h.1.symm.trans h'.1)) (h.2.symm.trans h'.2)

lemma Inv.startActivation (h : Inv none s) {k : ℕ × CString} (hatt : s.attaching = none)
    (hk : k ∉ s.activating) (hok : ∀ p < s.nPoas, s.IsChild p k → (s.poa p).phase ≠ .alive) :
    Inv none { s with activating := s.activating ++ [k], running := k :: s.running } := by
  refine ⟨h.manager_lt, h.own, h.nodup, h.synced, ?_, h.unique, ?_, ?_, ?_, ?_⟩
  · intro q hq hqa hqt
    obtain ⟨h1, h2⟩ := h.unattached q hq hqa hqt
    refine ⟨h1, h2.imp_left ?_⟩
    rintro (⟨k', hk', hqk'⟩ | hqt)
    · exact .inl ⟨k', List.mem_cons_of_mem k hk', hqk'⟩
    · exact .inr hqt
  · intro k' hk'
    rcases List.mem_cons.mp hk' with rfl | hk'
    · exact List.mem_append_right _ List.mem_cons_self
    · exact List.mem_append_left _ (h.activating k' hk')
  · exact List.nodup_cons.mpr ⟨fun hr => hk (h.activating k hr), h.running_nodup⟩
  · intro k' hk' q hq hqa hqk'
    rcases List.mem_cons.mp hk' with rfl | hk'
    · exact absurd hqa (hok q hq hqk')
    · exact h.running k' hk' q hq hqa hqk'
  · intro q hq
    rw [hatt] at hq
    cases hq

/-- A call of an adapter activator ends. The child that it made, if there is one, is going to be
attached. -/
lemma Inv.endActivation (h : Inv none s) {k : ℕ × CString} {l : List (ℕ × CString)} {a : Option ℕ}
    (hatt : s.attaching = none) (hk : k ∈ s.running) (hl : ∀ k' ∈ s.running.erase k, k' ∈ l)
    (ha : ∀ p ∈ a, p < s.nPoas ∧ s.IsChild p k ∧ (s.poa p).phase = .alive)
    (hok : ∀ p < s.nPoas, s.IsChild p k → (s.poa p).phase = .alive → a = some p) :
    Inv none { s with running := s.running.erase k, activating := l, attaching := a } := by
  refine ⟨h.manager_lt, h.own, h.nodup, h.synced, ?_, h.unique, hl, h.running_nodup.erase k, ?_, ?_⟩
  · intro q hq hqa hqt
    obtain ⟨h1, h2⟩ := h.unattached q hq hqa hqt
    refine ⟨h1, .inl ?_⟩
    rcases h2.resolve_right (by simp) with ⟨k', hk', hqk'⟩ | hqt
    · by_cases hkk : k' = k
      · subst hkk
        exact .inr (hok q hq hqk' hqa)
      · exact .inl ⟨k', (List.mem_erase_of_ne hkk).mpr hk', hqk'⟩
    · rw [hatt] at hqt
      cases hqt
  · intro k' hk' q hq hqa hqk'
    exact h.running k' (List.mem_of_mem_erase hk') q hq hqa hqk'
  · intro q hq
    obtain ⟨h1, h2, h3⟩ := ha q hq
    refine ⟨h1, h.running k hk q h1 h3 h2, fun k' hk' hqk' => ?_⟩
    obtain rfl := h2.eq hqk'
    exact h.running_nodup.not_mem_erase hk'

/-! ### Steps and runs -/

lemma Inv.init : Inv none init where
  manager_lt _ hp := absurd hp (Nat.not_lt_zero _)
  own _ _ hp := absurd hp List.not_mem_nil
  nodup _ := List.nodup_nil
  synced _ hp := absurd hp (Nat.not_lt_zero _)
  unattached _ hp := absurd hp (Nat.not_lt_zero _)
  unique _ hp := absurd hp (Nat.not_lt_zero _)
  activating _ hk := absurd hk List.not_mem_nil
  running_nodup := List.nodup_nil
  running _ hk := absurd hk List.not_mem_nil
  attaching _ hp := nomatch hp

/-- A POA is made and attached at once, if no adapter activator runs for its name. -/
lemma Inv.newPoa_gainPoa (h : Inv none s) (hatt : s.attaching = none) {parent : Option ℕ}
    {name : CString} {m : ℕ} (hm : m < s.nManagers)
    (hnew : ∀ r ∈ parent, s.findChild r name = none)
    (hrun : ∀ r ∈ parent, (r, name) ∉ s.running) :
    Inv none ((s.newPoa parent name m).gainPoa s.nPoas) := by
  have hself : (s.newPoa parent name m).poa s.nPoas = ⟨parent, name, m, .holding, .alive⟩ :=
    Function.update_self _ _ _
  refine (h.newPoa hm hnew).gainPoa (Nat.lt_succ_self _) (by rw [hself]) ?_ ?_ ?_
  · unfold Attached
    rw [hself]
    exact fun hn => absurd (h.own m _ hn).1 (lt_irrefl _)
  · intro k hk hqk
    unfold IsChild at hqk
    rw [hself] at hqk
    obtain ⟨h1, rfl⟩ := hqk
    exact hrun k.1 h1 hk
  · change s.attaching ≠ some s.nPoas
    rw [hatt]
    simp

lemma findChild_newManager (r : ℕ) (name : CString) :
    s.newManager.findChild r name = s.findChild r name := rfl

lemma Inv.createPOA (h : Inv none s) (hatt : s.attaching = none) {parent : ℕ} {name : CString}
    {m : ℕ} (hm : m < s.nManagers) (hnew : s.findChild parent name = none)
    (hok : (parent, name) ∈ s.activating → (parent, name) ∈ s.running) :
    Inv none (if (parent, name) ∈ s.activating then s.newPoa (some parent) name m
      else (s.newPoa (some parent) name m).gainPoa s.nPoas) := by
  have hnew' : ∀ r ∈ some parent, s.findChild r name = none := by
    rintro r hr
    obtain rfl := Option.some.inj hr
    exact hnew
  split_ifs with hact
  · -- the new POA is pending
    have hp := h.newPoa hm hnew'
    have hself : (s.newPoa (some parent) name m).poa s.nPoas =
        ⟨some parent, name, m, .holding, .alive⟩ := Function.update_self _ _ _
    refine ⟨hp.manager_lt, hp.own, hp.nodup, hp.synced, ?_, hp.unique, hp.activating,
      hp.running_nodup, hp.running, hp.attaching⟩
    intro q hq hqa hqt
    obtain ⟨h1, h2⟩ := hp.unattached q hq hqa hqt
    refine ⟨h1, .inl ?_⟩
    rcases h2 with h2 | h2
    · exact h2
    · obtain rfl := Option.some.inj h2
      refine .inl ⟨(parent, name), hok hact, ?_⟩
      unfold IsChild
      rw [hself]
      exact ⟨rfl, rfl⟩
  · refine h.newPoa_gainPoa hatt hm hnew' ?_
    rintro r hr hrun
    obtain rfl := Option.some.inj hr
    exact hact (h.activating _ hrun)

lemma Inv.changeStateTo (h : Inv none s) {m : ℕ} {st : PmState} {s' : PoaSystem}
    (hs : s.changeStateTo m st = some s') : Inv none s' := by
  unfold PoaSystem.changeStateTo at hs
  split_ifs at hs
  obtain rfl := Option.some.inj hs
  exact h.changeState m st

lemma Inv.attach (h : Inv none s) (hp : s.attaching = some p)
    (hok : (s.poa p).phase = .alive) : Inv none ({ s with attaching := none }.gainPoa p) := by
  obtain ⟨h1, h2, h3⟩ := h.attaching p hp
  have hfree : Inv (some p) { s with attaching := none } := by
    refine ⟨h.manager_lt, h.own, h.nodup, h.synced, ?_, h.unique, h.activating, h.running_nodup,
      h.running, fun q hq => nomatch hq⟩
    intro q hq hqa hqt
    obtain ⟨h4, h5⟩ := h.unattached q hq hqa hqt
    refine ⟨h4, ?_⟩
    rcases h5.resolve_right (by simp) with h5 | h5
    · exact .inl (.inl h5)
    · exact .inr (hp.symm.trans h5)
  exact hfree.gainPoa h1 hok h2 h3 (by simp)

/-- The record of a POA whose destruction has begun changes. -/
lemma Inv.setPoa_dying (h : Inv e s) (hp : (s.poa p).phase ≠ .gone) (rqState : PmState)
    {phase : PoaPhase} (hphase : phase ≠ .alive) :
    Inv e (s.setPoa p { s.poa p with rqState, phase }) :=
  h.setPoa (keeps_setPoa rfl rfl rfl (fun h0 => absurd h0 hphase) (fun _ => hp)) hphase

lemma Inv.losePoa (h : Inv e s) (hp : (s.poa p).phase ≠ .gone) : Inv e (s.losePoa p) := by
  unfold PoaSystem.losePoa
  dsimp only
  split_ifs with hmem
  · have hleft : Inv e (s.setPhase p .left) := h.setPoa_dying hp _ (by simp)
    have herase := hleft.erase (p := p) (by simp [setPhase])
    have hm : ((s.setPhase p .left).poa p).manager = (s.poa p).manager := by simp [setPhase]
    rw [hm] at herase
    exact herase
  · exact h.setPoa_dying hp _ (by simp)

/-- An orderly step keeps the POAs in step with their managers. -/
lemma Inv.step (h : Inv none s) {a : PoaAction} (ha : s.Orderly a) {s' : PoaSystem}
    (hs : s.step a = some s') : Inv none s' := by
  cases a with
  | initialise =>
    rw [PoaSystem.step, Option.ite_none_right_eq_some] at hs
    obtain ⟨hc, hs⟩ := hs
    obtain rfl := Option.some.inj hs
    exact h.newManager.newPoa_gainPoa hc.1 (Nat.lt_succ_self _) (fun r hr => nomatch hr)
      (fun r hr => nomatch hr)
  | insPOA =>
    obtain ⟨r, hr, hs⟩ := Option.bind_eq_some_iff.mp hs
    rw [Option.ite_none_right_eq_some] at hs
    obtain ⟨hc, hs⟩ := hs
    obtain rfl := Option.some.inj hs
    refine h.newManager.newPoa_gainPoa hc.1 (Nat.lt_succ_self _) ?_ ?_
    · rintro r' hr'
      obtain rfl := Option.some.inj hr'
      exact hc.2.2
    · rintro r' hr' hrun
      obtain rfl := Option.some.inj hr'
      exact ha r hr (h.activating _ hrun)
  | createPOA parent name manager waited =>
    rw [PoaSystem.step, Option.ite_none_right_eq_some] at hs
    obtain ⟨hc, hs⟩ := hs
    obtain rfl := Option.some.inj hs
    cases manager with
    | none => exact h.newManager.createPOA hc.1 (Nat.lt_succ_self _) hc.2.2.2.2.1 ha
    | some m => exact h.createPOA hc.1 (hc.2.2.2.2.2 m rfl) hc.2.2.2.2.1 ha
  | startActivation parent name =>
    rw [PoaSystem.step, Option.ite_none_right_eq_some] at hs
    obtain ⟨hc, hs⟩ := hs
    obtain rfl := Option.some.inj hs
    exact h.startActivation hc.1 hc.2.2.2 ha
  | endActivation parent name outcome =>
    unfold PoaSystem.step at hs
    dsimp only at hs
    rw [Option.ite_none_right_eq_some] at hs
    obtain ⟨hc, hs⟩ := hs
    have hold : ∀ k ∈ s.running.erase (parent, name), k ∈ s.activating :=
      fun k hk => h.activating k (List.mem_of_mem_erase hk)
    have herase : ∀ k ∈ s.running.erase (parent, name), k ∈ s.activating.erase (parent, name) := by
      intro k hk
      have hne : k ≠ (parent, name) := by
        rintro rfl
        exact h.running_nodup.not_mem_erase hk
      exact (List.mem_erase_of_ne hne).mpr (hold k hk)
    have hnone : ∀ p ∈ s.attaching,
        p < s.nPoas ∧ s.IsChild p (parent, name) ∧ (s.poa p).phase = .alive := by
      rw [hc.1]
      exact fun p hp => nomatch hp
    cases outcome with
    | exception =>
      obtain rfl := Option.some.inj hs
      exact h.endActivation hc.1 hc.2 hold hnone fun p hp hk hpa => absurd hpa (ha p hp hk)
    | notCreated =>
      obtain rfl := Option.some.inj hs
      exact h.endActivation hc.1 hc.2 herase hnone fun p hp hk hpa => absurd hpa (ha p hp hk)
    | created =>
      obtain rfl := Option.some.inj hs
      refine h.endActivation hc.1 hc.2 herase (fun p hp => ?_) fun p hp hk hpa => ?_
      · obtain ⟨h1, -, h2⟩ := of_findChild (k := (parent, name)) hp
        exact ⟨h1, h2, ha p hp⟩
      · rcases hfind : s.findChild parent name with - | q
        · exact absurd hk (not_isChild_of_findChild (k := (parent, name)) hfind hp (by simp [hpa]))
        · obtain ⟨h1, h2, h3⟩ := of_findChild (k := (parent, name)) hfind
          rw [h.unique q h1 p hp h2 (by simp [hpa]) _ h3 hk]
  | attach =>
    obtain ⟨p, hp, rfl⟩ := Option.map_eq_some_iff.mp hs
    exact h.attach hp (ha p hp)
  | activate m => exact h.changeStateTo hs
  | holdRequests m => exact h.changeStateTo hs
  | discardRequests m => exact h.changeStateTo hs
  | deactivate m => exact h.changeStateTo hs
  | markDying p =>
    rw [PoaSystem.step, Option.ite_none_right_eq_some] at hs
    obtain ⟨hc, hs⟩ := hs
    obtain rfl := Option.some.inj hs
    exact h.setPoa_dying (by simp [hc.2]) _ (by simp)
  | discardHeld p =>
    rw [PoaSystem.step, Option.ite_none_right_eq_some] at hs
    obtain ⟨hc, hs⟩ := hs
    obtain rfl := Option.some.inj hs
    exact h.setPoa_dying (by simp [hc.2]) _ (by simp)
  | losePoa p =>
    rw [PoaSystem.step, Option.ite_none_right_eq_some] at hs
    obtain ⟨hc, hs⟩ := hs
    obtain rfl := Option.some.inj hs
    exact h.losePoa (by simp [hc.2])
  | finishDestroy p =>
    rw [PoaSystem.step, Option.ite_none_right_eq_some] at hs
    obtain ⟨hc, hs⟩ := hs
    obtain rfl := Option.some.inj hs
    exact h.setPoa_dying (by simp [hc.2.2.1]) _ (by simp)

/-- Each POA that is not being destroyed, and is not still being created by an adapter activator, is
in the list of its manager once and in its state, and no POA is in the list of another manager. -/
structure Follows (s : PoaSystem) : Prop where
  attached : ∀ p < s.nPoas, (s.poa p).phase = .alive → ¬s.Pending p →
    (s.manager (s.poa p).manager).poas.count p = 1 ∧
      (s.poa p).rqState = (s.manager (s.poa p).manager).state
  own : ∀ m, ∀ p ∈ (s.manager m).poas, p < s.nPoas ∧ (s.poa p).manager = m

lemma Inv.follows (h : Inv none s) : s.Follows where
  attached := by
    intro p hp hpa hpend
    have hatt : s.Attached p := by
      by_contra hatt
      exact hpend ((h.unattached p hp hpa hatt).2.resolve_right (by simp))
    exact ⟨List.count_eq_one_of_mem (h.nodup _) hatt, h.synced p hp hpa hatt⟩
  own := h.own

end PoaSystem

/-- In each state that orderly steps reach, the POAs follow their managers. -/
theorem poas_follow_managers {s : PoaSystem}
    (h : ReachedBy PoaSystem.step PoaSystem.Orderly PoaSystem.init s) : s.Follows :=
  PoaSystem.Inv.follows
    (h.invariant PoaSystem.Inv.init fun _ _ _ hi ha hs => hi.step ha hs)

/-- The root POA, and a child that its adapter activator makes before it reports `outcome`. Then the
child's manager is activated. -/
def activatedChild (outcome : ActivatorOutcome) : List PoaAction :=
  [.initialise, .startActivation 0 ⟨[0x61], by decide⟩,
    .createPOA 0 ⟨[0x61], by decide⟩ none false, .endActivation 0 ⟨[0x61], by decide⟩ outcome] ++
  if outcome = .created then [.attach, .activate 1] else [.activate 1]

theorem poas_follow_managers_activated :
    ∃ s, execute PoaSystem.step PoaSystem.init (activatedChild .created) = some s ∧ s.Follows ∧
      (s.poa 1).phase = .alive ∧ (s.poa 1).rqState = .active :=
  ⟨_, rfl, poas_follow_managers (ReachedBy.start.execute (l := activatedChild .created)
    (by decide) rfl), rfl, rfl⟩

/-- A child that an unsuccessful adapter activator made is held for ever. -/
theorem unattached_child_is_held :
    ∃ s, execute PoaSystem.step PoaSystem.init (activatedChild .notCreated) = some s ∧
      ¬s.Follows ∧ (s.poa 1).phase = .alive ∧ ¬s.Pending 1 ∧
      (s.manager (s.poa 1).manager).state = .active ∧
      (s.manager (s.poa 1).manager).poas = [] ∧ (s.poa 1).rqState = .holding := by
  refine ⟨_, rfl, fun h => ?_, rfl, PoaSystem.not_pending rfl rfl, rfl, rfl, rfl⟩
  have hcount := (h.attached 1 (by decide) rfl (PoaSystem.not_pending rfl rfl)).1
  cases hcount

end OmniORB
