import OmniORB.Poa.Entries

/-!
# The life of an entry

What the threads have still to do to an entry says which state it is in, and there is always exactly
one of them to hand its servant over.
-/

namespace OmniORB

open Library

/-! ### Paths -/

namespace EntryState

/-- The moves that an entry may make. -/
def Moves : EntryState → EntryState → Prop
  | .activating, .active | .activating, .dead => True
  | .active, .deactivating | .active, .deactivatingOA => True
  | .deactivating, .etherealising | .deactivatingOA, .etherealising => True
  | .etherealising, .dead => True
  | _, _ => False

/-- The states of an entry, the latest first. -/
def IsPath (l : List EntryState) : Prop :=
  l.IsChain (fun new old => Moves old new) ∧ l.getLast? = some .activating

/-- The states in which the entry is among the activations of its servant. -/
def IsActivation (state : EntryState) : Prop :=
  state = .active ∨ state = .deactivating ∨ state = .deactivatingOA

instance (state : EntryState) : Decidable state.IsActivation :=
  inferInstanceAs (Decidable (_ ∨ _ ∨ _))

lemma isIn_locatable (state : EntryState) :
    state.isIn (EntryState.active.bits ||| EntryState.deactivating.bits) = true
      ↔ state.IsActivation := by
  cases state <;> decide

lemma isIn_deactivating (state : EntryState) :
    state.isIn EntryState.deactivating.bits = true
      ↔ state = .deactivating ∨ state = .deactivatingOA := by
  cases state <;> decide

end EntryState

open EntryState

/-- The states that an entry has been in. -/
def ObjTableEntry.states (x : ObjTableEntry) : List EntryState := x.state :: x.past

lemma isPath_new (key : ℕ × List UInt8) : IsPath (ObjTableEntry.new key).states :=
  ⟨List.isChain_singleton _, rfl⟩

lemma isPath_setState {x : ObjTableEntry} (h : IsPath x.states) {state : EntryState}
    (hm : x.state.Moves state) : IsPath (x.setState state).states :=
  ⟨List.isChain_cons_cons.mpr ⟨hm, h.1⟩, (List.getLast?_cons_cons).trans h.2⟩

/-! ### Duties -/

/-- What is left to do to an entry: to make it active or give it up, to insert it into the list of its
POA, to remove it from the table after its etherealisation, to hand its servant over, and to end an
invocation. -/
inductive Duty where
  | activate
  | insert
  | finish
  | hand
  | invocation
  deriving DecidableEq, Repr

lemma Duty.forall_iff {P : Duty → Prop} :
    (∀ d, P d) ↔ P .activate ∧ P .insert ∧ P .finish ∧ P .hand ∧ P .invocation := by
  constructor
  · intro h
    exact ⟨h _, h _, h _, h _, h _⟩
  · rintro ⟨h1, h2, h3, h4, h5⟩ d
    cases d <;> assumption

/-- One duty. -/
def Duty.one (d : Duty) : Duty → ℕ := fun d' => if d' = d then 1 else 0

namespace PoaInstr

/-- The instruction is a duty to the entry. -/
def has (e : ℕ) : Duty → PoaInstr → Bool
  | .activate, .activate _ e' _ | .activate, .takeActivator _ e' | .activate, .incarnate _ e'
  | .activate, .activateIncarnated _ e' _ => e' = e
  | .insert, .insertActive _ e' => e' = e
  | .finish, .findActivator _ e' | .finish, .queueEtherealiser _ e' | .finish, .setDead e' => e' = e
  | .hand, .findActivator _ e' | .hand, .queueEtherealiser _ e' | .hand, .removeRef e'
  | .hand, .etherealize e' => e' = e
  | .invocation, .endInvocation _ e' => e' = e
  | _, _ => false

section has

variable (e : ℕ) (d : Duty) (p e' servant : ℕ)

@[simp] lemma has_activate : has e d (.activate p e' servant) = decide (d = .activate ∧ e' = e) := by
  rw [Bool.decide_and]
  cases d <;> rfl

@[simp] lemma has_takeActivator :
    has e d (.takeActivator p e') = decide (d = .activate ∧ e' = e) := by
  rw [Bool.decide_and]
  cases d <;> rfl

@[simp] lemma has_incarnate : has e d (.incarnate p e') = decide (d = .activate ∧ e' = e) := by
  rw [Bool.decide_and]
  cases d <;> rfl

@[simp] lemma has_activateIncarnated :
    has e d (.activateIncarnated p e' servant) = decide (d = .activate ∧ e' = e) := by
  rw [Bool.decide_and]
  cases d <;> rfl

@[simp] lemma has_insertActive : has e d (.insertActive p e') = decide (d = .insert ∧ e' = e) := by
  rw [Bool.decide_and]
  cases d <;> rfl

@[simp] lemma has_findActivator :
    has e d (.findActivator p e') = decide ((d = .finish ∨ d = .hand) ∧ e' = e) := by
  rw [Bool.decide_and]
  cases d <;> rfl

@[simp] lemma has_queueEtherealiser :
    has e d (.queueEtherealiser p e') = decide ((d = .finish ∨ d = .hand) ∧ e' = e) := by
  rw [Bool.decide_and]
  cases d <;> rfl

@[simp] lemma has_setDead : has e d (.setDead e') = decide (d = .finish ∧ e' = e) := by
  rw [Bool.decide_and]
  cases d <;> rfl

@[simp] lemma has_removeRef : has e d (.removeRef e') = decide (d = .hand ∧ e' = e) := by
  rw [Bool.decide_and]
  cases d <;> rfl

@[simp] lemma has_etherealize : has e d (.etherealize e') = decide (d = .hand ∧ e' = e) := by
  rw [Bool.decide_and]
  cases d <;> rfl

@[simp] lemma has_endInvocation :
    has e d (.endInvocation p e') = decide (d = .invocation ∧ e' = e) := by
  rw [Bool.decide_and]
  cases d <;> rfl

@[simp] lemma has_closeIncarnated : has e d (.closeIncarnated p e') = false := by
  cases d <;> rfl

@[simp] lemma has_closing (c : Closer) (phase : ClosePhase) : has e d (.closing c phase) = false := by
  cases d <;> rfl

@[simp] lemma has_metDetachedObject : has e d (.metDetachedObject p) = false := by
  cases d <;> rfl

@[simp] lemma has_detachedObject : has e d (.detachedObject p) = false := by
  cases d <;> rfl

@[simp] lemma has_detachBusy : has e d (.detachBusy p) = false := by
  cases d <;> rfl

@[simp] lemma has_exitAdapter : has e d (.exitAdapter p) = false := by
  cases d <;> rfl

end has

/-- The thread has a request in the POA. -/
def inPoa (p : ℕ) : PoaInstr → Bool
  | .endInvocation q _ | .takeActivator q _ | .incarnate q _ | .activateIncarnated q _ _
  | .closeIncarnated q _ | .exitAdapter q => q = p
  | _ => false

/-- The instruction is about a POA only. -/
def Plain : PoaInstr → Prop
  | .detachBusy _ | .detachedObject _ | .metDetachedObject _ | .exitAdapter _ | .reRoot _ _
  | .waitForDetachedObjects _ | .destroyed _ => True
  | _ => False

/-- The thread has the list. -/
def closes (k : ℕ) : PoaInstr → Bool
  | .closing c _ => c.objList = k
  | _ => false

/-- What the instruction says about its entry is so. -/
def Fits (s : ObjectTable) : PoaInstr → Prop
  | .activate p e _ | .insertActive p e | .findActivator p e | .queueEtherealiser p e
  | .endInvocation p e | .takeActivator p e | .incarnate p e | .activateIncarnated p e _
  | .closeIncarnated p e => e < s.nEntries ∧ (s.entry e).key.1 = p
  | .setDead e | .removeRef e | .etherealize e => e < s.nEntries
  | .closing c _ => c.objList < s.nLists
  | _ => True

end PoaInstr

namespace PoaInstr

variable {i : PoaInstr}

lemma Plain.has (h : i.Plain) (e : ℕ) (d : Duty) : i.has e d = false := by
  cases i
  all_goals first
    | exact h.elim
    | cases d <;> rfl

lemma Plain.closes (h : i.Plain) (k : ℕ) : i.closes k = false := by
  cases i
  all_goals first
    | exact h.elim
    | rfl

lemma Plain.holdsInternalLock (h : i.Plain) : i.holdsInternalLock = false := by
  cases i
  all_goals first
    | exact h.elim
    | rfl

lemma Plain.fits (h : i.Plain) (s : ObjectTable) : i.Fits s := by
  cases i
  all_goals first
    | exact h.elim
    | exact trivial

lemma countP_plain {f : PoaInstr → Bool} {l : List PoaInstr} (hl : ∀ i ∈ l, i.Plain)
    (hf : ∀ i : PoaInstr, i.Plain → f i = false) : l.countP f = 0 :=
  List.countP_eq_zero.mpr fun i hi => by simp [hf i (hl i hi)]

end PoaInstr

/-- The servant is etherealised, or a reference to it released. -/
def ServantCall.hands (e : ℕ) : ServantCall → Bool
  | .removeRef e' | .etherealize e' => e' = e
  | .addRef _ => false

namespace ObjectTable

def duty (s : ObjectTable) (e : ℕ) (d : Duty) : ℕ := (pending s.threads).countP (PoaInstr.has e d)

/-- How often the servant of an entry was etherealised or a reference to it released. -/
def handed (s : ObjectTable) (e : ℕ) : ℕ := s.calls.countP (ServantCall.hands e)

end ObjectTable

/-- 1 if the entry is in a list. -/
def ObjTableEntry.linked (x : ObjTableEntry) : ℕ := if x.oaObjList.isSome then 1 else 0

lemma ObjTableEntry.linked_eq_zero {x : ObjTableEntry} : x.linked = 0 ↔ x.oaObjList = none := by
  cases h : x.oaObjList <;> simp [linked, h]

lemma ObjTableEntry.linked_eq_one {x : ObjTableEntry} : x.linked = 1 ↔ x.oaObjList.isSome := by
  cases h : x.oaObjList <;> simp [linked, h]

/-- What an entry is like in each state, with its duties, how often its servant was handed over and
how often it was abandoned. -/
def EntryOk (x : ObjTableEntry) (w : Duty → ℕ) (handed abandoned : ℕ) : Prop :=
  match x.state with
  | .activating =>
    w .activate = 1 ∧ w .insert = 0 ∧ w .finish = 0 ∧ w .hand = 0 ∧ w .invocation = 0 ∧ handed = 0 ∧
      abandoned = 0 ∧ x.linked = 0 ∧ x.nInvocations = 1 ∧ x.servant = none ∧ x.adapter = none ∧
      x.deactivated = false
  | .active =>
    w .activate = 0 ∧ w .insert + x.linked = 1 ∧ w .finish = 0 ∧ w .hand = 0 ∧ handed = 0 ∧
      abandoned = 0 ∧ x.nInvocations = w .invocation + 1 ∧ x.servant.isSome ∧
      x.adapter = some x.key.1 ∧ x.deactivated = false
  | .deactivating =>
    w .activate = 0 ∧ w .insert = 0 ∧ w .finish = 0 ∧ w .hand = 0 ∧ handed = 0 ∧ abandoned = 0 ∧
      x.linked = 0 ∧ 0 < w .invocation ∧ x.nInvocations = w .invocation ∧ x.servant.isSome ∧
      x.adapter = some x.key.1 ∧ x.deactivated = false
  | .deactivatingOA =>
    w .activate = 0 ∧ w .insert = 0 ∧ w .finish = 0 ∧ w .hand = 0 ∧ handed = 0 ∧ abandoned = 0 ∧
      x.linked = 1 ∧ x.nInvocations = w .invocation ∧ x.servant.isSome ∧
      x.adapter = some x.key.1 ∧ x.deactivated = false
  | .etherealising =>
    w .activate = 0 ∧ w .insert = 0 ∧ w .invocation = 0 ∧ w .finish + x.linked + abandoned = 1 ∧
      w .hand + handed + x.linked + abandoned = 1 ∧ x.nInvocations = 0 ∧ x.servant.isSome ∧
      x.adapter = some x.key.1 ∧ x.deactivated = true
  | .dead =>
    w .activate = 0 ∧ w .insert = 0 ∧ w .finish = 0 ∧ w .invocation = 0 ∧ abandoned = 0 ∧
      x.linked = 0 ∧ w .hand + handed = (if x.servant.isSome then 1 else 0) ∧ 0 ≤ x.nInvocations ∧
      x.deactivated = x.servant.isSome

namespace EntryOk

variable {x : ObjTableEntry} {w : Duty → ℕ} {handed abandoned : ℕ}

lemma state_of_activate (h : EntryOk x w handed abandoned) (hw : 0 < w .activate) :
    x.state = .activating := by
  rcases hx : x.state
  all_goals
    simp only [EntryOk, hx] at h
    first | rfl | omega

lemma state_of_insert (h : EntryOk x w handed abandoned) (hw : 0 < w .insert) :
    x.state = .active := by
  rcases hx : x.state
  all_goals
    simp only [EntryOk, hx] at h
    first | rfl | omega

lemma state_of_finish (h : EntryOk x w handed abandoned) (hw : 0 < w .finish) :
    x.state = .etherealising := by
  rcases hx : x.state
  all_goals
    simp only [EntryOk, hx] at h
    first | rfl | omega

lemma state_of_hand (h : EntryOk x w handed abandoned) (hw : 0 < w .hand) :
    x.state = .etherealising ∨ x.state = .dead := by
  rcases hx : x.state
  all_goals
    simp only [EntryOk, hx] at h
    first | omega | simp

lemma state_of_invocation (h : EntryOk x w handed abandoned) (hw : 0 < w .invocation) :
    x.state.IsActivation := by
  rcases hx : x.state
  all_goals
    simp only [EntryOk, hx] at h
    first | omega | simp [IsActivation]

lemma adapter_of_isActivation (h : EntryOk x w handed abandoned) (hx : x.state.IsActivation) :
    x.adapter = some x.key.1 := by
  rcases hx with hx | hx | hx
  all_goals
    simp only [EntryOk, hx] at h
    tauto

/-- An entry that has a servant and was not deactivated yet is an activation. -/
lemma isActivation (h : EntryOk x w handed abandoned) (hs : x.servant.isSome)
    (hd : x.deactivated = false) : x.state.IsActivation := by
  cases hx : x.state
  all_goals
    simp only [EntryOk, hx] at h
    simp only [hs, hd, IsActivation] at h ⊢
    simp_all

lemma nonneg (h : EntryOk x w handed abandoned) : 0 ≤ x.nInvocations := by
  cases hx : x.state
  all_goals
    simp only [EntryOk, hx] at h
    omega

lemma counted (h : EntryOk x w handed abandoned) (hd : x.state ≠ .dead) :
    x.nInvocations = w .invocation +
      if x.state = .activating ∨ x.state = .active then 1 else 0 := by
  cases hx : x.state
  all_goals
    simp only [EntryOk, hx] at h
    simp only [reduceCtorEq, or_false, or_true, if_true, if_false]
    first
      | exact absurd hx hd
      | omega

/-- The servant is handed over. -/
lemma handOver (h : EntryOk x w handed abandoned) {v : Duty → ℕ}
    (hother : ∀ d, d ≠ .hand → v d = w d) (hhand : v .hand + 1 = w .hand) :
    EntryOk x v (handed + 1) abandoned := by
  have h1 := hother .activate (by decide)
  have h2 := hother .insert (by decide)
  have h3 := hother .finish (by decide)
  have h4 := hother .invocation (by decide)
  rcases h.state_of_hand (by omega) with hx | hx
  · simp only [EntryOk, hx] at h ⊢
    exact ⟨by omega, by omega, by omega, by omega, by omega, h.2.2.2.2.2⟩
  · simp only [EntryOk, hx] at h ⊢
    exact ⟨by omega, by omega, by omega, by omega, h.2.2.2.2.1, h.2.2.2.2.2.1, by omega,
      h.2.2.2.2.2.2.2⟩

/-- An entry that was to be made active is dead. -/
lemma giveUp (h : EntryOk x w handed abandoned) (hx : x.state = .activating) {v : Duty → ℕ}
    (hw : ∀ d, v d + Duty.one .activate d = w d) :
    EntryOk (x.setState .dead) v handed abandoned := by
  simp only [EntryOk, hx] at h
  obtain ⟨h1, h2, h3, h4, h5, h6, h7, hl, hn, hs, -, hd⟩ := h
  simp only [Duty.forall_iff, Duty.one, reduceCtorEq, if_true, if_false] at hw
  obtain ⟨w1, w2, w3, w4, w5⟩ := hw
  refine ⟨by omega, by omega, by omega, by omega, h7, hl, ?_, ?_, ?_⟩
  · simp only [ObjTableEntry.setState, hs, Option.isSome_none, Bool.false_eq_true, if_false]
    omega
  · simp only [ObjTableEntry.setState]
    omega
  · simp [ObjTableEntry.setState, hs, hd]

/-- An entry becomes active. It is in a list, or will be inserted. -/
lemma setActive (h : EntryOk x w handed abandoned) (hx : x.state = .activating) (v : Duty → ℕ)
    (servant : ℕ) (list : Option ObjListHead)
    (hw : ∀ d, d ≠ .insert → d ≠ .invocation → v d + Duty.one .activate d = w d)
    (hlist : v .insert + (if list.isSome then 1 else 0) = 1) {n : ℤ}
    (hn : n = v .invocation + 1) :
    EntryOk { x.setState .active with
      servant := some servant, adapter := some x.key.1, oaObjList := list, nInvocations := n }
      v handed abandoned := by
  simp only [EntryOk, hx] at h
  obtain ⟨h1, h2, h3, h4, h5, h6, h7, hl, -, hs, -, hd⟩ := h
  simp only [Duty.forall_iff, Duty.one, reduceCtorEq, if_true, if_false, ne_eq, not_true_eq_false,
    not_false_eq_true, forall_const, false_implies] at hw
  obtain ⟨w1, -, w3, w4, -⟩ := hw
  refine ⟨by omega, hlist, by omega, by omega, h6, h7, hn, rfl, rfl, hd⟩

/-- An active entry is put into a list. -/
lemma insert (h : EntryOk x w handed abandoned) (hx : x.state = .active) (hi : 0 < w .insert)
    {v : Duty → ℕ} (hw : ∀ d, v d + Duty.one .insert d = w d) {head : ObjListHead} :
    EntryOk { x with oaObjList := some head } v handed abandoned := by
  simp only [EntryOk, hx] at h
  obtain ⟨h1, h2, h3, h4, h5, h6, hn, hs, ha, hd⟩ := h
  simp only [Duty.forall_iff, Duty.one, reduceCtorEq, if_true, if_false] at hw
  obtain ⟨w1, w2, w3, w4, w5⟩ := hw
  simp only [EntryOk, hx]
  refine ⟨by omega, ?_, by omega, by omega, h5, h6, by omega, hs, ha, hd⟩
  simp only [ObjTableEntry.linked, Option.isSome_some, if_true]
  omega

/-- The list of an entry gets a new head. -/
lemma relink (h : EntryOk x w handed abandoned) {head head' : ObjListHead}
    (hl : x.oaObjList = some head) :
    EntryOk { x with oaObjList := some head' } w handed abandoned := by
  cases hx : x.state
  all_goals
    simp only [EntryOk, hx, ObjTableEntry.linked, hl, Option.isSome_some] at h ⊢
    exact h

/-- An active entry that is in no list to be inserted starts to be deactivated while invocations are
in progress. -/
lemma setDeactivating (h : EntryOk x w handed abandoned) (hx : x.state = .active)
    (hi : w .insert = 0) (hw : 0 < w .invocation) :
    EntryOk { x.setState .deactivating with
      nInvocations := x.nInvocations - 1, oaObjList := none } w handed abandoned := by
  simp only [EntryOk, hx] at h
  obtain ⟨h1, h2, h3, h4, h5, h6, hn, hs, ha, hd⟩ := h
  refine ⟨h1, hi, h3, h4, h5, h6, rfl, hw, ?_, hs, ha, hd⟩
  simp only
  omega

/-- An active entry goes on to be etherealised, by the one that has it now. -/
lemma setEtherealising (h : EntryOk x w handed abandoned) (hx : x.state = .active)
    (hi : w .insert = 0) (hv : w .invocation = 0) {v : Duty → ℕ}
    (hw : ∀ d, v d = w d + Duty.one .finish d + Duty.one .hand d) :
    EntryOk { (x.setState .deactivating).setState .etherealising with
      nInvocations := x.nInvocations - 1, oaObjList := none, deactivated := true }
      v handed abandoned := by
  simp only [EntryOk, hx] at h
  obtain ⟨h1, h2, h3, h4, h5, h6, hn, hs, ha, hd⟩ := h
  simp only [Duty.forall_iff, Duty.one, reduceCtorEq, if_true, if_false] at hw
  obtain ⟨w1, w2, w3, w4, w5⟩ := hw
  refine ⟨by omega, by omega, by omega, ?_, ?_, ?_, hs, ha, rfl⟩
  · simp only [ObjTableEntry.linked, Option.isSome_none, Bool.false_eq_true, if_false]
    omega
  · simp only [ObjTableEntry.linked, Option.isSome_none, Bool.false_eq_true, if_false]
    omega
  · simp only
    omega

/-- The last invocation of an entry that is being deactivated ends. -/
lemma lastInvocation (h : EntryOk x w handed abandoned) (hx : x.state = .deactivating)
    (hv : w .invocation = 1) {v : Duty → ℕ}
    (hw : ∀ d, v d + Duty.one .invocation d = w d + Duty.one .finish d + Duty.one .hand d) :
    EntryOk { x.setState .etherealising with
      nInvocations := x.nInvocations - 1, deactivated := true } v handed abandoned := by
  simp only [EntryOk, hx] at h
  obtain ⟨h1, h2, h3, h4, h5, h6, hl, -, hn, hs, ha, hd⟩ := h
  simp only [Duty.forall_iff, Duty.one, reduceCtorEq, if_true, if_false] at hw
  obtain ⟨w1, w2, w3, w4, w5⟩ := hw
  have hlink : ({ x.setState .etherealising with
      nInvocations := x.nInvocations - 1, deactivated := true } : ObjTableEntry).linked = 0 := hl
  refine ⟨by omega, by omega, by omega, by omega, by omega, ?_, hs, ha, rfl⟩
  simp only
  omega

/-- An invocation starts. -/
lemma startInvocation (h : EntryOk x w handed abandoned) (hx : x.state.IsActivation)
    {v : Duty → ℕ} (hw : ∀ d, v d = w d + Duty.one .invocation d) :
    EntryOk { x with nInvocations := x.nInvocations + 1 } v handed abandoned := by
  simp only [Duty.forall_iff, Duty.one, reduceCtorEq, if_true, if_false] at hw
  obtain ⟨w1, w2, w3, w4, w5⟩ := hw
  rcases hx with hx | hx | hx
  all_goals simp only [EntryOk, hx, ObjTableEntry.linked] at h ⊢
  · obtain ⟨h1, h2, h3, h4, h5, h6, hn, hr⟩ := h
    exact ⟨by omega, by omega, by omega, by omega, h5, h6, by omega, hr⟩
  · obtain ⟨h1, h2, h3, h4, h5, h6, hl, hv, hn, hr⟩ := h
    exact ⟨by omega, by omega, by omega, by omega, h5, h6, hl, by omega, by omega, hr⟩
  · obtain ⟨h1, h2, h3, h4, h5, h6, hl, hn, hr⟩ := h
    exact ⟨by omega, by omega, by omega, by omega, h5, h6, hl, by omega, hr⟩

/-- An invocation ends that is not the last of an entry that is being deactivated. -/
lemma endInvocation (h : EntryOk x w handed abandoned) (hv : 0 < w .invocation)
    (hx : x.state = .deactivating → 1 < w .invocation)
    {v : Duty → ℕ} (hw : ∀ d, v d + Duty.one .invocation d = w d) :
    EntryOk { x with nInvocations := x.nInvocations - 1 } v handed abandoned := by
  simp only [Duty.forall_iff, Duty.one, reduceCtorEq, if_true, if_false] at hw
  obtain ⟨w1, w2, w3, w4, w5⟩ := hw
  rcases h.state_of_invocation hv with hs | hs | hs
  all_goals simp only [EntryOk, hs, ObjTableEntry.linked] at h ⊢
  · obtain ⟨h1, h2, h3, h4, h5, h6, hn, hr⟩ := h
    exact ⟨by omega, by omega, by omega, by omega, h5, h6, by omega, hr⟩
  · obtain ⟨h1, h2, h3, h4, h5, h6, hl, -, hn, hr⟩ := h
    have := hx hs
    exact ⟨by omega, by omega, by omega, by omega, h5, h6, hl, by omega, by omega, hr⟩
  · obtain ⟨h1, h2, h3, h4, h5, h6, hl, hn, hr⟩ := h
    exact ⟨by omega, by omega, by omega, by omega, h5, h6, hl, by omega, hr⟩

/-- `deactivate_objects` deactivates an entry. -/
lemma setDeactivatingOA (h : EntryOk x w handed abandoned) (hx : x.state = .active)
    (hl : x.linked = 1) :
    EntryOk { x.setState .deactivatingOA with nInvocations := x.nInvocations - 1 } w handed
      abandoned := by
  simp only [EntryOk, hx] at h
  obtain ⟨h1, h2, h3, h4, h5, h6, hn, hr⟩ := h
  refine ⟨h1, by omega, h3, h4, h5, h6, hl, ?_, hr⟩
  simp only
  omega

/-- `complete_object_deactivation` completes the deactivation of an entry. -/
lemma complete (h : EntryOk x w handed abandoned) (hx : x.state = .deactivatingOA)
    (hv : w .invocation = 0) :
    EntryOk { x.setState .etherealising with deactivated := true } w handed abandoned := by
  simp only [EntryOk, hx] at h
  obtain ⟨h1, h2, h3, h4, h5, h6, hl, hn, hs, ha, -⟩ := h
  have hlink : ({ x.setState .etherealising with deactivated := true } : ObjTableEntry).linked = 1 :=
    hl
  exact ⟨h1, h2, hv, by omega, by omega, by simp only [ObjTableEntry.setState]; omega, hs, ha, rfl⟩

/-- `pm_deactivate` returns while the entry is in its list. -/
lemma abandon (h : EntryOk x w handed abandoned) (hx : x.state = .etherealising)
    (hl : x.linked = 1) : EntryOk { x with oaObjList := none } w handed (abandoned + 1) := by
  simp only [EntryOk, hx] at h
  obtain ⟨h1, h2, h3, h4, h5, hr⟩ := h
  simp only [EntryOk, hx]
  refine ⟨h1, h2, h3, ?_, ?_, hr⟩
  all_goals
    simp only [ObjTableEntry.linked, Option.isSome_none, Bool.false_eq_true, if_false]
    omega

/-- An entry that was etherealised leaves the table. -/
lemma setDead (h : EntryOk x w handed abandoned) (hf : 0 < w .finish) {v : Duty → ℕ}
    (hw : ∀ d, v d + Duty.one .finish d = w d) :
    EntryOk (x.setState .dead) v handed abandoned := by
  have hx := h.state_of_finish hf
  simp only [EntryOk, hx] at h
  obtain ⟨h1, h2, h3, h4, h5, h6, hs, ha, hd⟩ := h
  simp only [Duty.forall_iff, Duty.one, reduceCtorEq, if_true, if_false] at hw
  obtain ⟨w1, w2, w3, w4, w5⟩ := hw
  have hlink : (x.setState .dead).linked = x.linked := rfl
  refine ⟨by omega, by omega, by omega, by omega, by omega, by omega, ?_, ?_, ?_⟩
  · simp only [ObjTableEntry.setState, hs, if_true]
    omega
  · simp only [ObjTableEntry.setState]
    omega
  · simp [ObjTableEntry.setState, hs, hd]

/-- `etherealise_objects` takes an entry from its list. -/
lemma take (h : EntryOk x w handed abandoned) (hx : x.state = .etherealising)
    (hl : x.linked = 1) {v : Duty → ℕ}
    (hw : ∀ d, v d = w d + Duty.one .finish d + Duty.one .hand d) :
    EntryOk { x with oaObjList := none } v handed abandoned := by
  simp only [EntryOk, hx] at h
  obtain ⟨h1, h2, h3, h4, h5, hr⟩ := h
  simp only [Duty.forall_iff, Duty.one, reduceCtorEq, if_true, if_false] at hw
  obtain ⟨w1, w2, w3, w4, w5⟩ := hw
  simp only [EntryOk, hx]
  refine ⟨by omega, by omega, by omega, ?_, ?_, hr⟩
  all_goals
    simp only [ObjTableEntry.linked, Option.isSome_none, Bool.false_eq_true, if_false]
    omega

end EntryOk

end OmniORB
