import OmniORB.Library.Transitions
import OmniORB.Uri.Names

/-!
# Adapter activators

`attempt_to_activate_adapter` of `poa.cc` with the functions it uses, for any number of threads. A
step is what a thread does without letting go of `poa_lock`.
-/

namespace OmniORB

open Library

/-- What `unknown_adapter` of the adapter activator does. -/
inductive UnknownAdapter where
  | returns (ret : Bool)
  | systemException
  | otherException
  deriving DecidableEq, Repr

/-- What `attempt_to_activate_adapter` comes to: the child, if there is one, or an exception. -/
inductive ActivationResult where
  | poa (found : Bool)
  | systemException
  | unknown
  deriving DecidableEq, Repr

/-- Where a thread is in `attempt_to_activate_adapter`, for the child `name` of the POA `p`. -/
inductive ActivationPoint where
  | outside
  | entered (p : ℕ) (name : CString)
  | waiting (p : ℕ) (name : CString) (signalled : Bool)
  | calling (p : ℕ) (name : CString)
  | returned (p : ℕ) (name : CString) (result : ActivationResult)
  deriving DecidableEq

/-- `inProgress` is `pd_adptrActvtnsInProgress` of each POA, `child` says which children there are, and
`poaLock` is the thread that holds `poa_lock`. `failed` says that an `OMNIORB_ASSERT` was false. -/
structure ActivationSystem where
  poaLock : Option ℕ
  inProgress : ℕ → List CString
  child : ℕ → CString → Bool
  thread : ℕ → ActivationPoint
  failed : Bool

/-- What a thread may do. `spurious` is a wake-up without a signal, and `changeChild` what `create_POA`
and the destruction of a child do. -/
inductive ActivationAction where
  | lock (t : ℕ)
  | unlock (t : ℕ)
  | enter (t p : ℕ) (name : CString)
  | start (t : ℕ)
  | wake (t : ℕ)
  | spurious (t : ℕ)
  | finish (t : ℕ) (outcome : UnknownAdapter)
  | changeChild (p : ℕ) (name : CString) (present : Bool)
  deriving DecidableEq

/-- `adapteractivator_signal.broadcast` wakes up who waits. -/
def ActivationPoint.signal : ActivationPoint → ActivationPoint
  | .waiting p name _ => .waiting p name true
  | point => point

/-- A thread at the point has `poa_lock`. -/
def ActivationPoint.Holds : ActivationPoint → Prop
  | .entered _ _ | .returned _ _ _ => True
  | _ => False

namespace ActivationSystem

def init : ActivationSystem where
  poaLock := none
  inProgress _ := []
  child _ _ := false
  thread _ := .outside
  failed := false

def setThread (s : ActivationSystem) (t : ℕ) (point : ActivationPoint) : ActivationSystem :=
  { s with thread := Function.update s.thread t point }

/-- `is_adapteractivating_child` -/
def isAdapteractivatingChild (s : ActivationSystem) (p : ℕ) (name : CString) : Bool :=
  name ∈ s.inProgress p

/-- `start_adapteractivating_child_or_block`, until the thread waits or has let go of `poa_lock` to
call the activator. -/
def startOrBlock (s : ActivationSystem) (t p : ℕ) (name : CString) : ActivationSystem :=
  if s.isAdapteractivatingChild p name then
    { s.setThread t (.waiting p name false) with poaLock := none }
  else
    { s.setThread t (.calling p name) with
      poaLock := none
      inProgress := Function.update s.inProgress p (s.inProgress p ++ [name]) }

/-- A thread that waited has `poa_lock` again. -/
def wakeUp (s : ActivationSystem) (t p : ℕ) (name : CString) : ActivationSystem :=
  if s.isAdapteractivatingChild p name then s.setThread t (.waiting p name false)
  else { s.setThread t (.returned p name (.poa (s.child p name))) with poaLock := some t }

/-- `finish_adapteractivating_child` -/
def finishAdapteractivatingChild (s : ActivationSystem) (p : ℕ) (name : CString) :
    ActivationSystem :=
  { s with
    failed := s.failed || !s.isAdapteractivatingChild p name
    inProgress := Function.update s.inProgress p ((s.inProgress p).erase name)
    thread := fun t => (s.thread t).signal }

/-- `unknown_adapter` has returned or thrown, and the thread has `poa_lock` again. -/
def finish (s : ActivationSystem) (t p : ℕ) (name : CString) (outcome : UnknownAdapter) :
    ActivationSystem :=
  let s := { s with poaLock := some t }
  match outcome with
  | .systemException => s.setThread t (.returned p name .systemException)
  | .otherException => s.setThread t (.returned p name .unknown)
  | .returns ret =>
    (s.finishAdapteractivatingChild p name).setThread t
      (.returned p name (.poa (ret && s.child p name)))

def step (s : ActivationSystem) : ActivationAction → Option ActivationSystem
  | .lock t =>
    if s.poaLock = none ∧ s.thread t = .outside then some { s with poaLock := some t } else none
  | .unlock t =>
    match s.thread t with
    | .outside | .returned _ _ _ =>
      if s.poaLock = some t then some { s.setThread t .outside with poaLock := none } else none
    | _ => none
  | .enter t p name =>
    if s.poaLock = some t ∧ s.thread t = .outside then some (s.setThread t (.entered p name))
    else none
  | .start t =>
    match s.thread t with
    | .entered p name => some (s.startOrBlock t p name)
    | _ => none
  | .wake t =>
    match s.thread t with
    | .waiting p name true => if s.poaLock = none then some (s.wakeUp t p name) else none
    | _ => none
  | .spurious t =>
    match s.thread t with
    | .waiting p name _ => some (s.setThread t (.waiting p name true))
    | _ => none
  | .finish t outcome =>
    match s.thread t with
    | .calling p name => if s.poaLock = none then some (s.finish t p name outcome) else none
    | _ => none
  | .changeChild p name present =>
    if s.poaLock = none then
      some { s with child := Function.update s.child p (Function.update (s.child p) name present) }
    else none

/-- A call for the child `name` of `p` is over and has left nothing behind: the thread holds
`poa_lock`, the name is not recorded, who waits for it goes on, and a later call starts again. -/
structure Traceless (s : ActivationSystem) (t p : ℕ) (name : CString) : Prop where
  lock : s.poaLock = some t
  forgotten : name ∉ s.inProgress p
  signalled : ∀ t' b, s.thread t' = .waiting p name b → b = true
  continues : ∀ t' b, s.thread t' = .waiting p name b → ∃ s' result,
    step { s with poaLock := none } (.wake t') = some s' ∧ s'.thread t' = .returned p name result
  again : ∀ t', s.thread t' = .outside →
    ((s.setThread t' (.entered p name)).startOrBlock t' p name).thread t' = .calling p name
/-- The activator returns, with one result or the other, where the action is the end of a call. -/
def Returns : ActivationAction → Prop
  | .finish _ .systemException | .finish _ .otherException => False
  | _ => True

/-- Each call of `attempt_to_activate_adapter` that is over with the step leaves nothing behind. -/
def LeavesNoTrace (s : ActivationSystem) (a : ActivationAction) : Prop :=
  ∀ s' ∈ step s a, ∀ t p name result, s.thread t ≠ .returned p name result →
    s'.thread t = .returned p name result → s'.Traceless t p name

/-! ### What holds in each state -/

/-- A name is recorded once, while a thread calls the activator for it, and nobody waits for a name that
is not recorded without having been signalled. -/
structure Inv (s : ActivationSystem) : Prop where
  nodup : ∀ p, (s.inProgress p).Nodup
  recorded : ∀ t p name, s.thread t = .calling p name → name ∈ s.inProgress p
  alone : ∀ t t' p name, s.thread t = .calling p name → s.thread t' = .calling p name → t = t'
  blocked : ∀ t p name, s.thread t = .waiting p name false → name ∈ s.inProgress p
  holds : ∀ t, (s.thread t).Holds → s.poaLock = some t
  asserted : s.failed = false

variable {s s' : ActivationSystem} {t t' p : ℕ} {name : CString} {point : ActivationPoint}

lemma setThread_thread_self (s : ActivationSystem) (t : ℕ) (point : ActivationPoint) :
    (s.setThread t point).thread t = point := Function.update_self _ _ _

lemma setThread_thread_of_ne (h : t' ≠ t) :
    (s.setThread t point).thread t' = s.thread t' := Function.update_of_ne h _ _

lemma mem_of_isAdapteractivatingChild (h : s.isAdapteractivatingChild p name) :
    name ∈ s.inProgress p := of_decide_eq_true h

lemma notMem_of_isAdapteractivatingChild (h : ¬ s.isAdapteractivatingChild p name) :
    name ∉ s.inProgress p := fun hmem => h (decide_eq_true hmem)

/-- A thread moves on, and no name is recorded or forgotten. -/
lemma Inv.move (h : s.Inv) (t : ℕ) (lock : Option ℕ)
    (hcalling : ∀ p name, point = .calling p name → s.thread t = point)
    (hblocked : ∀ p name, point = .waiting p name false → name ∈ s.inProgress p)
    (hholds : ∀ t', ((s.setThread t point).thread t').Holds → lock = some t') :
    Inv { s.setThread t point with poaLock := lock } where
  nodup := h.nodup
  recorded t' p name ht' := by
    rcases eq_or_ne t' t with rfl | hne
    · have hpoint : point = .calling p name := (setThread_thread_self s t' point).symm.trans ht'
      exact h.recorded t' p name ((hcalling p name hpoint).trans hpoint)
    · exact h.recorded t' p name ((setThread_thread_of_ne hne).symm.trans ht')
  alone t1 t2 p name h1 h2 := by
    have hback : ∀ t', (s.setThread t point).thread t' = .calling p name →
        s.thread t' = .calling p name := by
      intro t' ht'
      rcases eq_or_ne t' t with rfl | hne
      · have hpoint : point = .calling p name := (setThread_thread_self s t' point).symm.trans ht'
        exact (hcalling p name hpoint).trans hpoint
      · exact (setThread_thread_of_ne hne).symm.trans ht'
    exact h.alone t1 t2 p name (hback t1 h1) (hback t2 h2)
  blocked t' p name ht' := by
    rcases eq_or_ne t' t with rfl | hne
    · exact hblocked p name ((setThread_thread_self s t' point).symm.trans ht')
    · exact h.blocked t' p name ((setThread_thread_of_ne hne).symm.trans ht')
  holds := hholds
  asserted := h.asserted

/-- Nobody else holds `poa_lock`. -/
lemma Inv.eq_of_holds (h : s.Inv) (ht : s.poaLock = some t) (ht' : (s.thread t').Holds) : t' = t :=
  Option.some.inj ((h.holds t' ht').symm.trans ht)

lemma Inv.not_holds (h : s.Inv) (hfree : s.poaLock = none) (t : ℕ) : ¬ (s.thread t).Holds :=
  fun ht => Option.some_ne_none t ((h.holds t ht).symm.trans hfree)

/-- Who lets go of `poa_lock` leaves nobody behind who should hold it. -/
lemma Inv.holds_release (h : s.Inv) (ht : s.poaLock = some t) (hpoint : ¬ point.Holds) (t' : ℕ)
    (ht' : ((s.setThread t point).thread t').Holds) : (none : Option ℕ) = some t' := by
  rcases eq_or_ne t' t with rfl | hne
  · exact absurd (setThread_thread_self s t' point ▸ ht') hpoint
  · rw [setThread_thread_of_ne hne] at ht'
    exact absurd (h.eq_of_holds ht ht') hne

/-- Who takes `poa_lock` is alone with it. -/
lemma Inv.holds_take (h : s.Inv) (hfree : s.poaLock = none) (t' : ℕ)
    (ht' : ((s.setThread t point).thread t').Holds) : some t = some t' := by
  rcases eq_or_ne t' t with rfl | hne
  · rfl
  · rw [setThread_thread_of_ne hne] at ht'
    exact absurd ht' (h.not_holds hfree t')

lemma Inv.holds_keep (h : s.Inv) (hpoint : point.Holds → s.poaLock = some t) (t' : ℕ)
    (ht' : ((s.setThread t point).thread t').Holds) : s.poaLock = some t' := by
  rcases eq_or_ne t' t with rfl | hne
  · exact hpoint (setThread_thread_self s t' point ▸ ht')
  · exact h.holds t' (setThread_thread_of_ne hne ▸ ht')

lemma Inv.init : init.Inv where
  nodup _ := List.nodup_nil
  recorded _ _ _ h := by contradiction
  alone _ _ _ _ h := by contradiction
  blocked _ _ _ h := by contradiction
  holds _ h := h.elim
  asserted := rfl

lemma Inv.startOrBlock (h : s.Inv) (ht : s.thread t = .entered p name) :
    (s.startOrBlock t p name).Inv := by
  have hlock : s.poaLock = some t := h.holds t (by rw [ht]; trivial)
  rw [ActivationSystem.startOrBlock]
  split
  case isTrue hin =>
    refine h.move t none (by simp) ?_ (h.holds_release hlock id)
    rintro p' name' heq
    obtain ⟨rfl, rfl, -⟩ := ActivationPoint.waiting.inj heq
    exact mem_of_isAdapteractivatingChild hin
  case isFalse hout =>
    have hnew := notMem_of_isAdapteractivatingChild hout
    have hmem : ∀ {p' name'}, name' ∈ s.inProgress p' →
        name' ∈ Function.update s.inProgress p (s.inProgress p ++ [name]) p' := by
      intro p' name' hmem
      rcases eq_or_ne p' p with rfl | hne
      · rw [Function.update_self]
        exact List.mem_append_left _ hmem
      · rwa [Function.update_of_ne hne]
    have hcall : ∀ {t' p' name'}, (s.setThread t (.calling p name)).thread t' = .calling p' name' →
        (t' = t ∧ p' = p ∧ name' = name) ∨ s.thread t' = .calling p' name' := by
      intro t' p' name' ht'
      rcases eq_or_ne t' t with rfl | hne
      · rw [setThread_thread_self] at ht'
        obtain ⟨rfl, rfl⟩ := ActivationPoint.calling.inj ht'
        exact Or.inl ⟨rfl, rfl, rfl⟩
      · exact Or.inr ((setThread_thread_of_ne hne).symm.trans ht')
    constructor
    case nodup =>
      intro p'
      show (Function.update s.inProgress p (s.inProgress p ++ [name]) p').Nodup
      rcases eq_or_ne p' p with rfl | hne
      · rw [Function.update_self]
        exact (h.nodup p').append (List.nodup_singleton name) (by simpa using hnew)
      · rw [Function.update_of_ne hne]
        exact h.nodup p'
    case recorded =>
      intro t' p' name' ht'
      rcases hcall ht' with ⟨-, rfl, rfl⟩ | hold
      · show name' ∈ Function.update s.inProgress p' (s.inProgress p' ++ [name']) p'
        rw [Function.update_self]
        exact List.mem_append_right _ (List.mem_singleton_self name')
      · exact hmem (h.recorded t' p' name' hold)
    case alone =>
      intro t1 t2 p' name' h1 h2
      rcases hcall h1 with ⟨rfl, rfl, rfl⟩ | hold1
      · rcases hcall h2 with ⟨rfl, -, -⟩ | hold2
        · rfl
        · exact absurd (h.recorded t2 p' name' hold2) hnew
      · rcases hcall h2 with ⟨rfl, rfl, rfl⟩ | hold2
        · exact absurd (h.recorded t1 p' name' hold1) hnew
        · exact h.alone t1 t2 p' name' hold1 hold2
    case blocked =>
      intro t' p' name' ht'
      have hold : s.thread t' = .waiting p' name' false := by
        rcases eq_or_ne t' t with rfl | hne
        · have heq := (setThread_thread_self s t' (.calling p name)).symm.trans ht'
          contradiction
        · exact (setThread_thread_of_ne hne).symm.trans ht'
      exact hmem (h.blocked t' p' name' hold)
    case holds => exact h.holds_release hlock id
    case asserted => exact h.asserted

lemma Inv.wakeUp (h : s.Inv) (hfree : s.poaLock = none) : (s.wakeUp t p name).Inv := by
  rw [ActivationSystem.wakeUp]
  split
  case isTrue hin =>
    refine h.move t s.poaLock (by simp) ?_ (h.holds_keep False.elim)
    rintro p' name' heq
    obtain ⟨rfl, rfl, -⟩ := ActivationPoint.waiting.inj heq
    exact mem_of_isAdapteractivatingChild hin
  case isFalse =>
    exact h.move t (some t) (by simp) (by simp) (h.holds_take hfree)

/-- A point that was not signalled before is not one after it. -/
lemma signal_eq_waiting {b : Bool} (h : point.signal = .waiting p name b) : b = true := by
  cases point with
  | waiting p' name' b' =>
    obtain ⟨-, -, rfl⟩ := ActivationPoint.waiting.inj h
    rfl
  | outside => contradiction
  | entered p' name' => contradiction
  | calling p' name' => contradiction
  | returned p' name' result => contradiction

lemma signal_eq_calling (h : point.signal = .calling p name) : point = .calling p name := by
  cases point with
  | waiting p' name' b' => contradiction
  | outside => contradiction
  | entered p' name' => contradiction
  | calling p' name' => exact h
  | returned p' name' result => contradiction

lemma holds_signal : point.signal.Holds ↔ point.Holds := by
  cases point <;> exact Iff.rfl

/-- The name of a thread that calls the activator is the only one to go. -/
lemma Inv.finishAdapteractivatingChild (h : s.Inv) (hfree : s.poaLock = none)
    (ht : s.thread t = .calling p name) (result : ActivationResult) :
    Inv ((ActivationSystem.finishAdapteractivatingChild { s with poaLock := some t }
      p name).setThread t (.returned p name result)) where
  nodup p' := by
    show (Function.update s.inProgress p ((s.inProgress p).erase name) p').Nodup
    rcases eq_or_ne p' p with rfl | hne
    · rw [Function.update_self]
      exact (h.nodup p').erase name
    · rw [Function.update_of_ne hne]
      exact h.nodup p'
  recorded t' p' name' ht' := by
    show name' ∈ Function.update s.inProgress p ((s.inProgress p).erase name) p'
    rcases eq_or_ne t' t with rfl | hne
    · rw [setThread_thread_self] at ht'
      contradiction
    · rw [setThread_thread_of_ne hne] at ht'
      have hold : s.thread t' = .calling p' name' := signal_eq_calling ht'
      have hmem := h.recorded t' p' name' hold
      rcases eq_or_ne p' p with rfl | hp
      · have hname : name' ≠ name := by
          rintro rfl
          exact hne (h.alone t' t p' name' hold ht)
        rw [Function.update_self]
        exact (List.mem_erase_of_ne hname).mpr hmem
      · rwa [Function.update_of_ne hp]
  alone t1 t2 p' name' h1 h2 := by
    have hback : ∀ t', ((ActivationSystem.finishAdapteractivatingChild { s with poaLock := some t }
        p name).setThread t (.returned p name result)).thread t' = .calling p' name' →
        s.thread t' = .calling p' name' := by
      intro t' ht'
      rcases eq_or_ne t' t with rfl | hne
      · rw [setThread_thread_self] at ht'
        contradiction
      · rw [setThread_thread_of_ne hne] at ht'
        exact signal_eq_calling ht'
    exact h.alone t1 t2 p' name' (hback t1 h1) (hback t2 h2)
  blocked t' p' name' ht' := by
    rcases eq_or_ne t' t with rfl | hne
    · rw [setThread_thread_self] at ht'
      contradiction
    · rw [setThread_thread_of_ne hne] at ht'
      exact absurd (signal_eq_waiting ht') Bool.false_ne_true
  holds t' ht' := by
    rcases eq_or_ne t' t with rfl | hne
    · rfl
    · rw [setThread_thread_of_ne hne] at ht'
      exact absurd (holds_signal.mp ht') (h.not_holds hfree t')
  asserted := by
    have hin : s.isAdapteractivatingChild p name = true := decide_eq_true (h.recorded t p name ht)
    show (s.failed || !s.isAdapteractivatingChild p name) = false
    rw [h.asserted, hin]
    rfl

lemma Inv.finish (h : s.Inv) (hfree : s.poaLock = none) (ht : s.thread t = .calling p name)
    (outcome : UnknownAdapter) : (s.finish t p name outcome).Inv := by
  cases outcome with
  | returns ret => exact h.finishAdapteractivatingChild hfree ht _
  | systemException => exact h.move t (some t) (by simp) (by simp) (h.holds_take hfree)
  | otherException => exact h.move t (some t) (by simp) (by simp) (h.holds_take hfree)

/-- The invariant is kept by every step. -/
lemma Inv.step (h : s.Inv) {a : ActivationAction} (hs : step s a = some s') : s'.Inv := by
  cases a with
  | lock t =>
    rw [ActivationSystem.step, Option.ite_none_right_eq_some] at hs
    obtain ⟨⟨hfree, ht⟩, hs⟩ := hs
    obtain rfl := Option.some.inj hs
    exact { h with holds := fun t' ht' => absurd ht' (h.not_holds hfree t') }
  | unlock t =>
    rw [ActivationSystem.step] at hs
    split at hs
    case h_1 =>
      rw [Option.ite_none_right_eq_some] at hs
      obtain ⟨hlock, hs⟩ := hs
      obtain rfl := Option.some.inj hs
      exact h.move t none (by simp) (by simp) (h.holds_release hlock id)
    case h_2 =>
      rw [Option.ite_none_right_eq_some] at hs
      obtain ⟨hlock, hs⟩ := hs
      obtain rfl := Option.some.inj hs
      exact h.move t none (by simp) (by simp) (h.holds_release hlock id)
    case h_3 => contradiction
  | enter t p name =>
    rw [ActivationSystem.step, Option.ite_none_right_eq_some] at hs
    obtain ⟨⟨hlock, ht⟩, hs⟩ := hs
    obtain rfl := Option.some.inj hs
    exact h.move t s.poaLock (by simp) (by simp) (h.holds_keep fun _ => hlock)
  | start t =>
    rw [ActivationSystem.step] at hs
    split at hs
    case h_1 p name ht =>
      obtain rfl := Option.some.inj hs
      exact h.startOrBlock ht
    case h_2 => contradiction
  | wake t =>
    rw [ActivationSystem.step] at hs
    split at hs
    case h_1 p name ht =>
      rw [Option.ite_none_right_eq_some] at hs
      obtain ⟨hfree, hs⟩ := hs
      obtain rfl := Option.some.inj hs
      exact h.wakeUp hfree
    case h_2 => contradiction
  | spurious t =>
    rw [ActivationSystem.step] at hs
    split at hs
    case h_1 p name b ht =>
      obtain rfl := Option.some.inj hs
      exact h.move t s.poaLock (by simp) (by simp) (h.holds_keep False.elim)
    case h_2 => contradiction
  | finish t outcome =>
    rw [ActivationSystem.step] at hs
    split at hs
    case h_1 p name ht =>
      rw [Option.ite_none_right_eq_some] at hs
      obtain ⟨hfree, hs⟩ := hs
      obtain rfl := Option.some.inj hs
      exact h.finish hfree ht outcome
    case h_2 => contradiction
  | changeChild p name present =>
    rw [ActivationSystem.step, Option.ite_none_right_eq_some] at hs
    obtain ⟨-, hs⟩ := hs
    obtain rfl := Option.some.inj hs
    exact { h with }

/-! ### What a call leaves behind -/

/-- Where the name is not recorded, and nobody waits for it without having been signalled, the call has
left nothing behind. -/
lemma Inv.traceless (h : s.Inv) (hlock : s.poaLock = some t) (hout : name ∉ s.inProgress p) :
    s.Traceless t p name := by
  have hchild : s.isAdapteractivatingChild p name = false := decide_eq_false hout
  have hsignalled : ∀ t' b, s.thread t' = .waiting p name b → b = true := by
    intro t' b ht'
    cases b with
    | true => rfl
    | false => exact absurd (h.blocked t' p name ht') hout
  constructor
  case lock => exact hlock
  case forgotten => exact hout
  case signalled => exact hsignalled
  case continues =>
    intro t' b ht'
    obtain rfl := hsignalled t' b ht'
    refine ⟨{ s.setThread t' (.returned p name (.poa (s.child p name))) with
      poaLock := some t' }, .poa (s.child p name), ?_, setThread_thread_self s t' _⟩
    simp [ActivationSystem.step, ht', ActivationSystem.wakeUp, ActivationSystem.setThread,
      ActivationSystem.isAdapteractivatingChild, hout]
  case again =>
    intro t' _
    have hchild' : (s.setThread t' (.entered p name)).isAdapteractivatingChild p name = false :=
      hchild
    rw [ActivationSystem.startOrBlock, hchild', if_neg Bool.false_ne_true]
    exact setThread_thread_self _ _ _

/-- Another thread that moves does not end a call of this one. -/
lemma returned_of_setThread {result : ActivationResult}
    (hbefore : s.thread t ≠ .returned p name result)
    (hafter : (s.setThread t' point).thread t = .returned p name result) :
    t = t' ∧ point = .returned p name result := by
  rcases eq_or_ne t t' with rfl | hne
  · exact ⟨rfl, (setThread_thread_self s t point).symm.trans hafter⟩
  · exact absurd ((setThread_thread_of_ne hne).symm.trans hafter) hbefore

lemma signal_eq_returned {result : ActivationResult}
    (h : point.signal = .returned p name result) : point = .returned p name result := by
  cases point with
  | waiting p' name' b' => contradiction
  | outside => contradiction
  | entered p' name' => contradiction
  | calling p' name' => contradiction
  | returned p' name' result' => exact h

/-- A call is over in two ways. The thread that called the activator has its answer, or a thread that
waited finds the name gone. -/
lemma returned_of_step {a : ActivationAction} {result : ActivationResult}
    (hs : step s a = some s') (hbefore : s.thread t ≠ .returned p name result)
    (hafter : s'.thread t = .returned p name result) :
    (∃ outcome, a = .finish t outcome ∧ s.thread t = .calling p name ∧ s.poaLock = none ∧
      s' = s.finish t p name outcome) ∨
    (a = .wake t ∧ name ∉ s.inProgress p ∧ s'.poaLock = some t ∧ s'.inProgress = s.inProgress) := by
  cases a with
  | lock t1 =>
    rw [step, Option.ite_none_right_eq_some] at hs
    obtain ⟨-, hs⟩ := hs
    obtain rfl := Option.some.inj hs
    exact absurd hafter hbefore
  | unlock t1 =>
    rw [step] at hs
    split at hs
    case h_1 =>
      rw [Option.ite_none_right_eq_some] at hs
      obtain rfl := Option.some.inj hs.2
      have hpoint := (returned_of_setThread hbefore hafter).2
      contradiction
    case h_2 =>
      rw [Option.ite_none_right_eq_some] at hs
      obtain rfl := Option.some.inj hs.2
      have hpoint := (returned_of_setThread hbefore hafter).2
      contradiction
    case h_3 => contradiction
  | enter t1 p1 name1 =>
    rw [step, Option.ite_none_right_eq_some] at hs
    obtain rfl := Option.some.inj hs.2
    have hpoint := (returned_of_setThread hbefore hafter).2
    contradiction
  | start t1 =>
    rw [step] at hs
    split at hs
    case h_1 p1 name1 ht =>
      obtain rfl := Option.some.inj hs
      rw [ActivationSystem.startOrBlock] at hafter
      split at hafter
      case isTrue =>
        have hpoint := (returned_of_setThread hbefore hafter).2
        contradiction
      case isFalse =>
        have hpoint := (returned_of_setThread hbefore hafter).2
        contradiction
    case h_2 => contradiction
  | wake t1 =>
    rw [step] at hs
    split at hs
    case h_1 p1 name1 ht =>
      rw [Option.ite_none_right_eq_some] at hs
      obtain ⟨-, hs⟩ := hs
      obtain rfl := Option.some.inj hs
      rw [ActivationSystem.wakeUp] at hafter ⊢
      split at hafter
      case isTrue =>
        have hpoint := (returned_of_setThread hbefore hafter).2
        contradiction
      case isFalse hout =>
        obtain ⟨rfl, hpoint⟩ := returned_of_setThread hbefore hafter
        obtain ⟨rfl, rfl, -⟩ := ActivationPoint.returned.inj hpoint
        rw [if_neg hout]
        exact Or.inr ⟨rfl, notMem_of_isAdapteractivatingChild hout, rfl, rfl⟩
    case h_2 => contradiction
  | spurious t1 =>
    rw [step] at hs
    split at hs
    case h_1 p1 name1 b ht =>
      obtain rfl := Option.some.inj hs
      have hpoint := (returned_of_setThread hbefore hafter).2
      contradiction
    case h_2 => contradiction
  | finish t1 outcome =>
    rw [step] at hs
    split at hs
    case h_1 p1 name1 ht =>
      rw [Option.ite_none_right_eq_some] at hs
      obtain ⟨hfree, hs⟩ := hs
      obtain rfl := Option.some.inj hs
      refine Or.inl ⟨outcome, ?_⟩
      have hend : t = t1 ∧ p1 = p ∧ name1 = name := by
        rcases eq_or_ne t t1 with rfl | hne
        · cases outcome with
          | returns ret =>
            have hpoint := (setThread_thread_self _ t _).symm.trans hafter
            obtain ⟨hp, hname, -⟩ := ActivationPoint.returned.inj hpoint
            exact ⟨rfl, hp, hname⟩
          | systemException =>
            have hpoint := (returned_of_setThread hbefore hafter).2
            obtain ⟨hp, hname, -⟩ := ActivationPoint.returned.inj hpoint
            exact ⟨rfl, hp, hname⟩
          | otherException =>
            have hpoint := (returned_of_setThread hbefore hafter).2
            obtain ⟨hp, hname, -⟩ := ActivationPoint.returned.inj hpoint
            exact ⟨rfl, hp, hname⟩
        · refine absurd ?_ hbefore
          cases outcome with
          | returns ret =>
            exact signal_eq_returned ((setThread_thread_of_ne hne).symm.trans hafter)
          | systemException => exact (setThread_thread_of_ne hne).symm.trans hafter
          | otherException => exact (setThread_thread_of_ne hne).symm.trans hafter
      obtain ⟨rfl, rfl, rfl⟩ := hend
      exact ⟨rfl, ht, hfree, rfl⟩
    case h_2 => contradiction
  | changeChild p1 name1 present =>
    rw [step, Option.ite_none_right_eq_some] at hs
    obtain rfl := Option.some.inj hs.2
    exact absurd hafter hbefore

lemma notMem_finish (h : s.Inv) (ret : Bool) :
    name ∉ (s.finish t p name (.returns ret)).inProgress p := by
  show name ∉ Function.update s.inProgress p ((s.inProgress p).erase name) p
  rw [Function.update_self]
  exact (h.nodup p).not_mem_erase

/-- With a step, the calls that are over leave nothing behind if and only if the activator has not
thrown. -/
lemma Inv.leavesNoTrace_iff (h : s.Inv) {a : ActivationAction} (hs : ActivationSystem.step s a = some s') :
    s.LeavesNoTrace a ↔ Returns a := by
  have h' := h.step hs
  constructor
  · intro hleaves
    cases a with
    | finish t outcome =>
      rw [ActivationSystem.step] at hs
      split at hs
      case h_1 p name ht =>
        rw [Option.ite_none_right_eq_some] at hs
        obtain ⟨hfree, hs⟩ := hs
        have hstep : ActivationSystem.step s (.finish t outcome) = some (s.finish t p name outcome) := by
          simp only [ActivationSystem.step, ht, hfree, if_true]
        have hrecorded := h.recorded t p name ht
        have hbefore : ∀ result, s.thread t ≠ .returned p name result := by
          intro result heq
          have hpoint := ht.symm.trans heq
          contradiction
        cases outcome with
        | returns ret => trivial
        | systemException =>
          exact (hleaves _ hstep t p name .systemException (hbefore _)
            (setThread_thread_self _ _ _)).forgotten hrecorded
        | otherException =>
          exact (hleaves _ hstep t p name .unknown (hbefore _)
            (setThread_thread_self _ _ _)).forgotten hrecorded
      case h_2 => contradiction
    | lock => trivial
    | unlock => trivial
    | enter => trivial
    | start => trivial
    | wake => trivial
    | spurious => trivial
    | changeChild => trivial
  · rintro hreturns s1 hs1 t p name result hbefore hafter
    obtain rfl := Option.some.inj (hs.symm.trans hs1)
    rcases returned_of_step hs hbefore hafter with
      ⟨outcome, rfl, ht, hfree, rfl⟩ | ⟨rfl, hout, hlock, hprogress⟩
    · cases outcome with
      | returns ret => exact h'.traceless rfl (notMem_finish h ret)
      | systemException => exact hreturns.elim
      | otherException => exact hreturns.elim
    · exact h'.traceless hlock (hprogress ▸ hout)

end ActivationSystem

open ActivationSystem

/-- In a run, every call that is over has left nothing behind, if and only if the activator has returned
each time. -/
theorem adapter_activations_leave_no_trace {s : ActivationSystem} (l : List ActivationAction)
    (hs : execute step init l = some s) :
    AllOk step LeavesNoTrace init l ↔ AllOk step (fun _ a => Returns a) init l :=
  AllOk.congr Inv (fun _ _ _ h hs => h.step hs) (fun _ _ _ h hs => h.leavesNoTrace_iff hs)
    Inv.init hs

/-- The activator says that it does not know the child. -/
theorem adapter_activations_leave_no_trace_unknown :
    ∃ s, execute step init [.lock 0, .enter 0 0 .empty, .start 0,
        .finish 0 (.returns false)] = some s ∧
      s.thread 0 = .returned 0 .empty (.poa false) ∧
      AllOk step LeavesNoTrace init
        [.lock 0, .enter 0 0 .empty, .start 0, .finish 0 (.returns false)] := by
  refine ⟨_, rfl, rfl, (adapter_activations_leave_no_trace _ rfl).mpr ?_⟩
  exact ⟨trivial, fun _ _ =>
    ⟨trivial, fun _ _ => ⟨trivial, fun _ _ => ⟨trivial, fun _ _ => trivial⟩⟩⟩⟩

/-- After an activator that has thrown, a later thread waits for a call that nobody makes. -/
theorem adapter_activation_thrown :
    ∃ s, execute step init [.lock 0, .enter 0 0 .empty, .start 0, .finish 0 .systemException,
        .unlock 0, .lock 1, .enter 1 0 .empty, .start 1] = some s ∧
      s.thread 1 = .waiting 0 .empty false ∧ (∀ t, s.thread t ≠ .calling 0 .empty) ∧
      ¬ AllOk step LeavesNoTrace init [.lock 0, .enter 0 0 .empty, .start 0,
        .finish 0 .systemException, .unlock 0, .lock 1, .enter 1 0 .empty, .start 1] := by
  refine ⟨_, rfl, rfl, ?_, ?_⟩
  · intro t
    rcases t with - | - | t <;> exact ActivationPoint.noConfusion
  · rintro ⟨-, h⟩
    have hfinish := (((h _ rfl).2 _ rfl).2 _ rfl).1 _ rfl 0 0 .empty .systemException
    exact (hfinish (by decide) rfl).forgotten (by decide)

end OmniORB
