import OmniORB.ObjRef.Invoke

/-!
# Whole invocations

What holds of a call over all its attempts: how it ends, which deadline is in force and what becomes
of the reference.
-/

namespace OmniORB.OmniObjRef

open Library

variable {ι : Type} {par : OrbParameters} {doAssert : Bool} {a : Attempt ι} {fwd : Bool}

/-! ### Which handler is asked -/

/-- The handler of a kind of exception. -/
def ExceptionKind.handler : ExceptionKind → Handler
  | .commFailure => .commFailure
  | .transient => .transient
  | .timeout => .timeout
  | _ => .system

namespace Outcome

/-- The attempt failed with a communication failure that is not retried at once, or OBJECT_NOT_EXIST. -/
def failed : Outcome ι → Bool
  | .commFailure _ _ retry => !retry
  | .systemException ex => ex.kind = .commFailure || ex.kind = .objectNotExist
  | _ => false

/-- The attempt ended with a time-out. -/
def timedOut : Outcome ι → Bool
  | .commFailure minor _ _ => minor = transientCallTimedout
  | .systemException ex => ex.kind = .timeout
  | _ => false

/-- The system exception that the attempt ended with, unless the pass goes on without a handler. -/
def exception (par : OrbParameters) : Outcome ι → Option SystemException
  | .commFailure minor completed false => some (ofCommFailure par minor completed)
  | .systemException ex => some ex
  | .locationForward none _ => some ⟨.transient, transientNoUsableProfile, .completedNo⟩
  | _ => none

end Outcome

/-- An exception that the caller gets if a handler answers no to another or the same. -/
structure Question where
  handler : Handler
  asked : SystemException
  thrown : SystemException
  deriving DecidableEq, Repr

/-- A failure of a forwarded attempt is put to the handler for TRANSIENT, any other exception to its own. -/
def question (forwardFailed : Bool) (ex : SystemException) : Question :=
  if forwardFailed then ⟨.transient, ⟨.transient, transientFailedOnForwarded, ex.completed⟩, ex⟩
  else ⟨ex.kind.handler, ex, ex⟩

/-! ### The catch clauses -/

/-- What is done about an exception: after a failure of a forwarded attempt the reference is reverted first. -/
def askAbout (a : Attempt ι) (forwardFailed : Bool) (ex : SystemException) : Catch ι Bool :=
  if forwardFailed then do
    recoverForward a ex
    return false
  else do
    unlessHandled a ex.kind.handler ex ex
    return ex.kind = .timeout

lemma catchCommFailure_eq (par : OrbParameters) (a : Attempt ι) (fwd : Bool) (minor : ℕ)
    (completed : CompletionStatus) :
    catchCommFailure par a fwd minor completed = askAbout a fwd (ofCommFailure par minor completed) := by
  have hcompleted : (ofCommFailure par minor completed).completed = completed := by
    rw [ofCommFailure]
    split_ifs
    · rfl
    · rfl
    · rfl
  cases fwd with
  | true =>
    rw [catchCommFailure, askAbout, if_pos rfl, if_pos rfl, recoverForward, hcompleted, bind_assoc]
  | false =>
    rw [catchCommFailure, askAbout, if_neg Bool.false_ne_true, if_neg Bool.false_ne_true, ofCommFailure]
    split_ifs
    · rfl
    · rfl
    · rfl

lemma catchSystemException_eq (a : Attempt ι) (fwd : Bool) (ex : SystemException) :
    catchSystemException a fwd ex =
      askAbout a (fwd && (Outcome.systemException ex : Outcome ι).failed) ex := by
  rcases ex with ⟨kind, minor, completed⟩
  cases kind with
  | commFailure =>
    cases fwd with
    | true => rfl
    | false => rfl
  | objectNotExist =>
    cases fwd with
    | true => rfl
    | false => rfl
  | transient =>
    rw [show (Outcome.systemException _ : Outcome ι).failed = false from rfl, Bool.and_false]
    rfl
  | timeout =>
    rw [show (Outcome.systemException _ : Outcome ι).failed = false from rfl, Bool.and_false]
    rfl
  | invObjref =>
    rw [show (Outcome.systemException _ : Outcome ι).failed = false from rfl, Bool.and_false]
    rfl
  | other name =>
    rw [show (Outcome.systemException _ : Outcome ι).failed = false from rfl, Bool.and_false]
    rfl

variable {s : Invocation ι}

/-- After the handler was asked. -/
def Invocation.ask (s : Invocation ι) (q : Question) (answer : Bool) : Invocation ι :=
  { s with events := s.events ++ [.asked q.handler s.retries q.asked answer], retries := s.retries + 1 }

/-- After the reference has been reverted, if it is to be. -/
def Invocation.revertIf (s : Invocation ι) (forwardFailed : Bool) : Invocation ι :=
  if forwardFailed then { s with
    reference := { s.reference with identity := s.reference.ior, forwardLocation := false }
    events := s.events ++ [.reverted] }
  else s

/-- The outcome of what is done about an exception. -/
lemma run_askAbout (a : Attempt ι) {forwardFailed : Bool} (ex : SystemException)
    (hfwd : forwardFailed = true → s.reference.forwardLocation = true) :
    (askAbout a forwardFailed ex).run.run s =
      if forwardFailed && !a.creatable then
        (.error (.systemException ⟨.invObjref, invObjrefCorruptedObjRef, .completedNo⟩), s)
      else (if a.answer then .ok (!forwardFailed && ex.kind = .timeout) else .error (.systemException ex),
        (s.revertIf forwardFailed).ask (question forwardFailed ex) a.answer) := by
  rcases a with ⟨verification, timeouts, others, outcome, creatable, answer⟩
  cases forwardFailed with
  | false =>
    cases answer with
    | false => rfl
    | true => rfl
  | true =>
    rcases s with ⟨⟨l, forwardLocation⟩, retries, absTime, deadline, events⟩
    obtain rfl : forwardLocation = true := hfwd rfl
    cases creatable with
    | false => rfl
    | true =>
      cases answer with
      | false => rfl
      | true => rfl

lemma run_afterTimeout (x : Catch ι Bool) (s : Invocation ι) :
    ((x >>= fun b => pure (some (false, b)) : Catch ι (Option (Bool × Bool)))).run.run s =
      ((x.run.run s).1.map fun b => some (false, b), (x.run.run s).2) := by
  rw [ExceptT.run_bind, StateT.run_bind]
  rcases x.run.run s with ⟨_ | b, s'⟩
  · rfl
  · rfl

/-! ### What a pass does -/

section

variable (par a) (s : Invocation ι)

/-- A forwarded attempt failed. -/
def forwardFailed : Bool := s.reference.forwardLocation && a.outcome.failed

/-- How a pass ends after `dispatch`: what `afterDispatch` returns or throws, and what it leaves. -/
inductive Finished : Except Thrown (Option (Bool × Bool)) → Invocation ι → Prop where
  | success (h : a.outcome = .success) : Finished (.ok none) s
  | userException (h : a.outcome = .userException) : Finished (.error .userException) s
  | retry (minor : ℕ) (completed : CompletionStatus) (h : a.outcome = .commFailure minor completed true) :
    Finished (.ok (some (true, false))) s
  | forwarded (obj : Forward ι) (permanent : Bool) (h : a.outcome = .locationForward (some obj) permanent) :
    Finished (.ok (some (false, false))) { s with
      reference := s.reference.locationForward permanent obj, events := s.events ++ [.forwarded obj] }
  | lost (hfwd : forwardFailed a s = true) (hcreate : a.creatable = false) :
    Finished (.error (.systemException ⟨.invObjref, invObjrefCorruptedObjRef, .completedNo⟩)) s
  | refused (ex : SystemException) (h : a.outcome.exception par = some ex) (hanswer : a.answer = false)
      (hcreate : forwardFailed a s = true → a.creatable = true) :
    Finished (.error (.systemException ex))
      ((s.revertIf (forwardFailed a s)).ask (question (forwardFailed a s) ex) false)
  | nilForward (permanent : Bool) (h : a.outcome = .locationForward none permanent) (hanswer : a.answer = true) :
    Finished (.error .fatalException)
      (s.ask (question false ⟨.transient, transientNoUsableProfile, .completedNo⟩) true)
  | handled (ex : SystemException) (afterTimeout : Bool) (h : a.outcome.exception par = some ex)
      (hanswer : a.answer = true) (hcreate : forwardFailed a s = true → a.creatable = true)
      (htime : afterTimeout = true → a.outcome.timedOut = true) :
    Finished (.ok (some (false, afterTimeout)))
      ((s.revertIf (forwardFailed a s)).ask (question (forwardFailed a s) ex) true)

end

lemma ofCommFailure_timeout {minor : ℕ} {completed : CompletionStatus}
    (h : (ofCommFailure par minor completed).kind = .timeout) : minor = transientCallTimedout := by
  rw [ofCommFailure] at h
  split_ifs at h with h1 h2
  exact of_decide_eq_true (Bool.and_eq_true_iff.mp h2).2

/-- After an exception that is put to a handler. -/
lemma Finished.of_exception {ex : SystemException} (h : a.outcome.exception par = some ex)
    (htime : ex.kind = .timeout → a.outcome.timedOut = true) :
    Finished par a s (((askAbout a (forwardFailed a s) ex).run.run s).1.map fun b => some (false, b))
      ((askAbout a (forwardFailed a s) ex).run.run s).2 := by
  have hfwd : forwardFailed a s = true → s.reference.forwardLocation = true :=
    fun hf => (Bool.and_eq_true_iff.mp hf).1
  rw [run_askAbout a ex hfwd]
  by_cases hlost : (forwardFailed a s && !a.creatable) = true
  · rw [if_pos hlost]
    obtain ⟨hf, hc⟩ := Bool.and_eq_true_iff.mp hlost
    exact .lost hf (by simpa using hc)
  · rw [if_neg hlost]
    have hcreate : forwardFailed a s = true → a.creatable = true := by
      intro hf
      simpa [hf] using hlost
    cases hanswer : a.answer with
    | false => exact .refused ex h hanswer hcreate
    | true =>
      refine .handled ex _ h hanswer hcreate fun ht => htime ?_
      exact of_decide_eq_true (Bool.and_eq_true_iff.mp ht).2

/-- What follows `dispatch` is one of these. -/
theorem finished (par : OrbParameters) (a : Attempt ι) (s : Invocation ι) :
    Finished par a s ((afterDispatch par a s.reference.forwardLocation).run.run s).1
      ((afterDispatch par a s.reference.forwardLocation).run.run s).2 := by
  cases houtcome : a.outcome with
  | success =>
    rw [afterDispatch, houtcome]
    exact .success houtcome
  | userException =>
    rw [afterDispatch, houtcome]
    exact .userException houtcome
  | systemException ex =>
    have hfinished := Finished.of_exception (s := s) (show a.outcome.exception par = some ex by rw [houtcome]; rfl)
      fun ht => by
        rw [houtcome]
        exact decide_eq_true ht
    rw [forwardFailed, houtcome] at hfinished
    rw [afterDispatch, houtcome]
    simp only [run_afterTimeout, catchSystemException_eq]
    exact hfinished
  | commFailure minor completed retry =>
    cases retry with
    | true =>
      rw [afterDispatch, houtcome]
      exact .retry minor completed houtcome
    | false =>
      have hfinished := Finished.of_exception (s := s)
        (show a.outcome.exception par = some (ofCommFailure par minor completed) by rw [houtcome]; rfl) fun ht => by
          rw [houtcome]
          exact decide_eq_true (ofCommFailure_timeout ht)
      rw [forwardFailed, houtcome, show (Outcome.commFailure minor completed false : Outcome ι).failed = true from rfl,
        Bool.and_true] at hfinished
      rw [afterDispatch, houtcome]
      simp only [Bool.false_eq_true, if_false, run_afterTimeout, catchCommFailure_eq]
      exact hfinished
  | locationForward obj permanent =>
    cases obj with
    | some obj =>
      rw [afterDispatch, houtcome]
      exact .forwarded obj permanent houtcome
    | none =>
      have hnot : forwardFailed a s = false := by
        rw [forwardFailed, houtcome]
        exact Bool.and_false _
      have hexception : a.outcome.exception par = some ⟨.transient, transientNoUsableProfile, .completedNo⟩ := by
        rw [houtcome]
        rfl
      cases hanswer : a.answer with
      | false =>
        have hrefused := Finished.refused (s := s) _ hexception hanswer fun hf => absurd hf (by simp [hnot])
        rw [hnot] at hrefused
        rcases a with ⟨verification, timeouts, others, outcome, creatable, answer⟩
        obtain rfl : answer = false := hanswer
        obtain rfl : outcome = _ := houtcome
        exact hrefused
      | true =>
        have hnil : Finished par a s _ _ := .nilForward permanent houtcome hanswer
        rcases a with ⟨verification, timeouts, others, outcome, creatable, answer⟩
        obtain rfl : answer = true := hanswer
        obtain rfl : outcome = _ := houtcome
        exact hnil

variable {r : Except Thrown (Option (Bool × Bool))} {s' : Invocation ι}

lemma revertIf_absTime (s : Invocation ι) (b : Bool) : (s.revertIf b).absTime = s.absTime := by
  cases b with
  | false => rfl
  | true => rfl

lemma revertIf_deadline (s : Invocation ι) (b : Bool) : (s.revertIf b).deadline = s.deadline := by
  cases b with
  | false => rfl
  | true => rfl

/-- The catch clauses leave the deadline alone. -/
lemma Finished.absTime_eq (h : Finished par a s r s') : s'.absTime = s.absTime ∧ s'.deadline = s.deadline := by
  cases h with
  | refused ex h hanswer hcreate => exact ⟨revertIf_absTime s _, revertIf_deadline s _⟩
  | handled ex afterTimeout h hanswer hcreate htime => exact ⟨revertIf_absTime s _, revertIf_deadline s _⟩
  | _ => exact ⟨rfl, rfl⟩

/-- A pass ends before `dispatch`, or as its outcome and the answer of the handler have it. -/
theorem attempt_cases (par : OrbParameters) (doAssert : Bool) (s : Invocation ι) (a : Attempt ι) :
    (∃ t, attempt par doAssert s a = (⟨a, false, s.deadline, s.reference, [], s.reference⟩, .inr (.threw t))) ∨
      ∃ r s', Finished par a (beginPass s a) r s' ∧ attempt par doAssert s a =
        (⟨a, true, (beginPass s a).deadline, (beginPass s a).reference, s'.events, s'.reference⟩,
          endPass par s' r) := by
  rw [attempt]
  cases if par.verifyObjectExistsAndType && doAssert then a.verification else none with
  | some t => exact .inl ⟨t, rfl⟩
  | none => exact .inr ⟨_, _, finished par a (beginPass s a), rfl⟩

/-! ### Reports -/

namespace Report

/-- A forwarded attempt failed. -/
def forwardFailed (r : Report ι) : Bool :=
  r.dispatched && r.before.forwardLocation && r.attempt.outcome.failed

/-- Why the caller gets a system exception: its handler refused it; or after a failure of a forwarded
attempt, the handler for TRANSIENT refused one instead, or there was no way back; or it is not from
`dispatch`. -/
inductive Accounts (r : Report ι) (ex : SystemException) : Prop where
  | refused (n : ℕ) (h : .asked ex.kind.handler n ex false ∈ r.events)
  | forwardRefused (hfailed : r.forwardFailed = true) (n : ℕ)
      (h : .asked .transient n ⟨.transient, transientFailedOnForwarded, ex.completed⟩ false ∈ r.events)
  | lost (hfailed : r.forwardFailed = true)
      (h : ex = ⟨.invObjref, invObjrefCorruptedObjRef, .completedNo⟩)
  | verification (h : r.dispatched = false)

/-- The deadline may be computed again after the attempt. -/
def MayReset (par : OrbParameters) (r : Report ι) : Prop :=
  par.resetTimeOutOnRetries = true ∨ r.attempt.outcome.timedOut = true

/-- What the attempt made of the reference: it is reverted just if a forwarded attempt failed, and it
stays as it is unless it is forwarded. -/
structure ReferenceRight (r : Report ι) : Prop where
  reverted_iff : .reverted ∈ r.events ↔ r.forwardFailed = true ∧ r.attempt.creatable = true
  reverted : .reverted ∈ r.events →
    r.after = { r.before with identity := r.before.ior, forwardLocation := false }
  kept : .reverted ∉ r.events → (∀ obj, .forwarded obj ∉ r.events) → r.after = r.before
  forwarded : ∀ obj, .forwarded obj ∈ r.events → ∃ permanent,
    r.attempt.outcome = .locationForward (some obj) permanent ∧
      r.after = r.before.locationForward permanent obj

end Report

/-- How a call ends depends on its last attempt, the deadline that was computed stays in force, and the
reference is reverted when it is to be. -/
structure InvokeRight (par : OrbParameters) (reports : List (Report ι)) (ending : Option Ending) : Prop where
  returned : ending = some .returned ↔
    ∃ r ∈ reports.getLast?, r.dispatched = true ∧ r.attempt.outcome = .success
  thrown : ∀ ex, ending = some (.threw (.systemException ex)) → ∃ r ∈ reports.getLast?, r.Accounts ex
  first : ∀ r ∈ reports.head?, r.dispatched = true → r.deadline = r.attempt.timeouts.deadline
  deadline : ∀ x r m r' y, reports = x ++ r :: (m ++ r' :: y) → r.deadline ≠ 0 →
    (∀ q ∈ r :: m, ¬ q.MayReset par) → r'.deadline = r.deadline
  reference : ∀ r ∈ reports, r.ReferenceRight

/-- The deadline that is in force is that of the call descriptor. -/
def DeadlineSet (s : Invocation ι) : Prop := s.absTime ≠ 0 → s.deadline = s.absTime

lemma beginPass_deadline (h : DeadlineSet s) (a : Attempt ι) :
    (beginPass s a).deadline = (beginPass s a).absTime := by
  by_cases h0 : s.absTime = 0
  · simp [beginPass, h0]
  · simp [beginPass, h0, h h0]

/-- A pass that is followed by another has not ended the call. -/
lemma attempt_inl (h : (attempt par doAssert s a).2 = .inl s') : ∃ requiredRetry retryAfterTimeout s1,
    Finished par a (beginPass s a) (.ok (some (requiredRetry, retryAfterTimeout))) s1 ∧
      s' = (if !requiredRetry && (retryAfterTimeout || par.resetTimeOutOnRetries) then { s1 with absTime := 0 }
        else s1) ∧ (attempt par doAssert s a).1 =
        ⟨a, true, (beginPass s a).deadline, (beginPass s a).reference, s1.events, s1.reference⟩ := by
  rcases attempt_cases par doAssert s a with ⟨t, heq⟩ | ⟨r, s1, hfinished, heq⟩
  · rw [heq] at h
    cases h
  · rw [heq] at h ⊢
    match r with
    | .error t => cases h
    | .ok none => cases h
    | .ok (some (requiredRetry, retryAfterTimeout)) =>
      exact ⟨requiredRetry, retryAfterTimeout, s1, hfinished, (Sum.inl.inj h).symm, rfl⟩

lemma DeadlineSet.attempt (h : DeadlineSet s) (hs : (attempt par doAssert s a).2 = .inl s') : DeadlineSet s' := by
  obtain ⟨requiredRetry, retryAfterTimeout, s1, hfinished, rfl, -⟩ := attempt_inl hs
  obtain ⟨habs, hdeadline⟩ := hfinished.absTime_eq
  have hs1 : s1.deadline = s1.absTime := by
    rw [hdeadline, habs]
    exact beginPass_deadline h a
  split_ifs
  · exact fun hne => absurd rfl hne
  · exact fun _ => hs1

/-- Without a reset the next attempt has the deadline of this one. -/
lemma deadline_next (h : DeadlineSet s) (hs : (attempt par doAssert s a).2 = .inl s') (a' : Attempt ι)
    (hreset : ¬ (attempt par doAssert s a).1.MayReset par) (hne : (attempt par doAssert s a).1.deadline ≠ 0) :
    (attempt par doAssert s' a').1.deadline = (attempt par doAssert s a).1.deadline := by
  obtain ⟨requiredRetry, retryAfterTimeout, s1, hfinished, rfl, hreport⟩ := attempt_inl hs
  obtain ⟨habs, hdeadline⟩ := hfinished.absTime_eq
  rw [hreport] at hreset hne ⊢
  have hkept : (!requiredRetry && (retryAfterTimeout || par.resetTimeOutOnRetries)) = false := by
    have hpar : par.resetTimeOutOnRetries = false := by
      by_contra hpar
      exact hreset (.inl (by simpa using hpar))
    cases hfinished with
    | retry minor completed h => rfl
    | forwarded obj permanent h => simp [hpar]
    | handled ex afterTimeout h hanswer hcreate htime =>
      cases retryAfterTimeout with
      | false => simp [hpar]
      | true => exact absurd (.inr (htime rfl)) hreset
  rw [hkept]
  simp only [Bool.false_eq_true, if_false]
  have hs1 : s1.absTime ≠ 0 := by
    rw [habs, ← beginPass_deadline h a]
    exact hne
  rcases attempt_cases par doAssert s1 a' with ⟨t, heq⟩ | ⟨r, s2, -, heq⟩
  · rw [heq]
    exact hdeadline
  · rw [heq]
    change (beginPass s1 a').deadline = _
    rw [beginPass]
    simp only [if_neg hs1]
    exact hdeadline

/-! ### One attempt -/

/-- The pass returns just if `dispatch` did. -/
lemma Finished.success_iff (h : Finished par a s r s') : a.outcome = .success ↔ r = .ok none := by
  have hexception : ∀ {ex}, a.outcome.exception par = some ex → a.outcome ≠ .success := by
    intro ex hex hsuccess
    rw [hsuccess] at hex
    cases hex
  cases h with
  | success h => exact iff_of_true h rfl
  | userException h => exact iff_of_false (by rw [h]; simp) (by simp)
  | retry minor completed h => exact iff_of_false (by rw [h]; simp) (by simp)
  | forwarded obj permanent h => exact iff_of_false (by rw [h]; simp) (by simp)
  | lost hfwd hcreate =>
    refine iff_of_false (fun hsuccess => ?_) (by simp)
    rw [forwardFailed, hsuccess, show (Outcome.success : Outcome ι).failed = false from rfl, Bool.and_false] at hfwd
    cases hfwd
  | refused ex h hanswer hcreate => exact iff_of_false (hexception h) (by simp)
  | nilForward permanent h hanswer => exact iff_of_false (by rw [h]; simp) (by simp)
  | handled ex afterTimeout h hanswer hcreate htime => exact iff_of_false (hexception h) (by simp)

/-- What was done about an exception tells whether the reference was reverted. -/
lemma Report.referenceRight_of_asked (hevents : s.events = []) (q : Question) (answer : Bool) (d : ℕ) (hcreate : OmniObjRef.forwardFailed a s = true → a.creatable = true) :
    (Report.mk a true d s.reference ((s.revertIf (OmniObjRef.forwardFailed a s)).ask q answer).events
      ((s.revertIf (OmniObjRef.forwardFailed a s)).ask q answer).reference).ReferenceRight := by
  have hfailed : ∀ events after, (Report.mk a true d s.reference events after).forwardFailed =
      OmniObjRef.forwardFailed a s := fun _ _ => rfl
  cases hforward : OmniObjRef.forwardFailed a s with
  | false =>
    have hlog : ((s.revertIf false).ask q answer).events = [.asked q.handler s.retries q.asked answer] := by
      simp [Invocation.ask, Invocation.revertIf, hevents]
    rw [hlog]
    refine ⟨?_, by simp, fun _ _ => rfl, by simp⟩
    rw [hfailed, hforward]
    simp
  | true =>
    have hlog : ((s.revertIf true).ask q answer).events = [.reverted, .asked q.handler s.retries q.asked answer] := by
      simp [Invocation.ask, Invocation.revertIf, hevents]
    rw [hlog]
    refine ⟨?_, fun _ => rfl, fun h => absurd (by simp) h, by simp⟩
    rw [hfailed, hforward]
    simp [hcreate hforward]

/-- The events of a pass are those of its catch clause. -/
lemma Finished.referenceRight (h : Finished par a s r s') (hevents : s.events = []) (d : ℕ) :
    (Report.mk a true d s.reference s'.events s'.reference).ReferenceRight := by
  have hnot : ∀ {events : List (Event ι)} {after : Reference ι}, a.outcome.failed = false →
      ¬ ((Report.mk a true d s.reference events after).forwardFailed = true ∧ a.creatable = true) := by
    intro events after hfailed hboth
    have hforward := hboth.1
    rw [Report.forwardFailed, hfailed, Bool.and_false] at hforward
    cases hforward
  cases h with
  | success h =>
    rw [hevents]
    exact ⟨iff_of_false List.not_mem_nil (hnot (by rw [h]; rfl)), by simp, fun _ _ => rfl, by simp⟩
  | userException h =>
    rw [hevents]
    exact ⟨iff_of_false List.not_mem_nil (hnot (by rw [h]; rfl)), by simp, fun _ _ => rfl, by simp⟩
  | retry minor completed h =>
    rw [hevents]
    exact ⟨iff_of_false List.not_mem_nil (hnot (by rw [h]; rfl)), by simp, fun _ _ => rfl, by simp⟩
  | forwarded obj permanent h =>
    simp only [hevents, List.nil_append]
    refine ⟨iff_of_false (by simp) (hnot (by rw [h]; rfl)), by simp, fun _ hall => absurd (by simp) (hall obj), ?_⟩
    intro obj' hobj
    obtain rfl : obj' = obj := by simpa using hobj
    exact ⟨permanent, h, rfl⟩
  | lost hfwd hcreate =>
    rw [hevents]
    exact ⟨iff_of_false List.not_mem_nil (by simp [hcreate]), by simp, fun _ _ => rfl, by simp⟩
  | refused ex h hanswer hcreate => exact Report.referenceRight_of_asked hevents _ _ d hcreate
  | nilForward permanent h hanswer =>
    have hforward : OmniObjRef.forwardFailed a s = false := by
      rw [OmniObjRef.forwardFailed, h]
      exact Bool.and_false _
    have hright := Report.referenceRight_of_asked (a := a) hevents
      (question false ⟨.transient, transientNoUsableProfile, .completedNo⟩) true d (by simp [hforward])
    rw [hforward] at hright
    exact hright
  | handled ex afterTimeout h hanswer hcreate htime =>
    exact Report.referenceRight_of_asked hevents _ _ d hcreate

lemma beginPass_events (s : Invocation ι) (a : Attempt ι) : (beginPass s a).events = [] := by
  rw [beginPass]
  split_ifs
  · rfl
  · rfl

lemma referenceRight (par : OrbParameters) (doAssert : Bool) (s : Invocation ι) (a : Attempt ι) :
    (attempt par doAssert s a).1.ReferenceRight := by
  rcases attempt_cases par doAssert s a with ⟨t, heq⟩ | ⟨r, s', hfinished, heq⟩
  · rw [heq]
    exact ⟨by simp [Report.forwardFailed], by simp, fun _ _ => rfl, by simp⟩
  · rw [heq]
    exact hfinished.referenceRight (beginPass_events s a) _

/-- The exception of a pass was put to the handler that it belongs to. -/
lemma Finished.accounts {ex : SystemException} (h : Finished par a s (.error (.systemException ex)) s')
    (d : ℕ) (after : Reference ι) : (Report.mk a true d s.reference s'.events after).Accounts ex := by
  cases h with
  | lost hfwd hcreate => exact .lost hfwd rfl
  | refused ex h hanswer hcreate =>
    cases hforward : OmniObjRef.forwardFailed a s with
    | false => exact .refused _ (List.mem_append_right _ List.mem_cons_self)
    | true => exact .forwardRefused hforward _ (List.mem_append_right _ List.mem_cons_self)

/-- How a call ends, and what the last attempt was. -/
def EndsRight (last : Option (Report ι)) (ending : Option Ending) : Prop :=
  (ending = some .returned ↔ ∃ r ∈ last, r.dispatched = true ∧ r.attempt.outcome = .success) ∧
    ∀ ex, ending = some (.threw (.systemException ex)) → ∃ r ∈ last, r.Accounts ex

lemma endsRight_of_inl (h : (attempt par doAssert s a).2 = .inl s') :
    EndsRight (some (attempt par doAssert s a).1) none := by
  obtain ⟨requiredRetry, retryAfterTimeout, s1, hfinished, -, hreport⟩ := attempt_inl h
  refine ⟨iff_of_false (by simp) ?_, by simp⟩
  rintro ⟨r, hr, -, hsuccess⟩
  obtain rfl := Option.some.inj hr
  rw [hreport] at hsuccess
  cases hfinished.success_iff.mp hsuccess

lemma endsRight_of_inr {e : Ending} (h : (attempt par doAssert s a).2 = .inr e) :
    EndsRight (some (attempt par doAssert s a).1) (some e) := by
  rcases attempt_cases par doAssert s a with ⟨t, heq⟩ | ⟨r, s', hfinished, heq⟩
  · rw [heq] at h ⊢
    obtain rfl := Sum.inr.inj h
    refine ⟨iff_of_false (by simp) ?_, fun ex _ => ⟨_, rfl, .verification rfl⟩⟩
    rintro ⟨r, hr, hdispatched, -⟩
    obtain rfl := Option.some.inj hr
    cases hdispatched
  · rw [heq] at h ⊢
    match r with
    | .ok (some _) => cases h
    | .ok none =>
      obtain rfl := Sum.inr.inj h
      exact ⟨iff_of_true rfl ⟨_, rfl, rfl, hfinished.success_iff.mpr rfl⟩, by simp⟩
    | .error t =>
      obtain rfl := Sum.inr.inj h
      refine ⟨iff_of_false (by simp) ?_, fun ex hex => ⟨_, rfl, ?_⟩⟩
      · rintro ⟨r, hr, -, hsuccess⟩
        obtain rfl := Option.some.inj hr
        cases hfinished.success_iff.mp hsuccess
      · obtain rfl : t = .systemException ex := by simpa using hex
        exact hfinished.accounts _ _

/-! ### The whole call -/

/-- A call goes right for every sequence of attempts. -/
theorem invoke_right (par : OrbParameters) (doAssert : Bool) (reference : Reference ι) (deadline : ℕ)
    (attempts : List (Attempt ι)) :
    InvokeRight par (invoke par doAssert reference deadline attempts).1
      (invoke par doAssert reference deadline attempts).2 := by
  have hstart : DeadlineSet (⟨reference, 0, 0, deadline, []⟩ : Invocation ι) := fun h => absurd rfl h
  have hkeep : ∀ (s : Invocation ι) (a : Attempt ι) (s' : Invocation ι), DeadlineSet s →
      (attempt par doAssert s a).2 = .inl s' → DeadlineSet s' := fun s a s' h hs => h.attempt hs
  have hends := ending_passes DeadlineSet hkeep (Q := EndsRight) (l := attempts) ⟨by simp, by simp⟩
    (fun s a s' _ h => endsRight_of_inl h) (fun s a e _ h => endsRight_of_inr h) hstart
  refine ⟨hends.1, hends.2, ?_, ?_, ?_⟩
  · intro r hr hdispatched
    obtain ⟨a, rfl⟩ := head?_passes hr
    rcases attempt_cases par doAssert ⟨reference, 0, 0, deadline, []⟩ a with ⟨t, heq⟩ | ⟨r, s', -, heq⟩
    · rw [heq] at hdispatched
      cases hdispatched
    · rw [heq]
      rfl
  · intro x r m r' y heq hne hreset
    have hchain := isChain_passes DeadlineSet hkeep (l := attempts)
      (R := fun r r' => ¬ r.MayReset par → r.deadline ≠ 0 → r'.deadline = r.deadline)
      (fun s a s' a' h hs => deadline_next h hs a') hstart
    rw [show (passes (attempt par doAssert) _ attempts).1 = _ from heq] at hchain
    rw [List.forall_mem_cons] at hreset
    exact eq_of_isChain (fun d => d ≠ 0) hchain hreset.1 hreset.2 hne
  · exact forall_mem_passes DeadlineSet hkeep (fun s a _ => referenceRight par doAssert s a) hstart

/-- A call through a forwarded reference that fails with COMM_FAILURE. The caller gets that exception
although only the handler for TRANSIENT was asked, and not about it. -/
theorem forwarded_failures :
    let failure : SystemException := ⟨.commFailure, commFailureWaitingForReply, .completedMaybe⟩
    let call := invoke ⟨false, false, false⟩ false (⟨⟨0, 1⟩, true⟩ : Reference ℕ) 0
      [⟨none, ⟨0, 0, false, none, 0⟩, id, .systemException failure, true, false⟩]
    call.2 = some (.threw (.systemException failure)) ∧
      ∀ report ∈ call.1, ∀ handler nretries answer,
        Event.asked handler nretries failure answer ∉ report.events := by
  refine ⟨rfl, ?_⟩
  rintro report hreport handler nretries answer hasked
  obtain rfl := List.mem_singleton.mp hreport
  rcases List.mem_cons.mp hasked with heq | hlast
  · cases heq
  · cases List.mem_singleton.mp hlast

end OmniORB.OmniObjRef
