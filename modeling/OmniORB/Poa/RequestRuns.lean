import OmniORB.Poa.RequestCounts

/-!
# Runs of requests

The counters of a POA over whole runs, who is woken, and when everybody gets to an end.
-/

namespace OmniORB

open Library

namespace PoaRequests

variable {strict : Prop} {par : RequestParameters} {s : PoaRequests}

lemma sound_false (h : ReachedBy (step par) (fun _ _ => True) init s) : Sound False s :=
  h.invariant sound_init fun _ _ _ hsound _ hs => hsound.step False.elim hs

/-- A thread that has finished, or waits for others, has nothing to give back. -/
lemma Sound.inThis_eq_zero (h : Sound strict s) {x : RequestThread} (hx : x ∈ s.threads)
    (hidle : x.stage = .finished ∨ ∃ w signalled, x.stage = .waiting w signalled) :
    x.inThis = 0 ∧ hooked x.hook = 0 := by
  have hfits := h.fits x hx
  have hhook : hooked x.hook = 0 := by
    refine if_neg fun htrue => ?_
    rw [htrue] at hfits
    obtain hstage | ⟨w, signalled, hstage⟩ := hidle <;> rw [hstage] at hfits <;> cases hfits
  refine ⟨?_, hhook⟩
  rw [RequestThread.inThis, hhook]
  obtain hstage | ⟨w, signalled, hstage⟩ := hidle
  · rw [hstage]
    rfl
  · rw [hstage]
    rfl

lemma Sound.counters_eq_zero (h : Sound strict s) (hidle : ∀ x ∈ s.threads,
    x.stage = .finished ∨ ∃ w signalled, x.stage = .waiting w signalled) :
    s.nReqInThis = 0 ∧ s.nReqActive = 0 := by
  have hsum (f : RequestThread → ℕ) (hf : ∀ x, f x ≤ x.inThis) : (s.threads.map f).sum = 0 := by
    rw [List.sum_eq_zero_iff]
    intro n hn
    obtain ⟨x, hx, rfl⟩ := List.mem_map.mp hn
    have hzero := (h.inThis_eq_zero hx (hidle x hx)).1
    exact Nat.le_zero.mp (hzero ▸ hf x)
  rw [h.inThis, h.active, hsum _ fun x => Nat.le_refl _, hsum _ RequestThread.active_le_inThis]
  exact ⟨rfl, rfl⟩

/-! ### A run -/

/-- A POA with a servant locator. -/
def locatorPoa : RequestParameters where
  policy := ⟨⟨true, true⟩, true, false, .servantManager, false⟩
  poaUniquePersistentSystemIds := false
  poaHoldRequestTimeout := 0
  throwTransientOnTimeOut := false
  copyValuesInLocalCalls := false

/-- A servant and `postinvoke` raise exceptions, while a thread waits for the requests. -/
def locatorRun : List RequestAction :=
  [.setServants false false true, .call (.changeState .active), .run 0 {}, .run 0 {},
    .call (.dispatchKey 3), .run 1 {}, .run 1 {}, .call (.waitFor .all), .run 2 {}, .run 1 {},
    .run 1 {}, .run 1 { upcall := .raised }, .run 1 { postinvokeRaises := true }]

def afterRun (par : RequestParameters) (l : List RequestAction) : PoaRequests :=
  (execute (step par) init l).getD init

lemma reached_of_isSome {ok : PoaRequests → RequestAction → Prop} {l : List RequestAction}
    (hok : AllOk (step par) ok init l) (h : (execute (step par) init l).isSome = true) :
    ReachedBy (step par) ok init (afterRun par l) := by
  obtain ⟨s, hs⟩ := Option.isSome_iff_exists.mp h
  rw [afterRun, hs]
  exact ReachedBy.start.execute hok hs

lemma reached_locatorRun :
    ReachedBy (step locatorPoa) (fun _ _ => True) init (afterRun locatorPoa locatorRun) :=
  reached_of_isSome (.of_forall (fun _ _ => trivial) _ _) (by decide)

/-- Then the POA is destroyed, and all threads come to their end. -/
def destroyedRun : List RequestAction :=
  locatorRun ++ [.call .destroy, .run 3 {}, .run 3 {}, .run 3 {}, .run 1 {}, .run 1 {}, .run 2 {},
    .run 3 {}]

lemma isSome_destroyedRun : (execute (step locatorPoa) init destroyedRun).isSome = true := by
  decide

lemma reached_destroyedRun :
    ReachedBy (step locatorPoa) (fun _ _ => True) init (afterRun locatorPoa destroyedRun) :=
  reached_of_isSome (.of_forall (fun _ _ => trivial) _ _) isSome_destroyedRun


/-! ### What holds over all runs -/

/-- Whatever the threads do, no assertion fails and the counters of the POA are the numbers of the
requests in it and of those that are in progress. -/
theorem counters_exact (h : ReachedBy (step par) (fun _ _ => True) init s) :
    s.failed = false ∧
    s.nReqInThis = (s.threads.map RequestThread.inThis).sum ∧
    s.nReqActive = (s.threads.map RequestThread.active).sum ∧
    ((∀ x ∈ s.threads, x.stage = .finished ∨ ∃ w signalled, x.stage = .waiting w signalled) →
      s.nReqInThis = 0 ∧ s.nReqActive = 0) := by
  have hs := sound_false h
  exact ⟨hs.failed, hs.inThis, hs.active, hs.counters_eq_zero⟩

theorem counters_exact_locator :
    let s := afterRun locatorPoa locatorRun
    s.failed = false ∧
    s.nReqInThis = (s.threads.map RequestThread.inThis).sum ∧
    s.nReqActive = (s.threads.map RequestThread.active).sum ∧
    ((∀ x ∈ s.threads, x.stage = .finished ∨ ∃ w signalled, x.stage = .waiting w signalled) →
      s.nReqInThis = 0 ∧ s.nReqActive = 0) :=
  counters_exact reached_locatorRun

/-- Whatever becomes of a request, when it has ended, it has left the POA as often as it entered,
has ended as often as it started, and has called `postinvoke` once for each servant of
`preinvoke`. -/
theorem finished_requests_balance (h : ReachedBy (step par) (fun _ _ => True) init s) {t : ℕ}
    (ht : t < s.threads.length) (hend : (s.thread t).stage = .finished) :
    s.calls.count (t, .enterAdapter) =
      s.calls.count (t, .leaveAdapter) + s.calls.count (t, .exitAdapter) ∧
    s.calls.count (t, .startRequest) = s.calls.count (t, .leaveAdapter) ∧
    s.calls.count (t, .preinvoke) = s.calls.count (t, .postinvoke) := by
  have hs := sound_false h
  have hmem : s.thread t ∈ s.threads := by
    rw [thread, List.getD_eq_getElem _ _ ht]
    exact List.getElem_mem ht
  obtain ⟨hin, hhook⟩ := hs.inThis_eq_zero hmem (.inl hend)
  have hactive : (s.thread t).active = 0 := by
    rw [RequestThread.active, hend]
    rfl
  obtain ⟨hn, ha, hp⟩ := hs.tally t
  rw [hin] at hn
  rw [hactive] at ha
  rw [hhook] at hp
  exact ⟨hn, ha, hp⟩

theorem finished_requests_balance_destroyed :
    let s := afterRun locatorPoa destroyedRun
    s.calls.count (1, .enterAdapter) =
      s.calls.count (1, .leaveAdapter) + s.calls.count (1, .exitAdapter) ∧
    s.calls.count (1, .startRequest) = s.calls.count (1, .leaveAdapter) ∧
    s.calls.count (1, .preinvoke) = s.calls.count (1, .postinvoke) :=
  finished_requests_balance reached_destroyedRun (by decide) (by decide)

/-- No wake-up is lost: as long as a thread that waits for requests was not signalled, there are
still such requests, or a thread is just about to broadcast. -/
theorem waiting_threads_signalled (h : ReachedBy (step par) (fun _ _ => True) init s) :
    s.signalOnZeroInvocations = (s.threads.map RequestThread.waits).sum ∧
    ∀ x ∈ s.threads, ∀ w, x.stage = .waiting w false →
      0 < s.awaited w ∨ ∃ y ∈ s.threads, y.signals = true := by
  have hs := sound_false h
  have hnonneg (w : RequestWait) : 0 ≤ s.awaited w := by
    cases w with
    | all => exact (Int.natCast_nonneg _).trans hs.inThis.ge
    | active => exact (Int.natCast_nonneg _).trans hs.active.ge
    | activeOrChange state => exact (Int.natCast_nonneg _).trans hs.active.ge
  refine ⟨hs.waits, fun x hx w hw => ?_⟩
  exact (hs.waiting x hx w hw).imp_left fun hne => lt_of_le_of_ne (hnonneg w) hne.symm

theorem waiting_threads_signalled_locator :
    let s := afterRun locatorPoa locatorRun
    s.signalOnZeroInvocations = (s.threads.map RequestThread.waits).sum ∧
    ∀ x ∈ s.threads, ∀ w, x.stage = .waiting w false →
      0 < s.awaited w ∨ ∃ y ∈ s.threads, y.signals = true :=
  waiting_threads_signalled reached_locatorRun


instance (s : PoaRequests) : DecidablePred (NotDestroyedHolding s)
  | .run t _ => inferInstanceAs
    (Decidable ((s.thread t).stage = .doDestroy → (s.thread t).signals = false →
      s.rqState ≠ .holding))
  | .call _ => isTrue trivial
  | .setServants .. => isTrue trivial

-- Between `destroy` and `do_destroy` the manager may hold the requests: then a request that came in
-- is held, and `do_destroy` waits for it.
example :
    let s := afterRun locatorPoa [.call .destroy, .run 0 {}, .run 0 {}, .run 0 {},
      .call (.changeState .holding), .run 1 {}, .run 1 {}, .call .dispatchHandle, .run 2 {},
      .run 0 {}]
    s.rqState = .inactive ∧
      s.threads.map (·.stage) = [.waiting .all false, .finished, .holding true false] := by
  decide

end PoaRequests

end OmniORB
