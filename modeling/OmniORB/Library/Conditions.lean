import OmniORB.Library.Slots

/-!
# Condition variables and counted locks

Threads that wait to be woken, each for some purpose, and locks with one counter that tells both
whether the lock is held and how many threads wait.
-/

namespace OmniORB.Library

/-! ### Threads that wait -/

/-- What has become of a wait. A thread that was signalled, or whose time was over first, goes on as soon
as it gets the mutex. -/
inductive WaitStatus where
  | blocked
  | signalled
  | expired
  deriving DecidableEq, Repr

structure Waiter (κ : Type*) where
  purpose : κ
  status : WaitStatus
  deriving DecidableEq, Repr

variable {κ ι : Type*} {p q : κ → Bool} {k : κ} {t pick : ℕ}
variable {x y : Option (Waiter κ)} {threads threads' : List (Option (Waiter κ))}

/-- The thread waits for such a purpose. One that does not wait is none. -/
def waitsFor (p : κ → Bool) : Option (Waiter κ) → Bool
  | some w => p w.purpose
  | none => false

def blockedFor (p : κ → Bool) : Option (Waiter κ) → Bool
  | some w => p w.purpose && w.status = .blocked
  | none => false

/-- Wake the thread if it is blocked for such a purpose. -/
def wakeIf (p : κ → Bool) : Option (Waiter κ) → Option (Waiter κ)
  | some w => if p w.purpose && w.status = .blocked then some ⟨w.purpose, .signalled⟩ else some w
  | none => none

/-- All threads that wait for such a purpose are woken. -/
def broadcast (p : κ → Bool) (threads : List (Option (Waiter κ))) : List (Option (Waiter κ)) :=
  threads.map (wakeIf p)

/-- One of the threads that wait for such a purpose is woken, if there are any: the thread `pick`. -/
def signal (p : κ → Bool) (threads : List (Option (Waiter κ))) (pick : ℕ) : Option (List (Option (Waiter κ))) :=
  if blockedFor p (threads.getD pick none) then some (threads.set pick (wakeIf p (threads.getD pick none)))
  else if threads.any (blockedFor p) then none
  else some threads

lemma blockedFor_iff : blockedFor p x = true ↔ ∃ k, p k = true ∧ x = some ⟨k, .blocked⟩ := by
  constructor
  · intro h
    rcases x with _ | ⟨k, status⟩
    · cases h
    · obtain ⟨hp, hs⟩ := Bool.and_eq_true_iff.mp h
      obtain rfl := of_decide_eq_true hs
      exact ⟨k, hp, rfl⟩
  · rintro ⟨k, hp, rfl⟩
    simp [blockedFor, hp]

lemma ne_none_of_waiter {w : Waiter κ} (h : threads.getD t none = some w) : threads.getD t none ≠ none := by
  rw [h]
  exact Option.some_ne_none w

lemma wakeIf_of_blocked (hp : p k = true) :
    wakeIf p (some ⟨k, .blocked⟩) = some ⟨k, .signalled⟩ := by
  simp [wakeIf, hp]

/-- Some threads that were blocked are not so any longer, and the others are as they were. -/
structure Stirred (threads threads' : List (Option (Waiter κ))) : Prop where
  each : ∀ t, threads'.getD t none = threads.getD t none ∨
    ∃ k status, threads.getD t none = some ⟨k, .blocked⟩ ∧ status ≠ .blocked ∧
      threads'.getD t none = some ⟨k, status⟩
  count : ∀ q, threads'.countP (waitsFor q) = threads.countP (waitsFor q)

namespace Stirred

lemma refl (threads : List (Option (Waiter κ))) : Stirred threads threads :=
  ⟨fun _ => .inl rfl, fun _ => rfl⟩

/-- One thread is blocked no longer. -/
lemma set {status : WaitStatus} (h : threads.getD t none = some ⟨k, .blocked⟩) (hs : status ≠ .blocked) :
    Stirred threads (threads.set t (some ⟨k, status⟩)) := by
  have hm : MovesTo none threads (threads.set t (some ⟨k, status⟩)) t (some ⟨k, status⟩) :=
    movesTo_set (ne_none_of_waiter h) _
  refine ⟨fun u => ?_, fun q => ?_⟩
  · rcases eq_or_ne u t with rfl | hu
    · exact .inr ⟨k, status, h, hs, hm.self⟩
    · exact .inl (hm.others u hu)
  · have hcount := hm.count (waitsFor q) rfl
    rw [h] at hcount
    exact Nat.add_right_cancel hcount

lemma broadcast (p : κ → Bool) (threads : List (Option (Waiter κ))) :
    Stirred threads (Library.broadcast p threads) := by
  refine ⟨fun t => ?_, fun q => ?_⟩
  · rw [Library.broadcast, List.getD_eq_getElem?_getD, List.getD_eq_getElem?_getD, List.getElem?_map]
    rcases threads[t]? with _ | _ | ⟨k, status⟩
    · exact .inl rfl
    · exact .inl rfl
    · by_cases hw : (p k && status = .blocked) = true
      · obtain ⟨hp, hstatus⟩ := Bool.and_eq_true_iff.mp hw
        obtain rfl := of_decide_eq_true hstatus
        exact .inr ⟨k, .signalled, rfl, by simp, wakeIf_of_blocked hp⟩
      · exact .inl (if_neg hw)
  · rw [Library.broadcast, List.countP_map]
    refine List.countP_congr fun x _ => ?_
    rcases x with _ | w
    · exact Iff.rfl
    · rw [Function.comp_apply, wakeIf]
      split_ifs
      · exact Iff.rfl
      · exact Iff.rfl

lemma blocked (h : Stirred threads threads') (ht : threads'.getD t none = some ⟨k, .blocked⟩) :
    threads.getD t none = some ⟨k, .blocked⟩ := by
  rcases h.each t with heq | ⟨k', status, -, hs, heq⟩
  · exact heq ▸ ht
  · obtain ⟨rfl, rfl⟩ : k' = k ∧ status = .blocked := by simpa using heq.symm.trans ht
    exact absurd rfl hs

lemma not_blocked {w : Waiter κ} (h : Stirred threads threads') (ht : threads.getD t none = some w)
    (hw : w.status ≠ .blocked) : threads'.getD t none = some w := by
  rcases h.each t with heq | ⟨k', status, hold, -, -⟩
  · exact heq.trans ht
  · obtain rfl := Option.some.inj (ht.symm.trans hold)
    exact absurd rfl hw

end Stirred

lemma getD_broadcast (p : κ → Bool) (threads : List (Option (Waiter κ))) (t : ℕ) :
    (broadcast p threads).getD t none = wakeIf p (threads.getD t none) := by
  rw [broadcast, List.getD_eq_getElem?_getD, List.getD_eq_getElem?_getD, List.getElem?_map]
  rcases threads[t]? with _ | x
  · rfl
  · rfl

/-- After a broadcast nobody is blocked. -/
lemma not_blocked_broadcast (hp : p k = true) :
    (broadcast p threads).getD t none ≠ some ⟨k, .blocked⟩ := by
  rw [getD_broadcast]
  rcases threads.getD t none with _ | w
  · exact Option.some_ne_none _ ∘ Eq.symm
  · intro h
    rw [wakeIf] at h
    split_ifs at h with hw
    · cases h
    · obtain rfl := Option.some.inj h
      exact hw (by simp [hp])

/-- What a signal does: it wakes one thread, unless none is blocked. -/
lemma signal_cases (h : signal p threads pick = some threads') :
    Stirred threads threads' ∧
      ((∃ k, p k = true ∧ threads.getD pick none = some ⟨k, .blocked⟩ ∧
          threads'.getD pick none = some ⟨k, .signalled⟩) ∨
        ∀ t k, p k = true → threads.getD t none ≠ some ⟨k, .blocked⟩) := by
  rw [signal] at h
  split_ifs at h with hpick hany
  · obtain ⟨k, hp, hk⟩ := blockedFor_iff.mp hpick
    obtain rfl := Option.some.inj h
    have hwake : wakeIf p (threads.getD pick none) = some ⟨k, .signalled⟩ := by
      rw [hk]
      exact wakeIf_of_blocked hp
    have hm : MovesTo none threads (threads.set pick (some ⟨k, .signalled⟩)) pick (some ⟨k, .signalled⟩) :=
      movesTo_set (ne_none_of_waiter hk) _
    rw [hwake]
    exact ⟨.set hk (by simp), .inl ⟨k, hp, hk, hm.self⟩⟩
  · obtain rfl := Option.some.inj h
    refine ⟨.refl _, .inr fun t k hp ht => hany (List.any_eq_true.mpr ⟨_, ?_, blockedFor_iff.mpr ⟨k, hp, rfl⟩⟩)⟩
    have hlt : t < threads.length := lt_length_of_getD (ne_none_of_waiter ht)
    rw [List.getD_eq_getElem _ _ hlt] at ht
    exact ht ▸ List.getElem_mem hlt

/-- While the lock is free, which the counter tells, and a thread is blocked that waits for it, there is a
signalled thread that wants it. -/
def Attended (n : ℤ) (waits wants : κ → Prop) (threads : List (Option (Waiter κ))) : Prop :=
  ¬ n < 0 → (∃ t k, waits k ∧ threads.getD t none = some ⟨k, .blocked⟩) →
    ∃ t k, wants k ∧ threads.getD t none = some ⟨k, .signalled⟩

namespace Attended

variable {n m : ℤ} {waits wants wants' : κ → Prop}

lemma of_held (h : n < 0) : Attended n waits wants threads := fun hn => absurd h hn

lemma stir (h : Attended n waits wants threads) (hs : Stirred threads threads')
    (hwants : ∀ k, wants k → wants' k) : Attended n waits wants' threads' := by
  rintro hn ⟨t, k, hk, ht⟩
  obtain ⟨u, k', hk', hu⟩ := h hn ⟨t, k, hk, hs.blocked ht⟩
  exact ⟨u, k', hwants k' hk', hs.not_blocked hu (by simp)⟩

/-- A thread that did not want the lock, or was not signalled, does something other than wait for it. -/
lemma move (h : Attended n waits wants threads) (hm : MovesTo none threads threads' t x)
    (hn : ¬ m < 0 → ¬ n < 0) (hwants : ∀ k, wants k → wants' k)
    (hx : ∀ k, waits k → x ≠ some ⟨k, .blocked⟩)
    (ht : ¬ m < 0 → ∀ k, wants k → threads.getD t none ≠ some ⟨k, .signalled⟩) :
    Attended m waits wants' threads' := by
  rintro hfree ⟨u, k, hk, hu⟩
  have hut : u ≠ t := by
    rintro rfl
    exact hx k hk (hm.self.symm.trans hu)
  rw [hm.others u hut] at hu
  obtain ⟨v, k', hk', hv⟩ := h (hn hfree) ⟨u, k, hk, hu⟩
  have hvt : v ≠ t := by
    rintro rfl
    exact ht hfree k' hk' hv
  exact ⟨v, k', hwants k' hk', (hm.others v hvt).trans hv⟩

lemma of_broadcast (hp : ∀ k, waits k → p k = true) : Attended n waits wants (broadcast p threads) := by
  rintro - ⟨t, k, hk, ht⟩
  exact absurd ht (not_blocked_broadcast (hp k hk))

lemma of_signal (hs : signal p threads pick = some threads') (hp : ∀ k, waits k → p k = true)
    (hwants : ∀ k, p k = true → threads.getD pick none = some ⟨k, .blocked⟩ → wants k) :
    Attended n waits wants threads' := by
  obtain ⟨hstir, ⟨k, hk, hpick, hwoken⟩ | hnone⟩ := signal_cases hs
  · exact fun _ _ => ⟨pick, k, hwants k hk hpick, hwoken⟩
  · rintro - ⟨t, k, hk, ht⟩
    exact absurd (hstir.blocked ht) (hnone t k (hp k hk))

end Attended

/-! ### Counted locks -/

/-- The number of threads that wait, in a counter that is `-n - 1` while the lock is held. -/
def waitingIn (n : ℤ) : ℤ := if n < 0 then -n - 1 else n

/-- The counter after one more thread has begun to wait. -/
def arrive (n : ℤ) : ℤ := if n < 0 then n - 1 else n + 1

/-- The counter after one thread has ceased to wait. -/
def leave (n : ℤ) : ℤ := if n ≥ 0 then n - 1 else n + 1

variable {n : ℤ}

lemma waitingIn_of_neg (hn : n < 0) : waitingIn n = -n - 1 := if_pos hn

lemma waitingIn_of_nonneg (hn : 0 ≤ n) : waitingIn n = n := if_neg (not_lt.mpr hn)

lemma waitingIn_turn (n : ℤ) : waitingIn (-n - 1) = waitingIn n := by
  rcases lt_or_ge n 0 with hn | hn
  · rw [waitingIn_of_neg hn, waitingIn_of_nonneg (by omega)]
  · rw [waitingIn_of_nonneg hn, waitingIn_of_neg (by omega)]
    ring

lemma arrive_neg : arrive n < 0 ↔ n < 0 := by
  rcases lt_or_ge n 0 with hn | hn
  · rw [arrive, if_pos hn]
    omega
  · rw [arrive, if_neg (not_lt.mpr hn)]
    omega

lemma waitingIn_arrive (n : ℤ) : waitingIn (arrive n) = waitingIn n + 1 := by
  rcases lt_or_ge n 0 with hn | hn
  · rw [waitingIn_of_neg (arrive_neg.mpr hn), waitingIn_of_neg hn, arrive, if_pos hn]
    ring
  · have harrive : 0 ≤ arrive n := not_lt.mp fun h => absurd (arrive_neg.mp h) (not_lt.mpr hn)
    rw [waitingIn_of_nonneg harrive, waitingIn_of_nonneg hn, arrive, if_neg (not_lt.mpr hn)]

lemma leave_neg (h : 0 < waitingIn n) : leave n < 0 ↔ n < 0 := by
  rcases lt_or_ge n 0 with hn | hn
  · rw [waitingIn_of_neg hn] at h
    rw [leave, if_neg (not_le.mpr hn)]
    omega
  · rw [waitingIn_of_nonneg hn] at h
    rw [leave, if_pos hn]
    omega

lemma waitingIn_leave (h : 0 < waitingIn n) : waitingIn (leave n) = waitingIn n - 1 := by
  rcases lt_or_ge n 0 with hn | hn
  · rw [waitingIn_of_neg ((leave_neg h).mpr hn), waitingIn_of_neg hn, leave, if_neg (not_le.mpr hn)]
    ring
  · have hleave : 0 ≤ leave n := not_lt.mp fun hl => absurd ((leave_neg h).mp hl) (not_lt.mpr hn)
    rw [waitingIn_of_nonneg hleave, waitingIn_of_nonneg hn, leave, if_pos hn]

/-- The counter tells whether anyone holds the lock, and only one does at a time. -/
structure OneHolder (n : ℤ) (holds : ι → Prop) : Prop where
  one : ∀ i j, holds i → holds j → i = j
  held : n < 0 ↔ ∃ i, holds i

namespace OneHolder

variable {holds holds' : ι → Prop} {i : ι} {m : ℤ}

lemma congr (h : OneHolder n holds) (hn : m < 0 ↔ n < 0) : OneHolder m holds :=
  ⟨h.one, hn.trans h.held⟩

lemma take (h : OneHolder n holds) (hn : ¬ n < 0) (hi : ∀ j, holds' j ↔ j = i ∨ holds j) :
    OneHolder (-n - 1) holds' := by
  have hnone : ∀ j, ¬ holds j := fun j hj => hn (h.held.mpr ⟨j, hj⟩)
  have honly : ∀ j, holds' j ↔ j = i := fun j => (hi j).trans (or_iff_left (hnone j))
  refine ⟨fun j j' hj hj' => ?_, ?_⟩
  · exact ((honly j).mp hj).trans ((honly j').mp hj').symm
  · exact iff_of_true (by omega) ⟨i, (honly i).mpr rfl⟩

lemma release (h : OneHolder n holds) (hi : holds i) (hrest : ∀ j, holds' j ↔ j ≠ i ∧ holds j) :
    OneHolder (-n - 1) holds' := by
  have hnone : ∀ j, ¬ holds' j := fun j hj => ((hrest j).mp hj).1 (h.one j i ((hrest j).mp hj).2 hi)
  have hn := h.held.mpr ⟨i, hi⟩
  refine ⟨fun j _ hj => absurd hj (hnone j), ?_⟩
  exact iff_of_false (by omega) fun ⟨j, hj⟩ => hnone j hj

/-- The one that holds the lock gives it to another. -/
lemma pass {j : ι} (h : OneHolder n holds) (hi : holds i) (hj : ∀ a, holds' a ↔ a = j ∨ a ≠ i ∧ holds a) :
    OneHolder n holds' := by
  have honly : ∀ a, holds' a ↔ a = j := fun a =>
    (hj a).trans (or_iff_left fun ha => ha.1 (h.one a i ha.2 hi))
  refine ⟨fun a b ha hb => ((honly a).mp ha).trans ((honly b).mp hb).symm, ?_⟩
  exact iff_of_true (h.held.mpr ⟨i, hi⟩) ⟨j, (honly j).mpr rfl⟩

end OneHolder

end OmniORB.Library
