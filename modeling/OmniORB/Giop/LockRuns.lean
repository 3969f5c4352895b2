import OmniORB.Giop.Locks

/-!
# The locks of a strand in every run

However the threads of a strand are interleaved, each of its locks has one holder at most, the counters
tell who holds them and how many threads wait, and no thread is left behind at a lock that is free.
-/

namespace OmniORB

open Library

namespace StrandLocks

variable {s s1 s' : StrandLocks} {t g fresh pick : ℕ} {w : LockWait} {status : WaitStatus}

/-! ### What threads that sleep on the read lock wait for -/

/-- The thread takes the read lock if it finds it free: what it needs it for has not come otherwise. -/
def NeedsLock (s : StrandLocks) : LockWait → Prop
  | .rdLock _ => True
  | .sleepOnRdLock g => (s.streams g).inputFullyBuffered = false
  | .sleepOnRdLockAlways _ => False
  | .acquireServer => s.firstServer .inputFullyBuffered = none
  | .wrLock _ => False

/-- No message has been completed. -/
structure Quiet (s s' : StrandLocks) : Prop where
  buffered : ∀ g, (s'.streams g).inputFullyBuffered = true → (s.streams g).inputFullyBuffered = true
  servers : ∀ g ∈ s'.servers, (s'.streams g).state = .inputFullyBuffered →
    g ∈ s.servers ∧ (s.streams g).state = .inputFullyBuffered

lemma firstServer_eq_none {state : ServerState} :
    s.firstServer state = none ↔ ∀ g ∈ s.servers, (s.streams g).state ≠ state := by
  rw [firstServer, List.find?_eq_none]
  simp only [decide_eq_true_eq]

lemma NeedsLock.quiet (h : s.NeedsLock w) (hq : Quiet s s') : s'.NeedsLock w := by
  cases w with
  | rdLock g => trivial
  | sleepOnRdLock g =>
    refine Bool.eq_false_iff.mpr fun hg => ?_
    rw [NeedsLock, Bool.eq_false_iff] at h
    exact h (hq.buffered g hg)
  | sleepOnRdLockAlways g => exact h
  | acquireServer =>
    refine firstServer_eq_none.mpr fun g hg hstate => ?_
    obtain ⟨hold, hfull⟩ := hq.servers g hg hstate
    exact firstServer_eq_none.mp h g hold hfull
  | wrLock g => exact h

lemma Quiet.refl (s : StrandLocks) : Quiet s s := ⟨fun _ h => h, fun _ h hs => ⟨h, hs⟩⟩

lemma Quiet.trans {s'' : StrandLocks} (h : Quiet s s') (h' : Quiet s' s'') : Quiet s s'' := by
  refine ⟨fun g hg => h.buffered g (h'.buffered g hg), fun g hg hstate => ?_⟩
  obtain ⟨hg', hstate'⟩ := h'.servers g hg hstate
  exact h.servers g hg' hstate'

lemma quiet_setStream (s : StrandLocks) {x : LockedStream}
    (hbuffered : x.inputFullyBuffered = true → (s.streams g).inputFullyBuffered = true)
    (hstate : x.state = .inputFullyBuffered → (s.streams g).state = .inputFullyBuffered) :
    Quiet s (s.setStream g x) := by
  refine ⟨fun h hh => ?_, fun h hh hs => ⟨hh, ?_⟩⟩
  · rcases eq_or_ne h g with rfl | hne
    · exact hbuffered (by simpa [setStream] using hh)
    · simpa [setStream, hne] using hh
  · rcases eq_or_ne h g with rfl | hne
    · exact hstate (by simpa [setStream] using hs)
    · simpa [setStream, hne] using hs

/-! ### The invariant -/

/-- The counters are right, and each lock has one holder at most. -/
structure Counted (s : StrandLocks) : Prop where
  assertions : s.assertionFailed = false
  rd : OneHolder s.rdNwaiting fun g => (s.streams g).rdlocked = true
  wr : OneHolder s.wrNwaiting fun g => (s.streams g).wrlocked = true
  rdWaiting : waitingIn s.rdNwaiting = s.threads.countP (waitsFor LockWait.onRdcond)
  justWaiting : s.rdNJustwaiting = s.threads.countP (waitsFor LockWait.justWaits)
  wrWaiting : waitingIn s.wrNwaiting = s.threads.countP (waitsFor LockWait.onWrcond)
  asleep : ∀ t w, s.threads.getD t none = some ⟨w, .blocked⟩ → w.onRdcond = true → w.justWaits = false →
    s.NeedsLock w

def IsRdLock (w : LockWait) : Prop := ∃ g, w = .rdLock g
def IsWrLock (w : LockWait) : Prop := ∃ g, w = .wrLock g

structure LocksOk (s : StrandLocks) : Prop extends Counted s where
  rdAttended : Attended s.rdNwaiting IsRdLock s.NeedsLock s.threads
  wrAttended : Attended s.wrNwaiting IsWrLock IsWrLock s.threads

/-- Neither the locks nor the threads have changed, and no message has been completed. -/
structure Frame (s s' : StrandLocks) : Prop extends Quiet s s' where
  assertions : s'.assertionFailed = s.assertionFailed
  rdNwaiting : s'.rdNwaiting = s.rdNwaiting
  rdNJustwaiting : s'.rdNJustwaiting = s.rdNJustwaiting
  wrNwaiting : s'.wrNwaiting = s.wrNwaiting
  threads : s'.threads = s.threads
  rdlocked : ∀ g, (s'.streams g).rdlocked = (s.streams g).rdlocked
  wrlocked : ∀ g, (s'.streams g).wrlocked = (s.streams g).wrlocked

lemma Frame.refl (s : StrandLocks) : Frame s s := ⟨.refl s, rfl, rfl, rfl, rfl, rfl, fun _ => rfl, fun _ => rfl⟩

lemma frame_dying (s : StrandLocks) : Frame s { s with dying := true } :=
  ⟨⟨fun _ h => h, fun _ h hs => ⟨h, hs⟩⟩, rfl, rfl, rfl, rfl, rfl, fun _ => rfl, fun _ => rfl⟩

lemma Frame.setStream (s : StrandLocks) {x : LockedStream} (hrd : x.rdlocked = (s.streams g).rdlocked)
    (hwr : x.wrlocked = (s.streams g).wrlocked)
    (hbuffered : x.inputFullyBuffered = true → (s.streams g).inputFullyBuffered = true)
    (hstate : x.state = .inputFullyBuffered → (s.streams g).state = .inputFullyBuffered) :
    Frame s (s.setStream g x) := by
  refine ⟨quiet_setStream s hbuffered hstate, rfl, rfl, rfl, rfl, rfl, fun h => ?_, fun h => ?_⟩
  · rcases eq_or_ne h g with rfl | hne
    · simpa [StrandLocks.setStream] using hrd
    · simp [StrandLocks.setStream, hne]
  · rcases eq_or_ne h g with rfl | hne
    · simpa [StrandLocks.setStream] using hwr
    · simp [StrandLocks.setStream, hne]

lemma Counted.frame (h : Counted s) (hf : Frame s s') : Counted s' where
  assertions := hf.assertions.trans h.assertions
  rd := by
    simp only [hf.rdNwaiting, hf.rdlocked]
    exact h.rd
  wr := by
    simp only [hf.wrNwaiting, hf.wrlocked]
    exact h.wr
  rdWaiting := by
    rw [hf.rdNwaiting, hf.threads]
    exact h.rdWaiting
  justWaiting := by
    rw [hf.rdNJustwaiting, hf.threads]
    exact h.justWaiting
  wrWaiting := by
    rw [hf.wrNwaiting, hf.threads]
    exact h.wrWaiting
  asleep := fun t w ht hw hj => (h.asleep t w (hf.threads ▸ ht) hw hj).quiet hf.toQuiet

lemma LocksOk.frame (h : LocksOk s) (hf : Frame s s') : LocksOk s' := by
  refine ⟨h.toCounted.frame hf, ?_, ?_⟩
  · rw [hf.rdNwaiting, hf.threads]
    exact h.rdAttended.stir (.refl _) fun w hw => hw.quiet hf.toQuiet
  · rw [hf.wrNwaiting, hf.threads]
    exact h.wrAttended

lemma Counted.stir {threads : List (Option (Waiter LockWait))} (h : Counted s) (hs : Stirred s.threads threads) :
    Counted { s with threads } where
  assertions := h.assertions
  rd := h.rd
  wr := h.wr
  rdWaiting := h.rdWaiting.trans (congrArg _ (hs.count _).symm)
  justWaiting := h.justWaiting.trans (congrArg _ (hs.count _).symm)
  wrWaiting := h.wrWaiting.trans (congrArg _ (hs.count _).symm)
  asleep := fun t w ht => h.asleep t w (hs.blocked ht)

lemma LocksOk.stir {threads : List (Option (Waiter LockWait))} (h : LocksOk s) (hs : Stirred s.threads threads) :
    LocksOk { s with threads } :=
  ⟨h.toCounted.stir hs, h.rdAttended.stir hs fun _ hw => hw, h.wrAttended.stir hs fun _ hw => hw⟩

lemma LocksOk.wakeUpRdLock (h : LocksOk s) : LocksOk s.wakeUpRdLock := h.stir (.broadcast _ _)

/-! ### Locks that are taken -/

lemma quiet_takeRd (s : StrandLocks) (g : ℕ) : Quiet s (s.takeRd g) := by
  have h := quiet_setStream s (g := g) (x := { s.streams g with rdlocked := true }) (fun h => h) fun h => h
  exact ⟨h.buffered, h.servers⟩

lemma quiet_takeWr (s : StrandLocks) (g : ℕ) : Quiet s (s.takeWr g) := by
  have h := quiet_setStream s (g := g) (x := { s.streams g with wrlocked := true }) (fun h => h) fun h => h
  exact ⟨h.buffered, h.servers⟩

lemma rdlocked_takeRd (s : StrandLocks) (g h : ℕ) :
    ((s.takeRd g).streams h).rdlocked = true ↔ h = g ∨ (s.streams h).rdlocked = true := by
  rcases eq_or_ne h g with rfl | hne
  · simp [takeRd, setStream]
  · simp [takeRd, setStream, hne]

lemma wrlocked_takeRd (s : StrandLocks) (g h : ℕ) :
    ((s.takeRd g).streams h).wrlocked = (s.streams h).wrlocked := by
  rcases eq_or_ne h g with rfl | hne
  · simp [takeRd, setStream]
  · simp [takeRd, setStream, hne]

lemma rdlocked_takeWr (s : StrandLocks) (g h : ℕ) :
    ((s.takeWr g).streams h).rdlocked = (s.streams h).rdlocked := by
  rcases eq_or_ne h g with rfl | hne
  · simp [takeWr, setStream]
  · simp [takeWr, setStream, hne]

lemma wrlocked_takeWr (s : StrandLocks) (g h : ℕ) :
    ((s.takeWr g).streams h).wrlocked = true ↔ h = g ∨ (s.streams h).wrlocked = true := by
  rcases eq_or_ne h g with rfl | hne
  · simp [takeWr, setStream]
  · simp [takeWr, setStream, hne]

lemma Counted.takeRd (h : Counted s) (hfree : ¬ s.rdNwaiting < 0) (g : ℕ) : Counted (s.takeRd g) where
  assertions := h.assertions
  rd := h.rd.take hfree (rdlocked_takeRd s g)
  wr := by
    simp only [wrlocked_takeRd]
    exact h.wr
  rdWaiting := (waitingIn_turn _).trans h.rdWaiting
  justWaiting := h.justWaiting
  wrWaiting := h.wrWaiting
  asleep := fun t w ht hw hj => (h.asleep t w ht hw hj).quiet (quiet_takeRd s g)

lemma Counted.takeWr (h : Counted s) (hfree : ¬ s.wrNwaiting < 0) (g : ℕ) : Counted (s.takeWr g) where
  assertions := h.assertions
  rd := by
    simp only [rdlocked_takeWr]
    exact h.rd
  wr := h.wr.take hfree (wrlocked_takeWr s g)
  rdWaiting := h.rdWaiting
  justWaiting := h.justWaiting
  wrWaiting := (waitingIn_turn _).trans h.wrWaiting
  asleep := fun t w ht hw hj => (h.asleep t w ht hw hj).quiet (quiet_takeWr s g)

/-! ### Waits that begin and end -/

/-- The counters when a thread begins to wait. -/
def arriving (s : StrandLocks) (t : ℕ) (w : LockWait) : StrandLocks :=
  { s with
    rdNwaiting := if w.onRdcond then arrive s.rdNwaiting else s.rdNwaiting
    rdNJustwaiting := if w.justWaits then s.rdNJustwaiting + 1 else s.rdNJustwaiting
    wrNwaiting := if w.onWrcond then arrive s.wrNwaiting else s.wrNwaiting }.wait t w

/-- The counters when it has ceased to. -/
def leaving (s : StrandLocks) (t : ℕ) (w : LockWait) : StrandLocks :=
  { s with
    rdNwaiting := if w.onRdcond then leave s.rdNwaiting else s.rdNwaiting
    rdNJustwaiting := if w.justWaits then s.rdNJustwaiting - 1 else s.rdNJustwaiting
    wrNwaiting := if w.onWrcond then leave s.wrNwaiting else s.wrNwaiting }.finish t

lemma Runs.movesTo (h : s.Runs t) (x : Option (Waiter LockWait)) :
    MovesTo none s.threads (s.threads.set t x) t x := movesTo_set_of_lt h.1 x

/-- A thread that waits is among those that are counted. -/
lemma countP_pos {p : LockWait → Bool} (ht : s.threads.getD t none = some ⟨w, status⟩) (hw : p w = true) :
    0 < s.threads.countP (waitsFor p) :=
  countP_pos_of_getD (w := t) (by rw [ht]; exact hw) rfl

lemma countP_arriving (h : s.Runs t) (p : LockWait → Bool) :
    (s.arriving t w).threads.countP (waitsFor p) = s.threads.countP (waitsFor p) + if p w then 1 else 0 := by
  have hcount := (h.movesTo (some ⟨w, .blocked⟩)).count (waitsFor p) rfl
  rw [h.2] at hcount
  exact hcount

lemma countP_leaving (ht : s.threads.getD t none = some ⟨w, status⟩) (p : LockWait → Bool) :
    (s.leaving t w).threads.countP (waitsFor p) + (if p w then 1 else 0) = s.threads.countP (waitsFor p) := by
  have hm : MovesTo none s.threads (s.threads.set t none) t none := movesTo_set (ne_none_of_waiter ht) _
  have hcount := hm.count (waitsFor p) rfl
  rw [ht] at hcount
  exact hcount

lemma waitingIn_arriving {n : ℤ} {p : LockWait → Bool} (h : s.Runs t)
    (hn : waitingIn n = s.threads.countP (waitsFor p)) :
    waitingIn (if p w then arrive n else n) = (s.arriving t w).threads.countP (waitsFor p) := by
  rw [countP_arriving h]
  split_ifs
  · rw [waitingIn_arrive, hn, Nat.cast_add, Nat.cast_one]
  · exact hn

lemma waitingIn_leaving {n : ℤ} {p : LockWait → Bool} (ht : s.threads.getD t none = some ⟨w, status⟩)
    (hn : waitingIn n = s.threads.countP (waitsFor p)) :
    waitingIn (if p w then leave n else n) = (s.leaving t w).threads.countP (waitsFor p) := by
  have hcount := countP_leaving ht p
  by_cases hw : p w = true
  · have hpos := countP_pos ht hw
    rw [if_pos hw] at hcount ⊢
    rw [waitingIn_leave (by omega)]
    omega
  · rw [if_neg hw] at hcount ⊢
    rw [hn, ← hcount]
    rfl

lemma leave_neg_iff {n : ℤ} {p : LockWait → Bool} (ht : s.threads.getD t none = some ⟨w, status⟩)
    (hn : waitingIn n = s.threads.countP (waitsFor p)) : (if p w then leave n else n) < 0 ↔ n < 0 := by
  by_cases hw : p w = true
  · have hpos := countP_pos ht hw
    rw [if_pos hw]
    exact leave_neg (by omega)
  · rw [if_neg hw]

lemma arrive_neg_iff {n : ℤ} {b : Bool} : (if b then arrive n else n) < 0 ↔ n < 0 := by
  cases b with
  | false => exact Iff.rfl
  | true => exact arrive_neg

lemma Counted.arriving (h : Counted s) (hr : s.Runs t)
    (hw : w.onRdcond = true → w.justWaits = false → s.NeedsLock w) : Counted (s.arriving t w) where
  assertions := h.assertions
  rd := h.rd.congr arrive_neg_iff
  wr := h.wr.congr arrive_neg_iff
  rdWaiting := waitingIn_arriving hr h.rdWaiting
  justWaiting := by
    rw [countP_arriving hr, Nat.cast_add, ← h.justWaiting, StrandLocks.arriving, StrandLocks.wait]
    cases w.justWaits with
    | false => exact (add_zero _).symm
    | true => rfl
  wrWaiting := waitingIn_arriving hr h.wrWaiting
  asleep := fun u w' hu => by
    have hm := hr.movesTo (some ⟨w, .blocked⟩)
    rcases eq_or_ne u t with rfl | hne
    · obtain ⟨rfl, -⟩ : w = w' ∧ True := by simpa using hm.self.symm.trans hu
      exact hw
    · exact h.asleep u w' ((hm.others u hne).symm.trans hu)

lemma Counted.leaving (h : Counted s) (ht : s.threads.getD t none = some ⟨w, status⟩) :
    Counted (s.leaving t w) where
  assertions := h.assertions
  rd := h.rd.congr (leave_neg_iff ht h.rdWaiting)
  wr := h.wr.congr (leave_neg_iff ht h.wrWaiting)
  rdWaiting := waitingIn_leaving ht h.rdWaiting
  justWaiting := by
    have hcount := countP_leaving ht LockWait.justWaits
    have hj := h.justWaiting
    change (if w.justWaits then s.rdNJustwaiting - 1 else s.rdNJustwaiting) = _
    by_cases hw : w.justWaits = true
    · rw [if_pos hw] at hcount ⊢
      omega
    · rw [if_neg hw] at hcount ⊢
      omega
  wrWaiting := waitingIn_leaving ht h.wrWaiting
  asleep := fun u w' hu => by
    have hm : MovesTo none s.threads (s.threads.set t none) t none := movesTo_set (ne_none_of_waiter ht) _
    rcases eq_or_ne u t with rfl | hne
    · cases hm.self.symm.trans hu
    · exact h.asleep u w' ((hm.others u hne).symm.trans hu)

lemma finish_of_runs (h : s.Runs t) : s.finish t = s := by
  have hset : s.threads.set t none = s.threads := by
    refine List.ext_getElem (by simp) fun i _ hi => ?_
    rcases eq_or_ne t i with rfl | hne
    · have hold := h.2
      rw [List.getD_eq_getElem _ _ hi] at hold
      rw [List.getElem_set_self, hold]
    · exact List.getElem_set_ne hne _
  rw [finish, hset]

/-! ### The functions that wait, from the test of their loops on -/

/-- The function that a thread waits in, from the test that follows a wait. -/
def enter (s : StrandLocks) (t fresh : ℕ) : LockWait → StrandLocks
  | .rdLock g => s.rdLockLoop t g
  | .sleepOnRdLock g => s.sleepOnRdLockLoop t g
  | .sleepOnRdLockAlways g => s.sleepOnRdLockAlwaysLoop t g
  | .acquireServer => s.acquireServerAgain t fresh
  | .wrLock g => s.wrLockLoop t g

/-- What a thread does there: it waits, or goes on without a lock, or takes one. -/
inductive Entered (s : StrandLocks) (t : ℕ) (w : LockWait) : StrandLocks → Prop where
  | justWaits (h : w.justWaits = true) : Entered s t w (s.arriving t w)
  | waitsRd (hneeds : s.NeedsLock w) (hheld : s.rdNwaiting < 0) : Entered s t w (s.arriving t w)
  | waitsWr (h : IsWrLock w) (hheld : s.wrNwaiting < 0) : Entered s t w (s.arriving t w)
  | passes {s' : StrandLocks} (hw : ¬ IsWrLock w) (hneeds : ¬ s.rdNwaiting < 0 → ¬ s.NeedsLock w) (hf : Frame s s') : Entered s t w s'
  | takesRd {s' : StrandLocks} (g : ℕ) (hw : w.onRdcond = true) (hfree : ¬ s.rdNwaiting < 0)
      (hf : Frame (s.takeRd g) s') : Entered s t w s'
  | takesWr (g : ℕ) (h : IsWrLock w) (hfree : ¬ s.wrNwaiting < 0) : Entered s t w (s.takeWr g)

lemma not_isWrLock (h : w.onRdcond = true) : ¬ IsWrLock w := by
  rintro ⟨g, rfl⟩
  cases h

lemma finish_takeRd (h : s.Runs t) (g : ℕ) : (s.takeRd g).finish t = s.takeRd g := finish_of_runs h

lemma arriving_of_held (hw : w.onRdcond = true) (hj : w.justWaits = false) (hheld : s.rdNwaiting < 0) :
    s.arriving t w = { s with rdNwaiting := s.rdNwaiting - 1 }.wait t w := by
  have hn : arrive s.rdNwaiting = s.rdNwaiting - 1 := if_pos hheld
  have hwr : w.onWrcond = false := by
    cases w with
    | wrLock g => cases hw
    | _ => rfl
  simp only [arriving, hw, hj, hwr, hn, if_true, Bool.false_eq_true, if_false]

lemma entered_rdLock (h : s.Runs t) : Entered s t (.rdLock g) (s.rdLockLoop t g) := by
  rw [rdLockLoop]
  split_ifs with hheld
  · rw [← arriving_of_held rfl rfl hheld]
    exact .waitsRd trivial hheld
  · rw [finish_takeRd h]
    exact .takesRd g rfl hheld (.refl _)

lemma Counted.rdlocked (h : Counted s) (hg : (s.streams g).rdlocked = true) : s.rdNwaiting < 0 :=
  h.rd.held.mpr ⟨g, hg⟩

lemma entered_sleepOnRdLock (h : s.Runs t) (hok : Counted s) :
    Entered s t (.sleepOnRdLock g) (s.sleepOnRdLockLoop t g) := by
  rw [sleepOnRdLockLoop]
  split_ifs with hdone hheld
  · rw [finish_of_runs h]
    refine .passes (not_isWrLock rfl) (fun hfree hneeds => ?_) (.refl s)
    rcases Bool.or_eq_true_iff.mp hdone with hbuffered | hlocked
    · exact Bool.false_ne_true (hneeds.symm.trans hbuffered)
    · exact hfree (hok.rdlocked hlocked)
  · have hnot := (Bool.or_eq_false_iff.mp (Bool.eq_false_iff.mpr hdone)).1
    rw [← arriving_of_held rfl rfl hheld]
    exact .waitsRd hnot hheld
  · rw [finish_takeRd h]
    exact .takesRd g rfl hheld (.refl _)

lemma entered_sleepOnRdLockAlways (h : s.Runs t) :
    Entered s t (.sleepOnRdLockAlways g) (s.sleepOnRdLockAlwaysLoop t g) := by
  have hpasses : Entered s t (.sleepOnRdLockAlways g) s :=
    .passes (not_isWrLock rfl) (fun _ hneeds => hneeds) (.refl s)
  rw [sleepOnRdLockAlwaysLoop, finish_of_runs h]
  split_ifs
  · exact hpasses
  · exact hpasses
  · exact .justWaits rfl

lemma entered_wrLock (h : s.Runs t) : Entered s t (.wrLock g) (s.wrLockLoop t g) := by
  rw [wrLockLoop]
  split_ifs with hheld
  · have harriving : s.arriving t (.wrLock g) = { s with wrNwaiting := s.wrNwaiting - 1 }.wait t (.wrLock g) := by
      have hn : arrive s.wrNwaiting = s.wrNwaiting - 1 := if_pos hheld
      rw [← hn]
      rfl
    rw [← harriving]
    exact .waitsWr ⟨g, rfl⟩ hheld
  · rw [show (s.takeWr g).finish t = s.takeWr g from finish_of_runs h]
    exact .takesWr g ⟨g, rfl⟩ hheld

/-! ### Servers -/

lemma firstServer_some {state : ServerState} (h : s.firstServer state = some g) :
    g ∈ s.servers ∧ (s.streams g).state = state := by
  have hstate := List.find?_some h
  exact ⟨List.mem_of_find?_eq_some h, of_decide_eq_true hstate⟩

lemma frame_claimServer (s : StrandLocks) (g : ℕ) : Frame s (s.claimServer g) :=
  .setStream s rfl rfl (fun h => h) fun h => by cases h

lemma Frame.trans {s'' : StrandLocks} (h : Frame s s') (h' : Frame s' s'') : Frame s s'' where
  toQuiet := h.toQuiet.trans h'.toQuiet
  assertions := h'.assertions.trans h.assertions
  rdNwaiting := h'.rdNwaiting.trans h.rdNwaiting
  rdNJustwaiting := h'.rdNJustwaiting.trans h.rdNJustwaiting
  wrNwaiting := h'.wrNwaiting.trans h.wrNwaiting
  threads := h'.threads.trans h.threads
  rdlocked := fun g => (h'.rdlocked g).trans (h.rdlocked g)
  wrlocked := fun g => (h'.wrlocked g).trans (h.wrlocked g)

/-- The strand gains a new server at most. -/
lemma chooseServer_frame (hfresh : s.IsFresh fresh) : Frame s (s.chooseServer fresh).2 := by
  rw [chooseServer]
  rcases s.firstServer .inputPartiallyBuffered with _ | pp
  · rcases s.firstServer .unUsed with _ | up
    · refine ⟨⟨fun _ h => h, fun g hg hstate => ?_⟩, rfl, rfl, rfl, rfl, rfl, fun _ => rfl, fun _ => rfl⟩
      rcases List.mem_append.mp hg with hold | hnew
      · exact ⟨hold, hstate⟩
      · obtain rfl := List.mem_singleton.mp hnew
        rw [hfresh.2] at hstate
        cases hstate
    · exact .refl s
  · exact .refl s

lemma chooseServer_streams (s : StrandLocks) (fresh : ℕ) : (s.chooseServer fresh).2.streams = s.streams := by
  rw [chooseServer]
  rcases s.firstServer .inputPartiallyBuffered with _ | pp
  · rcases s.firstServer .unUsed with _ | up
    · rfl
    · rfl
  · rfl

lemma state_rdlocked (s : StrandLocks) (g h : ℕ) :
    ((s.setStream g { s.streams g with rdlocked := true }).streams h).state = (s.streams h).state := by
  rcases eq_or_ne h g with rfl | hne
  · simp [setStream]
  · simp [setStream, hne]

/-- A lock may be marked before or after what does not concern it. -/
lemma Frame.rdlock (hf : Frame s s') (hstreams : s'.streams = s.streams) (g : ℕ) :
    Frame (s.setStream g { s.streams g with rdlocked := true })
      (s'.setStream g { s'.streams g with rdlocked := true }) := by
  have heq : (s'.setStream g { s'.streams g with rdlocked := true }).streams
      = (s.setStream g { s.streams g with rdlocked := true }).streams := by
    simp only [StrandLocks.setStream, hstreams]
  refine ⟨⟨fun h hh => heq ▸ hh, fun h hh hstate => ?_⟩, hf.assertions, hf.rdNwaiting, hf.rdNJustwaiting,
    hf.wrNwaiting, hf.threads, fun h => by rw [heq], fun h => by rw [heq]⟩
  rw [state_rdlocked] at hstate ⊢
  exact hf.servers h hh hstate

/-- The strand after the lock was taken for a server. -/
def takeForServer (s : StrandLocks) (fresh : ℕ) : StrandLocks :=
  let chosen := { s with rdNwaiting := -s.rdNwaiting - 1 }.chooseServer fresh
  (chosen.2.markRdLock chosen.1).claimServer chosen.1

lemma acquireServerAgain_eq (s : StrandLocks) (t fresh : ℕ) :
    s.acquireServerAgain t fresh =
      match s.firstServer .inputFullyBuffered with
      | some fp => (s.claimServer fp).finish t
      | none =>
        if s.rdNwaiting < 0 then { s with rdNwaiting := s.rdNwaiting - 1 }.wait t .acquireServer
        else (s.takeForServer fresh).finish t := rfl

lemma frame_markRdLock (hok : Counted s) (hfree : ¬ s.rdNwaiting < 0)
    (hchoice : Frame { s with rdNwaiting := -s.rdNwaiting - 1 } s1) (hstreams : s1.streams = s.streams) (g : ℕ) :
    Frame (s.takeRd g) ((s1.markRdLock g).claimServer g) := by
  have hnot : (s1.streams g).rdlocked = false := by
    rw [hstreams]
    exact Bool.eq_false_iff.mpr fun hg => hfree (hok.rdlocked hg)
  have hmark : s1.markRdLock g = s1.setStream g { s1.streams g with rdlocked := true } := by
    rw [markRdLock, hnot]
    rfl
  refine Frame.trans ?_ (frame_claimServer _ g)
  rw [hmark]
  exact hchoice.rdlock hstreams g

lemma frame_takeForServer (hok : Counted s) (hfree : ¬ s.rdNwaiting < 0) (hfresh : s.IsFresh fresh) :
    ∃ g, Frame (s.takeRd g) (s.takeForServer fresh) :=
  ⟨_, frame_markRdLock hok hfree (chooseServer_frame hfresh) (chooseServer_streams _ fresh) _⟩

lemma entered_acquireServer (h : s.Runs t) (hok : Counted s) (hfresh : s.IsFresh fresh) :
    Entered s t .acquireServer (s.acquireServerAgain t fresh) := by
  rw [acquireServerAgain_eq]
  rcases hfull : s.firstServer .inputFullyBuffered with _ | fp
  · simp only
    split_ifs with hheld
    · rw [← arriving_of_held rfl rfl hheld]
      exact .waitsRd hfull hheld
    · obtain ⟨g, hframe⟩ := frame_takeForServer hok hheld hfresh
      have hruns : (s.takeForServer fresh).Runs t := by
        rw [Runs, hframe.threads]
        exact h
      rw [finish_of_runs hruns]
      exact .takesRd g rfl hheld hframe
  · simp only
    rw [show (s.claimServer fp).finish t = s.claimServer fp from finish_of_runs h]
    refine .passes (not_isWrLock rfl) (fun _ hneeds => ?_) (frame_claimServer s fp)
    cases hfull.symm.trans hneeds

lemma entered (h : s.Runs t) (hok : Counted s) (hfresh : s.IsFresh fresh) (w : LockWait) :
    Entered s t w (s.enter t fresh w) := by
  cases w with
  | rdLock g => exact entered_rdLock h
  | sleepOnRdLock g => exact entered_sleepOnRdLock h hok
  | sleepOnRdLockAlways g => exact entered_sleepOnRdLockAlways h
  | acquireServer => exact entered_acquireServer h hok hfresh
  | wrLock g => exact entered_wrLock h

/-! ### Threads that enter and resume -/

lemma Counted.entered (hok : Counted s) (h : s.Runs t) (he : Entered s t w s') : Counted s' := by
  cases he with
  | justWaits hw =>
    exact hok.arriving h fun _ hj => absurd (hw.symm.trans hj) (by simp)
  | waitsRd hneeds hheld => exact hok.arriving h fun _ _ => hneeds
  | waitsWr hw hheld => exact hok.arriving h fun hrd _ => absurd hw (not_isWrLock hrd)
  | passes hw hneeds hf => exact hok.frame hf
  | takesRd g hw hfree hf => exact (hok.takeRd hfree g).frame hf
  | takesWr g hw hfree => exact hok.takeWr hfree g

lemma quiet_arriving (s : StrandLocks) (t : ℕ) (w : LockWait) : Quiet s (s.arriving t w) :=
  ⟨fun _ h => h, fun _ h hs => ⟨h, hs⟩⟩

/-- The thread `t` of the first state, which does not wait in the second, was signalled for `w` at most. -/
structure Roused (s s1 : StrandLocks) (t : ℕ) (w : LockWait) : Prop extends Quiet s s1 where
  moves : MovesTo none s.threads s1.threads t none
  rd : s1.rdNwaiting < 0 ↔ s.rdNwaiting < 0
  wr : s1.wrNwaiting < 0 ↔ s.wrNwaiting < 0
  signalled : ∀ k, s.threads.getD t none = some ⟨k, .signalled⟩ → k = w

namespace Roused

/-- Nobody has taken the read lock, and the thread does something else than wait for it. -/
lemma rdAttended {x : Option (Waiter LockWait)} (hr : Roused s s1 t w) (hok : LocksOk s)
    (hm : MovesTo none s1.threads s'.threads t x) (hq : Quiet s1 s')
    (hn : s'.rdNwaiting < 0 ↔ s1.rdNwaiting < 0) (hx : ∀ k, IsRdLock k → x ≠ some ⟨k, .blocked⟩)
    (hw : ¬ s1.rdNwaiting < 0 → ¬ s1.NeedsLock w) :
    Attended s'.rdNwaiting IsRdLock s'.NeedsLock s'.threads := by
  refine hok.rdAttended.move (hr.moves.trans hm) (mt (hn.trans hr.rd).mpr)
    (fun k hk => hk.quiet (hr.toQuiet.trans hq)) hx ?_
  rintro hfree k hk ht
  obtain rfl := hr.signalled k ht
  exact hw (mt hn.mpr hfree) (hk.quiet hr.toQuiet)

lemma wrAttended {x : Option (Waiter LockWait)} (hr : Roused s s1 t w) (hok : LocksOk s)
    (hm : MovesTo none s1.threads s'.threads t x)
    (hn : s'.wrNwaiting < 0 ↔ s1.wrNwaiting < 0) (hx : ∀ k, IsWrLock k → x ≠ some ⟨k, .blocked⟩)
    (hw : ¬ IsWrLock w) : Attended s'.wrNwaiting IsWrLock IsWrLock s'.threads := by
  refine hok.wrAttended.move (hr.moves.trans hm) (mt (hn.trans hr.wr).mpr) (fun _ hk => hk) hx ?_
  rintro - k hk ht
  obtain rfl := hr.signalled k ht
  exact hw hk

end Roused

lemma movesTo_none (h : s.Runs t) : MovesTo none s.threads s.threads t none := by
  have hm : MovesTo none s.threads s.threads t (s.threads.getD t none) := movesTo_refl s.threads t
  rwa [h.2] at hm

lemma not_isWrLock_of_needs (h : s.NeedsLock w) : ¬ IsWrLock w := by
  rintro ⟨g, rfl⟩
  exact h

lemma ne_blocked {p : LockWait → Prop} (h : ¬ p w) (k : LockWait) (hk : p k) :
    some (⟨w, .blocked⟩ : Waiter LockWait) ≠ some ⟨k, .blocked⟩ := by
  intro heq
  obtain rfl : w = k := by simpa using heq
  exact h hk

/-- The thread enters the function that it waited in, or that it calls. -/
lemma LocksOk.entered (hok : LocksOk s) (hr : Roused s s1 t w) (hok1 : Counted s1) (h : s1.Runs t)
    (he : Entered s1 t w s') : LocksOk s' := by
  have hcounted := hok1.entered h he
  have hblocked := h.movesTo (some ⟨w, .blocked⟩)
  cases he with
  | justWaits hj =>
    have hon : w.onRdcond = true ∧ ¬ IsRdLock w ∧ ¬ s1.NeedsLock w := by
      cases w with
      | sleepOnRdLockAlways g =>
        refine ⟨rfl, ?_, fun h => h⟩
        rintro ⟨_, h⟩
        cases h
      | _ => cases hj
    refine ⟨hcounted, ?_, ?_⟩
    · exact hr.rdAttended hok hblocked (quiet_arriving s1 t w) arrive_neg_iff (ne_blocked hon.2.1) fun _ => hon.2.2
    · exact hr.wrAttended hok hblocked arrive_neg_iff (ne_blocked (not_isWrLock hon.1)) (not_isWrLock hon.1)
  | waitsRd hn hheld =>
    have hnot := not_isWrLock_of_needs hn
    refine ⟨hcounted, .of_held (arrive_neg_iff.mpr hheld), ?_⟩
    exact hr.wrAttended hok hblocked arrive_neg_iff (ne_blocked hnot) hnot
  | waitsWr hw hheld =>
    have hnot : ¬ IsRdLock w := by
      obtain ⟨g, rfl⟩ := hw
      rintro ⟨_, h⟩
      cases h
    refine ⟨hcounted, ?_, .of_held (arrive_neg_iff.mpr hheld)⟩
    exact hr.rdAttended hok hblocked (quiet_arriving s1 t w) arrive_neg_iff (ne_blocked hnot) fun _ hn =>
      not_isWrLock_of_needs hn hw
  | passes hnot hn hf =>
    have hm : MovesTo none s1.threads s'.threads t none := by
      rw [hf.threads]
      exact movesTo_none h
    refine ⟨hcounted, ?_, ?_⟩
    · exact hr.rdAttended hok hm hf.toQuiet (by rw [hf.rdNwaiting]) (by simp) hn
    · exact hr.wrAttended hok hm (by rw [hf.wrNwaiting]) (by simp) hnot
  | takesRd g hon hfree hf =>
    have hm : MovesTo none s1.threads s'.threads t none := by
      rw [hf.threads]
      exact movesTo_none h
    refine ⟨hcounted, .of_held ?_, ?_⟩
    · rw [hf.rdNwaiting]
      exact (hok1.takeRd hfree g).rd.held.mpr ⟨g, (rdlocked_takeRd s1 g g).mpr (.inl rfl)⟩
    · exact hr.wrAttended hok hm (by rw [hf.wrNwaiting]; rfl) (by simp) (not_isWrLock hon)
  | takesWr g hw hfree =>
    refine ⟨hcounted, ?_, .of_held ?_⟩
    · exact hr.rdAttended hok (movesTo_none h) (quiet_takeWr s1 g) Iff.rfl (by simp) fun _ hn =>
        not_isWrLock_of_needs hn hw
    · exact (hok1.takeWr hfree g).wr.held.mpr ⟨g, (wrlocked_takeWr s1 g g).mpr (.inl rfl)⟩

/-- A thread that does not wait calls a function. -/
lemma LocksOk.enter (hok : LocksOk s) (h : s.Runs t) (he : Entered s t w s') : LocksOk s' := by
  have hr : Roused s s t w :=
    ⟨.refl s, movesTo_none h, Iff.rfl, Iff.rfl, fun k hk => by cases h.2.symm.trans hk⟩
  exact hok.entered hr hok.toCounted h he

/-! ### After a wait -/

section

variable (s : StrandLocks) (threads : List (Option (Waiter LockWait)))

lemma chooseServer_threads (fresh : ℕ) :
    { s with threads }.chooseServer fresh =
      ((s.chooseServer fresh).1, { (s.chooseServer fresh).2 with threads }) := by
  have hfirst : ∀ state, { s with threads }.firstServer state = s.firstServer state := fun _ => rfl
  rw [chooseServer, chooseServer, hfirst, hfirst]
  rcases s.firstServer .inputPartiallyBuffered with _ | pp
  · rcases s.firstServer .unUsed with _ | up
    · rfl
    · rfl
  · rfl

lemma markRdLock_threads (g : ℕ) : { s with threads }.markRdLock g = { s.markRdLock g with threads } := by
  rw [markRdLock, markRdLock]
  split_ifs
  · rfl
  · rfl

lemma takeForServer_threads (fresh : ℕ) :
    { s with threads }.takeForServer fresh = { s.takeForServer fresh with threads } := by
  have hchoose := chooseServer_threads { s with rdNwaiting := -s.rdNwaiting - 1 } threads fresh
  simp only [takeForServer, hchoose, markRdLock_threads]
  rfl

/-- What the thread itself was at before does not matter. -/
lemma enter_set (t fresh : ℕ) (w : LockWait) (x : Option (Waiter LockWait)) :
    { s with threads := s.threads.set t x }.enter t fresh w = s.enter t fresh w := by
  have hwait : ∀ (s : StrandLocks) (w : LockWait), { s with threads := s.threads.set t x }.wait t w = s.wait t w :=
    fun s w => by simp only [StrandLocks.wait, List.set_set]
  have hfinish : ∀ s : StrandLocks, { s with threads := s.threads.set t x }.finish t = s.finish t :=
    fun s => by simp only [StrandLocks.finish, List.set_set]
  cases w with
  | rdLock g =>
    rw [StrandLocks.enter, StrandLocks.enter, rdLockLoop, rdLockLoop]
    split_ifs
    · exact hwait { s with rdNwaiting := s.rdNwaiting - 1 } _
    · exact hfinish (s.takeRd g)
  | sleepOnRdLock g =>
    rw [StrandLocks.enter, StrandLocks.enter, sleepOnRdLockLoop, sleepOnRdLockLoop]
    split_ifs
    · exact hfinish s
    · exact hwait { s with rdNwaiting := s.rdNwaiting - 1 } _
    · exact hfinish (s.takeRd g)
  | sleepOnRdLockAlways g =>
    rw [StrandLocks.enter, StrandLocks.enter, sleepOnRdLockAlwaysLoop, sleepOnRdLockAlwaysLoop]
    split_ifs
    · exact hfinish s
    · exact hfinish s
    · simp only [sleepOnRdLockAlways, StrandLocks.wait, List.set_set]
  | acquireServer =>
    have hfirst : ∀ state, { s with threads := s.threads.set t x }.firstServer state = s.firstServer state :=
      fun _ => rfl
    rw [StrandLocks.enter, StrandLocks.enter, acquireServerAgain_eq, acquireServerAgain_eq, hfirst,
      takeForServer_threads]
    rcases s.firstServer .inputFullyBuffered with _ | fp
    · simp only
      split_ifs
      · exact hwait { s with rdNwaiting := s.rdNwaiting - 1 } _
      · have hsame := takeForServer_threads s s.threads fresh
        have hthreads : (s.takeForServer fresh).threads = s.threads := congrArg (fun s => s.threads) hsame
        simp only [StrandLocks.finish, List.set_set, hthreads]
    · exact hfinish (s.claimServer fp)
  | wrLock g =>
    rw [StrandLocks.enter, StrandLocks.enter, wrLockLoop, wrLockLoop]
    split_ifs
    · exact hwait { s with wrNwaiting := s.wrNwaiting - 1 } _
    · exact hfinish (s.takeWr g)

end

lemma resume_expired (s : StrandLocks) (t fresh : ℕ) (hw : w ≠ .acquireServer) :
    s.resume t w true fresh = { s.leaving t w with dying := true } := by
  cases w with
  | acquireServer => exact absurd rfl hw
  | _ => rfl

lemma resume_enter (s : StrandLocks) (t fresh : ℕ) {b : Bool} (hb : b = true → w = .acquireServer) :
    s.resume t w b fresh = (s.leaving t w).enter t fresh w := by
  have hset : s.resume t w b fresh = { s.leaving t w with threads := s.threads }.enter t fresh w := by
    cases w with
    | acquireServer => rfl
    | _ =>
      obtain rfl : b = false := by simpa using hb
      rfl
  rw [hset, ← enter_set _ t fresh w none]
  rfl

lemma runs_leaving (ht : s.threads.getD t none = some ⟨w, status⟩) : (s.leaving t w).Runs t := by
  have hlt := lt_length_of_getD (ne_none_of_waiter ht)
  have hm : MovesTo none s.threads (s.threads.set t none) t none := movesTo_set (ne_none_of_waiter ht) _
  refine ⟨?_, hm.self⟩
  rw [leaving, finish, List.length_set]
  exact hlt

lemma roused_leaving (hok : Counted s) (ht : s.threads.getD t none = some ⟨w, status⟩) :
    Roused s (s.leaving t w) t w := by
  refine ⟨⟨fun _ h => h, fun _ h hs => ⟨h, hs⟩⟩, movesTo_set (ne_none_of_waiter ht) _,
    leave_neg_iff ht hok.rdWaiting, leave_neg_iff ht hok.wrWaiting, fun k hk => ?_⟩
  obtain ⟨rfl, -⟩ : w = k ∧ status = .signalled := by simpa using ht.symm.trans hk
  rfl

lemma LocksOk.resume (hok : LocksOk s) (ht : s.threads.getD t none = some ⟨w, status⟩)
    (hb : status = .signalled ∨ status = .expired) (hfresh : s.IsFresh fresh) :
    LocksOk (s.resume t w (status = .expired) fresh) := by
  have hr := roused_leaving hok.toCounted ht
  have hruns := runs_leaving ht
  have hcounted := hok.toCounted.leaving ht
  by_cases hexpired : status = .expired ∧ w ≠ .acquireServer
  · obtain ⟨rfl, hw⟩ := hexpired
    have hnever : ∀ k, s.threads.getD t none ≠ some ⟨k, .signalled⟩ := by
      intro k hk
      simpa using ht.symm.trans hk
    have hleft : LocksOk (s.leaving t w) := by
      refine ⟨hcounted, ?_, ?_⟩
      · exact hok.rdAttended.move hr.moves (mt hr.rd.mpr) (fun k hk => hk.quiet hr.toQuiet) (by simp)
          fun _ k _ => hnever k
      · exact hok.wrAttended.move hr.moves (mt hr.wr.mpr) (fun k hk => hk) (by simp) fun _ k _ => hnever k
    rw [decide_eq_true rfl, resume_expired s t fresh hw]
    exact hleft.frame (frame_dying _)
  · rw [resume_enter s t fresh fun hs => ?_]
    · exact hok.entered hr hcounted hruns (StrandLocks.entered hruns hcounted hfresh w)
    · by_contra hw
      exact hexpired ⟨of_decide_eq_true hs, hw⟩

/-! ### Locks that are given up -/

/-- The strand after the read lock was given up, and some threads may have been woken. -/
def releaseRd (s : StrandLocks) (g : ℕ) (threads : List (Option (Waiter LockWait))) : StrandLocks :=
  { s with rdNwaiting := -s.rdNwaiting - 1, threads }.setStream g { s.streams g with rdlocked := false }

def releaseWr (s : StrandLocks) (g : ℕ) (threads : List (Option (Waiter LockWait))) : StrandLocks :=
  { s with wrNwaiting := -s.wrNwaiting - 1, threads }.setStream g { s.streams g with wrlocked := false }

section

variable {threads : List (Option (Waiter LockWait))}

lemma quiet_releaseRd (s : StrandLocks) (g : ℕ) (threads : List (Option (Waiter LockWait))) :
    Quiet s (s.releaseRd g threads) := by
  have h := quiet_setStream s (g := g) (x := { s.streams g with rdlocked := false }) (fun h => h) fun h => h
  exact ⟨h.buffered, h.servers⟩

lemma quiet_releaseWr (s : StrandLocks) (g : ℕ) (threads : List (Option (Waiter LockWait))) :
    Quiet s (s.releaseWr g threads) := by
  have h := quiet_setStream s (g := g) (x := { s.streams g with wrlocked := false }) (fun h => h) fun h => h
  exact ⟨h.buffered, h.servers⟩

lemma Counted.releaseRd (h : Counted s) (hg : (s.streams g).rdlocked = true) (hs : Stirred s.threads threads) :
    Counted (s.releaseRd g threads) where
  assertions := h.assertions
  rd := by
    refine h.rd.release hg fun j => ?_
    rcases eq_or_ne j g with rfl | hne
    · simp [StrandLocks.releaseRd, setStream]
    · simp [StrandLocks.releaseRd, setStream, hne]
  wr := by
    have heq : ∀ j, ((s.releaseRd g threads).streams j).wrlocked = (s.streams j).wrlocked := by
      intro j
      rcases eq_or_ne j g with rfl | hne
      · simp [StrandLocks.releaseRd, setStream]
      · simp [StrandLocks.releaseRd, setStream, hne]
    simp only [heq]
    exact h.wr
  rdWaiting := (waitingIn_turn _).trans (h.stir hs).rdWaiting
  justWaiting := (h.stir hs).justWaiting
  wrWaiting := (h.stir hs).wrWaiting
  asleep := fun t w ht hw hj => (h.asleep t w (hs.blocked ht) hw hj).quiet (quiet_releaseRd s g threads)

lemma Counted.releaseWr (h : Counted s) (hg : (s.streams g).wrlocked = true) (hs : Stirred s.threads threads) :
    Counted (s.releaseWr g threads) where
  assertions := h.assertions
  rd := by
    have heq : ∀ j, ((s.releaseWr g threads).streams j).rdlocked = (s.streams j).rdlocked := by
      intro j
      rcases eq_or_ne j g with rfl | hne
      · simp [StrandLocks.releaseWr, setStream]
      · simp [StrandLocks.releaseWr, setStream, hne]
    simp only [heq]
    exact h.rd
  wr := by
    refine h.wr.release hg fun j => ?_
    rcases eq_or_ne j g with rfl | hne
    · simp [StrandLocks.releaseWr, setStream]
    · simp [StrandLocks.releaseWr, setStream, hne]
  rdWaiting := (h.stir hs).rdWaiting
  justWaiting := (h.stir hs).justWaiting
  wrWaiting := (waitingIn_turn _).trans (h.stir hs).wrWaiting
  asleep := fun t w ht hw hj => (h.asleep t w (hs.blocked ht) hw hj).quiet (quiet_releaseWr s g threads)

end

/-- A counter without threads that wait. -/
lemma not_waiting {n : ℤ} {p : LockWait → Bool} (hn : waitingIn n = s.threads.countP (waitsFor p))
    (h : ¬ -n - 1 > 0) (hheld : n < 0) (hw : p w = true) : s.threads.getD t none ≠ some ⟨w, status⟩ := by
  intro ht
  have hpos := countP_pos ht hw
  rw [waitingIn_of_neg hheld] at hn
  omega

lemma isRdLock_onRdcond {k : LockWait} (h : IsRdLock k) : k.onRdcond = true := by
  obtain ⟨g, rfl⟩ := h
  rfl

lemma isWrLock_iff {k : LockWait} : k.onWrcond = true ↔ IsWrLock k := by
  constructor
  · intro h
    cases k with
    | wrLock g => exact ⟨g, rfl⟩
    | _ => cases h
  · rintro ⟨g, rfl⟩
    rfl

lemma LocksOk.rdUnLock (hok : LocksOk s) (h : s.rdUnLock g pick = some s') : LocksOk s' := by
  rw [StrandLocks.rdUnLock] at h
  split_ifs at h with hnot hheld
  · exact Option.some.inj h ▸ hok
  · have hg : (s.streams g).rdlocked = true := by simpa using hnot
    obtain ⟨threads, hthreads, rfl⟩ := Option.map_eq_some_iff.mp h
    have hkey : Stirred s.threads threads ∧
        Attended (-s.rdNwaiting - 1) IsRdLock (s.releaseRd g threads).NeedsLock threads := by
      split_ifs at hthreads with hwaiting hjust
      · -- nobody just waits, so that any thread which is woken takes the lock
        refine ⟨(signal_cases hthreads).1, .of_signal hthreads (fun k => isRdLock_onRdcond) fun k hk hpick => ?_⟩
        refine (hok.asleep pick k hpick hk ?_).quiet (quiet_releaseRd s g threads)
        by_contra hj
        have hpos : 0 < s.threads.countP (waitsFor LockWait.justWaits) :=
          countP_pos hpick (Bool.eq_true_of_not_eq_false hj)
        have hcount := hok.justWaiting.symm.trans hjust
        omega
      · obtain rfl := Option.some.inj hthreads
        exact ⟨.broadcast _ _, .of_broadcast fun k => isRdLock_onRdcond⟩
      · obtain rfl := Option.some.inj hthreads
        refine ⟨.refl _, ?_⟩
        rintro - ⟨t, k, hk, ht⟩
        exact absurd ht (not_waiting hok.rdWaiting hwaiting hheld (isRdLock_onRdcond hk))
    exact ⟨hok.toCounted.releaseRd hg hkey.1, hkey.2, hok.wrAttended.stir hkey.1 fun _ hk => hk⟩
  · have hg : (s.streams g).rdlocked = true := by simpa using hnot
    exact absurd (hok.toCounted.rdlocked hg) hheld

lemma LocksOk.wrUnLock (hok : LocksOk s) (h : s.wrUnLock g pick = some s') : LocksOk s' := by
  rw [StrandLocks.wrUnLock] at h
  split_ifs at h with hnot hheld
  · exact Option.some.inj h ▸ hok
  · have hg : (s.streams g).wrlocked = true := by simpa using hnot
    obtain ⟨threads, hthreads, rfl⟩ := Option.map_eq_some_iff.mp h
    have hkey : Stirred s.threads threads ∧ Attended (-s.wrNwaiting - 1) IsWrLock IsWrLock threads := by
      split_ifs at hthreads with hwaiting
      · exact ⟨(signal_cases hthreads).1,
          .of_signal hthreads (fun k => isWrLock_iff.mpr) fun k hk _ => isWrLock_iff.mp hk⟩
      · obtain rfl := Option.some.inj hthreads
        refine ⟨.refl _, ?_⟩
        rintro - ⟨t, k, hk, ht⟩
        exact absurd ht (not_waiting hok.wrWaiting hwaiting hheld (isWrLock_iff.mpr hk))
    have hreleased : LocksOk (s.releaseWr g threads) := by
      refine ⟨hok.toCounted.releaseWr hg hkey.1, ?_, hkey.2⟩
      exact hok.rdAttended.stir hkey.1 fun _ hk => hk.quiet (quiet_releaseWr s g threads)
    change LocksOk (if s.dying && s.rdNJustwaiting ≠ 0 then (s.releaseWr g threads).wakeUpRdLock
      else s.releaseWr g threads)
    split_ifs
    · exact hreleased.wakeUpRdLock
    · exact hreleased
  · have hg : (s.streams g).wrlocked = true := by simpa using hnot
    exact absurd (hok.wr.held.mpr ⟨g, hg⟩) hheld

/-! ### Messages that are completed -/

/-- Something happens to the streams, and all that sleep on the read lock are woken. The read lock may go
from one stream to another. -/
lemma LocksOk.broadcast (hok : LocksOk s) (hassertions : s'.assertionFailed = s.assertionFailed)
    (hrdn : s'.rdNwaiting = s.rdNwaiting) (hjust : s'.rdNJustwaiting = s.rdNJustwaiting)
    (hwrn : s'.wrNwaiting = s.wrNwaiting) (hthreads : s'.threads = s.threads)
    (hrd : OneHolder s.rdNwaiting fun g => (s'.streams g).rdlocked = true)
    (hwr : ∀ g, (s'.streams g).wrlocked = (s.streams g).wrlocked) : LocksOk s'.wakeUpRdLock := by
  have hstir : Stirred s.threads (Library.broadcast LockWait.onRdcond s'.threads) :=
    hthreads ▸ .broadcast LockWait.onRdcond s.threads
  refine ⟨⟨hassertions.trans hok.assertions, ?_, ?_, ?_, ?_, ?_, ?_⟩, ?_, ?_⟩
  · rw [← hrdn] at hrd
    exact hrd
  · have hholder := hok.wr
    simp only [← hwrn, ← hwr] at hholder
    exact hholder
  · exact (congrArg _ hrdn).trans (hok.toCounted.stir hstir).rdWaiting
  · exact hjust.trans (hok.toCounted.stir hstir).justWaiting
  · exact (congrArg _ hwrn).trans (hok.toCounted.stir hstir).wrWaiting
  · intro t w ht hw
    exact absurd ht (not_blocked_broadcast hw)
  · exact .of_broadcast fun k => isRdLock_onRdcond
  · have hattended := hok.wrAttended.stir hstir fun _ hk => hk
    rw [← hwrn] at hattended
    exact hattended

lemma LocksOk.completeMessage (hok : LocksOk s) (g : ℕ) (server : Bool) : LocksOk (s.completeMessage g server) := by
  refine hok.broadcast rfl rfl rfl rfl rfl ?_ fun h => ?_
  · have heq : ∀ h, ((s.setStream g { s.streams g with
        inputFullyBuffered := true
        state := if server then .inputFullyBuffered else (s.streams g).state }).streams h).rdlocked =
          (s.streams h).rdlocked := by
      intro h
      rcases eq_or_ne h g with rfl | hne
      · simp [setStream]
      · simp [setStream, hne]
    simp only [heq]
    exact hok.rd
  · rcases eq_or_ne h g with rfl | hne
    · simp [setStream]
    · simp [setStream, hne]

lemma LocksOk.handOver {source target : ℕ} (hok : LocksOk s) (h : (s.streams source).rdlocked = true)
    (hne : source ≠ target) : LocksOk (s.handOver source target) := by
  refine hok.broadcast rfl rfl rfl rfl rfl (hok.rd.pass (j := target) h fun a => ?_) fun a => ?_
  · rcases eq_or_ne a source with rfl | hs
    · simp [setStream, hne]
    · rcases eq_or_ne a target with rfl | ht
      · simp [setStream, hs]
      · simp [setStream, hs, ht]
  · rcases eq_or_ne a source with rfl | hs
    · simp [setStream, hne]
    · rcases eq_or_ne a target with rfl | ht
      · simp [setStream, hs]
      · simp [setStream, hs, ht]

/-! ### Steps and runs -/

lemma LocksOk.rdLockNonBlocking (hok : LocksOk s) (g : ℕ) : LocksOk (s.rdLockNonBlocking g) := by
  rw [StrandLocks.rdLockNonBlocking]
  split_ifs with hg hheld
  · exact hok
  · exact hok
  · have hcounted := hok.toCounted.takeRd hheld g
    refine ⟨hcounted, .of_held (hcounted.rd.held.mpr ⟨g, (rdlocked_takeRd s g g).mpr (.inl rfl)⟩), ?_⟩
    exact hok.wrAttended

lemma LocksOk.step {e : LockEvent} (hok : LocksOk s) (h : s.step e = some s') : LocksOk s' := by
  have hcounted := hok.toCounted
  cases e with
  | rdLock t g =>
    rw [StrandLocks.step, StrandLocks.rdLock] at h
    split_ifs at h with hruns hlocked
    · exact Option.some.inj h ▸ hok
    · exact Option.some.inj h ▸ hok.enter hruns (entered_rdLock hruns)
  | rdUnLock g pick => exact hok.rdUnLock h
  | rdLockNonBlocking g => exact Option.some.inj h ▸ hok.rdLockNonBlocking g
  | wrLock t g =>
    rw [StrandLocks.step, StrandLocks.wrLock] at h
    split_ifs at h with hruns hlocked
    · exact Option.some.inj h ▸ hok
    · exact Option.some.inj h ▸ hok.enter hruns (entered_wrLock hruns)
  | wrUnLock g pick => exact hok.wrUnLock h
  | wakeUpRdLock => exact Option.some.inj h ▸ hok.wakeUpRdLock
  | inputReplyBegin t g =>
    rw [StrandLocks.step, StrandLocks.inputReplyBegin] at h
    split_ifs at h with hruns hbidir
    · exact Option.some.inj h ▸ hok.enter hruns (entered_sleepOnRdLock hruns hcounted)
    · exact Option.some.inj h ▸ hok.enter hruns (entered_sleepOnRdLockAlways hruns)
  | acquireServer t fresh =>
    rw [StrandLocks.step, StrandLocks.acquireServer] at h
    split_ifs at h with hguard hpending
    · exact Option.some.inj h ▸ hok
    · exact Option.some.inj h ▸ hok.enter hguard.1 (entered_acquireServer hguard.1 hcounted hguard.2)
  | spurious t =>
    rw [StrandLocks.step] at h
    split at h
    · rename_i w ht
      exact Option.some.inj h ▸ hok.stir (.set ht (by simp))
    · cases h
  | expire t =>
    rw [StrandLocks.step] at h
    split at h
    · rename_i w ht
      split_ifs at h
      exact Option.some.inj h ▸ hok.stir (.set ht (by simp))
    · cases h
  | resume t fresh =>
    rw [StrandLocks.step] at h
    split at h
    · rename_i w ht
      split_ifs at h with hfresh
      exact Option.some.inj h ▸ hok.resume ht (.inl rfl) hfresh
    · rename_i w ht
      split_ifs at h with hfresh
      exact Option.some.inj h ▸ hok.resume ht (.inr rfl) hfresh
    · cases h
  | completeMessage g server => exact Option.some.inj h ▸ hok.completeMessage g server
  | handOver source target =>
    rw [StrandLocks.step] at h
    split_ifs at h with hguard
    exact Option.some.inj h ▸ hok.handOver hguard.1 hguard.2
  | reset g => exact Option.some.inj h ▸ hok.frame (.setStream s rfl rfl (fun h => by cases h) fun h => h)
  | setState g state =>
    rw [StrandLocks.step] at h
    split_ifs at h with hstate
    exact Option.some.inj h ▸ hok.frame (.setStream s rfl rfl (fun h => h) fun h => absurd h hstate)
  | insertServer g =>
    rw [StrandLocks.step] at h
    split_ifs at h with hstate
    refine Option.some.inj h ▸ hok.frame ⟨⟨fun _ h => h, fun k hk hs => ?_⟩, rfl, rfl, rfl, rfl, rfl,
      fun _ => rfl, fun _ => rfl⟩
    rcases List.mem_append.mp hk with hold | hnew
    · exact ⟨hold, hs⟩
    · obtain rfl := List.mem_singleton.mp hnew
      exact absurd hs hstate
  | removeServer g =>
    exact Option.some.inj h ▸ hok.frame ⟨⟨fun _ h => h, fun k hk hs => ⟨List.mem_of_mem_erase hk, hs⟩⟩, rfl, rfl,
      rfl, rfl, rfl, fun _ => rfl, fun _ => rfl⟩
  | die => exact Option.some.inj h ▸ hok.frame (frame_dying s)
  | setBiDir b =>
    exact Option.some.inj h ▸ hok.frame ⟨⟨fun _ h => h, fun _ h hs => ⟨h, hs⟩⟩, rfl, rfl, rfl, rfl, rfl,
      fun _ => rfl, fun _ => rfl⟩
  | safeDelete =>
    exact Option.some.inj h ▸ hok.frame ⟨⟨fun _ h => h, fun _ h hs => ⟨h, hs⟩⟩, rfl, rfl, rfl, rfl, rfl,
      fun _ => rfl, fun _ => rfl⟩

lemma LocksOk.start (n : ℕ) : LocksOk (start n) := by
  have hthreads : ∀ t, (StrandLocks.start n).threads.getD t none = none := by
    intro t
    rw [StrandLocks.start, List.getD_eq_getElem?_getD, List.getElem?_replicate]
    split_ifs
    · rfl
    · rfl
  have hcount : ∀ p, (StrandLocks.start n).threads.countP (waitsFor p) = 0 := by
    intro p
    refine List.countP_eq_zero.mpr fun x hx => ?_
    obtain rfl := List.eq_of_mem_replicate hx
    simp [waitsFor]
  have hnobody : ∀ holds : ℕ → Prop, (∀ g, ¬ holds g) → OneHolder 0 holds := fun holds h =>
    ⟨fun i _ hi => absurd hi (h i), iff_of_false (by simp) fun ⟨i, hi⟩ => h i hi⟩
  refine ⟨⟨rfl, hnobody _ fun g => Bool.false_ne_true, hnobody _ fun g => Bool.false_ne_true, ?_, ?_, ?_, ?_⟩, ?_, ?_⟩
  · rw [hcount]
    rfl
  · rw [hcount]
    rfl
  · rw [hcount]
    rfl
  · intro t w ht
    cases (hthreads t).symm.trans ht
  · rintro - ⟨t, k, -, ht⟩
    cases (hthreads t).symm.trans ht
  · rintro - ⟨t, k, -, ht⟩
    cases (hthreads t).symm.trans ht

/-! ### What holds in every state -/

/-- A thread that was woken from a wait on `rdcond` in which it wants the lock has it after its next step,
if it finds it free. -/
lemma takes_rdLock (hok : LocksOk s) (hfree : ¬ s.rdNwaiting < 0) (hneeds : s.NeedsLock w)
    (ht : s.threads.getD t none = some ⟨w, .signalled⟩) (hfresh : s.IsFresh fresh) :
    ∃ s', s.step (.resume t fresh) = some s' ∧ s'.rdNwaiting < 0 := by
  have hstep : s.step (.resume t fresh) = some (s.resume t w false fresh) := by
    simp only [StrandLocks.step, ht, if_pos hfresh]
  refine ⟨_, hstep, ?_⟩
  rw [resume_enter s t fresh fun h => by cases h]
  have hr := roused_leaving hok.toCounted ht
  have hcounted := hok.toCounted.leaving ht
  have hentered := StrandLocks.entered (runs_leaving ht) hcounted hfresh w
  have hneeds' := hneeds.quiet hr.toQuiet
  have hnot := not_isWrLock_of_needs hneeds
  have hfree' := mt hr.rd.mp hfree
  generalize (s.leaving t w).enter t fresh w = s' at hentered ⊢
  cases hentered with
  | justWaits hj =>
    cases w with
    | sleepOnRdLockAlways g => exact hneeds.elim
    | _ => cases hj
  | waitsRd _ hheld => exact absurd hheld hfree'
  | waitsWr hw _ => exact absurd hw hnot
  | passes _ hn _ => exact absurd hneeds' (hn hfree')
  | takesRd g _ _ hf =>
    rw [hf.rdNwaiting]
    exact (hcounted.takeRd hfree' g).rd.held.mpr ⟨g, (rdlocked_takeRd _ g g).mpr (.inl rfl)⟩
  | takesWr g hw _ => exact absurd hw hnot

/-- The locks are sound. -/
structure Sound (s : StrandLocks) : Prop where
  assertions : s.assertionFailed = false
  rdOne : ∀ g h, (s.streams g).rdlocked = true → (s.streams h).rdlocked = true → g = h
  wrOne : ∀ g h, (s.streams g).wrlocked = true → (s.streams h).wrlocked = true → g = h
  rdHeld : s.rdNwaiting < 0 ↔ ∃ g, (s.streams g).rdlocked = true
  wrHeld : s.wrNwaiting < 0 ↔ ∃ g, (s.streams g).wrlocked = true
  rdWaiting : waitingIn s.rdNwaiting = s.threads.countP (waitsFor LockWait.onRdcond)
  wrWaiting : waitingIn s.wrNwaiting = s.threads.countP (waitsFor LockWait.onWrcond)
  /-- A thread that waits in `rdLock` while the lock is free is followed by one that takes the lock. -/
  rdRetries : ¬ s.rdNwaiting < 0 → (∃ t g, s.threads.getD t none = some ⟨.rdLock g, .blocked⟩) →
    ∃ t w, s.threads.getD t none = some ⟨w, .signalled⟩ ∧ w.onRdcond = true ∧ w.justWaits = false ∧
      ∀ fresh, s.IsFresh fresh → ∃ s', s.step (.resume t fresh) = some s' ∧ s'.rdNwaiting < 0
  wrRetries : ¬ s.wrNwaiting < 0 → (∃ t g, s.threads.getD t none = some ⟨.wrLock g, .blocked⟩) →
    ∃ t g, s.threads.getD t none = some ⟨.wrLock g, .signalled⟩

lemma LocksOk.sound (hok : LocksOk s) : Sound s := by
  refine ⟨hok.assertions, hok.rd.one, hok.wr.one, hok.rd.held, hok.wr.held, hok.rdWaiting, hok.wrWaiting, ?_, ?_⟩
  · rintro hfree ⟨t, g, ht⟩
    obtain ⟨u, w, hneeds, hu⟩ := hok.rdAttended hfree ⟨t, _, ⟨g, rfl⟩, ht⟩
    refine ⟨u, w, hu, ?_, ?_, fun fresh hfresh => takes_rdLock hok hfree hneeds hu hfresh⟩
    · cases w with
      | wrLock g => exact hneeds.elim
      | _ => rfl
    · cases w with
      | sleepOnRdLockAlways g => exact hneeds.elim
      | _ => rfl
  · rintro hfree ⟨t, g, ht⟩
    obtain ⟨u, _, ⟨h, rfl⟩, hu⟩ := hok.wrAttended hfree ⟨t, _, ⟨g, rfl⟩, ht⟩
    exact ⟨u, h, hu⟩

/-- The locks are sound after any steps of any number of threads. -/
theorem locks_sound (n : ℕ) (events : List LockEvent) (h : execute step (start n) events = some s) : Sound s := by
  have hall : AllOk step (fun _ _ => True) (start n) events := .of_forall (fun _ _ => trivial) _ _
  have hreached := ReachedBy.start.execute hall h
  exact (hreached.invariant (LocksOk.start n) fun _ _ _ hok _ hs => hok.step hs).sound

/-- The events of the case in which a thread that sleeps on the read lock for its reply gets the only
signal while another thread waits in `rdLock`. -/
def sleeperSignalled : List LockEvent :=
  [.rdLockNonBlocking 0, .inputReplyBegin 0 1, .rdLock 1 2, .rdUnLock 0 0]

theorem locks_sound_sleeper : ∃ s, execute step (start 2) sleeperSignalled = some s ∧ Sound s :=
  ⟨_, rfl, locks_sound 2 sleeperSignalled rfl⟩

/-- The lock is free, a thread waits in `rdLock`, and no thread that waits there was signalled. -/
theorem sleeper_signalled :
    ∃ s, execute step (start 2) sleeperSignalled = some s ∧ ¬ s.rdNwaiting < 0 ∧
      s.threads.getD 1 none = some ⟨.rdLock 2, .blocked⟩ ∧
      ∀ t g, s.threads.getD t none ≠ some ⟨.rdLock g, .signalled⟩ := by
  refine ⟨_, rfl, by decide, rfl, ?_⟩
  rintro (_ | _ | t) g h
  · cases h
  · cases h
  · cases h

end StrandLocks

end OmniORB
