import OmniORB.Naming.ReadersWriters

/-!
# Runs of the readers-writers lock

The counter tells who is in the lock in every state that is reached, and whoever is blocked where it
could proceed is preceded by a thread that was woken.
-/

namespace OmniORB.Naming

open Library

namespace ReadersWritersLock

variable {s s' : ReadersWritersLock} {t u pick : ℕ} {mode : LockMode} {n : ℤ}

/-! ### Calls of the threads -/

/-- Some thread is in the lock as writer, which it was first: with this, `writerId` is its. -/
def Writing (s : ReadersWritersLock) : Prop :=
  ∃ w, s.writerId = w ∧ (s.heldBy w).getLast? = some .writer ∧ -s.n = (s.heldBy w).length ∧
    ∀ t ≠ w, s.heldBy t = []

/-- Threads are in the lock only as readers, or not at all. -/
def Reading (s : ReadersWritersLock) : Prop :=
  s.n = s.reads ∧ ∀ t, LockMode.writer ∉ s.heldBy t

/-- What holds in every state that is reached. -/
structure Ok (s : ReadersWritersLock) : Prop where
  lengths : s.held.length = s.threads.length
  counted : s.Writing ∨ s.Reading
  outside : ∀ t w, s.threads.getD t none = some w → s.heldBy t = []
  /-- readers are blocked only by a writer -/
  readers : ∀ t, s.threads.getD t none = some ⟨.reader, .blocked⟩ → s.n < 0
  attended : s.n = 0 → (∃ t mode, s.threads.getD t none = some ⟨mode, .blocked⟩) →
    ∃ t mode, s.threads.getD t none = some ⟨mode, .signalled⟩

lemma Writing.neg (h : s.Writing) : s.n < 0 := by
  obtain ⟨w, -, hlast, hn, -⟩ := h
  have hpos : 0 < (s.heldBy w).length := by
    apply List.length_pos_of_ne_nil
    intro hnil
    rw [hnil] at hlast
    cases hlast
  omega

lemma Reading.nonneg (h : s.Reading) : 0 ≤ s.n := by
  rw [h.1]
  exact Int.natCast_nonneg _

lemma Ok.writing (h : s.Ok) (hn : s.n < 0) : s.Writing := by
  rcases h.counted with hw | hr
  · exact hw
  · exact absurd hr.nonneg (not_le.mpr hn)

lemma Ok.reading (h : s.Ok) (hn : ¬s.n < 0) : s.Reading := by
  rcases h.counted with hw | hr
  · exact absurd hw.neg hn
  · exact hr

lemma lt_of_running {threads : List (Option (Waiter LockMode))} {x : Option (Waiter LockMode)}
    (h : threads[t]? = some x) : t < threads.length :=
  (List.getElem?_eq_some_iff.mp h).1

lemma getD_of_getElem? {threads : List (Option (Waiter LockMode))} {x : Option (Waiter LockMode)}
    (h : threads[t]? = some x) : threads.getD t none = x := by
  rw [List.getD_eq_getElem?_getD, h]
  rfl

/-! #### The calls of one thread change -/

lemma getD_set_self {held : List (List LockMode)} {l : List LockMode} (ht : t < held.length) :
    (held.set t l).getD t [] = l := by
  simp [List.getD_eq_getElem?_getD, ht]

lemma getD_set_of_ne {held : List (List LockMode)} {l : List LockMode} (h : u ≠ t) :
    (held.set t l).getD u [] = held.getD u [] := by
  rw [List.getD_eq_getElem?_getD, List.getD_eq_getElem?_getD, List.getElem?_set_ne h.symm]

lemma sum_set {held : List (List LockMode)} (l : List LockMode) (ht : t < held.length) :
    ((held.set t l).map List.length).sum + (held.getD t []).length
      = (held.map List.length).sum + l.length := by
  induction held generalizing t with
  | nil => cases ht
  | cons k held ih =>
    cases t with
    | zero =>
      simp only [List.set_cons_zero, List.map_cons, List.sum_cons, List.getD_cons_zero]
      omega
    | succ t =>
      have hrest := ih (Nat.lt_of_succ_lt_succ ht)
      simp only [List.set_cons_succ, List.map_cons, List.sum_cons, List.getD_cons_succ]
      omega

lemma sum_eq_zero {held : List (List LockMode)} (h : ∀ u, held.getD u [] = []) :
    (held.map List.length).sum = 0 := by
  rw [List.sum_eq_zero_iff]
  intro n hn
  obtain ⟨l, hl, rfl⟩ := List.mem_map.mp hn
  obtain ⟨u, hu, rfl⟩ := List.getElem_of_mem hl
  have hnil := h u
  rw [List.getD_eq_getElem _ _ hu] at hnil
  rw [hnil]
  rfl

/-- The thread has other calls than before. -/
lemma writing_set {l : List LockMode} {n : ℤ} {threads : List (Option (Waiter LockMode))}
    {writerId : ℕ} (hid : writerId = t) (ht : t < s.held.length) (hlast : l.getLast? = some .writer)
    (hn : -n = l.length) (hothers : ∀ u ≠ t, s.heldBy u = []) :
    Writing { n, writerId, held := s.held.set t l, threads } := by
  refine ⟨t, hid, ?_, ?_, ?_⟩
  · rw [heldBy, getD_set_self ht]
    exact hlast
  · rw [heldBy, getD_set_self ht]
    exact hn
  · intro u hu
    rw [heldBy, getD_set_of_ne hu]
    exact hothers u hu

lemma reading_set {l : List LockMode} {n : ℤ} {threads : List (Option (Waiter LockMode))}
    {writerId : ℕ} (ht : t < s.held.length) (hl : LockMode.writer ∉ l)
    (hothers : ∀ u ≠ t, LockMode.writer ∉ s.heldBy u)
    (hn : n + (s.heldBy t).length = s.reads + l.length) :
    Reading { n, writerId, held := s.held.set t l, threads } := by
  refine ⟨?_, ?_⟩
  · have hsum := sum_set l ht
    rw [heldBy, reads] at hn
    rw [reads]
    dsimp only
    omega
  · intro u
    rw [heldBy]
    by_cases hu : u = t
    · rw [hu, getD_set_self ht]
      exact hl
    · rw [getD_set_of_ne hu]
      exact hothers u hu

/-- The one that has calls is the writer. -/
lemma Writing.eq_writerId (h : s.Writing) (ht : s.heldBy t ≠ []) : s.writerId = t := by
  obtain ⟨w, hw, -, -, hothers⟩ := h
  rw [hw]
  by_contra hne
  exact ht (hothers t (Ne.symm hne))

lemma Reading.heldBy_eq_nil (h : s.Reading) (hn : s.n = 0) (t : ℕ) : s.heldBy t = [] := by
  have hsum : (s.held.map List.length).sum = 0 := by
    have hreads := h.1
    rw [reads] at hreads
    omega
  rw [heldBy, List.getD_eq_getElem?_getD]
  cases ht : s.held[t]? with
  | none => rfl
  | some l =>
    have hmem := List.mem_map_of_mem (f := List.length) (List.mem_of_getElem? ht)
    exact List.length_eq_zero_iff.mp (List.sum_eq_zero_iff.mp hsum _ hmem)

/-! ### Threads that wait -/

lemma getD_set_thread {threads : List (Option (Waiter LockMode))}
    {x : Option (Waiter LockMode)} (hu : u ≠ t) :
    (threads.set t x).getD u none = threads.getD u none := by
  rw [List.getD_eq_getElem?_getD, List.getD_eq_getElem?_getD, List.getElem?_set_ne hu.symm]

lemma getD_set_thread_self {threads : List (Option (Waiter LockMode))}
    {x : Option (Waiter LockMode)} (ht : t < threads.length) :
    (threads.set t x).getD t none = x := by
  simp [List.getD_eq_getElem?_getD, ht]

lemma length_signal {threads threads' : List (Option (Waiter LockMode))}
    {p : LockMode → Bool} (h : signal p threads pick = some threads') :
    threads'.length = threads.length := by
  rw [signal] at h
  split_ifs at h
  · cases h
    rw [List.length_set]
  · cases h
    rfl

/-- The lock is not free for the thread, which has no calls. -/
lemma Ok.wait (h : s.Ok) (ht : t < s.threads.length) (hheld : s.heldBy t = [])
    (hn : s.n ≠ 0) (hreader : mode = .reader → s.n < 0) : (s.wait t mode).Ok where
  lengths := by
    rw [ReadersWritersLock.wait, List.length_set]
    exact h.lengths
  counted := h.counted
  outside := by
    intro u w hu
    by_cases hut : u = t
    · rw [hut]
      exact hheld
    · rw [ReadersWritersLock.wait, getD_set_thread hut] at hu
      exact h.outside u w hu
  readers := by
    intro u hu
    by_cases hut : u = t
    · rw [hut, ReadersWritersLock.wait, getD_set_thread_self ht] at hu
      cases hu
      exact hreader rfl
    · rw [ReadersWritersLock.wait, getD_set_thread hut] at hu
      exact h.readers u hu
  attended := fun hzero => absurd hzero hn

/-- The thread enters, and the lock is not free. -/
lemma Ok.enter (h : s.Ok) (ht : t < s.threads.length) {writerId : ℕ} (hn : n ≠ 0)
    (hcounted : Writing { s.enter t mode n with writerId } ∨
      Reading { s.enter t mode n with writerId })
    (hreaders : s.n < 0 → n < 0) : Ok { s.enter t mode n with writerId } where
  lengths := by
    simp only [ReadersWritersLock.enter, List.length_set]
    exact h.lengths
  counted := hcounted
  outside := by
    intro u w hu
    by_cases hut : u = t
    · rw [hut] at hu
      simp only [ReadersWritersLock.enter, getD_set_thread_self ht] at hu
      cases hu
    · simp only [ReadersWritersLock.enter, getD_set_thread hut] at hu
      simp only [ReadersWritersLock.enter, heldBy, getD_set_of_ne hut]
      exact h.outside u w hu
  readers := by
    intro u hu
    by_cases hut : u = t
    · rw [hut] at hu
      simp only [ReadersWritersLock.enter, getD_set_thread_self ht] at hu
      cases hu
    · simp only [ReadersWritersLock.enter, getD_set_thread hut] at hu
      exact hreaders (h.readers u hu)
  attended := fun hzero => absurd hzero hn

/-- The thread leaves, and whoever has to be woken is woken. -/
lemma Ok.leave (h : s.Ok) {threads : List (Option (Waiter LockMode))}
    (hs : Stirred s.threads threads) (hlength : threads.length = s.threads.length)
    (hcounted : Writing { s.leave t n with threads } ∨ Reading { s.leave t n with threads })
    (hreaders : ∀ u, threads.getD u none = some ⟨.reader, .blocked⟩ → n < 0)
    (hattended : n = 0 → (∃ u mode, threads.getD u none = some ⟨mode, .blocked⟩) →
      ∃ u mode, threads.getD u none = some ⟨mode, .signalled⟩) :
    Ok { s.leave t n with threads } where
  lengths := by
    simp only [ReadersWritersLock.leave, List.length_set]
    rw [h.lengths, hlength]
  counted := hcounted
  outside := by
    intro u w hu
    have hold : ∃ w, s.threads.getD u none = some w := by
      rcases hs.each u with heq | ⟨k, status, heq, -, -⟩
      · exact ⟨w, heq.symm.trans hu⟩
      · exact ⟨_, heq⟩
    obtain ⟨w', hw'⟩ := hold
    have hheld := h.outside u w' hw'
    simp only [ReadersWritersLock.leave, heldBy]
    by_cases hut : u = t
    · by_cases hlt : t < s.held.length
      · rw [hut, getD_set_self hlt]
        rw [hut, heldBy] at hheld
        rw [hheld]
        rfl
      · rw [List.set_eq_of_length_le (not_lt.mp hlt)]
        exact hheld
    · rw [getD_set_of_ne hut]
      exact hheld
  readers := hreaders
  attended := hattended

/-! ### Steps -/

/-- A thread enters as reader, or waits for the writer. -/
lemma Ok.readerInLoop (h : s.Ok) (ht : t < s.threads.length)
    (hheld : s.n < 0 → s.heldBy t = []) : (s.readerInLoop t).Ok := by
  rw [ReadersWritersLock.readerInLoop]
  by_cases hn : s.n < 0
  · rw [if_pos hn]
    exact h.wait ht (hheld hn) (ne_of_lt hn) fun _ => hn
  · rw [if_neg hn]
    have hr := h.reading hn
    have hlt : t < s.held.length := by
      rw [h.lengths]
      exact ht
    refine h.enter ht (by omega) (.inr (reading_set (n := s.n + 1) hlt ?_ (fun u _ => hr.2 u) ?_)) ?_
    · intro hmem
      rcases List.mem_cons.mp hmem with heq | hmem
      · cases heq
      · exact hr.2 t hmem
    · rw [hr.1, List.length_cons]
      push_cast
      omega
    · exact fun hneg => absurd hneg hn

/-- The writer enters again. -/
lemma Ok.enterAgain (h : s.Ok) (ht : t < s.threads.length) (hn : s.n < 0)
    (hid : s.writerId = t) : (s.enter t mode (s.n - 1)).Ok := by
  obtain ⟨w, hw, hlast, hdepth, hothers⟩ := h.writing hn
  obtain rfl : w = t := hw.symm.trans hid
  have hlt : w < s.held.length := by
    rw [h.lengths]
    exact ht
  refine h.enter ht (by omega) (.inl (writing_set (n := s.n - 1) hid hlt ?_ ?_ hothers)) (by omega)
  · rw [List.getLast?_cons, hlast]
    rfl
  · rw [List.length_cons]
    push_cast
    omega

/-- A thread enters as writer, or waits until the lock is free. -/
lemma Ok.writerInLoop (h : s.Ok) (ht : t < s.threads.length)
    (hheld : s.n ≠ 0 → s.heldBy t = []) : (s.writerInLoop t).Ok := by
  rw [ReadersWritersLock.writerInLoop]
  by_cases hn : s.n ≠ 0
  · rw [if_pos hn]
    exact h.wait ht (hheld hn) hn (by rintro ⟨⟩)
  · rw [if_neg hn]
    have hzero : s.n = 0 := not_not.mp hn
    have hnone := (h.reading (by omega)).heldBy_eq_nil hzero
    have hlt : t < s.held.length := by
      rw [h.lengths]
      exact ht
    refine h.enter ht (by omega) (.inl (writing_set rfl hlt ?_ ?_ fun u _ => hnone u)) (by omega)
    · rw [hnone t]
      rfl
    · rw [hnone t, hzero]
      rfl

/-- The writer leaves a call that is not its first. -/
lemma Ok.leaveInner (h : s.Ok) (hn : s.n < 0) (ht : s.heldBy t ≠ []) (hlt : t < s.held.length)
    (hrest : s.n + 1 ≠ 0) : (s.leave t (s.n + 1)).Ok := by
  have hw := h.writing hn
  have hid := hw.eq_writerId ht
  obtain ⟨w, hw, hlast, hdepth, hothers⟩ := hw
  obtain rfl : w = t := hw.symm.trans hid
  obtain ⟨mode, rest, hl⟩ := List.exists_cons_of_ne_nil ht
  rw [hl, List.length_cons] at hdepth
  have hne : rest ≠ [] := by
    rintro rfl
    simp at hdepth
    omega
  have hneg : s.n + 1 < 0 := by
    push_cast at hdepth
    omega
  refine h.leave (.refl _) rfl (.inl ?_) (fun _ _ => hneg) fun hzero => absurd hzero hrest
  rw [ReadersWritersLock.leave, hl, List.tail_cons]
  refine writing_set (n := s.n + 1) hid hlt ?_ ?_ hothers
  · rw [hl, List.getLast?_cons] at hlast
    obtain ⟨x, hx⟩ := List.exists_cons_of_ne_nil hne
    cases hrl : rest.getLast? with
    | none => exact absurd (List.getLast?_eq_none_iff.mp hrl) hne
    | some last =>
      rw [hrl] at hlast
      exact hlast
  · push_cast at hdepth
    omega

/-- The writer leaves the lock, and everybody is woken. -/
lemma Ok.leaveLast (h : s.Ok) (hn : s.n + 1 = 0) (ht : s.heldBy t ≠ [])
    (hlt : t < s.held.length) :
    Ok { s.leave t (s.n + 1) with threads := broadcast (fun _ => true) s.threads } := by
  have hw := h.writing (by omega)
  obtain ⟨w, hid, hlast, hdepth, hothers⟩ := hw
  obtain rfl : w = t := by
    by_contra hne
    exact ht (hothers t (Ne.symm hne))
  obtain ⟨mode, hl⟩ : ∃ mode, s.heldBy w = [mode] := by
    rw [← List.length_eq_one_iff]
    omega
  have hfree : ∀ u mode, (broadcast (fun _ => true) s.threads).getD u none
      ≠ some ⟨mode, .blocked⟩ := fun u mode => not_blocked_broadcast rfl
  refine h.leave (.broadcast _ _) (by simp [broadcast]) (.inr ?_) ?_ ?_
  · rw [ReadersWritersLock.leave, hl, List.tail_cons, hn]
    have hnone : ∀ u, (s.held.set w []).getD u [] = [] := by
      intro u
      by_cases hu : u = w
      · rw [hu, getD_set_self hlt]
      · rw [getD_set_of_ne hu]
        exact hothers u hu
    refine ⟨?_, ?_⟩
    · rw [reads, sum_eq_zero hnone]
      rfl
    · intro u
      rw [heldBy, hnone u]
      exact List.not_mem_nil
  · exact fun u hu => absurd hu (hfree u _)
  · rintro - ⟨u, mode, hu⟩
    exact absurd hu (hfree u mode)

/-- A reader leaves, and the last one wakes somebody. -/
lemma Ok.leaveReading (h : s.Ok) (hn : ¬s.n < 0) (ht : s.heldBy t ≠ []) (hlt : t < s.held.length)
    {threads : List (Option (Waiter LockMode))} (hs : Stirred s.threads threads)
    (hlength : threads.length = s.threads.length)
    (hwoken : s.n - 1 = 0 → (∃ u mode, threads.getD u none = some ⟨mode, .blocked⟩) →
      ∃ u mode, threads.getD u none = some ⟨mode, .signalled⟩) :
    Ok { s.leave t (s.n - 1) with threads } := by
  have hr := h.reading hn
  obtain ⟨mode, rest, hl⟩ := List.exists_cons_of_ne_nil ht
  refine h.leave hs hlength (.inr ?_) ?_ hwoken
  · rw [ReadersWritersLock.leave, hl, List.tail_cons]
    refine reading_set (n := s.n - 1) hlt ?_ (fun u _ => hr.2 u) ?_
    · intro hmem
      apply hr.2 t
      rw [hl]
      exact List.mem_cons_of_mem _ hmem
    · rw [hr.1, hl, List.length_cons]
      push_cast
      omega
  · exact fun u hu => absurd (h.readers u (hs.blocked hu)) hn

lemma ne_nil_of_head? {l : List LockMode} (h : l.head? = some mode) : l ≠ [] := by
  rintro rfl
  cases h

/-- Every step keeps what holds. -/
theorem Ok.step (h : s.Ok) {a : Step} (ha : s.Nested a) (hs : s.step a = some s') : s'.Ok := by
  cases a with
  | readerIn t =>
    simp only [ReadersWritersLock.step] at hs
    split_ifs at hs with hrun
    cases hs
    have ht := lt_of_running hrun
    rw [ReadersWritersLock.readerIn]
    by_cases hn : s.n < 0 ∧ s.writerId = t
    · rw [if_pos hn]
      exact h.enterAgain ht hn.1 hn.2
    · rw [if_neg hn]
      refine h.readerInLoop ht fun hneg => ?_
      by_contra hheld
      exact hn ⟨hneg, (h.writing hneg).eq_writerId hheld⟩
  | readerOut t pick =>
    simp only [ReadersWritersLock.step] at hs
    split_ifs at hs with hrun
    have hheld := ne_nil_of_head? ha
    have hlt : t < s.held.length := by
      rw [h.lengths]
      exact lt_of_running hrun
    rw [ReadersWritersLock.readerOut] at hs
    split_ifs at hs with hn hlast
    · cases hs
      refine h.leaveInner hn hheld hlt ?_
      -- the call that is left is not the first one, which was made as writer
      obtain ⟨w, -, hwriter, hdepth, hothers⟩ := h.writing hn
      obtain rfl : w = t := by
        by_contra hne
        exact hheld (hothers t (Ne.symm hne))
      intro hone
      obtain ⟨mode, hl⟩ : ∃ mode, s.heldBy w = [mode] := by
        rw [← List.length_eq_one_iff]
        omega
      have hread : (s.heldBy w).head? = some .reader := ha
      rw [hl] at hread hwriter
      cases hread
      cases hwriter
    · obtain ⟨threads, hthreads, rfl⟩ := Option.map_eq_some_iff.mp hs
      obtain ⟨hstir, hwoken⟩ := signal_cases hthreads
      refine h.leaveReading hn hheld hlt hstir ?_ ?_
      · exact length_signal hthreads
      · rintro - ⟨u, mode, hu⟩
        rcases hwoken with ⟨mode', -, -, hpick⟩ | hnone
        · exact ⟨pick, mode', hpick⟩
        · exact absurd (hstir.blocked hu) (hnone u mode rfl)
    · cases hs
      exact h.leaveReading hn hheld hlt (.refl _) rfl fun hone => absurd hone hlast
  | writerIn t =>
    simp only [ReadersWritersLock.step] at hs
    split_ifs at hs with hrun
    cases hs
    have ht := lt_of_running hrun
    rw [ReadersWritersLock.writerIn]
    by_cases hn : s.n < 0 ∧ s.writerId = t
    · rw [if_pos hn]
      exact h.enterAgain ht hn.1 hn.2
    · rw [if_neg hn]
      refine h.writerInLoop ht fun _ => ?_
      rcases ha with hheld | hheld
      · exact hheld
      · by_cases hneg : s.n < 0
        · exact absurd ⟨hneg, (h.writing hneg).eq_writerId (List.ne_nil_of_mem hheld)⟩ hn
        · exact absurd hheld ((h.reading hneg).2 t)
  | writerOut t =>
    simp only [ReadersWritersLock.step] at hs
    split_ifs at hs with hrun
    cases hs
    have hheld := ne_nil_of_head? ha
    have hlt : t < s.held.length := by
      rw [h.lengths]
      exact lt_of_running hrun
    have hneg : s.n < 0 := by
      by_contra hn
      exact (h.reading hn).2 t (List.mem_of_head? ha)
    rw [ReadersWritersLock.writerOut]
    by_cases hlast : s.n + 1 = 0
    · rw [if_pos hlast]
      exact h.leaveLast hlast hheld hlt
    · rw [if_neg hlast]
      exact h.leaveInner hneg hheld hlt hlast
  | resume t =>
    simp only [ReadersWritersLock.step] at hs
    split at hs
    · rename_i mode hwaits
      cases hs
      have ht := lt_of_running hwaits
      have hheld := h.outside t _ (getD_of_getElem? hwaits)
      cases mode with
      | reader => exact h.readerInLoop ht fun _ => hheld
      | writer => exact h.writerInLoop ht fun _ => hheld
    · cases hs
  | wake t =>
    simp only [ReadersWritersLock.step] at hs
    split at hs
    · rename_i mode hwaits
      cases hs
      have ht := lt_of_running hwaits
      have hblocked := getD_of_getElem? hwaits
      have hstir : Stirred s.threads (s.threads.set t (some ⟨mode, .signalled⟩)) :=
        .set hblocked (by simp)
      refine ⟨by simpa using h.lengths, h.counted, ?_, ?_, ?_⟩
      · intro u w hu
        rcases hstir.each u with heq | ⟨k, status, heq, -, -⟩
        · exact h.outside u w (heq.symm.trans hu)
        · exact h.outside u _ heq
      · exact fun u hu => h.readers u (hstir.blocked hu)
      · exact fun _ _ => ⟨t, mode, getD_set_thread_self ht⟩
    · cases hs

theorem ok_initial (threads : ℕ) : (initial threads).Ok where
  lengths := by simp [initial]
  counted := by
    right
    refine ⟨?_, ?_⟩
    · simp [initial, reads]
    · intro t
      simp [initial, heldBy]
  outside := by
    intro t w ht
    simp [initial] at ht
  readers := by
    intro t ht
    simp [initial] at ht
  attended := by
    rintro - ⟨t, mode, ht⟩
    simp [initial] at ht

/-! ### Runs -/

lemma Ok.safe (h : s.Ok) : (∃ w, s.WriterHolds w) ∨ s.ReadersHold ∨ s.Free := by
  rcases h.counted with ⟨w, -, hlast, hdepth, hothers⟩ | hr
  · exact .inl ⟨w, List.mem_of_getLast? hlast, hdepth, hothers⟩
  · right
    rcases hr.nonneg.eq_or_lt with hzero | hpos
    · exact .inr ⟨hzero.symm, hr.heldBy_eq_nil hzero.symm⟩
    · exact .inl ⟨hpos, hr⟩

lemma Ok.live (h : s.Ok) : s.Live := by
  intro t mode ht hgo
  cases mode with
  | reader => exact absurd (h.readers t ht) hgo
  | writer => exact h.attended hgo ⟨t, _, ht⟩

/-- The lock is safe, and no thread is left waiting, in every state that any number of threads
reach. -/
theorem readersWriters_safe_and_live {threads : ℕ} {s : ReadersWritersLock}
    (h : ReachedBy step Nested (initial threads) s) :
    ((∃ w, s.WriterHolds w) ∨ s.ReadersHold ∨ s.Free) ∧ s.Live := by
  have hok : s.Ok := h.invariant (ok_initial threads) fun _ _ _ hs ha hstep => hs.step ha hstep
  exact ⟨hok.safe, hok.live⟩

/-- A reader waits for the writer, and is in the lock when that has left. -/
theorem readersWriters_safe_and_live_two :
    ((∃ w, WriterHolds ⟨1, 0, [[], [.reader]], [none, none]⟩ w) ∨
      ReadersHold ⟨1, 0, [[], [.reader]], [none, none]⟩ ∨
      Free ⟨1, 0, [[], [.reader]], [none, none]⟩) ∧
      Live ⟨1, 0, [[], [.reader]], [none, none]⟩ := by
  have hrun : execute step (initial 2) [.writerIn 0, .readerIn 1, .writerOut 0, .resume 1]
      = some ⟨1, 0, [[], [.reader]], [none, none]⟩ := rfl
  refine readersWriters_safe_and_live (.execute .start ?_ hrun)
  refine ⟨.inl rfl, ?_⟩
  rintro s ⟨⟩
  refine ⟨trivial, ?_⟩
  rintro s ⟨⟩
  refine ⟨rfl, ?_⟩
  rintro s ⟨⟩
  exact ⟨trivial, fun _ _ => trivial⟩

end ReadersWritersLock

end OmniORB.Naming
