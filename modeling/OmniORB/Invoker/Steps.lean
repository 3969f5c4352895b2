import OmniORB.Invoker.Accounts

/-!
# The steps of the asynchronous invoker

Each of them keeps the accounts.
-/

namespace OmniORB

open Library AsyncWorker

namespace AsyncInvoker

variable {maxThreads : TaskPurpose → ℕ} {safe : Prop} {s s' : AsyncInvoker} {p : TaskPurpose} {w : ℕ}

lemma assert_of {cond : Prop} [Decidable cond] (hc : cond) : s.assert cond = s := by
  rw [assert, decide_eq_true hc, Bool.not_true, Bool.or_false]

@[simp] lemma pool_setPool_self (r : AsyncPool) : (s.setPool p r).pool p = r := by
  simp [setPool]

lemma pool_setPool_of_ne {q : TaskPurpose} (hq : q ≠ p) (r : AsyncPool) :
    (s.setPool p r).pool q = s.pool q := by
  simp [setPool, hq]

@[simp] lemma workers_setPool (r : AsyncPool) : (s.setPool p r).workers = s.workers := rfl

@[simp] lemma worker_setPool (r : AsyncPool) : (s.setPool p r).worker w = s.worker w := rfl

@[simp] lemma idleThreads_setPool (r : AsyncPool) : (s.setPool p r).idleThreads = s.idleThreads := rfl

@[simp] lemma failed_setPool (r : AsyncPool) : (s.setPool p r).failed = s.failed := rfl

@[simp] lemma workers_setWorker (x : AsyncWorker) :
    (s.setWorker w x).workers = s.workers.set w x := rfl

@[simp] lemma pool_setWorker (x : AsyncWorker) : (s.setWorker w x).pool = s.pool := rfl

@[simp] lemma idleThreads_setWorker (x : AsyncWorker) :
    (s.setWorker w x).idleThreads = s.idleThreads := rfl

@[simp] lemma failed_setWorker (x : AsyncWorker) : (s.setWorker w x).failed = s.failed := rfl

/-- A worker without a pool moves on. -/
lemma Ok.changeUnassigned (h : Ok maxThreads safe s) {x : AsyncWorker} {l : List ℕ}
    (hx : (s.worker w).phase ≠ .exited) (hold : (s.worker w).pool = none) (hnew : x.pool = none)
    (hok : x.Ok)
    (hl : ∀ v, l.count v = if v = w then if x.Unassigned then 1 else 0 else s.idleThreads.count v) :
    Ok maxThreads safe ({ s with idleThreads := l }.setWorker w x) := by
  refine h.change (p := .general) (movesTo_worker hx x) h.failed hok (by simp [hold]) (by simp [hnew])
    (fun _ _ => rfl) hl (fun v => ?_) ?_ ?_ (fun t => ?_) (h.anyTime _) (h.empty _) fun hsafe hne => ?_
  · have hi := h.idle .general v
    by_cases hv : v = w
    · subst hv
      simpa [Idle, hold, hnew] using hi
    · rw [if_neg hv]
      rfl
  · simp [counted, hold, hnew]
  · simpa [keeps, AsyncWorker.looks, hold, hnew] using h.limit .general
  · simp only [holds, hold, hnew, reduceCtorEq, decide_false, Bool.false_and]
    rfl
  · simpa [AsyncWorker.looks, hold, hnew] using h.looked hsafe .general hne

/-- A worker of the pool moves on, which stays in no list or in none. -/
lemma Ok.changeAssigned (h : Ok maxThreads safe s) {x : AsyncWorker} {r : AsyncPool}
    (hx : (s.worker w).phase ≠ .exited) (hold : (s.worker w).pool = some p)
    (hnew : ∀ q ≠ p, x.pool ≠ some q) (hok : x.Ok) (hun : ¬x.Unassigned)
    (hidle : ∀ v, r.idleThreads.count v =
      if v = w then if x.Idle p then 1 else 0 else (s.pool p).idleThreads.count v)
    (hthreads : r.poolThreads + (if (s.worker w).counted p then 1 else 0)
      = (s.pool p).poolThreads + if x.counted p then 1 else 0)
    (hlimit : s.workers.countP (keeps p) + (if x.keeps p then 1 else 0)
      ≤ maxThreads p + if (s.worker w).keeps p then 1 else 0)
    (htasks : ∀ t, r.executed.count t + r.tasks.countP (·.id = t)
      + (if x.holds p t then 1 else 0) + (if t < (s.pool p).accepted then 1 else 0)
      = (s.pool p).executed.count t + (s.pool p).tasks.countP (·.id = t)
      + (if (s.worker w).holds p t then 1 else 0) + if t < r.accepted then 1 else 0)
    (hany : ∀ task ∈ r.tasks, task.category = .anyTime)
    (hempty : r.idleThreads ≠ [] → r.tasks = [])
    (hlooked : safe → r.tasks ≠ [] → (if (s.worker w).looks p then 1 else 0)
      < s.workers.countP (AsyncWorker.looks p) + if x.looks p then 1 else 0) :
    Ok maxThreads safe ((s.setPool p r).setWorker w x) := by
  refine h.change (p := p) (movesTo_worker hx x) h.failed hok (fun q hq => ?_) hnew
    (fun q hq => pool_setPool_of_ne hq r) (fun v => ?_) ?_ ?_ hlimit ?_ ?_ ?_ ?_
  · rw [hold]
    exact fun hs => hq (Option.some.inj hs).symm
  · have hu := h.unassigned v
    by_cases hv : v = w
    · subst hv
      rw [if_pos rfl, if_neg hun]
      rwa [if_neg (by simp [Unassigned, hold])] at hu
    · rw [if_neg hv]
      rfl
  all_goals simpa using by assumption

/-! ### mid_run -/

lemma Ok.workerStart (h : Ok maxThreads safe s)
    (hx : (s.worker w).phase = .starting ∨ (s.worker w).phase = .waiting)
    (hp : (s.worker w).pool = some p) : Ok maxThreads safe (s.workerStart w p) := by
  have hok := h.workers w
  have htask : (s.worker w).task.isSome := by
    rcases hx with hx | hx
    all_goals
      simp only [AsyncWorker.Ok, hx, hp, Option.isSome_some] at hok
      exact hok.symm
  have hidle := h.idle p w
  refine h.changeAssigned (by rcases hx with hx | hx <;> simp [hx]) hp ?_ ?_ ?_ (fun v => ?_) ?_ ?_
    (fun t => ?_) (h.anyTime p) (h.empty p) fun hsafe hne => ?_
  · simp [hp, eq_comm]
  · simp [AsyncWorker.Ok, hp]
  · simp [Unassigned]
  · by_cases hv : v = w
    · subst hv
      rw [if_pos rfl, if_neg (by simp [Idle])]
      rcases hx with hx | hx
      all_goals simpa [Idle, hx] using hidle
    · rw [if_neg hv]
  · rcases hx with hx | hx
    all_goals simp [counted, hx]
  · rcases hx with hx | hx
    all_goals simpa [keeps, AsyncWorker.looks, hx] using h.limit p
  · rcases hx with hx | hx
    all_goals simp [holds, hx]
  · have hl := h.looked hsafe p hne
    rcases hx with hx | hx
    all_goals simpa [AsyncWorker.looks, hx] using hl

lemma Ok.midRun (h : Ok maxThreads safe s) (hx : (s.worker w).phase = .starting) :
    Ok maxThreads safe (s.midRun w) := by
  rw [AsyncInvoker.midRun]
  split
  next hp =>
    have hun := h.unassigned w
    rw [if_neg (by simp [Unassigned, hx])] at hun
    rw [addIdle, assert_of (by simpa [isLinked, hp] using List.count_eq_zero.mp hun)]
    simp only [hp]
    refine h.changeUnassigned (by simp [hx]) hp rfl ?_ fun v => ?_
    · have hok := h.workers w
      simpa [AsyncWorker.Ok, hx, hp] using hok
    · by_cases hv : v = w
      · subst hv
        simp [Unassigned, hun]
      · simp [hv, Ne.symm hv]
  next p hp => exact h.workerStart (.inl hx) hp

/-- The time is up that a worker without a pool waits. -/
lemma Ok.exit (h : Ok maxThreads safe s) (hx : (s.worker w).Unassigned) :
    Ok maxThreads safe
      ((s.remIdle w (s.worker w)).setWorker w { s.worker w with phase := .exited }) := by
  have hun := h.unassigned w
  rw [if_pos hx] at hun
  have hok := h.workers w
  obtain ⟨hx, hp⟩ := hx
  rw [remIdle, assert_of]
  · simp only [hp]
    refine h.changeUnassigned (by simp [hx]) hp rfl ?_ fun v => ?_
    · simpa [AsyncWorker.Ok, hx, hp] using hok
    · by_cases hv : v = w
      · subst hv
        simp [Unassigned, hun]
      · rw [List.count_erase_of_ne hv, if_neg hv]
  · simpa [isLinked, hp] using List.count_pos_iff.mp (by omega)

/-! ### real_run -/

/-- There is another worker that is to look at the queue. -/
lemma one_lt_countP (hw : (s.worker w).looks p = true)
    (h : ∃ v ≠ w, (s.worker v).looks p = true) :
    1 < s.workers.countP (AsyncWorker.looks p) := by
  obtain ⟨v, hv, hlooks⟩ := h
  have hx : (s.worker w).phase ≠ .exited := by
    intro hx
    simp [AsyncWorker.looks, hx] at hw
  have hm : MovesTo blank s.workers (s.workers.set w blank) w blank := movesTo_worker hx blank
  have hc := hm.count (AsyncWorker.looks p) (by simp [AsyncWorker.looks, blank])
  have hother : (s.workers.set w blank).getD v blank = s.worker v := hm.others v hv
  rw [← hother] at hlooks
  have hpos := countP_pos_of_getD hlooks (by simp [AsyncWorker.looks, blank])
  have hold : (s.workers.getD w blank).looks p = true := hw
  rw [if_pos hold, if_neg (by simp [AsyncWorker.looks, blank])] at hc
  omega

/-- The worker has found or was given a task, which it executes now. -/
lemma Ok.execute (h : Ok maxThreads safe s) {task : OmniTask}
    (hx : (s.worker w).phase = .running ∨ (s.worker w).phase = .idle)
    (hp : (s.worker w).pool = some p) (htask : (s.worker w).task = some task)
    (hmet : safe → (s.pool p).tasks ≠ [] → task.category = .immediateDispatch →
      ∃ v ≠ w, (s.worker v).looks p = true) : Ok maxThreads safe (s.execute w p task) := by
  have hidle := h.idle p w
  have hthreads := h.threads p
  obtain ⟨hexited, hcounted, hlooks, hholds⟩ : (s.worker w).phase ≠ .exited ∧
      (s.worker w).counted p = true ∧ (s.worker w).looks p = true ∧
      ∀ t, (s.worker w).holds p t = decide (task.id = t) := by
    rcases hx with hx | hx
    all_goals simp [counted, AsyncWorker.looks, holds, hx, hp, htask]
  have hpos : 0 < s.workers.countP (counted p) :=
    countP_pos_of_getD hcounted (by simp [counted])
  refine h.changeAssigned hexited hp (fun q hq => ?_) ?_ ?_ (fun v => ?_) ?_ ?_
    (fun t => ?_) (h.anyTime p) (h.empty p) fun hsafe hne => ?_
  · exact fun hs => hq (Option.some.inj hs).symm
  · exact ⟨rfl, task, rfl, rfl⟩
  · simp [Unassigned]
  · change (s.pool p).idleThreads.count v = _
    by_cases hv : v = w
    · subst hv
      rw [if_pos rfl, if_neg (by simp [Idle])]
      simpa [Idle, htask] using hidle
    · rw [if_neg hv]
  · rw [hcounted]
    rcases hcat : task.category
    · simp [counted]
    · simp [counted]
      omega
  · have hl := h.limit p
    have hkeeps : (s.worker w).keeps p = decide (task.category = .anyTime) := by
      simp [keeps, hlooks, htask]
    rw [hkeeps]
    rcases hcat : task.category
    · simpa [keeps, AsyncWorker.looks, hcat] using hl
    · simpa [keeps, AsyncWorker.looks, hcat] using hl
  · rw [hholds t]
    simp [holds, List.count_cons]
    omega
  · rw [hlooks]
    rcases hcat : task.category
    · have hpos : 0 < s.workers.countP (AsyncWorker.looks p) := h.looked hsafe p hne
      simpa [AsyncWorker.looks] using hpos
    · simpa [AsyncWorker.looks] using one_lt_countP hlooks (hmet hsafe hne hcat)

/-- The worker takes the first task of the queue, and executes it. -/
lemma Ok.dequeue (h : Ok maxThreads safe s) {task : OmniTask} {tasks : List OmniTask}
    (hx : (s.worker w).phase = .running) (hp : (s.worker w).pool = some p)
    (htask : (s.worker w).task = none) (hq : (s.pool p).tasks = task :: tasks) :
    Ok maxThreads safe ((s.setPool p { s.pool p with tasks }).execute w p task) := by
  have hidle := h.idle p w
  have hany : task.category = .anyTime := h.anyTime p task (by simp [hq])
  have hempty : (s.pool p).idleThreads = [] := by
    by_contra hne
    have := h.empty p hne
    simp [hq] at this
  have heq : (s.setPool p { s.pool p with tasks }).execute w p task
      = (s.setPool p { s.pool p with tasks, executed := task.id :: (s.pool p).executed }).setWorker w
        ⟨.executing false, some p, some task⟩ := by
    simp [AsyncInvoker.execute, hany, setPool]
  rw [heq]
  refine h.changeAssigned (by simp [hx]) hp (fun q hq => ?_) ?_ ?_ (fun v => ?_) ?_ ?_
    (fun t => ?_) (fun t ht => h.anyTime p t ?_) (fun hne => absurd hempty hne) fun hsafe hne => ?_
  · exact fun hs => hq (Option.some.inj hs).symm
  · exact ⟨rfl, task, rfl, by simp [hany]⟩
  · simp [Unassigned]
  · by_cases hv : v = w
    · subst hv
      rw [if_pos rfl, if_neg (by simp [Idle])]
      simpa [Idle, hx] using hidle
    · rw [if_neg hv]
  · simp [counted, hx, hp]
  · have hl := h.limit p
    simpa [keeps, AsyncWorker.looks, hx, hp, htask, hany] using hl
  · simp [holds, hq, htask, List.count_cons, List.countP_cons]
    omega
  · rw [hq]
    exact List.mem_cons_of_mem _ ht
  · have hlooks : (s.worker w).looks p = true := by simp [AsyncWorker.looks, hx, hp]
    have hpos : 0 < s.workers.countP (AsyncWorker.looks p) :=
      countP_pos_of_getD hlooks (by simp [AsyncWorker.looks])
    rw [hlooks]
    simpa [AsyncWorker.looks] using hpos

/-- The worker finds nothing to do, and waits. -/
lemma Ok.goIdle (h : Ok maxThreads safe s) (hx : (s.worker w).phase = .running)
    (hp : (s.worker w).pool = some p) (htask : (s.worker w).task = none)
    (hq : (s.pool p).tasks = []) : Ok maxThreads safe
      ((s.addIdle w (s.worker w)).setWorker w { s.worker w with phase := .idle }) := by
  have hidle := h.idle p w
  rw [if_neg (by simp [Idle, hx])] at hidle
  rw [addIdle, assert_of (by simpa [isLinked, hp] using List.count_eq_zero.mp hidle)]
  simp only [hp]
  refine h.changeAssigned (by simp [hx]) hp (fun q hq => ?_) ?_ ?_ (fun v => ?_) ?_ ?_
    (fun t => ?_) (h.anyTime p) (fun _ => hq) fun hsafe hne => absurd hq hne
  · exact fun hs => hq (Option.some.inj hs).symm
  · simp [AsyncWorker.Ok]
  · simp [Unassigned]
  · by_cases hv : v = w
    · subst hv
      simp [Idle, htask, hidle]
    · simp [hv, Ne.symm hv]
  · simp [counted, hx, hp]
  · have hl := h.limit p
    simpa [keeps, AsyncWorker.looks, hx, hp, htask] using hl
  · simp [holds, hx, htask]

lemma Ok.realRun (h : Ok maxThreads safe s) (hx : (s.worker w).phase = .running)
    (hp : (s.worker w).pool = some p)
    (hmet : safe → (s.pool p).tasks ≠ [] → (s.worker w).task.any
      (fun task => task.category = .immediateDispatch) → ∃ v ≠ w, (s.worker v).looks p = true) :
    Ok maxThreads safe (s.realRun w p) := by
  rw [AsyncInvoker.realRun]
  split
  next task htask =>
    exact h.execute (.inl hx) hp htask fun hsafe hne hcat => hmet hsafe hne (by simp [htask, hcat])
  next htask =>
    split
    next task tasks hq => exact h.dequeue hx hp htask hq
    next hq => exact h.goIdle hx hp htask hq

/-- The time is up that an idle worker waits. -/
lemma Ok.giveUp (h : Ok maxThreads safe s) (hx : (s.worker w).Idle p) :
    Ok maxThreads safe
      ((s.remIdle w (s.worker w)).setWorker w { s.worker w with phase := .leaving }) := by
  have hidle := h.idle p w
  rw [if_pos hx] at hidle
  have hmem : w ∈ (s.pool p).idleThreads := List.count_pos_iff.mp (by omega)
  have hempty := h.empty p (List.ne_nil_of_mem hmem)
  obtain ⟨hx, hp, htask⟩ := hx
  rw [remIdle, assert_of (by simpa [isLinked, hp] using hmem)]
  simp only [hp]
  refine h.changeAssigned (by simp [hx]) hp (fun q hq => ?_) ?_ ?_ (fun v => ?_) ?_ ?_
    (fun t => ?_) (h.anyTime p) (fun _ => hempty) fun hsafe hne => absurd hempty hne
  · exact fun hs => hq (Option.some.inj hs).symm
  · simp [AsyncWorker.Ok, htask]
  · simp [Unassigned]
  · by_cases hv : v = w
    · subst hv
      simp [Idle, hidle]
    · rw [List.count_erase_of_ne hv, if_neg hv]
  · simp [counted, hx, hp]
  · have hl := h.limit p
    simp only [keeps, AsyncWorker.looks, hx, hp, htask]
    simp
    omega
  · simp [holds, hx, htask]

/-- A worker that leaves the loop if the condition is true. -/
lemma looks_leavingIf (p : TaskPurpose) (c : Prop) [Decidable c] :
    AsyncWorker.looks p ⟨if c then .leaving else .running, some p, none⟩ = !decide c := by
  split_ifs with hc
  all_goals simp [AsyncWorker.looks, hc]

lemma keeps_leavingIf (p : TaskPurpose) (c : Prop) [Decidable c] :
    AsyncWorker.keeps p ⟨if c then .leaving else .running, some p, none⟩ = !decide c := by
  rw [keeps, looks_leavingIf]
  simp

lemma Ok.finishTask (h : Ok maxThreads safe s) {immediate : Bool}
    (hx : (s.worker w).phase = .executing immediate) (hp : (s.worker w).pool = some p)
    (hmet : safe → (s.pool p).tasks ≠ [] → immediate = false →
      maxThreads p < (s.pool p).poolThreads → ∃ v ≠ w, (s.worker v).looks p = true) :
    Ok maxThreads safe (s.finishTask maxThreads w p immediate) := by
  have hidle := h.idle p w
  have hthreads := h.threads p
  have hl := h.limit p
  have hle : s.workers.countP (keeps p) ≤ s.workers.countP (counted p) :=
    List.countP_mono_left fun x _ hk => counted_of_keeps hk
  obtain ⟨-, task, htask, himm⟩ : (s.worker w).pool.isSome ∧ ∃ task, (s.worker w).task = some task ∧
      immediate = decide (task.category = .immediateDispatch) := by
    have hok := h.workers w
    rwa [AsyncWorker.Ok, hx] at hok
  rw [AsyncInvoker.finishTask]
  refine h.changeAssigned (by simp [hx]) hp (fun q hq => ?_) ?_ ?_ (fun v => ?_) ?_ ?_
    (fun t => ?_) (h.anyTime p) (h.empty p) fun hsafe hne => ?_
  · exact fun hs => hq (Option.some.inj hs).symm
  · split_ifs
    all_goals simp [AsyncWorker.Ok]
  · split_ifs
    all_goals simp [Unassigned]
  · change (s.pool p).idleThreads.count v = _
    by_cases hv : v = w
    · subst hv
      rw [if_pos rfl, if_neg (by split_ifs <;> simp [Idle])]
      simpa [Idle, hx] using hidle
    · rw [if_neg hv]
  · cases immediate
    all_goals
      split_ifs
      all_goals simp_all [counted]
  · cases immediate
    · have hkeeps : (s.worker w).keeps p = true := by
        have hany : task.category = .anyTime := by
          rcases hc : task.category
          · rfl
          · simp [hc] at himm
        simp [keeps, AsyncWorker.looks, hx, hp, htask, hany]
      rw [hkeeps, keeps_leavingIf, if_pos rfl]
      split_ifs <;> omega
    · rw [keeps_leavingIf]
      have hkeeps : (s.worker w).keeps p = false := by simp [keeps, AsyncWorker.looks, hx]
      rw [hkeeps]
      simp only [if_true, Bool.not_eq_true', decide_eq_false_iff_not, Bool.false_eq_true, if_false]
      split_ifs <;> omega
  · simp [holds, hx]
  · cases immediate
    · have hlooks : (s.worker w).looks p = true := by simp [AsyncWorker.looks, hx, hp]
      rw [hlooks, looks_leavingIf, if_pos rfl]
      simp only [Bool.false_eq_true, if_false, Bool.not_eq_true', decide_eq_false_iff_not]
      split_ifs with hmax
      · exact one_lt_countP hlooks (hmet hsafe hne rfl hmax)
      · have hpos : 0 < s.workers.countP (AsyncWorker.looks p) := h.looked hsafe p hne
        omega
    · have hpos : 0 < s.workers.countP (AsyncWorker.looks p) := h.looked hsafe p hne
      have hlooks : (s.worker w).looks p = false := by simp [AsyncWorker.looks, hx, hp]
      rw [hlooks]
      exact Nat.lt_add_right _ hpos

lemma Ok.leave (h : Ok maxThreads safe s) (hx : (s.worker w).phase = .leaving)
    (hp : (s.worker w).pool = some p) : Ok maxThreads safe (s.leave w p) := by
  have hidle := h.idle p w
  have hthreads := h.threads p
  have htask : (s.worker w).task = none := by
    have hok := h.workers w
    rw [AsyncWorker.Ok, hx] at hok
    exact hok.2
  have hcounted : (s.worker w).counted p = true := by simp [counted, hx, hp]
  have hpos : 0 < s.workers.countP (counted p) :=
    countP_pos_of_getD hcounted (by simp [counted])
  refine h.changeAssigned (by simp [hx]) hp (fun q hq => ?_) ?_ ?_ (fun v => ?_) ?_ ?_
    (fun t => ?_) (h.anyTime p) (h.empty p) fun hsafe hne => ?_
  · simp [hp, Ne.symm hq]
  · simp [AsyncWorker.Ok, hp, htask]
  · simp [Unassigned]
  · by_cases hv : v = w
    · subst hv
      rw [if_pos rfl, if_neg (by simp [Idle])]
      simpa [Idle, hx] using hidle
    · rw [if_neg hv]
  · rw [hcounted]
    simp [counted]
    omega
  · simpa [keeps, AsyncWorker.looks, hx] using h.limit p
  · simp [holds, htask]
  · simpa [AsyncWorker.looks, hx] using h.looked hsafe p hne

lemma Ok.workerStop (h : Ok maxThreads safe s) (hx : (s.worker w).phase = .released)
    (hp : (s.worker w).pool = some p) : Ok maxThreads safe (s.workerStop w p) := by
  have hidle := h.idle p w
  have htask : (s.worker w).task = none := by
    have hok := h.workers w
    rw [AsyncWorker.Ok, hx] at hok
    exact hok.2
  refine h.changeAssigned (by simp [hx]) hp (fun q hq => ?_) ?_ ?_ (fun v => ?_) ?_ ?_
    (fun t => ?_) (h.anyTime p) (h.empty p) fun hsafe hne => ?_
  · simp
  · simp [AsyncWorker.Ok, htask]
  · simp [Unassigned]
  · by_cases hv : v = w
    · subst hv
      rw [if_pos rfl, if_neg (by simp [Idle])]
      simpa [Idle, hx] using hidle
    · rw [if_neg hv]
  · simp [counted, hx]
  · simpa [keeps, AsyncWorker.looks, hx] using h.limit p
  · simp [holds, htask]
  · simpa [AsyncWorker.looks, hx] using h.looked hsafe p hne

/-! ### insert -/

lemma handle_of {x : AsyncWorker} {task : OmniTask} (hx : s.worker w = x) (hp : x.pool ≠ none)
    (htask : x.task = none) : s.handle w task = s.setWorker w { x with task := some task } := by
  rw [handle, assert_of (by rw [hx]; exact ⟨hp, htask⟩), hx]

lemma assign_of {x : AsyncWorker} (hx : s.worker w = x) (hp : x.pool = none) :
    s.assign w p = s.setWorker w { x with pool := some p } := by
  rw [assign, assert_of (by rw [hx]; exact hp), hx]

@[simp] lemma setPool_setPool (r r' : AsyncPool) : (s.setPool p r).setPool p r' = s.setPool p r' := by
  simp [setPool]

/-- An idle worker of the pool is given the task. -/
lemma Ok.insertIdle (h : Ok maxThreads safe s) (category : TaskCategory) {l : List ℕ}
    (hw : (s.pool p).idleThreads = w :: l) : Ok maxThreads safe (s.insert maxThreads p category) := by
  have hmem : w ∈ (s.pool p).idleThreads := by simp [hw]
  have hx : (s.worker w).Idle p := by
    have hidle := h.idle p w
    have hpos := List.count_pos_iff.mpr hmem
    by_contra hx
    rw [if_neg hx] at hidle
    omega
  have hidle := h.idle p w
  rw [if_pos hx] at hidle
  have hempty := h.empty p (List.ne_nil_of_mem hmem)
  obtain ⟨hx, hp, htask⟩ := hx
  have heq : s.insert maxThreads p category = (s.setPool p { s.pool p with
      accepted := (s.pool p).accepted + 1
      idleThreads := (s.pool p).idleThreads.erase w }).setWorker w
        { s.worker w with task := some ⟨(s.pool p).accepted, category⟩ } := by
    simp only [AsyncInvoker.insert, pool_setPool_self, hw, worker_setPool]
    rw [remIdle, assert_of]
    · simp only [hp, pool_setPool_self, setPool_setPool]
      rw [handle_of (x := s.worker w) (worker_setPool _) (by simp [hp]) htask, hp]
    · simp [isLinked, hp]
  rw [heq]
  refine h.changeAssigned (by simp [hx]) hp (fun q hq => ?_) ?_ ?_ (fun v => ?_) ?_ ?_
    (fun t => ?_) (h.anyTime p) (fun _ => hempty) fun hsafe hne => absurd hempty hne
  · simp [hp, Ne.symm hq]
  · simp [AsyncWorker.Ok, hx, hp]
  · simp [Unassigned, hx]
  · by_cases hv : v = w
    · subst hv
      simp [Idle, hidle]
    · rw [List.count_erase_of_ne hv, if_neg hv]
  · simp [counted, hx, hp]
  · have hl := h.limit p
    have hkeeps : (s.worker w).keeps p = true := by simp [keeps, AsyncWorker.looks, hx, hp, htask]
    rw [hkeeps, if_pos rfl]
    split_ifs <;> omega
  · simp [holds, hx, hp, htask]
    split_ifs <;> omega

/-- A worker without a pool, or a new one, is given a task. -/
lemma Ok.giveNew (h : Ok maxThreads safe s) {category : TaskCategory} {phase : WorkerPhase}
    {workers : List AsyncWorker} {idleThreads : List ℕ}
    (hm : MovesTo blank s.workers workers w ⟨phase, some p, some ⟨(s.pool p).accepted, category⟩⟩)
    (hold : (s.worker w).pool = none) (hphase : phase = .starting ∨ phase = .waiting)
    (hl : ∀ v, idleThreads.count v = if v = w then 0 else s.idleThreads.count v)
    (hroom : category = .immediateDispatch ∨ (s.pool p).poolThreads < maxThreads p) :
    Ok maxThreads safe ({ s with workers, idleThreads }.setPool p { s.pool p with
      accepted := (s.pool p).accepted + 1
      poolThreads := (s.pool p).poolThreads + 1 }) := by
  have hle : s.workers.countP (keeps p) ≤ s.workers.countP (counted p) :=
    List.countP_mono_left fun x _ hk => counted_of_keeps hk
  have hthreads := h.threads p
  have hlimit := h.limit p
  refine h.change (p := p) hm h.failed ?_ (by simp [hold]) (by simp [eq_comm])
    (fun q hq => pool_setPool_of_ne hq _) (fun v => ?_) (fun v => ?_) ?_ ?_ (fun t => ?_) ?_ ?_
    fun hsafe hne => ?_
  · rcases hphase with rfl | rfl
    all_goals simp [AsyncWorker.Ok]
  · rw [idleThreads_setPool, hl v]
    simp [Unassigned]
  · have hidle := h.idle p v
    rw [pool_setPool_self]
    by_cases hv : v = w
    · subst hv
      rw [if_neg (by simp [Idle, hold])] at hidle
      simpa [Idle] using hidle
    · rw [if_neg hv]
  · rw [pool_setPool_self]
    rcases hphase with rfl | rfl
    all_goals simp [counted, hold]
  · have hkeeps : (s.worker w).keeps p = false := by simp [keeps, AsyncWorker.looks, hold]
    rw [hkeeps]
    rcases hroom with rfl | hroom
    · simpa [keeps] using hlimit
    · split_ifs <;> omega
  · rw [pool_setPool_self]
    rcases hphase with rfl | rfl
    all_goals
      simp [holds, hold]
      split_ifs <;> omega
  · simpa using h.anyTime p
  · simpa using h.empty p
  · rw [pool_setPool_self] at hne
    have hpos : 0 < s.workers.countP (AsyncWorker.looks p) := h.looked hsafe p hne
    have hlooks : (s.worker w).looks p = false := by simp [AsyncWorker.looks, hold]
    rw [hlooks]
    exact Nat.lt_add_right _ hpos

lemma worker_setWorker (hx : (s.worker w).phase ≠ .exited) (x : AsyncWorker) :
    (s.setWorker w x).worker w = x := (movesTo_worker hx x).self

/-- `assign` and `handle`, of a worker that waits for a pool. -/
lemma handle_assign {phase : WorkerPhase} {task : OmniTask} (hx : s.worker w = ⟨phase, none, none⟩)
    (hphase : phase ≠ .exited) :
    ((s.assign w p).setPool p { (s.assign w p).pool p with
      poolThreads := ((s.assign w p).pool p).poolThreads + 1 }).handle w task
      = (s.setPool p { s.pool p with poolThreads := (s.pool p).poolThreads + 1 }).setWorker w
        ⟨phase, some p, some task⟩ := by
  have hne : (s.worker w).phase ≠ .exited := by rw [hx]; exact hphase
  rw [assign_of hx rfl, handle_of ((worker_setPool _).trans (worker_setWorker hne _)) (by simp) rfl]
  simp [setWorker, setPool]

/-- The worker that `getWorker` found is given the task. -/
lemma Ok.insertTo (h : Ok maxThreads safe s) {category : TaskCategory} {phase : WorkerPhase}
    (hx : s'.worker w = ⟨phase, none, none⟩) (hphase : phase = .starting ∨ phase = .waiting)
    (hm : ∀ x, MovesTo blank s.workers (s'.workers.set w x) w x) (hold : (s.worker w).pool = none)
    (hpool : s'.pool = (s.setPool p { s.pool p with accepted := (s.pool p).accepted + 1 }).pool)
    (hl : ∀ v, s'.idleThreads.count v = if v = w then 0 else s.idleThreads.count v)
    (hfailed : s'.failed = s.failed)
    (hroom : category = .immediateDispatch ∨ (s.pool p).poolThreads < maxThreads p) :
    Ok maxThreads safe (((s'.assign w p).setPool p { (s'.assign w p).pool p with
      poolThreads := ((s'.assign w p).pool p).poolThreads + 1 }).handle w
        ⟨(s.pool p).accepted, category⟩) := by
  have hg := h.giveNew (hm _) hold hphase hl hroom
  rw [handle_assign hx (by rcases hphase with rfl | rfl <;> simp)]
  obtain ⟨workers, idleThreads, pool, failed⟩ := s'
  obtain rfl : pool = _ := hpool
  obtain rfl : failed = _ := hfailed
  simpa [setWorker, setPool] using hg

lemma Ok.insertNew (h : Ok maxThreads safe s) (category : TaskCategory)
    (hw : (s.pool p).idleThreads = [])
    (hroom : category = .immediateDispatch ∨ (s.pool p).poolThreads < maxThreads p) :
    Ok maxThreads safe (s.insert maxThreads p category) := by
  have hinsert : s.insert maxThreads p category = (let c := (s.setPool p { s.pool p with
      accepted := (s.pool p).accepted + 1 }).getWorker p
    (c.1.setPool p { c.1.pool p with poolThreads := (c.1.pool p).poolThreads + 1 }).handle c.2
      ⟨(s.pool p).accepted, category⟩) := by
    simp only [AsyncInvoker.insert, pool_setPool_self, hw, if_pos hroom]
  rw [hinsert, getWorker, anyWorker, idleThreads_setPool]
  rcases hl : s.idleThreads with _ | ⟨w, l⟩
  · have hself : s.workers.getD s.workers.length blank = blank := (movesTo_self _).self
    have hold : (s.worker s.workers.length).pool = none := congrArg AsyncWorker.pool hself
    refine h.insertTo (movesTo_append s.workers ⟨.starting, none, none⟩).self (.inl rfl)
      (fun x => ?_) hold rfl (fun v => ?_) rfl hroom
    · simpa using movesTo_append s.workers x
    · simp [hl]
  · have hun := h.unassigned w
    have hx : (s.worker w).Unassigned := by
      by_contra hx
      simp [hl, if_neg hx] at hun
    rw [if_pos hx] at hun
    have hexited : (s.worker w).phase ≠ .exited := by simp [hx.1]
    have htask : (s.worker w).task = none := by
      have hok := h.workers w
      simpa [AsyncWorker.Ok, hx.1, hx.2] using hok
    dsimp only
    rw [remIdle, assert_of]
    · simp only [worker_setPool, hx.2]
      refine h.insertTo ?_ (.inr hx.1) (fun x => movesTo_worker hexited x) hx.2 rfl (fun v => ?_) rfl hroom
      · exact congrArg₂ (AsyncWorker.mk _) hx.2 htask
      · by_cases hv : v = w
        · subst hv
          simp [hun]
        · rw [if_neg hv]
          exact List.count_erase_of_ne hv
    · simp [isLinked, hx.2, hl]

/-- The task is put into the queue. -/
lemma Ok.insertQueue (h : Ok maxThreads safe s) (category : TaskCategory)
    (hw : (s.pool p).idleThreads = [])
    (hroom : ¬(category = .immediateDispatch ∨ (s.pool p).poolThreads < maxThreads p))
    (hmet : safe → ∃ v, (s.worker v).looks p = true) :
    Ok maxThreads safe (s.insert maxThreads p category) := by
  have hany : category = .anyTime := by
    cases category
    · rfl
    · exact absurd (.inl rfl) hroom
  have heq : s.insert maxThreads p category = s.setPool p { s.pool p with
      accepted := (s.pool p).accepted + 1
      tasks := (s.pool p).tasks ++ [⟨(s.pool p).accepted, category⟩] } := by
    simp only [AsyncInvoker.insert, pool_setPool_self, hw, if_neg hroom]
    simp [setPool]
  have hblank : s.worker s.workers.length = blank := (movesTo_self s.workers).self
  rw [heq]
  refine h.change (p := p) (movesTo_self s.workers) h.failed (by simp [AsyncWorker.Ok, blank])
    (by simp [hblank, blank]) (by simp [blank]) (fun q hq => pool_setPool_of_ne hq _) (fun v => ?_)
    (fun v => ?_) ?_ ?_ (fun t => ?_) (fun t ht => ?_) (fun hne => ?_) fun hsafe hne => ?_
  · have hun := h.unassigned v
    by_cases hv : v = s.workers.length
    · subst hv
      rwa [if_pos rfl, ← hblank]
    · rw [if_neg hv]
      rfl
  · have hidle := h.idle p v
    rw [pool_setPool_self]
    by_cases hv : v = s.workers.length
    · subst hv
      rwa [if_pos rfl, ← hblank]
    · rw [if_neg hv]
  · rw [hblank, pool_setPool_self]
  · rw [hblank]
    exact Nat.add_le_add_right (h.limit p) _
  · rw [hblank, pool_setPool_self]
    simp only [List.countP_append, List.countP_singleton, decide_eq_true_eq]
    split_ifs <;> omega
  · rw [pool_setPool_self] at ht
    rcases List.mem_append.mp ht with ht | ht
    · exact h.anyTime p t ht
    · rw [List.mem_singleton.mp ht]
      exact hany
  · rw [pool_setPool_self] at hne
    exact absurd hw hne
  · rw [hblank]
    obtain ⟨v, hv⟩ := hmet hsafe
    have hpos : 0 < s.workers.countP (AsyncWorker.looks p) :=
      countP_pos_of_getD hv (by simp [AsyncWorker.looks])
    omega

lemma ok_init : Ok maxThreads safe init := by
  refine ⟨rfl, ?_, ?_, ?_, ?_, ?_, ?_, ?_, ?_, ?_⟩
  all_goals simp [init, worker, AsyncWorker.Ok, Unassigned, Idle]

end AsyncInvoker

end OmniORB
