import OmniORB.Poa.Requests

/-!
# The counters of a POA

Whatever the threads do and in whatever order, the counters of a POA are the numbers of requests in
it, a request leaves as often as it entered, and who waits for the requests is woken.
-/

namespace OmniORB

open Library List

/-! ### What a thread has to give back -/

namespace RequestStage

/-- The calls of `enterAdapter` that a thread has not made up for, but for that of its hook. -/
def inThis : RequestStage → ℕ
  | .takeActivator | .incarnate | .setActive | .exitDying | .preinvoke | .holding .. | .upcall _
  | .postinvoke false | .leave => 1
  | _ => 0

/-- The calls of `startRequest` that a thread has not made up for. -/
def active : RequestStage → ℕ
  | .upcall _ | .postinvoke false | .leave => 1
  | _ => 0

/-- What a thread adds to `pd_signalOnZeroInvocations`. -/
def waits : RequestStage → ℕ
  | .waiting .. => 1
  | _ => 0

/-- The stages at which a thread waits. -/
def parks : RequestStage → Bool
  | .holding .. | .waiting .. => true
  | _ => false

lemma waits_of_parks {stage : RequestStage} (h : stage.parks = false) : stage.waits = 0 := by
  cases stage with
  | waiting w signalled => cases h
  | _ => rfl

/-- Whether a thread can be at the stage that has the hook. -/
def fits : Option Bool → RequestStage → Bool
  | none, .postinvoke _ => false
  | none, _ => true
  | some true, .dispatchHandle | some true, .holding .. | some true, .upcall _
  | some true, .postinvoke _ | some true, .leave | some true, .hookDestructor => true
  | some true, _ => false
  | some false, .leave | some false, .hookDestructor | some false, .finished => true
  | some false, _ => false

lemma active_le_inThis (stage : RequestStage) : stage.active ≤ stage.inThis := by
  cases stage with
  | postinvoke destructor => cases destructor <;> decide
  | _ => simp [active, inThis]

end RequestStage

/-- The call of `enterAdapter` before `preinvoke`, if `postinvoke` is still to come. -/
def hooked (hook : Option Bool) : ℕ := if hook = some true then 1 else 0

namespace RequestThread

def inThis (x : RequestThread) : ℕ := hooked x.hook + x.stage.inThis

def active (x : RequestThread) : ℕ := x.stage.active

def waits (x : RequestThread) : ℕ := x.stage.waits

lemma active_le_inThis (x : RequestThread) : x.active ≤ x.inThis :=
  x.stage.active_le_inThis.trans (Nat.le_add_left _ _)

/-- A broadcast wakes those who hold a request, and those who wait. -/
lemma wake_cases (x : RequestThread) :
    (∃ handle signalled, x.stage = .holding handle signalled ∧
      x.wake = { x with stage := .holding handle true }) ∨
    (∃ w signalled, x.stage = .waiting w signalled ∧
      x.wake = { x with stage := .waiting w true }) ∨
    ((∀ handle signalled, x.stage ≠ .holding handle signalled) ∧
      (∀ w signalled, x.stage ≠ .waiting w signalled) ∧ x.wake = x) := by
  obtain ⟨stage, hook, signals, raised⟩ := x
  cases stage with
  | holding handle signalled => exact .inl ⟨handle, signalled, rfl, rfl⟩
  | waiting w signalled => exact .inr (.inl ⟨w, signalled, rfl, rfl⟩)
  | _ => exact .inr (.inr ⟨by simp, by simp, rfl⟩)

@[simp] lemma wake_hook (x : RequestThread) : x.wake.hook = x.hook := by
  obtain ⟨_, _, -, h⟩ | ⟨_, _, -, h⟩ | ⟨-, -, h⟩ := x.wake_cases <;> rw [h]

@[simp] lemma wake_signals (x : RequestThread) : x.wake.signals = x.signals := by
  obtain ⟨_, _, -, h⟩ | ⟨_, _, -, h⟩ | ⟨-, -, h⟩ := x.wake_cases <;> rw [h]

@[simp] lemma wake_inThis (x : RequestThread) : x.wake.inThis = x.inThis := by
  obtain ⟨_, _, hstage, h⟩ | ⟨_, _, hstage, h⟩ | ⟨-, -, h⟩ := x.wake_cases
  · rw [h, inThis, inThis, hstage]
    rfl
  · rw [h, inThis, inThis, hstage]
    rfl
  · rw [h]

@[simp] lemma wake_active (x : RequestThread) : x.wake.active = x.active := by
  obtain ⟨_, _, hstage, h⟩ | ⟨_, _, hstage, h⟩ | ⟨-, -, h⟩ := x.wake_cases
  · rw [h, active, active, hstage]
    rfl
  · rw [h, active, active, hstage]
    rfl
  · rw [h]

@[simp] lemma wake_waits (x : RequestThread) : x.wake.waits = x.waits := by
  obtain ⟨_, _, hstage, h⟩ | ⟨_, _, hstage, h⟩ | ⟨-, -, h⟩ := x.wake_cases
  · rw [h, waits, waits, hstage]
    rfl
  · rw [h, waits, waits, hstage]
    rfl
  · rw [h]

lemma fits_wake {x : RequestThread} (hx : x.stage.fits x.hook = true) :
    x.wake.stage.fits x.wake.hook = true := by
  have hfits (b b' : Bool) (hook : Option Bool) :
      (∀ handle, RequestStage.fits hook (.holding handle b) = true →
        RequestStage.fits hook (.holding handle b') = true) ∧
      ∀ w, RequestStage.fits hook (.waiting w b) = true →
        RequestStage.fits hook (.waiting w b') = true := by
    obtain _ | _ | _ := hook <;> simp [RequestStage.fits]
  obtain ⟨handle, b, hstage, h⟩ | ⟨w, b, hstage, h⟩ | ⟨-, -, h⟩ := x.wake_cases
  · rw [h]
    rw [hstage] at hx
    exact (hfits b true x.hook).1 handle hx
  · rw [h]
    rw [hstage] at hx
    exact (hfits b true x.hook).2 w hx
  · rwa [h]

/-- After a broadcast, nobody waits who was not signalled. -/
lemma wake_stage_ne_waiting (x : RequestThread) (w : RequestWait) :
    x.wake.stage ≠ .waiting w false := by
  obtain ⟨_, _, -, h⟩ | ⟨_, _, -, h⟩ | ⟨-, hstage, h⟩ := x.wake_cases
  · simp [h]
  · simp [h]
  · rw [h]
    exact hstage w false

lemma wake_stage_ne_holding (x : RequestThread) (handle : Bool) :
    x.wake.stage ≠ .holding handle false := by
  obtain ⟨_, _, -, h⟩ | ⟨_, _, -, h⟩ | ⟨hstage, -, h⟩ := x.wake_cases
  · simp [h]
  · simp [h]
  · rw [h]
    exact hstage handle false

end RequestThread

namespace PoaRequests

/-! ### What holds between steps -/

/-- The counter that reaches zero when a wait is over. -/
def awaited (s : PoaRequests) : RequestWait → ℤ
  | .all => s.nReqInThis
  | .active | .activeOrChange _ => s.nReqActive

/-- A thread made `inThis` more calls of `enterAdapter` than it made up for, and likewise for the
other calls. -/
structure Tally (calls : List (ℕ × CountedCall)) (t inThis active hooked : ℕ) : Prop where
  inThis : calls.count (t, .enterAdapter) =
    calls.count (t, .leaveAdapter) + calls.count (t, .exitAdapter) + inThis
  active : calls.count (t, .startRequest) = calls.count (t, .leaveAdapter) + active
  hooked : calls.count (t, .preinvoke) = calls.count (t, .postinvoke) + hooked

/-- What holds between steps. If `strict`, requests are held only where there is a reason to. -/
structure Sound (strict : Prop) (s : PoaRequests) : Prop where
  failed : s.failed = false
  inThis : s.nReqInThis = (s.threads.map RequestThread.inThis).sum
  active : s.nReqActive = (s.threads.map RequestThread.active).sum
  waits : s.signalOnZeroInvocations = (s.threads.map RequestThread.waits).sum
  fits : ∀ x ∈ s.threads, x.stage.fits x.hook = true
  tally : ∀ u, Tally s.calls u (s.thread u).inThis (s.thread u).active (hooked (s.thread u).hook)
  waiting : ∀ x ∈ s.threads, ∀ w, x.stage = .waiting w false →
    s.awaited w ≠ 0 ∨ ∃ y ∈ s.threads, y.signals = true
  holding : strict → ∀ x ∈ s.threads, ∀ handle, x.stage = .holding handle false →
    s.rqState = .holding ∨ ∃ y ∈ s.threads, y.signals = true

/-- The other threads. -/
def others (s : PoaRequests) (t : ℕ) : List RequestThread := s.threads.eraseIdx t

/-- What holds within a step of the thread `t`: it has called `enterAdapter` `n` times more than it
made up for, and so on, and is going to broadcast if `sig`. -/
structure Open (strict : Prop) (s : PoaRequests) (t : ℕ) (hook : Option Bool) (n a p m : ℕ)
    (sig : Bool) : Prop where
  failed : s.failed = false
  lt : t < s.threads.length
  hook : (s.thread t).hook = hook
  le : a ≤ n
  inThis : s.nReqInThis = ((s.others t).map RequestThread.inThis).sum + n
  active : s.nReqActive = ((s.others t).map RequestThread.active).sum + a
  waits : s.signalOnZeroInvocations = ((s.others t).map RequestThread.waits).sum + m
  fits : ∀ x ∈ s.others t, x.stage.fits x.hook = true
  tally : ∀ u ≠ t,
    Tally s.calls u (s.thread u).inThis (s.thread u).active (hooked (s.thread u).hook)
  own : Tally s.calls t n a p
  waiting : ∀ x ∈ s.others t, ∀ w, x.stage = .waiting w false →
    s.awaited w ≠ 0 ∨ sig = true ∨ ∃ y ∈ s.others t, y.signals = true
  holding : strict → ∀ x ∈ s.others t, ∀ handle, x.stage = .holding handle false →
    s.rqState = .holding ∨ sig = true ∨ ∃ y ∈ s.others t, y.signals = true

variable {strict : Prop} {s : PoaRequests} {t n a p m : ℕ} {hook : Option Bool} {sig : Bool}

/-! ### One thread and the others -/

lemma perm_others (ht : t < s.threads.length) : s.thread t :: s.others t ~ s.threads := by
  rw [thread, getD_eq_getElem _ _ ht]
  exact getElem_cons_eraseIdx_perm ht

lemma sum_eq (ht : t < s.threads.length) (f : RequestThread → ℕ) :
    (s.threads.map f).sum = f (s.thread t) + ((s.others t).map f).sum := by
  rw [← ((perm_others ht).map f).sum_eq, map_cons, sum_cons]

lemma mem_threads (ht : t < s.threads.length) {x : RequestThread} :
    x ∈ s.threads ↔ x = s.thread t ∨ x ∈ s.others t := by
  rw [← (perm_others ht).mem_iff, mem_cons]

@[simp] lemma others_setThread (s : PoaRequests) (t : ℕ) (x : RequestThread) :
    (s.setThread t x).others t = s.others t := eraseIdx_set_eq

lemma thread_setThread (ht : t < s.threads.length) (x : RequestThread) :
    (s.setThread t x).thread t = x := by
  simp [thread, setThread, ht]

lemma thread_setThread_of_ne {u : ℕ} (hu : u ≠ t) (x : RequestThread) :
    (s.setThread t x).thread u = s.thread u := by
  simp [thread, setThread, getD, getElem?_set_ne hu.symm]

lemma thread_broadcast (u : ℕ) : s.broadcast.thread u = (s.thread u).wake :=
  getD_map (l := s.threads) (d := .blank) RequestThread.wake

lemma others_broadcast : s.broadcast.others t = (s.others t).map RequestThread.wake :=
  eraseIdx_map ..

/-! ### The beginning and the end of a step -/

/-- A thread begins with what it has to give back. -/
lemma Sound.open (h : Sound strict s) (ht : t < s.threads.length) {stage : RequestStage}
    (hstage : (s.thread t).stage = stage) (hhook : (s.thread t).hook = hook) :
    Open strict s t hook (hooked hook + stage.inThis) stage.active (hooked hook) stage.waits
      (s.thread t).signals := by
  have hown := h.tally t
  rw [RequestThread.inThis, RequestThread.active, hstage, hhook] at hown
  have hsignals : (∃ y ∈ s.threads, y.signals = true) →
      (s.thread t).signals = true ∨ ∃ y ∈ s.others t, y.signals = true := by
    rintro ⟨y, hy, hsig⟩
    obtain rfl | hy := (mem_threads ht).mp hy
    · exact .inl hsig
    · exact .inr ⟨y, hy, hsig⟩
  constructor
  case failed => exact h.failed
  case lt => exact ht
  case hook => exact hhook
  case le => exact stage.active_le_inThis.trans (Nat.le_add_left _ _)
  case inThis =>
    rw [h.inThis, sum_eq ht, RequestThread.inThis, hstage, hhook]
    push_cast
    ring
  case active =>
    rw [h.active, sum_eq ht, RequestThread.active, hstage]
    push_cast
    ring
  case waits =>
    rw [h.waits, sum_eq ht, RequestThread.waits, hstage]
    push_cast
    ring
  case fits => exact fun x hx => h.fits x ((mem_threads ht).mpr (.inr hx))
  case tally => exact fun u _ => h.tally u
  case own => exact hown
  case waiting =>
    intro x hx w hw
    exact (h.waiting x ((mem_threads ht).mpr (.inr hx)) w hw).imp_right hsignals
  case holding =>
    intro hstrict x hx handle hheld
    exact (h.holding hstrict x ((mem_threads ht).mpr (.inr hx)) handle hheld).imp_right hsignals

/-- A thread ends a step with what it has to give back then. -/
lemma Open.close (h : Open strict s t hook n a p m sig) {x : RequestThread} (hn : x.inThis = n)
    (ha : x.active = a) (hp : hooked x.hook = p) (hm : x.waits = m)
    (hfits : x.stage.fits x.hook = true) (hsig : sig = true → x.signals = true)
    (hwaits : ∀ w, x.stage = .waiting w false → s.awaited w ≠ 0)
    (hholds : ∀ handle, x.stage = .holding handle false → s.rqState = .holding) :
    Sound strict (s.setThread t x) := by
  have hlt : t < (s.setThread t x).threads.length := by
    rw [setThread, length_set]
    exact h.lt
  have hmem {y : RequestThread} : y ∈ (s.setThread t x).threads ↔ y = x ∨ y ∈ s.others t := by
    rw [mem_threads hlt, thread_setThread h.lt, others_setThread]
  have hsum (f : RequestThread → ℕ) :
      ((s.setThread t x).threads.map f).sum = f x + ((s.others t).map f).sum := by
    rw [sum_eq hlt, thread_setThread h.lt, others_setThread]
  have hsignals (hy : sig = true ∨ ∃ y ∈ s.others t, y.signals = true) :
      ∃ y ∈ (s.setThread t x).threads, y.signals = true := by
    obtain hs | ⟨y, hy, hys⟩ := hy
    · exact ⟨x, hmem.mpr (.inl rfl), hsig hs⟩
    · exact ⟨y, hmem.mpr (.inr hy), hys⟩
  constructor
  case failed => exact h.failed
  case inThis =>
    change s.nReqInThis = _
    rw [h.inThis, hsum, hn]
    push_cast
    ring
  case active =>
    change s.nReqActive = _
    rw [h.active, hsum, ha]
    push_cast
    ring
  case waits =>
    change s.signalOnZeroInvocations = _
    rw [h.waits, hsum, hm]
    push_cast
    ring
  case fits =>
    intro y hy
    obtain rfl | hy := hmem.mp hy
    · exact hfits
    · exact h.fits y hy
  case tally =>
    intro u
    by_cases hu : u = t
    · rw [hu, thread_setThread h.lt, hn, ha, hp]
      exact h.own
    · rw [thread_setThread_of_ne hu]
      exact h.tally u hu
  case waiting =>
    intro y hy w hw
    obtain rfl | hy := hmem.mp hy
    · exact .inl (hwaits w hw)
    · exact (h.waiting y hy w hw).imp_right hsignals
  case holding =>
    intro hstrict y hy handle hheld
    obtain rfl | hy := hmem.mp hy
    · exact .inl (hholds handle hheld)
    · exact (h.holding hstrict y hy handle hheld).imp_right hsignals

/-! ### The calls that count -/

lemma Tally.cons_of_ne {calls : List (ℕ × CountedCall)} {u : ℕ} (hu : u ≠ t) (c : CountedCall)
    (h : Tally calls u n a p) : Tally ((t, c) :: calls) u n a p := by
  have hne (c' : CountedCall) : ((t, c) :: calls).count (u, c') = calls.count (u, c') :=
    count_cons_of_ne fun heq => hu (Prod.mk.inj heq).1.symm
  constructor
  · rw [hne, hne, hne]
    exact h.inThis
  · rw [hne, hne]
    exact h.active
  · rw [hne, hne]
    exact h.hooked

lemma assert_eq {cond : Prop} [Decidable cond] (hcond : cond) (hs : s.failed = false) :
    s.assert cond = s := by
  rw [PoaRequests.assert, hs, decide_eq_true hcond]
  exact congrArg (fun b => { s with failed := b }) hs.symm

/-- Whoever waits is counted. -/
lemma Open.waits_pos (h : Open strict s t hook n a p m sig) {x : RequestThread}
    (hx : x ∈ s.others t) {w : RequestWait} {signalled : Bool}
    (hw : x.stage = .waiting w signalled) : 0 < s.signalOnZeroInvocations := by
  have hle := le_sum_of_mem (mem_map_of_mem (f := RequestThread.waits) hx)
  have hone : x.waits = 1 := by
    rw [RequestThread.waits, hw]
    rfl
  rw [h.waits]
  omega

/-- Counters and calls change, and the threads do not. -/
lemma Open.recount (h : Open strict s t hook n a p m sig) {s' : PoaRequests} {n' a' p' m' : ℕ}
    {sig' : Bool} (hthreads : s'.threads = s.threads) (hfailed : s'.failed = false) (hle : a' ≤ n')
    (hn : s'.nReqInThis - n' = s.nReqInThis - n) (ha : s'.nReqActive - a' = s.nReqActive - a)
    (hm : s'.signalOnZeroInvocations - m' = s.signalOnZeroInvocations - m)
    (hstate : s'.rqState = s.rqState)
    (hcalls : ∀ u ≠ t, ∀ n a p, Tally s.calls u n a p → Tally s'.calls u n a p)
    (hown : Tally s'.calls t n' a' p') (hsig : sig = true → sig' = true)
    (hwaits : ∀ w, 0 < s.signalOnZeroInvocations → s.awaited w ≠ 0 →
      s'.awaited w ≠ 0 ∨ sig' = true) :
    Open strict s' t hook n' a' p' m' sig' := by
  have hothers : s'.others t = s.others t := congrArg (eraseIdx · t) hthreads
  have hthread (u : ℕ) : s'.thread u = s.thread u :=
    congrArg (fun l : List RequestThread => l.getD u .blank) hthreads
  have hin := h.inThis
  have hact := h.active
  have hwait := h.waits
  constructor
  case failed => exact hfailed
  case lt => exact hthreads ▸ h.lt
  case hook => exact hthread t ▸ h.hook
  case le => exact hle
  case inThis =>
    rw [hothers]
    omega
  case active =>
    rw [hothers]
    omega
  case waits =>
    rw [hothers]
    omega
  case fits => exact hothers ▸ h.fits
  case tally =>
    intro u hu
    rw [hthread]
    exact hcalls u hu _ _ _ (h.tally u hu)
  case own => exact hown
  case waiting =>
    intro x hx w hw
    rw [hothers] at hx ⊢
    obtain hcount | hs | hy := h.waiting x hx w hw
    · obtain hcount | hs := hwaits w (h.waits_pos hx hw) hcount
      · exact .inl hcount
      · exact .inr (.inl hs)
    · exact .inr (.inl (hsig hs))
    · exact .inr (.inr hy)
  case holding =>
    intro hstrict x hx handle hheld
    rw [hothers] at hx ⊢
    rw [hstate]
    exact (h.holding hstrict x hx handle hheld).imp_right (Or.imp_left hsig)

/-- A broadcast makes up for an obligation to broadcast. -/
lemma Open.broadcast (h : Open strict s t hook n a p m sig) :
    Open strict s.broadcast t hook n a p m false := by
  have hmap (f : RequestThread → ℕ) (hf : ∀ x, f x.wake = f x) :
      ((s.broadcast.others t).map f).sum = ((s.others t).map f).sum := by
    rw [others_broadcast, map_map]
    exact congrArg sum (map_congr_left fun x _ => hf x)
  have hothers {x : RequestThread} (hx : x ∈ s.broadcast.others t) :
      ∃ y ∈ s.others t, y.wake = x := by
    rw [others_broadcast] at hx
    exact mem_map.mp hx
  constructor
  case failed => exact h.failed
  case lt =>
    rw [PoaRequests.broadcast, length_map]
    exact h.lt
  case hook => rw [thread_broadcast, RequestThread.wake_hook, h.hook]
  case le => exact h.le
  case inThis => exact h.inThis.trans (by rw [hmap _ RequestThread.wake_inThis])
  case active => exact h.active.trans (by rw [hmap _ RequestThread.wake_active])
  case waits => exact h.waits.trans (by rw [hmap _ RequestThread.wake_waits])
  case fits =>
    intro x hx
    obtain ⟨y, hy, rfl⟩ := hothers hx
    exact RequestThread.fits_wake (h.fits y hy)
  case tally =>
    intro u hu
    rw [thread_broadcast, RequestThread.wake_inThis, RequestThread.wake_active,
      RequestThread.wake_hook]
    exact h.tally u hu
  case own => exact h.own
  case waiting =>
    intro x hx w hw
    obtain ⟨y, -, rfl⟩ := hothers hx
    exact absurd hw (y.wake_stage_ne_waiting w)
  case holding =>
    intro _ x hx handle hheld
    obtain ⟨y, -, rfl⟩ := hothers hx
    exact absurd hheld (y.wake_stage_ne_holding handle)

lemma Open.enterAdapter (h : Open strict s t hook n a p m sig) :
    Open strict (s.enterAdapter t) t hook (n + 1) a p m sig := by
  obtain ⟨hn, ha, hp⟩ := h.own
  have hin := h.inThis
  have hact := h.active
  have hle := h.le
  rw [PoaRequests.enterAdapter, assert_eq (by omega) h.failed]
  refine h.recount rfl h.failed (by omega) ?_ rfl rfl rfl
    (fun u hu _ _ _ => Tally.cons_of_ne hu _) ?_ id ?_
  · change s.nReqInThis + 1 - _ = _
    push_cast
    ring
  · constructor <;> simp [PoaRequests.record] <;> omega
  · intro w hpos hcount
    left
    cases w with
    | all =>
      change s.nReqInThis + 1 ≠ 0
      omega
    | active => exact hcount
    | activeOrChange state => exact hcount

lemma Open.startRequest (h : Open strict s t hook (n + 1) 0 p m sig) :
    Open strict (s.startRequest t) t hook (n + 1) 1 p m sig := by
  obtain ⟨hn, ha, hp⟩ := h.own
  have hact := h.active
  rw [PoaRequests.startRequest, assert_eq (by omega) h.failed]
  refine h.recount rfl h.failed (by omega) rfl ?_ rfl rfl
    (fun u hu _ _ _ => Tally.cons_of_ne hu _) ?_ id ?_
  · change s.nReqActive + 1 - _ = _
    push_cast
    ring
  · constructor <;> simp [PoaRequests.record] <;> omega
  · intro w hpos hcount
    left
    cases w with
    | all => exact hcount
    | active =>
      change s.nReqActive + 1 ≠ 0
      omega
    | activeOrChange state =>
      change s.nReqActive + 1 ≠ 0
      omega

/-- There are at least as many requests in a POA as are active. -/
lemma Open.active_le (h : Open strict s t hook n a p m sig) :
    s.nReqActive - a ≤ s.nReqInThis - n := by
  have hsum : ((s.others t).map RequestThread.active).sum ≤
      ((s.others t).map RequestThread.inThis).sum :=
    sum_le_sum fun x _ => x.active_le_inThis
  have hin := h.inThis
  have hact := h.active
  omega

lemma Open.leaveAdapter (h : Open strict s t hook (n + 1) 1 p m false) :
    Open strict (s.leaveAdapter t) t hook n 0 p m false := by
  obtain ⟨hn, ha, hp⟩ := h.own
  have hin := h.inThis
  have hact := h.active
  have hle := h.active_le
  rw [PoaRequests.leaveAdapter, assert_eq (by omega) h.failed, assert_eq (by omega) h.failed]
  dsimp only
  -- what is left to do is the broadcast
  have hleft : Open strict { s.record t .leaveAdapter with
      nReqInThis := s.nReqInThis - 1, nReqActive := s.nReqActive - 1 } t hook n 0 p m
      (decide (s.nReqActive - 1 = 0 ∧ s.signalOnZeroInvocations ≠ 0)) := by
    refine h.recount rfl h.failed (by omega) ?_ ?_ rfl rfl
      (fun u hu _ _ _ => Tally.cons_of_ne hu _) ?_ (fun hfalse => absurd hfalse Bool.false_ne_true)
        ?_
    · change s.nReqInThis - 1 - _ = _
      push_cast
      ring
    · change s.nReqActive - 1 - _ = _
      push_cast
      ring
    · constructor <;> simp [PoaRequests.record] <;> omega
    · intro w hpos hcount
      by_cases hzero : s.nReqActive - 1 = 0
      · exact .inr (decide_eq_true ⟨hzero, hpos.ne'⟩)
      · left
        cases w with
        | all =>
          change s.nReqInThis - 1 ≠ 0
          omega
        | active => exact hzero
        | activeOrChange state => exact hzero
  split_ifs with hcond
  · exact hleft.broadcast
  · have hfalse : decide (s.nReqActive - 1 = 0 ∧ s.signalOnZeroInvocations ≠ 0) = false :=
      decide_eq_false hcond
    rw [hfalse] at hleft
    exact hleft

lemma Open.decrement (h : Open strict s t hook (n + 1) a p m false) (hle : a ≤ n) :
    Open strict (s.decrement t) t hook n a p m (s.decrement t).doSignal := by
  obtain ⟨hn, ha, hp⟩ := h.own
  have hin := h.inThis
  rw [PoaRequests.decrement, assert_eq (by omega) h.failed]
  refine h.recount rfl h.failed hle ?_ rfl rfl rfl (fun u hu _ _ _ => Tally.cons_of_ne hu _) ?_
    (fun hfalse => absurd hfalse Bool.false_ne_true) ?_
  · change s.nReqInThis - 1 - _ = _
    push_cast
    ring
  · constructor <;> simp [PoaRequests.record] <;> omega
  · intro w hpos hcount
    cases w with
    | all =>
      by_cases hzero : s.nReqInThis - 1 = 0
      · right
        have hpos' : s.signalOnZeroInvocations ≠ 0 := hpos.ne'
        simp [doSignal, PoaRequests.record, hzero, hpos']
      · exact .inl hzero
    | active => exact .inl hcount
    | activeOrChange state => exact .inl hcount

lemma Open.exitAdapterLocked (h : Open strict s t hook (n + 1) 0 p m false) :
    Open strict (s.exitAdapterLocked t) t hook n 0 p m false := by
  rw [PoaRequests.exitAdapterLocked]
  split_ifs with hsignal
  · exact (h.decrement (Nat.zero_le n)).broadcast
  · rw [← Bool.eq_false_iff.mpr hsignal]
    exact h.decrement (Nat.zero_le n)

/-! ### The ends of steps -/

/-- The thread goes on to a stage at which it does not wait. -/
lemma Open.goOn (h : Open strict s t hook n a p 0 sig) {x : RequestThread}
    (hsig : sig = true → x.signals = true) (hn : hooked x.hook + x.stage.inThis = n)
    (ha : x.stage.active = a) (hp : hooked x.hook = p) (hfits : x.stage.fits x.hook = true)
    (hparks : x.stage.parks = false) : Sound strict (s.setThread t x) := by
  refine h.close hn ha hp ?_ hfits hsig ?_ ?_
  · exact RequestStage.waits_of_parks hparks
  · intro w hw
    rw [hw] at hparks
    cases hparks
  · intro handle hheld
    rw [hheld] at hparks
    cases hparks

lemma Open.setStage (h : Open strict s t hook n a p 0 false) {stage : RequestStage}
    (hn : hooked hook + stage.inThis = n) (ha : stage.active = a) (hp : hooked hook = p)
    (hfits : stage.fits hook = true) (hparks : stage.parks = false) :
    Sound strict (s.setStage t stage) := by
  obtain rfl := h.hook
  exact h.goOn (fun hfalse => absurd hfalse Bool.false_ne_true) hn ha hp hfits hparks

lemma Open.raise (h : Open strict s t hook n a p 0 false) {stage : RequestStage}
    (e : RequestException) (hn : hooked hook + stage.inThis = n) (ha : stage.active = a)
    (hp : hooked hook = p) (hfits : stage.fits hook = true) (hparks : stage.parks = false) :
    Sound strict (s.raise t e stage) := by
  obtain rfl := h.hook
  exact h.goOn (fun hfalse => absurd hfalse Bool.false_ne_true) hn ha hp hfits hparks

/-- The thread leaves the POA, and broadcasts later if it was the last one. -/
lemma Open.exitAdapter (h : Open strict s t hook (n + 1) a p 0 false) {x : RequestThread}
    (hn : hooked x.hook + x.stage.inThis = n) (ha : x.stage.active = a) (hp : hooked x.hook = p)
    (hfits : x.stage.fits x.hook = true) (hparks : x.stage.parks = false) :
    Sound strict (s.exitAdapter t x) := by
  have hle : a ≤ n := by
    rw [← ha, ← hn]
    exact x.stage.active_le_inThis.trans (Nat.le_add_left _ _)
  exact (h.decrement hle).goOn id hn ha hp hfits hparks

/-! ### One lemma for each stage -/

/-- A hook that `postinvoke` has not been called for fits a request in the POA. -/
lemma fits_of_ne (hne : hook ≠ some false) (handle b : Bool) :
    RequestStage.fits hook (.holding handle b) = true ∧
      RequestStage.fits hook (.upcall handle) = true ∧ RequestStage.fits hook .leave = true := by
  obtain _ | _ | _ := hook
  · exact ⟨rfl, rfl, rfl⟩
  · exact absurd rfl hne
  · exact ⟨rfl, rfl, rfl⟩

lemma Open.synchroniseRequest (h : Open strict s t hook (hooked hook + 1) 0 (hooked hook) 0 false)
    (hne : hook ≠ some false) (handle deactivated : Bool) :
    Sound strict (s.synchroniseRequest t handle deactivated) := by
  obtain ⟨hholding, hupcall, hleave⟩ := fits_of_ne hne handle false
  rw [PoaRequests.synchroniseRequest]
  cases hstate : s.rqState with
  | holding =>
    obtain rfl := h.hook
    refine h.close rfl rfl rfl rfl hholding (fun hfalse => absurd hfalse Bool.false_ne_true) ?_ ?_
    · intro w hw
      cases hw
    · exact fun _ _ => hstate
  | discarding => exact h.startRequest.raise _ rfl rfl rfl hleave rfl
  | inactive => exact h.startRequest.raise _ rfl rfl rfl hleave rfl
  | active =>
    dsimp only
    split_ifs
    · exact h.startRequest.raise _ rfl rfl rfl hleave rfl
    · exact h.startRequest.setStage rfl rfl rfl hupcall rfl

lemma Open.dispatchIdentity (h : Open strict s t hook (hooked hook) 0 (hooked hook) 0 false)
    (hne : hook ≠ some false) (handle deactivated : Bool) :
    Sound strict (s.dispatchIdentity t handle deactivated) := by
  obtain ⟨-, hupcall, -⟩ := fits_of_ne hne handle false
  rw [PoaRequests.dispatchIdentity]
  split_ifs
  · exact h.enterAdapter.synchroniseRequest hne handle deactivated
  · exact h.enterAdapter.startRequest.setStage rfl rfl rfl hupcall rfl

lemma Open.stopHolding (par : RequestParameters)
    (h : Open strict s t hook (hooked hook + 1) 0 (hooked hook) 0 false)
    (hne : hook ≠ some false) (handle : Bool) (o : OtherCode) :
    Sound strict (s.stopHolding par t handle o) := by
  obtain ⟨-, -, hleave⟩ := fits_of_ne hne handle false
  rw [PoaRequests.stopHolding]
  split_ifs
  · exact h.startRequest.raise _ rfl rfl rfl hleave rfl
  · exact h.startRequest.raise _ rfl rfl rfl hleave rfl
  · exact h.synchroniseRequest hne handle o.deactivated

/-- What a thread does that has not entered the POA. -/
lemma Open.outside (par : RequestParameters) (h : Open strict s t none 0 0 0 0 false) :
    (∀ call deactivated, Sound strict (s.dispatchLocal par t call deactivated)) ∧
      (∀ call lookup, Sound strict (s.dispatchInProcess par t call lookup)) ∧
      (∀ idSize, Sound strict (s.dispatchKey par t idSize)) ∧
      Sound strict (s.dispatchToDs t) := by
  have hstage {stage : RequestStage} (hn : stage.inThis = 0) (ha : stage.active = 0)
      (hfits : stage.fits none = true) (hparks : stage.parks = false) :
      Sound strict (s.setStage t stage) :=
    h.setStage ((Nat.zero_add _).trans hn) ha rfl hfits hparks
  have hraise (e : RequestException) : Sound strict (s.raise t e .finished) :=
    h.raise e rfl rfl rfl rfl rfl
  refine ⟨?_, ?_, ?_, ?_⟩
  · intro call deactivated
    rw [dispatchLocal]
    split_ifs
    · exact hstage rfl rfl rfl rfl
    · exact hstage rfl rfl rfl rfl
    · exact h.dispatchIdentity (by simp) _ _
  · intro call lookup
    rw [dispatchInProcess]
    cases call.idSize with
    | none => exact hraise _
    | some idSize =>
      cases lookup with
      | entry suitable =>
        dsimp only
        split_ifs <;> exact hstage rfl rfl rfl rfl
      | adapter =>
        dsimp only
        split_ifs
        · exact hstage rfl rfl rfl rfl
        · exact hstage rfl rfl rfl rfl
        · exact hraise _
      | nothing => exact hraise _
  · intro idSize
    rw [dispatchKey]
    split_ifs
    · exact hraise _
    · cases par.policy.reqProcessing with
      | activeObjMap =>
        cases s.rqState <;> exact hraise _
      | defaultServant => exact hstage rfl rfl rfl rfl
      | servantManager => exact hstage rfl rfl rfl rfl
    · cases par.policy.reqProcessing with
      | activeObjMap =>
        cases s.rqState <;> exact hraise _
      | defaultServant => exact hstage rfl rfl rfl rfl
      | servantManager => exact hstage rfl rfl rfl rfl
  · rw [dispatchToDs]
    split_ifs
    · exact hraise _
    · exact hstage rfl rfl rfl rfl

lemma Open.dispatchToSa (h : Open strict s t none 0 0 0 0 false) (o : OtherCode) :
    Sound strict (s.dispatchToSa t o) := by
  rw [PoaRequests.dispatchToSa]
  cases o.lookup with
  | entry suitable => exact h.dispatchIdentity (by simp) _ _
  | adapter => exact h.enterAdapter.setStage rfl rfl rfl rfl rfl
  | nothing => exact h.enterAdapter.setStage rfl rfl rfl rfl rfl

lemma Open.dispatchToSl (h : Open strict s t none 0 0 0 0 false) :
    Sound strict (s.dispatchToSl t) := by
  rw [PoaRequests.dispatchToSl]
  split_ifs
  · exact h.raise _ rfl rfl rfl rfl rfl
  · exact h.raise _ rfl rfl rfl rfl rfl
  · exact h.enterAdapter.setStage rfl rfl rfl rfl rfl

/-- What a thread does that has entered the POA for a servant manager. -/
lemma Open.inside (par : RequestParameters) (h : Open strict s t none 1 0 0 0 false) :
    Sound strict (s.takeActivator t) ∧ (∀ outcome, Sound strict (s.incarnate t outcome)) ∧
      (∀ o, Sound strict (s.setActive par t o)) ∧ Sound strict (s.exitDying t) ∧
      ∀ outcome, Sound strict (s.preinvoke t outcome) := by
  refine ⟨?_, ?_, ?_, ?_, ?_⟩
  · rw [takeActivator]
    split_ifs
    · exact h.exitAdapterLocked.setStage rfl rfl rfl rfl rfl
    · exact h.setStage rfl rfl rfl rfl rfl
  · intro outcome
    rw [incarnate]
    cases noServant outcome with
    | none => exact h.setStage rfl rfl rfl rfl rfl
    | some e => exact h.exitAdapterLocked.raise e rfl rfl rfl rfl rfl
  · intro o
    rw [setActive]
    split_ifs
    · exact h.exitAdapterLocked.raise _ rfl rfl rfl rfl rfl
    · exact h.setStage rfl rfl rfl rfl rfl
    · exact h.exitAdapterLocked.dispatchIdentity (by simp) _ _
  · have hhook := h.hook
    exact h.exitAdapter (by simp [hhook, hooked, RequestStage.inThis]) rfl (by simp [hhook, hooked])
      (by simp [hhook, RequestStage.fits]) rfl
  · intro outcome
    have hhook := h.hook
    rw [PoaRequests.preinvoke]
    cases noServant outcome with
    | some e =>
      exact h.exitAdapter (by simp [hhook, hooked, RequestStage.inThis]) rfl
        (by simp [hhook, hooked]) (by simp [hhook, RequestStage.fits]) rfl
    | none =>
      obtain ⟨hn, ha, hp⟩ := h.own
      have hrecord : Open strict (s.record t .preinvoke) t none 1 0 1 0 false := by
        refine h.recount rfl h.failed (Nat.zero_le 1) rfl rfl rfl rfl
          (fun u hu _ _ _ => Tally.cons_of_ne hu _) ?_ id (fun w _ hcount => .inl hcount)
        constructor <;> simp [PoaRequests.record] <;> omega
      exact hrecord.goOn (fun hfalse => absurd hfalse Bool.false_ne_true) rfl rfl rfl rfl rfl

/-- `postinvoke` is called before the request leaves the POA or behind that. -/
lemma Open.postinvoke {destructor : Bool}
    (h : Open strict s t (some true) (1 + (RequestStage.postinvoke destructor).inThis)
      (RequestStage.postinvoke destructor).active 1 0 false) (raises : Bool) :
    Sound strict (s.postinvoke t destructor raises) := by
  obtain ⟨hn, ha, hp⟩ := h.own
  have hrecord : Open strict (s.record t .postinvoke) t (some true)
      ((RequestStage.postinvoke destructor).inThis + 1)
      (RequestStage.postinvoke destructor).active 0 0 false := by
    refine h.recount rfl h.failed ?_ ?_ rfl rfl rfl
      (fun u hu _ _ _ => Tally.cons_of_ne hu _) ?_ id (fun w _ hcount => .inl hcount)
    · exact (RequestStage.active_le_inThis _).trans (Nat.le_succ _)
    · rw [Nat.add_comm]
      rfl
    · constructor <;> simp [PoaRequests.record] <;> omega
  rw [PoaRequests.postinvoke, assert_eq h.hook h.failed]
  cases destructor with
  | false => exact hrecord.exitAdapter rfl rfl rfl rfl rfl
  | true => exact hrecord.exitAdapter rfl rfl rfl rfl rfl

lemma Open.leave (h : Open strict s t hook (hooked hook + 1) 1 (hooked hook) 0 false) :
    Sound strict (s.leave t) := by
  rw [PoaRequests.leave, h.hook]
  obtain _ | _ | _ := hook
  · exact h.leaveAdapter.setStage rfl rfl rfl rfl rfl
  · exact h.leaveAdapter.setStage rfl rfl rfl rfl rfl
  · exact h.leaveAdapter.setStage rfl rfl rfl rfl rfl

lemma Open.destroyHook (h : Open strict s t hook (hooked hook) 0 (hooked hook) 0 false) :
    Sound strict (s.destroyHook t) := by
  rw [PoaRequests.destroyHook, h.hook]
  obtain _ | _ | _ := hook
  · exact h.setStage rfl rfl rfl rfl rfl
  · exact h.setStage rfl rfl rfl rfl rfl
  · exact h.setStage rfl rfl rfl rfl rfl

lemma Open.upcall (h : Open strict s t hook (hooked hook + 1) 1 (hooked hook) 0 false)
    (hne : hook ≠ some false) (handle : Bool) (outcome : UpcallOutcome) :
    Sound strict (s.upcall t handle outcome) := by
  obtain ⟨-, -, hleave⟩ := fits_of_ne hne handle false
  have hfits : (if handle && hook.isSome then RequestStage.postinvoke false else .leave).fits hook =
      true := by
    obtain _ | _ | _ := hook
    · simp [RequestStage.fits]
    · exact absurd rfl hne
    · cases handle <;> rfl
  have hnext :
      (if handle && hook.isSome then RequestStage.postinvoke false else .leave).inThis = 1 ∧
      (if handle && hook.isSome then RequestStage.postinvoke false else .leave).active = 1 ∧
      (if handle && hook.isSome then RequestStage.postinvoke false else .leave).parks = false := by
    split_ifs <;> exact ⟨rfl, rfl, rfl⟩
  obtain ⟨hinThis, hactive, hparks⟩ := hnext
  unfold PoaRequests.upcall
  rw [h.hook]
  generalize (if handle && hook.isSome then RequestStage.postinvoke false else .leave) = next at *
  dsimp only
  cases outcome with
  | returned => exact h.setStage (by rw [hinThis]) hactive rfl hfits hparks
  | raised => exact h.raise _ (by rw [hinThis]) hactive rfl hfits hparks
  | notMade =>
    dsimp only
    split_ifs
    · exact h.raise _ rfl rfl rfl hleave rfl
    · exact h.setStage rfl rfl rfl hleave rfl
  | unrecognised =>
    dsimp only
    split_ifs
    · exact h.raise _ rfl rfl rfl hleave rfl
    · exact h.setStage rfl rfl rfl hleave rfl

/-! ### Waiting -/

lemma Open.waitLoop (h : Open strict s t none 0 0 0 1 false) (w : RequestWait) :
    Sound strict (s.waitLoop t w) := by
  rw [PoaRequests.waitLoop]
  split_ifs with hgoes
  · have hhook := h.hook
    refine h.close (by simp [RequestThread.inThis, hhook, hooked, RequestStage.inThis]) rfl
      (by simp [hhook, hooked]) rfl (by simp [hhook, RequestStage.fits])
      (fun hfalse => absurd hfalse Bool.false_ne_true) ?_ ?_
    · intro w' hw
      obtain rfl : w = w' := by simpa using hw
      cases w with
      | all => exact of_decide_eq_true hgoes
      | active => exact of_decide_eq_true hgoes
      | activeOrChange state => exact of_decide_eq_true (Bool.and_eq_true_iff.mp hgoes).2
    · intro handle hheld
      cases hheld
  · have hdone : Open strict { s with signalOnZeroInvocations := s.signalOnZeroInvocations - 1 } t
        none 0 0 0 0 false := by
      refine h.recount rfl h.failed (Nat.le_refl 0) rfl rfl ?_ rfl (fun _ _ _ _ _ => id) h.own id
        (fun w _ hcount => .inl hcount)
      change s.signalOnZeroInvocations - 1 - _ = _
      push_cast
      ring
    exact hdone.setStage rfl rfl rfl rfl rfl

lemma Open.waitFor (h : Open strict s t none 0 0 0 0 false) (w : RequestWait) :
    Sound strict (s.waitFor t w) := by
  have hin := h.inThis
  have hact := h.active
  have hwaits : Open strict { s with signalOnZeroInvocations := s.signalOnZeroInvocations + 1 } t
      none 0 0 0 1 false := by
    refine h.recount rfl h.failed (Nat.le_refl 0) rfl rfl ?_ rfl (fun _ _ _ _ _ => id) h.own id
      (fun w _ hcount => .inl hcount)
    change s.signalOnZeroInvocations + 1 - _ = _
    push_cast
    ring
  unfold PoaRequests.waitFor
  cases w with
  | all =>
    dsimp only
    rw [assert_eq (by omega) h.failed]
    exact hwaits.waitLoop .all
  | active =>
    dsimp only
    rw [assert_eq (by omega) h.failed]
    exact hwaits.waitLoop .active
  | activeOrChange state => exact hwaits.waitLoop (.activeOrChange state)

/-! ### The state of the POA -/

/-- The state changes, and either a broadcast follows or requests are not held. -/
lemma Open.setState (h : Open strict s t hook n a p m false) (state : PmState)
    (hsig : sig = true ∨ (strict → s.rqState ≠ .holding)) :
    Open strict { s with rqState := state } t hook n a p m sig where
  failed := h.failed
  lt := h.lt
  hook := h.hook
  le := h.le
  inThis := h.inThis
  active := h.active
  waits := h.waits
  fits := h.fits
  tally := h.tally
  own := h.own
  waiting := by
    intro x hx w hw
    obtain hcount | hfalse | hy := h.waiting x hx w hw
    · exact .inl hcount
    · cases hfalse
    · exact .inr (.inr hy)
  holding := by
    intro hstrict x hx handle hheld
    obtain hstate | hfalse | hy := h.holding hstrict x hx handle hheld
    · obtain hs | hne := hsig
      · exact .inr (.inl hs)
      · exact absurd hstate (hne hstrict)
    · cases hfalse
    · exact .inr (.inr hy)

lemma Open.changeState (h : Open strict s t none 0 0 0 0 false) (state : PmState) :
    Sound strict (s.changeState t state) := by
  have hstate : Open strict { s with rqState := state } t none 0 0 0 0 true :=
    h.setState state (.inl rfl)
  have hhook : (s.thread t).hook = none := h.hook
  refine hstate.goOn (fun _ => rfl) ?_ rfl ?_ ?_ rfl
  · simp [hhook, hooked, RequestStage.inThis]
  · simp [hhook, hooked]
  · simp [hhook, RequestStage.fits]

lemma Open.destroy (h : Open strict s t none 0 0 0 0 false) : Sound strict (s.destroy t) := by
  rw [PoaRequests.destroy]
  split_ifs
  · exact h.setStage rfl rfl rfl rfl rfl
  · have hdying : Open strict { s with dying := true } t none 0 0 0 0 false := { h with }
    exact hdying.setStage rfl rfl rfl rfl rfl

lemma Open.discard (h : Open strict s t none 0 0 0 0 false) : Sound strict (s.discard t) := by
  rw [PoaRequests.discard]
  split_ifs
  · have hstate : Open strict { s with rqState := .discarding } t none 0 0 0 0 true :=
      h.setState .discarding (.inl rfl)
    have hhook : (s.thread t).hook = none := h.hook
    refine hstate.goOn (fun _ => rfl) ?_ rfl ?_ ?_ rfl
    · simp [hhook, hooked, RequestStage.inThis]
    · simp [hhook, hooked]
    · simp [hhook, RequestStage.fits]
  · exact h.setStage rfl rfl rfl rfl rfl

lemma Open.doDestroy (h : Open strict s t none 0 0 0 0 false)
    (hne : strict → s.rqState ≠ .holding) : Sound strict (s.doDestroy t) :=
  (h.setState .inactive (.inr hne)).waitFor .all

/-! ### Steps and runs -/

variable {par : RequestParameters} {s' : PoaRequests} {act : RequestAction}

/-- `do_destroy` does not find the POA in the HOLDING state. -/
def NotDestroyedHolding (s : PoaRequests) : RequestAction → Prop
  | .run t _ =>
    (s.thread t).stage = .doDestroy → (s.thread t).signals = false → s.rqState ≠ .holding
  | .call _ | .setServants .. => True

/-- The thread broadcasts. -/
lemma Sound.signal (h : Sound strict s) (ht : t < s.threads.length) :
    Sound strict (s.setThread t { s.thread t with signals := false }).broadcast := by
  have hopen := h.open ht rfl rfl
  generalize (s.thread t).signals = sig at hopen
  -- the thread stays where it is
  have hset : Open strict (s.setThread t { s.thread t with signals := false }) t (s.thread t).hook
      (hooked (s.thread t).hook + (s.thread t).stage.inThis) (s.thread t).stage.active
      (hooked (s.thread t).hook) (s.thread t).stage.waits sig := by
    have hothers := others_setThread s t { s.thread t with signals := false }
    constructor
    case failed => exact h.failed
    case lt =>
      rw [setThread, length_set]
      exact ht
    case hook => rw [thread_setThread ht]
    case le => exact hopen.le
    case inThis => exact hothers ▸ hopen.inThis
    case active => exact hothers ▸ hopen.active
    case waits => exact hothers ▸ hopen.waits
    case fits => exact hothers ▸ hopen.fits
    case tally =>
      intro u hu
      rw [thread_setThread_of_ne hu]
      exact hopen.tally u hu
    case own => exact hopen.own
    case waiting =>
      rw [hothers]
      exact hopen.waiting
    case holding =>
      rw [hothers]
      exact hopen.holding
  have hfits : (s.thread t).stage.fits (s.thread t).hook = true :=
    h.fits _ ((mem_threads ht).mpr (.inl rfl))
  have hwoken := hset.broadcast
  generalize hu : (s.setThread t { s.thread t with signals := false }).broadcast = u at hwoken ⊢
  have hthread : u.thread t = { s.thread t with signals := false }.wake := by
    rw [← hu, thread_broadcast, thread_setThread ht]
  have hself : u.setThread t (u.thread t) = u := by
    have hlt := hwoken.lt
    rw [setThread, thread, getD_eq_getElem _ _ hlt, set_getElem_self]
  rw [← hself, hthread]
  refine hwoken.close ?_ ?_ ?_ ?_ ?_ (fun hfalse => absurd hfalse Bool.false_ne_true) ?_ ?_
  · rw [RequestThread.wake_inThis]
    rfl
  · rw [RequestThread.wake_active]
    rfl
  · rw [RequestThread.wake_hook]
  · rw [RequestThread.wake_waits]
    rfl
  · exact RequestThread.fits_wake hfits
  · intro w hw
    exact absurd hw (RequestThread.wake_stage_ne_waiting _ w)
  · intro handle hheld
    exact absurd hheld (RequestThread.wake_stage_ne_holding _ handle)

/-- A thread goes on that has nothing to broadcast. -/
lemma Sound.advance (h : Sound strict s) (ht : t < s.threads.length)
    (hquiet : (s.thread t).signals = false) (o : OtherCode)
    (hok : strict → NotDestroyedHolding s (.run t o))
    (hs : s.advance par t o (s.thread t).stage = some s') : Sound strict s' := by
  have hfits : (s.thread t).stage.fits (s.thread t).hook = true :=
    h.fits _ ((mem_threads ht).mpr (.inl rfl))
  have hopen := h.open ht rfl rfl
  rw [hquiet] at hopen
  generalize hhook : (s.thread t).hook = hook at hopen hfits
  generalize hstage : (s.thread t).stage = stage at hs hopen hfits
  have hnone (hf : ∀ b, stage.fits (some b) = false) : hook = none := by
    cases hook with
    | none => rfl
    | some b => exact absurd hfits (by simp [hf b])
  have hne (hf : stage.fits (some false) = false) : hook ≠ some false := by
    rintro rfl
    rw [hf] at hfits
    cases hfits
  have hb (hf : stage.fits (some true) = false) (hf' : stage.fits (some false) = false) :
      hook = none := by
    apply hnone
    intro b
    cases b
    · exact hf'
    · exact hf
  cases stage with
  | dispatchLocal call =>
    cases hs
    obtain rfl := hb rfl rfl
    exact (Open.outside par hopen).1 call o.deactivated
  | dispatchInProcess call =>
    cases hs
    obtain rfl := hb rfl rfl
    exact (Open.outside par hopen).2.1 call o.lookup
  | dispatchHandle =>
    cases hs
    exact hopen.dispatchIdentity (hne rfl) true o.deactivated
  | dispatchKey idSize =>
    cases hs
    obtain rfl := hb rfl rfl
    exact (Open.outside par hopen).2.2.1 idSize
  | dispatchToDs =>
    cases hs
    obtain rfl := hb rfl rfl
    exact (Open.outside par hopen).2.2.2
  | dispatchToSa =>
    cases hs
    obtain rfl := hb rfl rfl
    exact hopen.dispatchToSa o
  | dispatchToSl =>
    cases hs
    obtain rfl := hb rfl rfl
    exact hopen.dispatchToSl
  | takeActivator =>
    cases hs
    obtain rfl := hb rfl rfl
    exact (Open.inside par hopen).1
  | refused =>
    cases hs
    obtain rfl := hb rfl rfl
    exact hopen.raise _ rfl rfl rfl rfl rfl
  | incarnate =>
    cases hs
    obtain rfl := hb rfl rfl
    exact (Open.inside par hopen).2.1 o.servant
  | setActive =>
    cases hs
    obtain rfl := hb rfl rfl
    exact (Open.inside par hopen).2.2.1 o
  | exitDying =>
    cases hs
    obtain rfl := hb rfl rfl
    exact (Open.inside par hopen).2.2.2.1
  | preinvoke =>
    cases hs
    obtain rfl := hb rfl rfl
    exact (Open.inside par hopen).2.2.2.2 o.servant
  | holding handle signalled =>
    cases hs
    exact hopen.stopHolding par (hne rfl) handle o
  | upcall handle =>
    cases hs
    exact hopen.upcall (hne rfl) handle o.upcall
  | leave =>
    cases hs
    exact hopen.leave
  | postinvoke destructor =>
    cases hs
    obtain rfl : hook = some true := by
      obtain _ | _ | _ := hook
      · cases hfits
      · cases hfits
      · rfl
    exact hopen.postinvoke o.postinvokeRaises
  | hookDestructor =>
    cases hs
    exact hopen.destroyHook
  | waitFor w =>
    cases hs
    obtain rfl := hb rfl rfl
    exact hopen.waitFor w
  | waiting w signalled =>
    cases hs
    obtain rfl := hb rfl rfl
    exact hopen.waitLoop w
  | changeState state =>
    cases hs
    obtain rfl := hb rfl rfl
    exact hopen.changeState state
  | destroy =>
    cases hs
    obtain rfl := hb rfl rfl
    exact hopen.destroy
  | discard =>
    cases hs
    obtain rfl := hb rfl rfl
    exact hopen.discard
  | doDestroy =>
    cases hs
    obtain rfl := hb rfl rfl
    exact hopen.doDestroy fun hstrict => hok hstrict hstage hquiet
  | finished => cases hs

/-- A new thread has made no calls. -/
lemma Sound.call (h : Sound strict s) {stage : RequestStage} (hfirst : stage.isFirst = true) :
    Sound strict { s with threads := s.threads ++ [⟨stage, none, false, none⟩] } := by
  have hzero : stage.inThis = 0 ∧ stage.active = 0 ∧ stage.parks = false ∧
      stage.fits none = true := by
    cases stage with
    | postinvoke destructor => cases hfirst
    | _ => first | exact ⟨rfl, rfl, rfl, rfl⟩ | cases hfirst
  obtain ⟨hin, hact, hparks, hfits⟩ := hzero
  have hsum (f : RequestThread → ℕ) (hf : f ⟨stage, none, false, none⟩ = 0) :
      ((s.threads ++ [(⟨stage, none, false, none⟩ : RequestThread)]).map f).sum =
        (s.threads.map f).sum := by
    rw [map_append, map_singleton, sum_append, sum_singleton, hf, Nat.add_zero]
  constructor
  case failed => exact h.failed
  case inThis =>
    refine h.inThis.trans (congrArg _ (hsum _ ?_).symm)
    simp [RequestThread.inThis, hin, hooked]
  case active => exact h.active.trans (congrArg _ (hsum _ hact).symm)
  case waits =>
    exact h.waits.trans (congrArg _ (hsum _ (RequestStage.waits_of_parks hparks)).symm)
  case fits =>
    intro x hx
    obtain hx | hx := mem_append.mp hx
    · exact h.fits x hx
    · rw [mem_singleton.mp hx]
      exact hfits
  case tally =>
    intro u
    have hu := h.tally u
    by_cases hlt : u < s.threads.length
    · rwa [thread, getD_append _ _ _ _ hlt]
    · have hge := Nat.le_of_not_lt hlt
      rw [thread, getD_eq_default _ _ hge] at hu
      rw [thread, getD_append_right _ _ _ _ hge]
      cases u - s.threads.length with
      | zero =>
        change Tally s.calls u (0 + stage.inThis) stage.active 0
        rw [hin, hact]
        exact hu
      | succ k => exact hu
  case waiting =>
    intro x hx w hw
    obtain hx | hx := mem_append.mp hx
    · obtain hcount | ⟨y, hy, hsig⟩ := h.waiting x hx w hw
      · exact .inl hcount
      · exact .inr ⟨y, mem_append_left _ hy, hsig⟩
    · rw [mem_singleton.mp hx] at hw
      change stage = _ at hw
      rw [hw] at hparks
      cases hparks
  case holding =>
    intro hstrict x hx handle hheld
    obtain hx | hx := mem_append.mp hx
    · obtain hstate | ⟨y, hy, hsig⟩ := h.holding hstrict x hx handle hheld
      · exact .inl hstate
      · exact .inr ⟨y, mem_append_left _ hy, hsig⟩
    · rw [mem_singleton.mp hx] at hheld
      change stage = _ at hheld
      rw [hheld] at hparks
      cases hparks

lemma sound_init : Sound strict init where
  failed := rfl
  inThis := rfl
  active := rfl
  waits := rfl
  fits := fun x hx => by cases hx
  tally := fun u => ⟨rfl, rfl, rfl⟩
  waiting := fun x hx => by cases hx
  holding := fun _ x hx => by cases hx

lemma Sound.step (h : Sound strict s) (hok : strict → NotDestroyedHolding s act)
    (hs : s.step par act = some s') : Sound strict s' := by
  cases act with
  | call stage =>
    rw [PoaRequests.step] at hs
    split_ifs at hs with hfirst
    cases hs
    exact h.call hfirst
  | setServants defaultServant servantActivator servantLocator =>
    cases hs
    exact { h with }
  | run t o =>
    rw [PoaRequests.step, PoaRequests.run] at hs
    have ht : t < s.threads.length := by
      by_contra hge
      have hblank : s.thread t = .blank := getD_eq_default _ _ (Nat.le_of_not_lt hge)
      rw [hblank] at hs
      cases hs
    split_ifs at hs with hsignals
    · cases hs
      exact h.signal ht
    · exact h.advance ht (Bool.eq_false_iff.mpr hsignals) o hok hs

/-- What holds in every state that is reached, in whatever order the threads take their steps. -/
lemma sound_of_reached
    (h : ReachedBy (step par) (fun s a => strict → NotDestroyedHolding s a) init s) :
    Sound strict s :=
  h.invariant sound_init fun _ _ _ hsound hok hs => hsound.step hok hs

end PoaRequests

end OmniORB
