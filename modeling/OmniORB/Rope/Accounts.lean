import OmniORB.Rope.Strands

/-!
# What a rope keeps account of

The strands of a rope are in one of the lists each, and each `GIOP_C` that is used is used by one thread.
-/

namespace OmniORB

open Library

/-! ### Strands -/

namespace ClientStrand

/-- A strand has a `GIOP_C`. One that is not used is the only one, and the idle counter runs only
then. -/
structure Ok (par : RopeParameters) (x : ClientStrand) : Prop where
  nonempty : x.clients ≠ []
  clients : (∃ g, x.clients = [⟨g, false⟩]) ∨ (∀ c ∈ x.clients, c.used = true) ∧ x.idlebeats < 0
  ids : (x.clients.map GIOPClient.id).Nodup
  known : ∀ c ∈ x.clients, c.id < x.nClients
  oneCall : par.oneCallPerConnection = true → x.clients.length = 1
  beats : x.idlebeats ≠ 0

variable {par : RopeParameters} {x : ClientStrand} {v : GIOPVersion} {g : ℕ}

lemma isLive_of_isIdle (h : x.isIdle v = true) : x.isLive v = true := (Bool.and_eq_true_iff.mp h).1

lemma isLive_of_isBusy (h : x.isBusy v = true) : x.isLive v = true :=
  (Bool.and_eq_true_iff.mp (Bool.and_eq_true_iff.mp h).1).1

/-- A strand that may be used is either busy or idle. -/
lemma isBusy_or_isIdle (v : GIOPVersion) (x : ClientStrand) :
    x.isLive v = (x.isBusy v || x.isIdle v) ∧ (x.isBusy v && x.isIdle v) = false := by
  rw [isIdle, isBusy]
  cases x.isLive v <;> cases x.clients.all GIOPClient.used <;> cases x.clients.isEmpty <;> exact ⟨rfl, rfl⟩

lemma Ok.all_used (h : x.Ok par) (hbusy : x.isBusy v = true) :
    (∀ c ∈ x.clients, c.used = true) ∧ x.idlebeats < 0 := by
  refine h.clients.resolve_left ?_
  rintro ⟨g, hg⟩
  simp [isBusy, hg] at hbusy

lemma Ok.eq_of_isIdle (h : x.Ok par) (hidle : x.isIdle v = true) : ∃ g, x.clients = [⟨g, false⟩] := by
  refine h.clients.resolve_right fun hused => ?_
  have hbusy : x.isBusy v = true := by
    rw [isBusy, isLive_of_isIdle hidle, List.all_eq_true.mpr hused.1]
    simpa using h.nonempty
  rw [isIdle, hbusy] at hidle
  simp at hidle

lemma Ok.isBusy_of_used (h : x.Ok par) (hlive : x.isLive v = true) (hg : ⟨g, true⟩ ∈ x.clients) :
    x.isBusy v = true := by
  rcases h.clients with ⟨g', hg'⟩ | hused
  · simp [hg'] at hg
  · rw [isBusy, hlive, List.all_eq_true.mpr hused.1]
    simpa using h.nonempty

lemma Ok.count_le_one (h : x.Ok par) (c : GIOPClient) : x.clients.count c ≤ 1 :=
  List.nodup_iff_count_le_one.mp (List.Nodup.of_map _ h.ids) c

/-- The strand is DYING, or it was reactivated. -/
lemma Ok.setState (h : x.Ok par) (state : StrandState) : Ok par { x with state } :=
  ⟨h.nonempty, h.clients, h.ids, h.known, h.oneCall, h.beats⟩

lemma idlebeats_stopIdleCounter (h : x.idlebeats ≠ 0) : x.stopIdleCounter.idlebeats = -1 := by
  rw [stopIdleCounter, if_neg h]

lemma Ok.useClient (h : x.Ok par) (hg : x.clients = [⟨g, false⟩]) : (x.useClient g).Ok par := by
  have hclients : (x.useClient g).clients = [⟨g, true⟩] := by simp [ClientStrand.useClient, hg]
  have hbeats : (x.useClient g).idlebeats = -1 := idlebeats_stopIdleCounter h.beats
  have hn : (x.useClient g).nClients = x.nClients := by
    simp only [ClientStrand.useClient, stopIdleCounter]
    split <;> rfl
  refine ⟨by simp [hclients], .inr ⟨by simp [hclients], by simp [hbeats]⟩, by simp [hclients], ?_,
    by simp [hclients], by simp [hbeats]⟩
  rw [hclients, hn]
  simpa using h.known ⟨g, false⟩ (by simp [hg])

/-- A new `GIOP_C` is attached to a new strand, or to one that may have many. -/
lemma newClient_ok (hbeats : x.idlebeats < 0) (hused : ∀ c ∈ x.clients, c.used = true)
    (hids : (x.clients.map GIOPClient.id).Nodup) (hknown : ∀ c ∈ x.clients, c.id < x.nClients)
    (hone : par.oneCallPerConnection = true → x.clients = []) : x.newClient.Ok par := by
  have hbeats' : x.newClient.idlebeats = -1 := idlebeats_stopIdleCounter hbeats.ne
  have hclients : x.newClient.clients = x.clients ++ [⟨x.nClients, true⟩] := rfl
  have hn : x.newClient.nClients = x.nClients + 1 := rfl
  refine ⟨by simp [hclients], .inr ⟨?_, by simp [hbeats']⟩, ?_, ?_, ?_, by simp [hbeats']⟩
  · rw [hclients]
    intro c hc
    rcases List.mem_append.mp hc with hc | hc
    · exact hused c hc
    · rw [List.mem_singleton.mp hc]
  · rw [hclients, List.map_append]
    refine List.nodup_append.mpr ⟨hids, by simp, ?_⟩
    intro a ha b hb heq
    obtain ⟨c, hc, rfl⟩ := List.mem_map.mp ha
    have hlt := hknown c hc
    simp only [List.map_cons, List.map_nil, List.mem_singleton] at hb
    omega
  · rw [hclients, hn]
    intro c hc
    rcases List.mem_append.mp hc with hc | hc
    · exact Nat.lt_succ_of_lt (hknown c hc)
    · rw [List.mem_singleton.mp hc]
      exact Nat.lt_succ_self _
  · intro h
    rw [hclients, hone h]
    rfl

lemma Ok.newClient (h : x.Ok par) (hbusy : x.isBusy v = true) (hone : par.oneCallPerConnection = false) :
    x.newClient.Ok par :=
  newClient_ok (h.all_used hbusy).2 (h.all_used hbusy).1 h.ids h.known (by simp [hone])

/-- A `GIOP_C` leaves the strand, and others are left. -/
lemma Ok.leave (h : x.Ok par) (hg : ⟨g, true⟩ ∈ x.clients)
    (hne : x.clients.filter (fun c => c.id ≠ g) ≠ []) (state : StrandState) :
    Ok par { x with clients := x.clients.filter fun c => c.id ≠ g, state } := by
  have hused : (∀ c ∈ x.clients, c.used = true) ∧ x.idlebeats < 0 := by
    refine h.clients.resolve_left ?_
    rintro ⟨g', hg'⟩
    simp [hg'] at hg
  refine ⟨hne, .inr ⟨fun c hc => hused.1 c (List.mem_filter.mp hc).1, hused.2⟩,
    h.ids.sublist (List.filter_sublist.map _), fun c hc => h.known c (List.mem_filter.mp hc).1, ?_,
    h.beats⟩
  intro hone
  have hlen : (x.clients.filter fun c => c.id ≠ g).length ≤ x.clients.length := List.length_filter_le _ _
  have hpos := List.length_pos_iff.mpr hne
  have := h.oneCall hone
  change (x.clients.filter fun c => c.id ≠ g).length = 1
  omega

/-- The last `GIOP_C` is not used any more. -/
lemma Ok.rest (h : x.Ok par) (hg : ⟨g, true⟩ ∈ x.clients) :
    (startIdleCounter par { x with clients := [⟨g, false⟩] }).Ok par := by
  have hclients : (startIdleCounter par { x with clients := [⟨g, false⟩] }).clients = [⟨g, false⟩] := by
    simp only [startIdleCounter]
    split_ifs <;> rfl
  have hn : (startIdleCounter par { x with clients := [⟨g, false⟩] }).nClients = x.nClients := by
    simp only [startIdleCounter]
    split_ifs <;> rfl
  refine ⟨by simp [hclients], .inl ⟨g, hclients⟩, by simp [hclients], ?_, by simp [hclients], ?_⟩
  · rw [hclients, hn]
    simpa using h.known _ hg
  · simp only [startIdleCounter]
    have hbeats := h.beats
    split_ifs
    · exact hbeats
    · simp
    · simpa using ‹par.idleOutgoingBeats ≠ 0›
    · simp

/-- The strands differ at most in that one was reactivated or retired. -/
def Alike (x y : ClientStrand) : Prop :=
  ∃ state, y = { x with state } ∧ (state = .dying ↔ x.state = .dying)

lemma Alike.refl (x : ClientStrand) : Alike x x := ⟨x.state, rfl, Iff.rfl⟩

lemma Alike.trans {y z : ClientStrand} (hxy : Alike x y) (hyz : Alike y z) : Alike x z := by
  obtain ⟨a, rfl, ha⟩ := hxy
  obtain ⟨b, rfl, hb⟩ := hyz
  exact ⟨b, rfl, hb.trans ha⟩

section Alike

variable {y : ClientStrand} (h : Alike x y)
include h

lemma Alike.clients : y.clients = x.clients := by
  obtain ⟨state, rfl, -⟩ := h
  rfl

lemma Alike.isDying : y.isDying = x.isDying := by
  obtain ⟨state, rfl, hstate⟩ := h
  exact decide_eq_decide.mpr hstate

lemma Alike.isLive : y.isLive v = x.isLive v := by
  have hdying := h.isDying
  obtain ⟨state, rfl, -⟩ := h
  rw [ClientStrand.isLive, hdying]
  rfl

lemma Alike.isBusy : y.isBusy v = x.isBusy v := by
  rw [ClientStrand.isBusy, ClientStrand.isBusy, h.isLive, h.clients]

lemma Alike.isIdle : y.isIdle v = x.isIdle v := by
  rw [ClientStrand.isIdle, ClientStrand.isIdle, h.isLive, h.isBusy]

lemma Alike.ok (hx : x.Ok par) : y.Ok par := by
  obtain ⟨state, rfl, -⟩ := h
  exact hx.setState state

end Alike

end ClientStrand

/-! ### Ropes -/

namespace RopeCaller

def uses (k g : ℕ) (c : RopeCaller) : Bool := c.phase = .calling k g

def filters (c : RopeCaller) : Bool := c.phase = .filtering

def waits (c : RopeCaller) : Bool := c.phase = .waiting false ∨ c.phase = .waiting true

end RopeCaller

open ClientStrand RopeCaller

namespace GIOPRope

/-- How often the strand is in one of the lists. -/
def links (s : GIOPRope) (k : ℕ) : ℕ := s.active.count k + s.activeTimedout.count k + s.passive.count k

/-- Whether the `GIOP_C` `g` of the strand `k` is used. -/
def users (s : GIOPRope) (k g : ℕ) : ℕ :=
  if k ∈ s.strands then (s.strand k).clients.count ⟨g, true⟩ else 0

/-- The strands of a rope. -/
structure StrandsOk (par : RopeParameters) (s : GIOPRope) : Prop where
  nodup : s.strands.Nodup
  known : ∀ k ∈ s.strands, k < s.nStrands
  links : ∀ k, s.links k = if k ∈ s.strands then 1 else 0
  strand : ∀ k ∈ s.strands, (s.strand k).Ok par
  limit : ∀ v, s.countStrands (isLive v) ≤ par.maxStrands

/-- What holds between steps. -/
structure Ok (par : RopeParameters) (s : GIOPRope) : Prop extends StrandsOk par s where
  failed : s.failed = false
  calls : ∀ k g, s.callers.countP (uses k g) = s.users k g
  nwaiting : s.nwaiting = s.callers.countP waits
  filtering : s.callers.countP filters = if s.filtering then 1 else 0
  filterWait : s.filtering = false → ∀ c ∈ s.callers, c.phase ≠ .filterWait false
  references : s.refcount = 0 → ∀ c ∈ s.callers, c.phase = .done
  deleted : s.deleted = true → s.refcount = 0 ∧ s.strands = []

variable {par : RopeParameters} {s s' : GIOPRope} {v : GIOPVersion} {k t : ℕ} {c : RopeCaller}

/-- A step of one thread, or of none. -/
lemma Ok.change (h : Ok par s) (hs : StrandsOk par s') (hm : MovesTo blank s.callers s'.callers t c)
    (hfailed : s'.failed = false)
    (hcalls : ∀ k g, s'.users k g + (if (s.caller t).uses k g then 1 else 0)
      = s.users k g + if c.uses k g then 1 else 0)
    (hnwaiting : s'.nwaiting + (if (s.caller t).waits then 1 else 0)
      = s.nwaiting + if c.waits then 1 else 0)
    (hfiltering : (if s'.filtering then 1 else 0) + (if (s.caller t).filters then 1 else 0)
      = (if s.filtering then 1 else 0) + if c.filters then 1 else 0)
    (hfilterWait : s'.filtering = false → ∀ c ∈ s'.callers, c.phase ≠ .filterWait false)
    (hrefs : s'.refcount = 0 → ∀ c ∈ s'.callers, c.phase = .done)
    (hdeleted : s'.deleted = true → s'.refcount = 0 ∧ s'.strands = []) : Ok par s' := by
  refine ⟨hs, hfailed, fun k g => ?_, ?_, ?_, hfilterWait, hrefs, hdeleted⟩
  · have hcount := hm.count (uses k g) rfl
    have hc := hcalls k g
    rw [h.calls k g] at hcount
    exact Nat.add_right_cancel (hcount.trans hc.symm)
  · have hcount := hm.count waits rfl
    rw [← h.nwaiting, ← hnwaiting] at hcount
    exact (Nat.add_right_cancel hcount).symm
  · have hcount := hm.count filters rfl
    rw [h.filtering, ← hfiltering] at hcount
    exact Nat.add_right_cancel hcount

end GIOPRope

end OmniORB
