import OmniORB.Library.ShellSort
import OmniORB.Uri.Addresses

/-!
# The addresses of a rope

Which of the addresses of a reference the client transport rules accept, in which order they are
tried, and when the objects that stand for them are deleted.
-/

namespace OmniORB.FailOver

open Library

abbrev Text := List UInt8

/-- The octet of a colon. -/
abbrev colon : UInt8 := 0x3a

/-- An address, with the object that pointers to it point to: two that are equal are the same object.
The type names the transport after a colon. -/
structure GiopAddress where
  object : ℕ
  type : Text
  address : Text
  host : Option Text
  colon_mem : colon ∈ type
deriving DecidableEq

/-- What is configured: how names are treated, which rule matches an address with which actions,
what is a numeric address, and the text of an address with another host in it. -/
structure OrbParameters where
  resolveNamesForTransportRules : Bool
  retainAddressOrder : Bool
  immediateRopeSwitch : Bool
  offerBiDirectionalGIOP : Bool
  clientRules : Text → Option (List Text × ℕ)
  isipaddr : Text → Bool
  withHost : Text → Text → Text

/-- What the actions of a rule say: the priority, where one of them matches, and what is allowed. -/
structure Verdict where
  priority : Option ℕ
  bidir : Bool
  ziop : Bool

def Verdict.deny : Verdict := ⟨none, false, false⟩

namespace GiopAddress

def transport (a : GiopAddress) : Text := (a.type.dropWhile (· ≠ colon)).tail

def duplicate (par : OrbParameters) (a : GiopAddress) (object : ℕ) (host : Text) : GiopAddress :=
  { a with object := object, address := par.withHost a.address host, host := some host }

/-- The host is a name that is to be resolved. -/
def isName (par : OrbParameters) (a : GiopAddress) : Bool :=
  par.resolveNamesForTransportRules && a.host.any fun host => !par.isipaddr host

/-- The loop over the actions, the `i`-th of which is the next. -/
def applyActions (par : OrbParameters) (transport : Text) (matchedRule : ℕ) :
    ℕ → List Text → Verdict → Verdict
  | _, [], v => v
  | i, action :: actions, v =>
    if action.isPrefixOf transport then
      applyActions par transport matchedRule (i + 1) actions
        { v with priority := some ((matchedRule * 2 ^ 16 + i) % 2 ^ 32) }
    else if action = ascii "none" then v
    else if par.offerBiDirectionalGIOP ∧ action = ascii "bidir" then
      applyActions par transport matchedRule (i + 1) actions { v with bidir := true }
    else if action = ascii "ziop" then
      applyActions par transport matchedRule (i + 1) actions { v with ziop := true }
    else applyActions par transport matchedRule (i + 1) actions v

def verdict (par : OrbParameters) (a : GiopAddress) : Verdict :=
  if a.isName par then .deny
  else match par.clientRules a.address with
    | none => .deny
    | some (actions, matchedRule) => applyActions par a.transport matchedRule 0 actions .deny

/-- The rules accept the address. -/
def accepted (par : OrbParameters) (a : GiopAddress) : Bool := (a.verdict par).priority.isSome

end GiopAddress

/-! ### The order of the addresses -/

/-- The accepted addresses, by their index, with their priorities. -/
def candidates (par : OrbParameters) (addresses : List GiopAddress) : List (ℕ × ℕ) :=
  addresses.zipIdx.filterMap fun (a, index) => (a.verdict par).priority.map (index, ·)

def sortByPriority (l : List (ℕ × ℕ)) : List (ℕ × ℕ) :=
  (List.range l.length).map (shellSort Prod.snd l.length fun k => l.getD k (0, 0))

def addressOrder (par : OrbParameters) (addresses : List GiopAddress) : List ℕ :=
  (sortByPriority (candidates par addresses)).map Prod.fst

/-- The priority of the address at an index. -/
def priorityAt (par : OrbParameters) (addresses : List GiopAddress) (index : ℕ) : ℕ :=
  (addresses[index]?.bind fun a => (a.verdict par).priority).getD 0

/-- The addresses are sorted: `order` has each acceptable one once, and those of lower priority
first. -/
structure Sorted (par : OrbParameters) (addresses : List GiopAddress) (order : List ℕ) : Prop where
  nodup : order.Nodup
  mem_iff : ∀ i, i ∈ order ↔ ∃ a, addresses[i]? = some a ∧ a.accepted par = true
  priority : order.Pairwise fun i j => priorityAt par addresses i ≤ priorityAt par addresses j

variable {par : OrbParameters} {addresses : List GiopAddress} {l : List (ℕ × ℕ)}

lemma sortByPriority_perm (l : List (ℕ × ℕ)) : (sortByPriority l).Perm l := by
  have hperm := shellSort_perm Prod.snd l.length fun k => l.getD k (0, 0)
  have hself : (List.range l.length).map (fun k => l.getD k (0, 0)) = l := by
    refine List.ext_getElem (by simp) fun k hk hlt => ?_
    rw [List.getElem_map, List.getElem_range, List.getD_eq_getElem _ _ hlt]
  rw [hself] at hperm
  exact hperm

lemma sortByPriority_pairwise (l : List (ℕ × ℕ)) :
    (sortByPriority l).Pairwise fun e e' => e.2 ≤ e'.2 := by
  rw [sortByPriority, List.pairwise_map, List.pairwise_iff_getElem]
  intro p q _ hq hpq
  rw [List.length_range] at hq
  rw [List.getElem_range, List.getElem_range]
  exact shellSort_sorted Prod.snd _ _ hpq hq

lemma mem_candidates {e : ℕ × ℕ} : e ∈ candidates par addresses ↔
    ∃ a, addresses[e.1]? = some a ∧ (a.verdict par).priority = some e.2 := by
  obtain ⟨index, priority⟩ := e
  rw [candidates, List.mem_filterMap]
  constructor
  · rintro ⟨⟨a, i⟩, hmem, hmap⟩
    obtain ⟨p, hp, heq⟩ := Option.map_eq_some_iff.mp hmap
    cases heq
    exact ⟨a, List.mem_zipIdx_iff_getElem?.mp hmem, hp⟩
  · rintro ⟨a, hget, hp⟩
    exact ⟨(a, index), List.mem_zipIdx_iff_getElem?.mpr hget, Option.map_eq_some_iff.mpr ⟨_, hp, rfl⟩⟩

lemma fst_candidates : (candidates par addresses).map Prod.fst =
    (addresses.zipIdx.filter fun e => e.1.accepted par).map Prod.snd := by
  rw [candidates, List.map_filterMap, ← List.filterMap_eq_map, List.filterMap_filter]
  apply List.filterMap_congr
  rintro ⟨a, index⟩ _
  cases hp : (a.verdict par).priority with
  | none => simp [GiopAddress.accepted, hp]
  | some p => simp [GiopAddress.accepted, hp]

lemma addressOrder_perm : (addressOrder par addresses).Perm
    ((addresses.zipIdx.filter fun e => e.1.accepted par).map Prod.snd) := by
  rw [← fst_candidates]
  exact (sortByPriority_perm _).map Prod.fst

/-- The order has each acceptable address once, by priority. -/
theorem addressOrder_sorted (par : OrbParameters) (addresses : List GiopAddress) :
    Sorted par addresses (addressOrder par addresses) where
  nodup := by
    refine addressOrder_perm.nodup_iff.mpr ?_
    have hnodup : (addresses.zipIdx.map Prod.snd).Nodup := by
      rw [List.zipIdx_map_snd]
      exact List.nodup_range'
    exact hnodup.sublist (List.filter_sublist.map _)
  mem_iff := by
    intro i
    rw [addressOrder_perm.mem_iff, List.mem_map]
    constructor
    · rintro ⟨⟨a, j⟩, hmem, rfl⟩
      obtain ⟨hzip, hacc⟩ := List.mem_filter.mp hmem
      exact ⟨a, List.mem_zipIdx_iff_getElem?.mp hzip, hacc⟩
    · rintro ⟨a, hget, hacc⟩
      exact ⟨(a, i), List.mem_filter.mpr ⟨List.mem_zipIdx_iff_getElem?.mpr hget, hacc⟩, rfl⟩
  priority := by
    rw [addressOrder, List.pairwise_map]
    have hat : ∀ e ∈ sortByPriority (candidates par addresses),
        priorityAt par addresses e.1 = e.2 := by
      intro e he
      obtain ⟨a, hget, hp⟩ := mem_candidates.mp ((sortByPriority_perm _).mem_iff.mp he)
      rw [priorityAt, hget, Option.bind_some, hp, Option.getD_some]
    refine (sortByPriority_pairwise _).imp_of_mem fun he he' hle => ?_
    rw [hat _ he, hat _ he']
    exact hle

/-- In their order, the acceptable addresses are what they are. -/
lemma addressOrder_filterMap : ((addressOrder par addresses).filterMap (addresses[·]?)).Perm
    (addresses.filter fun a => a.accepted par) := by
  refine (addressOrder_perm.filterMap _).trans (List.Perm.of_eq ?_)
  have hget : ∀ e ∈ addresses.zipIdx.filter fun e => e.1.accepted par,
      addresses[e.2]? = some e.1 := by
    intro e he
    exact List.mem_zipIdx_iff_getElem?.mp (List.mem_filter.mp he).1
  have hself : addresses = addresses.zipIdx.map Prod.fst := (List.zipIdx_map_fst 0 _).symm
  conv_rhs => rw [hself, List.filter_map]
  rw [List.filterMap_map, ← List.filterMap_eq_map]
  exact List.filterMap_congr fun e he => hget e he

/-! ### The rope -/

/-- The part of a rope that is about its addresses: all of them, those of the reference first, those
that were resolved and are to be deleted, the order, and the index in the order. -/
structure Rope where
  addresses : List GiopAddress
  iorSize : ℕ
  dead : List GiopAddress
  order : List ℕ
  inUse : ℕ
  filtered : Bool
  filtering : Bool
  iorCompression : Bool
  bidir : Bool
  compression : Bool

namespace Rope

/-- A new rope, for the addresses of a reference. -/
def new (addresses : List GiopAddress) (iorCompression : Bool) : Rope where
  addresses := addresses
  iorSize := addresses.length
  dead := []
  order := []
  inUse := 0
  filtered := false
  filtering := false
  iorCompression := iorCompression
  bidir := false
  compression := false

/-- The address in use; none if one of the indexes is not valid. -/
def current (r : Rope) : Option GiopAddress := r.order[r.inUse]?.bind (r.addresses[·]?)

/-- The addresses in their order. -/
def ordered (r : Rope) : List GiopAddress := r.order.filterMap (r.addresses[·]?)

def hasAddress (r : Rope) (a : GiopAddress) : Bool := a ∈ r.addresses

/-- The addresses to resolve, before the rope is filtered. -/
def names (par : OrbParameters) (r : Rope) : List GiopAddress := r.addresses.filter (·.isName par)

/-- The rest of the filter, once the names have been resolved. -/
def filterAndSortAddressList (par : OrbParameters) (r : Rope) (resolved : List GiopAddress) : Rope :=
  let addresses := r.addresses ++ resolved
  let allows := fun f : Verdict → Bool => addresses.any fun a => a.accepted par && f (a.verdict par)
  { r with
    addresses := addresses
    order := r.order ++ addressOrder par addresses
    filtered := true
    filtering := false
    bidir := r.bidir || allows Verdict.bidir
    compression := r.compression || (r.iorCompression && allows Verdict.ziop) }

/-- The address to use after a failure of one; nothing if an index is not valid. -/
def notifyCommFailure (r : Rope) (addr : Option GiopAddress) : Option (Rope × GiopAddress) :=
  r.current.bind fun a =>
    if addr = some a then
      let r' := { r with inUse := if r.order.length ≤ r.inUse + 1 then 0 else r.inUse + 1 }
      r'.current.map (r', ·)
    else some (r, a)

/-- The addresses that `deleteDeadAddresses` looks at after the resolved ones have been moved. -/
def expired (r : Rope) : List GiopAddress := r.dead ++ (r.addresses.drop r.iorSize).reverse

/-- The rope after a reset, and the addresses that are deleted: the resolved ones, but for those of
other strands. -/
def resetAddressOrder (par : OrbParameters) (r : Rope) (held : List GiopAddress) :
    Rope × List GiopAddress :=
  if par.retainAddressOrder || !r.filtered || r.filtering then (r, [])
  else
    ({ r with
      addresses := r.addresses.take r.iorSize
      dead := r.expired.filter (· ∈ held)
      order := []
      filtered := false
      inUse := 0 }, r.expired.filter (· ∉ held))

end Rope

end OmniORB.FailOver
