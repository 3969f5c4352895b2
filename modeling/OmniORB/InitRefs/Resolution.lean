import OmniORB.InitRefs.ServiceLists

/-!
# Resolving initial references

The settings, and any number of calls of `resolve` at once. A step is what one thread does under the
lock of the lists, or one call of `stringToObject`, which is made without it.
-/

namespace OmniORB.InitRefs

/-- Where an initial reference was configured. -/
inductive Source where
  | args
  | file
  deriving DecidableEq

/-- The ways in which `resolve` looks for a reference. -/
inductive Route where
  | pseudo
  | configured (src : Source)
  | byDefault (src : Source)
  | bootAgent
  deriving DecidableEq

def routes : List Route :=
  [.pseudo, .configured .args, .configured .file, .byDefault .args, .byDefault .file, .bootAgent]

/-- How a call of `stringToObject` or of the boot agent ends. -/
inductive Outcome where
  | object (obj : Obj)
  | exception
  deriving DecidableEq

/-- The exceptions with which `resolve` and `setFromORB` refuse an identifier or an object. -/
inductive ServiceError where
  | invalidName
  | noResources
  | badParam
  deriving DecidableEq

/-- Where a call of `resolve` is. The phases before the last four are those that wait for the lock
or for an answer. -/
inductive Phase where
  | lookup (src : Source)
  | resolving (src : Source) (uri : String)
  | storing (src : Source) (uri : String) (r : ℕ)
  | lookupDefault (src : Source)
  | resolvingDefault (src : Source) (uri : String)
  | storingDefault (src : Source) (obj : Obj)
  | askingAgent
  | storingBoot (r : ℕ)
  | returned (obj : Obj)
  | threw
  | notFound (e : ServiceError)
  | assertFailed
  deriving DecidableEq

/-- A bound for the steps that are left of a call. -/
def Phase.stepsLeft : Phase → ℕ
  | .lookup .args => 8
  | .lookup .file => 7
  | .lookupDefault .args => 6
  | .resolvingDefault .args _ => 5
  | .lookupDefault .file => 4
  | .resolvingDefault .file _ => 3
  | .askingAgent => 2
  | .resolving _ _ => 2
  | .storing _ _ _ => 1
  | .storingDefault _ _ => 1
  | .storingBoot _ => 1
  | _ => 0

/-- A call of `resolve`, with the routes it has tried so far and what came of each. A route on which
nothing was asked has no outcome. -/
structure Resolution where
  id : String
  phase : Phase
  tried : List (Route × Option Outcome)
  deriving DecidableEq

structure State where
  services : Source → List ServiceRecord
  defaults : Source → Option String
  hasAgent : Bool
  /-- what `stringToObject` has answered so far -/
  answers : List (String × ℕ)
  threads : List Resolution

namespace State

def initial : State := ⟨fun _ => [], fun _ => none, false, [], []⟩

variable (s : State)

def setList (src : Source) (l : List ServiceRecord) : State :=
  { s with services := Function.update s.services src l }

/-- `setFromArgs` and `setFromFile` with a uri, if its syntax is valid. -/
def setFrom (valid : String → Bool) (src : Source) (id uri : String) : Option State :=
  if valid uri then some (s.setList src (setService id (some uri) .nil (s.services src))) else none

/-- `setFromArgs` and `setFromFile` with an object. -/
def setObject (src : Source) (id : String) (obj : Obj) : State :=
  s.setList src (setService id none obj (s.services src))

def setFromORB (id : String) (obj : Obj) : Except ServiceError State :=
  if id = "" then .error .invalidName
  else if obj = .nil then .error .badParam
  else if (findService id (s.services .file)).isSome then .error .invalidName
  else if (findService id (s.services .args)).isSome then .error .invalidName
  else .ok (s.setList .args (s.services .args ++ [⟨id, none, obj⟩]))

/-- `remFromArgs` and `remFromFile` -/
def remFrom (src : Source) (id : String) : State :=
  s.setList src (removeService id (s.services src))

/-- `setDefaultInitRefFromArgs` and `setDefaultInitRefFromFile` -/
def setDefault (src : Source) (uri : String) : State :=
  { s with defaults := Function.update s.defaults src (some uri) }

end State

namespace Resolution

variable (c : Resolution)

/-- The exception at the end of `resolve`. -/
def notFoundError (id : String) : ServiceError :=
  if id ∈ ["InterfaceRepository", "NameService", "TradingService", "SecurityCurrent",
      "TransactionCurrent"] then .noResources
  else .invalidName

/-- What `resolve` does after a route that gave the null pointer. -/
def next : Route → Phase
  | .pseudo => .lookup .args
  | .configured .args => .lookup .file
  | .configured .file => .lookupDefault .args
  | .byDefault .args => .lookupDefault .file
  | .byDefault .file => .askingAgent
  | .bootAgent => .notFound (notFoundError c.id)

def fails (route : Route) (outcome : Option Outcome) : Resolution :=
  { c with phase := c.next route, tried := c.tried ++ [(route, outcome)] }

def returns (route : Route) (obj : Obj) : Resolution :=
  { c with phase := .returned obj, tried := c.tried ++ [(route, some (.object obj))] }

/-- The start of `resolve`, with what `resolvePseudo` returns. -/
def start (id : String) : Option Obj → Resolution
  | none => fails ⟨id, .lookup .args, []⟩ .pseudo none
  | some obj => returns ⟨id, .lookup .args, []⟩ .pseudo obj

/-- The first locked step of `resolveArgs` and of `resolveFile`. -/
def lookup (src : Source) : Option ServiceRecord → Resolution
  | none => c.fails (.configured src) none
  | some ⟨_, _, .reference r⟩ => c.returns (.configured src) (.reference r)
  | some ⟨_, some uri, .nil⟩ => { c with phase := .resolving src uri }
  | some ⟨_, none, .nil⟩ => { c with phase := .assertFailed }

/-- A call of `stringToObject` by `resolveArgs` or `resolveFile` ends. Its exceptions are not
caught. -/
def resolved (src : Source) (uri : String) : Outcome → Resolution
  | .object (.reference r) => { c with phase := .storing src uri r }
  | .object .nil => c.returns (.configured src) .nil
  | .exception =>
    { c with phase := .threw, tried := c.tried ++ [(.configured src, some .exception)] }

/-- The locked step of `resolveArgsDefault` and of `resolveFileDefault`. -/
def lookupDefault (src : Source) : Option String → Resolution
  | none => c.fails (.byDefault src) none
  | some defaultUri => { c with phase := .resolvingDefault src (defaultUri ++ "/" ++ c.id) }

/-- A call of `stringToObject` by `resolveArgsDefault` or `resolveFileDefault` ends. -/
def resolvedDefault (src : Source) : Outcome → Resolution
  | .object obj => { c with phase := .storingDefault src obj }
  | .exception => c.fails (.byDefault src) (some .exception)

/-- The locked step of `resolveBootAgent`. -/
def askAgent (hasAgent : Bool) (outcome : Outcome) : Resolution :=
  if hasAgent then
    match outcome with
    | .object (.reference r) => { c with phase := .storingBoot r }
    | _ => c.fails .bootAgent (some outcome)
  else c.fails .bootAgent none

end Resolution

namespace State

variable (s : State)

/-- `stringToObject` has answered. -/
def answered (uri : String) : Outcome → State
  | .object (.reference r) => { s with answers := (uri, r) :: s.answers }
  | _ => s

/-- The next step of a call of `resolve`. The outcome is that of `stringToObject` or of the boot
agent, if the step is such a call. -/
def advance (c : Resolution) (outcome : Outcome) : State × Resolution :=
  match c.phase with
  | .lookup src => (s, c.lookup src (findService c.id (s.services src)))
  | .resolving src uri => (s.answered uri outcome, c.resolved src uri outcome)
  | .storing src _ r =>
    (s.setList src (storeRef c.id r (s.services src)), c.returns (.configured src) (.reference r))
  | .lookupDefault src => (s, c.lookupDefault src (s.defaults src))
  | .resolvingDefault src uri => (s.answered uri outcome, c.resolvedDefault src outcome)
  | .storingDefault src obj => (s.setObject src c.id obj, c.returns (.byDefault src) obj)
  | .askingAgent => (s, c.askAgent s.hasAgent outcome)
  | .storingBoot r => (s.setObject .args c.id (.reference r), c.returns .bootAgent (.reference r))
  | .returned _ | .threw | .notFound _ | .assertFailed => (s, c)

end State

inductive Step where
  | setFrom (src : Source) (id uri : String)
  | setFromORB (id : String) (obj : Obj)
  | remFrom (src : Source) (id : String)
  | setDefault (src : Source) (uri : String)
  | initialiseAgent
  /-- a thread calls `resolve`, and `resolvePseudo` returns such an object or the null pointer -/
  | resolve (id : String) (pseudo : Option Obj)
  | advance (t : ℕ) (outcome : Outcome)

namespace Step

def setFromArgs : String → String → Step := .setFrom .args

def setFromFile : String → String → Step := .setFrom .file

def remFromArgs : String → Step := .remFrom .args

def remFromFile : String → Step := .remFrom .file

def setDefaultInitRefFromArgs : String → Step := .setDefault .args

def setDefaultInitRefFromFile : String → Step := .setDefault .file

end Step

/-- A step, for such a test of the syntax of uris. -/
def State.step (valid : String → Bool) (s : State) : Step → Option State
  | .setFrom src id uri => some ((s.setFrom valid src id uri).getD s)
  | .setFromORB id obj => some ((s.setFromORB id obj).toOption.getD s)
  | .remFrom src id => some (s.remFrom src id)
  | .setDefault src uri => some (s.setDefault src uri)
  | .initialiseAgent => some { s with hasAgent := true }
  | .resolve id pseudo => some { s with threads := s.threads ++ [Resolution.start id pseudo] }
  | .advance t outcome =>
    s.threads[t]?.map fun c =>
      let (s', c') := s.advance c outcome
      { s' with threads := s'.threads.set t c' }

end OmniORB.InitRefs
