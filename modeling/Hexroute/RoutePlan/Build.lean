import Hexroute.Lib.Refusal
import Hexroute.Lib.StableSort

/-!
# A route plan is applied in any order and part

Where a route belongs is decided for each target from the route its own
destination has.  An operation changes one destination, so that the plan for
a table that some operations were applied to is what is left of the plan.
-/

namespace Hexroute.RoutePlan

open Hexroute.Lib

inductive LinkClass where
  | physical
  | upstreamVPN
  | twilightTUN
  deriving DecidableEq, Repr

inductive Role where
  | ingress
  | corporate
  | gitLabHTTPS
  | codexFallback
  | inherited
  deriving DecidableEq, Repr

/-- An address as it is parsed; the zero address is not valid. -/
inductive Addr where
  | zero
  | v4 (bits : BitVec 32)
  | v6 (bits : BitVec 128) (zone : String)
  deriving DecidableEq, Repr

def Addr.isValid (address : Addr) : Bool :=
  decide (address ≠ .zero)

def Addr.is4 : Addr → Bool
  | .v4 _ => true
  | _ => false

/-- `preferred` is absent where the configuration names no link. -/
structure Target where
  name : String
  destination : Addr
  role : Role
  preferred : Option LinkClass
  deriving DecidableEq, Repr

structure Path where
  link : LinkClass
  interface : String
  gateway : Addr
  deriving DecidableEq, Repr

structure ObservedRoute where
  destination : Addr
  interface : String
  gateway : Addr
  owned : Bool
  deriving DecidableEq, Repr

structure CodexState where
  normalReady : Bool
  twilightReady : Bool
  deriving DecidableEq, Repr

structure GitLabSSHObservation where
  bindInterface : String
  physicalInterface : String
  deriving DecidableEq, Repr

inductive PolicyStatus where
  | unknown
  | compliant
  | degraded
  deriving DecidableEq, Repr

/-- The current table, by destination. -/
abbrev Table := Addr → Option ObservedRoute

structure Input where
  targets : List Target
  physical : Path
  upstream : Option Path
  tun : Path
  current : Table
  codex : CodexState
  gitLabSSH : Option GitLabSSHObservation

inductive RouteError where
  | invalidInput
  | ambiguousOwnership
  | ingressSelfRoute
  deriving DecidableEq, Repr

def lowercase : List Char := "abcdefghijklmnopqrstuvwxyz".toList

def alphanumeric : List Char :=
  lowercase ++ "ABCDEFGHIJKLMNOPQRSTUVWXYZ0123456789".toList

def validTargetName (name : String) : Bool :=
  match name.toList with
  | [] => false
  | first :: later =>
      decide (first ∈ lowercase) &&
        later.all (· ∈ lowercase ++ "0123456789-".toList) &&
        decide (later.length ≤ 39)

def validInterfaceName (name : String) : Bool :=
  match name.toList with
  | [] => false
  | first :: later =>
      decide (first ∈ alphanumeric) &&
        later.all (· ∈ alphanumeric ++ "_.-".toList) &&
        decide (later.length ≤ 31)

/-- The path a target asks for, if it asks for one. -/
def desiredPath (target : Target) (input : Input) :
    Except RouteError (Option Path) :=
  match target.role with
  | .ingress =>
      match target.preferred with
      | none | some .physical => pure (some input.physical)
      | some .upstreamVPN => pure (some (input.upstream.getD input.physical))
      | some .twilightTUN => throw .ingressSelfRoute
  | .corporate | .gitLabHTTPS | .inherited => pure (some input.tun)
  | .codexFallback =>
      pure (if input.codex.normalReady then none
        else if input.codex.twilightReady then some input.tun
        else none)

def validateTarget (target : Target) : Except RouteError Unit :=
  refuse
    (validTargetName target.name = false ∨
      target.destination.isValid = false ∨ target.destination.is4 = false ∨
      target.role ≠ .ingress ∧ target.preferred ≠ none)
    .invalidInput

def evaluateGitLabSSH (observation : GitLabSSHObservation) :
    Except RouteError PolicyStatus := do
  refuse
    (validInterfaceName observation.physicalInterface = false ∨
      "utun".toList.isPrefixOf observation.physicalInterface.toList = true)
    .invalidInput
  if observation.bindInterface = "" then pure .degraded
  else do
    refuse (validInterfaceName observation.bindInterface = false)
      .invalidInput
    if observation.bindInterface ≠ observation.physicalInterface then
      pure .degraded
    else pure .compliant

def validatePath (path : Path) (tun : Bool) : Except RouteError Unit := do
  refuse (validInterfaceName path.interface = false) .invalidInput
  if tun then refuse (path.link ≠ .twilightTUN) .invalidInput
  else do
    refuse (path.link ≠ .physical ∧ path.link ≠ .upstreamVPN) .invalidInput
    refuse (path.link = .physical ∧ path.gateway.isValid = false)
      .invalidInput

def validateInput (input : Input) : Except RouteError Unit := do
  refuse
    (input.physical.link = .twilightTUN ∨
      input.physical.interface ≠ "" ∧
        input.physical.interface = input.tun.interface)
    .ingressSelfRoute
  validatePath input.physical false
  validatePath input.tun true
  match input.upstream with
  | none => pure ⟨⟩
  | some upstream => do
      refuse (upstream.interface = input.tun.interface) .ingressSelfRoute
      (validatePath upstream false).mapError fun _ => .invalidInput
      refuse (upstream.link ≠ .upstreamVPN) .invalidInput

def routeMatches (route : ObservedRoute) (path : Path) : Bool :=
  decide (route.interface = path.interface) &&
    (!path.gateway.isValid || decide (route.gateway = path.gateway))

inductive State where
  | installed
  | conflicting
  | missing
  | unwanted
  | unasked
  deriving DecidableEq, Repr

/-- A target, where it belongs and where it stands. -/
structure Decision where
  target : Target
  path : Option Path
  state : State
  current : Option ObservedRoute
  deriving DecidableEq, Repr

def classify
    (target : Target) (path : Option Path)
    (current : Option ObservedRoute) : State :=
  match path with
  | none =>
      if target.role = .codexFallback ∧
          (current.any fun route => route.owned) = true then
        .unwanted
      else .unasked
  | some path =>
      match current with
      | none => .missing
      | some route =>
          if routeMatches route path then .installed else .conflicting

/-- The decision for a target that asks for this path. -/
def decisionFor (current : Table) (target : Target) (path : Option Path) :
    Decision :=
  ⟨target, path, classify target path (current target.destination),
    current target.destination⟩

/-- The loop over the targets, with the destinations before. -/
def decideTargets (input : Input) :
    List Addr → List Target → Except RouteError (List Decision)
  | _, [] => pure []
  | seen, target :: later => do
      validateTarget target
      refuse (target.destination ∈ seen) .ambiguousOwnership
      let path ← desiredPath target input
      let decisions ← decideTargets input (target.destination :: seen) later
      pure (decisionFor input.current target path :: decisions)

def decideRoutes (input : Input) : Except RouteError (List Decision) := do
  validateInput input
  decideTargets input [] input.targets

structure Placement where
  configured : Nat
  installed : Nat
  conflicting : Nat
  missing : Nat
  deriving DecidableEq, Repr

/-- The decisions in one of these states, in sixteen bits. -/
def countStates (states : List State) (decisions : List Decision) : Nat :=
  (decisions.countP fun decision => decision.state ∈ states) % 2 ^ 16

def place (input : Input) : Except RouteError Placement := do
  let decisions ← decideRoutes input
  pure
    ⟨input.targets.length % 2 ^ 16, countStates [.installed] decisions,
      countStates [.conflicting, .unwanted] decisions,
      countStates [.missing] decisions⟩

inductive Reason where
  | missingRoute
  | wrongPath
  | fallbackRequired
  | fallbackRestored
  deriving DecidableEq, Repr

inductive OperationKind where
  | ensureHostRoute
  | removeOwnedHostRoute
  deriving DecidableEq, Repr

structure Operation where
  kind : OperationKind
  target : String
  role : Role
  destination : Addr
  path : Option Path
  reason : Reason
  deriving DecidableEq, Repr

structure Plan where
  observeOnly : Bool
  operations : List Operation
  gitLabSSH : PolicyStatus
  deriving DecidableEq, Repr

def operationOf (decision : Decision) : Option Operation :=
  match decision.state with
  | .unasked | .installed => none
  | .unwanted =>
      some ⟨.removeOwnedHostRoute, decision.target.name,
        decision.target.role, decision.target.destination, none,
        .fallbackRestored⟩
  | .conflicting | .missing =>
      some ⟨.ensureHostRoute, decision.target.name, decision.target.role,
        decision.target.destination, decision.path,
        if decision.target.role = .codexFallback then .fallbackRequired
        else if decision.current.isSome then .wrongPath
        else .missingRoute⟩

def gitLabStatus (input : Input) : Except RouteError PolicyStatus :=
  match input.gitLabSSH with
  | none => pure .unknown
  | some observation => evaluateGitLabSSH observation

/-- The check of the routes that a plan is to leave. -/
def IngressSelfRoutes (decisions : List Decision) : Prop :=
  ∃ decision ∈ decisions, decision.target.role = .ingress ∧
    (decision.path.any fun path => path.link = .twilightTUN) = true

instance (decisions : List Decision) :
    Decidable (IngressSelfRoutes decisions) :=
  inferInstanceAs (Decidable (∃ decision ∈ decisions, _ ∧ _ = true))

section Build

variable (text : Addr → String)

/-- Operations are in the order of their destination's text.  The targets
have different destinations, so that no two operations share a place. -/
def Operation.order (operation : Operation) : String ×ₗ String :=
  toLex (text operation.destination, operation.target)

def build (input : Input) : Except RouteError Plan := do
  let decisions ← decideRoutes input
  refuse (IngressSelfRoutes decisions) .ingressSelfRoute
  let status ← gitLabStatus input
  pure
    ⟨true, sortBy (Operation.order text) (decisions.filterMap operationOf),
      status⟩

end Build

/-! ## Applying operations -/

/-- The route an operation leaves; `marked` says whether an ensured route is
marked as owned. -/
def Operation.route (marked : Operation → Bool) (operation : Operation) :
    Option ObservedRoute :=
  match operation.kind with
  | .removeOwnedHostRoute => none
  | .ensureHostRoute =>
      operation.path.map fun path =>
        ⟨operation.destination, path.interface, path.gateway,
          marked operation⟩

def applyAll (marked : Operation → Bool) (current : Table)
    (operations : List Operation) : Table :=
  operations.foldl
    (fun table operation =>
      Function.update table operation.destination (operation.route marked))
    current

section Applied

variable {marked : Operation → Bool} {current : Table}
  {operations : List Operation}

theorem applyAll_cons (operation : Operation) :
    applyAll marked current (operation :: operations) =
      applyAll marked
        (Function.update current operation.destination
          (operation.route marked))
        operations :=
  rfl

theorem applyAll_of_not_mem {destination : Addr}
    (untouched :
      ∀ operation ∈ operations, operation.destination ≠ destination) :
    applyAll marked current operations destination =
      current destination := by
  induction operations generalizing current with
  | nil => rfl
  | cons operation later induction =>
      rw [List.forall_mem_cons] at untouched
      rw [applyAll_cons, induction untouched.2]
      exact Function.update_of_ne untouched.1.symm _ _

theorem applyAll_of_mem
    (distinct : (operations.map (·.destination)).Nodup)
    {operation : Operation} (member : operation ∈ operations) :
    applyAll marked current operations operation.destination =
      operation.route marked := by
  induction operations generalizing current with
  | nil => cases member
  | cons first later induction =>
      rw [List.map_cons, List.nodup_cons] at distinct
      rcases List.mem_cons.mp member with rfl | listed
      · rw [applyAll_cons, applyAll_of_not_mem, Function.update_self]
        intro other otherMember same
        exact distinct.1 (List.mem_map.mpr ⟨other, otherMember, same⟩)
      · rw [applyAll_cons]
        exact induction distinct.2 listed

end Applied

/-! ## The decisions for another table -/

section Decisions

variable {input : Input} {current : Table} {decisions : List Decision}

/-- The same decision for another table. -/
def Decision.restand (current : Table) (decision : Decision) : Decision :=
  decisionFor current decision.target decision.path

/-- By induction over the targets: the table is only read where a decision
is made. -/
theorem decideTargets_restand
    (seen : List Addr) (targets : List Target) :
    decideTargets { input with current := current } seen targets =
      (decideTargets input seen targets).map
        (List.map (Decision.restand current)) := by
  induction targets generalizing seen with
  | nil => rfl
  | cons target later induction =>
      have samePath :
          desiredPath target { input with current := current } =
            desiredPath target input :=
        rfl
      simp only [decideTargets, samePath, induction]
      cases validateTarget target with
      | error cause => rfl
      | ok _ =>
          by_cases known : target.destination ∈ seen
          · simp only [refuse, if_pos known]
            rfl
          · simp only [refuse, if_neg known]
            cases desiredPath target input with
            | error cause => rfl
            | ok path =>
                cases decideTargets input (target.destination :: seen)
                  later <;> rfl

theorem decideRoutes_restand :
    decideRoutes { input with current := current } =
      (decideRoutes input).map (List.map (Decision.restand current)) := by
  have sameLinks :
      validateInput { input with current := current } =
        validateInput input :=
    rfl
  simp only [decideRoutes, sameLinks, decideTargets_restand]
  cases validateInput input <;> rfl

/-- What is known of decisions that were made. -/
structure Decided (input : Input) (seen : List Addr)
    (targets : List Target) (decisions : List Decision) : Prop where
  targets : decisions.map (·.target) = targets
  path :
    ∀ decision ∈ decisions,
      desiredPath decision.target input = .ok decision.path
  stands :
    ∀ decision ∈ decisions, decision.restand input.current = decision
  distinct : (decisions.map (·.target.destination)).Nodup
  fresh : ∀ decision ∈ decisions, decision.target.destination ∉ seen

theorem decided_of_decideTargets
    {seen : List Addr} {targets : List Target}
    (decided : decideTargets input seen targets = .ok decisions) :
    Decided input seen targets decisions := by
  induction targets generalizing seen decisions with
  | nil =>
      rw [← pure_eq_ok_iff.mp decided]
      exact ⟨rfl, by simp, by simp, by simp, by simp⟩
  | cons target later induction =>
      simp only [decideTargets, bind_eq_ok_iff, refuse_eq_ok_iff,
        pure_eq_ok_iff] at decided
      obtain ⟨_, -, _, unseen, path, asked, rest, restDecided, rfl⟩ := decided
      obtain ⟨targets, paths, stands, distinct, fresh⟩ :=
        induction restDecided
      refine ⟨?_, ?_, ?_, ?_, ?_⟩
      · rw [List.map_cons, targets]
        rfl
      · exact List.forall_mem_cons.mpr ⟨asked, paths⟩
      · exact List.forall_mem_cons.mpr ⟨rfl, stands⟩
      · rw [List.map_cons, List.nodup_cons]
        refine ⟨?_, distinct⟩
        intro member
        obtain ⟨decision, listed, same⟩ := List.mem_map.mp member
        exact fresh decision listed (same ▸ List.mem_cons_self)
      · refine List.forall_mem_cons.mpr ⟨unseen, ?_⟩
        intro decision listed known
        exact fresh decision listed (List.mem_cons_of_mem _ known)

/-- A decision that has an operation, and what the operation leaves there. -/
theorem operationOf_eq_some {decision : Decision} {operation : Operation}
    (stands : decision.restand input.current = decision)
    (asked : operationOf decision = some operation) :
    operation.destination = decision.target.destination ∧
      operation.role = decision.target.role ∧
        ((∃ path, decision.path = some path ∧ operation.path = some path ∧
            operation.kind = .ensureHostRoute) ∨
          decision.path = none ∧ operation.kind = .removeOwnedHostRoute ∧
            ∃ route, input.current decision.target.destination = some route ∧
              route.owned = true) := by
  have state :
      classify decision.target decision.path
          (input.current decision.target.destination) = decision.state :=
    congrArg Decision.state stands
  unfold operationOf at asked
  rw [← state] at asked
  cases asks : decision.path with
  | none =>
      by_cases unwanted :
          decision.target.role = .codexFallback ∧
            ((input.current decision.target.destination).any
              fun route => route.owned) = true
      · simp only [asks, classify, if_pos unwanted] at asked
        obtain rfl := Option.some.inj asked
        obtain ⟨route, found, owned⟩ := (Option.any_eq_true _ _).mp unwanted.2
        exact ⟨rfl, rfl, .inr ⟨rfl, rfl, route, found, owned⟩⟩
      · simp only [asks, classify, if_neg unwanted] at asked
        cases asked
  | some path =>
      cases found : input.current decision.target.destination with
      | none =>
          simp only [asks, found, classify] at asked
          obtain rfl := Option.some.inj asked
          exact ⟨rfl, rfl, .inl ⟨path, rfl, rfl, rfl⟩⟩
      | some route =>
          by_cases matched : routeMatches route path = true
          · simp only [asks, found, classify, if_pos matched] at asked
            cases asked
          · simp only [asks, found, classify, if_neg matched] at asked
            obtain rfl := Option.some.inj asked
            exact ⟨rfl, rfl, .inl ⟨path, rfl, rfl, rfl⟩⟩

/-- Once its operation is applied a decision asks for nothing. -/
theorem operationOf_restand_applied
    {marked : Operation → Bool} {decision : Decision} {operation : Operation}
    (stands : decision.restand input.current = decision)
    (asked : operationOf decision = some operation)
    (applied :
      current decision.target.destination = operation.route marked) :
    operationOf (decision.restand current) = none := by
  obtain ⟨-, -, ⟨path, is, left, ensures⟩ | ⟨is, removes, -⟩⟩ :=
    operationOf_eq_some stands asked
  · simp [operationOf, Decision.restand, decisionFor, applied,
      Operation.route, ensures, left, is, classify, routeMatches]
  · simp [operationOf, Decision.restand, decisionFor, applied,
      Operation.route, removes, is, classify]

theorem restand_of_eq {decision : Decision}
    (same :
      current decision.target.destination =
        input.current decision.target.destination) :
    decision.restand current = decision.restand input.current := by
  rw [Decision.restand, Decision.restand, decisionFor, decisionFor, same]

/-- The operations of decisions, before they are sorted. -/
structure Chosen (input : Input) (decisions : List Decision)
    (applied : List Operation) : Prop where
  decided : Decided input [] input.targets decisions
  once : applied.Nodup
  asked :
    ∀ operation ∈ applied, ∃ decision ∈ decisions,
      operationOf decision = some operation

namespace Chosen

variable {applied : List Operation}

/-- A destination has one decision. -/
theorem decision_eq (chosen : Chosen input decisions applied)
    {first second : Decision} (firstMember : first ∈ decisions)
    (secondMember : second ∈ decisions)
    (same : first.target.destination = second.target.destination) :
    first = second :=
  List.inj_on_of_nodup_map chosen.decided.distinct firstMember secondMember
    same

theorem operation_of (chosen : Chosen input decisions applied)
    {decision : Decision} (member : decision ∈ decisions)
    {operation : Operation} (listed : operation ∈ applied)
    (same : operation.destination = decision.target.destination) :
    operationOf decision = some operation := by
  obtain ⟨other, otherMember, asked⟩ := chosen.asked operation listed
  obtain ⟨destination, -⟩ :=
    operationOf_eq_some (chosen.decided.stands other otherMember) asked
  rw [← chosen.decision_eq otherMember member (destination.symm.trans same)]
  exact asked

theorem destinations_nodup (chosen : Chosen input decisions applied) :
    (applied.map (·.destination)).Nodup := by
  refine chosen.once.map_on ?_
  intro first firstListed second secondListed same
  obtain ⟨decision, member, asked⟩ := chosen.asked first firstListed
  obtain ⟨destination, -⟩ :=
    operationOf_eq_some (chosen.decided.stands decision member) asked
  have other := chosen.operation_of member secondListed
    (same.symm.trans destination)
  exact Option.some.inj (asked.symm.trans other)

/-- One decision after the operations: its own one is gone if applied. -/
theorem operationOf_restand (chosen : Chosen input decisions applied)
    (marked : Operation → Bool) {decision : Decision}
    (member : decision ∈ decisions) :
    operationOf
        (decision.restand (applyAll marked input.current applied)) =
      (operationOf decision).filter (· ∉ applied) := by
  have stands := chosen.decided.stands decision member
  have untouched
      (absent :
        ∀ operation ∈ applied, operationOf decision ≠ some operation) :
      decision.restand (applyAll marked input.current applied) =
        decision := by
    refine (restand_of_eq (applyAll_of_not_mem ?_)).trans stands
    intro operation listed same
    exact absent operation listed (chosen.operation_of member listed same)
  cases asked : operationOf decision with
  | none =>
      rw [untouched (by simp [asked]), asked]
      rfl
  | some operation =>
      by_cases listed : operation ∈ applied
      · rw [operationOf_restand_applied stands asked]
        · simp [Option.filter, listed]
        · rw [← (operationOf_eq_some stands asked).1]
          exact applyAll_of_mem chosen.destinations_nodup listed
      · rw [untouched, asked]
        · simp [Option.filter, listed]
        · intro other otherListed same
          rw [asked] at same
          exact listed (Option.some.inj same ▸ otherListed)

/-- What is asked for after the operations is what is left of them. -/
theorem filterMap_restand (chosen : Chosen input decisions applied)
    (marked : Operation → Bool) :
    (decisions.map (Decision.restand
        (applyAll marked input.current applied))).filterMap operationOf =
      (decisions.filterMap operationOf).filter (· ∉ applied) := by
  rw [List.filterMap_map, List.filter_filterMap]
  apply List.filterMap_congr
  intro decision member
  exact chosen.operationOf_restand marked member

end Chosen

end Decisions

/-! ## The plan for what is left -/

section Plans

variable {text : Addr → String} {input : Input} {plan : Plan}
  {decisions : List Decision}

theorem build_eq_ok_iff :
    build text input = .ok plan ↔
      ∃ decisions status, decideRoutes input = .ok decisions ∧
        ¬ IngressSelfRoutes decisions ∧ gitLabStatus input = .ok status ∧
          plan = ⟨true,
            sortBy (Operation.order text) (decisions.filterMap operationOf),
            status⟩ := by
  simp only [build, bind_eq_ok_iff, refuse_eq_ok_iff, pure_eq_ok_iff]
  constructor
  · rintro ⟨decisions, decided, _, safe, status, evaluated, rfl⟩
    exact ⟨decisions, status, decided, safe, evaluated, rfl⟩
  · rintro ⟨decisions, status, decided, safe, evaluated, rfl⟩
    exact ⟨decisions, decided, ⟨⟩, safe, status, evaluated, rfl⟩

theorem decided_of_decideRoutes
    (decided : decideRoutes input = .ok decisions) :
    validateInput input = .ok ⟨⟩ ∧
      Decided input [] input.targets decisions := by
  obtain ⟨_, valid, loop⟩ := bind_eq_ok_iff.mp decided
  exact ⟨valid, decided_of_decideTargets loop⟩

theorem validInterfaceName_ne_empty {name : String}
    (valid : validInterfaceName name = true) : name ≠ "" := by
  rintro rfl
  revert valid
  decide

/-- An ingress target is never asked onto the tunnel. -/
theorem ingress_interface_ne
    (valid : validateInput input = .ok ⟨⟩) {target : Target}
    (ingress : target.role = .ingress) {path : Path}
    (asked : desiredPath target input = .ok (some path)) :
    path.interface ≠ input.tun.interface := by
  simp only [validateInput, validatePath, bind_eq_ok_iff, refuse_eq_ok_iff,
    not_or, not_and, Bool.not_eq_false] at valid
  obtain ⟨_, ⟨-, physical⟩, _, ⟨_, named, -⟩, _, -, upstreamValid⟩ := valid
  have physicalApart : input.physical.interface ≠ input.tun.interface :=
    physical (validInterfaceName_ne_empty named)
  simp only [desiredPath, ingress] at asked
  cases preferred : target.preferred with
  | none =>
      rw [preferred] at asked
      obtain rfl := Option.some.inj (pure_eq_ok_iff.mp asked)
      exact physicalApart
  | some link =>
      rw [preferred] at asked
      cases link with
      | physical =>
          obtain rfl := Option.some.inj (pure_eq_ok_iff.mp asked)
          exact physicalApart
      | twilightTUN => cases asked
      | upstreamVPN =>
          obtain rfl := Option.some.inj (pure_eq_ok_iff.mp asked)
          cases up : input.upstream with
          | none => exact physicalApart
          | some upstream =>
              simp only [up, bind_eq_ok_iff, refuse_eq_ok_iff]
                at upstreamValid
              obtain ⟨_, apart, -⟩ := upstreamValid
              exact apart

/-- Missing and conflicting routes are those with an operation. -/
theorem count_operations (decisions : List Decision) :
    (decisions.countP fun decision => decision.state ∈ [State.missing]) +
        (decisions.countP fun decision =>
          decision.state ∈ [State.conflicting, .unwanted]) =
      (decisions.filterMap operationOf).length := by
  induction decisions with
  | nil => rfl
  | cons decision later induction =>
      rw [List.countP_cons, List.countP_cons, List.filterMap_cons]
      obtain ⟨target, path, state, current⟩ := decision
      cases state <;> simp [operationOf] <;> simp at induction <;> omega

theorem place_of_decideRoutes
    (decided : decideRoutes input = .ok decisions)
    (few : input.targets.length ≤ 65535) :
    ∃ placement, place input = .ok placement ∧
      placement.missing + placement.conflicting =
        (decisions.filterMap operationOf).length := by
  have total : decisions.length ≤ 65535 := by
    rw [← (decided_of_decideRoutes decided).2.targets, List.length_map] at few
    exact few
  refine ⟨⟨input.targets.length % 2 ^ 16, countStates [.installed] decisions,
    countStates [.conflicting, .unwanted] decisions,
    countStates [.missing] decisions⟩, ?_, ?_⟩
  · rw [place, decided]
    rfl
  · have missing := List.countP_le_length
      (p := fun decision : Decision => decision.state ∈ [State.missing])
      (l := decisions)
    have conflicting := List.countP_le_length
      (p := fun decision : Decision =>
        decision.state ∈ [State.conflicting, .unwanted])
      (l := decisions)
    rw [← count_operations decisions]
    simp only [countStates]
    omega

theorem ingressSelfRoutes_restand (current : Table) :
    IngressSelfRoutes (decisions.map (Decision.restand current)) ↔
      IngressSelfRoutes decisions := by
  simp [IngressSelfRoutes, Decision.restand, decisionFor]

theorem chosen_of_build
    {applied : List Operation}
    (decided : decideRoutes input = .ok decisions) (once : applied.Nodup)
    (listed :
      applied ⊆
        sortBy (Operation.order text) (decisions.filterMap operationOf)) :
    Chosen input decisions applied := by
  refine ⟨(decided_of_decideRoutes decided).2, once, ?_⟩
  intro operation member
  have planned := (sortBy_perm _).mem_iff.mp (listed member)
  exact List.mem_filterMap.mp planned

namespace Chosen

variable {applied : List Operation}

/-- An ingress target keeps its route or comes onto another link. -/
theorem ingress_apart (chosen : Chosen input decisions applied)
    (valid : validateInput input = .ok ⟨⟩) (marked : Operation → Bool)
    {target : Target} (member : target ∈ input.targets)
    (ingress : target.role = .ingress) :
    applyAll marked input.current applied target.destination =
        input.current target.destination ∨
      ∃ route,
        applyAll marked input.current applied target.destination =
            some route ∧
          route.interface ≠ input.tun.interface := by
  by_cases touched :
      ∃ operation ∈ applied, operation.destination = target.destination
  · obtain ⟨operation, listed, same⟩ := touched
    right
    rw [← chosen.decided.targets] at member
    obtain ⟨decision, decisionMember, rfl⟩ := List.mem_map.mp member
    have asked := chosen.operation_of decisionMember listed same
    have pathAsked := chosen.decided.path _ decisionMember
    obtain ⟨-, -, ⟨path, is, ensured, ensures⟩ | ⟨is, -, -⟩⟩ :=
      operationOf_eq_some (chosen.decided.stands _ decisionMember) asked
    · rw [is] at pathAsked
      refine ⟨⟨operation.destination, path.interface, path.gateway,
        marked operation⟩, ?_, ingress_interface_ne valid ingress pathAsked⟩
      rw [← same, applyAll_of_mem chosen.destinations_nodup listed]
      simp [Operation.route, ensures, ensured]
    · rw [is] at pathAsked
      simp only [desiredPath, ingress] at pathAsked
      split at pathAsked <;> cases pathAsked
  · left
    refine applyAll_of_not_mem ?_
    intro operation listed same
    exact touched ⟨operation, listed, same⟩

/-- What is removed is owned when it is removed: no earlier operation is for
its destination. -/
theorem removes_owned (chosen : Chosen input decisions applied)
    (marked : Operation → Bool) {first : List Operation}
    {operation : Operation} (isFirst : first ++ [operation] <+: applied)
    (removes : operation.kind = .removeOwnedHostRoute) :
    ∃ route,
      applyAll marked input.current first operation.destination =
          some route ∧
        route.owned = true := by
  have listed : operation ∈ applied :=
    isFirst.subset (List.mem_append_right _ List.mem_cons_self)
  obtain ⟨decision, member, asked⟩ := chosen.asked operation listed
  obtain ⟨destination, -, ⟨_, -, -, ensures⟩ | ⟨-, -, route, found, owned⟩⟩ :=
    operationOf_eq_some (chosen.decided.stands decision member) asked
  · rw [removes] at ensures
    cases ensures
  · refine ⟨route, ?_, owned⟩
    rw [← found, ← destination]
    refine applyAll_of_not_mem ?_
    intro other otherMember same
    have distinct := chosen.destinations_nodup.sublist
      (isFirst.sublist.map (·.destination))
    rw [List.map_append, List.nodup_append] at distinct
    exact distinct.2.2 _ (List.mem_map.mpr ⟨other, otherMember, rfl⟩) _
      (List.mem_map.mpr ⟨operation, List.mem_singleton_self _, rfl⟩) same

theorem keeps_outside (chosen : Chosen input decisions applied)
    (marked : Operation → Bool) {destination : Addr}
    (outside :
      ∀ target ∈ input.targets, target.destination ≠ destination) :
    applyAll marked input.current applied destination =
      input.current destination := by
  refine applyAll_of_not_mem ?_
  intro operation listed same
  obtain ⟨decision, member, asked⟩ := chosen.asked operation listed
  obtain ⟨own, -⟩ :=
    operationOf_eq_some (chosen.decided.stands decision member) asked
  refine outside decision.target ?_ (own.symm.trans same)
  rw [← chosen.decided.targets]
  exact List.mem_map.mpr ⟨decision, member, rfl⟩

end Chosen

/-- Apply some operations of a plan, each once and in any order.  The plan for
the table then is the rest of the plan in its order, and the placement counts
it.  No ingress target comes onto the tunnel, what is removed is owned at
that moment, and other destinations keep their routes. -/
theorem build_after_applying
    (built : build text input = .ok plan)
    (few : input.targets.length ≤ 65535) {applied : List Operation}
    (once : applied.Nodup) (listed : applied ⊆ plan.operations)
    (marked : Operation → Bool) :
    let left := plan.operations.filter (· ∉ applied)
    let after :=
      { input with current := applyAll marked input.current applied }
    build text after = .ok { plan with operations := left } ∧
      (∃ placement, place after = .ok placement ∧
        placement.missing + placement.conflicting = left.length) ∧
      (∀ target ∈ input.targets, target.role = .ingress →
        after.current target.destination =
            input.current target.destination ∨
          ∃ route, after.current target.destination = some route ∧
            route.interface ≠ input.tun.interface) ∧
      (∀ first operation, first ++ [operation] <+: applied →
        operation.kind = .removeOwnedHostRoute →
          ∃ route,
            applyAll marked input.current first operation.destination =
                some route ∧
              route.owned = true) ∧
      ∀ destination,
        (∀ target ∈ input.targets, target.destination ≠ destination) →
          after.current destination = input.current destination := by
  obtain ⟨decisions, status, decided, safe, evaluated, rfl⟩ :=
    build_eq_ok_iff.mp built
  have chosen := chosen_of_build decided once listed
  have valid := (decided_of_decideRoutes decided).1
  intro left after
  have decidedAfter :
      decideRoutes after =
        .ok (decisions.map (Decision.restand after.current)) := by
    rw [decideRoutes_restand, decided]
    rfl
  have leftOperations := chosen.filterMap_restand marked
  refine ⟨?_, ?_, ?_, ?_, ?_⟩
  · refine build_eq_ok_iff.mpr ⟨_, status, decidedAfter, ?_, evaluated, ?_⟩
    · rwa [ingressSelfRoutes_restand]
    · rw [leftOperations, sortBy_filter]
  · obtain ⟨placement, placed, sum⟩ := place_of_decideRoutes decidedAfter few
    refine ⟨placement, placed, sum.trans ?_⟩
    rw [leftOperations]
    exact (((sortBy_perm _).filter _).length_eq).symm
  · intro target member ingress
    exact chosen.ingress_apart valid marked member ingress
  · intro first operation isFirst removes
    exact chosen.removes_owned marked isFirst removes
  · intro destination outside
    exact chosen.keeps_outside marked outside

end Plans

/-! ## One operation of two -/

def smallInput : Input where
  targets :=
    [⟨"edge", .v4 1, .ingress, none⟩, ⟨"office", .v4 2, .corporate, none⟩]
  physical := ⟨.physical, "en0", .v4 9⟩
  upstream := none
  tun := ⟨.twilightTUN, "utun7", .zero⟩
  current := fun _ => none
  codex := ⟨true, true⟩
  gitLabSSH := none

def officeOperation : Operation :=
  ⟨.ensureHostRoute, "office", .corporate, .v4 2,
    some ⟨.twilightTUN, "utun7", .zero⟩, .missingRoute⟩

def smallPlan : Plan where
  observeOnly := true
  operations :=
    [⟨.ensureHostRoute, "edge", .ingress, .v4 1,
      some ⟨.physical, "en0", .v4 9⟩, .missingRoute⟩, officeOperation]
  gitLabSSH := .unknown

theorem smallPlan_built : build (fun _ => "") smallInput = .ok smallPlan := by
  decide +kernel

theorem smallPlan_after_office :
    build (fun _ => "")
        { smallInput with
          current := applyAll (fun _ => true) smallInput.current
            [officeOperation] } =
      .ok { smallPlan with
        operations := smallPlan.operations.filter
          (· ∉ [officeOperation]) } :=
  (build_after_applying smallPlan_built (by decide)
    (List.nodup_singleton _) (by decide) fun _ => true).1

end Hexroute.RoutePlan
