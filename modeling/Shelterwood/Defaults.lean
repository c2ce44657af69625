/-
Shelterwood/Defaults.lean

Inheritance of scope defaults.

A scope is lowered with the defaults it inherits, overlaid with its own; a nested scope
inherits those of its parent, or the library's after a reset.  A child is resolved in the
defaults of its scope.  So the functions go outside in and keep one resolved record,
while the rule they implement looks inside out: an option is the child's own, else that
of the nearest scope in range that sets it, else the library's.  `resolved_eq_nearest`
turns the one into the other for any field.
-/
import Shelterwood.Engine
import Shelterwood.Mailbox

namespace Shelterwood

/-! ### Policies -/

inductive Jitter
  | none
  | equal
  deriving DecidableEq, Repr

inductive Backoff
  | immediate
  | fixed (delay : Duration) (jitter : Jitter)
  /-- With the bits of the factor. -/
  | exponential (base : Duration) (factor : UInt64) (max : Duration) (jitter : Jitter)
  deriving DecidableEq, Repr

structure RestartPolicy where
  condition : RestartCondition
  backoff : Backoff
  deriving DecidableEq, Repr

def RestartPolicy.isNever (policy : RestartPolicy) : Bool := policy.condition = .never

/-- Resolution state of a readiness deadline. -/
inductive ReadinessDeadline
  | inherit
  | bounded (duration : NonZeroDuration)
  | unbounded
  deriving DecidableEq, Repr

/-- A declared mailbox; a queue may leave its capacity open. -/
inductive DeclaredMailbox
  | queue (capacity : Option NonZeroUsize)
  | latest
  deriving DecidableEq, Repr

/-- Fate of the frozen accepted messages during shutdown. -/
inductive MailboxShutdown
  | drain
  | discard
  deriving DecidableEq, Repr

inductive ChildMode
  | restartable
  | oneShot
  deriving DecidableEq, Repr

/-- How a subtree edge treats inherited scope defaults. -/
inductive DefaultsInheritance
  | inherit
  | reset
  deriving DecidableEq, Repr

structure ScopeDefaults where
  childRestart : Option RestartPolicy
  childShutdown : Option Shutdown
  mailbox : Option DeclaredMailbox
  mailboxShutdown : Option MailboxShutdown
  readinessDeadline : ReadinessDeadline
  deriving DecidableEq, Repr

structure CommonOptions where
  restart : Option RestartPolicy
  shutdown : Option Shutdown
  mailbox : Option DeclaredMailbox
  mailboxShutdown : Option MailboxShutdown
  readiness : Option Readiness
  readinessDeadline : ReadinessDeadline
  retention : Option Retention
  deriving DecidableEq, Repr

inductive ResolvedMailboxKind
  | queue
  | latest
  deriving DecidableEq, Repr

inductive ResolvedReadinessDeadline
  | bounded (duration : NonZeroDuration)
  | unbounded
  deriving DecidableEq, Repr

def ResolvedReadinessDeadline.resolve (value : ReadinessDeadline)
    (inherited : ResolvedReadinessDeadline) : ResolvedReadinessDeadline :=
  match value with
  | .inherit => inherited
  | .bounded duration => .bounded duration
  | .unbounded => .unbounded

/-! ### Resolution -/

structure ResolvedDefaults where
  childRestart : RestartPolicy
  childShutdown : Shutdown
  mailboxKind : ResolvedMailboxKind
  /-- The nearest capacity, kept across defaults of the other kind. -/
  queueCapacity : NonZeroUsize
  mailboxShutdown : MailboxShutdown
  readinessDeadline : ResolvedReadinessDeadline
  deriving DecidableEq, Repr

/-- The options of a child, resolved, with what `ResolvedCommonOptions` leaves out. -/
structure ResolvedOptions where
  restart : RestartPolicy
  shutdown : Shutdown
  mailbox : ResolvedMailbox
  mailboxShutdown : MailboxShutdown
  readiness : Readiness
  readinessDeadline : ResolvedReadinessDeadline
  retention : Retention
  deriving DecidableEq, Repr

namespace ResolvedDefaults

/-- The library values: five seconds of grace, thirty until ready. -/
def library : ResolvedDefaults where
  childRestart := ⟨.onFailure, .immediate⟩
  childShutdown := .graceful ⟨5000000000, Nat.succ_ne_zero _⟩
  mailboxKind := .queue
  queueCapacity := ⟨64, Nat.succ_pos _⟩
  mailboxShutdown := .drain
  readinessDeadline := .bounded ⟨30000000000, Nat.succ_ne_zero _⟩

def mailbox (defaults : ResolvedDefaults) : ResolvedMailbox :=
  match defaults.mailboxKind with
  | .queue => .queue defaults.queueCapacity
  | .latest => .latest

def resolveChildMailbox (defaults : ResolvedDefaults) : Option DeclaredMailbox → ResolvedMailbox
  | none => defaults.mailbox
  | some (.queue none) => .queue defaults.queueCapacity
  | some (.queue (some capacity)) => .queue capacity
  | some .latest => .latest

def overlay (defaults : ResolvedDefaults) (values : ScopeDefaults) : ResolvedDefaults :=
  let (mailboxKind, queueCapacity) :=
    match values.mailbox with
    | none => (defaults.mailboxKind, defaults.queueCapacity)
    | some (.queue none) => (.queue, defaults.queueCapacity)
    | some (.queue (some capacity)) => (.queue, capacity)
    | some .latest => (.latest, defaults.queueCapacity)
  { childRestart := values.childRestart.getD defaults.childRestart
    childShutdown := values.childShutdown.getD defaults.childShutdown
    mailboxKind
    queueCapacity
    mailboxShutdown := values.mailboxShutdown.getD defaults.mailboxShutdown
    readinessDeadline := .resolve values.readinessDeadline defaults.readinessDeadline }

/-- What the definition of a nested scope inherits from its parent. -/
def inherited (defaults : ResolvedDefaults) : DefaultsInheritance → ResolvedDefaults
  | .inherit => defaults
  | .reset => library

end ResolvedDefaults

def resolveCommon (options : CommonOptions) (defaults : ResolvedDefaults) (mode : ChildMode)
    (defaultReadiness : Readiness) : ResolvedOptions where
  restart :=
    if mode = .oneShot then ⟨.never, .immediate⟩
    else options.restart.getD defaults.childRestart
  shutdown := options.shutdown.getD defaults.childShutdown
  mailbox := defaults.resolveChildMailbox options.mailbox
  mailboxShutdown := options.mailboxShutdown.getD defaults.mailboxShutdown
  readiness := options.readiness.getD defaultReadiness
  readinessDeadline := .resolve options.readinessDeadline defaults.readinessDeadline
  retention := options.retention.getD (if mode = .oneShot then .remove else .retain)

/-- Scopes inside a root, innermost first, each with the edge to the one around it. -/
abbrev ScopeChain := List (DefaultsInheritance × ScopeDefaults)

/-- The defaults `lower` gives the innermost scope. -/
def lowerChain (root : ScopeDefaults) : ScopeChain → ResolvedDefaults
  | [] => ResolvedDefaults.library.overlay root
  | (edge, values) :: outer => ((lowerChain root outer).inherited edge).overlay values

/-! ### The nearest set value -/

/-- The scopes up to the nearest reset, innermost first. -/
def inRange (root : ScopeDefaults) : ScopeChain → List ScopeDefaults
  | [] => [root]
  | (.inherit, values) :: outer => values :: inRange root outer
  | (.reset, values) :: _ => [values]

/-- The value of the first scope that sets a field, or the library's. -/
def nearest {T : Type} (field : ScopeDefaults → Option T) (library : T)
    (scopes : List ScopeDefaults) : T :=
  (scopes.findSome? field).getD library

def ReadinessDeadline.explicit : ReadinessDeadline → Option ResolvedReadinessDeadline
  | .inherit => none
  | .bounded duration => some (.bounded duration)
  | .unbounded => some .unbounded

namespace DeclaredMailbox

def kind : DeclaredMailbox → ResolvedMailboxKind
  | .queue _ => .queue
  | .latest => .latest

def capacity : DeclaredMailbox → Option NonZeroUsize
  | .queue capacity => capacity
  | .latest => none

end DeclaredMailbox

def ResolvedMailboxKind.withCapacity (capacity : NonZeroUsize) :
    ResolvedMailboxKind → ResolvedMailbox
  | .queue => .queue capacity
  | .latest => .latest

theorem ResolvedReadinessDeadline.resolve_eq (value : ReadinessDeadline)
    (inherited : ResolvedReadinessDeadline) :
    resolve value inherited = value.explicit.getD inherited := by
  cases value <;> rfl

theorem nearest_cons {T : Type} (field : ScopeDefaults → Option T) (library : T)
    (values : ScopeDefaults) (scopes : List ScopeDefaults) :
    nearest field library (values :: scopes) =
      (field values).getD (nearest field library scopes) := by
  unfold nearest
  cases h : field values with
  | none => rw [List.findSome?_cons_of_isNone (by simp [h]), Option.getD_none]
  | some value =>
    rw [List.findSome?_cons_of_isSome (by simp [h]), h]
    rfl

/-- A field that every overlay resolves by itself has the nearest value set. -/
theorem resolved_eq_nearest {T : Type} (resolved : ResolvedDefaults → T)
    (field : ScopeDefaults → Option T)
    (hoverlay : ∀ defaults values,
      resolved (defaults.overlay values) = (field values).getD (resolved defaults))
    (root : ScopeDefaults) (chain : ScopeChain) :
    resolved (lowerChain root chain) =
      nearest field (resolved ResolvedDefaults.library) (inRange root chain) := by
  induction chain with
  | nil =>
    rw [lowerChain, inRange, hoverlay, nearest_cons]
    rfl
  | cons scope outer ih =>
    obtain ⟨_ | _, values⟩ := scope
    · rw [lowerChain, inRange, hoverlay, nearest_cons, ← ih]
      rfl
    · rw [lowerChain, inRange, hoverlay, nearest_cons]
      rfl

theorem overlay_mailboxKind (defaults : ResolvedDefaults) (values : ScopeDefaults) :
    (defaults.overlay values).mailboxKind =
      (values.mailbox.map DeclaredMailbox.kind).getD defaults.mailboxKind := by
  rcases h : values.mailbox with _ | (_ | _) | _ <;> simp [ResolvedDefaults.overlay, h] <;> rfl

theorem overlay_queueCapacity (defaults : ResolvedDefaults) (values : ScopeDefaults) :
    (defaults.overlay values).queueCapacity =
      (values.mailbox.bind DeclaredMailbox.capacity).getD defaults.queueCapacity := by
  rcases h : values.mailbox with _ | (_ | _) | _ <;> simp [ResolvedDefaults.overlay, h] <;> rfl

theorem resolveChildMailbox_eq (defaults : ResolvedDefaults) (value : Option DeclaredMailbox) :
    defaults.resolveChildMailbox value =
      ((value.map DeclaredMailbox.kind).getD defaults.mailboxKind).withCapacity
        ((value.bind DeclaredMailbox.capacity).getD defaults.queueCapacity) := by
  rcases value with _ | (_ | _) | _ <;> rfl

/-- **Every option of a child is its own, or that of the nearest scope in range that sets
it, or the library's.**  The kind and the capacity of a mailbox are looked up one by one. -/
theorem options_nearest (root : ScopeDefaults) (chain : ScopeChain) (options : CommonOptions)
    (mode : ChildMode) (defaultReadiness : Readiness) :
    let library := ResolvedDefaults.library
    let scopes := inRange root chain
    let resolved := resolveCommon options (lowerChain root chain) mode defaultReadiness
    resolved.restart = (if mode = .oneShot then ⟨.never, .immediate⟩
      else options.restart.getD (nearest ScopeDefaults.childRestart library.childRestart scopes)) ∧
    resolved.shutdown =
      options.shutdown.getD (nearest ScopeDefaults.childShutdown library.childShutdown scopes) ∧
    resolved.mailboxShutdown = options.mailboxShutdown.getD
      (nearest ScopeDefaults.mailboxShutdown library.mailboxShutdown scopes) ∧
    resolved.readinessDeadline = options.readinessDeadline.explicit.getD
      (nearest (fun values => values.readinessDeadline.explicit) library.readinessDeadline
        scopes) ∧
    resolved.mailbox =
      ((options.mailbox.map DeclaredMailbox.kind).getD
        (nearest (fun values => values.mailbox.map DeclaredMailbox.kind) library.mailboxKind
          scopes)).withCapacity
      ((options.mailbox.bind DeclaredMailbox.capacity).getD
        (nearest (fun values => values.mailbox.bind DeclaredMailbox.capacity)
          library.queueCapacity scopes)) ∧
    (mode = .oneShot → resolved.restart.isNever = true) := by
  intro library scopes resolved
  have hkind := resolved_eq_nearest ResolvedDefaults.mailboxKind _ overlay_mailboxKind root chain
  have hcapacity :=
    resolved_eq_nearest ResolvedDefaults.queueCapacity _ overlay_queueCapacity root chain
  have hdeadline := resolved_eq_nearest ResolvedDefaults.readinessDeadline
    (fun values => values.readinessDeadline.explicit)
    (fun _ _ => ResolvedReadinessDeadline.resolve_eq _ _) root chain
  refine ⟨?_, ?_, ?_, ?_, ?_, ?_⟩
  · rw [← resolved_eq_nearest ResolvedDefaults.childRestart ScopeDefaults.childRestart
      (fun _ _ => rfl)]
    rfl
  · rw [← resolved_eq_nearest ResolvedDefaults.childShutdown ScopeDefaults.childShutdown
      (fun _ _ => rfl)]
    rfl
  · rw [← resolved_eq_nearest ResolvedDefaults.mailboxShutdown ScopeDefaults.mailboxShutdown
      (fun _ _ => rfl)]
    rfl
  · rw [← hdeadline]
    exact ResolvedReadinessDeadline.resolve_eq _ _
  · rw [← hkind, ← hcapacity]
    exact resolveChildMailbox_eq _ _
  · rintro rfl
    rfl

end Shelterwood
