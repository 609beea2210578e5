/-!
What can go wrong, by cause, and the text that names each cause: a benchmark that cannot run, an
invariant of the engine that broke, and a plugin that reports trouble of its own. A failed operation
is no error; it is counted by its outcome.
-/

namespace LoadEngine

def slotName (slot : Nat) : String := "#" ++ toString slot

/-- Where in a scenario something is wrong: a sequence and the position of a step in it. -/
structure StepSite where
  sequence : String
  step : Nat
deriving DecidableEq, Repr

def StepSite.message (site : StepSite) : String :=
  "sequence '" ++ site.sequence ++ "', step " ++ toString site.step

/-- Problems found before any session runs. -/
inductive ConfigError where
  | duplicatePhase (name : String)
  | unknownDependency (phase dependency : String)
  | dependencyCycle (path : List String)
  | invalidPhase (phase reason : String)
  | emptyScenario
  | duplicateSequence (name : String)
  | unknownSequence (site : StepSite) (name : String)
  | forkCycle (path : List String)
  | duplicateResource (site : StepSite) (name : String)
  | unknownResource (site : StepSite) (name : String)
  | resourceKind (site : StepSite) (name expected : String)
  | invalidStep (site : StepSite) (reason : String)
  | unknownPlugin (phase plugin : String)
  | duplicatePlugin (tag : String)
  | histogram (cause : String)
  | runtime (reason : String)
deriving DecidableEq, Repr

def pathName (path : List String) : String := " -> ".intercalate path

def ConfigError.message : ConfigError → String
  | duplicatePhase name => "phase '" ++ name ++ "' is defined more than once"
  | unknownDependency phase dependency =>
    "phase '" ++ phase ++ "' depends on unknown phase '" ++ dependency ++ "'"
  | dependencyCycle path => "phase dependencies form a cycle: " ++ pathName path
  | invalidPhase phase reason => "phase '" ++ phase ++ "': " ++ reason
  | emptyScenario => "scenario has no initial sequence"
  | duplicateSequence name => "sequence '" ++ name ++ "' is defined more than once"
  | unknownSequence site name => site.message ++ ": unknown sequence '" ++ name ++ "'"
  | forkCycle path => "sequence forks form a cycle: " ++ pathName path
  | duplicateResource site name =>
    site.message ++ ": resource '" ++ name ++ "' is already declared"
  | unknownResource site name => site.message ++ ": resource '" ++ name ++ "' is not declared"
  | resourceKind site name expected =>
    site.message ++ ": resource '" ++ name ++ "' is not of kind " ++ expected
  | invalidStep site reason => site.message ++ ": " ++ reason
  | unknownPlugin phase plugin =>
    "phase '" ++ phase ++ "' uses unknown plugin '" ++ plugin ++ "'"
  | duplicatePlugin tag => "plugin '" ++ tag ++ "' is registered more than once"
  | histogram cause => "invalid histogram shape: " ++ cause
  | runtime reason => "invalid runtime configuration: " ++ reason

def ConfigError.name : ConfigError → String
  | duplicatePhase _ => "DuplicatePhase"
  | unknownDependency _ _ => "UnknownDependency"
  | dependencyCycle _ => "DependencyCycle"
  | invalidPhase _ _ => "InvalidPhase"
  | emptyScenario => "EmptyScenario"
  | duplicateSequence _ => "DuplicateSequence"
  | unknownSequence _ _ => "UnknownSequence"
  | forkCycle _ => "ForkCycle"
  | duplicateResource _ _ => "DuplicateResource"
  | unknownResource _ _ => "UnknownResource"
  | resourceKind _ _ _ => "ResourceKind"
  | invalidStep _ _ => "InvalidStep"
  | unknownPlugin _ _ => "UnknownPlugin"
  | duplicatePlugin _ => "DuplicatePlugin"
  | histogram _ => "Histogram"
  | runtime _ => "Runtime"

/-- Broken invariants of the engine. They end a run. -/
inductive ContractViolation where
  | doubleRelease (slot : Nat)
  | slotOutOfRange (slot capacity : Nat)
  | prematureCallback (slot generation operation current : Nat)
  | foreignRequest (request slot operation : Nat)
  | requestOverflow (phase capacity : Nat)
  | incompatibleSnapshots (metric reason : String)
deriving DecidableEq, Repr

def ContractViolation.message : ContractViolation → String
  | doubleRelease slot => "slot " ++ slotName slot ++ " released while not acquired"
  | slotOutOfRange slot capacity =>
    "slot " ++ slotName slot ++ " is outside of a pool of capacity " ++ toString capacity
  | prematureCallback slot generation operation current =>
    "callback for session slot " ++ slotName slot ++ " carries generation " ++
      toString generation ++ "/operation " ++ toString operation ++
      " which was never issued (current generation " ++ toString current ++ ")"
  | foreignRequest request slot operation =>
    "request slot " ++ slotName request ++ " does not belong to operation " ++
      toString operation ++ " of session slot " ++ slotName slot
  | requestOverflow phase capacity =>
    "request pool of phase " ++ toString phase ++ " exhausted (" ++ toString capacity ++ " slots)"
  | incompatibleSnapshots metric reason =>
    "cannot merge statistics of '" ++ metric ++ "': " ++ reason

def ContractViolation.name : ContractViolation → String
  | doubleRelease _ => "DoubleRelease"
  | slotOutOfRange _ _ => "SlotOutOfRange"
  | prematureCallback _ _ _ _ => "PrematureCallback"
  | foreignRequest _ _ _ => "ForeignRequest"
  | requestOverflow _ _ => "RequestOverflow"
  | incompatibleSnapshots _ _ => "IncompatibleSnapshots"

/-- Trouble that a plugin reports outside of a single operation. -/
inductive PluginError where
  | connect (plugin reason : String)
  | other (plugin reason : String)
deriving DecidableEq, Repr

def PluginError.message : PluginError → String
  | connect plugin reason => "plugin '" ++ plugin ++ "' failed to open connections: " ++ reason
  | other plugin reason => "plugin '" ++ plugin ++ "': " ++ reason

def PluginError.name : PluginError → String
  | connect _ _ => "Connect"
  | other _ _ => "Other"

/-- Why a request to the engine failed. -/
inductive EngineError where
  | config (cause : ConfigError)
  | contract (cause : ContractViolation)
  | plugin (cause : PluginError)
  | notInitialized
  | shardUnavailable (shard : Nat)
  | unknownPhase (name : String)
  | invalidTransition (phase action status : String)
deriving DecidableEq, Repr

def EngineError.message : EngineError → String
  | config cause => "configuration error: " ++ cause.message
  | contract cause => "engine internal fault: " ++ cause.message
  | plugin cause => "plugin error: " ++ cause.message
  | notInitialized => "the runner has not been initialized"
  | shardUnavailable shard => "shard " ++ toString shard ++ " is not running"
  | unknownPhase name => "unknown phase '" ++ name ++ "'"
  | invalidTransition phase action status =>
    "phase '" ++ phase ++ "' cannot " ++ action ++ " while " ++ status

def EngineError.name : EngineError → String
  | config cause => "Config:" ++ cause.name
  | contract cause => "Contract:" ++ cause.name
  | plugin cause => "Plugin:" ++ cause.name
  | notInitialized => "NotInitialized"
  | shardUnavailable _ => "ShardUnavailable"
  | unknownPhase _ => "UnknownPhase"
  | invalidTransition _ _ _ => "InvalidTransition"

/-- The fault lies with the engine or a plugin, not with the benchmark or the target. -/
def EngineError.isInternalFault : EngineError → Bool
  | contract _ | shardUnavailable _ => true
  | _ => false

end LoadEngine
