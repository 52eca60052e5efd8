import Middlewared.AlertBase
import Middlewared.Dict

/-!
# The alert service

`runAlerts` asks every alert source that is due for its alerts, on this node and, where there is
one, on the standby controller.
-/

namespace Middlewared

inductive CheckOutcome where
  | nothing
  | single (alert : Alert)
  | several (alerts : List Alert)
  | unavailable
  | raised (message : String)

def CheckOutcome.returned : CheckOutcome → List Alert
  | .single alert => [alert]
  | .several alerts => alerts
  | .nothing | .unavailable | .raised _ => []

/-- What comes of calling `alert.run_source` on the other node. -/
inductive RemoteOutcome where
  | answered (check : CheckOutcome)
  | networkError
  | reserveFdException
  | raised (message : String)

def alertSourceRunFailedClass : AlertClass where
  name := "AlertSourceRunFailed"
  title := "Alert Check Failed"
  text := some "Failed to check for alert %(source_name)s: %(traceback)s"

def alertSourceRunFailedOnBackupNodeClass : AlertClass where
  name := "AlertSourceRunFailedOnBackupNode"
  title := "Alert Check Failed (Standby Controller)"
  text := some ("Failed to check for alert %(source_name)s on standby " ++
    "controller: %(traceback)s")

def runFailedArgs (name message : String) : Json :=
  .obj [("source_name", .str name), ("traceback", .str message)]

/-- The first alert of each key, as the loop over `keys` keeps it. -/
def uniqueAlerts : List String → List Alert → List Alert
  | _, [] => []
  | keys, alert :: rest =>
    if alert.key ∈ keys then uniqueAlerts keys rest
    else alert :: uniqueAlerts (alert.key :: keys) rest

def takeSource (name : String) (alerts : List Alert) : List Alert :=
  (uniqueAlerts [] alerts).map fun alert => { alert with source := some name }

/-- `__run_source`; nothing when it raises `UnavailableException`. -/
def runSourceAlerts (name : String) : CheckOutcome → Option (List Alert)
  | .unavailable => none
  | .raised message =>
    some (takeSource name [.init alertSourceRunFailedClass (runFailedArgs name message) none
        none none none none none none none none none])
  | .nothing => some []
  | .single alert => some (takeSource name [alert])
  | .several alerts => some (takeSource name alerts)

def remoteAlert (classes : Dict String AlertClass) (alert : Alert) :
    Except String Alert :=
  match classes.get? alert.klass.name with
  | none => .error (PyString.repr alert.klass.name)
  | some klass =>
    .ok (.init klass alert.args none alert.datetime alert.lastOccurrence
      none alert.dismissed alert.mail none alert.source (some alert.key)
      none)

def remoteFailure (name message : String) : Alert :=
  .init alertSourceRunFailedOnBackupNodeClass (runFailedArgs name message)
    none none none none none none none (some name) none none

def runOtherNodeAlertSource (classes : Dict String AlertClass)
    (name : String) : RemoteOutcome → List Alert
  | .networkError | .reserveFdException => []
  | .raised message => [remoteFailure name message]
  | .answered check =>
    match runSourceAlerts name check with
    | none => []
    | some alerts =>
      match alerts.mapM (remoteAlert classes) with
      | .ok alerts => alerts
      | .error message => [remoteFailure name message]

structure AlertState where
  alerts : List Alert
  nextUuid : ℕ

abbrev AlertIdentity := Option AlertNode × Option String × AlertClass × String

def Alert.identity (alert : Alert) : AlertIdentity :=
  (alert.node, alert.source, alert.klass, alert.key)

/-- `utc_now()` is naive; an aware time becomes the naive time in UTC. -/
def DateTime.toNaiveUtc (time : DateTime) : DateTime where
  micros := time.micros
  aware := false

def existingAlert (alerts : List Alert) (alert : Alert) : Option Alert :=
  alerts.find? fun other => other.identity = alert.identity

/-- `__handle_alert`: the alert as it is taken in, and the next free
identifier. -/
def handleAlert (alerts : List Alert) (now : DateTime) (next : ℕ)
    (alert : Alert) : Alert × ℕ :=
  match existingAlert alerts alert with
  | none =>
    ({ alert with
        uuid := some next
        datetime := some (alert.datetime.getD now).toNaiveUtc
        lastOccurrence := some now
        dismissed := some false }, next + 1)
  | some existing =>
    ({ alert with
        uuid := existing.uuid
        datetime := existing.datetime
        lastOccurrence := some now
        dismissed := existing.dismissed }, next)

def handleAlerts (alerts : List Alert) (now : DateTime) :
    ℕ → List Alert → List Alert × ℕ
  | next, [] => ([], next)
  | next, alert :: rest =>
    let (handled, next) := handleAlert alerts now next alert
    let (later, next) := handleAlerts alerts now next rest
    (handled :: later, next)

def Alert.onNode (node : AlertNode) (alert : Alert) : Alert :=
  { alert with node := some node }

/-- The order in which `zip_longest` lets the alerts of the two nodes be
handled. -/
def handlingOrder : List Alert → List Alert → List Alert
  | [], others => others
  | alert :: rest, [] => alert :: rest
  | alert :: rest, other :: others =>
    alert :: other :: handlingOrder rest others

structure AlertSource where
  products : List String
  failoverRelated : Bool := false
  runOnBackupNode : Bool := true

structure AlertFailoverInfo where
  thisNode : AlertNode
  (runOnBackupNode runFailoverRelated : Bool)

def AlertFailoverInfo.otherNode (fi : AlertFailoverInfo) : AlertNode :=
  fi.thisNode.other

/-- What one source meets when its turn comes: whether its schedule lets it
run, whether it is blocked, the answers and the time. -/
structure SourceTurn where
  (due blocked : Bool)
  check : CheckOutcome
  remote : RemoteOutcome
  now : DateTime

structure AlertEnvironment where
  productType : String
  failover : AlertFailoverInfo
  classes : Dict String AlertClass
  turns : String → SourceTurn

def AlertEnvironment.selects (env : AlertEnvironment) (name : String)
    (source : AlertSource) : Bool :=
  env.productType ∈ source.products &&
    (!source.failoverRelated || env.failover.runFailoverRelated) &&
    (env.turns name).due

def AlertEnvironment.runsRemote (env : AlertEnvironment)
    (source : AlertSource) : Bool :=
  env.failover.runOnBackupNode && source.runOnBackupNode

def sourceAlertsOn (alerts : List Alert) (name : String) (node : AlertNode) :
    List Alert :=
  alerts.filter fun alert => alert.source = some name && alert.node = some node

def thisNodeAlerts (env : AlertEnvironment) (alerts : List Alert)
    (name : String) : List Alert :=
  if (env.turns name).blocked then
    sourceAlertsOn alerts name env.failover.thisNode
  else (runSourceAlerts name (env.turns name).check).getD []

def otherNodeAlerts (env : AlertEnvironment) (alerts : List Alert)
    (name : String) (source : AlertSource) : List Alert :=
  if (env.turns name).blocked then
    sourceAlertsOn alerts name env.failover.otherNode
  else if env.runsRemote source then
    runOtherNodeAlertSource env.classes name (env.turns name).remote
  else []

/-- One turn of the loop of `__run_alerts`.  The alerts that are handled are
the elements of the two lists, so that afterwards the handled ones of each
node make up the list of that node. -/
def runTurn (env : AlertEnvironment) (s : AlertState) (name : String)
    (source : AlertSource) : AlertState :=
  if env.selects name source then
    let fi := env.failover
    let handled := handleAlerts s.alerts (env.turns name).now s.nextUuid
      (handlingOrder ((thisNodeAlerts env s.alerts name).map (Alert.onNode fi.thisNode))
        ((otherNodeAlerts env s.alerts name source).map (Alert.onNode fi.otherNode)))
    { alerts :=
        s.alerts.filter (fun alert => alert.source ≠ some name) ++
          handled.1.filter (fun alert => alert.node = some fi.thisNode) ++
          handled.1.filter (fun alert => alert.node = some fi.otherNode)
      nextUuid := handled.2 }
  else s

def runTurns (env : AlertEnvironment) (s : AlertState) :
    List (String × AlertSource) → AlertState
  | [] => s
  | (name, source) :: rest => runTurns env (runTurn env s name source) rest

/-- `__run_alerts` over the registered sources. -/
def runAlerts (env : AlertEnvironment) (sources : Dict String AlertSource)
    (s : AlertState) : AlertState :=
  runTurns env s sources.entries

def shouldExpireAlert (now : DateTime) (alert : Alert) : Bool :=
  if alert.klass.oneShot then
    match alert.klass.expiresAfter, alert.lastOccurrence with
    | some lifetime, some last => last.micros < now.micros - lifetime
    | _, _ => false
  else false

def expireAlerts (now : DateTime) (s : AlertState) : AlertState :=
  { s with alerts := s.alerts.filter fun alert => !shouldExpireAlert now alert }

def alertByUuid (alerts : List Alert) (uuid : ℕ) : Option Alert :=
  alerts.find? fun alert => alert.uuid = some uuid

def markDismissed (uuid : ℕ) : List Alert → List Alert
  | [] => []
  | alert :: rest =>
    if alert.uuid = some uuid then
      { alert with dismissed := some true } :: rest
    else alert :: markDismissed uuid rest

def AlertClass.deletedOnDismiss (klass : AlertClass) : Bool :=
  klass.oneShot && !klass.deletedAutomatically

/-- `dismiss`; for a dismissable class `left` are the related alerts that the
class keeps. -/
def dismissAlert (left : List Alert → Alert → List Alert) (uuid : ℕ)
    (s : AlertState) : AlertState :=
  match alertByUuid s.alerts uuid with
  | none => s
  | some alert =>
    if alert.klass.dismissable then
      let isRelated := fun other : Alert =>
        decide (other.node = alert.node ∧ other.klass = alert.klass)
      let kept := (left (s.alerts.filter isRelated) alert).map Alert.uuid
      { s with
        alerts := s.alerts.filter fun other =>
          !isRelated other || decide (other.uuid ∈ kept) }
    else if alert.klass.deletedOnDismiss then
      { s with alerts := s.alerts.eraseP fun other => other.uuid = some uuid }
    else { s with alerts := markDismissed uuid s.alerts }

/-- `oneshot_create` after the class has created its alert. -/
def oneshotCreate (node : AlertNode) (now : DateTime) (created : Alert)
    (s : AlertState) : AlertState :=
  let (alert, next) := handleAlert s.alerts now s.nextUuid
    { created with source := some "", node := some node }
  { alerts := (s.alerts.filter fun other => other.uuid ≠ alert.uuid) ++ [alert], nextUuid := next }

end Middlewared
