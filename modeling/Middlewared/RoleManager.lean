import Middlewared.RoleTable

/-!
# The role manager

The manager answers two questions about the same table.
-/

namespace Middlewared

inductive RoleError where
  | keyError (key : String)
  | valueError (message : String)
  | recursionError

structure AllowlistEntry where
  (method resource : String)

def allowListFullAdmin : AllowlistEntry where
  method := "*"
  resource := "*"

def readResourceBlacklist : List String :=
  [".create", ".do_create", ".update", ".do_update", ".delete", ".do_delete"]

structure ResourceManager where
  (resourceTitle resourceMethod : String)
  roles : RoleTable
  resources : Dict String (List String)
  allowlistsForRoles : Dict String (List AllowlistEntry)

namespace ResourceManager

def init (resourceTitle resourceMethod : String) (roles : RoleTable) :
    ResourceManager where
  resourceTitle := resourceTitle
  resourceMethod := resourceMethod
  roles := roles
  resources := Dict.empty
  allowlistsForRoles := Dict.empty

def allowlistFor (manager : ResourceManager) (role : String) :
    List AllowlistEntry :=
  (manager.allowlistsForRoles.get? role).getD []

def checkRoles (manager : ResourceManager) (resourceName : String) :
    List String → Except RoleError Unit
  | [] => .ok ()
  | role :: rest =>
    if role ∉ manager.roles then
      .error (.valueError ("Invalid role " ++ PyString.repr role))
    else if PyString.endsWith role "_READ" ∧
        readResourceBlacklist.any (PyString.endsWith resourceName ·) then
      .error (.valueError (resourceName ++ ": resource may not be granted to " ++ role))
    else manager.checkRoles resourceName rest

def appendToAllowlists (entry : AllowlistEntry)
    (allowlists : Dict String (List AllowlistEntry)) (roles : List String) :
    Dict String (List AllowlistEntry) :=
  roles.foldl (fun lists role =>
      lists.set role ((lists.get? role).getD [] ++ [entry]))
    allowlists

def addRolesToResource (manager : ResourceManager) (resourceName : String)
    (roles : List String) : Except RoleError ResourceManager :=
  match manager.resources.get? resourceName with
  | none =>
    .error (.valueError (manager.resourceTitle ++ " " ++ PyString.repr resourceName ++
        " is not registered in this role manager"))
  | some registered => do
    manager.checkRoles resourceName roles
    .ok { manager with
      resources := manager.resources.set resourceName (registered ++ roles)
      allowlistsForRoles := appendToAllowlists
        { method := manager.resourceMethod, resource := resourceName }
        manager.allowlistsForRoles roles }

def registerResource (manager : ResourceManager) (resourceName : String)
    (roles : List String) (existOk : Bool) :
    Except RoleError ResourceManager :=
  if resourceName ∈ manager.resources then
    if existOk then manager.addRolesToResource resourceName roles
    else
      .error (.valueError (manager.resourceTitle ++ " " ++ PyString.repr resourceName ++
          " is already registered in this role manager"))
  else
    { manager with resources := manager.resources.set resourceName [] }
      |>.addRolesToResource resourceName roles

def saturateStep (state : Finset String × Bool) (entry : String × Role) :
    Finset String × Bool :=
  if entry.1 ∉ state.1 ∧ ∃ child ∈ entry.2.includes, child ∈ state.1 then
    (insert entry.1 state.1, true)
  else state

def saturatePass (roles : RoleTable) (names : Finset String) :
    Finset String × Bool :=
  roles.entries.foldl saturateStep (names, false)

def saturate (roles : RoleTable) : ℕ → Finset String → Option (Finset String)
  | 0, _ => none
  | fuel + 1, names =>
    let (next, changed) := saturatePass roles names
    if changed then saturate roles fuel next else some next

def rolesForResource (manager : ResourceManager) (resourceName : String) :
    Option (List String) :=
  (saturate manager.roles (manager.roles.size + 1)
    ((manager.resources.get? resourceName).getD []).toFinset).map fun roles => roles.sort (· ≤ ·)

end ResourceManager

structure RoleManager where
  roles : RoleTable
  (methods events : ResourceManager)

namespace RoleManager

def init (roles : RoleTable) : RoleManager where
  roles := roles
  methods := ResourceManager.init "Method" "CALL" roles
  events := ResourceManager.init "Event" "SUBSCRIBE" roles

@[simp] theorem init_roles (roles : RoleTable) : (init roles).roles = roles :=
  rfl

def registerMethod (manager : RoleManager) (methodName : String)
    (roles : List String) (existOk : Bool := false) :
    Except RoleError RoleManager := do
  let methods ← manager.methods.registerResource methodName roles existOk
  .ok { manager with methods }

def addRolesToMethod (manager : RoleManager) (methodName : String)
    (roles : List String) : Except RoleError RoleManager := do
  let methods ← manager.methods.addRolesToResource methodName roles
  .ok { manager with methods }

def registerEvent (manager : RoleManager) (eventName : String)
    (roles : List String) (existOk : Bool := false) :
    Except RoleError RoleManager := do
  let events ← manager.events.registerResource eventName roles existOk
  .ok { manager with events }

end RoleManager

/-- `bool(role.stig & enabled_stig)`, false for a role without guides. -/
def Role.stigAllowed (role : Role) (enabledStig : STIGType) : Bool :=
  match role.stig with
  | none => false
  | some stig => stig &&& enabledStig ≠ 0

def roleStigCheck (roles : RoleTable) (roleName : String)
    (enabledStig : STIGType) : Except RoleError Bool :=
  match roles.get? roleName with
  | none => .error (.keyError roleName)
  | some role => .ok (role.stigAllowed enabledStig)

def stigAllowedRoles (roles : RoleTable) (enabledStig : STIGType) :
    Finset String :=
  ((roles.entries.filter fun entry => entry.2.stigAllowed enabledStig).map Prod.fst).toFinset

def unionOver (call : String → Except RoleError (Finset String)) :
    List String → Except RoleError (Finset String)
  | [] => .ok ∅
  | name :: rest => do
    let here ← call name
    let there ← unionOver call rest
    .ok (here ∪ there)

/-- The flag as the `if not enabled_stig` test reads it. -/
def activeStig : Option STIGType → Option STIGType
  | none => none
  | some stig => if stig = 0 then none else some stig

def rolesForRole (roles : RoleTable) (enabledStig : Option STIGType) :
    ℕ → String → Except RoleError (Finset String)
  | 0, _ => .error .recursionError
  | limit + 1, role =>
    match roles.get? role with
    | none => .ok ∅
    | some entry =>
      match activeStig enabledStig with
      | none => do
        let included ←
          unionOver (rolesForRole roles enabledStig limit) entry.includes
        .ok ({role} ∪ included)
      | some stig =>
        if entry.fullAdmin then .ok (stigAllowedRoles roles stig)
        else do
          let included ← unionOver
            (fun includedRole => do
              if ← roleStigCheck roles includedRole stig then
                rolesForRole roles enabledStig limit includedRole
              else .ok ∅)
            entry.includes
          .ok ({role} ∪ included)

namespace RoleManager

def registeredFor (manager : RoleManager) (role : String) :
    List AllowlistEntry :=
  manager.methods.allowlistFor role ++ manager.events.allowlistFor role

def registeredForAll (manager : RoleManager) (roles : Finset String) :
    List AllowlistEntry :=
  (roles.sort (· ≤ ·)).flatMap manager.registeredFor

def isFullAdmin (manager : RoleManager) (role : String) : Bool :=
  (manager.roles.get? role).elim false (·.fullAdmin)

def allowlistForRole (manager : RoleManager) (enabledStig : Option STIGType)
    (limit : ℕ) (role : String) : Except RoleError (List AllowlistEntry) :=
  if manager.isFullAdmin role ∧ (activeStig enabledStig).isNone then
    .ok [allowListFullAdmin]
  else do
    let roles ← rolesForRole manager.roles enabledStig limit role
    .ok (manager.registeredForAll roles)

def rolesForMethod (manager : RoleManager) (methodName : String) :
    Option (List String) :=
  manager.methods.rolesForResource methodName

end RoleManager

end Middlewared
