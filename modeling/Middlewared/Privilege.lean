import Middlewared.RoleManager

/-!
# Privileges and their composition

A privilege grants a list of roles to the members of its groups.
-/

namespace Middlewared

inductive BuiltinPrivilege where
  | localAdministrator
  | readonlyAdministrator
  | sharingAdministrator
deriving DecidableEq

inductive DsGroup where
  | gid (gid : ℕ)
  | sid (sid : String)

structure Privilege where
  id : ℕ
  builtinName : Option BuiltinPrivilege
  name : String
  localGroups : List ℕ
  dsGroups : List DsGroup
  roles : List String
  webShell : Bool

structure ComposedPrivilege where
  roles : Finset String := ∅
  allowlist : List AllowlistEntry := []
  webShell : Bool := false
  webuiAccess : Bool := false

def privilegeHasWebuiAccess (roles : RoleTable) :
    List String → Except RoleError Bool
  | [] => .ok false
  | role :: rest =>
    match roles.get? role with
    | none => .error (.keyError role)
    | some entry =>
      if entry.builtin then privilegeHasWebuiAccess roles rest
      else .ok true

namespace RoleManager

def composeRoles (manager : RoleManager) (enabledStig : Option STIGType)
    (limit : ℕ) (compose : ComposedPrivilege) :
    List String → Except RoleError ComposedPrivilege
  | [] => .ok compose
  | role :: rest => do
    let roles ← rolesForRole manager.roles enabledStig limit role
    let allowlist ← manager.allowlistForRole enabledStig limit role
    manager.composeRoles enabledStig limit { compose with
        roles := compose.roles ∪ roles
        allowlist := compose.allowlist ++ allowlist }
      rest

def composePrivileges (manager : RoleManager) (enabledStig : Option STIGType)
    (limit : ℕ) (compose : ComposedPrivilege) :
    List Privilege → Except RoleError ComposedPrivilege
  | [] => .ok compose
  | privilege :: rest => do
    let compose ←
      manager.composeRoles enabledStig limit compose privilege.roles
    let webuiAccess ← privilegeHasWebuiAccess manager.roles privilege.roles
    manager.composePrivileges enabledStig limit { compose with
        webShell := compose.webShell || privilege.webShell
        webuiAccess := compose.webuiAccess || webuiAccess }
      rest

def composePrivilege (manager : RoleManager) (enabledStig : Option STIGType)
    (limit : ℕ) (privileges : List Privilege) :
    Except RoleError ComposedPrivilege := do
  let compose ← manager.composePrivileges enabledStig limit { } privileges
  if (activeStig enabledStig).isSome then
    .ok { compose with webShell := false }
  else .ok compose

end RoleManager

end Middlewared
