import Middlewared.Dict
import Middlewared.PyString

/-!
# The role table

A role names the roles it includes, whether it stands for full administrative access, and the
security technical implementation guides under which it stays available.
-/

namespace Middlewared

/-- `STIGType`, an integer flag: one bit for each guide. -/
abbrev STIGType := ℕ

def STIGType.gpos : STIGType := 1

structure Role where
  includes : List String := []
  fullAdmin : Bool := false
  builtin : Bool := true
  stig : Option STIGType := some STIGType.gpos

abbrev RoleTable := Dict String Role

def shippedRoleEntries : List (String × Role) := [
  ("ACCOUNT_READ", { }),
  ("ACCOUNT_WRITE", { includes := ["ACCOUNT_READ"] }),
  ("API_KEY_READ", { }),
  ("API_KEY_WRITE", { includes := ["API_KEY_READ"] }),
  ("BOOT_ENV_READ", { }),
  ("BOOT_ENV_WRITE", { includes := ["BOOT_ENV_READ"] }),
  ("FAILOVER_READ", { }),
  ("FAILOVER_WRITE", { includes := ["FAILOVER_READ"] }),
  ("AUTH_SESSIONS_READ", { }),
  ("AUTH_SESSIONS_WRITE", { includes := ["AUTH_SESSIONS_READ"] }),
  ("DIRECTORY_SERVICE_READ", { }),
  ("DIRECTORY_SERVICE_WRITE", { includes := ["DIRECTORY_SERVICE_READ"] }),
  ("DISK_READ", { }),
  ("DISK_WRITE", { includes := ["DISK_READ"] }),
  ("KMIP_READ", { }),
  ("KMIP_WRITE", { includes := ["KMIP_READ"] }),
  ("IPMI_READ", { }),
  ("IPMI_WRITE", { includes := ["IPMI_READ"] }),
  ("FILESYSTEM_ATTRS_READ", { }),
  ("FILESYSTEM_ATTRS_WRITE", { includes := ["FILESYSTEM_ATTRS_READ"] }),
  ("FILESYSTEM_DATA_READ", { }),
  ("FILESYSTEM_DATA_WRITE", { includes := ["FILESYSTEM_DATA_READ"] }),
  ("FILESYSTEM_FULL_CONTROL", {
    includes := [
      "FILESYSTEM_ATTRS_WRITE",
      "FILESYSTEM_DATA_WRITE"] }),
  ("PRIVILEGE_READ", { }),
  ("PRIVILEGE_WRITE", { includes := ["PRIVILEGE_WRITE"] }),
  ("REPORTING_READ", { }),
  ("REPORTING_WRITE", { includes := ["REPORTING_READ"] }),
  ("SUPPORT_READ", { }),
  ("SUPPORT_WRITE", { includes := ["SUPPORT_READ"] }),
  ("SSH_READ", { }),
  ("SSH_WRITE", { includes := ["SSH_READ"] }),
  ("SYSTEM_AUDIT_READ", { }),
  ("SYSTEM_AUDIT_WRITE", { }),
  ("FULL_ADMIN", { fullAdmin := true, builtin := false }),
  ("ALERT_LIST_READ", { }),
  ("ALERT_LIST_WRITE", { includes := ["ALERT_LIST_READ"] }),
  ("ALERT_READ", { includes := ["ALERT_LIST_READ"] }),
  ("ALERT_WRITE", { includes := ["ALERT_LIST_WRITE", "ALERT_READ"] }),
  ("CLOUD_BACKUP_READ", { }),
  ("CLOUD_BACKUP_WRITE", { includes := ["CLOUD_BACKUP_READ"] }),
  ("CLOUD_SYNC_READ", { }),
  ("CLOUD_SYNC_WRITE", { includes := ["CLOUD_SYNC_READ"] }),
  ("SERVICE_READ", { }),
  ("SERVICE_WRITE", { }),
  ("ENCLOSURE_READ", { }),
  ("ENCLOSURE_WRITE", { includes := ["ENCLOSURE_READ"] }),
  ("NETWORK_GENERAL_READ", { }),
  ("NETWORK_GENERAL_WRITE", { includes := ["NETWORK_GENERAL_READ"] }),
  ("NETWORK_INTERFACE_READ", { }),
  ("NETWORK_INTERFACE_WRITE", { includes := ["NETWORK_INTERFACE_READ"] }),
  ("VM_READ", { }),
  ("VM_WRITE", { includes := ["VM_READ"], stig := none }),
  ("VM_DEVICE_READ", { includes := ["VM_READ"] }),
  ("VM_DEVICE_WRITE", { includes := ["VM_WRITE", "VM_DEVICE_READ"], stig := none }),
  ("JBOF_READ", { }),
  ("JBOF_WRITE", { includes := ["JBOF_READ"] }),
  ("TRUECOMMAND_READ", { }),
  ("TRUECOMMAND_WRITE", { includes := ["TRUECOMMAND_READ"], stig := none }),
  ("TRUENAS_CONNECT_READ", { }),
  ("TRUENAS_CONNECT_WRITE", { includes := ["TRUENAS_CONNECT_READ"], stig := none }),
  ("CERTIFICATE_READ", { }),
  ("CERTIFICATE_WRITE", { includes := ["CERTIFICATE_READ"] }),
  ("CERTIFICATE_AUTHORITY_READ", { }),
  ("CERTIFICATE_AUTHORITY_WRITE", { includes := ["CERTIFICATE_AUTHORITY_READ"] }),
  ("CATALOG_READ", { }),
  ("CATALOG_WRITE", { includes := ["CATALOG_READ"], stig := none }),
  ("DOCKER_READ", { }),
  ("DOCKER_WRITE", { includes := ["DOCKER_READ"], stig := none }),
  ("APPS_READ", { includes := ["CATALOG_READ"] }),
  ("APPS_WRITE", { includes := ["CATALOG_WRITE", "APPS_READ"], stig := none }),
  ("SHARING_FTP_READ", { }),
  ("SHARING_FTP_WRITE", { includes := ["SHARING_FTP_READ"] }),
  ("SHARING_ISCSI_AUTH_READ", { }),
  ("SHARING_ISCSI_AUTH_WRITE", { includes := ["SHARING_ISCSI_AUTH_READ"] }),
  ("SHARING_ISCSI_EXTENT_READ", { }),
  ("SHARING_ISCSI_EXTENT_WRITE", { includes := ["SHARING_ISCSI_EXTENT_READ"] }),
  ("SHARING_ISCSI_GLOBAL_READ", { }),
  ("SHARING_ISCSI_GLOBAL_WRITE", { includes := ["SHARING_ISCSI_GLOBAL_READ"] }),
  ("SHARING_ISCSI_HOST_READ", { }),
  ("SHARING_ISCSI_HOST_WRITE", { includes := ["SHARING_ISCSI_HOST_READ"] }),
  ("SHARING_ISCSI_INITIATOR_READ", { }),
  ("SHARING_ISCSI_INITIATOR_WRITE", { includes := ["SHARING_ISCSI_INITIATOR_READ"] }),
  ("SHARING_ISCSI_PORTAL_READ", { }),
  ("SHARING_ISCSI_PORTAL_WRITE", { includes := ["SHARING_ISCSI_PORTAL_READ"] }),
  ("SHARING_ISCSI_TARGET_READ", { }),
  ("SHARING_ISCSI_TARGET_WRITE", { includes := ["SHARING_ISCSI_TARGET_READ"] }),
  ("SHARING_ISCSI_TARGETEXTENT_READ", { }),
  ("SHARING_ISCSI_TARGETEXTENT_WRITE", {
    includes := [
      "SHARING_ISCSI_TARGETEXTENT_READ"] }),
  ("SHARING_ISCSI_READ", {
    includes := [
      "SHARING_ISCSI_AUTH_READ",
      "SHARING_ISCSI_EXTENT_READ",
      "SHARING_ISCSI_GLOBAL_READ",
      "SHARING_ISCSI_HOST_READ",
      "SHARING_ISCSI_INITIATOR_READ",
      "SHARING_ISCSI_PORTAL_READ",
      "SHARING_ISCSI_TARGET_READ",
      "SHARING_ISCSI_TARGETEXTENT_READ"] }),
  ("SHARING_ISCSI_WRITE", {
    includes := [
      "SHARING_ISCSI_AUTH_WRITE",
      "SHARING_ISCSI_EXTENT_WRITE",
      "SHARING_ISCSI_GLOBAL_WRITE",
      "SHARING_ISCSI_HOST_WRITE",
      "SHARING_ISCSI_INITIATOR_WRITE",
      "SHARING_ISCSI_PORTAL_WRITE",
      "SHARING_ISCSI_TARGET_WRITE",
      "SHARING_ISCSI_TARGETEXTENT_WRITE"] }),
  ("SHARING_NFS_READ", { }),
  ("SHARING_NFS_WRITE", { includes := ["SHARING_NFS_READ"] }),
  ("SHARING_SMB_READ", { }),
  ("SHARING_SMB_WRITE", { includes := ["SHARING_SMB_READ"] }),
  ("SHARING_READ", {
    includes := [
      "SHARING_ISCSI_READ",
      "SHARING_NFS_READ",
      "SHARING_SMB_READ",
      "SHARING_FTP_READ"] }),
  ("SHARING_WRITE", {
    includes := [
      "SHARING_ISCSI_WRITE",
      "SHARING_NFS_WRITE",
      "SHARING_SMB_WRITE",
      "SHARING_FTP_WRITE"] }),
  ("KEYCHAIN_CREDENTIAL_READ", { }),
  ("KEYCHAIN_CREDENTIAL_WRITE", { includes := ["KEYCHAIN_CREDENTIAL_READ"] }),
  ("REPLICATION_TASK_CONFIG_READ", { }),
  ("REPLICATION_TASK_CONFIG_WRITE", { includes := ["REPLICATION_TASK_CONFIG_READ"] }),
  ("REPLICATION_TASK_READ", { }),
  ("REPLICATION_TASK_WRITE", { includes := ["REPLICATION_TASK_READ"] }),
  ("REPLICATION_TASK_WRITE_PULL", { includes := ["REPLICATION_TASK_WRITE"] }),
  ("SNAPSHOT_TASK_READ", { }),
  ("SNAPSHOT_TASK_WRITE", { includes := ["SNAPSHOT_TASK_READ"] }),
  ("POOL_SCRUB_READ", { }),
  ("POOL_SCRUB_WRITE", { includes := ["POOL_SCRUB_READ"] }),
  ("POOL_READ", { includes := ["POOL_SCRUB_READ"] }),
  ("POOL_WRITE", { includes := ["POOL_READ", "POOL_SCRUB_WRITE"] }),
  ("DATASET_READ", { }),
  ("DATASET_WRITE", { includes := ["DATASET_READ"] }),
  ("DATASET_DELETE", { }),
  ("SNAPSHOT_READ", { }),
  ("SNAPSHOT_WRITE", { includes := ["SNAPSHOT_READ"] }),
  ("SNAPSHOT_DELETE", { }),
  ("REPLICATION_ADMIN", {
    includes := [
      "KEYCHAIN_CREDENTIAL_WRITE",
      "REPLICATION_TASK_CONFIG_WRITE",
      "REPLICATION_TASK_WRITE",
      "SNAPSHOT_TASK_WRITE",
      "SNAPSHOT_WRITE"],
    builtin := false }),
  ("SHARING_ADMIN", {
    includes := [
      "READONLY_ADMIN",
      "DATASET_WRITE",
      "SHARING_WRITE",
      "FILESYSTEM_ATTRS_WRITE",
      "SERVICE_READ"],
    builtin := false }),
  ("SYSTEM_GENERAL_READ", { }),
  ("SYSTEM_GENERAL_WRITE", { includes := ["SYSTEM_GENERAL_READ"] }),
  ("SYSTEM_ADVANCED_READ", { }),
  ("SYSTEM_ADVANCED_WRITE", { includes := ["SYSTEM_ADVANCED_READ"] }),
  ("SYSTEM_SECURITY_READ", { }),
  ("SYSTEM_SECURITY_WRITE", { includes := ["SYSTEM_SECURITY_READ"] }),
  ("SYSTEM_TUNABLE_READ", { }),
  ("SYSTEM_TUNABLE_WRITE", { includes := ["SYSTEM_TUNABLE_READ"] }),
  ("SYSTEM_CRON_READ", { }),
  ("SYSTEM_CRON_WRITE", { includes := ["SYSTEM_CRON_READ"] }),
  ("VIRT_GLOBAL_READ", { }),
  ("VIRT_GLOBAL_WRITE", { includes := ["VIRT_GLOBAL_READ"], stig := none }),
  ("VIRT_INSTANCE_READ", { }),
  ("VIRT_INSTANCE_WRITE", { includes := ["VIRT_INSTANCE_READ"], stig := none }),
  ("VIRT_INSTANCE_DELETE", { stig := none }),
  ("VIRT_IMAGE_READ", { }),
  ("VIRT_IMAGE_WRITE", { includes := ["VIRT_IMAGE_READ"], stig := none })]

/-- `ROLES`, with the read-only administrator added last. -/
def shippedRoles : RoleTable :=
  let roles := Dict.ofEntries shippedRoleEntries
  roles.set "READONLY_ADMIN"
    { includes := roles.keys.filter (PyString.endsWith · "_READ"), builtin := false }

theorem shippedRoles_get?_of_ne {name : String} (hne : name ≠ "READONLY_ADMIN") :
    shippedRoles.get? name = shippedRoleEntries.reverse.lookup name := by
  unfold shippedRoles
  rw [Dict.get?_set_of_ne _ hne, Dict.get?_ofEntries]

theorem shippedRoles_privilegeWrite : shippedRoles.get? "PRIVILEGE_WRITE" =
    some { includes := ["PRIVILEGE_WRITE"] } := by
  rw [shippedRoles_get?_of_ne (by decide)]
  rfl

end Middlewared
