import Middlewared.Dict
import Middlewared.ExceptRules
import Middlewared.IpNetwork
import Middlewared.PyString
import Middlewared.ValidationErrors

/-!
# NFS shares

`sharing.nfs` with its `validate`.
-/

namespace Middlewared

open List

/-- A row of `sharing.nfs_share`. -/
structure NfsShare where
  path : String
  networks : List IpNetwork
  hosts : List String
  (maprootUser maprootGroup mapallUser mapallGroup : Option String)
  security : List String

structure NfsShareData where
  path : String
  (networks hosts : List String)
  (maprootUser maprootGroup mapallUser mapallGroup : Option String)
  security : List String

/-- The names, the paths and `ipaddress`, which stay as they are. -/
structure NfsWorld where
  ipAddress : String → Option IpAddress
  ipNetwork : String → Option IpNetwork
  strAddress : IpVersion → ℕ → String
  strNetwork : IpNetwork → String
  forwardLookup : String → Option String
  realpath : String → String
  star_not_address : ipAddress "*" = none

/-- What else a call of `validate` finds. -/
structure NfsChecks where
  residesWithinVolume : String → List String
  (isSymlink userExists groupExists : String → Bool)
  nfsv4 : Bool

def isDomainWildcard (c : Char) : Bool :=
  c = '*' || c = '?' || c = '[' || c = ']'

def getDomain (hostname : String) : Option String :=
  if '.' ∈ hostname.toList then
    some (String.ofList ((hostname.toList.dropWhile (· ≠ '.')).drop 1))
  else none

def leftmostHasWildcards (hostname : String) : Bool :=
  (PyString.splitFirst hostname '.').toList.any isDomainWildcard

def getWildcardDomain (hostname : String) : Option String :=
  if leftmostHasWildcards hostname then getDomain hostname else none

/-- What a `\s` matches. -/
def isSpace (c : Char) : Bool :=
  (9 ≤ c.toNat && c.toNat ≤ 13) || (28 ≤ c.toNat && c.toNat ≤ 32) ||
    (8192 ≤ c.toNat && c.toNat ≤ 8202) ||
    c.toNat ∈ [133, 160, 5760, 8232, 8233, 8239, 8287, 12288]

/-- `repr` of a set or list of texts, between its brackets. -/
def reprItems (items : List String) : String :=
  ", ".intercalate (items.map PyString.repr)

def repeatedItems : List String → List String → List String
  | _, [] => []
  | seen, v :: rest =>
    if v ∈ seen then v :: repeatedItems seen rest
    else repeatedItems (v :: seen) rest

def confirmUnique (schema item : String) (values : List String) :
    List VerrorEntry :=
  errorIf (repeatedItems [] values ≠ []) (schema ++ "." ++ item)
    ("Entries must be unique, the following are not: " ++
      ", ".intercalate (repeatedItems [] values))

namespace NfsWorld

variable (world : NfsWorld)

def sanitizeNetworks (schema : String) (networks : List String) :
    List VerrorEntry :=
  let notValid := networks.filter fun v => (world.ipNetwork v).isNone
  errorIf (notValid ≠ []) (schema ++ ".networks")
    ("The following do not appear to be valid IPv4 or IPv6 networks: " ++
      ", ".intercalate notValid)

def sanitizeHosts (schema : String) (hosts : List String) :
    List VerrorEntry :=
  let notValid := hosts.filter fun v =>
    v.toList.any fun c => isSpace c || c = '"'
  errorIf (notValid ≠ []) (schema ++ ".hosts")
    ("Cannot contain spaces or quotes: " ++ ", ".intercalate notValid)

def sanitizeShareNetworksAndHosts (schema : String) (data : NfsShareData) :
    List VerrorEntry :=
  confirmUnique schema "networks" data.networks ++
  confirmUnique schema "hosts" data.hosts ++
  world.sanitizeNetworks schema data.networks ++
  sanitizeHosts schema data.hosts

/-- `resolve` of `resolve_hostnames`. -/
def resolve (hostname : String) : Option String :=
  if (world.ipAddress hostname).isSome then some hostname
  else
    let hostname :=
      ((getWildcardDomain hostname).filter (· ≠ "")).getD hostname
    if leftmostHasWildcards hostname then none
    else world.forwardLookup hostname

/-- `itertools.combinations(networks, 2)`. -/
def combinations : List IpNetwork → List (IpNetwork × IpNetwork)
  | [] => []
  | n :: rest => (rest.map fun m => (n, m)) ++ combinations rest

def validateShareNetworks (schema : String) (networks : List IpNetwork)
    (hostnames : List String) : List VerrorEntry :=
  (networks.flatMap fun network =>
    match hostnames.find? fun host => world.resolve host =
        some (world.strAddress network.version network.networkAddress) with
    | none => []
    | some key =>
      [(schema ++ ".networks", "ERROR - Resolved hostname to duplicate address: host '" ++ key ++
          "' resolves to '" ++ world.strNetwork network ++ "'")]) ++
  let overlaps := (combinations networks).filter fun pair =>
    pair.1.Overlaps pair.2
  errorIf (overlaps ≠ []) (schema ++ ".networks") ("ERROR - Overlapped subnets: [" ++
      ", ".intercalate (overlaps.map fun pair =>
        "(" ++ reprItems [world.strNetwork pair.1, world.strNetwork pair.2] ++ ")") ++ "]")

def samePath (path : String) (others : List NfsShare) : List NfsShare :=
  others.filter fun share => world.realpath path = world.realpath share.path

/-- An entry of `used_hosts`, if the host gives one: a name that does not
resolve, or a network of one address. -/
def usedHost (host : String) : Option String :=
  match world.resolve host with
  | none => some host
  | some hostIp =>
    if PyString.startsWith host "@" then none
    else (world.ipNetwork hostIp).map world.strNetwork

/-- What a share adds to `used_networks`. -/
def usedNetworks (share : NfsShare) : List IpNetwork :=
  share.networks ++ if share.hosts = [] ∧ share.networks = [] then
      [IpNetwork.everything .v4, IpNetwork.everything .v6]
    else []

def networkErrors (schema path : String) :
    List IpNetwork → List IpNetwork → List VerrorEntry
  | _, [] => []
  | used, network :: rest =>
    errorIf (network ∈ used) (schema ++ ".networks")
      ("ERROR - Another NFS share already exports " ++ path ++
        " for network " ++ world.strNetwork network) ++
    (match used.find? fun other => network.Overlaps other with
      | none => []
      | some other =>
        [(schema ++ ".networks", "ERROR - This or another NFS share exports " ++ path ++ " to " ++
            world.strNetwork other ++ " and overlaps network " ++
            world.strNetwork network)]) ++
    networkErrors schema path (used ++ [network]) rest

def hostErrors (schema path : String) (usedHosts : List String)
    (host : String) : List VerrorEntry :=
  if host ∈ usedHosts then
    [(schema ++ ".hosts", "ERROR - Another NFS share already exports " ++ path ++ " for host " ++
        host)]
  else if PyString.startsWith host "@" then []
  else if leftmostHasWildcards host && (getDomain host).isNone then []
  else
    errorIf (world.resolve host).isNone (schema ++ ".hosts")
      ("Unable to resolve host '" ++ host ++ "'")

def validateHostsAndNetworks (schema : String) (others : List NfsShare)
    (data : NfsShareData) (networks : List IpNetwork) : List VerrorEntry :=
  let same := world.samePath data.path others
  let usedHosts := same.flatMap fun share => share.hosts.filterMap world.usedHost
  world.networkErrors schema data.path (same.flatMap usedNetworks) networks.dedup ++
  data.hosts.dedup.flatMap (world.hostErrors schema data.path usedHosts)

def commonHosts (data : NfsShareData) (share : NfsShare) : List String :=
  (data.hosts.filter fun host => host ≠ "*" && host ∈ share.hosts).dedup

def commonNetworks (networks : List IpNetwork) (share : NfsShare) :
    List IpNetwork :=
  (networks.filter (· ∈ share.networks)).dedup

def validateSharePath (checks : NfsChecks) (schema : String)
    (others : List NfsShare) (data : NfsShareData)
    (networks : List IpNetwork) : List VerrorEntry :=
  errorIf (checks.isSymlink data.path) (schema ++ ".path")
    ("Symbolic links are not allowed: " ++ data.path ++ ".") ++
  match (world.samePath data.path others).find? fun share =>
      commonHosts data share ≠ [] || commonNetworks networks share ≠ [] with
  | none => []
  | some share =>
    [(schema ++ ".path", "ERROR - Export conflict. Another share with the same path exports " ++
        share.path ++ " for " ++
        if commonHosts data share ≠ [] then
          "\x7b" ++ reprItems (commonHosts data share) ++ "\x7d"
        else
          "\x7b" ++ reprItems ((commonNetworks networks share).map world.strNetwork) ++ "\x7d")]

end NfsWorld

def givenText (text : Option String) : Option String :=
  text.filter (· ≠ "")

def mapErrors (checks : NfsChecks) (schema k : String)
    (user group : Option String) : List VerrorEntry :=
  match givenText user, givenText group with
  | none, none => []
  | none, some _ =>
    [(schema ++ "." ++ k ++ "_user", "This field is required when map group is specified")]
  | some user, group =>
    errorIf (!checks.userExists user) (schema ++ "." ++ k ++ "_user")
      ("User not found: " ++ user) ++
    match group with
    | none => []
    | some group =>
      errorIf (!checks.groupExists group) (schema ++ "." ++ k ++ "_group")
        ("Group not found: " ++ group)

def optionErrors (checks : NfsChecks) (schema : String)
    (data : NfsShareData) : List VerrorEntry :=
  let v4Sec := data.security.filter (· ≠ "SYS")
  mapErrors checks schema "maproot" data.maprootUser data.maprootGroup ++
  mapErrors checks schema "mapall" data.mapallUser data.mapallGroup ++
  errorIf ((givenText data.maprootUser).isSome &&
      (givenText data.mapallUser).isSome) (schema ++ ".mapall_user")
    "maproot_user disqualifies mapall_user" ++
  errorIf (v4Sec ≠ [] && !checks.nfsv4) (schema ++ ".security")
    ("The following security flavor(s) require NFSv4 to be enabled: " ++
      ",".intercalate v4Sec ++ ".")

namespace NfsShareData

def toShare (data : NfsShareData) (networks : List IpNetwork) : NfsShare where
  path := data.path
  networks := networks
  hosts := data.hosts
  maprootUser := data.maprootUser
  maprootGroup := data.maprootGroup
  mapallUser := data.mapallUser
  mapallGroup := data.mapallGroup
  security := data.security

end NfsShareData

def NfsShare.toData (world : NfsWorld) (share : NfsShare) : NfsShareData where
  path := share.path
  networks := share.networks.map world.strNetwork
  hosts := share.hosts
  maprootUser := share.maprootUser
  maprootGroup := share.maprootGroup
  mapallUser := share.mapallUser
  mapallGroup := share.mapallGroup
  security := share.security

/-- `validate`, with the checks that raise on the way. -/
def NfsWorld.validate (world : NfsWorld) (checks : NfsChecks) (schema : String)
    (others : List NfsShare) (data : NfsShareData) :
    Except (List VerrorEntry) NfsShare := do
  raiseErrors (world.sanitizeShareNetworksAndHosts schema data)
  let networks := data.networks.filterMap world.ipNetwork
  raiseErrors (((checks.residesWithinVolume data.path).map fun error =>
        (schema ++ ".path", error)) ++
      world.validateShareNetworks schema networks
        ((others.flatMap fun share => share.hosts) ++ data.hosts).dedup)
  raiseErrors (world.validateHostsAndNetworks schema others data networks)
  raiseErrors (world.validateSharePath checks schema others data networks)
  raiseErrors (optionErrors checks schema data)
  return data.toShare networks

/-! ## What an accepted share fulfils -/

namespace NfsWorld

variable {world : NfsWorld} {checks : NfsChecks} {schema : String}
  {others : List NfsShare} {data : NfsShareData} {share : NfsShare}

theorem mem_samePath_iff {path : String} : share ∈ world.samePath path others ↔
    share ∈ others ∧ world.realpath path = world.realpath share.path := by
  simp [samePath]

theorem not_overlaps_of_networkErrors {path : String} {used networks : List IpNetwork}
    (hnil : world.networkErrors schema path used networks = [])
    {n m : IpNetwork} (hn : n ∈ networks) (hm : m ∈ used) :
    ¬ n.Overlaps m := by
  induction networks generalizing used with
  | nil => exact absurd hn not_mem_nil
  | cons network rest ih =>
    simp only [networkErrors, append_eq_nil_iff] at hnil
    rcases mem_cons.mp hn with heq | hrest
    · subst heq
      intro hoverlaps
      have hfind := hnil.1.2
      split at hfind
      · rename_i hnone
        rw [find?_eq_none] at hnone
        exact hnone m hm (decide_eq_true hoverlaps)
      · cases hfind
    · exact ih hnil.2 hrest (mem_append_left _ hm)

theorem exists_overlaps_everything {n : IpNetwork}
    (hhosts : share.hosts = []) (hnetworks : share.networks = []) :
    ∃ m ∈ usedNetworks share, n.Overlaps m := by
  refine ⟨IpNetwork.everything n.version, ?_, IpNetwork.overlaps_everything n⟩
  rw [usedNetworks, if_pos ⟨hhosts, hnetworks⟩]
  cases n.version <;> simp

variable (hvalid : world.validate checks schema others data = .ok share)

include hvalid

theorem validate_eq_ok : world.sanitizeNetworks schema data.networks = [] ∧
    share = data.toShare (data.networks.filterMap world.ipNetwork) ∧
    world.validateHostsAndNetworks schema others data share.networks = [] ∧
    world.validateSharePath checks schema others data share.networks = [] := by
  simp only [validate, bind_eq_ok_iff, raiseErrors_eq_ok_iff] at hvalid
  obtain ⟨_, hsanitized, _, _, _, hnetworks, _, hpath, _, _, hshare⟩ := hvalid
  cases hshare
  simp only [sanitizeShareNetworksAndHosts, append_eq_nil_iff] at hsanitized
  exact ⟨hsanitized.1.2, rfl, hnetworks, hpath⟩

theorem networks_ne_nil (hne : data.networks ≠ []) : share.networks ≠ [] := by
  obtain ⟨hsanitized, hshare, _⟩ := validate_eq_ok hvalid
  rw [sanitizeNetworks, errorIf_eq_nil_iff] at hsanitized
  have hall : ∀ v ∈ data.networks, world.ipNetwork v ≠ none := by
    simpa using hsanitized
  subst hshare
  obtain ⟨v, hv⟩ := exists_mem_of_ne_nil _ hne
  obtain ⟨network, hnetwork⟩ := Option.ne_none_iff_exists'.mp (hall v hv)
  exact ne_nil_of_mem (mem_filterMap.mpr ⟨v, hv, hnetwork⟩)

theorem not_overlaps_of_validate {other : NfsShare} (hother : other ∈ others)
    (hpath : world.realpath data.path = world.realpath other.path) {n m : IpNetwork}
    (hn : n ∈ share.networks) (hm : m ∈ usedNetworks other) : ¬ n.Overlaps m := by
  obtain ⟨_, _, hnetworks, _⟩ := validate_eq_ok hvalid
  simp only [validateHostsAndNetworks, append_eq_nil_iff] at hnetworks
  apply not_overlaps_of_networkErrors hnetworks.1 (mem_dedup.mpr hn)
  exact mem_flatMap.mpr ⟨other, mem_samePath_iff.mpr ⟨hother, hpath⟩, hm⟩

omit hvalid in
theorem resolve_star : world.resolve "*" = none := by
  simp [resolve, world.star_not_address, getWildcardDomain, getDomain,
    leftmostHasWildcards, PyString.splitFirst, isDomainWildcard]

theorem notMem_hosts_of_validate {other : NfsShare} (hother : other ∈ others)
    (hpath : world.realpath data.path = world.realpath other.path) {host : String}
    (hhost : host ∈ data.hosts) : host ∉ other.hosts := by
  have hsame := mem_samePath_iff.mpr ⟨hother, hpath⟩
  obtain ⟨_, _, hnetworks, hsharePath⟩ := validate_eq_ok hvalid
  intro hcommon
  by_cases hstar : host = "*"
  · -- `*` does not resolve, and so is looked for as a text
    subst hstar
    simp only [validateHostsAndNetworks, append_eq_nil_iff,
      flatMap_eq_nil_iff, mem_dedup] at hnetworks
    have hused : "*" ∈ (world.samePath data.path others).flatMap
        fun share => share.hosts.filterMap world.usedHost := by
      refine mem_flatMap.mpr ⟨other, hsame, ?_⟩
      exact mem_filterMap.mpr ⟨"*", hcommon, by
        simp [usedHost, resolve_star]⟩
    have hnil := hnetworks.2 "*" hhost
    rw [hostErrors, if_pos hused] at hnil
    cases hnil
  · simp only [validateSharePath, append_eq_nil_iff] at hsharePath
    have hfind := hsharePath.2
    split at hfind
    · rename_i hnone
      rw [find?_eq_none] at hnone
      apply hnone other hsame
      have hmem : host ∈ commonHosts data other := by
        simp [commonHosts, hhost, hstar, hcommon]
      simp [ne_nil_of_mem hmem]
    · cases hfind

end NfsWorld

end Middlewared
