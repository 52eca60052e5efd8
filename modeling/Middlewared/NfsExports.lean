import Middlewared.NfsShare
import Middlewared.TransitionSystem

/-!
# Exports of a path

The shares after accepted creates, updates and deletes.
-/

namespace Middlewared

open List Option

abbrev NfsExports := Dict ℕ NfsShare

namespace NfsExports

inductive Action where
  /-- The id is one that `datastore.insert` may give. -/
  | create (id : ℕ) (data : NfsShareData) (checks : NfsChecks)
  | update (id : ℕ) (update : NfsShareData → NfsShareData) (checks : NfsChecks)
  | delete (id : ℕ)

/-- `sharing.nfs.query` but for the share itself. -/
def others (s : NfsExports) (id : ℕ) : List NfsShare :=
  (s.entries.filter fun entry => entry.1 ≠ id).map Prod.snd

def write (world : NfsWorld) (s : NfsExports) (schema : String) (id : ℕ)
    (data : NfsShareData) (checks : NfsChecks) : Option NfsExports :=
  match world.validate checks schema (s.others id) data with
  | .ok share => some (s.set id share)
  | .error _ => none

def step (world : NfsWorld) (s : NfsExports) : Action → Option NfsExports
  | .create id data checks =>
    if id ∈ s then none
    else s.write world "sharingnfs_create" id data checks
  | .update id update checks =>
    match s.get? id with
    | none => none
    | some old =>
      s.write world "sharingnfs_update" id (update (old.toData world)) checks
  | .delete id => if id ∈ s then some (s.erase id) else none

/-! ## Clients -/

def hostAddress (world : NfsWorld) (host : String) : Option IpAddress :=
  (world.resolve host).bind world.ipAddress

/-- The client is among the hosts, in the networks, or one of everybody. -/
def Matches (world : NfsWorld) (share : NfsShare) (client : IpAddress) : Prop :=
  (∃ host ∈ share.hosts, hostAddress world host = some client) ∨
    (∃ network ∈ share.networks, client ∈ network) ∨ share.hosts = [] ∧ share.networks = []

structure Apart (first second : NfsShare) : Prop where
  hosts : ∀ host ∈ first.hosts, host ∉ second.hosts
  networks : ∀ n ∈ first.networks, ∀ m ∈ second.networks, ∀ client ∈ n, client ∉ m

def ExportedApart (world : NfsWorld) (s : NfsExports) : Prop :=
  ∀ i j a b, i ≠ j → s.get? i = some a → s.get? j = some b →
    world.realpath a.path = world.realpath b.path → Apart a b

def target (world : NfsWorld) (s : NfsExports) :
    Action → Option (ℕ × NfsShareData)
  | .create id data _ => some (id, data)
  | .update id update _ =>
    (s.get? id).map fun old => (id, update (old.toData world))
  | .delete _ => none

/-- A call that gives a share networks finds no other share of the path that is
for everybody. -/
def SparesEverybody (world : NfsWorld) (s : NfsExports) (a : Action) : Prop :=
  ∀ write ∈ target world s a, write.2.networks ≠ [] → ∀ j b, j ≠ write.1 → s.get? j = some b →
      world.realpath write.2.path = world.realpath b.path → b.hosts ≠ [] ∨ b.networks ≠ []

open TransitionSystem

section

variable {world : NfsWorld} {s next : NfsExports} {a b : NfsShare}

theorem Apart.symm (hapart : Apart a b) : Apart b a where
  hosts host hb ha := hapart.hosts host ha hb
  networks n hn m hm client hclient hmem := hapart.networks m hm n hn client hmem hclient

variable {id j : ℕ}

theorem mem_others (hne : j ≠ id) (hget : s.get? j = some b) : b ∈ s.others id := by
  refine List.mem_map.mpr ⟨(j, b), ?_, rfl⟩
  rw [mem_filter]
  exact ⟨Dict.mem_entries_iff.mpr hget, by simpa using hne⟩

variable {checks : NfsChecks} {schema : String} {data : NfsShareData}

theorem apart_of_validate (hvalid : world.validate checks schema (s.others id) data = .ok a)
    (hne : j ≠ id) (hget : s.get? j = some b)
    (hpath : world.realpath a.path = world.realpath b.path) : Apart a b := by
  obtain ⟨_, hshare, _⟩ := NfsWorld.validate_eq_ok hvalid
  have hother := mem_others hne hget
  have hdata : world.realpath data.path = world.realpath b.path := by
    rw [hshare] at hpath
    exact hpath
  constructor
  · intro host hhost
    rw [hshare] at hhost
    exact NfsWorld.notMem_hosts_of_validate hvalid hother hdata hhost
  · intro n hn m hm client hclient hmem
    exact NfsWorld.not_overlaps_of_validate hvalid hother hdata hn
      (mem_append_left _ hm) (IpNetwork.overlaps_of_mem hclient hmem)

theorem write_eq_some (hwrite : s.write world schema id data checks = some next) :
    ∃ share, world.validate checks schema (s.others id) data = .ok share ∧
      next = s.set id share := by
  unfold write at hwrite
  split at hwrite
  · rename_i share hshare
    cases hwrite
    exact ⟨share, hshare, rfl⟩
  · cases hwrite

theorem ExportedApart.write (hapart : ExportedApart world s)
    (hwrite : s.write world schema id data checks = some next) :
    ExportedApart world next := by
  obtain ⟨share, hvalid, hnext⟩ := write_eq_some hwrite
  subst hnext
  intro i j a b hne ha hb hpath
  rw [Dict.get?_set] at ha hb
  by_cases hi : i = id
  · subst hi
    rw [if_pos rfl, Option.some.injEq] at ha
    rw [if_neg (Ne.symm hne)] at hb
    subst ha
    exact apart_of_validate hvalid (Ne.symm hne) hb hpath
  · rw [if_neg hi] at ha
    by_cases hj : j = id
    · subst hj
      rw [if_pos rfl, Option.some.injEq] at hb
      subst hb
      exact (apart_of_validate hvalid hne ha hpath.symm).symm
    · rw [if_neg hj] at hb
      exact hapart i j a b hne ha hb hpath

theorem ExportedApart.step {action : Action} (hapart : ExportedApart world s)
    (hstep : step world s action = some next) : ExportedApart world next := by
  cases action with
  | create id data checks =>
    simp only [NfsExports.step, ite_none_left_eq_some] at hstep
    exact hapart.write hstep.2
  | update id update checks =>
    simp only [NfsExports.step] at hstep
    split at hstep
    · cases hstep
    · exact hapart.write hstep
  | delete id =>
    obtain ⟨_, rfl⟩ := ite_some_none_eq_some.mp hstep
    intro i j a b hne ha hb hpath
    rw [Dict.get?_erase, ite_none_left_eq_some] at ha hb
    exact hapart i j a b hne ha.2 hb.2 hpath

theorem sparesEverybody_of_write (hwrite : s.write world schema id data checks = some next)
    (hne : data.networks ≠ []) (hj : j ≠ id) (hget : s.get? j = some b)
    (hpath : world.realpath data.path = world.realpath b.path) :
    b.hosts ≠ [] ∨ b.networks ≠ [] := by
  obtain ⟨share, hvalid, _⟩ := write_eq_some hwrite
  by_contra hnone
  rw [not_or, not_not, not_not] at hnone
  obtain ⟨n, hn⟩ := exists_mem_of_ne_nil _ (NfsWorld.networks_ne_nil hvalid hne)
  obtain ⟨m, hm, hoverlaps⟩ := NfsWorld.exists_overlaps_everything (n := n) hnone.1 hnone.2
  exact NfsWorld.not_overlaps_of_validate hvalid (mem_others hj hget) hpath hn hm hoverlaps

theorem step_sparesEverybody {action : Action} (hstep : step world s action = some next) :
    SparesEverybody world s action := by
  intro target htarget hne j b hj hget hpath
  cases action with
  | create id data checks =>
    cases htarget
    simp only [step, ite_none_left_eq_some] at hstep
    exact sparesEverybody_of_write hstep.2 hne hj hget hpath
  | update id update checks =>
    simp only [step] at hstep
    split at hstep
    · cases hstep
    · rename_i old hold
      simp only [NfsExports.target, hold, map_some, mem_some_iff] at htarget
      subst htarget
      exact sparesEverybody_of_write hstep hne hj hget hpath
  | delete id => cases htarget

end

/-- After every run, two shares of one path have no host entry and no address
of their networks in common; and no call has given a share networks beside
another one of the path that is for everybody. -/
theorem exports_apart (world : NfsWorld) {s : NfsExports} {actions : List Action}
    (hrun : run (step world) Dict.empty actions = some s) :
    ExportedApart world s ∧ EveryStep (step world) (SparesEverybody world) Dict.empty actions := by
  constructor
  · refine run_invariant (fun _ _ _ hapart => hapart.step) ?_ hrun
    intro i j a b _ ha
    cases ha
  · have hevery : EveryStep (step world) (fun _ _ => True) Dict.empty
        actions := everyStep_of_forall_mem fun _ _ _ => trivial
    exact hevery.imp_of_invariant (fun _ => True) (fun _ _ _ _ _ _ => trivial)
      (fun _ _ _ _ _ hstep => step_sparesEverybody hstep) trivial hrun

/-- `192.168.27.211`. -/
def clientAddress : IpAddress where
  version := .v4
  value := 3232242643
  lt := by decide

/-- `10.0.0.5`. -/
def officeAddress : IpAddress where
  version := .v4
  value := 167772165
  lt := by decide

/-- `192.168.24.0/22`. -/
def clientNetwork : IpNetwork where
  version := .v4
  networkAddress := 3232241664
  prefixlen := 22
  lt := by decide
  prefixlen_le := by decide
  hostBits_zero := by decide

/-- `10.0.0.0/24`. -/
def officeNetwork : IpNetwork where
  version := .v4
  networkAddress := 167772160
  prefixlen := 24
  lt := by decide
  prefixlen_le := by decide
  hostBits_zero := by decide

def fourTexts : NfsWorld where
  ipAddress text :=
    if text = "192.168.27.211" then some clientAddress
    else if text = "10.0.0.5" then some officeAddress
    else none
  ipNetwork text :=
    if text = "192.168.24.0/22" then some clientNetwork
    else if text = "10.0.0.0/24" then some officeNetwork
    else none
  strAddress _ value :=
    if value = clientNetwork.networkAddress then "192.168.24.0" else "10.0.0.0"
  strNetwork network := if network.prefixlen = 22 then "192.168.24.0/22" else "10.0.0.0/24"
  forwardLookup _ := none
  realpath path := path
  star_not_address := by decide

def noComplaints : NfsChecks where
  residesWithinVolume _ := []
  isSymlink _ := false
  userExists _ := true
  groupExists _ := true
  nfsv4 := true

def exportTo (networks hosts : List String) : NfsShareData where
  path := "/mnt/tank/dir"
  networks := networks
  hosts := hosts
  maprootUser := none
  maprootGroup := none
  mapallUser := none
  mapallGroup := none
  security := []

def hostThenNetwork : List Action :=
  [.create 1 (exportTo [] ["192.168.27.211"]) noComplaints,
    .create 2 (exportTo ["192.168.24.0/22"] []) noComplaints]

/-- Each host is in the network of the other share, which is allowed. -/
def crossedExports : List Action :=
  [.create 1 (exportTo ["10.0.0.0/24"] ["192.168.27.211"]) noComplaints,
    .create 2 (exportTo ["192.168.24.0/22"] ["10.0.0.5"]) noComplaints]

theorem crossedExports_apart : ∃ s, run (step fourTexts) Dict.empty crossedExports = some s ∧
    s.size = 2 ∧ ExportedApart fourTexts s ∧
    EveryStep (step fourTexts) (SparesEverybody fourTexts) Dict.empty crossedExports := by
  refine ⟨_, rfl, rfl, ?_⟩
  exact @exports_apart fourTexts _ crossedExports rfl

/-- A host inside of the network of another share. -/
theorem hostThenNetwork_match_twice :
    ∃ s a b, run (step fourTexts) Dict.empty hostThenNetwork = some s ∧
      s.get? 1 = some a ∧ s.get? 2 = some b ∧
      fourTexts.realpath a.path = fourTexts.realpath b.path ∧
      Matches fourTexts a clientAddress ∧ Matches fourTexts b clientAddress := by
  refine ⟨_, _, _, rfl, rfl, rfl, rfl, ?_, ?_⟩
  · exact Or.inl ⟨"192.168.27.211", mem_cons_self, by decide⟩
  · exact Or.inr (Or.inl ⟨clientNetwork, mem_cons_self, by decide⟩)

end NfsExports

end Middlewared
