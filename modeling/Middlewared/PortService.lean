import Middlewared.Dict
import Middlewared.IpNetwork
import Middlewared.PyString
import Middlewared.ValidationErrors

/-!
# Ports in use

Delegates report the addresses and ports that their services use.  Addresses are compared as
texts.
-/

namespace Middlewared

open List

structure PortDetails where
  description : Option String := none
  ports : List (String × ℤ)
deriving DecidableEq

structure PortsInUse where
  (nameSpace title : String)
  ports : List (String × ℤ)
  portDetails : List PortDetails
deriving DecidableEq

structure PortDelegate where
  (nameSpace title : String)
  getPorts : List PortDetails

/-- One line of the message: the position of the address among all that are
used with the port, and the service behind it. -/
structure PortLine where
  index : ℕ
  ip : String
  port : ℤ
  title : String
  description : Option String
deriving DecidableEq

namespace PortService

def wildcardIps : List String := ["0.0.0.0", "::"]

def systemPorts : List (String × ℤ) :=
  wildcardIps.flatMap fun wildcard =>
    [67, 123, 3702, 5353, 6000].map fun port => (wildcard, port)

def systemUsedPorts : List PortsInUse :=
  [{ nameSpace := "system"
     title := "System"
     ports := systemPorts
     portDetails := [{ ports := systemPorts }] }]

def getInUse (delegates : Dict String PortDelegate) : List PortsInUse :=
  (delegates.entries.filterMap fun entry =>
    if entry.2.getPorts = [] then none
    else some
      { nameSpace := entry.2.nameSpace
        title := entry.2.title
        ports := entry.2.getPorts.flatMap PortDetails.ports
        portDetails := entry.2.getPorts }) ++
    systemUsedPorts

/-- The version of the text of an address that `ip_interface` accepts. -/
def getIpVersion (ip : String) : IpVersion :=
  if ':' ∈ ip.toList then .v6 else .v4

def wildcardIp : IpVersion → String
  | .v4 => "0.0.0.0"
  | .v6 => "::"

def recordPort (attachment : PortsInUse)
    (ports : Dict ℤ (Dict String PortsInUse)) (used : String × ℤ) :
    Dict ℤ (Dict String PortsInUse) :=
  ports.set used.2 (((ports.get? used.2).getD Dict.empty).set used.1 attachment)

def whitelisted (whitelistNamespace : Option String)
    (attachments : List PortsInUse) : List PortsInUse :=
  attachments.filter fun attachment =>
    some attachment.nameSpace ≠ whitelistNamespace

def portsMapping (delegates : Dict String PortDelegate)
    (whitelistNamespace : Option String) : Dict ℤ (Dict String PortsInUse) :=
  (whitelisted whitelistNamespace (getInUse delegates)).foldl (fun ports attachment =>
      attachment.ports.foldl (recordPort attachment) ports)
    Dict.empty

/-- `port_mapping[port]` of a `defaultdict` -/
def portAttachment (delegates : Dict String PortDelegate)
    (whitelistNamespace : Option String) (port : ℤ) :
    Dict String PortsInUse :=
  ((portsMapping delegates whitelistNamespace).get? port).getD Dict.empty

def describe (attachment : PortsInUse) (ip bindip : String) (port : ℤ) :
    Option String :=
  (attachment.portDetails.find? fun detail =>
    (ip, port) ∈ detail.ports ∨ (bindip, port) ∈ detail.ports).bind PortDetails.description

def ipErrors (attachments : Dict String PortsInUse) (port : ℤ)
    (bindip : String) : List PortLine :=
  let wildcard := wildcardIp (getIpVersion bindip)
  attachments.entries.zipIdx.filterMap fun (entry, index) =>
    if getIpVersion entry.1 ≠ getIpVersion bindip then none
    else if bindip = wildcard ∨ entry.1 = wildcard ∨
        (bindip ≠ wildcard ∧ entry.1 = bindip) then
      some
        { index := index + 1
          ip := entry.1
          port
          title := entry.2.title
          description := describe entry.2 entry.1 bindip port }
    else none

def isFree (attachments : Dict String PortsInUse) (bindip : String) : Bool :=
  let wildcard := wildcardIp (getIpVersion bindip)
  !(attachments.keys.any fun ip => getIpVersion ip = getIpVersion bindip) ||
    (decide (bindip ∉ attachments) && decide (wildcard ∉ attachments) && decide (bindip ≠ wildcard))

def report (delegates : Dict String PortDelegate) (port : ℤ) (bindip : String)
    (whitelistNamespace : Option String) : Option (List PortLine) :=
  let attachments := portAttachment delegates whitelistNamespace port
  if isFree attachments bindip then none
  else some (ipErrors attachments port bindip)

def lineText (line : PortLine) : String :=
  toString line.index ++ ") \"" ++ line.ip ++ ":" ++ toString line.port ++
    "\" used by " ++ line.title ++
    match line.description with
    | none => ""
    | some "" => ""
    | some description => " (" ++ description ++ ")"

def portErrors (schema : String) (lines : List PortLine) (raiseError : Bool) :
    Except (List VerrorEntry) (List VerrorEntry) :=
  let verrors := [(schema,
    "The port is being used by following services:\n" ++
      "\n".intercalate (lines.map lineText))]
  if raiseError then .error verrors else .ok verrors

def validatePort (delegates : Dict String PortDelegate) (schema : String)
    (port : ℤ) (bindip : String) (whitelistNamespace : Option String)
    (raiseError : Bool) : Except (List VerrorEntry) (List VerrorEntry) :=
  match report delegates port bindip whitelistNamespace with
  | none => .ok []
  | some lines => portErrors schema lines raiseError

def Uses (delegates : Dict String PortDelegate)
    (whitelistNamespace : Option String) (port : ℤ) (ip : String)
    (attachment : PortsInUse) : Prop :=
  attachment ∈ getInUse delegates ∧ some attachment.nameSpace ≠ whitelistNamespace ∧
    (ip, port) ∈ attachment.ports

def Conflicts (bindip ip : String) : Prop :=
  getIpVersion ip = getIpVersion bindip ∧ (ip = bindip ∨ bindip = wildcardIp (getIpVersion bindip) ∨
      ip = wildcardIp (getIpVersion bindip))

instance (bindip ip : String) : Decidable (Conflicts bindip ip) :=
  inferInstanceAs (Decidable (_ ∧ _))

/-- The lines of the error that `validate_port` gives. -/
structure Reports (delegates : Dict String PortDelegate) (schema : String) (port : ℤ)
    (bindip : String) (whitelistNamespace : Option String) (raiseError : Bool)
    (lines : List PortLine) : Prop where
  found : report delegates port bindip whitelistNamespace = some lines
  errors : validatePort delegates schema port bindip whitelistNamespace raiseError =
    portErrors schema lines raiseError

/-- `validate_port` gives an error for a conflict and for nothing else, with the
addresses in conflict and all services that use one of them. -/
structure ReportsExactly (delegates : Dict String PortDelegate) (schema : String) (port : ℤ)
    (bindip : String) (whitelistNamespace : Option String) (raiseError : Bool) : Prop where
  refuses_iff :
    validatePort delegates schema port bindip whitelistNamespace raiseError ≠ .ok [] ↔
      ∃ ip attachment, Uses delegates whitelistNamespace port ip attachment ∧ Conflicts bindip ip
  addresses_iff : ∀ ip,
    (∃ lines, Reports delegates schema port bindip whitelistNamespace raiseError lines ∧
        ip ∈ lines.map PortLine.ip) ↔
      (∃ attachment, Uses delegates whitelistNamespace port ip attachment) ∧ Conflicts bindip ip
  names_all : ∀ ip attachment, Uses delegates whitelistNamespace port ip attachment →
      Conflicts bindip ip →
    ∃ lines, Reports delegates schema port bindip whitelistNamespace raiseError lines ∧
      attachment.title ∈ lines.map PortLine.title

def lastUser (delegates : Dict String PortDelegate)
    (whitelistNamespace : Option String) (port : ℤ) (ip : String) :
    Option PortsInUse :=
  (whitelisted whitelistNamespace (getInUse delegates)).reverse.find?
    fun attachment => (ip, port) ∈ attachment.ports

/-- Each service with a conflicting address has the title of the last user of
one. -/
def LastUsersCover (delegates : Dict String PortDelegate) (port : ℤ)
    (bindip : String) (whitelistNamespace : Option String) : Prop :=
  ∀ ip attachment, Uses delegates whitelistNamespace port ip attachment → Conflicts bindip ip →
      ∃ other last, Conflicts bindip other ∧
        lastUser delegates whitelistNamespace port other = some last ∧
        last.title = attachment.title

variable {delegates : Dict String PortDelegate} {port : ℤ} {ip bindip : String}
  {whitelistNamespace : Option String}

theorem get?_recordPort (attachment : PortsInUse)
    (ports : Dict ℤ (Dict String PortsInUse)) (used : String × ℤ) :
    (((recordPort attachment ports used).get? port).getD Dict.empty).get? ip =
      if used = (ip, port) then some attachment
      else ((ports.get? port).getD Dict.empty).get? ip := by
  obtain ⟨usedIp, usedPort⟩ := used
  unfold recordPort
  rw [Dict.get?_set]
  by_cases hport : port = usedPort
  · subst usedPort
    rw [if_pos rfl, Option.getD_some, Dict.get?_set]
    by_cases hip : ip = usedIp
    · simp [hip]
    · have hne : ¬ usedIp = ip := fun heq => hip heq.symm
      simp [hip, hne]
  · have hne : ¬ usedPort = port := fun heq => hport heq.symm
    simp [hport, hne]

theorem get?_foldl_recordPort (attachment : PortsInUse)
    (used : List (String × ℤ)) (ports : Dict ℤ (Dict String PortsInUse)) :
    (((used.foldl (recordPort attachment) ports).get? port).getD Dict.empty).get? ip =
      if (ip, port) ∈ used then some attachment
      else ((ports.get? port).getD Dict.empty).get? ip := by
  induction used generalizing ports with
  | nil => simp
  | cons first rest ih =>
    rw [foldl_cons, ih, get?_recordPort]
    by_cases hrest : (ip, port) ∈ rest
    · simp [hrest]
    · by_cases hfirst : first = (ip, port)
      · simp [hfirst]
      · have hne : ¬ (ip, port) = first := fun heq => hfirst heq.symm
        simp [hrest, hfirst, hne]

theorem get?_foldl_attachments (attachments : List PortsInUse)
    (ports : Dict ℤ (Dict String PortsInUse)) :
    (((attachments.foldl (fun ports attachment =>
        attachment.ports.foldl (recordPort attachment) ports) ports).get?
          port).getD Dict.empty).get? ip =
      (attachments.reverse.find? fun attachment =>
        (ip, port) ∈ attachment.ports).or
        (((ports.get? port).getD Dict.empty).get? ip) := by
  induction attachments generalizing ports with
  | nil => simp
  | cons attachment rest ih =>
    rw [foldl_cons, ih, get?_foldl_recordPort, reverse_cons, find?_append, Option.or_assoc]
    by_cases hmem : (ip, port) ∈ attachment.ports <;> simp [hmem]

theorem portAttachment_get? : (portAttachment delegates whitelistNamespace port).get? ip =
    lastUser delegates whitelistNamespace port ip := by
  unfold portAttachment portsMapping lastUser
  rw [get?_foldl_attachments]
  simp

variable {attachment : PortsInUse}

theorem uses_iff : Uses delegates whitelistNamespace port ip attachment ↔
    attachment ∈ whitelisted whitelistNamespace (getInUse delegates) ∧
      (ip, port) ∈ attachment.ports := by
  unfold Uses whitelisted
  rw [mem_filter, decide_eq_true_iff, and_assoc]

theorem lastUser_uses (hlast : lastUser delegates whitelistNamespace port ip = some attachment) :
    Uses delegates whitelistNamespace port ip attachment := by
  have hmem := List.mem_reverse.mp (mem_of_find?_eq_some hlast)
  have hport := find?_some (p := fun other : PortsInUse => decide ((ip, port) ∈ other.ports)) hlast
  exact uses_iff.mpr ⟨hmem, of_decide_eq_true hport⟩

theorem exists_lastUser (huses : Uses delegates whitelistNamespace port ip attachment) :
    ∃ last, lastUser delegates whitelistNamespace port ip = some last := by
  obtain ⟨hmem, hport⟩ := uses_iff.mp huses
  apply Option.isSome_iff_exists.mp
  rw [lastUser, find?_isSome]
  exact ⟨attachment, List.mem_reverse.mpr hmem, decide_eq_true hport⟩

theorem mem_portAttachment_iff : ip ∈ portAttachment delegates whitelistNamespace port ↔
    ∃ attachment, Uses delegates whitelistNamespace port ip attachment := by
  rw [← Dict.get?_isSome_iff, portAttachment_get?, Option.isSome_iff_exists]
  constructor
  · rintro ⟨attachment, hlast⟩
    exact ⟨attachment, lastUser_uses hlast⟩
  · rintro ⟨attachment, huses⟩
    exact exists_lastUser huses

theorem getIpVersion_wildcardIp (version : IpVersion) :
    getIpVersion (wildcardIp version) = version := by
  cases version <;> decide

variable {attachments : Dict String PortsInUse}

theorem isFree_eq_false_iff : isFree attachments bindip = false ↔
    ∃ ip ∈ attachments, Conflicts bindip ip := by
  have hsplit : isFree attachments bindip = false ↔
      (∃ ip ∈ attachments, getIpVersion ip = getIpVersion bindip) ∧ (bindip ∈ attachments ∨
          wildcardIp (getIpVersion bindip) ∈ attachments ∨
            bindip = wildcardIp (getIpVersion bindip)) := by
    have hkeys : (attachments.keys.any fun ip =>
        decide (getIpVersion ip = getIpVersion bindip)) = true ↔
          ∃ ip ∈ attachments, getIpVersion ip = getIpVersion bindip := by
      rw [any_eq_true]
      simp only [decide_eq_true_eq]
      exact Iff.rfl
    rw [← hkeys]
    unfold isFree
    simp only [Bool.or_eq_false_iff, Bool.not_eq_false', Bool.and_eq_false_iff,
      decide_eq_false_iff_not, not_not, or_assoc]
  rw [hsplit]
  constructor
  · rintro ⟨⟨ip, hip, hversion⟩, hbind | hwildcard | hwild⟩
    · exact ⟨bindip, hbind, rfl, Or.inl rfl⟩
    · exact ⟨_, hwildcard, getIpVersion_wildcardIp _, Or.inr (Or.inr rfl)⟩
    · exact ⟨ip, hip, hversion, Or.inr (Or.inl hwild)⟩
  · rintro ⟨ip, hip, hversion, rfl | hwild | rfl⟩
    · exact ⟨⟨_, hip, rfl⟩, Or.inl hip⟩
    · exact ⟨⟨ip, hip, hversion⟩, Or.inr (Or.inr hwild)⟩
    · exact ⟨⟨_, hip, hversion⟩, Or.inr (Or.inl hip)⟩

theorem reported_iff_conflicts : (¬ getIpVersion ip ≠ getIpVersion bindip ∧
    (bindip = wildcardIp (getIpVersion bindip) ∨ ip = wildcardIp (getIpVersion bindip) ∨
        (bindip ≠ wildcardIp (getIpVersion bindip) ∧ ip = bindip))) ↔
    Conflicts bindip ip := by
  rw [ne_eq, not_not]
  apply and_congr_right'
  by_cases hwild : bindip = wildcardIp (getIpVersion bindip)
  · simp [← hwild]
  · simp only [hwild, false_or, ne_eq, not_false_eq_true, true_and]
    exact or_comm

theorem exists_line_iff {title : String} :
    (∃ line ∈ ipErrors attachments port bindip, line.ip = ip ∧
        line.title = title) ↔
      Conflicts bindip ip ∧
        ∃ attachment, attachments.get? ip = some attachment ∧
          attachment.title = title := by
  unfold ipErrors
  simp only [mem_filterMap]
  constructor
  · rintro ⟨line, ⟨⟨entry, index⟩, hentry, hline⟩, rfl, rfl⟩
    have hmem := mem_of_getElem? (List.mem_zipIdx_iff_getElem?.mp hentry)
    have hget := Dict.mem_entries_iff.mp hmem
    by_cases hversion : getIpVersion entry.1 ≠ getIpVersion bindip
    · simp [hversion] at hline
    · rw [if_neg hversion] at hline
      split at hline
      · next hconflict =>
          rw [← Option.some.inj hline]
          exact ⟨reported_iff_conflicts.mp ⟨hversion, hconflict⟩,
            entry.2, hget, rfl⟩
      · cases hline
  · rintro ⟨hconflicts, attachment, hget, rfl⟩
    obtain ⟨index, hindex⟩ :=
      getElem?_of_mem (Dict.mem_entries_iff.mpr hget)
    obtain ⟨hversion, hreported⟩ := reported_iff_conflicts.mpr hconflicts
    refine ⟨{ index := index + 1
              ip
              port
              title := attachment.title
              description := describe attachment ip bindip port },
      ⟨((ip, attachment), index),
        List.mem_zipIdx_iff_getElem?.mpr hindex, ?_⟩, rfl, rfl⟩
    rw [if_neg hversion, if_pos hreported]

/-! ## The report -/

theorem report_eq_some_iff {lines : List PortLine} :
    report delegates port bindip whitelistNamespace = some lines ↔
      (∃ ip attachment, Uses delegates whitelistNamespace port ip attachment ∧
        Conflicts bindip ip) ∧
      lines = ipErrors (portAttachment delegates whitelistNamespace port) port bindip := by
  have hfree : isFree (portAttachment delegates whitelistNamespace port) bindip = false ↔
        ∃ ip ∈ portAttachment delegates whitelistNamespace port,
          Conflicts bindip ip := isFree_eq_false_iff
  simp only [mem_portAttachment_iff] at hfree
  have hconflict : isFree (portAttachment delegates whitelistNamespace port)
      bindip = false ↔ ∃ ip attachment, Uses delegates whitelistNamespace port ip attachment ∧
          Conflicts bindip ip := by
    rw [hfree]
    constructor
    · rintro ⟨ip, ⟨attachment, huses⟩, hconflicts⟩
      exact ⟨ip, attachment, huses, hconflicts⟩
    · rintro ⟨ip, attachment, huses, hconflicts⟩
      exact ⟨ip, ⟨attachment, huses⟩, hconflicts⟩
  rw [← hconflict]
  unfold report
  dsimp only
  split
  · next hfree => simp [hfree]
  · next hused =>
      rw [Bool.not_eq_true] at hused
      rw [Option.some.injEq, eq_comm]
      exact (and_iff_right hused).symm

theorem exists_reported_iff {title : String} :
    (∃ lines, report delegates port bindip whitelistNamespace = some lines ∧
        ∃ line ∈ lines, line.ip = ip ∧ line.title = title) ↔
      Conflicts bindip ip ∧ ∃ last, lastUser delegates whitelistNamespace port ip = some last ∧
          last.title = title := by
  simp only [report_eq_some_iff]
  constructor
  · rintro ⟨lines, ⟨_, rfl⟩, hline⟩
    rw [exists_line_iff] at hline
    simpa only [portAttachment_get?] using hline
  · rintro ⟨hconflicts, last, hlast, htitle⟩
    refine ⟨_, ⟨⟨ip, last, lastUser_uses hlast, hconflicts⟩, rfl⟩, ?_⟩
    rw [exists_line_iff, portAttachment_get?]
    exact ⟨hconflicts, last, hlast, htitle⟩

theorem report_ne_none_iff : report delegates port bindip whitelistNamespace ≠ none ↔
    ∃ ip attachment, Uses delegates whitelistNamespace port ip attachment ∧
      Conflicts bindip ip := by
  rw [Option.ne_none_iff_exists']
  constructor
  · rintro ⟨lines, hlines⟩
    exact (report_eq_some_iff.mp hlines).1
  · intro hconflict
    exact ⟨_, report_eq_some_iff.mpr ⟨hconflict, rfl⟩⟩

theorem reported_ip_iff (ip : String) :
    (∃ lines, report delegates port bindip whitelistNamespace = some lines ∧
        ip ∈ lines.map PortLine.ip) ↔
      (∃ attachment, Uses delegates whitelistNamespace port ip attachment) ∧
        Conflicts bindip ip := by
  constructor
  · rintro ⟨lines, hlines, hmem⟩
    obtain ⟨line, hline, hip⟩ := mem_map.mp hmem
    obtain ⟨hconflicts, last, hlast, _⟩ :=
      exists_reported_iff.mp ⟨lines, hlines, line, hline, hip, rfl⟩
    exact ⟨⟨last, lastUser_uses hlast⟩, hconflicts⟩
  · rintro ⟨⟨attachment, huses⟩, hconflicts⟩
    obtain ⟨last, hlast⟩ := exists_lastUser huses
    obtain ⟨lines, hlines, line, hline, hip, _⟩ :=
      exists_reported_iff.mpr ⟨hconflicts, last, hlast, rfl⟩
    exact ⟨lines, hlines, mem_map.mpr ⟨line, hline, hip⟩⟩

theorem reported_title_iff (title : String) :
    (∃ lines, report delegates port bindip whitelistNamespace = some lines ∧
        title ∈ lines.map PortLine.title) ↔
      ∃ ip last, Conflicts bindip ip ∧ lastUser delegates whitelistNamespace port ip = some last ∧
        last.title = title := by
  constructor
  · rintro ⟨lines, hlines, hmem⟩
    obtain ⟨line, hline, htitle⟩ := mem_map.mp hmem
    obtain ⟨hconflicts, last, hlast, hsame⟩ :=
      exists_reported_iff.mp ⟨lines, hlines, line, hline, rfl, htitle⟩
    exact ⟨line.ip, last, hconflicts, hlast, hsame⟩
  · rintro ⟨ip, last, hconflicts, hlast, htitle⟩
    obtain ⟨lines, hlines, line, hline, _, hsame⟩ :=
      exists_reported_iff.mpr ⟨hconflicts, last, hlast, htitle⟩
    exact ⟨lines, hlines, mem_map.mpr ⟨line, hline, hsame⟩⟩

theorem reports_iff {schema : String} {raiseError : Bool} {lines : List PortLine} :
    Reports delegates schema port bindip whitelistNamespace raiseError lines ↔
      report delegates port bindip whitelistNamespace = some lines := by
  constructor
  · exact Reports.found
  · intro hfound
    exact ⟨hfound, by rw [validatePort, hfound]⟩

theorem validatePort_ne_ok_nil_iff (schema : String) (raiseError : Bool) :
    validatePort delegates schema port bindip whitelistNamespace raiseError ≠ .ok [] ↔
      report delegates port bindip whitelistNamespace ≠ none := by
  unfold validatePort
  cases report delegates port bindip whitelistNamespace with
  | none => simp
  | some lines => cases raiseError <;> simp [portErrors]

/-- The report is exact where no service is hidden behind the last user of its
addresses. -/
theorem reportsExactly_iff (delegates : Dict String PortDelegate) (schema : String) (port : ℤ)
    (bindip : String) (whitelistNamespace : Option String) (raiseError : Bool) :
    ReportsExactly delegates schema port bindip whitelistNamespace raiseError ↔
      LastUsersCover delegates port bindip whitelistNamespace := by
  constructor
  · intro hexact ip attachment huses hconflicts
    obtain ⟨lines, hlines, hnamed⟩ := hexact.names_all ip attachment huses hconflicts
    exact (reported_title_iff _).mp ⟨lines, hlines.found, hnamed⟩
  · intro hcover
    refine ⟨(validatePort_ne_ok_nil_iff schema raiseError).trans report_ne_none_iff, ?_, ?_⟩
    · simpa only [reports_iff] using reported_ip_iff
    · intro ip attachment huses hconflicts
      simpa only [reports_iff] using
        (reported_title_iff _).mpr (hcover ip attachment huses hconflicts)

def webAndShell : Dict String PortDelegate :=
  Dict.ofEntries [("system.general",
      ⟨"system.general", "WebUI Service", [{ ports := [("0.0.0.0", 80)] }]⟩),
     ("ssh", ⟨"ssh", "SSH Service", [{ ports := [("10.0.0.1", 22)] }]⟩)]

theorem reportsExactly_iff_shell :
    ReportsExactly webAndShell "ssh_update.tcpport" 22 "0.0.0.0" none true := by
  refine (reportsExactly_iff webAndShell "ssh_update.tcpport" 22 "0.0.0.0" none true).mpr ?_
  intro ip attachment huses hconflicts
  obtain ⟨last, hlast⟩ := exists_lastUser huses
  have hsame : attachment = last := by
    have hlastUses := lastUser_uses hlast
    have hall : ∀ user ∈ getInUse webAndShell, ∀ other ∈ getInUse webAndShell,
        22 ∈ user.ports.map Prod.snd → 22 ∈ other.ports.map Prod.snd →
          user = other := by
      decide
    exact hall attachment huses.1 last hlastUses.1
      (mem_map_of_mem (f := Prod.snd) huses.2.2)
      (mem_map_of_mem (f := Prod.snd) hlastUses.2.2)
  exact ⟨ip, last, hconflicts, hlast, hsame ▸ rfl⟩

/-- Of two services on one address only the later one is named. -/
theorem report_hides_service :
    ¬ ∀ (delegates : Dict String PortDelegate) (schema : String) (port : ℤ) (bindip : String)
      (whitelistNamespace : Option String) (raiseError : Bool),
      ReportsExactly delegates schema port bindip whitelistNamespace raiseError := by
  intro hall
  have hexact := hall
    (Dict.ofEntries
      [("nfs", ⟨"nfs", "NFS Service", [{ ports := [("0.0.0.0", 618)] }]⟩),
       ("s3", ⟨"s3", "S3 Service", [{ ports := [("0.0.0.0", 618)] }]⟩)])
    "schema" 618 "0.0.0.0" none true
  obtain ⟨lines, ⟨hlines, _⟩, hnamed⟩ := hexact.names_all "0.0.0.0"
    ⟨"nfs", "NFS Service", [("0.0.0.0", 618)], [{ ports := [("0.0.0.0", 618)] }]⟩
    ⟨by decide, by decide, by decide⟩ (by decide)
  have hreport : report
      (Dict.ofEntries
        [("nfs", ⟨"nfs", "NFS Service", [{ ports := [("0.0.0.0", 618)] }]⟩),
         ("s3", ⟨"s3", "S3 Service", [{ ports := [("0.0.0.0", 618)] }]⟩)])
      618 "0.0.0.0" none =
        some [⟨1, "0.0.0.0", 618, "S3 Service", none⟩] := by
    decide
  rw [hreport, Option.some.injEq] at hlines
  rw [← hlines] at hnamed
  revert hnamed
  decide

end PortService

end Middlewared
