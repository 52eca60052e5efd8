import Middlewared.Dict
import Middlewared.ExceptRules
import Middlewared.PySplit

/-!
# Sections of `krb5.conf`

The parameters of `[libdefaults]` and `[appdefaults]`, which are given as a dictionary or as
auxiliary text, are checked against the tables of options.
-/

namespace Middlewared

inductive Krb5ConfSection where
  | libdefaults
  | realms
  | domainRealm
  | capaths
  | appdefaults
  | plugins

namespace Krb5ConfSection

def name : Krb5ConfSection → String
  | .libdefaults => "LIBDEFAULTS"
  | .realms => "REALMS"
  | .domainRealm => "DOMAIN_REALM"
  | .capaths => "CAPATHS"
  | .appdefaults => "APPDEFAULTS"
  | .plugins => "PLUGINS"

def lowerName : Krb5ConfSection → String
  | .libdefaults => "libdefaults"
  | .realms => "realms"
  | .domainRealm => "domain_realm"
  | .capaths => "capaths"
  | .appdefaults => "appdefaults"
  | .plugins => "plugins"

end Krb5ConfSection

inductive Krb5ParamType where
  | boolean
  | string
  | etypes
  | time
  | realm
  | ccname
  | number
  | boolan
  | address

def krbAppDefaults : List (String × Krb5ParamType) :=
  [("FORWARDABLE", .boolean), ("PROXIABLE", .boolean),
    ("NO_ADDRESSES", .boolean), ("TICKET_LIFETIME", .time),
    ("RENEW_LIFETIME", .time), ("ENCRYPT", .boolean), ("FORWARD", .boolean)]

def krbLibDefaults : List (String × Krb5ParamType) :=
  [("DEFAULT_REALM", .realm), ("CANONICALIZE", .boolean), ("CLOCKSKEW", .time),
    ("DEFAULT_CCACHE_NAME", .ccname), ("DEFAULT_TGS_ENCTYPES", .etypes),
    ("DEFAULT_TKT_ENCTYPES", .etypes), ("DNS_CANONICALIZE_HOSTNAME", .string),
    ("DNS_LOOKUP_KDC", .boolean), ("DNS_LOOKUP_REALM", .boolean),
    ("DNS_URI_LOOKUP", .boolean), ("KDC_TIMESYNC", .boolean),
    ("MAX_RETRIES", .number), ("TICKET_LIFETIME", .time),
    ("RENEW_LIFETIME", .time), ("FORWARDABLE", .boolean),
    ("QUALIFY_SHORTNAME", .string), ("PROXIABLE", .boolean),
    ("VERIFY_AP_REQ_NOFAIL", .boolean), ("PERMITTED_ENCTYPES", .etypes),
    ("NOADDRESSES", .boolan), ("EXTRA_ADDRESSES", .address), ("RDNS", .boolean),
    ("UDP_PREFERENCE_LIMIT", .number)]

def supportedEtypes : List String :=
  ["des-cbc-crc", "des-cbc-md5", "des3-cbc-sha1", "arcfour-hmac",
    "arcfour-hmac-md5", "aes128-cts-hmac-sha1-96", "aes256-cts-hmac-sha1-96",
    "aes128-cts-hmac-sha256-128", "aes256-cts-hmac-sha384-192",
    "camellia128-cts-cmac", "camellia256-cts-cmac", "aes", "camellia"]

inductive Krb5Value where
  | text (value : String)
  | number (value : ℤ)
  | list (value : List String)
deriving DecidableEq

inductive Krb5Entry where
  | value (value : Krb5Value)
  | dict (params : Dict String Krb5Value)

abbrev Krb5Config := Dict String Krb5Entry

inductive Krb5Error where
  | valueError (message : String)
  | typeError
  | attributeError
  | indexError

/-- The methods of `str` that depend on the tables of Unicode. -/
structure Krb5Text where
  upper : String → String
  isdigit : String → Bool
  upper_end : upper "\x7d" = "\x7d"

def Krb5Value.str : Krb5Value → String
  | .text value => value
  | .number value => toString value
  | .list value =>
    "[" ++ String.intercalate ", " (value.map PyString.repr) ++ "]"

def Krb5ConfSection.sectionEnum :
    Krb5ConfSection → Option (List (String × Krb5ParamType))
  | .appdefaults => some krbAppDefaults
  | .libdefaults => some krbLibDefaults
  | _ => none

def validateKrb5Type (rt : Krb5Text) (param : String) (value : Krb5Value) :
    Krb5ParamType → Except Krb5Error Unit
  | .boolean =>
    if value = .text "true" ∨ value = .text "false" then .ok ()
    else .error (.valueError (value.str ++ ": not a boolean value for parameter " ++ param))
  | .string =>
    match value with
    | .text _ => .ok ()
    | _ => .error (.valueError (value.str ++ ": not a string for parameter " ++ param))
  | .etypes =>
    match value with
    | .text text =>
      if ',' ∈ text.toList then
        .error (.valueError "enctypes should be space-delimited list")
      else (splitWords text).forM fun enctype =>
        if PyString.strip enctype ∈ supportedEtypes then .ok ()
        else .error (.valueError (enctype ++
          ": unsupported enctype specified for parameter " ++ param))
    | .number _ => .error .typeError
    | .list items =>
      if "," ∈ items then
        .error (.valueError "enctypes should be space-delimited list")
      else .error .attributeError
  | .time =>
    match value with
    | .text text =>
      if rt.isdigit text then .ok ()
      else .error (.valueError (text ++
        ": time must be expressed in seconds for parameter " ++ param))
    | .number _ => .ok ()
    | .list _ => .error (.valueError (value.str ++
        ": time must be expressed in seconds for parameter " ++ param))
  | _ => .ok ()

/-- `validate_krb5_parameter` of a value that is not a dictionary; `section` is
a word of the language. -/
def validateKrb5Parameter (rt : Krb5Text) (sect : Krb5ConfSection)
    (param : String) (value : Krb5Value) : Except Krb5Error Unit :=
  match sect.sectionEnum with
  | none => .error (.valueError ("KRB5ConfSection." ++ sect.name ++ ": unexpected section type"))
  | some sectionEnum =>
    match sectionEnum.lookup (rt.upper param) with
    | none => .error (.valueError (param ++ ": unsupported option for [" ++
        sect.lowerName ++ "] section"))
    | some paramType => validateKrb5Type rt param value paramType

def validateKrb5Entry (rt : Krb5Text) (sect : Krb5ConfSection)
    (param : String) : Krb5Entry → Except Krb5Error Unit
  | .value value => validateKrb5Parameter rt sect param value
  | .dict params => params.entries.forM fun entry =>
    validateKrb5Parameter rt sect entry.1 entry.2

open PyString

/-- `section_conf`, and the parameters of `target` with its name while it is a
part of `section_conf`. -/
structure Krb5ParseState where
  sectionConf : Krb5Config
  target : Option (String × Dict String Krb5Value) := none

namespace Krb5ParseState

def setTarget (s : Krb5ParseState) (param value : String) : Krb5ParseState :=
  match s.target with
  | none =>
    { s with sectionConf := s.sectionConf.set param (.value (.text value)) }
  | some (name, params) =>
    { sectionConf :=
        s.sectionConf.set name (.dict (params.set param (.text value)))
      target := some (name, params.set param (.text value)) }

/-- `section_conf[param] = {}`, which becomes the target. -/
def openSubsection (s : Krb5ParseState) (param : String) :
    Except Krb5Error Krb5ParseState :=
  match s.target with
  | some _ => .error (.valueError "Invalid nesting of parameters")
  | none => .ok
      { sectionConf := s.sectionConf.set param (.dict Dict.empty)
        target := some (param, Dict.empty) }

def closeSubsection (s : Krb5ParseState) : Krb5ParseState :=
  { s with target := none }

/-- The line after `entry = line.split('=')`. -/
def parseEntry (rt : Krb5Text) (sect : Krb5ConfSection) (s : Krb5ParseState)
    (entry : List String) : Except Krb5Error Krb5ParseState :=
  if entry.length < 1 then .ok s
  else if strip (entry.getLastD "") = "\x7b" then
    s.openSubsection (strip (entry.headD ""))
  else if strip (entry.headD "") = "\x7d" then .ok s.closeSubsection
  else
    match entry[1]? with
    | none => .error .indexError
    | some value => do
      validateKrb5Parameter rt sect (strip (entry.headD "")) (.text (strip value))
      return s.setTarget (strip (entry.headD "")) (strip value)

def parseLine (rt : Krb5Text) (sect : Krb5ConfSection) (s : Krb5ParseState)
    (line : String) : Except Krb5Error Krb5ParseState :=
  if strip line = "" then .ok s
  else s.parseEntry rt sect (splitAll '=' line)

end Krb5ParseState

/-- `section_conf` after the call. -/
def parseKrbAuxParams (rt : Krb5Text) (sect : Krb5ConfSection)
    (sectionConf : Krb5Config) (auxParams : String) :
    Except Krb5Error Krb5Config := do
  let s ← (splitlines auxParams).foldlM (Krb5ParseState.parseLine rt sect)
    { sectionConf }
  return s.sectionConf

/-- `__add_parameters`: what becomes of the section. -/
def addKrb5Parameters (rt : Krb5Text) (sect : Krb5ConfSection)
    (config : Krb5Config) (auxiliaryParameters : String) :
    Except Krb5Error Krb5Config := do
  config.entries.forM fun entry => validateKrb5Entry rt sect entry.1 entry.2
  let data ← if auxiliaryParameters = "" then .ok config
    else parseKrbAuxParams rt sect config auxiliaryParameters
  match sect with
  | .appdefaults | .libdefaults => return data
  | _ => .error (.valueError ("KRB5ConfSection." ++ sect.name ++ ": unexpected section type"))

/-- `__dump_a_parameter` of a value that is not a dictionary. -/
def dumpKrb5Value (parm : String) : Krb5Value → Option String
  | .text value => some ("\t" ++ parm ++ " = " ++ value ++ "\n")
  | .number value => some ("\t" ++ parm ++ " = " ++ toString value ++ "\n")
  | .list [] => none
  | .list value =>
    if parm ∈ ["kdc", "admin_server", "kpasswd_server"] then
      some (value.foldl (fun out srv =>
        out ++ ("\t" ++ parm ++ " = " ++ srv ++ "\n")) "")
    else
      some ("\t" ++ parm ++ " = " ++ String.intercalate " " value ++ "\n")

def dumpKrb5Params (out : String) (params : List (String × Krb5Value)) :
    String :=
  params.foldl (fun out entry =>
    match dumpKrb5Value entry.1 entry.2 with
    | none => out
    | some val => out ++ ("\t" ++ val)) out

/-- `__dump_a_parameter` -/
def dumpKrb5Parameter (parm : String) : Krb5Entry → Option String
  | .value value => dumpKrb5Value parm value
  | .dict params => some (dumpKrb5Params ("\t" ++ parm ++ " = \x7b\n") params.entries ++ "\t\x7d\n")

/-- The loop of `__generate_libdefaults` and `__generate_appdefaults`: a text
and `None` cannot be added. -/
def generateKrb5Params (kconf : String) (config : Krb5Config) :
    Except Krb5Error String :=
  config.entries.foldlM (fun kconf entry =>
    match dumpKrb5Parameter entry.1 entry.2 with
    | none => .error .typeError
    | some out => .ok (kconf ++ out)) kconf

/-- `__generate_libdefaults` and `__generate_appdefaults`. -/
def generateKrb5Section (sect : Krb5ConfSection) (config : Krb5Config) :
    Except Krb5Error String := do
  let kconf ← generateKrb5Params ("[" ++ sect.lowerName ++ "]\n") config
  return kconf ++ "\n"

inductive Krb5Entry.Same : Krb5Entry → Krb5Entry → Prop where
  | value (value : Krb5Value) : Same (.value value) (.value value)
  | dict {params other : Dict String Krb5Value}
      (hsame : ∀ param, params.get? param = other.get? param) :
      Same (.dict params) (.dict other)

def Krb5Config.Same (config other : Krb5Config) : Prop :=
  ∀ param, Option.Rel Krb5Entry.Same (config.get? param) (other.get? param)

/-- No other exception than `ValueError`. -/
def RaisesOnlyValueError {α : Type} (result : Except Krb5Error α) : Prop :=
  ∀ error, result = .error error → ∃ message, error = .valueError message

/-- The text of a section, without its first line, is read back as the
section. -/
def RoundTrips (rt : Krb5Text) (sect : Krb5ConfSection) (config : Krb5Config) :
    Prop :=
  ∃ body parsed, generateKrb5Section sect config = .ok ("[" ++ sect.lowerName ++ "]\n" ++ body) ∧
    parseKrbAuxParams rt sect Dict.empty body = .ok parsed ∧
    Krb5Config.Same parsed config

end Middlewared
