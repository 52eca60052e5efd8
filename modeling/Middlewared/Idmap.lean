import Middlewared.Dict
import Mathlib.Data.Int.Notation

/-!
# Idmap domains

The rows of `directoryservice.idmap_domain`.
-/

namespace Middlewared

/-- What a parameter of `smb4.conf` is set to. -/
inductive SmbConfValue where
  | bool (value : Bool)
  | int (value : ℤ)
  | str (value : String)
  | list (value : List String)
deriving DecidableEq

inductive IdmapBackend where
  | ad
  | autorid
  | ldap
  | nss
  | rfc2307
  | rid
  | tdb
deriving DecidableEq

namespace IdmapBackend

/-- `idmap_backend.lower()`. -/
def lowerName : IdmapBackend → String
  | .ad => "ad"
  | .autorid => "autorid"
  | .ldap => "ldap"
  | .nss => "nss"
  | .rfc2307 => "rfc2307"
  | .rid => "rid"
  | .tdb => "tdb"

end IdmapBackend

structure IdmapDomain where
  id : ℕ
  name : String
  dnsDomainName : Option String
  (rangeLow rangeHigh : ℤ)
  idmapBackend : IdmapBackend
  options : Dict String SmbConfValue
  certificate : Option ℕ

end Middlewared
