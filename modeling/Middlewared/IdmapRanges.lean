import Middlewared.IdmapService
import Middlewared.SmbConf

/-!
# The ranges of idmap domains

Samba takes both ends of a range as part of it, and the check takes the upper
end as outside.  Two ranges that pass it have at most one end in common.
-/

namespace Middlewared

open IdmapService List TransitionSystem

variable {host : IdmapHost} {rows next : List IdmapDomain}

def MayShare (first second : IdmapDomain) : Prop :=
  (first.idmapBackend = .ad ∧ second.idmapBackend = .ad) ∨
  (first.idmapBackend = .autorid ∧ second.name = "DS_TYPE_DEFAULT_DOMAIN") ∨
  (second.idmapBackend = .autorid ∧ first.name = "DS_TYPE_DEFAULT_DOMAIN")

def MustDiffer (first second : IdmapDomain) : Prop :=
  first.id ≠ second.id ∧ first.name ≠ "DS_TYPE_LDAP" ∧
    second.name ≠ "DS_TYPE_LDAP" ∧ ¬MayShare first second

def Apart (first second : IdmapDomain) : Prop :=
  first.rangeHigh < second.rangeLow ∨ second.rangeHigh < first.rangeLow

def RangesApart (rows : List IdmapDomain) : Prop :=
  ∀ first ∈ rows, ∀ second ∈ rows, MustDiffer first second → Apart first second

/-- The range of the domain is written to `smb4.conf`. -/
def WritesRange (dsConfig : DsConfig) (workgroup : String)
    (rows : List IdmapDomain) (i : IdmapDomain) : Prop :=
  ∃ adIdmap domain, findAdIdmap dsConfig rows = .ok adIdmap ∧
    idmapConfigDomain dsConfig workgroup adIdmap i = some domain

/-- No two of the ranges in `smb4.conf` have an id in common, but for those of
domains that may share ids. -/
def WrittenApart (rows : List IdmapDomain) : Prop :=
  ∀ dsConfig workgroup, ∀ first ∈ rows, ∀ second ∈ rows, WritesRange dsConfig workgroup rows first →
    WritesRange dsConfig workgroup rows second →
    first.id ≠ second.id → ¬MayShare first second → Apart first second

def AdHealthy (host : IdmapHost) : Prop :=
  host.dsStatus = (some .activeDirectory, .healthy)

def Touches (first second : IdmapDomain) : Prop :=
  first.rangeLow = second.rangeHigh ∨ first.rangeHigh = second.rangeLow

/-- The range that the call gives a domain does not touch that of another. -/
def NotTouching (rows : List IdmapDomain) (call : IdmapHost × IdmapCall) :
    Prop :=
  match call.2 with
  | .create data => ∀ new ∈ (createdDomain call.1 rows data).toOption,
      ∀ i ∈ rows, MustDiffer new i → ¬Touches new i
  | .update id data => ∀ old ∈ rows, old.id = id →
      ∀ new ∈ (updatedDomain call.1 old (old.update data)).toOption,
        ∀ i ∈ rows, MustDiffer new i → ¬Touches new i

instance (first second : IdmapDomain) : Decidable (MayShare first second) := by
  unfold MayShare
  infer_instance

instance (first second : IdmapDomain) : Decidable (MustDiffer first second) := by
  unfold MustDiffer
  infer_instance

instance (first second : IdmapDomain) : Decidable (Apart first second) := by
  unfold Apart
  infer_instance

instance (first second : IdmapDomain) : Decidable (Touches first second) := by
  unfold Touches
  infer_instance

instance (call : IdmapHost × IdmapCall) : Decidable (NotTouching rows call) := by
  unfold NotTouching
  split <;> infer_instance

theorem MustDiffer.symm {first second : IdmapDomain}
    (hdiffer : MustDiffer first second) : MustDiffer second first := by
  obtain ⟨hid, hfirst, hsecond, hshare⟩ := hdiffer
  refine ⟨hid.symm, hsecond, hfirst, ?_⟩
  unfold MayShare at hshare ⊢
  tauto

theorem Apart.symm {first second : IdmapDomain} (hapart : Apart first second) :
    Apart second first :=
  Or.symm hapart

theorem rangeEnds_eq_ok_iff {low high : ℤ} {ends : ℤ × ℤ} :
    rangeEnds low high = .ok ends ↔ low < high ∧ ends = (low, high - 1) := by
  unfold rangeEnds
  split <;> simp [*, eq_comm]

variable {data i : IdmapDomain} {schemaName : String} {id : Option ℕ}

theorem compareDomain_eq_nil (hnil : compareDomain host schemaName id data i = .ok [])
    (hid : some i.id ≠ id) (hoverlap : mayOverlap host data i = false) :
    i.rangeLow < i.rangeHigh ∧ data.rangeLow < data.rangeHigh ∧
      (i.rangeHigh ≤ data.rangeLow ∨ data.rangeHigh ≤ i.rangeLow) := by
  unfold compareDomain at hnil
  rw [if_neg hid] at hnil
  simp only [hoverlap, Bool.false_eq_true, if_false] at hnil
  obtain ⟨existingRange, hexisting, hnil⟩ := bind_eq_ok_iff.mp hnil
  obtain ⟨newRange, hnew, hnil⟩ := bind_eq_ok_iff.mp hnil
  have hempty := Except.ok.inj hnil
  rw [rangeEnds_eq_ok_iff] at hexisting hnew
  simp only [append_eq_nil_iff, errorIf_eq_nil_iff,
    decide_eq_false_iff_not, hexisting.2, hnew.2] at hempty
  omega

theorem exists_compareDomain_eq_ok_iff :
    (∃ errors, compareDomain host schemaName id data i = .ok errors) ↔
      (some i.id ≠ id → mayOverlap host data i = false →
        i.rangeLow < i.rangeHigh ∧ data.rangeLow < data.rangeHigh) := by
  unfold compareDomain
  split
  · simp [*]
  · rename_i hid
    cases hoverlap : mayOverlap host data i with
    | true => simp
    | false =>
      simp only [Bool.false_eq_true, if_false, bind_eq_ok_iff, rangeEnds_eq_ok_iff]
      constructor
      · rintro ⟨errors, existing, hexisting, new, hnew, _⟩ _ _
        exact ⟨hexisting.1, hnew.1⟩
      · intro hboth
        obtain ⟨hexisting, hnew⟩ := hboth hid trivial
        exact ⟨_, _, ⟨hexisting, rfl⟩, _, ⟨hnew, rfl⟩, rfl⟩

theorem exists_validate_eq_ok_iff : (∃ errors, validate host rows schemaName id data = .ok errors) ↔
    (data.rangeLow ≤ data.rangeHigh → ∀ i ∈ rows, some i.id ≠ id →
      mayOverlap host data i = false →
        i.rangeLow < i.rangeHigh ∧ data.rangeLow < data.rangeHigh) := by
  unfold validate
  split
  · rename_i hlt
    have hnot : ¬data.rangeLow ≤ data.rangeHigh := by omega
    simp [hnot]
  · rename_i hle
    simp only [Int.not_lt.mp hle, true_implies]
    constructor
    · rintro ⟨errors, hvalidate⟩ i hi
      obtain ⟨compared, hcompared, _⟩ := bind_eq_ok_iff.mp hvalidate
      obtain ⟨found, _, hfound⟩ := exists_mem_mapM_results hcompared hi
      exact exists_compareDomain_eq_ok_iff.mp ⟨found, hfound⟩
    · intro hall
      obtain ⟨compared, hcompared⟩ := exists_mapM_eq_ok
        fun i hi => exists_compareDomain_eq_ok_iff.mpr (hall i hi)
      exact ⟨_, bind_eq_ok_iff.mpr ⟨compared, hcompared, rfl⟩⟩

theorem compareDomain_of_validate
    (hnil : validate host rows schemaName id data = .ok []) (hi : i ∈ rows) :
    compareDomain host schemaName id data i = .ok [] := by
  unfold validate at hnil
  split at hnil
  · simp at hnil
  · obtain ⟨compared, hcompared, hnil⟩ := bind_eq_ok_iff.mp hnil
    have hempty := Except.ok.inj hnil
    rw [append_eq_nil_iff, flatten_eq_nil_iff] at hempty
    obtain ⟨found, hfound, heq⟩ := exists_mem_mapM_results hcompared hi
    rw [heq, hempty.2 found hfound]

theorem mayOverlap_eq_false (hhealthy : AdHealthy host)
    (hdiffer : MustDiffer data i) : mayOverlap host data i = false := by
  obtain ⟨_, _, hldap, hshare⟩ := hdiffer
  unfold MayShare at hshare
  unfold mayOverlap ldapEnabled adEnabled
  rw [hhealthy]
  simp only [not_or, not_and] at hshare
  simp [hldap]
  exact ⟨hshare.2.1, hshare.1⟩

theorem apart_of_validate (hhealthy : AdHealthy host)
    (hnil : validate host rows schemaName id data = .ok []) (hi : i ∈ rows)
    (hid : some i.id ≠ id) (hdiffer : MustDiffer data i)
    (htouch : ¬Touches data i) : Apart data i := by
  have hranges := compareDomain_eq_nil (compareDomain_of_validate hnil hi) hid
    (mayOverlap_eq_false hhealthy hdiffer)
  unfold Touches at htouch
  unfold Apart
  omega

/-! ## What is stored -/

theorem checkIdmapErrors_eq_ok_iff {errors : List VerrorEntry} :
    checkIdmapErrors errors = .ok () ↔ errors = [] := by
  unfold checkIdmapErrors
  split <;> simp [*]

theorem storeSecret_eq_ok {stored : IdmapDomain} (hstore : storeSecret host data = .ok stored) :
    ∃ options, stored = { data with options } := by
  unfold storeSecret at hstore
  split at hstore
  · obtain ⟨_, _, hstore⟩ := bind_eq_ok_iff.mp hstore
    exact ⟨_, (Except.ok.inj hstore).symm⟩
  · exact ⟨data.options, (Except.ok.inj hstore).symm⟩

theorem IdmapService.doCreate_eq_ok (hcreate : doCreate host rows data = .ok next) :
    ∃ new options, createdDomain host rows data = .ok new ∧
      validate host rows "idmap_domain_create" none new = .ok [] ∧
      next = rows ++ [{ new with options }] := by
  obtain ⟨new, hnew, hcreate⟩ := bind_eq_ok_iff.mp hcreate
  obtain ⟨errors, hvalidate, hcreate⟩ := bind_eq_ok_iff.mp hcreate
  obtain ⟨_, hcheck, hcreate⟩ := bind_eq_ok_iff.mp hcreate
  obtain ⟨stored, hstored, hcreate⟩ := bind_eq_ok_iff.mp hcreate
  obtain ⟨_, _, hcreate⟩ := bind_eq_ok_iff.mp hcreate
  rw [checkIdmapErrors_eq_ok_iff] at hcheck
  simp only [append_eq_nil_iff] at hcheck
  rw [hcheck.1.1.2] at hvalidate
  obtain ⟨options, heq⟩ := storeSecret_eq_ok hstored
  split at hcreate
  · cases hcreate
  · rw [← Except.ok.inj hcreate, heq]
    exact ⟨new, _, hnew, hvalidate, rfl⟩

theorem IdmapService.doUpdate_eq_ok {id : ℕ} {data : IdmapDomainUpdate}
    (hupdate : doUpdate host rows id data = .ok next) :
    ∃ old ∈ rows, ∃ new options, old.id = id ∧ updatedDomain host old (old.update data) = .ok new ∧
      validate host rows "idmap_domain_update" (some id) new = .ok [] ∧
      next = rows.map fun row =>
        if row.id = id then { new with options } else row := by
  unfold doUpdate at hupdate
  split at hupdate
  · cases hupdate
  · rename_i old hfind
    obtain ⟨new, hnew, hupdate⟩ := bind_eq_ok_iff.mp hupdate
    obtain ⟨errors, hvalidate, hupdate⟩ := bind_eq_ok_iff.mp hupdate
    obtain ⟨_, hcheck, hupdate⟩ := bind_eq_ok_iff.mp hupdate
    obtain ⟨stored, hstored, hupdate⟩ := bind_eq_ok_iff.mp hupdate
    obtain ⟨_, _, hupdate⟩ := bind_eq_ok_iff.mp hupdate
    rw [checkIdmapErrors_eq_ok_iff] at hcheck
    simp only [append_eq_nil_iff] at hcheck
    rw [hcheck.1.1.2] at hvalidate
    obtain ⟨options, heq⟩ := storeSecret_eq_ok hstored
    have hid : old.id = id := by
      simpa using find?_some hfind
    refine ⟨old, mem_of_find?_eq_some hfind, new, options, hid, hnew, hvalidate, ?_⟩
    rw [← Except.ok.inj hupdate, heq]

theorem updatedDomain_id {old new : IdmapDomain} {data : IdmapDomainUpdate}
    (hnew : updatedDomain host old (old.update data) = .ok new) :
    new.id = old.id := by
  unfold updatedDomain at hnew
  split at hnew
  · split at hnew
    · cases hnew
    · obtain ⟨_, _, hnew⟩ := bind_eq_ok_iff.mp hnew
      rw [← Except.ok.inj hnew]
      rfl
  · rw [← Except.ok.inj hnew]
    rfl

namespace RangesApart

theorem of_stored (hrows : RangesApart rows) (new : IdmapDomain)
    (hnew : ∀ i ∈ rows, MustDiffer new i → Apart new i)
    (hnext : ∀ row ∈ next, row ∈ rows ∨
      ∃ options, row = { new with options }) : RangesApart next := by
  intro first hfirst second hsecond hdiffer
  rcases hnext first hfirst with hfirst | ⟨_, rfl⟩ <;>
    rcases hnext second hsecond with hsecond | ⟨_, rfl⟩
  · exact hrows first hfirst second hsecond hdiffer
  · exact (hnew first hfirst hdiffer.symm).symm
  · exact hnew second hsecond hdiffer
  · exact absurd rfl hdiffer.1

theorem step {call : IdmapHost × IdmapCall} (hrows : RangesApart rows)
    (hcall : AdHealthy call.1 ∧ NotTouching rows call)
    (hstep : IdmapService.step rows call = some next) : RangesApart next := by
  obtain ⟨host, call⟩ := call
  obtain ⟨hhealthy, htouch⟩ := hcall
  have hperform := toOption_eq_some_iff.mp hstep
  cases call with
  | create data =>
    obtain ⟨new, options, hnew, hvalidate, hnext⟩ := doCreate_eq_ok hperform
    apply hrows.of_stored new
    · intro i hi hdiffer
      have hapart := htouch new (toOption_eq_some_iff.mpr hnew) i hi hdiffer
      exact apart_of_validate hhealthy hvalidate hi (by simp) hdiffer hapart
    · intro row hrow
      rw [hnext, mem_append, mem_singleton] at hrow
      exact hrow.imp_right fun heq => ⟨options, heq⟩
  | update id data =>
    obtain ⟨old, hold, new, options, hid, hnew, hvalidate, hnext⟩ := doUpdate_eq_ok hperform
    apply hrows.of_stored new
    · intro i hi hdiffer
      have hapart := htouch old hold hid new (toOption_eq_some_iff.mpr hnew) i hi hdiffer
      have hne : some i.id ≠ some id := by
        rw [← hid, ← updatedDomain_id hnew]
        exact fun heq => hdiffer.1 (Option.some.inj heq).symm
      exact apart_of_validate hhealthy hvalidate hi hne hdiffer hapart
    · intro row hrow
      rw [hnext] at hrow
      obtain ⟨before, hbefore, rfl⟩ := mem_map.mp hrow
      split
      · exact Or.inr ⟨options, rfl⟩
      · exact Or.inl hbefore

theorem writtenApart (hrows : RangesApart rows) : WrittenApart rows := by
  have hname : ∀ dsConfig workgroup i, WritesRange dsConfig workgroup rows i →
      i.name ≠ "DS_TYPE_LDAP" := by
    rintro dsConfig workgroup i ⟨adIdmap, domain, _, hdomain⟩ hldap
    unfold idmapConfigDomain at hdomain
    simp [hldap] at hdomain
  intro dsConfig workgroup first hfirst second hsecond hwrites hother hid hshare
  exact hrows first hfirst second hsecond ⟨hid, hname _ _ _ hwrites, hname _ _ _ hother, hshare⟩

end RangesApart

/-- Ranges that are apart stay so in every run in which no new range touches
another, and validation raises nothing of its own exactly when no range that it
looks at is empty without its upper end. -/
theorem writtenApart_of_notTouching {start final : List IdmapDomain}
    {calls : List (IdmapHost × IdmapCall)} (hstart : RangesApart start)
    (hrun : IdmapService.run start calls = some final)
    (hhealthy : ∀ call ∈ calls, AdHealthy call.1)
    (htouch : EveryStep IdmapService.step NotTouching start calls) :
    WrittenApart final ∧ ∀ host rows schemaName id data,
        (∃ errors, validate host rows schemaName id data = .ok errors) ↔
          (data.rangeLow ≤ data.rangeHigh → ∀ i ∈ rows, some i.id ≠ id →
            mayOverlap host data i = false →
              i.rangeLow < i.rangeHigh ∧ data.rangeLow < data.rangeHigh) := by
  have hevery : EveryStep IdmapService.step
      (fun _ call => AdHealthy call.1) start calls :=
    everyStep_of_forall_mem fun _ => hhealthy
  have hfinal := run_invariant_of_everyStep
    (fun rows call next hrows hcall hstep =>
      RangesApart.step hrows hcall hstep) hstart (hevery.and htouch) hrun
  refine ⟨hfinal.writtenApart, ?_⟩
  intro host rows schemaName id data
  exact exists_validate_eq_ok_iff

def healthyHost : IdmapHost where
  dsStatus := (some .activeDirectory, .healthy)
  adState := true
  certificateFound := fun _ => false
  domainSid := fun _ => .error .callError
  murmurhash3 := fun _ => 0
  setLdapIdmapSecret := fun _ => .ok ()

def ridDomain (id : ℕ) (name : String) (rangeLow rangeHigh : ℤ) :
    IdmapDomain where
  id := id
  name := name
  dnsDomainName := none
  rangeLow := rangeLow
  rangeHigh := rangeHigh
  idmapBackend := .rid
  options := Dict.empty
  certificate := none

def adDomains : List IdmapDomain :=
  [ridDomain 1 "DS_TYPE_ACTIVEDIRECTORY" 100000001 200000000]

def trustConfig : ActiveDirectoryConfig where
  useDefaultDomain := false
  allowTrustedDoms := true
  domainname := "britain.example"
  nssInfo := "TEMPLATE"
  disableFreenasCache := false

def trustCalls (rangeLow : ℤ) : List (IdmapHost × IdmapCall) :=
  [(healthyHost, .create (ridDomain 2 "ENGLAND" 200000001 300000000)),
    (healthyHost, .create (ridDomain 3 "WALES" 500000000 600000000)),
    (healthyHost, .update 3 { rangeLow := some rangeLow, rangeHigh := some 400000000 })]

theorem rangesApart_adDomains : RangesApart adDomains := by
  intro first hfirst second hsecond hdiffer
  simp only [adDomains, mem_singleton] at hfirst hsecond
  rw [hfirst, hsecond] at hdiffer
  exact absurd rfl hdiffer.1

theorem adHealthy_trustCalls (rangeLow : ℤ) : ∀ call ∈ trustCalls rangeLow, AdHealthy call.1 := by
  intro call hcall
  simp only [trustCalls, mem_cons, not_mem_nil, or_false] at hcall
  rcases hcall with rfl | rfl | rfl <;> rfl

theorem writtenApart_trustCalls :
    ∃ final, IdmapService.run adDomains (trustCalls 300000001) = some final ∧
      final.length = 3 ∧ WrittenApart final := by
  have hany : (IdmapService.run adDomains (trustCalls 300000001)).any
      (fun final => final.length = 3) = true := by
    decide +kernel
  obtain ⟨final, hfinal, hlength⟩ := (Option.any_eq_true _ _).mp hany
  have htouch : EveryStep IdmapService.step NotTouching adDomains
      (trustCalls 300000001) := by
    decide +kernel
  exact ⟨final, hfinal, of_decide_eq_true hlength,
    (writtenApart_of_notTouching rangesApart_adDomains hfinal (adHealthy_trustCalls _) htouch).1⟩

/-- Two ranges that meet in one id, and a range of one id that raises. -/
theorem shared_id_and_indexError : (∃ start calls final, RangesApart start ∧
      (∀ call ∈ calls, AdHealthy call.1) ∧
      IdmapService.run start calls = some final ∧ ¬WrittenApart final) ∧
    validate healthyHost adDomains "idmap_domain_create" none
      (ridDomain 2 "ENGLAND" 200000001 200000001) = .error .indexError := by
  constructor
  · have hany : (IdmapService.run adDomains (trustCalls 300000000)).any
        (fun final => decide (¬∀ adIdmap ∈ (findAdIdmap (.ad trustConfig) final).toOption,
          ∀ first ∈ final, ∀ second ∈ final, (idmapConfigDomain (.ad trustConfig) "BRITAIN" adIdmap
              first).isSome = true →
            (idmapConfigDomain (.ad trustConfig) "BRITAIN" adIdmap second).isSome = true →
            first.id ≠ second.id → ¬MayShare first second → Apart first second)) = true := by
      decide +kernel
    obtain ⟨final, hfinal, hshared⟩ := (Option.any_eq_true _ _).mp hany
    refine ⟨adDomains, trustCalls 300000000, final, rangesApart_adDomains,
      adHealthy_trustCalls _, hfinal, ?_⟩
    intro hwritten
    apply of_decide_eq_true hshared
    intro adIdmap hfind first hfirst second hsecond hwrites hother
    obtain ⟨_, hwrites⟩ := Option.isSome_iff_exists.mp hwrites
    obtain ⟨_, hother⟩ := Option.isSome_iff_exists.mp hother
    have hadIdmap := toOption_eq_some_iff.mp hfind
    exact hwritten _ _ first hfirst second hsecond ⟨_, _, hadIdmap, hwrites⟩
      ⟨_, _, hadIdmap, hother⟩
  · rfl

end Middlewared
