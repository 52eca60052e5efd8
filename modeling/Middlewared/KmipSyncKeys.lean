import Middlewared.KmipSync

/-!
# What KMIP synchronisation keeps

Each uid belongs to one row and is given to it once.
-/

namespace Middlewared

open Dict Function List Option

namespace KmipKeys

open TransitionSystem

variable {Key : Type*}

structure Unused (s : KmipKeys Key) (uid : ℕ) : Prop where
  row : ∀ id, ∀ row ∈ s.rows.get? id, row.kmipUid ≠ some uid
  read : ∀ r, ∀ run ∈ s.runs.get? r, ∀ entry ∈ run.rows, entry.2.kmipUid ≠ some uid

/-- The uid of a row as a run has read it: if it is still a row's, it is that
row's, and the key that the run has read with it is still there. -/
structure Read (s : KmipKeys Key) (entry : ℕ × KmipRow Key) (uid : ℕ) :
    Prop where
  lt : uid < s.nextUid
  row : ∀ id, ∀ row ∈ s.rows.get? id, row.kmipUid = some uid →
    id = entry.1 ∧ (entry.2.encryptionKey.isSome → row.encryptionKey.isSome)

structure Registered (s : KmipKeys Key) (r : ℕ) (uid : ℕ) (key : Key) :
    Prop where
  lt : uid < s.nextUid
  secret : s.secrets uid = some key
  unused : s.Unused uid
  only : ∀ q, ∀ other ∈ s.runs.get? q, ∀ k, other.stage = .registered uid k → q = r

structure Sound (s : KmipKeys Key) : Prop where
  latest : ∀ id, ∀ row ∈ s.rows.get? id, (s.latest id).isSome
  uidLt : ∀ id, ∀ row ∈ s.rows.get? id, ∀ uid ∈ row.kmipUid, uid < s.nextUid
  uidOwner : ∀ id, ∀ row ∈ s.rows.get? id, ∀ j, ∀ other ∈ s.rows.get? j,
    ∀ uid ∈ row.kmipUid, other.kmipUid = some uid → j = id
  uidKey : ∀ id, ∀ row ∈ s.rows.get? id, row.kmipUid.isSome →
    ∀ key ∈ row.encryptionKey, s.latest id = some key
  read : ∀ r, ∀ run ∈ s.runs.get? r, ∀ entry ∈ run.rows, ∀ uid ∈ entry.2.kmipUid, s.Read entry uid
  registered : ∀ r, ∀ run ∈ s.runs.get? r, ∀ uid key,
    run.stage = .registered uid key → s.Registered r uid key
  deleting : ∀ r, ∀ run ∈ s.runs.get? r, run.stage = .deleting →
    ∀ head ∈ run.rows.head?, ∀ uid ∈ head.2.kmipUid,
      ∀ id, ∀ row ∈ s.rows.get? id, row.kmipUid ≠ some uid

theorem sound_init : (init : KmipKeys Key).Sound where
  latest _ _ hrow := by cases hrow
  uidLt _ _ hrow := by cases hrow
  uidOwner _ _ hrow := by cases hrow
  uidKey _ _ hrow := by cases hrow
  read _ _ hrun := by cases hrun
  registered _ _ hrun := by cases hrun
  deleting _ _ hrun := by cases hrun

theorem safe_init : (init : KmipKeys Key).Safe := by
  intro id row hrow
  cases hrow

section

variable {s next : KmipKeys Key} {r : ℕ} {run run' : KmipRun Key}

theorem Sound.of_same (hsound : s.Sound) (hrows : next.rows = s.rows)
    (hlatest : next.latest = s.latest) (hsecrets : next.secrets = s.secrets)
    (huid : next.nextUid = s.nextUid) (hruns : next.runs = s.runs) :
    next.Sound := by
  cases s
  cases next
  subst hrows hlatest hsecrets huid hruns
  exact ⟨hsound.latest, hsound.uidLt, hsound.uidOwner, hsound.uidKey,
    fun r run hrun entry hentry uid huid =>
      let hread := hsound.read r run hrun entry hentry uid huid
      ⟨hread.lt, hread.row⟩,
    fun r run hrun uid key hstage =>
      let hregistered := hsound.registered r run hrun uid key hstage
      ⟨hregistered.lt, hregistered.secret,
        ⟨hregistered.unused.row, hregistered.unused.read⟩, hregistered.only⟩,
    hsound.deleting⟩

theorem Safe.of_same (hsafe : s.Safe) (hrows : next.rows = s.rows)
    (hlatest : next.latest = s.latest) (hsecrets : next.secrets = s.secrets) :
    next.Safe := by
  intro id row hrow key hkey
  rw [hrows] at hrow
  rw [hlatest] at hkey
  rcases hsafe id row hrow key hkey with hlocal | hremote
  · exact Or.inl hlocal
  · refine Or.inr ?_
    rw [hsecrets]
    exact hremote

theorem Sound.eraseRun (hsound : s.Sound) (r : ℕ) : Sound { s with runs := s.runs.erase r } := by
  have hold : ∀ q, ∀ other ∈ (s.runs.erase r).get? q, other ∈ s.runs.get? q := by
    intro q other hother
    rw [get?_erase] at hother
    split at hother
    · cases hother
    · exact hother
  refine { hsound with read := ?_, registered := ?_, deleting := ?_ }
  · intro q other hother entry hentry uid huid
    have hread := hsound.read q other (hold q other hother) entry hentry uid huid
    exact ⟨hread.lt, hread.row⟩
  · intro q other hother uid key hstage
    have hregistered := hsound.registered q other (hold q other hother) uid key hstage
    refine ⟨hregistered.lt, hregistered.secret, ⟨hregistered.unused.row, ?_⟩, ?_⟩
    · intro p another hanother
      exact hregistered.unused.read p another (hold p another hanother)
    · intro p another hanother
      exact hregistered.only p another (hold p another hanother)
  · intro q other hother
    exact hsound.deleting q other (hold q other hother)

theorem Sound.setRun (hsound : s.Sound)
    (hread : ∀ entry ∈ run'.rows, ∀ uid ∈ entry.2.kmipUid, s.Read entry uid)
    (hunused : ∀ q, ∀ other ∈ s.runs.get? q, ∀ uid key, other.stage = .registered uid key →
        ∀ entry ∈ run'.rows, entry.2.kmipUid ≠ some uid)
    (hregistered : ∀ uid key, run'.stage = .registered uid key → s.Registered r uid key ∧
        ∀ entry ∈ run'.rows, entry.2.kmipUid ≠ some uid)
    (hdeleting : run'.stage = .deleting → ∀ head ∈ run'.rows.head?, ∀ uid ∈ head.2.kmipUid,
        ∀ id, ∀ row ∈ s.rows.get? id, row.kmipUid ≠ some uid) :
    (s.setRun r run').Sound := by
  have hget : ∀ q, (s.setRun r run').runs.get? q = if q = r then some run' else s.runs.get? q :=
    fun q => get?_set s.runs r q run'
  refine { hsound with read := ?_, registered := ?_, deleting := ?_ }
  · intro q other hother entry hentry uid huid
    rw [hget] at hother
    split at hother
    · cases hother
      have hentryRead := hread entry hentry uid huid
      exact ⟨hentryRead.lt, hentryRead.row⟩
    · have hentryRead := hsound.read q other hother entry hentry uid huid
      exact ⟨hentryRead.lt, hentryRead.row⟩
  · intro q other hother uid key hstage
    rw [hget] at hother
    split at hother
    · rename_i hq
      cases hother
      subst hq
      have hnew := hregistered uid key hstage
      refine ⟨hnew.1.lt, hnew.1.secret, ⟨hnew.1.unused.row, ?_⟩, ?_⟩
      · intro p another hanother
        rw [hget] at hanother
        split at hanother
        · cases hanother
          exact hnew.2
        · exact hnew.1.unused.read p another hanother
      · intro p another hanother k hsame
        rw [hget] at hanother
        split at hanother
        · rename_i hp
          exact hp
        · exact hnew.1.only p another hanother k hsame
    · rename_i hq
      have hold := hsound.registered q other hother uid key hstage
      refine ⟨hold.lt, hold.secret, ⟨hold.unused.row, ?_⟩, ?_⟩
      · intro p another hanother
        rw [hget] at hanother
        split at hanother
        · cases hanother
          exact hunused q other hother uid key hstage
        · exact hold.unused.read p another hanother
      · intro p another hanother k hsame
        rw [hget] at hanother
        split at hanother
        · cases hanother
          have hnew := (hregistered uid k hsame).1
          exact absurd (hnew.only q other hother key hstage) hq
        · exact hold.only p another hanother k hsame
  · intro q other hother hstage
    rw [hget] at hother
    split at hother
    · cases hother
      exact hdeleting hstage
    · exact hsound.deleting q other hother hstage

theorem Sound.advance (hsound : s.Sound) (hrun : s.runs.get? r = some run)
    (hrows : ∀ entry ∈ run'.rows, entry ∈ run.rows)
    (hregistered : ∀ uid key, run'.stage ≠ .registered uid key)
    (hdeleting : run'.stage ≠ .deleting) : (s.setRun r run').Sound := by
  apply hsound.setRun
  · intro entry hentry
    exact hsound.read r run hrun entry (hrows entry hentry)
  · intro q other hother uid key hstage entry hentry
    have hold := hsound.registered q other hother uid key hstage
    exact hold.unused.read r run hrun entry (hrows entry hentry)
  · exact fun uid key hstage => absurd hstage (hregistered uid key)
  · exact fun hstage => absurd hstage hdeleting

end

section

variable {s : KmipKeys Key}

theorem Sound.destroy (hsound : s.Sound) {uid : Option ℕ}
    (hregistered : ∀ u ∈ uid, ∀ r, ∀ run ∈ s.runs.get? r, ∀ key,
      run.stage ≠ .registered u key) (outcome : DestroyOutcome) :
    (s.destroy uid outcome).Sound := by
  have hdestroyed : ∀ u ∈ uid, Sound { s with secrets := Function.update s.secrets u none } := by
    intro u hu
    refine { hsound with read := ?_, registered := ?_, deleting := ?_ }
    · intro r run hrun entry hentry v hv
      have hread := hsound.read r run hrun entry hentry v hv
      exact ⟨hread.lt, hread.row⟩
    · intro r run hrun v key hstage
      have hold := hsound.registered r run hrun v key hstage
      have hne : v ≠ u := by
        intro heq
        subst heq
        exact hregistered v hu r run hrun key hstage
      refine ⟨hold.lt, ?_, ⟨hold.unused.row, hold.unused.read⟩, hold.only⟩
      simpa [update_of_ne hne] using hold.secret
    · exact hsound.deleting
  cases uid with
  | none => cases outcome <;> exact hsound
  | some u =>
    cases outcome with
    | failed => exact hsound
    | destroyed => exact hdestroyed u rfl
    | unanswered => exact hdestroyed u rfl

theorem Safe.destroy (hsafe : s.Safe) (hsound : s.Sound) {uid : Option ℕ}
    (hkept : ∀ u ∈ uid, ∀ id, ∀ row ∈ s.rows.get? id, row.kmipUid = some u →
      row.encryptionKey.isSome) (outcome : DestroyOutcome) :
    (s.destroy uid outcome).Safe := by
  have hdestroyed : ∀ u ∈ uid, Safe { s with secrets := Function.update s.secrets u none } := by
    intro u hu id row hrow key hkey
    rcases hsafe id row hrow key hkey with hlocal | hremote
    · exact Or.inl hlocal
    · obtain ⟨v, hv, hsecret⟩ := hremote
      by_cases hvu : v = u
      · -- the row has its key beside the uid
        subst hvu
        have hsome := hkept v hu id row hrow hv
        obtain ⟨local_, hlocal⟩ := Option.isSome_iff_exists.mp hsome
        have huid : row.kmipUid.isSome := by
          rw [Option.mem_def.mp hv]
          rfl
        have hlatest := hsound.uidKey id row hrow huid local_ hlocal
        rw [Option.mem_def.mp hkey] at hlatest
        cases hlatest
        exact Or.inl hlocal
      · refine Or.inr ⟨v, hv, ?_⟩
        simpa [update_of_ne hvu] using hsecret
  cases uid with
  | none => cases outcome <;> exact hsafe
  | some u =>
    cases outcome with
    | failed => exact hsafe
    | destroyed => exact hdestroyed u rfl
    | unanswered => exact hdestroyed u rfl

theorem Sound.register (hsound : s.Sound) (key : Key) : (s.register key).Sound := by
  refine { hsound with uidLt := ?_, read := ?_, registered := ?_ }
  · intro id row hrow uid huid
    exact Nat.lt_succ_of_lt (hsound.uidLt id row hrow uid huid)
  · intro r run hrun entry hentry uid huid
    have hread := hsound.read r run hrun entry hentry uid huid
    exact ⟨Nat.lt_succ_of_lt hread.lt, hread.row⟩
  · intro r run hrun uid registeredKey hstage
    have hold := hsound.registered r run hrun uid registeredKey hstage
    refine ⟨Nat.lt_succ_of_lt hold.lt, ?_, ⟨hold.unused.row, hold.unused.read⟩, hold.only⟩
    simpa [KmipKeys.register, update_of_ne (Nat.ne_of_lt hold.lt)] using hold.secret

theorem Safe.register (hsafe : s.Safe) (hsound : s.Sound) (key : Key) : (s.register key).Safe := by
  intro id row hrow latest hlatest
  rcases hsafe id row hrow latest hlatest with hlocal | hremote
  · exact Or.inl hlocal
  · obtain ⟨uid, huid, hsecret⟩ := hremote
    have hne := Nat.ne_of_lt (hsound.uidLt id row hrow uid huid)
    refine Or.inr ⟨uid, huid, ?_⟩
    simpa [KmipKeys.register, update_of_ne hne] using hsecret

theorem Sound.unused_nextUid (hsound : s.Sound) : s.Unused s.nextUid where
  row id row hrow huid := Nat.lt_irrefl _ (hsound.uidLt id row hrow s.nextUid huid)
  read r run hrun entry hentry huid :=
    Nat.lt_irrefl _ (hsound.read r run hrun entry hentry s.nextUid huid).lt

end

/-! ## The rows -/

section

variable {s : KmipKeys Key} {id : ℕ} {row : KmipRow Key} {k : Option Key}

def writeRow (s : KmipKeys Key) (id : ℕ) (row : KmipRow Key)
    (k : Option Key) : KmipKeys Key :=
  { s.setRow id row with latest := Function.update s.latest id k }

theorem setRow_eq_writeRow (s : KmipKeys Key) (id : ℕ) (row : KmipRow Key) :
    s.setRow id row = s.writeRow id row (s.latest id) := by
  rw [writeRow, update_eq_self]
  rfl

theorem get?_writeRow (s : KmipKeys Key) (id : ℕ) (row : KmipRow Key) (k : Option Key) (j : ℕ) :
    (s.writeRow id row k).rows.get? j = if j = id then some row else s.rows.get? j :=
  get?_set s.rows id j row

structure MayHave (s : KmipKeys Key) (id : ℕ) (row : KmipRow Key) (uid : ℕ) :
    Prop where
  lt : uid < s.nextUid
  owner : ∀ j, ∀ other ∈ s.rows.get? j, other.kmipUid = some uid → j = id
  read : ∀ r, ∀ run ∈ s.runs.get? r, ∀ entry ∈ run.rows, entry.2.kmipUid = some uid →
      id = entry.1 ∧ (entry.2.encryptionKey.isSome → row.encryptionKey.isSome)
  registered : ∀ r, ∀ run ∈ s.runs.get? r, ∀ key, run.stage ≠ .registered uid key
  deleting : ∀ r, ∀ run ∈ s.runs.get? r, run.stage = .deleting →
    ∀ head ∈ run.rows.head?, head.2.kmipUid ≠ some uid

theorem Sound.writeRow (hsound : s.Sound) (hk : k.isSome)
    (huid : ∀ uid ∈ row.kmipUid, s.MayHave id row uid)
    (hkey : row.kmipUid.isSome → ∀ key ∈ row.encryptionKey, k = some key) :
    (s.writeRow id row k).Sound := by
  constructor
  · intro j other hother
    rw [get?_writeRow] at hother
    by_cases hj : j = id
    · subst hj
      simpa [KmipKeys.writeRow] using hk
    · rw [if_neg hj] at hother
      simpa [KmipKeys.writeRow, hj] using hsound.latest j other hother
  · intro j other hother uid hmem
    rw [get?_writeRow] at hother
    split at hother
    · cases hother
      exact (huid uid hmem).lt
    · exact hsound.uidLt j other hother uid hmem
  · intro j other hother i another hanother uid hmem hsame
    rw [get?_writeRow] at hother hanother
    split at hother
    · rename_i hj
      cases hother
      split at hanother
      · rename_i hi
        rw [hi, hj]
      · rw [hj]
        exact (huid uid hmem).owner i another hanother hsame
    · rename_i hj
      split at hanother
      · cases hanother
        exact absurd ((huid uid hsame).owner j other hother hmem) hj
      · exact hsound.uidOwner j other hother i another hanother uid hmem hsame
  · intro j other hother hsome key hkeyMem
    rw [get?_writeRow] at hother
    by_cases hj : j = id
    · subst hj
      rw [if_pos rfl] at hother
      cases hother
      simpa [KmipKeys.writeRow] using hkey hsome key hkeyMem
    · rw [if_neg hj] at hother
      simpa [KmipKeys.writeRow, hj] using hsound.uidKey j other hother hsome key hkeyMem
  · intro r run hrun entry hentry uid hmem
    have hread := hsound.read r run hrun entry hentry uid hmem
    refine ⟨hread.lt, ?_⟩
    intro j other hother hsame
    rw [get?_writeRow] at hother
    split at hother
    · rename_i hj
      cases hother
      rw [hj]
      exact (huid uid hsame).read r run hrun entry hentry hmem
    · exact hread.row j other hother hsame
  · intro r run hrun uid registeredKey hstage
    have hold := hsound.registered r run hrun uid registeredKey hstage
    refine ⟨hold.lt, hold.secret, ⟨?_, hold.unused.read⟩, hold.only⟩
    intro j other hother hsame
    rw [get?_writeRow] at hother
    split at hother
    · cases hother
      exact (huid uid hsame).registered r run hrun registeredKey hstage
    · exact hold.unused.row j other hother hsame
  · intro r run hrun hstage head hhead uid hmem j other hother hsame
    rw [get?_writeRow] at hother
    split at hother
    · cases hother
      exact (huid uid hsame).deleting r run hrun hstage head hhead hmem
    · exact hsound.deleting r run hrun hstage head hhead uid hmem j other hother hsame

theorem Safe.writeRow_iff (hsafe : s.Safe) :
    (s.writeRow id row k).Safe ↔ ∀ key ∈ k, s.Holds row key := by
  constructor
  · intro hnext key hkey
    exact hnext id row (by rw [get?_writeRow, if_pos rfl]; rfl) key
      (by simpa [KmipKeys.writeRow] using hkey)
  · intro hholds j other hother key hkey
    rw [get?_writeRow] at hother
    by_cases hj : j = id
    · subst hj
      rw [if_pos rfl] at hother
      cases hother
      exact hholds key (by simpa [KmipKeys.writeRow] using hkey)
    · rw [if_neg hj] at hother
      exact hsafe j other hother key (by simpa [KmipKeys.writeRow, hj] using hkey)

end

/-! ## What a step keeps -/

structure Keeps (s next : KmipKeys Key) : Prop where
  sound : next.Sound
  safe : s.Safe → next.Safe

section

variable {s next : KmipKeys Key} {r id : ℕ} {run : KmipRun Key}
  {ds : KmipRow Key}

theorem Keeps.of_same {other : KmipKeys Key} (hkeeps : Keeps s next)
    (hrows : other.rows = next.rows) (hlatest : other.latest = next.latest)
    (hsecrets : other.secrets = next.secrets)
    (huid : other.nextUid = next.nextUid) (hruns : other.runs = next.runs) :
    Keeps s other where
  sound := hkeeps.sound.of_same hrows hlatest hsecrets huid hruns
  safe hsafe := (hkeeps.safe hsafe).of_same hrows hlatest hsecrets

theorem Sound.keeps (hsound : s.Sound) : Keeps s s := ⟨hsound, id⟩

theorem keeps_eraseRun (hsound : s.Sound) (r : ℕ) : Keeps s { s with runs := s.runs.erase r } where
  sound := hsound.eraseRun r
  safe hsafe := hsafe.of_same rfl rfl rfl

theorem Keeps.advance {run' : KmipRun Key} (hkeeps : Keeps s next)
    (hrun : next.runs.get? r = some run)
    (hrows : ∀ entry ∈ run'.rows, entry ∈ run.rows)
    (hregistered : ∀ uid key, run'.stage ≠ .registered uid key)
    (hdeleting : run'.stage ≠ .deleting) : Keeps s (next.setRun r run') where
  sound := hkeeps.sound.advance hrun hrows hregistered hdeleting
  safe hsafe := (hkeeps.safe hsafe).of_same rfl rfl rfl

theorem Keeps.nextRow (hkeeps : Keeps s next)
    (hrun : next.runs.get? r = some run) (failed : List String) :
    Keeps s (next.setRun r { KmipKeys.nextRow run with failed }) :=
  hkeeps.advance hrun (fun _ hentry => mem_of_mem_tail hentry) nofun nofun

theorem Keeps.stay (hkeeps : Keeps s next)
    (hrun : next.runs.get? r = some run) {stage : KmipStage Key}
    (hregistered : ∀ uid key, stage ≠ .registered uid key)
    (hdeleting : stage ≠ .deleting) (failed : List String) :
    Keeps s (next.setRun r { run with stage, failed }) :=
  hkeeps.advance hrun (fun _ hentry => hentry) hregistered hdeleting

theorem mem_of_head? (hhead : run.rows.head? = some (id, ds)) : (id, ds) ∈ run.rows :=
  mem_of_mem_head? hhead

variable (hsound : s.Sound)

include hsound

theorem keeps_destroy (hrun : s.runs.get? r = some run) (hhead : run.rows.head? = some (id, ds))
    (hkept : ∀ u ∈ ds.kmipUid, ∀ j, ∀ row ∈ s.rows.get? j,
      row.kmipUid = some u → row.encryptionKey.isSome) (outcome : DestroyOutcome) :
    Keeps s (s.destroy ds.kmipUid outcome) where
  sound := by
    apply hsound.destroy
    intro u hu q other hother key hstage
    have hold := hsound.registered q other hother u key hstage
    exact hold.unused.read r run hrun (id, ds) (mem_of_head? hhead) hu
  safe hsafe := hsafe.destroy hsound hkept outcome

omit hsound in
theorem destroy_runs (s : KmipKeys Key) (uid : Option ℕ)
    (outcome : DestroyOutcome) : (s.destroy uid outcome).runs = s.runs := by
  cases uid <;> cases outcome <;> rfl

theorem keeps_beginSync {ids : Option (List ℕ)} {push connectionSuccessful : Bool}
    {existingDatasets : List String}
    (hstep : s.beginSync r ids push connectionSuccessful existingDatasets = some next) :
    Keeps s next := by
  obtain ⟨_, rfl⟩ := ite_some_none_eq_some.mp hstep
  have hentries : ∀ entry ∈ s.syncRows ids push existingDatasets,
      s.rows.get? entry.1 = some entry.2 := by
    intro entry hentry
    exact Dict.mem_entries_iff.mp (mem_of_mem_filter hentry)
  refine ⟨?_, fun hsafe => hsafe.of_same rfl rfl rfl⟩
  apply hsound.setRun
  · intro entry hentry uid huid
    have hrow := hentries entry hentry
    refine ⟨hsound.uidLt _ _ hrow uid huid, ?_⟩
    intro j other hother hsame
    have howner := hsound.uidOwner _ _ hrow j other hother uid huid hsame
    refine ⟨howner, ?_⟩
    rw [howner, Option.mem_def, hrow, Option.some.injEq] at hother
    rw [hother]
    exact id
  · intro q other hother uid key hstage entry hentry
    have hold := hsound.registered q other hother uid key hstage
    exact hold.unused.row entry.1 entry.2 (hentries entry hentry)
  · exact fun _ _ hstage => nomatch hstage
  · exact nofun

theorem keeps_refreshRow [DecidableEq Key] (hrun : s.runs.get? r = some run)
    {checked retrieved : Bool}
    (hstep : s.refreshRow r run id ds checked retrieved = some next) : Keeps s next := by
  have hdone : Keeps s (s.setRun r (KmipKeys.nextRow run)) := hsound.keeps.nextRow hrun run.failed
  unfold refreshRow at hstep
  split at hstep
  · split at hstep
    · cases hstep
    · split at hstep
      · cases hstep
        exact hdone
      · cases hstep
  · split at hstep
    · rw [map_eq_some_iff] at hstep
      obtain ⟨key, _, hnext⟩ := hstep
      rw [← hnext]
      exact hdone.of_same rfl rfl rfl rfl rfl
    · cases hstep
      exact hdone

theorem keeps_pushRow (hrun : s.runs.get? r = some run)
    (hhead : run.rows.head? = some (id, ds)) {key : Key}
    (hkey : ds.encryptionKey = some key) (outcome : DestroyOutcome) :
    Keeps s (s.pushRow r run ds key outcome) := by
  have hmemory : (s.setZfsKey ds.name key).Sound := hsound.of_same rfl rfl rfl rfl rfl
  have hdestroyed : Keeps (s.setZfsKey ds.name key)
      ((s.setZfsKey ds.name key).destroy ds.kmipUid outcome) := by
    apply keeps_destroy hmemory hrun hhead
    intro u hu j row hrow huid
    -- the run has read the uid beside a key, so the key is still beside it
    have hread := hsound.read r run hrun (id, ds) (mem_of_head? hhead) u hu
    exact (hread.row j row hrow huid).2 (by rw [hkey]; rfl)
  have hmoved : Keeps (s.setZfsKey ds.name key) (s.pushRow r run ds key outcome) := by
    apply hdestroyed.stay
    · rw [destroy_runs]
      exact hrun
    · exact nofun
    · exact nofun
  exact ⟨hmoved.sound, fun hsafe => hmoved.safe (hsafe.of_same rfl rfl rfl)⟩

omit hsound in
theorem keeps_registerFailed (hkeeps : Keeps s next)
    (hrun : next.runs.get? r = some run) (ds : KmipRow Key)
    (destroySuccessful : Bool) :
    Keeps s (next.setRun r (registerKey.registerFailed run ds destroySuccessful)) := by
  cases destroySuccessful with
  | true =>
    apply hkeeps.stay hrun
    · exact nofun
    · exact nofun
  | false => exact hkeeps.nextRow hrun _

theorem keeps_registered (hrun : s.runs.get? r = some run) (key : Key) :
    Keeps s ((s.register key).setRun r { run with stage := .registered s.nextUid key }) where
  sound := by
    have hregister := hsound.register key
    have hunused := hsound.unused_nextUid
    apply hregister.setRun
    · exact hregister.read r run hrun
    · intro q other hother uid otherKey hstage
      have hold := hsound.registered q other hother uid otherKey hstage
      exact hold.unused.read r run hrun
    · intro uid otherKey hstage
      cases hstage
      refine ⟨⟨Nat.lt_succ_self _, ?_, ⟨hunused.row, hunused.read⟩, ?_⟩, hunused.read r run hrun⟩
      · simp [KmipKeys.register]
      · intro q other hother otherKey hstage
        have hold := hsound.registered q other hother _ otherKey hstage
        exact absurd hold.lt (Nat.lt_irrefl _)
    · exact nofun
  safe hsafe := (hsafe.register hsound key).of_same rfl rfl rfl

theorem keeps_registerKey (hrun : s.runs.get? r = some run) (ds : KmipRow Key)
    (destroySuccessful : Bool) (outcome : RegisterOutcome) :
    Keeps s (s.registerKey r run ds destroySuccessful outcome) := by
  unfold registerKey
  split
  · exact keeps_registered hsound hrun _
  · rename_i key _
    have hregister : Keeps s (s.register key) :=
      ⟨hsound.register key, fun hsafe => hsafe.register hsound key⟩
    exact keeps_registerFailed hregister hrun ds destroySuccessful
  · exact keeps_registerFailed hsound.keeps hrun ds destroySuccessful

theorem keeps_pullRow [DecidableEq Key] (hrun : s.runs.get? r = some run) {checked retrieved : Bool}
    (hstep : s.pullRow r run id ds checked retrieved = some next) : Keeps s next := by
  have hpulled : ∀ key, Keeps s (s.setRun r { run with stage := .pulled key }) := by
    intro key
    apply hsound.keeps.stay hrun
    · exact nofun
    · exact nofun
  unfold pullRow at hstep
  split at hstep
  · cases hstep
    exact hpulled _
  · split at hstep
    · split at hstep
      · cases hstep
      · split at hstep
        · cases hstep
          exact hpulled _
        · cases hstep
    · split at hstep
      · rw [map_eq_some_iff] at hstep
        obtain ⟨key, _, hnext⟩ := hstep
        rw [← hnext]
        exact hpulled key
      · cases hstep
        exact hsound.keeps.nextRow hrun _

theorem keeps_deleteSecret (hrun : s.runs.get? r = some run)
    (hhead : run.rows.head? = some (id, ds)) (hstage : run.stage = .deleting)
    (outcome : Option DestroyOutcome) : Keeps s (s.deleteSecret r run ds outcome) := by
  cases outcome with
  | none => exact keeps_eraseRun hsound r
  | some outcome =>
    have hdestroyed : Keeps s (s.destroy ds.kmipUid outcome) := by
      apply keeps_destroy hsound hrun hhead
      intro u hu j row hrow huid
      exact absurd huid (hsound.deleting r run hrun hstage _ hhead u hu j row hrow)
    exact hdestroyed.nextRow (by rw [destroy_runs]; exact hrun) run.failed

theorem keeps_store {row : KmipRow Key} (key : Key)
    (hrow : row.kmipUid = none ∨ ∃ old ∈ s.rows.get? id, row.kmipUid = old.kmipUid) :
    Keeps s (s.store id row key) := by
  have hstored : s.store id row key =
      s.writeRow id { row with encryptionKey := some key } (some key) := rfl
  rw [hstored]
  constructor
  · apply hsound.writeRow rfl
    · intro uid huid
      rcases hrow with hnone | hold
      · rw [Option.mem_def, hnone] at huid
        cases huid
      · obtain ⟨old, hget, hsame⟩ := hold
        have hmem : uid ∈ old.kmipUid := by
          rw [← hsame]
          exact huid
        constructor
        · exact hsound.uidLt id old hget uid hmem
        · intro j other hother hother'
          exact hsound.uidOwner id old hget j other hother uid hmem hother'
        · intro r run hrun entry hentry hentryUid
          have hread := hsound.read r run hrun entry hentry uid hentryUid
          exact ⟨(hread.row id old hget hmem).1, fun _ => rfl⟩
        · intro r run hrun otherKey hstage
          have hold := hsound.registered r run hrun uid otherKey hstage
          exact hold.unused.row id old hget hmem
        · intro r run hrun hstage head hhead hheadUid
          exact hsound.deleting r run hrun hstage head hhead uid hheadUid id old hget hmem
    · exact fun _ other hother => hother
  · intro hsafe
    rw [hsafe.writeRow_iff]
    exact fun other hother => Or.inl hother

theorem keeps_storeKey {c newId : ℕ} {call : KmipStore Key}
    (hstep : s.storeKey c newId call = some next) : Keeps s next := by
  have hended : Sound { s with stores := s.stores.erase c } := hsound.of_same rfl rfl rfl rfl rfl
  have hfrom : ∀ {other : KmipKeys Key},
      Keeps { s with stores := s.stores.erase c } other → Keeps s other :=
    fun hkeeps => ⟨hkeeps.sound, fun hsafe =>
      hkeeps.safe (hsafe.of_same rfl rfl rfl)⟩
  unfold storeKey at hstep
  split at hstep
  · split at hstep
    · cases hstep
    · cases hstep
      exact hfrom (keeps_store hended call.key (Or.inl rfl))
  · split at hstep
    · cases hstep
      exact hfrom hended.keeps
    · rename_i row hrow
      cases hstep
      exact hfrom (keeps_store hended call.key (Or.inr ⟨row, hrow, rfl⟩))

theorem keeps_restart : Keeps s { s with
    zfsKeys := Dict.empty
    runs := Dict.empty
    stores := Dict.empty } where
  sound := by
    refine { hsound with read := ?_, registered := ?_, deleting := ?_ }
    · intro r run hrun
      cases hrun
    · intro r run hrun
      cases hrun
    · intro r run hrun
      cases hrun
  safe hsafe := hsafe.of_same rfl rfl rfl

end

/-! ## The update of a row -/

section

variable {s next : KmipKeys Key} {r id : ℕ} {run run' : KmipRun Key}
  {ds row row' : KmipRow Key}

theorem safe_iff_of_same (hrows : next.rows = s.rows)
    (hlatest : next.latest = s.latest) (hsecrets : next.secrets = s.secrets) :
    next.Safe ↔ s.Safe :=
  ⟨fun hsafe => hsafe.of_same hrows.symm hlatest.symm hsecrets.symm,
    fun hsafe => hsafe.of_same hrows hlatest hsecrets⟩

theorem Safe.setRow_iff (hsafe : s.Safe) :
    (s.setRow id row).Safe ↔ ∀ key ∈ s.latest id, s.Holds row key := by
  rw [setRow_eq_writeRow]
  exact hsafe.writeRow_iff

variable (hsound : s.Sound)

include hsound

theorem Sound.setRow (hrow : s.rows.get? id = some row)
    (huid : ∀ uid ∈ row'.kmipUid, s.MayHave id row' uid)
    (hkey : row'.kmipUid = none ∨ row'.encryptionKey = none) :
    (s.setRow id row').Sound := by
  rw [setRow_eq_writeRow]
  apply hsound.writeRow (hsound.latest id row hrow) huid
  intro huidSome key hmem
  rcases hkey with hnone | hnone
  · rw [hnone] at huidSome
    cases huidSome
  · rw [Option.mem_def, hnone] at hmem
    cases hmem

variable (hrun : s.runs.get? r = some run)

include hrun

theorem Sound.update_registered {uid : ℕ} {key : Key}
    (hstage : run.stage = .registered uid key) (hrow : s.rows.get? id = some row) :
    Sound ((s.setRow id { row with encryptionKey := none, kmipUid := some uid }).setRun r
        (KmipKeys.nextRow run)) := by
  have hregistered := hsound.registered r run hrun uid key hstage
  have hadvanced : (s.setRun r (KmipKeys.nextRow run)).Sound :=
    (hsound.keeps.nextRow hrun run.failed).sound
  have hruns : ∀ q, ∀ other ∈ (s.setRun r (KmipKeys.nextRow run)).runs.get? q,
      (q = r ∧ other = KmipKeys.nextRow run) ∨ (q ≠ r ∧ other ∈ s.runs.get? q) := by
    intro q other hother
    rw [KmipKeys.setRun, get?_set] at hother
    split at hother
    · rename_i hq
      cases hother
      exact Or.inl ⟨hq, rfl⟩
    · rename_i hq
      exact Or.inr ⟨hq, hother⟩
  have hread : ∀ q, ∀ other ∈ (s.setRun r (KmipKeys.nextRow run)).runs.get? q, ∀ entry ∈ other.rows,
        entry.2.kmipUid ≠ some uid := by
    intro q other hother entry hentry
    rcases hruns q other hother with ⟨-, heq⟩ | ⟨-, hold⟩
    · subst heq
      exact hregistered.unused.read r run hrun entry (mem_of_mem_tail hentry)
    · exact hregistered.unused.read q other hold entry hentry
  have hmay : ∀ row' : KmipRow Key, (s.setRun r (KmipKeys.nextRow run)).MayHave id row' uid := by
    intro row'
    constructor
    · exact hregistered.lt
    · intro j other hother huid
      exact absurd huid (hregistered.unused.row j other hother)
    · intro q other hother entry hentry huid
      exact absurd huid (hread q other hother entry hentry)
    · intro q other hother otherKey hother'
      rcases hruns q other hother with ⟨-, heq⟩ | ⟨hne, hold⟩
      · subst heq
        cases hother'
      · exact hne (hregistered.only q other hold otherKey hother')
    · intro q other hother _ head hhead
      exact hread q other hother head (mem_of_mem_head? hhead)
  refine hadvanced.setRow hrow ?_ (Or.inr rfl)
  intro uid' huid
  cases huid
  exact hmay _

theorem Sound.update_clearing (hrow : s.rows.get? id = some row) :
    Sound ((s.setRow id { row with kmipUid := none }).setRun r (KmipKeys.nextRow run)) := by
  have hcleared : Sound (s.setRow id { row with kmipUid := none }) :=
    hsound.setRow hrow (fun _ huid => nomatch huid) (Or.inl rfl)
  exact (hcleared.keeps.nextRow hrun run.failed).sound

theorem Sound.update_pulled (hhead : run.rows.head? = some (id, ds))
    (hrow : s.rows.get? id = some row) (key : Key) :
    Sound ((s.setRow id { row with encryptionKey := some key, kmipUid := none }).setRun r
        (if run.connectionSuccessful then { run with stage := .deleting }
          else KmipKeys.nextRow run)) := by
  have hupdated : Sound (s.setRow id { row with encryptionKey := some key, kmipUid := none }) :=
    hsound.setRow hrow (fun _ huid => nomatch huid) (Or.inl rfl)
  split
  · apply hupdated.setRun
    · exact hupdated.read r run hrun
    · intro q other hother uid otherKey hstage
      have hold := hupdated.registered q other hother uid otherKey hstage
      exact hold.unused.read r run hrun
    · exact fun _ _ hstage => nomatch hstage
    · intro _ head hhead' uid huid j other hother hsame
      rw [hhead] at hhead'
      cases hhead'
      rw [KmipKeys.setRow, get?_set] at hother
      split at hother
      · cases hother
        cases hsame
      · rename_i hj
        have hread := hsound.read r run hrun (id, ds) (mem_of_head? hhead) uid huid
        exact hj (hread.row j other hother hsame).1
  · exact (hupdated.keeps.nextRow hrun run.failed).sound

theorem Sound.updateRow (hhead : run.rows.head? = some (id, ds))
    (hstep : s.updateRow r run id ds = some next) : next.Sound := by
  unfold KmipKeys.updateRow at hstep
  split at hstep
  · cases hstep
    exact hsound.eraseRun r
  · cases hstep
    exact hsound.eraseRun r
  · cases hstep
    exact hsound.eraseRun r
  · rename_i row uid key hrow hstage
    cases hstep
    exact hsound.update_registered hrun hstage hrow
  · rename_i row hrow _
    cases hstep
    exact hsound.update_clearing hrun hrow
  · rename_i row key hrow _
    cases hstep
    exact (hsound.update_pulled hrun hhead hrow key).of_same rfl rfl rfl rfl rfl
  · cases hstep

omit hrun

theorem Sound.forall_latest_iff (hrow : s.rows.get? id = some row) (key : Option Key) :
    (∀ k ∈ s.latest id, key = some k) ↔ s.latest id = key := by
  obtain ⟨latest, hlatest⟩ := Option.isSome_iff_exists.mp (hsound.latest id row hrow)
  rw [hlatest]
  simp [eq_comm]

theorem Sound.updateRow_safe_iff (hsafe : s.Safe) (hrun : s.runs.get? r = some run)
    (hstep : s.updateRow r run id ds = some next) :
    next.Safe ↔ ∀ row ∈ s.rows.get? id, s.IsCurrent run id row := by
  have herased : ∀ {other : KmipKeys Key}, s.rows.get? id = none →
      other.Safe → (other.Safe ↔ ∀ row ∈ s.rows.get? id, s.IsCurrent run id row) := by
    intro other hnone hother
    refine ⟨fun _ row hrow => ?_, fun _ => hother⟩
    rw [hnone] at hrow
    cases hrow
  have hwritten : ∀ {row row' : KmipRow Key}, s.rows.get? id = some row →
      next.rows = (s.setRow id row').rows → next.latest = s.latest →
      next.secrets = s.secrets →
      ((∀ key ∈ s.latest id, s.Holds row' key) ↔ s.IsCurrent run id row) →
      (next.Safe ↔ ∀ row ∈ s.rows.get? id, s.IsCurrent run id row) := by
    intro row row' hrow hrows hlatest hsecrets hiff
    rw [safe_iff_of_same hrows hlatest hsecrets, hsafe.setRow_iff, hiff, hrow]
    simp
  unfold KmipKeys.updateRow at hstep
  split at hstep
  · rename_i hnone _
    cases hstep
    exact herased hnone (hsafe.of_same rfl rfl rfl)
  · rename_i hnone _
    cases hstep
    exact herased hnone (hsafe.of_same rfl rfl rfl)
  · rename_i hnone _
    cases hstep
    exact herased hnone (hsafe.of_same rfl rfl rfl)
  · rename_i row uid key hrow hstage
    cases hstep
    apply hwritten hrow rfl rfl rfl
    have hsecret := (hsound.registered r run hrun uid key hstage).secret
    unfold IsCurrent Holds
    rw [hstage]
    simpa [hsecret] using hsound.forall_latest_iff hrow (some key)
  · rename_i row hrow hstage
    cases hstep
    apply hwritten hrow rfl rfl rfl
    unfold IsCurrent Holds
    rw [hstage]
    simpa using hsound.forall_latest_iff hrow row.encryptionKey
  · rename_i row key hrow hstage
    cases hstep
    apply hwritten hrow rfl rfl rfl
    unfold IsCurrent Holds
    rw [hstage]
    simpa using hsound.forall_latest_iff hrow (some key)
  · cases hstep

end

/-! ## Runs -/

section

variable {s next : KmipKeys Key}

theorem atRow_eq_some {r : ℕ} {turn : KmipRun Key → ℕ → KmipRow Key → Option (KmipKeys Key)}
    (hstep : s.atRow r turn = some next) :
    ∃ run id ds, s.runs.get? r = some run ∧
      run.rows.head? = some (id, ds) ∧ turn run id ds = some next := by
  simp only [atRow, bind_eq_some_iff] at hstep
  obtain ⟨run, hrun, head, hhead, hturn⟩ := hstep
  exact ⟨run, head.1, head.2, hrun, hhead, hturn⟩

variable [DecidableEq Key]

variable {a : Action Key}

theorem keeps_step (hsound : s.Sound) (ha : ∀ r, a ≠ .updateRow r)
    (hstep : step s a = some next) : Keeps s next := by
  cases a with
  | beginSync r ids push connectionSuccessful existingDatasets =>
    exact keeps_beginSync hsound hstep
  | refreshRow r checked retrieved =>
    rw [KmipKeys.step] at hstep
    obtain ⟨run, id, ds, hrun, hhead, hturn⟩ := atRow_eq_some hstep
    split at hturn
    · exact keeps_refreshRow hsound hrun hturn
    · cases hturn
  | pushRow r outcome =>
    rw [KmipKeys.step] at hstep
    obtain ⟨run, id, ds, hrun, hhead, hturn⟩ := atRow_eq_some hstep
    split at hturn
    · rename_i key _ _ hkey
      cases hturn
      exact keeps_pushRow hsound hrun hhead hkey outcome
    · cases hturn
  | registerKey r outcome =>
    rw [KmipKeys.step] at hstep
    obtain ⟨run, id, ds, hrun, hhead, hturn⟩ := atRow_eq_some hstep
    split at hturn
    · cases hturn
      exact keeps_registerKey hsound hrun ds _ outcome
    · cases hturn
  | pullRow r checked retrieved =>
    rw [KmipKeys.step] at hstep
    obtain ⟨run, id, ds, hrun, hhead, hturn⟩ := atRow_eq_some hstep
    split at hturn
    · exact keeps_pullRow hsound hrun hturn
    · cases hturn
  | updateRow r => exact absurd rfl (ha r)
  | deleteSecret r outcome =>
    rw [KmipKeys.step] at hstep
    obtain ⟨run, id, ds, hrun, hhead, hturn⟩ := atRow_eq_some hstep
    split at hturn
    · rename_i hstage
      cases hturn
      exact keeps_deleteSecret hsound hrun hhead hstage outcome
    · cases hturn
  | finishSync r =>
    simp only [step, bind_eq_some_iff] at hstep
    obtain ⟨run, _, hfinish⟩ := hstep
    obtain ⟨_, rfl⟩ := ite_some_none_eq_some.mp hfinish
    exact (keeps_eraseRun hsound r).of_same rfl rfl rfl rfl rfl
  | queryRow c id name key =>
    simp only [step, ite_none_left_eq_some] at hstep
    cases hstep.2
    exact hsound.keeps.of_same rfl rfl rfl rfl rfl
  | storeKey c newId =>
    simp only [step, bind_eq_some_iff] at hstep
    obtain ⟨call, _, hstore⟩ := hstep
    exact keeps_storeKey hsound hstore
  | restart =>
    cases hstep
    exact keeps_restart hsound
  | initializeKeys connectionSuccess retrieved =>
    cases hstep
    exact hsound.keeps.of_same rfl rfl rfl rfl rfl

theorem Sound.step (hsound : s.Sound) (hstep : step s a = some next) : next.Sound := by
  by_cases ha : ∃ r, a = .updateRow r
  · obtain ⟨r, rfl⟩ := ha
    obtain ⟨run, id, ds, hrun, hhead, hturn⟩ := atRow_eq_some hstep
    exact hsound.updateRow hrun hhead hturn
  · exact (keeps_step hsound (not_exists.mp ha) hstep).sound

theorem Sound.step_safe_iff (hsound : s.Sound) (hsafe : s.Safe)
    (hstep : KmipKeys.step s a = some next) : next.Safe ↔ s.UpToDate a := by
  by_cases ha : ∃ r, a = .updateRow r
  · obtain ⟨r, rfl⟩ := ha
    obtain ⟨run, id, ds, hrun, hhead, hturn⟩ := atRow_eq_some hstep
    rw [hsound.updateRow_safe_iff hsafe hrun hturn]
    simp [UpToDate, hrun, hhead]
  · have hnext := (keeps_step hsound (not_exists.mp ha) hstep).safe hsafe
    have hguard : s.UpToDate a := by
      cases a with
      | updateRow r => exact absurd ⟨r, rfl⟩ ha
      | _ => trivial
    exact ⟨fun _ => hguard, fun _ => hnext⟩

/-- No key is lost along a run exactly when every update of a row by a
synchronisation writes what is current. -/
theorem everyUpdate_upToDate_iff_neverLost {s : KmipKeys Key}
    {actions : List (Action Key)} (hrun : run step init actions = some s) :
    EveryStep step UpToDate init actions ↔
      ∀ k u, run step init (actions.take k) = some u → u.Safe :=
  everyStep_iff_forall_take Sound (fun _ _ _ hsound => hsound.step)
    (fun _ _ _ hsound hsafe => hsound.step_safe_iff hsafe) sound_init safe_init
    hrun

end

def pushed : List (Action ℕ) :=
  [.queryRow 0 none "tank/a" 7, .storeKey 0 1,
    .beginSync 0 none true true ["tank/a"], .pushRow 0 .failed,
    .registerKey 0 .registered, .updateRow 0, .finishSync 0]

theorem pushed_neverLost : (run step init pushed).isSome = true ∧
    ∀ k u, run step init (pushed.take k) = some u → u.Safe := by
  refine ⟨rfl, ?_⟩
  refine (@everyUpdate_upToDate_iff_neverLost _ _ _ pushed rfl).mp ?_
  iterate 5 apply everyStep_cons trivial rfl
  refine everyStep_cons ?_ rfl (everyStep_cons trivial rfl trivial)
  intro run hrun head hhead row _
  cases hrun
  cases hhead
  rfl

def storedDuringPush : List (Action ℕ) :=
  [.queryRow 0 none "tank/a" 7, .storeKey 0 1,
    .beginSync 0 none true true ["tank/a"], .pushRow 0 .failed,
    .registerKey 0 .registered, .queryRow 0 (some 1) "tank/a" 8,
    .storeKey 0 2, .updateRow 0]

/-- A key stored during the push is overwritten by what the run has read. -/
theorem storedDuringPush_lost :
    ¬ ∀ k u, run step init (storedDuringPush.take k) = some u → u.Safe := by
  intro hall
  have hsafe := hall 8 _ rfl
  rcases hsafe 1 _ rfl 8 rfl with hlocal | ⟨uid, huid, hsecret⟩
  · cases hlocal
  · cases huid
    cases hsecret

end KmipKeys

end Middlewared
