import Middlewared.OnetimePassword

/-!
# A one-time password works once

An entry remembers the user, the expiry and the hash of its key, and whether it has been used.
-/

namespace Middlewared

open List Dict Option TransitionSystem

namespace OtpwState

def successes (password : String) (log : List OtpwEvent) : ℕ :=
  log.countP fun event =>
    match event with
    | .returned _ plaintext _ .success => plaintext = password
    | _ => false

/-- A password that was generated for `uid` and expires at `expires` works once,
for that user and in that time; and it does work the first time. -/
structure WorksOnce (log : List OtpwEvent) (password : String) (uid : ℕ)
    (expires : ℚ) : Prop where
  once : successes password log ≤ 1
  owner : ∀ other now, .returned other password now .success ∈ log → other = uid ∧ now ≤ expires
  first : ∀ later between before now response, log = later ++ .returned uid password now response ::
        (between ++ .generated password uid expires :: before) →
      now ≤ expires →
      (∀ earlier answer, .returned uid password earlier answer ∉ between) →
      response = .success

end OtpwState

theorem splitPassword_passwordText {index key : String}
    (hindex : '_' ∉ index.toList) (hkey : '_' ∉ key.toList) :
    splitPassword (passwordText index key) = some (index, key) := by
  have hsplit : (passwordText index key).toList.splitOn '_' = [index.toList, key.toList] := by
    rw [passwordText, String.toList_ofList, splitOn_append_cons_self_of_not_mem hindex,
      splitOn_eq_singleton hkey]
  simp [splitPassword, hsplit]

theorem eq_passwordText_of_splitPassword {plaintext idx passwd : String}
    (hsplit : splitPassword plaintext = some (idx, passwd)) :
    plaintext = passwordText idx passwd := by
  unfold splitPassword at hsplit
  split at hsplit
  · rename_i first second hparts
    simp only [some.injEq, Prod.mk.injEq] at hsplit
    have hjoin : ['_'].intercalate (plaintext.toList.splitOn '_') =
        plaintext.toList := intercalate_splitOn '_'
    rw [hparts] at hjoin
    rw [← hsplit.1, ← hsplit.2, passwordText, String.toList_ofList,
      String.toList_ofList, ← String.toList_inj, String.toList_ofList, ← hjoin]
    simp [List.intercalate]
  · cases hsplit

theorem underscore_not_mem_toString (n : ℕ) : '_' ∉ (toString n).toList := by
  change '_' ∉ n.repr.toList
  rw [Nat.toList_repr]
  exact Nat.underscore_not_in_toDigits

theorem underscore_not_mem_humanFriendly {p : String}
    (hp : '_' ∉ p.toList) : '_' ∉ (humanFriendly p).toList := by
  have hpart : ∀ start count, '_' ∉ (p.toList.drop start).take count := by
    intro start count hmem
    exact hp (mem_of_mem_drop (mem_of_mem_take hmem))
  have hfirst := hpart 0 6
  rw [drop_zero] at hfirst
  simp [humanFriendly, List.intercalate, hfirst, hpart]

namespace OtpwState

variable {η : Type} {crypt : Unixhash η} {s next : OtpwState η}

section

variable {password plaintext : String} {uid : ℕ} {now expires : ℚ}
  {response : OTPWResponse} {log rest : List OtpwEvent}

@[simp] theorem successes_generated :
    successes password (.generated plaintext uid expires :: log) = successes password log := by
  simp [successes]

theorem successes_of_ne (hne : response ≠ .success) :
    successes password (.returned uid plaintext now response :: log) = successes password log := by
  cases response <;> simp_all [successes]

theorem successes_success : successes password (.returned uid plaintext now .success :: log) =
    successes password log + if plaintext = password then 1 else 0 := by
  simp [successes, countP_cons]

theorem successes_append : successes password (log ++ rest) =
    successes password log + successes password rest := by
  simp [successes]

theorem successes_pos_iff : 0 < successes password log ↔
    ∃ uid now, .returned uid password now .success ∈ log := by
  unfold successes
  rw [countP_pos_iff]
  constructor
  · intro hexists
    obtain ⟨event, hmem, hevent⟩ := hexists
    split at hevent
    · rename_i uid text now
      have htext : text = password := by simpa using hevent
      subst htext
      exact ⟨uid, now, hmem⟩
    · cases hevent
  · intro hexists
    obtain ⟨uid, now, hmem⟩ := hexists
    exact ⟨_, hmem, by simp⟩

end

/-- An entry stands for the password it was made for, and knows whether that
password has been used. -/
structure Stored (crypt : Unixhash η) (s : OtpwState η) (password : String)
    (uid : ℕ) (expires : ℚ) (idx key : String) : Prop where
  split : splitPassword password = some (idx, key)
  entry : ∃ salt used, s.manager.otpasswd.get? idx =
      some ⟨uid, expires, crypt.sha512Crypt key salt, used⟩ ∧
    (used = true ↔ 0 < successes password s.log)

structure OtpwInvariant (crypt : Unixhash η) (s : OtpwState η) : Prop where
  indexed : ∀ idx ∈ s.manager.otpasswd, ∃ n ≤ s.manager.cnt, idx = toString n
  found : ∀ call found, s.pending call = some found →
    splitPassword found.plaintext = some (found.idx, found.passwd)
  succeeded : ∀ uid plaintext now, .returned uid plaintext now .success ∈ s.log →
      ∃ idx passwd, splitPassword plaintext = some (idx, passwd) ∧ idx ∈ s.manager.otpasswd
  stored : ∀ password uid expires, .generated password uid expires ∈ s.log →
    ∃ idx key, Stored crypt s password uid expires idx key
  fresh : ∀ password uid expires later before,
    s.log = later ++ .generated password uid expires :: before → successes password before = 0
  works : ∀ password uid expires, .generated password uid expires ∈ s.log →
    WorksOnce s.log password uid expires

theorem initial_otpwInvariant : OtpwInvariant crypt (initial : OtpwState η) := by
  constructor <;> simp [initial, OnetimePasswordManager.empty, Dict.mem_def, Dict.keys, Dict.empty]

theorem WorksOnce.cons {log : List OtpwEvent} {password : String} {uid : ℕ}
    {expires : ℚ} {event : OtpwEvent} (hworks : WorksOnce log password uid expires)
    (honce : successes password (event :: log) ≤ 1)
    (howner : ∀ other now, event = .returned other password now .success →
      other = uid ∧ now ≤ expires)
    (hfirst : ∀ now response between before, event = .returned uid password now response →
      log = between ++ .generated password uid expires :: before →
      now ≤ expires →
      (∀ earlier answer, .returned uid password earlier answer ∉ between) →
      response = .success) :
    WorksOnce (event :: log) password uid expires := by
  constructor
  · exact honce
  · intro other now hmem
    rcases List.mem_cons.mp hmem with hhead | hrest
    · exact howner other now hhead.symm
    · exact hworks.owner other now hrest
  · intro later between before now response hlog hnow hbetween
    cases later with
    | nil =>
      rw [nil_append, List.cons.injEq] at hlog
      exact hfirst now response between before hlog.1 hlog.2 hnow hbetween
    | cons head later =>
      rw [cons_append, List.cons.injEq] at hlog
      exact hworks.first later between before now response hlog.2 hnow hbetween

/-! ## Generating a password -/

section

variable {uid : ℕ} {p salt : String} {now : ℚ}

theorem OtpwInvariant.index_not_mem (hinv : OtpwInvariant crypt s) :
    toString (s.manager.cnt + 1) ∉ s.manager.otpasswd := by
  intro hmem
  obtain ⟨n, hn, heq⟩ := hinv.indexed _ hmem
  have hsame : s.manager.cnt + 1 = n := PyString.toString_injective heq
  omega

theorem OtpwInvariant.splitPassword_ne (hinv : OtpwInvariant crypt s)
    {plaintext idx passwd : String}
    (hsplit : splitPassword plaintext = some (idx, passwd))
    (hidx : idx ∈ s.manager.otpasswd) (key : String)
    (hkey : '_' ∉ key.toList) :
    plaintext ≠ passwordText (toString (s.manager.cnt + 1)) key := by
  intro heq
  rw [heq, splitPassword_passwordText (underscore_not_mem_toString _) hkey] at hsplit
  simp only [some.injEq, Prod.mk.injEq] at hsplit
  rw [← hsplit.1] at hidx
  exact hinv.index_not_mem hidx

theorem OtpwInvariant.generate (hinv : OtpwInvariant crypt s) (hp : '_' ∉ p.toList)
    (hnext : step crypt s (.generateForUid uid p salt now) = some next) :
    OtpwInvariant crypt next := by
  simp only [step, OnetimePasswordManager.generateForUid] at hnext
  split at hnext
  case isFalse => cases hnext
  case isTrue =>
    cases hnext
    have hkey := underscore_not_mem_humanFriendly hp
    have hnew := hinv.index_not_mem
    have hnone : successes (passwordText (toString (s.manager.cnt + 1))
        (humanFriendly p)) s.log = 0 := by
      apply Nat.eq_zero_of_not_pos
      intro hpos
      obtain ⟨other, at', hmem⟩ := successes_pos_iff.mp hpos
      obtain ⟨idx, passwd, hsplit, hidx⟩ := hinv.succeeded _ _ _ hmem
      exact hinv.splitPassword_ne hsplit hidx _ hkey rfl
    have hunused : ∀ other expires, .generated (passwordText
        (toString (s.manager.cnt + 1)) (humanFriendly p)) other expires ∉ s.log := by
      intro other expires hmem
      obtain ⟨idx, key, hstored⟩ := hinv.stored _ _ _ hmem
      obtain ⟨_, _, hget, _⟩ := hstored.entry
      exact hinv.splitPassword_ne hstored.split (mem_of_get?_eq_some hget) _ hkey rfl
    constructor
    case indexed =>
      intro idx hidx
      rcases mem_set_iff.mp hidx with heq | hold
      · exact ⟨s.manager.cnt + 1, le_rfl, heq⟩
      · obtain ⟨n, hn, heq⟩ := hinv.indexed idx hold
        exact ⟨n, Nat.le_succ_of_le hn, heq⟩
    case found => exact hinv.found
    case succeeded =>
      intro other plaintext at' hmem
      obtain ⟨idx, passwd, hsplit, hidx⟩ := hinv.succeeded other plaintext at' (by simpa using hmem)
      exact ⟨idx, passwd, hsplit, mem_set_iff.mpr (Or.inr hidx)⟩
    case stored =>
      intro password owner expires hmem
      rcases List.mem_cons.mp hmem with hhead | hold
      · rw [OtpwEvent.generated.injEq] at hhead
        obtain ⟨rfl, rfl, rfl⟩ := hhead
        refine ⟨_, _, splitPassword_passwordText (underscore_not_mem_toString _) hkey,
          salt, false, ?_, ?_⟩
        · rw [get?_set_self]
        · rw [successes_generated, hnone]
          simp
      · obtain ⟨idx, key, hstored⟩ := hinv.stored _ _ _ hold
        obtain ⟨salt', used, hget, hused⟩ := hstored.entry
        refine ⟨idx, key, hstored.split, salt', used, ?_, ?_⟩
        · rw [get?_set_of_ne, hget]
          intro heq
          rw [← heq] at hnew
          exact hnew (mem_of_get?_eq_some hget)
        · simpa using hused
    case fresh =>
      intro password owner expires later before hlog
      cases later with
      | nil =>
        rw [nil_append, List.cons.injEq] at hlog
        obtain ⟨hevent, hbefore⟩ := hlog
        obtain ⟨rfl, rfl, rfl⟩ := hevent
        rw [← hbefore]
        exact hnone
      | cons head later =>
        rw [cons_append, List.cons.injEq] at hlog
        exact hinv.fresh _ _ _ later before hlog.2
    case works =>
      intro password owner expires hmem
      rcases List.mem_cons.mp hmem with hhead | hold
      · rw [OtpwEvent.generated.injEq] at hhead
        obtain ⟨rfl, rfl, rfl⟩ := hhead
        constructor
        · rw [successes_generated, hnone]
          exact Nat.zero_le 1
        · intro other at' hmem
          rcases List.mem_cons.mp hmem with hhead | hold
          · cases hhead
          · have hpos := successes_pos_iff.mpr ⟨other, at', hold⟩
            rw [hnone] at hpos
            cases hpos
        · intro later between before at' response hlog
          cases later with
          | nil => cases hlog
          | cons head later =>
            rw [cons_append, List.cons.injEq] at hlog
            exact absurd (by rw [hlog.2]; simp) (hunused owner (now + 86400))
      · apply (hinv.works _ _ _ hold).cons
        · simpa using (hinv.works _ _ _ hold).once
        · intro other at' hevent
          cases hevent
        · intro at' response between before hevent
          cases hevent

end

/-! ## Authenticating -/

section

variable {call uid : ℕ} {plaintext : String} {now : ℚ}

variable (hinv : OtpwInvariant crypt s)

include hinv

theorem OtpwInvariant.findEntry_isSome {password : String} {owner : ℕ} {expires : ℚ}
    (hmem : .generated password owner expires ∈ s.log) :
    (s.manager.findEntry password).isSome := by
  obtain ⟨idx, key, hstored⟩ := hinv.stored _ _ _ hmem
  obtain ⟨_, _, hget, _⟩ := hstored.entry
  simp [OnetimePasswordManager.findEntry, hstored.split, mem_of_get?_eq_some hget]

theorem OtpwInvariant.refused {response : OTPWResponse} (hmanager : next.manager = s.manager)
    (hlog : next.log = .returned uid plaintext now response :: s.log)
    (hfound : ∀ call found, next.pending call = some found →
      splitPassword found.plaintext = some (found.idx, found.passwd))
    (hne : response ≠ .success)
    (hfirst : ∀ expires between before,
      s.log = between ++ .generated plaintext uid expires :: before →
      now ≤ expires →
      (∀ earlier answer, .returned uid plaintext earlier answer ∉ between) →
      response = .success) : OtpwInvariant crypt next := by
  constructor
  case indexed =>
    rw [hmanager]
    exact hinv.indexed
  case found => exact hfound
  case succeeded =>
    intro other text at' hmem
    rw [hlog, mem_cons] at hmem
    rw [hmanager]
    rcases hmem with hhead | hold
    · cases hhead
      exact absurd rfl hne
    · exact hinv.succeeded other text at' hold
  case stored =>
    intro password owner expires hmem
    rw [hlog, mem_cons] at hmem
    rcases hmem with hhead | hold
    · cases hhead
    · obtain ⟨idx, key, hstored⟩ := hinv.stored _ _ _ hold
      obtain ⟨salt, used, hget, hused⟩ := hstored.entry
      refine ⟨idx, key, hstored.split, salt, used, ?_, ?_⟩
      · rw [hmanager]
        exact hget
      · rw [hlog, successes_of_ne hne]
        exact hused
  case fresh =>
    intro password owner expires later before heq
    rw [hlog] at heq
    cases later with
    | nil => cases heq
    | cons head later =>
      rw [cons_append, List.cons.injEq] at heq
      exact hinv.fresh _ _ _ later before heq.2
  case works =>
    intro password owner expires hmem
    rw [hlog, mem_cons] at hmem
    rcases hmem with hhead | hold
    · cases hhead
    · rw [hlog]
      apply (hinv.works _ _ _ hold).cons
      · rw [successes_of_ne hne]
        exact (hinv.works _ _ _ hold).once
      · intro other at' hevent
        cases hevent
        exact absurd rfl hne
      · intro at' answer between before hevent
        cases hevent
        exact hfirst expires between before

theorem OtpwInvariant.authenticate
    (hnext : step crypt s (.authenticate call uid plaintext) = some next) :
    OtpwInvariant crypt next := by
  simp only [step] at hnext
  split at hnext
  case isFalse => cases hnext
  case isTrue =>
    split at hnext
    case h_1 hentry =>
      cases hnext
      refine hinv.refused rfl rfl hinv.found (by simp) ?_
      intro expires between before hlog
      have hmem : .generated plaintext uid expires ∈ s.log := by
        rw [hlog]
        simp
      have hsome := hinv.findEntry_isSome hmem
      rw [hentry] at hsome
      cases hsome
    case h_2 idx passwd hentry =>
      cases hnext
      refine ⟨hinv.indexed, ?_, hinv.succeeded, ?_, hinv.fresh, hinv.works⟩
      · intro other found hfound
        simp only [Function.update_apply] at hfound
        split at hfound
        · cases hfound
          unfold OnetimePasswordManager.findEntry at hentry
          split at hentry
          · cases hentry
          · rename_i hsplit
            split at hentry
            · cases hentry
              exact hsplit
            · cases hentry
        · exact hinv.found other found hfound
      · intro password owner expires hmem
        obtain ⟨idx, key, hstored⟩ := hinv.stored password owner expires hmem
        exact ⟨idx, key, hstored.split, hstored.entry⟩

/-- The entry that `checkEntry` lets through: it is consumed, nothing else is
changed. -/
structure Accepts (crypt : Unixhash η) (manager : OnetimePasswordManager η)
    (uid : ℕ) (idx passwd : String) (now : ℚ)
    (entry : UserOnetimePassword η) : Prop where
  stored : manager.otpasswd.get? idx = some entry
  owner : entry.uid = uid
  unused : entry.used = false
  inTime : now ≤ entry.expires
  key : crypt.checkUnixhash passwd entry.keyhash = true

omit hinv in
theorem checkEntry_of_accepts {manager : OnetimePasswordManager η}
    {idx passwd : String} {entry : UserOnetimePassword η}
    (haccepts : Accepts crypt manager uid idx passwd now entry) :
    manager.checkEntry crypt uid idx passwd now = ({ manager with
          otpasswd := manager.otpasswd.set idx { entry with used := true } },
        .success) := by
  have htime := not_lt.mpr haccepts.inTime
  simp [OnetimePasswordManager.checkEntry, haccepts.stored, haccepts.owner,
    haccepts.unused, haccepts.key, htime]

omit hinv in
theorem checkEntry_cases (crypt : Unixhash η) (manager : OnetimePasswordManager η) (uid : ℕ)
    (idx passwd : String) (now : ℚ) :
    (∃ entry, Accepts crypt manager uid idx passwd now entry) ∨ ∃ response ≠ .success,
        manager.checkEntry crypt uid idx passwd now = (manager, response) := by
  unfold OnetimePasswordManager.checkEntry
  cases hget : manager.otpasswd.get? idx with
  | none => exact Or.inr ⟨.noKey, by simp, rfl⟩
  | some entry =>
    by_cases huid : entry.uid ≠ uid
    · exact Or.inr ⟨.wrongUser, by simp, by simp [huid]⟩
    by_cases hused : entry.used = true
    · exact Or.inr ⟨.alreadyUsed, by simp, by simp_all⟩
    by_cases htime : now > entry.expires
    · exact Or.inr ⟨.expired, by simp, by simp_all⟩
    by_cases hkey : crypt.checkUnixhash passwd entry.keyhash = true
    · left
      refine ⟨entry, hget, not_not.mp huid, ?_, not_lt.mp htime, hkey⟩
      simpa using hused
    · exact Or.inr ⟨.badPasskey, by simp, by simp_all⟩

theorem OtpwInvariant.accepts_first (hcrypt : crypt.Exact) {idx passwd password : String}
    {owner : ℕ} {expires : ℚ} {between before : List OtpwEvent}
    (hsplit : splitPassword password = some (idx, passwd))
    (hlog : s.log = between ++ .generated password owner expires :: before)
    (hnow : now ≤ expires)
    (hbetween : ∀ earlier answer, .returned owner password earlier answer ∉ between) :
    ∃ entry, Accepts crypt s.manager owner idx passwd now entry := by
  have hmem : .generated password owner expires ∈ s.log := by
    rw [hlog]
    simp
  obtain ⟨idx', key, hstored⟩ := hinv.stored _ _ _ hmem
  obtain ⟨salt, used, hget, hused⟩ := hstored.entry
  have hsame := hstored.split.symm.trans hsplit
  simp only [some.injEq, Prod.mk.injEq] at hsame
  obtain ⟨hidx, hkey⟩ := hsame
  have hunused : used = false := by
    by_contra htrue
    have hpos := hused.mp (by simpa using htrue)
    rw [hlog, successes_append, successes_generated,
      hinv.fresh _ _ _ between before hlog, Nat.add_zero] at hpos
    obtain ⟨other, at', hsuccess⟩ := successes_pos_iff.mp hpos
    have howner := (hinv.works _ _ _ hmem).owner other at'
      (by rw [hlog]; exact mem_append_left _ hsuccess)
    rw [howner.1] at hsuccess
    exact hbetween at' .success hsuccess
  refine ⟨_, by rw [← hidx]; exact hget, rfl, hunused, hnow, ?_⟩
  rw [hcrypt, hkey]

theorem OtpwInvariant.accepted (hcrypt : crypt.Exact) {found : AuthenticateCall}
    {entry : UserOnetimePassword η}
    (hsplit : splitPassword found.plaintext = some (found.idx, found.passwd))
    (haccepts : Accepts crypt s.manager found.uid found.idx found.passwd now entry)
    (hmanager : next.manager = { s.manager with
      otpasswd := s.manager.otpasswd.set found.idx { entry with used := true } })
    (hlog : next.log = .returned found.uid found.plaintext now .success :: s.log)
    (hfound : ∀ call found, next.pending call = some found →
      splitPassword found.plaintext = some (found.idx, found.passwd)) :
    OtpwInvariant crypt next := by
  have hidx := mem_of_get?_eq_some haccepts.stored
  have hold : ∀ {password owner expires}, .generated password owner expires ∈ next.log →
        .generated password owner expires ∈ s.log := by
    intro password owner expires hmem
    rw [hlog, mem_cons] at hmem
    rcases hmem with hhead | hrest
    · cases hhead
    · exact hrest
  -- a password with this index is the one that was just used
  have hsame : ∀ {password owner expires key}, Stored crypt s password owner expires found.idx key →
        password = found.plaintext ∧ owner = found.uid ∧ now ≤ expires ∧
          successes password s.log = 0 := by
    intro password owner expires key hstored
    obtain ⟨salt, used, hget, hused⟩ := hstored.entry
    have hentry := some.inj (hget.symm.trans haccepts.stored)
    have hkey := haccepts.key
    have hunused := haccepts.unused
    rw [← hentry] at hkey hunused
    rw [hcrypt] at hkey
    refine ⟨?_, ?_, ?_, ?_⟩
    · rw [eq_passwordText_of_splitPassword hstored.split,
        eq_passwordText_of_splitPassword hsplit, hkey]
    · rw [← haccepts.owner, ← hentry]
    · have htime := haccepts.inTime
      rw [← hentry] at htime
      exact htime
    · have hused' : used = false := hunused
      rw [hused'] at hused
      simpa using hused
  have hother : ∀ {password owner expires idx key},
      Stored crypt s password owner expires idx key → idx ≠ found.idx →
        found.plaintext ≠ password := by
    intro password owner expires idx key hstored hne heq
    have hboth := hsplit.symm.trans (heq ▸ hstored.split)
    simp only [some.injEq, Prod.mk.injEq] at hboth
    exact hne hboth.1.symm
  constructor
  case indexed =>
    intro idx hmem
    rw [hmanager] at hmem ⊢
    rcases mem_set_iff.mp hmem with heq | hrest
    · exact hinv.indexed idx (heq ▸ hidx)
    · exact hinv.indexed idx hrest
  case found => exact hfound
  case succeeded =>
    intro other text at' hmem
    rw [hlog, mem_cons] at hmem
    rw [hmanager]
    rcases hmem with hhead | hrest
    · cases hhead
      exact ⟨found.idx, found.passwd, hsplit, mem_set_iff.mpr (Or.inl rfl)⟩
    · obtain ⟨idx, passwd, hparts, hidx'⟩ := hinv.succeeded other text at' hrest
      exact ⟨idx, passwd, hparts, mem_set_iff.mpr (Or.inr hidx')⟩
  case stored =>
    intro password owner expires hmem
    obtain ⟨idx, key, hstored⟩ := hinv.stored _ _ _ (hold hmem)
    obtain ⟨salt, used, hget, hused⟩ := hstored.entry
    refine ⟨idx, key, hstored.split, salt, ?_⟩
    rw [hmanager, hlog, successes_success]
    by_cases heq : idx = found.idx
    · subst heq
      obtain ⟨htext, -, -, -⟩ := hsame hstored
      have hentry := some.inj (hget.symm.trans haccepts.stored)
      refine ⟨true, ?_, by simp [htext]⟩
      rw [get?_set_self, ← hentry]
    · refine ⟨used, ?_, ?_⟩
      · rw [get?_set_of_ne _ heq, hget]
      · rw [if_neg (hother hstored heq), Nat.add_zero]
        exact hused
  case fresh =>
    intro password owner expires later before heq
    rw [hlog] at heq
    cases later with
    | nil => cases heq
    | cons head later =>
      rw [cons_append, List.cons.injEq] at heq
      exact hinv.fresh _ _ _ later before heq.2
  case works =>
    intro password owner expires hmem
    have hbefore := hold hmem
    obtain ⟨idx, key, hstored⟩ := hinv.stored _ _ _ hbefore
    rw [hlog]
    apply (hinv.works _ _ _ hbefore).cons
    · rw [successes_success]
      by_cases heq : idx = found.idx
      · subst heq
        rw [(hsame hstored).2.2.2]
        split <;> omega
      · rw [if_neg (hother hstored heq)]
        exact (hinv.works _ _ _ hbefore).once
    · intro other at' hevent
      by_cases heq : idx = found.idx
      · subst heq
        obtain ⟨-, howner, htime, -⟩ := hsame hstored
        cases hevent
        exact ⟨howner.symm, htime⟩
      · injection hevent with _ htext
        exact absurd htext (hother hstored heq)
    · intro at' response between before hevent
      cases hevent
      intros
      rfl

theorem OtpwInvariant.locked (hcrypt : crypt.Exact)
    (hnext : step crypt s (.locked call now) = some next) : OtpwInvariant crypt next := by
  simp only [step] at hnext
  split at hnext
  · cases hnext
  rename_i found hpending
  split at hnext
  case isFalse => cases hnext
  case isTrue =>
    have hsplit := hinv.found call found hpending
    have hfound : ∀ other found', Function.update s.pending call none other = some found' →
          splitPassword found'.plaintext = some (found'.idx, found'.passwd) := by
      intro other found' hother
      rw [Function.update_apply] at hother
      split at hother
      · cases hother
      · exact hinv.found other found' hother
    rcases checkEntry_cases crypt s.manager found.uid found.idx
      found.passwd now with haccepts | hrefused
    · obtain ⟨entry, haccepts⟩ := haccepts
      rw [checkEntry_of_accepts haccepts] at hnext
      cases hnext
      exact hinv.accepted hcrypt hsplit haccepts rfl rfl hfound
    · obtain ⟨response, hne, hcheck⟩ := hrefused
      rw [hcheck] at hnext
      cases hnext
      refine hinv.refused rfl rfl hfound hne ?_
      intro expires between before hlog hnow hbetween
      obtain ⟨entry, haccepts⟩ := hinv.accepts_first hcrypt hsplit hlog hnow hbetween
      rw [checkEntry_of_accepts haccepts] at hcheck
      exact (Prod.mk.inj hcheck).2.symm

end

def PlainKey : Action → Prop
  | .generateForUid _ p _ _ => '_' ∉ p.toList
  | .authenticate _ _ _ | .locked _ _ => True

theorem OtpwInvariant.step (hcrypt : crypt.Exact) {a : Action}
    (hinv : OtpwInvariant crypt s) (hkey : PlainKey a)
    (hnext : step crypt s a = some next) : OtpwInvariant crypt next := by
  cases a with
  | generateForUid uid p salt now => exact hinv.generate hkey hnext
  | authenticate call uid plaintext => exact hinv.authenticate hnext
  | locked call now => exact hinv.locked hcrypt hnext

/-- Every password that was generated works exactly once, for its user and
before it expires. -/
theorem run_worksOnce (hcrypt : crypt.Exact) {actions : List Action}
    (hkeys : ∀ a ∈ actions, PlainKey a) {t : OtpwState η}
    (hrun : run (OtpwState.step crypt) initial actions = some t)
    {password : String} {uid : ℕ} {expires : ℚ}
    (hgenerated : .generated password uid expires ∈ t.log) :
    WorksOnce t.log password uid expires := by
  have hinv : OtpwInvariant crypt t := by
    have hguard : EveryStep (OtpwState.step crypt)
        (fun _ a => PlainKey a) initial actions :=
      everyStep_of_forall_mem fun _ a ha => hkeys a ha
    apply run_invariant_of_everyStep ?_ initial_otpwInvariant hguard hrun
    intro s a next hinv hkey hnext
    exact hinv.step hcrypt hkey hnext
  exact hinv.works password uid expires hgenerated

def plainCrypt : Unixhash (String × String) where
  sha512Crypt word salt := (salt, word)
  checkUnixhash passwd hash := passwd = hash.2

def overlappingUse : List Action :=
  [.generateForUid 1000 "abcdefghijklmnopqrstuvwx" "salt" 5,
    .authenticate 0 1000 "1_abcdef-ghijkl-mnopqr-stuvwx",
    .authenticate 1 1000 "1_abcdef-ghijkl-mnopqr-stuvwx",
    .authenticate 2 1001 "1_guess",
    .locked 2 6,
    .locked 1 7,
    .locked 0 8]

theorem overlappingUse_log :
    (run (OtpwState.step plainCrypt) initial overlappingUse).map (·.log) = some
        [.returned 1000 "1_abcdef-ghijkl-mnopqr-stuvwx" 8 .alreadyUsed,
          .returned 1000 "1_abcdef-ghijkl-mnopqr-stuvwx" 7 .success,
          .returned 1001 "1_guess" 6 .wrongUser,
          .generated "1_abcdef-ghijkl-mnopqr-stuvwx" 1000 86405] := by
  decide +kernel

theorem plainCrypt_exact : plainCrypt.Exact := by
  intro word salt passwd
  simp [plainCrypt]

theorem overlappingUse_worksOnce : ∃ t, run (OtpwState.step plainCrypt) initial
      overlappingUse = some t ∧
    WorksOnce t.log "1_abcdef-ghijkl-mnopqr-stuvwx" 1000 86405 := by
  obtain ⟨t, hrun, hlog⟩ := map_eq_some_iff.mp overlappingUse_log
  have hkeys : ∀ a ∈ overlappingUse, PlainKey a := by
    simp [overlappingUse, PlainKey]
  have hgenerated : .generated "1_abcdef-ghijkl-mnopqr-stuvwx" 1000 86405 ∈ t.log := by
    rw [hlog]
    simp
  exact ⟨t, hrun, run_worksOnce plainCrypt_exact hkeys hrun hgenerated⟩

end OtpwState

end Middlewared
