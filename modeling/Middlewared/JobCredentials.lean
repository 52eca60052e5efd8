import Middlewared.JobsQueueAdmission

/-!
# Jobs of restricted users

A user without full administrative access sees and aborts the jobs of its own sessions.
-/

namespace Middlewared.JobsQueue

open List TransitionSystem

inductive JobAccess where
  | read
  | abort
deriving DecidableEq

/-- `has_role`, which only a user session answers with yes. -/
def hasRole (credential : Credential) (role : String) : Bool :=
  credential.user.any fun user => role ∈ user.roles

/-- `none` when the job may be accessed. -/
def credentialAccessError (job : Job) (credential : Option Credential)
    (access : JobAccess) : Option String :=
  if !credentialIsLimitedToOwnJobs credential then none
  else
    match credential with
    | none => none
    | some credential =>
      if access = .read && (credential.isUserSession && job.readRoles.any (hasRole credential))
      then none
      else if !credential.isUserSession || credentialHasFullAdmin credential
      then none
      else
        match job.credentials.bind (·.user), credential.user with
        | none, _ =>
          some ("Only users with full administrative privileges can " ++
            "access internally ran jobs")
        | some owner, some user =>
          if owner.username = user.username then none
          else some "Job is not owned by current session"
        | some _, none => some "Job is not owned by current session"

def credentialCanAccess (job : Job) (credential : Option Credential)
    (access : JobAccess) : Bool :=
  (credentialAccessError job credential access).isNone

/-- The jobs that `for_credential` gives, with their ids. -/
def forCredential (q : JobsQueue) (credential : Option Credential)
    (access : JobAccess) : List (ℕ × JobId) :=
  if !credentialIsLimitedToOwnJobs credential then q.deque.jobs.entries
  else
    q.deque.jobs.entries.filter fun entry =>
      credentialCanAccess (q.jobs entry.2) credential access

theorem mem_forCredential_iff (q : JobsQueue) (credential : Option Credential)
    (access : JobAccess) (entry : ℕ × JobId) :
    entry ∈ q.forCredential credential access ↔ entry ∈ q.deque.jobs.entries ∧
        credentialAccessError (q.jobs entry.2) credential access = none := by
  unfold forCredential
  cases hlimited : credentialIsLimitedToOwnJobs credential with
  | false => simp [credentialAccessError, hlimited]
  | true =>
    simp [mem_filter, credentialCanAccess, Option.isNone_iff_eq_none]

variable {q : JobsQueue} {job : JobId} {user : SessionUser}

theorem credentialAccessError_abort_of_isOwnedBy {credential : Credential}
    (huser : credential.user = some user) (howned : q.isOwnedBy user job = true) :
    credentialAccessError (q.jobs job) (some credential) .abort = none := by
  unfold isOwnedBy at howned
  rw [Option.any_eq_true] at howned
  rcases howned with ⟨other, hother, howner⟩
  rw [Option.any_eq_true] at howner
  rcases howner with ⟨owner, howner, hname⟩
  have hsame : owner.username = user.username := (of_decide_eq_true hname).symm
  unfold credentialAccessError
  simp [hother, howner, huser, hsame]

/-! ## Submitting a job -/

def RestrictedOutcome (q : JobsQueue) (spec : JobSpec)
    (credential : Credential) : Prop :=
  match (q.add spec).2 with
  | .added job => job ∈ (q.add spec).1.queue
  | .replaced job =>
    job ∈ q.queue ∧ credentialAccessError (q.jobs job) (some credential) .abort = none
  | .raised (.callError _ _) => True
  | .raised _ => False

/-- The queue of the lock is full, and going back through it an internally
submitted job comes before any job of the user. -/
def InternalJobFirst (q : JobsQueue) (spec : JobSpec) (user : SessionUser) :
    Prop :=
  (∃ name, spec.lockName = .ok name) ∧ q.isFull spec = true ∧ spec.lockQueueSize ≠ some 0 ∧
    ∃ job, q.searchEnd user (q.competitors spec) = some job ∧ q.isInternal job = true

/-- There is room in the queue of the lock, and the event of the job cannot be
encoded, for another reason than a `CallError`. -/
def EncodingRaises (q : JobsQueue) (spec : JobSpec) : Prop :=
  (∃ name, spec.lockName = .ok name) ∧ q.isFull spec = false ∧
    ∃ error, spec.encodeError = some error ∧ ∀ message errno, error ≠ .callError message errno

theorem admission_of_added {other : JobId} (hadded : (q.admission job).2 = .added other) :
    q.admission job = q.enqueue job := by
  unfold admission at hadded ⊢
  cases hsize : (q.jobs job).lockQueueSize with
  | none => rfl
  | some size =>
    rw [hsize] at hadded
    cases size with
    | zero =>
      simp only at hadded ⊢
      split at hadded
      · cases hadded
      · rename_i hfree
        rw [if_neg hfree]
    | succ size =>
      simp only at hadded ⊢
      split at hadded
      · split at hadded <;> cases hadded
      · rename_i hroom
        rw [if_neg hroom]

theorem enqueue_of_added {other : JobId} (hadded : (q.enqueue job).2 = .added other) :
    other = job := by
  rw [enqueue_eq] at hadded
  cases herror : (q.jobs job).encodeError with
  | none =>
    rw [herror] at hadded
    cases hadded
    rfl
  | some error =>
    rw [herror] at hadded
    cases hadded

variable {spec : JobSpec}

theorem mem_queue_of_added (hadded : (q.add spec).2 = .added job) : job ∈ (q.add spec).1.queue := by
  rcases add_cases q spec with ⟨⟨error, hhandle⟩, -⟩ | ⟨registered, -, hadd⟩
  · unfold JobsQueue.add at hadded
    simp only [hhandle] at hadded
    cases hadded
  · rw [hadd] at hadded ⊢
    have henqueue := admission_of_added hadded
    rw [henqueue] at hadded ⊢
    rw [enqueue_of_added hadded, enqueue_state]
    exact mem_append_right _ (mem_singleton_self _)

theorem mem_queue_of_searchEnd (hfound : q.searchEnd user (q.competitors spec) = some job) :
    job ∈ q.queue :=
  mem_of_mem_filter (List.mem_reverse.mp (mem_of_find?_eq_some hfound))

theorem restrictedOutcome_iff_of_sound (hsound : q.Sound)
    (hcreated : q.DequeCreated) {lock : LockOption} {credential : Credential}
    (hname : spec.lockName = getLockName lock)
    (hcredentials : spec.credentials = some credential)
    (hlimited : credentialIsLimitedToOwnJobs (some credential) = true)
    (huser : credential.user = some user) :
    q.RestrictedOutcome spec credential ↔
      ¬q.InternalJobFirst spec user ∧ ¬q.EncodingRaises spec := by
  have hadded : ∀ job, (q.add spec).2 = .added job →
      job ∈ (q.add spec).1.queue := fun job => mem_queue_of_added
  have houtcome := add_outcome hsound hcreated spec
  unfold RestrictedOutcome InternalJobFirst EncodingRaises
  cases hlock : spec.lockName with
  | error error =>
    have hcall : ∃ message errno, error = .callError message errno := by
      rw [hname] at hlock
      cases lock with
      | constant name => cases hlock
      | callable name =>
        cases name with
        | none =>
          cases hlock
          exact ⟨_, _, rfl⟩
        | some name => cases hlock
    rcases hcall with ⟨message, errno, rfl⟩
    rw [hlock] at houtcome
    rw [houtcome]
    simp
  | ok name =>
    simp only [hlock] at houtcome
    cases hfull : q.isFull spec with
    | false =>
      simp only [hfull, Bool.false_eq_true, if_false] at houtcome
      cases hencode : spec.encodeError with
      | none =>
        simp only [hencode, Option.elim_none] at houtcome
        rw [houtcome]
        simp [hadded q.nextJob houtcome]
      | some error =>
        simp only [hencode, Option.elim_some] at houtcome
        rw [houtcome]
        cases error with
        | callError message errno => simp
        | attributeError => simp
        | exception name => simp
    | true =>
      simp only [hfull, if_true] at houtcome
      cases hsize : spec.lockQueueSize with
      | none =>
        rw [isFull, hsize] at hfull
        cases hfull
      | some size =>
        cases size with
        | zero =>
          simp only [hsize] at houtcome
          rw [houtcome]
          simp
        | succ size =>
          simp only [hsize, hcredentials, replacement_of_limited hlimited huser] at houtcome
          cases hsearch : q.searchEnd user (q.competitors spec) with
          | none =>
            simp only [hsearch] at houtcome
            rw [houtcome]
            simp
          | some job =>
            simp only [hsearch] at houtcome
            cases hinternal : q.isInternal job with
            | true =>
              rw [houtcome]
              simp [hinternal]
            | false =>
              have hend := find?_some hsearch
              have howned : q.isOwnedBy user job = true := by
                simpa [hinternal] using hend
              have haccess := credentialAccessError_abort_of_isOwnedBy huser howned
              rw [houtcome]
              simp [haccess, mem_queue_of_searchEnd hsearch, hinternal]

/-- A restricted user gets one of the allowed outcomes exactly when the search
does not end at a job without credentials and the event of the queued job can be
encoded; what is seen is right for everybody. -/
theorem restrictedOutcome_iff {q : JobsQueue} {actions : List Action}
    (hrun : run step init actions = some q)
    {spec : JobSpec} {lock : LockOption} {credential : Credential}
    {user : SessionUser} (hname : spec.lockName = getLockName lock)
    (hcredentials : spec.credentials = some credential)
    (hlimited : credentialIsLimitedToOwnJobs (some credential) = true)
    (huser : credential.user = some user) :
    (q.RestrictedOutcome spec credential ∧
        ∀ (any : Option Credential) (access : JobAccess) (entry : ℕ × JobId),
          entry ∈ q.forCredential any access ↔ entry ∈ q.deque.jobs.entries ∧
              credentialAccessError (q.jobs entry.2) any access = none) ↔
      ¬q.InternalJobFirst spec user ∧ ¬q.EncodingRaises spec := by
  obtain ⟨hsound, hcreated⟩ := run_sound_and_created hrun
  rw [restrictedOutcome_iff_of_sound hsound hcreated hname hcredentials hlimited huser]
  exact and_iff_left fun any access entry =>
    mem_forCredential_iff q any access entry

def restrictedUser : SessionUser where
  username := "bob"
  roles := {"POOL_SCRUB_WRITE"}

def scrubBy (credentials : Option Credential) : JobSpec where
  lockName := getLockName (.constant (some "scrub"))
  lockQueueSize := some 1
  credentials := credentials

def scrubByBob : JobSpec :=
  scrubBy (some { user := some restrictedUser })

def bobWaits : List Action :=
  [.add (scrubBy none), .nextWake, .nextAcquired, .add scrubByBob]

/-- While an internal job runs, a user who asks again is given back the job that
waits for it. -/
theorem restrictedOutcome_bobWaits : ∃ q, run step init bobWaits = some q ∧
    (q.add scrubByBob).2 = .replaced 1 ∧
    q.RestrictedOutcome scrubByBob { user := some restrictedUser } := by
  have hrun : ∃ q, run step init bobWaits = some q ∧ (q.add scrubByBob).2 = .replaced 1 ∧
      q.searchEnd restrictedUser (q.competitors scrubByBob) = some 1 ∧
      q.isInternal 1 = false := ⟨_, rfl, by decide, by decide, rfl⟩
  obtain ⟨q, hq, hreplaced, hsearch, hinternal⟩ := hrun
  have hname : scrubByBob.lockName = getLockName (.constant (some "scrub")) := rfl
  refine ⟨q, hq, hreplaced, ((restrictedOutcome_iff hq hname rfl (by decide) rfl).mpr ⟨?_, ?_⟩).1⟩
  · rintro ⟨-, -, -, job, hfound, hcontra⟩
    rw [hsearch, Option.some.injEq] at hfound
    rw [← hfound, hinternal] at hcontra
    cases hcontra
  · rintro ⟨-, -, error, herror, -⟩
    cases herror

/-- The queued job has no credentials to compare with. -/
theorem internal_job_raises : ∃ q, run step init [.add (scrubBy none)] = some q ∧
    (q.add scrubByBob).2 = .raised .attributeError :=
  ⟨_, rfl, by decide⟩

end Middlewared.JobsQueue
